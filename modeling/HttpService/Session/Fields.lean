import HttpService.View.Fields

/-! What happens to a view of header fields in the course of its life. -/

namespace HttpService

inductive FieldsCommand
  | bind (fields : Fields)
  | bindExclusive (fields : Fields)
  | release
  | lock
  | edit (change : Fields → Fields)
  | ask (op : FieldsOp)

namespace FieldsCommand

abbrev Answer : FieldsCommand → Type
  | bind _ => Unit
  | bindExclusive _ => Unit
  | release => Unit
  | lock => Unit
  | edit _ => Bool
  | ask op => op.Answer

def perform (view : FieldsView) : (command : FieldsCommand) → command.Answer × FieldsView
  | bind fields => ((), view.bind fields)
  | bindExclusive fields => ((), view.bindExclusive fields)
  | release => ((), view.release)
  | lock => ((), view.lock)
  | edit change =>
    match view.exclusive? with
    | none => (false, view)
    | some fields => (true, view.replaceExclusive (change fields))
  | ask op => op.perform view

def performAll (view : FieldsView) :
    List FieldsCommand → List ((command : FieldsCommand) × command.Answer × Option Fields)
  | [] => []
  | command :: rest =>
    let (answer, view) := command.perform view
    ⟨command, answer, view.fields?⟩ :: performAll view rest

end FieldsCommand

end HttpService
