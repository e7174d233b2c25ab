import HttpService.View.Url

/-! What happens to a view of a target in the course of its life. -/

namespace HttpService

inductive UrlCommand
  | bind (uri : Uri)
  | release
  | ask (op : UrlOp)
deriving DecidableEq

namespace UrlCommand

abbrev Answer : UrlCommand → Type
  | bind _ => Unit
  | release => Unit
  | ask op => op.Answer

def perform (view : UrlView) : (command : UrlCommand) → command.Answer × UrlView
  | bind uri => ((), view.bind uri)
  | release => ((), view.release)
  | ask op => op.perform view

def performAll (view : UrlView) : List UrlCommand → List ((command : UrlCommand) × command.Answer)
  | [] => []
  | command :: rest =>
    let (answer, view) := command.perform view
    ⟨command, answer⟩ :: performAll view rest

end UrlCommand

end HttpService
