import HttpService.Log
import HttpService.Sink
import HttpService.View.Fields

/-! The response as a handler sees it: nothing is sent until a head commits it, and from then on only body bytes
flow. -/

namespace HttpService

/-- What has gone to a sink through one adapter: the status of the head, the bytes that were taken, and
whether the head is known to be sent. -/
structure Tally where
  status : Status := .ok
  /-- The bytes of a response that have passed. They are fewer than `2 ^ 64`, so that a word holds their number. -/
  size : Nat := 0
  committed : Bool := false
deriving DecidableEq

/-- Stands between a response and a sink, and keeps a tally of what passes. -/
structure ResponseAdapter (κ : Type) where
  sink : Option κ := none
  tally : Tally := {}
deriving DecidableEq

namespace ResponseAdapter

variable {κ : Type} [Sink κ]

def unbound {ν : Type} : ResponseAdapter ν := {}

def bind {ν : Type} (_ : ResponseAdapter Empty) (sink : ν) : ResponseAdapter ν := { sink := some sink }

def release {ν : Type} (_ : ResponseAdapter ν) : ResponseAdapter Empty := unbound

def isBound {ν : Type} (adapter : ResponseAdapter ν) : Bool := adapter.sink.isSome

/-- Committed through this adapter, or by anyone else who writes to the same sink. -/
def committed (adapter : ResponseAdapter κ) : Bool := adapter.tally.committed || adapter.sink.any Sink.committed

def notBound : IoError := ⟨.notConnected, "response is not bound"⟩

def commit (adapter : ResponseAdapter κ) (status : Status) (fields : Fields) :
    Attempt Bool (ResponseAdapter κ) :=
  if adapter.committed then ⟨.ok false, { adapter with tally := { adapter.tally with committed := true } }⟩
  else
    match adapter.sink with
    | none => ⟨.error notBound, adapter⟩
    | some sink =>
      let sent := Sink.writeHead sink status fields
      match sent.result with
      | .error error => ⟨.error error, { adapter with sink := some sent.state }⟩
      | .ok () =>
        ⟨.ok true,
          { sink := some sent.state
            tally := { adapter.tally with status := status, committed := true } }⟩

def write (adapter : ResponseAdapter κ) (content : Bytes) : Attempt Nat (ResponseAdapter κ) :=
  match adapter.sink with
  | none => ⟨.error notBound, adapter⟩
  | some sink =>
    let taken := Sink.writeBody sink content
    match taken.result with
    | .error error => ⟨.error error, { adapter with sink := some taken.state }⟩
    | .ok count =>
      ⟨.ok count,
        { sink := some taken.state
          tally := { adapter.tally with size := adapter.tally.size + count } }⟩

def flush (adapter : ResponseAdapter κ) : Attempt Unit (ResponseAdapter κ) :=
  match adapter.sink with
  | none => ⟨.error notBound, adapter⟩
  | some sink =>
    let flushed := Sink.flush sink
    ⟨flushed.result, { adapter with sink := some flushed.state }⟩

/-- An adapter is a sink itself, so that what is written to it by others counts as well. -/
instance : Sink (ResponseAdapter κ) where
  writeHead adapter status fields :=
    let sent := adapter.commit status fields
    ⟨sent.result.map fun _ => (), sent.state⟩
  writeBody := write
  committed := committed
  flush := flush

def text {ν : Type} (adapter : ResponseAdapter ν) : String :=
  s!"ResponseAdapter \x7b bound: {adapter.isBound}, status: {adapter.tally.status.code}, " ++
    s!"size: {adapter.tally.size}, committed: {adapter.tally.committed} \x7d"

end ResponseAdapter

structure ResponseView (κ : Type) where
  adapter : ResponseAdapter κ
  fields : FieldsView
  logger : Option Logger
deriving DecidableEq

namespace ResponseView

variable {κ : Type} [Sink κ]

def unbound {ν : Type} : ResponseView ν := ⟨.unbound, .unbound, none⟩

def bind {ν : Type} (_ : ResponseView Empty) (adapter : ResponseAdapter ν) (fields : FieldsView)
    (logger : Logger) : ResponseView ν :=
  ⟨adapter, fields, some logger⟩

def release {ν : Type} (view : ResponseView ν) : ResponseView Empty × ResponseAdapter Empty × FieldsView :=
  (.unbound, view.adapter.release, view.fields.release)

def settle (view : ResponseView κ) : ResponseView κ :=
  if view.adapter.committed then { view with fields := view.fields.lock } else view

def alreadyCommitted : String := "response already committed"

def warn {ν : Type} (view : ResponseView ν) (message : String) : List LogEntry :=
  match view.logger with
  | none => []
  | some logger => logger.log .warn message

structure Effect (α κ : Type) where
  result : Except IoError α
  view : ResponseView κ
  log : List LogEntry

/-- Sends the head with the fields as they are. A response that is committed already stays as it is, and a
warning says so. -/
def writeHead (view : ResponseView κ) (status : Status) : Effect Unit κ :=
  let sent := view.adapter.commit status (view.fields.fields?.getD .empty)
  let after := { view with adapter := sent.state }
  match sent.result with
  | .error error => ⟨.error error, after, []⟩
  | .ok fresh =>
    ⟨.ok (), { after with fields := after.fields.lock }, if fresh then [] else view.warn alreadyCommitted⟩

def write (view : ResponseView κ) (content : Bytes) : Effect Nat κ :=
  let head : Effect Unit κ := if view.adapter.committed then ⟨.ok (), view, []⟩ else view.writeHead .ok
  match head.result with
  | .error error => ⟨.error error, head.view, head.log⟩
  | .ok () =>
    let taken := head.view.adapter.write content
    ⟨taken.result, { head.view with adapter := taken.state }, head.log⟩

def flush (view : ResponseView κ) : Effect Unit κ :=
  let flushed := view.adapter.flush
  ⟨flushed.result, { view with adapter := flushed.state }, []⟩

/-- The writer behind the response: its fields, and its adapter as the sink. There is none where the adapter is
not bound or the fields cannot be changed. -/
def native? {ν : Type} (view : ResponseView ν) : Option (Writer (ResponseAdapter ν)) :=
  if view.adapter.isBound then view.fields.exclusive?.map fun fields => ⟨fields, view.adapter⟩ else none

def restore {ν : Type} (view : ResponseView ν) (writer : Writer (ResponseAdapter ν)) : ResponseView ν :=
  { view with adapter := writer.sink, fields := view.fields.replaceExclusive writer.fields }

end ResponseView

inductive ResponseOp
  | fields (op : FieldsOp)
  | writeHead (status : Status)
  | write (content : Bytes)
  | flush
  | status
  | size
  | committed
  | native (op : WriterOp)
  | log (level : Level) (message : String)
deriving DecidableEq

namespace ResponseOp

abbrev Answer : ResponseOp → Type
  | fields op => op.Answer
  | writeHead _ => Except IoError Unit
  | write _ => Except IoError Nat
  | flush => Except IoError Unit
  | status => Status
  | size => Nat
  | committed => Bool
  | native op => Option op.Answer
  | log _ _ => Bool

structure Effect (α κ : Type) where
  answer : α
  view : ResponseView κ
  log : List LogEntry

def perform {κ : Type} [Sink κ] (view : ResponseView κ) : (op : ResponseOp) → Effect op.Answer κ
  | fields op =>
    let settled := view.settle
    let (answer, changed) := op.perform settled.fields
    ⟨answer, { settled with fields := changed }, []⟩
  | writeHead code => let effect := view.writeHead code; ⟨effect.result, effect.view, effect.log⟩
  | write content => let effect := view.write content; ⟨effect.result, effect.view, effect.log⟩
  | flush => let effect := view.flush; ⟨effect.result, effect.view, effect.log⟩
  | status => ⟨view.adapter.tally.status, view, []⟩
  | size => ⟨view.adapter.tally.size, view, []⟩
  | committed => ⟨view.adapter.committed, view, []⟩
  | native op =>
    match view.native? with
    | none => ⟨none, view, []⟩
    | some writer =>
      let (answer, writer) := op.perform writer
      ⟨some answer, view.restore writer, []⟩
  | log level message =>
    match view.logger with
    | none => ⟨false, view, []⟩
    | some logger => ⟨true, view, logger.log level message⟩

end ResponseOp

end HttpService
