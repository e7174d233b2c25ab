import HttpService.Handler.Chain
import HttpService.Sink.Target

/-! Scripts: handlers that are lists of steps, and the traces that they leave. -/

namespace HttpService

inductive RequestPart
  | method
  | uri
  | path
  | query
  | version
  | field (key : Bytes)
  | fields
  | body
  | remote
  | tls
  | host
deriving DecidableEq

namespace RequestPart

abbrev Answer : RequestPart → Type
  | method => Method
  | uri => String
  | path => String
  | query => Option String
  | version => Version
  | field _ => Option FieldValue
  | fields => Fields
  | body => Bytes
  | remote => Option SocketAddress
  | tls => Bool
  | host => Option String

def read (request : Request) : (part : RequestPart) → part.Answer
  | method => request.method
  | uri => request.uri.text
  | path => Utf8.lossy request.uri.path
  | query => request.uri.query?.map Utf8.lossy
  | version => request.version
  | field key => request.fields.lookup? key
  | fields => request.fields
  | body => request.body
  | remote => request.remote
  | tls => request.tls
  | host => request.host?

end RequestPart

inductive NativeStep
  | writer (op : WriterOp)
  | read (part : RequestPart)
  | panic (message : String)
deriving DecidableEq

inductive TargetSpec
  | buffer
  | recorder (policy : RecorderPolicy) (committed : Option Status) (fields : Fields)
deriving DecidableEq

namespace TargetSpec

def writer (spec : TargetSpec) (request : Request) : Writer Target :=
  match spec with
  | buffer => ⟨.empty, .buffer ((ResponseBuffer.new {}).reset request {})⟩
  | recorder policy committed fields => ⟨fields, .recorder { policy := policy, status := committed }⟩

end TargetSpec

mutual

inductive Step
  | request (op : RequestOp)
  | nativeHost
  | response (op : ResponseOp)
  | native (steps : List NativeStep)
  | pool
  | reenter (request : Request) (target : TargetSpec) (script : Script)
  | attempt (step : Step)
  | fail (error : HandlerError)
  | panic (message : String)

/-- What an endpoint does: steps on the views, or steps of a native handler. -/
inductive Script
  | views (steps : List Step)
  | native (steps : List NativeStep)

end

namespace Step

def missingPartText : String := "index out of bounds"

def missingPart (parts : Nat) : String := s!"{missingPartText}: the len is {parts} but the index is {parts}"

mutual

def reentries : Step → Nat
  | reenter _ _ script => scriptReentries script + 1
  | attempt step => reentries step
  | _ => 0

def stepsReentries : List Step → Nat
  | [] => 0
  | step :: rest => reentries step + stepsReentries rest

def scriptReentries : Script → Nat
  | .views steps => stepsReentries steps
  | .native _ => 0

end

end Step

def Script.reentries (script : Script) : Nat := Step.scriptReentries script

def Script.empty : Script := .views []

inductive NativeEntry
  | writer (op : WriterOp) (answer : op.Answer)
  | read (part : RequestPart) (answer : part.Answer)

inductive Entry
  | endpoint
  | ignored (error : HandlerError)
  | request (op : RequestOp) (answer : op.Answer)
  | nativeHost (host : Option String)
  | response (op : ResponseOp) (answer : op.Answer)
  | nativeSteps (entries : Option (List NativeEntry))
  | native (entry : NativeEntry)
  | pool (stats : Option PoolsStats)
  | reentered (trace : List Entry) (panic : Option String) (outcome : Outcome) (stats : Option PoolsStats)
  | next (result : Except HandlerError Unit)
  | foreign (target : Target)

structure Memory where
  trace : List Entry
  started : Nat

def Memory.start : Memory := ⟨[], 0⟩

end HttpService
