import HttpService.Script.Step

/-! The programs that scripts stand for. -/

namespace HttpService

abbrev ScriptProgram := Program Target Memory
abbrev ScriptNative := NativeProgram Target Memory

def Memory.note (memory : Memory) (entry : Entry) : Memory := { memory with trace := memory.trace ++ [entry] }

namespace ScriptNative

def note (entry : Entry) (next : ScriptNative) : ScriptNative :=
  .recall fun memory => .remember (memory.note entry) next

def steps : List NativeStep → ScriptNative → ScriptNative
  | [], next => next
  | .writer op :: rest, next =>
    .call op fun answer => note (.native (.writer op answer)) (steps rest next)
  | .read part :: rest, next =>
    .ask fun request => note (.native (.read part (part.read request))) (steps rest next)
  | .panic message :: _, _ => .panic message

def endpoint (script : List NativeStep) : ScriptNative := note .endpoint (steps script .done)

end ScriptNative

namespace ScriptProgram

def note (entry : Entry) (next : ScriptProgram) : ScriptProgram :=
  .recall fun memory => .remember (memory.note entry) next

def nativeSteps : List NativeStep → List NativeEntry → ScriptProgram → ScriptProgram
  | [], entries, next => note (.nativeSteps (some entries)) next
  | .writer op :: rest, entries, next =>
    .call (.response (.native op)) fun answer =>
      match answer with
      | none => note (.nativeSteps none) next
      | some answer => nativeSteps rest (entries ++ [.writer op answer]) next
  | .read part :: rest, entries, next =>
    .call (.request .bound) fun bound =>
      match bound with
      | none => nativeSteps rest entries next
      | some request => nativeSteps rest (entries ++ [.read part (part.read request)]) next
  | .panic message :: _, _, _ => .panic message

def nativeSection (steps : List NativeStep) (next : ScriptProgram) : ScriptProgram :=
  .call (.response (.native .committed)) fun answer =>
    match answer with
    | none => note (.nativeSteps none) next
    | some _ => nativeSteps steps [] next

def requestFailure? : (op : RequestOp) → op.Answer → Option HandlerError
  | .fields op, answer => (op.failure? answer).map .fields
  | _, _ => none

def responseFailure? : (op : ResponseOp) → op.Answer → Option HandlerError
  | .fields op, answer => (op.failure? answer).map .fields
  | .writeHead _, .error error => some (.io error)
  | .write _, .error error => some (.io error)
  | .flush, .error error => some (.io error)
  | _, _ => none

def reenter (nested : Script → ScriptProgram) (request : Request) (target : TargetSpec) (script : Script)
    (next : ScriptProgram) : ScriptProgram :=
  .recall fun before =>
  .remember { before with trace := [] } <|
  .reenter request (target.writer request) (nested script) fun reentry =>
  .recall fun after =>
  .call .poolStats fun stats =>
  .remember { after with trace := before.trace } <|
  note (.reentered after.trace reentry.panic reentry.writer.sink.close stats) next

/-- One step; `next` is told how the step failed, if it did. The handler that dispatches from inside run for a
script is `nested`. -/
def step (nested : Script → ScriptProgram) :
    Step → (Option HandlerError → ScriptProgram) → ScriptProgram
  | .request op, next =>
    .call (.request op) fun answer => note (.request op answer) (next (requestFailure? op answer))
  | .nativeHost, next =>
    .call (.request .bound) fun bound => note (.nativeHost (bound.bind Request.host?)) (next none)
  | .response op, next =>
    .call (.response op) fun answer => note (.response op answer) (next (responseFailure? op answer))
  | .native steps, next => nativeSection steps (next none)
  | .pool, next => .call .poolStats fun stats => note (.pool stats) (next none)
  | .reenter request target script, next => reenter nested request target script (next none)
  | .attempt inner, next =>
    step nested inner fun failure =>
      match failure with
      | some error => .fail error
      | none => next none
  | .fail error, _ => .fail error
  | .panic message, _ => .panic message

def steps (nested : Script → ScriptProgram) : List Step → ScriptProgram
  | [] => .succeed
  | first :: rest => step nested first fun _ => steps nested rest

def endpoint (nested : Script → ScriptProgram) : Script → ScriptProgram
  | .views script => note .endpoint (steps nested script)
  | .native script => .ofNative (ScriptNative.endpoint script)

end ScriptProgram

structure RequestPatch where
  method : Option Method := none
  uri : Option Uri := none
  version : Option Version := none
  fields : Option Fields := none
  body : Option Bytes := none
  remote : Option (Option SocketAddress) := none
  tls : Option Bool := none
deriving DecidableEq

def RequestPatch.apply (patch : RequestPatch) (request : Request) : Request where
  method := patch.method.getD request.method
  uri := patch.uri.getD request.uri
  version := patch.version.getD request.version
  fields := patch.fields.getD request.fields
  body := patch.body.getD request.body
  remote := patch.remote.getD request.remote
  tls := patch.tls.getD request.tls

/-- A scripted middleware. Both kinds do something, call the handler that they wrap a number of times, and do
something afterwards. -/
inductive Layer
  | views (before after : List Step) (times : Nat) (swallow : Bool)
  | native (before after : List NativeStep) (times : Nat) (patch : RequestPatch)
      (foreign : Option RecorderPolicy) (foreignStatus : Option Status)

namespace Layer

def callTimes (handler : ScriptProgram) (swallow : Bool) (last : ScriptProgram) : Nat → ScriptProgram
  | 0 => last
  | times + 1 =>
    .attempt handler fun result =>
      ScriptProgram.note (.next result) <|
        match result with
        | .error error => if swallow then callTimes handler swallow last times else .fail error
        | .ok () => callTimes handler swallow last times

def callInner (request : Request) (foreign : Option (Writer Target)) (last : ScriptNative) :
    Nat → ScriptNative
  | 0 => last
  | times + 1 =>
    match foreign with
    | none => .inner request (callInner request foreign last times)
    | some writer =>
      .innerForeign request writer fun writer =>
        ScriptNative.note (.foreign writer.sink) (callInner request foreign last times)

def reentries : Layer → Nat
  | views before after _ _ => Step.stepsReentries before + Step.stepsReentries after
  | native _ _ _ _ _ _ => 0

def wrap (nested : Script → ScriptProgram) (handler : ScriptProgram) : Layer → ScriptProgram
  | views before after times swallow =>
    .attempt (ScriptProgram.steps nested before) fun result =>
      match result with
      | .error error => .fail error
      | .ok () => callTimes handler swallow (ScriptProgram.steps nested after) times
  | native before after times patch foreign status =>
    .wrapNative
      (ScriptNative.steps before <| .ask fun request =>
        callInner (patch.apply request)
          (foreign.map fun policy => ⟨.empty, .recorder { policy := policy, status := status }⟩)
          (ScriptNative.steps after .done) times)
      handler

end Layer

/-- What serves requests: nothing, a handler that cannot fail, a chain with middleware, of which the last is
the outermost, or a native handler without a server. -/
inductive Serving
  | missing
  | plain
  | chain (wrap : List Layer) (logger : Logger)
  | bare

/-- A server of scripts. With a queue, every endpoint that starts takes the next script of it, and the last one
again and again; without, a request brings its own. -/
structure Site where
  serving : Serving
  logger : Logger
  queue : Option (List Script)

namespace Site

def queued (scripts : List Script) (index : Nat) : Script :=
  (scripts[min index (scripts.length - 1)]?).getD .empty

def endpoint (site : Site) (nested : Script → ScriptProgram) (own : Script) : ScriptProgram :=
  match site.queue with
  | none => ScriptProgram.endpoint nested own
  | some scripts =>
    .recall fun memory =>
    .remember { memory with started := memory.started + 1 } <|
    ScriptProgram.endpoint nested (queued scripts memory.started)

def assemble (site : Site) (nested : Script → ScriptProgram) (own : Script) : ScriptProgram :=
  match site.serving with
  | .missing => .missingHandler site.logger
  | .plain =>
    .attempt (site.endpoint nested own) fun result =>
      match result with
      | .ok () => .succeed
      | .error error => ScriptProgram.note (.ignored error) .succeed
  | .chain layers logger =>
    .chain logger (layers.foldl (fun handler layer => layer.wrap nested handler) (site.endpoint nested own))
  | .bare => .succeed

def handler (site : Site) : Nat → Script → ScriptProgram
  | 0 => site.assemble fun _ => .panic "dispatches nested too deeply"
  | depth + 1 => site.assemble (site.handler depth)

def layerReentries (site : Site) : Nat :=
  match site.serving with
  | .chain layers _ => layers.foldl (fun total layer => total + layer.reentries) 0
  | _ => 0

/-- How deep dispatches can be nested. What a dispatch does depends on where it is written and on which script of
the queue comes next; one that is nested in another of which both are the same would nest for ever. -/
def depth (site : Site) (own : Script) : Nat :=
  match site.queue with
  | none => site.layerReentries + own.reentries
  | some scripts =>
    (scripts.foldl (fun total script => total + script.reentries) site.layerReentries + 1) * max scripts.length 1

def bareHandler (site : Site) (own : Script) : ScriptNative :=
  let run : Script → ScriptNative := fun script =>
    match script with
    | .native steps => ScriptNative.endpoint steps
    | .views _ => ScriptNative.endpoint []
  match site.queue with
  | none => run own
  | some scripts =>
    .recall fun memory =>
    .remember { memory with started := memory.started + 1 } <| run (queued scripts memory.started)

end Site

end HttpService
