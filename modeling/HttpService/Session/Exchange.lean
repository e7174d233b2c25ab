import HttpService.Script.Site

/-! Steps on views that are bound one by one, outside of any server. -/

namespace HttpService

def Step.runOn {κ : Type} [Sink κ] (step : Step) (exchange : Exchange κ) (log : List LogEntry) :
    Run κ Memory :=
  (ScriptProgram.steps (fun _ => .succeed) [step]).run .full exchange ⟨none, log, .start⟩

inductive ResponseCommand
  | bind (policy : RecorderPolicy) (committed : Option Status) (fields : Fields) (readOnly : Bool)
  | release
  | step (step : Step)

inductive ResponseReport
  | bound
  | released (adapter : ResponseAdapter Empty) (fieldsBound : Bool)
  | stepped (entries : List Entry)

structure ResponseSession where
  response : ResponseView Recorder
  last : Option Recorder
  log : List LogEntry

namespace ResponseSession

def start : ResponseSession := ⟨.unbound, none, []⟩

def recorder? (session : ResponseSession) : Option Recorder :=
  match session.response.adapter.sink with
  | some recorder => some recorder
  | none => session.last

def perform (logger : Logger) (session : ResponseSession) :
    ResponseCommand → Except String (ResponseReport × ResponseSession)
  | .bind policy committed fields readOnly =>
    let recorder : Recorder := { policy := policy, status := committed }
    let view := if readOnly then FieldsView.unbound.bind fields else FieldsView.unbound.bindExclusive fields
    .ok (.bound,
      { session with
        response := ResponseView.unbound.bind (ResponseAdapter.unbound.bind recorder) view logger
        last := some recorder })
  | .release =>
    let recorder := session.recorder?
    let (_, adapter, fields) := session.response.release
    .ok (.released adapter fields.isBound, { session with response := .unbound, last := recorder })
  | .step step =>
    let run := step.runOn ⟨.unbound, session.response⟩ session.log
    match run.ending with
    | .panicked message => .error message
    | .finished _ =>
      .ok (.stepped run.world.memory.trace,
        { session with response := run.exchange.response, log := run.world.log })

def performAll (logger : Logger) (session : ResponseSession) :
    List ResponseCommand → Except String (List ResponseReport × ResponseSession)
  | [] => .ok ([], session)
  | command :: rest => do
    let (report, session) ← session.perform logger command
    let (reports, session) ← session.performAll logger rest
    return (report :: reports, session)

end ResponseSession

inductive RequestCommand
  | bind (request : Request)
  | release
  | step (step : Step)

inductive RequestReport
  | bound
  | released (fieldsBound : Bool) (path : String)
  | stepped (entries : List Entry)

structure RequestSession where
  view : RequestView
  fields : FieldsView
  url : UrlView

namespace RequestSession

def start : RequestSession := ⟨.unbound, .unbound, .unbound⟩

def perform (session : RequestSession) : RequestCommand → Except String (RequestReport × RequestSession)
  | .bind request =>
    .ok (.bound,
      { view := session.view.bind request (session.fields.bind request.fields) (session.url.bind request.uri)
        fields := .unbound
        url := .unbound })
  | .release =>
    let (view, fields, url) := session.view.release
    .ok (.released fields.isBound url.path, ⟨view, fields, url⟩)
  | .step step =>
    let exchange : Exchange Recorder := ⟨session.view, .unbound⟩
    let run := step.runOn exchange []
    match run.ending with
    | .panicked message => .error message
    | .finished _ => .ok (.stepped run.world.memory.trace, { session with view := run.exchange.request })

def performAll (session : RequestSession) : List RequestCommand → Except String (List RequestReport)
  | [] => .ok []
  | command :: rest => do
    let (report, session) ← session.perform command
    let reports ← session.performAll rest
    return report :: reports

end RequestSession

structure BridgeCall where
  request : Option Request
  bindResponse : Bool
  readOnly : Bool
  handler : ScriptProgram

structure BridgeReport where
  ending : Ending
  trace : List Entry
  recorder : Recorder
  log : List LogEntry

namespace BridgeCall

def ofScript : Script → ScriptProgram
  | .native steps => .ofNative (ScriptNative.endpoint steps)
  | .views steps => .wrapNative .passThrough (ScriptProgram.endpoint (fun _ => .succeed) (.views steps))

def exchange (call : BridgeCall) : Exchange Recorder where
  request :=
    match call.request with
    | none => .unbound
    | some request =>
      RequestView.unbound.bind request (FieldsView.unbound.bind request.fields) (UrlView.unbound.bind request.uri)
  response :=
    if call.bindResponse then
      ResponseView.unbound.bind (ResponseAdapter.unbound.bind { policy := {} })
        (if call.readOnly then FieldsView.unbound.bind .empty else FieldsView.unbound.bindExclusive .empty) .full
    else .unbound

def run (call : BridgeCall) : BridgeReport :=
  let run := call.handler.run .full call.exchange ⟨none, [], .start⟩
  ⟨run.ending, run.world.memory.trace, run.exchange.response.adapter.sink.getD { policy := {} }, run.world.log⟩

end BridgeCall

end HttpService
