import HttpService.Connection
import HttpService.Handler.Program

/-! What handlers do: programs run on an exchange, and servers dispatch requests to them. -/

namespace HttpService

structure Exchange (κ : Type) where
  request : RequestView
  response : ResponseView κ

/-- What outlives an exchange: the pools of the server, if there is one, what has been logged, and the memory of
the handlers. -/
structure World (τ : Type) where
  pools : Option Pools
  log : List LogEntry
  memory : τ

def World.report {τ : Type} (world : World τ) (entries : List LogEntry) : World τ :=
  { world with log := world.log ++ entries }

inductive Ending
  | finished (result : Except HandlerError Unit)
  | panicked (message : String)

def Ending.panic? : Ending → Option String
  | finished _ => none
  | panicked message => some message

structure Run (κ τ : Type) where
  ending : Ending
  exchange : Exchange κ
  world : World τ

structure Call (κ τ : Type) where
  ending : Ending
  writer : Writer κ
  world : World τ

section

variable {κ τ : Type}

def Op.perform [Sink κ] (exchange : Exchange κ) (world : World τ) :
    (op : Op) → op.Answer × Exchange κ × World τ
  | request op =>
    let (answer, view) := op.perform exchange.request
    (answer, { exchange with request := view }, world)
  | response op =>
    let effect := op.perform exchange.response
    (effect.answer, { exchange with response := effect.view }, world.report effect.log)
  | log logger level message => ((), exchange, world.report (logger.log level message))
  | poolStats => (world.pools.map Pools.stats, exchange, world)

def Pools.Lease.bind (lease : Pools.Lease) (request : Request) (writer : Writer κ) (logger : Logger) :
    Exchange κ where
  request :=
    lease.request.bind request (lease.requestFields.bind request.fields) (lease.url.bind request.uri)
  response :=
    lease.response.bind (lease.adapter.bind writer.sink) (lease.responseFields.bindExclusive writer.fields) logger

def Exchange.release (exchange : Exchange κ) : Pools.Lease :=
  let (request, requestFields, url) := exchange.request.release
  let (response, adapter, responseFields) := exchange.response.release
  ⟨requestFields, url, responseFields, adapter, request, response⟩

def Exchange.writer (exchange : Exchange κ) (given : Writer κ) : Writer κ :=
  ⟨exchange.response.fields.exclusive?.getD given.fields, exchange.response.adapter.sink.getD given.sink⟩

def withViews (logger : Logger) (body : Exchange κ → World τ → Run κ τ) (request : Request)
    (writer : Writer κ) (world : World τ) : Call κ τ :=
  let run := body (Pools.Lease.fresh.bind request writer logger) world
  ⟨run.ending, run.exchange.writer writer, run.world⟩

/-- Runs a handler on a request and a writer, with views from the pools, which get them back even after a
panic. -/
def dispatch (logger : Logger) (body : Exchange κ → World τ → Run κ τ) (request : Request)
    (writer : Writer κ) (world : World τ) : Call κ τ :=
  match world.pools with
  | none => withViews logger body request writer world
  | some pools =>
    let (lease, pools) := pools.checkout
    let run := body (lease.bind request writer logger) { world with pools := some pools }
    ⟨run.ending, run.exchange.writer writer,
      { run.world with pools := run.world.pools.map fun pools => pools.checkin run.exchange.release }⟩

end

structure NativeRun (κ τ : Type) where
  panic : Option String
  captured : Option HandlerError
  writer : Writer κ
  world : World τ

abbrev InnerCall (τ : Type) := {ν : Type} → [Sink ν] → Request → Writer ν → World τ → Call ν τ

namespace NativeProgram

variable {σ τ κ : Type} [Sink σ] [Sink κ]

/-- The error that is known after an inner call: a call that succeeds does not erase an earlier one. -/
def capture (captured : Option HandlerError) : Except HandlerError Unit → Option HandlerError
  | .ok () => captured
  | .error error => some error

def run (inner : InnerCall τ) (given : Request) :
    NativeProgram σ τ → Option HandlerError → Writer κ → World τ → NativeRun κ τ
  | .done, captured, writer, world => ⟨none, captured, writer, world⟩
  | .panic message, captured, writer, world => ⟨some message, captured, writer, world⟩
  | .recall next, captured, writer, world => (next world.memory).run inner given captured writer world
  | .remember memory next, captured, writer, world =>
    next.run inner given captured writer { world with memory := memory }
  | .ask next, captured, writer, world => (next given).run inner given captured writer world
  | .call op next, captured, writer, world =>
    let (answer, writer) := op.perform writer
    (next answer).run inner given captured writer world
  | .inner request next, captured, writer, world =>
    let call := inner request writer world
    match call.ending with
    | .panicked message => ⟨some message, captured, call.writer, call.world⟩
    | .finished result => next.run inner given (capture captured result) call.writer call.world
  | .innerForeign request foreign next, captured, writer, world =>
    let call := inner request foreign world
    match call.ending with
    | .panicked message => ⟨some message, captured, writer, call.world⟩
    | .finished result => (next call.writer).run inner given (capture captured result) writer call.world

def serve (handler : NativeProgram σ τ) : Serve κ (World τ) := fun request writer world =>
  let run := handler.run (fun _ writer world => ⟨.finished (.ok ()), writer, world⟩) request none writer world
  ⟨run.panic, run.writer, run.world⟩

end NativeProgram

namespace Program

variable {σ τ : Type} [Sink σ]

def resultOf : Option HandlerError → Except HandlerError Unit
  | none => .ok ()
  | some error => .error error

/-- Runs a program on an exchange. The logger is that of the server, for requests that it dispatches from
inside; calls across a bridge log where the outer response does. -/
def run (logger : Logger) :
    Program σ τ → {κ : Type} → [Sink κ] → Exchange κ → World τ → Run κ τ
  | .done result, _, _, exchange, world => ⟨.finished result, exchange, world⟩
  | .panic message, _, _, exchange, world => ⟨.panicked message, exchange, world⟩
  | .recall next, _, _, exchange, world => (next world.memory).run logger exchange world
  | .remember memory next, _, _, exchange, world => next.run logger exchange { world with memory := memory }
  | .call op next, _, _, exchange, world =>
    let (answer, exchange, world) := op.perform exchange world
    (next answer).run logger exchange world
  | .attempt inner next, _, _, exchange, world =>
    let first := inner.run logger exchange world
    match first.ending with
    | .panicked message => ⟨.panicked message, first.exchange, first.world⟩
    | .finished result => (next result).run logger first.exchange first.world
  | .bridge middleware inner next, _, _, exchange, world =>
    match exchange.request.bound, exchange.response.native? with
    | some request, some writer =>
      let inherited := exchange.response.logger.getD .tracing
      let native := middleware.run (fun request writer world =>
        withViews inherited (fun exchange world => inner.run logger exchange world) request writer world)
        request none writer world
      let exchange := { exchange with response := exchange.response.restore native.writer }
      match native.panic with
      | some message => ⟨.panicked message, exchange, native.world⟩
      | none => (next (resultOf native.captured)).run logger exchange native.world
    | _, _ => (next (.error .unsupportedAdapter)).run logger exchange world
  | .reenter request writer inner next, _, _, exchange, world =>
    let call := dispatch logger (fun exchange world => inner.run logger exchange world) request writer world
    (next ⟨call.ending.panic?, call.writer⟩).run logger exchange call.world

def serve {κ : Type} [Sink κ] (handler : Program σ τ) (logger : Logger) : Serve κ (World τ) :=
  fun request writer world =>
    let call := dispatch logger (fun exchange world => handler.run logger exchange world) request writer world
    ⟨call.ending.panic?, call.writer, call.world⟩

end Program

end HttpService
