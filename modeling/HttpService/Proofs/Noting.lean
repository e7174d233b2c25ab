import HttpService.Handler.Run

/-! Handlers that note whatever they come to know. A note of it changes nothing else. -/

namespace HttpService

/-- What a handler comes to know: the answer to an operation, how a call has ended, what it is given. It also notes
where a dispatch begins and where it has ended. -/
inductive Observation (σ : Type)
  | performed (op : Op) (answer : op.Answer)
  | called (op : WriterOp) (answer : op.Answer)
  | asked (request : Request)
  | lent (writer : Writer σ)
  | returned (result : Except HandlerError Unit)
  | reentered (reentry : Reentry σ)
  | entered
  | left

section

variable {σ τ υ κ : Type}

def World.note (world : World (τ × List (Observation σ))) (observation : Observation σ) :
    World (τ × List (Observation σ)) :=
  { world with memory := (world.memory.1, world.memory.2 ++ [observation]) }

def World.forget (world : World (τ × List (Observation σ))) : World τ := ⟨world.pools, world.log, world.memory.1⟩

def Run.over (change : World τ → World υ) (run : Run κ τ) : Run κ υ := ⟨run.ending, run.exchange, change run.world⟩

def Call.over (change : World τ → World υ) (call : Call κ τ) : Call κ υ := ⟨call.ending, call.writer, change call.world⟩

def NativeRun.over (change : World τ → World υ) (run : NativeRun κ τ) : NativeRun κ υ :=
  ⟨run.panic, run.captured, run.writer, change run.world⟩

theorem withViews_over {change : World τ → World υ} {body : Exchange κ → World τ → Run κ τ}
    {plain : Exchange κ → World υ → Run κ υ}
    (same : ∀ exchange world, (body exchange world).over change = plain exchange (change world)) (logger : Logger)
    (request : Request) (writer : Writer κ) (world : World τ) :
    (withViews logger body request writer world).over change =
      withViews logger plain request writer (change world) := by
  simp only [withViews, ← same]
  rfl

def World.recast (change : τ → υ) (world : World τ) : World υ := ⟨world.pools, world.log, change world.memory⟩

theorem dispatch_recast {change : τ → υ} {body : Exchange κ → World τ → Run κ τ}
    {plain : Exchange κ → World υ → Run κ υ}
    (same : ∀ exchange world, (body exchange world).over (World.recast change) = plain exchange (world.recast change))
    (logger : Logger) (request : Request) (writer : Writer κ) (world : World τ) :
    (dispatch logger body request writer world).over (World.recast change) =
      dispatch logger plain request writer (world.recast change) := by
  obtain ⟨pools, log, memory⟩ := world
  cases pools with
  | none => exact withViews_over same logger request writer ⟨none, log, memory⟩
  | some pools =>
      have told := same (pools.checkout.1.bind request writer logger) ⟨some pools.checkout.2, log, memory⟩
      simp only [dispatch, World.recast] at told ⊢
      rw [← told]
      rfl

theorem dispatch_forget {body : Exchange κ → World (τ × List (Observation σ)) → Run κ (τ × List (Observation σ))}
    {plain : Exchange κ → World τ → Run κ τ}
    (same : ∀ exchange world, (body exchange world).over World.forget = plain exchange world.forget) (logger : Logger)
    (request : Request) (writer : Writer κ) (world : World (τ × List (Observation σ))) :
    (dispatch logger body request writer world).over World.forget =
      dispatch logger plain request writer world.forget :=
  have recast : ∀ exchange world, (body exchange world).over (World.recast Prod.fst) =
    plain exchange (world.recast Prod.fst) := same
  dispatch_recast recast logger request writer world

end

namespace NativeProgram

variable {σ τ κ : Type}

def note (observation : Observation σ) (program : NativeProgram σ (τ × List (Observation σ))) :
    NativeProgram σ (τ × List (Observation σ)) :=
  .recall fun known => .remember (known.1, known.2 ++ [observation]) program

def noting : NativeProgram σ τ → NativeProgram σ (τ × List (Observation σ))
  | .done => .done
  | .panic message => .panic message
  | .recall next => .recall fun known => (next known.1).noting
  | .remember memory next => .recall fun known => .remember (memory, known.2) next.noting
  | .ask next => .ask fun request => note (.asked request) (next request).noting
  | .call op next => .call op fun answer => note (.called op answer) (next answer).noting
  | .inner request next => .inner request next.noting
  | .innerForeign request writer next =>
    .innerForeign request writer fun writer => note (.lent writer) (next writer).noting

variable [Sink σ] [Sink κ]

theorem run_noting {inner : InnerCall (τ × List (Observation σ))} {plain : InnerCall τ}
    (same : ∀ {ν : Type} [Sink ν] (request : Request) (writer : Writer ν) (world : World (τ × List (Observation σ))),
      (inner request writer world).over World.forget = plain request writer world.forget)
    (program : NativeProgram σ τ) (given : Request) (captured : Option HandlerError) (writer : Writer κ)
    (world : World (τ × List (Observation σ))) :
    (program.noting.run inner given captured writer world).over World.forget =
      program.run plain given captured writer world.forget := by
  induction program generalizing captured writer world with
  | done => rfl
  | panic message => rfl
  | «recall» next ih => exact ih world.memory.1 captured writer world
  | remember memory next ih => exact ih captured writer _
  | ask next ih => exact ih given captured writer (world.note _)
  | call op next ih => exact ih _ captured _ (world.note _)
  | inner request next ih =>
      have told := same request writer world
      simp only [noting, run, ← told, Call.over]
      cases (inner request writer world).ending with
      | panicked message => rfl
      | finished result => exact ih _ _ _
  | innerForeign request foreign next ih =>
      have told := same request foreign world
      simp only [noting, run, ← told, Call.over]
      cases (inner request foreign world).ending with
      | panicked message => rfl
      | finished result => exact ih _ _ writer (World.note _ _)

end NativeProgram

namespace Program

variable {σ τ : Type}

def note (observation : Observation σ) (program : Program σ (τ × List (Observation σ))) :
    Program σ (τ × List (Observation σ)) :=
  .recall fun known => .remember (known.1, known.2 ++ [observation]) program

def noting : Program σ τ → Program σ (τ × List (Observation σ))
  | .done result => .done result
  | .panic message => .panic message
  | .recall next => .recall fun known => (next known.1).noting
  | .remember memory next => .recall fun known => .remember (memory, known.2) next.noting
  | .call op next => .call op fun answer => note (.performed op answer) (next answer).noting
  | .attempt inner next => .attempt inner.noting fun result => note (.returned result) (next result).noting
  | .bridge middleware inner next =>
    .bridge middleware.noting inner.noting fun result => note (.returned result) (next result).noting
  | .reenter request writer inner next =>
    .reenter request writer (note .entered inner.noting) fun reentry =>
      note .left (note (.reentered reentry) (next reentry).noting)

variable [Sink σ]

theorem run_noting (program : Program σ τ) (logger : Logger) {κ : Type} [Sink κ] (exchange : Exchange κ)
    (world : World (τ × List (Observation σ))) :
    (program.noting.run logger exchange world).over World.forget = program.run logger exchange world.forget := by
  induction program generalizing κ exchange world with
  | done result => rfl
  | panic message => rfl
  | «recall» next ih => exact ih world.memory.1 exchange world
  | remember memory next ih => exact ih exchange _
  | call op next ih => cases op <;> exact ih _ _ (World.note _ _)
  | attempt inner next innerSame ih =>
      have told := innerSame exchange world
      simp only [noting, run, ← told, Run.over]
      cases (inner.noting.run logger exchange world).ending with
      | panicked message => rfl
      | finished result => exact ih _ _ (World.note _ _)
  | bridge middleware inner next innerSame ih =>
      simp only [noting, run]
      cases exchange.request.bound with
      | none => exact ih _ exchange (world.note _)
      | some request =>
          cases exchange.response.native? with
          | none => exact ih _ exchange (world.note _)
          | some writer =>
              have told : (middleware.noting.run (fun request writer world =>
                    withViews (exchange.response.logger.getD .tracing)
                      (fun exchange world => inner.noting.run logger exchange world) request writer world)
                    request none writer world).over World.forget =
                  middleware.run (fun request writer world => withViews (exchange.response.logger.getD .tracing)
                    (fun exchange world => inner.run logger exchange world) request writer world)
                    request none writer world.forget :=
                middleware.run_noting (fun request writer world =>
                  withViews_over (fun exchange world => innerSame exchange world) _ request writer world) ..
              simp only [← told]
              generalize NativeProgram.run _ request middleware.noting none writer world = native
              obtain ⟨panic, captured, writer, later⟩ := native
              cases panic with
              | none => exact ih _ _ (later.note _)
              | some message => rfl
  | reenter request writer inner next innerSame ih =>
      have told := dispatch_forget (fun exchange world => innerSame exchange (world.note .entered)) logger request
        writer world
      simp only [noting, run, ← told, Call.over]
      exact ih _ exchange (World.note (World.note _ _) _)

end Program

end HttpService
