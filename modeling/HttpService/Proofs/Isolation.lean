import HttpService.Proofs.Noting
import HttpService.Sink.Recorder

/-! What a server has dispatched before makes no difference to a request. Views from the pools are as good as views made
for this one call. -/

namespace HttpService

/-- One dispatch: a request, a writer over whatever sink, what the handler does about them, and where it logs. -/
structure Errand (σ τ : Type) where
  {κ : Type}
  [sink : Sink κ]
  request : Request
  writer : Writer κ
  handler : Program σ τ
  logger : Logger

attribute [instance] Errand.sink

section

variable {σ τ : Type} [Sink σ]

def Errand.run (errand : Errand σ τ) (world : World τ) : World τ :=
  (dispatch errand.logger (fun exchange world => errand.handler.run errand.logger exchange world) errand.request
    errand.writer world).world

def World.after (world : World τ) (errands : List (Errand σ τ)) : World τ :=
  errands.foldl (fun world errand => errand.run world) world

end

/-- The handler does not ask how the pools fare. -/
def Program.Blind {σ τ : Type} : Program σ τ → Prop
  | .done _ => True
  | .panic _ => True
  | .recall next => ∀ memory, (next memory).Blind
  | .remember _ next => next.Blind
  | .call op next => op ≠ .poolStats ∧ ∀ answer, (next answer).Blind
  | .attempt inner next => inner.Blind ∧ ∀ result, (next result).Blind
  | .bridge _ inner next => inner.Blind ∧ ∀ result, (next result).Blind
  | .reenter _ _ inner next => inner.Blind ∧ ∀ reentry, (next reentry).Blind

theorem Program.blind_noting {σ τ : Type} {program : Program σ τ} (blind : program.Blind) : program.noting.Blind := by
  induction program with
  | done result => trivial
  | panic message => trivial
  | «recall» next ih => exact fun memory => ih memory.1 (blind memory.1)
  | remember memory next ih => exact fun _ => ih blind
  | call op next ih => exact ⟨blind.1, fun answer _ => ih answer (blind.2 answer)⟩
  | attempt inner next innerBlind ih => exact ⟨innerBlind blind.1, fun result _ => ih result (blind.2 result)⟩
  | bridge middleware inner next innerBlind ih =>
      exact ⟨innerBlind blind.1, fun result _ => ih result (blind.2 result)⟩
  | reenter request writer inner next innerBlind ih =>
      exact ⟨fun _ => innerBlind blind.1, fun reentry _ _ => ih reentry (blind.2 reentry)⟩

def World.withoutPools {τ : Type} (world : World τ) : World τ := { world with pools := none }

theorem Pools.Lease.bind_eq_fresh {κ : Type} (lease : Pools.Lease) (request : Request) (writer : Writer κ)
    (logger : Logger) : lease.bind request writer logger = fresh.bind request writer logger := rfl

def Run.call {κ τ : Type} (run : Run κ τ) (given : Writer κ) (back : Option Pools → Option Pools) : Call κ τ :=
  ⟨run.ending, run.exchange.writer given, { run.world with pools := back run.world.pools }⟩

/-- A dispatch is a run on a fresh lease. What the pools hold in the meantime, and what they get back, is none of its
doing. -/
theorem exists_dispatch_eq {κ τ : Type} (logger : Logger) (request : Request) (writer : Writer κ) (world : World τ) :
    ∃ (pools : Option Pools) (back : Option Pools → Option Pools), ∀ body : Exchange κ → World τ → Run κ τ,
      dispatch logger body request writer world =
        (body (Pools.Lease.fresh.bind request writer logger) { world with pools := pools }).call writer back := by
  obtain ⟨_ | pools, log, memory⟩ := world
  · exact ⟨none, id, fun _ => rfl⟩
  · exact ⟨some pools.checkout.2, Option.map (Pools.checkin · .fresh), fun _ => rfl⟩

theorem dispatch_withoutPools {κ τ : Type} {body : Exchange κ → World τ → Run κ τ}
    (same : ∀ exchange world, (body exchange world).over World.withoutPools = body exchange world.withoutPools)
    (logger : Logger) (request : Request) (writer : Writer κ) (world : World τ) :
    (dispatch logger body request writer world).over World.withoutPools =
      withViews logger body request writer world.withoutPools := by
  obtain ⟨pools, log, memory⟩ := world
  cases pools with
  | none => exact withViews_over same logger request writer ⟨none, log, memory⟩
  | some pools =>
      have told := same (pools.checkout.1.bind request writer logger) ⟨some pools.checkout.2, log, memory⟩
      rw [Pools.Lease.bind_eq_fresh] at told
      simp only [withViews, World.withoutPools, dispatch, Pools.Lease.bind_eq_fresh] at told ⊢
      rw [← told]
      rfl

theorem NativeProgram.run_withoutPools {σ τ κ : Type} [Sink σ] [Sink κ] {inner : InnerCall τ}
    (same : ∀ {ν : Type} [Sink ν] (request : Request) (writer : Writer ν) (world : World τ),
      (inner request writer world).over World.withoutPools = inner request writer world.withoutPools)
    (program : NativeProgram σ τ) (given : Request) (captured : Option HandlerError) (writer : Writer κ)
    (world : World τ) :
    (program.run inner given captured writer world).over World.withoutPools =
      program.run inner given captured writer world.withoutPools := by
  induction program generalizing captured writer world with
  | done => rfl
  | panic message => rfl
  | «recall» next ih => exact ih world.memory captured writer world
  | remember memory next ih => exact ih captured writer _
  | ask next ih => exact ih given captured writer world
  | call op next ih => exact ih _ captured _ world
  | inner request next ih =>
      have told := same request writer world
      simp only [run, ← told, Call.over]
      cases (inner request writer world).ending with
      | panicked message => rfl
      | finished result => exact ih _ _ _
  | innerForeign request foreign next ih =>
      have told := same request foreign world
      simp only [run, ← told, Call.over]
      cases (inner request foreign world).ending with
      | panicked message => rfl
      | finished result => exact ih _ _ writer _

theorem Program.run_withoutPools {σ τ : Type} [Sink σ] {program : Program σ τ} (blind : program.Blind)
    (logger : Logger) {κ : Type} [Sink κ] (exchange : Exchange κ) (world : World τ) :
    (program.run logger exchange world).over World.withoutPools = program.run logger exchange world.withoutPools := by
  induction program generalizing κ exchange world with
  | done result => rfl
  | panic message => rfl
  | «recall» next ih => exact ih world.memory (blind world.memory) exchange world
  | remember memory next ih => exact ih blind exchange _
  | call op next ih =>
      cases op with
      | poolStats => exact absurd rfl blind.1
      | _ => exact ih _ (blind.2 _) _ _
  | attempt inner next innerSame ih =>
      have told := innerSame blind.1 exchange world
      simp only [run, ← told, Run.over]
      cases (inner.run logger exchange world).ending with
      | panicked message => rfl
      | finished result => exact ih _ (blind.2 _) _ _
  | bridge middleware inner next innerSame ih =>
      simp only [run]
      cases exchange.request.bound with
      | none => exact ih _ (blind.2 _) exchange world
      | some request =>
          cases exchange.response.native? with
          | none => exact ih _ (blind.2 _) exchange world
          | some writer =>
              have told : (middleware.run (fun request writer world =>
                    withViews (exchange.response.logger.getD .tracing)
                      (fun exchange world => inner.run logger exchange world) request writer world)
                    request none writer world).over World.withoutPools = _ :=
                middleware.run_withoutPools (fun request writer world =>
                  withViews_over (fun exchange world => innerSame blind.1 exchange world) _ request writer world) ..
              simp only [← told]
              generalize NativeProgram.run _ request middleware none writer world = native
              obtain ⟨panic, captured, writer, later⟩ := native
              cases panic with
              | none => exact ih _ (blind.2 _) _ later
              | some message => rfl
  | reenter request writer inner next innerSame ih =>
      have told := dispatch_withoutPools (fun exchange world => innerSame blind.1 exchange world) logger request writer
        world
      have fresh : dispatch logger (fun exchange world => inner.run logger exchange world) request writer
          world.withoutPools = withViews logger (fun exchange world => inner.run logger exchange world) request writer
          world.withoutPools := rfl
      simp only [run, fresh, ← told]
      exact ih _ (blind.2 _) exchange _

/-- Whatever a server has dispatched before, a handler learns the same about a request and does the same as with views
made for this one call: each answer that it gets, the fields and the sink that it leaves, what is logged and how it
ends. What is noted besides is only noted. -/
theorem dispatch_eq_withViews {σ τ κ : Type} [Sink σ] [Sink κ] (start : World τ) (history : List (Errand σ τ))
    {handler : Program σ τ} (blind : handler.Blind) (logger : Logger) (request : Request) (writer : Writer κ)
    (others : Option Pools) :
    let world := start.after history
    let body : Exchange κ → World τ → Run κ τ := fun exchange world => handler.run logger exchange world
    let noting : Exchange κ → World (τ × List (Observation σ)) → Run κ (τ × List (Observation σ)) :=
      fun exchange world => handler.noting.run logger exchange world
    let pooled := dispatch logger noting request writer ⟨world.pools, world.log, (world.memory, [])⟩
    let fresh := withViews logger noting request writer ⟨others, world.log, (world.memory, [])⟩
    pooled.ending = fresh.ending ∧ pooled.writer = fresh.writer ∧ pooled.world.log = fresh.world.log ∧
      pooled.world.memory = fresh.world.memory ∧
      pooled.over World.forget = dispatch logger body request writer world ∧
      fresh.over World.forget = withViews logger body request writer ⟨others, world.log, world.memory⟩ := by
  intro world body noting pooled fresh
  have same (exchange : Exchange κ) (world : World (τ × List (Observation σ))) :
      (noting exchange world).over World.withoutPools = noting exchange world.withoutPools :=
    Program.run_withoutPools (Program.blind_noting blind) logger exchange world
  have plain (exchange : Exchange κ) (world : World (τ × List (Observation σ))) :
      (noting exchange world).over World.forget = body exchange world.forget :=
    handler.run_noting logger exchange world
  have bare : pooled.over World.withoutPools = fresh.over World.withoutPools :=
    (dispatch_withoutPools same logger request writer _).trans
      (withViews_over same logger request writer ⟨others, world.log, (world.memory, [])⟩).symm
  have ending := congrArg Call.ending bare
  have after := congrArg Call.writer bare
  have logged := congrArg (fun call => call.world.log) bare
  have noted := congrArg (fun call => call.world.memory) bare
  exact ⟨ending, after, logged, noted, dispatch_forget plain logger request writer _,
    withViews_over plain logger request writer _⟩

/-- Views that have been used for a request with other fields and another query, by a handler that has panicked on a
committed response, and that others have been taken besides from inside. -/
theorem dispatch_eq_withViews_after_panic :
    let host : Request := { Request.blank with
      uri := .origin ⟨Ascii.bytes "/a", some (Ascii.bytes "secret=1")⟩
      fields := .ofList [(.host, ⟨Ascii.bytes "first", by decide +kernel⟩)] }
    let writer : Writer Recorder := ⟨.empty, ⟨{}, none, none, [], 0, 0⟩⟩
    let locking : Program Recorder Nat :=
      .call (.request (.fields .keys)) fun _ => .call (.request (.url (.queryParam "secret"))) fun _ =>
      .call (.request .formParams) fun _ => .call (.response (.fields (.set "x-secret" "1"))) fun _ =>
      .call (.response .status) fun _ => .call (.response (.writeHead .internalServerError)) fun _ =>
      .remember 7 (.panic "handler failure")
    let history : List (Errand Recorder Nat) :=
      [⟨host, writer, .reenter host writer locking fun _ => locking, .full⟩, ⟨host, writer, locking, .errorsOnly⟩]
    let handler : Program Recorder Nat :=
      .call (.request (.fields .keys)) fun _ => .call (.request (.url (.queryParam "secret"))) fun secret =>
      .call (.request .formParams) fun _ => .call (.response (.fields (.set "x-own" "2"))) fun _ =>
      .call (.response .status) fun _ => .call (.response (.write (Utf8.encode (secret.getD "none")))) fun _ =>
      .call (.response (.writeHead .ok)) fun _ => .done (.ok ())
    let start : World Nat := ⟨some (.new { capacity := 1 }), [], 0⟩
    let world := start.after history
    let noting : Exchange Recorder → World (Nat × List (Observation Recorder)) →
        Run Recorder (Nat × List (Observation Recorder)) :=
      fun exchange world => handler.noting.run .full exchange world
    let pooled := dispatch .full noting .blank writer ⟨world.pools, world.log, (world.memory, [])⟩
    let fresh := withViews .full noting .blank writer ⟨none, world.log, (world.memory, [])⟩
    handler.Blind ∧ world.pools.map (fun pools => pools.stats.request) = some ⟨2, 1⟩ ∧ world.memory = 7 ∧
      pooled.world.memory = fresh.world.memory ∧ pooled.world.memory.2.length = 7 ∧ pooled.writer = fresh.writer ∧
      pooled.writer.sink.body = Ascii.bytes "none" ∧ pooled.world.log = fresh.world.log ∧
      pooled.world.log = [⟨.warn, ResponseView.alreadyCommitted, false⟩] := by
  intro host writer locking history handler start world noting pooled fresh
  have blind : handler.Blind := by simp [handler, Program.Blind]
  obtain ⟨_, sameWriter, sameLog, sameMemory, _⟩ := dispatch_eq_withViews start history blind .full .blank writer none
  exact ⟨blind, by decide +kernel, by decide +kernel, sameMemory, by decide +kernel, sameWriter, by decide +kernel,
    sameLog, by decide +kernel⟩

end HttpService
