import HttpService.Proofs.Failure
import HttpService.Proofs.Interchange
import HttpService.Proofs.Isolation

/-! A middleware that only passes on what it is given. However many of them stand around a handler, a chain comes to the
same with them as without. -/

namespace HttpService

namespace ResponseAdapter

variable {κ : Type} [Sink κ]

inductive Through : ResponseAdapter κ → ResponseAdapter (ResponseAdapter κ) → Prop
  | sink {sink : κ} {between tally : Tally} (passed : between.committed = true → tally.committed = true)
      (known : tally.committed = true → (⟨some sink, between⟩ : ResponseAdapter κ).committed = true) :
      Through ⟨some sink, tally⟩ ⟨some ⟨some sink, between⟩, tally⟩

theorem Through.committed {near : ResponseAdapter κ} {far : ResponseAdapter (ResponseAdapter κ)}
    (through : Through near far) : near.committed = far.committed := by
  obtain ⟨passed, known⟩ := through
  rename_i sink between tally
  simp only [committed_of_some, Sink.committed] at known ⊢
  cases told : tally.committed with
  | true => rfl
  | false =>
      have silent : between.committed = false := by
        cases sent : between.committed with
        | true => exact absurd (passed sent) (by simp [told])
        | false => rfl
      rw [silent, Bool.false_or, Bool.false_or]

theorem Through.between {near : ResponseAdapter κ} {far : ResponseAdapter (ResponseAdapter κ)}
    (through : Through near far) {behind : ResponseAdapter κ} (bound : far.sink = some behind) :
    ∃ sink, near.sink = some sink ∧ behind.sink = some sink ∧ behind.committed = near.committed := by
  have same := through.committed
  cases through with
  | @sink sink between tally passed known =>
      obtain rfl := Option.some.inj bound
      refine ⟨sink, rfl, rfl, ?_⟩
      have far : (⟨some ⟨some sink, between⟩, tally⟩ : ResponseAdapter (ResponseAdapter κ)).committed =
          (tally.committed || (⟨some sink, between⟩ : ResponseAdapter κ).committed) := rfl
      rw [same, far]
      cases told : tally.committed with
      | true => rw [known told, Bool.true_or]
      | false => rw [Bool.false_or]

theorem Through.commit {near : ResponseAdapter κ} {far : ResponseAdapter (ResponseAdapter κ)}
    (through : Through near far) (status : Status) (fields : Fields) :
    Attempt.Alike Through (near.commit status fields) (far.commit status fields) := by
  have same := through.committed
  obtain ⟨passed, known⟩ := through
  rename_i sink between tally
  cases sent : (⟨some sink, tally⟩ : ResponseAdapter κ).committed with
  | true =>
      rw [commit_of_committed sent, commit_of_committed (same ▸ sent)]
      refine ⟨rfl, .sink (fun _ => rfl) fun _ => ?_⟩
      cases told : tally.committed with
      | true => exact known told
      | false =>
          rw [committed_of_some, told, Bool.false_or] at sent
          rw [committed_of_some, sent, Bool.or_true]
  | false =>
      have untold : tally.committed = false := (Bool.or_eq_false_iff.mp sent).1
      have unsent : (⟨some sink, between⟩ : ResponseAdapter κ).committed = false := by
        have far := same.symm.trans sent
        exact (Bool.or_eq_false_iff.mp far).2
      rw [commit_of_not_committed sent, commit_of_not_committed (same ▸ sent)]
      simp only [Sink.writeHead, commit_of_not_committed unsent]
      cases (Sink.writeHead sink status fields).result with
      | error error => exact ⟨rfl, .sink passed fun told => by simp [untold] at told⟩
      | ok => exact ⟨rfl, .sink (fun _ => rfl) fun _ => rfl⟩

variable [Sink.Lasting κ]

theorem Through.write {near : ResponseAdapter κ} {far : ResponseAdapter (ResponseAdapter κ)}
    (through : Through near far) (content : Bytes) :
    Attempt.Alike Through (near.write content) (far.write content) := by
  obtain ⟨passed, known⟩ := through
  rename_i sink between tally
  have kept (told : tally.committed = true) : (Sink.writeBody (ResponseAdapter.mk (some sink) between)
      content).state.committed = true := @Sink.Lasting.body (ResponseAdapter κ) _ _ ⟨some sink, between⟩ (known told) content
  simp only [ResponseAdapter.write, Sink.writeBody] at kept ⊢
  generalize (Sink.writeBody sink content).result = taken at kept ⊢
  cases taken with
  | error error => exact ⟨rfl, .sink passed kept⟩
  | ok count => exact ⟨rfl, .sink passed kept⟩

theorem Through.flush {near : ResponseAdapter κ} {far : ResponseAdapter (ResponseAdapter κ)}
    (through : Through near far) : Attempt.Alike Through near.flush far.flush := by
  obtain ⟨passed, known⟩ := through
  rename_i sink between tally
  exact ⟨rfl, .sink passed fun told =>
    @Sink.Lasting.flush (ResponseAdapter κ) _ _ ⟨some sink, between⟩ (known told)⟩

theorem interchange_through : Interchange (@Through κ _) where
  tally through := by cases through; rfl
  isBound through := by cases through; rfl
  committed through := through.committed
  commit through status fields := through.commit status fields
  write through content := through.write content
  flush through := through.flush

end ResponseAdapter

theorem dispatch_congr {κ τ : Type} {body other : Exchange κ → World τ → Run κ τ} (logger : Logger)
    (request : Request) (writer : Writer κ)
    (same : ∀ world, let exchange := Pools.Lease.fresh.bind request writer logger
      (body exchange world).ending = (other exchange world).ending ∧
        (body exchange world).exchange.writer writer = (other exchange world).exchange.writer writer ∧
        (body exchange world).world = (other exchange world).world) (world : World τ) :
    dispatch logger body request writer world = dispatch logger other request writer world := by
  obtain ⟨pools, back, known⟩ := exists_dispatch_eq logger request writer world
  obtain ⟨ending, after, later⟩ := same { world with pools := pools }
  simp only [known, Run.call, ending, after, later]

/-- What the code around a handler can tell of an exchange after it, besides what both had before. -/
structure Exchange.Matches {κ : Type} [Sink κ] (first second : Exchange κ) : Prop where
  writer : ∃ writer, first.response.Fronts writer ∧ second.response.Fronts writer
  committed : first.response.adapter.committed = second.response.adapter.committed

structure Run.Matches {κ τ : Type} [Sink κ] (first second : Run κ τ) : Prop where
  ending : first.ending = second.ending
  exchange : first.exchange.Matches second.exchange
  world : first.world = second.world

theorem Exchange.Matches.writer_eq {κ : Type} [Sink κ] {first second : Exchange κ} (same : first.Matches second)
    (given : Writer κ) : first.writer given = second.writer given := by
  obtain ⟨writer, front, other⟩ := same.writer
  exact (front.writer_eq first.request given).trans (other.writer_eq second.request given).symm

theorem NativeProgram.resultOf_capture (result : Except HandlerError Unit) :
    Program.resultOf (capture none result) = result := by
  cases result <;> rfl

namespace Program

variable {σ τ : Type} [Sink σ]

/-- A handler with so many middlewares around it that only pass on what they are given. -/
def passed (handler : Program σ τ) : Nat → Program σ τ
  | 0 => handler
  | count + 1 => .wrapNative .passThrough (handler.passed count)

variable {κ : Type} [Sink κ]

theorem run_passThrough (handler : Program σ τ) (logger inherited : Logger) (request : Request) (writer : Writer κ)
    (world : World τ) :
    let outside := Pools.Lease.fresh.bind request writer inherited
    let call := withViews inherited (fun exchange world => handler.run logger exchange world) request
      ⟨writer.fields, outside.response.adapter⟩ world
    (wrapNative .passThrough handler).run logger outside world =
      ⟨call.ending, { outside with response := outside.response.restore call.writer }, call.world⟩ := by
  intro outside call
  have bound : outside.request.bound = some request := rfl
  have given : outside.response.native? = some ⟨writer.fields, outside.response.adapter⟩ := rfl
  have inherits : outside.response.logger.getD .tracing = inherited := rfl
  simp only [wrapNative, run, bound, given, inherits, NativeProgram.passThrough, NativeProgram.run]
  cases call.ending with
  | panicked message => rfl
  | finished result => simp only [NativeProgram.resultOf_capture]; rfl

theorem matches_passed [Sink.Lasting κ] (handler : Program σ τ) (count : Nat) (logger inherited : Logger)
    (request : Request) (writer : Writer κ) (world : World τ) :
    ((handler.passed count).run logger (Pools.Lease.fresh.bind request writer inherited) world).Matches
      (handler.run logger (Pools.Lease.fresh.bind request writer inherited) world) := by
  induction count generalizing κ with
  | zero =>
      obtain ⟨front, fronts⟩ :=
        (handler.sound_run logger (Exchange.sound_bind .fresh request writer inherited) world).response.fronts
      exact ⟨rfl, ⟨⟨front, fronts, fronts⟩, rfl⟩, rfl⟩
  | succ count ih =>
      let near : Exchange κ := Pools.Lease.fresh.bind request writer inherited
      let given : Writer (ResponseAdapter κ) := ⟨writer.fields, near.response.adapter⟩
      have bound : Exchange.Alike ResponseAdapter.Through near (Pools.Lease.fresh.bind request given inherited) :=
        ⟨rfl, .sink (fun sent => sent) (fun told => absurd told Bool.false_ne_true), rfl, rfl⟩
      obtain ⟨ending, after, later⟩ := handler.alike_run logger ResponseAdapter.interchange_through bound world
      obtain ⟨inside, ⟨⟨front, fronts, others⟩, _⟩, insideWorld⟩ := ih given
      obtain ⟨_, through, sameFields, _⟩ := after
      rw [passed, run_passThrough]
      obtain ⟨sink, bare, behind, committed⟩ := through.between others.sink
      have back : (withViews inherited (fun exchange world => (handler.passed count).run logger exchange world) request
          given world).writer = front := fronts.writer_eq _ given
      simp only [given, near] at back
      simp only [back]
      refine ⟨inside.trans ending.symm, ⟨⟨⟨front.fields, sink⟩, ⟨behind, rfl⟩, ⟨bare, ?_⟩⟩, committed⟩,
        insideWorld.trans later.symm⟩
      exact (congrArg FieldsView.source sameFields).trans others.fields

variable {request : Request} {logger inherited : Logger} {exchange : Exchange κ}

theorem run_chain_of_matches [Sink.Lasting κ] {handler other : Program σ τ}
    (sound : exchange.Sound request inherited) {world : World τ}
    (same : (handler.run logger exchange world).Matches (other.run logger exchange world)) (chainLogger : Logger)
    (given : Writer κ) :
    let run := (chain chainLogger handler).run logger exchange world
    let like := (chain chainLogger other).run logger exchange world
    run.ending = like.ending ∧ run.exchange.writer given = like.exchange.writer given ∧ run.world = like.world := by
  generalize first : handler.run logger exchange world = ran at same
  generalize second : other.run logger exchange world = ranToo at same
  obtain ⟨ending, after, later⟩ := ran
  obtain ⟨_, afterToo, _⟩ := ranToo
  obtain ⟨rfl, exchanges, rfl⟩ := same
  have writers : after.writer given = afterToo.writer given := exchanges.writer_eq given
  cases ending with
  | panicked message =>
      simp only [chain, run, first, second]
      exact ⟨trivial, writers, trivial⟩
  | finished result =>
      cases result with
      | ok =>
          simp only [chain, run, first, second, succeed]
          exact ⟨trivial, writers, trivial⟩
      | error error =>
          obtain ⟨ends, answers, tells⟩ := run_chain_of_error sound first chainLogger given
          obtain ⟨endsToo, answersToo, tellsToo⟩ := run_chain_of_error sound second chainLogger given
          have committed : after.response.adapter.committed = afterToo.response.adapter.committed := exchanges.committed
          refine ⟨ends.trans endsToo.symm, ?_, tells.trans tellsToo.symm⟩
          rw [answers, answersToo, writers, committed]

theorem dispatch_chain_passed [Sink.Lasting κ] (handler : Program σ τ) (count : Nat)
    (chainLogger logger : Logger) (request : Request) (writer : Writer κ) (world : World τ) :
    dispatch logger (fun exchange world => (chain chainLogger (handler.passed count)).run logger exchange world) request
        writer world =
      dispatch logger (fun exchange world => (chain chainLogger handler).run logger exchange world) request writer
        world :=
  dispatch_congr logger request writer
    (fun world => run_chain_of_matches (Exchange.sound_bind .fresh request writer logger)
      (handler.matches_passed count logger logger request writer world) chainLogger writer) world

/-- However many middlewares that pass everything on stand between a chain and its endpoint, the endpoint ends the same
and gets the same answers, and the chain comes to the same: how it ends, the fields and the sink that it leaves, what is
logged, and what the pools hold. -/
theorem dispatch_passed (endpoint : Program σ τ) (count : Nat) (chainLogger logger : Logger) (request : Request)
    (writer : Writer Target) (world : World τ) :
    let plain (handler : Program σ τ) : Call Target τ :=
      dispatch logger (fun exchange world => (chain chainLogger handler).run logger exchange world) request writer world
    let noted (handler : Program σ (τ × List (Observation σ))) : Call Target (τ × List (Observation σ)) :=
      dispatch logger (fun exchange world => (chain chainLogger handler).run logger exchange world) request writer
        ⟨world.pools, world.log, (world.memory, [])⟩
    (∀ (lease : Pools.Lease) inside,
      ((endpoint.passed count).run logger (lease.bind request writer logger) inside).ending =
        (endpoint.run logger (lease.bind request writer logger) inside).ending) ∧
      plain (endpoint.passed count) = plain endpoint ∧
      noted (endpoint.noting.passed count) = noted endpoint.noting ∧
      (noted endpoint.noting).over World.forget = plain endpoint := by
  intro plain noted
  refine ⟨?_, ?_, ?_, ?_⟩
  · intro lease inside
    rw [Pools.Lease.bind_eq_fresh]
    exact (endpoint.matches_passed count logger logger request writer inside).ending
  · exact dispatch_chain_passed endpoint count chainLogger logger request writer world
  · exact dispatch_chain_passed endpoint.noting count chainLogger logger request writer _
  · exact dispatch_forget (fun exchange world => run_chain_noting endpoint chainLogger logger exchange world) logger
      request writer _

end Program

end HttpService
