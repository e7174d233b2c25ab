import HttpService.Handler.Chain
import HttpService.Proofs.Conduct
import HttpService.Sink.Target

/-! A response behind a bridge and the response in front of it: what the one reports, the other reports as well, up to
what had passed before the bridge was crossed. -/

namespace HttpService

/-- A sink that is committed stays committed. -/
class Sink.Lasting (κ : Type) [Sink κ] : Prop where
  head : ∀ {sink : κ}, committed sink = true → ∀ status fields, committed (writeHead sink status fields).state = true
  body : ∀ {sink : κ}, committed sink = true → ∀ content, committed (writeBody sink content).state = true
  flush : ∀ {sink : κ}, committed sink = true → committed (flush sink).state = true

namespace Sink.Lasting

instance : Lasting ResponseBuffer where
  head {buffer} sent status fields := by
    obtain ⟨earlier, found⟩ := Option.isSome_iff_exists.mp sent
    simpa only [writeHead, ResponseBuffer.sendHead, found] using sent
  body {buffer} sent content := by
    obtain ⟨earlier, found⟩ := Option.isSome_iff_exists.mp sent
    simp [writeBody, found, committed]
  flush sent := sent

instance : Lasting Recorder where
  head {recorder} sent status fields := by
    simp only [committed] at sent
    simp only [writeHead, Recorder.writeHead, sent, ↓reduceIte]
    split <;> exact sent
  body {recorder} sent content := by
    simp only [writeBody, Recorder.writeBody]
    split
    · exact sent
    · split <;> exact sent
  flush {recorder} sent := by
    simp only [Sink.flush, Recorder.flush]
    split
    · exact sent
    · split <;> exact sent

instance : Lasting Target where
  head {target} sent status fields := by
    cases target with
    | buffer state => exact @head ResponseBuffer _ _ state sent status fields
    | recorder state => exact @head Recorder _ _ state sent status fields
  body {target} sent content := by
    cases target with
    | buffer state => exact @body ResponseBuffer _ _ state sent content
    | recorder state => exact @body Recorder _ _ state sent content
  flush {target} sent := by
    cases target with
    | buffer state => exact @flush ResponseBuffer _ _ state sent
    | recorder state => exact @flush Recorder _ _ state sent

variable {κ : Type} [Sink κ] [Lasting κ]

theorem perform {sink : κ} (sent : committed sink = true) (call : SinkCall) :
    committed (call.perform sink).2 = true := by
  cases call with
  | head status fields => exact head sent status fields
  | body content => exact body sent content
  | flush => exact flush sent

theorem of_leads {sink later : κ} (leads : SinkCall.Leads sink later) (sent : committed sink = true) :
    committed later = true :=
  leads.keeps (fun sink => committed sink = true) (fun call _ sent => perform sent call) sent

instance : Lasting (ResponseAdapter κ) where
  head {adapter} sent status fields := by
    have known : adapter.committed = true := sent
    simp only [writeHead, ResponseAdapter.commit, known, ↓reduceIte]
    rfl
  body {adapter} sent content := by
    obtain ⟨_ | sink, tally⟩ := adapter
    · exact sent
    · simp only [committed, ResponseAdapter.committed, Option.any_some, Bool.or_eq_true] at sent
      have kept (told : Tally) (same : told.committed = tally.committed) :
          (ResponseAdapter.mk (some (writeBody sink content).state) told).committed = true := by
        simp only [ResponseAdapter.committed, Option.any_some, Bool.or_eq_true, same]
        exact sent.imp_right fun sent => body sent content
      simp only [writeBody, ResponseAdapter.write]
      split
      · exact kept _ rfl
      · exact kept _ rfl
  flush {adapter} sent := by
    obtain ⟨_ | sink, tally⟩ := adapter
    · exact sent
    · simp only [committed, ResponseAdapter.committed, Option.any_some, Bool.or_eq_true] at sent ⊢
      exact sent.imp_right flush

end Sink.Lasting

namespace ResponseAdapter

variable {κ : Type} [Sink κ]

theorem committed_of_some (sink : κ) (tally : Tally) :
    (⟨some sink, tally⟩ : ResponseAdapter κ).committed = (tally.committed || Sink.committed sink) := rfl

theorem commit_of_committed {adapter : ResponseAdapter κ} (sent : adapter.committed = true) (status : Status)
    (fields : Fields) : adapter.commit status fields =
      ⟨.ok false, { adapter with tally := { adapter.tally with committed := true } }⟩ := by
  rw [commit, if_pos sent]

theorem commit_of_not_committed {sink : κ} {tally : Tally}
    (unsent : (⟨some sink, tally⟩ : ResponseAdapter κ).committed = false) (status : Status) (fields : Fields) :
    let sent := Sink.writeHead sink status fields
    (⟨some sink, tally⟩ : ResponseAdapter κ).commit status fields =
      match sent.result with
      | .error error => ⟨.error error, ⟨some sent.state, tally⟩⟩
      | .ok () => ⟨.ok true, ⟨some sent.state, { tally with status := status, committed := true }⟩⟩ := by
  have skipped : ¬(⟨some sink, tally⟩ : ResponseAdapter κ).committed = true := by simp [unsent]
  exact if_neg skipped

structure Follows (before since : Tally) (outer : ResponseAdapter κ) : Prop where
  size : outer.tally.size = before.size + since.size
  committed : since.committed = true → outer.committed = true
  status : outer.tally.status = since.status ∧ since.committed = true ∨
    outer.tally.status = before.status ∧ since.status = .ok

inductive Shares (before : Tally) : ResponseAdapter (ResponseAdapter κ) → Prop
  | over {outer : ResponseAdapter κ} {since : Tally} (follows : outer.Follows before since) :
      Shares before ⟨some outer, since⟩

variable {before : Tally} {inner : ResponseAdapter (ResponseAdapter κ)}

theorem Shares.commit (shares : inner.Shares before) (code : Status) (fields : Fields) :
    (inner.commit code fields).state.Shares before := by
  obtain ⟨size, known, status⟩ := shares
  rename_i outer since
  cases sent : outer.committed with
  | true =>
      have sentInside : (⟨some outer, since⟩ : ResponseAdapter (ResponseAdapter κ)).committed = true := by
        rw [committed_of_some, show Sink.committed outer = true from sent, Bool.or_true]
      rw [commit_of_committed sentInside]
      exact .over ⟨size, fun _ => sent, status.imp_left fun same => ⟨same.1, rfl⟩⟩
  | false =>
      have untold : since.committed = false := by
        cases told : since.committed with
        | true => simp [known told] at sent
        | false => rfl
      have unsentInside : (⟨some outer, since⟩ : ResponseAdapter (ResponseAdapter κ)).committed = false := by
        rw [committed_of_some, show Sink.committed outer = false from sent, untold, Bool.or_false]
      have fresh : outer.tally.status = before.status ∧ since.status = .ok := by
        rcases status with ⟨_, told⟩ | fresh
        · simp [untold] at told
        · exact fresh
      rw [commit_of_not_committed unsentInside]
      obtain ⟨_ | sink, told⟩ := outer
      · simp only [Sink.writeHead, ResponseAdapter.commit, sent, Bool.false_eq_true, ↓reduceIte, Except.map]
        exact .over ⟨size, known, .inr fresh⟩
      · have passed := commit_of_not_committed sent code fields
        simp only [Sink.writeHead, passed]
        cases (Sink.writeHead sink code fields).result with
        | error error => exact .over ⟨size, fun told => by simp [untold] at told, .inr fresh⟩
        | ok => exact .over ⟨size, fun _ => rfl, .inl ⟨rfl, rfl⟩⟩

variable [Sink.Lasting κ]

theorem Shares.write (shares : inner.Shares before) (content : Bytes) :
    (inner.write content).state.Shares before := by
  obtain ⟨size, known, status⟩ := shares
  rename_i outer since
  have kept (told : since.committed = true) : (Sink.writeBody outer content).state.committed = true :=
    @Sink.Lasting.body (ResponseAdapter κ) _ _ outer (known told) content
  simp only [ResponseAdapter.write, Sink.writeBody] at kept ⊢
  obtain ⟨_ | sink, told⟩ := outer
  · exact .over ⟨size, known, status⟩
  · simp only at kept ⊢
    generalize (Sink.writeBody sink content).result = taken at kept ⊢
    cases taken with
    | error error => exact .over ⟨size, kept, status⟩
    | ok count => exact .over ⟨by simp only at size ⊢; omega, kept, status⟩

theorem Shares.flush (shares : inner.Shares before) : inner.flush.state.Shares before := by
  obtain ⟨size, known, status⟩ := shares
  rename_i outer since
  have kept (told : since.committed = true) : (Sink.flush outer).state.committed = true :=
    @Sink.Lasting.flush (ResponseAdapter κ) _ _ outer (known told)
  simp only [ResponseAdapter.flush, Sink.flush] at kept ⊢
  obtain ⟨_ | sink, told⟩ := outer
  · exact .over ⟨size, known, status⟩
  · exact .over ⟨size, kept, status⟩

theorem Shares.perform (shares : inner.Shares before) (call : SinkCall) : (call.perform inner).2.Shares before := by
  cases call with
  | head code fields => exact shares.commit code fields
  | body content => exact shares.write content
  | flush => exact shares.flush

theorem Shares.of_leads {later : ResponseAdapter (ResponseAdapter κ)} (shares : inner.Shares before)
    (leads : SinkCall.Leads inner later) : later.Shares before :=
  leads.keeps (Shares before) (fun call _ shares => shares.perform call) shares

end ResponseAdapter

/-- What a response says of itself: whether it is committed, with which status, and how many body bytes were taken. -/
structure Standing where
  committed : Bool
  status : Status
  size : Nat
deriving DecidableEq

namespace ResponseView

variable {κ : Type} [Sink κ]

def standing (view : ResponseView κ) : Standing :=
  ⟨(ResponseOp.committed.perform view).answer, (ResponseOp.status.perform view).answer,
    (ResponseOp.size.perform view).answer⟩

/-- A handler behind a bridge has run up to any moment. The response in front of the bridge is committed just when that
of the handler is. In what the two say of status and size they differ by what the outer one said before, and not at all
where nothing had passed through it yet. -/
theorem standing_behind_bridge {σ τ : Type} [Sink σ] [Sink.Lasting κ] {outer : ResponseView κ}
    {writer : Writer (ResponseAdapter κ)} (given : outer.native? = some writer) (handler : Program σ τ)
    (logger inherited : Logger) (request : Request) (world : World τ) :
    let run := handler.run logger (Pools.Lease.fresh.bind request writer inherited) world
    let inner := run.exchange.response.standing
    let front := (outer.restore (run.exchange.writer writer)).standing
    inner.committed = front.committed ∧ front.size = outer.standing.size + inner.size ∧
      (front.status = inner.status ∨ front.status = outer.standing.status ∧ inner.status = .ok) ∧
      (outer.adapter.tally = {} → inner = front) := by
  intro run
  have shares : (ResponseAdapter.mk (some writer.sink) {}).Shares outer.adapter.tally := by
    rw [adapter_of_native? given]
    exact .over ⟨rfl, by simp, .inr ⟨rfl, rfl⟩⟩
  have after : run.exchange.response.adapter.Shares outer.adapter.tally :=
    shares.of_leads (handler.leads_run logger (Pools.Lease.fresh.bind request writer inherited) world)
  dsimp only
  generalize run.exchange = exchange at after ⊢
  obtain ⟨asked, adapter, fields, log⟩ := exchange
  obtain ⟨size, known, status⟩ := after
  rename_i front since
  have committed : (since.committed || front.committed) = front.committed := by
    cases told : since.committed with
    | true => rw [known told, Bool.or_self]
    | false => rw [Bool.false_or]
  refine ⟨committed, size, status.imp_left And.left, fun blank => ?_⟩
  rw [blank] at size status
  have sameStatus : front.tally.status = since.status := by
    rcases status with ⟨same, _⟩ | ⟨first, second⟩
    · exact same
    · rw [first, second]
  have sameSize : front.tally.size = since.size := size.trans (Nat.zero_add _)
  exact (Standing.mk.injEq ..).mpr ⟨committed, sameStatus.symm, sameSize.symm⟩

/-- A head and three bytes have passed before the handler behind the bridge writes two more. -/
theorem standing_behind_bridge_late_bytes :
    let notFound : Status := ⟨404, by decide⟩
    let sink : Recorder := ⟨{}, some notFound, some .empty, Ascii.bytes "abc", 1, 0⟩
    let outer : ResponseView Recorder :=
      ⟨⟨some sink, ⟨notFound, 3, true⟩⟩, FieldsView.unbound.bindExclusive .empty, some .full⟩
    let writer : Writer (ResponseAdapter Recorder) := ⟨.empty, outer.adapter⟩
    let handler : Program Recorder Unit := .call (.response (.write (Ascii.bytes "de"))) fun _ => .succeed
    let run := handler.run .full (Pools.Lease.fresh.bind .blank writer .full) ⟨none, [], ()⟩
    let inner := run.exchange.response.standing
    let front := (outer.restore (run.exchange.writer writer)).standing
    outer.native? = some writer ∧ inner = ⟨true, .ok, 2⟩ ∧ front = ⟨true, notFound, 5⟩ ∧
      inner.committed = front.committed ∧ front.size = outer.standing.size + inner.size := by
  intro notFound sink outer writer handler run inner front
  have given : outer.native? = some writer := rfl
  obtain ⟨committed, size, _⟩ := standing_behind_bridge given handler .full .full .blank ⟨none, [], ()⟩
  exact ⟨given, by decide +kernel, by decide +kernel, committed, size⟩

/-- A middleware that answers before it calls the handler that it wraps: the handler is told of a response that is
committed with status 200 and without a byte, and the response in front of the bridge tells what was sent. -/
theorem standing_behind_bridge_of_earlier_head :
    let writer : Writer Recorder := ⟨.empty, ⟨{}, none, none, [], 0, 0⟩⟩
    let notFound : Status := ⟨404, by decide⟩
    let telling : Program Recorder (List Standing) :=
      .call (.response .committed) fun committed => .call (.response .status) fun status =>
      .call (.response .size) fun size => .recall fun told => .remember (told ++ [⟨committed, status, size⟩]) .succeed
    let middleware : NativeProgram Recorder (List Standing) :=
      .call (.writeHead notFound) fun _ => .call (.write (Ascii.bytes "abc")) fun _ => .passThrough
    let chain : Program Recorder (List Standing) :=
      .chain .full (.attempt (.wrapNative middleware telling) fun _ => telling)
    let outcome := chain.serve .full .blank writer ⟨none, [], []⟩
    outcome.memory.memory = [⟨true, .ok, 0⟩, ⟨true, notFound, 3⟩] ∧ outcome.writer.sink.status = some notFound ∧
      outcome.writer.sink.body = Ascii.bytes "abc" := by
  decide +kernel

end ResponseView

end HttpService
