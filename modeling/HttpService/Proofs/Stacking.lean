import HttpService.Proofs.Interchange
import HttpService.Proofs.Nesting

/-! Adapters stacked in front of a sink, as nested bridges bind them: what passes through all of them, and what a
failure of the sink leaves of the response behind them. -/

namespace HttpService

namespace Tally

def afterHead (tally : Tally) (status : Status) : Except IoError Unit → Tally
  | .ok () => { tally with status := status, committed := true }
  | .error _ => tally

def afterBody (tally : Tally) (taken : Except IoError Nat) : Tally :=
  { tally with size := tally.size + taken.toOption.getD 0 }

end Tally

namespace ResponseAdapter

variable {κ : Type} [Sink κ]

theorem writeHead_of_committed {adapter : ResponseAdapter κ} (sent : adapter.committed = true) (status : Status)
    (fields : Fields) : Sink.writeHead adapter status fields =
      ⟨.ok (), { adapter with tally := { adapter.tally with committed := true } }⟩ := by
  simp only [Sink.writeHead, commit_of_committed sent]
  rfl

theorem writeHead_of_not_committed {sink : κ} {tally : Tally}
    (unsent : (⟨some sink, tally⟩ : ResponseAdapter κ).committed = false) (status : Status) (fields : Fields) :
    let sent := Sink.writeHead sink status fields
    Sink.writeHead (⟨some sink, tally⟩ : ResponseAdapter κ) status fields =
      ⟨sent.result, some sent.state, tally.afterHead status sent.result⟩ := by
  simp only [Sink.writeHead, commit_of_not_committed unsent]
  cases (Sink.writeHead sink status fields).result <;> rfl

theorem writeBody_of_some (sink : κ) (tally : Tally) (content : Bytes) :
    let taken := Sink.writeBody sink content
    Sink.writeBody (⟨some sink, tally⟩ : ResponseAdapter κ) content =
      ⟨taken.result, some taken.state, tally.afterBody taken.result⟩ := by
  simp only [Sink.writeBody, write]
  cases (Sink.writeBody sink content).result <;> rfl

theorem flush_of_some (sink : κ) (tally : Tally) :
    let flushed := Sink.flush sink
    Sink.flush (⟨some sink, tally⟩ : ResponseAdapter κ) = ⟨flushed.result, some flushed.state, tally⟩ := rfl

end ResponseAdapter

/-- So many adapters in front of a sink, each bound to the next one further out. -/
def Stacked (κ : Type) : Nat → Type
  | 0 => κ
  | depth + 1 => ResponseAdapter (Stacked κ depth)

namespace Stacked

variable {κ : Type}

instance instSink [Sink κ] : (depth : Nat) → Sink (Stacked κ depth)
  | 0 => inferInstanceAs (Sink κ)
  | depth + 1 =>
    letI := instSink depth
    inferInstanceAs (Sink (ResponseAdapter (Stacked κ depth)))

def bottom? : (depth : Nat) → Stacked κ depth → Option κ
  | 0, sink => some sink
  | depth + 1, (adapter : ResponseAdapter (Stacked κ depth)) => adapter.sink.bind (bottom? depth)

def RestsOn (depth : Nat) (stack : Stacked κ depth) (sink : κ) : Prop := bottom? depth stack = some sink

theorem restsOn_succ {depth : Nat} {stack : Stacked κ (depth + 1)} {sink : κ} :
    RestsOn (depth + 1) stack sink ↔ ∃ (below : Stacked κ depth) (tally : Tally),
      stack = (⟨some below, tally⟩ : ResponseAdapter (Stacked κ depth)) ∧ RestsOn depth below sink := by
  constructor
  · intro rests
    obtain ⟨below, bound, rests⟩ := Option.bind_eq_some_iff.mp rests
    obtain ⟨_, tally⟩ := stack
    cases bound
    exact ⟨below, tally, rfl, rests⟩
  · rintro ⟨below, tally, rfl, rests⟩
    exact rests

variable [Sink κ] {depth : Nat} {stack : Stacked κ depth} {sink : κ}

theorem not_committed_below {below : Stacked κ depth} {tally : Tally}
    (unsent : (⟨some below, tally⟩ : ResponseAdapter (Stacked κ depth)).committed = false) :
    Sink.committed below = false :=
  (Bool.or_eq_false_iff.mp unsent).2

theorem not_committed_of_restsOn (rests : RestsOn depth stack sink) (unsent : Sink.committed stack = false) :
    Sink.committed sink = false := by
  induction depth with
  | zero =>
      cases Option.some.inj rests
      exact unsent
  | succ depth ih =>
      obtain ⟨below, tally, rfl, rests⟩ := restsOn_succ.mp rests
      exact ih rests (not_committed_below unsent)

theorem writeHead_of_restsOn (rests : RestsOn depth stack sink) (unsent : Sink.committed stack = false)
    (status : Status) (fields : Fields) :
    Attempt.Alike (RestsOn depth) (Sink.writeHead stack status fields) (Sink.writeHead sink status fields) := by
  induction depth with
  | zero =>
      cases Option.some.inj rests
      exact ⟨rfl, rfl⟩
  | succ depth ih =>
      obtain ⟨below, tally, rfl, rests⟩ := restsOn_succ.mp rests
      obtain ⟨result, state⟩ := ih rests (not_committed_below unsent)
      have passed := ResponseAdapter.writeHead_of_not_committed unsent status fields
      exact ⟨(congrArg Attempt.result passed).trans result,
        restsOn_succ.mpr ⟨_, _, congrArg Attempt.state passed, state⟩⟩

theorem writeBody_of_restsOn (rests : RestsOn depth stack sink) (content : Bytes) :
    Attempt.Alike (RestsOn depth) (Sink.writeBody stack content) (Sink.writeBody sink content) := by
  induction depth with
  | zero =>
      cases Option.some.inj rests
      exact ⟨rfl, rfl⟩
  | succ depth ih =>
      obtain ⟨below, tally, rfl, rests⟩ := restsOn_succ.mp rests
      obtain ⟨result, state⟩ := ih rests
      have passed := ResponseAdapter.writeBody_of_some below tally content
      exact ⟨(congrArg Attempt.result passed).trans result,
        restsOn_succ.mpr ⟨_, _, congrArg Attempt.state passed, state⟩⟩

theorem write_of_restsOn (rests : RestsOn depth stack sink) (unsent : Sink.committed stack = false) (fields : Fields)
    (content : Bytes) :
    Attempt.Alike (Writer.Alike (RestsOn depth)) ((⟨fields, stack⟩ : Writer (Stacked κ depth)).write content)
      ((⟨fields, sink⟩ : Writer κ).write content) := by
  have below := not_committed_of_restsOn rests unsent
  obtain ⟨result, state⟩ := writeHead_of_restsOn rests unsent .ok fields
  simp only [Writer.write, unsent, below, Bool.false_eq_true, ↓reduceIte, Writer.writeHead, Writer.withSink, result]
  cases (Sink.writeHead sink .ok fields).result with
  | error error => exact ⟨rfl, rfl, state⟩
  | ok =>
      obtain ⟨counted, after⟩ := writeBody_of_restsOn state content
      exact ⟨counted, rfl, after⟩

end Stacked

/-- A sink that stays as it was where it fails. -/
class Sink.Firm (κ : Type) [Sink κ] : Prop where
  head : ∀ {sink : κ} {status fields error}, (writeHead sink status fields).result = .error error →
    (writeHead sink status fields).state = sink
  body : ∀ {sink : κ} {content error}, (writeBody sink content).result = .error error →
    (writeBody sink content).state = sink
  flush : ∀ {sink : κ} {error}, (flush sink).result = .error error → (flush sink).state = sink

namespace Sink.Firm

instance : Firm ResponseBuffer where
  head failed := by simp [writeHead] at failed
  body {buffer content error} failed := by
    cases sent : buffer.status with
    | none => simp only [writeBody, sent]
    | some status => simp [writeBody, sent] at failed
  flush _ := rfl

instance : Firm Recorder where
  head {recorder status fields error} := by
    simp only [writeHead, Recorder.writeHead]
    split
    · exact fun _ => rfl
    · split <;> simp
  body {recorder content error} := by
    simp only [writeBody, Recorder.writeBody]
    split
    · exact fun _ => rfl
    · split
      · exact fun _ => rfl
      · simp
  flush {recorder error} := by
    simp only [Sink.flush, Recorder.flush]
    split
    · simp
    · split <;> simp

variable {κ : Type} [Sink κ] [Firm κ]

instance : Firm (ResponseAdapter κ) where
  head {adapter status fields error} failed := by
    cases sent : adapter.committed with
    | true => simp [ResponseAdapter.writeHead_of_committed sent] at failed
    | false =>
        obtain ⟨_ | sink, tally⟩ := adapter
        · simp [writeHead, ResponseAdapter.commit, sent]
        · rw [ResponseAdapter.writeHead_of_not_committed sent] at failed ⊢
          simp only at failed ⊢
          rw [failed, head failed, Tally.afterHead]
  body {adapter content error} failed := by
    obtain ⟨_ | sink, tally⟩ := adapter
    · rfl
    · rw [ResponseAdapter.writeBody_of_some] at failed ⊢
      simp only at failed ⊢
      rw [failed, body failed]
      rfl
  flush {adapter error} failed := by
    obtain ⟨_ | sink, tally⟩ := adapter
    · rfl
    · rw [ResponseAdapter.flush_of_some] at failed ⊢
      simp only at failed ⊢
      rw [flush failed]

instance stacked : (depth : Nat) → Firm (Stacked κ depth)
  | 0 => inferInstanceAs (Firm κ)
  | depth + 1 =>
    letI := stacked depth
    inferInstanceAs (Firm (ResponseAdapter (Stacked κ depth)))

end Sink.Firm

namespace ResponseView

section Bound

variable {κ : Type} [Sink κ] {view : ResponseView κ} {error : IoError}

def writer (view : ResponseView κ) : Writer (ResponseAdapter κ) := ⟨view.fields.fields?.getD .empty, view.adapter⟩

theorem writeHead_writer (view : ResponseView κ) (status : Status) :
    (view.writeHead status).result = (view.writer.writeHead status).result ∧
      (view.writeHead status).view.adapter = (view.writer.writeHead status).state.sink := by
  simp only [writeHead, writer, Writer.writeHead, Writer.withSink, Sink.writeHead]
  cases (view.adapter.commit status (view.fields.fields?.getD .empty)).result <;> exact ⟨rfl, rfl⟩

theorem write_writer (view : ResponseView κ) (content : Bytes) :
    (view.write content).result = (view.writer.write content).result ∧
      (view.write content).view.adapter = (view.writer.write content).state.sink := by
  cases sent : view.adapter.committed with
  | true =>
      rw [Writer.write, if_pos (show Sink.committed view.writer.sink = true from sent)]
      simp only [write, sent, ↓reduceIte]
      exact ⟨rfl, rfl⟩
  | false =>
      obtain ⟨result, adapter⟩ := view.writeHead_writer .ok
      rw [Writer.write, if_neg (show ¬Sink.committed view.writer.sink = true from Bool.eq_false_iff.mp sent)]
      simp only [write, sent, Bool.false_eq_true, ↓reduceIte, result]
      cases (view.writer.writeHead .ok).result with
      | error error => exact ⟨rfl, adapter⟩
      | ok =>
          simp only [adapter]
          exact ⟨rfl, rfl⟩

theorem source_writeHead (view : ResponseView κ) (status : Status) :
    (view.writeHead status).view.fields.source = view.fields.source := by
  simp only [writeHead]
  split <;> rfl

theorem source_write (view : ResponseView κ) (content : Bytes) :
    (view.write content).view.fields.source = view.fields.source := by
  have head : (if view.adapter.committed then ⟨.ok (), view, []⟩ else view.writeHead .ok :
      Effect Unit κ).view.fields.source = view.fields.source := by
    split
    · rfl
    · exact view.source_writeHead .ok
  simp only [write]
  split <;> exact head

theorem writeHead_of_committed (sent : view.adapter.committed = true) (status : Status) :
    let effect := view.writeHead status
    effect.result = .ok () ∧ effect.view.adapter.sink = view.adapter.sink ∧ effect.view.standing = view.standing := by
  simp only [writeHead, ResponseAdapter.commit_of_committed sent, true_and]
  exact (Standing.mk.injEq ..).mpr ⟨sent.symm, rfl, rfl⟩

theorem writeHead_of_ok (unsent : view.adapter.committed = false) {status : Status}
    (taken : (view.writeHead status).result = .ok ()) :
    (view.writeHead status).view.standing = ⟨true, status, view.standing.size⟩ := by
  obtain ⟨⟨_ | sink, tally⟩, fields, logger⟩ := view
  · simp [writeHead, ResponseAdapter.commit, unsent] at taken
  · simp only [writeHead, ResponseAdapter.commit_of_not_committed unsent] at taken ⊢
    cases sent : (Sink.writeHead sink status (fields.fields?.getD .empty)).result with
    | error error => simp [sent] at taken
    | ok => rfl

variable [Sink.Firm κ]

theorem writeHead_of_error {status : Status} (failed : (view.writeHead status).result = .error error) :
    (view.writeHead status).view = view ∧ (view.writeHead status).log = [] ∧ view.adapter.committed = false := by
  have unsent : view.adapter.committed = false := by
    refine Bool.eq_false_iff.mpr fun sent => ?_
    simp [(writeHead_of_committed sent status).1] at failed
  obtain ⟨result, adapter⟩ := view.writeHead_writer status
  have kept : (view.writeHead status).view.adapter = view.adapter :=
    adapter.trans (@Sink.Firm.head (ResponseAdapter κ) _ _ _ _ _ error (result.symm.trans failed))
  simp only [writeHead] at failed kept ⊢
  split at failed
  · rename_i refused
    simp only [refused] at kept ⊢
    exact ⟨by rw [kept], trivial, unsent⟩
  · cases failed

theorem write_of_error {content : Bytes} (failed : (view.write content).result = .error error) :
    (view.write content).view = view ∧
        (view.adapter.committed = true ∨ (view.writeHead .ok).result = .error error) ∨
      view.adapter.committed = false ∧ (view.writeHead .ok).result = .ok () ∧
        (view.write content).view = (view.writeHead .ok).view := by
  have body {adapter : ResponseAdapter κ} (failed : (adapter.write content).result = .error error) :
      (adapter.write content).state = adapter :=
    @Sink.Firm.body (ResponseAdapter κ) _ _ adapter content error failed
  cases sent : view.adapter.committed with
  | true =>
      simp only [write, sent, ↓reduceIte] at failed ⊢
      rw [body failed]
      exact .inl ⟨rfl, .inl trivial⟩
  | false =>
      simp only [write, sent, Bool.false_eq_true, ↓reduceIte] at failed ⊢
      cases head : (view.writeHead .ok).result with
      | error refused =>
          simp only [head] at failed ⊢
          exact .inl ⟨(writeHead_of_error head).1, .inr (congrArg Except.error (Except.error.inj failed))⟩
      | ok =>
          simp only [head] at failed ⊢
          rw [body failed]
          exact .inr ⟨trivial, trivial, rfl⟩

end Bound

section Behind

variable {κ : Type} [Sink κ] {depth : Nat} {view : ResponseView (Stacked κ depth)} {sink : κ}

def Effect.Reaches {α : Type} (effect : Effect α (Stacked κ depth)) (attempt : Attempt α (Writer κ)) : Prop :=
  effect.result = attempt.result ∧ Stacked.RestsOn (depth + 1) effect.view.adapter attempt.state.sink

theorem reaches_writeHead (rests : Stacked.RestsOn (depth + 1) view.adapter sink)
    (unsent : view.adapter.committed = false) (status : Status) :
    (view.writeHead status).Reaches ((⟨view.writer.fields, sink⟩ : Writer κ).writeHead status) := by
  obtain ⟨result, adapter⟩ := view.writeHead_writer status
  obtain ⟨same, state⟩ := @Stacked.writeHead_of_restsOn κ _ (depth + 1) _ _ rests unsent status view.writer.fields
  rw [Effect.Reaches, result, adapter]
  exact ⟨same, state⟩

theorem reaches_write (rests : Stacked.RestsOn (depth + 1) view.adapter sink)
    (unsent : view.adapter.committed = false) (content : Bytes) :
    (view.write content).Reaches ((⟨view.writer.fields, sink⟩ : Writer κ).write content) := by
  obtain ⟨result, adapter⟩ := view.write_writer content
  obtain ⟨same, _, state⟩ := @Stacked.write_of_restsOn κ _ (depth + 1) _ _ rests unsent view.writer.fields content
  rw [Effect.Reaches, result, adapter]
  exact ⟨same, state⟩

/-- A response in any state, behind any number of adapters. A head that fails changes nothing about it, and the next
attempt comes down to the sink again. Where writing fails, nothing has changed either, or the head was sent and the body
alone has failed: the response is committed then, and no byte longer. Writing leaves the fields as they are in any case,
and a head that is not the first leaves the sink as it is. -/
theorem intact_of_failure [Sink.Firm κ] (view : ResponseView (Stacked κ depth))
    (rests : Stacked.RestsOn (depth + 1) view.adapter sink) (status : Status) (content : Bytes) :
    let native : Writer κ := ⟨view.writer.fields, sink⟩
    let head := view.writeHead status
    let body := view.write content
    (∀ error, head.result = .error error →
      head.view = view ∧ head.log = [] ∧ (∀ next, (head.view.writeHead next).Reaches (native.writeHead next)) ∧
        ∀ next, (head.view.write next).Reaches (native.write next)) ∧
    (∀ error, body.result = .error error →
      body.view = view ∧ (view.adapter.committed = true ∨ (native.writeHead .ok).result = .error error) ∨
      view.adapter.committed = false ∧ (native.writeHead .ok).result = .ok () ∧
        Stacked.RestsOn (depth + 1) body.view.adapter (native.writeHead .ok).state.sink ∧
        body.view.standing = ⟨true, .ok, view.standing.size⟩) ∧
    (head.view.fields.source = view.fields.source ∧ body.view.fields.source = view.fields.source) ∧
    (view.adapter.committed = true →
      head.result = .ok () ∧ head.view.adapter.sink = view.adapter.sink ∧ head.view.standing = view.standing) := by
  intro native head body
  refine ⟨fun error failed => ?_, fun error failed => ?_, ⟨view.source_writeHead status, view.source_write content⟩,
    fun sent => ?_⟩
  · obtain ⟨same, log, unsent⟩ := writeHead_of_error failed
    refine ⟨same, log, fun next => ?_, fun next => ?_⟩
    · rw [same]
      exact reaches_writeHead rests unsent next
    · rw [same]
      exact reaches_write rests unsent next
  · rcases write_of_error failed with ⟨same, sent | refused⟩ | ⟨unsent, taken, same⟩
    · exact .inl ⟨same, .inl sent⟩
    · have unsent := (writeHead_of_error refused).2.2
      exact .inl ⟨same, .inr ((reaches_writeHead rests unsent .ok).1.symm.trans refused)⟩
    · obtain ⟨result, after⟩ := reaches_writeHead rests unsent .ok
      rw [show body.view = (view.writeHead .ok).view from same]
      exact .inr ⟨unsent, result.symm.trans taken, after, writeHead_of_ok unsent taken⟩
  · exact writeHead_of_committed sent status

/-- Behind a bridge: one sink takes no head, and another one takes the head and then no byte of the body. -/
theorem intact_of_failure_behind_bridge :
    let gone : IoError := ⟨.brokenPipe, "gone"⟩
    let behind (sink : Recorder) : ResponseView (Stacked Recorder 1) :=
      ⟨⟨some (⟨some sink, {}⟩ : ResponseAdapter Recorder), {}⟩, FieldsView.unbound.bindExclusive .empty, none⟩
    let refusing : Recorder := { policy := { failHead := some gone } }
    let bodiless : Recorder := { policy := { failBody := some gone } }
    ((behind refusing).writeHead .ok).result = .error gone ∧
      ((behind refusing).writeHead .ok).view = behind refusing ∧
      ((behind bodiless).write (Ascii.bytes "abc")).result = .error gone ∧
      ((behind bodiless).write (Ascii.bytes "abc")).view.standing = ⟨true, .ok, 0⟩ := by
  intro gone behind refusing bodiless
  have refused : ((behind refusing).writeHead .ok).result = .error gone := rfl
  have failed : ((behind bodiless).write (Ascii.bytes "abc")).result = .error gone := rfl
  have rests (sink : Recorder) : Stacked.RestsOn 2 (behind sink).adapter sink := rfl
  obtain ⟨head, _⟩ := intact_of_failure (behind refusing) (rests refusing) .ok []
  obtain ⟨_, body, _⟩ := intact_of_failure (behind bodiless) (rests bodiless) .ok (Ascii.bytes "abc")
  refine ⟨refused, (head gone refused).1, failed, ?_⟩
  rcases body gone failed with ⟨_, sent | taken⟩ | ⟨_, _, _, standing⟩
  · cases sent
  · cases taken
  · exact standing

end Behind

end ResponseView

end HttpService
