import HttpService.Proofs.Nesting
import HttpService.Proofs.Noting

/-! What a chain makes of a handler that fails, after whatever the handler has done to its response. -/

namespace HttpService

namespace ResponseAdapter

variable {κ : Type} [Sink κ]

theorem committed_of_commit {adapter : ResponseAdapter κ} {status : Status} {fields : Fields} {fresh : Bool}
    (sent : (adapter.commit status fields).result = .ok fresh) :
    (adapter.commit status fields).state.committed = true := by
  cases before : adapter.committed with
  | true => rw [commit_of_committed before]; rfl
  | false =>
      obtain ⟨_ | sink, tally⟩ := adapter
      · simp [commit, before] at sent
      · rw [commit_of_not_committed before] at sent ⊢
        cases answered : (Sink.writeHead sink status fields).result with
        | error error => simp [answered] at sent
        | ok => rfl

end ResponseAdapter

namespace FieldsView

variable {view : FieldsView}

theorem fieldsToChange_eq_ok {fields : Fields} (open_ : view.fieldsToChange = .ok fields) :
    view.exclusive? = some fields := by
  simp only [fieldsToChange] at open_
  split at open_
  · simp at open_
  · simp only [exclusive?]
    split at open_ <;> simp_all

theorem keeps_change (edit : Fields → Except FieldError Fields) :
    (view.change edit).2.locked = view.locked ∧ (view.change edit).2.exclusive?.isSome = view.exclusive?.isSome := by
  simp only [change]
  split
  · exact ⟨rfl, rfl⟩
  · rename_i fields found
    rw [fieldsToChange_eq_ok found]
    split
    · exact ⟨rfl, congrArg Option.isSome (fieldsToChange_eq_ok found)⟩
    · exact ⟨rfl, rfl⟩

theorem keeps_replaceExclusive (view : FieldsView) (fields : Fields) :
    (view.replaceExclusive fields).locked = view.locked ∧
      (view.replaceExclusive fields).exclusive?.isSome = view.exclusive?.isSome := by
  obtain ⟨source, locked, keys, valid⟩ := view
  cases source <;> exact ⟨rfl, rfl⟩

end FieldsView

theorem FieldsOp.keeps_perform (op : FieldsOp) (view : FieldsView) :
    (op.perform view).2.locked = view.locked ∧ (op.perform view).2.exclusive?.isSome = view.exclusive?.isSome := by
  cases op with
  | set key value => exact FieldsView.keeps_change _
  | add key value => exact FieldsView.keeps_change _
  | del key => exact FieldsView.keeps_change _
  | keys =>
      simp only [perform, FieldsView.listKeys]
      split <;> exact ⟨rfl, rfl⟩
  | _ => exact ⟨rfl, rfl⟩

namespace ResponseView

variable {κ : Type} [Sink κ]

/-- A response that is bound to a writer, and whose fields are locked only where it is committed. -/
structure Sound (logger : Logger) (view : ResponseView κ) : Prop where
  logger : view.logger = some logger
  fields : view.fields.exclusive?.isSome = true
  adapter : view.adapter.isBound = true
  locked : view.fields.locked = true → view.adapter.committed = true

variable {logger : Logger} {view : ResponseView κ}

theorem Sound.of_leads [Sink.Lasting κ] (sound : view.Sound logger) {later : ResponseView κ}
    (leads : SinkCall.Leads view.adapter later.adapter) (sameLogger : later.logger = view.logger)
    (fields : later.fields.exclusive?.isSome = view.fields.exclusive?.isSome)
    (locked : later.fields.locked = true → view.fields.locked = true ∨ later.adapter.committed = true) :
    later.Sound logger := by
  refine ⟨sameLogger.trans sound.logger, fields.trans sound.fields, ?_, ?_⟩
  · obtain ⟨sink, bound⟩ := Option.isSome_iff_exists.mp sound.adapter
    obtain ⟨next, stillBound, _⟩ := ResponseAdapter.forwards_of_leads leads sink bound
    exact Option.isSome_iff_exists.mpr ⟨next, stillBound⟩
  · intro lockedNow
    rcases locked lockedNow with before | now
    · exact Sink.Lasting.of_leads leads (sound.locked before)
    · exact now

variable [Sink.Lasting κ] (sound : view.Sound logger)

include sound

omit [Sink.Lasting κ] in
theorem Sound.settle : view.settle.Sound logger := by
  simp only [ResponseView.settle]
  split
  · rename_i committed
    exact ⟨sound.logger, sound.fields, sound.adapter, fun _ => committed⟩
  · exact sound

theorem Sound.writeHead (status : Status) : (view.writeHead status).view.Sound logger := by
  refine sound.of_leads (view.leads_writeHead status) ?_ ?_ ?_ <;> simp only [ResponseView.writeHead]
  · split <;> rfl
  · split <;> rfl
  · split
    · exact Or.inl
    · rename_i fresh sent
      exact fun _ => .inr (ResponseAdapter.committed_of_commit sent)

theorem Sound.write (content : Bytes) : (view.write content).view.Sound logger := by
  have head : (if view.adapter.committed then ⟨.ok (), view, []⟩ else view.writeHead .ok :
      Effect Unit κ).view.Sound logger := by
    split
    · exact sound
    · exact sound.writeHead .ok
  simp only [ResponseView.write]
  split
  · exact head
  · exact head.of_leads (SinkCall.leads_perform (.body content) _) rfl rfl Or.inl

theorem Sound.perform (op : ResponseOp) : (op.perform view).view.Sound logger := by
  cases op with
  | fields op =>
      obtain ⟨locked, fields⟩ := op.keeps_perform view.settle.fields
      have settled := sound.settle
      exact ⟨settled.logger, fields.trans settled.fields, settled.adapter, fun now => settled.locked (locked ▸ now)⟩
  | writeHead status => exact sound.writeHead status
  | write content => exact sound.write content
  | flush => exact sound.of_leads (SinkCall.leads_perform .flush view.adapter) rfl rfl Or.inl
  | native op =>
      have leads := ResponseOp.leads_perform (.native op) view
      simp only [ResponseOp.perform] at leads ⊢
      split
      · exact sound
      · rename_i writer given
        rw [given] at leads
        obtain ⟨locked, fields⟩ := view.fields.keeps_replaceExclusive (op.perform writer).2.fields
        exact sound.of_leads leads rfl fields fun now => .inl (locked ▸ now)
  | log level message =>
      simp only [ResponseOp.perform]
      split <;> exact sound
  | _ => exact sound

end ResponseView

theorem RequestOp.bound_perform (op : RequestOp) (view : RequestView) : (op.perform view).2.bound = view.bound := by
  have decoded : view.decode.bound = view.bound := by
    simp only [RequestView.decode]
    split <;> rfl
  cases op <;> first | rfl | exact decoded

structure Exchange.Sound {κ : Type} [Sink κ] (request : Request) (logger : Logger) (exchange : Exchange κ) : Prop where
  request : exchange.request.bound = some request
  response : exchange.response.Sound logger

theorem Exchange.sound_bind {κ : Type} [Sink κ] (lease : Pools.Lease) (request : Request) (writer : Writer κ)
    (logger : Logger) : (lease.bind request writer logger).Sound request logger :=
  ⟨rfl, rfl, rfl, rfl, fun locked => absurd locked Bool.false_ne_true⟩

theorem Program.sound_run {σ τ : Type} [Sink σ] (program : Program σ τ) (serverLogger : Logger) {κ : Type} [Sink κ]
    [Sink.Lasting κ] {request : Request} {logger : Logger} {exchange : Exchange κ}
    (sound : exchange.Sound request logger) (world : World τ) :
    (program.run serverLogger exchange world).exchange.Sound request logger := by
  induction program generalizing exchange world with
  | done result => exact sound
  | panic message => exact sound
  | «recall» next ih => exact ih world.memory sound world
  | remember memory next ih => exact ih sound _
  | call op next ih =>
      have performed : (op.perform exchange world).2.1.Sound request logger := by
        cases op with
        | request op => exact ⟨(op.bound_perform exchange.request).trans sound.request, sound.response⟩
        | response op => exact ⟨sound.request, sound.response.perform op⟩
        | _ => exact sound
      exact ih _ performed _
  | attempt inner next innerSound ih =>
      have first := innerSound sound world
      simp only [run]
      split
      · exact first
      · exact ih _ first _
  | bridge middleware inner next _ ih =>
      simp only [run]
      split
      · rename_i asked writer bound given
        have leads := leads_behind_bridge given middleware inner serverLogger asked world
        have restored (later : Writer (ResponseAdapter κ)) (leads : SinkCall.Leads exchange.response.adapter later.sink) :
            (exchange.response.restore later).Sound logger := by
          obtain ⟨locked, fields⟩ := exchange.response.fields.keeps_replaceExclusive later.fields
          exact sound.response.of_leads leads rfl fields fun now => .inl (locked ▸ now)
        split
        · exact ⟨sound.request, restored _ leads⟩
        · refine ih _ ?_ _
          exact ⟨sound.request, restored _ leads⟩
      · exact ih _ sound world
  | reenter request writer inner next _ ih => exact ih _ sound _

def FieldValue.plainText : FieldValue := ⟨Ascii.bytes "text/plain; charset=utf-8", by decide +kernel⟩

theorem FieldsView.set_contentType (fields : Fields) (keys : List String) (valid : Bool) :
    FieldsView.set ⟨.exclusive fields, false, keys, valid⟩ "content-type" "text/plain; charset=utf-8" =
      (.ok (), ⟨.exclusive (fields.insert .contentType .plainText), false, keys, false⟩) := by
  have name : FieldName.ofBytes? (Utf8.encode "content-type") = some .contentType := by decide +kernel
  have value : FieldValue.ofBytes? (Utf8.encode "text/plain; charset=utf-8") = some .plainText := by decide +kernel
  simp only [set, readLine, readName, name, value]
  rfl

namespace ResponseView

variable {κ : Type}

structure Fronts (view : ResponseView κ) (writer : Writer κ) : Prop where
  sink : view.adapter.sink = some writer.sink
  fields : view.fields.source = .exclusive writer.fields

theorem Fronts.writer_eq {view : ResponseView κ} {writer : Writer κ} (fronts : view.Fronts writer)
    (asked : RequestView) (given : Writer κ) : (Exchange.mk asked view).writer given = writer := by
  simp only [Exchange.writer, FieldsView.exclusive?, fronts.fields, fronts.sink, Option.getD_some]

variable {view : ResponseView κ} {writer : Writer κ}

theorem Fronts.set_contentType (fronts : view.Fronts writer) (unlocked : view.fields.locked = false) :
    { view with fields := (view.fields.set "content-type" "text/plain; charset=utf-8").2 }.Fronts
      { writer with fields := writer.fields.insert .contentType .plainText } := by
  obtain ⟨adapter, ⟨source, locked, keys, valid⟩, logger⟩ := view
  obtain ⟨sink, rfl⟩ := fronts
  obtain rfl : locked = false := unlocked
  rw [FieldsView.set_contentType]
  exact ⟨sink, rfl⟩

variable [Sink κ]

theorem Fronts.writeHead (fronts : view.Fronts writer) (unsent : view.adapter.committed = false) (status : Status) :
    let effect := view.writeHead status
    let sent := writer.writeHead status
    effect.result = sent.result ∧ effect.view.Fronts sent.state ∧ effect.log = [] ∧
      match sent.result with
      | .ok () => effect.view.adapter.committed = true
      | .error _ => effect.view.adapter.tally.committed = false := by
  have untold := (Bool.or_eq_false_iff.mp unsent).1
  obtain ⟨⟨bound, tally⟩, ⟨source, locked, keys, valid⟩, logger⟩ := view
  obtain ⟨rfl, rfl⟩ := fronts
  simp only [ResponseView.writeHead, ResponseAdapter.commit_of_not_committed unsent, FieldsView.fields?,
    Option.getD_some, Writer.writeHead]
  cases (Sink.writeHead writer.sink status writer.fields).result with
  | error error => exact ⟨rfl, ⟨rfl, rfl⟩, rfl, untold⟩
  | ok => exact ⟨rfl, ⟨rfl, rfl⟩, rfl, rfl⟩

theorem Fronts.write_of_committed (fronts : view.Fronts writer) (sent : view.adapter.committed = true)
    (content : Bytes) :
    (view.write content).view.Fronts (writer.writeBody content).state ∧ (view.write content).log = [] := by
  obtain ⟨⟨bound, tally⟩, ⟨source, locked, keys, valid⟩, logger⟩ := view
  obtain ⟨rfl, rfl⟩ := fronts
  simp only [ResponseView.write, sent, ↓reduceIte, ResponseAdapter.write]
  refine ⟨?_, trivial⟩
  split <;> exact ⟨rfl, rfl⟩

theorem Fronts.write (fronts : view.Fronts writer) (untold : view.adapter.tally.committed = false)
    (content : Bytes) :
    (view.write content).view.Fronts (writer.write content).state ∧ (view.write content).log = [] := by
  have known : view.adapter.committed = Sink.committed writer.sink := by
    rw [ResponseAdapter.committed, untold, fronts.sink, Option.any_some, Bool.false_or]
  cases sent : Sink.committed writer.sink with
  | true =>
      rw [Writer.write, if_pos sent]
      exact fronts.write_of_committed (known.trans sent) content
  | false =>
      obtain ⟨result, after, log, told⟩ := fronts.writeHead (known.trans sent) .ok
      rw [Writer.write, if_neg (by simp [sent])]
      simp only [ResponseView.write, known, sent, Bool.false_eq_true, ↓reduceIte, result, log]
      cases head : (writer.writeHead .ok).result with
      | error error => exact ⟨after, rfl⟩
      | ok =>
          rw [head] at told
          have body := (after.write_of_committed told content).1
          simp only [ResponseView.write, told, ↓reduceIte] at body
          exact ⟨body, rfl⟩

end ResponseView

theorem ResponseView.Sound.fronts {κ : Type} [Sink κ] {view : ResponseView κ} {logger : Logger}
    (sound : view.Sound logger) : ∃ writer, view.Fronts writer := by
  obtain ⟨sink, bound⟩ := Option.isSome_iff_exists.mp sound.adapter
  obtain ⟨fields, exclusive⟩ := Option.isSome_iff_exists.mp sound.fields
  refine ⟨⟨fields, sink⟩, bound, ?_⟩
  simp only [FieldsView.exclusive?] at exclusive
  split at exclusive <;> simp_all

/-- What a chain makes of a writer on which nothing has been sent, when its handler has failed. -/
def HandlerError.answer {κ : Type} [Sink κ] (error : HandlerError) (writer : Writer κ) : Writer κ :=
  let sent := ({ writer with fields := writer.fields.insert .contentType .plainText } : Writer κ).writeHead
    error.answeredStatus
  match sent.result with
  | .ok () => (sent.state.writeBody (Utf8.encode error.message)).state
  | .error _ => (sent.state.write (Utf8.encode error.message)).state

namespace Program

variable {σ τ κ : Type} [Sink σ] [Sink κ] {request : Request} {logger : Logger} {exchange : Exchange κ}

theorem run_answerFailure_of_committed (committed : exchange.response.adapter.committed = true) (error : HandlerError)
    (serverLogger : Logger) (world : World τ) :
    (answerFailure error : Program σ τ).run serverLogger exchange world = ⟨.finished (.ok ()), exchange, world⟩ := by
  simp only [answerFailure, run, Op.perform, ResponseOp.perform, committed, ↓reduceIte, succeed, World.report,
    List.append_nil]

theorem run_answerFailure (sound : exchange.Sound request logger)
    (unsent : exchange.response.adapter.committed = false) (error : HandlerError) (serverLogger : Logger)
    (world : World τ) (given : Writer κ) :
    let run := (answerFailure error : Program σ τ).run serverLogger exchange world
    run.ending = .finished (.ok ()) ∧ run.exchange.writer given = error.answer (exchange.writer given) ∧
      run.world = world := by
  obtain ⟨asked, view⟩ := exchange
  obtain ⟨writer, fronts⟩ := sound.response.fronts
  have unlocked : view.fields.locked = false := by
    cases locked : view.fields.locked with
    | true => simp [sound.response.locked locked] at unsent
    | false => rfl
  have set := fronts.set_contentType unlocked
  obtain ⟨result, headed, log, told⟩ := set.writeHead unsent error.answeredStatus
  simp only [answerFailure, run, Op.perform, ResponseOp.perform, unsent, Bool.false_eq_true, ↓reduceIte,
    ResponseView.settle, FieldsOp.perform, World.report, List.append_nil, log, succeed]
  rw [fronts.writer_eq asked given, HandlerError.answer]
  let marked : Writer κ := { writer with fields := writer.fields.insert .contentType .plainText }
  cases head : (marked.writeHead error.answeredStatus).result with
  | ok =>
      rw [head] at told
      obtain ⟨body, silent⟩ := headed.write_of_committed told (Utf8.encode error.message)
      refine ⟨trivial, body.writer_eq asked given, ?_⟩
      simp only [silent, List.append_nil]
  | error failed =>
      rw [head] at told
      obtain ⟨body, silent⟩ := headed.write told (Utf8.encode error.message)
      refine ⟨trivial, body.writer_eq asked given, ?_⟩
      simp only [silent, List.append_nil]

theorem run_chain_of_error [Sink.Lasting κ] {handler : Program σ τ} {inherited : Logger}
    (sound : exchange.Sound request inherited) {world : World τ} {error : HandlerError} {after : Exchange κ}
    {later : World τ}
    (failed : handler.run logger exchange world = ⟨.finished (.error error), after, later⟩) (chainLogger : Logger)
    (given : Writer κ) :
    let run := (chain chainLogger handler).run logger exchange world
    run.ending = .finished (.ok ()) ∧
      run.exchange.writer given =
        (if after.response.adapter.committed then after.writer given else error.answer (after.writer given)) ∧
      run.world = later.report (chainLogger.log .error
        s!"{Method.text request.method} {Utf8.lossy request.uri.pathAndQuery}: {error.message}") := by
  have soundAfter : after.Sound request inherited := by
    have ran := handler.sound_run logger sound world
    rwa [failed] at ran
  obtain ⟨⟨bound, fields, url, form, decoded⟩, view⟩ := after
  obtain rfl : bound = some request := soundAfter.request
  simp only [chain, run, failed, Op.perform, RequestOp.perform, RequestView.uri, RequestView.request, Option.getD_some]
  cases committed : view.adapter.committed with
  | true =>
      rw [run_answerFailure_of_committed committed]
      exact ⟨rfl, rfl, rfl⟩
  | false => exact run_answerFailure soundAfter committed error logger _ given

theorem run_answerFailure_forget (error : HandlerError) (logger : Logger) (exchange : Exchange κ)
    (world : World (τ × List (Observation σ))) :
    ((answerFailure error : Program σ (τ × List (Observation σ))).run logger exchange world).over World.forget =
      (answerFailure error : Program σ τ).run logger exchange world.forget := by
  cases committed : exchange.response.adapter.committed with
  | true => rw [run_answerFailure_of_committed committed, run_answerFailure_of_committed committed]; rfl
  | false =>
      simp only [answerFailure, run, Op.perform, ResponseOp.perform, committed, Bool.false_eq_true, ↓reduceIte]
      rfl

theorem run_chain_noting (handler : Program σ τ) (chainLogger logger : Logger) (exchange : Exchange κ)
    (world : World (τ × List (Observation σ))) :
    ((chain chainLogger handler.noting).run logger exchange world).over World.forget =
      (chain chainLogger handler).run logger exchange world.forget := by
  have told := handler.run_noting logger exchange world
  simp only [chain, run, ← told, Run.over]
  cases (handler.noting.run logger exchange world).ending with
  | panicked message => rfl
  | finished result =>
      cases result with
      | ok => rfl
      | error error => exact run_answerFailure_forget error logger _ (World.report _ _)

end Program

end HttpService
