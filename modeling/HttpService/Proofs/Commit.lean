import HttpService.Proofs.Draft
import HttpService.View.Response

/-! Four objects keep track of whether a response is committed: its view of the fields, its adapter, the tally and
the sink behind it. Whatever is done with them, in whatever order, they agree with one ledger. -/

namespace HttpService

namespace Draft

structure Passes (draft : Draft) (request : Request) (adapter : ResponseAdapter ResponseBuffer) : Prop where
  sink : ∃ buffer, adapter.sink = some buffer ∧ draft.Holds request buffer
  status : adapter.tally.status = draft.status
  size : adapter.tally.size = draft.body.length
  known : adapter.tally.committed = true → draft.head.isSome = true

variable {draft : Draft} {request : Request} {adapter : ResponseAdapter ResponseBuffer}

theorem passes_bind {buffer : ResponseBuffer} (holds : blank.Holds request buffer) :
    blank.Passes request (ResponseAdapter.unbound.bind buffer) :=
  ⟨⟨buffer, rfl, holds⟩, rfl, rfl, fun known => absurd known (by simp [ResponseAdapter.bind])⟩

theorem send_of_isSome (sent : draft.head.isSome = true) (status : Status) (fields : Fields) :
    draft.send status fields = draft := by
  obtain ⟨head, sent⟩ := Option.isSome_iff_exists.mp sent
  simp [send, sent]

theorem isSome_head_send (status : Status) (fields : Fields) : (draft.send status fields).head.isSome = true := by
  cases sent : draft.head <;> simp [send, sent]

namespace Passes

theorem committed (passes : draft.Passes request adapter) : adapter.committed = draft.head.isSome := by
  obtain ⟨buffer, bound, holds⟩ := passes.sink
  cases known : adapter.tally.committed with
  | false => simp [ResponseAdapter.committed, known, bound, holds.committed]
  | true => simp [ResponseAdapter.committed, known, passes.known known]

theorem commit (passes : draft.Passes request adapter) (status : Status) (fields : Fields) :
    (adapter.commit status fields).result = .ok (!draft.head.isSome) ∧
      (draft.send status fields).Passes request (adapter.commit status fields).state := by
  obtain ⟨buffer, bound, holds⟩ := passes.sink
  simp only [ResponseAdapter.commit, passes.committed]
  by_cases sent : draft.head.isSome = true
  · simp only [sent, ↓reduceIte, Bool.not_true, true_and, send_of_isSome sent]
    exact ⟨⟨buffer, bound, holds⟩, passes.status, passes.size, fun _ => sent⟩
  · simp only [sent, ↓reduceIte, bound, Bool.false_eq_true, Bool.not_false, Sink.writeHead, true_and]
    have unsent : draft.head = none := by simpa using sent
    refine ⟨⟨_, rfl, holds.sendHead status fields⟩, ?_, ?_, fun _ => isSome_head_send status fields⟩
    · simp [send, unsent, Draft.status]
    · simpa [send, unsent] using passes.size

theorem write_of_isSome (passes : draft.Passes request adapter) (sent : draft.head.isSome = true)
    (content : Bytes) :
    (adapter.write content).result = .ok content.length ∧
      (draft.take content).Passes request (adapter.write content).state := by
  obtain ⟨buffer, bound, holds⟩ := passes.sink
  obtain ⟨head, found⟩ := Option.isSome_iff_exists.mp sent
  obtain ⟨counted, kept⟩ := holds.writeBody_of_some found content
  simp only [ResponseAdapter.write, bound, counted, true_and]
  refine ⟨⟨_, rfl, kept⟩, passes.status, ?_, fun _ => sent⟩
  simp only [take, List.length_append, passes.size]

theorem write_of_none (passes : draft.Passes request adapter) (unsent : draft.head = none) (content : Bytes) :
    adapter.write content = ⟨.error ResponseBuffer.bodyBeforeHead, adapter⟩ := by
  obtain ⟨buffer, bound, holds⟩ := passes.sink
  cases adapter
  simp only at bound
  simp only [ResponseAdapter.write, bound, holds.writeBody_of_none unsent]

theorem flush (passes : draft.Passes request adapter) : adapter.flush = ⟨.ok (), adapter⟩ := by
  obtain ⟨buffer, bound, holds⟩ := passes.sink
  cases adapter
  simp only at bound
  simp only [ResponseAdapter.flush, bound, Sink.flush]

end Passes

end Draft

/-- What a response comes down to: its fields as they are now, and the head and the body as they will be sent. -/
structure Ledger where
  fields : Fields
  draft : Draft
deriving DecidableEq

namespace Ledger

def isCommitted (ledger : Ledger) : Bool := ledger.draft.head.isSome

def commit (ledger : Ledger) (status : Status) : Ledger :=
  { ledger with draft := ledger.draft.send status ledger.fields }

def take (ledger : Ledger) (content : Bytes) : Ledger := { ledger with draft := ledger.draft.take content }

def write (ledger : Ledger) (content : Bytes) : Ledger := (ledger.commit .ok).take content

def edit (ledger : Ledger) (change : Fields → Except FieldError Fields) : Except FieldError Unit × Ledger :=
  if ledger.isCommitted then (.error .committed, ledger)
  else
    match change ledger.fields with
    | .error error => (.error error, ledger)
    | .ok fields => (.ok (), { ledger with fields := fields })

def performFields (ledger : Ledger) : (op : FieldsOp) → op.Answer × Ledger
  | .get key => ((ledger.fields.lookup? (Utf8.encode key)).bind FieldValue.text?, ledger)
  | .contains key => ((FieldName.ofBytes? (Utf8.encode key)).any ledger.fields.contains, ledger)
  | .keys => (ledger.fields.names.map FieldName.text, ledger)
  | .size => (ledger.fields.size, ledger)
  | .isEmpty => (ledger.fields.size == 0, ledger)
  | .set key value => ledger.edit fun fields => do
      let (name, value) ← FieldsView.readLine key value
      return fields.insert name value
  | .add key value => ledger.edit fun fields => do
      let (name, value) ← FieldsView.readLine key value
      return fields.append name value
  | .del key => ledger.edit fun fields => do
      let name ← FieldsView.readName key
      return fields.erase name

def performNative (ledger : Ledger) : (op : WriterOp) → op.Answer × Ledger
  | .set name value => (ledger.fields.first? name, { ledger with fields := ledger.fields.insert name value })
  | .append name value => (ledger.fields.contains name, { ledger with fields := ledger.fields.append name value })
  | .remove key =>
    match FieldName.ofBytes? key with
    | none => (none, ledger)
    | some name => (ledger.fields.first? name, { ledger with fields := ledger.fields.erase name })
  | .fields => (ledger.fields, ledger)
  | .writeHead status => (.ok (), ledger.commit status)
  | .write content => (.ok content.length, ledger.write content)
  | .committed => (ledger.isCommitted, ledger)
  | .flush => (.ok (), ledger)
  | .sinkHead status => (.ok (), ledger.commit status)
  | .sinkBody content =>
    if ledger.isCommitted then (.ok content.length, ledger.take content)
    else (.error ResponseBuffer.bodyBeforeHead, ledger)

/-- What an operation leads to: its answer, the ledger after it, and what was logged. -/
structure Effect (α : Type) where
  answer : α
  ledger : Ledger
  log : List LogEntry

def perform (logger : Logger) (ledger : Ledger) : (op : ResponseOp) → Effect op.Answer
  | .fields op => ⟨(ledger.performFields op).1, (ledger.performFields op).2, []⟩
  | .writeHead status =>
    ⟨.ok (), ledger.commit status,
      if ledger.isCommitted then logger.log .warn ResponseView.alreadyCommitted else []⟩
  | .write content => ⟨.ok content.length, ledger.write content, []⟩
  | .flush => ⟨.ok (), ledger, []⟩
  | .status => ⟨ledger.draft.status, ledger, []⟩
  | .size => ⟨ledger.draft.body.length, ledger, []⟩
  | .committed => ⟨ledger.isCommitted, ledger, []⟩
  | .native op => ⟨some (ledger.performNative op).1, (ledger.performNative op).2, []⟩
  | .log level message => ⟨true, ledger, logger.log level message⟩

structure Shown (ledger : Ledger) (view : FieldsView) : Prop where
  source : view.source = .exclusive ledger.fields
  locked : view.locked = true → ledger.isCommitted = true
  keys : view.keysValid = true → view.keys = ledger.fields.names.map FieldName.text

structure Handed (ledger : Ledger) (request : Request) (writer : Writer (ResponseAdapter ResponseBuffer)) : Prop where
  fields : writer.fields = ledger.fields
  sink : ledger.draft.Passes request writer.sink

/-- The response is in step with the ledger. -/
structure Simulates (ledger : Ledger) (request : Request) (logger : Logger) (view : ResponseView ResponseBuffer) :
    Prop where
  adapter : ledger.draft.Passes request view.adapter
  fields : ledger.Shown view.fields
  logger : view.logger = some logger

variable {ledger : Ledger} {request : Request} {logger : Logger}

theorem edit_draft (ledger : Ledger) (change : Fields → Except FieldError Fields) :
    (ledger.edit change).2.draft = ledger.draft := by
  simp only [edit]
  split
  · rfl
  · split <;> rfl

theorem performFields_draft (ledger : Ledger) (op : FieldsOp) :
    (ledger.performFields op).2.draft = ledger.draft := by
  cases op <;> first | rfl | exact edit_draft ledger _

theorem isCommitted_performNative (committed : ledger.isCommitted = true) (op : WriterOp) :
    (ledger.performNative op).2.isCommitted = true := by
  have sent (status : Status) : (ledger.commit status).isCommitted = true := Draft.isSome_head_send _ _
  cases op with
  | writeHead status => exact sent status
  | write content => exact sent .ok
  | sinkHead status => exact sent status
  | sinkBody content =>
      simp only [performNative, committed, ↓reduceIte]
      exact committed
  | remove key =>
      simp only [performNative]
      split <;> exact committed
  | _ => exact committed

namespace Shown

variable {view : FieldsView}

theorem fields? (shown : ledger.Shown view) : view.fields? = some ledger.fields := by
  simp [FieldsView.fields?, shown.source]

theorem lock (shown : ledger.Shown view) (committed : ledger.isCommitted = true) : ledger.Shown view.lock :=
  ⟨shown.source, fun _ => committed, shown.keys⟩

theorem change (shown : ledger.Shown view) (exact : view.locked = ledger.isCommitted)
    (edit : Fields → Except FieldError Fields) :
    (view.change edit).1 = (ledger.edit edit).1 ∧ (ledger.edit edit).2.Shown (view.change edit).2 := by
  simp only [FieldsView.change, FieldsView.fieldsToChange, exact, Ledger.edit]
  by_cases committed : ledger.isCommitted = true
  · simp only [committed, ↓reduceIte, true_and]
    exact shown
  · simp only [committed, Bool.false_eq_true, ↓reduceIte, shown.source]
    cases edit ledger.fields with
    | error error => exact ⟨rfl, rfl, fun locked => absurd locked (by simp), fun stale => absurd stale (by simp)⟩
    | ok fields => exact ⟨rfl, rfl, fun locked => absurd locked (by simp), fun stale => absurd stale (by simp)⟩

theorem perform (shown : ledger.Shown view) (exact : view.locked = ledger.isCommitted) (op : FieldsOp) :
    (op.perform view).1 = (ledger.performFields op).1 ∧
      (ledger.performFields op).2.Shown (op.perform view).2 := by
  have current : view.currentKeys = ledger.fields.names.map FieldName.text := by
    simp [FieldsView.currentKeys, shown.fields?]
  cases op with
  | get key => exact ⟨by simp [FieldsOp.perform, FieldsView.get?, shown.fields?, performFields], shown⟩
  | contains key =>
      refine ⟨?_, shown⟩
      simp only [FieldsOp.perform, FieldsView.contains, shown.fields?, performFields]
      cases FieldName.ofBytes? (Utf8.encode key) <;> rfl
  | keys =>
      simp only [FieldsOp.perform, FieldsView.listKeys, performFields, current]
      by_cases valid : view.keysValid = true
      · simp only [valid, ↓reduceIte]
        exact ⟨shown.keys valid, shown⟩
      · simp only [valid, Bool.false_eq_true, ↓reduceIte, true_and]
        exact ⟨shown.source, shown.locked, fun _ => rfl⟩
  | size => exact ⟨by simp [FieldsOp.perform, FieldsView.size, shown.fields?, performFields], shown⟩
  | isEmpty => exact ⟨by simp [FieldsOp.perform, FieldsView.size, shown.fields?, performFields], shown⟩
  | set key value => exact shown.change exact _
  | add key value => exact shown.change exact _
  | del key => exact shown.change exact _

end Shown

namespace Handed

variable {writer : Writer (ResponseAdapter ResponseBuffer)}

theorem writeHead (handed : ledger.Handed request writer) (status : Status) :
    (writer.writeHead status).result = .ok () ∧
      (ledger.commit status).Handed request (writer.writeHead status).state := by
  obtain ⟨sent, passes⟩ := handed.sink.commit status writer.fields
  simp only [Writer.writeHead, Writer.withSink, Sink.writeHead, sent, Except.map, true_and]
  refine ⟨handed.fields, ?_⟩
  rw [commit, ← handed.fields]
  exact passes

theorem writeBody (handed : ledger.Handed request writer) (content : Bytes) :
    (writer.writeBody content).result = (ledger.performNative (.sinkBody content)).1 ∧
      (ledger.performNative (.sinkBody content)).2.Handed request (writer.writeBody content).state := by
  simp only [Writer.writeBody, Writer.withSink, Sink.writeBody, performNative]
  by_cases committed : ledger.isCommitted = true
  · obtain ⟨counted, passes⟩ := handed.sink.write_of_isSome committed content
    simp only [committed, ↓reduceIte, counted, true_and]
    exact ⟨handed.fields, passes⟩
  · have refused := handed.sink.write_of_none (by simpa [isCommitted] using committed) content
    simp only [committed, Bool.false_eq_true, ↓reduceIte, refused, true_and]
    exact handed

theorem write (handed : ledger.Handed request writer) (content : Bytes) :
    (writer.write content).result = .ok content.length ∧
      (ledger.write content).Handed request (writer.write content).state := by
  have known : Sink.committed writer.sink = ledger.isCommitted := handed.sink.committed
  simp only [Writer.write, known]
  by_cases committed : ledger.isCommitted = true
  · have body := handed.writeBody content
    have same : ledger.commit .ok = ledger := by simp only [commit, Draft.send_of_isSome committed]
    simpa only [performNative, committed, ↓reduceIte, Ledger.write, same] using body
  · obtain ⟨sent, after⟩ := handed.writeHead .ok
    have body := after.writeBody content
    have now : (ledger.commit .ok).isCommitted = true := Draft.isSome_head_send _ _
    simpa only [committed, Bool.false_eq_true, ↓reduceIte, sent, performNative, now, Ledger.write] using body

theorem perform (handed : ledger.Handed request writer) (op : WriterOp) :
    (op.perform writer).1 = (ledger.performNative op).1 ∧
      (ledger.performNative op).2.Handed request (op.perform writer).2 := by
  obtain ⟨fields, sink⟩ := handed
  cases op with
  | set name value =>
      simp only [WriterOp.perform, performNative, fields, true_and]
      exact ⟨rfl, sink⟩
  | append name value =>
      simp only [WriterOp.perform, performNative, fields, true_and]
      exact ⟨rfl, sink⟩
  | remove key =>
      simp only [WriterOp.perform, performNative, fields]
      cases FieldName.ofBytes? key with
      | none => exact ⟨rfl, fields, sink⟩
      | some name => exact ⟨rfl, rfl, sink⟩
  | fields => exact ⟨fields, fields, sink⟩
  | writeHead status => exact writeHead ⟨fields, sink⟩ status
  | write content => exact write ⟨fields, sink⟩ content
  | committed => exact ⟨sink.committed, fields, sink⟩
  | flush =>
      have flushed := sink.flush
      simp only [WriterOp.perform, Writer.flush, Sink.flush, flushed, performNative, true_and]
      exact ⟨fields, sink⟩
  | sinkHead status => exact writeHead ⟨fields, sink⟩ status
  | sinkBody content => exact writeBody ⟨fields, sink⟩ content

end Handed

namespace Simulates

variable {view : ResponseView ResponseBuffer}

theorem committed (simulates : ledger.Simulates request logger view) :
    view.adapter.committed = ledger.isCommitted := simulates.adapter.committed

theorem settle (simulates : ledger.Simulates request logger view) :
    ledger.Simulates request logger view.settle ∧ view.settle.fields.locked = ledger.isCommitted := by
  simp only [ResponseView.settle, simulates.committed]
  by_cases committed : ledger.isCommitted = true
  · simp only [committed, ↓reduceIte]
    exact ⟨⟨simulates.adapter, simulates.fields.lock committed, simulates.logger⟩, rfl⟩
  · simp only [committed, Bool.false_eq_true, ↓reduceIte]
    refine ⟨simulates, ?_⟩
    cases locked : view.fields.locked with
    | false => rfl
    | true => exact absurd (simulates.fields.locked locked) committed

theorem writeHead (simulates : ledger.Simulates request logger view) (status : Status) :
    (view.writeHead status).result = .ok () ∧
      (view.writeHead status).log =
        (if ledger.isCommitted then logger.log .warn ResponseView.alreadyCommitted else []) ∧
      (ledger.commit status).Simulates request logger (view.writeHead status).view := by
  obtain ⟨sent, passes⟩ := simulates.adapter.commit status ledger.fields
  simp only [ResponseView.writeHead, simulates.fields.fields?, Option.getD_some, sent, ResponseView.warn,
    simulates.logger, true_and]
  refine ⟨by cases committed : ledger.draft.head.isSome <;> simp [isCommitted, committed], passes, ?_, rfl⟩
  exact ⟨simulates.fields.source, fun _ => Draft.isSome_head_send _ _, simulates.fields.keys⟩

theorem write (simulates : ledger.Simulates request logger view) (content : Bytes) :
    (view.write content).result = .ok content.length ∧ (view.write content).log = [] ∧
      (ledger.write content).Simulates request logger (view.write content).view := by
  simp only [ResponseView.write, simulates.committed]
  by_cases committed : ledger.isCommitted = true
  · obtain ⟨counted, passes⟩ := simulates.adapter.write_of_isSome committed content
    have same : ledger.commit .ok = ledger := by simp only [commit, Draft.send_of_isSome committed]
    simp only [committed, ↓reduceIte, counted, Ledger.write, same, true_and]
    exact ⟨passes, ⟨simulates.fields.source, fun _ => committed, simulates.fields.keys⟩, simulates.logger⟩
  · obtain ⟨sent, log, after⟩ := simulates.writeHead .ok
    have now : (ledger.commit .ok).isCommitted = true := Draft.isSome_head_send _ _
    obtain ⟨counted, passes⟩ := after.adapter.write_of_isSome now content
    simp only [committed, Bool.false_eq_true, ↓reduceIte] at log
    simp only [committed, Bool.false_eq_true, ↓reduceIte, sent, counted, log, Ledger.write, true_and]
    exact ⟨passes, ⟨after.fields.source, fun _ => now, after.fields.keys⟩, after.logger⟩

theorem native (simulates : ledger.Simulates request logger view) (op : WriterOp) :
    (ResponseOp.perform view (.native op)).answer = some (ledger.performNative op).1 ∧
      (ResponseOp.perform view (.native op)).log = [] ∧
      (ledger.performNative op).2.Simulates request logger (ResponseOp.perform view (.native op)).view := by
  obtain ⟨buffer, bound, _⟩ := simulates.adapter.sink
  have handed : ledger.Handed request ⟨ledger.fields, view.adapter⟩ := ⟨rfl, simulates.adapter⟩
  have writer : view.native? = some ⟨ledger.fields, view.adapter⟩ := by
    simp [ResponseView.native?, ResponseAdapter.isBound, bound, FieldsView.exclusive?, simulates.fields.source]
  obtain ⟨answer, fields, sink⟩ := handed.perform op
  simp only [ResponseOp.perform, writer, answer, ResponseView.restore, FieldsView.replaceExclusive,
    simulates.fields.source, true_and]
  exact ⟨sink, ⟨congrArg FieldsSource.exclusive fields,
    fun locked => isCommitted_performNative (simulates.fields.locked locked) op,
    fun stale => absurd stale (by simp)⟩, simulates.logger⟩

theorem perform (simulates : ledger.Simulates request logger view) (op : ResponseOp) :
    (op.perform view).answer = (ledger.perform logger op).answer ∧
      (op.perform view).log = (ledger.perform logger op).log ∧
      (ledger.perform logger op).ledger.Simulates request logger (op.perform view).view := by
  cases op with
  | fields op =>
      obtain ⟨settled, exact⟩ := simulates.settle
      obtain ⟨answer, shown⟩ := settled.fields.perform exact op
      refine ⟨answer, rfl, ?_, shown, settled.logger⟩
      simp only [Ledger.perform, performFields_draft]
      exact settled.adapter
  | writeHead status => exact simulates.writeHead status
  | write content => exact simulates.write content
  | flush =>
      simp only [ResponseOp.perform, ResponseView.flush, simulates.adapter.flush, Ledger.perform, true_and]
      exact simulates
  | status => exact ⟨simulates.adapter.status, rfl, simulates⟩
  | size => exact ⟨simulates.adapter.size, rfl, simulates⟩
  | committed => exact ⟨simulates.committed, rfl, simulates⟩
  | native op => exact simulates.native op
  | log level message =>
      simp only [ResponseOp.perform, simulates.logger, Ledger.perform, true_and]
      exact simulates

end Simulates

structure Trace (σ : Type) where
  answers : List (Sigma ResponseOp.Answer)
  log : List LogEntry
  last : σ

def Trace.after {σ : Type} {op : ResponseOp} (answer : op.Answer) (log : List LogEntry) (later : Trace σ) : Trace σ :=
  ⟨⟨op, answer⟩ :: later.answers, log ++ later.log, later.last⟩

def performAll (logger : Logger) (ledger : Ledger) : List ResponseOp → Trace Ledger
  | [] => ⟨[], [], ledger⟩
  | op :: rest =>
    let effect := ledger.perform logger op
    .after effect.answer effect.log (performAll logger effect.ledger rest)

end Ledger

namespace ResponseView

def performAll {κ : Type} [Sink κ] (view : ResponseView κ) : List ResponseOp → Ledger.Trace (ResponseView κ)
  | [] => ⟨[], [], view⟩
  | op :: rest =>
    let effect := op.perform view
    .after effect.answer effect.log (performAll effect.view rest)

end ResponseView

namespace Ledger

variable {ledger : Ledger} {request : Request} {logger : Logger} {view : ResponseView ResponseBuffer}

theorem Simulates.performAll (simulates : ledger.Simulates request logger view) (ops : List ResponseOp) :
    (view.performAll ops).answers = (ledger.performAll logger ops).answers ∧
      (view.performAll ops).log = (ledger.performAll logger ops).log ∧
      (ledger.performAll logger ops).last.Simulates request logger (view.performAll ops).last := by
  induction ops generalizing ledger view with
  | nil => exact ⟨rfl, rfl, simulates⟩
  | cons op rest ih =>
      obtain ⟨answer, log, next⟩ := simulates.perform op
      obtain ⟨answers, logs, last⟩ := ih next
      simp only [ResponseView.performAll, Ledger.performAll, Trace.after, answer, log, answers, logs, true_and]
      exact last

theorem simulates_bind (buffer : ResponseBuffer) (request : Request) (limits : ResponseLimits) (fields : Fields)
    (logger : Logger) :
    Simulates ⟨fields, .blank⟩ request logger (ResponseView.unbound.bind
      (ResponseAdapter.unbound.bind (buffer.reset request limits)) (FieldsView.unbound.bindExclusive fields) logger) :=
  ⟨Draft.passes_bind (Draft.holds_reset buffer request limits),
    ⟨rfl, fun locked => absurd locked (by simp [ResponseView.bind, FieldsView.bindExclusive, FieldsView.rebind]),
      fun stale => absurd stale (by simp [ResponseView.bind, FieldsView.bindExclusive, FieldsView.rebind])⟩, rfl⟩

/-- A response that was just bound to a fresh sink and to fields of its own answers, logs, tallies and sends what the
ledger says, whatever engine code and native code do with it and in whatever order they do it. -/
theorem performAll_bind (buffer : ResponseBuffer) (request : Request) (limits : ResponseLimits) (fields : Fields)
    (logger : Logger) (ops : List ResponseOp) (keepAlive : Bool) {outlet : Outlet} (flows : outlet.Flows)
    (flushes : outlet.flushFailure 0 = none) :
    let view := ResponseView.unbound.bind (ResponseAdapter.unbound.bind (buffer.reset request limits))
      (FieldsView.unbound.bindExclusive fields) logger
    let run := view.performAll ops
    let reference := performAll logger ⟨fields, .blank⟩ ops
    run.answers = reference.answers ∧ run.log = reference.log ∧
      run.last.fields.fields? = some reference.last.fields ∧
      run.last.adapter.tally.status = reference.last.draft.status ∧
      run.last.adapter.tally.size = reference.last.draft.body.length ∧
      run.last.adapter.committed = reference.last.draft.head.isSome ∧
      ∃ sink, run.last.adapter.sink = some sink ∧
        (sink.finish outlet keepAlive).kept = .ok (reference.last.draft.keeps keepAlive) ∧
        (sink.finish outlet keepAlive).outlet.taken =
          outlet.taken ++ reference.last.draft.wire request keepAlive := by
  intro view run reference
  obtain ⟨answers, log, last⟩ := (simulates_bind buffer request limits fields logger).performAll ops
  obtain ⟨sink, bound, holds⟩ := last.adapter.sink
  obtain ⟨kept, out⟩ := holds.finish flows flushes keepAlive
  exact ⟨answers, log, last.fields.fields?, last.adapter.status, last.adapter.size, last.committed, sink, bound,
    kept, congrArg Outlet.taken out⟩

/-- A body in front of the head is refused; fields that are set behind it are not sent, by whichever path. -/
theorem performAll_bind_late_fields :
    let outlet := Outlet.limited (some 1) none none
    let view := ResponseView.unbound.bind (ResponseAdapter.unbound.bind ((ResponseBuffer.new {}).reset .blank {}))
      (FieldsView.unbound.bindExclusive .empty) .full
    let ops : List ResponseOp := [.native (.sinkBody (Ascii.bytes "lost")), .fields (.set "x-a" "1"),
      .write (Ascii.bytes "hi"), .fields (.set "x-b" "2"),
      .native (.set .host ⟨Ascii.bytes "late", by decide +kernel⟩), .writeHead ⟨404, by decide⟩]
    outlet.Flows ∧ outlet.flushFailure 0 = none ∧
      (view.performAll ops).log = [⟨.warn, "response already committed", false⟩] ∧
      (view.performAll ops).last.adapter.tally.status = .ok ∧ (view.performAll ops).last.adapter.tally.size = 2 ∧
      ∃ sink, (view.performAll ops).last.adapter.sink = some sink ∧
        (sink.finish outlet true).outlet.taken = Ascii.bytes
          "HTTP/1.1 200 OK\r\nx-a: 1\r\ncontent-length: 2\r\nconnection: keep-alive\r\n\r\nhi" := by
  intro outlet view ops
  have flows : outlet.Flows := fun _ => ⟨0, rfl⟩
  obtain ⟨_, log, _, status, size, _, sink, bound, _, out⟩ :=
    performAll_bind (.new {}) .blank {} .empty .full ops true flows rfl
  dsimp only [view]
  exact ⟨flows, rfl, log.trans (by decide +kernel), status.trans (by decide +kernel),
    size.trans (by decide +kernel), sink, bound, out.trans (by decide +kernel)⟩

end Ledger

end HttpService
