import HttpService.Handler.Run

/-! Two sinks that no use tells apart. What a handler does with the one it does with the other, it learns the same
from both, and they stay alike. -/

namespace HttpService

structure Attempt.Alike {α κ ν : Type} (alike : κ → ν → Prop) (first : Attempt α κ) (second : Attempt α ν) : Prop where
  result : first.result = second.result
  state : alike first.state second.state

structure Sink.Interchange {κ ν : Type} [Sink κ] [Sink ν] (alike : κ → ν → Prop) : Prop where
  writeHead : ∀ {first : κ} {second : ν}, alike first second → ∀ status fields,
    Attempt.Alike alike (writeHead first status fields) (writeHead second status fields)
  writeBody : ∀ {first : κ} {second : ν}, alike first second → ∀ content,
    Attempt.Alike alike (writeBody first content) (writeBody second content)
  committed : ∀ {first : κ} {second : ν}, alike first second → committed first = committed second
  flush : ∀ {first : κ} {second : ν}, alike first second → Attempt.Alike alike (flush first) (flush second)

namespace Writer

variable {κ ν : Type} [Sink κ] [Sink ν] {alike : κ → ν → Prop}

omit [Sink κ] [Sink ν] in
structure Alike (alike : κ → ν → Prop) (first : Writer κ) (second : Writer ν) : Prop where
  fields : first.fields = second.fields
  sink : alike first.sink second.sink

variable (interchange : Sink.Interchange alike) {first : Writer κ} {second : Writer ν}

include interchange

theorem Alike.writeHead (same : Alike alike first second) (status : Status) :
    Attempt.Alike (Alike alike) (first.writeHead status) (second.writeHead status) := by
  obtain ⟨result, state⟩ := interchange.writeHead same.sink status first.fields
  rw [Writer.writeHead, Writer.writeHead, ← same.fields]
  exact ⟨result, same.fields, state⟩

theorem Alike.writeBody (same : Alike alike first second) (content : Bytes) :
    Attempt.Alike (Alike alike) (first.writeBody content) (second.writeBody content) := by
  obtain ⟨result, state⟩ := interchange.writeBody same.sink content
  exact ⟨result, same.fields, state⟩

theorem Alike.flush (same : Alike alike first second) :
    Attempt.Alike (Alike alike) first.flush second.flush := by
  obtain ⟨result, state⟩ := interchange.flush same.sink
  exact ⟨result, same.fields, state⟩

theorem Alike.write (same : Alike alike first second) (content : Bytes) :
    Attempt.Alike (Alike alike) (first.write content) (second.write content) := by
  rw [Writer.write, Writer.write, ← interchange.committed same.sink]
  split
  · exact same.writeBody interchange content
  · obtain ⟨result, state⟩ := same.writeHead interchange .ok
    dsimp only
    rw [← result]
    cases (first.writeHead .ok).result with
    | error error => exact ⟨rfl, state⟩
    | ok => exact state.writeBody interchange content

end Writer

theorem WriterOp.alike_perform {κ ν : Type} [Sink κ] [Sink ν] {alike : κ → ν → Prop}
    (interchange : Sink.Interchange alike) {first : Writer κ} {second : Writer ν}
    (same : Writer.Alike alike first second) (op : WriterOp) :
    (op.perform first).1 = (op.perform second).1 ∧
      Writer.Alike alike (op.perform first).2 (op.perform second).2 := by
  obtain ⟨fields, sink⟩ := same
  cases op with
  | set name value => simp only [perform, fields]; exact ⟨trivial, rfl, sink⟩
  | append name value => simp only [perform, fields]; exact ⟨trivial, rfl, sink⟩
  | fields => exact ⟨fields, fields, sink⟩
  | remove key =>
      simp only [perform, fields]
      split
      · exact ⟨rfl, fields, sink⟩
      · exact ⟨rfl, rfl, sink⟩
  | committed => exact ⟨interchange.committed sink, fields, sink⟩
  | writeHead status =>
      obtain ⟨result, state⟩ := Writer.Alike.writeHead interchange ⟨fields, sink⟩ status
      exact ⟨result, state⟩
  | sinkHead status =>
      obtain ⟨result, state⟩ := Writer.Alike.writeHead interchange ⟨fields, sink⟩ status
      exact ⟨result, state⟩
  | write content =>
      obtain ⟨result, state⟩ := Writer.Alike.write interchange ⟨fields, sink⟩ content
      exact ⟨result, state⟩
  | sinkBody content =>
      obtain ⟨result, state⟩ := Writer.Alike.writeBody interchange ⟨fields, sink⟩ content
      exact ⟨result, state⟩
  | flush =>
      obtain ⟨result, state⟩ := Writer.Alike.flush interchange ⟨fields, sink⟩
      exact ⟨result, state⟩

namespace ResponseAdapter

variable {κ ν : Type} [Sink κ] [Sink ν]

/-- Of an adapter a handler also learns what has passed through it. -/
structure Interchange (alike : ResponseAdapter κ → ResponseAdapter ν → Prop) : Prop where
  tally : ∀ {first second}, alike first second → first.tally = second.tally
  isBound : ∀ {first second}, alike first second → first.isBound = second.isBound
  committed : ∀ {first second}, alike first second → first.committed = second.committed
  commit : ∀ {first second}, alike first second → ∀ status fields,
    Attempt.Alike alike (first.commit status fields) (second.commit status fields)
  write : ∀ {first second}, alike first second → ∀ content,
    Attempt.Alike alike (first.write content) (second.write content)
  flush : ∀ {first second}, alike first second → Attempt.Alike alike first.flush second.flush

theorem Interchange.sink {alike : ResponseAdapter κ → ResponseAdapter ν → Prop} (interchange : Interchange alike) :
    Sink.Interchange alike where
  writeHead same status fields := by
    obtain ⟨result, state⟩ := interchange.commit same status fields
    exact ⟨congrArg (Except.map fun _ => ()) result, state⟩
  writeBody same content := interchange.write same content
  committed same := interchange.committed same
  flush same := interchange.flush same

omit [Sink κ] [Sink ν] in
structure Over (alike : κ → ν → Prop) (first : ResponseAdapter κ) (second : ResponseAdapter ν) : Prop where
  tally : first.tally = second.tally
  sink : Option.Rel alike first.sink second.sink

theorem interchange_over {alike : κ → ν → Prop} (sinks : Sink.Interchange alike) : Interchange (Over alike) := by
  refine ⟨fun same => same.tally, ?_, ?_, ?_, ?_, ?_⟩
  · rintro ⟨first, tally⟩ ⟨second, _⟩ ⟨rfl, sink⟩
    cases sink <;> rfl
  · rintro ⟨first, tally⟩ ⟨second, _⟩ ⟨rfl, sink⟩
    cases sink with
    | none => rfl
    | some sink => simp only [committed, Option.any_some, sinks.committed sink]
  · rintro ⟨first, tally⟩ ⟨second, _⟩ ⟨rfl, sink⟩ status fields
    cases sink with
    | none =>
        simp only [commit, committed, Option.any_none, Bool.or_false]
        split <;> exact ⟨rfl, rfl, .none⟩
    | some sink =>
        obtain ⟨result, state⟩ := sinks.writeHead sink status fields
        simp only [commit, committed, Option.any_some, sinks.committed sink, ← result]
        split
        · exact ⟨rfl, rfl, .some sink⟩
        · split <;> exact ⟨rfl, rfl, .some state⟩
  · rintro ⟨first, tally⟩ ⟨second, _⟩ ⟨rfl, sink⟩ content
    cases sink with
    | none => exact ⟨rfl, rfl, .none⟩
    | some sink =>
        obtain ⟨result, state⟩ := sinks.writeBody sink content
        simp only [write, ← result]
        split <;> exact ⟨rfl, rfl, .some state⟩
  · rintro ⟨first, tally⟩ ⟨second, _⟩ ⟨rfl, sink⟩
    cases sink with
    | none => exact ⟨rfl, rfl, .none⟩
    | some sink =>
        obtain ⟨result, state⟩ := sinks.flush sink
        exact ⟨result, rfl, .some state⟩

end ResponseAdapter

namespace ResponseView

variable {κ ν : Type} [Sink κ] [Sink ν] {alike : ResponseAdapter κ → ResponseAdapter ν → Prop}

omit [Sink κ] [Sink ν] in
structure Alike (alike : ResponseAdapter κ → ResponseAdapter ν → Prop) (first : ResponseView κ)
    (second : ResponseView ν) : Prop where
  adapter : alike first.adapter second.adapter
  fields : first.fields = second.fields
  logger : first.logger = second.logger

omit [Sink κ] [Sink ν] in
structure Effect.Alike {α : Type} (alike : ResponseAdapter κ → ResponseAdapter ν → Prop) (first : Effect α κ)
    (second : Effect α ν) : Prop where
  result : first.result = second.result
  view : ResponseView.Alike alike first.view second.view
  log : first.log = second.log

variable (interchange : ResponseAdapter.Interchange alike) {first : ResponseView κ} {second : ResponseView ν}

include interchange

theorem Alike.settle (same : Alike alike first second) : Alike alike first.settle second.settle := by
  obtain ⟨adapter, fields, logger⟩ := same
  simp only [ResponseView.settle, interchange.committed adapter]
  split
  · exact ⟨adapter, congrArg FieldsView.lock fields, logger⟩
  · exact ⟨adapter, fields, logger⟩

theorem Alike.native? (same : Alike alike first second) :
    Option.Rel (Writer.Alike alike) first.native? second.native? := by
  obtain ⟨adapter, fields, logger⟩ := same
  simp only [ResponseView.native?, interchange.isBound adapter, fields]
  split
  · cases second.fields.exclusive? with
    | none => exact .none
    | some fields => exact .some ⟨rfl, adapter⟩
  · exact .none

omit interchange [Sink κ] [Sink ν] in
theorem Alike.restore (same : Alike alike first second) {writer : Writer (ResponseAdapter κ)}
    {other : Writer (ResponseAdapter ν)} (writers : Writer.Alike alike writer other) :
    Alike alike (first.restore writer) (second.restore other) := by
  refine ⟨writers.sink, ?_, same.logger⟩
  simp only [ResponseView.restore, same.fields, writers.fields]

theorem Alike.writeHead (same : Alike alike first second) (status : Status) :
    Effect.Alike alike (first.writeHead status) (second.writeHead status) := by
  obtain ⟨adapter, fields, logger⟩ := same
  obtain ⟨result, state⟩ := interchange.commit adapter status (first.fields.fields?.getD .empty)
  simp only [ResponseView.writeHead, ← fields, ← result, warn, ← logger]
  split
  · exact ⟨rfl, ⟨state, rfl, rfl⟩, rfl⟩
  · exact ⟨rfl, ⟨state, rfl, rfl⟩, rfl⟩

theorem Alike.write (same : Alike alike first second) (content : Bytes) :
    Effect.Alike alike (first.write content) (second.write content) := by
  have head : Effect.Alike alike
      (if first.adapter.committed then ⟨.ok (), first, []⟩ else first.writeHead .ok : Effect Unit κ)
      (if second.adapter.committed then ⟨.ok (), second, []⟩ else second.writeHead .ok : Effect Unit ν) := by
    rw [← interchange.committed same.adapter]
    split
    · exact ⟨rfl, same, rfl⟩
    · exact same.writeHead interchange .ok
  obtain ⟨result, view, log⟩ := head
  simp only [ResponseView.write, ← result, ← log]
  split
  · exact ⟨rfl, view, rfl⟩
  · obtain ⟨taken, state⟩ := interchange.write view.adapter content
    exact ⟨taken, ⟨state, view.fields, view.logger⟩, rfl⟩

theorem Alike.flush (same : Alike alike first second) : Effect.Alike alike first.flush second.flush := by
  obtain ⟨result, state⟩ := interchange.flush same.adapter
  exact ⟨result, ⟨state, same.fields, same.logger⟩, rfl⟩

end ResponseView

theorem ResponseOp.alike_perform {κ ν : Type} [Sink κ] [Sink ν]
    {alike : ResponseAdapter κ → ResponseAdapter ν → Prop} (interchange : ResponseAdapter.Interchange alike)
    {first : ResponseView κ} {second : ResponseView ν} (same : ResponseView.Alike alike first second)
    (op : ResponseOp) :
    (op.perform first).answer = (op.perform second).answer ∧
      ResponseView.Alike alike (op.perform first).view (op.perform second).view ∧
      (op.perform first).log = (op.perform second).log := by
  cases op with
  | fields op =>
      obtain ⟨adapter, fields, logger⟩ := same.settle interchange
      simp only [perform, fields]
      exact ⟨trivial, ⟨adapter, rfl, logger⟩, trivial⟩
  | writeHead status =>
      obtain ⟨result, view, log⟩ := same.writeHead interchange status
      exact ⟨result, view, log⟩
  | write content =>
      obtain ⟨result, view, log⟩ := same.write interchange content
      exact ⟨result, view, log⟩
  | flush =>
      obtain ⟨result, view, log⟩ := same.flush interchange
      exact ⟨result, view, log⟩
  | status => exact ⟨congrArg Tally.status (interchange.tally same.adapter), same, rfl⟩
  | size => exact ⟨congrArg Tally.size (interchange.tally same.adapter), same, rfl⟩
  | committed => exact ⟨interchange.committed same.adapter, same, rfl⟩
  | native op =>
      have writers := same.native? interchange
      simp only [perform]
      generalize first.native? = writer at writers
      generalize second.native? = other at writers
      cases writers with
      | none => exact ⟨rfl, same, rfl⟩
      | some writers =>
          obtain ⟨answer, after⟩ := op.alike_perform interchange.sink writers
          exact ⟨congrArg some answer, same.restore after, rfl⟩
  | log level message =>
      simp only [perform, same.logger]
      split <;> exact ⟨rfl, same, rfl⟩

section

variable {κ ν τ : Type}

structure Exchange.Alike (alike : ResponseAdapter κ → ResponseAdapter ν → Prop) (first : Exchange κ)
    (second : Exchange ν) : Prop where
  request : first.request = second.request
  response : ResponseView.Alike alike first.response second.response

structure Run.Alike (alike : ResponseAdapter κ → ResponseAdapter ν → Prop) (first : Run κ τ) (second : Run ν τ) :
    Prop where
  ending : first.ending = second.ending
  exchange : Exchange.Alike alike first.exchange second.exchange
  world : first.world = second.world

structure Call.Alike (alike : κ → ν → Prop) (first : Call κ τ) (second : Call ν τ) : Prop where
  ending : first.ending = second.ending
  writer : Writer.Alike alike first.writer second.writer
  world : first.world = second.world

structure NativeRun.Alike (alike : κ → ν → Prop) (first : NativeRun κ τ) (second : NativeRun ν τ) : Prop where
  panic : first.panic = second.panic
  captured : first.captured = second.captured
  writer : Writer.Alike alike first.writer second.writer
  world : first.world = second.world

end

theorem Op.alike_perform {κ ν τ : Type} [Sink κ] [Sink ν] {alike : ResponseAdapter κ → ResponseAdapter ν → Prop}
    (interchange : ResponseAdapter.Interchange alike) {first : Exchange κ} {second : Exchange ν}
    (same : Exchange.Alike alike first second) (world : World τ) (op : Op) :
    (op.perform first world).1 = (op.perform second world).1 ∧
      Exchange.Alike alike (op.perform first world).2.1 (op.perform second world).2.1 ∧
      (op.perform first world).2.2 = (op.perform second world).2.2 := by
  cases op with
  | request op =>
      simp only [perform, same.request]
      exact ⟨trivial, ⟨rfl, same.response⟩, trivial⟩
  | response op =>
      obtain ⟨answer, view, log⟩ := op.alike_perform interchange same.response
      exact ⟨answer, ⟨same.request, view⟩, congrArg world.report log⟩
  | log logger level message => exact ⟨rfl, same, rfl⟩
  | poolStats => exact ⟨rfl, same, rfl⟩

theorem withViews_alike {κ ν τ : Type} {alike : κ → ν → Prop} {body : Exchange κ → World τ → Run κ τ}
    {other : Exchange ν → World τ → Run ν τ}
    (bodies : ∀ {first second} world, Exchange.Alike (ResponseAdapter.Over alike) first second →
      Run.Alike (ResponseAdapter.Over alike) (body first world) (other second world))
    (logger : Logger) (request : Request) {first : Writer κ} {second : Writer ν}
    (same : Writer.Alike alike first second) (world : World τ) :
    Call.Alike alike (withViews logger body request first world) (withViews logger other request second world) := by
  have bound : Exchange.Alike (ResponseAdapter.Over alike) (Pools.Lease.fresh.bind request first logger)
      (Pools.Lease.fresh.bind request second logger) :=
    ⟨rfl, ⟨rfl, .some same.sink⟩, by simp only [Pools.Lease.bind, ResponseView.bind, same.fields], rfl⟩
  obtain ⟨ending, ⟨_, ⟨_, sink⟩, fields, _⟩, after⟩ := bodies world bound
  refine ⟨ending, ⟨?_, ?_⟩, after⟩
  · simp only [withViews, Exchange.writer, fields, same.fields]
  · simp only [withViews, Exchange.writer]
    generalize (body _ world).exchange.response.adapter.sink = kept at sink
    generalize (other _ world).exchange.response.adapter.sink = left at sink
    cases sink with
    | none => exact same.sink
    | some sink => exact sink

theorem NativeProgram.alike_run {σ τ : Type} [Sink σ] {inner : InnerCall τ}
    (calls : ∀ {κ ν : Type} [Sink κ] [Sink ν] {alike : κ → ν → Prop}, Sink.Interchange alike →
      ∀ (request : Request) {first : Writer κ} {second : Writer ν}, Writer.Alike alike first second →
      ∀ world, Call.Alike alike (inner request first world) (inner request second world))
    (program : NativeProgram σ τ) (given : Request) (captured : Option HandlerError) {κ ν : Type} [Sink κ] [Sink ν]
    {alike : κ → ν → Prop} (interchange : Sink.Interchange alike) {first : Writer κ} {second : Writer ν}
    (same : Writer.Alike alike first second) (world : World τ) :
    NativeRun.Alike alike (program.run inner given captured first world)
      (program.run inner given captured second world) := by
  induction program generalizing captured first second world with
  | done => exact ⟨rfl, rfl, same, rfl⟩
  | panic message => exact ⟨rfl, rfl, same, rfl⟩
  | «recall» next ih => exact ih world.memory captured same world
  | remember memory next ih => exact ih captured same _
  | ask next ih => exact ih given captured same world
  | call op next ih =>
      obtain ⟨answer, after⟩ := op.alike_perform interchange same
      simp only [run, answer]
      exact ih _ captured after world
  | inner request next ih =>
      obtain ⟨ending, after, later⟩ := calls interchange request same world
      simp only [run, ← ending, ← later]
      split
      · exact ⟨rfl, rfl, after, rfl⟩
      · exact ih _ after _
  | innerForeign request foreign next ih =>
      simp only [run]
      split
      · exact ⟨rfl, rfl, same, rfl⟩
      · exact ih _ _ same _

theorem Program.alike_run {σ τ : Type} [Sink σ] (program : Program σ τ) (logger : Logger) {κ ν : Type} [Sink κ]
    [Sink ν] {alike : ResponseAdapter κ → ResponseAdapter ν → Prop} (interchange : ResponseAdapter.Interchange alike)
    {first : Exchange κ} {second : Exchange ν} (same : Exchange.Alike alike first second) (world : World τ) :
    Run.Alike alike (program.run logger first world) (program.run logger second world) := by
  induction program generalizing κ ν first second world with
  | done result => exact ⟨rfl, same, rfl⟩
  | panic message => exact ⟨rfl, same, rfl⟩
  | «recall» next ih => exact ih world.memory interchange same world
  | remember memory next ih => exact ih interchange same _
  | call op next ih =>
      obtain ⟨answer, after, later⟩ := op.alike_perform interchange same world
      simp only [run, answer, later]
      exact ih _ interchange after _
  | attempt inner next innerAlike ih =>
      obtain ⟨ending, after, later⟩ := innerAlike interchange same world
      simp only [run, ← ending, ← later]
      split
      · exact ⟨rfl, after, rfl⟩
      · exact ih _ interchange after _
  | bridge middleware inner next innerAlike ih =>
      have writers := same.response.native? interchange
      simp only [run, ← same.request]
      generalize first.response.native? = writer at writers
      generalize second.response.native? = other at writers
      cases first.request.bound with
      | none => exact ih _ interchange same world
      | some request =>
          cases writers with
          | none => exact ih _ interchange same world
          | some writers =>
              obtain ⟨panic, captured, after, later⟩ :=
                @NativeProgram.alike_run _ _ _ (fun request writer world => withViews
                  (first.response.logger.getD .tracing) (fun exchange world => inner.run logger exchange world) request
                  writer world)
                  (fun sinks request _ _ same world => withViews_alike
                    (fun world same => innerAlike (ResponseAdapter.interchange_over sinks) same world) _ request same
                    world)
                  middleware request none _ _ _ _ _ interchange.sink _ _ writers world
              simp only [← same.response.logger, ← panic, ← captured, ← later]
              have restored := same.response.restore after
              split
              · exact ⟨rfl, ⟨rfl, restored⟩, rfl⟩
              · exact ih _ interchange ⟨rfl, restored⟩ _
  | reenter request writer inner next _ ih => exact ih _ interchange same _

end HttpService
