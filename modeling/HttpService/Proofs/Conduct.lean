import HttpService.Handler.Run
import HttpService.Proofs.Pipeline

/-! Whatever a handler does, with views or without, through pools, bridges and inner calls: it does nothing with the
sink of its writer but call it. -/

namespace HttpService

namespace SinkCall

variable {κ : Type} [Sink κ]

theorem performAll_append (sink : κ) (first second : List SinkCall) :
    (performAll sink (first ++ second)).2 = (performAll (performAll sink first).2 second).2 := by
  induction first generalizing sink with
  | nil => rfl
  | cons call rest ih => exact ih (call.perform sink).2

def Leads (sink later : κ) : Prop := ∃ calls, later = (performAll sink calls).2

theorem Leads.refl (sink : κ) : Leads sink sink := ⟨[], rfl⟩

theorem Leads.trans {first second third : κ} (earlier : Leads first second) (later : Leads second third) :
    Leads first third := by
  obtain ⟨calls, rfl⟩ := earlier
  obtain ⟨more, rfl⟩ := later
  exact ⟨calls ++ more, (performAll_append first calls more).symm⟩

theorem leads_perform (call : SinkCall) (sink : κ) : Leads sink (call.perform sink).2 := ⟨[call], rfl⟩

theorem Leads.keeps (holds : κ → Prop) (step : ∀ call {sink}, holds sink → holds (perform sink call).2)
    {sink later : κ} (leads : Leads sink later) (held : holds sink) : holds later := by
  obtain ⟨calls, rfl⟩ := leads
  induction calls generalizing sink with
  | nil => exact held
  | cons call rest ih => exact ih (step call held)

end SinkCall

open SinkCall (Leads)

theorem WriterOp.leads_perform {κ : Type} [Sink κ] (op : WriterOp) (writer : Writer κ) :
    Leads writer.sink (op.perform writer).2.sink := by
  have head (status : Status) : Leads writer.sink (writer.writeHead status).state.sink :=
    SinkCall.leads_perform (.head status writer.fields) writer.sink
  have body (writer : Writer κ) (content : Bytes) : Leads writer.sink (writer.writeBody content).state.sink :=
    SinkCall.leads_perform (.body content) writer.sink
  cases op with
  | writeHead status => exact head status
  | sinkHead status => exact head status
  | sinkBody content => exact body writer content
  | flush => exact SinkCall.leads_perform .flush writer.sink
  | remove key =>
      simp only [perform]
      split <;> exact .refl writer.sink
  | write content =>
      simp only [perform, Writer.write]
      split
      · exact body writer content
      · split
        · exact head .ok
        · exact (head .ok).trans (body _ content)
  | _ => exact .refl writer.sink

namespace ResponseAdapter

variable {κ : Type} [Sink κ]

def Forwards (adapter later : ResponseAdapter κ) : Prop :=
  ∀ sink, adapter.sink = some sink → ∃ next, later.sink = some next ∧ Leads sink next

variable {adapter : ResponseAdapter κ}

theorem Forwards.refl (adapter : ResponseAdapter κ) : adapter.Forwards adapter :=
  fun sink bound => ⟨sink, bound, .refl sink⟩

theorem Forwards.trans {first second third : ResponseAdapter κ} (earlier : first.Forwards second)
    (later : second.Forwards third) : first.Forwards third := by
  intro sink bound
  obtain ⟨next, bound, calls⟩ := earlier sink bound
  obtain ⟨last, bound, more⟩ := later next bound
  exact ⟨last, bound, calls.trans more⟩

theorem forwards_commit (status : Status) (fields : Fields) :
    adapter.Forwards (adapter.commit status fields).state := by
  intro sink bound
  simp only [commit, bound]
  split
  · exact ⟨sink, rfl, .refl sink⟩
  · split <;> exact ⟨_, rfl, SinkCall.leads_perform (.head status fields) sink⟩

theorem forwards_write (content : Bytes) : adapter.Forwards (adapter.write content).state := by
  intro sink bound
  simp only [write, bound]
  split <;> exact ⟨_, rfl, SinkCall.leads_perform (.body content) sink⟩

theorem forwards_flush : adapter.Forwards adapter.flush.state := by
  intro sink bound
  simp only [flush, bound]
  exact ⟨_, rfl, SinkCall.leads_perform .flush sink⟩

theorem forwards_perform (call : SinkCall) : adapter.Forwards (call.perform adapter).2 := by
  cases call with
  | head status fields => exact forwards_commit status fields
  | body content => exact forwards_write content
  | flush => exact forwards_flush

theorem forwards_of_leads {later : ResponseAdapter κ} (leads : Leads adapter later) : adapter.Forwards later :=
  leads.keeps adapter.Forwards (fun call _ forwards => forwards.trans (forwards_perform call)) (.refl adapter)

end ResponseAdapter

namespace ResponseView

variable {κ : Type} [Sink κ]

theorem leads_writeHead (view : ResponseView κ) (status : Status) :
    Leads view.adapter (view.writeHead status).view.adapter := by
  simp only [writeHead]
  split <;> exact SinkCall.leads_perform (.head status _) view.adapter

theorem leads_write (view : ResponseView κ) (content : Bytes) :
    Leads view.adapter (view.write content).view.adapter := by
  generalize headEq : (if view.adapter.committed then ⟨.ok (), view, []⟩ else view.writeHead .ok : Effect Unit κ) =
    head
  have headLeads : Leads view.adapter head.view.adapter := by
    rw [← headEq]
    split
    · exact .refl view.adapter
    · exact view.leads_writeHead .ok
  simp only [write, headEq]
  split
  · exact headLeads
  · exact headLeads.trans (SinkCall.leads_perform (.body content) head.view.adapter)

omit [Sink κ] in
theorem adapter_of_native? {view : ResponseView κ} {writer : Writer (ResponseAdapter κ)}
    (given : view.native? = some writer) : writer.sink = view.adapter := by
  simp only [native?] at given
  split at given
  · obtain ⟨fields, _, rfl⟩ := Option.map_eq_some_iff.mp given
    rfl
  · simp at given

end ResponseView

theorem ResponseOp.leads_perform {κ : Type} [Sink κ] (op : ResponseOp) (view : ResponseView κ) :
    Leads view.adapter (op.perform view).view.adapter := by
  cases op with
  | fields op =>
      simp only [perform, ResponseView.settle]
      split <;> exact .refl view.adapter
  | writeHead status => exact view.leads_writeHead status
  | write content => exact view.leads_write content
  | flush => exact SinkCall.leads_perform .flush view.adapter
  | native op =>
      simp only [perform]
      split
      · exact .refl view.adapter
      · rename_i writer given
        have leads := op.leads_perform writer
        rw [ResponseView.adapter_of_native? given] at leads
        exact leads
  | log level message =>
      simp only [perform]
      split <;> exact .refl view.adapter
  | _ => exact .refl view.adapter

theorem NativeProgram.leads_run {σ τ κ : Type} [Sink σ] [Sink κ] (inner : InnerCall τ)
    (innerLeads : ∀ {ν : Type} [Sink ν] (request : Request) (writer : Writer ν) (world : World τ),
      Leads writer.sink (inner request writer world).writer.sink)
    (program : NativeProgram σ τ) (given : Request) (captured : Option HandlerError) (writer : Writer κ)
    (world : World τ) : Leads writer.sink (program.run inner given captured writer world).writer.sink := by
  induction program generalizing captured writer world with
  | done => exact .refl writer.sink
  | panic message => exact .refl writer.sink
  | «recall» next ih => exact ih world.memory captured writer world
  | remember memory next ih => exact ih captured writer _
  | ask next ih => exact ih given captured writer world
  | call op next ih => exact (op.leads_perform writer).trans (ih _ captured _ world)
  | inner request next ih =>
      have called := innerLeads request writer world
      simp only [run]
      split
      · exact called
      · exact called.trans (ih _ _ _)
  | innerForeign request foreign next ih =>
      simp only [run]
      split
      · exact .refl writer.sink
      · exact ih _ _ writer _

section

variable {κ τ : Type} [Sink κ] {body : Exchange κ → World τ → Run κ τ}
  (leads : ∀ (exchange : Exchange κ) (world : World τ),
    Leads exchange.response.adapter (body exchange world).exchange.response.adapter)

include leads

theorem leads_withViews (logger : Logger) (request : Request) (writer : Writer κ) (world : World τ) :
    Leads writer.sink (withViews logger body request writer world).writer.sink := by
  obtain ⟨next, bound, calls⟩ := ResponseAdapter.forwards_of_leads
    (leads (Pools.Lease.fresh.bind request writer logger) world) writer.sink rfl
  simpa only [withViews, Exchange.writer, bound, Option.getD_some] using calls

theorem leads_dispatch (logger : Logger) (request : Request) (writer : Writer κ) (world : World τ) :
    Leads writer.sink (dispatch logger body request writer world).writer.sink := by
  simp only [dispatch]
  split
  · exact leads_withViews leads logger request writer world
  · rename_i pools _
    obtain ⟨next, bound, calls⟩ := ResponseAdapter.forwards_of_leads
      (leads (pools.checkout.1.bind request writer logger) { world with pools := some pools.checkout.2 }) writer.sink rfl
    simpa only [Exchange.writer, bound, Option.getD_some] using calls

end

theorem Program.leads_run {σ τ : Type} [Sink σ] (program : Program σ τ) (logger : Logger) {κ : Type} [Sink κ]
    (exchange : Exchange κ) (world : World τ) :
    Leads exchange.response.adapter (program.run logger exchange world).exchange.response.adapter := by
  induction program generalizing κ exchange world with
  | done result => exact .refl _
  | panic message => exact .refl _
  | «recall» next ih => exact ih world.memory exchange world
  | remember memory next ih => exact ih exchange _
  | call op next ih =>
      have performed : Leads exchange.response.adapter (op.perform exchange world).2.1.response.adapter := by
        cases op with
        | response op => exact op.leads_perform exchange.response
        | _ => exact .refl _
      exact performed.trans (ih _ _ _)
  | attempt inner next innerLeads ih =>
      have first := innerLeads exchange world
      simp only [run]
      split
      · exact first
      · exact first.trans (ih _ _ _)
  | bridge middleware inner next innerLeads ih =>
      simp only [run]
      split
      · rename_i request writer bound given
        have native := middleware.leads_run (fun request writer world =>
            withViews (exchange.response.logger.getD .tracing)
              (fun exchange world => inner.run logger exchange world) request writer world)
          (fun request writer world => leads_withViews (fun exchange world => innerLeads exchange world) _ request
            writer world) request none writer world
        rw [ResponseView.adapter_of_native? given] at native
        split
        · exact native
        · exact native.trans (ih _ { exchange with response := exchange.response.restore _ } _)
      · exact ih _ exchange world
  | reenter request writer inner next _ ih => exact ih _ exchange _

theorem leads_behind_bridge {σ τ κ : Type} [Sink σ] [Sink κ] {view : ResponseView κ}
    {writer : Writer (ResponseAdapter κ)} (given : view.native? = some writer) (middleware : NativeProgram σ τ)
    (inner : Program σ τ) (logger : Logger) (request : Request) (world : World τ) :
    Leads view.adapter (middleware.run (fun request writer world => withViews (view.logger.getD .tracing)
      (fun exchange world => inner.run logger exchange world) request writer world) request none writer world).writer.sink := by
  rw [← ResponseView.adapter_of_native? given]
  exact middleware.leads_run _ (fun request writer world =>
    leads_withViews (fun exchange world => inner.leads_run logger exchange world) _ request writer world) ..

/-- The handler does nothing with a sink but call it. It may panic. -/
def Serve.Acts {τ : Type} (serve : Serve ResponseBuffer τ)
    (calls : Request → Writer ResponseBuffer → τ → List SinkCall) : Prop :=
  ∀ request writer memory,
    (serve request writer memory).writer.sink = (SinkCall.performAll writer.sink (calls request writer memory)).2

theorem Serve.exists_acts {τ : Type} {serve : Serve ResponseBuffer τ}
    (leads : ∀ request writer memory, Leads writer.sink (serve request writer memory).writer.sink) :
    ∃ calls, serve.Acts calls :=
  ⟨fun request writer memory => Classical.choose (leads request writer memory),
    fun request writer memory => Classical.choose_spec (leads request writer memory)⟩

theorem NativeProgram.exists_acts {σ τ : Type} [Sink σ] (handler : NativeProgram σ τ) :
    ∃ calls, Serve.Acts (handler.serve : Serve ResponseBuffer (World τ)) calls :=
  Serve.exists_acts fun request writer world =>
    handler.leads_run _ (fun _ writer _ => .refl writer.sink) request none writer world

theorem Program.exists_acts {σ τ : Type} [Sink σ] (handler : Program σ τ) (logger : Logger) :
    ∃ calls, Serve.Acts (handler.serve logger : Serve ResponseBuffer (World τ)) calls :=
  Serve.exists_acts fun request writer world =>
    leads_dispatch (fun exchange world => handler.leads_run logger exchange world) logger request writer world

theorem Serve.Acts.conducts {τ : Type} {serve : Serve ResponseBuffer τ}
    {calls : Request → Writer ResponseBuffer → τ → List SinkCall} (acts : serve.Acts calls)
    (calm : ∀ request writer memory, (serve request writer memory).panic = none) : serve.Conducts calls :=
  ⟨calm, acts⟩

theorem NativeProgram.exists_conducts {σ τ : Type} [Sink σ] (handler : NativeProgram σ τ)
    (calm : ∀ request (writer : Writer ResponseBuffer) world, (handler.serve request writer world).panic = none) :
    ∃ calls, Serve.Conducts (handler.serve : Serve ResponseBuffer (World τ)) calls :=
  handler.exists_acts.imp fun _ acts => acts.conducts calm

theorem Program.exists_conducts {σ τ : Type} [Sink σ] (handler : Program σ τ) (logger : Logger)
    (calm : ∀ request (writer : Writer ResponseBuffer) world,
      (handler.serve logger request writer world).panic = none) :
    ∃ calls, Serve.Conducts (handler.serve logger : Serve ResponseBuffer (World τ)) calls :=
  (handler.exists_acts logger).imp fun _ acts => acts.conducts calm

end HttpService
