import HttpService.Proofs.Failure
import HttpService.Proofs.Marking
import Mathlib.Data.List.Induction

/-! What comes out of a bridge is the failure of the last call behind it that failed, of those that this crossing has
made and of no other, however often the bridge is crossed, from inside as well, and wherever a crossing is cut short by
a panic. -/

namespace HttpService

/-- The error of the last call that has failed; a call that succeeds later does not take it back. -/
def Tells (results : List (Except HandlerError Unit)) : Except HandlerError Unit → Prop
  | .ok () => ∀ result ∈ results, result = .ok ()
  | .error error => ∃ before after, results = before ++ .error error :: after ∧ ∀ result ∈ after, result = .ok ()

theorem tells_captured (results : List (Except HandlerError Unit)) :
    Tells results (Program.resultOf (results.foldl NativeProgram.capture none)) := by
  induction results using List.reverseRecOn with
  | nil => nofun
  | append_singleton earlier last ih =>
      rw [List.foldl_append, List.foldl_cons, List.foldl_nil]
      cases last with
      | error error => exact ⟨earlier, [], rfl, nofun⟩
      | ok =>
          simp only [NativeProgram.capture]
          cases told : Program.resultOf (earlier.foldl NativeProgram.capture none) with
          | ok =>
              rw [told] at ih
              intro result member
              rcases List.mem_append.mp member with before | last
              · exact ih result before
              · exact List.mem_singleton.mp last
          | error error =>
              rw [told] at ih
              obtain ⟨before, after, rfl, calm⟩ := ih
              refine ⟨before, after ++ [.ok ()], by simp, fun result member => ?_⟩
              rcases List.mem_append.mp member with known | last
              · exact calm result known
              · exact List.mem_singleton.mp last

namespace Journal

def of (journal : Journal) (crossing : Nat) : Journal := journal.filter fun mark => mark.crossing == crossing

def besides (journal : Journal) (crossing : Nat) : Journal := journal.filter fun mark => !(mark.crossing == crossing)

def rounds (crossing : Nat) (results : List (Except HandlerError Unit)) : Journal :=
  results.flatMap fun result => [.called crossing, .began crossing, .ended crossing result]

/-- How a crossing ends, and all its marks. It tells the last failure of its calls, or a panic cuts it short: of the
middleware itself, or of the handler in a call. -/
inductive Course (crossing : Nat) : Ending → Journal → Prop
  | finished {results : List (Except HandlerError Unit)} {result : Except HandlerError Unit} (tells : Tells results result) :
    Course crossing (.finished result) (.opened crossing :: (rounds crossing results ++ [.told crossing result]))
  | left (results : List (Except HandlerError Unit)) (message : String) :
    Course crossing (.panicked message) (.opened crossing :: rounds crossing results)
  | cut (results : List (Except HandlerError Unit)) (message : String) :
    Course crossing (.panicked message)
      (.opened crossing :: (rounds crossing results ++ [.called crossing, .began crossing]))

variable {journal later own : Journal} {crossing other first : Nat} {ending : Ending}

theorem opened_append (journal later : Journal) : opened (journal ++ later) = journal.opened + later.opened :=
  List.countP_append

theorem of_append (journal later : Journal) (crossing : Nat) :
    of (journal ++ later) crossing = journal.of crossing ++ later.of crossing :=
  List.filter_append ..

theorem besides_append (journal later : Journal) (crossing : Nat) :
    besides (journal ++ later) crossing = journal.besides crossing ++ later.besides crossing :=
  List.filter_append ..

theorem of_eq_nil (elsewhere : ∀ mark ∈ journal, mark.crossing ≠ crossing) : journal.of crossing = [] :=
  List.filter_eq_nil_iff.mpr fun mark member => by simpa using elsewhere mark member

theorem besides_eq_self (elsewhere : ∀ mark ∈ journal, mark.crossing ≠ crossing) : journal.besides crossing = journal :=
  List.filter_eq_self.mpr fun mark member => by simpa using elsewhere mark member

theorem of_besides (apart : other ≠ crossing) : (journal.besides crossing).of other = journal.of other := by
  rw [of, besides, List.filter_filter, of]
  refine List.filter_congr fun mark _ => ?_
  cases same : mark.crossing == other with
  | false => rfl
  | true => simp [beq_iff_eq.mp same, apart]

theorem opened_eq_add (journal : Journal) (crossing : Nat) :
    journal.opened = (journal.of crossing).opened + (journal.besides crossing).opened :=
  List.countP_eq_countP_filter_add ..

theorem opened_rounds (crossing : Nat) (results : List (Except HandlerError Unit)) :
    (rounds crossing results).opened = 0 := by
  induction results with
  | nil => rfl
  | cons result rest ih => exact ih

theorem Course.opened_tail (course : Course crossing ending (.opened crossing :: own)) : own.opened = 0 := by
  cases course with
  | finished | cut => rw [opened_append, opened_rounds]; rfl
  | left results message => exact opened_rounds crossing results

/-- The crossings in a journal are numbered through, and each of them has run its course. -/
structure Settled (first : Nat) (journal : Journal) : Prop where
  numbered : ∀ mark ∈ journal, first ≤ mark.crossing ∧ mark.crossing < first + journal.opened
  course : ∀ crossing, first ≤ crossing → crossing < first + journal.opened →
    ∃ ending, Course crossing ending (journal.of crossing)

theorem settled_nil (first : Nat) : Settled first [] :=
  ⟨nofun, fun _ low high => absurd high (Nat.not_lt.mpr low)⟩

theorem Settled.append (earlier : Settled first journal) (next : Settled (first + journal.opened) later) :
    Settled first (journal ++ later) where
  numbered := by
    intro mark member
    rw [opened_append]
    rcases List.mem_append.mp member with before | after
    · have bounds := earlier.numbered mark before
      omega
    · have bounds := next.numbered mark after
      omega
  course := by
    intro crossing low high
    rw [opened_append] at high
    rw [of_append]
    by_cases before : crossing < first + journal.opened
    · have absent : later.of crossing = [] := of_eq_nil fun mark member same => by
        have bounds := next.numbered mark member
        omega
      rw [absent, List.append_nil]
      exact earlier.course crossing low before
    · have absent : journal.of crossing = [] := of_eq_nil fun mark member same => by
        have bounds := earlier.numbered mark member
        omega
      rw [absent, List.nil_append]
      exact next.course crossing (by omega) (by omega)

theorem Settled.enclose (others : Settled (crossing + 1) (journal.besides crossing))
    (course : Course crossing ending (.opened crossing :: journal.of crossing)) :
    Settled crossing (.opened crossing :: journal) := by
  have count : opened (.opened crossing :: journal) = (journal.besides crossing).opened + 1 := by
    rw [opened, List.countP_cons_of_pos rfl, ← opened, journal.opened_eq_add crossing, course.opened_tail, Nat.zero_add]
  have own : of (.opened crossing :: journal) crossing = .opened crossing :: journal.of crossing :=
    List.filter_cons_of_pos (beq_self_eq_true crossing)
  have apart {other : Nat} (different : other ≠ crossing) :
      of (.opened crossing :: journal) other = (journal.besides crossing).of other := by
    rw [of_besides different, of, List.filter_cons_of_neg (by simpa [BridgeMark.crossing] using different.symm), of]
  constructor
  · intro mark member
    rw [count]
    by_cases same : mark.crossing = crossing
    · omega
    · have inside : mark ∈ journal.besides crossing := by
        rcases List.mem_cons.mp member with opening | inside
        · exact absurd (congrArg BridgeMark.crossing opening) same
        · exact List.mem_filter.mpr ⟨inside, by simpa using same⟩
      have bounds := others.numbered mark inside
      omega
  · intro other low high
    rw [count] at high
    by_cases same : other = crossing
    · rw [same, own]
      exact ⟨ending, course⟩
    · rw [apart same]
      exact others.course other (by omega) (by omega)

def Passes (journal later : Journal) : Prop := ∃ since, later = journal ++ since ∧ Settled journal.opened since

theorem Passes.refl (journal : Journal) : Passes journal journal :=
  ⟨[], (List.append_nil journal).symm, settled_nil _⟩

theorem Passes.trans {third : Journal} (earlier : Passes journal later) (next : Passes later third) :
    Passes journal third := by
  obtain ⟨since, rfl, settled⟩ := earlier
  obtain ⟨more, rfl, settledToo⟩ := next
  rw [opened_append] at settledToo
  exact ⟨since ++ more, List.append_assoc .., settled.append settledToo⟩

theorem Passes.settled (passes : Passes [] journal) : Settled 0 journal := by
  obtain ⟨_, rfl, settled⟩ := passes
  exact settled

structure Crosses (crossing : Nat) (own journal later : Journal) : Prop where
  before : crossing < journal.opened
  exists_since : ∃ since, later = journal ++ since ∧ since.of crossing = own ∧ own.opened = 0 ∧
    Settled journal.opened (since.besides crossing)

theorem Crosses.after (crosses : Crosses crossing own journal later) : crossing < later.opened := by
  obtain ⟨before, since, rfl, _⟩ := crosses
  rw [opened_append]
  omega

theorem Crosses.trans {more third : Journal} (earlier : Crosses crossing own journal later)
    (next : Crosses crossing more later third) : Crosses crossing (own ++ more) journal third := by
  obtain ⟨before, since, rfl, rfl, silent, settled⟩ := earlier
  obtain ⟨_, sinceToo, rfl, rfl, silentToo, settledToo⟩ := next
  rw [opened_append, since.opened_eq_add crossing, silent, Nat.zero_add] at settledToo
  refine ⟨before, since ++ sinceToo, List.append_assoc .., of_append .., ?_, ?_⟩
  · rw [opened_append, silent, silentToo]
  · rw [besides_append]
    exact settled.append settledToo

theorem Crosses.of_passes (before : crossing < journal.opened) (passes : Passes journal later) :
    Crosses crossing [] journal later := by
  obtain ⟨since, rfl, settled⟩ := passes
  have elsewhere : ∀ mark ∈ since, mark.crossing ≠ crossing := fun mark member same => by
    have bounds := settled.numbered mark member
    omega
  refine ⟨before, since, rfl, of_eq_nil elsewhere, rfl, ?_⟩
  rwa [besides_eq_self elsewhere]

theorem Crosses.mark (mark : BridgeMark) (before : mark.crossing < journal.opened) (silent : mark.isOpened = false) :
    Crosses mark.crossing [mark] journal (journal ++ [mark]) := by
  refine ⟨before, [mark], rfl, ?_, ?_, ?_⟩
  · simp [of]
  · simp [opened, silent]
  · simpa [besides] using settled_nil _

theorem Passes.of_crosses {before : Journal}
    (crosses : Crosses before.opened own (before ++ [.opened before.opened]) later)
    (course : Course before.opened ending (.opened before.opened :: own)) : Passes before later := by
  obtain ⟨_, since, rfl, rfl, _, settled⟩ := crosses
  rw [opened_append] at settled
  exact ⟨.opened before.opened :: since, by simp, settled.enclose course⟩

theorem Crosses.of_later {before : Journal} (numbered : ∀ mark ∈ before, mark.crossing < before.opened)
    (crosses : Crosses before.opened own (before ++ [.opened before.opened]) later) :
    later.of before.opened = .opened before.opened :: own := by
  obtain ⟨_, since, rfl, rfl, _⟩ := crosses
  have absent : before.of before.opened = [] := of_eq_nil fun mark member => Nat.ne_of_lt (numbered mark member)
  rw [of_append, of_append, absent]
  simp [of, BridgeMark.crossing]

end Journal

open Journal (Passes Crosses Course rounds)

section

variable {κ : Type}

structure Exchange.Backed (exchange : Exchange κ) : Prop where
  request : exchange.request.bound.isSome = true
  adapter : exchange.response.adapter.isBound = true
  fields : exchange.response.fields.exclusive?.isSome = true

theorem Exchange.backed_bind (lease : Pools.Lease) (request : Request) (writer : Writer κ) (logger : Logger) :
    (lease.bind request writer logger).Backed :=
  ⟨rfl, rfl, rfl⟩

theorem Exchange.Backed.exists_native {exchange : Exchange κ} (backed : exchange.Backed) :
    ∃ request writer, exchange.request.bound = some request ∧ exchange.response.native? = some writer := by
  obtain ⟨request, bound⟩ := Option.isSome_iff_exists.mp backed.request
  obtain ⟨fields, exclusive⟩ := Option.isSome_iff_exists.mp backed.fields
  refine ⟨request, ⟨fields, exchange.response.adapter⟩, bound, ?_⟩
  rw [ResponseView.native?, if_pos backed.adapter, exclusive]
  rfl

variable [Sink κ]

theorem ResponseOp.exclusive_perform (op : ResponseOp) (view : ResponseView κ) :
    (op.perform view).view.fields.exclusive?.isSome = view.fields.exclusive?.isSome := by
  have head (status : Status) :
      (view.writeHead status).view.fields.exclusive?.isSome = view.fields.exclusive?.isSome := by
    simp only [ResponseView.writeHead]
    split <;> rfl
  cases op with
  | fields op =>
      refine (op.keeps_perform view.settle.fields).2.trans ?_
      simp only [ResponseView.settle]
      split <;> rfl
  | writeHead status => exact head status
  | write content =>
      simp only [perform, ResponseView.write]
      split <;> split <;> first | rfl | exact head .ok
  | native op =>
      simp only [perform]
      split
      · rfl
      · exact (view.fields.keeps_replaceExclusive _).2
  | log level message =>
      simp only [perform]
      split <;> rfl
  | _ => rfl

theorem Exchange.Backed.of_leads {exchange later : Exchange κ} (backed : exchange.Backed)
    (request : later.request.bound = exchange.request.bound)
    (leads : SinkCall.Leads exchange.response.adapter later.response.adapter)
    (fields : later.response.fields.exclusive?.isSome = exchange.response.fields.exclusive?.isSome) : later.Backed := by
  obtain ⟨sink, bound⟩ := Option.isSome_iff_exists.mp backed.adapter
  obtain ⟨next, stillBound, _⟩ := ResponseAdapter.forwards_of_leads leads sink bound
  exact ⟨request ▸ backed.request, Option.isSome_iff_exists.mpr ⟨next, stillBound⟩, fields ▸ backed.fields⟩

theorem Op.backed_perform {τ : Type} (op : Op) {exchange : Exchange κ} (backed : exchange.Backed) (world : World τ) :
    (op.perform exchange world).2.1.Backed := by
  cases op with
  | request op => exact { backed with request := (op.bound_perform exchange.request) ▸ backed.request }
  | response op => exact backed.of_leads rfl (op.leads_perform _) (op.exclusive_perform _)
  | _ => exact backed

end

section

variable {σ τ : Type} [Sink σ]

theorem Program.backed_run (program : Program σ τ) (logger : Logger) {κ : Type} [Sink κ] {exchange : Exchange κ}
    (backed : exchange.Backed) (world : World τ) : (program.run logger exchange world).exchange.Backed := by
  induction program generalizing exchange world with
  | done result => exact backed
  | panic message => exact backed
  | «recall» next ih => exact ih world.memory backed world
  | remember memory next ih => exact ih backed _
  | call op next ih => exact ih _ (op.backed_perform backed world) _
  | attempt inner next innerBacked ih =>
      have first := innerBacked backed world
      simp only [run]
      split
      · exact first
      · exact ih _ first _
  | bridge middleware inner next _ ih =>
      simp only [run]
      split
      · rename_i asked writer bound given
        have restored (later : Writer (ResponseAdapter κ))
            (leads : SinkCall.Leads exchange.response.adapter later.sink) :
            ({ exchange with response := exchange.response.restore later } : Exchange κ).Backed :=
          backed.of_leads rfl leads (exchange.response.fields.keeps_replaceExclusive later.fields).2
        have leads := leads_behind_bridge given middleware inner logger asked world
        split
        · exact restored _ leads
        · exact ih _ (restored _ leads) _
      · exact ih _ backed world
  | reenter request writer inner next _ ih => exact ih _ backed _

def Call.Crosses {κ : Type} (call : Call κ (τ × Journal)) (crossing : Nat) (journal : Journal) : Prop :=
  match call.ending with
  | .finished result => Journal.Crosses crossing [.began crossing, .ended crossing result] journal call.world.memory.2
  | .panicked _ => Journal.Crosses crossing [.began crossing] journal call.world.memory.2

def NativeRun.Crosses {κ : Type} (run : NativeRun κ (τ × Journal)) (crossing : Nat) (captured : Option HandlerError)
    (results : List (Except HandlerError Unit)) (journal : Journal) : Prop :=
  match run.panic with
  | none => Journal.Crosses crossing (rounds crossing results) journal run.world.memory.2 ∧
      run.captured = results.foldl NativeProgram.capture captured
  | some _ => Journal.Crosses crossing (rounds crossing results) journal run.world.memory.2 ∨
      Journal.Crosses crossing (rounds crossing results ++ [.called crossing, .began crossing]) journal
        run.world.memory.2

omit [Sink σ] in
theorem NativeRun.Crosses.cons {κ : Type} {run : NativeRun κ (τ × Journal)} {crossing : Nat}
    {captured : Option HandlerError} {result : Except HandlerError Unit} {results : List (Except HandlerError Unit)}
    {journal middle : Journal}
    (call : Journal.Crosses crossing [.called crossing, .began crossing, .ended crossing result] journal middle)
    (rest : run.Crosses crossing (NativeProgram.capture captured result) results middle) :
    run.Crosses crossing captured (result :: results) journal := by
  rw [Crosses] at rest ⊢
  cases panicked : run.panic with
  | none =>
      rw [panicked] at rest
      exact ⟨call.trans rest.1, rest.2⟩
  | some message =>
      rw [panicked] at rest
      exact rest.imp call.trans call.trans

namespace NativeProgram

variable {κ : Type} [Sink κ] {crossing : Nat}

theorem crosses_run {inner : InnerCall (τ × Journal)}
    (behind : ∀ {ν : Type} [Sink ν] (request : Request) (writer : Writer ν) {world : World (τ × Journal)},
      crossing < world.memory.2.opened → (inner request writer world).Crosses crossing world.memory.2)
    (program : NativeProgram σ τ) (given : Request) (captured : Option HandlerError) (writer : Writer κ)
    {world : World (τ × Journal)} (before : crossing < world.memory.2.opened) :
    ∃ results, ((program.marking crossing).run inner given captured writer world).Crosses crossing captured results
      world.memory.2 := by
  have none {world : World (τ × Journal)} (before : crossing < world.memory.2.opened) :
      Crosses crossing [] world.memory.2 world.memory.2 := .of_passes before (.refl _)
  have asked {world : World (τ × Journal)} (before : crossing < world.memory.2.opened) :
      Crosses crossing [.called crossing] world.memory.2 (world.mark (.called crossing)).memory.2 :=
    .mark (.called crossing) before rfl
  induction program generalizing captured writer world with
  | done => exact ⟨[], none before, rfl⟩
  | panic message => exact ⟨[], .inl (none before)⟩
  | «recall» next ih => exact ih world.memory.1 captured writer before
  | remember memory next ih => exact ih captured writer before
  | ask next ih => exact ih given captured writer before
  | call op next ih => exact ih _ captured _ before
  | inner request next ih =>
      have called := asked before
      have answered := behind request writer called.after
      simp only [marking, run_mark, run, Call.Crosses] at answered ⊢
      cases ended : (inner request writer (world.mark (.called crossing))).ending with
      | panicked message =>
          rw [ended] at answered
          exact ⟨[], .inr (called.trans answered)⟩
      | finished result =>
          rw [ended] at answered
          obtain ⟨results, rest⟩ := ih (capture captured result) _ answered.after
          exact ⟨result :: results, rest.cons (called.trans answered)⟩
  | innerForeign request foreign next ih =>
      have called := asked before
      have answered := behind request foreign called.after
      simp only [marking, run_mark, run, Call.Crosses] at answered ⊢
      cases ended : (inner request foreign (world.mark (.called crossing))).ending with
      | panicked message =>
          rw [ended] at answered
          exact ⟨[], .inr (called.trans answered)⟩
      | finished result =>
          rw [ended] at answered
          obtain ⟨results, rest⟩ := ih _ (capture captured result) writer answered.after
          exact ⟨result :: results, rest.cons (called.trans answered)⟩

end NativeProgram

namespace Program

theorem crosses_within {handler : Program σ τ} {logger : Logger} {κ : Type} [Sink κ]
    (passes : ∀ {exchange : Exchange κ}, exchange.Backed → ∀ world,
      Passes world.memory.2 (handler.marking.run logger exchange world).world.memory.2)
    (inherited : Logger) {crossing : Nat} (request : Request) (writer : Writer κ) {world : World (τ × Journal)}
    (before : crossing < world.memory.2.opened) :
    (withViews inherited (fun exchange world => (within crossing handler.marking).run logger exchange world) request
      writer world).Crosses crossing world.memory.2 := by
  have began : Crosses crossing [.began crossing] world.memory.2 (world.mark (.began crossing)).memory.2 :=
    .mark (.began crossing) before rfl
  have passed := passes (Exchange.backed_bind .fresh request writer inherited) (world.mark (.began crossing))
  have ran := began.trans (.of_passes began.after passed)
  simp only [Call.Crosses, withViews, run_within]
  cases ended : (handler.marking.run logger (Pools.Lease.fresh.bind request writer inherited)
      (world.mark (.began crossing))).ending with
  | panicked message =>
      simp only [ended]
      exact ran
  | finished result =>
      exact ran.trans (.mark (.ended crossing result) ran.after rfl)

theorem crosses_bridge (middleware : NativeProgram σ τ) {handler : Program σ τ} {logger : Logger}
    (passes : ∀ {ν : Type} [Sink ν] {exchange : Exchange ν}, exchange.Backed → ∀ world,
      Passes world.memory.2 (handler.marking.run logger exchange world).world.memory.2)
    (inherited : Logger) (request : Request) {κ : Type} [Sink κ] (writer : Writer κ) (world : World (τ × Journal)) :
    let crossing := Journal.opened world.memory.2
    let begun := world.mark (.opened crossing)
    ∃ results, ((middleware.marking crossing).run (fun request writer world => withViews inherited
      (fun exchange world => (within crossing handler.marking).run logger exchange world) request writer world)
      request none writer begun).Crosses crossing none results begun.memory.2 := by
  intro crossing begun
  have before : crossing < Journal.opened begun.memory.2 := by
    rw [show begun.memory.2 = world.memory.2 ++ [.opened crossing] from rfl, Journal.opened_append]
    exact Nat.lt_succ_self _
  exact middleware.crosses_run (fun request writer _ before => crosses_within passes inherited request writer before)
    request none writer before

theorem passes_run (program : Program σ τ) (logger : Logger) {κ : Type} [Sink κ] {exchange : Exchange κ}
    (backed : exchange.Backed) (world : World (τ × Journal)) :
    Passes world.memory.2 (program.marking.run logger exchange world).world.memory.2 := by
  induction program generalizing κ exchange world with
  | done result => exact .refl _
  | panic message => exact .refl _
  | «recall» next ih => exact ih world.memory.1 backed world
  | remember memory next ih => exact ih backed _
  | call op next ih =>
      have same : (op.perform exchange world).2.2.memory = world.memory := by cases op <;> rfl
      have rest := ih (op.perform exchange world).1 (op.backed_perform backed world) (op.perform exchange world).2.2
      rwa [same] at rest
  | attempt inner next innerPasses ih =>
      have first := innerPasses backed world
      have still := inner.marking.backed_run logger backed world
      simp only [marking, run]
      split
      · exact first
      · exact first.trans (ih _ still _)
  | bridge middleware inner next innerPasses ih =>
      obtain ⟨request, writer, bound, given⟩ := backed.exists_native
      let crossing := Journal.opened world.memory.2
      let begun := world.mark (.opened crossing)
      have leads := leads_behind_bridge given (middleware.marking crossing) (within crossing inner.marking) logger
        request begun
      obtain ⟨results, crosses⟩ := crosses_bridge middleware (fun backed world => innerPasses backed world)
        (exchange.response.logger.getD .tracing) request writer world
      simp only [marking, run_mark, run, bound, given]
      generalize NativeProgram.run _ request (middleware.marking crossing) none writer begun = native at leads crosses ⊢
      have still : ({ exchange with response := exchange.response.restore native.writer } : Exchange κ).Backed :=
        backed.of_leads rfl leads (exchange.response.fields.keeps_replaceExclusive _).2
      rw [NativeRun.Crosses] at crosses
      cases panicked : native.panic with
      | some message =>
          rw [panicked] at crosses
          rcases crosses with left | cut
          · exact .of_crosses left (.left results message)
          · exact .of_crosses cut (.cut results message)
      | none =>
          rw [panicked] at crosses
          obtain ⟨crosses, captured⟩ := crosses
          have tells := captured ▸ tells_captured results
          exact (Passes.of_crosses (crosses.trans (.mark (.told crossing _) crosses.after rfl)) (.finished tells)).trans
            (ih _ still _)
  | reenter request writer inner next innerPasses ih =>
      obtain ⟨pools, back, known⟩ := exists_dispatch_eq logger request writer world
      have inside := innerPasses (Exchange.backed_bind .fresh request writer logger) { world with pools := pools }
      simp only [marking, run, known]
      exact inside.trans (ih _ backed _)

theorem course_wrapNative (middleware : NativeProgram σ τ) (handler : Program σ τ) (logger : Logger) {κ : Type} [Sink κ]
    {exchange : Exchange κ} (backed : exchange.Backed) {world : World (τ × Journal)}
    (numbered : ∀ mark ∈ world.memory.2, mark.crossing < world.memory.2.opened) :
    let run := (wrapNative middleware handler).marking.run logger exchange world
    Course world.memory.2.opened run.ending (run.world.memory.2.of world.memory.2.opened) := by
  obtain ⟨request, writer, bound, given⟩ := backed.exists_native
  obtain ⟨results, crosses⟩ := crosses_bridge middleware (fun backed world => handler.passes_run logger backed world)
    (exchange.response.logger.getD .tracing) request writer world
  simp only [wrapNative, marking, run_mark, run, bound, given]
  generalize NativeProgram.run _ request (middleware.marking _) none writer _ = native at crosses ⊢
  rw [NativeRun.Crosses] at crosses
  cases panicked : native.panic with
  | some message =>
      rw [panicked] at crosses
      rcases crosses with left | cut
      · exact (left.of_later numbered).symm ▸ .left results message
      · exact (cut.of_later numbered).symm ▸ .cut results message
  | none =>
      rw [panicked] at crosses
      obtain ⟨crosses, captured⟩ := crosses
      have tells := captured ▸ tells_captured results
      have told := crosses.trans (.mark (.told _ (resultOf native.captured)) crosses.after rfl)
      exact (told.of_later numbered).symm ▸ .finished tells

end Program

theorem Errand.passes_run (errand : Errand σ τ) (world : World (τ × Journal)) :
    Passes world.memory.2 (errand.marking.run world).memory.2 := by
  obtain ⟨pools, back, known⟩ := exists_dispatch_eq errand.logger errand.request errand.writer world
  rw [run, marking, known]
  exact errand.handler.passes_run errand.logger (Exchange.backed_bind .fresh errand.request errand.writer errand.logger)
    { world with pools := pools }

theorem World.passes_after (world : World (τ × Journal)) (errands : List (Errand σ τ)) :
    Passes world.memory.2 (world.after (errands.map Errand.marking)).memory.2 := by
  induction errands generalizing world with
  | nil => exact .refl _
  | cons errand rest ih => exact (errand.passes_run world).trans (ih (errand.marking.run world))

/-- A middleware behind a bridge fails as the last of its inner calls that failed, and succeeds where none has; the
handler runs once for each of them. That goes for every crossing, those of requests before and from inside included,
each by its own calls; and marking it changes nothing. A panic cuts a crossing short, and nothing is told. -/
theorem dispatch_wrapNative_tells {κ : Type} [Sink κ] (start : World τ) (history : List (Errand σ τ))
    (middleware : NativeProgram σ τ) (handler : Program σ τ) (logger : Logger) (request : Request)
    (writer : Writer κ) :
    let bridged := Program.wrapNative middleware handler
    let begun := World.after ⟨start.pools, start.log, (start.memory, [])⟩ (history.map Errand.marking)
    let call := dispatch logger (fun exchange world => bridged.marking.run logger exchange world) request writer begun
    let crossing := Journal.opened begun.memory.2
    let journal := call.world.memory.2
    call.over World.unmarked =
        dispatch logger (fun exchange world => bridged.run logger exchange world) request writer (start.after history) ∧
      Journal.Settled 0 journal ∧
      Course crossing call.ending (Journal.of journal crossing) := by
  intro bridged begun call crossing journal
  have earlier : Passes [] begun.memory.2 := World.passes_after ⟨start.pools, start.log, (start.memory, [])⟩ history
  have passed : Passes [] journal := earlier.trans (Errand.passes_run ⟨request, writer, bridged, logger⟩ begun)
  have same : call.over World.unmarked = dispatch logger (fun exchange world => bridged.run logger exchange world) request
      writer begun.unmarked :=
    dispatch_recast (fun exchange world => bridged.run_marking logger exchange world) logger request writer begun
  rw [World.unmarked_after] at same
  refine ⟨same, passed.settled, ?_⟩
  have numbered : ∀ mark ∈ begun.memory.2, mark.crossing < Journal.opened begun.memory.2 := fun mark member => by
    have bounds := earlier.settled.numbered mark member
    omega
  obtain ⟨pools, back, known⟩ := exists_dispatch_eq logger request writer begun
  simp only [call, journal, known]
  let leased : World (τ × Journal) := { begun with pools := pools }
  have unchanged : ∀ mark ∈ leased.memory.2, mark.crossing < Journal.opened leased.memory.2 := numbered
  exact Program.course_wrapNative middleware handler logger (Exchange.backed_bind .fresh request writer logger) unchanged

end

end HttpService
