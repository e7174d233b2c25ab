import HttpService.Proofs.Isolation

/-! Handlers that mark what happens at their bridges. Every crossing of a bridge has a number of its own, also where one
is crossed while another still is, or the same one again. The marks change nothing else. -/

namespace HttpService

/-- What happens while a bridge is crossed: the middleware behind it calls its inner handler, the handler behind that
call begins and ends, and what comes out of the bridge is told to the code in front of it. -/
inductive BridgeMark
  | opened (crossing : Nat)
  | called (crossing : Nat)
  | began (crossing : Nat)
  | ended (crossing : Nat) (result : Except HandlerError Unit)
  | told (crossing : Nat) (result : Except HandlerError Unit)

namespace BridgeMark

def crossing : BridgeMark → Nat
  | opened crossing => crossing
  | called crossing => crossing
  | began crossing => crossing
  | ended crossing _ => crossing
  | told crossing _ => crossing

def isOpened : BridgeMark → Bool
  | opened _ => true
  | _ => false

end BridgeMark

abbrev Journal := List BridgeMark

def Journal.opened (journal : Journal) : Nat := journal.countP BridgeMark.isOpened

def World.mark {τ : Type} (world : World (τ × Journal)) (mark : BridgeMark) : World (τ × Journal) :=
  { world with memory := (world.memory.1, world.memory.2 ++ [mark]) }

def World.unmarked {τ : Type} (world : World (τ × Journal)) : World τ := world.recast Prod.fst

theorem World.unmarked_mark {τ : Type} (world : World (τ × Journal)) (mark : BridgeMark) :
    (world.mark mark).unmarked = world.unmarked := rfl

namespace NativeProgram

variable {σ τ κ : Type}

def mark (mark : BridgeMark) (program : NativeProgram σ (τ × Journal)) : NativeProgram σ (τ × Journal) :=
  .recall fun known => .remember (known.1, known.2 ++ [mark]) program

def marking (crossing : Nat) : NativeProgram σ τ → NativeProgram σ (τ × Journal)
  | .done => .done
  | .panic message => .panic message
  | .recall next => .recall fun known => (next known.1).marking crossing
  | .remember memory next => .recall fun known => .remember (memory, known.2) (next.marking crossing)
  | .ask next => .ask fun request => (next request).marking crossing
  | .call op next => .call op fun answer => (next answer).marking crossing
  | .inner request next => mark (.called crossing) (.inner request (next.marking crossing))
  | .innerForeign request writer next =>
    mark (.called crossing) (.innerForeign request writer fun writer => (next writer).marking crossing)

variable [Sink σ] [Sink κ]

theorem run_mark (inner : InnerCall (τ × Journal)) (mark : BridgeMark) (program : NativeProgram σ (τ × Journal))
    (given : Request) (captured : Option HandlerError) (writer : Writer κ) (world : World (τ × Journal)) :
    (program.mark mark).run inner given captured writer world =
      program.run inner given captured writer (world.mark mark) := rfl

theorem run_marking {inner : InnerCall (τ × Journal)} {plain : InnerCall τ}
    (same : ∀ {ν : Type} [Sink ν] (request : Request) (writer : Writer ν) (world : World (τ × Journal)),
      (inner request writer world).over World.unmarked = plain request writer world.unmarked)
    (crossing : Nat) (program : NativeProgram σ τ) (given : Request) (captured : Option HandlerError)
    (writer : Writer κ) (world : World (τ × Journal)) :
    ((program.marking crossing).run inner given captured writer world).over World.unmarked =
      program.run plain given captured writer world.unmarked := by
  induction program generalizing captured writer world with
  | done => rfl
  | panic message => rfl
  | «recall» next ih => exact ih world.memory.1 captured writer world
  | remember memory next ih => exact ih captured writer _
  | ask next ih => exact ih given captured writer world
  | call op next ih => exact ih _ captured _ world
  | inner request next ih =>
      have told := same request writer (world.mark (.called crossing))
      rw [World.unmarked_mark] at told
      simp only [marking, run_mark, run, ← told, Call.over]
      cases (inner request writer (world.mark (.called crossing))).ending with
      | panicked message => rfl
      | finished result => exact ih _ _ _
  | innerForeign request foreign next ih =>
      have told := same request foreign (world.mark (.called crossing))
      rw [World.unmarked_mark] at told
      simp only [marking, run_mark, run, ← told, Call.over]
      cases (inner request foreign (world.mark (.called crossing))).ending with
      | panicked message => rfl
      | finished result => exact ih _ _ writer _

end NativeProgram

namespace Program

variable {σ τ : Type}

def mark (mark : BridgeMark) (program : Program σ (τ × Journal)) : Program σ (τ × Journal) :=
  .recall fun known => .remember (known.1, known.2 ++ [mark]) program

/-- The handler behind a bridge, each time that it runs. -/
def within (crossing : Nat) (handler : Program σ (τ × Journal)) : Program σ (τ × Journal) :=
  mark (.began crossing) (.attempt handler fun result => mark (.ended crossing result) (.done result))

def marking : Program σ τ → Program σ (τ × Journal)
  | .done result => .done result
  | .panic message => .panic message
  | .recall next => .recall fun known => (next known.1).marking
  | .remember memory next => .recall fun known => .remember (memory, known.2) next.marking
  | .call op next => .call op fun answer => (next answer).marking
  | .attempt inner next => .attempt inner.marking fun result => (next result).marking
  | .bridge middleware inner next =>
    .recall fun known =>
      mark (.opened (Journal.opened known.2))
        (.bridge (middleware.marking (Journal.opened known.2)) (within (Journal.opened known.2) inner.marking)
          fun result => mark (.told (Journal.opened known.2) result) (next result).marking)
  | .reenter request writer inner next =>
    .reenter request writer inner.marking fun reentry => (next reentry).marking

variable [Sink σ]

theorem run_mark (mark : BridgeMark) (program : Program σ (τ × Journal)) (logger : Logger) {κ : Type} [Sink κ]
    (exchange : Exchange κ) (world : World (τ × Journal)) :
    (program.mark mark).run logger exchange world = program.run logger exchange (world.mark mark) := rfl

theorem run_within (crossing : Nat) (handler : Program σ (τ × Journal)) (logger : Logger) {κ : Type} [Sink κ]
    (exchange : Exchange κ) (world : World (τ × Journal)) :
    (within crossing handler).run logger exchange world =
      let run := handler.run logger exchange (world.mark (.began crossing))
      match run.ending with
      | .panicked _ => run
      | .finished result => { run with world := run.world.mark (.ended crossing result) } := by
  simp only [within, run_mark, run]
  generalize run logger handler exchange _ = ran
  obtain ⟨ending, after, later⟩ := ran
  cases ending <;> rfl

theorem run_within_over {marked : Program σ (τ × Journal)} {plain : Program σ τ} {logger : Logger} {κ : Type} [Sink κ]
    (same : ∀ (exchange : Exchange κ) (world : World (τ × Journal)),
      (marked.run logger exchange world).over World.unmarked = plain.run logger exchange world.unmarked)
    (crossing : Nat) (exchange : Exchange κ) (world : World (τ × Journal)) :
    ((within crossing marked).run logger exchange world).over World.unmarked =
      plain.run logger exchange world.unmarked := by
  rw [run_within, ← world.unmarked_mark (.began crossing), ← same]
  generalize run logger marked exchange _ = ran
  obtain ⟨ending, after, later⟩ := ran
  cases ending <;> rfl

theorem run_marking (program : Program σ τ) (logger : Logger) {κ : Type} [Sink κ] (exchange : Exchange κ)
    (world : World (τ × Journal)) :
    (program.marking.run logger exchange world).over World.unmarked =
      program.run logger exchange world.unmarked := by
  induction program generalizing κ exchange world with
  | done result => rfl
  | panic message => rfl
  | «recall» next ih => exact ih world.memory.1 exchange world
  | remember memory next ih => exact ih exchange _
  | call op next ih => cases op <;> exact ih _ _ _
  | attempt inner next innerSame ih =>
      have told := innerSame exchange world
      simp only [marking, run, ← told, Run.over]
      cases (inner.marking.run logger exchange world).ending with
      | panicked message => rfl
      | finished result => exact ih _ _ _
  | bridge middleware inner next innerSame ih =>
      simp only [marking, run, run_mark]
      generalize Journal.opened world.memory.2 = crossing
      cases exchange.request.bound with
      | none => exact ih _ exchange (World.mark (world.mark _) _)
      | some request =>
          cases exchange.response.native? with
          | none => exact ih _ exchange (World.mark (world.mark _) _)
          | some writer =>
              have told : ((middleware.marking crossing).run (fun request writer world =>
                    withViews (exchange.response.logger.getD .tracing)
                      (fun exchange world => (within crossing inner.marking).run logger exchange world) request writer
                      world) request none writer (world.mark (.opened crossing))).over World.unmarked =
                  middleware.run (fun request writer world => withViews (exchange.response.logger.getD .tracing)
                    (fun exchange world => inner.run logger exchange world) request writer world)
                    request none writer world.unmarked :=
                middleware.run_marking (fun request writer world =>
                  withViews_over (run_within_over (fun exchange world => innerSame exchange world) crossing) _ request
                    writer world) ..
              simp only [← told]
              generalize NativeProgram.run _ request (middleware.marking crossing) none writer _ = native
              obtain ⟨panic, captured, writer, later⟩ := native
              cases panic with
              | none => exact ih _ _ (later.mark _)
              | some message => rfl
  | reenter request writer inner next innerSame ih =>
      have told : (dispatch logger (fun exchange world => inner.marking.run logger exchange world) request writer
            world).over World.unmarked =
          dispatch logger (fun exchange world => inner.run logger exchange world) request writer world.unmarked :=
        dispatch_recast (fun exchange world => innerSame exchange world) logger request writer world
      simp only [marking, run, ← told, Call.over]
      exact ih _ exchange _

end Program

def Errand.marking {σ τ : Type} (errand : Errand σ τ) : Errand σ (τ × Journal) :=
  ⟨errand.request, errand.writer, errand.handler.marking, errand.logger⟩

theorem World.unmarked_after {σ τ : Type} [Sink σ] (world : World (τ × Journal)) (errands : List (Errand σ τ)) :
    (world.after (errands.map Errand.marking)).unmarked = world.unmarked.after errands := by
  induction errands generalizing world with
  | nil => rfl
  | cons errand rest ih =>
      have run : (errand.marking.run world).unmarked = errand.run world.unmarked :=
        congrArg Call.world (dispatch_recast
          (fun exchange world => errand.handler.run_marking errand.logger exchange world) errand.logger errand.request
          errand.writer world)
      exact (ih (errand.marking.run world)).trans (congrArg (World.after · rest) run)

end HttpService
