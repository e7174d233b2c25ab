import HttpService.Proofs.Breakage
import HttpService.Proofs.Rounds

/-! Fewer bytes: a connection on which only the beginning of the bytes arrives does the beginning of what it would do
if they all arrived. -/

namespace HttpService

namespace HeadBuffer

theorem headOf_append {room stop : Nat} {pending : Bytes} (found : headOf room pending = .ok (some stop))
    (more : Bytes) : headOf room (pending ++ more) = .ok (some stop) ∧ stop ≤ pending.length := by
  simp only [headOf] at found
  split at found
  · rename_i ended
    obtain rfl := Option.some.inj (Except.ok.inj found)
    constructor
    · rw [headOf, List.take_append, headEnd?_append ended]
    · exact Nat.le_trans (headEnd?_le ended) (List.length_take_le' room pending)
  · split at found
    · simp at found
    · split at found <;> simp at found

theorem headOf_append_of_error {room : Nat} {pending : Bytes} {failure : ReadFailure}
    (failed : headOf room pending = .error failure) (more : Bytes) :
    headOf room (pending ++ more) = .error failure ∨ ∃ error, failure = .io error := by
  simp only [headOf] at failed
  split at failed
  · simp at failed
  · rename_i unended
    split at failed
    · rename_i full
      left
      have still : room ≤ (pending ++ more).length := by
        rw [List.length_append]
        omega
      rw [headOf, List.take_append_of_le_length full, unended]
      simp only [still, ↓reduceIte, ← failed]
    · right
      split at failed
      · simp at failed
      · exact ⟨_, (Except.error.inj failed).symm⟩

theorem bodyOf_append {pending : Bytes} {start length : Nat} {body : Bytes}
    (found : bodyOf pending start length = .ok body) (more : Bytes) :
    bodyOf (pending ++ more) start length = .ok body ∧ start + length ≤ pending.length := by
  simp only [bodyOf] at found ⊢
  split at found
  · simp at found
  · split at found
    · rename_i enough
      have still : start + length ≤ (pending ++ more).length := by
        rw [List.length_append]
        omega
      simp only [still, ↓reduceIte]
      rw [List.drop_append_of_le_length (by omega), List.take_append_of_le_length (by rw [List.length_drop]; omega)]
      exact ⟨found, enough⟩
    · simp at found

theorem bodyOf_append_of_error {pending : Bytes} {start length : Nat} {failure : ReadFailure}
    (failed : bodyOf pending start length = .error failure) (more : Bytes) :
    bodyOf (pending ++ more) start length = .error failure ∨ ∃ error, failure = .io error := by
  simp only [bodyOf] at failed ⊢
  split at failed
  · exact .inl failed
  · split at failed
    · simp at failed
    · exact .inr ⟨_, (Except.error.inj failed).symm⟩

end HeadBuffer

theorem Stop.isDry_ofFailure {failure : ReadFailure} (io : ∃ error, failure = .io error) :
    (Stop.ofFailure failure).IsDry := by
  obtain ⟨error, rfl⟩ := io
  trivial

theorem Terms.arrived_append [FieldHash] (terms : Terms) (pending more : Bytes) :
    (∃ stop, terms.arrived pending = .stopped stop ∧ (stop.IsDry ∨ terms.arrived (pending ++ more) = .stopped stop)) ∨
      ∃ request keepAlive rest, terms.arrived pending = .request request keepAlive rest ∧
        terms.arrived (pending ++ more) = .request request keepAlive (rest ++ more) := by
  simp only [arrived]
  cases found : HeadBuffer.headOf terms.request.headLength pending with
  | error failure =>
      left
      refine ⟨_, rfl, ?_⟩
      rcases HeadBuffer.headOf_append_of_error found more with same | io
      · right
        rw [same]
      · left
        exact Stop.isDry_ofFailure io
  | ok head =>
      cases head with
      | none => exact .inl ⟨_, rfl, .inl trivial⟩
      | some stop =>
          obtain ⟨still, inside⟩ := HeadBuffer.headOf_append found more
          simp only [still, Head.read_append inside]
          cases Head.read terms.request pending stop with
          | error failure => exact .inl ⟨_, rfl, .inr rfl⟩
          | ok head =>
              simp only [arrivedBody]
              cases bodyFound : HeadBuffer.bodyOf pending stop head.contentLength with
              | error failure =>
                  left
                  refine ⟨_, rfl, ?_⟩
                  rcases HeadBuffer.bodyOf_append_of_error bodyFound more with same | io
                  · right
                    rw [same]
                  · left
                    exact Stop.isDry_ofFailure io
              | ok body =>
                  obtain ⟨same, enough⟩ := HeadBuffer.bodyOf_append bodyFound more
                  right
                  refine ⟨_, _, _, rfl, ?_⟩
                  rw [same, List.drop_append_of_le_length enough]

namespace Conversation

variable {τ : Type}

theorem stopping_of_isDry {stop : Stop} (dry : stop.IsDry) (flushFailure : Option IoError) (version : Version)
    (memory : τ) : stopping flushFailure version memory stop = ⟨stop, [], memory⟩ := by
  cases stop with
  | refused refusal => exact dry.elim
  | _ => rfl

/-- The one conversation is the beginning of the other: less is written, and the handler is called less often. -/
structure Begins (short long : Conversation (τ × List Request)) : Prop where
  output : short.output <+: long.output
  calls : short.memory.2 <+: long.memory.2

theorem Begins.refl (conversation : Conversation (τ × List Request)) : conversation.Begins conversation :=
  ⟨List.prefix_refl _, List.prefix_refl _⟩

theorem Begins.after {short long : Conversation (τ × List Request)} (begins : short.Begins long) (content : Bytes) :
    (short.after content).Begins (long.after content) :=
  ⟨(List.prefix_append_right_inj content).mpr begins.output, begins.calls⟩

end Conversation

namespace Terms

variable {τ : Type} {terms : Terms}

theorem noted_converse [FieldHash] (serve : Serve ResponseBuffer τ) (flushFailure : Nat → Option IoError)
    (remaining served : Nat) (version : Version) (buffer : ResponseBuffer) (memory : τ × List Request)
    (pending : Bytes) :
    memory.2 <+:
      (terms.converse serve.noting flushFailure remaining served version buffer memory pending).memory.2 := by
  induction remaining generalizing flushFailure served version buffer memory pending with
  | zero => exact List.prefix_refl _
  | succ remaining ih =>
      simp only [converse]
      split
      · exact List.prefix_refl _
      · split
        · rename_i stop _
          cases stop <;> exact List.prefix_refl _
        · rename_i request keepAlive rest _
          have noted : memory.2 <+: memory.2 ++ [request] := List.prefix_append _ _
          split
          · exact noted
          · split
            · refine List.IsPrefix.trans noted ?_
              exact ih _ (served + 1) request.version _ (serve.noting request _ memory).memory rest
            · exact noted

theorem begins_converse [FieldHash] (serve : Serve ResponseBuffer τ) (flushFailure : Nat → Option IoError)
    (remaining served : Nat) (version : Version) (buffer : ResponseBuffer) (memory : τ × List Request)
    (pending more : Bytes) :
    (terms.converse serve.noting flushFailure remaining served version buffer memory pending).Begins
      (terms.converse serve.noting flushFailure remaining served version buffer memory (pending ++ more)) := by
  induction remaining generalizing flushFailure served version buffer memory pending with
  | zero => exact Conversation.Begins.refl _
  | succ remaining ih =>
      have grown :=
        terms.noted_converse serve flushFailure (remaining + 1) served version buffer memory (pending ++ more)
      simp only [converse] at grown ⊢
      split
      · exact Conversation.Begins.refl _
      · rename_i young
        simp only [young, Bool.false_eq_true, ↓reduceIte] at grown
        rcases terms.arrived_append pending more with
          ⟨stop, stopped, dry | same⟩ | ⟨request, keepAlive, rest, arrived, same⟩
        · simp only [stopped, Conversation.stopping_of_isDry dry]
          exact ⟨List.nil_prefix, grown⟩
        · simp only [stopped, same]
          exact Conversation.Begins.refl _
        · simp only [arrived, same]
          split
          · exact Conversation.Begins.refl _
          · split
            · exact (ih ..).after _
            · exact Conversation.Begins.refl _

end Terms

namespace Connection

variable {τ : Type} {terms : Terms} {serve : Serve ResponseBuffer τ}

theorem frame_readRequest [FieldHash] {connection : Connection τ} {next : Next τ}
    (read : connection.readRequest terms = next) :
    next.connection.outlet = connection.outlet ∧ next.connection.memory = connection.memory := by
  obtain ⟨buffer, source, version, same⟩ := connection_readRequest terms connection
  rw [← read, same]
  exact ⟨rfl, rfl⟩

structure RunDry (first second : Stop × Connection τ) : Prop where
  dry : first.1.IsDry
  dryToo : second.1.IsDry
  outlet : second.2.outlet = first.2.outlet
  memory : second.2.memory = first.2.memory

variable (terms serve)

theorem serveAll_untilBreak [FieldHash] (remaining served : Nat) (connection : Connection τ) :
    connection.untilBreak.serveAll terms serve remaining served =
        (connection.serveAll terms serve remaining served).map id untilBreak ∨
      RunDry (connection.serveAll terms serve remaining served)
        (connection.untilBreak.serveAll terms serve remaining served) := by
  induction remaining generalizing served connection with
  | zero => exact .inl rfl
  | succ remaining ih =>
      simp only [serveAll]
      split
      · exact .inl rfl
      · rcases connection.readRequest_untilBreak terms with same | ⟨dry, dryEarly⟩
        · rw [same]
          cases connection.readRequest terms with
          | stopped stop after => exact .inl rfl
          | request request keepAlive ready =>
              dsimp only [Next.untilBreak]
              rw [answer_untilBreak]
              generalize ready.answer terms serve request _ = answered
              obtain ⟨outcome, next⟩ := answered
              cases outcome with
              | error stop => exact .inl rfl
              | ok kept =>
                  cases kept with
                  | false => exact .inl rfl
                  | true => exact ih (served + 1) next
        · right
          cases read : connection.readRequest terms with
          | request request keepAlive ready =>
              rw [read] at dry
              exact dry.elim
          | stopped stop after =>
              cases readEarly : connection.untilBreak.readRequest terms with
              | request request keepAlive ready =>
                  rw [readEarly] at dryEarly
                  exact dryEarly.elim
              | stopped stopEarly afterEarly =>
                  rw [read] at dry
                  rw [readEarly] at dryEarly
                  obtain ⟨outlet, memory⟩ := frame_readRequest read
                  obtain ⟨outletEarly, memoryEarly⟩ := frame_readRequest readEarly
                  exact ⟨dry, dryEarly, outletEarly.trans outlet.symm, memoryEarly.trans memory.symm⟩

theorem conclude_of_isDry {ended : Stop × Connection τ} (dry : ended.1.IsDry) : conclude ended = ended := by
  apply conclude_of_not_refused
  intro refusal refused
  rw [refused] at dry
  exact dry

theorem run_untilBreak [FieldHash] (connection : Connection τ) :
    (connection.untilBreak.run terms serve).2.outlet = (connection.run terms serve).2.outlet ∧
      (connection.untilBreak.run terms serve).2.memory = (connection.run terms serve).2.memory := by
  change (conclude (connection.untilBreak.serveAll terms serve _ 0)).2.outlet =
      (conclude (connection.serveAll terms serve _ 0)).2.outlet ∧
    (conclude (connection.untilBreak.serveAll terms serve _ 0)).2.memory =
      (conclude (connection.serveAll terms serve _ 0)).2.memory
  rcases serveAll_untilBreak terms serve terms.connection.maxRequests 0 connection with same | dry
  · rw [same]
    generalize connection.serveAll terms serve _ 0 = ended
    obtain ⟨stop, after⟩ := ended
    cases stop with
    | refused refusal =>
        simp only [Prod.map, id, conclude, sendRefusal, untilBreak]
        split
        · exact ⟨rfl, rfl⟩
        · split
          · exact ⟨rfl, rfl⟩
          · exact ⟨rfl, rfl⟩
    | closed => exact ⟨rfl, rfl⟩
    | failed error => exact ⟨rfl, rfl⟩
    | panicked message => exact ⟨rfl, rfl⟩
  · rw [conclude_of_isDry dry.dry, conclude_of_isDry dry.dryToo]
    exact ⟨dry.outlet, dry.memory⟩

theorem serveAll_of_young [FieldHash] (terms : Terms) {firstAge secondAge : Occasion → Nat}
    (firstYoung : ∀ occasion, firstAge occasion ≤ terms.connection.lifetime)
    (secondYoung : ∀ occasion, secondAge occasion ≤ terms.connection.lifetime) (serve : Serve ResponseBuffer τ)
    (remaining served : Nat) (connection : Connection τ) :
    connection.serveAll { terms with age := firstAge } serve remaining served =
      connection.serveAll { terms with age := secondAge } serve remaining served := by
  have firstFresh (occasion : Occasion) : ({ terms with age := firstAge } : Terms).isTooOld occasion = false :=
    decide_eq_false (Nat.not_lt.mpr (firstYoung occasion))
  have secondFresh (occasion : Occasion) : ({ terms with age := secondAge } : Terms).isTooOld occasion = false :=
    decide_eq_false (Nat.not_lt.mpr (secondYoung occasion))
  have sameRead (connection : Connection τ) : connection.readRequest { terms with age := firstAge } =
    connection.readRequest { terms with age := secondAge } := rfl
  have sameAnswer (connection : Connection τ) (request : Request) (keepAlive : Bool) :
    connection.answer { terms with age := firstAge } serve request keepAlive =
      connection.answer { terms with age := secondAge } serve request keepAlive := rfl
  induction remaining generalizing served connection with
  | zero => rfl
  | succ remaining ih =>
      rw [serveAll, serveAll, sameRead]
      simp only [firstFresh, secondFresh, sameAnswer, ih]

theorem tells_untilBreak [FieldHash] (terms : Terms) (serve : Serve ResponseBuffer τ) (source : Source)
    {outlet : Outlet} (flows : outlet.Flows) (memory : τ) :
    let conversation := terms.converse serve outlet.flushFailure terms.connection.maxRequests 0 .http11
      (.new terms.response) memory source.untilBreak.bytes
    let outcome := (new terms source outlet memory).run terms serve
    outcome.2.outlet.taken = outlet.taken ++ conversation.output ∧ outcome.2.memory = conversation.memory := by
  intro conversation outcome
  obtain ⟨sameOutlet, sameMemory⟩ := run_untilBreak terms serve (new terms source outlet memory)
  have awaits := awaits_new terms source.steady_untilBreak outlet memory
  have told : Tells ((new terms source outlet memory).untilBreak.run terms serve) outlet.taken conversation :=
    awaits.tells serve terms.connection.maxRequests flows
  constructor
  · rw [← told.taken, sameOutlet]
  · rw [← told.memory, sameMemory]

/-- Where only the beginning of the bytes arrives, however the stream ends or fails behind them, the handler is called
with the beginning of the requests, and the beginning of the output is written. -/
theorem run_begins [FieldHash] (terms : Terms) (serve : Serve ResponseBuffer τ) (memory : τ) {cut whole : Source}
    (begins : cut.untilBreak.bytes <+: whole.untilBreak.bytes) {cutOutlet wholeOutlet : Outlet}
    (cutFlows : cutOutlet.Flows) (wholeFlows : wholeOutlet.Flows)
    (sameFlush : cutOutlet.flushFailure = wholeOutlet.flushFailure) {cutAge wholeAge : Occasion → Nat}
    (cutYoung : ∀ occasion, cutAge occasion ≤ terms.connection.lifetime)
    (wholeYoung : ∀ occasion, wholeAge occasion ≤ terms.connection.lifetime) :
    let cutTerms := { terms with age := cutAge }
    let wholeTerms := { terms with age := wholeAge }
    let cutEnd := (new cutTerms cut cutOutlet (memory, [])).run cutTerms serve.noting
    let wholeEnd := (new wholeTerms whole wholeOutlet (memory, [])).run wholeTerms serve.noting
    cutEnd.2.memory.2 <+: wholeEnd.2.memory.2 ∧
      ∃ less output, less <+: output ∧ cutEnd.2.outlet.taken = cutOutlet.taken ++ less ∧
        wholeEnd.2.outlet.taken = wholeOutlet.taken ++ output := by
  intro cutTerms wholeTerms cutEnd wholeEnd
  obtain ⟨more, arrives⟩ := begins
  have goesOn := cutTerms.begins_converse serve wholeOutlet.flushFailure terms.connection.maxRequests 0 .http11
    (.new terms.response) (memory, []) cut.untilBreak.bytes more
  rw [arrives] at goesOn
  obtain ⟨cutTaken, cutMemory⟩ := tells_untilBreak cutTerms serve.noting cut cutFlows (memory, [])
  obtain ⟨wholeTaken, wholeMemory⟩ := tells_untilBreak wholeTerms serve.noting whole wholeFlows (memory, [])
  rw [sameFlush] at cutTaken cutMemory
  rw [terms.converse_of_young wholeYoung cutYoung] at wholeTaken wholeMemory
  refine ⟨?_, _, _, goesOn.output, cutTaken, wholeTaken⟩
  rw [cutMemory, wholeMemory]
  exact goesOn.calls

end Connection

end HttpService
