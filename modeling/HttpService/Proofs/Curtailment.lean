import HttpService.Proofs.Shortfall

/-! Connections that are cut off. Where the stream breaks on the reading side, the handler is called with fewer
requests and less is written; where it breaks on the writing side, the output is cut and nothing follows. -/

namespace HttpService

namespace Outlet

structure Grows (before after : Outlet) : Prop where
  policy : after.policy = before.policy
  taken : before.taken <+: after.taken

theorem Grows.refl (outlet : Outlet) : outlet.Grows outlet := ⟨rfl, List.prefix_refl _⟩

theorem Grows.trans {first second third : Outlet} (earlier : first.Grows second) (later : second.Grows third) :
    first.Grows third :=
  ⟨later.policy.trans earlier.policy, earlier.taken.trans later.taken⟩

theorem Grows.flows {before after : Outlet} (grown : before.Grows after) (flows : before.Flows) : after.Flows := by
  intro taken
  rw [grown.policy]
  exact flows taken

theorem grows_writeAll (outlet : Outlet) (content : Bytes) : outlet.Grows (outlet.writeAll content).2 :=
  ⟨rfl, List.prefix_append _ _⟩

theorem grows_flush (outlet : Outlet) : outlet.Grows outlet.flush.2 := ⟨rfl, List.prefix_refl _⟩

end Outlet

theorem ResponseBuffer.grows_finish (buffer : ResponseBuffer) (outlet : Outlet) (keepAlive : Bool) :
    outlet.Grows (buffer.finish outlet keepAlive).outlet := by
  have head := outlet.grows_writeAll (buffer.closeHead keepAlive).2.head
  simp only [finish]
  split
  · rename_i error afterHead failed
    rw [failed] at head
    exact head
  · rename_i afterHead written
    rw [written] at head
    have body : afterHead.Grows (if (buffer.closeHead keepAlive).2.headOnly then (Except.ok (), afterHead)
        else afterHead.writeAll (buffer.closeHead keepAlive).2.body).2 := by
      split
      · exact Outlet.Grows.refl afterHead
      · exact afterHead.grows_writeAll _
    split
    · rename_i error afterBody failed
      rw [failed] at body
      exact head.trans body
    · rename_i afterBody written
      rw [written] at body
      have flushed := (head.trans body).trans afterBody.grows_flush
      split
      · rename_i error afterFlush failed
        rw [failed] at flushed
        exact flushed
      · rename_i afterFlush done
        rw [done] at flushed
        exact flushed

namespace Outlet

structure Reaches (outlet after : Outlet) (content : Bytes) (room : Nat) (error : IoError) : Prop where
  taken : after.taken = outlet.taken ++ content
  breaks : after.Breaks (room - content.length) error

theorem Breaks.reaches_refl {outlet : Outlet} {room : Nat} {error : IoError} (breaks : outlet.Breaks room error) :
    outlet.Reaches outlet [] room error :=
  ⟨(List.append_nil _).symm, breaks⟩

theorem Reaches.trans {first second third : Outlet} {content more : Bytes} {room : Nat} {error : IoError}
    (earlier : first.Reaches second content room error)
    (later : second.Reaches third more (room - content.length) error) :
    first.Reaches third (content ++ more) room error := by
  refine ⟨?_, ?_⟩
  · rw [later.taken, earlier.taken, List.append_assoc]
  · rw [List.length_append, ← Nat.sub_sub]
    exact later.breaks

end Outlet

theorem ResponseBuffer.finish_breaks {outlet broken : Outlet} (flows : outlet.Flows) {room : Nat} {error : IoError}
    (breaks : broken.Breaks room error) (sameFlush : broken.flushFailure = outlet.flushFailure)
    (buffer : ResponseBuffer) (keepAlive : Bool) :
    ∃ content, (buffer.finish outlet keepAlive).outlet.taken = outlet.taken ++ content ∧
      (content.length ≤ room → ∃ after, broken.Reaches after content room error ∧
        after.flushFailure = (buffer.finish outlet keepAlive).outlet.flushFailure ∧
        buffer.finish broken keepAlive =
          ⟨(buffer.finish outlet keepAlive).kept, (buffer.finish outlet keepAlive).buffer, after⟩) ∧
      (room < content.length → (buffer.finish broken keepAlive).kept = .error error ∧
        (buffer.finish broken keepAlive).outlet.taken = broken.taken ++ content.take room) := by
  refine ⟨(buffer.closeHead keepAlive).2.content, ?_, ?_, ?_⟩
  · rw [finish_of_flows flows]
    rfl
  · intro fits
    have extended := breaks.extend fits
    have flushed : broken.flush.1 = outlet.flush.1 := by simp only [Outlet.flush, sameFlush]
    rw [finish_of_flows flows, finish_of_le breaks buffer keepAlive fits, flushed]
    refine ⟨(broken.extend (buffer.closeHead keepAlive).2.content).flush.2,
      ⟨rfl, extended.takes, extended.fails, extended.lasting⟩, ?_, rfl⟩
    exact congrArg (fun flushFailure : Nat → Option IoError => fun count => flushFailure (count + 1)) sameFlush
  · intro exceeds
    rw [finish_of_lt breaks buffer keepAlive exceeds]
    exact ⟨rfl, rfl⟩

structure Handled where
  request : Request
  response : Bytes

namespace Handled

/-- The calls that are left where only so many bytes can be written: the first response that does not fit is cut, and
no call comes after it. -/
def within : Nat → List Handled → List Handled
  | _, [] => []
  | room, call :: later =>
    if call.response.length ≤ room then call :: within (room - call.response.length) later
    else [{ call with response := call.response.take room }]

theorem flatMap_within (room : Nat) (calls : List Handled) :
    (within room calls).flatMap response = (calls.flatMap response).take room := by
  induction calls generalizing room with
  | nil => simp [within]
  | cons call later ih =>
      by_cases fits : call.response.length ≤ room
      · simp only [within, fits, ↓reduceIte, List.flatMap_cons, ih, List.take_append, List.take_of_length_le fits]
      · simp only [within, fits, ↓reduceIte, List.flatMap_cons, List.flatMap_nil, List.append_nil]
        rw [List.take_append_of_le_length (by omega)]

end Handled

namespace Connection

variable {τ : Type} {terms : Terms} {serve : Serve ResponseBuffer τ}

def responded (terms : Terms) (serve : Serve ResponseBuffer τ) (connection : Connection τ) (request : Request)
    (keepAlive : Bool) : Bytes :=
  (connection.answer terms serve request keepAlive).2.outlet.taken.drop connection.outlet.taken.length

/-- The calls of the handler while a connection is served. -/
def handled [FieldHash] (terms : Terms) (serve : Serve ResponseBuffer τ) : Nat → Nat → Connection τ → List Handled
  | 0, _, _ => []
  | remaining + 1, served, connection =>
    if terms.isTooOld (.beforeRequest served) then []
    else
      match connection.readRequest terms with
      | .stopped _ _ => []
      | .request request keepAlive ready =>
        let keepAlive :=
          keepAlive && decide (remaining ≠ 0) && !terms.isTooOld (.beforeResponse (served + 1))
        ⟨request, ready.responded terms serve request keepAlive⟩ ::
          match ready.answer terms serve request keepAlive with
          | (.ok true, next) => handled terms serve remaining (served + 1) next
          | _ => []

section

variable (terms serve)

theorem grows_answer (connection : Connection τ) (request : Request) (keepAlive : Bool) :
    connection.outlet.Grows (connection.answer terms serve request keepAlive).2.outlet := by
  simp only [answer]
  split
  · exact Outlet.Grows.refl _
  · have grown := ResponseBuffer.grows_finish
      (serve request (connection.response.freshWriter request terms.response) connection.memory).writer.sink
      connection.outlet keepAlive
    split
    · exact grown
    · exact grown

theorem taken_answer (connection : Connection τ) (request : Request) (keepAlive : Bool) :
    (connection.answer terms serve request keepAlive).2.outlet.taken =
      connection.outlet.taken ++ connection.responded terms serve request keepAlive :=
  (List.prefix_iff_eq_append.mp (connection.grows_answer terms serve request keepAlive).taken).symm

theorem memory_answer (connection : Connection τ) (request : Request) (keepAlive : Bool) :
    (connection.answer terms serve request keepAlive).2.memory =
      (serve request (connection.response.freshWriter request terms.response) connection.memory).memory := by
  simp only [answer]
  split
  · rfl
  · split
    · rfl
    · rfl

end

inductive Course [FieldHash] (terms : Terms) (serve : Serve ResponseBuffer τ) :
    Connection τ → List Handled → Stop × Connection τ → Prop
  | closed (connection : Connection τ) : Course terms serve connection [] (.closed, connection)
  | unread {connection after : Connection τ} {stop : Stop} (read : connection.readRequest terms = .stopped stop after) :
      Course terms serve connection [] (stop, after)
  | last {connection ready next : Connection τ} {request : Request} {keepAlive offered : Bool}
      {outcome : Except Stop Bool} {stop : Stop}
      (read : connection.readRequest terms = .request request keepAlive ready)
      (answered : ready.answer terms serve request offered = (outcome, next))
      (ends : outcome = .error stop ∨ outcome = .ok false ∧ stop = .closed) :
      Course terms serve connection [⟨request, ready.responded terms serve request offered⟩] (stop, next)
  | round {connection ready next : Connection τ} {request : Request} {keepAlive offered : Bool}
      {handled : List Handled} {ended : Stop × Connection τ}
      (read : connection.readRequest terms = .request request keepAlive ready)
      (answered : ready.answer terms serve request offered = (.ok true, next))
      (later : Course terms serve next handled ended) :
      Course terms serve connection (⟨request, ready.responded terms serve request offered⟩ :: handled) ended

theorem course_serveAll [FieldHash] (terms : Terms) (serve : Serve ResponseBuffer τ) (remaining served : Nat)
    (connection : Connection τ) :
    Course terms serve connection (connection.handled terms serve remaining served)
      (connection.serveAll terms serve remaining served) := by
  induction remaining generalizing served connection with
  | zero => exact .closed connection
  | succ remaining ih =>
      simp only [serveAll, handled]
      split
      · exact .closed connection
      · cases read : connection.readRequest terms with
        | stopped stop after => exact .unread read
        | request request keepAlive ready =>
            dsimp only
            generalize (keepAlive && decide (remaining ≠ 0) &&
              !terms.isTooOld (.beforeResponse (served + 1))) = offered
            obtain ⟨outcome, next, answered⟩ : ∃ outcome next,
              ready.answer terms serve request offered = (outcome, next) := ⟨_, _, rfl⟩
            rw [answered]
            cases outcome with
            | error stop => exact .last read answered (.inl rfl)
            | ok kept =>
                cases kept with
                | false => exact .last read answered (.inr ⟨rfl, rfl⟩)
                | true => exact .round read answered (ih (served + 1) next)

theorem taken_of_answered [FieldHash] {connection ready next : Connection τ} {request : Request}
    {keepAlive offered : Bool}
    {outcome : Except Stop Bool} (read : connection.readRequest terms = .request request keepAlive ready)
    (answered : ready.answer terms serve request offered = (outcome, next)) :
    connection.outlet.Grows next.outlet ∧
      next.outlet.taken = connection.outlet.taken ++ ready.responded terms serve request offered := by
  have outlet : ready.outlet = connection.outlet := (frame_readRequest read).1
  have grown := ready.grows_answer terms serve request offered
  have taken := ready.taken_answer terms serve request offered
  rw [answered, outlet] at grown taken
  exact ⟨grown, taken⟩

theorem noted_of_answered [FieldHash] {connection ready next : Connection (τ × List Request)} {request : Request}
    {keepAlive offered : Bool} {outcome : Except Stop Bool}
    (read : connection.readRequest terms = .request request keepAlive ready)
    (answered : ready.answer terms serve.noting request offered = (outcome, next)) :
    next.memory.2 = connection.memory.2 ++ [request] := by
  have memory : ready.memory = connection.memory := (frame_readRequest read).2
  have remembered := ready.memory_answer terms serve.noting request offered
  rw [answered, memory] at remembered
  exact congrArg Prod.snd remembered

namespace Course

theorem output [FieldHash] {connection : Connection τ} {handled : List Handled} {ended : Stop × Connection τ}
    (course : Course terms serve connection handled ended) :
    connection.outlet.Grows ended.2.outlet ∧
      ended.2.outlet.taken = connection.outlet.taken ++ handled.flatMap Handled.response := by
  induction course with
  | closed connection => exact ⟨Outlet.Grows.refl _, by simp⟩
  | unread read =>
      have outlet := (frame_readRequest read).1
      simp only [Next.connection] at outlet
      rw [outlet]
      exact ⟨Outlet.Grows.refl _, by simp⟩
  | last read answered _ =>
      obtain ⟨grown, taken⟩ := taken_of_answered read answered
      exact ⟨grown, by simpa using taken⟩
  | round read answered _ ih =>
      obtain ⟨grown, taken⟩ := taken_of_answered read answered
      obtain ⟨later, takenLater⟩ := ih
      refine ⟨grown.trans later, ?_⟩
      rw [takenLater, taken, List.append_assoc, List.flatMap_cons]

theorem noted [FieldHash] {connection : Connection (τ × List Request)} {handled : List Handled}
    {ended : Stop × Connection (τ × List Request)} (course : Course terms serve.noting connection handled ended) :
    ended.2.memory.2 = connection.memory.2 ++ handled.map Handled.request := by
  induction course with
  | closed connection => simp
  | unread read =>
      have memory := (frame_readRequest read).2
      simp only [Next.connection] at memory
      simp [memory]
  | last read answered _ => exact noted_of_answered read answered
  | round read answered _ ih =>
      rw [ih, noted_of_answered read answered, List.append_assoc]
      rfl

theorem forall_handled [FieldHash] {holds : Request → Prop}
    (step : ∀ {connection ready : Connection τ} {request : Request} {keepAlive : Bool},
      connection.readRequest terms = .request request keepAlive ready → holds request)
    {connection : Connection τ} {handled : List Handled} {ended : Stop × Connection τ}
    (course : Course terms serve connection handled ended) : ∀ call ∈ handled, holds call.request := by
  induction course with
  | closed connection => simp
  | unread read => simp
  | last read _ _ => simpa using step read
  | round read _ _ ih => exact List.forall_mem_cons.mpr ⟨step read, ih⟩

end Course

def writingTo (outlet : Outlet) (connection : Connection τ) : Connection τ := { connection with outlet := outlet }

def Next.writingTo (outlet : Outlet) : Next τ → Next τ
  | .stopped stop connection => .stopped stop (connection.writingTo outlet)
  | .request asked keepAlive connection => .request asked keepAlive (connection.writingTo outlet)

theorem readBody_writingTo (outlet : Outlet) (connection : Connection τ) (head : Head) (stop : Nat) :
    (connection.writingTo outlet).readBody terms head stop =
      (connection.readBody terms head stop).writingTo outlet := by
  simp only [readBody]
  split
  · rfl
  · simp only [writingTo]
    split <;> rfl

theorem readRequest_writingTo [FieldHash] (outlet : Outlet) (connection : Connection τ) :
    (connection.writingTo outlet).readRequest terms = (connection.readRequest terms).writingTo outlet := by
  simp only [readRequest]
  simp only [writingTo]
  split
  · rfl
  · rfl
  · split
    · rfl
    · let reading := connection.buffer.readHead connection.source
      exact readBody_writingTo outlet { connection with buffer := reading.buffer, source := reading.source } _ _

theorem answer_breaks (terms : Terms) (serve : Serve ResponseBuffer τ) {connection : Connection τ}
    (flows : connection.outlet.Flows) {broken : Outlet} {room : Nat} {error : IoError}
    (breaks : broken.Breaks room error)
    (sameFlush : broken.flushFailure = connection.outlet.flushFailure) (request : Request) (keepAlive : Bool) :
    let response := connection.responded terms serve request keepAlive
    let whole := connection.answer terms serve request keepAlive
    let cut := (connection.writingTo broken).answer terms serve request keepAlive
    (connection.writingTo broken).responded terms serve request keepAlive = response.take room ∧
      (response.length ≤ room →
        ∃ after, broken.Reaches after response room error ∧
          after.flushFailure = whole.2.outlet.flushFailure ∧ cut = whole.map id (Connection.writingTo after)) ∧
      (room < response.length → cut.1 = .error (.failed error)) := by
  intro response whole cut
  have extended : whole.2.outlet.taken = connection.outlet.taken ++ response :=
    connection.taken_answer terms serve request keepAlive
  have cutTaken : cut.2.outlet.taken =
      broken.taken ++ (connection.writingTo broken).responded terms serve request keepAlive :=
    (connection.writingTo broken).taken_answer terms serve request keepAlive
  generalize calledEq :
    serve request (connection.response.freshWriter request terms.response) connection.memory = done
  cases panic : done.panic with
  | some message =>
      have wholeEq : whole = _ := answer_of_panic calledEq panic keepAlive
      have cutEq : cut = _ := @answer_of_panic _ terms (connection.writingTo broken) _ _ _ calledEq _ panic keepAlive
      rw [wholeEq] at extended
      rw [cutEq] at cutTaken
      have silent : response = [] := List.self_eq_append_right.mp extended
      refine ⟨?_, ?_, ?_⟩
      · rw [silent, List.take_nil]
        exact List.self_eq_append_right.mp cutTaken
      · intro _
        rw [silent, wholeEq, cutEq]
        exact ⟨broken, breaks.reaches_refl, sameFlush, rfl⟩
      · intro exceeds
        simp [silent] at exceeds
  | none =>
      have wholeEq : whole = _ := answer_of_calm calledEq panic keepAlive
      have cutEq : cut = _ := @answer_of_calm _ terms (connection.writingTo broken) serve _ _ calledEq panic keepAlive
      obtain ⟨content, taken, fitting, exceeds⟩ :=
        ResponseBuffer.finish_breaks flows breaks sameFlush done.writer.sink keepAlive
      rw [wholeEq, taken] at extended
      obtain rfl : content = response := List.append_cancel_left extended
      rw [cutEq] at cutTaken
      refine ⟨?_, ?_, ?_⟩
      · rcases Nat.lt_or_ge room response.length with long | fits
        · exact (List.append_cancel_left ((exceeds long).2.symm.trans cutTaken)).symm
        · obtain ⟨after, reaches, _, finished⟩ := fitting fits
          simp only [writingTo, finished] at cutTaken
          rw [List.take_of_length_le fits]
          exact (List.append_cancel_left (reaches.taken.symm.trans cutTaken)).symm
      · intro fits
        obtain ⟨after, reaches, flushed, finished⟩ := fitting fits
        refine ⟨after, reaches, ?_, ?_⟩
        · rw [wholeEq]
          exact flushed
        · rw [cutEq, wholeEq]
          simp only [writingTo, finished]
          rfl
      · intro long
        rw [cutEq]
        simp only [writingTo, (exceeds long).1]
        rfl

/-- Of two services of a connection, the second writes to a stream that breaks: it is the same as the first where all
fits, and else it fails at the first response that does not fit. -/
structure CutOff (broken : Outlet) (room : Nat) (error : IoError) (whole cut : Stop × Connection τ)
    (handled left : List Handled) : Prop where
  within : left = Handled.within room handled
  same : (handled.flatMap Handled.response).length ≤ room →
    ∃ after, broken.Reaches after (handled.flatMap Handled.response) room error ∧
      after.flushFailure = whole.2.outlet.flushFailure ∧ cut = whole.map id (Connection.writingTo after)
  failed : room < (handled.flatMap Handled.response).length → cut.1 = .failed error

variable {broken : Outlet} {room : Nat} {error : IoError}

theorem CutOff.nil (breaks : broken.Breaks room error) {whole : Stop × Connection τ}
    (sameFlush : broken.flushFailure = whole.2.outlet.flushFailure) :
    CutOff broken room error whole (whole.map id (Connection.writingTo broken)) [] [] := by
  refine ⟨rfl, ?_, ?_⟩
  · intro _
    exact ⟨broken, breaks.reaches_refl, sameFlush, rfl⟩
  · intro exceeds
    simp at exceeds

theorem CutOff.cons {after : Outlet} {whole cut : Stop × Connection τ} {first : Handled} {handled left : List Handled}
    (fits : first.response.length ≤ room) (reaches : broken.Reaches after first.response room error)
    (later : CutOff after (room - first.response.length) error whole cut handled left) :
    CutOff broken room error whole cut (first :: handled) (first :: left) := by
  obtain ⟨handledLater, same, failed⟩ := later
  constructor
  · simp only [Handled.within, fits, ↓reduceIte, handledLater]
  · intro all
    simp only [List.flatMap_cons, List.length_append] at all ⊢
    obtain ⟨last, reachesLater, flushed, cutEq⟩ := same (by omega)
    exact ⟨last, reaches.trans reachesLater, flushed, cutEq⟩
  · intro exceeds
    simp only [List.flatMap_cons, List.length_append] at exceeds
    exact failed (by omega)

theorem CutOff.of_lt {whole cut : Stop × Connection τ} {first : Handled} (exceeds : room < first.response.length)
    (failed : cut.1 = .failed error) (handled : List Handled) :
    CutOff broken room error whole cut (first :: handled)
      [{ first with response := first.response.take room }] := by
  have unfit : ¬first.response.length ≤ room := by omega
  constructor
  · simp only [Handled.within, unfit, ↓reduceIte]
  · intro all
    simp only [List.flatMap_cons, List.length_append] at all
    omega
  · intro _
    exact failed

theorem serveAll_breaks [FieldHash] (terms : Terms) (serve : Serve ResponseBuffer τ) (remaining served : Nat)
    {connection : Connection τ} (flows : connection.outlet.Flows)
    (breaks : broken.Breaks room error) (sameFlush : broken.flushFailure = connection.outlet.flushFailure) :
    CutOff broken room error (connection.serveAll terms serve remaining served)
      ((connection.writingTo broken).serveAll terms serve remaining served)
      (connection.handled terms serve remaining served)
      ((connection.writingTo broken).handled terms serve remaining served) := by
  -- What is left of the room shrinks with every response; a response that does not fit is the last.
  induction remaining generalizing served connection broken room with
  | zero => exact CutOff.nil breaks sameFlush
  | succ remaining ih =>
      simp only [handled, serveAll, readRequest_writingTo]
      split
      · exact CutOff.nil breaks sameFlush
      · cases read : connection.readRequest terms with
        | stopped stop after =>
            have outlet : after.outlet = connection.outlet := (frame_readRequest read).1
            rw [← outlet] at sameFlush
            exact CutOff.nil breaks sameFlush
        | request request keepAlive ready =>
            have outlet : ready.outlet = connection.outlet := (frame_readRequest read).1
            rw [← outlet] at flows sameFlush
            dsimp only [Next.writingTo]
            generalize (keepAlive && decide (remaining ≠ 0) &&
              !terms.isTooOld (.beforeResponse (served + 1))) = offered
            have grown := ready.grows_answer terms serve request offered
            obtain ⟨responded, fitting, exceeds⟩ :=
              answer_breaks terms serve flows breaks sameFlush request offered
            rw [responded]
            generalize ready.responded terms serve request offered = response at fitting exceeds ⊢
            rcases Nat.lt_or_ge room response.length with long | fits
            · have failed := exceeds long
              generalize (ready.writingTo broken).answer terms serve request offered = cut at failed ⊢
              obtain ⟨outcome, next⟩ := cut
              obtain rfl : outcome = .error (.failed error) := failed
              exact CutOff.of_lt long rfl _
            · obtain ⟨after, reaches, flushed, cutEq⟩ := fitting fits
              rw [cutEq, List.take_of_length_le fits]
              generalize ready.answer terms serve request offered = answered at grown flushed ⊢
              obtain ⟨outcome, next⟩ := answered
              cases outcome with
              | error stop => exact CutOff.cons fits reaches (CutOff.nil reaches.breaks flushed)
              | ok kept =>
                  cases kept with
                  | false => exact CutOff.cons fits reaches (CutOff.nil reaches.breaks flushed)
                  | true => exact CutOff.cons fits reaches (ih (served + 1) (grown.flows flows) reaches.breaks flushed)

theorem sendRefusal_breaks {connection : Connection τ} (flows : connection.outlet.Flows)
    (breaks : broken.Breaks room error) (sameFlush : broken.flushFailure = connection.outlet.flushFailure)
    (refusal : Refusal) :
    let content := refusal.answer connection.version
    let whole := connection.sendRefusal refusal
    let cut := (connection.writingTo broken).sendRefusal refusal
    whole.2.outlet.taken = connection.outlet.taken ++ content ∧
      cut.2.outlet.taken = broken.taken ++ content.take room ∧
      (content.length ≤ room → cut.1 = whole.1) ∧ (room < content.length → cut.1 = .failed error) := by
  intro content whole cut
  have told := tells_sendRefusal flows refusal
  refine ⟨told.taken, ?_⟩
  rcases Nat.lt_or_ge room content.length with exceeds | fits
  · have cutEq : cut = (.failed error, connection.writingTo (broken.extend (content.take room))) := by
      simp only [cut, sendRefusal, writingTo, content, breaks.writeAll_of_lt exceeds]
    rw [cutEq]
    refine ⟨rfl, ?_, fun _ => rfl⟩
    intro fits
    omega
  · rw [List.take_of_length_le fits]
    simp only [cut, whole, sendRefusal, writingTo, content, breaks.writeAll_of_le fits, Outlet.writeAll_of_flows flows,
      Outlet.flush, Outlet.extend, sameFlush]
    cases connection.outlet.flushFailure 0 with
    | none => exact ⟨rfl, fun _ => rfl, fun exceeds => absurd fits (Nat.not_le.mpr exceeds)⟩
    | some failure => exact ⟨rfl, fun _ => rfl, fun exceeds => absurd fits (Nat.not_le.mpr exceeds)⟩

theorem memory_conclude (ended : Stop × Connection τ) : (conclude ended).2.memory = ended.2.memory := by
  obtain ⟨stop, connection⟩ := ended
  cases stop with
  | refused refusal =>
      simp only [conclude, sendRefusal]
      split
      · rfl
      · split
        · rfl
        · rfl
  | closed => rfl
  | failed error => rfl
  | panicked message => rfl

theorem noted_run [FieldHash] (terms : Terms) (serve : Serve ResponseBuffer τ)
    (connection : Connection (τ × List Request)) :
    (connection.run terms serve.noting).2.memory.2 = connection.memory.2 ++
      (connection.handled terms serve.noting terms.connection.maxRequests 0).map Handled.request := by
  have concluded : connection.run terms serve.noting =
    conclude (connection.serveAll terms serve.noting terms.connection.maxRequests 0) := rfl
  rw [concluded, memory_conclude, (course_serveAll terms serve.noting _ 0 connection).noted]

theorem exists_taken_conclude {ended : Stop × Connection τ} (flows : ended.2.outlet.Flows) :
    ∃ content, (conclude ended).2.outlet.taken = ended.2.outlet.taken ++ content := by
  obtain ⟨stop, connection⟩ := ended
  cases stop with
  | refused refusal => exact ⟨_, (tells_sendRefusal flows refusal).taken⟩
  | _ => exact ⟨[], (List.append_nil _).symm⟩

theorem conclude_breaks {ended : Stop × Connection τ} (flows : ended.2.outlet.Flows)
    (breaks : broken.Breaks room error) (sameFlush : broken.flushFailure = ended.2.outlet.flushFailure) :
    let cut := conclude (ended.map id (writingTo broken))
    ∃ content, (conclude ended).2.outlet.taken = ended.2.outlet.taken ++ content ∧
      cut.2.outlet.taken = broken.taken ++ content.take room ∧
      (content.length ≤ room → cut.1 = (conclude ended).1) ∧ (room < content.length → cut.1 = .failed error) := by
  intro cut
  by_cases refused : ∃ refusal, ended.1 = .refused refusal
  · obtain ⟨stop, connection⟩ := ended
    obtain ⟨refusal, rfl⟩ := refused
    exact ⟨_, sendRefusal_breaks flows breaks sameFlush refusal⟩
  · have other (refusal : Refusal) : ended.1 ≠ .refused refusal := fun same => refused ⟨refusal, same⟩
    have cutEq : cut = ended.map id (writingTo broken) := conclude_of_not_refused other
    rw [cutEq, conclude_of_not_refused other]
    refine ⟨[], by simp, by simp [writingTo], fun _ => rfl, ?_⟩
    intro exceeds
    simp at exceeds

theorem CutOff.conclude {whole cut : Stop × Connection τ} {handled left : List Handled}
    (cutOff : CutOff broken room error whole cut handled left) (flows : whole.2.outlet.Flows)
    {before : Bytes} (wholeTaken : whole.2.outlet.taken = before ++ handled.flatMap Handled.response)
    (cutTaken : cut.2.outlet.taken = broken.taken ++ left.flatMap Handled.response) :
    ∃ output, handled.flatMap Handled.response <+: output ∧
      (conclude whole).2.outlet.taken = before ++ output ∧
      (conclude cut).2.outlet.taken = broken.taken ++ output.take room ∧
      (output.length ≤ room → (conclude cut).1 = (conclude whole).1) ∧
      (room < output.length → (conclude cut).1 = .failed error) := by
  obtain ⟨rfl, same, failed⟩ := cutOff
  rw [Handled.flatMap_within] at cutTaken
  generalize handled.flatMap Handled.response = responses at *
  rcases Nat.lt_or_ge room responses.length with exceeds | fits
  · obtain ⟨content, taken⟩ := exists_taken_conclude flows
    have unrefused (refusal : Refusal) : cut.1 ≠ .refused refusal := by simp [failed exceeds]
    refine ⟨responses ++ content, List.prefix_append _ _, ?_, ?_, ?_, ?_⟩
    · rw [taken, wholeTaken, List.append_assoc]
    · rw [conclude_of_not_refused unrefused, cutTaken, List.take_append_of_le_length (Nat.le_of_lt exceeds)]
    · intro all
      rw [List.length_append] at all
      omega
    · intro _
      rw [conclude_of_not_refused unrefused, failed exceeds]
  · obtain ⟨after, reaches, flushed, rfl⟩ := same fits
    obtain ⟨content, taken, cutAfter, stop, broke⟩ := conclude_breaks flows reaches.breaks flushed
    refine ⟨responses ++ content, List.prefix_append _ _, ?_, ?_, ?_, ?_⟩
    · rw [taken, wholeTaken, List.append_assoc]
    · rw [cutAfter, reaches.taken, List.append_assoc, List.take_append, List.take_of_length_le fits]
    · intro all
      rw [List.length_append] at all
      exact stop (Nat.le_sub_of_add_le' all)
    · intro exceeds
      rw [List.length_append] at exceeds
      exact broke (Nat.sub_lt_left_of_lt_add fits exceeds)

theorem run_breaks [FieldHash] (terms : Terms) (serve : Serve ResponseBuffer τ) (memory : τ) (source : Source)
    {outlet : Outlet} (flows : outlet.Flows) (breaks : broken.Breaks room error)
    (sameFlush : broken.flushFailure = outlet.flushFailure) :
    let start := new terms source outlet (memory, [])
    let handled := start.handled terms serve.noting terms.connection.maxRequests 0
    let whole := start.run terms serve.noting
    let cut := (new terms source broken (memory, [])).run terms serve.noting
    whole.2.memory.2 = handled.map Handled.request ∧
      cut.2.memory.2 = (Handled.within room handled).map Handled.request ∧
      ∃ output, handled.flatMap Handled.response <+: output ∧
        whole.2.outlet.taken = outlet.taken ++ output ∧ cut.2.outlet.taken = broken.taken ++ output.take room ∧
        (output.length ≤ room → cut.1 = whole.1) ∧ (room < output.length → cut.1 = .failed error) := by
  intro start handled whole cut
  have startFlows : start.outlet.Flows := flows
  have cutOff := serveAll_breaks terms serve.noting terms.connection.maxRequests 0 startFlows breaks sameFlush
  obtain ⟨grown, wholeTaken⟩ := (course_serveAll terms serve.noting terms.connection.maxRequests 0 start).output
  obtain ⟨_, cutTaken⟩ :=
    (course_serveAll terms serve.noting terms.connection.maxRequests 0 (start.writingTo broken)).output
  have cutNoted := noted_run terms serve (start.writingTo broken)
  rw [cutOff.within] at cutNoted
  refine ⟨noted_run terms serve start, cutNoted, ?_⟩
  exact cutOff.conclude (grown.flows flows) wholeTaken cutTaken

/-- A run on a stream of either side that is cut off is the beginning of a run on one that is not. Where fewer bytes
arrive, however the stream ends or fails behind them, the handler is called with the beginning of the requests, and the
beginning of the output is written. Where the stream that is written to breaks, the output is cut off there, the call
whose response is cut is the last one, and the run fails as the stream does. -/
theorem run_of_cut_off [FieldHash] (terms : Terms) (serve : Serve ResponseBuffer τ) (memory : τ)
    {cutAge wholeAge : Occasion → Nat} (cutYoung : ∀ occasion, cutAge occasion ≤ terms.connection.lifetime)
    (wholeYoung : ∀ occasion, wholeAge occasion ≤ terms.connection.lifetime) :
    let cutTerms := { terms with age := cutAge }
    let wholeTerms := { terms with age := wholeAge }
    let runCut := fun (source : Source) (outlet : Outlet) =>
      (new cutTerms source outlet (memory, [])).run cutTerms serve.noting
    let runWhole := fun (source : Source) (outlet : Outlet) =>
      (new wholeTerms source outlet (memory, [])).run wholeTerms serve.noting
    (∀ {cut whole : Source} {cutOutlet wholeOutlet : Outlet}, cut.untilBreak.bytes <+: whole.untilBreak.bytes →
      cutOutlet.Flows → wholeOutlet.Flows → cutOutlet.flushFailure = wholeOutlet.flushFailure →
      (runCut cut cutOutlet).2.memory.2 <+: (runWhole whole wholeOutlet).2.memory.2 ∧
        ∃ less output, less <+: output ∧ (runCut cut cutOutlet).2.outlet.taken = cutOutlet.taken ++ less ∧
          (runWhole whole wholeOutlet).2.outlet.taken = wholeOutlet.taken ++ output) ∧
    (∀ (source : Source) {broken outlet : Outlet} {room : Nat} {error : IoError}, broken.Breaks room error →
      outlet.Flows → broken.flushFailure = outlet.flushFailure →
      let handled := (new wholeTerms source outlet (memory, [])).handled wholeTerms serve.noting
        terms.connection.maxRequests 0
      (runWhole source outlet).2.memory.2 = handled.map Handled.request ∧
        (runCut source broken).2.memory.2 = (Handled.within room handled).map Handled.request ∧
        ∃ output, handled.flatMap Handled.response <+: output ∧
          (runWhole source outlet).2.outlet.taken = outlet.taken ++ output ∧
          (runCut source broken).2.outlet.taken = broken.taken ++ output.take room ∧
          (output.length ≤ room → (runCut source broken).1 = (runWhole source outlet).1) ∧
          (room < output.length → (runCut source broken).1 = .failed error)) := by
  intro cutTerms wholeTerms runCut runWhole
  constructor
  · intro cut whole cutOutlet wholeOutlet begins cutFlows wholeFlows sameFlush
    exact run_begins terms serve memory begins cutFlows wholeFlows sameFlush cutYoung wholeYoung
  · intro source broken outlet room error breaks flows sameFlush
    have sameRun : runCut source broken = runWhole source broken :=
      congrArg conclude (serveAll_of_young terms cutYoung wholeYoung serve.noting _ 0 _)
    rw [sameRun]
    exact run_breaks wholeTerms serve memory source flows breaks sameFlush

/-- Of three requests that are answered, the second does not arrive whole; or the first response does not fit. -/
theorem run_of_cut_off_midway :
    let terms : Terms := ⟨{}, {}, {}, ⟨none, false⟩, fun _ => 0⟩
    let serve : Serve ResponseBuffer Nat := fun request writer calls =>
      ⟨none, (writer.write request.body).state, calls + 1⟩
    let content :=
      Ascii.bytes "POST /a HTTP/1.1\r\ncontent-length: 2\r\n\r\nhiGET /b HTTP/1.1\r\n\r\nBAD\r\n\r\n"
    let whole : Source := [.piece content]
    let cut : Source := [.piece (content.take 47), .failure ⟨.connectionReset, "reset"⟩, .piece (content.drop 47)]
    let error : IoError := ⟨.brokenPipe, "broken"⟩
    let broken := Outlet.limited (some 1) (some (30, error)) none
    let aged := { terms with age := fun _ => 1000 }
    let runOn := fun (source : Source) (outlet : Outlet) => (new aged source outlet (0, [])).run aged serve.noting
    let paths : Stop × Connection (Nat × List Request) → List Bytes := fun ended =>
      ended.2.memory.2.map fun request => request.uri.path
    (∀ occasion, aged.age occasion ≤ terms.connection.lifetime) ∧
      cut.untilBreak.bytes <+: whole.untilBreak.bytes ∧ broken.Breaks 30 error ∧ Outlet.unlimited.Flows ∧
      broken.flushFailure = Outlet.unlimited.flushFailure ∧
      paths (runOn whole .unlimited) = [Ascii.bytes "/a", Ascii.bytes "/b"] ∧
      paths (runOn cut .unlimited) = [Ascii.bytes "/a"] ∧ paths (runOn whole broken) = [Ascii.bytes "/a"] ∧
      (runOn cut .unlimited).2.memory.2 <+: (runOn whole .unlimited).2.memory.2 ∧
      (runOn cut .unlimited).2.outlet.taken <+: (runOn whole .unlimited).2.outlet.taken ∧
      (runOn whole broken).2.outlet.taken = (runOn whole .unlimited).2.outlet.taken.take 30 ∧
      (runOn whole broken).1 = .failed error := by
  intro terms serve content whole cut error broken aged runOn paths
  have young (occasion : Occasion) : aged.age occasion ≤ terms.connection.lifetime := by
    simp only [aged, terms]
    decide
  have begins : cut.untilBreak.bytes <+: whole.untilBreak.bytes := by decide +kernel
  have breaks : broken.Breaks 30 error := Outlet.breaks_limited (by decide) (by decide) none
  have wholePaths : paths (runOn whole .unlimited) = [Ascii.bytes "/a", Ascii.bytes "/b"] := by decide +kernel
  have cutPaths : paths (runOn cut .unlimited) = [Ascii.bytes "/a"] := by decide +kernel
  have brokenPaths : paths (runOn whole broken) = [Ascii.bytes "/a"] := by decide +kernel
  have long : 30 < (runOn whole .unlimited).2.outlet.taken.length := by decide +kernel
  obtain ⟨reading, writing⟩ := run_of_cut_off terms serve 0 young young
  obtain ⟨calls, less, output, shorter, cutTaken, wholeTaken⟩ :=
    reading begins Outlet.flows_unlimited Outlet.flows_unlimited rfl
  obtain ⟨_, _, written, _, unbroken, brokenTaken, _, fails⟩ := writing whole breaks Outlet.flows_unlimited rfl
  dsimp only [runOn, aged] at *
  have nothing : Outlet.unlimited.taken = [] := rfl
  rw [nothing, List.nil_append] at cutTaken wholeTaken unbroken
  refine ⟨young, begins, breaks, Outlet.flows_unlimited, rfl, wholePaths, cutPaths, brokenPaths, calls, ?_, ?_, ?_⟩
  · rw [cutTaken, wholeTaken]
    exact shorter
  · rw [unbroken]
    exact brokenTaken
  · rw [unbroken] at long
    exact fails long

end Connection

end HttpService
