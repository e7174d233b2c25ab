import HttpService.Proofs.Station

/-! No access out of bounds and no overflow ends a connection, whatever arrives and however writing fails: served access
by access, it comes to what it comes to without the checks. -/

namespace HttpService

/-- It is no panic, unless the collection does not take the names of the fields. -/
def Stop.Sound [FieldHash] (limits : RequestLimits) (stop : Stop) : Prop :=
  ∀ message, stop = .panicked message → Head.Overfull limits message

theorem Stop.sound_ofFailure [FieldHash] {limits : RequestLimits} {failure : ReadFailure}
    (overfull : ∀ message, failure = .panicked message → Head.Overfull limits message) :
    (Stop.ofFailure failure).Sound limits := by
  intro message panicked
  cases failure with
  | refused refusal => cases panicked
  | io error => cases panicked
  | panicked other => exact overfull message (congrArg ReadFailure.panicked (Stop.panicked.inj panicked))

theorem Stop.sound_of_calm [FieldHash] {α : Type} {outcome : Except ReadFailure α} {failure : ReadFailure}
    (calm : Checked.Calm outcome) (failed : outcome = .error failure) (limits : RequestLimits) :
    (Stop.ofFailure failure).Sound limits :=
  Stop.sound_ofFailure fun message panicked => absurd (panicked ▸ failed) (calm message)

theorem Source.length_of_readExactly {source rest : Source} {wanted : Nat} {content : Bytes}
    (read : source.readExactly wanted = (.ok content, rest)) : content.length = wanted := by
  fun_induction readExactly source wanted generalizing rest content with
  | case1 source =>
      obtain ⟨⟨⟩, _⟩ := Prod.mk.inj read
      rfl
  | case2 => cases (Prod.mk.inj read).1
  | case3 error later wanted again ih => exact ih read
  | case4 => cases (Prod.mk.inj read).1
  | case5 => cases (Prod.mk.inj read).1
  | case6 piece more wanted some fits later rest found ih =>
      obtain ⟨⟨⟩, _⟩ := Prod.mk.inj read
      rw [List.length_append, ih found]
      omega
  | case7 => cases (Prod.mk.inj read).1
  | case8 piece more wanted some large =>
      obtain ⟨⟨⟩, _⟩ := Prod.mk.inj read
      rw [List.length_take]
      omega

theorem HeadBuffer.length_of_readBody {buffer : HeadBuffer} {source : Source} {start length : Nat} {body : Bytes}
    (read : (buffer.readBody source start length).outcome = .ok body) : body.length = length := by
  rw [readBody] at read
  split at read
  · cases read
  · split at read
    · cases read
    · dsimp only at read
      split at read
      · rename_i later rest found
        obtain rfl := Except.ok.inj read
        have wanted := Source.length_of_readExactly found
        have held := List.length_take_le length (buffer.content.drop start)
        rw [List.length_append]
        omega
      · cases read

/-- A handler that does not panic on a request that is let through, whatever it remembers. It has not panicked for want of
memory either: what it leaves is a body that memory can hold. -/
def Serve.Calm {τ : Type} (serve : Serve ResponseBuffer τ) (terms : Terms) : Prop :=
  ∀ (request : Request) (buffer : ResponseBuffer) (memory : τ), request.body.length ≤ terms.request.bodyLength →
    (serve request (buffer.freshWriter request terms.response) memory).panic = none ∧
      (serve request (buffer.freshWriter request terms.response) memory).writer.sink.body.length ≤ Allocation.most

/-- What keeps a connection within its bounds: there can be a collection for the fields and memory for the bodies that are
allowed, a word counts the requests, and the handler does not panic. -/
structure Tame {τ : Type} (terms : Terms) (serve : Serve ResponseBuffer τ) : Prop where
  fields : terms.request.fieldCount ≤ Head.maxFields
  bodies : terms.request.bodyLength ≤ Allocation.most
  requests : terms.connection.maxRequests < UInt64.size
  calm : serve.Calm terms

namespace Connection

variable {τ : Type}

def serveNext [FieldHash] (terms : Terms) (serve : Serve ResponseBuffer τ) (connection : Connection τ)
    (remaining served : Nat) : Except Stop Bool × Connection τ :=
  match connection.readRequest terms with
  | .stopped stop connection => (.error stop, connection)
  | .request request keepAlive connection =>
    connection.answer terms serve request
      (keepAlive && decide (remaining ≠ 0) && !terms.isTooOld (.beforeResponse (served + 1)))

def resume [FieldHash] (terms : Terms) (serve : Serve ResponseBuffer τ) (remaining served : Nat) :
    Except Stop Bool × Connection τ → Stop × Connection τ
  | (.error stop, connection) => (stop, connection)
  | (.ok false, connection) => (.closed, connection)
  | (.ok true, connection) => serveAll terms serve remaining served connection

theorem serveAll_succ [FieldHash] (terms : Terms) (serve : Serve ResponseBuffer τ) (connection : Connection τ)
    (remaining served : Nat) : connection.serveAll terms serve (remaining + 1) served =
      if terms.isTooOld (.beforeRequest served) then (.closed, connection)
      else resume terms serve remaining (served + 1) (connection.serveNext terms serve remaining served) := by
  rw [serveAll, serveNext]
  split
  · rfl
  · cases connection.readRequest terms <;> rfl

end Connection

namespace Station

variable {τ : Type} {terms : Terms} {serve : Serve ResponseBuffer τ} {station : Station τ}

def Next.view : Next τ → Connection.Next τ
  | stopped stop station => .stopped stop station.view
  | request given keepAlive station => .request given keepAlive station.view

def Next.Sound [FieldHash] (terms : Terms) : Next τ → Prop
  | stopped stop station => station.cells.Sound terms.request.headLength ∧ stop.Sound terms.request
  | request given _ station =>
    station.cells.Sound terms.request.headLength ∧ given.body.length ≤ terms.request.bodyLength

theorem readBody_spec [FieldHash] (tame : Tame terms serve)
    (sound : station.cells.Sound terms.request.headLength) {head : Head} {stop : Nat}
    (announced : head.contentLength ≤ terms.request.bodyLength) (inside : stop ≤ station.cells.used) :
    (station.readBody terms head stop).view = station.view.readBody terms head stop ∧
      (station.readBody terms head stop).Sound terms := by
  rw [readBody, Connection.readBody]
  by_cases none : head.contentLength = 0
  · obtain ⟨next, consumed, holds, still⟩ := sound.consume stop
    simp only [none, ↓reduceIte, consumed]
    refine ⟨?_, still, Nat.zero_le _⟩
    simp only [Next.view, view, holds]
  · obtain ⟨same, still, calm⟩ := sound.readBody station.source inside (Nat.le_trans announced tame.bodies)
    have length := @HeadBuffer.length_of_readBody station.cells.held station.source stop head.contentLength
    simp only [none, ↓reduceIte, view, ← same, Cells.Reading.held] at length ⊢
    cases read : (station.cells.readBody station.source stop head.contentLength).outcome with
    | error failure => exact ⟨rfl, still, Stop.sound_of_calm calm read _⟩
    | ok body => exact ⟨rfl, still, (length read).symm ▸ announced⟩

theorem readRequest_spec [FieldHash] (tame : Tame terms serve) (sound : station.cells.Sound terms.request.headLength) :
    (station.readRequest terms).view = station.view.readRequest terms ∧ (station.readRequest terms).Sound terms := by
  obtain ⟨same, still, calm⟩ := sound.readHead station.source
  rw [readRequest, Connection.readRequest]
  simp only [view, ← same, Cells.Reading.held]
  cases found : (station.cells.readHead station.source).outcome with
  | error failure => exact ⟨rfl, still, Stop.sound_of_calm calm found _⟩
  | ok ended =>
      cases ended with
      | none => exact ⟨rfl, still, nofun⟩
      | some stop =>
          have inside := sound.le_of_readHead found
          generalize (station.cells.readHead station.source).cells = cells at inside still
          simp only [still.readAt terms.request inside]
          cases accepted : Head.read terms.request cells.held.content stop with
          | error failure =>
              refine ⟨rfl, still, Stop.sound_ofFailure fun message panicked => ?_⟩
              exact Head.overfull_of_read tame.fields (still.length_held ▸ inside) (panicked ▸ accepted)
          | ok head =>
              exact @readBody_spec _ _ serve
                ⟨cells, _, station.outlet, station.response, station.version, station.memory, station.count⟩ _ tame
                still head stop (Head.contentLength_le_of_read accepted) inside

theorem answer_spec [FieldHash] (tame : Tame terms serve) (sound : station.cells.Sound terms.request.headLength)
    (below : station.count < terms.connection.maxRequests) {request : Request}
    (allowed : request.body.length ≤ terms.request.bodyLength) (keepAlive : Bool) :
    ∃ outcome next, station.answer terms serve request keepAlive = (outcome, next) ∧
      station.view.answer terms serve request (keepAlive &&
        decide (terms.connection.maxRequests - (station.count + 1) ≠ 0) &&
          !terms.isTooOld (.beforeResponse (station.count + 1))) = (outcome, next.view) ∧
      next.cells.Sound terms.request.headLength ∧ ∀ stop, outcome = .error stop → stop.Sound terms.request := by
  obtain ⟨quiet, fits⟩ := tame.calm request station.response station.memory allowed
  have last : decide (station.count + 1 < terms.connection.maxRequests) =
      decide (terms.connection.maxRequests - (station.count + 1) ≠ 0) := by
    rw [decide_eq_decide]
    omega
  have counted : Checked.add station.count 1 = .ok (station.count + 1) :=
    Checked.add_of_lt (Nat.lt_of_le_of_lt below tame.requests)
  simp only [answer, Connection.answer, view, close, counted, last, ResponseBuffer.closeHeadAt_eq fits, quiet,
    ResponseBuffer.finish_eq_deliver, bind, Except.bind, pure, Except.pure]
  generalize serve request (station.response.freshWriter request terms.response) station.memory = served
  generalize served.writer.sink.closeHead _ = closed
  cases (closed.2.deliver closed.1 station.outlet).kept with
  | error error =>
      refine ⟨.error (.failed error), _, rfl, rfl, sound, fun stop failed message panicked => ?_⟩
      rw [← Except.error.inj failed] at panicked
      cases panicked
  | ok kept =>
      refine ⟨.ok kept, _, rfl, rfl, sound, fun stop failed => ?_⟩
      cases failed

theorem serveNext_spec [FieldHash] (tame : Tame terms serve) (sound : station.cells.Sound terms.request.headLength)
    (below : station.count < terms.connection.maxRequests) :
    ∃ outcome next, station.serveNext terms serve = (outcome, next) ∧
      station.view.serveNext terms serve (terms.connection.maxRequests - (station.count + 1)) station.count =
        (outcome, next.view) ∧
      next.cells.Sound terms.request.headLength ∧ ∀ stop, outcome = .error stop → stop.Sound terms.request := by
  obtain ⟨same, still⟩ := readRequest_spec tame sound
  have counted := station.count_readRequest terms
  rw [serveNext, Connection.serveNext, ← same]
  cases read : station.readRequest terms with
  | stopped stop next =>
      rw [read] at still
      exact ⟨.error stop, next, rfl, rfl, still.1, fun _ same => Except.error.inj same ▸ still.2⟩
  | request request keepAlive ready =>
      rw [read] at still counted
      replace counted : ready.count = station.count := counted
      rw [← counted] at below ⊢
      exact answer_spec tame still.1 below still.2 keepAlive

theorem serveAll_view [FieldHash] (tame : Tame terms serve) (sound : station.cells.Sound terms.request.headLength)
    (unexpired : ¬station.isExpired terms = true) {outcome : Except Stop Bool} {next : Station τ}
    (served : station.serveNext terms serve = (outcome, next)) :
    station.view.serveAll terms serve (terms.connection.maxRequests - station.count) station.count =
        Connection.resume terms serve (terms.connection.maxRequests - (station.count + 1)) (station.count + 1)
          (outcome, next.view) ∧
      next.cells.Sound terms.request.headLength ∧ ∀ stop, outcome = .error stop → stop.Sound terms.request := by
  obtain ⟨below, young⟩ := count_lt_of_not_isExpired unexpired
  obtain ⟨_, _, same, answered, still⟩ := serveNext_spec tame sound below
  obtain ⟨rfl, rfl⟩ := Prod.mk.inj (served.symm.trans same)
  refine ⟨?_, still⟩
  have more : terms.connection.maxRequests - station.count = terms.connection.maxRequests - (station.count + 1) + 1 := by
    omega
  rw [more, Connection.serveAll_succ, young, answered]
  rfl

theorem serveAll_spec [FieldHash] (tame : Tame terms serve) (sound : station.cells.Sound terms.request.headLength) :
    station.view.serveAll terms serve (terms.connection.maxRequests - station.count) station.count =
        ((station.serveAll terms serve).1, (station.serveAll terms serve).2.view) ∧
      (station.serveAll terms serve).1.Sound terms.request := by
  fun_induction Station.serveAll terms serve station with
  | case1 station expired =>
      refine ⟨?_, nofun⟩
      cases remaining : terms.connection.maxRequests - station.count with
      | zero => rfl
      | succ fewer =>
          have old : terms.isTooOld (.beforeRequest station.count) = true := by
            have below : ¬terms.connection.maxRequests ≤ station.count := by omega
            simpa [isExpired, below] using expired
          rw [Connection.serveAll_succ, if_pos old]
  | case2 station unexpired stop next served =>
      obtain ⟨goesOn, _, quiet⟩ := serveAll_view tame sound unexpired served
      exact ⟨goesOn, quiet stop rfl⟩
  | case3 station unexpired next served =>
      exact ⟨(serveAll_view tame sound unexpired served).1, nofun⟩
  | case4 station unexpired next served ih =>
      obtain ⟨goesOn, still, _⟩ := serveAll_view tame sound unexpired served
      rw [goesOn, ← count_serveNext served]
      exact ih still

theorem Reaches.sound [FieldHash] (tame : Tame terms serve) {first last : Station τ}
    (sound : first.cells.Sound terms.request.headLength) (reached : Reaches terms serve first last) :
    last.cells.Sound terms.request.headLength := by
  induction reached with
  | start => exact sound
  | next _ unexpired served still => exact (serveAll_view tame still unexpired served).2.1

end Station

theorem Connection.sendRefusal_snd {τ : Type} (connection : Connection τ) (refusal : Refusal) :
    (connection.sendRefusal refusal).2 = { connection with outlet := (connection.sendRefusal refusal).2.outlet } := by
  rw [sendRefusal]
  split
  · rfl
  · split <;> rfl

theorem Connection.sendRefusal_ne_panicked {τ : Type} (connection : Connection τ) (refusal : Refusal) (message : String) :
    (connection.sendRefusal refusal).1 ≠ .panicked message := by
  rw [sendRefusal]
  split
  · nofun
  · split <;> nofun

theorem Station.run_spec [FieldHash] {τ : Type} {terms : Terms} {serve : Serve ResponseBuffer τ} {station : Station τ}
    (tame : Tame terms serve) (sound : station.cells.Sound terms.request.headLength) (fresh : station.count = 0) :
    station.view.run terms serve = ((station.run terms serve).1, (station.run terms serve).2.view) ∧
      (station.run terms serve).1.Sound terms.request := by
  obtain ⟨same, quiet⟩ := serveAll_spec tame sound
  rw [fresh, Nat.sub_zero] at same
  rw [run, Connection.run, same]
  cases served : station.serveAll terms serve with
  | mk stop next =>
      rw [served] at quiet
      cases stop with
      | refused refusal =>
          refine ⟨?_, fun message panicked => absurd panicked (next.view.sendRefusal_ne_panicked refusal message)⟩
          exact Prod.ext rfl (next.view.sendRefusal_snd refusal)
      | closed => exact ⟨rfl, quiet⟩
      | failed error => exact ⟨rfl, quiet⟩
      | panicked message => exact ⟨rfl, quiet⟩

namespace Station

variable {τ : Type}

/-- A connection comes to what it comes to when each access and each sum in it is checked, whatever arrives in whatever
pieces, however often and whenever reading and writing fail, and whatever the handler is, as long as it does not panic
itself. It panics only where the collection that is asked for does not take the names of the fields, and never where only
few fields are allowed. Before each request no more cells are in use than there are, and so after its head has been
read; the end of a head that is reported lies in the part in use; and each line of that head begins before it ends. -/
theorem run_of_calm [FieldHash] (terms : Terms) {serve : Serve ResponseBuffer τ}
    (fields : terms.request.fieldCount ≤ Head.maxFields)
    (bodies : terms.request.bodyLength ≤ Allocation.most) (requests : terms.connection.maxRequests < UInt64.size)
    (calm : serve.Calm terms) (source : Source) (outlet : Outlet) (memory : τ) :
    let first := new terms source outlet memory
    let ended := first.run terms serve
    (Connection.new terms source outlet memory).run terms serve = (ended.1, ended.2.view) ∧
      (∀ message, ended.1 = .panicked message →
        Slots.few < terms.request.fieldCount ∧ Head.Overfull terms.request message) ∧
      ∀ station, Reaches terms serve first station →
        let reading := station.cells.readHead station.source
        station.cells.used ≤ terms.request.headLength ∧ reading.cells.used ≤ terms.request.headLength ∧
          ∀ stop, reading.outcome = .ok (some stop) → stop ≤ reading.cells.used ∧
            ∀ start finish, Head.lineEndAt (reading.cells.row.take stop) start = .ok (some finish) →
              start ≤ finish ∧ finish ≤ stop := by
  intro first ended
  have tame : Tame terms serve := ⟨fields, bodies, requests, calm⟩
  have sound : first.cells.Sound terms.request.headLength := Cells.sound_new terms.request
  have opened : first.view = Connection.new terms source outlet memory :=
    congrArg (fun buffer => Connection.mk buffer source outlet (.new terms.response) .http11 memory)
      (Cells.held_new terms.request)
  obtain ⟨same, quiet⟩ := run_spec tame sound rfl
  refine ⟨opened ▸ same, fun message panicked => ?_, fun station reached => ?_⟩
  · exact ⟨(quiet message panicked).few_lt fields, quiet message panicked⟩
  have here := reached.sound tame sound
  have there := (here.readHead station.source).2.1
  refine ⟨here.room ▸ here.within, there.room ▸ there.within, fun stop found => ⟨here.le_of_readHead found, ?_⟩⟩
  intro start finish line
  have part := List.length_take_le stop (station.cells.readHead station.source).cells.row
  have short := List.length_take_le' stop (station.cells.readHead station.source).cells.row
  rw [Head.lineEndAt_eq (Nat.lt_of_le_of_lt short there.fits), Except.ok.injEq, Option.map_eq_some_iff] at line
  obtain ⟨length, ends, rfl⟩ := line
  have inside := Head.lineEnd?_le ends
  rw [List.length_drop] at inside
  exact ⟨Nat.le_add_right start length, by omega⟩

theorem body_write_freshWriter (buffer : ResponseBuffer) (request : Request) (limits : ResponseLimits) (content : Bytes) :
    ((buffer.freshWriter request limits).write content).state.sink.body = content := by
  simp only [ResponseBuffer.freshWriter, ResponseBuffer.reset]
  split <;> rfl

/-- A body that comes in two pieces around an interruption, in a buffer that is full before the second head is whole, and
an outlet that takes seven bytes at once and breaks within the second response. -/
theorem run_of_calm_echo :
    let terms : Terms := ⟨{}, ⟨1, 1, 14, 1, 5⟩, {}, ⟨none, false⟩, fun _ => 0⟩
    let serve : Serve ResponseBuffer Nat := fun request writer memory =>
      ⟨none, (writer.write request.body).state, memory + 1⟩
    let source : Source := [.piece (Ascii.bytes "POST / HTTP/1.1\r\nContent-Length: 5\r\n\r\nab"),
      .failure ⟨.interrupted, "again"⟩, .piece (Ascii.bytes "cdeGET / HTTP/1.1\r\n\r"), .piece (Ascii.bytes "\nGET"),
      .failure ⟨.connectionReset, "reset"⟩]
    let outlet := Outlet.limited (some 7) (some (90, ⟨.brokenPipe, "gone"⟩)) none
    let ended := (new terms source outlet 0).run terms serve
    terms.request.fieldCount ≤ Head.maxFields ∧ terms.request.bodyLength ≤ Allocation.most ∧
      terms.connection.maxRequests < UInt64.size ∧ serve.Calm terms ∧
      ended.1 = .failed ⟨.brokenPipe, "gone"⟩ ∧ ended.2.view.memory = 2 ∧
      ended.2.view.outlet.taken = Ascii.bytes ("HTTP/1.1 200 OK\r\ncontent-length: 5\r\nconnection: keep-alive\r\n\r\n" ++
        "abcdeHTTP/1.1 200 OK\r\nconten") := by
  intro terms serve source outlet ended
  have calm : serve.Calm terms := by
    intro request buffer memory allowed
    refine ⟨rfl, ?_⟩
    rw [body_write_freshWriter]
    exact Nat.le_trans allowed (by decide)
  have same := (run_of_calm terms (by decide) (by decide) (by decide) calm source outlet 0).1
  have stop := congrArg Prod.fst same
  have left := congrArg Prod.snd same
  refine ⟨by decide, by decide, by decide, calm, stop.symm.trans (by decide +kernel), ?_, ?_⟩
  · exact (congrArg Connection.memory left.symm).trans (by decide +kernel)
  · have taken : ended.2.view.outlet.taken = _ := congrArg (fun connection => connection.outlet.taken) left.symm
    rw [taken]
    decide +kernel

end Station

end HttpService
