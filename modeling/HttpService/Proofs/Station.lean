import HttpService.Connection
import HttpService.Proofs.Cells

/-! A connection served access by access: its buffer lies in cells, the head is read by positions, the length of the body
is written digit by digit, and the requests are counted in a word. -/

namespace HttpService

namespace ResponseBuffer

def framingOf (digits : Bytes) (keepAlive : Bool) : Bytes :=
  Ascii.bytes "content-length: " ++ digits ++ Ascii.crlf ++
    Ascii.bytes (if keepAlive then "connection: keep-alive" else "connection: close") ++ Ascii.crlf ++ Ascii.crlf

def closeHeadAt (buffer : ResponseBuffer) (keepAlive : Bool) : Except ReadFailure (Bool × ResponseBuffer) := do
  let buffer := buffer.sendHead .ok .empty
  let kept := keepAlive && !buffer.close
  let digits ← Decimal.writeWord buffer.body.length
  return (kept, { buffer with head := buffer.head ++ framingOf digits kept })

def deliver (buffer : ResponseBuffer) (kept : Bool) (outlet : Outlet) : Finished :=
  match outlet.writeAll buffer.head with
  | (.error error, outlet) => ⟨.error error, buffer, outlet⟩
  | (.ok (), outlet) =>
    match if buffer.headOnly then (.ok (), outlet) else outlet.writeAll buffer.body with
    | (.error error, outlet) => ⟨.error error, buffer, outlet⟩
    | (.ok (), outlet) =>
      match outlet.flush with
      | (.error error, outlet) => ⟨.error error, buffer, outlet⟩
      | (.ok (), outlet) => ⟨.ok kept, buffer, outlet⟩

theorem finish_eq_deliver (buffer : ResponseBuffer) (outlet : Outlet) (keepAlive : Bool) :
    buffer.finish outlet keepAlive =
      (buffer.closeHead keepAlive).2.deliver (buffer.closeHead keepAlive).1 outlet := rfl

theorem closeHeadAt_eq {buffer : ResponseBuffer} (fits : buffer.body.length ≤ Allocation.most) (keepAlive : Bool) :
    buffer.closeHeadAt keepAlive = .ok (buffer.closeHead keepAlive) := by
  have body : (buffer.sendHead .ok .empty).body = buffer.body := by
    rw [sendHead]
    split <;> rfl
  have small : buffer.body.length < Decimal.limit := Nat.lt_of_le_of_lt fits (by decide)
  simp only [closeHeadAt, body, Decimal.writeWord_eq small, closeHead]
  rfl

end ResponseBuffer

/-- A connection whose buffer lies in cells, and the number of requests that it has handed over. -/
structure Station (τ : Type) where
  cells : Cells
  source : Source
  outlet : Outlet
  response : ResponseBuffer
  version : Version
  memory : τ
  count : Nat

namespace Station

variable {τ : Type}

def new (terms : Terms) (source : Source) (outlet : Outlet) (memory : τ) : Station τ :=
  ⟨.new terms.request, source, outlet, .new terms.response, .http11, memory, 0⟩

inductive Next (τ : Type)
  | stopped (stop : Stop) (station : Station τ)
  | request (request : Request) (keepAlive : Bool) (station : Station τ)

def readBody (terms : Terms) (station : Station τ) (head : Head) (stop : Nat) : Next τ :=
  let station := { station with version := head.version }
  if head.contentLength = 0 then
    match station.cells.consume stop with
    | .error failure => .stopped (.ofFailure failure) station
    | .ok cells => .request (terms.requestOf head []) head.keepAlive { station with cells := cells }
  else
    let reading := station.cells.readBody station.source stop head.contentLength
    let station := { station with cells := reading.cells, source := reading.source }
    match reading.outcome with
    | .error failure => .stopped (.ofFailure failure) station
    | .ok body => .request (terms.requestOf head body) head.keepAlive station

def readRequest [FieldHash] (terms : Terms) (station : Station τ) : Next τ :=
  let reading := station.cells.readHead station.source
  let station := { station with cells := reading.cells, source := reading.source }
  match reading.outcome with
  | .error failure => .stopped (.ofFailure failure) station
  | .ok none => .stopped .closed station
  | .ok (some stop) =>
    match Head.readAt terms.request station.cells.row stop with
    | .error failure => .stopped (.ofFailure failure) station
    | .ok head => station.readBody terms head stop

def close (terms : Terms) (station : Station τ) (keepAlive : Bool) :
    Except ReadFailure (Nat × Bool × ResponseBuffer) := do
  let count ← Checked.add station.count 1
  let keepAlive := keepAlive && decide (count < terms.connection.maxRequests) && !terms.isTooOld (.beforeResponse count)
  let closed ← station.response.closeHeadAt keepAlive
  return (count, closed)

def answer (terms : Terms) (serve : Serve ResponseBuffer τ) (station : Station τ) (request : Request)
    (keepAlive : Bool) : Except Stop Bool × Station τ :=
  let served := serve request (station.response.freshWriter request terms.response) station.memory
  let station := { station with response := served.writer.sink, memory := served.memory }
  match served.panic with
  | some message => (.error (.panicked message), station)
  | none =>
    match station.close terms keepAlive with
    | .error failure => (.error (.ofFailure failure), station)
    | .ok (count, kept, response) =>
      let finished := response.deliver kept station.outlet
      (finished.kept.mapError .failed,
        { station with response := finished.buffer, outlet := finished.outlet, count := count })

def serveNext [FieldHash] (terms : Terms) (serve : Serve ResponseBuffer τ) (station : Station τ) :
    Except Stop Bool × Station τ :=
  match station.readRequest terms with
  | .stopped stop station => (.error stop, station)
  | .request request keepAlive station => station.answer terms serve request keepAlive

def isExpired (terms : Terms) (station : Station τ) : Bool :=
  decide (terms.connection.maxRequests ≤ station.count) || terms.isTooOld (.beforeRequest station.count)

theorem count_lt_of_not_isExpired {terms : Terms} {station : Station τ} (unexpired : ¬station.isExpired terms = true) :
    station.count < terms.connection.maxRequests ∧ terms.isTooOld (.beforeRequest station.count) = false := by
  simpa [isExpired] using unexpired

def Next.station : Next τ → Station τ
  | stopped _ station => station
  | request _ _ station => station

theorem count_readRequest [FieldHash] (terms : Terms) (station : Station τ) :
    (station.readRequest terms).station.count = station.count := by
  rw [readRequest]
  dsimp only
  split
  · rfl
  · rfl
  · split
    · rfl
    · rw [readBody]
      dsimp only
      split
      · split <;> rfl
      · split <;> rfl

theorem count_answer {terms : Terms} {serve : Serve ResponseBuffer τ} {station next : Station τ} {request : Request}
    {keepAlive kept : Bool} (answered : station.answer terms serve request keepAlive = (.ok kept, next)) :
    next.count = station.count + 1 := by
  rw [answer] at answered
  dsimp only at answered
  split at answered
  · cases (Prod.mk.inj answered).1
  · split at answered
    · cases (Prod.mk.inj answered).1
    · rename_i count kept response closed
      obtain ⟨counted, added, closed⟩ := Head.bind_eq_ok_iff.mp closed
      obtain ⟨_, _, same⟩ := Head.bind_eq_ok_iff.mp closed
      obtain ⟨rfl, _⟩ := Prod.mk.inj (Except.ok.inj same)
      rw [← (Prod.mk.inj answered).2]
      exact Checked.eq_of_add added

theorem count_serveNext [FieldHash] {terms : Terms} {serve : Serve ResponseBuffer τ} {station next : Station τ}
    {kept : Bool} (served : station.serveNext terms serve = (.ok kept, next)) : next.count = station.count + 1 := by
  have counted := station.count_readRequest terms
  rw [serveNext] at served
  split at served
  · simp at served
  · rename_i request keepAlive ready read
    rw [read] at counted
    exact counted ▸ count_answer served

def view (station : Station τ) : Connection τ :=
  ⟨station.cells.held, station.source, station.outlet, station.response, station.version, station.memory⟩

def serveAll [FieldHash] (terms : Terms) (serve : Serve ResponseBuffer τ) (station : Station τ) : Stop × Station τ :=
  if station.isExpired terms then (.closed, station)
  else
    match _ : station.serveNext terms serve with
    | (.error stop, station) => (stop, station)
    | (.ok false, station) => (.closed, station)
    | (.ok true, station) => serveAll terms serve station
termination_by terms.connection.maxRequests - station.count
decreasing_by
  have below := (count_lt_of_not_isExpired ‹¬isExpired terms _ = true›).1
  have counted := count_serveNext ‹serveNext terms serve _ = _›
  omega

def run [FieldHash] (terms : Terms) (serve : Serve ResponseBuffer τ) (station : Station τ) : Stop × Station τ :=
  match station.serveAll terms serve with
  | (.refused refusal, station) =>
    let sent := station.view.sendRefusal refusal
    (sent.1, { station with outlet := sent.2.outlet })
  | stopped => stopped

/-- The stations that stand before another request in the course of a run. -/
inductive Reaches [FieldHash] (terms : Terms) (serve : Serve ResponseBuffer τ) (first : Station τ) : Station τ → Prop
  | start : Reaches terms serve first first
  | next {station next : Station τ} (reached : Reaches terms serve first station)
    (unexpired : ¬station.isExpired terms = true) (served : station.serveNext terms serve = (.ok true, next)) :
    Reaches terms serve first next

end Station

end HttpService
