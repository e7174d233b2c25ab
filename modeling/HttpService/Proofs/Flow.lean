import HttpService.Sink.Buffer

/-! Writing to a stream that never refuses a byte: how much it takes in one write makes no difference. -/

namespace HttpService

namespace Outlet

/-- A stream that takes at least one byte in every write. -/
def Flows (outlet : Outlet) : Prop := ∀ taken, ∃ more, outlet.policy taken = .ok (more + 1)

theorem flows_unlimited : unlimited.Flows := fun _ => ⟨UInt64.size - 1, rfl⟩

theorem accept_of_flows {policy : Nat → Except IoError Nat}
    (flows : ∀ taken, ∃ more, policy taken = .ok (more + 1)) (taken left : Nat) :
    accept policy taken left = (taken + left, .ok ()) := by
  induction left using Nat.strongRecOn generalizing taken with
  | ind left ih =>
      rw [accept]
      by_cases done : left = 0
      · simp [done]
      · obtain ⟨more, takes⟩ := flows taken
        simp only [done, ↓reduceIte, takes]
        rw [ih (left - (more + 1)) (by omega)]
        congr 1
        omega

def extend (outlet : Outlet) (content : Bytes) : Outlet := { outlet with taken := outlet.taken ++ content }

theorem Flows.extend {outlet : Outlet} (flows : outlet.Flows) (content : Bytes) :
    (outlet.extend content).Flows := flows

theorem extend_extend (outlet : Outlet) (first second : Bytes) :
    (outlet.extend first).extend second = outlet.extend (first ++ second) := by
  simp [Outlet.extend]

theorem writeAll_of_flows {outlet : Outlet} (flows : outlet.Flows) (content : Bytes) :
    outlet.writeAll content = (.ok (), outlet.extend content) := by
  simp [writeAll, accept_of_flows flows, Outlet.extend]

theorem flush_of_none {outlet : Outlet} (flushes : outlet.flushFailure 0 = none) : outlet.flush.1 = .ok () := by
  simp only [flush, flushes]

theorem flush_of_some {outlet : Outlet} {error : IoError} (failing : outlet.flushFailure 0 = some error) :
    outlet.flush.1 = .error error := by
  simp only [flush, failing]

end Outlet

namespace ResponseBuffer

def content (buffer : ResponseBuffer) : Bytes := buffer.head ++ if buffer.headOnly then [] else buffer.body

theorem finish_of_taken {outlet : Outlet} (buffer : ResponseBuffer) (keepAlive : Bool)
    (head : outlet.writeAll (buffer.closeHead keepAlive).2.head =
      (.ok (), outlet.extend (buffer.closeHead keepAlive).2.head))
    (body : (buffer.closeHead keepAlive).2.headOnly = false →
      (outlet.extend (buffer.closeHead keepAlive).2.head).writeAll (buffer.closeHead keepAlive).2.body =
        (.ok (), (outlet.extend (buffer.closeHead keepAlive).2.head).extend (buffer.closeHead keepAlive).2.body)) :
    buffer.finish outlet keepAlive =
      ⟨outlet.flush.1.map fun _ => (buffer.closeHead keepAlive).1, (buffer.closeHead keepAlive).2,
        (outlet.extend (buffer.closeHead keepAlive).2.content).flush.2⟩ := by
  generalize closedEq : buffer.closeHead keepAlive = closed at head body
  obtain ⟨kept, closed⟩ := closed
  have written : (if closed.headOnly then (.ok (), outlet.extend closed.head)
      else (outlet.extend closed.head).writeAll closed.body) = (.ok (), outlet.extend closed.content) := by
    cases headOnly : closed.headOnly with
    | true => simp [content, headOnly]
    | false => simp [content, headOnly, body headOnly, Outlet.extend_extend]
  have same : outlet.flush.1 = (outlet.extend closed.content).flush.1 := rfl
  rw [same]
  generalize flushedEq : (outlet.extend closed.content).flush = flushed
  obtain ⟨error | done, after⟩ := flushed <;>
    simp only [finish, closedEq, head, written, flushedEq, Except.map]

theorem finish_of_flows {outlet : Outlet} (flows : outlet.Flows) (buffer : ResponseBuffer) (keepAlive : Bool) :
    buffer.finish outlet keepAlive =
      ⟨outlet.flush.1.map fun _ => (buffer.closeHead keepAlive).1, (buffer.closeHead keepAlive).2,
        (outlet.extend (buffer.closeHead keepAlive).2.content).flush.2⟩ := by
  apply finish_of_taken
  · exact Outlet.writeAll_of_flows flows _
  · intro _
    exact Outlet.writeAll_of_flows (flows.extend _) _

end ResponseBuffer

end HttpService
