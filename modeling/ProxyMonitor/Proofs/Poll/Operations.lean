import ProxyMonitor.Proofs.Poll.Settled

/-! A scheduler by itself: the operations on it, in any order and with any arguments, and what it says to each.
Once it was shut down, it says no to all of them. -/
namespace ProxyMonitor.Poll

inductive Operation where
  | requestPoll (now : Nat)
  | timerFired (kind : TimerKind)
  | beginFetch (filter : String)
  | response (now : Nat) (tag : Tag) (current : String) (failure : Option String)
  | pause | resume | shutdown
deriving DecidableEq, Repr

namespace Operation

/-- A request goes out, which is for the caller to decide. -/
def begins : Operation → Bool
  | .beginFetch _ => true
  | _ => false

end Operation

/-- What a scheduler says to an operation: whether a request goes out now, and what becomes of a response. -/
structure Verdict where
  go : Bool := false
  disposition : Option Disposition := none
deriving DecidableEq, Repr

namespace Scheduler

def perform (s : Scheduler) : Operation → Verdict × Scheduler
  | .requestPoll now => ({}, s.requestPoll now)
  | .timerFired kind =>
    let (go, s) := (s.timerFired kind).value
    ({ go }, s)
  | .beginFetch filter => ({}, (s.beginFetch filter).2)
  | .response now tag current failure =>
    let (disposition, go, s) := (s.response now tag current failure).value
    ({ go, disposition := some disposition }, s)
  | .pause => ({}, s.pause)
  | .resume =>
    let (go, s) := s.resume
    ({ go }, s)
  | .shutdown => ({}, s.shutdown)

/-- The verdicts on the operations, one after the other, and the scheduler that they lead to. -/
def performAll (s : Scheduler) : List Operation → List Verdict × Scheduler
  | [] => ([], s)
  | operation :: operations =>
    let (verdict, s) := s.perform operation
    let (verdicts, s) := s.performAll operations
    (verdict :: verdicts, s)

/-- A scheduler that was shut down after so many requests. -/
structure Down (lastSeq : Nat) (s : Scheduler) : Prop where
  ended : s.tornDown = true
  state : s.state = .idle
  timer : s.timer = .off
  seq : s.lastSeq = lastSeq

theorem down_shutdown (s : Scheduler) : s.shutdown.Down s.lastSeq :=
  ⟨rfl, rfl, rfl, rfl⟩

namespace Down
variable {s : Scheduler} {lastSeq : Nat}

theorem isDeaf (h : s.Down lastSeq) : s.isDeaf = true := by
  simp [Scheduler.isDeaf, h.ended]

/-- Only the request that is waited for may still be forgotten. -/
theorem response (h : s.Down lastSeq) (now : Nat) (tag : Tag) (current : String) (failure : Option String) :
    (s.response now tag current failure).value.2.1 = false ∧
      (s.response now tag current failure).value.2.2.Down lastSeq := by
  by_cases out : s.inFlight = some tag
  · have discarded : (s.response now tag current failure).value =
        (.discardTornDown, false, { s with inFlight := none }) := by
      simp [Scheduler.response, out, h.ended]
    rw [discarded]
    exact ⟨rfl, h.ended, h.state, h.timer, h.seq⟩
  · rw [response_unknown out]
    exact ⟨rfl, h⟩

theorem perform (h : s.Down lastSeq) {operation : Operation} (begun : operation.begins = false) :
    (s.perform operation).1.go = false ∧ (s.perform operation).1.disposition ≠ some .apply ∧
      (s.perform operation).1.disposition ≠ some .fail ∧ (s.perform operation).2.Down lastSeq := by
  cases operation with
  | requestPoll now =>
    refine ⟨rfl, by simp [Scheduler.perform], by simp [Scheduler.perform], ?_⟩
    rw [Scheduler.perform, requestPoll_deaf h.isDeaf]
    exact h
  | timerFired kind =>
    rw [Scheduler.perform, timerFired_deaf h.isDeaf]
    exact ⟨rfl, by simp, by simp, h⟩
  | beginFetch => cases begun
  | response now tag current failure =>
    obtain ⟨wait, down⟩ := h.response now tag current failure
    obtain ⟨unapplied, unfailed⟩ : (s.response now tag current failure).value.1 ≠ .apply ∧
        (s.response now tag current failure).value.1 ≠ .fail := response_discarded (.inl h.isDeaf)
    exact ⟨wait, by simpa [Scheduler.perform] using unapplied, by simpa [Scheduler.perform] using unfailed, down⟩
  | pause =>
    have still : s.pause = s := by simp [Scheduler.pause, h.ended]
    rw [Scheduler.perform, still]
    exact ⟨rfl, by simp, by simp, h⟩
  | resume =>
    have still : s.resume = (false, s) := by simp [Scheduler.resume, h.ended]
    rw [Scheduler.perform, still]
    exact ⟨rfl, by simp, by simp, h⟩
  | shutdown => exact ⟨rfl, by simp [Scheduler.perform], by simp [Scheduler.perform], rfl, rfl, rfl, h.seq⟩

/-- No sequence of operations wakes it, unless a request goes out that it did not ask for. -/
theorem performAll (h : s.Down lastSeq) {operations : List Operation}
    (begun : ∀ operation ∈ operations, operation.begins = false) :
    (∀ verdict ∈ (s.performAll operations).1,
      verdict.go = false ∧ verdict.disposition ≠ some .apply ∧ verdict.disposition ≠ some .fail) ∧
    (s.performAll operations).2.Down lastSeq := by
  induction operations generalizing s with
  | nil =>
    refine ⟨fun verdict none => ?_, h⟩
    cases none
  | cons operation operations ih =>
    obtain ⟨wait, unapplied, unfailed, down⟩ := h.perform (begun operation List.mem_cons_self)
    obtain ⟨waits, last⟩ := ih down fun later hl => begun later (List.mem_cons_of_mem _ hl)
    refine ⟨fun verdict hv => ?_, last⟩
    rcases List.mem_cons.mp hv with rfl | hv
    · exact ⟨wait, unapplied, unfailed⟩
    · exact waits verdict hv

end Down
end Scheduler
end ProxyMonitor.Poll
