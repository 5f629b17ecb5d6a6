import ProxyMonitor.Proofs.Live.Run

/-! The runs of a session along its clock. -/
namespace ProxyMonitor.Live
open ProxyMonitor.Poll
variable {α : Type}

/-- The moves from an instant on until another: what is next is made at once, and time passes only while nothing
is, up to what is due next. -/
inductive Clocked (start : Session α) (first : Nat) : List (Moment α) → Nat → Session α → Prop where
  | start : Clocked start first [] first start
  | ask {past : List (Moment α)} {now : Nat} {s t : Session α} :
      Clocked start first past now s → s.Asked t → Clocked start first past now t
  | make {past : List (Moment α)} {now : Nat} {s : Session α} {m : Move α} :
      Clocked start first past now s → s.next? now = some m →
        Clocked start first (past ++ [⟨s, now, m⟩]) now (s.make now m).value
  | wait {past : List (Moment α)} {now : Nat} {s : Session α} (later : Nat) :
      Clocked start first past now s → s.next? now = none → now ≤ later →
        (∀ due, s.nextDue? = some due → later ≤ due) → Clocked start first past later s

namespace Session
variable {s : Session α} {now : Nat}

/-- The timer fires when it is due, and not before. -/
theorem due?_of_next? {kind : TimerKind} (h : s.next? now = some (.event (.timer kind))) :
    s.view.scheduler.timer.due? now = some kind := by
  cases next_of_next? h with
  | timer _ _ _ due => exact due

/-- A timer that is due leaves no session idle. -/
theorem next?_of_due? {kind : TimerKind} (running : s.phase = .running)
    (due : s.view.scheduler.timer.due? now = some kind) : s.next? now ≠ none := by
  unfold next?
  rw [running, due]
  cases s.commands with
  | cons c commands => simp
  | nil => cases s.leaving <;> simp

end Session

namespace Clocked
variable {start s : Session α} {past : List (Moment α)} {first now : Nat}

theorem run (h : Clocked start first past now s) : Run start past s := by
  induction h with
  | start => exact .start
  | ask _ asked ih => exact ih.ask asked
  | make _ next ih => exact ih.make _ _ (Session.allows_of_next? next)
  | wait _ _ _ _ _ ih => exact ih

/-- The moves that a session makes at an instant are along the clock. -/
theorem settle (h : Clocked start first past now s) :
    ∃ later, Clocked start first (past ++ later) now (s.settle now).value := by
  refine Session.settle_keeps (motive := fun t => ∃ later, Clocked start first (past ++ later) now t) ?_
    ⟨[], by rw [List.append_nil]; exact h⟩
  rintro t m next ⟨later, clocked⟩
  exact ⟨later ++ [⟨t, now, m⟩], by simpa using clocked.make next⟩

end Clocked
end ProxyMonitor.Live
