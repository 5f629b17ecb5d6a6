/-! A timer with at most one deadline. Times are milliseconds of one clock. -/
namespace ProxyMonitor.Poll

/-- What a deadline ends: the quiet time after a poll was asked for, or the pause after a response. -/
inductive TimerKind where
  | debounce | cadence
deriving DecidableEq, Repr

def TimerKind.name : TimerKind → String
  | .debounce => "Debounce"
  | .cadence => "Cadence"

structure Timer where
  armed : Option (TimerKind × Nat) := none
deriving DecidableEq, Repr, Inhabited

namespace Timer

/-- Replaces whatever was pending. -/
def arm (now : Nat) (kind : TimerKind) (after : Nat) : Timer :=
  ⟨some (kind, now + after)⟩

def off : Timer :=
  ⟨none⟩

def isArmed (t : Timer) : Bool :=
  t.armed.isSome

/-- Cancels what is pending: whether anything was. -/
def clear (t : Timer) : Bool × Timer :=
  (t.isArmed, off)

def kind? (t : Timer) : Option TimerKind :=
  t.armed.map Prod.fst

def deadline? (t : Timer) : Option Nat :=
  t.armed.map Prod.snd

/-- The deadline that has passed by now. -/
def due? (t : Timer) (now : Nat) : Option TimerKind :=
  t.armed.bind fun (kind, deadline) => if deadline ≤ now then some kind else none

/-- Waits from `now` for at most `limit`: what fired, how long that took, and the timer after it. -/
def wait (t : Timer) (now limit : Nat) : Option TimerKind × Nat × Timer :=
  match t.armed with
  | some (kind, deadline) =>
    if deadline ≤ now + limit then (some kind, deadline - now, off) else (none, limit, t)
  | none => (none, limit, t)

@[simp] theorem kind?_arm (now : Nat) (kind : TimerKind) (after : Nat) :
    (arm now kind after).kind? = some kind := rfl

@[simp] theorem isArmed_arm (now : Nat) (kind : TimerKind) (after : Nat) :
    (arm now kind after).isArmed = true := rfl

theorem due?_arm (start : Nat) (kind : TimerKind) (after now : Nat) :
    (arm start kind after).due? now = if start + after ≤ now then some kind else none := rfl

@[simp] theorem kind?_off : off.kind? = none := rfl

@[simp] theorem isArmed_off : off.isArmed = false := rfl

theorem isArmed_of_kind? {t : Timer} {kind : TimerKind} (h : t.kind? = some kind) : t.isArmed = true := by
  obtain ⟨_ | armed⟩ := t
  · cases h
  · rfl

/-- A timer is due once its deadline has passed. -/
theorem due?_eq_some {t : Timer} {now : Nat} {kind : TimerKind} :
    t.due? now = some kind ↔ ∃ deadline, t.armed = some (kind, deadline) ∧ deadline ≤ now := by
  constructor
  · intro h
    obtain ⟨_ | ⟨kind', deadline⟩⟩ := t
    · cases h
    · simp only [due?, Option.bind_some] at h
      split at h
      · rename_i passed
        cases h
        exact ⟨deadline, rfl, passed⟩
      · cases h
  · rintro ⟨deadline, armed, passed⟩
    rw [due?, armed, Option.bind_some]
    exact if_pos passed

/-- A timer that is due was armed for that. -/
theorem kind?_of_due? {t : Timer} {now : Nat} {kind : TimerKind} (h : t.due? now = some kind) :
    t.kind? = some kind := by
  obtain ⟨deadline, armed, _⟩ := due?_eq_some.mp h
  rw [kind?, armed]
  rfl

end Timer
end ProxyMonitor.Poll
