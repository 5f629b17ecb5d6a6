import Mathlib.Algebra.GroupWithZero.Nat
import Mathlib.Data.List.Basic
import Mathlib.Data.List.Induction
import ProxyMonitor.Poll.Timer
import ProxyMonitor.Proofs.Past

/-! A timer that is armed, cleared and waited for, in any order and at any time. What a wait comes to is said by what was
done before: the last arming counts, until the timer is cleared or has fired. -/
namespace ProxyMonitor.Poll.Timer

/-- What is done with a timer: it is armed, or cleared, or waited for, at most so long. -/
inductive Action where
  | arm (kind : TimerKind) (after : Nat)
  | clear
  | wait (limit : Nat)
deriving DecidableEq, Repr

/-- An action, when it began and ended, what fired, and the timer that it left. -/
structure Moment where
  time : Nat
  action : Action
  fired : Option TimerKind := none
  ended : Nat := time
  left : Timer
deriving DecidableEq, Repr

namespace Moment

def isArm (m : Moment) : Bool :=
  match m.action with
  | .arm .. => true
  | _ => false

/-- A wait that was given up. -/
def isQuiet (m : Moment) : Bool :=
  match m.action with
  | .wait _ => m.fired.isNone
  | _ => false

theorem fired_of_isQuiet {m : Moment} (quiet : m.isQuiet = true) : m.fired = none := by
  unfold isQuiet at quiet
  split at quiet
  · simpa using quiet
  · cases quiet

end Moment

variable {t : Timer} {first now start limit deadline : Nat} {kind : TimerKind} {past earlier later : List Moment}
  {m : Moment}

def act (t : Timer) (now : Nat) : Action → Moment
  | .arm kind after => { time := now, action := .arm kind after, left := .arm now kind after }
  | .clear => { time := now, action := .clear, left := t.clear.2 }
  | .wait limit =>
    let (fired, ms, left) := t.wait now limit
    { time := now, action := .wait limit, fired, ended := now + ms, left }

/-- What a timer has come to that was off at first: no action begins before the one before it has ended. -/
inductive Used (first : Nat) : List Moment → Nat → Timer → Prop where
  | start : Used first [] first off
  | act {past : List Moment} {now : Nat} {t : Timer} (time : Nat) (action : Action) :
      Used first past now t → now ≤ time →
        Used first (past ++ [t.act time action]) (t.act time action).ended (t.act time action).left

/-- The deadline of the last arming, while the timer was neither cleared nor fired since. -/
def Pending (past : List Moment) (kind : TimerKind) (deadline : Nat) : Prop :=
  ∃ earlier m later after, past = earlier ++ m :: later ∧ m.action = .arm kind after ∧ deadline = m.time + after ∧
    ∀ n ∈ later, n.isQuiet = true

theorem wait_reached (armed : t.armed = some (kind, deadline)) (reached : deadline ≤ start + limit) :
    t.wait start limit = (some kind, deadline - start, off) := by
  rw [wait, armed]
  exact if_pos reached

theorem wait_given_up (early : ∀ kind deadline, t.armed = some (kind, deadline) → start + limit < deadline) :
    t.wait start limit = (none, limit, t) := by
  cases armed : t.armed with
  | none => rw [wait, armed]
  | some pending =>
    obtain ⟨kind, deadline⟩ := pending
    have later := early kind deadline armed
    rw [wait, armed]
    exact if_neg (by omega)

/-- A wait comes to one of two ends. -/
theorem wait_cases (t : Timer) (start limit : Nat) :
    (∃ kind deadline, t.armed = some (kind, deadline) ∧ deadline ≤ start + limit ∧
      t.wait start limit = (some kind, deadline - start, off)) ∨
    (∀ kind deadline, t.armed = some (kind, deadline) → start + limit < deadline) ∧
      t.wait start limit = (none, limit, t) := by
  by_cases reached : ∃ kind deadline, t.armed = some (kind, deadline) ∧ deadline ≤ start + limit
  · obtain ⟨kind, deadline, armed, reached⟩ := reached
    exact .inl ⟨kind, deadline, armed, reached, wait_reached armed reached⟩
  · have early : ∀ kind deadline, t.armed = some (kind, deadline) → start + limit < deadline :=
      fun kind deadline armed => Nat.lt_of_not_le fun passed => reached ⟨kind, deadline, armed, passed⟩
    exact .inr ⟨early, wait_given_up early⟩

theorem pending_concat : Pending (past ++ [m]) kind deadline ↔
    (∃ after, m.action = .arm kind after ∧ deadline = m.time + after) ∨ Pending past kind deadline ∧ m.isQuiet = true := by
  constructor
  · rintro ⟨earlier, armed, later, after, split, arms, due, quiet⟩
    rcases split_concat split with ⟨rfl, rfl, rfl⟩ | ⟨later, rfl, rfl⟩
    · exact .inl ⟨after, arms, due⟩
    · exact .inr ⟨⟨earlier, armed, later, after, rfl, arms, due, fun n hn => quiet n (List.mem_append_left _ hn)⟩,
        quiet m (List.mem_append_right _ (List.mem_singleton.mpr rfl))⟩
  · rintro (⟨after, arms, due⟩ | ⟨⟨earlier, armed, later, after, rfl, arms, due, quiet⟩, calm⟩)
    · exact ⟨past, m, [], after, rfl, arms, due, nofun⟩
    · refine ⟨earlier, armed, later ++ [m], after, by simp, arms, due, fun n hn => ?_⟩
      rcases List.mem_append.mp hn with hn | hn
      · exact quiet n hn
      · rw [List.mem_singleton.mp hn]
        exact calm

theorem act_arm (t : Timer) (time : Nat) (kind : TimerKind) (after : Nat) :
    t.act time (.arm kind after) = { time, action := .arm kind after, left := ⟨some (kind, time + after)⟩ } := rfl

theorem act_clear (t : Timer) (time : Nat) : t.act time .clear = { time, action := .clear, left := off } := rfl

theorem act_wait (t : Timer) (time limit : Nat) :
    t.act time (.wait limit) =
      { time, action := .wait limit, fired := (t.wait time limit).1, ended := time + (t.wait time limit).2.1,
        left := (t.wait time limit).2.2 } := rfl

theorem act_time (t : Timer) (time : Nat) (action : Action) : (t.act time action).time = time := by
  cases action <;> rfl

theorem act_action (t : Timer) (time : Nat) (action : Action) : (t.act time action).action = action := by
  cases action <;> rfl

/-- What is pending in a timer is what its past says. -/
theorem Used.armed_iff (used : Used first past now t) : t.armed = some (kind, deadline) ↔ Pending past kind deadline := by
  induction used generalizing kind deadline with
  | start =>
    refine ⟨nofun, ?_⟩
    rintro ⟨earlier, m, later, after, split, _⟩
    exact absurd split (by simp)
  | @act past now t time action _ _ ih =>
    rw [pending_concat, ← ih]
    cases action with
    | arm other after =>
      rw [act_arm]
      refine ⟨fun armed => .inl ?_, ?_⟩
      · cases armed
        exact ⟨after, rfl, rfl⟩
      · rintro (⟨after, arms, rfl⟩ | ⟨_, quiet⟩)
        · cases arms
          rfl
        · cases quiet
    | clear =>
      rw [act_clear]
      refine ⟨nofun, ?_⟩
      rintro (⟨after, arms, _⟩ | ⟨_, quiet⟩)
      · cases arms
      · cases quiet
    | wait limit =>
      rw [act_wait]
      rcases wait_cases t time limit with ⟨other, due, armed, _, fired⟩ | ⟨_, kept⟩
      · simp [fired, off, Moment.isQuiet]
      · simp [kept, Moment.isQuiet]

/-- What is pending after actions that arm nothing was pending before them, and none of them ended it. -/
theorem Pending.before {between : List Moment} (h : Pending (past ++ between) kind deadline)
    (unarmed : ∀ n ∈ between, n.isArm = false) : Pending past kind deadline ∧ ∀ n ∈ between, n.isQuiet = true := by
  induction between using List.reverseRecOn with
  | nil => exact ⟨by simpa using h, nofun⟩
  | append_singleton between last ih =>
    rw [← List.append_assoc, pending_concat] at h
    rcases h with ⟨after, arms, _⟩ | ⟨h, quiet⟩
    · have armed := unarmed last (by simp)
      simp [Moment.isArm, arms] at armed
    · obtain ⟨pending, calm⟩ := ih h fun n hn => unarmed n (List.mem_append_left _ hn)
      refine ⟨pending, fun n hn => ?_⟩
      rcases List.mem_append.mp hn with hn | hn
      · exact calm n hn
      · rw [List.mem_singleton.mp hn]
        exact quiet

namespace Used

/-- Every moment is an action on what the ones before it have left. -/
theorem moment (used : Used first past now t) (split : past = earlier ++ m :: later) :
    ∃ before left, Used first earlier before left ∧ m = left.act m.time m.action := by
  induction used generalizing later with
  | start => exact absurd split (by simp)
  | @act past now t time action used _ ih =>
    rcases split_concat split with ⟨rfl, rfl, rfl⟩ | ⟨later, rfl, rfl⟩
    · exact ⟨now, t, used, by rw [act_time, act_action]⟩
    · exact ih rfl

/-- A wait that ends with the timer ends what was pending, at its deadline if that had not passed before. -/
theorem fires (used : Used first past now t) (split : past = earlier ++ m :: later) (fired : m.fired = some kind) :
    ∃ deadline, Pending earlier kind deadline ∧ m.ended = max deadline m.time := by
  obtain ⟨before, left, used, shape⟩ := used.moment split
  cases action : m.action with
  | arm other after =>
    rw [shape, action] at fired
    cases fired
  | clear =>
    rw [shape, action] at fired
    cases fired
  | wait limit =>
    rw [action, act_wait] at shape
    rcases wait_cases left m.time limit with ⟨other, deadline, armed, _, ends⟩ | ⟨_, givenUp⟩
    · rw [ends] at shape
      rw [shape] at fired
      cases fired
      refine ⟨deadline, used.armed_iff.mp armed, ?_⟩
      have ended : m.ended = m.time + (deadline - m.time) := congrArg Moment.ended shape
      omega
    · rw [givenUp] at shape
      rw [shape] at fired
      cases fired

/-- Without an arming in between, a timer fires only once. -/
theorem fires_once {between : List Moment} (used : Used first past now t) (split : past = earlier ++ (between ++ later))
    (unarmed : ∀ n ∈ between, n.isArm = false) : between.countP (·.fired.isSome) ≤ 1 := by
  induction between using List.reverseRecOn generalizing later with
  | nil => exact Nat.zero_le 1
  | append_singleton between last ih =>
    have unarmed' : ∀ n ∈ between, n.isArm = false := fun n hn => unarmed n (List.mem_append_left _ hn)
    rw [List.append_assoc] at split
    rw [List.countP_append, List.countP_singleton]
    cases fired : last.fired with
    | none => simpa [fired] using ih split unarmed'
    | some kind =>
      rw [← List.append_assoc] at split
      obtain ⟨deadline, pending, _⟩ := used.fires split fired
      have quiet := (pending.before unarmed').2
      have none : between.countP (·.fired.isSome) = 0 :=
        List.countP_eq_zero.mpr fun n hn => by simp [Moment.fired_of_isQuiet (quiet n hn)]
      simp [none]

/-- What fires after an arming is the deadline of that one, until the next. -/
theorem fires_last {between : List Moment} {a : Moment} {after : Nat} {other : TimerKind} (used : Used first past now t)
    (split : past = earlier ++ a :: (between ++ later)) (arms : a.action = .arm kind after)
    (unarmed : ∀ n ∈ between, n.isArm = false) (hm : m ∈ between) (fired : m.fired = some other) :
    other = kind ∧ m.ended = max (a.time + after) m.time := by
  obtain ⟨front, back, rfl⟩ := List.append_of_mem hm
  have split : past = (earlier ++ [a] ++ front) ++ m :: (back ++ later) := by simp [split]
  obtain ⟨deadline, pending, ended⟩ := used.fires split fired
  have pending := (pending.before fun n hn => unarmed n (List.mem_append_left _ hn)).1
  rcases pending_concat.mp pending with ⟨after', arms', rfl⟩ | ⟨_, quiet⟩
  · rw [arms] at arms'
    cases arms'
    exact ⟨rfl, ended⟩
  · simp [Moment.isQuiet, arms] at quiet

/-- Nothing fires between a clearing and the next arming. -/
theorem unfired_of_clear {between : List Moment} {c : Moment} (used : Used first past now t)
    (split : past = earlier ++ c :: (between ++ later)) (clears : c.action = .clear)
    (unarmed : ∀ n ∈ between, n.isArm = false) (hm : m ∈ between) : m.fired = none := by
  obtain ⟨front, back, rfl⟩ := List.append_of_mem hm
  have split : past = (earlier ++ [c] ++ front) ++ m :: (back ++ later) := by simp [split]
  cases fired : m.fired with
  | none => rfl
  | some kind =>
    obtain ⟨deadline, pending, _⟩ := used.fires split fired
    have pending := (pending.before fun n hn => unarmed n (List.mem_append_left _ hn)).1
    rcases pending_concat.mp pending with ⟨after, arms, _⟩ | ⟨_, quiet⟩
    · rw [clears] at arms
      cases arms
    · simp [Moment.isQuiet, clears] at quiet

end Used

/-- Waits one after the other until the timer fires: what fired, how long that took, and the timer after it. -/
def waitAll (t : Timer) (now : Nat) : List Nat → Option TimerKind × Nat × Timer
  | [] => (none, 0, t)
  | limit :: limits =>
    match t.wait now limit with
    | (some kind, ms, left) => (some kind, ms, left)
    | (none, ms, left) =>
      let (fired, more, last) := left.waitAll (now + ms) limits
      (fired, ms + more, last)

/-- Waits one after the other are one wait. -/
theorem waitAll_eq_wait (t : Timer) (start limit : Nat) (limits : List Nat) :
    t.waitAll start (limit :: limits) = t.wait start (limit + limits.sum) := by
  induction limits generalizing start limit with
  | nil =>
    rw [waitAll, List.sum_nil, Nat.add_zero]
    rcases wait_cases t start limit with ⟨kind, deadline, _, _, ends⟩ | ⟨_, givenUp⟩
    · rw [ends]
    · rw [givenUp]
      rfl
  | cons next limits ih =>
    rw [waitAll, List.sum_cons]
    rcases wait_cases t start limit with ⟨kind, deadline, armed, reached, ends⟩ | ⟨early, givenUp⟩
    · rw [ends, wait_reached armed (by omega)]
    · rw [givenUp]
      simp only [ih]
      rcases wait_cases t (start + limit) (next + limits.sum) with ⟨kind, deadline, armed, reached, ends⟩ | ⟨early, later⟩
      · have passed := early kind deadline armed
        have taken : limit + (deadline - (start + limit)) = deadline - start := by omega
        rw [ends, wait_reached armed (by omega)]
        simp only [taken]
      · rw [later, wait_given_up fun kind deadline armed => by have := early kind deadline armed; omega]

/-- After so long, the timer is due for the first time. -/
def FirstDue (t : Timer) (start ms : Nat) (kind : TimerKind) : Prop :=
  t.due? (start + ms) = some kind ∧ ∀ sooner < ms, t.due? (start + sooner) = none

theorem firstDue_iff {ms : Nat} :
    t.FirstDue start ms kind ↔ ∃ deadline, t.armed = some (kind, deadline) ∧ ms = deadline - start := by
  constructor
  · rintro ⟨due, first⟩
    obtain ⟨deadline, armed, passed⟩ := due?_eq_some.mp due
    refine ⟨deadline, armed, ?_⟩
    by_contra differs
    have sooner := first (deadline - start) (by omega)
    have ripe : t.due? (start + (deadline - start)) = some kind := due?_eq_some.mpr ⟨deadline, armed, by omega⟩
    rw [ripe] at sooner
    cases sooner
  · rintro ⟨deadline, armed, rfl⟩
    refine ⟨due?_eq_some.mpr ⟨deadline, armed, by omega⟩, fun sooner early => ?_⟩
    rw [due?, armed, Option.bind_some]
    exact if_neg (by omega)

/-- A wait sees what is seen by asking at each instant whether the timer is due. -/
theorem wait_eq_some_iff {ms : Nat} :
    (∃ left, t.wait start limit = (some kind, ms, left)) ↔ ms ≤ limit ∧ t.FirstDue start ms kind := by
  rw [firstDue_iff]
  rcases wait_cases t start limit with ⟨other, deadline, armed, reached, ends⟩ | ⟨early, givenUp⟩
  · rw [ends, armed]
    constructor
    · rintro ⟨_, ⟨⟩⟩
      exact ⟨by omega, deadline, rfl, rfl⟩
    · rintro ⟨_, _, ⟨⟩, rfl⟩
      exact ⟨off, rfl⟩
  · rw [givenUp]
    refine ⟨nofun, ?_⟩
    rintro ⟨within, deadline, armed, rfl⟩
    have later := early kind deadline armed
    omega

/-- Waits are exact, and giving one up loses nothing. Whatever was done with a timer before, a wait ends with it if and
only if the last arming, neither cleared nor fired since, has its deadline within the limit; then it yields the kind of
that arming at the deadline, or at once if that has passed, and leaves the timer off, and otherwise it leaves the timer
as it is. Between an arming and the next one the timer fires at most once, as it was armed then, and after a clearing
not at all. Waits one after the other are as one that is as long, and a wait ends at the first instant at which the
timer is due. -/
theorem waits_exact (used : Used first past now t) :
    (∀ start limit,
      (∀ kind deadline, Pending past kind deadline → deadline ≤ start + limit →
        ∃ ms, t.wait start limit = (some kind, ms, off) ∧ start + ms = max deadline start) ∧
      ((∀ kind deadline, Pending past kind deadline → start + limit < deadline) →
        t.wait start limit = (none, limit, t))) ∧
    (∀ earlier a between later kind after, past = earlier ++ a :: (between ++ later) → a.action = .arm kind after →
      (∀ n ∈ between, n.isArm = false) →
        between.countP (·.fired.isSome) ≤ 1 ∧
        ∀ m ∈ between, ∀ other, m.fired = some other → other = kind ∧ m.ended = max (a.time + after) m.time) ∧
    (∀ earlier c between later, past = earlier ++ c :: (between ++ later) → c.action = .clear →
      (∀ n ∈ between, n.isArm = false) → ∀ m ∈ between, m.fired = none) ∧
    (∀ start limit limits, t.waitAll start (limit :: limits) = t.wait start (limit + limits.sum)) ∧
    ∀ start limit kind ms, (∃ left, t.wait start limit = (some kind, ms, left)) ↔ ms ≤ limit ∧ t.FirstDue start ms kind := by
  refine ⟨fun start limit => ⟨fun kind deadline pending reached => ?_, fun early => ?_⟩, ?_, ?_, t.waitAll_eq_wait,
    fun _ _ _ _ => wait_eq_some_iff⟩
  · exact ⟨deadline - start, wait_reached (used.armed_iff.mpr pending) reached, by omega⟩
  · exact wait_given_up fun kind deadline armed => early kind deadline (used.armed_iff.mp armed)
  · intro earlier a between later kind after split arms unarmed
    have apart : past = earlier ++ [a] ++ (between ++ later) := by simp [split]
    exact ⟨used.fires_once apart unarmed, fun m hm other fired => used.fires_last split arms unarmed hm fired⟩
  · intro earlier c between later split clears unarmed m hm
    exact used.unfired_of_clear split clears unarmed hm

namespace Rearmed

/-- The timer is armed again before its deadline, and a wait is given up before the new one. -/
def givenUp : List Moment :=
  [{ time := 0, action := .arm .cadence 10, left := ⟨some (.cadence, 10)⟩ },
    { time := 2, action := .arm .debounce 5, left := ⟨some (.debounce, 7)⟩ },
    { time := 3, action := .wait 3, ended := 6, left := ⟨some (.debounce, 7)⟩ }]

theorem used_givenUp : Used 0 givenUp 6 ⟨some (.debounce, 7)⟩ :=
  ((Used.start.act 0 (.arm .cadence 10) (by decide)).act 2 (.arm .debounce 5) (by decide)).act 3 (.wait 3) (by decide)

/-- It fires while nobody waits, and yields that later; then it is cleared. -/
def ended : List Moment :=
  givenUp ++ [{ time := 9, action := .wait 0, fired := some .debounce, left := off }] ++
    [{ time := 9, action := .clear, left := off }] ++ [{ time := 9, action := .wait 5, ended := 14, left := off }]

theorem used_ended : Used 0 ended 14 off :=
  ((used_givenUp.act 9 (.wait 0) (by decide)).act 9 .clear (by decide)).act 9 (.wait 5) (by decide)

end Rearmed

/-- The deadline counts that was set last, at the very limit of a wait, and after the wait was given up. -/
theorem waits_exact_rearmed :
    Pending Rearmed.givenUp .debounce 7 ∧
    (∃ ms, (⟨some (.debounce, 7)⟩ : Timer).wait 6 1 = (some .debounce, ms, off) ∧ 6 + ms = max 7 6) ∧
    (⟨some (.debounce, 7)⟩ : Timer).waitAll 3 [3, 0, 9] = (⟨some (.debounce, 7)⟩ : Timer).wait 3 12 ∧
    (Rearmed.ended.drop 2).countP (·.fired.isSome) ≤ 1 ∧
    (∀ m ∈ Rearmed.ended.drop 5, m.fired = none) := by
  have pending : Pending Rearmed.givenUp .debounce 7 := Rearmed.used_givenUp.armed_iff.mp rfl
  obtain ⟨waits, _, _, split, _⟩ := waits_exact Rearmed.used_givenUp
  obtain ⟨_, once, cleared, _, _⟩ := waits_exact Rearmed.used_ended
  refine ⟨pending, (waits 6 1).1 .debounce 7 pending (by decide), split 3 3 [0, 9], ?_, ?_⟩
  · exact (once (Rearmed.ended.take 1) _ (Rearmed.ended.drop 2) [] .debounce 5 rfl rfl (by decide)).1
  · exact cleared (Rearmed.ended.take 4) _ (Rearmed.ended.drop 5) [] rfl rfl (by decide)

end ProxyMonitor.Poll.Timer
