import ProxyMonitor.Proofs.Poll.Rest

/-! The polls that a scheduler owes: what each step adds to them, and what it pays off. -/
namespace ProxyMonitor.Poll.Scheduler
variable {s : Scheduler} {now : Nat} {tag : Tag} {current : String} {failure : Option String}

/-- The polls that come without being asked for again: the timed one, and the one behind a request. -/
def pending (s : Scheduler) : Nat :=
  s.timer.isArmed.toNat + s.queued.toNat

/-- What is owed after a step: a request that goes out at once is one poll, and serves all that were pending. -/
def owed (go : Bool) (s : Scheduler) : Nat :=
  if go then 1 else s.pending

@[simp] theorem owed_true (s : Scheduler) : owed true s = 1 := rfl

@[simp] theorem owed_false (s : Scheduler) : owed false s = s.pending := rfl

@[simp] theorem beginFetch_pending (s : Scheduler) (filter : String) : (s.beginFetch filter).2.pending = 0 := rfl

theorem pause_pending (alive : s.tornDown = false) : s.pause.pending = 0 := by
  rw [pause_alive alive]
  rfl

theorem pending_unarmed (armed : s.timer.isArmed = true) :
    s.pending = { s with timer := .off }.pending + 1 := by
  simp only [pending, armed, Timer.isArmed_off, Bool.toNat_true, Bool.toNat_false]
  omega

/-- A poll that is asked for replaces the timed one. -/
theorem requestPoll_pending (s : Scheduler) (now : Nat) : (s.requestPoll now).pending ≤ s.pending + 1 := by
  cases hd : s.isDeaf with
  | true => rw [requestPoll_deaf hd]; omega
  | false =>
    rw [requestPoll_awake hd]
    simp only [pending, Timer.isArmed_arm, Bool.toNat_true]
    omega

/-- The poll that came due goes out or is queued, but for a pause. -/
theorem timerFired_owed (s : Scheduler) (kind : TimerKind) :
    owed (s.timerFired kind).value.1 (s.timerFired kind).value.2 ≤ s.pending + 1 := by
  cases hd : s.isDeaf with
  | true =>
    rw [timerFired_deaf hd, owed_false]
    exact Nat.le_succ _
  | false =>
    cases hf : s.inFlight with
    | some tag =>
      rw [timerFired_loading hd (by simp [hf]), owed_false]
      simp only [pending, Bool.toNat_true]
      omega
    | none => rw [timerFired_waiting hd hf, owed_true]; omega

/-- The end of a pause is one poll: it goes out, or waits behind the request that is still out. -/
theorem Settled.resume_owed (h : s.Settled current) (hp : s.paused = true) :
    owed s.resume.1 s.resume.2 = 1 := by
  cases h with
  | paused alive _ _ timer =>
    cases hf : s.inFlight with
    | none => rw [resume_waiting alive hp hf, owed_true]
    | some tag =>
      rw [resume_loading alive hp (by simp [hf]), owed_false]
      simp [pending, timer]
  | loading _ awake | scheduled _ awake | failed _ awake => simp [awake] at hp

/-- The poll that was queued pays for the request that goes out instead. -/
theorem owed_queued_le {next : Scheduler} {extra : Nat}
    (waits : s.queued = false → next.pending ≤ s.pending + extra) :
    owed s.queued next ≤ s.pending + extra := by
  cases hq : s.queued with
  | true =>
    have queued : 1 ≤ s.pending := by simp [pending, hq]
    rw [owed_true]
    omega
  | false => exact waits hq

/-- Only a result that counts makes a new poll due. -/
theorem Settled.response_owed (h : s.Settled current) (out : s.inFlight = some tag) :
    owed (s.response now tag current failure).value.2.1 (s.response now tag current failure).value.2.2 ≤
      s.pending + (!s.isDeaf && tag.filter == current && failure.isNone).toNat := by
  cases h with
  | paused alive asleep =>
    rw [response_paused out alive asleep, owed_false]
    exact Nat.le_add_right _ _
  | scheduled _ _ free | failed _ _ free => simp [free] at out
  | loading alive awake tag' out' state timer follows =>
    by_cases hc : tag.filter = current
    · cases failure with
      | none =>
        rw [response_ok out alive awake hc]
        refine owed_queued_le fun _ => ?_
        have fresh : (!s.isDeaf && tag.filter == current) = true := by simp [isDeaf, alive, awake, hc]
        have timed :=
          Bool.toNat_le (if s.timer.isArmed then s.timer else .arm now .cadence s.schedule.cadence).isArmed
        simp only [pending, fresh, Bool.toNat_false, Option.isNone_none, Bool.and_true, Bool.toNat_true]
        omega
      | some message =>
        rw [response_failed out alive awake hc]
        refine owed_queued_le fun _ => ?_
        split <;> simp [pending]
    · have settled : s.Settled current := .loading alive awake tag' out' state timer follows
      rw [settled.stale_goes awake out hc, response_stale out alive awake hc]
      refine owed_queued_le fun _ => ?_
      simp only [pending, Bool.toNat_false]
      omega

/-- No further poll comes at this instant. -/
structure Spent (s : Scheduler) (now : Nat) : Prop where
  queued : s.queued = false
  timer : s.timer.due? now = none

theorem spent_beginFetch (s : Scheduler) (filter : String) (now : Nat) : (s.beginFetch filter).2.Spent now :=
  ⟨rfl, rfl⟩

/-- Unless the next poll is timed for at once, none comes with the answer. -/
theorem Spent.response (spent : s.Spent now) (h : s.Settled current) (out : s.inFlight = some tag)
    (positive : 0 < s.schedule.cadence) :
    (s.response now tag current failure).value.2.1 = false ∧
      (s.response now tag current failure).value.2.2.Spent now := by
  cases h with
  | paused alive asleep =>
    rw [response_paused out alive asleep]
    exact ⟨rfl, spent.queued, spent.timer⟩
  | scheduled _ _ free | failed _ _ free => simp [free] at out
  | loading alive awake tag' out' state timer follows =>
    by_cases hc : tag.filter = current
    · cases failure with
      | none =>
        rw [response_ok out alive awake hc]
        refine ⟨spent.queued, rfl, ?_⟩
        dsimp only
        split
        · exact spent.timer
        · rw [Timer.due?_arm, if_neg (by omega)]
      | some message =>
        rw [response_failed out alive awake hc]
        refine ⟨spent.queued, ?_⟩
        dsimp only
        split
        · exact ⟨rfl, spent.timer⟩
        · exact ⟨rfl, rfl⟩
    · have settled : s.Settled current := .loading alive awake tag' out' state timer follows
      rw [settled.stale_goes awake out hc, response_stale out alive awake hc]
      exact ⟨spent.queued, rfl, spent.timer⟩

/-- A poll waits behind the tagged request, and no pause takes it back. -/
structure Queues (s : Scheduler) (tag : Tag) : Prop where
  alive : s.tornDown = false
  awake : s.paused = false
  out : s.inFlight = some tag
  queued : s.queued = true

namespace Queues

theorem requestPoll (h : s.Queues tag) (now : Nat) : (s.requestPoll now).Queues tag := by
  rw [requestPoll_awake (isDeaf_of_awake h.alive h.awake)]
  exact ⟨h.alive, h.awake, h.out, h.queued⟩

/-- A timer that fires behind the request queues no second poll. -/
theorem timerFired (h : s.Queues tag) (kind : TimerKind) :
    (s.timerFired kind).value.1 = false ∧ (s.timerFired kind).value.2.Queues tag := by
  rw [timerFired_loading (isDeaf_of_awake h.alive h.awake) (by simp [h.out])]
  exact ⟨rfl, h.alive, h.awake, h.out, rfl⟩

/-- Whatever the response is, the poll goes out with it. -/
theorem response_goes (h : s.Queues tag) (now : Nat) (current : String) (failure : Option String) :
    (s.response now tag current failure).value.2.1 = true := by
  by_cases hc : tag.filter = current
  · cases failure with
    | none =>
      rw [response_ok h.out h.alive h.awake hc]
      exact h.queued
    | some message =>
      rw [response_failed h.out h.alive h.awake hc]
      exact h.queued
  · rw [response_stale h.out h.alive h.awake hc, h.queued, Bool.true_or]

end Queues

/-- The end of a pause queues a poll behind the request that is still out. -/
theorem resume_queues (alive : s.tornDown = false) (hp : s.paused = true) (out : s.inFlight = some tag) :
    s.resume.1 = false ∧ s.resume.2.Queues tag := by
  rw [resume_loading alive hp (by simp [out])]
  exact ⟨rfl, alive, rfl, out, rfl⟩

end ProxyMonitor.Poll.Scheduler
