import ProxyMonitor.Poll.Scheduler

/-! What each step of a scheduler does to it, and what holds of it between two events. -/
namespace ProxyMonitor.Poll.Scheduler
variable {s : Scheduler} {now : Nat} {tag : Tag} {current : String} {failure : Option String}

theorem requestPoll_deaf (h : s.isDeaf = true) : s.requestPoll now = s := by
  simp [requestPoll, h]

theorem requestPoll_awake (h : s.isDeaf = false) :
    s.requestPoll now = { s with
      timer := .arm now .debounce s.schedule.debounce
      state := if s.inFlight.isNone then .scheduled else s.state } := by
  simp [requestPoll, h]

theorem timerFired_deaf (h : s.isDeaf = true) (kind : TimerKind) : (s.timerFired kind).value = (false, s) := by
  simp [timerFired, h]

theorem timerFired_loading (h : s.isDeaf = false) (hf : s.inFlight.isSome = true) (kind : TimerKind) :
    (s.timerFired kind).value = (false, { s with queued := true }) := by
  simp [timerFired, h, hf]

theorem timerFired_waiting (h : s.isDeaf = false) (hf : s.inFlight = none) (kind : TimerKind) :
    (s.timerFired kind).value = (true, s) := by
  simp [timerFired, h, hf]

theorem response_unknown (h : s.inFlight ≠ some tag) :
    (s.response now tag current failure).value = (.discardStale, false, s) := by
  simp [response, h]

theorem response_paused (h : s.inFlight = some tag) (ht : s.tornDown = false) (hp : s.paused = true) :
    (s.response now tag current failure).value = (.discardPaused, false, { s with inFlight := none }) := by
  simp [response, h, ht, hp]

theorem response_stale (h : s.inFlight = some tag) (ht : s.tornDown = false) (hp : s.paused = false)
    (hc : tag.filter ≠ current) :
    (s.response now tag current failure).value = (.discardStale, s.queued || !s.timer.isArmed,
      { s with inFlight := none, queued := false, state := .scheduled }) := by
  simp [response, settle, h, ht, hp, hc]

theorem response_ok (h : s.inFlight = some tag) (ht : s.tornDown = false) (hp : s.paused = false)
    (hc : tag.filter = current) :
    (s.response now tag current none).value = (.apply, s.queued,
      { s with
        inFlight := none
        queued := false
        timer := if s.timer.isArmed then s.timer else .arm now .cadence s.schedule.cadence
        state := .scheduled }) := by
  simp [response, settle, h, ht, hp, hc]

theorem response_failed (h : s.inFlight = some tag) (ht : s.tornDown = false) (hp : s.paused = false)
    (hc : tag.filter = current) (message : String) :
    (s.response now tag current (some message)).value = (.fail, s.queued,
      if s.queued = true ∨ s.timer.kind? = some .debounce then
        { s with inFlight := none, queued := false, state := .scheduled }
      else { s with inFlight := none, queued := false, timer := .off, state := .failed message }) := by
  by_cases hq : s.queued = true ∨ s.timer.kind? = some .debounce <;>
    simp [response, settle, h, ht, hp, hc, hq]

theorem response_discarded (h : s.isDeaf = true ∨ tag.filter ≠ current) :
    (s.response now tag current failure).value.1 ≠ .apply ∧
      (s.response now tag current failure).value.1 ≠ .fail := by
  by_cases out : s.inFlight = some tag
  · cases ht : s.tornDown with
    | true => simp [response, out, ht]
    | false =>
      cases hp : s.paused with
      | true => simp [response_paused out ht hp]
      | false =>
        have hc : tag.filter ≠ current := h.resolve_left (by simp [isDeaf, ht, hp])
        simp [response_stale out ht hp hc]
  · simp [response_unknown out]

theorem pause_alive (h : s.tornDown = false) :
    s.pause = { s with paused := true, queued := false, timer := .off, state := .paused } := by
  simp [pause, h]

theorem resume_loading (h : s.tornDown = false) (hp : s.paused = true) (hf : s.inFlight.isSome = true) :
    s.resume = (false, { s with paused := false, queued := true, state := .loading }) := by
  simp [resume, h, hp, hf]

theorem resume_waiting (h : s.tornDown = false) (hp : s.paused = true) (hf : s.inFlight = none) :
    s.resume = (true, { s with paused := false, state := .scheduled }) := by
  simp [resume, h, hp, hf]

theorem resume_awake (hp : s.paused = false) : s.resume = (false, s) := by
  simp [resume, hp]

@[simp] theorem requestPoll_inFlight (s : Scheduler) (now : Nat) : (s.requestPoll now).inFlight = s.inFlight := by
  unfold requestPoll; split <;> rfl

@[simp] theorem requestPoll_lastSeq (s : Scheduler) (now : Nat) : (s.requestPoll now).lastSeq = s.lastSeq := by
  unfold requestPoll; split <;> rfl

@[simp] theorem timerFired_inFlight (s : Scheduler) (kind : TimerKind) :
    (s.timerFired kind).value.2.inFlight = s.inFlight := by
  unfold timerFired; (repeat' split) <;> rfl

@[simp] theorem timerFired_lastSeq (s : Scheduler) (kind : TimerKind) :
    (s.timerFired kind).value.2.lastSeq = s.lastSeq := by
  unfold timerFired; (repeat' split) <;> rfl

@[simp] theorem timerFired_paused (s : Scheduler) (kind : TimerKind) :
    (s.timerFired kind).value.2.paused = s.paused := by
  unfold timerFired; (repeat' split) <;> rfl

@[simp] theorem pause_inFlight (s : Scheduler) : s.pause.inFlight = s.inFlight := by
  unfold pause; split <;> rfl

@[simp] theorem pause_lastSeq (s : Scheduler) : s.pause.lastSeq = s.lastSeq := by
  unfold pause; split <;> rfl

@[simp] theorem resume_inFlight (s : Scheduler) : s.resume.2.inFlight = s.inFlight := by
  unfold resume; (repeat' split) <;> rfl

@[simp] theorem resume_lastSeq (s : Scheduler) : s.resume.2.lastSeq = s.lastSeq := by
  unfold resume; (repeat' split) <;> rfl

@[simp] theorem settle_inFlight (s : Scheduler) (now : Nat) (fresh : Bool) (failure : Option String) :
    (s.settle now fresh failure).value.2.2.inFlight = s.inFlight := by
  unfold settle; dsimp only; (repeat' split) <;> rfl

@[simp] theorem settle_lastSeq (s : Scheduler) (now : Nat) (fresh : Bool) (failure : Option String) :
    (s.settle now fresh failure).value.2.2.lastSeq = s.lastSeq := by
  unfold settle; dsimp only; (repeat' split) <;> rfl

theorem response_inFlight (h : s.inFlight = some tag) :
    (s.response now tag current failure).value.2.2.inFlight = none := by
  rw [response, if_neg (by simp [h])]
  dsimp only
  split
  · rfl
  · split
    · rfl
    · rw [settle_inFlight]

@[simp] theorem response_lastSeq (s : Scheduler) (now : Nat) (tag : Tag) (current : String)
    (failure : Option String) : (s.response now tag current failure).value.2.2.lastSeq = s.lastSeq := by
  unfold response
  dsimp only
  (repeat' split) <;> first | rfl | rw [settle_lastSeq]

@[simp] theorem requestPoll_schedule (s : Scheduler) (now : Nat) : (s.requestPoll now).schedule = s.schedule := by
  unfold requestPoll; split <;> rfl

@[simp] theorem timerFired_schedule (s : Scheduler) (kind : TimerKind) :
    (s.timerFired kind).value.2.schedule = s.schedule := by
  unfold timerFired; (repeat' split) <;> rfl

@[simp] theorem pause_schedule (s : Scheduler) : s.pause.schedule = s.schedule := by
  unfold pause; split <;> rfl

@[simp] theorem resume_schedule (s : Scheduler) : s.resume.2.schedule = s.schedule := by
  unfold resume; (repeat' split) <;> rfl

@[simp] theorem settle_schedule (s : Scheduler) (now : Nat) (fresh : Bool) (failure : Option String) :
    (s.settle now fresh failure).value.2.2.schedule = s.schedule := by
  unfold settle; dsimp only; (repeat' split) <;> rfl

@[simp] theorem response_schedule (s : Scheduler) (now : Nat) (tag : Tag) (current : String)
    (failure : Option String) : (s.response now tag current failure).value.2.2.schedule = s.schedule := by
  unfold response
  dsimp only
  (repeat' split) <;> first | rfl | rw [settle_schedule]

/-- The four situations of a scheduler between two events, one for each label, while `current` is the filter.
A request for a filter that has changed meanwhile has a poll behind it. -/
inductive Settled (s : Scheduler) (current : String) : Prop where
  | paused (alive : s.tornDown = false) (asleep : s.paused = true) (state : s.state = .paused)
      (timer : s.timer = .off) (queued : s.queued = false)
  | loading (alive : s.tornDown = false) (awake : s.paused = false) (tag : Tag)
      (out : s.inFlight = some tag) (state : s.state = .loading) (timer : s.timer.kind? ≠ some .cadence)
      (follows : tag.filter = current ∨ s.queued = true ∨ s.timer.kind? = some .debounce)
  | scheduled (alive : s.tornDown = false) (awake : s.paused = false) (out : s.inFlight = none)
      (state : s.state = .scheduled) (timer : s.timer.isArmed = true) (queued : s.queued = false)
  | failed (alive : s.tornDown = false) (awake : s.paused = false) (out : s.inFlight = none)
      (message : String) (state : s.state = .failed message) (timer : s.timer = .off)
      (queued : s.queued = false)

/-- Where a request may go out. -/
structure Ready (s : Scheduler) : Prop where
  alive : s.tornDown = false
  awake : s.paused = false
  free : s.inFlight = none

theorem Settled.alive (h : s.Settled current) : s.tornDown = false := by
  cases h <;> assumption

theorem isDeaf_of_paused (h : s.paused = true) : s.isDeaf = true := by
  simp [isDeaf, h]

theorem isDeaf_of_awake (h : s.tornDown = false) (hp : s.paused = false) : s.isDeaf = false := by
  simp [isDeaf, h, hp]

theorem Ready.beginFetch (h : s.Ready) (filter : String) : (s.beginFetch filter).2.Settled filter :=
  .loading h.alive h.awake _ rfl (by simp [Scheduler.beginFetch, h.awake]) (by simp [Scheduler.beginFetch])
    (.inl rfl)

/-- The first poll of a scheduler that was never asked for one. -/
theorem settled_first (schedule : Schedule) (now : Nat) (current : String) :
    (({ schedule } : Scheduler).requestPoll now).Settled current :=
  .scheduled rfl rfl rfl rfl rfl rfl

/-- A poll that is asked for serves every filter. -/
theorem Settled.requestPoll (h : s.Settled current) (now : Nat) (next : String) :
    (s.requestPoll now).Settled next := by
  cases h with
  | paused alive asleep state timer queued =>
    rw [requestPoll_deaf (isDeaf_of_paused asleep)]
    exact .paused alive asleep state timer queued
  | loading alive awake tag out state =>
    rw [requestPoll_awake (isDeaf_of_awake alive awake)]
    exact .loading alive awake tag out (by simp [out, state]) (by simp) (.inr (.inr rfl))
  | scheduled alive awake out _ _ queued =>
    rw [requestPoll_awake (isDeaf_of_awake alive awake)]
    exact .scheduled alive awake out (by simp [out]) rfl queued
  | failed alive awake out _ _ _ queued =>
    rw [requestPoll_awake (isDeaf_of_awake alive awake)]
    exact .scheduled alive awake out (by simp [out]) rfl queued

/-- A pause serves every filter, since the poll that ends it does. -/
theorem Settled.pause (h : s.Settled current) (next : String) : s.pause.Settled next := by
  rw [pause_alive h.alive]
  exact .paused h.alive rfl rfl rfl rfl

theorem resume_ready (go : s.resume.1 = true) : s.resume.2.Ready := by
  unfold resume at go ⊢
  split at go
  · cases go
  · rename_i h
    simp only [Bool.or_eq_true, Bool.not_eq_true', not_or, Bool.not_eq_true, Bool.not_eq_false] at h
    split at go
    · cases go
    · rename_i hf
      rw [if_neg (by simp [h]), if_neg hf]
      exact ⟨h.1, rfl, by simpa using hf⟩

theorem Settled.resume (h : s.Settled current) (wait : s.resume.1 = false) : s.resume.2.Settled current := by
  cases hp : s.paused with
  | false => rwa [resume_awake hp]
  | true =>
    cases hf : s.inFlight with
    | none => simp [resume_waiting h.alive hp hf] at wait
    | some tag =>
      rw [resume_loading h.alive hp (by simp [hf])]
      cases h with
      | paused alive _ _ timer => exact .loading alive rfl tag hf rfl (by simp [timer]) (.inr (.inl rfl))
      | loading _ awake | scheduled _ awake | failed _ awake => simp [awake] at hp

theorem timerFired_ready {kind : TimerKind} (go : (s.timerFired kind).value.1 = true) :
    (s.timerFired kind).value.2.Ready := by
  cases hd : s.isDeaf with
  | true => simp [timerFired_deaf hd] at go
  | false =>
    cases hf : s.inFlight with
    | some tag => simp [timerFired_loading hd (by simp [hf])] at go
    | none =>
      rw [timerFired_waiting hd hf]
      simp only [isDeaf, Bool.or_eq_false_iff] at hd
      exact ⟨hd.1, hd.2, hf⟩

/-- A timer that fired is off, and only behind a request that is out its poll has to wait. -/
theorem Settled.timerFired (h : s.Settled current) (kind : TimerKind)
    (wait : ({ s with timer := .off }.timerFired kind).value.1 = false) :
    ({ s with timer := .off }.timerFired kind).value.2.Settled current := by
  cases h with
  | paused alive asleep state timer queued =>
    rw [timerFired_deaf (isDeaf_of_paused (s := { s with timer := .off }) asleep)]
    exact .paused alive asleep state rfl queued
  | loading alive awake tag out state =>
    rw [timerFired_loading (isDeaf_of_awake (s := { s with timer := .off }) alive awake) (by simp [out])]
    exact .loading alive awake tag out state (by simp) (.inr (.inl rfl))
  | scheduled alive awake out | failed alive awake out =>
    rw [timerFired_waiting (isDeaf_of_awake (s := { s with timer := .off }) alive awake) out] at wait
    cases wait

/-- A response lets the next request go out only where it was waited for, by a view that is not paused. -/
theorem response_ready (go : (s.response now tag current failure).value.2.1 = true) :
    (s.response now tag current failure).value.2.2.Ready := by
  by_cases hf : s.inFlight = some tag
  · cases ht : s.tornDown with
    | true => simp [response, hf, ht] at go
    | false =>
      cases hp : s.paused with
      | true => simp [response_paused hf ht hp] at go
      | false =>
        by_cases hc : tag.filter = current
        · cases failure with
          | none =>
            rw [response_ok hf ht hp hc]
            exact ⟨ht, hp, rfl⟩
          | some message =>
            rw [response_failed hf ht hp hc]
            dsimp only
            split <;> exact ⟨ht, hp, rfl⟩
        · rw [response_stale hf ht hp hc]
          exact ⟨ht, hp, rfl⟩
  · simp [response_unknown hf] at go

theorem Settled.response (h : s.Settled current)
    (wait : (s.response now tag current failure).value.2.1 = false) :
    (s.response now tag current failure).value.2.2.Settled current := by
  by_cases hf : s.inFlight = some tag
  · cases h with
    | paused alive asleep state timer queued =>
      rw [response_paused hf alive asleep]
      exact .paused alive asleep state timer queued
    | scheduled _ _ out | failed _ _ out => simp [out] at hf
    | loading alive awake tag' out state timer follows =>
      by_cases hc : tag.filter = current
      · cases failure with
        | none =>
          rw [response_ok hf alive awake hc] at wait ⊢
          refine .scheduled alive awake rfl rfl ?_ rfl
          dsimp only
          split
          · assumption
          · rfl
        | some message =>
          rw [response_failed hf alive awake hc] at wait ⊢
          dsimp only at wait ⊢
          split
          · rename_i hpending
            rw [wait] at hpending
            exact .scheduled alive awake rfl rfl (Timer.isArmed_of_kind? (by simpa using hpending)) rfl
          · exact .failed alive awake rfl message rfl rfl rfl
      · rw [response_stale hf alive awake hc] at wait ⊢
        simp only [Bool.or_eq_false_iff, Bool.not_eq_false'] at wait
        exact .scheduled alive awake rfl rfl wait.2 rfl
  · rw [response_unknown hf]
    exact h

namespace Settled

theorem state_eq_paused (h : s.Settled current) : s.state = .paused ↔ s.paused = true := by
  cases h with
  | paused _ asleep state => simp [asleep, state]
  | loading _ awake _ _ state | scheduled _ awake _ state | failed _ awake _ _ state => simp [awake, state]

theorem state_eq_loading (h : s.Settled current) :
    s.state = .loading ↔ s.paused = false ∧ s.inFlight ≠ none := by
  cases h with
  | paused _ asleep state => simp [asleep, state]
  | loading _ awake _ out state => simp [awake, out, state]
  | scheduled _ awake out state | failed _ awake out _ state => simp [awake, out, state]

theorem state_eq_scheduled (h : s.Settled current) :
    s.state = .scheduled ↔ s.paused = false ∧ s.inFlight = none ∧ s.timer.isArmed = true := by
  cases h with
  | paused _ asleep state => simp [asleep, state]
  | loading _ _ _ out state => simp [out, state]
  | scheduled _ awake out state timer => simp [awake, out, state, timer]
  | failed _ _ _ _ state timer => simp [state, timer]

theorem state_eq_failed (h : s.Settled current) :
    (∃ message, s.state = .failed message) ↔
      s.paused = false ∧ s.inFlight = none ∧ s.timer.isArmed = false := by
  cases h with
  | paused _ asleep state => simp [asleep, state]
  | loading _ _ _ out state => simp [out, state]
  | scheduled _ _ _ state timer => simp [state, timer]
  | failed _ awake out _ state timer => simp [awake, out, state, timer]

theorem state_ne_idle (h : s.Settled current) : s.state ≠ .idle := by
  cases h with
  | paused _ _ state | loading _ _ _ _ state | scheduled _ _ _ state | failed _ _ _ _ state => simp [state]

/-- A poll waits only behind a request that is out. -/
theorem out_of_queued (h : s.Settled current) (hq : s.queued = true) :
    s.paused = false ∧ s.inFlight ≠ none := by
  cases h with
  | paused _ _ _ _ queued | scheduled _ _ _ _ _ queued | failed _ _ _ _ _ _ queued => simp [queued] at hq
  | loading _ awake _ out => exact ⟨awake, by simp [out]⟩

theorem isArmed_of_paused (h : s.Settled current) (hp : s.paused = true) : s.timer.isArmed = false := by
  cases h with
  | paused _ _ _ timer => simp [timer]
  | loading _ awake | scheduled _ awake | failed _ awake => simp [awake] at hp

/-- The next poll is timed from a response only. -/
theorem inFlight_of_cadence (h : s.Settled current) (hk : s.timer.kind? = some .cadence) :
    s.inFlight = none := by
  cases h with
  | paused _ _ _ timer => simp [timer] at hk
  | loading _ _ _ _ _ timer => exact absurd hk timer
  | scheduled _ _ out | failed _ _ out => exact out

end Settled
end ProxyMonitor.Poll.Scheduler
