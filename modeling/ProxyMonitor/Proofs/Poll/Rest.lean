import ProxyMonitor.Proofs.Poll.Settled

/-! A scheduler at rest, which nothing but the last response made it, and one whose request nobody wants any
longer. -/
namespace ProxyMonitor.Poll.Scheduler
variable {s : Scheduler} {now : Nat} {tag : Tag} {current : String} {failure : Option String}

/-- Since the last response no poll was asked for: the next one is timed from it, or polling is halted. -/
def Resting (s : Scheduler) : Prop :=
  s.timer.kind? = some .cadence ∨ ∃ message, s.state = .failed message

theorem not_resting {s : Scheduler} (timer : s.timer.kind? ≠ some .cadence)
    (state : ∀ message, s.state ≠ .failed message) : ¬ s.Resting := by
  rintro (cadence | ⟨message, failed⟩)
  · exact timer cadence
  · exact state message failed

theorem first_not_resting (schedule : Schedule) (now : Nat) :
    ¬ (({ schedule } : Scheduler).requestPoll now).Resting :=
  not_resting (by simp [requestPoll, isDeaf]) (by simp [requestPoll, isDeaf])

theorem requestPoll_not_resting (h : s.Settled current) (now : Nat) : ¬ (s.requestPoll now).Resting := by
  cases h with
  | paused _ asleep state timer =>
    rw [requestPoll_deaf (isDeaf_of_paused asleep)]
    exact not_resting (by simp [timer]) (by simp [state])
  | loading alive awake _ out state =>
    rw [requestPoll_awake (isDeaf_of_awake alive awake)]
    exact not_resting (by simp) (by simp [out, state])
  | scheduled alive awake out | failed alive awake out =>
    rw [requestPoll_awake (isDeaf_of_awake alive awake)]
    exact not_resting (by simp) (by simp [out])

theorem pause_not_resting (alive : s.tornDown = false) : ¬ s.pause.Resting := by
  rw [pause_alive alive]
  exact not_resting (by simp) (by simp)

theorem resume_not_resting (h : s.Settled current) (hp : s.paused = true) : ¬ s.resume.2.Resting := by
  cases h with
  | paused alive _ _ timer =>
    cases hf : s.inFlight with
    | none =>
      rw [resume_waiting alive hp hf]
      exact not_resting (by simp [timer]) (by simp)
    | some tag =>
      rw [resume_loading alive hp (by simp [hf])]
      exact not_resting (by simp [timer]) (by simp)
  | loading _ awake | scheduled _ awake | failed _ awake => simp [awake] at hp

theorem timerFired_not_resting (h : s.Settled current) (kind : TimerKind)
    (wait : ({ s with timer := .off }.timerFired kind).value.1 = false) :
    ¬ ({ s with timer := .off }.timerFired kind).value.2.Resting := by
  cases h with
  | paused _ asleep state =>
    rw [timerFired_deaf (isDeaf_of_paused (s := { s with timer := .off }) asleep)]
    exact not_resting (by simp) (by simp [state])
  | loading alive awake _ out state =>
    rw [timerFired_loading (isDeaf_of_awake (s := { s with timer := .off }) alive awake) (by simp [out])]
    exact not_resting (by simp) (by simp [state])
  | scheduled alive awake out | failed alive awake out =>
    rw [timerFired_waiting (isDeaf_of_awake (s := { s with timer := .off }) alive awake) out] at wait
    cases wait

theorem beginFetch_not_resting (h : s.Ready) (filter : String) : ¬ (s.beginFetch filter).2.Resting :=
  not_resting (by simp [beginFetch]) (by simp [beginFetch, h.awake])

/-- The response that a scheduler rests on was wanted; it either was a result, or the failure that is shown. -/
theorem response_resting (h : s.Settled current) (out : s.inFlight = some tag)
    (rest : (s.response now tag current failure).value.2.2.Resting) :
    s.paused = false ∧ tag.filter = current ∧
      ((failure = none ∧ (s.response now tag current failure).value.2.2.state = .scheduled) ∨
        ∃ message, failure = some message ∧
          (s.response now tag current failure).value.2.2.state = .failed message ∧
          (s.response now tag current failure).value.2.2.timer = .off) := by
  cases h with
  | paused alive asleep state timer =>
    rw [response_paused out alive asleep] at rest
    exact absurd rest (not_resting (by simp [timer]) (by simp [state]))
  | scheduled _ _ free | failed _ _ free => simp [free] at out
  | loading alive awake _ _ _ timer =>
    by_cases hc : tag.filter = current
    · refine ⟨awake, hc, ?_⟩
      cases failure with
      | none =>
        rw [response_ok out alive awake hc]
        exact .inl ⟨rfl, rfl⟩
      | some message =>
        rw [response_failed out alive awake hc] at rest ⊢
        dsimp only at rest ⊢
        split at rest
        · exact absurd rest (not_resting timer (by simp))
        · rename_i halted
          rw [if_neg halted]
          exact .inr ⟨message, rfl, rfl, rfl⟩
    · rw [response_stale out alive awake hc] at rest
      exact absurd rest (not_resting timer (by simp))

/-- Behind a request for a filter that has changed, a poll waits or its quiet time runs. -/
theorem Settled.follows (h : s.Settled current) (awake : s.paused = false) (out : s.inFlight = some tag)
    (changed : tag.filter ≠ current) : s.queued = true ∨ s.timer.kind? = some .debounce := by
  cases h with
  | paused _ asleep => simp [asleep] at awake
  | scheduled _ _ free | failed _ _ free => simp [free] at out
  | loading _ _ tag' out' _ _ follows =>
    obtain rfl : tag' = tag := Option.some.inj (out'.symm.trans out)
    exact follows.resolve_left changed

/-- Once that request is answered, the next one goes out exactly where its poll waited: the timer is never off
otherwise. -/
theorem Settled.stale_goes (h : s.Settled current) (awake : s.paused = false) (out : s.inFlight = some tag)
    (changed : tag.filter ≠ current) :
    (s.response now tag current failure).value.2.1 = s.queued := by
  rw [response_stale out h.alive awake changed]
  rcases h.follows awake out changed with queued | quiet
  · rw [queued, Bool.true_or]
  · rw [Timer.isArmed_of_kind? quiet, Bool.not_true, Bool.or_false]

end ProxyMonitor.Poll.Scheduler
