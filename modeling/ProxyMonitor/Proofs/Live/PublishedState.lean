import ProxyMonitor.Proofs.Live.SingleFlight

/-! What is shown of a view that runs: its label says what it waits for, and it always waits for something. -/
namespace ProxyMonitor.Live
open ProxyMonitor.Poll
variable {α : Type} {past : List (Moment α)} {s : Session α}
  {endpoint : String} {location : Location} {schedule : Schedule} {service : Service α}

/-- The place for the request of a view that runs is taken exactly when its scheduler waits for an answer. -/
theorem Run.slot_eq_free (run : Run (Session.mount endpoint location schedule service).value past s)
    (running : s.phase = .running) : s.slot = .free ↔ s.view.scheduler.inFlight = none := by
  rw [← Slot.tag?_eq_none, run.ordered.slot (by simp [running])]

/-- The label that is shown says whether the view is paused, and otherwise whether a request is out, a timer is
armed, or neither, after a failure. A poll is queued only behind a request, no timer runs during a pause, and
the next poll is timed only where no request is out; so a view that is not paused and did not fail goes on. -/
theorem shown_state_truthful (run : Run (Session.mount endpoint location schedule service).value past s)
    (running : s.phase = .running) :
    s.shown = s.view ∧
    (s.shown.scheduler.state = .paused ↔ s.view.scheduler.paused = true) ∧
    (s.shown.scheduler.state = .loading ↔ s.view.scheduler.paused = false ∧ s.slot ≠ .free) ∧
    (s.shown.scheduler.state = .scheduled ↔
      s.view.scheduler.paused = false ∧ s.slot = .free ∧ s.view.scheduler.timer.isArmed = true) ∧
    ((∃ message, s.shown.scheduler.state = .failed message) ↔
      s.view.scheduler.paused = false ∧ s.slot = .free ∧ s.view.scheduler.timer.isArmed = false) ∧
    s.shown.scheduler.state ≠ .idle ∧
    (s.view.scheduler.queued = true → s.view.scheduler.paused = false ∧ s.slot ≠ .free) ∧
    (s.view.scheduler.paused = true → s.view.scheduler.timer.isArmed = false) ∧
    (s.view.scheduler.timer.kind? = some .cadence → s.slot = .free) ∧
    (s.view.scheduler.paused = false → (∀ message, s.shown.scheduler.state ≠ .failed message) →
      s.slot ≠ .free ∨ s.view.scheduler.timer.isArmed = true) := by
  have settled : s.view.scheduler.Settled s.view.filter := run.settled running
  have hfree := run.slot_eq_free running
  have htaken : s.slot ≠ .free ↔ s.view.scheduler.inFlight ≠ none := not_congr hfree
  rw [run.shown_eq, hfree, htaken]
  refine ⟨rfl, settled.state_eq_paused, settled.state_eq_loading, settled.state_eq_scheduled,
    settled.state_eq_failed, settled.state_ne_idle, settled.out_of_queued, settled.isArmed_of_paused,
    settled.inFlight_of_cadence, ?_⟩
  intro awake unfailed
  by_contra stalled
  obtain ⟨out, timer⟩ := not_or.mp stalled
  obtain ⟨message, failed⟩ := settled.state_eq_failed.mpr ⟨awake, not_not.mp out, by simpa using timer⟩
  exact unfailed message failed

/-- After the answer to an edited filter, the next poll is timed. -/
theorem shown_state_truthful_edited : Run Edited.start Edited.past Edited.last ∧
    Edited.last.phase = .running ∧ Edited.last.shown.scheduler.state = .scheduled ∧
    Edited.last.slot = .free ∧ Edited.last.view.scheduler.timer.isArmed = true := by
  obtain ⟨_, _, _, scheduled, _⟩ := shown_state_truthful Edited.run rfl
  exact ⟨Edited.run, rfl, rfl, (scheduled.mp rfl).2⟩

end ProxyMonitor.Live
