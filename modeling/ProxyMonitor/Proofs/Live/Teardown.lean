import ProxyMonitor.Proofs.Live.SingleFlight
import ProxyMonitor.Proofs.Poll.Operations

/-! The end of a view: it publishes once more, and nothing happens to it after that. -/
namespace ProxyMonitor.Live
open ProxyMonitor.Poll
variable {α : Type} {past later : List (Moment α)} {s t : Session α} {now : Nat}

namespace Session

/-- No move is open to a session that has ended. -/
theorem not_allows_ended (ended : s.phase = .ended) (m : Move α) : ¬ s.Allows m :=
  fun allowed => not_ended_of_allows allowed ended

theorem next?_ended (ended : s.phase = .ended) (now : Nat) : s.next? now = none := by
  rw [next?, ended]

/-- Once the commands given before are handled, the end comes before the timer and before any answer. -/
theorem next?_leaving (running : s.phase = .running) (handled : s.commands = []) (leaving : s.leaving = true)
    (now : Nat) : s.next? now = some .leave := by
  rw [next?, running, handled, leaving]

end Session

/-- What is asked of a session that has ended changes nothing in its view, nor in what it published. -/
theorem Run.ended (on : Run s later t) (ended : s.phase = .ended) :
    later = [] ∧ t.phase = .ended ∧ t.slot = s.slot ∧ t.calls = s.calls ∧ t.published = s.published ∧
      t.view = s.view ∧ t.shown = s.shown := by
  induction on with
  | start => exact ⟨rfl, ended, rfl, rfl, rfl, rfl, rfl⟩
  | ask _ asked ih =>
    obtain ⟨_, _, _, rfl⟩ := asked.eq_with
    exact ih
  | make now m _ allowed ih => exact absurd allowed (Session.not_allows_ended ih.2.1 m)

section Mounted
variable {endpoint : String} {location : Location} {schedule : Schedule} {service : Service α}

/-- A view that is ended handles nothing any more, whatever is armed, out or given to it by then. No request
reaches the service any more, and what it published last is what it had published before, without its polling.
Its scheduler agrees to nothing: whatever is asked of a scheduler that was shut down, in whatever order, no
request goes out, no response is accepted, and no timer is armed. -/
theorem teardown_final (run : Run (Session.mount endpoint location schedule service).value past s)
    (allowed : s.Allows .leave) (now : Nat) (on : Run (s.make now .leave).value later t) :
    (s.commands = [] → s.leaving = true → s.next? now = some .leave) ∧
    later = [] ∧ (∀ m, ¬ t.Allows m) ∧ (∀ time, t.next? time = none) ∧
    t.slot = .free ∧ t.calls = s.calls ∧ t.published = s.published + 1 ∧
    t.shown = { s.shown with
      scheduler := { s.shown.scheduler with state := .idle, timer := .off, queued := false, tornDown := true } } ∧
    (∀ (scheduler : Scheduler) (operations : List Operation), (∀ o ∈ operations, o.begins = false) →
      (∀ verdict ∈ (scheduler.shutdown.performAll operations).1,
        verdict.go = false ∧ verdict.disposition ≠ some .apply ∧ verdict.disposition ≠ some .fail) ∧
      (scheduler.shutdown.performAll operations).2.timer = .off ∧
      (scheduler.shutdown.performAll operations).2.state = .idle ∧
      (scheduler.shutdown.performAll operations).2.lastSeq = scheduler.lastSeq) := by
  obtain ⟨rfl, ended, slot, calls, published, _, shown⟩ := on.ended rfl
  refine ⟨fun handled leaving => Session.next?_leaving allowed handled leaving now, rfl,
    Session.not_allows_ended ended, Session.next?_ended ended, slot, calls, published, ?_, ?_⟩
  · rw [shown, run.shown_eq]
    rfl
  · intro scheduler operations begun
    obtain ⟨verdicts, down⟩ := scheduler.down_shutdown.performAll begun
    exact ⟨verdicts, down.timer, down.state, down.seq⟩

end Mounted

namespace Ended

/-- The view is ended while its first request is out, the quiet time of an edit runs, and another edit waits. -/
def editing : Session Unit :=
  ((Edited.edited.make 600 (.event (.command (.setFilter "a")))).value.send (.setFilter "b")).value

theorem run : ∃ past, Run Edited.start past editing := by
  have edited := (Edited.run_loading.ask (.send (.setFilter "a"))).make (s := Edited.edited) 600
    (.event (.command (.setFilter "a"))) ⟨rfl, rfl⟩
  exact ⟨_, edited.ask (.send _)⟩

end Ended

/-- The edit that waits and the request that is out come to nothing, and so does a response that the scheduler
waited for. -/
theorem teardown_final_editing :
    (∃ past, Run Edited.start past Ended.editing) ∧ Ended.editing.Allows .leave ∧
    Ended.editing.slot.tag? = some ⟨1, ""⟩ ∧ Ended.editing.view.scheduler.timer.isArmed = true ∧
    Ended.editing.commands = [.setFilter "b"] ∧
    (Ended.editing.make 700 .leave).value.next? 1400 = none ∧
    (Ended.editing.make 700 .leave).value.shown.scheduler.state = .idle ∧
    (Ended.editing.make 700 .leave).value.shown.filter = "a" ∧
    (∀ verdict ∈ (Ended.editing.view.scheduler.shutdown.performAll
        [.response 1400 ⟨1, ""⟩ "" none, .requestPoll 1500, .timerFired .debounce]).1, verdict.go = false) := by
  obtain ⟨past, run⟩ := Ended.run
  obtain ⟨_, _, _, none, _, _, _, shown, down⟩ := teardown_final run (by rfl) 700 .start
  obtain ⟨verdicts, _⟩ := down Ended.editing.view.scheduler
    [.response 1400 ⟨1, ""⟩ "" .none, .requestPoll 1500, .timerFired .debounce] (by decide)
  exact ⟨⟨past, run⟩, rfl, rfl, rfl, rfl, none 1400, by rw [shown], by rw [shown]; rfl,
    fun verdict hv => (verdicts verdict hv).1⟩

end ProxyMonitor.Live
