import ProxyMonitor.Proofs.Live.FilterEdits
import ProxyMonitor.Proofs.Live.PublishedState
import ProxyMonitor.Proofs.Poll.Pending

/-! Every request has a cause: a poll that was asked for, a pause that ended, or a result after which the next
poll is timed. Nothing is asked for again because it failed. -/
namespace ProxyMonitor.Live
open ProxyMonitor.Poll
variable {α : Type}

namespace View
variable {v : View α} {now : Nat} {e : Event α}

/-- The event asks for a poll, and the view is not paused. -/
def accepts (v : View α) : Event α → Bool
  | .command .refresh => !v.scheduler.paused
  | .command (.setFilter value) => !v.scheduler.paused && v.filter != value
  | _ => false

/-- The event ends a pause. -/
def wakes (v : View α) : Event α → Bool
  | .command .resume | .command .togglePause => v.scheduler.paused
  | _ => false

/-- How many polls the event is the cause of; a result is one of the next poll. -/
def causes (v : View α) (e : Event α) : Nat :=
  (v.accepts e).toNat + (v.wakes e).toNat + (v.result? e).isSome.toNat

/-- What is owed once a view has reacted. -/
def owed (r : Bool × View α) : Nat :=
  Scheduler.owed r.1 r.2.scheduler

theorem handle_owed (v : View α) (now : Nat) (e : Event α) :
    (v.handle now e).value.1.isSome.toNat + (v.handle now e).value.2.scheduler.pending =
      owed (v.react now e).value := by
  cases go : (v.react now e).value.1 with
  | true => simp [handle_goes go, owed, go, fetch]
  | false => simp [handle_waits go, owed, go]

theorem poll_owed (v : View α) (now : Nat) :
    (v.poll now).scheduler.pending ≤ v.scheduler.pending + (!v.scheduler.paused).toNat := by
  rw [poll_scheduler]
  cases hp : v.scheduler.paused with
  | true =>
    rw [Scheduler.requestPoll_deaf (Scheduler.isDeaf_of_paused hp)]
    exact Nat.le_add_right _ _
  | false => exact Scheduler.requestPoll_pending _ now

theorem setFilter_owed (v : View α) (now : Nat) (value : String) :
    (v.setFilter now value).value.scheduler.pending ≤
      v.scheduler.pending + (!v.scheduler.paused && v.filter != value).toNat := by
  rw [setFilter_value]
  split
  · exact Nat.le_add_right _ _
  · rename_i changed
    have asked : (v.filter != value) = true := bne_iff_ne.mpr changed
    rw [asked, Bool.and_true]
    exact poll_owed { v with location := v.location.setFilter value } now

theorem resume_owed (h : v.Settled) : owed v.resume.value ≤ v.scheduler.pending + v.scheduler.paused.toNat := by
  cases hp : v.scheduler.paused with
  | true =>
    have one : owed v.resume.value = 1 := by
      rw [resume_paused hp]
      exact Scheduler.Settled.resume_owed h hp
    rw [one, Bool.toNat_true]
    exact Nat.le_add_left 1 _
  | false =>
    rw [resume_awake hp]
    exact Nat.le_add_right _ _

theorem response_owed (h : v.Settled) {tag : Tag} {outcome : Except Failure (Answer α)}
    (out : v.scheduler.inFlight = some tag) :
    owed (v.response now tag outcome).value ≤
      v.scheduler.pending + (v.result? (.response tag outcome)).isSome.toNat := by
  have result : (v.result? (.response tag outcome)).isSome =
      (!v.scheduler.isDeaf && tag.filter == v.filter && (problem? outcome).isNone) := by
    cases outcome with
    | error failure => simp [result?, problem?]
    | ok answer =>
      rw [result?, problem?, Option.isNone_none, Bool.and_true, ← counts]
      cases hc : v.counts tag <;> simp
  rw [owed, response_go, response_scheduler, result]
  exact Scheduler.Settled.response_owed h out

/-- The timer fires only where it is armed, and only the request that is out is answered. -/
structure Awaits (v : View α) (e : Event α) : Prop where
  armed : ∀ kind, e = .timer kind → v.scheduler.timer.isArmed = true
  expects : v.Expects e

/-- What is owed grows by no more than the event is the cause of. -/
theorem react_owed (h : v.Settled) (awaits : v.Awaits e) (opened : e ≠ .opening) :
    owed (v.react now e).value ≤ v.scheduler.pending + v.causes e := by
  cases e with
  | opening => exact absurd rfl opened
  | timer kind =>
    rw [Scheduler.pending_unarmed (awaits.armed kind rfl)]
    exact Scheduler.timerFired_owed _ kind
  | response tag outcome =>
    rw [react]
    simpa [causes, accepts, wakes] using response_owed h (awaits.expects (tag, outcome) rfl)
  | command c =>
    have paused : v.pause.value.scheduler.pending = 0 := Scheduler.pause_pending (Scheduler.Settled.alive h)
    cases c with
    | setFilter value => exact setFilter_owed v now value
    | refresh => exact poll_owed v now
    | pause =>
      rw [show owed (v.react now (.command .pause)).value = 0 from paused]
      exact Nat.zero_le _
    | resume =>
      rw [react, command]
      simpa [causes, accepts, wakes, result?] using resume_owed h
    | togglePause =>
      rw [react, command]
      split
      · simpa [causes, accepts, wakes, result?] using resume_owed h
      · rw [show owed (do return (false, ← v.pause) : Logged _).value = 0 from paused]
        exact Nat.zero_le _

end View

namespace Moment

/-- How many polls the move is the cause of. -/
def causes (m : Moment α) : Nat :=
  (m.meets View.accepts).toNat + (m.meets View.wakes).toNat + m.result?.isSome.toNat

/-- What is spent in the move, and what it leaves to be spent. -/
def owed (m : Moment α) : Nat :=
  m.request?.isSome.toNat + m.after.view.scheduler.pending

end Moment

variable {past later : List (Moment α)} {s t : Session α} {now : Nat} {e : Event α}

private theorem countP_concat {β : Type} (p : β → Bool) (l : List β) (b : β) :
    (l ++ [b]).countP p = l.countP p + (p b).toNat := by
  rw [List.countP_append, List.countP_singleton]
  cases p b <;> rfl

theorem Ordered.awaits (ordered : Ordered past s) (allowed : s.Allows (.event e)) : s.view.Awaits e := by
  refine ⟨?_, ordered.expects allowed⟩
  rintro kind rfl
  exact Timer.isArmed_of_kind? allowed.2

/-- A move spends and leaves no more than what was pending and what it is the cause of. -/
theorem Ordered.move_owed (ordered : Ordered past s) (settled : s.phase = .running → s.view.Settled)
    {m : Move α} (allowed : s.Allows m) (opened : m ≠ .event .opening) (now : Nat) :
    (Moment.mk s now m).owed ≤ s.view.scheduler.pending + (Moment.mk s now m).causes := by
  have running : s.phase = .running := Session.running_of_allows allowed opened
  cases m with
  | event e =>
    rw [Moment.owed, Moment.after, Session.make, Session.react_view, Moment.request?, View.handle_owed]
    exact View.react_owed (settled running) (ordered.awaits allowed) (by simpa using opened)
  | handOver | crash =>
    rw [Moment.owed, Moment.request?, Option.isSome_none, Bool.toNat_false, Nat.zero_add]
    exact Nat.le_add_right _ _
  | leave => exact Nat.zero_le _

section Mounted
variable {endpoint : String} {location : Location} {schedule : Schedule} {service : Service α}

theorem Run.caused (run : Run (Session.mount endpoint location schedule service).value past s) :
    (requests past).length + s.view.scheduler.pending ≤
      1 + past.countP (·.meets View.accepts) + past.countP (·.meets View.wakes) + (results past).length := by
  induction run with
  | start => exact Nat.zero_le _
  | ask _ asked ih =>
    obtain ⟨_, _, _, rfl⟩ := asked.eq_with
    exact ih
  | @make past s now m run allowed ih =>
    simp only [requests_length_concat, results_length_concat, countP_concat]
    by_cases opened : m = .event .opening
    · -- The first poll is the one that the mount is the cause of.
      subst opened
      rw [run.past_mounting allowed, Session.make, Session.react_view, run.mounting allowed]
      exact Nat.le_refl 1
    · have paid := run.ordered.move_owed run.settled allowed opened now
      simp only [Moment.owed, Moment.causes, Moment.after] at paid
      omega

/-- Where no request is out and none is pending, the next one has to be asked for. -/
theorem Run.halted (run : Run (Session.mount endpoint location schedule service).value past s)
    (mounted : s.phase ≠ .mounting)
    (halted : s.phase = .running → s.slot = .free ∧ s.view.scheduler.pending = 0) (on : Run s later t)
    (unasked : ∀ m ∈ later, m.meets View.accepts = false ∧ m.meets View.wakes = false) :
    requests later = [] ∧ t.phase ≠ .mounting ∧
      (t.phase = .running → t.slot = .free ∧ t.view.scheduler.pending = 0) := by
  induction on with
  | start => exact ⟨rfl, mounted, halted⟩
  | ask _ asked ih =>
    obtain ⟨_, _, _, rfl⟩ := asked.eq_with
    exact ih unasked
  | @make later t now m on allowed ih =>
    obtain ⟨unsent, mounted, halted⟩ := ih fun m hm => unasked m (List.mem_append_left _ hm)
    obtain ⟨unaccepted, asleep⟩ := unasked _ (List.mem_append_right _ (List.mem_singleton_self _))
    have opened : m ≠ .event .opening := by
      rintro rfl
      exact mounted allowed
    obtain ⟨free, idle⟩ := halted (Session.running_of_allows allowed opened)
    have uncaused : (Moment.mk t now m).causes = 0 := by
      have unanswered := Session.unanswered_of_free free allowed now
      simp [Moment.causes, unaccepted, asleep, Moment.result?_of_unanswered unanswered]
    have paid := (run.trans on).ordered.move_owed (run.trans on).settled allowed opened now
    rw [idle, uncaused, Nat.add_zero, Nat.le_zero, Moment.owed, Nat.add_eq_zero_iff] at paid
    have unsentNow : (Moment.mk t now m).request? = none := by
      simpa using paid.1
    refine ⟨?_, Session.make_phase allowed, fun _ => ⟨Session.make_free free allowed unsentNow, paid.2⟩⟩
    rw [requests_concat, unsent, unsentNow]
    rfl

/-- Together with the polls that are timed or queued, there are no more requests than causes: the mount, polls
that were asked for while the view was not paused, ends of a pause, and results. A response that failed or was
not wanted any longer makes no poll due, and after a failure that halted polling no request goes out until a
poll is asked for or a pause ends. -/
theorem requests_caused (run : Run (Session.mount endpoint location schedule service).value past s) :
    (requests past).length + s.view.scheduler.timer.isArmed.toNat + s.view.scheduler.queued.toNat ≤
      1 + past.countP (·.meets View.accepts) + past.countP (·.meets View.wakes) + s.view.sink.applied ∧
    (∀ m ∈ past, ∀ tag outcome, m.move = .event (.response tag outcome) → m.result? = none →
      m.request?.isSome.toNat + m.after.view.scheduler.pending ≤ m.before.view.scheduler.pending) ∧
    (∀ message, s.view.scheduler.state = .failed message → ∀ later t, Run s later t →
      (∀ m ∈ later, m.meets View.accepts = false ∧ m.meets View.wakes = false) → requests later = []) := by
  refine ⟨?bound, ?unwanted, ?failed⟩
  case bound =>
    rw [run.applied_eq, Nat.add_assoc]
    exact run.caused
  case unwanted =>
    intro m hm tag outcome hmove unwanted
    obtain ⟨earlier, before, allowed, _⟩ := run.moment hm
    obtain ⟨s, now, move⟩ := m
    subst hmove
    have paid := before.ordered.move_owed before.settled allowed (by simp) now
    have uncaused : (Moment.mk s now (.event (.response tag outcome))).causes = 0 := by
      simp [Moment.causes, Moment.meets, View.accepts, View.wakes, unwanted]
    rwa [uncaused, Nat.add_zero] at paid
  case failed =>
    intro message failed later t on unasked
    have mounted : s.phase ≠ .mounting := by
      intro mounting
      rw [run.mounting mounting] at failed
      cases failed
    refine (run.halted mounted (fun running => ?_) on unasked).1
    have settled : s.view.scheduler.Settled s.view.filter := run.settled running
    cases settled with
    | paused _ _ state | loading _ _ _ _ state | scheduled _ _ _ state => simp [state] at failed
    | failed _ _ out _ _ timer queued =>
      exact ⟨(run.slot_eq_free running).mpr out, by simp [Scheduler.pending, timer, queued]⟩

end Mounted

namespace Failing

/-- A view whose server refuses each request. -/
def start : Session Unit :=
  (Session.mount "/api/history" ⟨"/history", []⟩ ⟨500, 2000⟩
    ⟨[], ⟨10, fun _ => pure (some (.error (.application 400 "no")))⟩⟩).value

def refused : List (Nat × Move Unit) :=
  [(0, .event .opening), (500, .event (.timer .debounce)),
    (500, .handOver ⟨"/api/history", [], ⟨1, ""⟩⟩),
    (510, .event (.response ⟨1, ""⟩ (.error (.application 400 "no"))))]

def halted : Session Unit :=
  (start.play refused).2

/-- The view is paused, and a refresh during the pause is not heard. -/
def paused : Session Unit :=
  ((halted.send .pause).value.send .refresh).value

def unheard : List (Nat × Move Unit) :=
  [(900, .event (.command .pause)), (900, .event (.command .refresh))]

theorem run : Run start (start.play refused).1 halted := by
  have refused : start.AllowsAll refused := ⟨rfl, ⟨rfl, rfl⟩, ⟨rfl, rfl⟩, ⟨rfl, _, rfl, rfl⟩, trivial⟩
  exact Run.start.play refused

theorem run_paused : Run halted (paused.play unheard).1 (paused.play unheard).2 := by
  have unheard : paused.AllowsAll unheard := ⟨⟨rfl, rfl⟩, ⟨rfl, rfl⟩, trivial⟩
  exact ((Run.start.ask (.send _)).ask (.send _)).play unheard

end Failing

/-- The edited view has used up its causes, the next poll being timed; the one that failed stays halted through
a pause. -/
theorem requests_caused_edited :
    (Run Edited.start Edited.past Edited.last ∧
      (requests Edited.past).length = 2 ∧ Edited.last.view.scheduler.timer.isArmed = true ∧
      2 + 1 + 0 ≤ 1 + Edited.past.countP (·.meets View.accepts) + Edited.past.countP (·.meets View.wakes) +
        Edited.last.view.sink.applied) ∧
    Failing.halted.view.scheduler.state = .failed "no" ∧
    Run Failing.halted (Failing.paused.play Failing.unheard).1 (Failing.paused.play Failing.unheard).2 ∧
    requests (Failing.paused.play Failing.unheard).1 = [] := by
  have unasked : ∀ m ∈ (Failing.paused.play Failing.unheard).1,
      m.meets View.accepts = false ∧ m.meets View.wakes = false := by
    rintro m (_ | ⟨_, _ | ⟨_, ⟨⟩⟩⟩) <;> exact ⟨rfl, rfl⟩
  obtain ⟨bound, _, _⟩ := requests_caused Edited.run
  obtain ⟨_, _, failed⟩ := requests_caused Failing.run
  exact ⟨⟨Edited.run, rfl, rfl, bound⟩, rfl, Failing.run_paused, failed "no" rfl _ _ Failing.run_paused unasked⟩

end ProxyMonitor.Live
