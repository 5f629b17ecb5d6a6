import ProxyMonitor.Proofs.Live.Causes

/-! A pause leaves a view as it is, but for its location and the request that is out. -/
namespace ProxyMonitor.Live
open ProxyMonitor.Poll
variable {α : Type}

namespace View
variable {v : View α} {now : Nat} {e : Event α} {tag : Tag} {outcome : Except Failure (Answer α)}
  {location : Location} {inFlight : Option Tag}

/-- The event pauses the view. -/
def sleeps (v : View α) : Event α → Bool
  | .command .pause => true
  | .command .togglePause => !v.scheduler.paused
  | _ => false

/-- The view in a pause, with the location and the request that is out by then. -/
def asleep (v : View α) (location : Location) (inFlight : Option Tag) : View α :=
  { v with
    location
    scheduler := { v.scheduler with inFlight, state := .paused, paused := true, queued := false, timer := .off } }

theorem asleep_isDeaf (v : View α) (location : Location) (inFlight : Option Tag) :
    (v.asleep location inFlight).scheduler.isDeaf = true :=
  Scheduler.isDeaf_of_paused rfl

theorem pause_asleep (alive : v.scheduler.tornDown = false) :
    v.pause.value = v.asleep v.location v.scheduler.inFlight := by
  have paused := Scheduler.pause_alive alive
  exact congrArg (fun scheduler => { v with scheduler }) paused

theorem sleeps_react (pauses : v.sleeps e = true) (now : Nat) : (v.react now e).value = (false, v.pause.value) := by
  cases e with
  | opening | timer | response => cases pauses
  | command c =>
    cases c with
    | setFilter | refresh | resume => cases pauses
    | pause => rfl
    | togglePause =>
      have awake : v.scheduler.paused = false := by simpa [sleeps] using pauses
      simp only [react, command, awake]
      rfl

theorem asleep_poll : (v.asleep location inFlight).poll now = v.asleep location inFlight := by
  rw [poll, if_pos (asleep_isDeaf v location inFlight)]

theorem asleep_setFilter (value : String) :
    ((v.asleep location inFlight).setFilter now value).value = v.asleep (location.setFilter value) inFlight := by
  rw [setFilter_value]
  split
  · rfl
  · exact asleep_poll

theorem asleep_timerFired (kind : TimerKind) :
    ((v.asleep location inFlight).timerFired kind).value = (false, v.asleep location inFlight) := by
  have deaf := Scheduler.timerFired_deaf (asleep_isDeaf v location inFlight) kind
  exact congrArg (fun r => (r.1, { v.asleep location inFlight with scheduler := r.2 })) deaf

/-- But for an answer and for the end of the pause, an event finds the view deaf: only an edit changes it, in its
location. -/
theorem asleep_react (alive : v.scheduler.tornDown = false) (unanswered : e.answer? = none)
    (stays : (v.asleep location inFlight).wakes e = false) (now : Nat) :
    ∃ later, ((v.asleep location inFlight).react now e).value = (false, v.asleep later inFlight) := by
  cases e with
  | opening => exact ⟨location, congrArg (Prod.mk false) asleep_poll⟩
  | timer kind => exact ⟨location, asleep_timerFired kind⟩
  | response => cases unanswered
  | command c =>
    cases c with
    | setFilter value => exact ⟨location.setFilter value, congrArg (Prod.mk false) (asleep_setFilter value)⟩
    | refresh => exact ⟨location, congrArg (Prod.mk false) asleep_poll⟩
    | pause => exact ⟨location, congrArg (Prod.mk false) (pause_asleep (v := v.asleep location inFlight) alive)⟩
    | resume | togglePause => cases stays

/-- The answer that comes in a pause is for nobody. -/
theorem asleep_response (alive : v.scheduler.tornDown = false) :
    ((v.asleep location (some tag)).response now tag outcome).value = (false, v.asleep location none) := by
  have discarded : ((v.asleep location (some tag)).scheduler.response now tag
      (v.asleep location (some tag)).filter (problem? outcome)).value = _ :=
    Scheduler.response_paused rfl alive rfl
  have unwanted : (v.asleep location (some tag)).counts tag = false := by
    rw [counts, asleep_isDeaf]
    rfl
  refine Prod.ext ?_ ?_
  · rw [response_go, discarded]
  · rw [response_ignored unwanted, discarded]
    rfl

end View

variable {past later : List (Moment α)} {s t : Session α} {now : Nat} {v : View α}

/-- A session whose view was paused, by what happened to it since. -/
structure Asleep (v : View α) (later : List (Moment α)) (t : Session α) : Prop where
  mounted : t.phase ≠ .mounting
  unsent : requests later = []
  view : t.view = v.asleep t.view.location t.view.scheduler.inFlight
  out : answers later = [] → t.view.scheduler.inFlight = v.scheduler.inFlight
  answered : answers later ≠ [] → t.view.scheduler.inFlight = none

namespace Asleep

/-- An event that finds the view asleep and leaves it so. -/
theorem react {e : Event α} {location : Location} {inFlight : Option Tag} (h : Asleep v later t)
    (allowed : t.Allows (.event e))
    (reacted : (t.view.react now e).value = (false, v.asleep location inFlight))
    (out : answers (later ++ [⟨t, now, .event e⟩]) = [] → inFlight = v.scheduler.inFlight)
    (answered : answers (later ++ [⟨t, now, .event e⟩]) ≠ [] → inFlight = none) :
    Asleep v (later ++ [⟨t, now, .event e⟩]) (t.react now e).value := by
  have handled : (t.view.handle now e).value = (none, v.asleep location inFlight) := by
    rw [View.handle_waits (by rw [reacted]), reacted]
  have viewed : (t.react now e).value.view = v.asleep location inFlight := by
    rw [Session.react_view, handled]
  refine ⟨Session.make_phase allowed, ?_, ?_, ?_, ?_⟩
  · rw [requests_concat, h.unsent, Moment.request?_event, handled]
    rfl
  · rw [viewed]
    rfl
  · rw [viewed]
    exact out
  · rw [viewed]
    exact answered

/-- A move keeps the view asleep, but for the end of the pause or of the view. -/
theorem make (h : Asleep v later t) (alive : v.scheduler.tornDown = false) (ordered : Ordered past t) {m : Move α}
    (allowed : t.Allows m) (stays : (Moment.mk t now m).meets View.wakes = false) (stayed : m ≠ .leave) :
    Asleep v (later ++ [⟨t, now, m⟩]) (t.make now m).value := by
  cases m with
  | event e =>
    cases he : e.answer? with
    | none =>
      have stays : t.view.wakes e = false := stays
      rw [h.view] at stays
      obtain ⟨location, reacted⟩ := View.asleep_react alive he stays now
      rw [← h.view] at reacted
      have unanswered : answers (later ++ [⟨t, now, .event e⟩]) = answers later := by
        simp [he]
      exact h.react allowed reacted (by rw [unanswered]; exact h.out) (by rw [unanswered]; exact h.answered)
    | some answer =>
      cases e with
      | opening | command | timer => cases he
      | response tag outcome =>
        have reacted : (t.view.react now (.response tag outcome)).value = (false, v.asleep t.view.location none) := by
          rw [h.view, ordered.awaited allowed]
          exact View.asleep_response alive
        exact h.react allowed reacted (by simp [Event.answer?]) fun _ => rfl
  | handOver | crash =>
    refine ⟨Session.make_phase allowed, by simpa [Moment.request?] using h.unsent, h.view,
      fun first => h.out ?_, fun answered => h.answered ?_⟩
    · simpa [Moment.answer?] using first
    · simpa [Moment.answer?] using answered
  | leave => exact absurd rfl stayed

/-- The answer that comes is to the request that was out when the view was paused. -/
theorem discards (h : Asleep v later t) (alive : v.scheduler.tornDown = false) (ordered : Ordered past t) {tag : Tag}
    {outcome : Except Failure (Answer α)} (allowed : t.Allows (.event (.response tag outcome))) :
    v.scheduler.inFlight = some tag ∧ t.view.result? (.response tag outcome) = none ∧
      (t.view.scheduler.response now tag t.view.filter (View.problem? outcome)).value.1 = .discardPaused := by
  have out := ordered.awaited allowed
  have first : answers later = [] := by
    by_contra answered
    rw [h.answered answered] at out
    cases out
  have asleep : t.view.scheduler.tornDown = false ∧ t.view.scheduler.paused = true := by
    rw [h.view]
    exact ⟨alive, rfl⟩
  refine ⟨by rw [← h.out first, out], ?_, ?_⟩
  · refine View.result?_of_not_counts ?_
    rw [View.counts, Scheduler.isDeaf_of_paused asleep.2]
    rfl
  · rw [Scheduler.response_paused out asleep.1 asleep.2]

end Asleep

section Mounted
variable {endpoint : String} {location : Location} {schedule : Schedule} {service : Service α}

theorem Run.asleep (run : Run (Session.mount endpoint location schedule service).value past s)
    (asleep : Asleep v [] s) (alive : v.scheduler.tornDown = false) (on : Run s later t)
    (stays : ∀ m ∈ later, m.meets View.wakes = false ∧ m.move ≠ .leave) : Asleep v later t := by
  induction on with
  | start => exact asleep
  | ask _ asked ih =>
    obtain ⟨_, _, _, rfl⟩ := asked.eq_with
    have before := ih stays
    exact ⟨before.mounted, before.unsent, before.view, before.out, before.answered⟩
  | @make later t now m on allowed ih =>
    have before := ih fun m hm => stays m (List.mem_append_left _ hm)
    obtain ⟨unwoken, stayed⟩ := stays _ (List.mem_append_right _ (List.mem_singleton_self _))
    exact before.make alive (run.trans on).ordered allowed unwoken stayed

/-- From a pause on until the view is resumed or ended, no request goes out, and the view stays as the pause found
it but for its label, for the polls that the pause took back, for its location and for the request that was out.
The answer to that one is discarded. -/
theorem pause_freezes (run : Run (Session.mount endpoint location schedule service).value past s) {c : Command}
    (pauses : s.view.sleeps (.command c) = true) (allowed : s.Allows (.event (.command c))) (now : Nat)
    (on : Run (s.make now (.event (.command c))).value later t)
    (stays : ∀ m ∈ later, m.meets View.wakes = false ∧ m.move ≠ .leave) :
    requests (⟨s, now, .event (.command c)⟩ :: later) = [] ∧
    t.shown = t.view ∧
    t.view = { s.view with
      location := t.view.location
      scheduler := { s.view.scheduler with
        state := .paused
        paused := true
        queued := false
        timer := .off
        inFlight := t.view.scheduler.inFlight } } ∧
    (answers later = [] → t.view.scheduler.inFlight = s.view.scheduler.inFlight) ∧
    (answers later ≠ [] → t.view.scheduler.inFlight = none) ∧
    (∀ m ∈ later, ∀ tag outcome, m.move = .event (.response tag outcome) →
      s.view.scheduler.inFlight = some tag ∧ m.result? = none ∧
      (m.before.view.scheduler.response m.now tag m.before.view.filter (View.problem? outcome)).value.1 =
        .discardPaused) := by
  have alive : s.view.scheduler.tornDown = false := Scheduler.Settled.alive (run.settled allowed.1)
  have reacted := (View.sleeps_react pauses now).trans (congrArg (Prod.mk false) (View.pause_asleep alive))
  have handled := View.handle_waits (congrArg Prod.fst reacted)
  rw [reacted] at handled
  have asleep : Asleep s.view [] (s.make now (.event (.command c))).value := by
    have viewed : (s.make now (.event (.command c))).value.view =
        s.view.asleep s.view.location s.view.scheduler.inFlight := by
      rw [Session.make, Session.react_view, handled]
    exact ⟨Session.make_phase allowed, rfl, by rw [viewed]; rfl, fun _ => by rw [viewed]; rfl, (absurd rfl ·)⟩
  have paused := run.make now _ allowed
  have frozen := paused.asleep asleep alive on stays
  refine ⟨?_, (paused.trans on).shown_eq, frozen.view, frozen.out, frozen.answered, ?_⟩
  · have unsent : (Moment.mk s now (.event (.command c))).request? = none := congrArg Prod.fst handled
    rw [requests, List.filterMap_cons_none unsent]
    exact frozen.unsent
  · intro m hm tag outcome hmove
    obtain ⟨earlier, before, answered, first⟩ := on.moment hm
    have stays := fun x hx => stays x (first.subset (List.mem_append_left _ hx))
    obtain ⟨x, time, move⟩ := m
    subst hmove
    exact (paused.asleep asleep alive before stays).discards alive (paused.trans before).ordered answered

end Mounted

namespace Paused

/-- The view is to be paused while its first request is out, and to be edited then. -/
def loading : Session Unit :=
  ((((Edited.start.play Edited.loading).2.send .pause).value.send (.setFilter "a")).value.send .refresh).value

def asleep : Session Unit :=
  (loading.make 600 (.event (.command .pause))).value

def unheard : List (Nat × Move Unit) :=
  [(700, .event (.command (.setFilter "a"))), (700, .event (.command .refresh)),
    (1400, .event (.response ⟨1, ""⟩ (.ok ⟨3, [(), ()], none⟩)))]

theorem run : Run Edited.start (Edited.start.play Edited.loading).1 loading :=
  ((Edited.run_loading.ask (.send _)).ask (.send _)).ask (.send _)

theorem run_unheard : Run asleep (asleep.play unheard).1 (asleep.play unheard).2 := by
  have unheard : asleep.AllowsAll unheard := ⟨⟨rfl, rfl⟩, ⟨rfl, rfl⟩, ⟨rfl, _, rfl, rfl⟩, trivial⟩
  exact Run.start.play unheard

end Paused

/-- The edit during the pause is kept, and the answer to the request from before it is not. -/
theorem pause_freezes_loading :
    Run Edited.start (Edited.start.play Edited.loading).1 Paused.loading ∧
    Run Paused.asleep (Paused.asleep.play Paused.unheard).1 (Paused.asleep.play Paused.unheard).2 ∧
    Paused.loading.view.sleeps (.command .pause) = true ∧ Paused.loading.Allows (.event (.command .pause)) ∧
    (Paused.asleep.play Paused.unheard).2.view.filter = "a" ∧
    (answers (Paused.asleep.play Paused.unheard).1).map Prod.fst = [⟨1, ""⟩] ∧
    requests (Paused.asleep.play Paused.unheard).1 = [] ∧
    (Paused.asleep.play Paused.unheard).2.view.scheduler.inFlight = none ∧
    (Paused.asleep.play Paused.unheard).2.view.sink = Paused.loading.view.sink := by
  have stays : ∀ m ∈ (Paused.asleep.play Paused.unheard).1,
      m.meets View.wakes = false ∧ m.move ≠ .leave := by
    rintro m (_ | ⟨_, _ | ⟨_, _ | ⟨_, ⟨⟩⟩⟩⟩) <;> exact ⟨rfl, by rintro ⟨⟩⟩
  obtain ⟨unsent, _, frozen, _, answered, _⟩ :=
    pause_freezes Paused.run rfl ⟨rfl, rfl⟩ 600 Paused.run_unheard stays
  exact ⟨Paused.run, Paused.run_unheard, rfl, ⟨rfl, rfl⟩, rfl, rfl, unsent, answered (by rintro ⟨⟩),
    by rw [frozen]⟩

end ProxyMonitor.Live
