import ProxyMonitor.Proofs.Live.Pause

/-! The end of a pause is one poll, at once or right behind the request that is still out. -/
namespace ProxyMonitor.Live
open ProxyMonitor.Poll
variable {α : Type}

namespace View
variable {v : View α} {now : Nat} {e : Event α} {tag : Tag}

theorem poll_endpoint (v : View α) (now : Nat) : (v.poll now).endpoint = v.endpoint := by
  unfold poll; split <;> rfl

theorem react_endpoint (v : View α) (now : Nat) (e : Event α) :
    (v.react now e).value.2.endpoint = v.endpoint := by
  refine react_cases (motive := fun r => r.2.endpoint = v.endpoint) v now e
    ?poll ?edit ?pause ?resume ?timer ?response
  case poll => exact fun _ => poll_endpoint v now
  case edit =>
    intro value _
    rw [setFilter_value]
    split
    · rfl
    · exact poll_endpoint _ now
  case pause => exact fun _ => rfl
  case resume =>
    intro _
    unfold resume
    split <;> rfl
  case timer => exact fun _ _ => rfl
  case response =>
    intro tag outcome _
    simp only [response, Logged.value_bind]
    split <;> rfl

/-- The request that an event sends off from where the view is. -/
theorem handle_sends (go : (v.react now e).value.1 = true)
    (unmoved : (v.react now e).value.2.location = v.location) :
    (v.handle now e).value.1 =
      some ⟨v.endpoint, v.location.pairs, ⟨v.scheduler.lastSeq + 1, v.filter⟩⟩ := by
  rw [handle_goes go, fetch, react_endpoint, unmoved, Scheduler.beginFetch, react_lastSeq, filter, unmoved]
  rfl

/-- Behind a request, no event but a pause or the answer touches the poll that waits. -/
theorem queues_react (h : v.scheduler.Queues tag) (unanswered : e.answer? = none) (stays : v.sleeps e = false)
    (now : Nat) : (v.react now e).value.1 = false ∧ (v.react now e).value.2.scheduler.Queues tag := by
  have polled (w : View α) (same : w.scheduler = v.scheduler) : (w.poll now).scheduler.Queues tag := by
    rw [poll_scheduler, same]
    exact h.requestPoll now
  cases e with
  | opening => exact ⟨rfl, polled v rfl⟩
  | timer kind =>
    exact Scheduler.Queues.timerFired (s := { v.scheduler with timer := .off })
      ⟨h.alive, h.awake, h.out, h.queued⟩ kind
  | response => cases unanswered
  | command c =>
    cases c with
    | setFilter value =>
      refine ⟨rfl, ?_⟩
      show (v.setFilter now value).value.scheduler.Queues tag
      rw [setFilter_value]
      split
      · exact h
      · exact polled _ rfl
    | refresh => exact ⟨rfl, polled v rfl⟩
    | pause => cases stays
    | resume =>
      rw [react, command, resume_awake h.awake]
      exact ⟨rfl, h⟩
    | togglePause => simp [sleeps, h.awake] at stays

/-- What ends a pause is its end, by whichever command. -/
theorem wakes_react (wakes : v.wakes e = true) (now : Nat) :
    v.scheduler.paused = true ∧ (v.react now e).value = v.resume.value := by
  cases e with
  | opening | timer | response => cases wakes
  | command c =>
    cases c with
    | setFilter | refresh | pause => cases wakes
    | resume => exact ⟨wakes, rfl⟩
    | togglePause =>
      have asleep : v.scheduler.paused = true := wakes
      refine ⟨asleep, ?_⟩
      rw [react, command, if_pos asleep]

end View

variable {past later : List (Moment α)} {s t : Session α} {tag : Tag}

/-- A session in which a poll waits behind the tagged request, as long as it runs. -/
structure Behind (tag : Tag) (later : List (Moment α)) (t : Session α) : Prop where
  mounted : t.phase ≠ .mounting
  unsent : requests later = []
  queues : t.phase = .running → t.view.scheduler.Queues tag

theorem Behind.make (h : Behind tag later t) {m : Move α} (allowed : t.Allows m) (now : Nat)
    (stays : (Moment.mk t now m).meets View.sleeps = false) (unanswered : (Moment.mk t now m).answer? = none) :
    Behind tag (later ++ [⟨t, now, m⟩]) (t.make now m).value := by
  have mounted : (t.make now m).value.phase ≠ .mounting := Session.make_phase allowed
  cases m with
  | event e =>
    have opened : e ≠ .opening := by
      rintro rfl
      exact h.mounted allowed
    have queues := h.queues (Session.running_of_allows allowed (by simpa using opened))
    obtain ⟨wait, queues⟩ := View.queues_react queues unanswered stays now
    refine ⟨mounted, ?_, fun _ => ?_⟩
    · rw [requests_concat, h.unsent, Moment.request?_event, View.handle_waits wait]
      rfl
    · rw [Session.make, Session.react_view, View.handle_waits wait]
      exact queues
  | handOver => exact ⟨mounted, by simpa [Moment.request?] using h.unsent, fun _ => h.queues allowed.1⟩
  | crash | leave => exact ⟨mounted, by simpa [Moment.request?] using h.unsent, fun running => by cases running⟩

theorem Run.behind (on : Run s later t) (behind : Behind tag [] s)
    (stays : ∀ m ∈ later, m.meets View.sleeps = false) (unanswered : answers later = []) : Behind tag later t := by
  induction on with
  | start => exact behind
  | ask _ asked ih =>
    obtain ⟨_, _, _, rfl⟩ := asked.eq_with
    have before := ih stays unanswered
    exact ⟨before.mounted, before.unsent, before.queues⟩
  | @make later t now m on allowed ih =>
    rw [answers_concat, List.append_eq_nil_iff] at unanswered
    have before := ih (fun m hm => stays m (List.mem_append_left _ hm)) unanswered.1
    have stays := stays _ (List.mem_append_right _ (List.mem_singleton_self _))
    exact before.make allowed now stays (by simpa using unanswered.2)

section Mounted
variable {endpoint : String} {location : Location} {schedule : Schedule} {service : Service α}

/-- The end of a pause is one poll, for the filter and with the pairs that the view has when its request goes out:
at once where no request is out, and otherwise in the moment in which the one that is out is answered, however
it is and whatever came in between but a pause. -/
theorem resume_polls_once (run : Run (Session.mount endpoint location schedule service).value past s) {c : Command}
    (wakes : s.view.wakes (.command c) = true) (allowed : s.Allows (.event (.command c))) (now : Nat) :
    (s.slot = .free →
      (Moment.mk s now (.event (.command c))).request? =
        some ⟨s.view.endpoint, s.view.location.pairs, ⟨s.view.scheduler.lastSeq + 1, s.view.filter⟩⟩) ∧
    (∀ tag, s.slot.tag? = some tag → ∀ later t, Run (s.make now (.event (.command c))).value later t →
      (∀ m ∈ later, m.meets View.sleeps = false) → answers later = [] →
      requests (⟨s, now, .event (.command c)⟩ :: later) = [] ∧
      ∀ time tag' outcome, t.Allows (.event (.response tag' outcome)) →
        tag' = tag ∧
        (Moment.mk t time (.event (.response tag' outcome))).request? =
          some ⟨t.view.endpoint, t.view.location.pairs, ⟨t.view.scheduler.lastSeq + 1, t.view.filter⟩⟩ ∧
        (t.make time (.event (.response tag' outcome))).value.view.scheduler.timer = .off) := by
  have settled : s.view.Settled := run.settled allowed.1
  have alive : s.view.scheduler.tornDown = false := Scheduler.Settled.alive settled
  obtain ⟨paused, reacted⟩ := View.wakes_react wakes now
  rw [View.resume_paused paused] at reacted
  refine ⟨fun free => ?_, fun tag out later t on stays unanswered => ?_⟩
  · have out := (run.slot_eq_free allowed.1).mp free
    refine View.handle_sends ?_ ?_
    · rw [reacted, Scheduler.resume_waiting alive paused out]
    · rw [reacted]
  · rw [run.ordered.slot (by simp [allowed.1])] at out
    obtain ⟨wait, queues⟩ := Scheduler.resume_queues alive paused out
    have handled := View.handle_waits ((congrArg Prod.fst reacted).trans wait)
    have resumed := run.make now _ allowed
    have behind : Behind tag [] (s.make now (.event (.command c))).value := by
      refine ⟨Session.make_phase allowed, rfl, fun _ => ?_⟩
      rw [Session.make, Session.react_view, handled, reacted]
      exact queues
    have later_behind := on.behind behind stays unanswered
    have unsent : (Moment.mk s now (.event (.command c))).request? = none := congrArg Prod.fst handled
    refine ⟨by rw [requests, List.filterMap_cons_none unsent]; exact later_behind.unsent, ?_⟩
    intro time tag' outcome answered
    have queues := later_behind.queues answered.1
    have awaited := (resumed.trans on).ordered.awaited answered
    obtain rfl : tag = tag' := Option.some.inj (queues.out.symm.trans awaited)
    have go : (t.view.react time (.response tag outcome)).value.1 = true := by
      rw [View.react, View.response_go]
      exact queues.response_goes time _ _
    refine ⟨rfl, View.handle_sends go (View.response_location _ _ _ _), ?_⟩
    rw [Session.make, Session.react_view, View.handle_goes go]
    rfl

end Mounted

namespace Resumed

/-- The pause is over for a view whose first request is still out. -/
def loading : Session Unit :=
  (((Paused.asleep.play (Paused.unheard.take 2)).2.send .resume).value.send (.setFilter "b")).value

def awake : Session Unit :=
  (loading.make 800 (.event (.command .resume))).value

/-- The quiet time of an edit ends behind the request. -/
def edited : List (Nat × Move Unit) :=
  [(800, .event (.command (.setFilter "b"))), (1300, .event (.timer .debounce))]

/-- The pause is over for a view whose first request was answered in it. -/
def idle : Session Unit :=
  ((Paused.asleep.play Paused.unheard).2.send .resume).value

theorem run_asleep : Run Edited.start
    ((Edited.start.play Edited.loading).1 ++ [⟨Paused.loading, 600, .event (.command .pause)⟩]) Paused.asleep :=
  Paused.run.make 600 _ ⟨rfl, rfl⟩

theorem run_loading : ∃ past, Run Edited.start past loading := by
  have edited : Paused.asleep.AllowsAll (Paused.unheard.take 2) := ⟨⟨rfl, rfl⟩, ⟨rfl, rfl⟩, trivial⟩
  exact ⟨_, ((run_asleep.play edited).ask (.send _)).ask (.send _)⟩

theorem run_idle : ∃ past, Run Edited.start past idle :=
  ⟨_, (run_asleep.trans Paused.run_unheard).ask (.send _)⟩

theorem run_edited : Run awake (awake.play edited).1 (awake.play edited).2 := by
  have edited : awake.AllowsAll edited := ⟨⟨rfl, rfl⟩, ⟨rfl, rfl⟩, trivial⟩
  exact Run.start.play edited

end Resumed

/-- Behind the request from before the pause, the poll goes out for the filter of the last edit; without it, at
once. -/
theorem resume_polls_once_edited :
    (∃ past, Run Edited.start past Resumed.idle) ∧ Resumed.idle.slot = .free ∧
    (Moment.mk Resumed.idle 1500 (.event (.command .resume))).request? =
      some ⟨"/api/history", [("filter", "a")], ⟨2, "a"⟩⟩ ∧
    (∃ past, Run Edited.start past Resumed.loading) ∧ Resumed.loading.slot.tag? = some ⟨1, ""⟩ ∧
    Run Resumed.awake (Resumed.awake.play Resumed.edited).1 (Resumed.awake.play Resumed.edited).2 ∧
    requests (Resumed.awake.play Resumed.edited).1 = [] ∧
    (Moment.mk (Resumed.awake.play Resumed.edited).2 1400
        (.event (.response ⟨1, ""⟩ (.ok ⟨3, [(), ()], none⟩)))).request? =
      some ⟨"/api/history", [("filter", "b")], ⟨2, "b"⟩⟩ := by
  obtain ⟨past, idle⟩ := Resumed.run_idle
  obtain ⟨past', loading⟩ := Resumed.run_loading
  have stays : ∀ m ∈ (Resumed.awake.play Resumed.edited).1, m.meets View.sleeps = false := by
    rintro m (_ | ⟨_, _ | ⟨_, ⟨⟩⟩⟩) <;> rfl
  obtain ⟨atOnce, _⟩ := resume_polls_once idle (c := .resume) rfl ⟨rfl, rfl⟩ 1500
  obtain ⟨_, behind⟩ := resume_polls_once loading (c := .resume) rfl ⟨rfl, rfl⟩ 800
  obtain ⟨unsent, sends⟩ := behind ⟨1, ""⟩ rfl _ _ Resumed.run_edited stays rfl
  obtain ⟨_, sent, _⟩ := sends 1400 ⟨1, ""⟩ (.ok ⟨3, [(), ()], none⟩) ⟨rfl, _, rfl, rfl⟩
  exact ⟨⟨past, idle⟩, rfl, atOnce rfl, ⟨past', loading⟩, rfl, Resumed.run_edited, unsent, sent⟩

end ProxyMonitor.Live
