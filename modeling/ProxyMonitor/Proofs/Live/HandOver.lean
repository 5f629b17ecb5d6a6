import ProxyMonitor.Proofs.Live.Burst

/-! From the moment in which a request is prepared to the one in which the service gets it. All commands that wait
by then are handled in between, so a pause or an edit may overtake the request; nothing else can. -/
namespace ProxyMonitor.Live
open ProxyMonitor.Poll
variable {α : Type}

namespace View
variable {v : View α} {now : Nat} {e : Event α}

/-- Only a pause puts a view to sleep. -/
theorem react_awake (awake : v.scheduler.paused = false) (unanswered : e.answer? = none) (stays : v.sleeps e = false)
    (now : Nat) : (v.react now e).value.2.scheduler.paused = false := by
  cases e with
  | opening => exact (poll_paused v now).trans awake
  | timer kind => exact (Scheduler.timerFired_paused _ kind).trans awake
  | response => cases unanswered
  | command c =>
    cases c with
    | setFilter value => exact (setFilter_paused v now value).trans awake
    | refresh => exact (poll_paused v now).trans awake
    | pause => cases stays
    | resume =>
      rw [react, command, resume_awake awake]
      exact awake
    | togglePause => simp [sleeps, awake] at stays

/-- Only an edit that changes the filter gives a view another one. -/
theorem react_filter (unchanged : v.changes e = false) (now : Nat) :
    (v.react now e).value.2.filter = v.filter := by
  have unmoved {w : View α} (same : w.location = v.location) : w.filter = v.filter :=
    congrArg Location.filter same
  cases e with
  | opening => exact unmoved (poll_location v now)
  | timer kind => rfl
  | response tag outcome => exact response_filter v now tag outcome
  | command c =>
    cases c with
    | setFilter value =>
      have same : v.filter = value := by simpa [changes] using unchanged
      exact (setFilter_filter v now value).trans same.symm
    | refresh => exact unmoved (poll_location v now)
    | pause => rfl
    | resume => exact unmoved (resume_location v)
    | togglePause =>
      rw [react, command]
      split
      · exact unmoved (resume_location v)
      · rfl

/-- A request is prepared for a view that is not paused. -/
theorem handle_awake {r : Request} (h : (v.handle now e).value.1 = some r) :
    (v.handle now e).value.2.scheduler.paused = false := by
  obtain ⟨go, _, hv⟩ := handle_some h
  rw [hv]
  exact (react_ready go).awake

end View

variable {past between : List (Moment α)} {s : Session α} {p m : Moment α} {r : Request} {now : Nat}

/-- A request that is outgoing since the moment `p`. Of what it was prepared for, a pause and an edit among the moves
since then may have left nothing; the others have left all of it. -/
structure Outgoing (past between : List (Moment α)) (p : Moment α) (r : Request) (s : Session α) : Prop where
  running : s.phase = .running
  since : (p :: between) <:+ past
  prepared : p.request? = some r
  alone : ∀ m ∈ between, m.request? = none
  awake : (∀ m ∈ between, m.meets View.sleeps = false) → s.view.scheduler.paused = false
  filter : (∀ m ∈ between, m.meets View.changes = false) → r.tag.filter = s.view.filter

/-- The request that a move prepares goes out for the view as the move leaves it. -/
theorem Moment.prepared_for (h : p.request? = some r) : p.after.view.scheduler.paused = false ∧
    r.tag.filter = p.after.view.filter ∧ r.params = p.after.view.location.pairs := by
  obtain ⟨s, now, move⟩ := p
  cases move with
  | handOver | crash | leave => cases h
  | event e =>
    have h : (s.view.handle now e).value.1 = some r := h
    rw [Moment.after, Session.make, Session.react_view]
    obtain ⟨params, filter⟩ := View.handle_request h
    exact ⟨View.handle_awake h, filter, params⟩

namespace Outgoing

theorem begins {e : Event α} (allowed : s.Allows (.event e)) (h : (s.view.handle now e).value.1 = some r) :
    Outgoing (past ++ [⟨s, now, .event e⟩]) [] ⟨s, now, .event e⟩ r (s.make now (.event e)).value := by
  obtain ⟨awake, filter, _⟩ := Moment.prepared_for (p := ⟨s, now, .event e⟩) h
  exact ⟨Session.make_running allowed, List.suffix_append _ _, h, by simp, fun _ => awake, fun _ => filter⟩

/-- An event that does not answer it leaves the request where it is. -/
theorem stays (h : Outgoing past between p r s) {e : Event α} (allowed : s.Allows (.event e))
    (unanswered : e.answer? = none) (unsent : (s.view.handle now e).value.1 = none) :
    Outgoing (past ++ [⟨s, now, .event e⟩]) (between ++ [⟨s, now, .event e⟩]) p r
      (s.make now (.event e)).value := by
  obtain ⟨_, handled⟩ := View.handle_none unsent
  have here : (⟨s, now, .event e⟩ : Moment α) ∈ between ++ [⟨s, now, .event e⟩] :=
    List.mem_append_right _ (List.mem_singleton_self _)
  refine ⟨Session.make_running allowed, ?_, h.prepared, ?_, fun stays => ?_, fun same => ?_⟩
  · obtain ⟨earlier, hpast⟩ := h.since
    exact ⟨earlier, by rw [← hpast]; simp⟩
  · intro m hm
    rcases List.mem_append.mp hm with hm | hm
    · exact h.alone m hm
    · rw [List.mem_singleton.mp hm]
      exact unsent
  · rw [Session.make, Session.react_view, handled]
    have awake := h.awake fun m hm => stays m (List.mem_append_left _ hm)
    exact View.react_awake awake unanswered (stays _ here) now
  · rw [Session.make, Session.react_view, handled, View.react_filter (same _ here) now]
    exact h.filter fun m hm => same m (List.mem_append_left _ hm)

end Outgoing

section Mounted
variable {endpoint : String} {location : Location} {schedule : Schedule} {service : Service α}

theorem Run.outgoing (run : Run (Session.mount endpoint location schedule service).value past s)
    (out : s.slot = .outgoing r) : ∃ p between, Outgoing past between p r s := by
  induction run generalizing r with
  | start => cases out
  | ask _ asked ih =>
    obtain ⟨_, _, _, rfl⟩ := asked.eq_with
    obtain ⟨p, between, h⟩ := ih out
    exact ⟨p, between, h.running, h.since, h.prepared, h.alone, h.awake, h.filter⟩
  | @make past s now m run allowed ih =>
    cases m with
    | event e =>
      rw [Session.make, Session.react_slot] at out
      cases sent : (s.view.handle now e).value.1 with
      | some request =>
        rw [sent] at out
        cases out
        exact ⟨_, [], Outgoing.begins allowed sent⟩
      | none =>
        rw [sent] at out
        have unanswered : e.answer? = none := by
          cases e with
          | opening | command | timer => rfl
          | response => cases out
        rw [Session.take_slot unanswered] at out
        obtain ⟨p, between, h⟩ := ih out
        exact ⟨p, _, h.stays allowed unanswered sent⟩
    | handOver | leave => cases out
    | crash =>
      obtain ⟨_, a, awaited⟩ := allowed
      cases awaited.symm.trans out

/-- A request is prepared for a view that is not paused, for the filter and with the pairs that it has then. When
the service gets it, the view is still not paused unless a pause was handled in between, and still has that
filter unless an edit that changes it was. -/
theorem handed_over_current (run : Run (Session.mount endpoint location schedule service).value past s)
    (made : m ∈ past) (handed : m.move = .handOver r) :
    ∃ p between, (p :: between ++ [m]) <:+: past ∧
      (p.request? = some r ∧ p.after.view.scheduler.paused = false ∧ r.tag.filter = p.after.view.filter ∧
        r.params = p.after.view.location.pairs) ∧
      (∀ x ∈ between, x.request? = none) ∧
      ((∀ x ∈ between, x.meets View.sleeps = false) → m.before.view.scheduler.paused = false) ∧
      ((∀ x ∈ between, x.meets View.changes = false) → r.tag.filter = m.before.view.filter) := by
  obtain ⟨earlier, before, allowed, first⟩ := run.moment made
  rw [handed] at allowed
  obtain ⟨p, between, out⟩ := before.outgoing allowed.2
  refine ⟨p, between, ?_, ⟨out.prepared, Moment.prepared_for out.prepared⟩, out.alone, out.awake, out.filter⟩
  obtain ⟨start, hearlier⟩ := out.since
  obtain ⟨rest, hpast⟩ := first
  exact ⟨start, rest, by rw [← hpast, ← hearlier]; simp⟩

end Mounted

namespace Refreshed

/-- The first request is prepared, and a refresh waits. -/
def polling : Session Unit :=
  ((Edited.start.play (Edited.loading.take 2)).2.send .refresh).value

def request : Request :=
  ⟨"/api/history", [], ⟨1, ""⟩⟩

def handing : List (Nat × Move Unit) :=
  [(500, .event (.command .refresh)), (500, .handOver request)]

def moves : List (Moment Unit) :=
  (Edited.start.play (Edited.loading.take 2)).1 ++ (polling.play handing).1

theorem run : Run Edited.start moves (polling.play handing).2 := by
  have loading : Edited.start.AllowsAll (Edited.loading.take 2) := ⟨rfl, ⟨rfl, rfl⟩, trivial⟩
  have handing : polling.AllowsAll handing := ⟨⟨rfl, rfl⟩, ⟨rfl, rfl⟩, trivial⟩
  exact ((Run.start.play loading).ask (.send _)).play handing

end Refreshed

/-- A refresh does not overtake a request. -/
theorem handed_over_current_refreshed : Run Edited.start Refreshed.moves (Refreshed.polling.play Refreshed.handing).2 ∧
    ∃ m ∈ Refreshed.moves, m.move = .handOver Refreshed.request ∧ m.now = 500 ∧
      m.before.view.scheduler.paused = false ∧ m.before.view.filter = "" := by
  have length : 3 < Refreshed.moves.length := by decide
  have kept : ∀ x ∈ Refreshed.moves, x.meets View.sleeps = false ∧ x.meets View.changes = false := by decide
  obtain ⟨p, between, inside, _, _, awake, filter⟩ :=
    handed_over_current (m := Refreshed.moves[3]) Refreshed.run (List.getElem_mem length) rfl
  have kept : ∀ x ∈ between, x.meets View.sleeps = false ∧ x.meets View.changes = false := fun x hx =>
    kept x (inside.subset (List.mem_append_left _ (List.mem_cons_of_mem _ hx)))
  exact ⟨Refreshed.run, _, List.getElem_mem length, rfl, rfl, awake fun x hx => (kept x hx).1,
    (filter fun x hx => (kept x hx).2).symm⟩

namespace Overtaken

/-- A view with a filter, which is paused at once. -/
def start : Session Unit :=
  (Session.mount "/history" ⟨"/history", [("filter", "a")]⟩ ⟨500, 2000⟩
    ⟨[], ⟨10, fun _ => pure (some (.ok ⟨1, [()], none⟩))⟩⟩).value

def opened : Session Unit :=
  ((start.play Typed.opening).2.send .pause).value

/-- The end of the pause, an edit and another pause wait when the view runs next. -/
def waiting : Session Unit :=
  ((((opened.make 0 (.event (.command .pause))).value.send .resume).value.send (.setFilter "b")).value.send
    .pause).value

def commands : List (Nat × Move Unit) :=
  [(0, .event (.command .resume)), (0, .event (.command (.setFilter "b"))), (0, .event (.command .pause))]

def handing : Session Unit :=
  (waiting.play commands).2

def request : Request :=
  ⟨"/history", [("filter", "a")], ⟨1, "a"⟩⟩

def moves : List (Moment Unit) :=
  (start.play Typed.opening).1 ++ ⟨opened, 0, .event (.command .pause)⟩ :: (waiting.play commands).1

theorem clocked : Clocked start 0 moves 0 handing := by
  have paused := ((Clocked.start.make rfl).ask (.send .pause)).make (s := opened) rfl
  have waits := ((paused.ask (.send .resume)).ask (.send (.setFilter "b"))).ask (.send .pause)
  exact (((waits.make (s := waiting) rfl).make rfl).make rfl)

end Overtaken

/-- Of commands that wait together, the end of a pause prepares a request which the service gets only once the
others are handled: by then the view is paused and has another filter. -/
theorem handed_over_overtaken :
    Clocked Overtaken.start 0 (Overtaken.moves ++ [⟨Overtaken.handing, 0, .handOver Overtaken.request⟩]) 0
      (Overtaken.handing.make 0 (.handOver Overtaken.request)).value ∧
    (Overtaken.handing.make 0 (.handOver Overtaken.request)).value.calls = [⟨Overtaken.request, 0⟩] ∧
    Overtaken.handing.view.scheduler.paused = true ∧ Overtaken.handing.view.filter = "b" ∧
    Overtaken.request.tag.filter = "a" :=
  ⟨Overtaken.clocked.make rfl, rfl, rfl, rfl, rfl⟩

end ProxyMonitor.Live
