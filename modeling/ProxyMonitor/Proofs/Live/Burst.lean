import Mathlib.Data.List.Chain
import ProxyMonitor.Proofs.Live.Clock
import ProxyMonitor.Proofs.Live.Resume

/-! A burst of edits is one poll: its request goes out when the quiet time after the last edit is over. -/
namespace ProxyMonitor.Live
open ProxyMonitor.Poll
variable {α : Type}

namespace Event

def isTimer : Event α → Bool
  | .timer _ => true
  | _ => false

def isCommand : Event α → Bool
  | .command _ => true
  | _ => false

end Event

namespace View
variable {v : View α} {now : Nat}

/-- The event is an edit that changes the filter. -/
def changes (v : View α) : Event α → Bool
  | .command (.setFilter value) => v.filter != value
  | _ => false

@[simp] theorem setFilter_filter (v : View α) (now : Nat) (value : String) :
    (v.setFilter now value).value.filter = value := by
  rw [filter, setFilter_location, Location.filter_setFilter]

@[simp] theorem poll_paused (v : View α) (now : Nat) : (v.poll now).scheduler.paused = v.scheduler.paused := by
  rw [poll_scheduler, Scheduler.requestPoll]
  split <;> rfl

@[simp] theorem setFilter_paused (v : View α) (now : Nat) (value : String) :
    (v.setFilter now value).value.scheduler.paused = v.scheduler.paused := by
  rw [setFilter_value]
  split
  · rfl
  · rw [poll_paused]

/-- Only an edit that changes the filter lets the quiet time start over. -/
theorem setFilter_timer (awake : v.scheduler.isDeaf = false) (now : Nat) (value : String) :
    (v.setFilter now value).value.scheduler.timer =
      if v.filter = value then v.scheduler.timer else .arm now .debounce v.scheduler.schedule.debounce := by
  rw [setFilter_value]
  split
  · rfl
  · rw [poll_scheduler, Scheduler.requestPoll_awake awake]

/-- The timer, and the answer to a request, leave the location as it is. -/
theorem handle_unmoved {e : Event α} (heard : e.isCommand = false) (v : View α) (now : Nat) :
    (v.handle now e).value.2.location = v.location := by
  rw [handle_scheduler_only]
  cases e with
  | opening => exact poll_location v now
  | command => cases heard
  | timer kind => rfl
  | response tag outcome => exact response_location v now tag outcome

end View

namespace Moment

/-- The timer fires. -/
def fires (m : Moment α) : Bool :=
  m.meets fun _ => Event.isTimer

/-- A command is handled. -/
def obeys (m : Moment α) : Bool :=
  m.meets fun _ => Event.isCommand

theorem obeys_of_changes {m : Moment α} (changed : m.meets View.changes = true) : m.obeys = true := by
  obtain ⟨s, now, move⟩ := m
  cases move with
  | event e =>
    cases e with
    | command => rfl
    | opening | timer | response => cases changed
  | handOver | crash | leave => cases changed

theorem same_filter {s : Session α} {now : Nat} {value : String} (same : s.view.filter = value) :
    (Moment.mk s now (.event (.command (.setFilter value)))).meets View.changes = false := by
  simpa [meets, View.changes] using same

end Moment

variable {past later moves : List (Moment α)} {s t : Session α} {m : Moment α} {now quiet : Nat}
  {value : String} {schedule : Schedule}

/-- The edits that change the filter. -/
def changes (moves : List (Moment α)) : List (Moment α) :=
  moves.filter (·.meets View.changes)

theorem changes_concat (changed : m.meets View.changes = true) :
    changes (moves ++ [m]) = changes moves ++ [m] := by
  simp [changes, changed]

theorem changes_concat_of_not (same : m.meets View.changes = false) :
    changes (moves ++ [m]) = changes moves := by
  simp [changes, same]

/-- No command but edits is handled, and the view is not ended. -/
structure OnlyEdited (moves : List (Moment α)) : Prop where
  stays : ∀ m ∈ moves, m.move ≠ .leave
  edits : ∀ m ∈ moves, ∀ c, m.move = .event (.command c) → ∃ value, c = .setFilter value

theorem OnlyEdited.init (only : OnlyEdited (moves ++ [m])) : OnlyEdited moves where
  stays m hm := only.stays m (List.mem_append_left _ hm)
  edits m hm := only.edits m (List.mem_append_left _ hm)

/-- Moves in which no command but edits is handled. The timer does not fire before the first edit that changes
the filter, each of these comes within the quiet time after the one before, and a command at the instant at which
the timer fires comes before it. -/
structure Burst (quiet : Nat) (moves : List (Moment α)) : Prop where
  stays : ∀ m ∈ moves, m.move ≠ .leave
  edits : ∀ m ∈ moves, ∀ c, m.move = .event (.command c) → ∃ value, c = .setFilter value
  held : ∀ m ∈ moves.takeWhile (!·.meets View.changes), m.fires = false
  close : (changes moves).IsChain fun a b => b.now ≤ a.now + quiet
  first : moves.Pairwise fun a b => a.fires = true → b.obeys = true → a.now < b.now

namespace Burst

theorem only (burst : Burst quiet moves) : OnlyEdited moves :=
  ⟨burst.stays, burst.edits⟩

theorem init (burst : Burst quiet (moves ++ [m])) : Burst quiet moves where
  stays m hm := burst.stays m (List.mem_append_left _ hm)
  edits m hm := burst.edits m (List.mem_append_left _ hm)
  held m hm := by
    refine burst.held m ?_
    rw [List.takeWhile_append]
    split
    · exact List.mem_append_left _ (List.takeWhile_subset _ hm)
    · exact hm
  close := by
    have close := burst.close
    rw [changes, List.filter_append] at close
    exact close.left_of_append
  first := (List.pairwise_append.mp burst.first).1

/-- The timer fires only after an edit that changed the filter. -/
theorem fires_after {kind : TimerKind} (burst : Burst quiet (moves ++ [⟨t, now, .event (.timer kind)⟩])) :
    changes moves ≠ [] := by
  intro none
  have unchanged : ∀ m ∈ moves, (!m.meets View.changes) = true := by
    simpa [changes, List.filter_eq_nil_iff] using none
  have held := burst.held ⟨t, now, .event (.timer kind)⟩ (by
    rw [List.takeWhile_append_of_pos unchanged]
    exact List.mem_append_right _ (List.mem_singleton_self _))
  cases held

/-- The next edit that changes the filter comes within the quiet time after the last one. -/
theorem next_le (burst : Burst quiet (moves ++ [m])) (changed : m.meets View.changes = true) {last : Moment α}
    (hlast : (changes moves).getLast? = some last) : m.now ≤ last.now + quiet := by
  have close := burst.close
  rw [changes_concat changed, List.isChain_append] at close
  exact close.2.2 last hlast m rfl

end Burst

namespace Session

theorem make_unmoved {e : Event α} (heard : e.isCommand = false) :
    (t.make now (.event e)).value.view.location = t.view.location := by
  rw [make, react_view, View.handle_unmoved heard]

theorem make_setFilter (t : Session α) (now : Nat) (value : String) :
    (t.make now (.event (.command (.setFilter value)))).value.view = (t.view.setFilter now value).value := by
  rw [make, react_view, View.handle_waits rfl]
  rfl

end Session

/-- No request is out for a view that is not paused, and none went out. -/
structure Calm (moves : List (Moment α)) (t : Session α) : Prop where
  alive : t.isStopped = false
  awake : t.view.scheduler.paused = false
  free : t.slot = .free
  unsent : requests moves = []

namespace Calm

theorem ask (calm : Calm moves s) (asked : s.Asked t) : Calm moves t := by
  obtain ⟨_, _, _, rfl⟩ := asked.eq_with
  exact ⟨calm.alive, calm.awake, calm.free, calm.unsent⟩

/-- Such a view is opened, or handles edits and its timer, as long as nothing else is asked of it. -/
theorem moves_cases (calm : Calm moves t) {m : Move α} (allowed : t.Allows m)
    (only : OnlyEdited (moves ++ [⟨t, now, m⟩])) :
    m = .event .opening ∨ (∃ value, m = .event (.command (.setFilter value))) ∨
      ∃ kind, m = .event (.timer kind) := by
  have here : (⟨t, now, m⟩ : Moment α) ∈ moves ++ [⟨t, now, m⟩] :=
    List.mem_append_right _ (List.mem_singleton_self _)
  have free := calm.free
  cases m with
  | event e =>
    cases e with
    | opening => exact .inl rfl
    | command c =>
      obtain ⟨value, rfl⟩ := only.edits _ here c rfl
      exact .inr (.inl ⟨value, rfl⟩)
    | timer kind => exact .inr (.inr ⟨kind, rfl⟩)
    | response tag outcome =>
      obtain ⟨_, a, out, _⟩ := allowed
      cases free.symm.trans out
  | handOver request => cases free.symm.trans allowed.2
  | crash =>
    obtain ⟨_, a, out⟩ := allowed
    cases free.symm.trans out
  | leave => exact absurd rfl (only.stays _ here)

theorem waits {e : Event α} (calm : Calm moves t) (allowed : t.Allows (.event e))
    (wait : (t.view.react now e).value.1 = false)
    (awake : (t.view.react now e).value.2.scheduler.paused = t.view.scheduler.paused) :
    Calm (moves ++ [⟨t, now, .event e⟩]) (t.make now (.event e)).value := by
  have unsent : (Moment.mk t now (.event e)).request? = none := by
    rw [Moment.request?_event, View.handle_waits wait]
  refine ⟨by simp [Session.isStopped, Session.make_running allowed], ?_,
    Session.make_free calm.free allowed unsent, ?_⟩
  · rw [Session.make, Session.react_view, View.handle_waits wait, awake, calm.awake]
  · rw [requests_concat, unsent, calm.unsent]
    rfl

theorem opening (calm : Calm moves t) (allowed : t.Allows (.event .opening)) (now : Nat) :
    Calm (moves ++ [⟨t, now, .event .opening⟩]) (t.make now (.event .opening)).value :=
  calm.waits allowed rfl (View.poll_paused t.view now)

theorem edit (calm : Calm moves t) (allowed : t.Allows (.event (.command (.setFilter value)))) (now : Nat) :
    Calm (moves ++ [⟨t, now, .event (.command (.setFilter value))⟩])
      (t.make now (.event (.command (.setFilter value)))).value :=
  calm.waits allowed rfl (View.setFilter_paused t.view now value)

theorem nextDue? (calm : Calm moves t) : t.nextDue? = t.view.scheduler.timer.deadline? := by
  rw [Session.nextDue?, if_neg (by simp [calm.alive]), calm.free]
  cases t.view.scheduler.timer.deadline? <;> rfl

end Calm

/-- A view whose poll went out at this instant. -/
structure Polled (schedule : Schedule) (moves : List (Moment α)) (now : Nat) (value : String) (t : Session α) :
    Prop where
  alive : t.phase = .running ∨ t.phase = .crashed
  fired : ∃ m ∈ moves, m.fires = true ∧ m.now = now
  sent : ∃ r, (requests moves).head? = some r ∧ r.tag.filter = value ∧ r.params = t.view.location.pairs
  times : ∀ m ∈ moves, m.request?.isSome → m.now = now
  once : 0 < schedule.cadence → (requests moves).length = 1 ∧ t.view.scheduler.Spent now

namespace Polled

theorem times_concat {move : Move α} (times : ∀ m ∈ moves, m.request?.isSome → m.now = now) :
    ∀ m ∈ moves ++ [⟨t, now, move⟩], m.request?.isSome → m.now = now := by
  intro m hm sends
  rcases List.mem_append.mp hm with hm | hm
  · exact times m hm sends
  · rw [List.mem_singleton.mp hm]

/-- The timer fires for a view that waits. -/
theorem fire {kind : TimerKind} (calm : Calm moves t) (alive : t.view.scheduler.tornDown = false)
    (out : t.view.scheduler.inFlight = none) (allowed : t.Allows (.event (.timer kind))) (now : Nat) :
    Polled schedule (moves ++ [⟨t, now, .event (.timer kind)⟩]) now t.view.filter
      (t.make now (.event (.timer kind))).value := by
  have awake : { t.view.scheduler with timer := .off }.isDeaf = false :=
    Scheduler.isDeaf_of_awake alive calm.awake
  have go : (t.view.react now (.timer kind)).value.1 = true :=
    congrArg Prod.fst (Scheduler.timerFired_waiting awake out kind)
  have sent := (Moment.request?_event t now (.timer kind)).trans (View.handle_sends go rfl)
  have viewed : (t.make now (.event (.timer kind))).value.view =
      (t.view.react now (.timer kind)).value.2.fetch.2 := by
    rw [Session.make, Session.react_view, View.handle_goes go]
  have requested : requests (moves ++ [⟨t, now, .event (.timer kind)⟩]) =
      [⟨t.view.endpoint, t.view.location.pairs, ⟨t.view.scheduler.lastSeq + 1, t.view.filter⟩⟩] := by
    rw [requests_concat, calm.unsent, sent]
    rfl
  refine ⟨.inl ?_, ⟨_, List.mem_append_right _ (List.mem_singleton_self _), rfl, rfl⟩,
    ⟨_, congrArg List.head? requested, rfl, ?_⟩, ?_, ?_⟩
  · exact Session.make_running allowed
  · rw [viewed]
    rfl
  · refine times_concat fun m hm sends => ?_
    rw [List.filterMap_eq_nil_iff.mp calm.unsent m hm] at sends
    cases sends
  · intro _
    rw [requested, viewed]
    exact ⟨rfl, Scheduler.spent_beginFetch _ _ now⟩

/-- What comes after the poll leaves its request as it is. -/
theorem keeps (h : Polled schedule moves now value t) {m : Move α} {next : Session α}
    (alive : next.phase = .running ∨ next.phase = .crashed) (unmoved : next.view.location = t.view.location)
    (still : 0 < schedule.cadence →
      (Moment.mk t now m).request? = none ∧ next.view.scheduler.Spent now) :
    Polled schedule (moves ++ [⟨t, now, m⟩]) now value next := by
  obtain ⟨fired, hm, fires⟩ := h.fired
  obtain ⟨r, hr, filter, params⟩ := h.sent
  refine ⟨alive, ⟨fired, List.mem_append_left _ hm, fires⟩, ⟨r, ?_, filter, unmoved ▸ params⟩,
    times_concat h.times, fun positive => ?_⟩
  · rw [requests_concat, List.head?_append, hr]
    rfl
  · obtain ⟨unsent, spent⟩ := still positive
    rw [requests_concat, unsent]
    exact ⟨by simpa using (h.once positive).1, spent⟩

/-- The timer has fired at this instant, and commands come before it. -/
theorem unheard (h : Polled schedule moves now value t) {m : Move α}
    (burst : Burst quiet (moves ++ [⟨t, now, m⟩])) : (Moment.mk t now m).obeys = false := by
  obtain ⟨fired, hm, fires, hnow⟩ := h.fired
  refine Bool.eq_false_iff.mpr fun obeys => ?_
  have before := (List.pairwise_append.mp burst.first).2.2 fired hm _ (List.mem_singleton_self _) fires obeys
  exact absurd hnow (Nat.ne_of_lt before)

theorem make (h : Polled schedule moves now value t) (ordered : Ordered past t)
    (settled : t.phase = .running → t.view.Settled) (scheduled : t.view.scheduler.schedule = schedule)
    {m : Move α} (next : t.next? now = some m) (burst : Burst quiet (moves ++ [⟨t, now, m⟩])) :
    Polled schedule (moves ++ [⟨t, now, m⟩]) now value (t.make now m).value := by
  have allowed := Session.allows_of_next? next
  cases m with
  | event e =>
    cases e with
    | opening =>
      have mounting : t.phase = .mounting := allowed
      rcases h.alive with running | crashed
      · cases mounting.symm.trans running
      · cases mounting.symm.trans crashed
    | command c => cases h.unheard burst
    | timer kind =>
      refine h.keeps (.inl (Session.make_running allowed)) (Session.make_unmoved rfl) fun positive => ?_
      cases (h.once positive).2.timer.symm.trans (Session.due?_of_next? next)
    | response tag outcome =>
      refine h.keeps (.inl (Session.make_running allowed)) (Session.make_unmoved rfl) fun positive => ?_
      have answered : (t.view.response now tag outcome).value.1 = false ∧
          (t.view.response now tag outcome).value.2.scheduler.Spent now := by
        rw [View.response_go, View.response_scheduler]
        exact (h.once positive).2.response (settled allowed.1) (ordered.awaited allowed) (by rwa [scheduled])
      rw [Moment.request?_event, Session.make, Session.react_view,
        View.handle_waits (e := .response tag outcome) answered.1]
      exact ⟨rfl, answered.2⟩
  | handOver request => exact h.keeps (.inl allowed.1) rfl fun positive => ⟨rfl, (h.once positive).2⟩
  | crash => exact h.keeps (.inr rfl) rfl fun positive => ⟨rfl, (h.once positive).2⟩
  | leave => exact absurd rfl (burst.stays _ (List.mem_append_right _ (List.mem_singleton_self _)))

end Polled

/-- A view in the quiet time after the last edit, which set the filter to the value. -/
structure Quiet (schedule : Schedule) (moves : List (Moment α)) (now : Nat) (last : Moment α) (value : String)
    (t : Session α) : Prop where
  running : t.phase = .running
  calm : Calm moves t
  filter : t.view.filter = value
  armed : t.view.scheduler.timer = .arm last.now .debounce schedule.debounce
  early : now ≤ last.now + schedule.debounce

namespace Quiet
variable {last : Moment α}

/-- An edit that changes the filter begins the quiet time. -/
theorem begins (calm : Calm moves t) (alive : t.view.scheduler.tornDown = false)
    (scheduled : t.view.scheduler.schedule = schedule)
    (allowed : t.Allows (.event (.command (.setFilter value)))) (changed : t.view.filter ≠ value) (now : Nat) :
    Quiet schedule (moves ++ [⟨t, now, .event (.command (.setFilter value))⟩]) now
      ⟨t, now, .event (.command (.setFilter value))⟩ value
      (t.make now (.event (.command (.setFilter value)))).value := by
  refine ⟨Session.make_running allowed, calm.edit allowed now, ?_, ?_, Nat.le_add_right _ _⟩
  · rw [Session.make_setFilter, View.setFilter_filter]
  · rw [Session.make_setFilter, View.setFilter_timer (Scheduler.isDeaf_of_awake alive calm.awake),
      if_neg changed, scheduled]

/-- An edit that leaves the filter does not begin it again. -/
theorem same (h : Quiet schedule moves now last value t) (alive : t.view.scheduler.tornDown = false)
    {again : String} (allowed : t.Allows (.event (.command (.setFilter again)))) (same : t.view.filter = again) :
    Quiet schedule (moves ++ [⟨t, now, .event (.command (.setFilter again))⟩]) now last value
      (t.make now (.event (.command (.setFilter again)))).value := by
  refine ⟨Session.make_running allowed, h.calm.edit allowed now, ?_, ?_, h.early⟩
  · rw [Session.make_setFilter, View.setFilter_filter, ← same, h.filter]
  · rw [Session.make_setFilter, View.setFilter_timer (Scheduler.isDeaf_of_awake alive h.calm.awake),
      if_pos same, h.armed]

theorem ask (h : Quiet schedule moves now last value s) (asked : s.Asked t) : Quiet schedule moves now last value t := by
  have calm := h.calm.ask asked
  obtain ⟨_, _, _, rfl⟩ := asked.eq_with
  exact ⟨h.running, calm, h.filter, h.armed, h.early⟩

theorem nextDue? (h : Quiet schedule moves now last value t) :
    t.nextDue? = some (last.now + schedule.debounce) := by
  rw [h.calm.nextDue?, h.armed]
  rfl

/-- When the quiet time is over, something is next. -/
theorem busy (h : Quiet schedule moves now last value t) {time : Nat} (late : last.now + schedule.debounce ≤ time) :
    t.next? time ≠ none := by
  have fires : t.view.scheduler.timer.due? time = some .debounce := by
    rw [h.armed, Timer.due?_arm, if_pos late]
  exact Session.next?_of_due? h.running fires

/-- The clock does not pass the end of the quiet time. -/
theorem wait {time : Nat} (h : Quiet schedule moves now last value t)
    (due : ∀ due, t.nextDue? = some due → time ≤ due) : Quiet schedule moves time last value t :=
  ⟨h.running, h.calm, h.filter, h.armed, due _ h.nextDue?⟩

/-- The timer fires when the quiet time ends, and not before. -/
theorem fires (h : Quiet schedule moves now last value t) (ordered : Ordered past t)
    (alive : t.view.scheduler.tornDown = false) {kind : TimerKind}
    (next : t.next? now = some (.event (.timer kind))) :
    now = last.now + schedule.debounce ∧
      Polled schedule (moves ++ [⟨t, now, .event (.timer kind)⟩]) now value
        (t.make now (.event (.timer kind))).value := by
  have due := Session.due?_of_next? next
  rw [h.armed, Timer.due?_arm] at due
  split at due
  · rename_i late
    have out : t.view.scheduler.inFlight = none := by
      rw [← ordered.slot (by simp [h.running]), h.calm.free]
      rfl
    exact ⟨Nat.le_antisymm h.early late,
      h.filter ▸ Polled.fire h.calm alive out (Session.allows_of_next? next) now⟩
  · cases due

end Quiet

/-- How far a burst has come. -/
inductive Stage (schedule : Schedule) (moves : List (Moment α)) (now : Nat) (t : Session α) : Prop where
  | unchanged (calm : Calm moves t) (none : changes moves = [])
  | quiet (last : Moment α) (value : String)
      (hlast : (changes moves).getLast? = some last) (edit : last.move = .event (.command (.setFilter value)))
      (quiet : Quiet schedule moves now last value t)
  | polled (last : Moment α) (value : String)
      (hlast : (changes moves).getLast? = some last) (edit : last.move = .event (.command (.setFilter value)))
      (due : now = last.now + schedule.debounce) (polled : Polled schedule moves now value t)
  | passed (last : Moment α) (hlast : (changes moves).getLast? = some last)
      (late : last.now + schedule.debounce < now)

namespace Stage

theorem ask (h : Stage schedule moves now s) (asked : s.Asked t) : Stage schedule moves now t := by
  cases h with
  | unchanged calm none => exact .unchanged (calm.ask asked) none
  | quiet last value hlast edit quiet => exact .quiet last value hlast edit (quiet.ask asked)
  | polled last value hlast edit due polled =>
    obtain ⟨_, _, _, rfl⟩ := asked.eq_with
    exact .polled last value hlast edit due ⟨polled.alive, polled.fired, polled.sent, polled.times, polled.once⟩
  | passed last hlast late => exact .passed last hlast late

/-- The clock does not pass the end of the quiet time before the timer has fired. -/
theorem wait {time : Nat} (h : Stage schedule moves now t) (passes : now ≤ time)
    (due : ∀ due, t.nextDue? = some due → time ≤ due) : Stage schedule moves time t := by
  cases h with
  | unchanged calm none => exact .unchanged calm none
  | quiet last value hlast edit quiet => exact .quiet last value hlast edit (quiet.wait due)
  | polled last value hlast edit hdue polled =>
    rcases Nat.eq_or_lt_of_le passes with rfl | later
    · exact .polled last value hlast edit hdue polled
    · exact .passed last hlast (hdue ▸ later)
  | passed last hlast late => exact .passed last hlast (Nat.lt_of_lt_of_le late passes)

/-- From wherever a burst is, an edit that changes the filter is the last one. -/
theorem changed (calm : Calm moves t) (alive : t.view.scheduler.tornDown = false)
    (scheduled : t.view.scheduler.schedule = schedule)
    (allowed : t.Allows (.event (.command (.setFilter value)))) (changed : t.view.filter ≠ value) :
    Stage schedule (moves ++ [⟨t, now, .event (.command (.setFilter value))⟩]) now
      (t.make now (.event (.command (.setFilter value)))).value := by
  have changes : (Moment.mk t now (.event (.command (.setFilter value)))).meets View.changes = true :=
    bne_iff_ne.mpr changed
  refine .quiet _ value ?_ rfl (Quiet.begins calm alive scheduled allowed changed now)
  rw [changes_concat changes, List.getLast?_concat]

theorem make (h : Stage schedule moves now t) (ordered : Ordered past t)
    (settled : t.phase = .running → t.view.Settled) (scheduled : t.view.scheduler.schedule = schedule)
    {m : Move α} (next : t.next? now = some m) (burst : Burst schedule.debounce (moves ++ [⟨t, now, m⟩])) :
    Stage schedule (moves ++ [⟨t, now, m⟩]) now (t.make now m).value := by
  have allowed := Session.allows_of_next? next
  cases h with
  | unchanged calm none =>
    rcases calm.moves_cases allowed burst.only with rfl | ⟨value, rfl⟩ | ⟨kind, rfl⟩
    · refine .unchanged (calm.opening allowed now) ?_
      rw [changes_concat_of_not rfl, none]
    · by_cases same : t.view.filter = value
      · refine .unchanged (calm.edit allowed now) ?_
        rw [changes_concat_of_not (Moment.same_filter same), none]
      · exact changed calm (Scheduler.Settled.alive (settled allowed.1)) scheduled allowed same
    · exact absurd none burst.fires_after
  | quiet last value hlast edit quiet =>
    have alive : t.view.scheduler.tornDown = false := Scheduler.Settled.alive (settled quiet.running)
    rcases quiet.calm.moves_cases allowed burst.only with rfl | ⟨again, rfl⟩ | ⟨kind, rfl⟩
    · cases quiet.running.symm.trans allowed
    · by_cases same : t.view.filter = again
      · refine .quiet last value ?_ edit (quiet.same alive allowed same)
        rwa [changes_concat_of_not (Moment.same_filter same)]
      · exact changed quiet.calm alive scheduled allowed same
    · obtain ⟨due, polled⟩ := quiet.fires ordered alive next
      refine .polled last value ?_ edit due polled
      rwa [changes_concat_of_not rfl]
  | polled last value hlast edit due polled =>
    refine .polled last value ?_ edit due (polled.make ordered settled scheduled next burst)
    rw [changes_concat_of_not, hlast]
    exact Bool.eq_false_iff.mpr fun changed =>
      absurd (Moment.obeys_of_changes changed) (Bool.eq_false_iff.mp (polled.unheard burst))
  | passed last hlast late =>
    refine .passed last ?_ late
    rw [changes_concat_of_not, hlast]
    exact Bool.eq_false_iff.mpr fun changed => absurd (burst.next_le changed hlast) (Nat.not_le_of_lt late)

end Stage

section Mounted
variable {endpoint : String} {location : Location} {service : Service α} {first : Nat}

theorem Clocked.stage (clocked : Clocked s first later now t)
    (run : Run (Session.mount endpoint location schedule service).value past s) (alive : s.isStopped = false)
    (awake : s.view.scheduler.paused = false) (free : s.slot = .free) (burst : Burst schedule.debounce later) :
    Stage schedule later now t := by
  induction clocked with
  | start => exact .unchanged ⟨alive, awake, free, rfl⟩ rfl
  | ask _ asked ih => exact (ih burst).ask asked
  | make clocked next ih =>
    have here := run.trans clocked.run
    exact (ih burst.init).make here.ordered here.settled here.schedule_eq next burst
  | wait time _ _ passes due ih => exact (ih burst).wait passes due

/-- From where no request is out, at most one of them is not answered. -/
theorem Run.answered (run : Run (Session.mount endpoint location schedule service).value past s)
    (free : s.slot = .free) (alive : s.phase ≠ .ended) (on : Run s later t) (going : t.phase ≠ .ended) :
    (requests later).length ≤ (answers later).length + 1 := by
  have before := congrArg List.length (run.ordered.order alive)
  have after := congrArg List.length ((run.trans on).ordered.order going)
  have none : s.slot.tag?.toList.length = 0 := by
    rw [free]
    rfl
  have one : t.slot.tag?.toList.length ≤ 1 := by
    cases t.slot.tag? <;> simp
  simp only [requests, answers, List.filterMap_append, List.length_map, List.length_append] at before after ⊢
  omega

/-- From any view that has not stopped, is not paused and has no request out, a burst of edits is one poll. Before
the quiet time after the last edit is over no request goes out, and the end of that time is what the view waits
for. At that instant one goes out, for the filter of the last edit and with the pairs of the location; no other
does before it is answered, nor at that instant unless the next poll is timed for at once. -/
theorem burst_polls_once (run : Run (Session.mount endpoint location schedule service).value past s)
    (alive : s.isStopped = false) (awake : s.view.scheduler.paused = false) (free : s.slot = .free)
    (clocked : Clocked s first later now t) (burst : Burst schedule.debounce later) {last : Moment α}
    (hlast : (changes later).getLast? = some last) (edit : last.move = .event (.command (.setFilter value))) :
    (now < last.now + schedule.debounce →
      requests later = [] ∧ t.nextDue? = some (last.now + schedule.debounce)) ∧
    (now = last.now + schedule.debounce →
      (t.next? now = none → requests later ≠ []) ∧
      ∀ r more, requests later = r :: more →
        r.tag.filter = value ∧ r.params = t.view.location.pairs ∧
        (∀ m ∈ later, m.request?.isSome → m.now = now) ∧
        more.length ≤ (answers later).length ∧ (0 < schedule.cadence → more = [])) := by
  have going : s.phase ≠ .ended := by
    rintro ended
    simp [Session.isStopped, ended] at alive
  have answered := run.answered free going clocked.run
  cases clocked.stage run alive awake free burst with
  | unchanged _ none =>
    rw [none] at hlast
    cases hlast
  | quiet last' value' hlast' edit' quiet =>
    cases hlast.symm.trans hlast'
    refine ⟨fun _ => ⟨quiet.calm.unsent, quiet.nextDue?⟩, fun due => ⟨fun idle => ?_, ?_⟩⟩
    · exact absurd idle (quiet.busy (Nat.le_of_eq due.symm))
    · intro r more sent
      cases quiet.calm.unsent.symm.trans sent
  | polled last' value' hlast' edit' due polled =>
    cases hlast.symm.trans hlast'
    cases edit.symm.trans edit'
    obtain ⟨first, hfirst, filter, params⟩ := polled.sent
    refine ⟨fun early => by omega, fun _ => ⟨fun _ none => ?_, fun r more sent => ?_⟩⟩
    · rw [none] at hfirst
      cases hfirst
    · rw [sent, List.head?_cons, Option.some.injEq] at hfirst
      subst hfirst
      have answered := answered (by rcases polled.alive with alive | alive <;> simp [alive])
      rw [sent, List.length_cons] at answered
      refine ⟨filter, params, polled.times, Nat.le_of_succ_le_succ answered, fun positive => ?_⟩
      have one := (polled.once positive).1
      rw [sent, List.length_cons] at one
      exact List.eq_nil_of_length_eq_zero (Nat.succ.inj one)
  | passed last' hlast' late =>
    cases hlast.symm.trans hlast'
    exact ⟨fun early => by omega, fun due => by omega⟩

end Mounted

namespace Typed

def opening : List (Nat × Move Unit) :=
  [(0, .event .opening)]

/-- A view that waits for its first poll. -/
def opened : Session Unit :=
  (Edited.start.play opening).2

/-- The filter is edited, and before that poll is due it is edited again. -/
def first : Session Unit :=
  (opened.send (.setFilter "a")).value

def second : Session Unit :=
  ((((first.make 100 (.event (.command (.setFilter "a")))).value.send (.setFilter "ab")).value).send
    (.setFilter "ab")).value

/-- The last edit does not change the filter. -/
def polling : List (Nat × Move Unit) :=
  [(400, .event (.command (.setFilter "ab"))), (400, .event (.command (.setFilter "ab"))),
    (900, .event (.timer .debounce)), (900, .handOver ⟨"/api/history", [("filter", "ab")], ⟨1, "ab"⟩⟩)]

def typed : List (Moment Unit) :=
  ⟨first, 100, .event (.command (.setFilter "a"))⟩ :: (second.play polling).1

def last : Session Unit :=
  (second.play polling).2

theorem run : Run Edited.start (Edited.start.play opening).1 opened := by
  have opening : Edited.start.AllowsAll opening := ⟨rfl, trivial⟩
  exact Run.start.play opening

theorem clocked : Clocked opened 0 typed 900 last := by
  have waiting : Clocked opened 0 [] 100 opened :=
    Clocked.start.wait 100 rfl (by decide) (by rintro _ ⟨⟩; decide)
  have edited := (waiting.ask (.send (.setFilter "a"))).make (s := first) rfl
  have waited := edited.wait 400 rfl (by decide) (by rintro _ ⟨⟩; decide)
  have changed := ((waited.ask (.send (.setFilter "ab"))).ask (.send (.setFilter "ab"))).make (s := second) rfl
  have typed := (changed.make rfl).wait 900 rfl (by decide) (by rintro _ ⟨⟩; decide)
  exact (typed.make rfl).make rfl

theorem burst : Burst 500 typed where
  stays := by
    rintro m (_ | ⟨_, _ | ⟨_, _ | ⟨_, _ | ⟨_, _ | ⟨_, ⟨⟩⟩⟩⟩⟩⟩) ⟨⟩
  edits := by
    rintro m (_ | ⟨_, _ | ⟨_, _ | ⟨_, _ | ⟨_, _ | ⟨_, ⟨⟩⟩⟩⟩⟩⟩) c ⟨⟩ <;> exact ⟨_, rfl⟩
  held := by
    rintro m ⟨⟩
  close := by decide
  first := by decide

end Typed

/-- Three edits, the last of which changes nothing, are one poll. -/
theorem burst_polls_once_typed :
    Run Edited.start (Edited.start.play Typed.opening).1 Typed.opened ∧ Typed.opened.isStopped = false ∧
    Typed.opened.view.scheduler.paused = false ∧ Typed.opened.slot = .free ∧
    Clocked Typed.opened 0 Typed.typed 900 Typed.last ∧ Burst 500 Typed.typed ∧
    Typed.last.next? 900 = none ∧
    ∃ r more, requests Typed.typed = r :: more ∧ r.tag.filter = "ab" ∧
      r.params = Typed.last.view.location.pairs ∧ more = [] := by
  obtain ⟨_, due⟩ := burst_polls_once Typed.run rfl rfl rfl Typed.clocked Typed.burst rfl rfl
  obtain ⟨_, polled⟩ := due rfl
  obtain ⟨filter, params, _, _, alone⟩ := polled _ _ rfl
  exact ⟨Typed.run, rfl, rfl, rfl, Typed.clocked, Typed.burst, rfl, _, _, rfl, filter, params, alone (by decide)⟩

namespace Hasty

/-- A view whose next poll is timed for at once, and whose first request is answered at once. -/
def start : Session Unit :=
  (Session.mount "/api/history" ⟨"/history", []⟩ ⟨500, 0⟩
    ⟨[⟨0, fun _ => pure (some (.ok ⟨3, [(), ()], none⟩))⟩],
      ⟨10, fun _ => pure (some (.ok ⟨3, [(), ()], none⟩))⟩⟩).value

def opened : Session Unit :=
  (start.play Typed.opening).2

def first : Session Unit :=
  (opened.send (.setFilter "a")).value

def polling : List (Nat × Move Unit) :=
  [(0, .event (.command (.setFilter "a"))), (500, .event (.timer .debounce)),
    (500, .handOver ⟨"/api/history", [("filter", "a")], ⟨1, "a"⟩⟩),
    (500, .event (.response ⟨1, "a"⟩ (.ok ⟨3, [(), ()], none⟩))), (500, .event (.timer .cadence)),
    (500, .handOver ⟨"/api/history", [("filter", "a")], ⟨2, "a"⟩⟩)]

theorem run : Run start (start.play Typed.opening).1 opened := by
  have opening : start.AllowsAll Typed.opening := ⟨rfl, trivial⟩
  exact Run.start.play opening

theorem clocked : Clocked opened 0 (first.play polling).1 500 (first.play polling).2 := by
  have asked : Clocked opened 0 [] 0 first := Clocked.start.ask (.send _)
  have edited := (asked.make rfl).wait 500 rfl (by decide) (by rintro _ ⟨⟩; decide)
  have answered := ((edited.make rfl).make rfl).make rfl
  exact (answered.make rfl).make rfl

theorem burst : Burst 500 (first.play polling).1 where
  stays := by
    rintro m (_ | ⟨_, _ | ⟨_, _ | ⟨_, _ | ⟨_, _ | ⟨_, _ | ⟨_, ⟨⟩⟩⟩⟩⟩⟩⟩) ⟨⟩
  edits := by
    rintro m (_ | ⟨_, _ | ⟨_, _ | ⟨_, _ | ⟨_, _ | ⟨_, _ | ⟨_, ⟨⟩⟩⟩⟩⟩⟩⟩) c ⟨⟩
    exact ⟨_, rfl⟩
  held := by
    rintro m ⟨⟩
  close := by decide
  first := by decide

end Hasty

/-- With no time between an answer and the next poll, a burst may be two polls at the instant at which its quiet
time ends. -/
theorem burst_polls_again :
    Run Hasty.start (Hasty.start.play Typed.opening).1 Hasty.opened ∧ Hasty.opened.isStopped = false ∧
    Hasty.opened.view.scheduler.paused = false ∧ Hasty.opened.slot = .free ∧
    Clocked Hasty.opened 0 (Hasty.first.play Hasty.polling).1 500 (Hasty.first.play Hasty.polling).2 ∧
    Burst 500 (Hasty.first.play Hasty.polling).1 ∧
    (changes (Hasty.first.play Hasty.polling).1).getLast? =
      some ⟨Hasty.first, 0, .event (.command (.setFilter "a"))⟩ ∧
    (Hasty.first.play Hasty.polling).2.next? 500 = none ∧
    (requests (Hasty.first.play Hasty.polling).1).map (·.tag) = [⟨1, "a"⟩, ⟨2, "a"⟩] ∧
    ∀ m ∈ (Hasty.first.play Hasty.polling).1, m.request?.isSome → m.now = 500 := by
  have times : ∀ m ∈ (Hasty.first.play Hasty.polling).1, m.request?.isSome → m.now = 500 := by decide
  exact ⟨Hasty.run, rfl, rfl, rfl, Hasty.clocked, Hasty.burst, rfl, rfl, rfl, times⟩

end ProxyMonitor.Live
