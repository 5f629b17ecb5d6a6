import ProxyMonitor.Proofs.Live.Burst

/-! The filter that a session is on its way to: what its view will have once the commands that wait are handled. They are
handled as soon as it runs, and then that filter is shown. -/
namespace ProxyMonitor.Live
variable {α : Type} {v : View α} {now : Nat} {e : Event α}

/-- The filter that a command leaves where there was one. -/
def Command.filterAfter (filter : String) : Command → String
  | .setFilter value => value
  | .refresh | .pause | .resume | .togglePause => filter

namespace View

/-- The view once it has handled the commands, each at its time. -/
def handleAll (v : View α) : List (Nat × Command) → View α
  | [] => v
  | (now, c) :: rest => (v.handle now (.command c)).value.2.handleAll rest

theorem handle_filter_of_command (v : View α) (now : Nat) (c : Command) :
    (v.handle now (.command c)).value.2.filter = c.filterAfter v.filter := by
  have same : (v.handle now (.command c)).value.2.filter = (v.react now (.command c)).value.2.filter := by
    rw [handle_scheduler_only]
    rfl
  rw [same]
  cases c with
  | setFilter value => exact setFilter_filter v now value
  | refresh => exact congrArg Location.filter (poll_location v now)
  | pause => rfl
  | resume => exact congrArg Location.filter (resume_location v)
  | togglePause =>
    rw [react, command]
    split
    · exact congrArg Location.filter (resume_location v)
    · rfl

theorem handle_filter (heard : e.isCommand = false) (v : View α) (now : Nat) :
    (v.handle now e).value.2.filter = v.filter :=
  congrArg Location.filter (handle_unmoved heard v now)

/-- When commands are handled makes no difference to the filter that they leave. -/
theorem handleAll_filter (v : View α) (timed : List (Nat × Command)) :
    (v.handleAll timed).filter = (timed.map Prod.snd).foldl Command.filterAfter v.filter := by
  induction timed generalizing v with
  | nil => rfl
  | cons first rest ih =>
    obtain ⟨now, c⟩ := first
    rw [handleAll, ih, handle_filter_of_command]
    rfl

theorem handle_endpoint (v : View α) (now : Nat) (e : Event α) :
    (v.handle now e).value.2.endpoint = v.endpoint := by
  rw [handle_scheduler_only]
  exact react_endpoint v now e

end View

namespace Session
variable {s : Session α}

/-- The filter of the view once the commands that wait are handled. -/
def filterAhead (s : Session α) : String :=
  s.commands.foldl Command.filterAfter s.view.filter

theorem filterAhead_send (alive : s.isStopped = false) (c : Command) :
    (s.send c).value.filterAhead = c.filterAfter s.filterAhead := by
  simp [send, alive, filterAhead]

@[simp] theorem send_isStopped (s : Session α) (c : Command) : (s.send c).value.isStopped = s.isStopped := by
  unfold send
  split <;> rfl

/-- A session that goes on after a move is on its way to the same filter as before. -/
theorem filterAhead_make {m : Move α} (allowed : s.Allows m) (now : Nat)
    (alive : (s.make now m).value.isStopped = false) : (s.make now m).value.filterAhead = s.filterAhead := by
  cases m with
  | handOver => rfl
  | crash | leave => simp [make, leave, isStopped] at alive
  | event e =>
    have view : (s.make now (.event e)).value.view = (s.view.handle now e).value.2 := react_view s now e
    rw [filterAhead, filterAhead, view, make, react_commands]
    cases e with
    | opening | timer | response => rw [View.handle_filter rfl]; rfl
    | command c =>
      obtain ⟨_, first⟩ := allowed
      obtain ⟨rest, waiting⟩ := List.head?_eq_some_iff.mp first
      simp [take, waiting, View.handle_filter_of_command]

/-- How many events come before all others. -/
def waiting (s : Session α) : Nat :=
  s.commands.length + if s.phase = .mounting then 1 else 0

/-- A filter is shown, and no command waits to change it. -/
structure Rests (s : Session α) (filter : String) : Prop where
  commands : s.commands = []
  mounted : s.phase ≠ .mounting
  view : s.view.filter = filter
  shown : s.shown.filter = filter

/-- Nothing but a command changes the filter. -/
theorem Rests.make {filter : String} {m : Move α} (h : s.Rests filter) (allowed : s.Allows m) (now : Nat) :
    (s.make now m).value.Rests filter := by
  have mounted : (s.make now m).value.phase ≠ .mounting := make_phase allowed
  cases m with
  | handOver | crash => exact ⟨h.commands, mounted, h.view, h.shown⟩
  | leave => exact ⟨h.commands, mounted, h.view, h.view⟩
  | event e =>
    have unheard : e.isCommand = false := by
      cases e with
      | command c =>
        obtain ⟨_, first⟩ := allowed
        rw [h.commands] at first
        cases first
      | opening | timer | response => rfl
    have same : (s.view.handle now e).value.2.filter = filter := (View.handle_filter unheard s.view now).trans h.view
    refine ⟨?_, mounted, ?_, ?_⟩
    · rw [Session.make, react_commands]
      cases e with
      | command c => cases unheard
      | opening | timer | response => exact h.commands
    · rw [Session.make, react_view, same]
    · rw [Session.make, react_shown, same]

/-- The mounting comes first, then the commands one by one. -/
theorem next?_of_waiting (alive : s.isStopped = false) (waits : s.waiting ≠ 0) (now : Nat) :
    ∃ e, s.next? now = some (.event e) ∧ (s.make now (.event e)).value.waiting + 1 = s.waiting := by
  cases phase : s.phase with
  | ended | crashed => simp [isStopped, phase] at alive
  | mounting =>
    have next : s.next? now = some (.event .opening) := by rw [next?, phase]
    refine ⟨.opening, next, ?_⟩
    rw [waiting, waiting, make_running (allows_of_next? next), make, react_commands, phase]
    rfl
  | running =>
    cases commands : s.commands with
    | nil => simp [waiting, phase, commands] at waits
    | cons c rest =>
      have next : s.next? now = some (.event (.command c)) := by rw [next?, phase, commands]
      refine ⟨.command c, next, ?_⟩
      rw [waiting, waiting, make_running (allows_of_next? next), make, react_commands, phase, take, commands]
      rfl

/-- Where nothing waits, the filter that is shown stays. -/
theorem rests_of_waiting (still : s.waiting = 0)
    (seen : s.shown.filter = s.view.filter) : s.Rests s.filterAhead := by
  obtain ⟨commands, mounted⟩ := Nat.add_eq_zero_iff.mp still
  have commands : s.commands = [] := List.length_eq_zero_iff.mp commands
  have ahead : s.filterAhead = s.view.filter := by rw [filterAhead, commands]; rfl
  refine ⟨commands, fun mounting => ?_, ahead.symm, seen.trans ahead.symm⟩
  simp [mounting] at mounted

/-- All that waits is handled at once, and then the filter is shown that was ahead. -/
theorem settleWithin_rests {fuel : Nat} (alive : s.isStopped = false) (enough : s.waiting ≤ fuel)
    (seen : s.waiting = 0 → s.shown.filter = s.view.filter) (now : Nat) :
    (settleWithin now fuel s).value.Rests s.filterAhead := by
  -- Each event is one that waited, so that the fuel lasts until none waits; what is shown then is what it left.
  induction fuel generalizing s with
  | zero =>
    have still : s.waiting = 0 := Nat.le_zero.mp enough
    exact rests_of_waiting still (seen still)
  | succ fuel ih =>
    by_cases still : s.waiting = 0
    · have make {t : Session α} {m : Move α} (next : t.next? now = some m) (rests : t.Rests s.filterAhead) :
          (t.make now m).value.Rests s.filterAhead := rests.make (allows_of_next? next) now
      exact settleWithin_keeps make (rests_of_waiting still (seen still)) (fuel + 1)
    obtain ⟨e, next, fewer⟩ := next?_of_waiting alive still now
    have allowed : s.Allows (.event e) := allows_of_next? next
    have alive' : (s.make now (.event e)).value.isStopped = false := by simp [isStopped, make_running allowed]
    have shown : (s.make now (.event e)).value.shown = (s.make now (.event e)).value.view := by
      rw [make, react_shown, react_view]
    have made : (settleWithin now (fuel + 1) s).value = (settleWithin now fuel (s.make now (.event e)).value).value := by
      simp only [settleWithin, step, next, Option.map_some, Logged.value_bind]
    rw [made, ← filterAhead_make allowed now alive']
    exact ih alive' (by omega) fun _ => by rw [shown]

/-- Everything that waits is due now. -/
theorem settle_rests (alive : s.isStopped = false) (seen : s.waiting = 0 → s.shown.filter = s.view.filter)
    (now : Nat) : (s.settle now).value.Rests s.filterAhead := by
  refine settleWithin_rests alive ?_ seen now
  rw [waiting]
  split <;> omega

end Session

section Mounted
variable {endpoint : String} {location : Location} {schedule : Poll.Schedule} {service : Service α}
  {past : List (Moment α)} {s : Session α}

/-- Everything that a view asks for, it asks of its endpoint. -/
theorem Run.endpoint_eq (run : Run (Session.mount endpoint location schedule service).value past s) :
    s.view.endpoint = endpoint ∧ (∀ r, s.slot = .outgoing r → r.endpoint = endpoint) ∧
      ∀ call ∈ s.calls, call.request.endpoint = endpoint := by
  induction run with
  | start => exact ⟨rfl, nofun, nofun⟩
  | ask _ asked ih =>
    obtain ⟨_, _, _, rfl⟩ := asked.eq_with
    exact ih
  | @make past s now m _ allowed ih =>
    obtain ⟨view, slot, calls⟩ := ih
    cases m with
    | crash => exact ⟨view, slot, calls⟩
    | leave => exact ⟨view, nofun, calls⟩
    | handOver request =>
      refine ⟨view, nofun, fun call made => ?_⟩
      have made : call ∈ s.calls ++ [⟨request, now⟩] := made
      rcases List.mem_append.mp made with made | made
      · exact calls call made
      · rw [List.mem_singleton.mp made]
        exact slot request allowed.2
    | event e =>
      have same : (s.make now (.event e)).value.calls = s.calls := (s.react_unserved now e).2.1
      refine ⟨?_, fun r out => ?_, by rw [same]; exact calls⟩
      · rw [Session.make, Session.react_view, View.handle_endpoint, view]
      · rw [Session.make, Session.react_slot] at out
        cases sent : (s.view.handle now e).value.1 with
        | some request =>
          rw [sent] at out
          cases out
          obtain ⟨_, rfl, _⟩ := View.handle_some sent
          exact (View.react_endpoint s.view now e).trans view
        | none =>
          rw [sent] at out
          cases e with
          | opening | command | timer => exact slot r out
          | response => cases out

end Mounted
end ProxyMonitor.Live
