import ProxyMonitor.Proofs.Live.Burst
import ProxyMonitor.Proofs.Live.Mount

/-! A view that is left alone: its requests go out one after the other at the times that its schedule and the
latencies of its service make, until one of them fails. -/
namespace ProxyMonitor.Live
open ProxyMonitor.Poll
variable {α : Type}

/-- The requests that were prepared, each with its time. -/
def sent (past : List (Moment α)) : List (Nat × Request) :=
  past.filterMap fun m => m.request?.map (Prod.mk m.now)

/-- No command was handled, and the view was not ended. -/
def Untouched (past : List (Moment α)) : Prop :=
  ∀ m ∈ past, m.obeys = false ∧ m.move ≠ .leave

variable {u : Mount α} {past : List (Moment α)} {s t : Session α} {m : Move α} {k now : Nat}

theorem sent_concat (past : List (Moment α)) (m : Moment α) :
    sent (past ++ [m]) = sent past ++ (m.request?.map (Prod.mk m.now)).toList :=
  filterMap_concat _ _ _

theorem sent_length (past : List (Moment α)) : (sent past).length = (requests past).length := by
  induction past with
  | nil => rfl
  | cons m past ih =>
    unfold sent requests at ih ⊢
    cases hr : m.request? with
    | none => simpa [hr] using ih
    | some r => simpa [hr] using ih

theorem Untouched.init {m : Moment α} (h : Untouched (past ++ [m])) : Untouched past :=
  fun x hx => h x (List.mem_append_left _ hx)

theorem Untouched.last {m : Moment α} (h : Untouched (past ++ [m])) : m.obeys = false ∧ m.move ≠ .leave :=
  h m (List.mem_append_right _ (List.mem_singleton_self _))

theorem Untouched.concat {m : Moment α} (h : Untouched past) (unheard : m.obeys = false) (stays : m.move ≠ .leave) :
    Untouched (past ++ [m]) := by
  intro x hx
  rcases List.mem_append.mp hx with hx | hx
  · exact h x hx
  · rw [List.mem_singleton.mp hx]
    exact ⟨unheard, stays⟩

namespace Session

/-- Nothing is asked of the session that it did not do yet. -/
def Unasked (s : Session α) : Prop :=
  s.commands = [] ∧ s.leaving = false

/-- A session that does not handle a command next, and is not ended, was asked for nothing. -/
theorem unasked (running : s.phase = .running)
    (next : ∀ m, s.next? now = some m → (Moment.mk s now m).obeys = false ∧ m ≠ .leave) : s.Unasked := by
  unfold next? at next
  rw [running] at next
  cases hc : s.commands with
  | cons c commands =>
    rw [hc] at next
    cases (next _ rfl).1
  | nil =>
    cases hl : s.leaving with
    | true =>
      rw [hc, hl] at next
      exact absurd rfl (next _ rfl).2
    | false => exact ⟨hc, hl⟩

theorem Unasked.react (h : s.Unasked) (now : Nat) (e : Event α) : (s.react now e).value.Unasked := by
  refine ⟨?_, (s.react_unserved now e).2.2.trans h.2⟩
  rw [react_commands]
  cases e with
  | command => rw [take, h.1]; rfl
  | opening | timer | response => exact h.1

theorem Unasked.make (h : s.Unasked) (now : Nat) (m : Move α) : (s.make now m).value.Unasked := by
  cases m with
  | event e => exact h.react now e
  | handOver | crash | leave => exact h

/-- All that happens at the time has happened. -/
def Passed (s : Session α) (now time : Nat) : Prop :=
  time < now ∨ time = now ∧ s.next? now = none

/-- As long as something due is not done, only the times before it have passed. -/
theorem Passed.before {time due : Nat} (passed : s.Passed now time) (early : now ≤ due)
    (next : due ≤ now → s.next? now ≠ none) : time < due := by
  rcases passed with past | ⟨rfl, idle⟩
  · exact Nat.lt_of_lt_of_le past early
  · exact Nat.lt_of_not_le fun due => next due idle

end Session

/-- Where a session is: its view, its request, and how many requests were prepared, reached the service and were
answered. -/
structure Place (α : Type) where
  phase : Phase := .running
  view : View α
  slot : Slot α
  prepared : Nat
  replied : Nat
  answered : Nat

/-- What is next there for a session that was asked for nothing. -/
def Place.next? (place : Place α) (now : Nat) : Option (Move α) :=
  match place.phase with
  | .mounting => some (.event .opening)
  | .running =>
    match place.view.scheduler.timer.due? now, place.slot with
    | some kind, _ => some (.event (.timer kind))
    | none, .outgoing request => some (.handOver request)
    | none, .awaited a => if a.due ≤ now then some a.move else none
    | none, .free => none
  | .ended | .crashed => none

/-- No command is next for such a session, nor its end. -/
theorem Place.next?_untouched {place : Place α} (next : place.next? now = some m) (s : Session α) :
    (Moment.mk s now m).obeys = false ∧ m ≠ .leave := by
  unfold Place.next? at next
  split at next
  · cases next
    exact ⟨rfl, by simp⟩
  · split at next
    · cases next
      exact ⟨rfl, by simp⟩
    · cases next
      exact ⟨rfl, by simp⟩
    · rename_i a _ _
      split at next
      · cases next
        unfold Awaited.move
        split
        · exact ⟨rfl, by simp⟩
        · exact ⟨rfl, by simp⟩
      · cases next
    · cases next
  · cases next
  · cases next

namespace Mount

def mounted (u : Mount α) : Place α where
  phase := .mounting
  view := .start u.endpoint u.location u.schedule
  slot := .free
  prepared := 0
  replied := 0
  answered := 0

def idle (u : Mount α) (k : Nat) : Place α where
  view := u.waiting k
  slot := .free
  prepared := k
  replied := k
  answered := k

def outgoing (u : Mount α) (k : Nat) : Place α where
  view := u.loading k
  slot := .outgoing (u.request k)
  prepared := k + 1
  replied := k
  answered := k

def awaited (u : Mount α) (k : Nat) : Place α where
  view := u.loading k
  slot := .awaited ⟨u.due k, (u.request k).tag, u.outcome k⟩
  prepared := k + 1
  replied := k + 1
  answered := k

def failed (u : Mount α) (k : Nat) (failure : Failure) : Place α where
  view := u.halted k failure
  slot := .free
  prepared := k + 1
  replied := k + 1
  answered := k + 1

def crashed (u : Mount α) (k : Nat) : Place α :=
  { u.awaited k with phase := .crashed }

end Mount

/-- A session that came to the place at the times of an untouched one. -/
structure At (u : Mount α) (place : Place α) (past : List (Moment α)) (s : Session α) : Prop where
  phase : s.phase = place.phase
  view : s.view = place.view
  slot : s.slot = place.slot
  service : s.service = u.service.after place.replied
  calls : s.calls = (List.range place.replied).map fun k => ⟨u.request k, u.start k⟩
  sent : sent past = (List.range place.prepared).map fun k => (u.start k, u.request k)
  answered : (answers past).length = place.answered

namespace At

theorem ask {place : Place α} (h : At u place past s) (asked : s.Asked t) : At u place past t := by
  obtain ⟨_, _, _, rfl⟩ := asked.eq_with
  exact ⟨h.phase, h.view, h.slot, h.service, h.calls, h.sent, h.answered⟩

/-- An event leads to the place that the view's reaction to it leads to. -/
theorem event {place next : Place α} {e : Event α} {request : Option Request} (h : At u place past s)
    (allowed : s.Allows (.event e)) (handled : (place.view.handle now e).value = (request, next.view))
    (phase : next.phase = .running) (replied : next.replied = place.replied)
    (slot : next.slot = request.elim (s.take e).slot .outgoing)
    (prepared : (List.range next.prepared).map (fun k => (u.start k, u.request k)) =
      (List.range place.prepared).map (fun k => (u.start k, u.request k)) ++ (request.map (Prod.mk now)).toList)
    (answered : next.answered = place.answered + e.answer?.isSome.toNat) :
    At u next (past ++ [⟨s, now, .event e⟩]) (s.make now (.event e)).value := by
  rw [← h.view] at handled
  obtain ⟨service, calls, _⟩ := s.react_unserved now e
  refine ⟨?_, ?_, ?_, ?_, ?_, ?_, ?_⟩
  · rw [Session.make_running allowed, phase]
  · rw [Session.make, Session.react_view, handled]
  · rw [Session.make, Session.react_slot, handled, slot]
    cases request <;> rfl
  · rw [Session.make, service, h.service, replied]
  · rw [Session.make, calls, h.calls, replied]
  · rw [sent_concat, h.sent, prepared, Moment.request?_event, handled]
  · rw [answers_concat, List.length_append, h.answered, answered, Moment.answer?_event]
    cases e.answer? <;> rfl

theorem opens (h : At u u.mounted past s) :
    At u (u.idle 0) (past ++ [⟨s, 0, .event .opening⟩]) (s.make 0 (.event .opening)).value :=
  h.event h.phase u.handle_opening rfl rfl h.slot.symm rfl rfl

theorem fires (h : At u (u.idle k) past s) {kind : TimerKind} (allowed : s.Allows (.event (.timer kind))) :
    At u (u.outgoing k) (past ++ [⟨s, u.start k, .event (.timer kind)⟩])
      (s.make (u.start k) (.event (.timer kind))).value := by
  refine h.event allowed (u.handle_timer k _ kind) rfl rfl rfl ?_ rfl
  rw [Mount.outgoing, List.range_succ, List.map_append]
  rfl

theorem handsOver (h : At u (u.outgoing k) past s) :
    At u (u.awaited k) (past ++ [⟨s, u.start k, .handOver (u.request k)⟩])
      (s.make (u.start k) (.handOver (u.request k))).value := by
  have served : s.service.next = (u.reply k, u.service.after (k + 1)) := by
    rw [h.service]
    exact u.next_after k
  refine ⟨h.phase, h.view, ?_, ?_, ?_, ?_, ?_⟩
  · show Slot.awaited ⟨u.start k + s.service.next.1.latency, _,
      (s.service.next.1.outcome (u.request k)).value⟩ = _
    rw [served]
    rfl
  · exact congrArg Prod.snd served
  · show s.calls ++ [⟨u.request k, u.start k⟩] = _
    rw [h.calls, Mount.awaited, List.range_succ, List.map_append]
    rfl
  · rw [sent_concat, h.sent]
    exact List.append_nil _
  · rw [answers_concat, List.length_append, h.answered]
    rfl

theorem succeeds (h : At u (u.awaited k) past s) (good : u.Succeeds k) {answer : Answer α}
    (ok : u.outcome k = some (.ok answer)) :
    At u (u.idle (k + 1)) (past ++ [⟨s, u.due k, .event (.response (u.request k).tag (.ok answer))⟩])
      (s.make (u.due k) (.event (.response (u.request k).tag (.ok answer)))).value :=
  h.event ⟨h.phase, _, h.slot, rfl⟩ (Mount.handle_result good ok) rfl rfl rfl (List.append_nil _).symm rfl

theorem fails (h : At u (u.awaited k) past s) (failure : Failure) :
    At u (u.failed k failure) (past ++ [⟨s, now, .event (.response (u.request k).tag (.error failure))⟩])
      (s.make now (.event (.response (u.request k).tag (.error failure)))).value :=
  h.event ⟨h.phase, _, h.slot, rfl⟩ (u.handle_failure k now failure) rfl rfl rfl (List.append_nil _).symm rfl

theorem crashes (h : At u (u.awaited k) past s) :
    At u (u.crashed k) (past ++ [⟨s, now, .crash⟩]) (s.make now .crash).value := by
  refine ⟨rfl, h.view, h.slot, h.service, h.calls, ?_, ?_⟩
  · rw [sent_concat, h.sent]
    exact List.append_nil _
  · rw [answers_concat, List.length_append, h.answered]
    rfl

/-- A session does next what is next at its place, if it was asked for nothing. -/
theorem next? {place : Place α} (h : At u place past s) (now : Nat)
    (unasked : s.phase = .running → s.Unasked) : s.next? now = place.next? now := by
  rw [Session.next?, Place.next?, ← h.phase, ← h.view, ← h.slot]
  cases hp : s.phase with
  | running =>
    obtain ⟨commands, leaving⟩ := unasked hp
    rw [commands, leaving]
    cases s.view.scheduler.timer.due? now with
    | some kind => rfl
    | none => cases s.slot <;> rfl
  | mounting | ended | crashed => rfl

theorem busy {place : Place α} (h : At u place past s) (next : place.next? now ≠ none) : s.next? now ≠ none := by
  intro idle
  have unasked (running : s.phase = .running) : s.Unasked :=
    Session.unasked running fun m next => nomatch idle.symm.trans next
  exact next ((h.next? now unasked).symm.trans idle)

theorem nextDue? {place : Place α} (h : At u place past s) (running : place.phase = .running) : s.nextDue? =
    match place.view.scheduler.timer.deadline?, place.slot.due? with
    | some a, some b => some (min a b)
    | a, b => a.or b := by
  rw [Session.nextDue?, Session.isStopped, h.phase, running, h.view, h.slot]
  rfl

theorem prepared {place : Place α} (h : At u place past s) : (requests past).length = place.prepared := by
  rw [← sent_length, h.sent, List.length_map, List.length_range]

theorem replied {place : Place α} (h : At u place past s) : s.calls.length = place.replied := by
  rw [h.calls, List.length_map, List.length_range]

end At

namespace Mount

theorem idle_next? (u : Mount α) (k now : Nat) : (u.idle k).next? now =
    if u.start k ≤ now then some (.event (.timer (if k = 0 then .debounce else .cadence))) else none := by
  have fires : (u.idle k).view.scheduler.timer.due? now =
    if u.start k ≤ now then some (if k = 0 then .debounce else .cadence) else none := rfl
  rw [Place.next?, fires]
  by_cases due : u.start k ≤ now
  · rw [if_pos due, if_pos due]
    rfl
  · rw [if_neg due, if_neg due]
    rfl

theorem outgoing_next? (u : Mount α) (k now : Nat) :
    (u.outgoing k).next? now = some (.handOver (u.request k)) := rfl

theorem awaited_next? (u : Mount α) (k now : Nat) : (u.awaited k).next? now =
    if u.due k ≤ now then some (Awaited.mk (u.due k) (u.request k).tag (u.outcome k)).move else none := rfl

end Mount

section Passed
variable {time : Nat}

theorem At.mounted_passed (here : At u u.mounted past s) : ¬ s.Passed 0 time := fun passed =>
  Nat.not_lt_zero _ (passed.before (Nat.le_refl 0) fun _ => here.busy (Option.some_ne_none _))

theorem At.idle_passed (here : At u (u.idle k) past s) (early : now ≤ u.start k) (passed : s.Passed now time) :
    time < u.start k := by
  refine passed.before early fun due => here.busy ?_
  rw [u.idle_next?, if_pos due]
  exact Option.some_ne_none _

theorem At.outgoing_passed (here : At u (u.outgoing k) past s) (passed : s.Passed (u.start k) time) :
    time < u.start k :=
  passed.before (Nat.le_refl _) fun _ => here.busy (Option.some_ne_none _)

theorem At.awaited_passed (here : At u (u.awaited k) past s) (early : now ≤ u.due k) (passed : s.Passed now time) :
    time < u.due k := by
  refine passed.before early fun due => here.busy ?_
  rw [u.awaited_next?, if_pos due]
  exact Option.some_ne_none _

end Passed

/-- How far a session that nobody touches has come: it makes each request at its time, and none after the first one
that failed. -/
inductive Progress (u : Mount α) (past : List (Moment α)) (now : Nat) (s : Session α) : Prop where
  | mounted (begins : now = 0) (here : At u u.mounted past s)
  | idle (k : Nat) (good : u.Succeeds k) (early : now ≤ u.start k) (here : At u (u.idle k) past s)
  | outgoing (k : Nat) (good : u.Succeeds k) (starts : now = u.start k) (here : At u (u.outgoing k) past s)
  | awaited (k : Nat) (good : u.Succeeds k) (early : now ≤ u.due k) (here : At u (u.awaited k) past s)
  | failed (k : Nat) (good : u.Succeeds k) (failure : Failure) (outcome : u.outcome k = some (.error failure))
      (here : At u (u.failed k failure) past s)
  | crashed (k : Nat) (good : u.Succeeds k) (outcome : u.outcome k = none) (here : At u (u.crashed k) past s)

namespace Progress

theorem start (u : Mount α) : Progress u [] 0 u.session :=
  .mounted rfl ⟨rfl, rfl, rfl, rfl, rfl, rfl, rfl⟩

theorem ask (h : Progress u past now s) (asked : s.Asked t) : Progress u past now t := by
  cases h with
  | mounted begins here => exact .mounted begins (here.ask asked)
  | idle k good early here => exact .idle k good early (here.ask asked)
  | outgoing k good starts here => exact .outgoing k good starts (here.ask asked)
  | awaited k good early here => exact .awaited k good early (here.ask asked)
  | failed k good failure outcome here => exact .failed k good failure outcome (here.ask asked)
  | crashed k good outcome here => exact .crashed k good outcome (here.ask asked)

theorem make (h : Progress u past now s) (next : s.next? now = some m)
    (untouched : (Moment.mk s now m).obeys = false ∧ m ≠ .leave) :
    Progress u (past ++ [⟨s, now, m⟩]) now (s.make now m).value := by
  have allowed := Session.allows_of_next? next
  have unasked (running : s.phase = .running) : s.Unasked :=
    Session.unasked running fun m' hm => Option.some.inj (next.symm.trans hm) ▸ untouched
  cases h with
  | mounted begins here =>
    subst begins
    rw [here.next? _ unasked] at next
    cases next
    exact .idle 0 (fun _ lt => absurd lt (Nat.not_lt_zero _)) (Nat.zero_le _) here.opens
  | idle k good early here =>
    rw [here.next? _ unasked, u.idle_next?] at next
    split at next
    · rename_i due
      obtain rfl := Nat.le_antisymm early due
      cases next
      exact .outgoing k good rfl (here.fires allowed)
    · cases next
  | outgoing k good starts here =>
    subst starts
    rw [here.next? _ unasked, u.outgoing_next?] at next
    cases next
    exact .awaited k good (u.start_le_due k) here.handsOver
  | awaited k good early here =>
    rw [here.next? _ unasked, u.awaited_next?] at next
    split at next
    · rename_i due
      obtain rfl := Nat.le_antisymm early due
      cases next
      -- How the request ends was fixed when the service got it; which move that is shows only here.
      rw [Awaited.move]
      cases outcome : u.outcome k with
      | none => exact .crashed k good outcome here.crashes
      | some result =>
        cases result with
        | ok answer => exact .idle (k + 1) (good.succ outcome) (u.due_le_start k) (here.succeeds good outcome)
        | error failure => exact .failed k good failure outcome (here.fails failure)
    · cases next
  | failed k good failure outcome here =>
    rw [here.next? _ unasked] at next
    cases next
  | crashed k good outcome here =>
    rw [here.next? _ unasked] at next
    cases next

theorem wait {later : Nat} (h : Progress u past now s) (idle : s.next? now = none)
    (due : ∀ due, s.nextDue? = some due → later ≤ due) : Progress u past later s := by
  cases h with
  | mounted begins here => exact absurd idle (here.busy (Option.some_ne_none _))
  | idle k good early here => exact .idle k good (due _ (here.nextDue? rfl)) here
  | outgoing k good starts here => exact absurd idle (here.busy (Option.some_ne_none _))
  | awaited k good early here => exact .awaited k good (due _ (here.nextDue? rfl)) here
  | failed k good failure outcome here => exact .failed k good failure outcome here
  | crashed k good outcome here => exact .crashed k good outcome here

theorem sent_eq (h : Progress u past now s) :
    sent past = (List.range (requests past).length).map fun k => (u.start k, u.request k) := by
  cases h with
  | mounted _ here | idle _ _ _ here | outgoing _ _ _ here | awaited _ _ _ here | failed _ _ _ _ here
  | crashed _ _ _ here => rw [here.prepared, here.sent]

theorem calls_eq (h : Progress u past now s) :
    s.calls = (List.range s.calls.length).map fun k => ⟨u.request k, u.start k⟩ := by
  cases h with
  | mounted _ here | idle _ _ _ here | outgoing _ _ _ here | awaited _ _ _ here | failed _ _ _ _ here
  | crashed _ _ _ here => rw [here.replied, here.calls]

/-- Only requests that were prepared reach the service. -/
theorem calls_le (h : Progress u past now s) : s.calls.length ≤ (requests past).length := by
  cases h with
  | outgoing j _ _ here =>
    rw [here.replied, here.prepared]
    exact Nat.le_succ j
  | mounted _ here | idle _ _ _ here | awaited _ _ _ here | failed _ _ _ _ here | crashed _ _ _ here =>
    exact (here.replied.trans here.prepared.symm).le

/-- A request whose time has passed has reached the service. -/
theorem starts (h : Progress u past now s) (good : u.Succeeds k) (passed : s.Passed now (u.start k)) :
    k < s.calls.length := by
  cases h with
  | mounted begins here =>
    subst begins
    exact absurd passed here.mounted_passed
  | idle j _ early here =>
    rw [here.replied]
    exact u.start_mono.reflect_lt (here.idle_passed early passed)
  | outgoing j _ starts here =>
    subst starts
    rw [here.replied]
    exact u.start_mono.reflect_lt (here.outgoing_passed passed)
  | awaited j _ early here =>
    rw [here.replied]
    exact u.start_mono.reflect_lt ((here.awaited_passed early passed).trans_le (u.due_le_start j))
  | failed j _ failure outcome here =>
    rw [here.replied]
    exact Nat.lt_succ_of_le (good.le_failure outcome)
  | crashed j _ outcome here =>
    rw [here.replied]
    exact Nat.lt_succ_of_le (good.le_crash outcome)

/-- An answer whose time has passed is there. -/
theorem ends (h : Progress u past now s) (good : u.Succeeds k) (some : u.outcome k ≠ none)
    (passed : s.Passed now (u.due k)) : k < (answers past).length := by
  cases h with
  | mounted begins here =>
    subst begins
    exact absurd passed here.mounted_passed
  | idle j _ early here =>
    rw [here.answered]
    exact u.start_mono.reflect_lt ((u.start_le_due k).trans_lt (here.idle_passed early passed))
  | outgoing j _ starts here =>
    subst starts
    rw [here.answered]
    exact u.start_mono.reflect_lt ((u.start_le_due k).trans_lt (here.outgoing_passed passed))
  | awaited j _ early here =>
    rw [here.answered]
    exact u.due_mono.reflect_lt (here.awaited_passed early passed)
  | failed j _ failure outcome here =>
    rw [here.answered]
    exact Nat.lt_succ_of_le (good.le_failure outcome)
  | crashed j _ outcome here =>
    rw [here.answered]
    refine Nat.lt_of_le_of_ne (good.le_crash outcome) ?_
    rintro rfl
    exact some outcome

/-- After as many results the view shows the last one, whatever comes next. -/
theorem sink (h : Progress u past now s) (good : u.Succeeds (k + 1)) (answered : (answers past).length = k + 1) :
    s.view.sink = u.sink (k + 1) := by
  cases h with
  | mounted _ here => cases here.answered.symm.trans answered
  | idle j _ _ here | outgoing j _ _ here | awaited j _ _ here | crashed j _ _ here =>
    obtain rfl : j = k + 1 := here.answered.symm.trans answered
    rw [here.view]
    rfl
  | failed j _ failure outcome here =>
    obtain rfl : j = k := Nat.succ.inj (here.answered.symm.trans answered)
    obtain ⟨answer, ok⟩ := good j (Nat.lt_succ_self j)
    cases outcome.symm.trans ok

/-- No request comes after the first failure. -/
theorem ended (h : Progress u past now s) {failure : Failure} (outcome : u.outcome k = some (.error failure)) :
    (requests past).length ≤ k + 1 := by
  cases h with
  | mounted _ here => exact here.prepared.trans_le (Nat.zero_le _)
  | idle j succeeds _ here => exact here.prepared.trans_le (Nat.le_succ_of_le (succeeds.le_failure outcome))
  | outgoing j succeeds _ here | awaited j succeeds _ here | failed j succeeds _ _ here
  | crashed j succeeds _ here => exact here.prepared.trans_le (Nat.succ_le_succ (succeeds.le_failure outcome))

/-- The first failure stays as it is shown. -/
theorem halts (h : Progress u past now s) {failure : Failure} (outcome : u.outcome k = some (.error failure))
    (answered : (answers past).length = k + 1) : s.view = u.halted k failure := by
  cases h with
  | mounted _ here => cases here.answered.symm.trans answered
  | idle j succeeds _ here | outgoing j succeeds _ here | awaited j succeeds _ here | crashed j succeeds _ here =>
    obtain rfl : j = k + 1 := here.answered.symm.trans answered
    exact absurd (succeeds.le_failure outcome) (Nat.not_succ_le_self k)
  | failed j _ failure' outcome' here =>
    obtain rfl : j = k := Nat.succ.inj (here.answered.symm.trans answered)
    cases outcome'.symm.trans outcome
    exact here.view

end Progress

theorem Clocked.progress (clocked : Clocked u.session 0 past now s) (untouched : Untouched past) :
    Progress u past now s := by
  induction clocked with
  | start => exact .start u
  | ask _ asked ih => exact (ih untouched).ask asked
  | make _ next ih => exact (ih untouched.init).make next untouched.last
  | wait later _ idle _ due ih => exact (ih untouched).wait idle due

/-- A session that came to the place, and was asked for nothing on the way. -/
structure Alone (u : Mount α) (place : Place α) (now : Nat) (past : List (Moment α)) (s : Session α) : Prop where
  clocked : Clocked u.session 0 past now s
  untouched : Untouched past
  unasked : s.Unasked
  here : At u place past s

namespace Alone
variable {place next : Place α}

theorem start (u : Mount α) : Alone u u.mounted 0 [] u.session :=
  ⟨.start, fun _ hm => (List.not_mem_nil hm).elim, ⟨rfl, rfl⟩, ⟨rfl, rfl, rfl, rfl, rfl, rfl, rfl⟩⟩

theorem make (h : Alone u place now past s) (first : place.next? now = some m)
    (there : s.Allows m → At u next (past ++ [⟨s, now, m⟩]) (s.make now m).value) :
    Alone u next now (past ++ [⟨s, now, m⟩]) (s.make now m).value := by
  have untouched := Place.next?_untouched first s
  have first : s.next? now = some m := (h.here.next? now fun _ => h.unasked).trans first
  exact ⟨h.clocked.make first, h.untouched.concat untouched.1 untouched.2, h.unasked.make now m,
    there (Session.allows_of_next? first)⟩

/-- Nothing comes before what is due next. -/
theorem wait {due : Nat} (h : Alone u place now past s) (early : now ≤ due)
    (idle : now < due → place.next? now = none) (until' : s.nextDue? = some due) : Alone u place due past s := by
  rcases Nat.eq_or_lt_of_le early with rfl | later
  · exact h
  · have idle : s.next? now = none := (h.here.next? now fun _ => h.unasked).trans (idle later)
    exact ⟨h.clocked.wait due idle early fun _ due' => (Option.some.inj (until'.symm.trans due')).le,
      h.untouched, h.unasked, h.here⟩

theorem opens (u : Mount α) : ∃ past s, Alone u (u.idle 0) 0 past s :=
  ⟨_, _, (start u).make rfl fun _ => (start u).here.opens⟩

theorem fires (h : Alone u (u.idle k) now past s) (early : now ≤ u.start k) :
    ∃ past s, Alone u (u.outgoing k) (u.start k) past s := by
  have idle (before : now < u.start k) : (u.idle k).next? now = none := by
    rw [u.idle_next?, if_neg (Nat.not_le_of_lt before)]
  have due := h.wait early idle (h.here.nextDue? rfl)
  have first : (u.idle k).next? (u.start k) = _ := (u.idle_next? k _).trans (if_pos (Nat.le_refl _))
  exact ⟨_, _, due.make first h.here.fires⟩

theorem handsOver (h : Alone u (u.outgoing k) (u.start k) past s) :
    ∃ past s, Alone u (u.awaited k) (u.start k) past s :=
  ⟨_, _, h.make rfl fun _ => h.here.handsOver⟩

theorem arrives (h : Alone u (u.awaited k) (u.start k) past s) : Alone u (u.awaited k) (u.due k) past s := by
  have idle (before : u.start k < u.due k) : (u.awaited k).next? (u.start k) = none := by
    rw [u.awaited_next?, if_neg (Nat.not_le_of_lt before)]
  exact h.wait (u.start_le_due k) idle (h.here.nextDue? rfl)

theorem succeeds (h : Alone u (u.awaited k) (u.due k) past s) (good : u.Succeeds k) {answer : Answer α}
    (ok : u.outcome k = some (.ok answer)) : ∃ past s, Alone u (u.idle (k + 1)) (u.due k) past s := by
  have first : (u.awaited k).next? (u.due k) = some (.event (.response (u.request k).tag (.ok answer))) := by
    rw [u.awaited_next?, if_pos (Nat.le_refl _), Awaited.move, ok]
  exact ⟨_, _, h.make first fun _ => h.here.succeeds good ok⟩

theorem fails (h : Alone u (u.awaited k) (u.due k) past s) {failure : Failure}
    (outcome : u.outcome k = some (.error failure)) : ∃ past s, Alone u (u.failed k failure) (u.due k) past s := by
  have first : (u.awaited k).next? (u.due k) = some (.event (.response (u.request k).tag (.error failure))) := by
    rw [u.awaited_next?, if_pos (Nat.le_refl _), Awaited.move, outcome]
  exact ⟨_, _, h.make first fun _ => h.here.fails failure⟩

end Alone

namespace Mount

/-- As long as no request fails, the next one is made. -/
theorem reaches_idle (u : Mount α) (good : u.Succeeds k) :
    ∃ now past s, now ≤ u.start k ∧ Alone u (u.idle k) now past s := by
  -- A request is made at its time only if the view waits for it before, so each step of the induction ends there.
  induction k with
  | zero =>
    obtain ⟨past, s, opened⟩ := Alone.opens u
    exact ⟨0, past, s, Nat.zero_le _, opened⟩
  | succ k ih =>
    have before : u.Succeeds k := good.mono (Nat.le_succ k)
    obtain ⟨answer, ok⟩ := good k (Nat.lt_succ_self k)
    obtain ⟨_, _, _, early, idle⟩ := ih before
    obtain ⟨_, _, outgoing⟩ := idle.fires early
    obtain ⟨_, _, awaited⟩ := outgoing.handsOver
    obtain ⟨past, s, shown⟩ := awaited.arrives.succeeds before ok
    exact ⟨u.due k, past, s, u.due_le_start k, shown⟩

theorem reaches_awaited (u : Mount α) (good : u.Succeeds k) :
    ∃ past s, Alone u (u.awaited k) (u.start k) past s := by
  obtain ⟨_, _, _, early, idle⟩ := u.reaches_idle good
  obtain ⟨_, _, outgoing⟩ := idle.fires early
  exact outgoing.handsOver

theorem reaches_answered (u : Mount α) (good : u.Succeeds k) (some : u.outcome k ≠ none) :
    ∃ place past s, Alone u place (u.due k) past s ∧ place.answered = k + 1 := by
  obtain ⟨_, _, awaited⟩ := u.reaches_awaited good
  cases outcome : u.outcome k with
  | none => exact absurd outcome some
  | some result =>
    cases result with
    | ok answer =>
      obtain ⟨past, s, shown⟩ := awaited.arrives.succeeds good outcome
      exact ⟨_, past, s, shown, rfl⟩
    | error failure =>
      obtain ⟨past, s, shown⟩ := awaited.arrives.fails outcome
      exact ⟨_, past, s, shown, rfl⟩

end Mount

/-- A view that is left alone makes its requests for the location it was mounted with, each at its time and as long
as no request before it failed. After each result it shows that result, and after the first failure it makes no more
requests, and shows the failure and the result before. -/
theorem undisturbed_cadence (u : Mount α) :
    (∀ past now s, Clocked u.session 0 past now s → Untouched past →
      sent past = (List.range (requests past).length).map (fun k => (u.start k, u.request k)) ∧
      s.calls = (List.range s.calls.length).map (fun k => ⟨u.request k, u.start k⟩) ∧
      ∀ k, u.Succeeds k →
        (s.Passed now (u.start k) → k < (requests past).length ∧ k < s.calls.length) ∧
        (s.Passed now (u.due k) → u.outcome k ≠ none → k < (answers past).length) ∧
        (∀ answer, u.outcome k = some (.ok answer) → (answers past).length = k + 1 →
          s.shown.sink = ⟨some answer.total, answer.records, answer.facets.getD [], k + 1⟩) ∧
        ∀ failure, u.outcome k = some (.error failure) →
          (requests past).length ≤ k + 1 ∧
          ((answers past).length = k + 1 →
            s.shown.scheduler.state = .failed failure.message ∧ s.shown.sink = u.sink k)) ∧
    ∀ k, u.Succeeds k →
      (∃ past s, Clocked u.session 0 past (u.start k) s ∧ Untouched past ∧
        (requests past).length = k + 1 ∧ s.calls.length = k + 1) ∧
      (u.outcome k ≠ none →
        ∃ past s, Clocked u.session 0 past (u.due k) s ∧ Untouched past ∧ (answers past).length = k + 1) := by
  constructor
  · intro past now s clocked untouched
    have progress := clocked.progress untouched
    have shown : s.shown = s.view := clocked.run.shown_eq
    rw [shown]
    refine ⟨progress.sent_eq, progress.calls_eq, fun k good => ⟨fun passed => ?_,
      fun passed some => progress.ends good some passed, fun answer ok answered => ?_,
      fun failure outcome => ⟨progress.ended outcome, fun answered => ?_⟩⟩⟩
    · have called := progress.starts good passed
      exact ⟨called.trans_le progress.calls_le, called⟩
    · rw [progress.sink (good.succ ok) answered, Mount.sink_succ ok]
    · rw [progress.halts outcome answered]
      exact ⟨rfl, rfl⟩
  · intro k good
    constructor
    · obtain ⟨past, s, alone⟩ := u.reaches_awaited good
      exact ⟨past, s, alone.clocked, alone.untouched, alone.here.prepared, alone.here.replied⟩
    · intro some
      obtain ⟨place, past, s, alone, last⟩ := u.reaches_answered good some
      exact ⟨past, s, alone.clocked, alone.untouched, alone.here.answered.trans last⟩

namespace Refused

/-- A view whose second request is refused. -/
def mount : Mount Unit where
  endpoint := "/api/history"
  location := ⟨"/history", [("filter", "a")]⟩
  schedule := ⟨500, 2000⟩
  service := ⟨[⟨900, fun _ => pure (some (.ok ⟨3, [(), ()], none⟩))⟩],
    ⟨300, fun _ => pure (some (.error (.application 500 "no")))⟩⟩

def polling : List (Nat × Move Unit) :=
  [(0, .event .opening), (500, .event (.timer .debounce)), (500, .handOver (mount.request 0)),
    (1400, .event (.response ⟨1, "a"⟩ (.ok ⟨3, [(), ()], none⟩))), (3400, .event (.timer .cadence)),
    (3400, .handOver (mount.request 1)), (3700, .event (.response ⟨2, "a"⟩ (.error (.application 500 "no"))))]

theorem clocked : Clocked mount.session 0 (mount.session.play polling).1 3700 (mount.session.play polling).2 := by
  have mounted : Clocked mount.session 0 [] 0 mount.session := .start
  have opened := (mounted.make rfl).wait 500 rfl (by decide) (by rintro _ ⟨⟩; decide)
  have asked := ((opened.make rfl).make rfl).wait 1400 rfl (by decide) (by rintro _ ⟨⟩; decide)
  have shown := (asked.make rfl).wait 3400 rfl (by decide) (by rintro _ ⟨⟩; decide)
  exact (((shown.make rfl).make rfl).wait 3700 rfl (by decide) (by rintro _ ⟨⟩; decide)).make rfl

theorem untouched : Untouched (mount.session.play polling).1 := by
  rintro m (_ | ⟨_, _ | ⟨_, _ | ⟨_, _ | ⟨_, _ | ⟨_, _ | ⟨_, _ | ⟨_, ⟨⟩⟩⟩⟩⟩⟩⟩⟩) <;> exact ⟨rfl, by simp⟩

end Refused

/-- The refusal of the second request leaves the first result. -/
theorem undisturbed_cadence_refused :
    sent (Refused.mount.session.play Refused.polling).1 =
      [(500, Refused.mount.request 0), (3400, Refused.mount.request 1)] ∧
    (Refused.mount.session.play Refused.polling).2.shown.scheduler.state = .failed "no" ∧
    (Refused.mount.session.play Refused.polling).2.shown.sink = ⟨some 3, [(), ()], [], 1⟩ := by
  obtain ⟨sent, _, all⟩ := (undisturbed_cadence Refused.mount).1 _ _ _ Refused.clocked Refused.untouched
  have good : Refused.mount.Succeeds 1 := by
    intro i first
    obtain rfl : i = 0 := Nat.lt_one_iff.mp first
    exact ⟨_, rfl⟩
  obtain ⟨_, _, _, failed⟩ := all 1 good
  obtain ⟨_, last⟩ := failed (.application 500 "no") rfl
  exact ⟨sent, last rfl⟩

end ProxyMonitor.Live
