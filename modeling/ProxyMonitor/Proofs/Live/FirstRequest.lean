import ProxyMonitor.Proofs.FilterHistory
import ProxyMonitor.Proofs.Live.Cadence
import ProxyMonitor.Proofs.Live.FilterAhead
import ProxyMonitor.Proofs.LocationText

/-! The first request of a view: it is for the location that the edits before it leave, it is the first that the
service gets, and it goes out when the quiet time is over. -/
namespace ProxyMonitor

namespace Location
variable {l : Location} {values : List String} {last : String}

/-- Of a location without pairs, edits leave what the last one alone would leave. -/
theorem foldl_setFilter_bare (bare : l.pairs = []) (ends : values.getLast? = some last) :
    values.foldl setFilter l = l.setFilter last := by
  obtain ⟨before, rfl⟩ := List.getLast?_eq_some_iff.mp ends
  have behind : l.FilterLast := filterLast_of_absent (by simp [bare])
  have folded : ((before ++ [last]).foldl setFilter l).filterPairs = (l.setFilter last).filterPairs := by
    rw [List.foldl_concat, filterPairs_setFilter, filterPairs_setFilter]
  have pairs : ((before ++ [last]).foldl setFilter l).pairs = (l.setFilter last).pairs := by
    have first : ((before ++ [last]).foldl setFilter l).FilterLast := foldl_filterLast (.inl behind)
    have second : (l.setFilter last).FilterLast := behind.setFilter last
    rw [first, second, folded, foldl_others, others_setFilter]
  have path : ((before ++ [last]).foldl setFilter l).path = (l.setFilter last).path := by
    rw [foldl_path, setFilter_path]
  cases edited : (before ++ [last]).foldl setFilter l with
  | mk path' pairs' =>
    rw [edited] at path pairs
    cases path
    cases pairs
    rfl

/-- The text that names a page, and a filter unless it is empty. -/
def address (page : Page) (filter : String) : String :=
  "/" ++ page.name ++
    if filter = "" then "" else "?filter=" ++ String.ofList (Url.Form.encode filter.toList)

theorem ofPage_eq (page : Page) : ofPage page = ⟨"/" ++ page.name, []⟩ := by
  cases page <;> decide +kernel

theorem text_setFilter_ofPage (page : Page) (filter : String) :
    ((ofPage page).setFilter filter).text = address page filter := by
  rw [ofPage_eq, address, setFilter]
  by_cases empty : filter = ""
  · rw [if_pos (String.isEmpty_iff.mpr empty), if_pos empty, String.append_empty]
    rfl
  · have key : Url.Form.encode filterKey.toList = "filter".toList := by decide
    rw [if_neg (by simpa [String.isEmpty_iff] using empty), if_neg empty]
    simp [set, text, query, Url.Form.write, Url.Form.encodePair, key, String.ext_iff, toString]

/-- That text is read as the location of the page with the filter. -/
theorem read_address (page : Page) (filter : String) :
    read (address page filter) = .ok ((ofPage page).setFilter filter) := by
  rw [← text_setFilter_ofPage]
  exact ((isRooted_ofPage page).congr (setFilter_path _ filter)).read_text

end Location

namespace Live
open ProxyMonitor.Poll
variable {α : Type}

/-- The filter that the event sets. -/
def Event.edit? : Event α → Option String
  | .command (.setFilter value) => some value
  | _ => none

/-- The filter that is set in the move. -/
def Moment.edit? (m : Moment α) : Option String :=
  match m.move with
  | .event e => e.edit?
  | _ => none

/-- The edits of the filter, each with its time. -/
def edits (past : List (Moment α)) : List (Nat × String) :=
  past.filterMap fun m => m.edit?.map (Prod.mk m.now)

/-- The moves before the first request. -/
def beginning (past : List (Moment α)) : List (Moment α) :=
  past.takeWhile (·.request?.isNone)

/-- What the edits leave of a location. -/
def locationAfter (location : Location) (past : List (Moment α)) : Location :=
  ((edits past).map Prod.snd).foldl Location.setFilter location

/-- When the quiet time began: with the last edit that changed the filter, or with the mount. -/
def quietSince (past : List (Moment α)) : Nat :=
  ((changes past).getLast?.map (·.now)).getD 0

variable {past : List (Moment α)} {s t : Session α} {m : Moment α} {r : Request} {now : Nat} {location : Location}

theorem edits_concat (past : List (Moment α)) (m : Moment α) :
    edits (past ++ [m]) = edits past ++ (m.edit?.map (Prod.mk m.now)).toList :=
  filterMap_concat _ _ _

theorem locationAfter_concat (location : Location) (past : List (Moment α)) (m : Moment α) :
    locationAfter location (past ++ [m]) =
      m.edit?.elim (locationAfter location past) (locationAfter location past).setFilter := by
  rw [locationAfter, edits_concat]
  cases m.edit? with
  | none => simp [locationAfter]
  | some value => simp [locationAfter]

/-- The move that prepares the first request is no part of the beginning. -/
theorem beginning_concat (unsent : requests past = []) (sends : m.request? = some r) :
    beginning (past ++ [m]) = past := by
  have silent : ∀ m ∈ past, m.request?.isNone = true := fun m hm => by
    rw [List.filterMap_eq_nil_iff.mp unsent m hm]
    rfl
  rw [beginning, List.takeWhile_append_of_pos silent, List.takeWhile_cons_of_neg (by simp [sends]), List.append_nil]

/-- What comes after the first request does not change what was before it. -/
theorem beginning_concat_of_sent (sent : requests past ≠ []) (m : Moment α) :
    beginning (past ++ [m]) = beginning past := by
  have stops : ¬ ∀ m ∈ past, m.request?.isNone = true := fun silent =>
    sent (List.filterMap_eq_nil_iff.mpr fun m hm => Option.isNone_iff_eq_none.mp (silent m hm))
  have short : (past.takeWhile (·.request?.isNone)).length ≠ past.length := fun all => stops
    (List.takeWhile_eq_self_iff.mp ((List.takeWhile_prefix _).eq_of_length all))
  rw [beginning, List.takeWhile_append, if_neg short]
  rfl

theorem quietSince_concat_of_not (same : m.meets View.changes = false) : quietSince (past ++ [m]) = quietSince past := by
  rw [quietSince, changes_concat_of_not same]
  rfl

theorem quietSince_concat (changed : m.meets View.changes = true) : quietSince (past ++ [m]) = m.now := by
  rw [quietSince, changes_concat changed, List.getLast?_concat]
  rfl

namespace View
variable {v : View α} {e : Event α}

/-- Edits are the only events that touch the location. -/
theorem handle_edit (v : View α) (now : Nat) (e : Event α) :
    (v.handle now e).value.2.location = e.edit?.elim v.location v.location.setFilter := by
  rw [handle_scheduler_only]
  cases e with
  | opening => exact poll_location v now
  | timer kind => rfl
  | response tag outcome => exact response_location v now tag outcome
  | command c =>
    cases c with
    | setFilter value => exact setFilter_location v now value
    | refresh => exact poll_location v now
    | pause => rfl
    | resume => exact resume_location v
    | togglePause =>
      change (v.command now .togglePause).value.2.location = v.location
      rw [command]
      split
      · exact resume_location v
      · rfl

/-- An edit waits for the quiet time, so that no request goes out with it. -/
theorem edit?_of_sends (sends : (v.handle now e).value.1 = some r) : e.edit? = none := by
  cases e with
  | opening | timer | response => rfl
  | command c =>
    cases c with
    | refresh | pause | resume | togglePause => rfl
    | setFilter value =>
      have waits : (v.handle now (.command (.setFilter value))).value.1 = none := by rw [handle_waits rfl]
      cases waits.symm.trans sends

end View

/-- The request that is on its way to the service. -/
def Slot.outgoing? : Slot α → Option Request
  | .outgoing request => some request
  | _ => none

/-- An event has nothing to do with a request that is on its way. -/
theorem Session.take_outgoing? {e : Event α} (allowed : s.Allows (.event e)) :
    (s.take e).slot.outgoing? = s.slot.outgoing? := by
  cases e with
  | opening | command | timer => rfl
  | response =>
    obtain ⟨_, a, out, _⟩ := allowed
    rw [out]
    rfl

/-- What the service got, and what is still on its way to it, are the requests that were prepared. -/
structure Delivered (past : List (Moment α)) (s : Session α) : Prop where
  got : s.calls.map Call.request <+: requests past
  all : s.phase ≠ .ended → requests past = s.calls.map Call.request ++ s.slot.outgoing?.toList

/-- The first request is numbered one. -/
theorem Ordered.first_seq (h : Ordered past s) (first : (requests past).head? = some r) : r.tag.seq = 1 := by
  have numbers := congrArg List.head? h.numbered
  rw [List.head?_map, first, List.head?_range'] at numbers
  split at numbers
  · cases numbers
  · exact Option.some.inj numbers

section Mounted
variable {u : Mount α}

/-- A view shows the location that the edits have left. -/
theorem Run.location_eq (run : Run u.session past s) : s.view.location = locationAfter u.location past := by
  induction run with
  | start => rfl
  | ask _ asked ih =>
    obtain ⟨_, _, _, rfl⟩ := asked.eq_with
    exact ih
  | make now m _ _ ih =>
    rw [locationAfter_concat, ← ih]
    cases m with
    | event e => rw [Session.make, Session.react_view, View.handle_edit]; rfl
    | handOver | crash | leave => rfl

theorem Run.delivered (run : Run u.session past s) : Delivered past s := by
  induction run with
  | start => exact ⟨List.nil_prefix, fun _ => rfl⟩
  | ask _ asked ih =>
    obtain ⟨_, _, _, rfl⟩ := asked.eq_with
    exact ⟨ih.got, ih.all⟩
  | @make past s now m run allowed ih =>
    have before := ih.all (Session.not_ended_of_allows allowed)
    cases m with
    | leave =>
      have unsent : requests (past ++ [⟨s, now, .leave⟩]) = requests past := by simp [Moment.request?]
      exact ⟨by rw [unsent]; exact ih.got, fun alive => absurd rfl alive⟩
    | crash =>
      have unsent : requests (past ++ [⟨s, now, .crash⟩]) = requests past := by simp [Moment.request?]
      exact ⟨by rw [unsent]; exact ih.got, fun _ => by rw [unsent]; exact before⟩
    | handOver request =>
      have out : s.slot = .outgoing request := allowed.2
      have after : requests (past ++ [⟨s, now, .handOver request⟩]) =
          (s.calls ++ [Call.mk request now]).map Call.request := by
        rw [requests_concat, before, out, List.map_append]
        exact List.append_nil _
      refine ⟨?_, fun _ => after.trans (List.append_nil _).symm⟩
      rw [after]
      exact List.prefix_rfl
    | event e =>
      have calls : (s.make now (.event e)).value.calls = s.calls := (s.react_unserved now e).2.1
      have after : requests (past ++ [⟨s, now, .event e⟩]) =
          s.calls.map Call.request ++ (s.make now (.event e)).value.slot.outgoing?.toList := by
        rw [requests_concat, before, Moment.request?_event, Session.make, Session.react_slot]
        cases sends : (s.view.handle now e).value.1 with
        | none => simp [Session.take_outgoing? allowed]
        | some r =>
          have free := run.ordered.free allowed sends
          rw [← Session.take_outgoing? allowed, free]
          simp [Slot.outgoing?]
      refine ⟨?_, fun _ => ?_⟩
      · rw [calls, after]
        exact List.prefix_append _ _
      · rw [calls, after]

/-- What the service got first is the first request. -/
theorem Run.first_call (run : Run u.session past s) {call : Call} (first : s.calls.head? = some call) :
    (requests past).head? = some call.request := by
  obtain ⟨later, requests⟩ := run.delivered.got
  rw [← requests, List.head?_append, List.head?_map, first]
  rfl

/-- Whatever is done to a view, its first request is for what the edits before it have left. -/
theorem Run.first_request (run : Run u.session past s) (first : (requests past).head? = some r) :
    r = ⟨u.endpoint, (locationAfter u.location (beginning past)).pairs,
      ⟨1, (locationAfter u.location (beginning past)).filter⟩⟩ := by
  induction run with
  | start => cases first
  | ask _ _ ih => exact ih first
  | @make past s now m run allowed ih =>
    by_cases unsent : requests past = []
    · have numbered : r.tag.seq = 1 := (run.make now m allowed).ordered.first_seq first
      rw [requests_concat, unsent, List.nil_append, Option.head?_toList] at first
      rw [beginning_concat unsent first]
      cases m with
      | handOver | crash | leave => cases first
      | event e =>
        have sends : (s.view.handle now e).value.1 = some r := first
        obtain ⟨params, filter⟩ := View.handle_request sends
        rw [View.filter] at filter
        rw [View.handle_edit, View.edit?_of_sends sends, Option.elim_none, run.location_eq] at params filter
        have endpoint : r.endpoint = u.endpoint := by
          obtain ⟨_, rfl, _⟩ := View.handle_some sends
          exact (View.react_endpoint s.view now e).trans run.endpoint_eq.1
        rw [← params, ← filter, ← numbered, ← endpoint]
    · rw [beginning_concat_of_sent unsent]
      refine ih ?_
      obtain ⟨sent, more, requests⟩ := List.exists_cons_of_ne_nil unsent
      rw [requests_concat, requests] at first
      rw [requests]
      exact first

/-- A view that is opened waits for its first request. -/
theorem Run.opened (run : Run u.session past s) (mounting : s.phase = .mounting) :
    past = [] ∧ Quiet u.schedule [⟨s, 0, .event .opening⟩] 0 ⟨s, 0, .event .opening⟩ u.location.filter
      (s.make 0 (.event .opening)).value := by
  have untouched : s.view = .start u.endpoint u.location u.schedule := run.mounting mounting
  have free : s.slot = .free := by
    rw [← Slot.tag?_eq_none, run.ordered.slot (by simp [mounting]), untouched]
    rfl
  have calm : Calm [] s := ⟨by simp [Session.isStopped, mounting], by rw [untouched]; rfl, free, rfl⟩
  have after : (s.make 0 (.event .opening)).value.view = u.waiting 0 := by
    rw [Session.make, Session.react_view, untouched, u.handle_opening]
  refine ⟨run.past_mounting mounting, Session.make_running mounting, calm.opening mounting 0, ?_, ?_, Nat.zero_le _⟩
  · rw [after]
    rfl
  · rw [after, Mount.waiting, Timer.arm, Mount.start]
    simp

end Mounted

/-- How far a view has come that is only edited: it waits until the quiet time is over, and then its first request
goes out. -/
inductive Approach (u : Mount α) (past : List (Moment α)) (now : Nat) (s : Session α) : Prop where
  | mounting (begins : now = 0) (mounting : s.phase = .mounting)
  | quiet (last : Moment α) (value : String) (since : last.now = quietSince past)
      (quiet : Quiet u.schedule past now last value s)
  | sent (sent : requests past ≠ [])

namespace Approach
variable {u : Mount α}

theorem ask (h : Approach u past now s) (asked : s.Asked t) : Approach u past now t := by
  cases h with
  | mounting begins mounting =>
    obtain ⟨_, _, _, rfl⟩ := asked.eq_with
    exact .mounting begins mounting
  | quiet last value since quiet => exact .quiet last value since (quiet.ask asked)
  | sent sent => exact .sent sent

theorem make {m : Move α} (h : Approach u past now s) (run : Run u.session past s) (next : s.next? now = some m)
    (only : OnlyEdited (past ++ [⟨s, now, m⟩])) : Approach u (past ++ [⟨s, now, m⟩]) now (s.make now m).value := by
  have allowed := Session.allows_of_next? next
  cases h with
  | mounting begins mounting =>
    subst begins
    obtain ⟨rfl, quiet⟩ := run.opened mounting
    rw [Session.next?, mounting] at next
    cases next
    exact .quiet _ _ rfl quiet
  | quiet last value since quiet =>
    have alive : s.view.scheduler.tornDown = false := Scheduler.Settled.alive (run.settled quiet.running)
    rcases quiet.calm.moves_cases allowed only with rfl | ⟨again, rfl⟩ | ⟨kind, rfl⟩
    · cases quiet.running.symm.trans allowed
    · by_cases same : s.view.filter = again
      · refine .quiet last value ?_ (quiet.same alive allowed same)
        rw [quietSince_concat_of_not (Moment.same_filter same), since]
      · have changed : (Moment.mk s now (.event (.command (.setFilter again)))).meets View.changes = true :=
          bne_iff_ne.mpr same
        refine .quiet _ again ?_ (Quiet.begins quiet.calm alive run.schedule_eq allowed same now)
        rw [quietSince_concat changed]
    · obtain ⟨_, polled⟩ := quiet.fires run.ordered alive next
      obtain ⟨r, first, _⟩ := polled.sent
      exact .sent fun none => by rw [none] at first; cases first
  | sent sent =>
    refine .sent ?_
    rw [requests_concat]
    exact List.append_ne_nil_of_left_ne_nil sent _

theorem wait {later : Nat} (h : Approach u past now s) (idle : s.next? now = none)
    (due : ∀ due, s.nextDue? = some due → later ≤ due) : Approach u past later s := by
  cases h with
  | mounting begins mounting =>
    rw [Session.next?, mounting] at idle
    cases idle
  | quiet last value since quiet => exact .quiet last value since (quiet.wait due)
  | sent sent => exact .sent sent

/-- When the quiet time has passed, the first request is out. -/
theorem passed (h : Approach u past now s) (passed : s.Passed now (quietSince past + u.schedule.debounce)) :
    requests past ≠ [] := by
  cases h with
  | mounting begins mounting =>
    have busy : s.next? now ≠ none := by
      rw [Session.next?, mounting]
      exact Option.some_ne_none _
    exact absurd (passed.before begins.le fun _ => busy) (Nat.not_lt_zero _)
  | quiet last value since quiet =>
    rw [← since] at passed
    exact absurd (passed.before quiet.early quiet.busy) (Nat.lt_irrefl _)
  | sent sent => exact sent

end Approach

theorem Clocked.approach {u : Mount α} (clocked : Clocked u.session 0 past now s) (only : OnlyEdited past) :
    Approach u past now s := by
  induction clocked with
  | start => exact .mounting rfl rfl
  | ask _ asked ih => exact (ih only).ask asked
  | make clocked next ih => exact (ih only.init).make clocked.run next only
  | wait later _ idle _ due ih => exact (ih only).wait idle due

/-- A session that came to its quiet time, and was asked for nothing since. -/
structure Waits (u : Mount α) (past : List (Moment α)) (now : Nat) (last : Moment α) (value : String)
    (s : Session α) : Prop where
  clocked : Clocked u.session 0 past now s
  unasked : s.Unasked
  quiet : Quiet u.schedule past now last value s

namespace Waits
variable {u : Mount α} {last : Moment α} {value : String}

theorem opened (u : Mount α) : ∃ past last s, Waits u past 0 last u.location.filter s ∧ edits past = [] ∧ last.now = 0 := by
  have mounted : Clocked u.session 0 [] 0 u.session := .start
  obtain ⟨_, quiet⟩ := mounted.run.opened rfl
  have unasked : u.session.Unasked := ⟨rfl, rfl⟩
  exact ⟨_, _, _, ⟨mounted.make rfl, unasked.make 0 _, quiet⟩, rfl, rfl⟩

theorem next? (h : Waits u past now last value s) : s.next? now =
    if last.now + u.schedule.debounce ≤ now then some (.event (.timer .debounce)) else none := by
  rw [Session.next?, h.quiet.running, h.unasked.1, h.unasked.2, h.quiet.armed, Timer.due?_arm, h.quiet.calm.free]
  by_cases due : last.now + u.schedule.debounce ≤ now
  · rw [if_pos due, if_pos due]
  · rw [if_neg due, if_neg due]

theorem later {time : Nat} (h : Waits u past now last value s) (passes : now ≤ time)
    (early : time ≤ last.now + u.schedule.debounce) : Waits u past time last value s := by
  rcases Nat.eq_or_lt_of_le passes with rfl | before
  · exact h
  · have idle : s.next? now = none := by rw [h.next?, if_neg (by omega)]
    have due : ∀ due, s.nextDue? = some due → time ≤ due := fun due hdue => by
      rw [h.quiet.nextDue?] at hdue
      exact early.trans (Option.some.inj hdue).le
    exact ⟨h.clocked.wait time idle passes due, h.unasked, h.quiet.wait due⟩

/-- An edit is handled at once, and the session goes on waiting. -/
theorem edit (h : Waits u past now last value s) (again : String) :
    ∃ past' last' s', Waits u past' now last' again s' ∧ edits past' = edits past ++ [(now, again)] := by
  have asked : s.Asked (s.send (.setFilter again)).value := .send _
  have sent : (s.send (.setFilter again)).value = { s with commands := [.setFilter again] } := by
    simp [Session.send, h.quiet.calm.alive, h.unasked.1]
  rw [sent] at asked
  have given := h.quiet.ask asked
  have next : ({ s with commands := [.setFilter again] } : Session α).next? now =
      some (.event (.command (.setFilter again))) := by
    rw [Session.next?, given.running]
  have allowed := Session.allows_of_next? next
  have clocked := (h.clocked.ask asked).make next
  have alive : s.view.scheduler.tornDown = false := Scheduler.Settled.alive (h.clocked.run.settled h.quiet.running)
  have unasked : (({ s with commands := [.setFilter again] } : Session α).make now
      (.event (.command (.setFilter again)))).value.Unasked := by
    refine ⟨?_, (Session.react_unserved _ now _).2.2.trans h.unasked.2⟩
    rw [Session.make, Session.react_commands]
    rfl
  have edited := edits_concat past ⟨{ s with commands := [.setFilter again] }, now, .event (.command (.setFilter again))⟩
  by_cases same : s.view.filter = again
  · obtain rfl : value = again := h.quiet.filter.symm.trans same
    exact ⟨_, last, _, ⟨clocked, unasked, given.same alive allowed same⟩, edited⟩
  · exact ⟨_, _, _, ⟨clocked, unasked, Quiet.begins given.calm alive h.clocked.run.schedule_eq allowed same now⟩, edited⟩

/-- At the end of the quiet time the first request goes out. -/
theorem fires (h : Waits u past now last value s) : ∃ past' s',
    Clocked u.session 0 past' (last.now + u.schedule.debounce) s' ∧ beginning past' = past ∧
      edits past' = edits past ∧ ∃ r, (requests past').head? = some r := by
  have due := h.later h.quiet.early (Nat.le_refl _)
  have next : s.next? (last.now + u.schedule.debounce) = some (.event (.timer .debounce)) := by
    rw [due.next?, if_pos (Nat.le_refl _)]
  have alive : s.view.scheduler.tornDown = false := Scheduler.Settled.alive (h.clocked.run.settled h.quiet.running)
  obtain ⟨_, polled⟩ := due.quiet.fires h.clocked.run.ordered alive next
  obtain ⟨r, first, _⟩ := polled.sent
  have unsent : requests past = [] := h.quiet.calm.unsent
  have sends := first
  rw [requests_concat, unsent, List.nil_append, Option.head?_toList] at sends
  have unedited := edits_concat past ⟨s, last.now + u.schedule.debounce, .event (.timer .debounce)⟩
  exact ⟨_, _, due.clocked.make next, beginning_concat unsent sends, unedited.trans (List.append_nil _), r, first⟩

end Waits

/-- Whatever is done to the view, its first request is this one, as it is prepared and as the service gets it, if the
edits before it are as said. Along the clock, and if the view is only edited, it goes out by the end of the quiet
time. -/
structure AsksFirst (u : Mount α) (edited : List (Nat × String) → Prop) (r : Request) : Prop where
  first : ∀ past s, Run u.session past s → edited (edits (beginning past)) →
    (∀ prepared, (requests past).head? = some prepared → prepared = r) ∧
      ∀ call, s.calls.head? = some call → call.request = r
  due : ∀ past now s, Clocked u.session 0 past now s → OnlyEdited past → edited (edits (beginning past)) →
    s.Passed now (quietSince past + u.schedule.debounce) → (requests past).head? = some r

theorem AsksFirst.of_location {u : Mount α} {edited : List (Nat × String) → Prop} {left : Location}
    (leaves : ∀ past : List (Moment α), edited (edits (beginning past)) →
      locationAfter u.location (beginning past) = left) :
    AsksFirst u edited ⟨u.endpoint, left.pairs, ⟨1, left.filter⟩⟩ := by
  refine ⟨fun past s run before => ⟨fun prepared first => ?_, fun call got => ?_⟩,
    fun past now s clocked only before passed => ?_⟩
  · rw [run.first_request first, leaves past before]
  · rw [run.first_request (run.first_call got), leaves past before]
  · obtain ⟨r, more, sent⟩ := List.exists_cons_of_ne_nil ((clocked.approach only).passed passed)
    have first : (requests past).head? = some r := congrArg List.head? sent
    rw [first, clocked.run.first_request first, leaves past before]

/-- A session that waits, edited as said, makes that request. -/
theorem AsksFirst.fires {u : Mount α} {edited : List (Nat × String) → Prop} {last : Moment α} {value : String}
    (asks : AsksFirst u edited r) (waits : Waits u past now last value s) (before : edited (edits past)) :
    ∃ past' s', Clocked u.session 0 past' (last.now + u.schedule.debounce) s' ∧ edits past' = edits past ∧
      (requests past').head? = some r := by
  obtain ⟨past', s', clocked, begins, same, prepared, first⟩ := waits.fires
  obtain ⟨only, _⟩ := asks.first past' s' clocked.run (by rw [begins]; exact before)
  exact ⟨past', s', clocked, same, by rw [first, only prepared first]⟩

/-- The request of a page and a filter is the first one of a view that is mounted for the page, if the last edit before
it sets the filter; such an edit may come at any time of the first quiet time. It is also the first one of a view that is
mounted at what is read from the text that names page and filter, if no edit comes before it. -/
theorem first_request_of_page (page : Page) (filter : String) (schedule : Schedule) (service : Service α) :
    let plain : Mount α := ⟨page.endpoint, .ofPage page, schedule, service⟩
    (AsksFirst plain (fun edits => (edits.map Prod.snd).getLast? = some filter) (.first page filter) ∧
      ∀ time ≤ schedule.debounce, ∃ past now s, Clocked plain.session 0 past now s ∧ edits past = [(time, filter)] ∧
        (requests past).head? = some (.first page filter)) ∧
    ∃ location, Location.read (Location.address page filter) = .ok location ∧
      let named : Mount α := ⟨page.endpoint, location, schedule, service⟩
      AsksFirst named (· = []) (.first page filter) ∧
        ∃ past s, Clocked named.session 0 past schedule.debounce s ∧ edits past = [] ∧
          (requests past).head? = some (.first page filter) := by
  intro plain
  have bare : (Location.ofPage page).pairs = [] := by rw [Location.ofPage_eq]
  have request : Request.first page filter = ⟨page.endpoint, ((Location.ofPage page).setFilter filter).pairs,
      ⟨1, ((Location.ofPage page).setFilter filter).filter⟩⟩ := by
    rw [Location.filter_setFilter]
    rfl
  have edited : AsksFirst plain (fun edits => (edits.map Prod.snd).getLast? = some filter) (.first page filter) := by
    rw [request]
    exact .of_location fun past last => Location.foldl_setFilter_bare bare last
  refine ⟨⟨edited, fun time early => ?edit⟩, _, Location.read_address page filter, ?named⟩
  case edit =>
    obtain ⟨_, _, _, opened, none, zero⟩ := Waits.opened plain
    have reached := opened.later (Nat.zero_le time) (by rw [zero, Nat.zero_add]; exact early)
    obtain ⟨_, _, _, waits, one⟩ := reached.edit filter
    have only := one.trans (congrArg (· ++ [(time, filter)]) none)
    obtain ⟨past, s, clocked, same, first⟩ := edited.fires waits (by rw [only]; rfl)
    exact ⟨past, _, s, clocked, same.trans only, first⟩
  case named =>
    intro named
    have unedited : AsksFirst named (· = []) (.first page filter) := by
      rw [request]
      exact .of_location fun past none => by rw [locationAfter, none]; rfl
    obtain ⟨_, last, _, opened, none, zero⟩ := Waits.opened named
    obtain ⟨past, s, clocked, same, first⟩ := unedited.fires opened none
    rw [zero, Nat.zero_add] at clocked
    exact ⟨unedited, past, s, clocked, same.trans none, first⟩

namespace Asked

def filter : String := "a b&é"

def mount : Mount Unit where
  endpoint := "/pool"
  location := ⟨"/pool", []⟩
  schedule := ⟨500, 2000⟩
  service := ⟨[], ⟨900, fun _ => pure (some (.ok ⟨3, [(), ()], none⟩))⟩⟩

def opening : List (Nat × Move Unit) :=
  [(0, .event .opening)]

/-- The filter is set before the first request. -/
def edited : Session Unit :=
  ((mount.session.play opening).2.send (.setFilter filter)).value

def asking : List (Nat × Move Unit) :=
  [(300, .event (.command (.setFilter filter))), (800, .event (.timer .debounce)),
    (800, .handOver ⟨"/pool", [("filter", filter)], ⟨1, filter⟩⟩)]

def asked : List (Moment Unit) :=
  (mount.session.play opening).1 ++ (edited.play asking).1

def last : Session Unit :=
  (edited.play asking).2

theorem clocked : Clocked mount.session 0 asked 800 last := by
  have mounted : Clocked mount.session 0 [] 0 mount.session := .start
  have waited := (mounted.make rfl).wait 300 rfl (by decide) (by rintro _ ⟨⟩; decide)
  have typed := (waited.ask (.send (.setFilter filter))).make (s := edited) rfl
  exact ((typed.wait 800 rfl (by decide) (by rintro _ ⟨⟩; decide)).make rfl).make rfl

theorem onlyEdited : OnlyEdited asked where
  stays := by
    rintro m (_ | ⟨_, _ | ⟨_, _ | ⟨_, _ | ⟨_, ⟨⟩⟩⟩⟩⟩) ⟨⟩
  edits := by
    rintro m (_ | ⟨_, _ | ⟨_, _ | ⟨_, _ | ⟨_, ⟨⟩⟩⟩⟩⟩) c ⟨⟩
    exact ⟨_, rfl⟩

theorem mount_eq : mount = ⟨Page.pool.endpoint, .ofPage .pool, mount.schedule, mount.service⟩ := by
  rw [Location.ofPage_eq]
  rfl

end Asked

/-- The filter is set while the view waits, and the quiet time starts over. -/
theorem first_request_of_page_asked :
    Clocked Asked.mount.session 0 Asked.asked 800 Asked.last ∧ OnlyEdited Asked.asked ∧
    edits (beginning Asked.asked) = [(300, "a b&é")] ∧ quietSince Asked.asked = 300 ∧ Asked.last.next? 800 = none ∧
    (requests Asked.asked).head? = some (.first .pool "a b&é") ∧
    300 ≤ 500 ∧ (∃ past now s, Clocked Asked.mount.session 0 past now s ∧ edits past = [(300, "a b&é")] ∧
      (requests past).head? = some (.first .pool "a b&é")) ∧
    ∃ location, Location.read "/pool?filter=a+b%26%C3%A9" = .ok location ∧
      ∃ past s, Clocked (Mount.mk "/pool" location ⟨500, 2000⟩ Asked.mount.service).session 0 past 500 s ∧
        edits past = [] ∧ (requests past).head? = some (.first .pool "a b&é") := by
  obtain ⟨⟨plain, mayEdit⟩, location, parsed, named, waits⟩ :=
    first_request_of_page .pool "a b&é" Asked.mount.schedule Asked.mount.service
  have text : Location.address .pool "a b&é" = "/pool?filter=a+b%26%C3%A9" := by decide +kernel
  rw [← Asked.mount_eq] at plain mayEdit
  rw [text] at parsed
  have first := plain.due _ _ _ Asked.clocked Asked.onlyEdited rfl (.inr ⟨rfl, rfl⟩)
  exact ⟨Asked.clocked, Asked.onlyEdited, rfl, rfl, rfl, first, by decide, mayEdit 300 (by decide), location, parsed, waits⟩

end Live
end ProxyMonitor
