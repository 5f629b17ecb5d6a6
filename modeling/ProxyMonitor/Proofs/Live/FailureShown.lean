import ProxyMonitor.Proofs.Live.Causes

/-! The failure that a view shows: the last one that nothing took back, which is also the one that halted its polling
if one did. -/
namespace ProxyMonitor
open ProxyMonitor.Poll

namespace Poll.Scheduler
variable {s : Scheduler} {now : Nat} {tag : Tag} {current : String}

theorem response_failed_entries (h : s.inFlight = some tag) (ht : s.tornDown = false) (hp : s.paused = false)
    (hc : tag.filter = current) (message : String) :
    (s.response now tag current (some message)).entries =
      if s.queued = true ∨ s.timer.kind? = some .debounce then
        [⟨.debug, logTarget, "failure with a poll pending; not halting", [("queued", toString s.queued)]⟩]
      else [] := by
  by_cases hq : s.queued = true ∨ s.timer.kind? = some .debounce <;>
    simp [response, settle, h, ht, hp, hc, hq]

/-- Since the request went out, a poll was asked for. -/
def asked (s : Scheduler) : Bool :=
  s.queued || s.timer.kind? == some .debounce

theorem asked_iff : s.asked = true ↔ s.queued = true ∨ s.timer.kind? = some .debounce := by
  simp [asked]

end Poll.Scheduler

namespace Live
variable {α : Type}

namespace View
variable {v : View α} {now : Nat} {e : Event α} {tag : Tag} {failure : Failure}

/-- The failure of the event that counts. -/
def failed? (v : View α) : Event α → Option Failure
  | .response tag (.error failure) => if v.counts tag then some failure else none
  | _ => none

theorem failed?_eq_some : v.failed? e = some failure ↔
    ∃ tag, e = .response tag (.error failure) ∧ v.counts tag = true := by
  constructor
  · intro h
    unfold failed? at h
    split at h
    · split at h
      · cases h
        exact ⟨_, rfl, by assumption⟩
      · cases h
    · cases h
  · rintro ⟨tag, rfl, counts⟩
    exact if_pos counts

/-- The event takes back the failure that is shown: a poll is asked for, a pause ends, or a result counts. -/
def clears (v : View α) (e : Event α) : Bool :=
  v.accepts e || v.wakes e || (v.result? e).isSome

theorem poll_errors (alive : v.scheduler.tornDown = false) (now : Nat) :
    (v.poll now).errors = if v.scheduler.paused then v.errors else v.errors.clear := by
  have deaf : v.scheduler.isDeaf = v.scheduler.paused := by simp [Scheduler.isDeaf, alive]
  rw [poll, deaf]
  split <;> rfl

theorem setFilter_errors (alive : v.scheduler.tornDown = false) (now : Nat) (value : String) :
    (v.setFilter now value).value.errors =
      if !v.scheduler.paused && v.filter != value then v.errors.clear else v.errors := by
  rw [setFilter_value]
  split
  · rename_i same
    simp [same]
  · rename_i changed
    rw [poll_errors (v := { v with location := v.location.setFilter value }) alive]
    cases v.scheduler.paused <;> simp [changed]

theorem resume_errors (v : View α) :
    v.resume.value.2.errors = if v.scheduler.paused then v.errors.clear else v.errors := by
  cases hp : v.scheduler.paused with
  | true => rw [resume_paused hp]; rfl
  | false => rw [resume_awake hp]; rfl

/-- What an event leaves of the failure that is shown. -/
theorem react_errors (alive : v.scheduler.tornDown = false) (expected : v.Expects e) (opened : e ≠ .opening)
    (now : Nat) : (v.react now e).value.2.errors =
      match v.failed? e with
      | some failure => v.errors.raise failure
      | none => if v.clears e then v.errors.clear else v.errors := by
  cases e with
  | opening => exact absurd rfl opened
  | timer kind => rfl
  | command c =>
    cases c with
    | setFilter value =>
      refine (setFilter_errors alive now value).trans ?_
      simp [failed?, clears, accepts, wakes, result?]
    | refresh =>
      refine (poll_errors alive now).trans ?_
      cases hp : v.scheduler.paused <;> simp [failed?, clears, accepts, wakes, result?, hp]
    | pause => rfl
    | resume =>
      refine (resume_errors v).trans ?_
      simp [failed?, clears, accepts, wakes, result?]
    | togglePause =>
      rw [react, command]
      cases hp : v.scheduler.paused with
      | true =>
        refine (resume_errors v).trans ?_
        simp [failed?, clears, accepts, wakes, result?, hp]
      | false => simp [failed?, clears, accepts, wakes, result?, hp, pause]
  | response tag outcome =>
    have out : v.scheduler.inFlight = some tag := expected (tag, outcome) rfl
    rw [react]
    cases hc : v.counts tag with
    | false =>
      rw [response_ignored hc]
      cases outcome <;> simp [failed?, clears, accepts, wakes, result?, hc]
    | true =>
      cases outcome with
      | ok answer =>
        rw [response_result out hc]
        simp [failed?, clears, result?, hc]
      | error failure =>
        rw [response_failure out hc]
        simp [failed?, hc]

/-- A view whose polling was halted shows the failure that halted it. -/
def ShowsHalt (v : View α) : Prop :=
  ∀ message, v.scheduler.state = .failed message → v.failure = some message

theorem handle_showsHalt (h : v.Settled) (expected : v.Expects e) (shown : v.ShowsHalt) (now : Nat) :
    (v.handle now e).value.2.ShowsHalt := by
  intro message failed
  have rest : (v.handle now e).value.2.scheduler.Resting := .inr ⟨message, failed⟩
  cases go : (v.react now e).value.1 with
  | true => exact absurd rest (not_resting_of_goes go)
  | false =>
    rw [handle_waits go] at failed rest ⊢
    cases he : e.answer? with
    | none =>
      obtain ⟨scheduler, errors, _⟩ := react_resting h he go rest
      rw [scheduler] at failed
      rw [failure, errors]
      exact shown message failed
    | some answer =>
      cases e with
      | opening | command | timer => cases he
      | response tag outcome =>
        have out : v.scheduler.inFlight = some tag := expected (tag, outcome) rfl
        rw [react, response_scheduler] at failed rest
        obtain ⟨awake, fresh, cause⟩ := Scheduler.response_resting h out rest
        have counts : v.counts tag = true := counts_iff.mpr ⟨Scheduler.Settled.alive h, awake, fresh⟩
        rcases cause with ⟨_, state⟩ | ⟨message', problem, state, _⟩
        · cases state.symm.trans failed
        · cases state.symm.trans failed
          cases outcome with
          | ok answer => cases problem
          | error failure =>
            cases problem
            rw [react, response_failure out counts]
            rfl

/-- What is written about a request that failed. -/
def fetchFailed (v : View α) (tag : Tag) (failure : Failure) (halted : Bool) : Log.Entry :=
  ⟨.warn, logTarget, "fetch failed", [("endpoint", v.endpoint), ("filter", tag.filter),
    ("error", failure.message), ("halted", toString halted)]⟩

theorem handle_entries (v : View α) (now : Nat) (e : Event α) :
    (v.handle now e).entries = (v.react now e).entries := by
  simp only [handle, Logged.entries_bind]
  split <;> exact List.append_nil _

/-- A failure that counts is written down once, and halts polling unless a poll was asked for meanwhile. -/
theorem response_fetchFailed (out : v.scheduler.inFlight = some tag) (h : v.counts tag = true) :
    (v.response now tag (.error failure)).entries.filter (·.message == "fetch failed") =
      [v.fetchFailed tag failure !v.scheduler.asked] := by
  obtain ⟨alive, awake, hc⟩ := counts_iff.mp h
  have value : (v.scheduler.response now tag v.filter (some failure.message)).value = _ :=
    Scheduler.response_failed out alive awake hc failure.message
  have entries : (v.scheduler.response now tag v.filter (some failure.message)).entries = _ :=
    Scheduler.response_failed_entries out alive awake hc failure.message
  by_cases asked : v.scheduler.queued = true ∨ v.scheduler.timer.kind? = some .debounce
  · have pending : (!v.scheduler.timer.isArmed && !v.scheduler.queued) = false := by
      rcases asked with queued | quiet
      · simp [queued]
      · simp [Timer.isArmed_of_kind? quiet]
    rw [if_pos asked] at value entries
    rw [Scheduler.asked_iff.mpr asked]
    simp [response, problem?, value, entries, fetchFailed, Scheduler.hasPendingPoll, pending]
  · have unqueued : v.scheduler.queued = false := by simpa using mt Or.inl asked
    rw [if_neg asked] at value entries
    rw [Bool.eq_false_iff.mpr (mt Scheduler.asked_iff.mp asked)]
    simp [response, problem?, value, entries, fetchFailed, Scheduler.hasPendingPoll, unqueued]

theorem handle_failed (out : v.scheduler.inFlight = some tag) (h : v.counts tag = true) :
    (∃ message, (v.handle now (.response tag (.error failure))).value.2.scheduler.state = .failed message) ↔
      v.scheduler.asked = false := by
  obtain ⟨alive, awake, hc⟩ := counts_iff.mp h
  have scheduler : (v.react now (.response tag (.error failure))).value.2.scheduler = _ :=
    (response_scheduler v now tag _).trans
      (congrArg (·.2.2) (Scheduler.response_failed out alive awake hc failure.message))
  have goes : (v.react now (.response tag (.error failure))).value.1 = v.scheduler.queued :=
    congrArg Prod.fst (response_failure out h failure)
  cases go : v.scheduler.queued with
  | true =>
    have running := not_resting_of_goes (goes.trans go)
    refine iff_of_false (fun failed => running (.inr failed)) ?_
    simp [Scheduler.asked, go]
  | false =>
    rw [handle_waits (goes.trans go), scheduler]
    by_cases quiet : v.scheduler.timer.kind? = some .debounce <;> simp [Scheduler.asked, go, quiet]

end View

variable {past : List (Moment α)} {s : Session α} {now : Nat} {failure : Failure}

namespace Moment

/-- The failure that counts. -/
def failed? (m : Moment α) : Option Failure :=
  match m.move with
  | .event e => m.before.view.failed? e
  | _ => none

/-- The entries that are written in the move. -/
def entries (m : Moment α) : List Log.Entry :=
  (m.before.make m.now m.move).entries

theorem failed?_eq_some {m : Moment α} : m.failed? = some failure ↔
    ∃ tag, m.move = .event (.response tag (.error failure)) ∧ m.before.view.counts tag = true := by
  unfold failed?
  split
  · rename_i e he
    simp only [he, View.failed?_eq_some, Move.event.injEq]
  · rename_i hm
    refine iff_of_false (by rintro ⟨⟩) ?_
    rintro ⟨tag, hmove, _⟩
    exact hm _ hmove

end Moment

theorem Session.react_entries (s : Session α) (now : Nat) (e : Event α) :
    (s.react now e).entries = (s.view.handle now e).entries := by
  simp only [Session.react, Logged.entries_bind]
  split <;> exact List.append_nil _

/-- The failure is that of the last request that failed, and nothing took it back since. -/
def Uncleared (past : List (Moment α)) (failure : Failure) : Prop :=
  ∃ earlier m later, past = earlier ++ m :: later ∧ m.failed? = some failure ∧
    ∀ x ∈ later, x.failed? = none ∧ x.meets View.clears = false

theorem not_uncleared_nil : ¬ Uncleared ([] : List (Moment α)) failure := by
  rintro ⟨earlier, m, later, hpast, _⟩
  simp at hpast

theorem uncleared_concat {m : Moment α} : Uncleared (past ++ [m]) failure ↔
    m.failed? = some failure ∨ m.failed? = none ∧ m.meets View.clears = false ∧ Uncleared past failure := by
  constructor
  · rintro ⟨earlier, x, later, hpast, failed, since⟩
    rcases split_concat hpast with ⟨rfl, rfl, rfl⟩ | ⟨later, rfl, rfl⟩
    · exact .inl failed
    · obtain ⟨unfailed, uncleared⟩ := since m (List.mem_append_right _ (List.mem_singleton_self _))
      exact .inr ⟨unfailed, uncleared, earlier, x, later, rfl, failed,
        fun z hz => since z (List.mem_append_left _ hz)⟩
  · rintro (failed | ⟨unfailed, uncleared, earlier, x, later, rfl, failed, since⟩)
    · exact ⟨past, m, [], rfl, failed, by simp⟩
    · refine ⟨earlier, x, later ++ [m], by simp, failed, fun z hz => ?_⟩
      rcases List.mem_append.mp hz with hz | hz
      · exact since z hz
      · rw [List.mem_singleton.mp hz]
        exact ⟨unfailed, uncleared⟩

/-- What a move leaves of the failure that is shown. -/
theorem Ordered.after_errors (ordered : Ordered past s) (settled : s.phase = .running → s.view.Settled) {m : Move α}
    (allowed : s.Allows m) (opened : m ≠ .event .opening) (now : Nat) :
    (s.make now m).value.view.errors =
      match (Moment.mk s now m).failed? with
      | some failure => ⟨some failure⟩
      | none => if (Moment.mk s now m).meets View.clears then ⟨none⟩ else s.view.errors := by
  cases m with
  | handOver | crash | leave => rfl
  | event e =>
    have alive := Scheduler.Settled.alive (settled (Session.running_of_allows allowed opened))
    rw [Session.make, Session.react_view, View.handle_scheduler_only]
    exact View.react_errors alive (ordered.expects allowed) (by simpa using opened) now

section Mounted
variable {endpoint : String} {location : Location} {schedule : Schedule} {service : Service α}

theorem Run.last_eq_some (run : Run (Session.mount endpoint location schedule service).value past s) :
    s.view.errors.last = some failure ↔ Uncleared past failure := by
  induction run with
  | start => exact iff_of_false (by rintro ⟨⟩) not_uncleared_nil
  | ask _ asked ih =>
    obtain ⟨_, _, _, rfl⟩ := asked.eq_with
    exact ih
  | @make past s now m run allowed ih =>
    rw [uncleared_concat]
    by_cases opened : m = .event .opening
    · -- Nothing has failed yet.
      subst opened
      rw [run.past_mounting allowed, Session.make, Session.react_view, run.mounting allowed]
      refine iff_of_false (by rintro ⟨⟩) ?_
      rintro (failed | ⟨_, _, uncleared⟩)
      · cases failed
      · exact not_uncleared_nil uncleared
    · rw [run.ordered.after_errors run.settled allowed opened now]
      cases failed : (Moment.mk s now m).failed? with
      | some failure' => simp
      | none =>
        cases cleared : (Moment.mk s now m).meets View.clears with
        | true => simp
        | false => simpa using ih

theorem Run.showsHalt (run : Run (Session.mount endpoint location schedule service).value past s) :
    s.view.ShowsHalt := by
  induction run with
  | start => rintro message ⟨⟩
  | ask _ asked ih =>
    obtain ⟨_, _, _, rfl⟩ := asked.eq_with
    exact ih
  | @make past s now m run allowed ih =>
    cases m with
    | event e =>
      rw [Session.make, Session.react_view]
      by_cases opened : e = .opening
      · subst opened
        rw [run.mounting allowed]
        intro message failed
        exact absurd (.inr ⟨message, failed⟩) (Scheduler.first_not_resting schedule now)
      · have running : s.phase = .running := Session.running_of_allows allowed (by simpa using opened)
        exact View.handle_showsHalt (run.settled running) (run.ordered.expects allowed) ih now
    | handOver | crash => exact ih
    | leave => rintro message ⟨⟩

/-- The failure that is shown is, to the letter, that of the last request that failed while the view was not paused
and had the filter of the request; it is shown until a poll is asked for, a pause ends, or a result counts. A view
whose polling is halted shows the failure that halted it, and what is written about a failure that counts says
whether it halts polling. -/
theorem failure_shown_last (run : Run (Session.mount endpoint location schedule service).value past s) :
    (∀ message, s.shown.failure = some message ↔
      ∃ failure, Uncleared past failure ∧ failure.message = message) ∧
    (∀ message, s.shown.scheduler.state = .failed message → s.shown.failure = some message) ∧
    (∀ m ∈ past, ∀ failure, m.failed? = some failure → ∃ tag, ∃ halted : Bool,
      m.move = .event (.response tag (.error failure)) ∧
      m.before.view.scheduler.paused = false ∧ tag.filter = m.before.view.filter ∧
      m.entries.filter (·.message == "fetch failed") = [m.before.view.fetchFailed tag failure halted] ∧
      (halted = true ↔ ∃ message, m.after.view.scheduler.state = .failed message)) := by
  rw [run.shown_eq]
  refine ⟨fun message => ?_, run.showsHalt, fun m hm failure failed => ?_⟩
  · simp only [View.failure, ErrorChannel.message, Option.map_eq_some_iff, run.last_eq_some]
  · obtain ⟨tag, hmove, counts⟩ := Moment.failed?_eq_some.mp failed
    obtain ⟨earlier, before, allowed, _⟩ := run.moment hm
    obtain ⟨s, now, move⟩ := m
    subst hmove
    obtain ⟨_, awake, fresh⟩ := View.counts_iff.mp counts
    have out : s.view.scheduler.inFlight = some tag := before.ordered.awaited allowed
    refine ⟨tag, !s.view.scheduler.asked, rfl, awake, fresh, ?_, ?_⟩
    · rw [Moment.entries, Session.make, Session.react_entries, View.handle_entries]
      exact View.response_fetchFailed out counts
    · rw [Bool.not_eq_true', Moment.after, Session.make, Session.react_view]
      exact (View.handle_failed out counts).symm

end Mounted

/-- A refusal stays shown through a pause and the refresh that is not heard in it. -/
theorem failure_shown_last_paused :
    Run Failing.start ((Failing.start.play Failing.refused).1 ++ (Failing.paused.play Failing.unheard).1)
      (Failing.paused.play Failing.unheard).2 ∧
    (Failing.paused.play Failing.unheard).2.shown.scheduler.state = .paused ∧
    (∃ failure, Uncleared ((Failing.start.play Failing.refused).1 ++ (Failing.paused.play Failing.unheard).1)
      failure ∧ failure.message = "no") ∧
    Failing.halted.shown.scheduler.state = .failed "no" ∧ Failing.halted.shown.failure = some "no" := by
  have run := Failing.run.trans Failing.run_paused
  obtain ⟨shown, _, _⟩ := failure_shown_last run
  obtain ⟨_, halted, _⟩ := failure_shown_last Failing.run
  exact ⟨run, rfl, (shown "no").mp rfl, rfl, halted "no" rfl⟩

end Live
end ProxyMonitor
