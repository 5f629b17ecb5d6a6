import ProxyMonitor.Proofs.Live.Results
import ProxyMonitor.Proofs.Poll.Rest

/-! No edit of the filter is lost: behind a request that it outdates a poll follows, and a view rests only on an
answer for the filter that it has. -/
namespace ProxyMonitor.Live
open ProxyMonitor.Poll
variable {α : Type}

namespace View
variable {v : View α} {now : Nat} {e : Event α} {tag : Tag} {outcome : Except Failure (Answer α)}

theorem handle_isSome (v : View α) (now : Nat) (e : Event α) :
    (v.handle now e).value.1.isSome = (v.react now e).value.1 := by
  cases hgo : (v.react now e).value.1 with
  | true => rw [handle_goes hgo]; rfl
  | false => rw [handle_waits hgo]; rfl

theorem not_resting_of_goes (go : (v.react now e).value.1 = true) :
    ¬ (v.handle now e).value.2.scheduler.Resting := by
  rw [handle_goes go]
  exact Scheduler.beginFetch_not_resting (react_ready go) _

/-- But for a response, no event lets a view come to rest. -/
theorem react_resting (h : v.Settled) : e.answer? = none → (v.react now e).value.1 = false →
    (v.react now e).value.2.scheduler.Resting →
    (v.react now e).value.2.scheduler = v.scheduler ∧ (v.react now e).value.2.errors = v.errors ∧
      (v.react now e).value.2.filter = v.filter := by
  refine react_cases (motive := fun r => e.answer? = none → r.1 = false → r.2.scheduler.Resting →
    r.2.scheduler = v.scheduler ∧ r.2.errors = v.errors ∧ r.2.filter = v.filter) v now e
    ?poll ?edit ?pause ?resume ?timer ?response
  case poll =>
    intro _ _ _ rest
    rw [poll_scheduler] at rest
    exact absurd rest (Scheduler.requestPoll_not_resting h now)
  case edit =>
    intro value _ _ _ rest
    rw [setFilter_value] at rest ⊢
    split
    · rename_i same
      exact ⟨rfl, rfl, by rw [filter, Location.filter_setFilter, same]⟩
    · rename_i changed
      rw [if_neg changed, poll_scheduler] at rest
      exact absurd rest (Scheduler.requestPoll_not_resting h now)
  case pause =>
    intro _ _ _ rest
    exact absurd rest (Scheduler.pause_not_resting (Scheduler.Settled.alive h))
  case resume =>
    intro _ _ _ rest
    cases hp : v.scheduler.paused with
    | true =>
      rw [resume_scheduler] at rest
      exact absurd rest (Scheduler.resume_not_resting h hp)
    | false =>
      rw [resume_awake hp]
      exact ⟨rfl, rfl, rfl⟩
  case timer =>
    intro kind _ _ wait rest
    exact absurd rest (Scheduler.timerFired_not_resting h kind wait)
  case response =>
    rintro tag outcome rfl unanswered
    cases unanswered

/-- What a view rests on: an answer for the filter that it has, which either is the last result shown, without a
failure, or the failure that halted it. -/
def Explained (v : View α) (last : Tag × Except Failure (Answer α)) (result? : Option (Tag × Answer α)) : Prop :=
  last.1.filter = v.filter ∧
    ((∃ answer, last.2 = .ok answer ∧ result? = some (last.1, answer) ∧
        v.scheduler.state = .scheduled ∧ v.failure = none) ∨
      ∃ failure, last.2 = .error failure ∧ v.scheduler.state = .failed failure.message ∧
        v.scheduler.timer = .off)

theorem response_explained (h : v.Settled) (out : v.scheduler.inFlight = some tag)
    (rest : (v.response now tag outcome).value.2.scheduler.Resting) :
    (v.response now tag outcome).value.2.Explained (tag, outcome) (v.result? (.response tag outcome)) := by
  rw [response_scheduler] at rest
  obtain ⟨awake, fresh, cause⟩ := Scheduler.response_resting h out rest
  have counts : v.counts tag = true := counts_iff.mpr ⟨Scheduler.Settled.alive h, awake, fresh⟩
  refine ⟨by rw [response_filter]; exact fresh, ?_⟩
  cases outcome with
  | ok answer =>
    rcases cause with ⟨_, state⟩ | ⟨message, hm, _⟩
    · refine .inl ⟨answer, rfl, result?_eq_some.mpr ⟨rfl, counts⟩, by rw [response_scheduler]; exact state, ?_⟩
      rw [response_result out counts]
      rfl
    · cases hm
  | error failure =>
    rcases cause with ⟨hn, _⟩ | ⟨message, hm, state, timer⟩
    · cases hn
    · cases hm
      exact .inr ⟨failure, rfl, by rw [response_scheduler]; exact state, by rw [response_scheduler]; exact timer⟩

/-- Two views that rest in the same way rest on the same answer. -/
theorem Explained.congr {w : View α} {last : Tag × Except Failure (Answer α)}
    {result? : Option (Tag × Answer α)} (h : v.Explained last result?) (scheduler : w.scheduler = v.scheduler)
    (errors : w.errors = v.errors) (filter : w.filter = v.filter) : w.Explained last result? := by
  unfold Explained failure at h ⊢
  rwa [scheduler, errors, filter]

theorem Explained.imp {last : Tag × Except Failure (Answer α)} {result? later? : Option (Tag × Answer α)}
    (h : v.Explained last result?) (later : ∀ result, result? = some result → later? = some result) :
    v.Explained last later? := by
  obtain ⟨fresh, cause⟩ := h
  rcases cause with ⟨answer, hok, hr, state, shown⟩ | failed
  · exact ⟨fresh, .inl ⟨answer, hok, later _ hr, state, shown⟩⟩
  · exact ⟨fresh, .inr failed⟩

end View

variable {past : List (Moment α)} {s : Session α}

/-- The last answer is what a session rests on. -/
def Rests (past : List (Moment α)) (s : Session α) : Prop :=
  ∃ last, (answers past).getLast? = some last ∧ s.view.Explained last (results past).getLast?

theorem rests_response {tag : Tag} {outcome : Except Failure (Answer α)} (h : s.view.Settled)
    (out : s.view.scheduler.inFlight = some tag) (now : Nat)
    (rest : (s.react now (.response tag outcome)).value.view.scheduler.Resting) :
    Rests (past ++ [⟨s, now, .event (.response tag outcome)⟩]) (s.react now (.response tag outcome)).value := by
  rw [Session.react_view] at rest
  refine ⟨(tag, outcome), by simp [Moment.answer?, Event.answer?], ?_⟩
  cases go : (s.view.react now (.response tag outcome)).value.1 with
  | true => exact absurd rest (View.not_resting_of_goes go)
  | false =>
    rw [View.handle_waits go] at rest
    rw [Session.react_view, View.handle_waits go]
    refine (View.response_explained h out rest).imp fun result hr => ?_
    have hm : (Moment.mk s now (.event (.response tag outcome))).result? = some result := hr
    simp [hm]

theorem Rests.unanswered (rests : s.view.scheduler.Resting → Rests past s) {e : Event α} (h : s.view.Settled)
    (he : e.answer? = none) (now : Nat) (rest : (s.react now e).value.view.scheduler.Resting) :
    Rests (past ++ [⟨s, now, .event e⟩]) (s.react now e).value := by
  have hanswers : answers (past ++ [⟨s, now, .event e⟩]) = answers past := by simp [Moment.answer?, he]
  have hresults : results (past ++ [⟨s, now, .event e⟩]) = results past := by
    simp [Moment.result?, View.result?_of_unanswered he]
  unfold Rests
  rw [Session.react_view] at rest ⊢
  cases go : (s.view.react now e).value.1 with
  | true => exact absurd rest (View.not_resting_of_goes go)
  | false =>
    rw [View.handle_waits go] at rest ⊢
    obtain ⟨scheduler, errors, filter⟩ := View.react_resting h he go rest
    rw [scheduler] at rest
    obtain ⟨last, hlast, explained⟩ := rests rest
    rw [hanswers, hresults]
    exact ⟨last, hlast, explained.congr scheduler errors filter⟩

section Mounted
variable {endpoint : String} {location : Location} {schedule : Schedule} {service : Service α}

theorem Run.rests (run : Run (Session.mount endpoint location schedule service).value past s)
    (running : s.phase = .running) (rest : s.view.scheduler.Resting) : Rests past s := by
  induction run with
  | start => cases running
  | ask _ asked ih =>
    obtain ⟨_, _, _, rfl⟩ := asked.eq_with
    exact ih running rest
  | @make past s now m run allowed ih =>
    cases m with
    | event e =>
      cases e with
      | opening =>
        rw [Session.make, Session.react_view, run.mounting allowed] at rest
        exact absurd rest (Scheduler.first_not_resting schedule now)
      | command | timer =>
        exact Rests.unanswered (ih allowed.1) (run.settled allowed.1) rfl now rest
      | response tag outcome =>
        exact rests_response (run.settled allowed.1) (run.ordered.awaited allowed) now rest
    | handOver request =>
      have hresults : results (past ++ [⟨s, now, .handOver request⟩]) = results past := by
        simp [Moment.result?]
      obtain ⟨last, hlast, explained⟩ := ih allowed.1 rest
      refine ⟨last, by simpa [Moment.answer?] using hlast, ?_⟩
      rw [hresults]
      exact explained
    | crash | leave => cases running

/-- While a view that is not paused has a request out for another filter than its own, a poll is queued or its
quiet time runs, so that it is the queue alone that lets the next request go out after that answer. The next
poll is timed only after a result for the filter of the view, which is the last one shown, and without a
failure; and a failure that halted polling is that of a request for the filter of the view. -/
theorem no_edit_lost (run : Run (Session.mount endpoint location schedule service).value past s)
    (running : s.phase = .running) :
    (s.view.scheduler.paused = false → ∀ tag, s.slot.tag? = some tag → tag.filter ≠ s.view.filter →
      s.view.scheduler.queued = true ∨ s.view.scheduler.timer.kind? = some .debounce) ∧
    (∀ m ∈ past, ∀ tag outcome, m.move = .event (.response tag outcome) →
      m.before.view.scheduler.paused = false → tag.filter ≠ m.before.view.filter →
      (m.request?.isSome ↔ m.before.view.scheduler.queued = true)) ∧
    (s.view.scheduler.timer.kind? = some .cadence →
      0 < s.shown.sink.applied ∧ s.shown.failure = none ∧
      ∃ r ∈ requests past, ∃ answer, (results past).getLast? = some (r.tag, answer) ∧
        r.tag.filter = s.view.filter) ∧
    (∀ message, s.view.scheduler.state = .failed message →
      ∃ r ∈ requests past, ∃ failure, (answers past).getLast? = some (r.tag, .error failure) ∧
        failure.message = message ∧ r.tag.filter = s.view.filter) := by
  have settled : s.view.scheduler.Settled s.view.filter := run.settled running
  have asked : ∀ last, (answers past).getLast? = some last → ∃ r ∈ requests past, r.tag = last.1 :=
    fun _ hlast => run.ordered.asked (List.mem_map_of_mem (List.mem_of_getLast? hlast))
  refine ⟨?follows, ?stale, ?cadence, ?failed⟩
  case follows =>
    intro awake tag htag changed
    rw [run.ordered.slot (by simp [running])] at htag
    exact settled.follows awake htag changed
  case stale =>
    intro m hm tag outcome hmove awake changed
    obtain ⟨earlier, before, allowed, _⟩ := run.moment hm
    rw [hmove] at allowed
    have out := before.ordered.awaited allowed
    have settled : m.before.view.scheduler.Settled m.before.view.filter := before.settled allowed.1
    rw [Moment.request?, hmove]
    dsimp only
    rw [View.handle_isSome, View.react, View.response_go, settled.stale_goes awake out changed]
  case cadence =>
    intro cadence
    obtain ⟨⟨tag, outcome⟩, hlast, fresh, cause⟩ := run.rests running (.inl cadence)
    rcases cause with ⟨answer, rfl, hr, _, unfailed⟩ | ⟨_, _, _, timer⟩
    · obtain ⟨r, hmem, rfl⟩ := asked _ hlast
      have applied : 0 < s.view.sink.applied := by
        rw [run.applied_eq]
        exact List.length_pos_of_mem (List.mem_of_getLast? hr)
      rw [run.shown_eq]
      exact ⟨applied, unfailed, r, hmem, answer, hr, fresh⟩
    · rw [timer] at cadence
      cases cadence
  case failed =>
    intro message failed
    obtain ⟨⟨tag, outcome⟩, hlast, fresh, cause⟩ := run.rests running (.inr ⟨message, failed⟩)
    rcases cause with ⟨_, _, _, state, _⟩ | ⟨failure, rfl, state, _⟩
    · rw [state] at failed
      cases failed
    · obtain ⟨r, hmem, rfl⟩ := asked _ hlast
      exact ⟨r, hmem, failure, hlast, PollState.failed.inj (state.symm.trans failed), fresh⟩

/-- The edit overtook the first request; the view rests on the answer to the second. -/
theorem no_edit_lost_edited : Run Edited.start Edited.past Edited.last ∧ Edited.last.phase = .running ∧
    Edited.last.view.scheduler.timer.kind? = some .cadence ∧ 0 < Edited.last.shown.sink.applied ∧
    ∃ r ∈ requests Edited.past, ∃ answer, (results Edited.past).getLast? = some (r.tag, answer) ∧
      r.tag.filter = "a" := by
  have cadence : Edited.last.view.scheduler.timer.kind? = some .cadence := rfl
  obtain ⟨_, _, timed, _⟩ := no_edit_lost Edited.run rfl
  obtain ⟨applied, _, last⟩ := timed cadence
  exact ⟨Edited.run, rfl, cadence, applied, last⟩

end Mounted
end ProxyMonitor.Live
