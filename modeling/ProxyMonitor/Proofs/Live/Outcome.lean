import ProxyMonitor.Proofs.Live.Reaction

/-! What an event leaves of the results, of the failure and of the location that a view shows. -/
namespace ProxyMonitor.Live.View
open ProxyMonitor.Poll
variable {α : Type} {v : View α} {now : Nat} {tag : Tag} {e : Event α}
  {outcome : Except Failure (Answer α)}

theorem response_result (out : v.scheduler.inFlight = some tag) (h : v.counts tag = true) (answer : Answer α) :
    (v.response now tag (.ok answer)).value = (v.scheduler.queued,
      { v with
        scheduler := (v.scheduler.response now tag v.filter none).value.2.2
        errors := v.errors.clear
        sink := v.sink.accept answer }) := by
  obtain ⟨alive, awake, hc⟩ := counts_iff.mp h
  have hs : (v.scheduler.response now tag v.filter none).value = _ :=
    Scheduler.response_ok out alive awake hc
  simp [response, problem?, hs]

theorem response_failure (out : v.scheduler.inFlight = some tag) (h : v.counts tag = true) (failure : Failure) :
    (v.response now tag (.error failure)).value = (v.scheduler.queued,
      { v with
        scheduler := (v.scheduler.response now tag v.filter (some failure.message)).value.2.2
        errors := v.errors.raise failure }) := by
  obtain ⟨alive, awake, hc⟩ := counts_iff.mp h
  have hs : (v.scheduler.response now tag v.filter (some failure.message)).value = _ :=
    Scheduler.response_failed out alive awake hc failure.message
  simp [response, problem?, hs]

/-- What does not count changes nothing but the scheduler. -/
theorem response_ignored (h : v.counts tag = false) :
    (v.response now tag outcome).value.2 =
      { v with scheduler := (v.scheduler.response now tag v.filter (problem? outcome)).value.2.2 } := by
  have unwanted : v.scheduler.isDeaf = true ∨ tag.filter ≠ v.filter := by
    by_contra wanted
    simp only [not_or, ne_eq, not_not, Bool.not_eq_true] at wanted
    simp [counts, wanted] at h
  obtain ⟨happly, hfail⟩ : (v.scheduler.response now tag v.filter (problem? outcome)).value.1 ≠ .apply ∧
      (v.scheduler.response now tag v.filter (problem? outcome)).value.1 ≠ .fail :=
    Scheduler.response_discarded unwanted
  simp only [response, Logged.value_bind]
  split
  · contradiction
  · contradiction
  · rfl

@[simp] theorem setFilter_sink (v : View α) (now : Nat) (value : String) :
    (v.setFilter now value).value.sink = v.sink := by
  rw [setFilter_value]
  split
  · rfl
  · rw [poll_sink]

@[simp] theorem setFilter_location (v : View α) (now : Nat) (value : String) :
    (v.setFilter now value).value.location = v.location.setFilter value := by
  rw [setFilter_value]
  split
  · rfl
  · rw [poll_location]

@[simp] theorem resume_sink (v : View α) : v.resume.value.2.sink = v.sink := by
  cases hp : v.scheduler.paused with
  | true => rw [resume_paused hp]
  | false => rw [resume_awake hp]

@[simp] theorem resume_location (v : View α) : v.resume.value.2.location = v.location := by
  cases hp : v.scheduler.paused with
  | true => rw [resume_paused hp]
  | false => rw [resume_awake hp]

/-- The request that goes out shows in the scheduler only. -/
theorem handle_scheduler_only (v : View α) (now : Nat) (e : Event α) :
    (v.handle now e).value.2 =
      { (v.react now e).value.2 with scheduler := (v.handle now e).value.2.scheduler } := by
  cases hgo : (v.react now e).value.1 with
  | true => rw [handle_goes hgo]; rfl
  | false => rw [handle_waits hgo]

/-- A response to the request that is out, should the event be one. -/
def Expects (v : View α) (e : Event α) : Prop :=
  ∀ answer, e.answer? = some answer → v.scheduler.inFlight = some answer.1

theorem react_sink : v.Expects e → (v.react now e).value.2.sink =
    (v.result? e).elim v.sink fun result => v.sink.accept result.2 := by
  refine react_cases (motive := fun r => v.Expects e → r.2.sink =
    (v.result? e).elim v.sink fun result => v.sink.accept result.2) v now e
    ?poll ?edit ?pause ?resume ?timer ?response
  case poll =>
    intro he _
    rw [result?_of_unanswered he, poll_sink]
    rfl
  case edit =>
    rintro value rfl _
    exact setFilter_sink v now value
  case pause =>
    intro he _
    rw [result?_of_unanswered he]
    rfl
  case resume =>
    intro he _
    rw [result?_of_unanswered he, resume_sink]
    rfl
  case timer =>
    rintro kind rfl _
    rfl
  case response =>
    rintro tag outcome rfl expected
    have out : v.scheduler.inFlight = some tag := expected (tag, outcome) rfl
    cases hc : v.counts tag with
    | false =>
      rw [response_ignored hc]
      cases outcome <;> simp [result?, hc]
    | true =>
      cases outcome with
      | ok answer => rw [response_result out hc, result?, if_pos hc]; rfl
      | error failure => rw [response_failure out hc]; rfl

/-- A result that counts replaces what is shown as a whole, and nothing else does. -/
theorem handle_sink (expected : v.Expects e) : (v.handle now e).value.2.sink =
    (v.result? e).elim v.sink fun result => v.sink.accept result.2 := by
  rw [handle_scheduler_only]
  exact react_sink expected

theorem handle_location (v : View α) (now : Nat) (e : Event α) :
    (v.handle now e).value.2.location = v.location ∨
      ∃ value, (v.handle now e).value.2.location = v.location.setFilter value := by
  rw [handle_scheduler_only]
  exact react_cases (motive := fun r => r.2.location = v.location ∨
      ∃ value, r.2.location = v.location.setFilter value) v now e
    (fun _ => .inl (poll_location v now)) (fun value _ => .inr ⟨value, setFilter_location v now value⟩)
    (fun _ => .inl rfl) (fun _ => .inl (resume_location v)) (fun _ _ => .inl rfl)
    (fun tag outcome _ => .inl (response_location v now tag outcome))

/-- A request is prepared for the location that it leaves. -/
theorem handle_request {r : Request} (h : (v.handle now e).value.1 = some r) :
    r.params = (v.handle now e).value.2.location.pairs ∧ r.tag.filter = (v.handle now e).value.2.filter := by
  obtain ⟨_, rfl, hv⟩ := handle_some h
  rw [hv]
  exact ⟨rfl, rfl⟩

end ProxyMonitor.Live.View
