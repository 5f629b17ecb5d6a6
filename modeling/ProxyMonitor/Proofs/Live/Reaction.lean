import ProxyMonitor.Live.View
import ProxyMonitor.Proofs.FilterPair
import ProxyMonitor.Proofs.Poll.Settled

/-! What a view does on each event, and that it is settled again after it. -/
namespace ProxyMonitor.Live
open ProxyMonitor.Poll

/-- The request that the event answers, and how. -/
def Event.answer? {α : Type} : Event α → Option (Tag × Except Failure (Answer α))
  | .response tag outcome => some (tag, outcome)
  | _ => none

namespace View
variable {α : Type} {v : View α} {now : Nat} {tag : Tag} {e : Event α}
  {outcome : Except Failure (Answer α)}

theorem poll_scheduler (v : View α) (now : Nat) : (v.poll now).scheduler = v.scheduler.requestPoll now := by
  unfold poll
  split
  · rename_i h
    exact (Scheduler.requestPoll_deaf h).symm
  · rfl

@[simp] theorem poll_location (v : View α) (now : Nat) : (v.poll now).location = v.location := by
  unfold poll; split <;> rfl

@[simp] theorem poll_sink (v : View α) (now : Nat) : (v.poll now).sink = v.sink := by
  unfold poll; split <;> rfl

theorem setFilter_value (v : View α) (now : Nat) (value : String) :
    (v.setFilter now value).value =
      if v.filter = value then { v with location := v.location.setFilter value }
      else { v with location := v.location.setFilter value }.poll now := by
  unfold setFilter Location.replaceFilter
  by_cases same : v.filter = value
  · have same' : v.location.filter = value := same
    simp [same, same']
  · have differs : v.location.filter ≠ value := same
    simp [same, differs]

theorem resume_paused (h : v.scheduler.paused = true) :
    v.resume.value = (v.scheduler.resume.1,
      { v with scheduler := v.scheduler.resume.2, errors := v.errors.clear }) := by
  simp only [resume, h]
  rfl

theorem resume_awake (h : v.scheduler.paused = false) : v.resume.value = (false, v) := by
  simp only [resume, h]
  rfl

theorem response_go (v : View α) (now : Nat) (tag : Tag) (outcome : Except Failure (Answer α)) :
    (v.response now tag outcome).value.1 =
      (v.scheduler.response now tag v.filter (problem? outcome)).value.2.1 := by
  simp only [response, Logged.value_bind]
  split <;> rfl

theorem response_scheduler (v : View α) (now : Nat) (tag : Tag) (outcome : Except Failure (Answer α)) :
    (v.response now tag outcome).value.2.scheduler =
      (v.scheduler.response now tag v.filter (problem? outcome)).value.2.2 := by
  simp only [response, Logged.value_bind]
  split <;> rfl

@[simp] theorem response_location (v : View α) (now : Nat) (tag : Tag)
    (outcome : Except Failure (Answer α)) : (v.response now tag outcome).value.2.location = v.location := by
  simp only [response, Logged.value_bind]
  split <;> rfl

@[simp] theorem response_filter (v : View α) (now : Nat) (tag : Tag)
    (outcome : Except Failure (Answer α)) : (v.response now tag outcome).value.2.filter = v.filter :=
  congrArg Location.filter (response_location v now tag outcome)

/-- A response counts for a view that is neither paused nor ended and still wants what the request asked
for. -/
def counts (v : View α) (tag : Tag) : Bool :=
  !v.scheduler.isDeaf && tag.filter == v.filter

theorem counts_iff : v.counts tag = true ↔
    v.scheduler.tornDown = false ∧ v.scheduler.paused = false ∧ tag.filter = v.filter := by
  simp [counts, Scheduler.isDeaf, and_assoc]

/-- The result of the event that counts, and its request. -/
def result? (v : View α) : Event α → Option (Tag × Answer α)
  | .response tag (.ok answer) => if v.counts tag then some (tag, answer) else none
  | _ => none

theorem result?_of_unanswered (h : e.answer? = none) : v.result? e = none := by
  cases e with
  | opening | command | timer => rfl
  | response => cases h

theorem result?_of_not_counts (h : v.counts tag = false) : v.result? (.response tag outcome) = none := by
  cases outcome with
  | error failure => rfl
  | ok answer => simp [result?, h]

theorem result?_eq_some {answer : Answer α} : v.result? e = some (tag, answer) ↔
    e = .response tag (.ok answer) ∧ v.counts tag = true := by
  cases e with
  | opening | command | timer => simp [result?]
  | response tag' outcome =>
    cases outcome with
    | error failure => simp [result?]
    | ok answer' =>
      rw [result?]
      constructor
      · intro h
        split at h
        · rename_i hc
          obtain ⟨rfl, rfl⟩ := Prod.mk.inj (Option.some.inj h)
          exact ⟨rfl, hc⟩
        · cases h
      · rintro ⟨he, hc⟩
        cases he
        rw [if_pos hc]

/-- There are six ways to react: opening is a poll like any other, and a toggle is a pause or its end. -/
theorem react_cases (v : View α) (now : Nat) (e : Event α) {motive : Bool × View α → Prop}
    (poll : e.answer? = none → motive (false, v.poll now))
    (edit : ∀ value, e = .command (.setFilter value) → motive (false, (v.setFilter now value).value))
    (pause : e.answer? = none → motive (false, v.pause.value))
    (resume : e.answer? = none → motive v.resume.value)
    (timer : ∀ kind, e = .timer kind → motive (v.timerFired kind).value)
    (response : ∀ tag outcome, e = .response tag outcome → motive (v.response now tag outcome).value) :
    motive (v.react now e).value := by
  cases e with
  | opening => exact poll rfl
  | timer kind => exact timer kind rfl
  | response tag outcome => exact response tag outcome rfl
  | command c =>
    cases c with
    | setFilter value => exact edit value rfl
    | refresh => exact poll rfl
    | pause => exact pause rfl
    | resume => exact resume rfl
    | togglePause =>
      rw [react, command]
      split
      · exact resume rfl
      · exact pause rfl

@[simp] theorem setFilter_inFlight (v : View α) (now : Nat) (value : String) :
    (v.setFilter now value).value.scheduler.inFlight = v.scheduler.inFlight := by
  rw [setFilter_value]
  split
  · rfl
  · simp [poll_scheduler]

@[simp] theorem setFilter_lastSeq (v : View α) (now : Nat) (value : String) :
    (v.setFilter now value).value.scheduler.lastSeq = v.scheduler.lastSeq := by
  rw [setFilter_value]
  split
  · rfl
  · simp [poll_scheduler]

@[simp] theorem resume_scheduler (v : View α) : v.resume.value.2.scheduler = v.scheduler.resume.2 := by
  cases hp : v.scheduler.paused with
  | true => rw [resume_paused hp]
  | false => rw [resume_awake hp, Scheduler.resume_awake hp]

/-- Before the next request goes out, only an answer changes which one is out. -/
theorem react_inFlight : e.answer? = none →
    (v.react now e).value.2.scheduler.inFlight = v.scheduler.inFlight := by
  refine react_cases (motive := fun r => e.answer? = none → r.2.scheduler.inFlight = v.scheduler.inFlight)
    v now e ?poll ?edit ?pause ?resume ?timer ?response
  case poll => simp [poll_scheduler]
  case edit => simp
  case pause => exact fun _ _ => Scheduler.pause_inFlight _
  case resume => simp
  case timer => exact fun kind _ _ => Scheduler.timerFired_inFlight _ kind
  case response =>
    rintro tag outcome rfl h
    cases h

theorem react_answered (out : v.scheduler.inFlight = some tag) :
    (v.react now (.response tag outcome)).value.2.scheduler.inFlight = none := by
  rw [react, response_scheduler]
  exact Scheduler.response_inFlight out

theorem react_lastSeq (v : View α) (now : Nat) (e : Event α) :
    (v.react now e).value.2.scheduler.lastSeq = v.scheduler.lastSeq := by
  refine react_cases (motive := fun r => r.2.scheduler.lastSeq = v.scheduler.lastSeq) v now e
    ?poll ?edit ?pause ?resume ?timer ?response
  case poll => simp [poll_scheduler]
  case edit => simp
  case pause => exact fun _ => Scheduler.pause_lastSeq _
  case resume => simp
  case timer => exact fun kind _ => Scheduler.timerFired_lastSeq _ kind
  case response => simp [response_scheduler]

theorem react_schedule (v : View α) (now : Nat) (e : Event α) :
    (v.react now e).value.2.scheduler.schedule = v.scheduler.schedule := by
  refine react_cases (motive := fun r => r.2.scheduler.schedule = v.scheduler.schedule) v now e
    ?poll ?edit ?pause ?resume ?timer ?response
  case poll => simp [poll_scheduler]
  case edit =>
    intro value _
    rw [setFilter_value]
    split <;> simp [poll_scheduler]
  case pause => exact fun _ => Scheduler.pause_schedule _
  case resume => simp
  case timer => exact fun kind _ => Scheduler.timerFired_schedule _ kind
  case response => simp [response_scheduler]

theorem handle_waits (wait : (v.react now e).value.1 = false) :
    (v.handle now e).value = (none, (v.react now e).value.2) := by
  simp only [handle, Logged.value_bind, wait]
  rfl

theorem handle_goes (go : (v.react now e).value.1 = true) :
    (v.handle now e).value =
      (some (v.react now e).value.2.fetch.1, (v.react now e).value.2.fetch.2) := by
  simp only [handle, Logged.value_bind, go]
  rfl

theorem handle_none (h : (v.handle now e).value.1 = none) :
    (v.react now e).value.1 = false ∧ (v.handle now e).value.2 = (v.react now e).value.2 := by
  cases hgo : (v.react now e).value.1 with
  | true => simp [handle_goes hgo] at h
  | false => exact ⟨rfl, by rw [handle_waits hgo]⟩

theorem handle_some {r : Request} (h : (v.handle now e).value.1 = some r) :
    (v.react now e).value.1 = true ∧ r = (v.react now e).value.2.fetch.1 ∧
      (v.handle now e).value.2 = (v.react now e).value.2.fetch.2 := by
  cases hgo : (v.react now e).value.1 with
  | true =>
    rw [handle_goes hgo] at h ⊢
    exact ⟨rfl, (Option.some.inj h).symm, rfl⟩
  | false => simp [handle_waits hgo] at h

theorem handle_schedule (v : View α) (now : Nat) (e : Event α) :
    (v.handle now e).value.2.scheduler.schedule = v.scheduler.schedule := by
  rw [← react_schedule v now e]
  cases hgo : (v.react now e).value.1 with
  | true => rw [handle_goes hgo]; rfl
  | false => rw [handle_waits hgo]

/-- A view between two events, with the filter it wants now. -/
def Settled (v : View α) : Prop :=
  v.scheduler.Settled v.filter

theorem settled_opening (endpoint : String) (location : Location) (schedule : Schedule) (now : Nat) :
    ((start endpoint location schedule : View α).poll now).Settled := by
  unfold Settled
  rw [poll_scheduler]
  exact Scheduler.settled_first schedule now _

theorem settled_poll {current : String} (h : v.scheduler.Settled current) (now : Nat) :
    (v.poll now).Settled := by
  unfold Settled
  rw [poll_scheduler]
  exact h.requestPoll now _

theorem settled_setFilter (h : v.Settled) (now : Nat) (value : String) :
    (v.setFilter now value).value.Settled := by
  rw [setFilter_value]
  split
  · rename_i hf
    have hw : ({ v with location := v.location.setFilter value } : View α).filter = v.filter := by
      rw [filter, Location.filter_setFilter, hf]
    unfold Settled
    rw [hw]
    exact h
  · exact settled_poll (v := { v with location := v.location.setFilter value }) h now

theorem settled_pause (h : v.Settled) : v.pause.value.Settled :=
  Scheduler.Settled.pause h _

theorem resume_ready (go : v.resume.value.1 = true) : v.resume.value.2.scheduler.Ready := by
  cases hp : v.scheduler.paused with
  | true =>
    rw [resume_paused hp] at go ⊢
    exact Scheduler.resume_ready go
  | false => simp [resume_awake hp] at go

theorem settled_resume (h : v.Settled) (wait : v.resume.value.1 = false) : v.resume.value.2.Settled := by
  cases hp : v.scheduler.paused with
  | true =>
    rw [resume_paused hp] at wait ⊢
    exact Scheduler.Settled.resume h wait
  | false =>
    rw [resume_awake hp]
    exact h

/-- A request goes out only where it may. -/
theorem react_ready : (v.react now e).value.1 = true → (v.react now e).value.2.scheduler.Ready := by
  refine react_cases (motive := fun r => r.1 = true → r.2.scheduler.Ready) v now e
    ?poll ?edit ?pause ?resume ?timer ?response
  case poll | edit | pause => intros; contradiction
  case resume => exact fun _ => resume_ready
  case timer => exact fun kind _ => Scheduler.timerFired_ready
  case response =>
    intro tag outcome _ go
    rw [response_go] at go
    rw [response_scheduler]
    exact Scheduler.response_ready go

theorem react_settled (h : v.Settled) :
    (v.react now e).value.1 = false → (v.react now e).value.2.Settled := by
  refine react_cases (motive := fun r => r.1 = false → r.2.Settled) v now e
    ?poll ?edit ?pause ?resume ?timer ?response
  case poll => exact fun _ _ => settled_poll h now
  case edit => exact fun value _ _ => settled_setFilter h now value
  case pause => exact fun _ _ => settled_pause h
  case resume => exact fun _ => settled_resume h
  case timer => exact fun kind _ => Scheduler.Settled.timerFired h kind
  case response =>
    intro tag outcome _ wait
    rw [response_go] at wait
    rw [Settled, response_scheduler, response_filter]
    exact Scheduler.Settled.response h wait

/-- A settled view is settled again after every event. -/
theorem handle_settled (h : v.Settled) (now : Nat) (e : Event α) : (v.handle now e).value.2.Settled := by
  cases hgo : (v.react now e).value.1 with
  | true =>
    rw [handle_goes hgo]
    exact (react_ready hgo).beginFetch _
  | false =>
    rw [handle_waits hgo]
    exact react_settled h hgo

end View
end ProxyMonitor.Live
