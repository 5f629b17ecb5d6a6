import Mathlib.Algebra.GroupWithZero.Nat
import Mathlib.Order.Monotone.Basic
import ProxyMonitor.Live.Session
import ProxyMonitor.Proofs.Live.Outcome

/-! A view that is left alone, from the mount to its first failure: what it is before, during and after each of its
requests. -/
namespace ProxyMonitor.Live
open ProxyMonitor.Poll
variable {α : Type}

/-- What a view is mounted with. -/
structure Mount (α : Type) where
  endpoint : String
  location : Location
  schedule : Schedule
  service : Service α

/-- A service that has replied so often. -/
def Service.after (service : Service α) (replies : Nat) : Service α :=
  { service with script := service.script.drop replies }

namespace Mount

def session (u : Mount α) : Session α :=
  (Session.mount u.endpoint u.location u.schedule u.service).value

/-- The reply to the `k`-th request, from zero on. -/
def reply (u : Mount α) (k : Nat) : Reply α :=
  u.service.script.getD k u.service.rest

/-- The `k`-th request of a view that is left alone. -/
def request (u : Mount α) (k : Nat) : Request :=
  ⟨u.endpoint, u.location.pairs, ⟨k + 1, u.location.filter⟩⟩

def outcome (u : Mount α) (k : Nat) : Option (Except Failure (Answer α)) :=
  ((u.reply k).outcome (u.request k)).value

/-- When the `k`-th request goes out: the quiet time is over, and with each request before it the time that it took
and the time until the next one. -/
def start (u : Mount α) (k : Nat) : Nat :=
  u.schedule.debounce + ((List.range k).map fun i => (u.reply i).latency + u.schedule.cadence).sum

/-- When the `k`-th request is answered. -/
def due (u : Mount α) (k : Nat) : Nat :=
  u.start k + (u.reply k).latency

/-- All requests before the `k`-th one bring a result. -/
def Succeeds (u : Mount α) (k : Nat) : Prop :=
  ∀ i < k, ∃ answer, u.outcome i = some (.ok answer)

/-- What is shown after `k` results: the last one of them. -/
def sink (u : Mount α) : Nat → Sink α
  | 0 => {}
  | k + 1 =>
    match u.outcome k with
    | some (.ok answer) => ⟨some answer.total, answer.records, answer.facets.getD [], k + 1⟩
    | _ => {}

/-- The view before its `k`-th request. -/
def waiting (u : Mount α) (k : Nat) : View α where
  endpoint := u.endpoint
  location := u.location
  scheduler :=
    { schedule := u.schedule
      state := .scheduled
      timer := ⟨some (if k = 0 then .debounce else .cadence, u.start k)⟩
      lastSeq := k }
  sink := u.sink k

/-- The view while its `k`-th request is out. -/
def loading (u : Mount α) (k : Nat) : View α where
  endpoint := u.endpoint
  location := u.location
  scheduler :=
    { schedule := u.schedule
      state := .loading
      inFlight := some (u.request k).tag
      lastSeq := k + 1 }
  sink := u.sink k

/-- The view after its `k`-th request failed. -/
def halted (u : Mount α) (k : Nat) (failure : Failure) : View α where
  endpoint := u.endpoint
  location := u.location
  scheduler :=
    { schedule := u.schedule
      state := .failed failure.message
      lastSeq := k + 1 }
  sink := u.sink k
  errors := ⟨some failure⟩

variable {u : Mount α} {k : Nat} {now : Nat}

theorem start_succ (u : Mount α) (k : Nat) : u.start (k + 1) = u.due k + u.schedule.cadence := by
  simp only [start, due, List.range_succ, List.map_append, List.sum_append, List.map_cons, List.map_nil,
    List.sum_singleton]
  omega

theorem start_le_due (u : Mount α) (k : Nat) : u.start k ≤ u.due k :=
  Nat.le_add_right _ _

theorem due_le_start (u : Mount α) (k : Nat) : u.due k ≤ u.start (k + 1) := by
  rw [start_succ]
  exact Nat.le_add_right _ _

theorem start_mono (u : Mount α) : Monotone u.start :=
  monotone_nat_of_le_succ fun k => (u.start_le_due k).trans (u.due_le_start k)

theorem due_mono (u : Mount α) : Monotone u.due :=
  monotone_nat_of_le_succ fun k => (u.due_le_start k).trans (u.start_le_due (k + 1))

theorem next_after (u : Mount α) (k : Nat) :
    (u.service.after k).next = (u.reply k, u.service.after (k + 1)) := by
  have head : (u.service.script.drop k).head? = u.service.script[k]? := List.head?_drop
  have tail : (u.service.script.drop k).tail = u.service.script.drop (k + 1) := List.tail_drop
  unfold Service.next Service.after
  rw [reply, List.getD_eq_getElem?_getD, ← head, ← tail]
  cases u.service.script.drop k with
  | nil | cons => rfl

theorem Succeeds.mono {j : Nat} (h : u.Succeeds k) (le : j ≤ k) : u.Succeeds j :=
  fun i lt => h i (Nat.lt_of_lt_of_le lt le)

theorem Succeeds.succ {answer : Answer α} (h : u.Succeeds k) (ok : u.outcome k = some (.ok answer)) :
    u.Succeeds (k + 1) := by
  intro i lt
  rcases Nat.lt_succ_iff_lt_or_eq.mp lt with lt | rfl
  · exact h i lt
  · exact ⟨answer, ok⟩

theorem Succeeds.le_of_not {j : Nat} (h : u.Succeeds k) (fails : ∀ answer, u.outcome j ≠ some (.ok answer)) :
    k ≤ j := by
  refine Nat.le_of_not_lt fun lt => ?_
  obtain ⟨answer, ok⟩ := h j lt
  exact fails answer ok

theorem Succeeds.le_failure {j : Nat} {failure : Failure} (h : u.Succeeds k)
    (outcome : u.outcome j = some (.error failure)) : k ≤ j :=
  h.le_of_not fun _ ok => nomatch outcome.symm.trans ok

theorem Succeeds.le_crash {j : Nat} (h : u.Succeeds k) (outcome : u.outcome j = none) : k ≤ j :=
  h.le_of_not fun _ ok => nomatch outcome.symm.trans ok

theorem sink_succ {answer : Answer α} (ok : u.outcome k = some (.ok answer)) :
    u.sink (k + 1) = ⟨some answer.total, answer.records, answer.facets.getD [], k + 1⟩ := by
  rw [sink, ok]

theorem Succeeds.applied (h : u.Succeeds k) : (u.sink k).applied = k := by
  cases k with
  | zero => rfl
  | succ k =>
    obtain ⟨answer, ok⟩ := h k (Nat.lt_succ_self k)
    rw [sink_succ ok]

/-- The quiet time of a view that is opened ends when its first request goes out. -/
theorem handle_opening (u : Mount α) :
    ((View.start u.endpoint u.location u.schedule : View α).handle 0 .opening).value = (none, u.waiting 0) := by
  have armed : Timer.arm 0 .debounce u.schedule.debounce = ⟨some (.debounce, u.start 0)⟩ := by
    simp [Timer.arm, start]
  rw [View.handle_waits rfl]
  show (none, (View.start u.endpoint u.location u.schedule).poll 0) = _
  rw [View.poll, View.start]
  simp [Scheduler.isDeaf, Scheduler.requestPoll, armed, waiting, sink, ErrorChannel.clear]

theorem handle_timer (u : Mount α) (k now : Nat) (kind : TimerKind) :
    ((u.waiting k).handle now (.timer kind)).value = (some (u.request k), u.loading k) := by
  rw [View.handle_goes rfl]
  rfl

theorem handle_result (h : u.Succeeds k) {answer : Answer α} (ok : u.outcome k = some (.ok answer)) :
    ((u.loading k).handle (u.due k) (.response (u.request k).tag (.ok answer))).value =
      (none, u.waiting (k + 1)) := by
  have counts : (u.loading k).counts (u.request k).tag = true := View.counts_iff.mpr ⟨rfl, rfl, rfl⟩
  have response : ((u.loading k).response (u.due k) (u.request k).tag (.ok answer)).value = _ :=
    View.response_result rfl counts answer
  have scheduler : ((u.loading k).scheduler.response (u.due k) (u.request k).tag (u.loading k).filter none).value.2.2 =
      (u.waiting (k + 1)).scheduler := by
    have timed : ((u.loading k).scheduler.response (u.due k) (u.request k).tag (u.loading k).filter none).value = _ :=
      Scheduler.response_ok rfl rfl rfl rfl
    rw [timed, waiting, start_succ]
    rfl
  have shown : (u.loading k).sink.accept answer = u.sink (k + 1) := by
    rw [sink_succ ok, Sink.accept, loading, h.applied]
  have reacted : ((u.loading k).react (u.due k) (.response (u.request k).tag (.ok answer))).value =
      (false, u.waiting (k + 1)) := by
    rw [View.react, response, scheduler, shown]
    rfl
  rw [View.handle_waits (congrArg Prod.fst reacted), reacted]

theorem handle_failure (u : Mount α) (k now : Nat) (failure : Failure) :
    ((u.loading k).handle now (.response (u.request k).tag (.error failure))).value =
      (none, u.halted k failure) := by
  have counts : (u.loading k).counts (u.request k).tag = true := View.counts_iff.mpr ⟨rfl, rfl, rfl⟩
  have response : ((u.loading k).response now (u.request k).tag (.error failure)).value = _ :=
    View.response_failure rfl counts failure
  have scheduler : ((u.loading k).scheduler.response now (u.request k).tag (u.loading k).filter
      (some failure.message)).value.2.2 = (u.halted k failure).scheduler := by
    have failed : ((u.loading k).scheduler.response now (u.request k).tag (u.loading k).filter
        (some failure.message)).value = _ := Scheduler.response_failed rfl rfl rfl rfl failure.message
    rw [failed]
    rfl
  have reacted : ((u.loading k).react now (.response (u.request k).tag (.error failure))).value =
      (false, u.halted k failure) := by
    rw [View.react, response, scheduler]
    rfl
  rw [View.handle_waits (congrArg Prod.fst reacted), reacted]

end Mount
end ProxyMonitor.Live
