import Mathlib.Data.List.Basic
import Mathlib.Data.List.Induction
import ProxyMonitor.Proofs.Past
import ProxyMonitor.Proofs.Poll.Operations

/-! A scheduler that is used in any way: requests go out before the last one was answered, and responses come with any tags.
Only the request that went out last can be answered, and only once. -/
namespace ProxyMonitor.Poll

/-- What is done to a scheduler: an operation on it, or another timer is put into it by whoever waits for that. -/
inductive Use where
  | operation (o : Operation)
  | timer (timer : Timer)
deriving DecidableEq, Repr

namespace Use

/-- A request goes out. -/
def begins : Use → Bool
  | .operation o => o.begins
  | .timer _ => false

/-- A response comes with the tag. -/
def answers (tag : Tag) : Use → Bool
  | .operation (.response _ other _ _) => other == tag
  | _ => false

end Use

namespace Scheduler
variable {s : Scheduler} {uses : List Use} {u : Use} {tag : Tag}

def use (s : Scheduler) : Use → Scheduler
  | .operation o => (s.perform o).2
  | .timer timer => { s with timer }

def useAll (s : Scheduler) (uses : List Use) : Scheduler :=
  uses.foldl use s

@[simp] theorem useAll_nil (s : Scheduler) : s.useAll [] = s := rfl

theorem useAll_append (s : Scheduler) (uses later : List Use) : s.useAll (uses ++ later) = (s.useAll uses).useAll later :=
  List.foldl_append

theorem useAll_concat (s : Scheduler) (uses : List Use) (u : Use) : s.useAll (uses ++ [u]) = (s.useAll uses).use u := by
  rw [useAll_append]
  rfl

/-- The tag of the request that goes out, if one does. -/
def tag? (s : Scheduler) : Use → Option Tag
  | .operation (.beginFetch filter) => some (s.beginFetch filter).1
  | _ => none

/-- The tags of the requests that go out, in their order. -/
def begun (s : Scheduler) : List Use → List Tag
  | [] => []
  | u :: later => (s.tag? u).toList ++ (s.use u).begun later

/-- The request with this tag went out, and since then neither another one did nor was it answered. -/
def Awaits (s : Scheduler) (uses : List Use) (tag : Tag) : Prop :=
  ∃ before u later, uses = before ++ u :: later ∧ (s.useAll before).tag? u = some tag ∧
    ∀ v ∈ later, v.begins = false ∧ v.answers tag = false

theorem begins_iff : u.begins = true ↔ ∃ tag, s.tag? u = some tag := by
  cases u with
  | timer => simp [Use.begins, tag?]
  | operation o => cases o <;> simp [Use.begins, Operation.begins, tag?]

/-- Numbers are given one after the other. -/
theorem use_lastSeq (s : Scheduler) (u : Use) : (s.use u).lastSeq = (s.tag? u).elim s.lastSeq Tag.seq := by
  cases u with
  | timer => rfl
  | operation o => cases o <;> simp [use, perform, tag?, beginFetch, shutdown]

theorem seq_of_tag? (sent : s.tag? u = some tag) : tag.seq = s.lastSeq + 1 := by
  cases u with
  | timer => cases sent
  | operation o =>
    cases o with
    | beginFetch filter =>
      cases sent
      rfl
    | _ => cases sent

theorem le_lastSeq_use (s : Scheduler) (u : Use) : s.lastSeq ≤ (s.use u).lastSeq := by
  rw [use_lastSeq]
  cases sent : s.tag? u with
  | none => exact Nat.le_refl _
  | some tag =>
    rw [Option.elim_some, seq_of_tag? sent]
    exact Nat.le_succ _

theorem le_lastSeq_useAll (s : Scheduler) (uses : List Use) : s.lastSeq ≤ (s.useAll uses).lastSeq := by
  induction uses generalizing s with
  | nil => exact Nat.le_refl _
  | cons u later ih => exact Nat.le_trans (s.le_lastSeq_use u) (ih (s.use u))

theorem lastSeq_lt_of_mem_begun (sent : tag ∈ s.begun uses) : s.lastSeq < tag.seq := by
  induction uses generalizing s with
  | nil => cases sent
  | cons u later ih =>
    rcases List.mem_append.mp sent with first | sent
    · rw [seq_of_tag? (Option.mem_toList.mp first)]
      exact Nat.lt_succ_self _
    · exact Nat.lt_of_le_of_lt (s.le_lastSeq_use u) (ih sent)

theorem begun_pairwise (s : Scheduler) (uses : List Use) : (s.begun uses).Pairwise fun a b => a.seq < b.seq := by
  induction uses generalizing s with
  | nil => exact .nil
  | cons u later ih =>
    refine List.pairwise_append.mpr ⟨?_, ih _, fun first sent next more => ?_⟩
    · cases s.tag? u <;> simp
    · have given : (s.use u).lastSeq = first.seq := by rw [use_lastSeq, Option.mem_toList.mp sent, Option.elim_some]
      exact given ▸ lastSeq_lt_of_mem_begun more

/-- What is waited for is what went out last, until a response to that comes. -/
theorem use_inFlight (s : Scheduler) (u : Use) :
    (s.use u).inFlight = (s.tag? u).or (s.inFlight.filter fun tag => !u.answers tag) := by
  have kept : (s.inFlight.filter fun _ => true) = s.inFlight := by cases s.inFlight <;> rfl
  cases u with
  | timer => exact kept.symm
  | operation o =>
    cases o with
    | requestPoll now => exact (requestPoll_inFlight s now).trans kept.symm
    | timerFired kind => exact (timerFired_inFlight s kind).trans kept.symm
    | beginFetch => rfl
    | pause => exact (pause_inFlight s).trans kept.symm
    | resume => exact (resume_inFlight s).trans kept.symm
    | shutdown => exact kept.symm
    | response now tag current failure =>
      change (s.response now tag current failure).value.2.2.inFlight = s.inFlight.filter fun other => !(tag == other)
      by_cases out : s.inFlight = some tag
      · rw [response_inFlight out, out, Option.filter_some]
        simp
      · rw [response_unknown out]
        cases waited : s.inFlight with
        | none => rfl
        | some other =>
          have differs : tag ≠ other := fun same => out (same ▸ waited)
          rw [Option.filter_some]
          simp [differs]

theorem awaits_concat : s.Awaits (uses ++ [u]) tag ↔
    (s.useAll uses).tag? u = some tag ∨ s.Awaits uses tag ∧ u.begins = false ∧ u.answers tag = false := by
  constructor
  · rintro ⟨before, first, later, split, sent, quiet⟩
    rcases split_concat split with ⟨rfl, rfl, rfl⟩ | ⟨later, rfl, rfl⟩
    · exact .inl sent
    · exact .inr ⟨⟨before, first, later, rfl, sent, fun v hv => quiet v (List.mem_append_left _ hv)⟩,
        quiet u (List.mem_append_right _ (List.mem_singleton.mpr rfl))⟩
  · rintro (sent | ⟨⟨before, first, later, rfl, sent, quiet⟩, calm⟩)
    · exact ⟨uses, u, [], rfl, sent, nofun⟩
    · refine ⟨before, first, later ++ [u], by simp, sent, fun v hv => ?_⟩
      rcases List.mem_append.mp hv with hv | hv
      · exact quiet v hv
      · rw [List.mem_singleton.mp hv]
        exact calm

/-- The request that a scheduler waits for is the one that the uses of it say. -/
theorem inFlight_eq_some_iff (fresh : s.inFlight = none) : (s.useAll uses).inFlight = some tag ↔ s.Awaits uses tag := by
  induction uses using List.reverseRecOn generalizing tag with
  | nil =>
    rw [useAll_nil, fresh]
    refine ⟨nofun, ?_⟩
    rintro ⟨before, u, later, split, _⟩
    exact absurd split (by simp)
  | append_singleton uses u ih =>
    rw [useAll_concat, use_inFlight, awaits_concat, ← ih]
    cases sent : (s.useAll uses).tag? u with
    | some other =>
      have begins : u.begins = true := begins_iff.mpr ⟨other, sent⟩
      simp [begins]
    | none =>
      have quiet : u.begins = false := Bool.eq_false_iff.mpr fun begins => by
        obtain ⟨tag, other⟩ := (begins_iff (s := s.useAll uses)).mp begins
        simp [other] at sent
      simp [quiet, Option.filter_eq_some_iff]

/-- What is waited for has a number that was given. -/
theorem Awaits.seq_le (h : s.Awaits uses tag) : tag.seq ≤ (s.useAll uses).lastSeq := by
  obtain ⟨before, u, later, rfl, sent, _⟩ := h
  have given : ((s.useAll before).use u).lastSeq = tag.seq := by rw [use_lastSeq, sent, Option.elim_some]
  rw [useAll_append]
  exact given ▸ le_lastSeq_useAll _ later

/-- Once it was answered, a request is never waited for again: what goes out later has another number. -/
theorem Awaits.not_again (h : s.Awaits uses tag) (answered : u.answers tag = true) (later : List Use) :
    ¬ s.Awaits (uses ++ u :: later) tag := by
  induction later using List.reverseRecOn with
  | nil =>
    rw [awaits_concat]
    rintro (sent | ⟨_, _, unanswered⟩)
    · have number := seq_of_tag? sent
      have given := h.seq_le
      omega
    · rw [answered] at unanswered
      cases unanswered
  | append_singleton later v ih =>
    rw [← List.cons_append, ← List.append_assoc, awaits_concat]
    rintro (sent | ⟨awaited, _⟩)
    · have number := seq_of_tag? sent
      have given := h.seq_le
      have grown : (s.useAll uses).lastSeq ≤ (s.useAll (uses ++ u :: later)).lastSeq := by
        rw [useAll_append]
        exact le_lastSeq_useAll _ _
      omega
    · exact ih awaited

theorem response_unknown_eq {now : Nat} {current : String} {failure : Option String} (h : s.inFlight ≠ some tag) :
    s.response now tag current failure = pure (.discardStale, false, s) :=
  if_pos h

/-- Only the last request can be answered, and only once, whatever is done to a scheduler. The requests that go out have
strictly increasing numbers, so that no two have the same tag. A response changes the scheduler if and only if its tag is that
of the request that went out last and was not answered since; any other one is discarded as stale, lets no request go out,
and leaves the scheduler as it is, without a word in the log. Once a response with a tag has changed the scheduler, no later
one with this tag does. -/
theorem last_answered_once (schedule : Schedule) (uses : List Use) :
    let start : Scheduler := { schedule }
    (start.begun uses).Pairwise (fun a b => a.seq < b.seq) ∧ (start.begun uses).Nodup ∧
    (∀ now tag current failure,
      (start.Awaits uses tag → ((start.useAll uses).response now tag current failure).value.2.2 ≠ start.useAll uses) ∧
      (¬ start.Awaits uses tag →
        (start.useAll uses).response now tag current failure = pure (.discardStale, false, start.useAll uses))) ∧
    ∀ before later time tag filter outcome, uses = before ++ .operation (.response time tag filter outcome) :: later →
      ((start.useAll before).response time tag filter outcome).value.2.2 ≠ start.useAll before →
      ∀ now current failure,
        (start.useAll uses).response now tag current failure = pure (.discardStale, false, start.useAll uses) := by
  intro start
  have waits {uses : List Use} {tag : Tag} : (start.useAll uses).inFlight = some tag ↔ start.Awaits uses tag :=
    inFlight_eq_some_iff rfl
  have ordered := start.begun_pairwise uses
  refine ⟨ordered, ordered.imp fun before same => by simp [same] at before, fun now tag current failure => ⟨?_, ?_⟩, ?_⟩
  · intro awaited still
    have out := waits.mpr awaited
    have taken : ((start.useAll uses).response now tag current failure).value.2.2.inFlight = none := response_inFlight out
    rw [still, out] at taken
    cases taken
  · exact fun unknown => response_unknown_eq (waits.not.mpr unknown)
  · rintro before later time tag filter outcome rfl changed now current failure
    have awaited : start.Awaits before tag := by
      by_contra unknown
      exact changed (congrArg (·.value.2.2) (response_unknown_eq (waits.not.mpr unknown)))
    exact response_unknown_eq (waits.not.mpr (awaited.not_again (by simp [Use.answers]) later))

/-- Two requests for one filter go out one after the other, and the second one is answered. -/
def overtaken : List Use :=
  [.operation (.beginFetch "a"), .timer (.arm 0 .debounce 500), .operation (.beginFetch "a"),
    .operation (.response 10 ⟨2, "a"⟩ "a" none)]

theorem last_answered_once_overtaken :
    let start : Scheduler := { schedule := { cadence := 2000 } }
    start.begun overtaken = [⟨1, "a"⟩, ⟨2, "a"⟩] ∧ (start.begun overtaken).Pairwise (fun a b => a.seq < b.seq) ∧
    start.Awaits (overtaken.take 3) ⟨2, "a"⟩ ∧
    ((start.useAll (overtaken.take 3)).response 10 ⟨2, "a"⟩ "a" none).value.2.2 ≠ start.useAll (overtaken.take 3) ∧
    ¬ start.Awaits (overtaken.take 3) ⟨1, "a"⟩ ∧
    (start.useAll (overtaken.take 3)).response 20 ⟨1, "a"⟩ "a" none =
      pure (.discardStale, false, start.useAll (overtaken.take 3)) ∧
    (start.useAll overtaken).response 30 ⟨2, "a"⟩ "a" none = pure (.discardStale, false, start.useAll overtaken) := by
  intro start
  have waits {tag : Tag} : (start.useAll (overtaken.take 3)).inFlight = some tag ↔ start.Awaits (overtaken.take 3) tag :=
    inFlight_eq_some_iff rfl
  have awaited : start.Awaits (overtaken.take 3) ⟨2, "a"⟩ := waits.mp (by rfl)
  have lost : ¬ start.Awaits (overtaken.take 3) ⟨1, "a"⟩ := waits.not.mp (by decide)
  obtain ⟨_, _, answers, _⟩ := last_answered_once { cadence := 2000 } (overtaken.take 3)
  obtain ⟨ordered, _, _, once⟩ := last_answered_once { cadence := 2000 } overtaken
  have taken := (answers 10 ⟨2, "a"⟩ "a" none).1 awaited
  exact ⟨rfl, ordered, awaited, taken, lost, (answers 20 ⟨1, "a"⟩ "a" none).2 lost,
    once (overtaken.take 3) [] 10 ⟨2, "a"⟩ "a" none rfl taken 30 "a" none⟩

end Scheduler
end ProxyMonitor.Poll
