import ProxyMonitor.Proofs.Live.Outcome
import ProxyMonitor.Proofs.Live.SingleFlight

/-! The results that a view shows: the ones for the filter it has when they arrive, each of them once, and with
the pairs that its location has then. -/
namespace ProxyMonitor.Live
open ProxyMonitor.Poll ProxyMonitor.Location
variable {α : Type} {past : List (Moment α)} {s : Session α} {tag : Tag}

theorem Ordered.expects (h : Ordered past s) {e : Event α} (allowed : s.Allows (.event e)) :
    s.view.Expects e := by
  intro answer he
  cases e with
  | opening | command | timer => cases he
  | response tag outcome =>
    cases he
    exact h.awaited allowed

/-- What a move leaves of the results that are shown. -/
theorem Ordered.after_sink (h : Ordered past s) {m : Move α} (allowed : s.Allows m) (now : Nat) :
    (s.make now m).value.view.sink =
      (Moment.mk s now m).result?.elim s.view.sink fun result => s.view.sink.accept result.2 := by
  cases m with
  | event e =>
    rw [Session.make, Session.react_view]
    exact View.handle_sink (h.expects allowed)
  | handOver | crash | leave => rfl

theorem Moment.result?_eq_some {m : Moment α} {answer : Answer α} : m.result? = some (tag, answer) ↔
    m.move = .event (.response tag (.ok answer)) ∧ m.before.view.counts tag = true := by
  unfold Moment.result?
  split
  · rename_i e he
    rw [View.result?_eq_some, he, Move.event.injEq]
  · rename_i hm
    constructor
    · intro h
      cases h
    · intro h
      exact absurd h.1 (hm _)

theorem Moment.answer?_of_result? {m : Moment α} {answer : Answer α} (h : m.result? = some (tag, answer)) :
    m.answer? = some (tag, .ok answer) := by
  obtain ⟨hm, _⟩ := Moment.result?_eq_some.mp h
  rw [Moment.answer?, hm]
  rfl

/-- Results come with answers, in the order of these. -/
theorem results_sublist (past : List (Moment α)) :
    ((results past).map Prod.fst).Sublist ((answers past).map Prod.fst) := by
  induction past with
  | nil => exact .slnil
  | cons m past ih =>
    unfold results answers at ih ⊢
    cases hr : m.result? with
    | some result =>
      obtain ⟨tag, answer⟩ := result
      rw [List.filterMap_cons_some hr, List.filterMap_cons_some (Moment.answer?_of_result? hr)]
      exact ih.cons_cons tag
    | none =>
      rw [List.filterMap_cons_none hr]
      cases ha : m.answer? with
      | none => rwa [List.filterMap_cons_none ha]
      | some answer =>
        rw [List.filterMap_cons_some ha]
        exact ih.cons answer.1

/-- No request is out twice. -/
theorem Ordered.tags_nodup (h : Ordered past s) : ((requests past).map (·.tag)).Nodup := by
  have seqs : (((requests past).map (·.tag)).map Tag.seq).Nodup := by
    rw [List.map_map]
    exact h.numbered ▸ List.nodup_range'
  exact List.Pairwise.of_map _ (fun _ _ hne heq => hne (congrArg Tag.seq heq)) seqs

/-- The pairs of the location, and those of each request, are the ones that the view was mounted with, but for
the filter. -/
structure Carried (others : Url.Form.Pairs) (past : List (Moment α)) (s : Session α) : Prop where
  location : s.view.location.Carries others
  params : ∀ r ∈ requests past, r.params.Perm (withFilter others r.tag.filter)

theorem Carried.react {others : Url.Form.Pairs} (h : Carried others past s) (now : Nat) (e : Event α) :
    Carried others (past ++ [⟨s, now, .event e⟩]) (s.react now e).value := by
  have location : (s.view.handle now e).value.2.location.Carries others := by
    rcases View.handle_location s.view now e with hl | ⟨value, hl⟩
    · rw [hl]
      exact h.location
    · rw [hl]
      exact h.location.setFilter value
  refine ⟨by rw [Session.react_view]; exact location, fun r hr => ?_⟩
  rw [requests_concat, List.mem_append, Option.mem_toList] at hr
  rcases hr with hr | hr
  · exact h.params r hr
  · have hr : (s.view.handle now e).value.1 = some r := hr
    obtain ⟨hparams, htag⟩ := View.handle_request hr
    rw [hparams, htag]
    exact location.perm

theorem foldl_accept_applied (rs : List (Tag × Answer α)) (sink : Sink α) :
    (rs.foldl (fun sink result => sink.accept result.2) sink).applied = sink.applied + rs.length := by
  induction rs generalizing sink with
  | nil => rfl
  | cons r rs ih =>
    rw [List.foldl_cons, ih, List.length_cons]
    simp only [Sink.accept]
    omega

section Mounted
variable {endpoint : String} {location : Location} {schedule : Schedule} {service : Service α}

/-- What is shown is what the results made of nothing, one after the other. -/
theorem Run.sink_eq (run : Run (Session.mount endpoint location schedule service).value past s) :
    s.view.sink = (results past).foldl (fun sink result => sink.accept result.2) {} := by
  induction run with
  | start => rfl
  | ask _ asked ih =>
    obtain ⟨_, _, _, rfl⟩ := asked.eq_with
    exact ih
  | @make past s now m run allowed ih =>
    rw [run.ordered.after_sink allowed now, results_concat, List.foldl_append, ← ih]
    cases (Moment.mk s now m).result? with
    | none | some result => rfl

theorem Run.applied_eq (run : Run (Session.mount endpoint location schedule service).value past s) :
    s.view.sink.applied = (results past).length := by
  rw [run.sink_eq, foldl_accept_applied, Nat.zero_add]

theorem Run.carried (run : Run (Session.mount endpoint location schedule service).value past s)
    (one : location.OneFilter) : Carried (location.others filterKey) past s := by
  induction run with
  | start => exact ⟨one.carries, fun _ hr => by cases hr⟩
  | ask _ asked ih =>
    obtain ⟨_, _, _, rfl⟩ := asked.eq_with
    exact ⟨ih.location, ih.params⟩
  | @make past s now m run allowed ih =>
    cases m with
    | event e => exact ih.react now e
    | handOver | crash | leave =>
      exact ⟨ih.location, fun r hr => ih.params r (by simpa [Moment.request?] using hr)⟩

/-- The results that are shown change exactly with a result that arrives while the view is neither paused nor
ended and that was asked for with the filter of the moment. It replaces them as a whole and counts as one
more, and each request brings one at most. Where the first location had no filter, or one that is not empty, the
pairs that the request was sent with are those of the location by then, but for their order. -/
theorem results_current (run : Run (Session.mount endpoint location schedule service).value past s) :
    (∀ m ∈ past, m.after.view.sink ≠ m.before.view.sink ↔
      ∃ tag answer, m.move = .event (.response tag (.ok answer)) ∧
        m.before.view.scheduler.tornDown = false ∧ m.before.view.scheduler.paused = false ∧
        tag.filter = m.before.view.filter) ∧
    (∀ m ∈ past, ∀ tag answer, m.result? = some (tag, answer) →
      m.after.view.sink =
        ⟨some answer.total, answer.records, answer.facets.getD [], m.before.view.sink.applied + 1⟩) ∧
    s.shown.sink = (results past).foldl (fun sink result => sink.accept result.2) {} ∧
    ((results past).map Prod.fst).Nodup ∧
    (∀ tag ∈ (results past).map Prod.fst, ∃ r ∈ requests past, r.tag = tag) ∧
    (location.OneFilter → ∀ m ∈ past, ∀ tag answer, m.result? = some (tag, answer) →
      ∀ r ∈ requests past, r.tag = tag → r.params.Perm m.before.view.location.pairs) := by
  have sink : ∀ m ∈ past, m.after.view.sink =
      m.result?.elim m.before.view.sink fun result => m.before.view.sink.accept result.2 := by
    intro m hm
    obtain ⟨earlier, before, allowed, _⟩ := run.moment hm
    exact before.ordered.after_sink allowed m.now
  have once := results_sublist past
  refine ⟨fun m hm => ?changes, fun m hm tag answer hr => ?replaces, ?shown, ?nodup, ?started, ?pairs⟩
  case changes =>
    rw [sink m hm]
    constructor
    · intro changed
      cases hr : m.result? with
      | none => exact absurd (by rw [hr]; rfl) changed
      | some result =>
        obtain ⟨hmove, hcounts⟩ := Moment.result?_eq_some.mp hr
        exact ⟨result.1, result.2, hmove, View.counts_iff.mp hcounts⟩
    · rintro ⟨tag, answer, hmove, hcounts⟩ same
      have hr : m.result? = some (tag, answer) :=
        Moment.result?_eq_some.mpr ⟨hmove, View.counts_iff.mpr hcounts⟩
      rw [hr] at same
      exact absurd (congrArg Sink.applied same) (Nat.succ_ne_self _)
  case replaces =>
    rw [sink m hm, hr]
    rfl
  case shown =>
    rw [run.shown_eq, run.sink_eq]
  case nodup =>
    have answered := run.ordered.tags_nodup.sublist run.ordered.answered.sublist
    exact answered.sublist once
  case started =>
    intro tag htag
    exact run.ordered.asked (once.subset htag)
  case pairs =>
    rintro one m hm tag answer hr r hmem rfl
    obtain ⟨earlier, before, _, _⟩ := run.moment hm
    obtain ⟨_, hcounts⟩ := Moment.result?_eq_some.mp hr
    obtain ⟨_, _, hfilter⟩ := View.counts_iff.mp hcounts
    have params := (run.carried one).params r hmem
    rw [hfilter] at params
    exact params.trans (before.carried one).location.perm.symm

/-- Of two answers only the one for the edited filter is shown. -/
theorem results_current_edited : Run Edited.start Edited.past Edited.last ∧
    Location.OneFilter ⟨"/history", []⟩ ∧
    (answers Edited.past).map Prod.fst = [⟨1, ""⟩, ⟨2, "a"⟩] ∧
    Edited.last.shown.sink = ⟨some 1, [()], [], 1⟩ ∧
    ∀ r ∈ requests Edited.past, r.tag = ⟨2, "a"⟩ → r.params.Perm [("filter", "a")] := by
  have one : Location.OneFilter ⟨"/history", []⟩ := .inl rfl
  have length : 7 < Edited.past.length := by decide
  have applied : Edited.past[7].result? = some (⟨2, "a"⟩, ⟨1, [()], none⟩) := rfl
  obtain ⟨_, _, sink, _, _, pairs⟩ := results_current Edited.run
  exact ⟨Edited.run, one, rfl, sink, pairs one _ (List.getElem_mem length) _ _ applied⟩

end Mounted
end ProxyMonitor.Live
