import Mathlib.Data.List.Basic
import ProxyMonitor.Proofs.FilterPair

/-! What a history of edits leaves of a location: the last filter, at a place that says whether the filter was ever
empty, and everything else as it was. -/
namespace ProxyMonitor.Location
variable {l : Location} {key value : String}

/-- Edits the filter once for each of the values: which of them changed it, and what the location has become. -/
def replaceAll (l : Location) : List String → List Bool × Location
  | [] => ([], l)
  | value :: later =>
    let (changed, next) := l.replaceFilter value
    let (flags, last) := next.replaceAll later
    (changed :: flags, last)

theorem replaceAll_location (l : Location) (values : List String) :
    (l.replaceAll values).2 = values.foldl setFilter l := by
  induction values generalizing l with
  | nil => rfl
  | cons value later ih => exact ih (l.setFilter value)

/-- Each edit is compared with the one before it. -/
theorem replaceAll_flags (l : Location) (values : List String) (last : String) :
    (l.replaceAll (values ++ [last])).1 = (values ++ [last]).zipWith (· != ·) (l.filter :: values) := by
  induction values generalizing l with
  | nil =>
    change [l.filter != last] = [last != l.filter]
    rw [bne_comm]
  | cons value later ih =>
    change (l.filter != value) :: ((l.setFilter value).replaceAll (later ++ [last])).1 = _
    rw [ih, filter_setFilter, bne_comm]
    rfl

/-- An edit leaves one pair for the filter, or none where it is empty. -/
theorem filterPairs_setFilter (l : Location) (value : String) :
    (l.setFilter value).filterPairs = if value = "" then [] else [(filterKey, value)] := by
  have apart (pairs : Url.Form.Pairs) : (pairs.filter (·.1 != filterKey)).filter (·.1 == filterKey) = [] := by
    simp [List.filter_eq_nil_iff]
  unfold setFilter filterPairs
  by_cases empty : value = ""
  · rw [if_pos (String.isEmpty_iff.mpr empty), if_pos empty]
    exact apart l.pairs
  · rw [if_neg (by simpa [String.isEmpty_iff] using empty), if_neg empty]
    rcases set_cases l filterKey value with ⟨absent, appended⟩ | ⟨before, after, old, _, free, placed⟩
    · rw [appended, List.filter_append, ← absent, others, apart, List.nil_append]
      simp
    · have none : before.filter (·.1 == filterKey) = [] :=
        List.filter_eq_nil_iff.mpr fun p hp => by simpa using free p hp
      rw [placed, List.filter_append, none, List.nil_append, List.filter_cons_of_pos (by simp), apart]

section InPlace
variable {before after : Url.Form.Pairs} {old : String}

/-- Where there is a pair for the filter, the first one takes the value and the others go. -/
theorem setFilter_in_place (held : l.pairs = before ++ (filterKey, old) :: after) (free : ∀ p ∈ before, p.1 ≠ filterKey)
    (filled : value ≠ "") :
    (l.setFilter value).pairs = before ++ (filterKey, value) :: after.filter (·.1 != filterKey) := by
  have passes : ∀ p ∈ before, (p.1 != filterKey) = true := fun p hp => bne_iff_ne.mpr (free p hp)
  have rest : l.pairs.dropWhile (·.1 != filterKey) = (filterKey, old) :: after := by
    rw [held, List.dropWhile_append_of_pos passes, List.dropWhile_cons_of_neg (by simp)]
  have first : l.pairs.takeWhile (·.1 != filterKey) = before := by
    rw [held, List.takeWhile_append_of_pos passes, List.takeWhile_cons_of_neg (by simp), List.append_nil]
  rw [setFilter, if_neg (by simpa [String.isEmpty_iff] using filled), set, rest, first]

/-- As long as no edit is empty, the pair stays at its place. -/
theorem foldl_in_place {values : List String} {last : String} (held : l.pairs = before ++ (filterKey, old) :: after)
    (free : ∀ p ∈ before, p.1 ≠ filterKey) (filled : "" ∉ values ++ [last]) :
    ((values ++ [last]).foldl setFilter l).pairs =
      before ++ (filterKey, last) :: after.filter (·.1 != filterKey) := by
  induction values generalizing l old after with
  | nil =>
    have filled : last ≠ "" := fun empty => filled (by simp [empty])
    exact setFilter_in_place held free filled
  | cons value later ih =>
    have first : value ≠ "" := fun empty => filled (by simp [empty])
    have placed := setFilter_in_place held free first
    rw [List.cons_append, List.foldl_cons, ih placed fun empty => filled (List.mem_cons_of_mem _ empty), List.filter_filter]
    simp only [Bool.and_self]

end InPlace

/-- What stands for the filter stands behind all other pairs. -/
def FilterLast (l : Location) : Prop :=
  l.pairs = l.others filterKey ++ l.filterPairs

theorem filterLast_of_absent (absent : ∀ p ∈ l.pairs, p.1 ≠ filterKey) : l.FilterLast := by
  have none : l.filterPairs = [] := List.filter_eq_nil_iff.mpr fun p hp => by simpa using absent p hp
  rw [FilterLast, none, List.append_nil, others, List.filter_eq_self.mpr fun p hp => bne_iff_ne.mpr (absent p hp)]

theorem filterLast_empty (l : Location) : (l.setFilter "").FilterLast := by
  rw [FilterLast, filterPairs_setFilter, if_pos rfl, List.append_nil, others_setFilter]
  rfl

/-- A pair that is new goes to the end, and one that is there already is edited there. -/
theorem FilterLast.setFilter (h : l.FilterLast) (value : String) : (l.setFilter value).FilterLast := by
  by_cases empty : value = ""
  · rw [empty]
    exact filterLast_empty l
  · rw [FilterLast, filterPairs_setFilter, if_neg empty, others_setFilter]
    cases own : l.filterPairs with
    | nil =>
      have absent : l.others filterKey = l.pairs := by rw [h, own, List.append_nil]
      rw [Location.setFilter, if_neg (by simpa [String.isEmpty_iff] using empty), absent]
      rcases set_cases l filterKey value with ⟨_, appended⟩ | ⟨before, after, old, held, _, _⟩
      · exact appended
      · have present : (filterKey, old) ∈ l.others filterKey := by rw [absent, held]; simp
        exact absurd rfl (ne_of_mem_others present)
    | cons p rest =>
      have key (q : String × String) (hq : q ∈ p :: rest) : q.1 = filterKey := by
        have member : q ∈ l.filterPairs := own ▸ hq
        simpa using (List.mem_filter.mp member).2
      have held : l.pairs = l.others filterKey ++ (filterKey, p.2) :: rest := by
        have shape : (filterKey, p.2) = p := Prod.ext (key p List.mem_cons_self).symm rfl
        rw [shape, ← own]
        exact h
      have gone : rest.filter (·.1 != filterKey) = [] :=
        List.filter_eq_nil_iff.mpr fun q hq => by simpa using key q (List.mem_cons_of_mem _ hq)
      rw [setFilter_in_place held (fun q hq => ne_of_mem_others hq) empty, gone]

/-- Once the filter was empty or absent, its pair is the last one. -/
theorem foldl_filterLast {values : List String} (h : l.FilterLast ∨ "" ∈ values) :
    (values.foldl setFilter l).FilterLast := by
  induction values generalizing l with
  | nil => exact h.resolve_right List.not_mem_nil
  | cons value later ih =>
    refine ih ?_
    rcases h with h | h
    · exact .inl (h.setFilter value)
    · rcases List.mem_cons.mp h with rfl | h
      · exact .inl (filterLast_empty l)
      · exact .inr h

theorem foldl_others (l : Location) (values : List String) :
    (values.foldl setFilter l).others filterKey = l.others filterKey := by
  induction values generalizing l with
  | nil => rfl
  | cons value later ih => rw [List.foldl_cons, ih, others_setFilter]

theorem foldl_path (l : Location) (values : List String) : (values.foldl setFilter l).path = l.path := by
  induction values generalizing l with
  | nil => rfl
  | cons value later ih => rw [List.foldl_cons, ih, setFilter_path]

/-- The same edit again changes nothing. -/
theorem setFilter_setFilter (l : Location) (value : String) : (l.setFilter value).setFilter value = l.setFilter value := by
  have pairs : ((l.setFilter value).setFilter value).pairs = (l.setFilter value).pairs := by
    have own := filterPairs_setFilter l value
    by_cases empty : value = ""
    · rw [if_pos empty] at own
      rw [empty] at own ⊢
      exact List.filter_eq_self.mpr fun p hp => by simpa [bne] using List.filter_eq_nil_iff.mp own p hp
    · rw [if_neg empty] at own
      obtain ⟨before, after, held, free, _, rest⟩ := List.filter_eq_cons_iff.mp own
      have kept : after.filter (·.1 != filterKey) = after :=
        List.filter_eq_self.mpr fun p hp => by simpa [bne] using List.filter_eq_nil_iff.mp rest p hp
      rw [setFilter_in_place held (fun p hp => by simpa using free p hp) empty, kept, held]
  have path : ((l.setFilter value).setFilter value).path = (l.setFilter value).path := setFilter_path _ value
  cases edited : (l.setFilter value).setFilter value with
  | mk path' pairs' =>
    rw [edited] at path pairs
    cases path
    cases pairs
    rfl

/-- However a location is edited, only its filter is touched. It ends as the last value, in one pair or in none if it is
empty; path and other pairs stay. As long as no value is empty, the pair stands where the first one stood among the
others, which take the places of the rest; once a value was empty, or if there was no pair, it stands at the end. Each
edit says whether its value differs from the filter before it, which is the value of the edit before, and the last one
changes nothing if it is repeated. -/
theorem edits_touch_filter_only (l : Location) (values : List String) (last : String) :
    let edited := (l.replaceAll (values ++ [last])).2
    edited.filter = last ∧
    edited.filterPairs = (if last = "" then [] else [(filterKey, last)]) ∧
    edited.path = l.path ∧ edited.others filterKey = l.others filterKey ∧
    (∀ before old after, l.pairs = before ++ (filterKey, old) :: after → (∀ p ∈ before, p.1 ≠ filterKey) →
      "" ∉ values ++ [last] → edited.pairs = before ++ (filterKey, last) :: after.filter (·.1 != filterKey)) ∧
    (last ≠ "" → (∀ p ∈ l.pairs, p.1 ≠ filterKey) ∨ "" ∈ values →
      edited.pairs = l.others filterKey ++ [(filterKey, last)]) ∧
    (l.replaceAll (values ++ [last])).1 = (values ++ [last]).zipWith (· != ·) (l.filter :: values) ∧
    edited.replaceFilter last = (false, edited) := by
  intro edited
  have folded : edited = (values ++ [last]).foldl setFilter l := replaceAll_location l (values ++ [last])
  have final : edited = (values.foldl setFilter l).setFilter last := by rw [folded, List.foldl_concat]
  have own : edited.filterPairs = if last = "" then [] else [(filterKey, last)] := by
    rw [final, filterPairs_setFilter]
  have filter : edited.filter = last := by rw [final, filter_setFilter]
  refine ⟨filter, own, ?path, ?others, ?inPlace, ?atEnd, replaceAll_flags l values last, ?again⟩
  case path => rw [folded, foldl_path]
  case others => rw [folded, foldl_others]
  case inPlace =>
    intro before old after held free filled
    rw [folded]
    exact foldl_in_place held free filled
  case atEnd =>
    intro filled lost
    have behind : edited.FilterLast := by
      rw [folded]
      exact foldl_filterLast (lost.imp filterLast_of_absent fun empty => List.mem_append_left _ empty)
    have others : edited.others filterKey = l.others filterKey := by rw [folded, foldl_others]
    rw [FilterLast, own, if_neg filled, others] at behind
    exact behind
  case again =>
    have same : edited.setFilter last = edited := by rw [final, setFilter_setFilter]
    rw [replaceFilter, filter, same, bne_self_eq_false]

/-- Three pairs for the filter, and two others. -/
def crowded : Location :=
  ⟨"/pool", [("a", "1"), ("filter", "x"), ("b", ""), ("filter", ""), ("filter", "y")]⟩

/-- An edit that changes nothing and one that does leave the pair at its place; an empty one in between moves it. -/
theorem edits_touch_filter_only_crowded :
    (crowded.pairs = [("a", "1")] ++ (filterKey, "x") :: [("b", ""), ("filter", ""), ("filter", "y")] ∧
      (∀ p ∈ [("a", "1")], p.1 ≠ filterKey) ∧ "" ∉ ["x"] ++ ["z"] ∧
      (crowded.replaceAll ["x", "z"]).2.pairs = [("a", "1"), ("filter", "z"), ("b", "")] ∧
      (crowded.replaceAll ["x", "z"]).1 = [false, true]) ∧
    "z" ≠ "" ∧ "" ∈ ["x", ""] ∧
    (crowded.replaceAll ["x", "", "z"]).2.pairs = [("a", "1"), ("b", ""), ("filter", "z")] ∧
    (crowded.replaceAll ["x", "", "z"]).1 = [false, true, true] := by
  have held : crowded.pairs = [("a", "1")] ++ (filterKey, "x") :: [("b", ""), ("filter", ""), ("filter", "y")] := rfl
  have free : ∀ p ∈ [("a", "1")], p.1 ≠ filterKey := by decide
  have filled : "" ∉ ["x"] ++ ["z"] := by decide
  have emptied : "" ∈ ["x", ""] := by decide
  obtain ⟨_, _, _, _, inPlace, _, flags, _⟩ := edits_touch_filter_only crowded ["x"] "z"
  obtain ⟨_, _, _, _, _, atEnd, lost, _⟩ := edits_touch_filter_only crowded ["x", ""] "z"
  exact ⟨⟨held, free, filled, (inPlace _ _ _ held free filled).trans (by decide), flags.trans (by decide)⟩, by decide,
    emptied, (atEnd (by decide) (.inr emptied)).trans (by decide), lost.trans (by decide)⟩

end ProxyMonitor.Location
