import Mathlib.Data.List.TakeWhile
import ProxyMonitor.Location

/-! The filter of a location after an edit, and the pairs that an edit leaves alone. -/
namespace ProxyMonitor.Location
variable {l : Location} {key value : String}

/-- The pairs of all other keys, in order. -/
def others (l : Location) (key : String) : Url.Form.Pairs :=
  l.pairs.filter (·.1 != key)

/-- The pairs that are for the filter. -/
def filterPairs (l : Location) : Url.Form.Pairs :=
  l.pairs.filter (·.1 == filterKey)

/-- Where no pair has the key, nothing is before the first one that has it, and otherwise that pair and what
surrounds it are left. -/
theorem set_cases (l : Location) (key value : String) :
    (l.others key = l.pairs ∧ (l.set key value).pairs = l.pairs ++ [(key, value)]) ∨
      ∃ before after old, l.pairs = before ++ (key, old) :: after ∧ (∀ p ∈ before, p.1 ≠ key) ∧
        (l.set key value).pairs = before ++ (key, value) :: after.filter (·.1 != key) := by
  unfold set others
  split
  · rename_i h
    rw [List.dropWhile_eq_nil_iff] at h
    exact .inl ⟨List.filter_eq_self.mpr h, rfl⟩
  · rename_i hd rest h
    refine .inr ⟨l.pairs.takeWhile (·.1 != key), rest, hd.2, ?_, ?_, rfl⟩
    · have hk : hd.1 = key := by
        have := List.head_dropWhile_not (p := fun p : String × String => p.1 != key) (l := l.pairs) (by simp [h])
        simpa [h] using this
      rw [← hk, ← h, hk, List.takeWhile_append_dropWhile]
    · intro p hp
      simpa using List.mem_takeWhile_imp hp

theorem others_set (l : Location) (key value : String) : (l.set key value).others key = l.others key := by
  rcases set_cases l key value with ⟨_, h⟩ | ⟨before, after, old, hl, _, h⟩
  · simp [others, h]
  · simp [others, h, hl]

theorem others_remove (l : Location) (key : String) : (l.remove key).others key = l.others key := by
  simp [others, remove]

@[simp] theorem set_path (l : Location) (key value : String) : (l.set key value).path = l.path := by
  unfold set
  split <;> rfl

/-- Setting a key leaves one pair of it. -/
theorem set_perm (l : Location) (key value : String) :
    (l.set key value).pairs.Perm ((key, value) :: l.others key) := by
  rcases set_cases l key value with ⟨ho, h⟩ | ⟨before, after, old, hl, hb, h⟩
  · rw [h, ho]
    exact List.perm_append_singleton _ _
  · have hf : before.filter (·.1 != key) = before := List.filter_eq_self.mpr (by simpa using hb)
    rw [h, others, hl]
    simp only [List.filter_append, hf, List.filter_cons, bne_self_eq_false, Bool.false_eq_true, if_false]
    exact List.perm_middle

private theorem lookup_absent {pairs : Url.Form.Pairs} (h : ∀ p ∈ pairs, p.1 ≠ key) :
    pairs.lookup key = none :=
  List.lookup_eq_none_iff.mpr fun p hp => bne_iff_ne.mpr (h p hp).symm

theorem ne_of_mem_others {p : String × String} (h : p ∈ l.others key) : p.1 ≠ key :=
  bne_iff_ne.mp (List.mem_filter.mp h).2

theorem get?_set (l : Location) (key value : String) : (l.set key value).get? key = some value := by
  rcases set_cases l key value with ⟨ho, h⟩ | ⟨before, after, old, _, hb, h⟩
  · have hn : l.pairs.lookup key = none := lookup_absent fun p hp => ne_of_mem_others (ho ▸ hp)
    simp [get?, h, List.lookup_append, hn]
  · simp [get?, h, List.lookup_append, lookup_absent hb]

theorem get?_remove (l : Location) (key : String) : (l.remove key).get? key = none :=
  lookup_absent fun _ hp => ne_of_mem_others hp

/-- The filter is read back as it was set. -/
@[simp] theorem filter_setFilter (l : Location) (value : String) : (l.setFilter value).filter = value := by
  unfold setFilter
  split
  · rename_i h
    rw [filter, get?_remove, Option.getD_none, String.isEmpty_iff.mp h]
  · rw [filter, get?_set, Option.getD_some]

/-- An edit of the filter leaves all other pairs as they are. -/
@[simp] theorem others_setFilter (l : Location) (value : String) :
    (l.setFilter value).others filterKey = l.others filterKey := by
  unfold setFilter
  split
  · exact others_remove l filterKey
  · exact others_set l filterKey value

@[simp] theorem setFilter_path (l : Location) (value : String) : (l.setFilter value).path = l.path := by
  unfold setFilter
  split
  · rfl
  · exact set_path l filterKey value

/-- The pairs of other keys with one for the filter, unless it is empty. -/
def withFilter (others : Url.Form.Pairs) (filter : String) : Url.Form.Pairs :=
  if filter = "" then others else (filterKey, filter) :: others

theorem setFilter_perm (l : Location) (value : String) :
    (l.setFilter value).pairs.Perm (withFilter (l.others filterKey) value) := by
  unfold setFilter withFilter
  by_cases h : value = ""
  · simp [h, remove, others]
  · rw [if_neg (by simpa [String.isEmpty_iff] using h), if_neg h]
    exact set_perm l filterKey value

/-- No pair is for the filter, or exactly one is, and its value is not empty. -/
def OneFilter (l : Location) : Prop :=
  l.pairs.filter (·.1 == filterKey) = [] ∨
    ∃ value, value ≠ "" ∧ l.pairs.filter (·.1 == filterKey) = [(filterKey, value)]

/-- The first pair of a key counts. -/
theorem get?_eq_head? (l : Location) (key : String) :
    l.get? key = (l.pairs.filter (·.1 == key)).head?.map Prod.snd := by
  unfold get?
  induction l.pairs with
  | nil => rfl
  | cons p pairs ih =>
    obtain ⟨k, value⟩ := p
    by_cases h : k = key
    · subst h
      simp
    · rw [List.lookup_cons, List.filter_cons, if_neg (by simpa using h), ← ih, beq_false_of_ne (Ne.symm h)]

theorem OneFilter.perm (h : l.OneFilter) : l.pairs.Perm (withFilter (l.others filterKey) l.filter) := by
  have split : (l.pairs.filter (·.1 == filterKey) ++ l.others filterKey).Perm l.pairs := by
    simpa [others, bne] using List.filter_append_perm (fun p : String × String => p.1 == filterKey) l.pairs
  rcases h with h | ⟨value, hv, h⟩
  · have hf : l.filter = "" := by simp [filter, get?_eq_head?, h]
    rw [h, List.nil_append] at split
    rw [hf, withFilter, if_pos rfl]
    exact split.symm
  · have hf : l.filter = value := by simp [filter, get?_eq_head?, h]
    rw [h] at split
    rw [hf, withFilter, if_neg hv]
    exact split.symm

/-- The pairs are those of the other keys, with one for the filter. -/
structure Carries (l : Location) (others : Url.Form.Pairs) : Prop where
  others_eq : l.others filterKey = others
  perm : l.pairs.Perm (withFilter others l.filter)

theorem OneFilter.carries (h : l.OneFilter) : l.Carries (l.others filterKey) :=
  ⟨rfl, h.perm⟩

theorem Carries.setFilter {others : Url.Form.Pairs} (h : l.Carries others) (value : String) :
    (l.setFilter value).Carries others := by
  refine ⟨by rw [others_setFilter, h.others_eq], ?_⟩
  rw [filter_setFilter, ← h.others_eq]
  exact setFilter_perm l value

end ProxyMonitor.Location
