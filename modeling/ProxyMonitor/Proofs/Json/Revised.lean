import Mathlib.Data.List.Nodup
import ProxyMonitor.Proofs.Json.Fields

/-! Documents of which one part is written otherwise or left out, and what the decoder of a record sees of that. -/
namespace ProxyMonitor.Json

/-- What may be written in the place of a value; `none` leaves it out. -/
abbrev Change := Doc → Option Doc → Prop

/-- A record of which one field is changed. In the array form only the last one can be left out. -/
inductive Revised (names : List String) (name : String) (change : Change) : Doc → Doc → Prop where
  | member {before after : List (List StringUnit × Doc)} {key : List StringUnit} {old : Doc} {new : Option Doc} :
      StringUnit.decode key = some name.toList → change old new →
      Revised names name change (.object (before ++ (key, old) :: after))
        (.object (before ++ (new.toList.map (key, ·) ++ after)))
  | item {before after : List Doc} {old : Doc} {new : Option Doc} :
      names[before.length]? = some name → change old new → (new = none → after = []) →
      Revised names name change (.array (before ++ old :: after)) (.array (before ++ (new.toList ++ after)))

/-- A record and the same without one field. Where it has none, the two are the same. -/
inductive Without (names : List String) (name : String) : Doc → Doc → Prop where
  | removed {d d' : Doc} : Revised names name (fun _ new => new = none) d d' → Without names name d d'
  | noMember {members : List (List StringUnit × Doc)} :
      (∀ m ∈ members, StringUnit.decode m.1 ≠ some name.toList) → Without names name (.object members) (.object members)
  | noItem {items : List Doc} : items.length ≤ names.idxOf name → Without names name (.array items) (.array items)

/-- A list of which one item is changed. -/
inductive OfItem (change : Doc → Doc → Prop) : Change where
  | mk {before after : List Doc} {old new : Doc} : change old new →
      OfItem change (.array (before ++ old :: after)) (some (.array (before ++ new :: after)))

/-- A list of which the item at a place is changed. -/
inductive ItemAt (place : Nat) (change : Doc → Doc → Prop) : Change where
  | mk {before after : List Doc} {old new : Doc} : before.length = place → change old new →
      ItemAt place change (.array (before ++ old :: after)) (some (.array (before ++ new :: after)))

/-- An empty list that is left out. -/
def LeftOut : Change := fun old new => old = .array [] ∧ new = none

/-- An empty list that is written `null`. -/
def Nulled : Change := fun old new => old = .array [] ∧ new = some .null

/-- Either of them. -/
def Vacated : Change := fun old new => LeftOut old new ∨ Nulled old new

namespace Decoder
variable {names : List String} {name : String} {change : Change} {depth : Nat} {α : Type}

/-- The parts of two records are the same but for one. -/
structure Differs (name : String) (change : Change) (parts parts' : Nat × (String → Option Doc)) : Prop where
  depth : parts'.1 = parts.1
  same : ∀ other, other ≠ name → parts'.2 other = parts.2 other
  changed : ∃ old, parts.2 name = some old ∧ change old (parts'.2 name)

section Lookup
variable {before after : List (String × Doc)} {old : Doc} {new : Option Doc}

/-- Where a name occurs once, it is looked up there. -/
theorem lookup_middle (new : Option Doc) (once : (before ++ (name, old) :: after).countP (·.1 == name) ≤ 1) :
    (before ++ (name, old) :: after).lookup name = some old ∧
      (before ++ (new.toList.map (name, ·) ++ after)).lookup name = new := by
  rw [List.countP_append, List.countP_cons_of_pos (by simp)] at once
  have absent (given : List (String × Doc)) (none : given.countP (·.1 == name) = 0) : given.lookup name = .none := by
    refine List.lookup_eq_none_iff.mpr fun pair hpair => ?_
    have other := List.countP_eq_zero.mp none pair hpair
    exact bne_iff_ne.mpr fun same => other (beq_iff_eq.mpr same.symm)
  have first := absent before (by omega)
  have last := absent after (by omega)
  rw [List.lookup_append, List.lookup_append, first]
  refine ⟨by rw [List.lookup_cons_self]; rfl, ?_⟩
  cases new with
  | none => exact last
  | some d => exact congrArg (Option.or none) List.lookup_cons_self

theorem lookup_other {other : String} (ne : other ≠ name) :
    (before ++ (new.toList.map (name, ·) ++ after)).lookup other =
      (before ++ (name, old) :: after).lookup other := by
  have skip (d : Doc) (rest : List (String × Doc)) : ((name, d) :: rest).lookup other = rest.lookup other := by
    rw [List.lookup_cons, beq_false_of_ne ne]
  simp only [List.lookup_append, skip]
  cases new with
  | none => rfl
  | some d => simp [skip]

theorem countP_revised_le (other : String) :
    (before ++ (new.toList.map (name, ·) ++ after)).countP (·.1 == other) ≤
      (before ++ (name, old) :: after).countP (·.1 == other) := by
  simp only [List.countP_append, List.countP_cons]
  cases new with
  | none => simp
  | some d => simp [List.countP_cons, Nat.add_comm]

end Lookup

section Place
variable {before after : List Doc} {old : Doc} {new : Option Doc} (last : new = none → after = [])
include last

theorem getElem?_middle : (before ++ (new.toList ++ after))[before.length]? = new := by
  rw [List.getElem?_append_right (Nat.le_refl _), Nat.sub_self]
  cases new with
  | none => rw [last rfl]; rfl
  | some d => rfl

theorem getElem?_other {i : Nat} (apart : i ≠ before.length) :
    (before ++ (new.toList ++ after))[i]? = (before ++ old :: after)[i]? := by
  rcases Nat.lt_or_gt_of_ne apart with lt | gt
  · rw [List.getElem?_append_left lt, List.getElem?_append_left lt]
  · have later : ∃ j, i - before.length = j + 1 := ⟨i - before.length - 1, by omega⟩
    obtain ⟨j, hj⟩ := later
    rw [List.getElem?_append_right (Nat.le_of_lt gt), List.getElem?_append_right (Nat.le_of_lt gt), hj]
    cases new with
    | none => rw [last rfl]; rfl
    | some d => rfl

end Place

/-- The decoder of a record that has one field changed finds the other fields as they were. -/
theorem fields_revised {d d' : Doc} {parts : Nat × (String → Option Doc)} (nodup : names.Nodup) (known : name ∈ names)
    (revised : Revised names name change d d') (read : fields names depth d = some parts) :
    ∃ parts', fields names depth d' = some parts' ∧ Differs name change parts parts' := by
  cases revised with
  | @member before after key old new named changed =>
    obtain ⟨inner, given, deep, hgiven, unique, rfl⟩ := fields_object.mp read
    rw [members_append, members_cons old after named] at hgiven
    obtain ⟨first, hfirst, hgiven⟩ := Option.bind_eq_some_iff.mp hgiven
    simp only [Option.map_map, Option.map_eq_some_iff, Function.comp_apply] at hgiven
    obtain ⟨rest, hrest, rfl⟩ := hgiven
    have again : members (before ++ (new.toList.map (key, ·) ++ after)) =
        some (first ++ (new.toList.map (name, ·) ++ rest)) := by
      rw [members_append, hfirst]
      cases new with
      | none => simp [hrest]
      | some d => simp [members_cons d after named, hrest]
    refine ⟨_, fields_object.mpr ⟨inner, _, deep, again, fun n hn => ?_, rfl⟩, rfl, fun other ne => ?_, old, ?_, ?_⟩
    · exact Nat.le_trans (countP_revised_le n) (unique n hn)
    · exact congrArg (fun found => if other ∈ names then found else none) (lookup_other ne)
    · simp only [known, if_true, (lookup_middle none (unique name known)).1]
    · simp only [known, if_true, (lookup_middle new (unique name known)).2]
      exact changed
  | @item before after old new place changed last =>
    obtain ⟨inner, deep, short, rfl⟩ := fields_array.mp read
    have index : names.idxOf name = before.length := by
      rw [← (List.getElem?_eq_some_iff.mp place).2, nodup.idxOf_getElem]
    have short' : (before ++ (new.toList ++ after)).length ≤ names.length := by
      have one : new.toList.length ≤ 1 := by cases new <;> simp
      simp only [List.length_append, List.length_cons] at short ⊢
      omega
    refine ⟨_, fields_array.mpr ⟨inner, deep, short', rfl⟩, rfl, fun other ne => ?_, old, ?_, ?_⟩
    · show (if other ∈ names then _ else none) = if other ∈ names then _ else none
      split
      · rename_i hn
        have apart : names.idxOf other ≠ before.length := fun same =>
          ne ((List.idxOf_inj hn).mp (same.trans index.symm))
        exact getElem?_other last apart
      · rfl
    · simp [known, index]
    · simp only [known, if_true, index, getElem?_middle last]
      exact changed

/-- What a field is read as: a value, or what stands for one that is left out. -/
def readOr (default : α) (item : Decoder α) (depth : Nat) : Option Doc → Option α
  | none => some default
  | some d => item depth d

/-- The change makes no difference to what is read. -/
def Keeps (change : Change) (default : α) (item : Decoder α) : Prop :=
  ∀ ⦃depth old new a⦄, change old new → item depth old = some a → readOr default item depth new = some a

theorem optional_eq_readOr (parts : Nat × (String → Option Doc)) (field : String) (default : α) (item : Decoder α) :
    optional parts field default item = readOr default item parts.1 (parts.2 field) := by
  unfold optional
  cases parts.2 field <;> rfl

namespace Differs
variable {parts parts' : Nat × (String → Option Doc)} (differs : Differs name change parts parts')
include differs

theorem optional {default a : α} {item : Decoder α} {field : String} (keeps : field = name → Keeps change default item)
    (read : optional parts field default item = some a) : Decoder.optional parts' field default item = some a := by
  rw [optional_eq_readOr] at read ⊢
  by_cases here : field = name
  · obtain ⟨old, given, changed⟩ := differs.changed
    rw [here, given] at read
    rw [here, differs.depth]
    exact keeps here changed read
  · rw [differs.depth, differs.same field here]
    exact read

theorem required {a : α} {item : Decoder α} {field : String} (other : field ≠ name)
    (read : required parts field item = some a) : Decoder.required parts' field item = some a := by
  unfold Decoder.required at read ⊢
  rw [differs.depth, differs.same field other]
  exact read

/-- The rest of a record is read after a field that is read as before. -/
theorem step {β : Type} {default : α} {item : Decoder α} (keeps : Keeps change default item) {field : String}
    {next next' : α → Option β} {b : β} (rest : ∀ a, next a = some b → next' a = some b)
    (read : (Decoder.optional parts field default item).bind next = some b) :
    (Decoder.optional parts' field default item).bind next' = some b := by
  obtain ⟨a, ha, hb⟩ := Option.bind_eq_some_iff.mp read
  rw [differs.optional (fun _ => keeps) ha]
  exact rest a hb

end Differs

/-- What has no reading of an empty list does without one. -/
theorem keeps_leftOut {default : α} {item : Decoder α} (forgets : ∀ depth a, item depth (.array []) = some a → a = default) :
    Keeps LeftOut default item := by
  rintro depth old new a ⟨rfl, rfl⟩ read
  rw [forgets depth a read]
  rfl

theorem list_nil {item : Decoder α} {items : List α} (read : list item depth (.array []) = some items) : items = [] := by
  obtain ⟨_, _, none⟩ := Option.bind_eq_some_iff.mp read
  cases none
  rfl

/-- A list that is no more than one does not read `null`. -/
theorem Differs.refuses {parts parts' : Nat × (String → Option Doc)} (differs : Differs name Nulled parts parts')
    (item : Decoder α) : Decoder.optional parts' name [] (list item) = none := by
  obtain ⟨_, _, _, null⟩ := differs.changed
  rw [optional_eq_readOr, null]
  rfl

theorem listOrNull_array (item : Decoder α) (items : List Doc) :
    listOrNull item depth (.array items) = list item depth (.array items) := by
  apply listOrNull_of_ne_null
  intro null
  cases null

theorem keeps_vacated (item : Decoder α) : Keeps Vacated [] (listOrNull item) := by
  rintro depth old new items (⟨rfl, rfl⟩ | ⟨rfl, rfl⟩) read
  · rw [listOrNull_array] at read
    rw [list_nil read]
    rfl
  · rw [listOrNull_array] at read
    rw [list_nil read]
    rfl

/-- What is read of a field without the one of the name. -/
def kept (name field : String) (default value : α) : α :=
  if field = name then default else value

/-- The parts of a record and the same without one, if it was there. -/
structure Omits (name : String) (parts parts' : Nat × (String → Option Doc)) : Prop where
  depth : parts'.1 = parts.1
  same : ∀ other, other ≠ name → parts'.2 other = parts.2 other
  gone : parts'.2 name = none

theorem lookup_absent {written : List (List StringUnit × Doc)} {given : List (String × Doc)}
    (absent : ∀ m ∈ written, StringUnit.decode m.1 ≠ some name.toList) (read : members written = some given) :
    given.lookup name = none := by
  induction written generalizing given with
  | nil =>
    cases read
    rfl
  | cons m written ih =>
    obtain ⟨key, d⟩ := m
    obtain ⟨first, later⟩ := List.forall_mem_cons.mp absent
    rw [members_first] at read
    obtain ⟨chars, named, read⟩ := Option.bind_eq_some_iff.mp read
    obtain ⟨rest, hrest, rfl⟩ := Option.map_eq_some_iff.mp read
    have other : name ≠ String.ofList chars := by
      rintro rfl
      exact first (named.trans (by rw [String.toList_ofList]))
    rw [List.lookup_cons, beq_false_of_ne other]
    exact ih later hrest

/-- The decoder of a record without a field finds the other fields as they were. -/
theorem fields_without {d d' : Doc} {parts : Nat × (String → Option Doc)} (nodup : names.Nodup) (known : name ∈ names)
    (without : Without names name d d') (read : fields names depth d = some parts) :
    ∃ parts', fields names depth d' = some parts' ∧ Omits name parts parts' := by
  cases without with
  | removed revised =>
    obtain ⟨parts', read', differs⟩ := fields_revised nodup known revised read
    obtain ⟨_, _, gone⟩ := differs.changed
    exact ⟨parts', read', differs.depth, differs.same, gone⟩
  | noMember absent =>
    refine ⟨parts, read, rfl, fun _ _ => rfl, ?_⟩
    obtain ⟨_, given, _, hgiven, _, rfl⟩ := fields_object.mp read
    simp only [known, if_true, lookup_absent absent hgiven]
  | noItem short =>
    refine ⟨parts, read, rfl, fun _ _ => rfl, ?_⟩
    obtain ⟨_, _, _, rfl⟩ := fields_array.mp read
    simp only [known, if_true, List.getElem?_eq_none short]

/-- The rest of a record is read after a field that is read as its default if it is the one that is gone. -/
theorem Omits.step {parts parts' : Nat × (String → Option Doc)} (omits : Omits name parts parts') {β : Type} {default : α}
    {item : Decoder α} {field : String} {next next' : α → Option β} {b b' : β}
    (rest : ∀ a, next a = some b → next' (kept name field default a) = some b')
    (read : (optional parts field default item).bind next = some b) :
    (optional parts' field default item).bind next' = some b' := by
  obtain ⟨a, ha, hb⟩ := Option.bind_eq_some_iff.mp read
  have found : optional parts' field default item = some (kept name field default a) := by
    rw [optional_eq_readOr] at ha ⊢
    rw [omits.depth, kept]
    by_cases here : field = name
    · rw [if_pos here, here, omits.gone]
      rfl
    · rw [if_neg here, omits.same field here]
      exact ha
  rw [found]
  exact rest a hb

theorem mapM_middle {item : Doc → Option α} {before after : List Doc} {d : Doc} {items : List α} :
    (before ++ d :: after).mapM item = some items ↔ ∃ first a last, before.mapM item = some first ∧
      item d = some a ∧ after.mapM item = some last ∧ items = first ++ a :: last := by
  simp only [List.mapM_append, List.mapM_cons, Option.bind_eq_bind, Option.bind_eq_some_iff, Option.pure_def,
    Option.some.injEq]
  constructor
  · rintro ⟨first, hfirst, _, ⟨a, ha, last, hlast, rfl⟩, rfl⟩
    exact ⟨first, a, last, hfirst, ha, hlast, rfl⟩
  · rintro ⟨first, a, last, hfirst, ha, hlast, rfl⟩
    exact ⟨first, hfirst, _, ⟨a, ha, last, hlast, rfl⟩, rfl⟩

theorem listOrNull_middle {item : Decoder α} {before after : List Doc} {d : Doc} {items : List α} :
    listOrNull item depth (.array (before ++ d :: after)) = some items ↔
      ∃ inner first a last, enter depth = some inner ∧ before.mapM (item inner) = some first ∧
        item inner d = some a ∧ after.mapM (item inner) = some last ∧ items = first ++ a :: last := by
  simp only [listOrNull_array, list, Option.bind_eq_bind, Option.bind_eq_some_iff, mapM_middle]
  constructor
  · rintro ⟨inner, deep, first, a, last, read⟩
    exact ⟨inner, first, a, last, deep, read⟩
  · rintro ⟨inner, first, a, last, deep, read⟩
    exact ⟨inner, deep, first, a, last, read⟩

theorem mapM_length {item : Doc → Option α} {parts : List Doc} {items : List α} (read : parts.mapM item = some items) :
    items.length = parts.length := by
  induction parts generalizing items with
  | nil =>
    cases read
    rfl
  | cons d parts ih =>
    rw [List.mapM_cons] at read
    obtain ⟨a, _, read⟩ := Option.bind_eq_some_iff.mp read
    obtain ⟨rest, hrest, read⟩ := Option.bind_eq_some_iff.mp read
    cases read
    rw [List.length_cons, List.length_cons, ih hrest]

/-- Where the changed item is read as something else, that stands in its place among the others. -/
theorem listOrNull_itemAt {item : Decoder α} {one : Doc → Doc → Prop} {f : α → α} {place : Nat} {old : Doc} {new : Option Doc}
    {items : List α} (reads : ∀ ⦃depth d d' a⦄, one d d' → item depth d = some a → item depth d' = some (f a))
    (changed : ItemAt place one old new) (read : listOrNull item depth old = some items) :
    ∃ a, items[place]? = some a ∧ readOr [] (listOrNull item) depth new = some (items.set place (f a)) := by
  obtain ⟨rfl, changed⟩ := changed
  obtain ⟨inner, first, a, last, deep, hfirst, ha, hlast, rfl⟩ := listOrNull_middle.mp read
  rw [← mapM_length hfirst]
  refine ⟨a, by simp, listOrNull_middle.mpr ⟨inner, first, f a, last, deep, hfirst, reads changed ha, hlast, by simp⟩⟩

theorem keeps_ofItem {one : Doc → Doc → Prop} {item : Decoder α}
    (same : ∀ ⦃depth old new a⦄, one old new → item depth old = some a → item depth new = some a) :
    Keeps (OfItem one) [] (listOrNull item) := by
  rintro depth _ _ items ⟨changed⟩ read
  obtain ⟨inner, first, a, last, deep, hfirst, ha, hlast, rfl⟩ := listOrNull_middle.mp read
  exact listOrNull_middle.mpr ⟨inner, first, a, last, deep, hfirst, same changed ha, hlast, rfl⟩

end Decoder
end ProxyMonitor.Json
