import Mathlib.Data.List.Count
import Mathlib.Data.List.Perm.Basic
import Mathlib.Logic.Relation
import ProxyMonitor.Proofs.Json.Revised

/-! Documents that say the same to a decoder: members of an object stand in another order, or there are members that
the decoder does not know. -/
namespace ProxyMonitor.Json

/-- What a decoder asks for: the items of a list, the fields of a record, or no part of a leaf. -/
inductive Shape where
  | leaf
  | list (item : Shape)
  | record (names : List String) (part : String → Shape)

namespace Shape

/-- The members that are known. -/
def names : Shape → List String
  | .record names _ => names
  | .leaf | .list _ => []

/-- What is asked of the value under a key. -/
def member (key : List StringUnit) : Shape → Shape
  | .record _ part => (StringUnit.decode key).elim .leaf fun name => part (String.ofList name)
  | .leaf | .list _ => .leaf

/-- What is asked of the item at a place. -/
def item (place : Nat) : Shape → Shape
  | .record names part => names[place]?.elim .leaf part
  | .list item => item
  | .leaf => .leaf

end Shape

/-- A document and the same with one object changed: its members stand in another order, or one more is there whose name
is not known. -/
inductive Restated : Shape → Doc → Doc → Prop where
  | order {shape : Shape} {members members' : List (List StringUnit × Doc)} :
      members.Perm members' → Restated shape (.object members) (.object members')
  | unknown {shape : Shape} {before after : List (List StringUnit × Doc)} {key : List StringUnit} {name : String}
      (d : Doc) : StringUnit.decode key = some name.toList → name ∉ shape.names →
      Restated shape (.object (before ++ after)) (.object (before ++ (key, d) :: after))
  | member {shape : Shape} {before after : List (List StringUnit × Doc)} {key : List StringUnit} {d d' : Doc} :
      Restated (shape.member key) d d' →
      Restated shape (.object (before ++ (key, d) :: after)) (.object (before ++ (key, d') :: after))
  | item {shape : Shape} {before after : List Doc} {d d' : Doc} :
      Restated (shape.item before.length) d d' →
      Restated shape (.array (before ++ d :: after)) (.array (before ++ d' :: after))

namespace Decoder
variable {α β : Type} {shape : Shape} {names : List String} {part : String → Shape} {depth : Nat} {item : Decoder α}

/-- The decoder reads a document and one that restates it alike. -/
def Follows (shape : Shape) (item : Decoder α) : Prop :=
  ∀ ⦃depth d d'⦄, Restated shape d d' → item depth d' = item depth d

/-- A decoder that reads no containers has nothing to follow. -/
theorem follows_of_none (objects : ∀ depth members, item depth (.object members) = none)
    (arrays : ∀ depth items, item depth (.array items) = none) : Follows shape item := by
  intro depth d d' restated
  cases restated with
  | order | unknown | member => rw [objects, objects]
  | item => rw [arrays, arrays]

theorem Follows.list (items : ∀ place, Follows (shape.item place) item) : Follows shape (list item) := by
  intro depth d d' restated
  cases restated with
  | order | unknown | member => rfl
  | @item _ before after d d' one =>
    have same (inner : Nat) : (before ++ d' :: after).mapM (item inner) = (before ++ d :: after).mapM (item inner) := by
      rw [List.mapM_append, List.mapM_append, List.mapM_cons, List.mapM_cons, items _ one]
    simp only [Decoder.list, same]

theorem Follows.nullable (follows : Follows shape item) : Follows shape (nullable item) := by
  intro depth d d' restated
  have given : d ≠ .null ∧ d' ≠ .null := by cases restated <;> exact ⟨nofun, nofun⟩
  rw [nullable_of_ne_null given.1, nullable_of_ne_null given.2, follows restated]

theorem Follows.listOrNull (items : ∀ place, Follows (shape.item place) item) : Follows shape (listOrNull item) := by
  intro depth d d' restated
  have follows : Follows shape (Decoder.nullable (Decoder.list item)) := (Follows.list items).nullable
  rw [Decoder.listOrNull, Decoder.listOrNull, follows restated]

section Members
variable {written written' : List (List StringUnit × Doc)} {given given' : List (String × Doc)} {name : String}

/-- In another order the members have the same names, or some of them still have none. -/
theorem members_perm (perm : written.Perm written') : Option.Rel List.Perm (members written) (members written') := by
  induction perm with
  | nil => exact .some .nil
  | @cons m rest rest' _ ih =>
    obtain ⟨key, d⟩ := m
    rw [members_first, members_first]
    generalize members rest = first at ih
    generalize members rest' = second at ih
    cases StringUnit.decode key with
    | none => exact .none
    | some name =>
      cases ih with
      | none => exact .none
      | some perm => exact .some (perm.cons _)
  | swap first second rest =>
    obtain ⟨key, d⟩ := first
    obtain ⟨key', d'⟩ := second
    simp only [members_first]
    cases StringUnit.decode key with
    | none => cases StringUnit.decode key' <;> exact .none
    | some name =>
      cases StringUnit.decode key' with
      | none => exact .none
      | some name' =>
        cases members rest with
        | none => exact .none
        | some given => exact .some (.swap _ _ _)
  | @trans one two three _ _ first second =>
    generalize members one = a at first
    generalize members two = b at first second
    generalize members three = c at second
    cases first with
    | none => exact second
    | some perm =>
      cases second with
      | some perm' => exact .some (perm.trans perm')

/-- A name that is not repeated is looked up in any order. -/
theorem lookup_perm (perm : given.Perm given') (once : given.countP (·.1 == name) ≤ 1) :
    given'.lookup name = given.lookup name := by
  have first (given : List (String × Doc)) :
      given.lookup name = (given.filter (·.1 == name)).head?.map Prod.snd := by
    induction given with
    | nil => rfl
    | cons m given ih =>
      obtain ⟨other, d⟩ := m
      by_cases same : name = other
      · subst same
        simp
      · rw [List.lookup_cons, List.filter_cons_of_neg (by simpa using Ne.symm same), ← ih, beq_false_of_ne same]
  have found : (given.filter (·.1 == name)).Perm (given'.filter (·.1 == name)) := perm.filter _
  have same : given.filter (·.1 == name) = given'.filter (·.1 == name) := by
    rw [List.countP_eq_length_filter] at once
    generalize given.filter (·.1 == name) = own at found once
    match own, once with
    | [], _ => exact found.nil_eq
    | [m], _ => exact List.singleton_perm.mp found
  rw [first, first, same]

end Members

/-- The parts of two records, one of which may restate the other's. -/
structure Alike (part : String → Shape) (parts parts' : Nat × (String → Option Doc)) : Prop where
  depth : parts'.1 = parts.1
  part : ∀ name, parts'.2 name = parts.2 name ∨
    ∃ d d', parts.2 name = some d ∧ parts'.2 name = some d' ∧ Restated (part name) d d'

/-- Members that give each known name as often, and each that is not repeated the same value, or one that restates
it. -/
structure Agree (names : List String) (part : String → Shape) (given given' : List (String × Doc)) : Prop where
  count : ∀ name ∈ names, given'.countP (·.1 == name) = given.countP (·.1 == name)
  value : ∀ name ∈ names, given.countP (·.1 == name) ≤ 1 → given'.lookup name = given.lookup name ∨
    ∃ d d', given.lookup name = some d ∧ given'.lookup name = some d' ∧ Restated (part name) d d'

theorem fields_object_eq (names : List String) (depth : Nat) (written : List (List StringUnit × Doc)) :
    fields names depth (.object written) = (enter depth).bind fun inner => (members written).bind fun given =>
      if ∀ name ∈ names, given.countP (·.1 == name) ≤ 1 then
        some (inner, fun name => if name ∈ names then given.lookup name else none)
      else none := by
  simp only [fields, Option.bind_eq_bind, guard, List.all_eq_true, decide_eq_true_eq]
  congr 1
  funext inner
  congr 1
  funext given
  split <;> rfl

theorem fields_array_eq (names : List String) (depth : Nat) (items : List Doc) :
    fields names depth (.array items) = (enter depth).bind fun inner =>
      if items.length ≤ names.length then some (inner, fun name => if name ∈ names then items[names.idxOf name]? else none)
      else none := by
  simp only [fields, Option.bind_eq_bind, guard]
  congr 1
  funext inner
  split <;> rfl

theorem fields_of_agree {written written' : List (List StringUnit × Doc)}
    (found : Option.Rel (Agree names part) (members written) (members written')) (depth : Nat) :
    Option.Rel (Alike part) (fields names depth (.object written)) (fields names depth (.object written')) := by
  rw [fields_object_eq, fields_object_eq]
  cases enter depth with
  | none => exact .none
  | some inner =>
    generalize members written = first at found
    generalize members written' = second at found
    cases found with
    | none => exact .none
    | @some given given' agree =>
      have counts : (∀ name ∈ names, given'.countP (·.1 == name) ≤ 1) ↔ ∀ name ∈ names, given.countP (·.1 == name) ≤ 1 :=
        forall₂_congr fun name known => by rw [agree.count name known]
      simp only [Option.bind_some, counts]
      by_cases unique : ∀ name ∈ names, given.countP (·.1 == name) ≤ 1
      · rw [if_pos unique, if_pos unique]
        refine .some ⟨rfl, fun name => ?_⟩
        by_cases known : name ∈ names
        · simpa only [known, if_true] using agree.value name known (unique name known)
        · simp only [known, if_false, true_or]
      · rw [if_neg unique, if_neg unique]
        exact .none

theorem agree_perm {given given' : List (String × Doc)} (perm : given.Perm given') : Agree names part given given' :=
  ⟨fun _ _ => (perm.countP_eq _).symm, fun _ _ once => .inl (lookup_perm perm once)⟩

theorem agree_unknown {before after : List (String × Doc)} {name : String} (new : name ∉ names) (d : Doc) :
    Agree names part (before ++ after) (before ++ (name, d) :: after) := by
  refine ⟨fun other known => ?_, fun other known _ => .inl ?_⟩
  · have apart : name ≠ other := fun same => new (by rwa [same])
    simp [List.countP_append, apart]
  · have apart : other ≠ name := fun same => new (by rwa [← same])
    exact (@lookup_other name before after d none other apart).symm

theorem agree_member {before after : List (String × Doc)} {name : String} {d d' : Doc} (one : Restated (part name) d d') :
    Agree names part (before ++ (name, d) :: after) (before ++ (name, d') :: after) := by
  refine ⟨fun other _ => by simp [List.countP_append, List.countP_cons], fun other _ once => ?_⟩
  by_cases here : other = name
  · subst here
    obtain ⟨old, new⟩ := lookup_middle (some d') once
    exact .inr ⟨d, d', old, new, one⟩
  · exact .inl (@lookup_other name before after d (some d') other here)

/-- The decoder of a record finds the same fields in what restates it, if it finds any. -/
theorem fields_restated {d d' : Doc} (restated : Restated (.record names part) d d') (depth : Nat) :
    Option.Rel (Alike part) (fields names depth d) (fields names depth d') := by
  cases restated with
  | @order _ written written' perm =>
    refine fields_of_agree ?_ depth
    have found := members_perm perm
    generalize members written = first at found ⊢
    generalize members written' = second at found ⊢
    cases found with
    | none => exact .none
    | some perm => exact .some (agree_perm perm)
  | @unknown _ before after key name d named new =>
    refine fields_of_agree ?_ depth
    rw [members_append, members_append, members_cons d after named]
    cases members before with
    | none => exact .none
    | some first =>
      cases members after with
      | none => exact .none
      | some last => exact .some (agree_unknown new d)
  | @member _ before after key d d' one =>
    refine fields_of_agree ?_ depth
    rw [members_append, members_append, members_first, members_first]
    cases members before with
    | none => exact .none
    | some first =>
      cases named : StringUnit.decode key with
      | none => exact .none
      | some name =>
        rw [Shape.member, named] at one
        cases members after with
        | none => exact .none
        | some last => exact .some (agree_member one)
  | @item _ before after d d' one =>
    have length : (before ++ d' :: after).length = (before ++ d :: after).length := by simp
    rw [fields_array_eq, fields_array_eq, length]
    cases enter depth with
    | none => exact .none
    | some inner =>
      simp only [Option.bind_some]
      split
      · refine .some ⟨rfl, fun name => ?_⟩
        by_cases known : name ∈ names
        · simp only [known, if_true]
          by_cases here : names.idxOf name = before.length
          · have place : names[before.length]? = some name := by
              rw [← here]
              exact List.getElem?_idxOf known
            rw [Shape.item, place] at one
            exact .inr ⟨d, d', by simp [here], by simp [here], one⟩
          · exact .inl (@getElem?_other before after d (some d') nofun _ here)
        · simp only [known, if_false, true_or]
      · exact .none

/-- What reads the fields of a record alike reads records alike. -/
theorem follows_record {next : Nat × (String → Option Doc) → Option α}
    (same : ∀ parts parts', Alike part parts parts' → next parts' = next parts) :
    Follows (.record names part) fun depth d => (fields names depth d).bind next := by
  intro depth d d' restated
  have found := fields_restated restated depth
  show (fields names depth d').bind next = (fields names depth d).bind next
  generalize fields names depth d = a at found
  generalize fields names depth d' = b at found
  cases found with
  | none => rfl
  | some alike => exact same _ _ alike

namespace Alike
variable {parts parts' : Nat × (String → Option Doc)} {field : String}

theorem optional (alike : Alike part parts parts') (default : α) (follows : Follows (part field) item) :
    optional parts' field default item = Decoder.optional parts field default item := by
  rw [optional_eq_readOr, optional_eq_readOr, alike.depth]
  rcases alike.part field with same | ⟨d, d', old, new, restated⟩
  · rw [same]
  · rw [old, new]
    exact follows restated

theorem required (alike : Alike part parts parts') (follows : Follows (part field) item) :
    required parts' field item = Decoder.required parts field item := by
  rw [Decoder.required, Decoder.required, alike.depth]
  rcases alike.part field with same | ⟨d, d', old, new, restated⟩
  · rw [same]
  · rw [old, new]
    exact follows restated

end Alike

/-- However often a document is restated, forth and back, it is read alike. -/
theorem Follows.all (follows : Follows shape item) {d d' : Doc} (restated : Relation.EqvGen (Restated shape) d d') :
    item depth d' = item depth d := by
  induction restated with
  | rel _ _ one => exact follows one
  | refl => rfl
  | symm _ _ _ ih => exact ih.symm
  | trans _ _ _ _ _ first second => exact second.trans first

end Decoder
end ProxyMonitor.Json
