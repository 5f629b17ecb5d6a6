import Mathlib.Data.Option.Basic
import ProxyMonitor.Json.Decode

/-! When the parts of a record are found, by the names of its members or by their places, and what they are. -/
namespace ProxyMonitor.Json.Decoder
variable {names : List String} {name : String} {depth : Nat}

theorem members_append (first second : List (List StringUnit × Doc)) :
    members (first ++ second) = (members first).bind fun a => (members second).map fun b => a ++ b := by
  unfold members
  rw [List.mapM_append]
  cases List.mapM (m := Option) _ first with
  | none => rfl
  | some a => cases List.mapM (m := Option) _ second <;> rfl

theorem members_first (key : List StringUnit) (d : Doc) (rest : List (List StringUnit × Doc)) :
    members ((key, d) :: rest) =
      (StringUnit.decode key).bind fun name => (members rest).map ((String.ofList name, d) :: ·) := by
  unfold members
  rw [List.mapM_cons]
  cases named : StringUnit.decode key with
  | none => simp only [named]; rfl
  | some name =>
    simp only [named, Option.map_some, Option.bind_eq_bind, Option.bind_some]
    cases List.mapM (m := Option) _ rest <;> rfl

theorem members_cons {key : List StringUnit} (d : Doc) (rest : List (List StringUnit × Doc))
    (named : StringUnit.decode key = some name.toList) :
    members ((key, d) :: rest) = (members rest).map ((name, d) :: ·) := by
  rw [members_first, named, Option.bind_some, String.ofList_toList]

theorem fields_object {written : List (List StringUnit × Doc)} {parts : Nat × (String → Option Doc)} :
    fields names depth (.object written) = some parts ↔
      ∃ inner given, enter depth = some inner ∧ members written = some given ∧
        (∀ n ∈ names, given.countP (·.1 == n) ≤ 1) ∧
        parts = (inner, fun n => if n ∈ names then given.lookup n else none) := by
  simp only [fields, Option.bind_eq_bind, Option.bind_eq_some_iff, Option.guard_eq_some', List.all_eq_true, decide_eq_true_eq,
    Option.pure_def, Option.some.injEq]
  constructor
  · rintro ⟨inner, deep, given, hgiven, _, unique, rfl⟩
    exact ⟨inner, given, deep, hgiven, unique, rfl⟩
  · rintro ⟨inner, given, deep, hgiven, unique, rfl⟩
    exact ⟨inner, deep, given, hgiven, (), unique, rfl⟩

theorem fields_array {items : List Doc} {parts : Nat × (String → Option Doc)} :
    fields names depth (.array items) = some parts ↔
      ∃ inner, enter depth = some inner ∧ items.length ≤ names.length ∧
        parts = (inner, fun n => if n ∈ names then items[names.idxOf n]? else none) := by
  simp only [fields, Option.bind_eq_bind, Option.bind_eq_some_iff, Option.guard_eq_some', Option.pure_def, Option.some.injEq]
  constructor
  · rintro ⟨inner, deep, _, short, rfl⟩
    exact ⟨inner, deep, short, rfl⟩
  · rintro ⟨inner, deep, short, rfl⟩
    exact ⟨inner, deep, (), short, rfl⟩

theorem nullable_of_ne_null {α : Type} {item : Decoder α} {d : Doc} (given : d ≠ .null) :
    nullable item depth d = (item depth d).map some := by
  cases d with
  | null => exact absurd rfl given
  | _ => rfl

theorem listOrNull_of_ne_null {α : Type} {item : Decoder α} {d : Doc} (given : d ≠ .null) :
    listOrNull item depth d = list item depth d := by
  rw [listOrNull, nullable_of_ne_null given, Option.map_map]
  exact Option.map_id_apply

end ProxyMonitor.Json.Decoder
