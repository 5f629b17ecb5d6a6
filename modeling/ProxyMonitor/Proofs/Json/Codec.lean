import Mathlib.Data.List.Nodup
import ProxyMonitor.Proofs.Json.Fields
import ProxyMonitor.Proofs.Json.Written
import ProxyMonitor.Proofs.Yields

/-! Values are decoded from their documents: numbers, texts, lists, and the fields of an object by name. -/
namespace ProxyMonitor.Json
open ProxyMonitor.Text

namespace Number

theorem ofLiteral_natural {n : Nat} (fits : n ≤ maxNatural) : ofLiteral (Token.literal n) = some (.natural n) := by
  have value : natOfDigits (digits n) = n := natOfDigits_digits n
  have literal : Token.literal n = ⟨false, digits n, [], none⟩ := rfl
  simp [literal, ofLiteral, value, fits]

theorem ofLiteral_negative {n : Nat} (fits : n < 0x8000000000000000) :
    ofLiteral (Token.literal (.negSucc n)) = some (.integer (.negSucc n)) := by
  have value : natOfDigits (digits (n + 1)) = n + 1 := natOfDigits_digits (n + 1)
  have small : n + 1 ≤ maxNatural := by unfold maxNatural; omega
  have inside : ¬ (n + 1 = 0 ∨ 0x8000000000000000 < n + 1) := by omega
  simp only [Token.literal, ofLiteral, value, small, and_self, if_true, Bool.not_true, Bool.false_eq_true, if_false,
    inside, Int.negSucc_eq]
  rfl

end Number

namespace Decoder
variable {α : Type} {depth : Nat}

theorem natural_nat {n bound : Nat} (fits : n ≤ maxNatural) (below : n < bound) :
    natural bound depth (Value.nat n).doc = some n := by
  have read : number depth (Value.nat n).doc = some (.natural n) := Number.ofLiteral_natural fits
  simp [natural, read, below]

theorem integer_int {i : Int} (least : minInteger ≤ i) (most : i ≤ maxInteger) :
    integer depth (Value.int i).doc = some i := by
  cases i with
  | ofNat n =>
    have most : (n : Int) ≤ maxInteger := most
    have fits : n ≤ maxNatural := by
      simp only [maxInteger, maxNatural] at most ⊢
      omega
    have read : number depth (Value.int (.ofNat n)).doc = some (.natural n) := Number.ofLiteral_natural fits
    simp only [integer, read, Option.bind_eq_bind, Option.bind_some, most, if_true]
    rfl
  | negSucc n =>
    have fits : n < 0x8000000000000000 := by
      simp only [minInteger] at least
      omega
    have read : number depth (Value.int (.negSucc n)).doc = some (.integer (.negSucc n)) :=
      Number.ofLiteral_negative fits
    simp [integer, read]

theorem itemDocs_eq (items : List Value) : Value.itemDocs items = items.map Value.doc := by
  induction items with
  | nil => rfl
  | cons v items ih => rw [Value.itemDocs, ih, List.map_cons]

theorem members_memberDocs (members : List (String × Value)) :
    Decoder.members (Value.memberDocs members) = some (members.map fun (key, v) => (key, v.doc)) := by
  induction members with
  | nil => rfl
  | cons m members ih =>
    obtain ⟨key, v⟩ := m
    rw [Value.memberDocs, members_cons v.doc _ (StringUnit.decode_map_ofChar _), ih]
    rfl

theorem lookup_map (members : List (String × Value)) (name : String) :
    (members.map fun (key, v) => (key, v.doc)).lookup name = (members.lookup name).map Value.doc := by
  induction members with
  | nil => rfl
  | cons m members ih =>
    obtain ⟨key, v⟩ := m
    simp only [List.map_cons, List.lookup_cons]
    cases name == key with
    | true => rfl
    | false => exact ih

/-- The documents of an object's members whose names are known. -/
def found (names : List String) (members : List (String × Value)) (name : String) : Option Doc :=
  if name ∈ names then (members.lookup name).map Value.doc else none

/-- The members of an object are found under their names. -/
theorem fields_doc {names : List String} {members : List (String × Value)} (deep : 2 ≤ depth)
    (nodup : (members.map Prod.fst).Nodup) :
    fields names depth (Value.object members).doc = some (depth - 1, found names members) := by
  refine fields_object.mpr ⟨depth - 1, _, if_pos deep, members_memberDocs members, fun name _ => ?_, ?_⟩
  · have once := List.nodup_iff_count_le_one.mp nodup name
    rw [List.count, List.countP_map] at once
    rw [List.countP_map]
    exact once
  · simp only [lookup_map]
    rfl

/-- An object is entered, and its members are read on from there. -/
theorem read_object {names : List String} {members : List (String × Value)} {nested : Nat}
    {next : Nat × (String → Option Doc) → Option α} {a : α} (nodup : (members.map Prod.fst).Nodup)
    (deep : nested + 1 < depth) (read : ∀ inner, nested < inner → next (inner, found names members) = some a) :
    (fields names depth (Value.object members).doc >>= next) = some a :=
  Option.bind_eq_some_iff.mpr ⟨_, fields_doc (by omega) nodup, read (depth - 1) (by omega)⟩

/-- What is written of `a` has no double in it, and `a` is read from it wherever `nested` containers may be entered. -/
structure Survives (nested : Nat) (item : Decoder α) (write : α → Value) (a : α) : Prop where
  exact : (write a).Exact
  read : ∀ ⦃depth⦄, nested < depth → item depth (write a).doc = some a

theorem survives_bool {nested : Nat} (b : Bool) : Survives nested bool .bool b where
  exact := .bool b
  read _ _ := rfl

theorem survives_text {nested : Nat} (s : String) : Survives nested text .text s where
  exact := .text s
  read depth _ := by rw [Value.doc, text, StringUnit.decode_map_ofChar, Option.map_some, String.ofList_toList]

section Containers
variable {nested : Nat} {item : Decoder α} {write : α → Value}

theorem Survives.list {items : List α} (each : ∀ a ∈ items, Survives nested item write a) :
    Survives (nested + 1) (list item) (.list write) items where
  exact := by
    refine .array fun v hv => ?_
    obtain ⟨a, ha, rfl⟩ := List.mem_map.mp hv
    exact (each a ha).exact
  read depth deep := by
    have all : (items.map fun a => (write a).doc).mapM (item (depth - 1)) = some items := by
      induction items with
      | nil => rfl
      | cons a items ih =>
        have first := (each a List.mem_cons_self).read (by omega : nested < depth - 1)
        have rest := ih fun b hb => each b (List.mem_cons_of_mem _ hb)
        rw [List.map_cons, List.mapM_cons, first, rest]
        rfl
    rw [Value.list, Value.doc, itemDocs_eq, List.map_map, Decoder.list, enter, if_pos (by omega)]
    exact all

theorem Survives.nullable {a : Option α} (each : ∀ b ∈ a, Survives nested item write b)
    (shown : ∀ b, (write b).doc ≠ .null) : Survives nested (nullable item) (.optional write) a := by
  cases a with
  | none => exact ⟨.null, fun _ _ => rfl⟩
  | some b =>
    have inner := each b rfl
    refine ⟨inner.exact, fun depth deep => ?_⟩
    rw [Value.optional, nullable_of_ne_null (shown b), inner.read deep, Option.map_some]

theorem Survives.listOrNull {items : List α} (each : ∀ a ∈ items, Survives nested item write a) :
    Survives (nested + 1) (listOrNull item) (.list write) items where
  exact := (list each).exact
  read depth deep := by
    have given : (Value.list write items).doc ≠ .null := by
      intro null
      rw [Value.list, Value.doc] at null
      cases null
    rw [listOrNull_of_ne_null given, (list each).read deep]

variable {a : α} {names : List String} {members : List (String × Value)} {name : String} {β : Type}
  {next : α → Option β} {b : β}

/-- A record is read on after a field that was written. -/
theorem Survives.field (survives : Survives nested item write a) (deep : nested < depth) {default : α}
    (given : found names members name = some (write a).doc) (rest : next a = some b) :
    (optional (depth, found names members) name default item >>= next) = some b := by
  have value : optional (depth, found names members) name default item = some a := by
    simp only [optional, given, survives.read deep]
  exact Option.bind_eq_some_iff.mpr ⟨a, value, rest⟩

theorem Survives.requiredField (survives : Survives nested item write a) (deep : nested < depth)
    (given : found names members name = some (write a).doc) (rest : next a = some b) :
    (required (depth, found names members) name item >>= next) = some b := by
  have value : required (depth, found names members) name item = some a := by
    simp only [required, given, Option.bind_some, survives.read deep]
  exact Option.bind_eq_some_iff.mpr ⟨a, value, rest⟩

/-- A record is read on with the default of a field that was left out. -/
theorem absentField {parts : Nat × (String → Option Doc)} {default : α} (absent : parts.2 name = none)
    (rest : next default = some b) : (optional parts name default item >>= next) = some b := by
  have value : optional parts name default item = some default := by
    simp only [optional, absent]
  exact Option.bind_eq_some_iff.mpr ⟨default, value, rest⟩

end Containers

/-- Whatever is read is written so that it survives. -/
def Lossless (nested : Nat) (item : Decoder α) (write : α → Value) : Prop :=
  ∀ depth d, Yields (Survives nested item write) (item depth d)

section Yields
variable {p : α → Prop} {item : Decoder α} (each : ∀ depth d, Yields p (item depth d))
include each

theorem list_yields (depth : Nat) (d : Doc) : Yields (fun items => ∀ a ∈ items, p a) (list item depth d) := by
  cases d with
  | array parts => exact .bind fun inner _ => .mapM (each inner) parts
  | _ => exact nofun

theorem nullable_yields (depth : Nat) (d : Doc) : Yields (fun found => ∀ a ∈ found, p a) (nullable item depth d) := by
  by_cases null : d = .null
  · rw [null]
    rintro _ ⟨⟩
    nofun
  · rw [nullable_of_ne_null null]
    refine .map fun a ha b hb => ?_
    cases hb
    exact each depth d a ha

theorem listOrNull_yields (depth : Nat) (d : Doc) : Yields (fun items => ∀ a ∈ items, p a) (listOrNull item depth d) := by
  by_cases null : d = .null
  · rw [null]
    rintro _ ⟨⟩
    nofun
  · rw [listOrNull_of_ne_null null]
    exact list_yields each depth d

theorem optional_yields {default : α} (given : p default) (parts : Nat × (String → Option Doc)) (name : String) :
    Yields p (optional parts name default item) := by
  unfold optional
  split
  · rintro _ ⟨⟩
    exact given
  · exact each _ _

end Yields

end Decoder
end ProxyMonitor.Json
