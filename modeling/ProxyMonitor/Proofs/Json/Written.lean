import ProxyMonitor.Proofs.Json.Parsed
import ProxyMonitor.Proofs.Text.Utf8

/-! Both texts of a value without doubles spell its document, and so they are read as it. -/
namespace ProxyMonitor.Json
open ProxyMonitor.Text

namespace Token

theorem endsNumber_nil : EndsNumber [] :=
  nofun

theorem endsNumber_cons {c : Char} {text : List Char} (h : extendsNumber c = false) : EndsNumber (c :: text) := by
  rintro _ ⟨⟩
  exact h

theorem EndsNumber.blanks {space text : List Char} (ends : EndsNumber text) (blank : ∀ c ∈ space, isSpace c = true) :
    EndsNumber (space ++ text) := by
  cases space with
  | nil => exact ends
  | cons c space =>
    apply endsNumber_cons
    rcases eq_of_isSpace (blank c List.mem_cons_self) with rfl | rfl | rfl | rfl <;> rfl

end Token

namespace Value
open Token

mutual
/-- The document that a value is written as. Doubles have none that is given here. -/
def doc : Value → Doc
  | .null | .double _ => .null
  | .bool b => .bool b
  | .int i => .number (literal i)
  | .text s => .text (s.toList.map .ofChar)
  | .array items => .array (itemDocs items)
  | .object members => .object (memberDocs members)
def itemDocs : List Value → List Doc
  | [] => []
  | v :: rest => doc v :: itemDocs rest
def memberDocs : List (String × Value) → List (List StringUnit × Doc)
  | [] => []
  | (key, v) :: rest => (key.toList.map .ofChar, doc v) :: memberDocs rest
end

/-- There is no double in the value. -/
inductive Exact : Value → Prop where
  | null : Exact .null
  | bool (b : Bool) : Exact (.bool b)
  | int (i : Int) : Exact (.int i)
  | text (s : String) : Exact (.text s)
  | array {items : List Value} : (∀ v ∈ items, Exact v) → Exact (.array items)
  | object {members : List (String × Value)} : (∀ m ∈ members, Exact m.2) → Exact (.object members)

/-- What is written of a value spells its document, wherever it stands. -/
def Spells (write : Value → List Char) (v : Value) : Prop :=
  ∀ ⦃tokens rest⦄, Spelled tokens rest → EndsNumber rest → Spelled (v.doc.tokens ++ tokens) (write v ++ rest)

theorem intercalate_cons (separator part : List Char) (parts : List (List Char)) :
    separator.intercalate (part :: parts) = part ++ parts.flatMap (separator ++ ·) := by
  induction parts generalizing part with
  | nil => simp
  | cons second parts ih => simp [List.intercalate_cons_cons, ih]

section Layout
variable {write : Value → List Char} {space gap back : List Char} {tokens : List Token} {rest : List Char}

theorem spelled_laterItems (blank : ∀ c ∈ space, isSpace c = true) {items : List Value}
    (spells : ∀ v ∈ items, Spells write v) (later : Spelled tokens rest) (ends : EndsNumber rest) :
    Spelled (Doc.laterItemTokens (itemDocs items) ++ tokens)
      ((items.map write).flatMap (',' :: space ++ ·) ++ rest) := by
  induction items with
  | nil => exact later
  | cons v items ih =>
    have after := ih fun w hw => spells w (List.mem_cons_of_mem _ hw)
    have stop : EndsNumber ((items.map write).flatMap (',' :: space ++ ·) ++ rest) := by
      cases items with
      | nil => exact ends
      | cons w items => exact endsNumber_cons rfl
    have here := (spells v List.mem_cons_self after stop).blanks blank
    have comma := Spelled.fixed (t := .comma) (w := [',']) (by decide) here
    simpa [itemDocs, Doc.laterItemTokens] using comma

theorem spelled_member (blank : ∀ c ∈ gap, isSpace c = true) (key : String) {v : Value} (spells : Spells write v)
    (later : Spelled tokens rest) (ends : EndsNumber rest) :
    Spelled (.text (key.toList.map .ofChar) :: .colon :: (v.doc.tokens ++ tokens))
      (quoted key ++ ':' :: gap ++ write v ++ rest) := by
  have value := (spells later ends).blanks blank
  have colon := Spelled.fixed (t := .colon) (w := [':']) (by decide) value
  have name := Spelled.token (begins_quoted key _) colon
  simpa using name

theorem spelled_laterMembers (blank : ∀ c ∈ space, isSpace c = true) (apart : ∀ c ∈ gap, isSpace c = true)
    {members : List (String × Value)} (spells : ∀ m ∈ members, Spells write m.2) (later : Spelled tokens rest)
    (ends : EndsNumber rest) :
    Spelled (Doc.laterMemberTokens (memberDocs members) ++ tokens)
      ((members.map fun (key, v) => quoted key ++ ':' :: gap ++ write v).flatMap (',' :: space ++ ·) ++ rest) := by
  induction members with
  | nil => exact later
  | cons m members ih =>
    obtain ⟨key, v⟩ := m
    have after := ih fun m hm => spells m (List.mem_cons_of_mem _ hm)
    have stop : EndsNumber
        ((members.map fun (key, v) => quoted key ++ ':' :: gap ++ write v).flatMap (',' :: space ++ ·) ++ rest) := by
      cases members with
      | nil => exact ends
      | cons m members => exact endsNumber_cons rfl
    have here := (spelled_member apart key (spells _ List.mem_cons_self) after stop).blanks blank
    have comma := Spelled.fixed (t := .comma) (w := [',']) (by decide) here
    simpa [memberDocs, Doc.laterMemberTokens] using comma

/-- A list with the same blanks before each item and others after the last. -/
theorem spelled_array (blank : ∀ c ∈ space, isSpace c = true) (last : ∀ c ∈ back, isSpace c = true) {v : Value}
    {items : List Value} (spells : ∀ w ∈ v :: items, Spells write w) (later : Spelled tokens rest) :
    Spelled ((Value.array (v :: items)).doc.tokens ++ tokens)
      ('[' :: space ++ (',' :: space).intercalate ((v :: items).map write) ++ back ++ ']' :: rest) := by
  have close := (Spelled.fixed (t := .closeBracket) (w := [']']) (by decide) later).blanks last
  have stop : EndsNumber (back ++ ']' :: rest) := (endsNumber_cons rfl).blanks last
  have others := spelled_laterItems blank (fun w hw => spells w (List.mem_cons_of_mem _ hw)) close stop
  have stop : EndsNumber ((items.map write).flatMap (',' :: space ++ ·) ++ (back ++ ']' :: rest)) := by
    cases items with
    | nil => exact stop
    | cons w items => exact endsNumber_cons rfl
  have first := (spells v List.mem_cons_self others stop).blanks blank
  have opened := Spelled.fixed (t := .openBracket) (w := ['[']) (by decide) first
  simpa [doc, itemDocs, Doc.tokens, Doc.itemTokens, intercalate_cons] using opened

theorem spelled_object (blank : ∀ c ∈ space, isSpace c = true) (apart : ∀ c ∈ gap, isSpace c = true)
    (last : ∀ c ∈ back, isSpace c = true) {key : String} {v : Value} {members : List (String × Value)}
    (spells : ∀ m ∈ (key, v) :: members, Spells write m.2) (later : Spelled tokens rest) :
    Spelled ((Value.object ((key, v) :: members)).doc.tokens ++ tokens)
      ('\x7b' :: space ++ (',' :: space).intercalate
        (((key, v) :: members).map fun (key, v) => quoted key ++ ':' :: gap ++ write v) ++ back ++ '\x7d' :: rest) := by
  have close := (Spelled.fixed (t := .closeBrace) (w := ['\x7d']) (by decide) later).blanks last
  have stop : EndsNumber (back ++ '\x7d' :: rest) := (endsNumber_cons rfl).blanks last
  have others := spelled_laterMembers blank apart (fun m hm => spells m (List.mem_cons_of_mem _ hm)) close stop
  have stop : EndsNumber ((members.map fun (key, v) => quoted key ++ ':' :: gap ++ write v).flatMap
      (',' :: space ++ ·) ++ (back ++ '\x7d' :: rest)) := by
    cases members with
    | nil => exact stop
    | cons m members => exact endsNumber_cons rfl
  have first := (spelled_member apart key (spells _ List.mem_cons_self) others stop).blanks blank
  have opened := Spelled.fixed (t := .openBrace) (w := ['\x7b']) (by decide) first
  simpa [doc, memberDocs, Doc.tokens, Doc.memberTokens, intercalate_cons] using opened

end Layout

theorem compactItems_eq (items : List Value) : compactItems items = items.map compact := by
  induction items with
  | nil => rfl
  | cons v items ih => rw [compactItems, ih, List.map_cons]

theorem compactMembers_eq (members : List (String × Value)) :
    compactMembers members = members.map fun (key, v) => quoted key ++ ':' :: [] ++ compact v := by
  induction members with
  | nil => rfl
  | cons m members ih => simp [compactMembers, ih]

theorem indentedItems_eq (level : Nat) (items : List Value) :
    indentedItems level items = items.map (indented (level + 1)) := by
  induction items with
  | nil => rfl
  | cons v items ih => rw [indentedItems, ih, List.map_cons]

theorem indentedMembers_eq (level : Nat) (members : List (String × Value)) :
    indentedMembers level members =
      members.map fun (key, v) => quoted key ++ ':' :: [' '] ++ indented (level + 1) v := by
  induction members with
  | nil => rfl
  | cons m members ih => simp [indentedMembers, ih]

/-- An empty list or object is two characters in both texts. -/
theorem spelled_empty {v : Value} (empty : v = .array [] ∨ v = .object []) {tokens : List Token} {rest : List Char}
    (later : Spelled tokens rest) : Spelled (v.doc.tokens ++ tokens) (compact v ++ rest) := by
  rcases empty with rfl | rfl
  · have close := Spelled.fixed (t := .closeBracket) (w := [']']) (by decide) later
    exact Spelled.fixed (t := .openBracket) (w := ['[']) (by decide) close
  · have close := Spelled.fixed (t := .closeBrace) (w := ['\x7d']) (by decide) later
    exact Spelled.fixed (t := .openBrace) (w := ['\x7b']) (by decide) close

theorem Exact.spells_compact {v : Value} (exact : v.Exact) : Spells compact v := by
  have none : ∀ c ∈ ([] : List Char), isSpace c = true := nofun
  induction exact with
  | null => exact fun _ _ later _ => .fixed (w := "null".toList) (by decide) later
  | bool b => cases b <;> exact fun _ _ later _ => .fixed (by decide) later
  | int i => exact fun _ _ later ends => .token (begins_integer i ends) later
  | text s => exact fun _ _ later _ => .token (begins_quoted s _) later
  | @array items _ ih =>
    intro tokens rest later _
    cases items with
    | nil => exact spelled_empty (.inl rfl) later
    | cons v items =>
      have spelled := spelled_array none none ih later
      simpa [compact, compactItems_eq] using spelled
  | @object members _ ih =>
    intro tokens rest later _
    cases members with
    | nil => exact spelled_empty (.inr rfl) later
    | cons m members =>
      have spelled := spelled_object none none none ih later
      simpa [compact, compactMembers_eq] using spelled

theorem isSpace_of_mem_newline (level : Nat) : ∀ c ∈ newline level, isSpace c = true := by
  intro c h
  rcases List.mem_cons.mp h with rfl | h
  · rfl
  · rw [List.eq_of_mem_replicate h]
    rfl

theorem Exact.spells_indented {v : Value} (exact : v.Exact) (level : Nat) : Spells (indented level) v := by
  induction exact generalizing level with
  | null => exact Exact.null.spells_compact
  | bool b => exact (Exact.bool b).spells_compact
  | int i => exact (Exact.int i).spells_compact
  | text s => exact (Exact.text s).spells_compact
  | @array items _ ih =>
    intro tokens rest later _
    cases items with
    | nil => exact spelled_empty (.inl rfl) later
    | cons v items =>
      have spelled := spelled_array (isSpace_of_mem_newline (level + 1)) (isSpace_of_mem_newline level)
        (fun w hw => ih w hw (level + 1)) later
      simpa [indented, indentedItems_eq, block] using spelled
  | @object members _ ih =>
    intro tokens rest later _
    cases members with
    | nil => exact spelled_empty (.inr rfl) later
    | cons m members =>
      have one : ∀ c ∈ [' '], isSpace c = true := List.forall_mem_singleton.mpr rfl
      have spelled := spelled_object (isSpace_of_mem_newline (level + 1)) one (isSpace_of_mem_newline level)
        (fun m hm => ih m hm (level + 1)) later
      simpa [indented, indentedMembers_eq, block] using spelled

/-- Both texts of a value are read as its document, whatever blanks come after. -/
theorem Exact.read_text {v : Value} (exact : v.Exact) {after : String} (blank : ∀ c ∈ after.toList, isSpace c = true) :
    Doc.read (Utf8.ofString (v.toText ++ after)) = some v.doc ∧
      Doc.read (Utf8.ofString (v.toPrettyText ++ after)) = some v.doc := by
  have read {text : List Char} (spelled : Spelled v.doc.tokens (text ++ after.toList)) :
      Doc.read (Utf8.ofString (String.ofList text ++ after)) = some v.doc := by
    rw [Doc.read, Utf8.ofString, String.toList_append, String.toList_ofList, Utf8.scan_encode, scan_of_spelled spelled,
      Option.bind_some, Doc.ofTokens?_tokens]
  have last : Spelled [] after.toList := by simpa using Spelled.nil.blanks blank
  have ends : EndsNumber after.toList := by simpa using endsNumber_nil.blanks blank
  have compactly := exact.spells_compact last ends
  have indentedly := exact.spells_indented 0 last ends
  rw [List.append_nil] at compactly indentedly
  exact ⟨read compactly, read indentedly⟩

end Value
end ProxyMonitor.Json
