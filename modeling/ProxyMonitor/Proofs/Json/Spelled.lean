import ProxyMonitor.Json.Doc
import ProxyMonitor.Json.Value
import ProxyMonitor.Proofs.Text.Digits

/-! How tokens are spelled: each by characters of its own, with blanks anywhere between two. What is spelled is scanned
as the tokens that it spells. -/
namespace ProxyMonitor.Json
open ProxyMonitor.Text

namespace StringUnit

/-- How a character is written in a string. -/
def ofChar (c : Char) : StringUnit :=
  if c ∈ ['"', '\\', '\x08', '\x0c', '\n', '\r', '\t'] then .escaped c
  else if c.toNat < 0x20 then .code c.toNat
  else .plain (some c)

private theorem bind_cons (c : Char) (text : Option (List Char)) :
    (do return c :: (← text)) = text.map (c :: ·) := by
  cases text <;> rfl

/-- A code below the surrogates stands for a character of its own. -/
theorem decode_code {n : Nat} (low : n < 0xD800) (rest : List StringUnit) :
    decode (.code n :: rest) = (decode rest).map (Char.ofNat n :: ·) := by
  have notHigh : (decide (0xD800 ≤ n) && decide (n ≤ 0xDBFF)) = false := by simp; omega
  have notLow : (decide (0xDC00 ≤ n) && decide (n ≤ 0xDFFF)) = false := by simp; omega
  have notEither : (decide (0xD800 ≤ n) && decide (n ≤ 0xDFFF)) = false := by simp; omega
  match rest with
  | [] => simp [decode, notEither]
  | .code m :: rest =>
    rw [decode, notHigh, notLow]
    exact bind_cons _ _
  | .plain c :: rest =>
    simp only [decode, notEither, Bool.false_eq_true, if_false]
    exact bind_cons _ _
  | .escaped c :: rest =>
    simp only [decode, notEither, Bool.false_eq_true, if_false]
    exact bind_cons _ _

theorem decode_ofChar (c : Char) (rest : List StringUnit) : decode (ofChar c :: rest) = (decode rest).map (c :: ·) := by
  unfold ofChar
  split
  · rw [decode]
    exact bind_cons _ _
  · split
    · rw [decode_code (by omega), Char.ofNat_toNat]
    · rw [decode]
      exact bind_cons _ _

/-- Every text is what its characters are written as. -/
theorem decode_map_ofChar (text : List Char) : decode (text.map ofChar) = some text := by
  induction text with
  | nil => rfl
  | cons c text ih => rw [List.map_cons, decode_ofChar, ih, Option.map_some]

end StringUnit

namespace Token

/-- The characters that go on with a number. -/
def extendsNumber (c : Char) : Bool :=
  isDigit c || c == '.' || c == 'e' || c == 'E'

/-- No number goes on into the text. -/
def EndsNumber (text : List Char) : Prop :=
  ∀ c, text.head? = some c → extendsNumber c = false

/-- The text `w` begins with the token, which ends where `rest` begins. -/
def Begins (t : Token) (w rest : List Char) : Prop :=
  ∃ c tail, w = c :: tail ∧ isSpace c = false ∧ first? c ((tail ++ rest).map some) = some (t, rest.map some)

/-- The text spells the tokens. -/
inductive Spelled : List Token → List Char → Prop where
  | nil : Spelled [] []
  | blank {c : Char} {tokens : List Token} {text : List Char} : isSpace c = true → Spelled tokens text →
      Spelled tokens (c :: text)
  | token {t : Token} {w : List Char} {tokens : List Token} {text : List Char} : Begins t w text →
      Spelled tokens text → Spelled (t :: tokens) (w ++ text)

theorem Spelled.leading_eq {tokens : List Token} {text : List Char} (h : Spelled tokens text) :
    leading (text.map some) = (tokens, []) := by
  induction h with
  | nil => rw [List.map_nil, leading]
  | blank space _ ih => rw [List.map_cons, leading, if_pos space, ih]
  | token begins _ ih =>
    obtain ⟨c, tail, rfl, notSpace, found⟩ := begins
    rw [List.cons_append, List.map_cons, leading, notSpace, if_neg (by simp)]
    split
    · rename_i none
      rw [found] at none
      cases none
    · rename_i some
      rw [found] at some
      cases some
      rw [ih]

theorem scan_of_spelled {tokens : List Token} {text : List Char} (h : Spelled tokens text) :
    scan (text.map some) = some tokens := by
  rw [scan, h.leading_eq]

theorem Spelled.blanks {tokens : List Token} {text : List Char} (h : Spelled tokens text) {space : List Char}
    (blank : ∀ c ∈ space, isSpace c = true) : Spelled tokens (space ++ text) := by
  induction space with
  | nil => exact h
  | cons c space ih =>
    exact .blank (blank c List.mem_cons_self) (ih fun d hd => blank d (List.mem_cons_of_mem _ hd))

/-- The tokens that are always spelled alike. -/
def fixed : List (Token × List Char) :=
  [(.openBrace, ['\x7b']), (.closeBrace, ['\x7d']), (.openBracket, ['[']), (.closeBracket, [']']), (.comma, [',']),
    (.colon, [':']), (.null, "null".toList), (.bool true, "true".toList), (.bool false, "false".toList)]

theorem begins_of_fixed {t : Token} {w : List Char} (h : (t, w) ∈ fixed) (rest : List Char) : Begins t w rest := by
  simp only [fixed, List.mem_cons, List.not_mem_nil, or_false, Prod.mk.injEq] at h
  rcases h with ⟨rfl, rfl⟩ | ⟨rfl, rfl⟩ | ⟨rfl, rfl⟩ | ⟨rfl, rfl⟩ | ⟨rfl, rfl⟩ | ⟨rfl, rfl⟩ | ⟨rfl, rfl⟩ |
    ⟨rfl, rfl⟩ | ⟨rfl, rfl⟩ <;> exact ⟨_, _, rfl, rfl, rfl⟩

theorem Spelled.fixed {t : Token} {w : List Char} (h : (t, w) ∈ Token.fixed) {tokens : List Token} {text : List Char}
    (rest : Spelled tokens text) : Spelled (t :: tokens) (w ++ text) :=
  .token (begins_of_fixed h text) rest

theorem eq_of_isSpace {c : Char} (h : isSpace c = true) : c = ' ' ∨ c = '\n' ∨ c = '\t' ∨ c = '\r' := by
  simpa [isSpace, or_assoc] using h

/-- One unit in front of a string. -/
def prepend (u : StringUnit) (found : Option (List StringUnit × Input)) : Option (List StringUnit × Input) :=
  found.map fun (units, after) => (u :: units, after)

theorem stringUnits_escape {e c : Char} (known : escape? e = some c) (rest : Input) :
    stringUnits (some '\\' :: some e :: rest) = prepend (.escaped c) (stringUnits rest) := by
  have other : e ≠ 'u' := by
    rintro rfl
    cases known
  rw [stringUnits, known]
  · cases stringUnits rest <;> rfl
  · intro a b c d rest _ h
    simp_all

theorem stringUnits_code {a b c d : Option Char} {n : Nat} (known : code? a b c d = some n) (rest : Input) :
    stringUnits (some '\\' :: some 'u' :: a :: b :: c :: d :: rest) = prepend (.code n) (stringUnits rest) := by
  rw [stringUnits, known]
  cases stringUnits rest <;> rfl

theorem stringUnits_plain {c : Char} (noQuote : c ≠ '"') (noEscape : c ≠ '\\') (visible : 0x20 ≤ c.toNat) (rest : Input) :
    stringUnits (some c :: rest) = prepend (.plain (some c)) (stringUnits rest) := by
  have seen : (some c).any (fun c => decide (c.toNat < 0x20)) = false := by simpa using visible
  rw [stringUnits, seen]
  · cases stringUnits rest <;> rfl
  · simpa using noQuote
  all_goals simp [noEscape]

theorem stringUnits_escapeChar (c : Char) (rest : Input) :
    stringUnits ((Value.escapeChar c).map some ++ rest) = prepend (.ofChar c) (stringUnits rest) := by
  unfold Value.escapeChar
  split
  case h_8 quote backslash backspace feed line back tab =>
    have plain : c ∉ ['"', '\\', '\x08', '\x0c', '\n', '\r', '\t'] := by
      simp only [List.mem_cons, List.not_mem_nil, or_false, not_or]
      exact ⟨quote, backslash, backspace, feed, line, back, tab⟩
    rw [StringUnit.ofChar, if_neg plain]
    split
    · rename_i control
      refine stringUnits_code ?_ rest
      have high := (hexValue?_hexDigit (c.toNat / 16) (by omega)).1
      have low := (hexValue?_hexDigit (c.toNat % 16) (by omega)).1
      have zero : hexValue? '0' = some 0 := rfl
      simp only [code?, high, low, zero, Option.bind_eq_bind, Option.bind_some, Option.pure_def, Option.some.injEq]
      omega
    · rename_i visible
      exact stringUnits_plain quote backslash (by omega) rest
  all_goals exact stringUnits_escape rfl rest

theorem stringUnits_quoted (text : List Char) (rest : Input) :
    stringUnits ((text.flatMap Value.escapeChar).map some ++ some '"' :: rest) =
      some (text.map StringUnit.ofChar, rest) := by
  induction text with
  | nil => rfl
  | cons c text ih =>
    rw [List.flatMap_cons, List.map_append, List.append_assoc, stringUnits_escapeChar, ih]
    rfl

theorem begins_quoted (s : String) (rest : List Char) :
    Begins (.text (s.toList.map StringUnit.ofChar)) (Value.quoted s) rest := by
  refine ⟨'"', s.toList.flatMap Value.escapeChar ++ ['"'], rfl, rfl, ?_⟩
  have units := stringUnits_quoted s.toList (rest.map some)
  rw [first?, List.append_assoc, List.map_append]
  exact congrArg (Option.map fun found => (Token.text found.1, found.2)) units

section Numbers

theorem digitRun_eq {run : List Char} (digits : ∀ c ∈ run, isDigit c = true) {rest : List Char} (ends : EndsNumber rest) :
    digitRun ((run ++ rest).map some) = (run, rest.map some) := by
  induction run with
  | nil =>
    cases rest with
    | nil => rfl
    | cons c rest =>
      have other := ends c rfl
      simp only [extendsNumber, Bool.or_eq_false_iff] at other
      rw [List.nil_append, List.map_cons, digitRun, other.1.1.1]
      rfl
  | cons c run ih =>
    have digit := digits c List.mem_cons_self
    rw [List.cons_append, List.map_cons, digitRun, if_pos digit, ih fun d hd => digits d (List.mem_cons_of_mem _ hd)]

/-- A number that has no more than its digits. -/
theorem magnitude_digits (negative : Bool) (n : Nat) {rest : List Char} (ends : EndsNumber rest) :
    magnitude negative ((digits n ++ rest).map some) = some (⟨negative, digits n, [], none⟩, rest.map some) := by
  have run := digitRun_eq (fun c => isDigit_of_mem_digits (n := n)) ends
  have leading : (digits n = ['0'] || (digits n).head?.any (· != '0')) = true := by
    rcases Nat.eq_zero_or_pos n with rfl | some
    · rfl
    · simp [digits_head some]
  have noPart : fraction (rest.map some) = some ([], rest.map some) := by
    cases rest with
    | nil => rfl
    | cons c rest =>
      have other := ends c rfl
      rw [List.map_cons, fraction]
      rintro _ ⟨⟩
      exact absurd other (by decide)
  have noExponent : exponentOf (rest.map some) = some (none, rest.map some) := by
    cases rest with
    | nil => rfl
    | cons c rest =>
      have other := ends c rfl
      simp only [extendsNumber, Bool.or_eq_false_iff] at other
      rw [List.map_cons, exponentOf, other.1.2, other.2]
      rfl
  rw [magnitude, run]
  simp only [leading, if_true, noPart, Option.bind_eq_bind, Option.bind_some, noExponent]
  rfl

theorem first?_digit {c : Char} (digit : isDigit c = true) (rest : Input) :
    first? c rest = (magnitude false (some c :: rest)).map fun (n, rest) => (.number n, rest) := by
  unfold first?
  split
  case h_12 => rw [if_pos digit]
  all_goals exact absurd digit (by decide)

/-- A whole number as it is written. -/
def literal : Int → Literal
  | .ofNat n => ⟨false, digits n, [], none⟩
  | .negSucc n => ⟨true, digits (n + 1), [], none⟩

theorem begins_integer (i : Int) {rest : List Char} (ends : EndsNumber rest) :
    Begins (.number (literal i)) (Value.integerText i) rest := by
  cases i with
  | ofNat n =>
    cases written : digits n with
    | nil => exact absurd written (digits_ne_nil n)
    | cons c run =>
      have digit : isDigit c = true := isDigit_of_mem_digits (written ▸ List.mem_cons_self)
      have found := magnitude_digits false n ends
      rw [written, List.cons_append, List.map_cons] at found
      refine ⟨c, run, written, ?_, ?_⟩
      · refine Bool.eq_false_iff.mpr fun space => ?_
        rcases eq_of_isSpace space with rfl | rfl | rfl | rfl <;> exact absurd digit (by decide)
      · rw [first?_digit digit, found, literal, written]
        rfl
  | negSucc n =>
    have found := magnitude_digits true (n + 1) ends
    refine ⟨'-', digits (n + 1), rfl, rfl, ?_⟩
    rw [first?, found]
    rfl

end Numbers

end Token
end ProxyMonitor.Json
