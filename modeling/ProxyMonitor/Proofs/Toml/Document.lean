import Mathlib.Data.Option.Basic
import ProxyMonitor.Proofs.Text.Digits
import ProxyMonitor.Proofs.Toml.Quoted
import ProxyMonitor.Toml.Document

/-! Plain documents: lines of a bare key and a value on it, and headers of tables. They are read line by line. -/
namespace ProxyMonitor.Toml
open ProxyMonitor.Text
variable {rest : List Char} {n : Nat}

section Numbers
variable {run : List Char} (digits : ∀ c ∈ run, isDigit c = true)
include digits

theorem moreDigits_append (rest : List Char) : moreDigits isDigit (run ++ '\n' :: rest) = some (run, '\n' :: rest) := by
  induction run with
  | nil => rfl
  | cons c run ih =>
    rw [List.forall_mem_cons] at digits
    have plain : c ≠ '_' := by
      rintro rfl
      exact absurd digits.1 (by decide)
    rw [List.cons_append, moreDigits, if_pos digits.1, ih digits.2]
    · rfl
    · exact fun _ _ same => absurd same plain
    · exact fun same => absurd same plain

theorem readDigits_append (some : run ≠ []) (rest : List Char) :
    readDigits isDigit (run ++ '\n' :: rest) = .some (run, '\n' :: rest) := by
  obtain ⟨c, run, rfl⟩ := List.exists_cons_of_ne_nil some
  rw [List.forall_mem_cons] at digits
  rw [List.cons_append, readDigits, if_pos digits.1, moreDigits_append digits.2]
  rfl

/-- Digits up to the end of a line are no part of a time: no mark follows them. -/
theorem readMark_field (mark : Char) (plain : isDigit mark = false) (within : mark ≠ '\n') {count low high : Nat}
    {field : Nat × List Char} (found : readField count low high (run ++ '\n' :: rest) = some field) :
    readMark mark field.2 = none := by
  simp only [readField, Option.bind_eq_bind, Option.bind_eq_some_iff, Option.guard_eq_some', pure] at found
  obtain ⟨⟨⟩, ⟨full, all⟩, ⟨⟩, _, same⟩ := found
  cases same
  have short : count ≤ run.length := by
    by_contra long
    have member : '\n' ∈ (run ++ '\n' :: rest).take count := by
      rw [List.take_append, List.take_of_length_le (by omega)]
      obtain ⟨k, left⟩ : ∃ k, count - run.length = k + 1 := ⟨count - run.length - 1, by omega⟩
      rw [left]
      simp
    exact absurd (List.all_eq_true.mp all '\n' member) (by decide)
  dsimp only
  rw [List.drop_append_of_le_length short]
  cases left : run.drop count with
  | nil =>
    rw [List.nil_append, readMark, if_neg within]
  | cons c left' =>
    rw [List.cons_append, readMark, if_neg]
    rintro rfl
    have digit := digits mark (List.mem_of_mem_drop (left ▸ List.mem_cons_self))
    rw [plain] at digit
    cases digit

end Numbers

theorem readWhole_digits (n : Nat) (rest : List Char) :
    readWhole (digits n ++ '\n' :: rest) = some (digits n, '\n' :: rest) := by
  rcases Nat.eq_zero_or_pos n with rfl | positive
  · rfl
  · have head := digits_head positive
    have read := readDigits_append (fun c hc => isDigit_of_mem_digits hc) (digits_ne_nil n) rest
    obtain ⟨c, run, same⟩ := List.exists_cons_of_ne_nil (digits_ne_nil n)
    rw [same] at head read ⊢
    rw [List.cons_append, readWhole]
    · exact read
    · intro _ zero
      cases zero
      exact absurd head (by simp)

theorem ne_of_isDigit {c mark : Char} (digit : isDigit c = true) (other : isDigit mark = false) : c ≠ mark := by
  rintro rfl
  rw [digit] at other
  cases other

/-- The first digit of a number, which is no sign and begins no word. -/
theorem digits_cons (n : Nat) : ∃ c run, digits n = c :: run ∧ isDigit c = true := by
  obtain ⟨c, run, same⟩ := List.exists_cons_of_ne_nil (digits_ne_nil n)
  exact ⟨c, run, same, isDigit_of_mem_digits (same ▸ List.mem_cons_self)⟩

theorem splitSign_digits (n : Nat) (rest : List Char) : splitSign (digits n ++ rest) = ([], digits n ++ rest) := by
  obtain ⟨c, run, same, digit⟩ := digits_cons n
  rw [same, List.cons_append]
  unfold splitSign
  split
  · rename_i text
    cases text
    exact absurd digit (by decide)
  · rename_i text
    cases text
    exact absurd digit (by decide)
  · rfl

theorem readDecimal_digits (small : n ≤ 0x7FFFFFFFFFFFFFFF) (rest : List Char) :
    readDecimal (digits n ++ '\n' :: rest) = some (.integer n, '\n' :: rest) := by
  have range : inRange (natOfDigits (digits n) : Int) = some (n : Int) := by
    rw [natOfDigits_digits, inRange, if_pos (by omega)]
  simp [readDecimal, splitSign_digits, readWhole_digits, readPart, readExponent, range]

theorem readWord_digits {word : String} (letters : word.toList.head?.any (!isDigit ·) = true) (n : Nat) (rest : List Char) :
    readWord word (digits n ++ rest) = none := by
  obtain ⟨c, run, same, digit⟩ := digits_cons n
  rw [readWord, same, if_neg]
  cases first : word.toList with
  | nil => simp [first] at letters
  | cons d word =>
    rw [first] at letters
    rw [List.cons_append, List.isPrefixOf_cons_cons, Bool.and_eq_true, beq_iff_eq]
    rintro ⟨rfl, -⟩
    simp [digit] at letters

theorem readHour_digits (n : Nat) (rest : List Char) : readHour (digits n ++ '\n' :: rest) = none := by
  rw [readHour]
  cases found : readField 2 0 23 (digits n ++ '\n' :: rest) with
  | none => rfl
  | some field => exact readMark_field (fun c hc => isDigit_of_mem_digits hc) ':' (by decide) (by decide) found

theorem readYear_digits (n : Nat) (rest : List Char) :
    ((readField 4 0 9999 (digits n ++ '\n' :: rest)).bind fun (year, rest) => (readMark '-' rest).map (year, ·)) = none := by
  cases found : readField 4 0 9999 (digits n ++ '\n' :: rest) with
  | none => rfl
  | some field =>
    have noMark := readMark_field (fun c hc => isDigit_of_mem_digits hc) '-' (by decide) (by decide) found
    simp [noMark]

/-- No letter follows the first digit, as one does where another base is meant. -/
theorem digits_second {mark : Char} (letter : isDigit mark = false) (within : mark ≠ '\n') (n : Nat) {c : Char}
    {more : List Char} : digits n ++ '\n' :: rest ≠ c :: mark :: more := by
  obtain ⟨first, run, same, -⟩ := digits_cons n
  rw [same, List.cons_append]
  rcases run with _ | ⟨second, run⟩
  · intro equal
    exact within (List.cons.inj (List.cons.inj equal).2).1.symm
  · intro equal
    have digit : isDigit second = true := isDigit_of_mem_digits (same ▸ List.mem_cons_of_mem _ List.mem_cons_self)
    rw [(List.cons.inj (List.cons.inj equal).2).1, letter] at digit
    cases digit

theorem readNumber_digits (small : n ≤ 0x7FFFFFFFFFFFFFFF) (rest : List Char) :
    readNumber (digits n ++ '\n' :: rest) = some (.integer n, '\n' :: rest) := by
  rw [readNumber, readYear_digits, readHour_digits]
  · dsimp only
    rw [splitSign_digits, readWord_digits (by decide), readWord_digits (by decide), readDecimal_digits small]
    rfl
  · exact fun _ => digits_second (by decide) (by decide) n
  · exact fun _ => digits_second (by decide) (by decide) n
  · exact fun _ => digits_second (by decide) (by decide) n

theorem readScalar_digits (small : n ≤ 0x7FFFFFFFFFFFFFFF) (rest : List Char) :
    readScalar (digits n ++ '\n' :: rest) = some (.integer n, '\n' :: rest) := by
  have number := readNumber_digits small rest
  obtain ⟨c, run, same, digit⟩ := digits_cons n
  rw [same, List.cons_append] at number ⊢
  rw [readScalar]
  · exact number
  all_goals
    intro _ equal
    exact ne_of_isDigit digit (by decide) (List.cons.inj equal).1

/-- Quoted text begins with one of the two quotes. -/
theorem quoted_of_read {text : List Char} {found : List Char × List Char} (h : readQuoted text = some found) :
    ∃ more, text = '"' :: more ∨ text = '\'' :: more := by
  unfold readQuoted at h
  split at h
  · exact ⟨_, .inl rfl⟩
  · exact ⟨_, .inr rfl⟩
  · exact ⟨_, .inl rfl⟩
  · exact ⟨_, .inr rfl⟩
  · cases h

/-- How a value is written on its line. -/
inductive Spells : Scalar → List Char → Prop where
  | text (text : List Char) : Spells (.text (String.ofList text)) (writeQuoted text)
  | number {n : Nat} (small : n ≤ 0x7FFFFFFFFFFFFFFF) : Spells (.integer n) (digits n)

namespace Spells
variable {s : Scalar} {written : List Char}

theorem readScalar (h : Spells s written) (rest : List Char) :
    readScalar (written ++ '\n' :: rest) = some (s, '\n' :: rest) := by
  cases h with
  | text text =>
    have read := readQuoted_writeQuoted text rest
    obtain ⟨more, same⟩ := quoted_of_read read
    rcases same with same | same <;> rw [same] at read ⊢ <;> rw [Toml.readScalar, read] <;> rfl
  | number small => exact readScalar_digits small rest

/-- The first character does not open an array or a table, and is no blank. -/
theorem head (h : Spells s written) (rest : List Char) :
    ∃ c more, written ++ '\n' :: rest = c :: more ∧ c ≠ '[' ∧ c ≠ '{' ∧ isSpace c = false := by
  cases h with
  | text text =>
    obtain ⟨more, same⟩ := quoted_of_read (readQuoted_writeQuoted text rest)
    rcases same with same | same <;> exact ⟨_, more, same, by decide, by decide, by decide⟩
  | number small =>
    obtain ⟨c, run, same, digit⟩ := digits_cons _
    refine ⟨c, run ++ '\n' :: rest, by rw [same, List.cons_append], ?_, ?_, ?_⟩
    · exact ne_of_isDigit digit (by decide)
    · exact ne_of_isDigit digit (by decide)
    · have space : c ≠ ' ' := ne_of_isDigit digit (by decide)
      have tab : c ≠ '\t' := ne_of_isDigit digit (by decide)
      simp [isSpace, space, tab]

theorem readValue (h : Spells s written) (depth : Nat) (rest : List Char) :
    readValue (depth + 1) (skipSpace (' ' :: written ++ '\n' :: rest)) = some (.scalar s, '\n' :: rest) := by
  have read := h.readScalar rest
  obtain ⟨c, more, same, bracket, brace, space⟩ := h.head rest
  have skipped : skipSpace (' ' :: written ++ '\n' :: rest) = c :: more := by
    rw [List.cons_append, same, skipSpace, List.dropWhile_cons_of_pos (by decide), List.dropWhile_cons_of_neg (by simp [space])]
  rw [same] at read
  rw [skipped, Toml.readValue, read]
  · rfl
  · exact fun _ equal => bracket (List.cons.inj equal).1
  · exact fun _ equal => brace (List.cons.inj equal).1

end Spells

/-- A key that needs no quotes. -/
def IsBareKey (key : String) : Prop :=
  key.toList.isEmpty = false ∧ key.toList.all isBareKeyChar = true

instance (key : String) : Decidable (IsBareKey key) :=
  inferInstanceAs (Decidable (_ ∧ _))

namespace IsBareKey
variable {key : String}

theorem head (h : IsBareKey key) : ∃ c run, key.toList = c :: run ∧ isBareKeyChar c = true := by
  obtain ⟨c, run, same⟩ := List.exists_cons_of_ne_nil (List.isEmpty_eq_false_iff.mp h.1)
  exact ⟨c, run, same, List.all_eq_true.mp h.2 c (same ▸ List.mem_cons_self)⟩

theorem skipSpace (h : IsBareKey key) (after : List Char) : skipSpace (key.toList ++ after) = key.toList ++ after := by
  obtain ⟨c, run, same, bare⟩ := h.head
  rw [Toml.skipSpace, same, List.cons_append, List.dropWhile_cons_of_neg]
  intro space
  rcases (Bool.or_eq_true _ _).mp space with is | is <;> rw [beq_iff_eq.mp is] at bare <;> exact absurd bare (by decide)

theorem readKeyPart (h : IsBareKey key) {c : Char} (ends : isBareKeyChar c = false) (after : List Char) :
    readKeyPart (key.toList ++ c :: after) = some (key, c :: after) := by
  have whole : (key.toList ++ c :: after).takeWhile isBareKeyChar = key.toList := by
    rw [List.takeWhile_append_of_pos (List.all_eq_true.mp h.2), List.takeWhile_cons_of_neg (by simp [ends]), List.append_nil]
  obtain ⟨first, run, same, bare⟩ := h.head
  rw [Toml.readKeyPart]
  · rw [whole, if_neg (by simp [same]), String.ofList_toList, List.drop_left]
  · rw [same]
    rintro _ equal
    rw [(List.cons.inj equal).1] at bare
    exact absurd bare (by decide)
  · rw [same]
    rintro _ equal
    rw [(List.cons.inj equal).1] at bare
    exact absurd bare (by decide)

/-- The key of a line, up to the first character that cannot be part of it, and the blanks before that. -/
theorem readKey (h : IsBareKey key) (c : Char) (ends : isBareKeyChar c = false) (after : List Char)
    (whole : (Toml.skipSpace (c :: after)).head? ≠ some '.') :
    readKey (key.toList ++ c :: after) = some (([], key), Toml.skipSpace (c :: after)) := by
  have parts : readKeyParts (key.toList ++ c :: after).length (key.toList ++ c :: after) =
      some ([key], Toml.skipSpace (c :: after)) := by
    have long : (key.toList ++ c :: after).length = key.toList.length + after.length + 1 := by
      simp
      omega
    rw [long, readKeyParts, h.skipSpace, h.readKeyPart ends]
    dsimp only [Option.bind_eq_bind, Option.bind_some]
    split
    · rename_i same
      rw [same] at whole
      exact absurd rfl whole
    · rfl
  simp only [Toml.readKey, parts, Option.bind_eq_bind, Option.bind_some]
  rfl

end IsBareKey

theorem readLine_pair {p q : Progress} {key : String} {s : Scalar} {written : List Char} (bare : IsBareKey key)
    (spells : Spells s written) (added : addPair p [] key (.scalar s) = some q) (rest : List Char) :
    readLine p (key.toList ++ ' ' :: '=' :: (' ' :: written ++ '\n' :: rest)) = some (q, rest) := by
  have name := bare.readKey ' ' (by decide) ('=' :: (' ' :: written ++ '\n' :: rest))
    (by simp [skipSpace, isSpace])
  have equals : skipSpace (' ' :: '=' :: (' ' :: written ++ '\n' :: rest)) = '=' :: (' ' :: written ++ '\n' :: rest) := rfl
  have value : readValue (depthLimit - 1) (skipSpace (' ' :: written ++ '\n' :: rest)) = _ :=
    spells.readValue (depthLimit - 2) rest
  have ended : lineEnd ('\n' :: rest) = some rest := rfl
  obtain ⟨first, run, same, bareFirst⟩ := bare.head
  rw [equals, same, List.cons_append] at name
  rw [same, List.cons_append, readLine, name]
  · simp only [Option.bind_eq_bind, Option.bind_some, value, added, ended]
    rfl
  all_goals
    intro _ equal
    rw [(List.cons.inj equal).1] at bareFirst
    exact absurd bareFirst (by decide)

theorem readLine_header {p : Progress} {root : Members} {key : String} (bare : IsBareKey key)
    (added : p.root.addTable [] key = some root) (rest : List Char) :
    readLine p ('[' :: (key.toList ++ ']' :: '\n' :: rest)) = some (⟨root, [key]⟩, rest) := by
  have name := bare.readKey ']' (by decide) ('\n' :: rest) (by simp [skipSpace, isSpace])
  have closing : skipSpace (']' :: '\n' :: rest) = ']' :: '\n' :: rest := rfl
  have ended : lineEnd ('\n' :: rest) = some rest := rfl
  obtain ⟨first, run, same, bareFirst⟩ := bare.head
  have header : readHeader p [']'] Members.addTable (key.toList ++ ']' :: '\n' :: rest) = some (⟨root, [key]⟩, rest) := by
    rw [closing] at name
    simp only [readHeader, name, Option.bind_eq_bind, Option.bind_some]
    simp [ended, added]
  rw [same, List.cons_append] at header ⊢
  rw [readLine, header]
  rintro _ equal
  rw [(List.cons.inj equal).1] at bareFirst
  exact absurd bareFirst (by decide)

/-- A pair before any header goes to the end of the outermost table. -/
theorem addPair_top {root : Members} {key : String} {n : Node} (absent : root.lookup key = none) :
    addPair ⟨root, []⟩ [] key n = some ⟨root ++ [(key, n)], []⟩ := by
  simp [addPair, Members.within, Members.addPair, absent]

/-- A pair after a header goes to the end of its table. -/
theorem addPair_below {root inner : Members} {name key : String} {n : Node}
    (there : root.lookup name = some (.table .header inner)) (absent : inner.lookup key = none) :
    addPair ⟨root, [name]⟩ [] key n = some ⟨root.put name (.table .header (inner ++ [(key, n)])), [name]⟩ := by
  simp [addPair, Members.within, Members.addPair, there, absent]

theorem addTable_top {root : Members} {key : String} (absent : root.lookup key = none) :
    root.addTable [] key = some (root.put key (.table .header [])) := by
  simp [Members.addTable, Members.within, absent]

/-- A text of plain lines, and the members that they add to those before them. -/
inductive Lines : Progress → List Char → Members → Prop where
  | done (p : Progress) : Lines p [] p.root
  | blank {p : Progress} {rest : List Char} {members : Members} (more : Lines p rest members) : Lines p ('\n' :: rest) members
  | pair {p q : Progress} {key : String} {s : Scalar} {written rest : List Char} {members : Members} (bare : IsBareKey key)
      (spells : Spells s written) (added : addPair p [] key (.scalar s) = some q) (more : Lines q rest members) :
      Lines p (key.toList ++ ' ' :: '=' :: (' ' :: written ++ '\n' :: rest)) members
  | header {p : Progress} {root : Members} {key : String} {rest : List Char} {members : Members} (bare : IsBareKey key)
      (added : p.root.addTable [] key = some root) (more : Lines ⟨root, [key]⟩ rest members) :
      Lines p ('[' :: (key.toList ++ ']' :: '\n' :: rest)) members

theorem readFrom_step {p q : Progress} {text rest : List Char} {members : Members} {fuel : Nat} (nonempty : text ≠ [])
    (space : skipSpace text = text) (line : readLine p text = some (q, rest)) (more : readFrom fuel q rest = some members) :
    readFrom (fuel + 1) p text = some members := by
  rw [readFrom, space]
  simp only [line, Option.bind_eq_bind, Option.bind_some, more]

/-- Line by line: each one is read with the members before it, and leaves the lines after it. -/
theorem Lines.readFrom {p : Progress} {text : List Char} {members : Members} (h : Lines p text members) {fuel : Nat}
    (enough : text.length < fuel) : readFrom fuel p text = some members := by
  induction h generalizing fuel with
  | done p =>
    obtain ⟨fuel, rfl⟩ := Nat.exists_eq_add_of_lt enough
    rfl
  | blank more ih =>
    obtain ⟨fuel, rfl⟩ := Nat.exists_eq_add_of_lt enough
    exact readFrom_step (by simp) rfl rfl (ih (by simp at *; omega))
  | pair bare spells added more ih =>
    obtain ⟨fuel, rfl⟩ := Nat.exists_eq_add_of_lt enough
    refine readFrom_step (by simp) (bare.skipSpace _) (readLine_pair bare spells added _) (ih ?_)
    simp at *
    omega
  | header bare added more ih =>
    obtain ⟨fuel, rfl⟩ := Nat.exists_eq_add_of_lt enough
    refine readFrom_step (by simp) rfl (readLine_header bare added _) (ih ?_)
    simp at *
    omega

/-- No line begins with a byte order mark, which would not count as a part of the first one. -/
theorem Lines.head {p : Progress} {text : List Char} {members : Members} (h : Lines p text members) :
    text.head? ≠ some '\uFEFF' := by
  cases h with
  | done => decide
  | blank => exact fun same => absurd (Option.some.inj same) (by decide)
  | pair bare =>
    obtain ⟨c, run, same, bareFirst⟩ := bare.head
    rw [same, List.cons_append, List.head?_cons]
    rintro ⟨⟩
    exact absurd bareFirst (by decide)
  | header => exact fun same => absurd (Option.some.inj same) (by decide)

theorem Lines.read {text : List Char} {members : Members} (h : Lines {} text members) : read text = some members := by
  have lines := h.readFrom (Nat.lt_succ_self _)
  rw [Toml.read]
  · exact lines
  · rintro rest rfl
    exact h.head rfl

end ProxyMonitor.Toml
