import ProxyMonitor.Proofs.Text.Parts
import ProxyMonitor.Toml.Quoted

/-! Quoted text is read back, in each of the forms in which it is written. -/
namespace ProxyMonitor.Toml
variable {c mark : Char} {text rest : List Char} {lines : Bool} {quotes run : Nat}

section Escapes

/-- How a character may stand between quotes. -/
inductive Stands (lines : Bool) (c : Char) : List Char → Prop
  | lineEnd (allowed : lines = true) (same : c = '\n') : Stands lines c [c]
  | plain (printable : isPrintable c = true) (quote : c ≠ '"') (escape : c ≠ '\\') : Stands lines c [c]
  | mark {m : Char} (stands : escapes.lookup m = some c) : Stands lines c ['\\', m]
  | code {a b : Char} (stands : scalar ['0', '0', a, b] = some c) : Stands lines c ['\\', 'u', '0', '0', a, b]

theorem lookup_of_find? {other : Char} (found : escapes.find? (·.2 == c) = some (mark, other)) :
    escapes.lookup mark = some c := by
  have same : other = c := by simpa using List.find?_some found
  have member := List.mem_of_find?_eq_some found
  subst same
  simp only [escapes, List.mem_cons, Prod.mk.injEq, List.not_mem_nil, or_false] at member
  rcases member with ⟨rfl, rfl⟩ | ⟨rfl, rfl⟩ | ⟨rfl, rfl⟩ | ⟨rfl, rfl⟩ | ⟨rfl, rfl⟩ | ⟨rfl, rfl⟩ | ⟨rfl, rfl⟩ <;> rfl

/-- Control characters have codes of two digits. -/
theorem scalar_code (control : isPrintable c = false) :
    scalar ['0', '0', Text.hexDigit 'A' (c.toNat / 16), Text.hexDigit 'A' (c.toNat % 16)] = some c := by
  have ascii : c.toNat < 0x80 := by
    by_contra beyond
    have far : 0x20 ≤ c.toNat ∧ c.toNat ≠ 0x7F := by omega
    simp [isPrintable, far] at control
  exact Text.of_ascii (p := fun c => isPrintable c = false →
    scalar ['0', '0', Text.hexDigit 'A' (c.toNat / 16), Text.hexDigit 'A' (c.toNat % 16)] = some c) (by decide) ascii control

theorem stands_escape (lines : Bool) (c : Char) : Stands lines c (escape lines c) := by
  unfold escape
  split
  · rename_i h
    simp only [Bool.and_eq_true, beq_iff_eq] at h
    exact .lineEnd h.1 h.2
  · split
    · rename_i found
      exact .mark (lookup_of_find? found)
    · rename_i none
      rw [List.find?_eq_none] at none
      split
      · rename_i printable
        refine .plain printable ?_ ?_
        · rintro rfl
          exact none ('"', '"') (by decide) (by decide)
        · rintro rfl
          exact none ('\\', '\\') (by decide) (by decide)
      · rename_i control
        exact .code (scalar_code (Bool.eq_false_iff.mpr control))

/-- A quote that is no end begins nothing that stands for another character. -/
theorem Stands.head (h : Stands lines c text) (quote : c ≠ '"') : ∃ first more, text = first :: more ∧ first ≠ '"' := by
  cases h with
  | lineEnd | plain => exact ⟨c, [], rfl, quote⟩
  | mark => exact ⟨'\\', _, rfl, by decide⟩
  | code => exact ⟨'\\', _, rfl, by decide⟩

theorem escaped_quote (h : run < quotes) :
    escaped lines quotes run ('"' :: text) = '"' :: escaped lines quotes (run + 1) text := by
  rw [escaped, if_pos h]

theorem escaped_quote_end (h : quotes ≤ run) :
    escaped lines quotes run ('"' :: text) = '\\' :: '"' :: escaped lines quotes 0 text := by
  rw [escaped, if_neg (by omega)]

theorem escaped_other (h : c ≠ '"') :
    escaped lines quotes run (c :: text) = escape lines c ++ escaped lines quotes 0 text := by
  rw [escaped]
  exact h

end Escapes

section Basic

theorem readBasic_mark (stands : escapes.lookup mark = some c) (rest : List Char) :
    readBasic ('\\' :: mark :: rest) = prepend c (readBasic rest) := by
  rw [readBasic, stands]
  · rfl
  · rintro _ _ _ _ _ rfl
    cases stands
  · rintro _ _ _ _ _ _ _ _ _ rfl
    cases stands

theorem Stands.readBasic (h : Stands false c text) (rest : List Char) :
    readBasic (text ++ rest) = prepend c (readBasic rest) := by
  cases h with
  | lineEnd allowed => cases allowed
  | plain printable quote escape =>
    rw [List.singleton_append, Toml.readBasic, if_pos (by simp [printable, escape])]
    · exact quote
    · exact fun _ _ _ _ _ same => absurd same escape
    · exact fun _ _ _ _ _ _ _ _ _ same => absurd same escape
    · exact fun _ _ same => absurd same escape
  | mark stands => exact readBasic_mark stands rest
  | code stands =>
    change Toml.readBasic ('\\' :: 'u' :: '0' :: '0' :: _ :: _ :: rest) = _
    rw [Toml.readBasic, stands]
    rfl

theorem readBasic_escaped (run : Nat) (text rest : List Char) :
    readBasic (escaped false 0 run text ++ '"' :: rest) = some (text, rest) := by
  induction text generalizing run with
  | nil => rfl
  | cons c text ih =>
    by_cases quote : c = '"'
    · subst quote
      rw [escaped_quote_end (Nat.zero_le _), List.cons_append, List.cons_append, readBasic_mark (c := '"') rfl, ih]
      rfl
    · rw [escaped_other quote, List.append_assoc, (stands_escape false c).readBasic, ih]
      rfl

end Basic

section Lines

theorem readLines_mark (stands : escapes.lookup mark = some c) (rest : List Char) :
    readLines .no ('\\' :: mark :: rest) = prepend c (readLines .no rest) := by
  have blank : mark ≠ '\n' ∧ isSpace mark = false := by
    constructor
    · rintro rfl
      cases stands
    · rw [isSpace, Bool.or_eq_false_iff, beq_eq_false_iff_ne, beq_eq_false_iff_ne]
      constructor <;> rintro rfl <;> cases stands
  rw [readLines, stands, if_neg (by simp [blank.1]), if_neg (by simp [blank.2])]
  · rfl
  · rintro _ _ _ _ _ rfl
    cases stands
  · rintro _ _ _ _ _ _ _ _ _ rfl
    cases stands
  · rintro _ rfl
    cases stands
  · exact nofun

/-- A character that begins nothing else. -/
theorem readLines_plain (quote : c = '"' → ¬ ['"', '"'] <+: rest) (escape : c ≠ '\\')
    (plain : c = '\n' ∨ isPrintable c = true) :
    readLines .no (c :: rest) = prepend c (readLines .no rest) := by
  have noReturn : c ≠ '\r' := by
    rintro rfl
    revert plain
    decide
  have noEnd {more : List Char} (same : c = '"') : rest ≠ '"' :: '"' :: more := by
    rintro rfl
    exact quote same ⟨more, rfl⟩
  rw [readLines, if_neg (by simp), if_pos (by simpa [escape] using plain)]
  · exact fun _ same => noEnd same
  · exact fun _ same => noEnd same
  · exact fun _ same => noEnd same
  · exact fun _ same => absurd same noReturn
  · exact fun _ _ _ _ _ same => absurd same escape
  · exact fun _ _ _ _ _ _ _ _ _ same => absurd same escape
  · exact fun _ same => absurd same escape
  · exact fun _ _ same => absurd same escape
  all_goals exact nofun

theorem Stands.readLines (h : Stands true c text) (quote : c ≠ '"') (rest : List Char) :
    readLines .no (text ++ rest) = prepend c (readLines .no rest) := by
  cases h with
  | lineEnd _ same => exact readLines_plain (absurd · quote) (by rw [same]; decide) (.inl same)
  | plain printable _ escape => exact readLines_plain (absurd · quote) escape (.inr printable)
  | mark stands => exact readLines_mark stands rest
  | code stands =>
    change Toml.readLines .no ('\\' :: 'u' :: '0' :: '0' :: _ :: _ :: rest) = _
    rw [Toml.readLines, stands]
    · rfl
    · exact nofun

/-- What is written does not begin with a quote, unless one more may stand as it is. -/
theorem escaped_head (quotes run : Nat) (nonempty : text ≠ []) (ended : text.head? = some '"' → quotes ≤ run) :
    ∃ first more, escaped true quotes run text = first :: more ∧ first ≠ '"' := by
  obtain ⟨c, text, rfl⟩ := List.exists_cons_of_ne_nil nonempty
  by_cases quote : c = '"'
  · subst quote
    exact ⟨'\\', _, escaped_quote_end (ended rfl), by decide⟩
  · obtain ⟨first, more, same, other⟩ := (stands_escape true c).head quote
    exact ⟨first, more ++ escaped true quotes 0 text, by rw [escaped_other quote, same, List.cons_append], other⟩

/-- After a quote that stands as it is, no two others begin what is left, unless the text ends there. -/
theorem escaped_apart (last : text ≠ []) (lastTwo : ¬ (run = 0 ∧ text = ['"'])) (rest : List Char) :
    ¬ ['"', '"'] <+: escaped true 2 (run + 1) text ++ rest := by
  by_cases next : text.head? = some '"' ∧ run = 0
  · obtain ⟨head, rfl⟩ := next
    obtain ⟨text, rfl⟩ := List.head?_eq_some_iff.mp head
    have nonempty : text ≠ [] := by
      rintro rfl
      exact lastTwo ⟨rfl, rfl⟩
    obtain ⟨first, tail, same, other⟩ := escaped_head 2 2 nonempty fun _ => Nat.le_refl _
    rw [escaped_quote (by decide), same]
    simpa using Ne.symm other
  · obtain ⟨first, tail, same, other⟩ := escaped_head 2 (run + 1) last fun head => by
      have : run ≠ 0 := fun zero => next ⟨head, zero⟩
      omega
    rw [same]
    simpa using fun same => absurd same.symm other

/-- The closing quotes are found behind up to two others: no three stand as they are before them. -/
theorem readLines_escaped (text rest : List Char) {run : Nat} (few : run ≤ 2) :
    readLines .no (escaped true 2 run text ++ '"' :: '"' :: '"' :: '\n' :: rest) = some (text, '\n' :: rest) := by
  induction text generalizing run with
  | nil => simp [escaped, readLines]
  | cons c text ih =>
    by_cases quote : c = '"'
    · subst quote
      rcases Nat.lt_or_ge run 2 with more | full
      · rw [escaped_quote more, List.cons_append]
        -- the quotes at the end of the text are read together with the closing ones
        by_cases last : text = []
        · subst last
          simp [escaped, readLines]
        by_cases lastTwo : run = 0 ∧ text = ['"']
        · obtain ⟨rfl, rfl⟩ := lastTwo
          simp [escaped, readLines]
        have apart := escaped_apart last lastTwo ('"' :: '"' :: '"' :: '\n' :: rest)
        rw [readLines_plain (fun _ => apart) (by decide) (.inr (by decide)), ih more]
        rfl
      · rw [escaped_quote_end full, List.cons_append, List.cons_append, readLines_mark (c := '"') rfl, ih (Nat.zero_le _)]
        rfl
    · rw [escaped_other quote, List.append_assoc, (stands_escape true c).readLines quote, ih (Nat.zero_le _)]
      rfl

end Lines

section Literals

theorem readLiteral_append (printable : ∀ c ∈ text, isPrintable c = true) (bare : '\'' ∉ text) (rest : List Char) :
    readLiteral (text ++ '\'' :: rest) = some (text, rest) := by
  induction text with
  | nil => rfl
  | cons c text ih =>
    rw [List.forall_mem_cons] at printable
    rw [List.mem_cons, not_or] at bare
    rw [List.cons_append, readLiteral, if_pos printable.1, ih printable.2 bare.2]
    · rfl
    · exact fun same => bare.1 same.symm

/-- A character that begins nothing else. -/
theorem readLiteralLines_plain (apostrophe : c = '\'' → ¬ ['\'', '\''] <+: rest) (plain : c = '\n' ∨ isPrintable c = true) :
    readLiteralLines (c :: rest) = prepend c (readLiteralLines rest) := by
  have noReturn : c ≠ '\r' := by
    rintro rfl
    revert plain
    decide
  have noEnd {more : List Char} (same : c = '\'') : rest ≠ '\'' :: '\'' :: more := by
    rintro rfl
    exact apostrophe same ⟨more, rfl⟩
  rw [readLiteralLines, if_pos (by simpa using plain)]
  · exact fun _ same => noEnd same
  · exact fun _ same => noEnd same
  · exact fun _ same => noEnd same
  · exact fun _ same => absurd same noReturn

theorem readLiteralLines_append (plain : ∀ c ∈ text, c = '\n' ∨ isPrintable c = true)
    (few : ¬ ['\'', '\'', '\''] <:+: text) (rest : List Char) :
    readLiteralLines (text ++ '\'' :: '\'' :: '\'' :: '\n' :: rest) = some (text, '\n' :: rest) := by
  induction text with
  | nil => simp [readLiteralLines]
  | cons c text ih =>
    have tail := ih (List.forall_mem_cons.mp plain).2 fun within => few (within.trans (List.suffix_cons c text).isInfix)
    by_cases last : c = '\'' ∧ text = []
    · obtain ⟨rfl, rfl⟩ := last
      simp [readLiteralLines]
    by_cases lastTwo : c = '\'' ∧ text = ['\'']
    · obtain ⟨rfl, rfl⟩ := lastTwo
      simp [readLiteralLines]
    have apart (apostrophe : c = '\'') : ¬ ['\'', '\''] <+: text ++ '\'' :: '\'' :: '\'' :: '\n' :: rest := by
      subst apostrophe
      rcases text with _ | ⟨first, _ | ⟨second, text⟩⟩
      · exact absurd ⟨rfl, rfl⟩ last
      · have other : first ≠ '\'' := fun same => lastTwo ⟨rfl, by rw [same]⟩
        simpa using fun same => absurd same.symm other
      · rintro ⟨more, same⟩
        have same := congrArg (List.take 2) same
        simp only [List.cons_append, List.nil_append, List.take_succ_cons, List.take_zero, List.cons.injEq, and_true] at same
        exact few ⟨[], text, by simp [← same.1, ← same.2]⟩
    rw [List.cons_append, readLiteralLines_plain apart (List.forall_mem_cons.mp plain).1, tail]
    rfl

end Literals

section Runs

theorem le_foldl_lengthen (mark : Char) (text : List Char) (runs : Nat × Nat) :
    runs.1 ≤ (text.foldl (lengthen mark) runs).1 := by
  induction text generalizing runs with
  | nil => exact Nat.le_refl _
  | cons c text ih => exact Nat.le_trans (Nat.le_max_left runs.1 _) (ih (lengthen mark runs c))

theorem foldl_lengthen_le (mark : Char) (text : List Char) (runs : Nat × Nat) (h : runs.2 ≤ runs.1) :
    (text.foldl (lengthen mark) runs).2 ≤ (text.foldl (lengthen mark) runs).1 := by
  induction text generalizing runs with
  | nil => exact h
  | cons c text ih => exact ih _ (Nat.le_max_right ..)

theorem foldl_lengthen_replicate (mark : Char) (n : Nat) (runs : Nat × Nat) :
    ((List.replicate n mark).foldl (lengthen mark) runs).2 = runs.2 + n := by
  induction n generalizing runs with
  | zero => rfl
  | succ n ih =>
    rw [List.replicate_succ, List.foldl_cons, ih]
    simp [lengthen]
    omega

/-- No run is longer than the longest one. -/
theorem le_longestRun {n : Nat} (h : List.replicate n mark <:+: text) : n ≤ longestRun mark text := by
  obtain ⟨before, after, rfl⟩ := h
  have ordered := foldl_lengthen_le mark (before ++ List.replicate n mark) (0, 0) (Nat.le_refl _)
  have grown := le_foldl_lengthen mark after ((before ++ List.replicate n mark).foldl (lengthen mark) (0, 0))
  rw [List.foldl_append] at ordered grown
  rw [foldl_lengthen_replicate] at ordered
  rw [longestRun, List.foldl_append, List.foldl_append]
  omega

theorem not_mem_of_longestRun (h : longestRun mark text = 0) : mark ∉ text := by
  intro member
  obtain ⟨before, after, rfl⟩ := List.append_of_mem member
  have long : 1 ≤ longestRun mark (before ++ mark :: after) := le_longestRun ⟨before, after, by simp⟩
  omega

end Runs

section Forms

/-- What the quotes on one line begin, unless it is the first quotes of several lines. -/
theorem readQuoted_one (apart : ¬ ['"', '"'] <+: rest) : readQuoted ('"' :: rest) = readBasic rest := by
  rw [readQuoted]
  rintro more rfl
  exact apart ⟨more, rfl⟩

theorem readQuoted_apostrophe (apart : ¬ ['\'', '\''] <+: rest) : readQuoted ('\'' :: rest) = readLiteral rest := by
  rw [readQuoted]
  rintro more rfl
  exact apart ⟨more, rfl⟩

theorem readQuoted_basic (text rest : List Char) :
    readQuoted ('"' :: escaped false 0 0 text ++ ['"'] ++ '\n' :: rest) = some (text, '\n' :: rest) := by
  have apart : ¬ ['"', '"'] <+: escaped false 0 0 text ++ '"' :: '\n' :: rest := by
    cases text with
    | nil => simp [escaped]
    | cons c text =>
      by_cases quote : c = '"'
      · subst quote
        simp [escaped]
      · obtain ⟨first, more, same, other⟩ := (stands_escape false c).head quote
        rw [escaped_other quote, same]
        simpa using fun same => absurd same.symm other
  rw [List.append_assoc, List.cons_append, List.singleton_append, readQuoted_one apart, readBasic_escaped]

theorem readQuoted_literal (printable : ∀ c ∈ text, isPrintable c = true) (bare : '\'' ∉ text) (rest : List Char) :
    readQuoted ('\'' :: text ++ ['\''] ++ '\n' :: rest) = some (text, '\n' :: rest) := by
  have apart : ¬ ['\'', '\''] <+: text ++ '\'' :: '\n' :: rest := by
    cases text with
    | nil => simp
    | cons c text =>
      rintro ⟨more, same⟩
      exact bare (List.mem_cons.mpr (.inl (List.cons.inj same).1))
  rw [List.append_assoc, List.cons_append, List.singleton_append, readQuoted_apostrophe apart,
    readLiteral_append printable bare]

/-- What opens several lines: a line end, if there are several. -/
def opening (text : List Char) : List Char :=
  if '\n' ∈ text then ['\n'] else []

theorem withoutLineEnd_opening {written : List Char}
    (single : '\n' ∉ text → ∀ c ∈ written.head?, c ≠ '\n' ∧ c ≠ '\r') :
    withoutLineEnd (opening text ++ written) = written := by
  unfold opening
  split
  · rfl
  · rename_i single'
    have first := single single'
    rw [List.nil_append]
    rcases written with _ | ⟨c, written⟩
    · rfl
    · obtain ⟨lineEnd, ret⟩ := first c rfl
      unfold withoutLineEnd
      split
      · rename_i same
        exact absurd (List.cons.inj same).1 lineEnd
      · rename_i same
        exact absurd (List.cons.inj same).1 ret
      · rfl

theorem readQuoted_lines (text rest : List Char) :
    readQuoted (['"', '"', '"'] ++ opening text ++ escaped true 2 0 text ++ ['"', '"', '"'] ++ '\n' :: rest) =
      some (text, '\n' :: rest) := by
  have first (single : '\n' ∉ text) :
      ∀ c ∈ (escaped true 2 0 text ++ '"' :: '"' :: '"' :: '\n' :: rest).head?, c ≠ '\n' ∧ c ≠ '\r' := by
    cases text with
    | nil => simp [escaped]
    | cons c text =>
      by_cases quote : c = '"'
      · subst quote
        simp [escaped]
      · rw [escaped_other quote]
        have stands := stands_escape true c
        generalize escape true c = written at stands
        cases stands with
        | lineEnd _ same => exact absurd (List.mem_cons.mpr (.inl same.symm)) single
        | plain printable =>
          simp only [List.cons_append, List.head?_cons, Option.mem_some_iff, forall_eq']
          constructor <;> (rintro rfl; exact absurd printable (by decide))
        | mark | code => simp
  have lines := readLines_escaped text rest (Nat.zero_le 2)
  rw [← withoutLineEnd_opening first] at lines
  simpa [readQuoted] using lines

theorem readQuoted_literalLines (plain : ∀ c ∈ text, c = '\n' ∨ isPrintable c = true)
    (few : ¬ ['\'', '\'', '\''] <:+: text) (rest : List Char) :
    readQuoted (['\'', '\'', '\''] ++ opening text ++ text ++ ['\'', '\'', '\''] ++ '\n' :: rest) =
      some (text, '\n' :: rest) := by
  have first (single : '\n' ∉ text) :
      ∀ c ∈ (text ++ '\'' :: '\'' :: '\'' :: '\n' :: rest).head?, c ≠ '\n' ∧ c ≠ '\r' := by
    cases text with
    | nil => simp
    | cons c text =>
      simp only [List.cons_append, List.head?_cons, Option.mem_some_iff, forall_eq']
      have lineEnd : c ≠ '\n' := fun same => single (List.mem_cons.mpr (.inl same.symm))
      refine ⟨lineEnd, ?_⟩
      rintro rfl
      exact absurd ((plain '\r' List.mem_cons_self).resolve_left lineEnd) (by decide)
  have lines := readLiteralLines_append plain few rest
  rw [← withoutLineEnd_opening first] at lines
  simpa [readQuoted] using lines

/-- Any text that is written between quotes is read back, whatever characters are in it and whatever line comes after it. -/
theorem readQuoted_writeQuoted (text rest : List Char) :
    readQuoted (writeQuoted text ++ '\n' :: rest) = some (text, '\n' :: rest) := by
  have plain (noControls : (text.any fun c => !(isPrintable c || c == '\n')) = false) :
      ∀ c ∈ text, c = '\n' ∨ isPrintable c = true := fun c member => by
    have stands := List.any_eq_false.mp noControls c member
    rwa [Bool.not_eq_true', Bool.not_eq_false, Bool.or_eq_true, beq_iff_eq, or_comm] at stands
  have printable (noControls : (text.any fun c => !(isPrintable c || c == '\n')) = false) (single : '\n' ∉ text) :
      ∀ c ∈ text, isPrintable c = true := fun c member =>
    (plain noControls c member).resolve_left fun same => single (same ▸ member)
  unfold writeQuoted
  dsimp only
  split
  · exact readQuoted_basic text rest
  · split
    · rename_i form
      simp only [Bool.and_eq_true, Bool.not_eq_true', decide_eq_true_eq, decide_eq_false_iff_not] at form
      exact readQuoted_literal (printable form.1.1 form.2) (not_mem_of_longestRun form.1.2) rest
    · split
      · exact readQuoted_lines text rest
      · split
        · rename_i form
          simp only [Bool.and_eq_true, Bool.not_eq_true', decide_eq_true_eq] at form
          refine readQuoted_literalLines (plain form.1) (fun within => ?_) rest
          have long := le_longestRun (n := 3) within
          omega
        · split
          · rename_i several
            have lines := readQuoted_lines text rest
            rwa [opening, if_pos several] at lines
          · exact readQuoted_basic text rest

end Forms
end ProxyMonitor.Toml
