import ProxyMonitor.Proofs.Text.Utf8
import ProxyMonitor.Url.Percent

/-! Escaped bytes are read as themselves, and what has been escaped is not escaped again. -/
namespace ProxyMonitor.Url.Percent
open ProxyMonitor.Text

/-- Characters of escapes. -/
def isEscape (c : Char) : Bool :=
  c == '%' || ('0' ≤ c && c ≤ '9') || ('A' ≤ c && c ≤ 'F')

theorem toNat_lt_of_isEscape {c : Char} (h : isEscape c = true) : c.toNat < 0x80 := by
  simp only [isEscape, Bool.or_eq_true, beq_iff_eq, Bool.and_eq_true, decide_eq_true_eq, Char.le_def,
    UInt32.le_iff_toNat_le] at h
  rcases h with (rfl | ⟨_, h⟩) | ⟨_, h⟩
  · decide
  · exact Nat.lt_of_le_of_lt h (by decide)
  · exact Nat.lt_of_le_of_lt h (by decide)

theorem isEscape_hexDigit : ∀ n < 16, isEscape (hexDigit 'A' n) = true := by
  decide

theorem isEscape_of_mem_escape {b : UInt8} {c : Char} (h : c ∈ escape b) : isEscape c = true := by
  have high : b.toNat / 16 < 16 := by have := b.toNat_lt; omega
  have low : b.toNat % 16 < 16 := Nat.mod_lt _ (by omega)
  simp only [escape, List.mem_cons, List.not_mem_nil, or_false] at h
  rcases h with rfl | rfl | rfl
  · rfl
  · exact isEscape_hexDigit _ high
  · exact isEscape_hexDigit _ low

theorem decode_escape (b : UInt8) (rest : List Char) : decode (escape b ++ rest) = b :: decode rest := by
  have high : b.toNat / 16 < 16 := by have := b.toNat_lt; omega
  have low : b.toNat % 16 < 16 := Nat.mod_lt _ (by omega)
  have value : UInt8.ofNat (b.toNat / 16 * 16 + b.toNat % 16) = b := by
    rw [Nat.div_add_mod']
    exact UInt8.ofNat_toNat
  simp only [escape, List.cons_append, List.nil_append]
  rw [decode]
  simp only [(hexValue?_hexDigit _ high).2, (hexValue?_hexDigit _ low).2, value]

theorem decode_flatMap_escape (bytes : List UInt8) (rest : List Char) :
    decode (bytes.flatMap escape ++ rest) = bytes ++ decode rest := by
  induction bytes with
  | nil => rfl
  | cons b bytes ih => rw [List.flatMap_cons, List.append_assoc, decode_escape, ih, List.cons_append]

theorem decode_cons {c : Char} (h : c ≠ '%') (rest : List Char) :
    decode (c :: rest) = String.utf8EncodeChar c ++ decode rest := by
  rw [decode]
  exact fun _ _ _ heq => absurd heq h

/-- Where no percent sign stands for itself, a character is read as its bytes. -/
theorem decode_encodeChar {set : Char → Bool} (percent : set '%' = true) (c : Char) (rest : List Char) :
    decode (encodeChar set c ++ rest) = String.utf8EncodeChar c ++ decode rest := by
  unfold encodeChar
  split
  · exact decode_flatMap_escape _ rest
  · rename_i h
    refine decode_cons (fun hc => h ?_) rest
    rw [hc, percent, Bool.or_true]

/-- Every text is read as its bytes then. -/
theorem decode_encode {set : Char → Bool} (percent : set '%' = true) (text : List Char) :
    decode (encode set text) = Utf8.encode text := by
  induction text with
  | nil => rfl
  | cons c text ih =>
    have split : encode set (c :: text) = encodeChar set c ++ encode set text := List.flatMap_cons
    rw [split, decode_encodeChar percent, ih]
    rfl

theorem mem_encodeChar {set : Char → Bool} {c d : Char} (h : d ∈ encodeChar set c) :
    isEscape d = true ∨ d = c ∧ d.toNat < 0x80 ∧ set d = false := by
  unfold encodeChar at h
  split at h
  · obtain ⟨b, _, hd⟩ := List.mem_flatMap.mp h
    exact .inl (isEscape_of_mem_escape hd)
  · rename_i plain
    obtain rfl := List.mem_singleton.mp h
    simp only [Bool.or_eq_true, decide_eq_true_eq, not_or, Bool.not_eq_true] at plain
    exact .inr ⟨rfl, by omega, plain.2⟩

theorem mem_encode {set : Char → Bool} {text : List Char} {d : Char} (h : d ∈ encode set text) :
    isEscape d = true ∨ d ∈ text ∧ d.toNat < 0x80 ∧ set d = false := by
  obtain ⟨c, hc, hd⟩ := List.mem_flatMap.mp h
  rcases mem_encodeChar hd with hd | ⟨rfl, plain⟩
  · exact .inl hd
  · exact .inr ⟨hc, plain⟩

/-- Characters that are in no need of an escape are left as they are. -/
theorem encode_eq_self {set : Char → Bool} {text : List Char}
    (h : ∀ c ∈ text, c.toNat < 0x80 ∧ set c = false) : encode set text = text := by
  induction text with
  | nil => rfl
  | cons c text ih =>
    obtain ⟨ascii, plain⟩ := h c List.mem_cons_self
    have first : encodeChar set c = [c] := by
      have small : ¬ 0x80 ≤ c.toNat := by omega
      simp [encodeChar, plain, small]
    have rest := ih fun d hd => h d (List.mem_cons_of_mem _ hd)
    rw [encode] at rest ⊢
    rw [List.flatMap_cons, first, rest]
    rfl

end ProxyMonitor.Url.Percent
