import ProxyMonitor.Proofs.Text.Parts
import ProxyMonitor.Proofs.Url.Percent
import ProxyMonitor.Url.Form

/-! Pairs are read back from their form encoding, in which nothing needs an escape any more. -/
namespace ProxyMonitor.Url.Form
open ProxyMonitor.Text

/-- Characters of encoded keys and values. -/
def isEncoded (c : Char) : Bool :=
  isPlain c || c == '+' || Percent.isEscape c

theorem toNat_lt_of_isPlain {c : Char} (h : isPlain c = true) : c.toNat < 0x80 := by
  simp only [isPlain, Bool.or_eq_true, List.mem_cons, List.not_mem_nil, or_false, decide_eq_true_eq] at h
  rcases h with h | rfl | rfl | rfl | rfl
  · unfold Char.isAlphanum Char.isAlpha Char.isUpper Char.isLower Char.isDigit at h
    simp only [Bool.or_eq_true, Bool.and_eq_true, decide_eq_true_eq, UInt32.le_iff_toNat_le, ge_iff_le] at h
    have value : c.val.toNat = c.toNat := rfl
    rw [← value]
    rcases h with (h | h) | h <;> exact Nat.lt_of_le_of_lt h.2 (by decide)
  · decide
  · decide
  · decide
  · decide

theorem toNat_lt_of_isEncoded {c : Char} (h : isEncoded c = true) : c.toNat < 0x80 := by
  simp only [isEncoded, Bool.or_eq_true, beq_iff_eq] at h
  rcases h with (h | rfl) | h
  · exact toNat_lt_of_isPlain h
  · decide
  · exact Percent.toNat_lt_of_isEscape h

private theorem isPlain_ne {c d : Char} (h : isPlain c = true) (hd : isPlain d = false) : c ≠ d := by
  rintro rfl
  rw [h] at hd
  cases hd

theorem isEncoded_of_mem {text : List Char} {c : Char} (h : c ∈ encode text) : isEncoded c = true := by
  obtain ⟨d, _, hc⟩ := List.mem_flatMap.mp h
  unfold encodeChar at hc
  split at hc
  · obtain rfl := List.mem_singleton.mp hc
    rfl
  · rcases Percent.mem_encodeChar hc with hc | ⟨rfl, _, plain⟩
    · simp [isEncoded, hc]
    · have plain : isPlain c = true := by simpa using plain
      simp [isEncoded, plain]

private theorem isEscape_ne_plus {c : Char} (h : Percent.isEscape c = true) : c ≠ '+' := by
  rintro rfl
  exact absurd h (by decide)

/-- A blank in the place of each plus sign. -/
private def unplus (c : Char) : Char :=
  if c == '+' then ' ' else c

private theorem map_unplus {text : List Char} (h : ∀ c ∈ text, c ≠ '+') : text.map unplus = text := by
  rw [List.map_congr_left (g := id) fun c hc => by simp [unplus, h c hc], List.map_id]

private theorem decode_encodeChar (c : Char) (rest : List Char) :
    Percent.decode ((encodeChar c).map unplus ++ rest) = String.utf8EncodeChar c ++ Percent.decode rest := by
  unfold encodeChar
  split
  · rename_i blank
    obtain rfl := eq_of_beq blank
    exact Percent.decode_cons (by decide) rest
  · have kept : ∀ d ∈ Percent.encodeChar (fun c => !isPlain c) c, d ≠ '+' := by
      intro d hd
      rcases Percent.mem_encodeChar hd with hd | ⟨_, _, plain⟩
      · exact isEscape_ne_plus hd
      · exact isPlain_ne (by simpa using plain) (by decide)
    rw [map_unplus kept, Percent.decode_encodeChar (by decide)]

private theorem decode_encode (text : List Char) :
    Percent.decode ((encode text).map unplus) = Utf8.encode text := by
  induction text with
  | nil => rfl
  | cons c text ih =>
    have split : encode (c :: text) = encodeChar c ++ encode text := List.flatMap_cons
    rw [split, List.map_append, decode_encodeChar, ih]
    rfl

/-- Every key and every value is read back, whatever its characters are. -/
theorem decodePart_encode (s : String) : decodePart (encode s.toList) = s := by
  have read := decode_encode s.toList
  unfold unplus at read
  rw [decodePart, read, Utf8.decodeLossy_encode, String.ofList_toList]

theorem not_mem_encode {c : Char} (h : isEncoded c = false) (text : List Char) : c ∉ encode text := by
  intro hc
  rw [isEncoded_of_mem hc] at h
  cases h

theorem decodePair_encodePair (pair : String × String) : decodePair (encodePair pair) = pair := by
  have key : ∀ c ∈ encode pair.1.toList, (c != '=') = true := by
    intro c hc
    exact bne_iff_ne.mpr (ne_of_mem_of_not_mem hc (not_mem_encode (by decide) _))
  unfold decodePair encodePair
  rw [List.takeWhile_append_of_pos key, List.dropWhile_append_of_pos key]
  simp [decodePart_encode]

private theorem mem_encodePair {pair : String × String} {c : Char} (h : c ∈ encodePair pair) :
    isEncoded c = true ∨ c = '=' := by
  unfold encodePair at h
  rcases List.mem_append.mp h with h | h
  · exact .inl (isEncoded_of_mem h)
  · rcases List.mem_cons.mp h with h | h
    · exact .inr h
    · exact .inl (isEncoded_of_mem h)

/-- What is written of pairs is read as the same pairs in the same order. -/
theorem read_write (pairs : Pairs) : read (write pairs) = pairs := by
  cases pairs with
  | nil => rfl
  | cons first rest =>
    have apart : ∀ part ∈ (first :: rest).map encodePair, '&' ∉ part := by
      intro part hpart hmem
      obtain ⟨pair, _, rfl⟩ := List.mem_map.mp hpart
      rcases mem_encodePair hmem with h | h
      · exact absurd h (by decide)
      · exact absurd h (by decide)
    have given : ∀ part ∈ (first :: rest).map encodePair, (!part.isEmpty) = true := by
      intro part hpart
      obtain ⟨pair, _, rfl⟩ := List.mem_map.mp hpart
      simp [encodePair]
    rw [read, write, List.splitOn_intercalate _ apart (by simp),
      List.filter_eq_self.mpr given, List.map_map]
    calc (first :: rest).map (decodePair ∘ encodePair)
        = (first :: rest).map id := List.map_congr_left fun pair _ => decodePair_encodePair pair
      _ = first :: rest := List.map_id _

/-- Only no pairs are written as nothing. -/
theorem isEmpty_write (pairs : Pairs) : (write pairs).isEmpty = pairs.isEmpty := by
  match pairs with
  | [] => rfl
  | [pair] => simp [write, encodePair]
  | pair :: second :: rest => simp [write, encodePair]

/-- Characters of a written query. -/
theorem mem_write {pairs : Pairs} {c : Char} (h : c ∈ write pairs) : isEncoded c = true ∨ c = '=' ∨ c = '&' := by
  rw [write] at h
  rcases mem_intercalate h with h | ⟨part, hpart, h⟩
  · exact .inr (.inr h)
  · obtain ⟨pair, _, rfl⟩ := List.mem_map.mp hpart
    exact (mem_encodePair h).imp_right .inl

end ProxyMonitor.Url.Form
