import ProxyMonitor.Proofs.Text.Utf8

/-! Looking for a text by its bytes. A pattern that begins with a character of ASCII is found where a character begins, so
that the text can be cut there. -/
namespace ProxyMonitor.Text

/-- What stands before and after the first occurrence of a pattern. -/
def around? (pattern : List Char) : List Char → Option (List Char × List Char)
  | [] => none
  | c :: rest =>
    if pattern <+: c :: rest then some ([], (c :: rest).drop pattern.length)
    else (around? pattern rest).map fun (front, back) => (c :: front, back)

theorem around?_eq_some {pattern text front back : List Char} (h : around? pattern text = some (front, back)) :
    text = front ++ pattern ++ back := by
  induction text generalizing front with
  | nil => cases h
  | cons c rest ih =>
    rw [around?] at h
    split at h
    · rename_i here
      obtain ⟨after, whole⟩ := here
      rw [← whole, List.drop_left] at h
      cases h
      exact whole.symm
    · obtain ⟨⟨front', back'⟩, found, parts⟩ := Option.map_eq_some_iff.mp h
      cases parts
      rw [List.cons_append, List.cons_append, ← ih found]

namespace Utf8

/-- Where bytes occur for the first time. -/
def find? (pattern : List UInt8) : List UInt8 → Option Nat
  | [] => none
  | b :: rest => if pattern <+: b :: rest then some 0 else (find? pattern rest).map (· + 1)

/-- The text from a byte on. There is none within a character and beyond the end. -/
def textFrom? (bytes : List UInt8) (start : Nat) : Option (List Char) :=
  if start ≤ bytes.length then decode? (bytes.drop start) else none

theorem encode_append (front back : List Char) : encode (front ++ back) = encode front ++ encode back :=
  List.flatMap_append

theorem textFrom?_encode (front back : List Char) : textFrom? (encode (front ++ back)) (encode front).length = some back := by
  rw [textFrom?, encode_append, List.length_append, if_pos (Nat.le_add_right _ _), List.drop_left, decode?_encode]

example : textFrom? (encode ['ä', '/']) 1 = none ∧ textFrom? (encode ['ä', '/']) 2 = some ['/'] := by cbv

/-- Characters stand where their bytes do. -/
theorem encode_prefix {pattern text : List Char} : encode pattern <+: encode text ↔ pattern <+: text := by
  constructor
  · rintro ⟨after, whole⟩
    have scanned := scan_encode_append pattern after
    rw [whole, scan_encode] at scanned
    obtain ⟨front, back, rfl, same, _⟩ := List.map_eq_append_iff.mp scanned
    rw [(List.map_inj_right fun _ _ => Option.some.inj).mp same]
    exact List.prefix_append pattern back
  · rintro ⟨back, rfl⟩
    exact ⟨encode back, (encode_append pattern back).symm⟩

/-- No byte of a character but its first one is ASCII. -/
theorem encodeChar_tail (c : Char) :
    ∃ first after, String.utf8EncodeChar c = first :: after ∧ ∀ b ∈ after, ¬ b < 0x80 := by
  have high {n : Nat} (h : n < 64) : ¬ UInt8.ofNat (n + 128) < 0x80 := by
    rw [UInt8.lt_iff_toNat_lt, UInt8.toNat_ofNat', Nat.mod_eq_of_lt (by omega)]
    exact Nat.not_lt.mpr (Nat.le_add_left 128 n)
  unfold String.utf8EncodeChar
  dsimp only
  split
  · exact ⟨_, _, rfl, nofun⟩
  · split
    · refine ⟨_, _, rfl, ?_⟩
      simp only [List.forall_mem_cons]
      exact ⟨high (by omega), nofun⟩
    · split
      · refine ⟨_, _, rfl, ?_⟩
        simp only [List.forall_mem_cons]
        exact ⟨high (by omega), high (by omega), nofun⟩
      · refine ⟨_, _, rfl, ?_⟩
        simp only [List.forall_mem_cons]
        exact ⟨high (by omega), high (by omega), high (by omega), nofun⟩

/-- Bytes that are not ASCII are passed over. -/
theorem find?_append {b : UInt8} (ascii : b < 0x80) (more : List UInt8) {skipped : List UInt8}
    (others : ∀ s ∈ skipped, ¬ s < 0x80) (rest : List UInt8) :
    find? (b :: more) (skipped ++ rest) = (find? (b :: more) rest).map (· + skipped.length) := by
  induction skipped with
  | nil => exact Option.map_id'.symm
  | cons s skipped ih =>
    obtain ⟨here, later⟩ := List.forall_mem_cons.mp others
    have missed : ¬ b :: more <+: s :: (skipped ++ rest) := by
      intro same
      exact here ((List.cons_prefix_cons.mp same).1 ▸ ascii)
    rw [List.cons_append, find?, if_neg missed, ih later, Option.map_map]
    rfl

/-- The first occurrence of a pattern among the bytes is the one among the characters. -/
theorem find?_encode {pattern : List Char} (begins : ∃ b more, encode pattern = b :: more ∧ b < 0x80) (text : List Char) :
    find? (encode pattern) (encode text) = (around? pattern text).map fun parts => (encode parts.1).length := by
  obtain ⟨b, more, bytes, ascii⟩ := begins
  induction text with
  | nil => rfl
  | cons c rest ih =>
    obtain ⟨first, after, char, others⟩ := encodeChar_tail c
    have whole : encode (c :: rest) = first :: (after ++ encode rest) := by
      simp [encode, char]
    have here : encode pattern <+: first :: (after ++ encode rest) ↔ pattern <+: c :: rest := by
      rw [← whole, encode_prefix]
    rw [whole, find?, around?]
    simp only [here]
    split
    · rfl
    · rw [bytes, find?_append ascii more others, ← bytes, ih, Option.map_map, Option.map_map, Option.map_map]
      have longer (front : List Char) : (encode (c :: front)).length = (encode front).length + after.length + 1 := by
        simp only [encode, List.flatMap_cons, char, List.length_append, List.length_cons]
        omega
      exact Option.map_congr fun parts _ => (longer parts.1).symm

end Utf8
end ProxyMonitor.Text
