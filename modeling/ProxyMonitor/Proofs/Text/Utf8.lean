import ProxyMonitor.Text.Utf8

/-! The bytes of a text are read as its characters. -/
namespace ProxyMonitor.Text.Utf8
variable {c : Char} {rest : List UInt8}

private theorem toNat_ofNat {n : Nat} (h : n < 256) : (UInt8.ofNat n).toNat = n := by
  rw [UInt8.toNat_ofNat', Nat.mod_eq_of_lt h]

private theorem ofNat_eq_iff {n k : Nat} (h : n < 256) (hk : k < 256) : UInt8.ofNat n = UInt8.ofNat k ↔ n = k := by
  rw [← UInt8.toNat_inj, toNat_ofNat h, toNat_ofNat hk]

theorem within_ofNat {low high n : Nat} (h : n < 256) :
    within low high (UInt8.ofNat n) = true ↔ low ≤ n ∧ n ≤ high := by
  simp [within, toNat_ofNat h]

/-- The bytes after the first one carry six bits each. -/
theorem tail_ofNat {n : Nat} (h : n < 64) : tail (UInt8.ofNat (n + 128)) = true :=
  (within_ofNat (by omega)).mpr (by omega)

theorem bits_ofNat {n : Nat} (h : n < 64) : bits (UInt8.ofNat (n + 128)) = n := by
  rw [bits, toNat_ofNat (by omega)]
  omega

private theorem lt_128_iff {n : Nat} (h : n < 256) : UInt8.ofNat n < 0x80 ↔ n < 128 := by
  rw [UInt8.lt_iff_toNat_lt, toNat_ofNat h]
  rfl

theorem readOne_ascii {n : Nat} (h : n < 128) (rest : List UInt8) :
    readOne (UInt8.ofNat n) rest = (some (Char.ofNat n), 0) := by
  unfold readOne
  rw [if_pos ((lt_128_iff (by omega)).mpr h), toNat_ofNat (by omega)]

/-- The first byte of a sequence of two carries five bits; less than two of them would be overlong. -/
theorem readOne_two {a b : Nat} (ha : 2 ≤ a ∧ a < 32) (hb : b < 64) (rest : List UInt8) :
    readOne (UInt8.ofNat (a + 192)) (UInt8.ofNat (b + 128) :: rest) = (some (Char.ofNat (a * 64 + b)), 1) := by
  have notOne : ¬ UInt8.ofNat (a + 192) < 0x80 := by
    rw [lt_128_iff (by omega)]
    omega
  have first : within 0xC2 0xDF (UInt8.ofNat (a + 192)) = true := (within_ofNat (by omega)).mpr (by omega)
  have bits₁ : (UInt8.ofNat (a + 192)).toNat % 32 = a := by
    rw [toNat_ofNat (by omega)]
    omega
  unfold readOne
  rw [if_neg notOne, if_pos first]
  simp only [tail_ofNat hb, if_true, bits_ofNat hb, bits₁]

theorem readOne_three {a b c : Nat} (ha : a < 16) (hb : b < 64) (hc : c < 64)
    (proper : a = 0 → 32 ≤ b) (noSurrogate : a = 13 → b < 32) (rest : List UInt8) :
    readOne (UInt8.ofNat (a + 224)) (UInt8.ofNat (b + 128) :: UInt8.ofNat (c + 128) :: rest) =
      (some (Char.ofNat (a * 4096 + b * 64 + c)), 2) := by
  have notOne : ¬ UInt8.ofNat (a + 224) < 0x80 := by
    rw [lt_128_iff (by omega)]
    omega
  have notTwo : ¬ within 0xC2 0xDF (UInt8.ofNat (a + 224)) = true := by
    rw [within_ofNat (by omega)]
    omega
  have first : within 0xE0 0xEF (UInt8.ofNat (a + 224)) = true := (within_ofNat (by omega)).mpr (by omega)
  have second : secondOfThree (UInt8.ofNat (a + 224)) (UInt8.ofNat (b + 128)) = true := by
    have lowest : UInt8.ofNat (a + 224) = 0xE0 ↔ a + 224 = 224 := ofNat_eq_iff (k := 224) (by omega) (by omega)
    have beforeSurrogates : UInt8.ofNat (a + 224) = 0xED ↔ a + 224 = 237 :=
      ofNat_eq_iff (k := 237) (by omega) (by omega)
    unfold secondOfThree
    simp only [lowest, beforeSurrogates]
    split
    · exact (within_ofNat (by omega)).mpr (by omega)
    · split
      · exact (within_ofNat (by omega)).mpr (by omega)
      · exact tail_ofNat hb
  have bits₁ : (UInt8.ofNat (a + 224)).toNat % 16 = a := by
    rw [toNat_ofNat (by omega)]
    omega
  unfold readOne
  rw [if_neg notOne, if_neg notTwo, if_pos first]
  simp only [second, tail_ofNat hc, if_true, bits_ofNat hb, bits_ofNat hc, bits₁]

theorem readOne_four {a b c d : Nat} (ha : a < 5) (hb : b < 64) (hc : c < 64) (hd : d < 64)
    (proper : a = 0 → 16 ≤ b) (last : a = 4 → b < 16) (rest : List UInt8) :
    readOne (UInt8.ofNat (a + 240))
        (UInt8.ofNat (b + 128) :: UInt8.ofNat (c + 128) :: UInt8.ofNat (d + 128) :: rest) =
      (some (Char.ofNat (a * 262144 + b * 4096 + c * 64 + d)), 3) := by
  have notOne : ¬ UInt8.ofNat (a + 240) < 0x80 := by
    rw [lt_128_iff (by omega)]
    omega
  have notTwo : ¬ within 0xC2 0xDF (UInt8.ofNat (a + 240)) = true := by
    rw [within_ofNat (by omega)]
    omega
  have notThree : ¬ within 0xE0 0xEF (UInt8.ofNat (a + 240)) = true := by
    rw [within_ofNat (by omega)]
    omega
  have first : within 0xF0 0xF4 (UInt8.ofNat (a + 240)) = true := (within_ofNat (by omega)).mpr (by omega)
  have second : secondOfFour (UInt8.ofNat (a + 240)) (UInt8.ofNat (b + 128)) = true := by
    have lowest : UInt8.ofNat (a + 240) = 0xF0 ↔ a + 240 = 240 := ofNat_eq_iff (k := 240) (by omega) (by omega)
    have highest : UInt8.ofNat (a + 240) = 0xF4 ↔ a + 240 = 244 := ofNat_eq_iff (k := 244) (by omega) (by omega)
    unfold secondOfFour
    simp only [lowest, highest]
    split
    · exact (within_ofNat (by omega)).mpr (by omega)
    · split
      · exact (within_ofNat (by omega)).mpr (by omega)
      · exact tail_ofNat hb
  have bits₁ : (UInt8.ofNat (a + 240)).toNat % 8 = a := by
    rw [toNat_ofNat (by omega)]
    omega
  unfold readOne
  rw [if_neg notOne, if_neg notTwo, if_neg notThree, if_pos first]
  simp only [second, tail_ofNat hc, tail_ofNat hd, if_true, bits_ofNat hb, bits_ofNat hc, bits_ofNat hd, bits₁]

/-- Every character is read from its bytes, whatever follows. -/
theorem readOne_encodeChar (c : Char) (rest : List UInt8) :
    ∃ first after, String.utf8EncodeChar c = first :: after ∧
      readOne first (after ++ rest) = (some c, after.length) := by
  have valid : c.toNat < 55296 ∨ 57343 < c.toNat ∧ c.toNat < 1114112 := c.valid
  have back : Char.ofNat c.toNat = c := Char.ofNat_toNat c
  have value : c.val.toNat = c.toNat := rfl
  unfold String.utf8EncodeChar
  simp only [value]
  split
  · refine ⟨_, _, rfl, ?_⟩
    rw [List.nil_append, readOne_ascii (by omega), back]
    rfl
  · split
    · refine ⟨_, _, rfl, ?_⟩
      have sum : c.toNat / 64 % 32 * 64 + c.toNat % 64 = c.toNat := by omega
      rw [List.singleton_append, readOne_two (by omega) (by omega), sum, back]
      rfl
    · split
      · refine ⟨_, _, rfl, ?_⟩
        have sum : c.toNat / 4096 % 16 * 4096 + c.toNat / 64 % 64 * 64 + c.toNat % 64 = c.toNat := by omega
        rw [List.cons_append, List.singleton_append,
          readOne_three (by omega) (by omega) (by omega) (by omega) (by omega), sum, back]
        rfl
      · refine ⟨_, _, rfl, ?_⟩
        have sum : c.toNat / 262144 % 8 * 262144 + c.toNat / 4096 % 64 * 4096 + c.toNat / 64 % 64 * 64 +
            c.toNat % 64 = c.toNat := by omega
        rw [List.cons_append, List.cons_append, List.singleton_append,
          readOne_four (by omega) (by omega) (by omega) (by omega) (by omega) (by omega), sum, back]
        rfl

theorem scan_cons (b : UInt8) (rest : List UInt8) :
    scan (b :: rest) = (readOne b rest).1 :: scan (rest.drop (readOne b rest).2) := by
  rw [scan]

theorem scan_encode_append (text : List Char) (rest : List UInt8) :
    scan (encode text ++ rest) = text.map some ++ scan rest := by
  induction text with
  | nil => rfl
  | cons c text ih =>
    obtain ⟨first, after, bytes, read⟩ := readOne_encodeChar c (encode text ++ rest)
    have split : encode (c :: text) ++ rest = first :: (after ++ (encode text ++ rest)) := by
      simp [encode, bytes]
    rw [split, scan_cons, read, List.drop_left, ih]
    rfl

@[simp] theorem scan_encode (text : List Char) : scan (encode text) = text.map some := by
  have read := scan_encode_append text []
  rw [List.append_nil] at read
  rw [read, scan, List.append_nil]

@[simp] theorem decodeLossy_encode (text : List Char) : decodeLossy (encode text) = text := by
  rw [decodeLossy, scan_encode, List.map_map]
  exact List.map_id text

@[simp] theorem decode?_encode (text : List Char) : decode? (encode text) = some text := by
  rw [decode?, scan_encode]
  induction text with
  | nil => rfl
  | cons c text ih => simp [ih]

theorem toString?_ofString (text : String) : toString? (ofString text) = some text := by
  rw [toString?, ofString, decode?_encode, Option.map_some, String.ofList_toList]

theorem length_le_encode (text : List Char) : text.length ≤ (encode text).length := by
  induction text with
  | nil => exact Nat.le_refl _
  | cons c text ih =>
    have some : 0 < (String.utf8EncodeChar c).length := by
      rw [String.length_utf8EncodeChar]
      exact c.utf8Size_pos
    have split : encode (c :: text) = String.utf8EncodeChar c ++ encode text := rfl
    rw [split, List.length_append, List.length_cons]
    omega

/-- The bytes of a text are no other text's. -/
theorem encode_injective : Function.Injective encode :=
  Function.LeftInverse.injective decodeLossy_encode

end ProxyMonitor.Text.Utf8
