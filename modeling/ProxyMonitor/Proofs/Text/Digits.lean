import Mathlib.Algebra.Group.Nat.Defs
import Mathlib.Data.List.Induction
import ProxyMonitor.Text.Blank

/-! Decimal digits: a number is read back from its digits, whatever zeros are put before them, and only zero is written
with a leading one. -/
namespace ProxyMonitor.Text
variable {n width : Nat} {c : Char}

theorem toNat_of_isDigit (h : isDigit c = true) : 48 ≤ c.toNat ∧ c.toNat ≤ 57 := by
  simp only [isDigit, Bool.and_eq_true, decide_eq_true_eq, Char.le_def, UInt32.le_iff_toNat_le] at h
  exact h

theorem isDigit_of_mem_digits (h : c ∈ digits n) : isDigit c = true := by
  have digit := Nat.isDigit_of_mem_toDigits (by decide) (by decide) h
  simp only [Char.isDigit, Bool.and_eq_true, decide_eq_true_eq, ge_iff_le] at digit
  simpa [isDigit, Char.le_def] using digit

theorem natOfDigits_append (front back : List Char) :
    natOfDigits (front ++ back) = back.foldl (fun n c => n * 10 + digitValue c) (natOfDigits front) :=
  List.foldl_append

theorem natOfDigits_digits (n : Nat) : natOfDigits (digits n) = n := by
  have same : natOfDigits (digits n) = Nat.ofDigitChars 10 (digits n) 0 := by
    unfold natOfDigits Nat.ofDigitChars digitValue
    simp only [Nat.mul_comm]
    rfl
  rw [same, digits, Nat.ofDigitChars_toDigits (by decide) (by decide)]

theorem natOfDigits_lt {run : List Char} (digits : ∀ c ∈ run, isDigit c = true) : natOfDigits run < 10 ^ run.length := by
  induction run using List.reverseRecOn with
  | nil => decide
  | append_singleton run c ih =>
    have front := ih fun d hd => digits d (List.mem_append_left _ hd)
    have digit := digits c (List.mem_append_right _ List.mem_cons_self)
    have small : digitValue c ≤ 9 := by
      have most := (toNat_of_isDigit digit).2
      unfold digitValue
      omega
    rw [natOfDigits_append, List.length_append, List.length_singleton, Nat.pow_succ]
    show natOfDigits run * 10 + digitValue c < _
    omega

theorem digits_ne_nil (n : Nat) : digits n ≠ [] :=
  Nat.toDigits_ne_nil

/-- No digits begin with a zero but those of zero. -/
theorem digits_head (h : 0 < n) : (digits n).head?.any (· != '0') = true := by
  induction n using Nat.strongRecOn with
  | _ n ih =>
    rw [digits, Nat.toDigits_eq_if (by decide)]
    split
    · rename_i small
      have nonzero : ∀ m < 10, 0 < m → (m.digitChar != '0') = true := by decide
      simpa using nonzero n small h
    · have front := ih (n / 10) (by omega) (by omega)
      have some := digits_ne_nil (n / 10)
      rw [digits] at front some
      rw [List.head?_append]
      cases first : (Nat.toDigits 10 (n / 10)).head? with
      | none => exact absurd (List.head?_eq_none_iff.mp first) some
      | some c => rwa [first] at front

theorem isDigit_of_mem_padded (h : c ∈ padded width n) : isDigit c = true := by
  rcases List.mem_append.mp h with h | h
  · rw [List.eq_of_mem_replicate h]
    rfl
  · exact isDigit_of_mem_digits h

theorem natOfDigits_padded (width n : Nat) : natOfDigits (padded width n) = n := by
  have zeros (count : Nat) : natOfDigits (List.replicate count '0') = 0 := by
    induction count with
    | zero => rfl
    | succ count ih => exact ih
  rw [padded, natOfDigits_append, zeros]
  exact natOfDigits_digits n

theorem length_padded (some : 0 < width) (fits : n < 10 ^ width) : (padded width n).length = width := by
  have short : (digits n).length ≤ width := (Nat.length_toDigits_le_iff (by decide) some).mpr fits
  rw [padded, List.length_append, List.length_replicate]
  omega

end ProxyMonitor.Text
