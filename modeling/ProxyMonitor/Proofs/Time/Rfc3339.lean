import Mathlib.Data.List.TakeWhile
import ProxyMonitor.Proofs.Text.Digits
import ProxyMonitor.Proofs.Time.Calendar
import ProxyMonitor.Proofs.Yields
import ProxyMonitor.Time.Rfc3339

/-! An instant that was read is read again from its text: the same second, and the same part of it. -/
namespace ProxyMonitor.Time
open ProxyMonitor.Text

/-- What the text form can say: a date of the calendar, and a leap second only at the end of a minute. -/
structure Instant.Writable (t : Instant) : Prop where
  inRange : t.inRange = true
  nanos : t.nanos < Instant.billion ∨ t.nanos < 2 * Instant.billion ∧ t.seconds % 60 = 59

namespace Rfc3339

theorem nanoseconds_lt {text rest : List Char} {nanos : Nat} (h : nanoseconds text = some (nanos, rest)) :
    nanos < Instant.billion := by
  unfold nanoseconds at h
  split at h
  · rename_i rest
    dsimp only at h
    split at h
    · cases h
    · cases h
      have digits : ∀ c ∈ (rest.takeWhile isDigit).take 9, isDigit c = true :=
        fun c hc => List.mem_takeWhile_imp (List.mem_of_mem_take hc)
      have short : ((rest.takeWhile isDigit).take 9).length ≤ 9 := List.length_take_le _ _
      have below := natOfDigits_lt digits
      generalize (rest.takeWhile isDigit).take 9 = kept at *
      calc natOfDigits kept * 10 ^ (9 - kept.length)
          < 10 ^ kept.length * 10 ^ (9 - kept.length) := Nat.mul_lt_mul_of_pos_right below (Nat.pow_pos (by decide))
        _ = Instant.billion := by rw [← Nat.pow_add, Nat.add_sub_cancel' short]; rfl
  · cases h
    decide

theorem read_writable (text : List Char) : Yields Instant.Writable (read text) := by
  refine .bind fun (year, rest) _ => .bind fun rest _ => .bind fun (month, rest) _ => .bind fun rest _ => ?_
  refine .bind fun (day, rest) _ => ?_
  dsimp only
  split
  · split
    · refine .bind fun rest _ => .bind fun (hour, rest) _ => .bind fun rest _ => .bind fun (minute, rest) _ => ?_
      refine .bind fun rest _ => .bind fun (second, rest) _ => .bind fun (nanos, rest) found => ?_
      refine .bind fun (minutes, rest) _ => .bind fun _ _ => .bind fun _ valid => .bind fun _ range => ?_
      have small := nanoseconds_lt found
      have range := (Option.guard_eq_some' _).mp range
      rintro t ⟨⟩
      refine ⟨range, ?_⟩
      by_cases leap : second = 60
      · right
        simp only [leap, if_true, Instant.billion, Instant.secondsPerDay] at small ⊢
        omega
      · left
        simpa [leap] using small
    · exact .bind nofun
  · exact .bind nofun

theorem isBlank_of_isDigit {c : Char} (h : isDigit c = true) : isBlank c = false := by
  obtain ⟨low, high⟩ := toNat_of_isDigit h
  simp only [isBlank, Bool.or_eq_false_iff, Bool.and_eq_false_iff, decide_eq_false_iff_not, beq_eq_false_iff_ne]
  omega

theorem trimStart_cons {c : Char} (visible : isBlank c = false) (rest : List Char) : trimStart (c :: rest) = c :: rest := by
  rw [trimStart, List.dropWhile_cons, visible]
  rfl

section Digits
variable {run rest : List Char} (digits : ∀ c ∈ run, isDigit c = true) (some : run ≠ [])
include digits some

theorem trimStart_digits : trimStart (run ++ rest) = run ++ rest := by
  cases run with
  | nil => exact absurd rfl some
  | cons c run => exact trimStart_cons (isBlank_of_isDigit (digits c List.mem_cons_self)) _

/-- Digits are read as long as there are any, and no more than the most that may be read. -/
theorem number_eq {most : Nat} (fits : run.length ≤ most)
    (ends : run.length = most ∨ ∀ c, rest.head? = .some c → isDigit c = false) :
    number most (run ++ rest) = .some (natOfDigits run, rest) := by
  have stops : (rest.take (most - run.length)).takeWhile isDigit = [] := by
    rcases ends with full | ends
    · rw [full, Nat.sub_self]
      rfl
    · cases rest with
      | nil => simp
      | cons c rest =>
        cases most - run.length with
        | zero => rfl
        | succ k => rw [List.take_succ_cons, List.takeWhile_cons, ends c rfl]; rfl
  have found : ((run ++ rest).take most).takeWhile isDigit = run := by
    rw [List.take_append, List.take_of_length_le fits, List.takeWhile_append_of_pos digits, stops, List.append_nil]
  have nonempty : run.isEmpty = false := by simpa using some
  rw [number, found]
  simp [nonempty]

end Digits

theorem padded_ne_nil (width n : Nat) : padded width n ≠ [] := by
  intro empty
  exact digits_ne_nil n (List.append_eq_nil_iff.mp empty).2

/-- A field of two digits. -/
theorem field_padded {n : Nat} (fits : n < 100) (rest : List Char) : field 2 (padded 2 n ++ rest) = some (n, rest) := by
  have digits : ∀ c ∈ padded 2 n, isDigit c = true := fun c => isDigit_of_mem_padded
  have length : (padded 2 n).length = 2 := length_padded (by decide) fits
  rw [field, trimStart_digits digits (padded_ne_nil 2 n),
    number_eq digits (padded_ne_nil 2 n) (Nat.le_of_eq length) (.inl length), natOfDigits_padded]

theorem mark_self {c : Char} (visible : isBlank c = false) (rest : List Char) : mark c (c :: rest) = some rest := by
  rw [mark, trimStart_cons visible]
  exact if_pos rfl

/-- The digits of a year after its sign. -/
theorem number_year (n : Nat) (rest : List Char) :
    number (padded 4 n ++ '-' :: rest).length (padded 4 n ++ '-' :: rest) = some (n, '-' :: rest) := by
  have digits : ∀ c ∈ padded 4 n, isDigit c = true := fun c => isDigit_of_mem_padded
  have fits : (padded 4 n).length ≤ (padded 4 n ++ '-' :: rest).length := by simp
  have stops : ∀ c, ('-' :: rest).head? = some c → isDigit c = false := by
    rintro c ⟨⟩
    rfl
  rw [number_eq digits (padded_ne_nil 4 n) fits (.inr stops), natOfDigits_padded]

/-- A year without a sign. -/
theorem year_padded {n : Nat} (small : n < 10000) (rest : List Char) : year (padded 4 n ++ rest) = some ((n : Int), rest) := by
  have digits : ∀ c ∈ padded 4 n, isDigit c = true := fun c => isDigit_of_mem_padded
  have length : (padded 4 n).length = 4 := length_padded (by decide) small
  have found : number 4 (padded 4 n ++ rest) = some (n, rest) := by
    rw [number_eq digits (padded_ne_nil 4 n) (Nat.le_of_eq length) (.inl length), natOfDigits_padded]
  rw [year, trimStart_digits digits (padded_ne_nil 4 n)]
  cases written : padded 4 n with
  | nil => exact absurd written (padded_ne_nil 4 n)
  | cons c run =>
    have digit : isDigit c = true := digits c (written ▸ List.mem_cons_self)
    rw [written, List.cons_append] at found
    rw [List.cons_append]
    split
    case h_3 => rw [found]; rfl
    all_goals
      rename_i same
      cases same
      exact absurd digit (by decide)

theorem year_yearText (y : Int) (rest : List Char) : year (yearText y ++ '-' :: rest) = some (y, '-' :: rest) := by
  unfold yearText
  split
  · have value : (y.toNat : Int) = y := by omega
    rw [year_padded (by omega), value]
  · split
    · have value : -(y.natAbs : Int) = y := by omega
      rw [year, List.cons_append, trimStart_cons (by decide)]
      simp only [number_year, Option.map_some, value]
      rfl
    · have value : (y.natAbs : Int) = y := by omega
      rw [year, List.cons_append, trimStart_cons (by decide)]
      simp only [number_year, Option.map_some, value]
      rfl

/-- Places after a point, fewer than nine of which stand for as many zeros more. -/
theorem nanoseconds_padded {places n : Nat} (some : 0 < places) (most : places ≤ 9) (fits : n < 10 ^ places) :
    nanoseconds ('.' :: padded places n ++ ['Z']) = .some (n * 10 ^ (9 - places), ['Z']) := by
  have digits : ∀ c ∈ padded places n, isDigit c = true := fun c => isDigit_of_mem_padded
  have length : (padded places n).length = places := length_padded some fits
  have run : (padded places n ++ ['Z']).takeWhile isDigit = padded places n := by
    rw [List.takeWhile_append_of_pos digits]
    simp [isDigit]
  have kept : (padded places n).take 9 = padded places n := List.take_of_length_le (by omega)
  have nonempty : (padded places n).isEmpty = false := by simpa using padded_ne_nil places n
  rw [List.cons_append, nanoseconds]
  simp [run, kept, nonempty, natOfDigits_padded, length]

theorem nanoseconds_fractionText {nanos : Nat} (small : nanos < Instant.billion) :
    nanoseconds (fractionText nanos ++ ['Z']) = some (nanos, ['Z']) := by
  have small : nanos < 1000000000 := small
  unfold fractionText
  split
  · rename_i zero
    rw [zero]
    rfl
  · split
    · rw [nanoseconds_padded (by decide) (by decide) (by omega)]
      have value : nanos / 1000000 * 10 ^ (9 - 3) = nanos := by omega
      rw [value]
    · split
      · rw [nanoseconds_padded (by decide) (by decide) (by omega)]
        have value : nanos / 1000 * 10 ^ (9 - 6) = nanos := by omega
        rw [value]
      · rw [nanoseconds_padded (by decide) (by decide) (by omega)]
        simp

/-- A whole text is read part by part. -/
theorem read_parts {date : Date} {hour minute second nanos : Nat} (valid : date.isValid = true) (hours : hour < 24)
    (minutes : minute < 60) (seconds : second ≤ 60) (small : nanos < Instant.billion) {t : Instant}
    (range : t.inRange = true)
    (whole : date.toDays * Instant.secondsPerDay + hour * 3600 + minute * 60 + second -
      (if second = 60 then 1 else 0 : Nat) = t.seconds)
    (part : nanos + (if second = 60 then 1 else 0) * Instant.billion = t.nanos) :
    read (yearText date.year ++ '-' :: padded 2 date.month ++ '-' :: padded 2 date.day ++ 'T' :: padded 2 hour ++
      ':' :: padded 2 minute ++ ':' :: padded 2 second ++ fractionText nanos ++ ['Z']) = some t := by
  have month : date.month < 100 ∧ date.day < 100 := by
    simp only [Date.isValid, Bool.and_eq_true, decide_eq_true_eq] at valid
    have longest : date.day ≤ 31 := by
      refine Nat.le_trans valid.2 ?_
      unfold Date.daysInMonth
      split
      · split <;> decide
      all_goals decide
    omega
  have bounds : (date.isValid && decide (hour < 24) && decide (minute < 60) && decide (second ≤ 60)) = true := by
    simp [valid, hours, minutes, seconds]
  have same : (⟨date.year, date.month, date.day⟩ : Date) = date := rfl
  have hyphen := fun rest => mark_self (c := '-') (by decide) rest
  have colon := fun rest => mark_self (c := ':') (by decide) rest
  have separator : ('T' == 't' || 'T' == 'T' || 'T' == ' ') = true := rfl
  have zone : offset ['Z'] = some (0, []) := rfl
  have read : read (yearText date.year ++ '-' :: (padded 2 date.month ++ '-' :: (padded 2 date.day ++ 'T' ::
      (padded 2 hour ++ ':' :: (padded 2 minute ++ ':' :: (padded 2 second ++ (fractionText nanos ++ ['Z']))))))) =
      some t := by
    refine Option.bind_eq_some_iff.mpr ⟨_, year_yearText _ _, ?_⟩
    refine Option.bind_eq_some_iff.mpr ⟨_, hyphen _, ?_⟩
    refine Option.bind_eq_some_iff.mpr ⟨_, field_padded month.1 _, ?_⟩
    refine Option.bind_eq_some_iff.mpr ⟨_, hyphen _, ?_⟩
    refine Option.bind_eq_some_iff.mpr ⟨_, field_padded month.2 _, ?_⟩
    dsimp only
    rw [if_pos separator]
    refine Option.bind_eq_some_iff.mpr ⟨_, rfl, ?_⟩
    refine Option.bind_eq_some_iff.mpr ⟨_, field_padded (by omega) _, ?_⟩
    refine Option.bind_eq_some_iff.mpr ⟨_, colon _, ?_⟩
    refine Option.bind_eq_some_iff.mpr ⟨_, field_padded (by omega) _, ?_⟩
    refine Option.bind_eq_some_iff.mpr ⟨_, colon _, ?_⟩
    refine Option.bind_eq_some_iff.mpr ⟨_, field_padded (by omega) _, ?_⟩
    refine Option.bind_eq_some_iff.mpr ⟨_, nanoseconds_fractionText small, ?_⟩
    refine Option.bind_eq_some_iff.mpr ⟨_, zone, ?_⟩
    refine Option.bind_eq_some_iff.mpr ⟨(), if_pos rfl, Option.bind_eq_some_iff.mpr ⟨(), if_pos bounds, ?_⟩⟩
    simp only [Int.zero_mul, Int.sub_zero, whole, part]
    exact Option.bind_eq_some_iff.mpr ⟨(), if_pos range, rfl⟩
  simpa using read

theorem read_write {t : Instant} (writable : t.Writable) : read (write t) = some t := by
  obtain ⟨range, nanos⟩ := writable
  have range' : Instant.minSeconds ≤ t.seconds ∧ t.seconds ≤ Instant.maxSeconds := by
    simpa [Instant.inRange] using range
  have day : t.seconds.fdiv Instant.secondsPerDay = t.seconds / 86400 := Int.fdiv_eq_ediv_of_nonneg _ (by decide)
  have time : t.secondOfDay = t.seconds % 86400 := Int.fmod_eq_emod_of_nonneg _ (by decide)
  have first : Instant.minSeconds = Date.minDays * 86400 := rfl
  have last : Instant.maxSeconds = Date.maxDays * 86400 + 86399 := rfl
  have valid := @Date.isValid_ofDays (t.seconds / 86400) (by omega) (by omega)
  have whole := Date.toDays_ofDays (t.seconds / 86400)
  have second : ∃ s < 86400, (t.seconds % 86400).toNat = s ∧ t.seconds = t.seconds / 86400 * 86400 + (s : Nat) :=
    ⟨(t.seconds % 86400).toNat, by omega, rfl, by omega⟩
  obtain ⟨s, below, second, split⟩ := second
  unfold write
  rw [day, time, second]
  by_cases leap : Instant.billion ≤ t.nanos
  · have part : t.nanos < 2 * Instant.billion ∧ s % 60 = 59 := by omega
    have sixty : s % 60 + 1 = 60 := by omega
    simp only [leap, if_true, sixty]
    refine read_parts valid (by omega) (by omega) (by omega) (by omega) range ?_ ?_
    · rw [whole, if_pos rfl, Instant.secondsPerDay]
      omega
    · rw [if_pos rfl]
      omega
  · have ordinary : s % 60 + 0 ≠ 60 := by omega
    simp only [leap, if_false]
    refine read_parts valid (by omega) (by omega) (by omega) (by omega) range ?_ ?_
    · rw [whole, if_neg ordinary, Instant.secondsPerDay]
      omega
    · rw [if_neg ordinary]
      omega

end Rfc3339
end ProxyMonitor.Time
