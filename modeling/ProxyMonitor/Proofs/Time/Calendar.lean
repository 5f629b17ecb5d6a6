import ProxyMonitor.Time.Calendar

/-! Every number of days is that of its date, and the date is in the calendar. The days of an era of 400 years that
begins in March are taken apart into centuries, spans of four years, years and the rest. -/
namespace ProxyMonitor.Time.Date

/-- The days before a day of an era: `centuries`, then `spans` of four years, then `years`, then `days`. Only the last
year of a span has a leap day, and only the last century has one in its last span. -/
structure EraDay where
  centuries : Nat
  spans : Nat
  years : Nat
  days : Nat
  centuries_lt : centuries < 4
  spans_lt : spans < 25
  years_lt : years < 4
  days_le : days ≤ 365
  leap : days = 365 → years = 3 ∧ (spans = 24 → centuries = 3)

namespace EraDay
variable (e : EraDay)

def year : Nat :=
  100 * e.centuries + 4 * e.spans + e.years

def toNat : Nat :=
  36524 * e.centuries + 1461 * e.spans + 365 * e.years + e.days

/-- Months after March. -/
def month : Nat :=
  (5 * e.days + 2) / 153

theorem year_lt : e.year < 400 := by
  have := e.centuries_lt
  have := e.spans_lt
  have := e.years_lt
  unfold year
  omega

theorem toNat_lt : e.toNat < 146097 := by
  have := e.centuries_lt
  have := e.spans_lt
  have := e.years_lt
  have := e.days_le
  have := e.leap
  unfold toNat
  omega

theorem year_div_four : e.year / 4 = 25 * e.centuries + e.spans := by
  have := e.years_lt
  unfold year
  omega

theorem year_div_hundred : e.year / 100 = e.centuries := by
  have := e.spans_lt
  have := e.years_lt
  unfold year
  omega

theorem toNat_eq : e.toNat = 365 * e.year + e.year / 4 - e.year / 100 + e.days := by
  rw [year_div_four, year_div_hundred]
  unfold year toNat
  omega

/-- Every day of an era has its place. -/
theorem exists_toNat {d : Nat} (h : d < 146097) : ∃ e : EraDay, e.toNat = d := by
  have century : ∃ c < 4, ∃ r, r < 36524 + c / 3 ∧ d = 36524 * c + r := by
    refine ⟨min 3 (d / 36524), by omega, d - 36524 * min 3 (d / 36524), by omega, by omega⟩
  obtain ⟨c, hc, r, hr, rfl⟩ := century
  have span : ∃ q < 25, ∃ s < 1461, r = 1461 * q + s := ⟨r / 1461, by omega, r % 1461, by omega, by omega⟩
  obtain ⟨q, hq, s, hs, rfl⟩ := span
  have year : ∃ y < 4, ∃ k ≤ 365, (k = 365 → y = 3) ∧ s = 365 * y + k :=
    ⟨min 3 (s / 365), by omega, s - 365 * min 3 (s / 365), by omega, by omega, by omega⟩
  obtain ⟨y, hy, k, hk, last, rfl⟩ := year
  exact ⟨⟨c, q, y, k, hc, hq, hy, hk, fun full => ⟨last full, fun _ => by omega⟩⟩, by simp only [toNat]; omega⟩

/-- The year is found from the day: what leap days there were before is taken off first. -/
theorem year_eq : (e.toNat - e.toNat / 1460 + e.toNat / 36524 - e.toNat / 146096) / 365 = e.year := by
  obtain ⟨c, q, y, k, hc, hq, hy, hk, leap⟩ := e
  simp only [year, toNat] at *
  -- whether the last day of the span is near, and whether it is the last day of the era
  obtain ⟨near, hnear, spanned⟩ : ∃ near ≤ 1, (24 * c + q + 365 * y + k) / 1460 = near := ⟨_, by omega, rfl⟩
  obtain ⟨last, hlast, ended⟩ : ∃ last ≤ 1, (1461 * q + 365 * y + k) / 36524 = last := ⟨_, by omega, rfl⟩
  have spans : (36524 * c + 1461 * q + 365 * y + k) / 1460 = 25 * c + q + near := by omega
  have centuries : (36524 * c + 1461 * q + 365 * y + k) / 36524 = c + last := by omega
  have eras : (36524 * c + 1461 * q + 365 * y + k) / 146096 = last := by omega
  rw [spans, centuries, eras]
  omega

theorem month_le : e.month ≤ 11 := by
  have := e.days_le
  unfold month
  omega

end EraDay

theorem ofDays_eq (n : Int) : ∃ (era : Int) (e : EraDay), n + 719468 = era * 146097 + e.toNat ∧
    ofDays n = ⟨if e.month < 10 then e.year + era * 400 else e.year + era * 400 + 1,
      if e.month < 10 then e.month + 3 else e.month - 9, e.days - (153 * e.month + 2) / 5 + 1⟩ := by
  have within : (n + 719468) - (n + 719468).fdiv 146097 * 146097 = (n + 719468) % 146097 := by
    rw [Int.fdiv_eq_ediv_of_nonneg _ (by decide)]
    omega
  obtain ⟨e, he⟩ := EraDay.exists_toNat (d := ((n + 719468) % 146097).toNat) (by omega)
  refine ⟨(n + 719468).fdiv 146097, e, by omega, ?_⟩
  have days : e.toNat - (365 * e.year + e.year / 4 - e.year / 100) = e.days := by
    have := e.toNat_eq
    omega
  have high := e.month_le
  unfold ofDays
  simp only [within, ← he, e.year_eq, days]
  unfold EraDay.month at high ⊢
  split
  · rw [if_neg (by omega)]
  · rw [if_pos (by omega)]

/-- The days of a year before a month are no more than those before a day of it. -/
theorem EraDay.beforeMonth_le (e : EraDay) : (153 * e.month + 2) / 5 ≤ e.days := by
  unfold month
  omega

/-- A date gives back the number of days that it was made of. -/
theorem toDays_ofDays (n : Int) : (ofDays n).toDays = n := by
  obtain ⟨era, e, hn, date⟩ := ofDays_eq n
  have low := e.year_lt
  have high := e.month_le
  have before := e.beforeMonth_le
  have total := e.toNat_eq
  have year : (if (ofDays n).month ≤ 2 then (ofDays n).year - 1 else (ofDays n).year) = e.year + era * 400 := by
    simp only [date]
    by_cases early : e.month < 10
    · simp only [early, if_true]
      rw [if_neg (by omega)]
    · simp only [early, if_false]
      rw [if_pos (by omega)]
      omega
  have month : ((ofDays n).month + 9) % 12 = e.month := by
    simp only [date]
    split <;> omega
  have eras : ((e.year : Int) + era * 400).fdiv 400 = era := by
    rw [Int.fdiv_eq_ediv_of_nonneg _ (by decide)]
    omega
  have rest : ((e.year : Int) + era * 400 - era * 400).toNat = e.year := by omega
  have day : (153 * e.month + 2) / 5 + (ofDays n).day - 1 = e.days := by
    simp only [date]
    omega
  unfold toDays
  simp only [year, month, eras, rest, day]
  omega

/-- The years that end with a leap day have one in their February. -/
theorem EraDay.isLeap_of_last {e : EraDay} (full : e.days = 365) (era : Int) :
    isLeap (e.year + era * 400 + 1) = true := by
  obtain ⟨last, century⟩ := e.leap full
  have := e.spans_lt
  have := e.centuries_lt
  have four : ((e.year : Int) + era * 400 + 1) % 4 = 0 := by
    unfold year
    omega
  have hundred : ((e.year : Int) + era * 400 + 1) % 100 = 0 → ((e.year : Int) + era * 400 + 1) % 400 = 0 := by
    intro whole
    have ends : e.spans = 24 := by
      unfold year at whole
      omega
    have := century ends
    unfold year
    omega
  simp only [isLeap, four, beq_self_eq_true, Bool.true_and, Bool.or_eq_true, bne_iff_ne, beq_iff_eq]
  omega

/-- The first and the last day that have a date. -/
def minDays : Int := toDays ⟨minYear, 1, 1⟩

def maxDays : Int := toDays ⟨maxYear, 12, 31⟩

theorem day_le (n : Int) : (ofDays n).day ≤ daysInMonth (ofDays n).year (ofDays n).month := by
  obtain ⟨era, e, _, date⟩ := ofDays_eq n
  have high := e.month_le
  have within : 153 * e.month ≤ 5 * e.days + 2 ∧ 5 * e.days + 2 < 153 * e.month + 153 := by
    unfold EraDay.month
    omega
  have february : e.month = 11 → e.days - 337 + 1 ≤ if isLeap (e.year + era * 400 + 1) then 29 else 28 := by
    intro last
    have := e.days_le
    split
    · omega
    · rename_i common
      have notFull : e.days ≠ 365 := fun full => common (EraDay.isLeap_of_last full era)
      omega
  rw [date]
  generalize e.month = month at *
  match month with
  | 0 | 1 | 2 | 3 | 4 | 5 | 6 | 7 | 8 | 9 | 10 => simp [daysInMonth]; omega
  | 11 => exact february rfl
  | month + 12 => omega

/-- A year of an era before or after another one, by the days of both. -/
theorem EraDay.year_bounds (e : EraDay) : (93808 ≤ e.toNat → 256 < e.year ∨ e.year = 256 ∧ 306 ≤ e.days) ∧
    (e.toNat ≤ 52169 → e.year < 142 ∨ e.year = 142 ∧ e.days < 306) := by
  have total := e.toNat_eq
  have days := e.days_le
  constructor
  · intro late
    rcases Nat.lt_trichotomy e.year 256 with before | same | after
    · omega
    · rw [same] at total
      omega
    · exact .inl after
  · intro early
    rcases Nat.lt_trichotomy e.year 142 with before | same | after
    · exact .inl before
    · rw [same] at total
      omega
    · omega

theorem year_within {n : Int} (least : minDays ≤ n) (most : n ≤ maxDays) :
    minYear ≤ (ofDays n).year ∧ (ofDays n).year ≤ maxYear := by
  have first : minDays = -96465292 := by decide
  have last : maxDays = 95026236 := by decide
  obtain ⟨era, e, hn, date⟩ := ofDays_eq n
  have below := e.toNat_lt
  have low := e.year_lt
  have bounds := e.year_bounds
  have early : e.month < 10 ↔ e.days < 306 := by
    unfold EraDay.month
    omega
  have year : (ofDays n).year = if e.days < 306 then (e.year : Int) + era * 400 else e.year + era * 400 + 1 := by
    rw [date]
    simp only [early]
  rw [year, minYear, maxYear]
  rcases (by omega : era = -656 ∨ -656 < era ∧ era < 655 ∨ era = 655) with rfl | inside | rfl
  · have late := bounds.1 (by omega)
    constructor <;> split <;> omega
  · constructor <;> split <;> omega
  · have soon := bounds.2 (by omega)
    constructor <;> split <;> omega

theorem isValid_ofDays {n : Int} (least : minDays ≤ n) (most : n ≤ maxDays) : (ofDays n).isValid = true := by
  have day := day_le n
  have years := year_within least most
  obtain ⟨era, e, _, date⟩ := ofDays_eq n
  have high := e.month_le
  have month : 1 ≤ (ofDays n).month ∧ (ofDays n).month ≤ 12 := by
    simp only [date]
    split <;> omega
  have positive : 1 ≤ (ofDays n).day := by
    simp only [date]
    omega
  simp [isValid, day, years.1, years.2, month.1, month.2, positive]

end ProxyMonitor.Time.Date
