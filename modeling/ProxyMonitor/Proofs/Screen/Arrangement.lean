import Mathlib.Data.List.Forall2
import Mathlib.Data.Rat.Floor
import Mathlib.Tactic.Linarith
import ProxyMonitor.Screen.Layout

/-! Parts stand one right after the other, however little room there is for them, and what asks for nothing gets nothing.
Cutting makes parts shorter, and none of them shorter than nothing. -/
namespace ProxyMonitor.Screen.Layout

/-- What cutting does to a length. -/
def Cut (new old : Rat) : Prop :=
  0 ≤ new ∧ new ≤ old

theorem lengths_cons (p : Plateau) (ps : List Plateau) :
    lengths (p :: ps) = List.replicate p.count p.length ++ lengths ps := rfl

theorem lengths_push (length : Rat) (ps : List Plateau) : lengths (push length ps) = length :: lengths ps := by
  cases ps with
  | nil => rfl
  | cons p rest =>
    rw [push]
    split
    · rename_i same
      rw [lengths_cons, lengths_cons, same, List.replicate_succ, List.cons_append]
    · rfl

theorem lengths_plateaus (ls : List Rat) : lengths (plateaus ls) = ls := by
  induction ls with
  | nil => rfl
  | cons l ls ih =>
    have step : plateaus (l :: ls) = push l (plateaus ls) := rfl
    rw [step, lengths_push, ih]

section Highest
variable {around : List Plateau} {best top : Rat}

theorem highest_fold (h : best ≤ top) (below : ∀ p ∈ around, p.length ≤ top) :
    best ≤ around.foldl (fun best p => if best < p.length then p.length else best) best ∧
      around.foldl (fun best p => if best < p.length then p.length else best) best ≤ top := by
  induction around generalizing best with
  | nil => exact ⟨le_refl _, h⟩
  | cons p rest ih =>
    obtain ⟨first, later⟩ := List.forall_mem_cons.mp below
    rw [List.foldl_cons]
    split
    · rename_i higher
      obtain ⟨low, high⟩ := ih first later
      exact ⟨higher.le.trans low, high⟩
    · exact ih h later

theorem highest_bounds (h : 0 ≤ top) (below : ∀ p ∈ around, p.length ≤ top) : 0 ≤ highest around ∧ highest around ≤ top :=
  highest_fold h below

end Highest

/-- A peak may be cut down to its neighbours. -/
theorem peak?_bounds {ps : List Plateau} {i j : Nat} {p : Plateau} {rate height : Rat}
    (h : peak? ps i p = some (rate, j, height)) (long : 0 ≤ p.length) : j = i ∧ 0 ≤ height ∧ height ≤ p.length := by
  unfold peak? at h
  dsimp only at h
  split at h
  · rename_i peak
    obtain ⟨low, high⟩ := highest_bounds long fun q hq => le_of_lt (by simpa using List.all_eq_true.mp peak q hq)
    cases h
    exact ⟨rfl, by linarith, by linarith⟩
  · cases h

/-- Who chooses among many has one of them. -/
theorem choice_mem {β : Type} {f : Option β → β → Option β} (choose : ∀ best b, f best b = best ∨ f best b = some b)
    {l : List β} {best : Option β} {b : β} (h : l.foldl f best = some b) : best = some b ∨ b ∈ l := by
  induction l generalizing best with
  | nil => exact .inl h
  | cons a l ih =>
    rcases ih h with now | later
    · rcases choose best a with kept | taken
      · exact .inl (kept.symm.trans now)
      · rw [taken] at now
        cases now
        exact .inr (List.mem_cons_self)
    · exact .inr (List.mem_cons_of_mem a later)

theorem sharpest?_peak {ps : List Plateau} {i : Nat} {height : Rat} (h : sharpest? ps = some (i, height)) :
    ∃ p rate, ps[i]? = some p ∧ peak? ps i p = some (rate, i, height) := by
  obtain ⟨⟨rate, i', height'⟩, best, same⟩ := Option.map_eq_some_iff.mp h
  cases same
  have mem : (rate, i, height) ∈ (ps.mapIdx (peak? ps)).filterMap id := by
    refine (choice_mem (fun best b => ?_) best).resolve_left nofun
    dsimp only
    split
    · split
      · exact .inr rfl
      · exact .inl rfl
    · exact .inr rfl
  obtain ⟨found, at_j, peak⟩ := List.mem_filterMap.mp mem
  obtain rfl : found = some (rate, i, height) := peak
  obtain ⟨j, inside, peak⟩ := List.mem_mapIdx.mp at_j
  have at_i : i = j := by
    unfold peak? at peak
    dsimp only at peak
    split at peak
    · cases peak
      rfl
    · cases peak
  subst at_i
  exact ⟨ps[i], rate, List.getElem?_eq_getElem inside, peak⟩

theorem cut_refl {ls : List Rat} (long : ∀ l ∈ ls, 0 ≤ l) : List.Forall₂ Cut ls ls :=
  List.forall₂_same.mpr fun l hl => ⟨long l hl, le_refl l⟩

theorem cut_long {new old : List Rat} (h : List.Forall₂ Cut new old) : ∀ l ∈ new, 0 ≤ l := by
  induction h with
  | nil => exact nofun
  | cons first _ ih => exact List.forall_mem_cons.mpr ⟨first.1, ih⟩

theorem cut_none {new old : List Rat} (h : List.Forall₂ Cut new old) {i : Nat} (none : old[i]? = some 0) :
    new[i]? = some 0 := by
  induction h generalizing i with
  | nil => cases none
  | cons first _ ih =>
    cases i with
    | zero =>
      cases none
      exact congrArg some (le_antisymm first.2 first.1)
    | succ i => exact ih none

theorem cut_trans {new between old : List Rat} (h : List.Forall₂ Cut new between) (h' : List.Forall₂ Cut between old) :
    List.Forall₂ Cut new old := by
  induction h generalizing old with
  | nil =>
    cases h'
    exact .nil
  | cons first _ ih =>
    cases h' with
    | cons first' rest' => exact .cons ⟨first.1, first.2.trans first'.2⟩ (ih rest')

theorem lengths_long {ps : List Plateau} (long : ∀ p ∈ ps, 0 ≤ p.length) : ∀ l ∈ lengths ps, 0 ≤ l := by
  intro l hl
  obtain ⟨p, hp, copy⟩ := List.mem_flatMap.mp hl
  rw [(List.mem_replicate.mp copy).2]
  exact long p hp

theorem plateaus_long {ls : List Rat} (long : ∀ l ∈ ls, 0 ≤ l) : ∀ p ∈ plateaus ls, 0 ≤ p.length := by
  induction ls with
  | nil => exact nofun
  | cons l ls ih =>
    obtain ⟨first, rest⟩ := List.forall_mem_cons.mp long
    have step : plateaus (l :: ls) = push l (plateaus ls) := rfl
    have below := ih rest
    rw [step]
    cases others : plateaus ls with
    | nil => exact List.forall_mem_cons.mpr ⟨first, nofun⟩
    | cons q ps =>
      rw [others] at below
      unfold push
      dsimp only
      split
      · exact List.forall_mem_cons.mpr ⟨first, fun p hp => below p (List.mem_cons_of_mem _ hp)⟩
      · exact List.forall_mem_cons.mpr ⟨first, below⟩

theorem cut_replicate {new old : Rat} (h : Cut new old) (n : Nat) :
    List.Forall₂ Cut (List.replicate n new) (List.replicate n old) := by
  induction n with
  | zero => exact .nil
  | succ n ih => exact .cons h ih

/-- One plateau less high, and the others as they are. -/
theorem cut_lengths {ps : List Plateau} {i : Nat} {p : Plateau} (h : ps[i]? = some p) (long : ∀ q ∈ ps, 0 ≤ q.length)
    {drop : Rat} (low : 0 ≤ drop) (high : drop ≤ p.length) :
    List.Forall₂ Cut
      (lengths (ps.mapIdx fun j q => if j = i then { q with length := q.length - drop } else q)) (lengths ps) := by
  induction ps generalizing i with
  | nil => cases h
  | cons q ps ih =>
    obtain ⟨first, rest⟩ := List.forall_mem_cons.mp long
    rw [List.mapIdx_cons, lengths_cons, lengths_cons]
    cases i with
    | zero =>
      cases h
      have same : (ps.mapIdx fun j q => if j + 1 = 0 then { q with length := q.length - drop } else q) = ps :=
        List.ext_getElem? fun j => by simp
      have lower : Cut (p.length - drop) p.length := ⟨by linarith, by linarith⟩
      rw [same]
      exact List.rel_append (cut_replicate lower p.count) (cut_refl (lengths_long rest))
    | succ i =>
      have later := ih (i := i) h rest
      simp only [Nat.add_right_cancel_iff]
      exact List.rel_append (cut_replicate ⟨first, le_refl _⟩ q.count) later

theorem cut_shortens (fuel : Nat) (excess : Rat) {ls : List Rat} (long : ∀ l ∈ ls, 0 ≤ l) :
    List.Forall₂ Cut (cut fuel excess ls) ls := by
  induction fuel generalizing excess ls with
  | zero => exact cut_refl long
  | succ fuel ih =>
    unfold cut
    dsimp only
    split
    · rename_i i height peak more
      obtain ⟨p, rate, at_i, peak⟩ := sharpest?_peak peak
      have long' := plateaus_long long
      obtain ⟨_, low, high⟩ := peak?_bounds peak (long' p (List.mem_of_getElem? at_i))
      rw [decide_eq_true_eq] at more
      -- The sharpest peak becomes lower, at most by as much as it stands out.
      obtain ⟨least, most⟩ : 0 ≤ (if excess / p.count < height then excess / p.count else height) ∧
          (if excess / p.count < height then excess / p.count else height) ≤ p.length := by
        split
        · exact ⟨by positivity, by linarith⟩
        · exact ⟨low, high⟩
      have once := cut_lengths at_i long' least most
      rw [lengths_plateaus] at once
      rw [at_i, Option.map_some, Option.getD_some]
      exact cut_trans (ih _ (cut_long once)) once
    · exact cut_refl long

theorem rounded_mono {a b : Rat} (h : a ≤ b) : rounded a ≤ rounded b :=
  Int.toNat_le_toNat (Rat.floor_monotone (by linarith))

/-- The lengths before they are rounded. -/
theorem arrange_placed (available spacing : Nat) (parts : List Part) :
    ∃ sizes : List Rat, arrange available spacing parts = placed spacing 0 sizes ∧ sizes.length = parts.length ∧
      (∀ l ∈ sizes, 0 ≤ l) ∧ ∀ i : Nat, parts[i]? = some (.fixed 0) → sizes[i]? = some 0 := by
  unfold arrange
  dsimp only
  split
  · refine ⟨_, rfl, List.length_map _, ?_, fun i none => ?_⟩
    · rw [List.forall_mem_map]
      intro p _
      cases p with
      | fixed length => exact Nat.cast_nonneg length
      | stretched => exact Nat.cast_nonneg _
    · rw [List.getElem?_map, none]
      rfl
  · have long : ∀ l ∈ parts.map fun p => (p.length : Rat), 0 ≤ l := by
      rw [List.forall_mem_map]
      exact fun p _ => Nat.cast_nonneg p.length
    have shorter := cut_shortens (2 * parts.length)
      ((((parts.map Part.length).foldl (· + ·) 0 : Nat) : Rat) - (available - spacing * (parts.length - 1) : Nat)) long
    refine ⟨_, rfl, shorter.length_eq.trans (List.length_map _), cut_long shorter, fun i none => cut_none shorter ?_⟩
    rw [List.getElem?_map, none]
    rfl

/-- Each part begins where the one before it ends. -/
def Adjoined (start : Nat) : List Extent → Prop
  | [] => True
  | e :: rest => e.start = start ∧ Adjoined (start + e.length) rest

theorem placed_adjoined {sizes : List Rat} (long : ∀ l ∈ sizes, 0 ≤ l) (start : Rat) :
    Adjoined (rounded start) (placed 0 start sizes) := by
  induction sizes generalizing start with
  | nil => trivial
  | cons l rest ih =>
    obtain ⟨first, later⟩ := List.forall_mem_cons.mp long
    have up : rounded start ≤ rounded (start + l) := rounded_mono (by linarith)
    have next : start + l + ((0 : Nat) : Rat) = start + l := by simp
    refine ⟨rfl, ?_⟩
    dsimp only
    rw [next, Nat.add_sub_cancel' up]
    exact ih later (start + l)

theorem placed_length (spacing : Nat) (start : Rat) (sizes : List Rat) :
    (placed spacing start sizes).length = sizes.length := by
  induction sizes generalizing start with
  | nil => rfl
  | cons l rest ih => exact congrArg (· + 1) (ih _)

theorem placed_none {sizes : List Rat} {i : Nat} (none : sizes[i]? = some 0) (spacing : Nat) (start : Rat) :
    ∃ e, (placed spacing start sizes)[i]? = some e ∧ e.length = 0 := by
  induction sizes generalizing i start with
  | nil => cases none
  | cons l rest ih =>
    cases i with
    | zero =>
      cases none
      exact ⟨_, rfl, by simp⟩
    | succ i => exact ih none _

/-- Parts without space between them stand one right after the other from the start of the line, and where no room is asked
for there is none. -/
theorem arrange_adjoined (available : Nat) (parts : List Part) :
    Adjoined 0 (arrange available 0 parts) ∧ (arrange available 0 parts).length = parts.length ∧
      ∀ i : Nat, parts[i]? = some (.fixed 0) → ∃ e, (arrange available 0 parts)[i]? = some e ∧ e.length = 0 := by
  obtain ⟨sizes, arranged, count, long, none⟩ := arrange_placed available 0 parts
  have from_zero : rounded 0 = 0 := by decide +kernel
  rw [arranged]
  exact ⟨from_zero ▸ placed_adjoined long 0, (placed_length 0 0 sizes).trans count, fun i h => placed_none (none i h) 0 0⟩

theorem rounded_natCast (n : Nat) : rounded n = n := by
  have whole : ⌊(n : Rat) + 1 / 2⌋ = n := Int.floor_eq_iff.mpr ⟨by push_cast; linarith, by push_cast; linarith⟩
  exact (congrArg Int.toNat whole).trans (Int.toNat_natCast n)

theorem placed_lengths (spacing start : Nat) (lengths : List Nat) :
    (placed spacing start (lengths.map Nat.cast)).map Extent.length = lengths := by
  induction lengths generalizing start with
  | nil => rfl
  | cons length rest ih =>
    have next : (start : Rat) + length + spacing = (start + length + spacing : Nat) := by push_cast; rfl
    have ends : (start : Rat) + length = (start + length : Nat) := by push_cast; rfl
    rw [List.map_cons, placed, List.map_cons, next, ih, ends, rounded_natCast, rounded_natCast, Nat.add_sub_cancel_left]

/-- What a part gets where there is room for all of them. -/
def granted (spare : Nat) : Part → Nat
  | .fixed length => length
  | .stretched => spare

/-- Where there is room for all parts, each gets what it asks for, and those that stretch get the rest. -/
theorem arrange_lengths {available : Nat} {parts : List Part} (room : (parts.map Part.length).sum ≤ available) :
    (arrange available 0 parts).map Extent.length = parts.map (granted (available - (parts.map Part.length).sum)) := by
  have wanted : (parts.map Part.length).foldl (· + ·) 0 = (parts.map Part.length).sum := List.sum_eq_foldl.symm
  have whole := placed_lengths 0 0 (parts.map (granted (available - (parts.map Part.length).sum)))
  rw [List.map_map, Nat.cast_zero] at whole
  unfold arrange
  dsimp only
  rw [Nat.zero_mul, Nat.sub_zero, wanted, if_pos room]
  refine Eq.trans (congrArg (fun sizes => (placed 0 0 sizes).map Extent.length) ?_) whole
  exact List.map_congr_left fun p _ => by cases p <;> rfl

end ProxyMonitor.Screen.Layout
