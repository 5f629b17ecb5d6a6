import Mathlib.Data.List.DropRight
import Mathlib.Data.List.TakeWhile
import ProxyMonitor.Text.Blank

/-! Texts that are taken apart and put together: what their parts are made of. -/
namespace ProxyMonitor.Text
variable {sep c : Char}

/-- What holds of 128 characters holds of those of ASCII. -/
theorem of_ascii {p : Char → Prop} (h : ∀ n < 0x80, p (Char.ofNat n)) {c : Char} (ascii : c.toNat < 0x80) : p c := by
  have here := h c.toNat ascii
  rwa [Char.ofNat_toNat] at here

/-- The parts between separators are made of the other characters. -/
theorem mem_splitOn {text part : List Char} (h : part ∈ text.splitOn sep) : ∀ c ∈ part, c ∈ text ∧ c ≠ sep := by
  induction text generalizing part with
  | nil =>
    rw [List.splitOn_nil, List.mem_singleton] at h
    rw [h]
    exact nofun
  | cons c text ih =>
    have later {part : List Char} (h : part ∈ text.splitOn sep) : ∀ d ∈ part, d ∈ c :: text ∧ d ≠ sep :=
      fun d hd => ⟨List.mem_cons_of_mem _ (ih h d hd).1, (ih h d hd).2⟩
    rw [List.splitOn_cons_eq_if_modifyHead] at h
    split at h
    · rcases List.mem_cons.mp h with rfl | h
      · exact nofun
      · exact later h
    · rename_i other
      cases parts : text.splitOn sep with
      | nil => exact absurd parts (List.splitOn_ne_nil _ _)
      | cons first rest =>
        rw [parts] at h later
        rcases List.mem_cons.mp h with rfl | h
        · intro d hd
          rcases List.mem_cons.mp hd with rfl | hd
          · exact ⟨List.mem_cons_self, fun same => other (beq_iff_eq.mpr same)⟩
          · exact later List.mem_cons_self d hd
        · exact later (List.mem_cons_of_mem _ h)

theorem mem_intercalate {parts : List (List Char)} (h : c ∈ [sep].intercalate parts) :
    c = sep ∨ ∃ part ∈ parts, c ∈ part := by
  induction parts with
  | nil => cases h
  | cons first rest ih =>
    cases rest with
    | nil => exact .inr ⟨first, List.mem_cons_self, by simpa [List.intercalate] using h⟩
    | cons second rest =>
      rw [List.intercalate_cons_cons] at h
      rcases List.mem_append.mp h with h | h
      · rcases List.mem_append.mp h with h | h
        · exact .inr ⟨first, List.mem_cons_self, h⟩
        · exact .inl (List.mem_singleton.mp h)
      · rcases ih h with h | ⟨part, hpart, h⟩
        · exact .inl h
        · exact .inr ⟨part, List.mem_cons_of_mem _ hpart, h⟩

/-- Nothing is cut off a text without the characters that are. -/
theorem trim_eq_self {text : List Char} {drop : Char → Bool} (h : ∀ c ∈ text, drop c = false) :
    trim text drop = text := by
  have front {text : List Char} (h : ∀ c ∈ text, drop c = false) : text.dropWhile drop = text := by
    cases text with
    | nil => rfl
    | cons c rest => rw [List.dropWhile_cons, h c List.mem_cons_self]; rfl
  rw [trim, trimEnd, trimStart, front h, front fun c hc => h c (List.mem_reverse.mp hc), List.reverse_reverse]

/-- What stands before and after the trimmed text is what was cut off. -/
theorem trim_parts (text : List Char) (drop : Char → Bool) :
    ∃ front back, text = front ++ trim text drop ++ back ∧ (∀ c ∈ front, drop c = true) ∧
      ∀ c ∈ back, drop c = true := by
  have within {text : List Char} : ∀ c ∈ text.takeWhile drop, drop c = true := fun c hc => List.mem_takeWhile_imp hc
  refine ⟨text.takeWhile drop, ((text.dropWhile drop).reverse.takeWhile drop).reverse, ?_, within,
    fun c hc => within c (List.mem_reverse.mp hc)⟩
  rw [trim, trimEnd, trimStart, List.append_assoc, ← List.reverse_append, List.takeWhile_append_dropWhile,
    List.reverse_reverse, List.takeWhile_append_dropWhile]

theorem trim_cons {drop : Char → Bool} {c : Char} (h : drop c = true) (text : List Char) :
    trim (c :: text) drop = trim text drop := by
  rw [trim, trimStart, List.dropWhile_cons_of_pos h]
  rfl

theorem trimEnd_concat (text : List Char) (c : Char) (drop : Char → Bool) :
    trimEnd (text ++ [c]) drop = if drop c then trimEnd text drop else text ++ [c] :=
  List.rdropWhile_concat drop text c

/-- What stands before a text without such an end is left alone. -/
theorem trimEnd_append {front : List Char} {drop : Char → Bool} (h : trimEnd front drop = front) (text : List Char) :
    trimEnd (front ++ text) drop = front ++ trimEnd text drop := by
  induction text using List.reverseRecOn with
  | nil => simpa [trimEnd] using h
  | append_singleton text c ih =>
    rw [← List.append_assoc, trimEnd_concat, trimEnd_concat, ih]
    split
    · rfl
    · rw [List.append_assoc]

theorem trimEnd_replicate {drop : Char → Bool} {c : Char} (h : drop c = true) (text : List Char) (n : Nat) :
    trimEnd (text ++ List.replicate n c) drop = trimEnd text drop := by
  induction n with
  | zero => rw [List.replicate_zero, List.append_nil]
  | succ n ih => rw [List.replicate_succ', ← List.append_assoc, trimEnd_concat, if_pos h, ih]

end ProxyMonitor.Text
