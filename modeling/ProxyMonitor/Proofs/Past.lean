import Mathlib.Data.List.Basic

/-! Lists that grow at their end, as the past of whatever goes on does. -/
namespace ProxyMonitor
variable {β γ : Type}

/-- What stands in the past is what came last, or stood there before. -/
theorem split_concat {past before after : List β} {x y : β} (split : past ++ [y] = before ++ x :: after) :
    (after = [] ∧ before = past ∧ x = y) ∨ ∃ rest, after = rest ++ [y] ∧ past = before ++ x :: rest := by
  rcases List.eq_nil_or_concat' after with rfl | ⟨rest, last, rfl⟩
  · obtain ⟨rfl, same⟩ := List.append_inj' split rfl
    cases same
    exact .inl ⟨rfl, rfl, rfl⟩
  · rw [← List.cons_append, ← List.append_assoc] at split
    obtain ⟨rfl, same⟩ := List.append_inj' split rfl
    cases same
    exact .inr ⟨rest, rfl, rfl⟩

theorem filterMap_concat (f : β → Option γ) (l : List β) (b : β) :
    (l ++ [b]).filterMap f = l.filterMap f ++ (f b).toList := by
  rw [List.filterMap_append]
  cases h : f b <;> simp [h]

end ProxyMonitor
