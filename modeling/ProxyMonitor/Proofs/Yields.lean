import Mathlib.Data.Option.Basic

/-! What is known of a result wherever there is one. -/
namespace ProxyMonitor

/-- Whatever was found has the property. -/
def Yields {α : Type} (p : α → Prop) (found : Option α) : Prop :=
  ∀ a, found = some a → p a

namespace Yields
variable {α β : Type} {p : β → Prop}

theorem bind {first : Option α} {next : α → Option β} (h : ∀ a, first = some a → Yields p (next a)) :
    Yields p (first >>= next) := by
  intro b hb
  obtain ⟨a, ha, rest⟩ := Option.bind_eq_some_iff.mp hb
  exact h a ha b rest

theorem map {first : Option α} {f : α → β} (h : Yields (fun a => p (f a)) first) : Yields p (first.map f) := by
  intro b hb
  obtain ⟨a, ha, rfl⟩ := Option.map_eq_some_iff.mp hb
  exact h a ha

theorem mapM {f : α → Option β} (h : ∀ a, Yields p (f a)) (parts : List α) :
    Yields (fun items => ∀ b ∈ items, p b) (parts.mapM f) := by
  induction parts with
  | nil =>
    rintro _ ⟨⟩
    nofun
  | cons a parts ih =>
    rw [List.mapM_cons]
    refine bind fun b hb => bind fun items hitems => ?_
    rintro _ ⟨⟩
    exact List.forall_mem_cons.mpr ⟨h a b hb, ih items hitems⟩

/-- There is no result if none can be. -/
theorem eq_none {found : Option β} (h : Yields (fun _ => False) found) : found = none :=
  Option.eq_none_iff_forall_ne_some.mpr h

end Yields
end ProxyMonitor
