import Mathlib.Data.Set.Card
import Mathlib.Tactic

/-!
# Mutually inverse partial maps

An index and its reverse index, as two partial maps: `f a = some b` exactly
when `g b = some a`. Linking and unlinking a pair on both sides keeps them
inverse, and what is linked is counted by what it is linked to.
-/
namespace Minuteman.Library

variable {α β : Type} {f : α → Option β} {g : β → Option α} {a a' : α} {b b' : β}

def MutuallyInverse (f : α → Option β) (g : β → Option α) : Prop :=
  ∀ a b, f a = some b ↔ g b = some a

namespace MutuallyInverse

theorem empty : MutuallyInverse (fun _ : α => (none : Option β)) (fun _ => none) :=
  fun a b => by simp

/-- An entry has one key. -/
theorem unique (h : MutuallyInverse f g) (ha : f a = some b) (ha' : f a' = some b) : a = a' := by
  have hb := (h a b).mp ha
  rw [(h a' b).mp ha'] at hb
  exact (Option.some.inj hb).symm

section Updates
variable [DecidableEq α] [DecidableEq β]

theorem unlink (h : MutuallyInverse f g) (hab : f a = some b) :
    MutuallyInverse (Function.update f a none) (Function.update g b none) := by
  intro x y
  have hba := (h a b).mp hab
  simp only [Function.update_apply]
  by_cases hx : x = a
  · by_cases hy : y = b
    · simp [hx, hy]
    · have hne : g y ≠ some a := fun hg => hy (Option.some.inj ((h a y).mpr hg ▸ hab))
      simp [hx, hy, hne]
  · by_cases hy : y = b
    · have hne : f x ≠ some b := fun hf => hx (h.unique hf hab)
      simp [hx, hy, hne]
    · simpa [hx, hy] using h x y

theorem link (h : MutuallyInverse f g) (ha : f a = none) (hb : g b = none) :
    MutuallyInverse (Function.update f a (some b)) (Function.update g b (some a)) := by
  intro x y
  simp only [Function.update_apply]
  by_cases hx : x = a
  · by_cases hy : y = b
    · simp [hx, hy]
    · have hne : g y ≠ some a := fun hg => by simp [(h a y).mpr hg] at ha
      simp [hx, hy, hne, Ne.symm hy]
  · by_cases hy : y = b
    · have hne : f x ≠ some b := fun hf => by simp [(h x b).mp hf] at hb
      simp [hx, hy, hne, Ne.symm hx]
    · simpa [hx, hy] using h x y

/-- Taking an entry over from the key that has it. -/
theorem relink (h : MutuallyInverse f g) (ha : f a = none) (hb : g b = some a') :
    MutuallyInverse (Function.update (Function.update f a' none) a (some b))
      (Function.update g b (some a)) := by
  have hne : a ≠ a' := fun he => by simp [he, (h a' b).mpr hb] at ha
  have hlinked := (h.unlink ((h a' b).mpr hb)).link
    (by rwa [Function.update_of_ne hne]) (Function.update_self _ _ _)
  rwa [Function.update_idem] at hlinked

end Updates

/-- There are at most as many keys as entries they may have. -/
theorem ncard_le (h : MutuallyInverse f g) {entries : Set β} (hfin : entries.Finite)
    (hmem : ∀ a b, f a = some b → b ∈ entries) :
    {a | f a ≠ none}.Finite ∧ {a | f a ≠ none}.ncard ≤ entries.ncard := by
  have hmaps : Set.MapsTo f {a | f a ≠ none} (some '' entries) := by
    intro a ha
    obtain ⟨b, hb⟩ := Option.ne_none_iff_exists'.mp ha
    exact ⟨b, hmem a b hb, hb.symm⟩
  have hinj : Set.InjOn f {a | f a ≠ none} := by
    intro a ha a' _ heq
    obtain ⟨b, hb⟩ := Option.ne_none_iff_exists'.mp ha
    exact h.unique hb (heq ▸ hb)
  have hcard := Set.ncard_le_ncard_of_injOn f hmaps hinj (hfin.image some)
  rw [Set.ncard_image_of_injective _ (Option.some_injective β)] at hcard
  exact ⟨Set.Finite.of_injOn hmaps hinj (hfin.image some), hcard⟩

end MutuallyInverse
end Minuteman.Library
