import Mathlib.Tactic

/-!
# Randomized exponential backoff

A timeout starts near an initial one and about doubles each time until it is
near a ceiling. Each is drawn within a tenth of what it is drawn around.
-/
namespace Minuteman.Library

def Near (base t : ℤ) : Prop := 9 * base ≤ 10 * t ∧ 10 * t ≤ 11 * base

/-- The timeout after `prev`. A ceiling of 0 is none. -/
def BacksOff (ceiling prev t : ℤ) : Prop :=
  (19 * prev ≤ 10 * t ∧ 10 * t ≤ 21 * prev ∧ (ceiling = 0 ∨ t ≤ ceiling)) ∨
    (ceiling ≠ 0 ∧ 10 * ceiling < 21 * prev ∧ Near ceiling t)

/-- A series of timeouts, the latest first. -/
def Backoff (initial ceiling : ℤ) : List ℤ → Prop
  | [] => True
  | [t] => Near initial t
  | t :: prev :: rest => BacksOff ceiling prev t ∧ Backoff initial ceiling (prev :: rest)

/-- What is drawn within a tenth of a base, added to it, is near it. -/
theorem near_add {base jitter : ℤ} (h : 10 * |jitter| ≤ base) : Near base (base + jitter) := by
  have hle := abs_le.mp (le_refl |jitter|)
  constructor <;> omega

theorem backsOff_doubled {ceiling prev jitter : ℤ} (h : 10 * |jitter| ≤ prev)
    (hceiling : ceiling = 0 ∨ 2 * prev + jitter ≤ ceiling) :
    BacksOff ceiling prev (2 * prev + jitter) := by
  have hle := abs_le.mp (le_refl |jitter|)
  refine .inl ⟨?_, ?_, hceiling⟩ <;> omega

theorem backsOff_capped {ceiling prev jitter ceilingJitter : ℤ} (hne : ceiling ≠ 0)
    (h : 10 * |jitter| ≤ prev) (hceiling : 10 * |ceilingJitter| ≤ ceiling)
    (hover : 2 * prev + jitter > ceiling) : BacksOff ceiling prev (ceiling + ceilingJitter) := by
  have hle := abs_le.mp (le_refl |jitter|)
  exact .inr ⟨hne, by omega, near_add hceiling⟩

namespace Backoff
variable {initial ceiling t : ℤ} {rest : List ℤ}

theorem tail (h : Backoff initial ceiling (t :: rest)) : Backoff initial ceiling rest := by
  cases rest with
  | nil => trivial
  | cons prev rest => exact h.2

/-- Until it comes near the ceiling the timeout grows by at least nine tenths of itself. -/
theorem lower (h : Backoff initial ceiling (t :: rest)) (hinitial : 0 < initial)
    (hceiling : 0 ≤ ceiling) :
    0 < t ∧ (9 * initial * 19 ^ rest.length ≤ 10 ^ (rest.length + 1) * t ∨
      ceiling ≠ 0 ∧ 9 * ceiling ≤ 10 * t) := by
  induction rest generalizing t with
  | nil =>
    obtain ⟨hlow, -⟩ : Near initial t := h
    refine ⟨by omega, .inl ?_⟩
    simpa using hlow
  | cons prev rest ih =>
    obtain ⟨hpos, hprev⟩ := ih h.2
    rcases h.1 with ⟨hdouble, -, hcap⟩ | ⟨hne, -, hnear⟩
    · refine ⟨by omega, ?_⟩
      rcases hprev with hgrown | ⟨hne, hnear⟩
      · left
        have hscaled :
            19 * (10 ^ (rest.length + 1) * prev) ≤ 10 ^ (rest.length + 1) * (10 * t) := by
          calc 19 * (10 ^ (rest.length + 1) * prev)
              = 10 ^ (rest.length + 1) * (19 * prev) := by ring
            _ ≤ 10 ^ (rest.length + 1) * (10 * t) := by gcongr
        calc 9 * initial * 19 ^ (prev :: rest).length
            = 19 * (9 * initial * 19 ^ rest.length) := by
              rw [List.length_cons]
              ring
          _ ≤ 19 * (10 ^ (rest.length + 1) * prev) := by gcongr
          _ ≤ 10 ^ (rest.length + 1) * (10 * t) := hscaled
          _ = 10 ^ ((prev :: rest).length + 1) * t := by
              rw [List.length_cons]
              ring
      · exact .inr ⟨hne, by omega⟩
    · have hlow := hnear.1
      exact ⟨by omega, .inr ⟨hne, hlow⟩⟩

/-- The timeout never gets past a tenth above the ceiling. -/
theorem upper (h : Backoff initial ceiling (t :: rest)) (hne : ceiling ≠ 0)
    (hinitial : initial ≤ ceiling) (hceiling : 0 ≤ ceiling) : 10 * t ≤ 11 * ceiling := by
  cases rest with
  | nil =>
    have hhigh := (show Near initial t from h).2
    omega
  | cons prev rest =>
    rcases h.1 with ⟨-, -, hcap⟩ | ⟨-, -, hnear⟩
    · have hle := hcap.resolve_left hne
      omega
    · exact hnear.2

end Backoff
end Minuteman.Library
