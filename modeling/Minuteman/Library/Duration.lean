import Mathlib.Tactic

/-!
# Durations

A duration is a signed 64-bit count of nanoseconds. Sums and products wrap
around; a quotient is rounded toward zero. Instants are not bounded.
-/
namespace Minuteman.Library

/-- The 64-bit integer an arithmetic result is kept as. -/
def wrap64 (x : ℤ) : ℤ := x.bmod 18446744073709551616

theorem wrap64_of_mem {x : ℤ} (hlow : -9223372036854775808 ≤ x) (hhigh : x < 9223372036854775808) :
    wrap64 x = x := by
  rw [wrap64, Int.bmod_def]
  omega

/-- A quotient rounded toward zero is not positive if the dividend is not. -/
theorem tdiv_nonpos {x y : ℤ} (hx : x ≤ 0) (hy : 0 ≤ y) : x.tdiv y ≤ 0 := by
  have hneg := Int.tdiv_nonneg (Int.neg_nonneg.mpr hx) hy
  rw [Int.neg_tdiv] at hneg
  omega

def second : ℤ := 1000000000

end Minuteman.Library
