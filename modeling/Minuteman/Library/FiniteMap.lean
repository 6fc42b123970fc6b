import Mathlib.Logic.Function.Basic
import Mathlib.Tactic

/-!
# Finite maps that can be enumerated

A partial function with the list of its keys, so that looking up, changing one
key and sweeping over all of them are equally direct.
-/
namespace Minuteman.Library

structure FiniteMap (κ ν : Type) where
  get : κ → Option ν
  keys : List κ
  nodup : keys.Nodup
  mem_keys : ∀ k, k ∈ keys ↔ (get k).isSome = true

namespace FiniteMap
variable {κ ν : Type}

def empty : FiniteMap κ ν := ⟨fun _ => none, [], List.nodup_nil, by simp⟩

/-- What `f` makes of each value; a key it has no value for is dropped. -/
def sweep (m : FiniteMap κ ν) (f : κ → ν → Option ν) : FiniteMap κ ν where
  get k := (m.get k).bind (f k)
  keys := m.keys.filter fun k => ((m.get k).bind (f k)).isSome
  nodup := m.nodup.filter _
  mem_keys k := by
    rw [List.mem_filter, m.mem_keys]
    cases m.get k <;> simp

def keysWith (m : FiniteMap κ ν) (p : ν → Bool) : List κ :=
  m.keys.filter fun k => (m.get k).any p

@[simp] theorem get_empty (k : κ) : (empty : FiniteMap κ ν).get k = none := rfl

@[simp] theorem get_sweep (m : FiniteMap κ ν) (f : κ → ν → Option ν) (k : κ) :
    (m.sweep f).get k = (m.get k).bind (f k) := rfl

theorem mem_keysWith {m : FiniteMap κ ν} {p : ν → Bool} {k : κ} :
    k ∈ m.keysWith p ↔ ∃ v, m.get k = some v ∧ p v = true := by
  rw [keysWith, List.mem_filter, m.mem_keys]
  cases m.get k <;> simp

theorem nodup_keysWith (m : FiniteMap κ ν) (p : ν → Bool) : (m.keysWith p).Nodup :=
  m.nodup.filter _

variable [DecidableEq κ]

def set (m : FiniteMap κ ν) (k : κ) (v : ν) : FiniteMap κ ν where
  get := Function.update m.get k (some v)
  keys := k :: m.keys.filter (· ≠ k)
  nodup := by
    rw [List.nodup_cons]
    exact ⟨by simp, m.nodup.filter _⟩
  mem_keys k' := by
    by_cases h : k' = k
    · subst h
      simp
    · simp [h, m.mem_keys]

def erase (m : FiniteMap κ ν) (k : κ) : FiniteMap κ ν :=
  m.sweep fun k' v => if k' = k then none else some v

theorem get_set (m : FiniteMap κ ν) (k : κ) (v : ν) (k' : κ) :
    (m.set k v).get k' = if k' = k then some v else m.get k' := Function.update_apply ..

theorem get_erase (m : FiniteMap κ ν) (k k' : κ) :
    (m.erase k).get k' = if k' = k then none else m.get k' := by
  rw [erase, get_sweep]
  split_ifs with h
  · cases m.get k' <;> rfl
  · cases m.get k' <;> rfl

end FiniteMap

end Minuteman.Library
