import Mathlib.Data.Finset.Card
import Mathlib.Data.List.AList
import Mathlib.Tactic

/-!
# Finite maps of bounded size

A bounded map holds at most `cap` keys. Updating a key it holds always
succeeds; inserting a new key succeeds only while there is room.
-/
namespace Minuteman.Library

/-- A finite partial map that never holds more than `cap` keys. -/
structure BoundedMap (κ ν : Type) [DecidableEq κ] (cap : ℕ) where
  table : AList fun _ : κ => ν
  size_le : table.keys.length ≤ cap

namespace BoundedMap
variable {κ ν : Type} [DecidableEq κ] {cap : ℕ}

def empty : BoundedMap κ ν cap := ⟨∅, by simp⟩

def get (t : BoundedMap κ ν cap) (k : κ) : Option ν := t.table.lookup k

def dom (t : BoundedMap κ ν cap) : Finset κ := t.table.keys.toFinset

/-- The entries in the order an iteration visits them. -/
def toList (t : BoundedMap κ ν cap) : List (κ × ν) := t.table.entries.map fun e => (e.1, e.2)

@[simp] theorem get_empty (k : κ) : (empty : BoundedMap κ ν cap).get k = none := rfl

theorem card_dom (t : BoundedMap κ ν cap) : t.dom.card = t.table.keys.length :=
  List.toFinset_card_of_nodup t.table.keys_nodup

theorem mem_dom {t : BoundedMap κ ν cap} {k : κ} : k ∈ t.dom ↔ (t.get k).isSome := by
  rw [dom, List.mem_toFinset, get, AList.lookup_isSome, AList.mem_keys]

theorem mem_dom_of_get {t : BoundedMap κ ν cap} {k : κ} {v : ν} (h : t.get k = some v) :
    k ∈ t.dom := mem_dom.mpr (by simp [h])

theorem mem_toList {t : BoundedMap κ ν cap} {k : κ} {v : ν} :
    (k, v) ∈ t.toList ↔ t.get k = some v := by
  rw [get, ← Option.mem_def, AList.mem_lookup_iff, toList, List.mem_map]
  constructor
  · rintro ⟨⟨k', v'⟩, hmem, heq⟩
    cases heq
    exact hmem
  · intro hmem
    exact ⟨⟨k, v⟩, hmem, rfl⟩

private theorem insert_size {t : BoundedMap κ ν cap} {k : κ} {v : ν}
    (h : (t.get k).isSome ∨ t.table.keys.length < cap) :
    (t.table.insert k v).keys.length ≤ cap := by
  have hle := t.size_le
  rw [AList.keys_insert, List.length_cons, List.length_erase]
  rcases h with h | h
  · rw [get, AList.lookup_isSome, AList.mem_keys] at h
    have hpos := List.length_pos_of_mem h
    rw [if_pos h]
    omega
  · split <;> omega

/-- Insert or update `k`; `none` when `k` is new and the map is full. -/
def insert (t : BoundedMap κ ν cap) (k : κ) (v : ν) : Option (BoundedMap κ ν cap) :=
  if h : (t.get k).isSome ∨ t.table.keys.length < cap then
    some ⟨t.table.insert k v, insert_size h⟩
  else none

def set (t : BoundedMap κ ν cap) (k : κ) (v : ν) : BoundedMap κ ν cap := (t.insert k v).getD t

def delete (t : BoundedMap κ ν cap) (k : κ) : BoundedMap κ ν cap :=
  ⟨t.table.erase k, by
    rw [AList.keys_erase]
    exact (List.length_erase_le).trans t.size_le⟩

theorem insert_eq_none {t : BoundedMap κ ν cap} {k : κ} {v : ν} :
    t.insert k v = none ↔ k ∉ t.dom ∧ t.dom.card = cap := by
  have hle := t.size_le
  rw [mem_dom, card_dom]
  by_cases h : (t.get k).isSome ∨ t.table.keys.length < cap
  · simp only [insert, dif_pos h, reduceCtorEq, false_iff, not_and]
    intro hk
    have hlt := h.resolve_left hk
    omega
  · simp only [insert, dif_neg h, true_iff]
    rw [not_or] at h
    exact ⟨h.1, by omega⟩

theorem get_insert {t u : BoundedMap κ ν cap} {k : κ} {v : ν} (h : t.insert k v = some u)
    (k' : κ) : u.get k' = if k' = k then some v else t.get k' := by
  unfold insert at h
  split_ifs at h
  cases h
  split_ifs with hk
  · subst hk
    exact AList.lookup_insert _
  · exact AList.lookup_insert_ne hk

theorem dom_insert {t u : BoundedMap κ ν cap} {k : κ} {v : ν} (h : t.insert k v = some u) :
    u.dom = Insert.insert k t.dom := by
  ext k'
  rw [mem_dom, get_insert h, Finset.mem_insert, mem_dom]
  split_ifs with hk <;> simp [hk]

theorem insert_eq_some {t : BoundedMap κ ν cap} {k : κ} (v : ν) (hk : k ∈ t.dom) :
    t.insert k v = some (t.set k v) := by
  cases h : t.insert k v with
  | none => exact absurd hk (insert_eq_none.mp h).1
  | some u => rw [set, h, Option.getD_some]

theorem get_set {t : BoundedMap κ ν cap} {k : κ} {v : ν} (hk : k ∈ t.dom) (k' : κ) :
    (t.set k v).get k' = if k' = k then some v else t.get k' := get_insert (insert_eq_some v hk) k'

theorem get_delete (t : BoundedMap κ ν cap) (k k' : κ) :
    (t.delete k).get k' = if k' = k then none else t.get k' := by
  split_ifs with hk
  · subst hk
    exact AList.lookup_erase _ _
  · exact AList.lookup_erase_ne hk

end BoundedMap
end Minuteman.Library
