import Mathlib.Tactic

/-!
# A table written in order

Writes to a table on disk are queued and applied one after another; a crash
keeps what has been applied. An order on the queue says what each write may do
to the live entries of the table it will find: leave them, take them out by
name, or replace them by an entry that extends them and clashes with no other.
What it guarantees of the table on disk holds after any number of writes.
-/
namespace Minuteman.Library

variable {κ ν τ : Type}

/-- A write, a `put` with what its issuer wants back once it is on disk. `purge` takes out the
entries that are dead. -/
inductive Write (κ ν τ : Type) where
  | put (k : κ) (v : ν) (tag : Option τ)
  | delete (k : κ)
  | purge (dead : ν → Bool)

namespace Write

def key : Write κ ν τ → Option κ
  | put k _ _ => some k
  | delete k => some k
  | purge _ => none

def tag : Write κ ν τ → Option τ
  | put _ _ tag => tag
  | _ => none

variable [DecidableEq κ]

def apply (t : κ → Option ν) : Write κ ν τ → κ → Option ν
  | put k v _ => Function.update t k (some v)
  | delete k => Function.update t k none
  | purge dead => fun k => (t k).filter (fun v => !dead v)

end Write

/-- The table once every queued write is applied. -/
def flush [DecidableEq κ] (t : κ → Option ν) (queue : List (Write κ ν τ)) : κ → Option ν :=
  queue.foldl Write.apply t

/-- No two live entries clash. -/
def Apart (live : ν → Prop) (clash : ν → ν → Prop) (t : κ → Option ν) : Prop :=
  ∀ k k' v v', t k = some v → t k' = some v' → live v → live v' → clash v v' → k = k'

/-- What a write may do to the live entries of `t`. -/
def Write.Follows (live : ν → Prop) (extend clash : ν → ν → Prop) (t : κ → Option ν) :
    Write κ ν τ → Prop
  | put k v _ => (∀ u, t k = some u → live u → extend u v) ∧
    ∀ k' u, k' ≠ k → t k' = some u → live u → ¬ clash u v ∧ ¬ clash v u
  | delete _ => True
  | purge dead => ∀ v, live v → dead v = false

section
variable {live live' : ν → Prop} {extend clash : ν → ν → Prop} {t : κ → Option ν} {w : Write κ ν τ}

theorem Write.Follows.mono (hlive : ∀ v, live' v → live v) (h : w.Follows live extend clash t) :
    w.Follows live' extend clash t := by
  cases w with
  | put k v tag =>
    exact ⟨fun u hu hl => h.1 u hu (hlive u hl), fun k' u hk hu hl => h.2 k' u hk hu (hlive u hl)⟩
  | delete k => trivial
  | purge dead => exact fun v hv => h v (hlive v hv)

end

/-- Every queued write follows on the table it will find. -/
def Ordered [DecidableEq κ] (live : ν → Prop) (extend clash : ν → ν → Prop) :
    (κ → Option ν) → List (Write κ ν τ) → Prop
  | _, [] => True
  | t, w :: queue => w.Follows live extend clash t ∧ Ordered live extend clash (w.apply t) queue

variable [DecidableEq κ] {live live' : ν → Prop} {extend clash : ν → ν → Prop}
  {t : κ → Option ν} {w : Write κ ν τ} {queue : List (Write κ ν τ)} {k : κ} {u v : ν}

theorem flush_append_singleton (t : κ → Option ν) (queue : List (Write κ ν τ)) (w : Write κ ν τ) :
    flush t (queue ++ [w]) = w.apply (flush t queue) := by
  simp [flush]

theorem Write.apply_of_key_ne (hk : w.key ≠ some k) (h : w.apply t k = some v) : t k = some v := by
  cases w with
  | put k' v' tag =>
    have hne : k ≠ k' := fun he => hk (by rw [he]; rfl)
    simpa [Write.apply, hne] using h
  | delete k' =>
    have hne : k ≠ k' := fun he => hk (by rw [he]; rfl)
    simpa [Write.apply, hne] using h
  | purge dead => exact (Option.filter_eq_some_iff.mp h).1

/-- An entry no queued write names is on disk already. -/
theorem flush_of_key_ne (hk : ∀ w ∈ queue, w.key ≠ some k) (h : flush t queue k = some v) :
    t k = some v := by
  induction queue generalizing t with
  | nil => exact h
  | cons w queue ih =>
    apply Write.apply_of_key_ne (hk w List.mem_cons_self)
    exact ih (fun w' hw' => hk w' (List.mem_cons_of_mem w hw')) h

theorem Ordered.mono (hlive : ∀ v, live' v → live v) (h : Ordered live extend clash t queue) :
    Ordered live' extend clash t queue := by
  induction queue generalizing t with
  | nil => trivial
  | cons w queue ih => exact ⟨h.1.mono hlive, ih h.2⟩

theorem Ordered.snoc (h : Ordered live extend clash t queue)
    (hw : w.Follows live extend clash (flush t queue)) :
    Ordered live extend clash t (queue ++ [w]) := by
  induction queue generalizing t with
  | nil => exact ⟨hw, trivial⟩
  | cons w' queue ih => exact ⟨h.1, ih h.2 hw⟩

/-- A write that does not take a live entry out by name leaves one that extends it. -/
theorem Write.Follows.carried (hrefl : ∀ v, extend v v) (h : w.Follows live extend clash t)
    (hk : w ≠ .delete k) (hu : t k = some u) (hl : live u) :
    ∃ v, w.apply t k = some v ∧ extend u v := by
  by_cases hput : ∃ v tag, w = .put k v tag
  · obtain ⟨v, tag, rfl⟩ := hput
    exact ⟨v, by simp [Write.apply], h.1 u hu hl⟩
  · refine ⟨u, ?_, hrefl u⟩
    cases w with
    | put k' v' tag =>
      have hne : k ≠ k' := fun he => hput ⟨v', tag, by rw [he]⟩
      simp [Write.apply, hne, hu]
    | delete k' =>
      have hne : k ≠ k' := fun he => hk (by rw [he])
      simp [Write.apply, hne, hu]
    | purge dead => simp [Write.apply, hu, h u hl]

theorem Write.Follows.apart (happart : Apart live clash t) (h : w.Follows live extend clash t) :
    Apart live clash (w.apply t) := by
  intro k k' v v' hv hv' hl hl' hclash
  cases w with
  | put j u tag =>
    simp only [Write.apply, Function.update_apply] at hv hv'
    by_cases hk : k = j <;> by_cases hk' : k' = j
    · rw [hk, hk']
    · rw [if_pos hk] at hv
      rw [if_neg hk'] at hv'
      cases hv
      exact absurd hclash (h.2 k' v' hk' hv' hl').2
    · rw [if_neg hk] at hv
      rw [if_pos hk'] at hv'
      cases hv'
      exact absurd hclash (h.2 k v hk hv hl).1
    · rw [if_neg hk] at hv
      rw [if_neg hk'] at hv'
      exact happart k k' v v' hv hv' hl hl' hclash
  | delete j =>
    simp only [Write.apply, Function.update_apply] at hv hv'
    split at hv
    · cases hv
    · split at hv'
      · cases hv'
      · exact happart k k' v v' hv hv' hl hl' hclash
  | purge dead =>
    exact happart k k' v v' (Option.filter_eq_some_iff.mp hv).1 (Option.filter_eq_some_iff.mp hv').1
      hl hl' hclash

/-- A live entry no queued write takes out by name is extended by the one that gets to disk. -/
theorem Ordered.carried (hrefl : ∀ v, extend v v)
    (htrans : ∀ u v x, extend u v → extend v x → extend u x)
    (hlive : ∀ u v, extend u v → live u → live v) (h : Ordered live extend clash t queue)
    (hk : .delete k ∉ queue) (hu : t k = some u) (hl : live u) :
    ∃ v, flush t queue k = some v ∧ extend u v := by
  induction queue generalizing t u with
  | nil => exact ⟨u, hu, hrefl u⟩
  | cons w queue ih =>
    have hw : w ≠ .delete k := fun he => hk (by rw [he]; exact List.mem_cons_self)
    obtain ⟨v, hv, huv⟩ := h.1.carried hrefl hw hu hl
    obtain ⟨x, hx, hvx⟩ := ih h.2 (fun hmem => hk (List.mem_cons_of_mem w hmem)) hv (hlive u v huv hl)
    exact ⟨x, hx, htrans u v x huv hvx⟩

end Minuteman.Library
