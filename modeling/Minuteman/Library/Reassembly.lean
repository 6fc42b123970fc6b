import Mathlib.Data.List.Nodup
import Mathlib.Tactic

/-!
# Fragment sets and reassembly

A fragment carries a slice of a body at a byte offset. A fragment set
reassembles to a body when every byte is carried exactly once and exactly one
fragment is marked as the last. Cutting a body at the multiples of a unit
gives such a set exactly when there are enough pieces.
-/
namespace Minuteman.Library

/-- A slice of a body at a byte offset; `more` is clear on the last one. -/
structure Fragment (α : Type) where
  offset : ℕ
  more : Bool
  payload : List α

namespace Fragment
variable {α : Type}

def covers (f : Fragment α) (i : ℕ) : Bool :=
  decide (f.offset ≤ i ∧ i < f.offset + f.payload.length)

end Fragment

/-- The fragments `fs` reassemble to `body`: offsets are multiples of eight, every fragment
carries the body's own bytes, every byte is carried once, and one fragment is the last. -/
structure Reassembles {α : Type} (fs : List (Fragment α)) (body : List α) : Prop where
  aligned : ∀ f ∈ fs, 8 ∣ f.offset
  slice : ∀ f ∈ fs, f.payload = (body.drop f.offset).take f.payload.length
  inside : ∀ f ∈ fs, f.offset + f.payload.length ≤ body.length
  once : ∀ i < body.length, fs.countP (fun f => f.covers i) = 1
  oneLast : fs.countP (fun f => !f.more) = 1
  lastEnds : ∀ f ∈ fs, f.more = false → f.offset + f.payload.length = body.length

section Chunks
variable {α : Type}

/-- The piece of `body` that starts at `i * size`, if the body reaches that far. -/
def chunk (size : ℕ) (body : List α) (i : ℕ) : Option (Fragment α) :=
  if i * size < body.length then
    some ⟨i * size, decide (size < body.length - i * size), (body.drop (i * size)).take size⟩
  else none

/-- The first `n` pieces of `body` of `size` bytes each. -/
def chunks (size n : ℕ) (body : List α) : List (Fragment α) :=
  (List.range n).filterMap (chunk size body)

theorem eq_of_mem_chunks {size n : ℕ} {body : List α} {f : Fragment α}
    (hf : f ∈ chunks size n body) :
    ∃ i, i * size < body.length ∧
      f = ⟨i * size, decide (size < body.length - i * size), (body.drop (i * size)).take size⟩ := by
  obtain ⟨i, -, hi⟩ := List.mem_filterMap.mp hf
  unfold chunk at hi
  split_ifs at hi with hlt
  cases hi
  exact ⟨i, hlt, rfl⟩

/-- A count over the pieces is a count over their indices. -/
private theorem countP_chunks {size n : ℕ} {body : List α} {p : Fragment α → Bool} {k : ℕ}
    (hp : ∀ i, (∃ f, chunk size body i = some f ∧ p f = true) ↔ i = k) :
    (chunks size n body).countP p = if k < n then 1 else 0 := by
  have hcount : (chunks size n body).countP p = (List.range n).count k := by
    rw [chunks, List.countP_filterMap, List.count]
    apply List.countP_congr
    intro i _
    rw [beq_iff_eq, ← hp i]
    cases chunk size body i <;> simp
  rw [hcount]
  split_ifs with hk
  · exact List.count_eq_one_of_mem List.nodup_range (List.mem_range.mpr hk)
  · exact List.count_eq_zero_of_not_mem (by simpa using hk)

private theorem eq_div_iff {size i j : ℕ} (hsize : 0 < size) :
    i = j / size ↔ i * size ≤ j ∧ j < i * size + size := by
  rw [eq_comm, Nat.div_eq_iff hsize]
  constructor
  · intro h
    omega
  · intro h
    omega

private theorem chunk_covers {size : ℕ} {body : List α} (hsize : 0 < size) {j : ℕ}
    (hj : j < body.length) (i : ℕ) :
    (∃ f, chunk size body i = some f ∧ f.covers j = true) ↔ i = j / size := by
  rw [eq_div_iff hsize]
  constructor
  · rintro ⟨f, hf, hcovers⟩
    unfold chunk at hf
    split_ifs at hf
    cases hf
    simp only [Fragment.covers, List.length_take, List.length_drop, decide_eq_true_eq] at hcovers
    omega
  · rintro ⟨hle, hlt⟩
    refine ⟨_, if_pos (by omega), ?_⟩
    simp only [Fragment.covers, List.length_take, List.length_drop, decide_eq_true_eq]
    omega

private theorem chunk_last {size : ℕ} {body : List α} (hsize : 0 < size) (hbody : body ≠ [])
    (i : ℕ) : (∃ f, chunk size body i = some f ∧ (!f.more) = true) ↔
      i = (body.length - 1) / size := by
  have hpos := List.length_pos_of_ne_nil hbody
  rw [eq_div_iff hsize]
  constructor
  · rintro ⟨f, hf, hlast⟩
    unfold chunk at hf
    split_ifs at hf
    cases hf
    simp only [Bool.not_eq_true', decide_eq_false_iff_not] at hlast
    omega
  · rintro ⟨hle, hlt⟩
    refine ⟨_, if_pos (by omega), ?_⟩
    simp only [Bool.not_eq_true', decide_eq_false_iff_not]
    omega

/-- The pieces hold a last one exactly when they reach the body's end. -/
theorem countP_last_chunks {size n : ℕ} {body : List α} (hsize : 0 < size) (hbody : body ≠ []) :
    (chunks size n body).countP (fun f => !f.more) = if body.length ≤ n * size then 1 else 0 := by
  have hpos := List.length_pos_of_ne_nil hbody
  have hdiv : (body.length - 1) / size < n ↔ body.length ≤ n * size := by
    rw [Nat.div_lt_iff_lt_mul hsize]
    omega
  rw [countP_chunks (chunk_last hsize hbody), if_congr hdiv rfl rfl]

/-- Pieces that reach no end reassemble to nothing at all. -/
theorem Reassembles.length_le_of_chunks {size n : ℕ} {body out : List α} (hsize : 0 < size)
    (hbody : body ≠ []) (h : Reassembles (chunks size n body) out) : body.length ≤ n * size := by
  have hone := h.oneLast
  rw [countP_last_chunks hsize hbody] at hone
  split_ifs at hone with hlen
  exact hlen

/-- Cutting a body at multiples of `size` and keeping every piece reassembles to it. -/
theorem chunks_reassemble {size n : ℕ} {body : List α} (hsize : 0 < size) (height : 8 ∣ size)
    (hbody : body ≠ []) (hlen : body.length ≤ n * size) :
    Reassembles (chunks size n body) body := by
  refine ⟨?_, ?_, ?_, ?_, ?_, ?_⟩
  · intro f hf
    obtain ⟨i, hi, rfl⟩ := eq_of_mem_chunks hf
    exact height.mul_left i
  · intro f hf
    obtain ⟨i, hi, rfl⟩ := eq_of_mem_chunks hf
    simp
  · intro f hf
    obtain ⟨i, hi, rfl⟩ := eq_of_mem_chunks hf
    simp only [List.length_take, List.length_drop]
    omega
  · intro j hj
    rw [countP_chunks (chunk_covers hsize hj), if_pos]
    rw [Nat.div_lt_iff_lt_mul hsize]
    omega
  · rw [countP_last_chunks hsize hbody, if_pos hlen]
  · intro f hf hlast
    obtain ⟨i, hi, rfl⟩ := eq_of_mem_chunks hf
    simp only [decide_eq_false_iff_not] at hlast
    simp only [List.length_take, List.length_drop]
    omega

end Chunks
end Minuteman.Library
