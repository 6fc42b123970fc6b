import Minuteman.Library.ByteString

/-!
# Checked access to byte strings

An access outside a buffer ends the run in a panic, as does a call with an
argument that the callee does not take. A program is written with the accesses
it makes, so that it never panics is that it always returns.
-/
namespace Minuteman.Library
open ByteString

inductive Panic where
  | indexOutOfRange (i length : ℕ)
  | sliceOutOfRange (low high length : ℕ)
  | badArgument
  deriving DecidableEq

abbrev Checked (α : Type) := Except Panic α

namespace Checked
variable {α β : Type} {b : Bytes}

@[simp] theorem ok_bind (a : α) (f : α → Checked β) : (Except.ok a >>= f : Checked β) = f a := rfl

def index (b : Bytes) (i : ℕ) : Checked UInt8 :=
  if i < b.length then .ok (byteAt b i) else .error (.indexOutOfRange i b.length)

/-- `b[low:high]`. A slice is not extended beyond its length, although its buffer may go on. -/
def slice (b : Bytes) (low high : ℕ) : Checked Bytes :=
  if low ≤ high ∧ high ≤ b.length then .ok ((b.take high).drop low)
  else .error (.sliceOutOfRange low high b.length)

def sliceFrom (b : Bytes) (low : ℕ) : Checked Bytes :=
  if low ≤ b.length then .ok (b.drop low) else .error (.sliceOutOfRange low b.length b.length)

def getUint16 (b : Bytes) (i : ℕ) : Checked UInt16 :=
  if i + 2 ≤ b.length then .ok (be16At b i) else .error (.indexOutOfRange (i + 1) b.length)

def getUint32 (b : Bytes) (i : ℕ) : Checked UInt32 :=
  if i + 4 ≤ b.length then .ok (be32At b i) else .error (.indexOutOfRange (i + 3) b.length)

def store (b : Bytes) (i : ℕ) (w : Bytes) : Checked Bytes :=
  if i + w.length ≤ b.length then .ok (overwrite b i w)
  else .error (.indexOutOfRange (i + w.length) b.length)

theorem index_eq {i : ℕ} (h : i < b.length) : index b i = .ok (byteAt b i) := if_pos h

theorem slice_eq {low high : ℕ} (h : low ≤ high) (hb : high ≤ b.length) :
    slice b low high = .ok ((b.take high).drop low) := if_pos ⟨h, hb⟩

theorem sliceFrom_eq {low : ℕ} (h : low ≤ b.length) : sliceFrom b low = .ok (b.drop low) := if_pos h

theorem getUint16_eq {i : ℕ} (h : i + 2 ≤ b.length) : getUint16 b i = .ok (be16At b i) := if_pos h

theorem getUint32_eq {i : ℕ} (h : i + 4 ≤ b.length) : getUint32 b i = .ok (be32At b i) := if_pos h

/-- A store inside the buffer succeeds and keeps its length. -/
theorem store_bind_returns {i n : ℕ} {w : Bytes} {k : Bytes → Checked β} (hb : b.length = n)
    (h : i + w.length ≤ n) (hk : ∀ b' : Bytes, b'.length = n → ∃ r, k b' = .ok r) :
    ∃ r, (store b i w >>= k) = .ok r := by
  rw [← hb] at h
  rw [store, if_pos h, ok_bind]
  exact hk _ ((overwrite_length h).trans hb)

end Checked
end Minuteman.Library
