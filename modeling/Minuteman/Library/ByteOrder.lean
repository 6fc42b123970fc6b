import Minuteman.Library.Checked

/-!
# Numbers in either byte order

A protocol between parts of one machine has its numbers in the order of that
machine. What is written in an order is read back in it.
-/
namespace Minuteman.Library
open ByteString Checked

inductive ByteOrder
  | little
  | big
  deriving DecidableEq

namespace ByteOrder
variable (o : ByteOrder)

/-- Bytes with the most significant first, as the order has them. It is its own inverse. -/
def arrange (b : Bytes) : Bytes :=
  match o with
  | .little => b.reverse
  | .big => b

def put16 (v : UInt16) : Bytes := o.arrange (be16 v)
def put32 (v : UInt32) : Bytes := o.arrange (be32 v)

def at16 (b : Bytes) : UInt16 := be16At (o.arrange (b.take 2)) 0

def at32 (b : Bytes) : UInt32 := be32At (o.arrange (b.take 4)) 0

def uint16 (b : Bytes) : Checked UInt16 :=
  if 2 ≤ b.length then .ok (o.at16 b) else .error (.indexOutOfRange 1 b.length)

def uint32 (b : Bytes) : Checked UInt32 :=
  if 4 ≤ b.length then .ok (o.at32 b) else .error (.indexOutOfRange 3 b.length)

variable {o}

@[simp] theorem arrange_arrange (b : Bytes) : o.arrange (o.arrange b) = b := by
  cases o <;> simp [arrange]

@[simp] theorem arrange_length (b : Bytes) : (o.arrange b).length = b.length := by
  cases o <;> simp [arrange]

@[simp] theorem put16_length (v : UInt16) : (o.put16 v).length = 2 := arrange_length _
@[simp] theorem put32_length (v : UInt32) : (o.put32 v).length = 4 := arrange_length _

@[simp] theorem at16_put16 (v : UInt16) (rest : Bytes) : o.at16 (o.put16 v ++ rest) = v := by
  rw [at16, List.take_left' (put16_length v), put16, arrange_arrange]
  exact be16At_be16 v []

@[simp] theorem at32_put32 (v : UInt32) (rest : Bytes) : o.at32 (o.put32 v ++ rest) = v := by
  rw [at32, List.take_left' (put32_length v), put32, arrange_arrange]
  exact be32At_be32 v []

theorem at32_append {b : Bytes} (h : 4 ≤ b.length) (rest : Bytes) :
    o.at32 (b ++ rest) = o.at32 b := by
  rw [at32, at32, List.take_append_of_le_length h]

theorem slice_uint16 {b : Bytes} {i : ℕ} (h : i + 2 ≤ b.length) :
    (slice b i (i + 2) >>= o.uint16) = .ok (o.at16 (b.drop i)) := by
  have hlength : 2 ≤ ((b.drop i).take 2).length := by
    simp only [List.length_take, List.length_drop]
    omega
  rw [slice_eq (Nat.le_add_right i 2) h, ok_bind, List.drop_take, Nat.add_sub_cancel_left, uint16,
    if_pos hlength, at16, at16, List.take_take, min_self]

theorem slice_uint32 {b : Bytes} {i : ℕ} (h : i + 4 ≤ b.length) :
    (slice b i (i + 4) >>= o.uint32) = .ok (o.at32 (b.drop i)) := by
  have hlength : 4 ≤ ((b.drop i).take 4).length := by
    simp only [List.length_take, List.length_drop]
    omega
  rw [slice_eq (Nat.le_add_right i 4) h, ok_bind, List.drop_take, Nat.add_sub_cancel_left, uint32,
    if_pos hlength, at32, at32, List.take_take, min_self]

end ByteOrder
end Minuteman.Library
