import Mathlib.Data.List.Basic
import Mathlib.Tactic

/-!
# Byte strings with big-endian fields

A packet buffer is the list of its bytes. A pointer into it is a suffix, so
a header is read from the front of a suffix and a structure store overwrites
bytes at an offset. Multi-byte fields are in network order.
-/
namespace Minuteman.Library

abbrev Bytes := List UInt8

namespace ByteString

def byteAt (b : Bytes) (i : ℕ) : UInt8 := b.getD i 0

def be16At (b : Bytes) (i : ℕ) : UInt16 :=
  UInt16.ofNat ((byteAt b i).toNat * 256 + (byteAt b (i + 1)).toNat)

def be32At (b : Bytes) (i : ℕ) : UInt32 :=
  UInt32.ofNat ((be16At b i).toNat * 65536 + (be16At b (i + 2)).toNat)

def be16 (v : UInt16) : Bytes := [UInt8.ofNat (v.toNat / 256), UInt8.ofNat v.toNat]

def be32 (v : UInt32) : Bytes :=
  be16 (UInt16.ofNat (v.toNat / 65536)) ++ be16 (UInt16.ofNat v.toNat)

/-- Store `w` over the bytes of `b` that start at offset `off`. -/
def overwrite (b : Bytes) (off : ℕ) (w : Bytes) : Bytes :=
  b.take off ++ w ++ b.drop (off + w.length)

@[simp] theorem be16_length (v : UInt16) : (be16 v).length = 2 := rfl
@[simp] theorem be32_length (v : UInt32) : (be32 v).length = 4 := rfl

theorem byteAt_append_left {a b : Bytes} {i : ℕ} (h : i < a.length) :
    byteAt (a ++ b) i = byteAt a i := by
  simp [byteAt, List.getD_eq_getElem?_getD, List.getElem?_append_left h]

theorem byteAt_drop (b : Bytes) (k i : ℕ) : byteAt (b.drop k) i = byteAt b (k + i) := by
  simp [byteAt, List.getD_eq_getElem?_getD]

theorem drop_eq_byteAt_cons {b : Bytes} {i : ℕ} (h : i < b.length) :
    b.drop i = byteAt b i :: b.drop (i + 1) := by
  rw [List.drop_eq_getElem_cons h, byteAt, List.getD_eq_getElem?_getD, List.getElem?_eq_getElem h,
    Option.getD_some]

/-- What a suffix starts with is read at its offset. -/
theorem read_of_drop {b rest : Bytes} {i : ℕ} {x : UInt8} (h : b.drop i = x :: rest) :
    i < b.length ∧ byteAt b i = x ∧ b.drop (i + 1) = rest := by
  have hlt : i < b.length := by
    have hlength := congrArg List.length h
    rw [List.length_drop, List.length_cons] at hlength
    omega
  rw [drop_eq_byteAt_cons hlt, List.cons.injEq] at h
  exact ⟨hlt, h⟩

theorem be16At_drop (b : Bytes) (k i : ℕ) : be16At (b.drop k) i = be16At b (k + i) := by
  rw [be16At, be16At, byteAt_drop, byteAt_drop, Nat.add_assoc]

theorem be32At_drop (b : Bytes) (k i : ℕ) : be32At (b.drop k) i = be32At b (k + i) := by
  rw [be32At, be32At, be16At_drop, be16At_drop, Nat.add_assoc]

theorem be16At_append_left {a b : Bytes} {i : ℕ} (h : i + 1 < a.length) :
    be16At (a ++ b) i = be16At a i := by
  rw [be16At, be16At, byteAt_append_left (by omega), byteAt_append_left h]

theorem be16At_toNat (b : Bytes) (i : ℕ) :
    (be16At b i).toNat = (byteAt b i).toNat * 256 + (byteAt b (i + 1)).toNat := by
  have hhigh := (byteAt b i).toNat_lt
  have hlow := (byteAt b (i + 1)).toNat_lt
  rw [be16At, UInt16.toNat_ofNat']
  omega

theorem be16_ofNat_bytes (n : ℕ) :
    UInt16.ofNat ((UInt8.ofNat (n / 256)).toNat * 256 + (UInt8.ofNat n).toNat) =
      UInt16.ofNat n := by
  apply UInt16.toNat_inj.mp
  simp only [UInt16.toNat_ofNat', UInt8.toNat_ofNat']
  omega

/-- A 16-bit field reads back what was stored. -/
theorem be16At_be16 (v : UInt16) (b : Bytes) : be16At (be16 v ++ b) 0 = v := by
  change UInt16.ofNat ((UInt8.ofNat (v.toNat / 256)).toNat * 256 + (UInt8.ofNat v.toNat).toNat) = v
  rw [be16_ofNat_bytes, UInt16.ofNat_toNat]

/-- A 16-bit field reads what a suffix starts with. -/
theorem be16At_of_drop {b rest : Bytes} {off : ℕ} {v : UInt16} (h : b.drop off = be16 v ++ rest) :
    be16At b off = v := by
  rw [← Nat.add_zero off, ← be16At_drop, h, be16At_be16]

/-- A 16-bit field holds the two bytes it is read from. -/
theorem take_drop_eq_be16 {b : Bytes} {off : ℕ} (h : off + 2 ≤ b.length) :
    (b.drop off).take 2 = be16 (be16At b off) := by
  have hlow : off < b.length := by omega
  have hhigh : off + 1 < b.length := by omega
  have hbytes : (b.drop off).take 2 = [byteAt b off, byteAt b (off + 1)] := by
    rw [List.drop_eq_getElem_cons hlow, List.drop_eq_getElem_cons hhigh]
    simp only [List.take_succ_cons, List.take_zero, byteAt, List.getD_eq_getElem?_getD,
      List.getElem?_eq_getElem hlow, List.getElem?_eq_getElem hhigh, Option.getD_some]
  rw [hbytes, be16, be16At_toNat]
  have hfirst := (byteAt b off).toNat_lt
  have hsecond := (byteAt b (off + 1)).toNat_lt
  congr 1
  · apply UInt8.toNat_inj.mp
    rw [UInt8.toNat_ofNat']
    omega
  · congr 1
    apply UInt8.toNat_inj.mp
    rw [UInt8.toNat_ofNat']
    omega

/-- A 32-bit field reads back what was stored. -/
theorem be32At_be32 (v : UInt32) (b : Bytes) : be32At (be32 v ++ b) 0 = v := by
  have hhigh : be16At (be32 v ++ b) 0 = UInt16.ofNat (v.toNat / 65536) := by
    rw [be32, List.append_assoc]
    exact be16At_be16 _ _
  have hlow : be16At (be32 v ++ b) 2 = UInt16.ofNat v.toNat := be16At_be16 _ b
  rw [be32At, hhigh, hlow]
  apply UInt32.toNat_inj.mp
  have hv := v.toNat_lt
  simp only [UInt32.toNat_ofNat', UInt16.toNat_ofNat']
  omega

/-- A 32-bit field reads what a suffix starts with. -/
theorem be32At_of_drop {b rest : Bytes} {off : ℕ} {v : UInt32} (h : b.drop off = be32 v ++ rest) :
    be32At b off = v := by
  rw [← Nat.add_zero off, ← be32At_drop, h, be32At_be32]

theorem overwrite_length {b w : Bytes} {off : ℕ} (h : off + w.length ≤ b.length) :
    (overwrite b off w).length = b.length := by
  simp only [overwrite, List.length_append, List.length_take, List.length_drop]
  omega

/-- A store at the very front replaces the leading bytes. -/
theorem overwrite_zero (b w : Bytes) : overwrite b 0 w = w ++ b.drop w.length := by
  simp [overwrite]

/-- A store past a known front leaves that front alone. -/
theorem overwrite_append {a b w : Bytes} {off : ℕ} (h : a.length = off) :
    overwrite (a ++ b) off w = a ++ (w ++ b.drop w.length) := by
  subst h
  simp [overwrite, List.drop_append]

/-- A store past a known front, at an offset counted from its end. -/
theorem overwrite_append_add {a b w : Bytes} {off k : ℕ} (h : a.length = off) :
    overwrite (a ++ b) (off + k) w = a ++ overwrite b k w := by
  subst h
  simp only [overwrite, List.take_append, List.drop_append, List.append_assoc]
  rw [List.take_of_length_le (by omega), List.drop_eq_nil_of_le (by omega)]
  simp [Nat.add_assoc]

/-- A store inside a known front leaves the rest alone. -/
theorem overwrite_append_of_le {a b w : Bytes} {off : ℕ} (h : off + w.length ≤ a.length) :
    overwrite (a ++ b) off w = overwrite a off w ++ b := by
  rw [overwrite, overwrite, List.take_append_of_le_length (by omega),
    List.drop_append_of_le_length h, List.append_assoc, List.append_assoc, List.append_assoc]

theorem overwrite_getElem?_of_lt {b w : Bytes} {off i : ℕ} (h : i < off) (hb : off ≤ b.length) :
    (overwrite b off w)[i]? = b[i]? := by
  have hlen : i < (b.take off).length := by simp; omega
  rw [overwrite, List.append_assoc, List.getElem?_append_left hlen, List.getElem?_take_of_lt h]

theorem overwrite_getElem?_of_le {b w : Bytes} {off i : ℕ} (h : off + w.length ≤ i)
    (hb : off ≤ b.length) : (overwrite b off w)[i]? = b[i]? := by
  have hlen : (b.take off ++ w).length = off + w.length := by simp; omega
  rw [overwrite, List.getElem?_append_right (by omega), hlen, List.getElem?_drop]
  congr 1
  omega

theorem byteAt_overwrite {b w : Bytes} {off : ℕ} (h : off + w.length ≤ b.length) (i : ℕ) :
    byteAt (overwrite b off w) i =
      if off ≤ i ∧ i < off + w.length then byteAt w (i - off) else byteAt b i := by
  have htake : (b.take off).length = off := by simp; omega
  simp only [byteAt, List.getD_eq_getElem?_getD]
  split_ifs with hi
  · rw [overwrite, List.getElem?_append_left (by rw [List.length_append, htake]; omega),
      List.getElem?_append_right (by omega), htake]
  · by_cases hlt : i < off
    · rw [overwrite_getElem?_of_lt hlt (by omega)]
    · rw [overwrite_getElem?_of_le (by omega) (by omega)]

/-- A 16-bit field reads back what was stored at its offset. -/
theorem be16At_overwrite {b : Bytes} {off : ℕ} (h : off + 2 ≤ b.length) (v : UInt16) :
    be16At (overwrite b off (be16 v)) off = v := by
  rw [be16At, byteAt_overwrite h, byteAt_overwrite h, if_pos (by simp), if_pos (by simp),
    Nat.sub_self, Nat.add_sub_cancel_left]
  exact be16At_be16 v []

theorem be16At_overwrite_of_outside {b w : Bytes} {off i : ℕ} (h : off + w.length ≤ b.length)
    (hi : i + 2 ≤ off ∨ off + w.length ≤ i) : be16At (overwrite b off w) i = be16At b i := by
  rw [be16At, be16At, byteAt_overwrite h, byteAt_overwrite h, if_neg (by omega), if_neg (by omega)]

theorem overwrite_getElem?_of_outside {b w : Bytes} {off i : ℕ} (h : off ≤ b.length)
    (hi : i < off ∨ off + w.length ≤ i) : (overwrite b off w)[i]? = b[i]? := by
  rcases hi with hlt | hle
  · exact overwrite_getElem?_of_lt hlt h
  · exact overwrite_getElem?_of_le hle h

end ByteString

/-- A byte string of a fixed length, such as an address. -/
structure FixedBytes (n : ℕ) where
  bytes : Bytes
  size : bytes.length = n
  deriving DecidableEq

namespace FixedBytes
variable {n : ℕ}

def zero (n : ℕ) : FixedBytes n := ⟨List.replicate n 0, by simp⟩

instance : Inhabited (FixedBytes n) := ⟨zero n⟩

def read (n : ℕ) (b : Bytes) : FixedBytes n :=
  if h : n ≤ b.length then ⟨b.take n, by simp [h]⟩ else zero n

@[simp] theorem length_bytes (a : FixedBytes n) : a.bytes.length = n := a.size

@[simp] theorem drop_bytes (a : FixedBytes n) {k : ℕ} (h : n ≤ k) : a.bytes.drop k = [] :=
  List.drop_eq_nil_of_le (by simpa using h)

/-- A fixed-length field reads back what was stored. -/
@[simp] theorem read_append (a : FixedBytes n) (b : Bytes) : read n (a.bytes ++ b) = a := by
  obtain ⟨bytes, rfl⟩ := a
  simp [read]

theorem read_append_left {a : Bytes} (h : n ≤ a.length) (b : Bytes) :
    read n (a ++ b) = read n a := by
  have hab : n ≤ (a ++ b).length := by
    rw [List.length_append]
    omega
  simp only [read, dif_pos h, dif_pos hab, List.take_append_of_le_length h]

end FixedBytes
end Minuteman.Library
