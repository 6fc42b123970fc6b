import Minuteman.Library.ByteString

/-!
# The Internet checksum

The one's-complement sum of a byte string taken as 16-bit words, the last one
padded with a zero byte. A sum verifies when it is a multiple of `0xffff`: the
one's-complement sum is then all ones, unless every byte is zero. A byte counts
256 times or once, by the parity of its position, which is all that matters when
a field is replaced.
-/
namespace Minuteman.Library.ByteString

def internetSum : Bytes → ℕ
  | [] => 0
  | [a] => a.toNat * 256
  | a :: b :: rest => a.toNat * 256 + b.toNat + internetSum rest

/-- The sum of the bytes of `b`, the first of which is a low byte if `low`. -/
def byteSum (low : Bool) : Bytes → ℕ
  | [] => 0
  | a :: rest => a.toNat * (if low then 1 else 256) + byteSum (!low) rest

theorem internetSum_eq_byteSum (b : Bytes) : internetSum b = byteSum false b := by
  induction b using internetSum.induct with
  | case1 => rfl
  | case2 a => simp [internetSum, byteSum]
  | case3 a b rest ih => simp [internetSum, byteSum, ih, Nat.add_assoc]

theorem byteSum_append (low : Bool) (a b : Bytes) :
    byteSum low (a ++ b) = byteSum low a + byteSum (low ^^ decide (a.length % 2 = 1)) b := by
  induction a generalizing low with
  | nil => simp [byteSum]
  | cons x rest ih =>
    have hparity : (!low ^^ decide (rest.length % 2 = 1)) =
        (low ^^ decide ((rest.length + 1) % 2 = 1)) := by
      rcases Nat.mod_two_eq_zero_or_one rest.length with h | h
      · have hsucc : (rest.length + 1) % 2 = 1 := by omega
        simp [h, hsucc]
      · have hsucc : (rest.length + 1) % 2 = 0 := by omega
        simp [h, hsucc]
    rw [List.cons_append, byteSum, byteSum, ih, List.length_cons, hparity, Nat.add_assoc]

/-- A store replaces the contribution of the bytes it covers. -/
theorem byteSum_overwrite {b w : Bytes} {off : ℕ} (h : off + w.length ≤ b.length) :
    byteSum false (overwrite b off w) + byteSum (decide (off % 2 = 1)) ((b.drop off).take w.length) =
      byteSum false b + byteSum (decide (off % 2 = 1)) w := by
  have htake : (b.take off).length = off := by simp; omega
  have hold : ((b.drop off).take w.length).length = w.length := by simp; omega
  have hsplit : b = b.take off ++ ((b.drop off).take w.length ++ b.drop (off + w.length)) := by
    rw [← List.drop_drop, List.take_append_drop, List.take_append_drop]
  have hnew : byteSum false (overwrite b off w) = byteSum false (b.take off) +
      (byteSum (decide (off % 2 = 1)) w + byteSum (decide (off % 2 = 1) ^^ decide (w.length % 2 = 1))
        (b.drop (off + w.length))) := by
    rw [overwrite, List.append_assoc, byteSum_append, byteSum_append, htake, Bool.false_xor]
  have hwas : byteSum false b = byteSum false (b.take off) +
      (byteSum (decide (off % 2 = 1)) ((b.drop off).take w.length) +
        byteSum (decide (off % 2 = 1) ^^ decide (w.length % 2 = 1)) (b.drop (off + w.length))) := by
    conv_lhs => rw [hsplit]
    rw [byteSum_append, byteSum_append, htake, hold, Bool.false_xor]
  rw [hnew, hwas]
  omega

/-- What a 16-bit field adds to the sum; at an odd offset its bytes change places. -/
def fieldSum (low : Bool) (v : UInt16) : ℕ :=
  if low then v.toNat % 256 * 256 + v.toNat / 256 else v.toNat

theorem byteSum_be16 (low : Bool) (v : UInt16) : byteSum low (be16 v) = fieldSum low v := by
  have hv := v.toNat_lt
  cases low
  · simp [be16, byteSum, fieldSum]
    omega
  · simp [be16, byteSum, fieldSum]
    omega

/-- Replacing a 16-bit field changes the sum by the field's own difference. -/
theorem internetSum_overwrite_be16 {b : Bytes} {off : ℕ} (h : off + 2 ≤ b.length) (v : UInt16) :
    internetSum (overwrite b off (be16 v)) + fieldSum (decide (off % 2 = 1)) (be16At b off) =
      internetSum b + fieldSum (decide (off % 2 = 1)) v := by
  have hsum := byteSum_overwrite (w := be16 v) h
  rw [be16_length, take_drop_eq_be16 h, byteSum_be16, byteSum_be16] at hsum
  rw [internetSum_eq_byteSum, internetSum_eq_byteSum, hsum]

/-- A field of whole words that was zero adds what is stored in it. -/
theorem internetSum_overwrite_zero {b : Bytes} {off : ℕ} (heven : off % 2 = 0)
    (h : off + 2 ≤ b.length) (hzero : be16At b off = 0) (v : UInt16) :
    internetSum (overwrite b off (be16 v)) = internetSum b + v.toNat := by
  have hsum := internetSum_overwrite_be16 h v
  have hlow : decide (off % 2 = 1) = false := by
    rw [heven]
    rfl
  rw [hzero, hlow] at hsum
  exact hsum

/-- Blocks of whole words are summed one after the other. -/
theorem internetSum_append {a : Bytes} (h : a.length % 2 = 0) (b : Bytes) :
    internetSum (a ++ b) = internetSum a + internetSum b := by
  rw [internetSum_eq_byteSum, internetSum_eq_byteSum, internetSum_eq_byteSum, byteSum_append, h]
  rfl

theorem internetSum_le (b : Bytes) : internetSum b ≤ 65535 * b.length := by
  induction b using internetSum.induct with
  | case1 => simp [internetSum]
  | case2 a =>
    have ha := a.toNat_lt
    simp only [internetSum, List.length_singleton]
    omega
  | case3 a b rest ih =>
    have ha := a.toNat_lt
    have hb := b.toNat_lt
    simp only [internetSum, List.length_cons]
    omega

theorem complement_toNat (v : UInt16) : (~~~v).toNat = 65535 - v.toNat := by
  rw [UInt16.toNat_not]
  rfl

/-- One's-complement addition of 16-bit numbers: a carry out of the top is added at the bottom. -/
def onesAdd (x y : ℕ) : ℕ := if x + y < 65536 then x + y else x + y - 65535

/-- The one's-complement sum of RFC 1071. -/
def onesSum : Bytes → ℕ
  | [] => 0
  | [a] => a.toNat * 256
  | a :: b :: rest => onesAdd (a.toNat * 256 + b.toNat) (onesSum rest)

theorem onesSum_spec (b : Bytes) : onesSum b < 65536 ∧ onesSum b % 65535 = internetSum b % 65535 ∧
    (onesSum b = 0 → internetSum b = 0) := by
  induction b using internetSum.induct with
  | case1 => exact ⟨by decide, rfl, fun _ => rfl⟩
  | case2 a =>
    have ha := a.toNat_lt
    exact ⟨by rw [onesSum]; omega, rfl, fun h => h⟩
  | case3 a b rest ih =>
    have ha := a.toNat_lt
    have hb := b.toNat_lt
    obtain ⟨hlt, hmod, hzero⟩ := ih
    rw [onesSum, internetSum, onesAdd]
    split_ifs
    · exact ⟨by omega, by omega, by omega⟩
    · exact ⟨by omega, by omega, by omega⟩

/-- All ones is what a sum verifies with. -/
theorem onesSum_eq_all_ones {b : Bytes} (hmod : internetSum b % 65535 = 0)
    (hpos : 0 < internetSum b) : onesSum b = 0xffff := by
  obtain ⟨hlt, hsame, hzero⟩ := onesSum_spec b
  omega

end Minuteman.Library.ByteString
