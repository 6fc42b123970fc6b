import Minuteman.LanPrefix.Carve

/-!
# The subnets of a delegated prefix

A carved network takes its upper bits from the delegated prefix and its lower
ones from the index, so it lies inside the one and tells the other.
-/
namespace Minuteman.LanPrefix
open Library ByteString PrefixDelegation

/-- The bits of an address, the most significant first. -/
def bitAt (a : Addr) (i : ℕ) : Bool := (byteAt a.bytes (i / 8)).toBitVec.getMsbD (i % 8)

/-- The addresses of a prefix, whose own may have host bits set. -/
def Contains (p : Prefix) (a : Addr) : Prop := ∀ i < p.bits, bitAt a i = bitAt p.addr i

section Bits
variable {n m : BitVec 64} {i j k : ℕ}

theorem foldl_bytes_getLsbD (bytes : Bytes) (hj : j < 64) :
    (bytes.foldl (fun (n : BitVec 64) b => (n <<< 8) ||| b.toBitVec.setWidth 64) n).getLsbD j =
      if j < 8 * bytes.length then
        (byteAt bytes (bytes.length - 1 - j / 8)).toBitVec.getLsbD (j % 8)
      else n.getLsbD (j - 8 * bytes.length) := by
  induction bytes using List.reverseRecOn generalizing j with
  | nil => simp
  | append_singleton bytes b ih =>
    rw [List.foldl_append, List.foldl_cons, List.foldl_nil, BitVec.getLsbD_or,
      BitVec.getLsbD_shiftLeft, BitVec.getLsbD_setWidth, List.length_append, List.length_singleton]
    by_cases hlow : j < 8
    · have hlast : bytes.length + 1 - 1 - j / 8 = bytes.length := by omega
      have hbyte : byteAt (bytes ++ [b]) bytes.length = b := by simp [byteAt]
      rw [if_pos (by omega), hlast, hbyte, Nat.mod_eq_of_lt hlow]
      simp [hlow, hj]
    · have hrest : bytes.length + 1 - 1 - j / 8 = bytes.length - 1 - (j - 8) / 8 := by omega
      have hmod : (j - 8) % 8 = j % 8 := by omega
      have hsub : j - 8 - 8 * bytes.length = j - 8 * (bytes.length + 1) := by omega
      have hzero : b.toBitVec.getLsbD j = false := BitVec.getLsbD_of_ge _ _ (by omega)
      rw [ih (by omega), hrest, hmod, hsub]
      by_cases hin : j < 8 * (bytes.length + 1)
      · have hbyte : byteAt (bytes ++ [b]) (bytes.length - 1 - (j - 8) / 8) =
            byteAt bytes (bytes.length - 1 - (j - 8) / 8) := byteAt_append_left (by omega)
        rw [if_pos (by omega), if_pos hin, hbyte]
        simp [hlow, hj, hzero]
      · rw [if_neg (by omega), if_neg hin]
        simp [hlow, hj, hzero]

theorem network_getMsbD (a : Addr) (hi : i < 64) : (network a).getMsbD i = bitAt a i := by
  have hlen : (a.bytes.take 8).length = 8 := by simp
  have hbyte : byteAt (a.bytes.take 8) (i / 8) = byteAt a.bytes (i / 8) := by
    rw [byteAt, byteAt, List.getD_eq_getElem?_getD, List.getD_eq_getElem?_getD,
      List.getElem?_take_of_lt (by omega)]
  have hindex : 8 - 1 - (64 - 1 - i) / 8 = i / 8 := by omega
  have hbit : (64 - 1 - i) % 8 = 8 - 1 - i % 8 := by omega
  rw [BitVec.getMsbD, network, foldl_bytes_getLsbD _ (by omega), hlen, if_pos (by omega), hindex,
    hbit, hbyte, bitAt, BitVec.getMsbD]
  simp [hi, Nat.mod_lt]

theorem bitAt_ofNetwork (n : BitVec 64) (hi : i < 64) : bitAt (ofNetwork n) i = n.getMsbD i := by
  have hbyte : byteAt (ofNetwork n).bytes (i / 8) =
      UInt8.ofBitVec (n.extractLsb' (8 * (7 - i / 8)) 8) := by
    rw [ofNetwork, byteAt_append_left (by simp; omega), byteAt, List.getD_eq_getElem?_getD,
      List.getElem?_map, List.getElem?_range (by omega)]
    rfl
  have hindex : 8 * (7 - i / 8) + (8 - 1 - i % 8) = 64 - 1 - i := by omega
  rw [bitAt, hbyte, BitVec.getMsbD, BitVec.getMsbD, BitVec.getLsbD_extractLsb', hindex]
  simp [hi, Nat.mod_lt]
  omega

theorem ofNetwork_injective (h : ∀ i < 64, bitAt (ofNetwork n) i = bitAt (ofNetwork m) i) :
    n = m := by
  apply BitVec.eq_of_getMsbD_eq
  intro i hi
  rw [← bitAt_ofNetwork n hi, ← bitAt_ofNetwork m hi]
  exact h i hi

theorem mask_getLsbD (hk : k ≤ 64) (hj : j < 64) :
    ((1#64 <<< k) - 1#64).getLsbD j = decide (j < k) := by
  have hmask : (1#64 <<< k) - 1#64 = BitVec.ofNat 64 (2 ^ k - 1) := by
    rcases hk.lt_or_eq with hlt | rfl
    · apply BitVec.eq_of_toNat_eq
      have hpow : 2 ^ k < 2 ^ 64 := Nat.pow_lt_pow_right (by decide) hlt
      have hpos : 0 < 2 ^ k := Nat.two_pow_pos k
      rw [BitVec.toNat_sub, BitVec.toNat_shiftLeft, BitVec.toNat_ofNat, BitVec.toNat_ofNat,
        Nat.shiftLeft_eq]
      generalize 2 ^ k = p at hpow hpos ⊢
      omega
    · decide
  rw [hmask, BitVec.getLsbD_ofNat, Nat.testBit_two_pow_sub_one]
  simp [hj]

/-- The network carved out of `n` for an index below `2 ^ k`: its lower `k` bits are the index's,
the others its own. -/
theorem carved_getLsbD (hk : k ≤ 64) (hj : j < 64) {index : ℕ} (hindex : index < 2 ^ k) :
    ((n &&& ~~~((1#64 <<< k) - 1#64)) ||| BitVec.ofNat 64 index).getLsbD j =
      if j < k then index.testBit j else n.getLsbD j := by
  rw [BitVec.getLsbD_or, BitVec.getLsbD_and, BitVec.getLsbD_not, mask_getLsbD hk hj,
    BitVec.getLsbD_ofNat]
  split_ifs with hlow
  · simp [hj, hlow]
  · have hzero : index.testBit j = false :=
      Nat.testBit_lt_two_pow (hindex.trans_le (Nat.pow_le_pow_right (by decide) (by omega)))
    simp [hj, hlow, hzero]

end Bits

def carved (delegated : Prefix) (index : ℕ) : BitVec 64 :=
  (network delegated.addr &&& ~~~((1#64 <<< (lanSubnetBits - delegated.bits)) - 1#64)) |||
    BitVec.ofNat 64 index

section Carved
variable {delegated : Prefix} {index i j : ℕ}

theorem carved_getMsbD (hindex : index < 2 ^ (lanSubnetBits - delegated.bits))
    (hi : i < delegated.bits) (hbits : delegated.bits ≤ lanSubnetBits) :
    (carved delegated index).getMsbD i = bitAt delegated.addr i := by
  have hk : lanSubnetBits - delegated.bits ≤ 64 := Nat.sub_le _ _
  rw [lanSubnetBits] at hbits
  rw [← network_getMsbD _ (by omega), BitVec.getMsbD, BitVec.getMsbD, carved,
    carved_getLsbD hk (by omega) hindex, if_neg (by rw [lanSubnetBits]; omega)]

theorem carved_injective (hi : i < 2 ^ (lanSubnetBits - delegated.bits))
    (hj : j < 2 ^ (lanSubnetBits - delegated.bits))
    (h : carved delegated i = carved delegated j) : i = j := by
  apply Nat.eq_of_testBit_eq
  intro b
  have hk : lanSubnetBits - delegated.bits ≤ lanSubnetBits := by
    rw [lanSubnetBits]
    omega
  by_cases hb : b < lanSubnetBits - delegated.bits
  · have hbit := congrArg (·.getLsbD b) h
    simpa only [carved, carved_getLsbD hk (hb.trans_le hk) hi, carved_getLsbD hk (hb.trans_le hk) hj,
      if_pos hb] using hbit
  · have hpow : 2 ^ (lanSubnetBits - delegated.bits) ≤ 2 ^ b :=
      Nat.pow_le_pow_right (by decide) (not_lt.mp hb)
    rw [Nat.testBit_lt_two_pow (hi.trans_le hpow), Nat.testBit_lt_two_pow (hj.trans_le hpow)]

/-- The addresses of the subnet lie in the delegated prefix. -/
theorem carved_inside (hbits : delegated.bits ≤ lanSubnetBits)
    (hindex : index < 2 ^ (lanSubnetBits - delegated.bits)) {a : Addr}
    (ha : Contains ⟨ofNetwork (carved delegated index), lanSubnetBits⟩ a) :
    Contains delegated a := by
  intro i hi
  rw [ha i (hi.trans_le hbits), bitAt_ofNetwork _ (hi.trans_le hbits), carved_getMsbD hindex hi hbits]

theorem carved_disjoint (hi : i < 2 ^ (lanSubnetBits - delegated.bits))
    (hj : j < 2 ^ (lanSubnetBits - delegated.bits)) {a : Addr}
    (ha : Contains ⟨ofNetwork (carved delegated i), lanSubnetBits⟩ a)
    (hb : Contains ⟨ofNetwork (carved delegated j), lanSubnetBits⟩ a) : i = j :=
  carved_injective hi hj
    (ofNetwork_injective fun b hlt => (ha b hlt).symm.trans (hb b hlt))

end Carved

/-- The capacity is computed exactly unless it is the one that an `int` just does not hold. -/
theorem wrap64_two_pow {k : ℕ} (hk : k < 63) : wrap64 (2 ^ k) = 2 ^ k := by
  have hpow : (2 : ℤ) ^ k ≤ 2 ^ 62 := pow_le_pow_right₀ (by norm_num) (by omega)
  have hpos : (0 : ℤ) < 2 ^ k := by positivity
  exact wrap64_of_mem (by omega) (by omega)

/-- Where there is room, the subnet of an index is carved. -/
theorem subnetFor_carved {delegated : Prefix} {index : ℤ} (hmapped : is4In6 delegated.addr = false)
    (hbits : delegated.bits ≤ lanSubnetBits) (hone : delegated.bits ≠ 1) (hnonneg : 0 ≤ index)
    (hlt : index < 2 ^ (64 - delegated.bits)) :
    subnetFor delegated index =
      .ok ⟨ofNetwork (carved delegated index.toNat), lanSubnetBits⟩ := by
  have hcapacity : ¬ (lanSubnetBits - delegated.bits < 64 ∧
      index ≥ wrap64 (2 ^ (lanSubnetBits - delegated.bits))) := by
    rintro ⟨hk, hge⟩
    rw [lanSubnetBits] at hk hge
    rw [wrap64_two_pow (by omega)] at hge
    omega
  have hindex : BitVec.ofInt 64 index = BitVec.ofNat 64 index.toNat := by
    rw [← BitVec.ofInt_natCast, Int.toNat_of_nonneg hnonneg]
  unfold subnetFor
  rw [if_neg (by simp [hmapped]), if_neg (by omega), if_neg (by omega)]
  dsimp only
  rw [if_neg hcapacity, hindex]
  rfl

/-- Where there is none, it is not. -/
theorem subnetFor_refused {delegated : Prefix} {index : ℤ} (hint : index < 2 ^ 63)
    (h : ¬ (0 ≤ index ∧ index < 2 ^ (64 - delegated.bits))) :
    (subnetFor delegated index).isOk = false := by
  unfold subnetFor
  dsimp only
  split_ifs with hmapped hbits hneg hcapacity
  · rfl
  · rfl
  · rfl
  · rfl
  · exfalso
    apply h
    refine ⟨not_lt.mp hneg, ?_⟩
    rw [lanSubnetBits] at hbits hcapacity
    by_cases hzero : delegated.bits = 0
    · rw [hzero]
      omega
    · by_cases hone : delegated.bits = 1
      · rw [hone] at hcapacity
        have hwrapped : wrap64 (2 ^ (64 - 1)) = -2 ^ 63 := by decide
        omega
      · rw [wrap64_two_pow (by omega)] at hcapacity
        omega

/-- What carving promises of a delegated prefix, for every value of an `int`. -/
structure Carves (delegated : Prefix) : Prop where
  succeeds : ∀ index : Int64, (subnetFor delegated index.toInt).isOk = true ↔
    0 ≤ index.toInt ∧ index.toInt < 2 ^ (64 - delegated.bits)
  inside : ∀ (index : Int64) subnet, subnetFor delegated index.toInt = .ok subnet →
    subnet.bits = 64 ∧ ∀ a, Contains subnet a → Contains delegated a
  disjoint : ∀ (i j : Int64) s t, i ≠ j → subnetFor delegated i.toInt = .ok s →
    subnetFor delegated j.toInt = .ok t → ∀ a, Contains s a → ¬ Contains t a
  assigned : ∀ (index : Int64) subnet, subnetFor delegated index.toInt = .ok subnet →
    ∃ addr, assignedAddress subnet = .ok addr ∧ Contains subnet addr
  distinct : ∀ (i j : Int64) s t a b, i ≠ j → subnetFor delegated i.toInt = .ok s →
    subnetFor delegated j.toInt = .ok t → assignedAddress s = .ok a → assignedAddress t = .ok b →
      a ≠ b

theorem assignedAddress_bits {n : BitVec 64} {addr : Addr}
    (h : assignedAddress ⟨ofNetwork n, lanSubnetBits⟩ = .ok addr) :
    Contains ⟨ofNetwork n, lanSubnetBits⟩ addr := by
  intro i hi
  have hi : i < 64 := hi
  rw [assignedAddress, if_neg (by simp [is4In6_ofNetwork]), if_neg (by simp)] at h
  cases h
  have hbyte : byteAt ((ofNetwork n).bytes.set 15 1) (i / 8) = byteAt (ofNetwork n).bytes (i / 8) := by
    rw [byteAt, byteAt, List.getD_eq_getElem?_getD, List.getD_eq_getElem?_getD,
      List.getElem?_set_ne (by omega)]
  rw [bitAt, bitAt, hbyte]

/-- A capacity of `2 ^ 63` is taken for a negative number, which every index exceeds. -/
theorem subnetFor_half {delegated : Prefix} (hone : delegated.bits = 1) :
    (subnetFor delegated 0).isOk = false := by
  have hcapacity : lanSubnetBits - delegated.bits < 64 ∧
      0 ≥ wrap64 (2 ^ (lanSubnetBits - delegated.bits)) := by
    rw [hone]
    decide
  unfold subnetFor
  dsimp only
  split_ifs <;> rfl

/-- A subnet that was carved is the one of its index, which there is room for. -/
theorem carved_of_ok {delegated subnet : Prefix} {index : Int64}
    (hmapped : is4In6 delegated.addr = false) (hbits : delegated.bits ≤ lanSubnetBits)
    (hone : delegated.bits ≠ 1) (h : subnetFor delegated index.toInt = .ok subnet) :
    0 ≤ index.toInt ∧ index.toInt.toNat < 2 ^ (lanSubnetBits - delegated.bits) ∧
      subnet = ⟨ofNetwork (carved delegated index.toInt.toNat), lanSubnetBits⟩ := by
  have hroom : 0 ≤ index.toInt ∧ index.toInt < 2 ^ (64 - delegated.bits) := by
    by_contra hnone
    have hrefused := subnetFor_refused index.toInt_lt hnone
    rw [h] at hrefused
    cases hrefused
  obtain ⟨hnonneg, hlt⟩ := hroom
  refine ⟨hnonneg, ?_, ?_⟩
  · rw [Int.toNat_lt hnonneg]
    exact_mod_cast hlt
  · rw [subnetFor_carved hmapped hbits hone hnonneg hlt] at h
    cases h
    rfl

/-- Carving keeps its promises for the prefixes that are not of mapped IPv4 addresses and not a
half of all addresses. -/
theorem carves_iff {delegated : Prefix} (hbits : delegated.bits ≤ 64) :
    Carves delegated ↔ is4In6 delegated.addr = false ∧ delegated.bits ≠ 1 := by
  constructor
  · intro h
    have hzero : (subnetFor delegated 0).isOk = true := (h.succeeds 0).mpr ⟨by decide, by positivity⟩
    constructor
    · rw [← Bool.not_eq_true]
      intro hmapped
      rw [subnetFor, if_pos hmapped] at hzero
      cases hzero
    · intro hone
      rw [subnetFor_half hone] at hzero
      cases hzero
  · rintro ⟨hmapped, hone⟩
    have hsame : ∀ (i j : Int64) (s t : Prefix) (a : Addr), subnetFor delegated i.toInt = .ok s →
        subnetFor delegated j.toInt = .ok t → Contains s a → Contains t a → i = j := by
      intro i j s t a hs ht hsa hta
      obtain ⟨hi, hilt, rfl⟩ := carved_of_ok hmapped hbits hone hs
      obtain ⟨hj, hjlt, rfl⟩ := carved_of_ok hmapped hbits hone ht
      have hindex := carved_disjoint hilt hjlt hsa hta
      rw [← Int64.toInt_inj]
      omega
    constructor
    · intro index
      constructor
      · intro hok
        by_contra hnone
        rw [subnetFor_refused index.toInt_lt hnone] at hok
        cases hok
      · rintro ⟨hnonneg, hlt⟩
        rw [subnetFor_carved hmapped hbits hone hnonneg hlt]
        rfl
    · intro index subnet hs
      obtain ⟨-, hlt, rfl⟩ := carved_of_ok hmapped hbits hone hs
      exact ⟨rfl, fun a ha => carved_inside hbits hlt ha⟩
    · intro i j s t hne hs ht a hsa hta
      exact hne (hsame i j s t a hs ht hsa hta)
    · intro index subnet hs
      obtain ⟨addr, haddr⟩ := assignedAddress_of_subnetFor hs
      obtain ⟨-, -, rfl⟩ := carved_of_ok hmapped hbits hone hs
      exact ⟨addr, haddr, assignedAddress_bits haddr⟩
    · rintro i j s t a b hne hs ht ha hb rfl
      apply hne
      apply hsame i j s t a hs ht
      · obtain ⟨-, -, rfl⟩ := carved_of_ok hmapped hbits hone hs
        exact assignedAddress_bits ha
      · obtain ⟨-, -, rfl⟩ := carved_of_ok hmapped hbits hone ht
        exact assignedAddress_bits hb

/-- `2001:db8::1/bits`: a host bit is set. -/
def sampleDelegated (bits : ℕ) : Prefix :=
  ⟨FixedBytes.read 16 ([0x20, 0x01, 0x0d, 0xb8] ++ List.replicate 11 0 ++ [1]), bits⟩

theorem carves_iff_delegated :
    (sampleDelegated 56).bits ≤ 64 ∧ Carves (sampleDelegated 56) :=
  ⟨by decide, (carves_iff (by decide)).mpr (by decide)⟩

def upperHalf : Prefix := ⟨FixedBytes.read 16 (0x80 :: List.replicate 15 0), 1⟩

/-- No subnet at all is carved out of a /1, not even the first. -/
theorem half_not_carved :
    subnetFor upperHalf 0 = .error (.exceedsCapacity 0 upperHalf) ∧ ¬ Carves upperHalf := by
  refine ⟨by decide, fun h => ?_⟩
  have hzero := (h.succeeds 0).mpr ⟨by decide, by decide⟩
  revert hzero
  decide

end Minuteman.LanPrefix
