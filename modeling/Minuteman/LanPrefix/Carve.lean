import Minuteman.PrefixDelegation.IaPd

/-!
# Carving LAN subnets

`internal/lanprefix/carve.go`: the /64 of each LAN interface inside a delegated
prefix, and the address the interface gets in it.
-/
namespace Minuteman.LanPrefix
open Library ByteString PrefixDelegation

abbrev Addr := FixedBytes 16

def lanSubnetBits : ℕ := 64

inductive CarveError where
  | notIPv6 (p : Prefix)
  | tooNarrow (p : Prefix)
  | negativeIndex (index : ℤ)
  | exceedsCapacity (index : ℤ) (p : Prefix)
  | notLanSubnet (p : Prefix)
  deriving DecidableEq

def is4In6 (a : Addr) : Bool := a.bytes.take 12 = List.replicate 10 0 ++ [0xff, 0xff]

/-- The big-endian number of the first eight bytes. -/
def network (a : Addr) : BitVec 64 :=
  (a.bytes.take 8).foldl (fun n b => (n <<< 8) ||| b.toBitVec.setWidth 64) 0

def ofNetwork (n : BitVec 64) : Addr :=
  ⟨(List.range 8).map (fun i => UInt8.ofBitVec (n.extractLsb' (8 * (7 - i)) 8)) ++
    List.replicate 8 0, by simp⟩

def subnetFor (delegated : Prefix) (index : ℤ) : Except CarveError Prefix :=
  if is4In6 delegated.addr then .error (.notIPv6 delegated)
  else if delegated.bits > lanSubnetBits then .error (.tooNarrow delegated)
  else if index < 0 then .error (.negativeIndex index)
  else
    let subnetBits := lanSubnetBits - delegated.bits
    if subnetBits < 64 ∧ index ≥ wrap64 (2 ^ subnetBits) then
      .error (.exceedsCapacity index delegated)
    else
      let n := (network delegated.addr &&& ~~~((1#64 <<< subnetBits) - 1#64)) |||
        BitVec.ofInt 64 index
      .ok ⟨ofNetwork n, lanSubnetBits⟩

def assignedAddress (subnet : Prefix) : Except CarveError Addr :=
  if is4In6 subnet.addr then .error (.notIPv6 subnet)
  else if subnet.bits ≠ lanSubnetBits then .error (.notLanSubnet subnet)
  else .ok ⟨subnet.addr.bytes.set 15 1, by simp⟩

theorem is4In6_ofNetwork (n : BitVec 64) : is4In6 (ofNetwork n) = false := by
  simp [is4In6, ofNetwork, List.range_succ, List.replicate_succ]

theorem subnetFor_ok {delegated subnet : Prefix} {index : ℤ}
    (h : subnetFor delegated index = .ok subnet) :
    ∃ n, subnet = ⟨ofNetwork n, lanSubnetBits⟩ := by
  unfold subnetFor at h
  dsimp only at h
  split_ifs at h
  cases h
  exact ⟨_, rfl⟩

/-- A carved subnet has an address for its interface. -/
theorem assignedAddress_of_subnetFor {delegated subnet : Prefix} {index : ℤ}
    (h : subnetFor delegated index = .ok subnet) : ∃ addr, assignedAddress subnet = .ok addr := by
  obtain ⟨n, rfl⟩ := subnetFor_ok h
  refine ⟨⟨(ofNetwork n).bytes.set 15 1, by simp⟩, ?_⟩
  simp [assignedAddress, is4In6_ofNetwork]

end Minuteman.LanPrefix
