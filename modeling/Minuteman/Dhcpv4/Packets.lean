import Minuteman.Dhcpv4.Wire
import Minuteman.Library.InternetChecksum

/-!
# DHCPv4 on the packet socket

`pkg/dhcpv4/packet.go`: a packet as the socket delivers it, from the IPv4
header on, is taken for a request, and a reply is framed for the wire.
-/
namespace Minuteman.Dhcpv4
open Library ByteString Checked

def bootpServerPort : UInt16 := 67
def bootpClientPort : UInt16 := 68
def ipprotoUDP : UInt8 := 17

/-- `Filter`, as the kernel runs it on a packet: a load outside the packet drops it. -/
def filter (b : Bytes) : Bool :=
  let ihl := (byteAt b 0 &&& 0x0f).toNat * 4
  9 < b.length && byteAt b 9 == ipprotoUDP && ihl + 4 ≤ b.length &&
    be16At b (ihl + 2) == bootpServerPort

def parseUDPToBOOTP (b : Bytes) : Checked (Option Bytes) :=
  if b.length < 20 then .ok none
  else do
    if (← index b 0) >>> 4 ≠ 4 then .ok none
    else if (← index b 9) ≠ ipprotoUDP then .ok none
    else
      let ihl := ((← index b 0) &&& 0x0f).toNat * 4
      if ihl < 20 ∨ b.length < ihl + 8 then .ok none
      else
        let udp ← sliceFrom b ihl
        if (← getUint16 udp 2) ≠ bootpServerPort then .ok none
        else
          let udpLen := (← getUint16 udp 4).toNat
          if udpLen < 8 ∨ udpLen > udp.length then .ok none
          else
            let payload ← slice udp 8 udpLen
            .ok (some payload)

def parseRequest (packet : Bytes) : Checked (Option Message) := do
  match ← parseUDPToBOOTP packet with
  | none => .ok none
  | some payload =>
    match ← parse payload with
    | .error _ => .ok none
    | .ok msg => .ok (some msg)

def headerLength (b : Bytes) : ℕ := (byteAt b 0 &&& 0x0f).toNat * 4

def udpLength (b : Bytes) : ℕ := (be16At b (headerLength b + 4)).toNat

def udpPayload (b : Bytes) : Bytes := (b.drop (headerLength b + 8)).take (udpLength b - 8)

/-- What `parseUDPToBOOTP` makes sure of. -/
structure Datagram (b : Bytes) : Prop where
  version : byteAt b 0 >>> 4 = 4
  protocol : byteAt b 9 = ipprotoUDP
  header : 20 ≤ headerLength b ∧ headerLength b + 8 ≤ b.length
  port : be16At b (headerLength b + 2) = bootpServerPort
  length : 8 ≤ udpLength b ∧ headerLength b + udpLength b ≤ b.length

theorem parseUDPToBOOTP_cases (b : Bytes) : parseUDPToBOOTP b = .ok none ∨
    Datagram b ∧ parseUDPToBOOTP b = .ok (some (udpPayload b)) := by
  generalize hr : parseUDPToBOOTP b = r
  rw [parseUDPToBOOTP] at hr
  by_cases hshort : b.length < 20
  · rw [if_pos hshort] at hr
    exact .inl hr.symm
  rw [if_neg hshort, index_eq (by omega), ok_bind, index_eq (by omega), ok_bind] at hr
  by_cases hversion : byteAt b 0 >>> 4 = 4
  swap
  · rw [if_pos hversion] at hr
    exact .inl hr.symm
  by_cases hprotocol : byteAt b 9 = ipprotoUDP
  swap
  · rw [if_neg (not_not.mpr hversion), if_pos hprotocol] at hr
    exact .inl hr.symm
  rw [if_neg (not_not.mpr hversion), if_neg (not_not.mpr hprotocol), ok_bind] at hr
  dsimp only at hr
  rw [← headerLength] at hr
  by_cases hheader : headerLength b < 20 ∨ b.length < headerLength b + 8
  · rw [if_pos hheader] at hr
    exact .inl hr.symm
  have hudp : (b.drop (headerLength b)).length = b.length - headerLength b := List.length_drop
  rw [if_neg hheader, sliceFrom_eq (by omega), ok_bind, getUint16_eq (by omega), ok_bind,
    be16At_drop, getUint16_eq (by omega), ok_bind, be16At_drop] at hr
  by_cases hport : be16At b (headerLength b + 2) = bootpServerPort
  swap
  · rw [if_pos hport] at hr
    exact .inl hr.symm
  rw [if_neg (not_not.mpr hport), ← udpLength] at hr
  by_cases hlength : udpLength b < 8 ∨ udpLength b > (b.drop (headerLength b)).length
  · rw [if_pos hlength] at hr
    exact .inl hr.symm
  rw [if_neg hlength, slice_eq (by omega) (by omega), ok_bind, List.drop_take, List.drop_drop] at hr
  exact .inr ⟨⟨hversion, hprotocol, by omega, hport, by omega⟩, hr.symm⟩

theorem parseRequest_cases (b : Bytes) : parseRequest b = .ok none ∨
    ∃ opts, Datagram b ∧
      parseRequest b = .ok (some { header (udpPayload b) with options := opts }) ∧
      parse (udpPayload b) = .ok (.ok { header (udpPayload b) with options := opts }) := by
  rw [parseRequest]
  rcases parseUDPToBOOTP_cases b with hnone | ⟨hdatagram, hsome⟩
  · rw [hnone]
    exact .inl rfl
  · rw [hsome, ok_bind]
    dsimp only
    rcases parse_returns (udpPayload b) with ⟨e, he⟩ | ⟨opts, hopts⟩
    · rw [he]
      exact .inl rfl
    · rw [hopts]
      exact .inr ⟨opts, hdatagram, rfl, rfl⟩

inductive NetAddr where
  | zero
  | v4 (a : Addr)
  | v6 (a : FixedBytes 16)
  deriving DecidableEq

namespace NetAddr

def is4 : NetAddr → Bool
  | v4 _ => true
  | _ => false

/-- `As4` takes an IPv4 address or one mapped into IPv6, and panics on any other. -/
def as4 : NetAddr → Checked Addr
  | v4 a => .ok a
  | v6 a =>
    if a.bytes.take 12 = List.replicate 10 0 ++ [0xff, 0xff] then .ok (be32At a.bytes 12)
    else .error .badArgument
  | zero => .error .badArgument

def ofField : Option Addr → NetAddr
  | some a => v4 a
  | none => zero

end NetAddr

def Message.broadcast (m : Message) : Bool := m.flags &&& flagBroadcast ≠ 0

def destination (reply : Message) : NetAddr × Bytes :=
  if reply.broadcast then (.v4 0xffffffff, List.replicate 6 0xff)
  else
    let dstIP := if reply.yiaddr.getD 0 = 0 then reply.ciaddr else reply.yiaddr
    (.ofField dstIP, reply.chaddr)

/-- The loop of `checksum` that adds the carries, for so many turns. -/
def foldCarries : (turns : ℕ) → UInt32 → UInt32
  | turns + 1, sum =>
    if sum >>> 16 ≠ 0 then foldCarries turns ((sum &&& (0xffff : UInt32)) + (sum >>> 16)) else sum
  | 0, sum => sum

def checksum (b : Bytes) : UInt16 :=
  ~~~ (foldCarries 2 (UInt32.ofNat (internetSum b))).toUInt16

def udpChecksum (src dst : Addr) (udp : Bytes) : UInt16 :=
  checksum (be32 src ++ be32 dst ++ [0, ipprotoUDP] ++ be16 (UInt16.ofNat udp.length) ++ udp)

def buildFrame (src dst : NetAddr) (payload : Bytes) : Checked Bytes := do
  let udpLen := 8 + payload.length
  let frame := List.replicate (20 + udpLen) (0 : UInt8)
  let frame ← store frame 0 [0x45]
  let frame ← store frame 2 (be16 (UInt16.ofNat (20 + udpLen)))
  let frame ← store frame 8 [64]
  let frame ← store frame 9 [ipprotoUDP]
  let s4 ← src.as4
  let d4 ← dst.as4
  let frame ← store frame 12 (be32 s4)
  let frame ← store frame 16 (be32 d4)
  let header ← slice frame 0 20
  let frame ← store frame 10 (be16 (checksum header))
  let frame ← store frame 20 (be16 bootpServerPort)
  let frame ← store frame 22 (be16 bootpClientPort)
  let frame ← store frame 24 (be16 (UInt16.ofNat udpLen))
  let frame ← store frame 28 payload
  let udp ← sliceFrom frame 20
  let csum := udpChecksum s4 d4 udp
  store frame 26 (be16 (if csum = 0 then 0xffff else csum))

def frame (srcIP : NetAddr) (reply : Message) : Checked (Bytes × Bytes) := do
  let bytes ← buildFrame srcIP (destination reply).1 reply.marshal
  .ok (bytes, (destination reply).2)

theorem shiftRight_toNat (sum : UInt32) : (sum >>> 16).toNat = sum.toNat / 65536 := by
  rw [UInt32.toNat_shiftRight]
  exact Nat.shiftRight_eq_div_pow sum.toNat 16

theorem carries_toNat (sum : UInt32) : ((sum &&& (0xffff : UInt32)) + (sum >>> 16)).toNat =
    sum.toNat % 65536 + sum.toNat / 65536 := by
  have hlow : (sum &&& (0xffff : UInt32)).toNat = sum.toNat % 65536 := by
    rw [UInt32.toNat_and]
    exact Nat.and_two_pow_sub_one_eq_mod sum.toNat 16
  have hlt := sum.toNat_lt
  rw [UInt32.toNat_add, hlow, shiftRight_toNat]
  omega

/-- Two turns fold any sum to 16 bits, which ends the loop. -/
theorem foldCarries_two (sum : UInt32) : foldCarries 2 sum >>> 16 = 0 := by
  have hzero : ∀ s : UInt32, s.toNat < 65536 → s >>> 16 = 0 := by
    intro s hs
    apply UInt32.toNat_inj.mp
    rw [shiftRight_toNat]
    exact Nat.div_eq_of_lt hs
  have hlt := sum.toNat_lt
  rw [foldCarries]
  split
  case isFalse hdone => exact not_not.mp hdone
  case isTrue =>
    have honce := carries_toNat sum
    generalize (sum &&& (0xffff : UInt32)) + (sum >>> 16) = once at honce
    rw [foldCarries]
    split
    case isFalse hdone => exact not_not.mp hdone
    case isTrue =>
      apply hzero
      rw [foldCarries, carries_toNat]
      omega

theorem buildFrame_returns (s d : Addr) (payload : Bytes) :
    ∃ f, buildFrame (.v4 s) (.v4 d) payload = .ok f := by
  have hlen : (List.replicate (20 + (8 + payload.length)) (0 : UInt8)).length =
      28 + payload.length := by
    rw [List.length_replicate]
    omega
  have hone : ∀ a : UInt8, [a].length = 1 := fun _ => rfl
  rw [buildFrame]
  refine store_bind_returns hlen (by rw [hone]; omega) fun f h => ?_
  refine store_bind_returns h (by rw [be16_length]; omega) fun f h => ?_
  refine store_bind_returns h (by rw [hone]; omega) fun f h => ?_
  refine store_bind_returns h (by rw [hone]; omega) fun f h => ?_
  rw [NetAddr.as4, NetAddr.as4, ok_bind, ok_bind]
  refine store_bind_returns h (by rw [be32_length]; omega) fun f h => ?_
  refine store_bind_returns h (by rw [be32_length]; omega) fun f h => ?_
  rw [slice_eq (by decide) (by omega), ok_bind]
  refine store_bind_returns h (by rw [be16_length]; omega) fun f h => ?_
  refine store_bind_returns h (by rw [be16_length]; omega) fun f h => ?_
  refine store_bind_returns h (by rw [be16_length]; omega) fun f h => ?_
  refine store_bind_returns h (by rw [be16_length]; omega) fun f h => ?_
  refine store_bind_returns h le_rfl fun f h => ?_
  rw [sliceFrom_eq (by omega), ok_bind]
  dsimp only
  rw [store, if_pos (by rw [be16_length]; omega)]
  exact ⟨_, rfl⟩

/-- Framing a reply panics only for want of a destination. -/
theorem frame_returns {reply : Message} {d : Addr} (h : (destination reply).1 = .v4 d) (s : Addr) :
    ∃ f, frame (.v4 s) reply = .ok f := by
  obtain ⟨bytes, hbytes⟩ := buildFrame_returns s d reply.marshal
  rw [frame, h, hbytes]
  exact ⟨_, rfl⟩

end Minuteman.Dhcpv4
