import Minuteman.Datapath.Maps

/-!
# Packets in flight

The state an XDP program works on (the maps and the frame), the kernel's
answers it consults, the helpers that move the frame's ends, and the header
parsing and writing shared by the programs.
-/
namespace Minuteman.Datapath
open Library ByteString

/-- `struct xdp_md`: the frame, the headroom in front of it and the receiving interface. -/
structure XdpMd where
  data : Bytes
  headroom : Bytes
  ingressIfindex : ℕ

inductive Target
  | txPort (ifindex : ℕ)
  | fragPorts
  | cpu (id : ℕ)
  | cpuV6 (id : ℕ)
  deriving DecidableEq

inductive XdpAction
  | aborted
  | drop
  | pass
  | redirect (target : Target)
  deriving DecidableEq

inductive FibRet
  | success
  | blackhole
  | unreachable
  | prohibit
  | notFwded
  | fwdDisabled
  | unsuppLwt
  | noNeigh
  | fragNeeded
  | noSrcAddr
  deriving DecidableEq

inductive FibAddrs
  | inet (src dst : UInt32)
  | inet6 (src dst : In6Addr)
  deriving DecidableEq

structure FibParams where
  tos : UInt8 := 0
  l4Protocol : UInt8 := 0
  totLen : ℕ
  addrs : FibAddrs
  ifindex : ℕ
  skipNeigh : Bool := false
  deriving DecidableEq

structure FibRoute where
  ret : FibRet
  egress : ℕ
  dmac : Mac := default
  smac : Mac := default
  mtu : ℕ := 0

structure FibResult where
  ret : FibRet
  ifindex : ℕ
  dmac : Mac
  smac : Mac
  mtuResult : ℕ

/-- What the kernel answers while one packet is processed. -/
structure Env where
  fib : FibParams → FibRoute
  mtu : ℕ → Option ℕ
  now : ℕ
  random : UInt32 := 0
  cpu : ℕ := 0

/-- `bpf_fib_lookup`: the egress is filled in only once the route's MTU has been accepted, the
link addresses only once the neighbour is known. -/
def bpfFibLookup (env : Env) (p : FibParams) : FibResult :=
  let r := env.fib p
  match r.ret with
  | .success => ⟨.success, r.egress, r.dmac, r.smac, 0⟩
  | .noNeigh => ⟨.noNeigh, r.egress, default, default, 0⟩
  | .fragNeeded => ⟨.fragNeeded, p.ifindex, default, default, r.mtu⟩
  | ret => ⟨ret, p.ifindex, default, default, 0⟩

inductive MtuCheck
  | ok
  | fragNeeded
  | error
  deriving DecidableEq

/-- `bpf_check_mtu` with the length to check; returns the device MTU when there is a device. -/
def bpfCheckMtu (env : Env) (ifindex len : ℕ) : MtuCheck × ℕ :=
  match env.mtu ifindex with
  | none => (.error, len)
  | some mtu => if len > mtu then (.fragNeeded, mtu) else (.ok, mtu)

namespace XdpMd

/-- `bpf_xdp_adjust_head`: move the start of the frame by `delta`, keeping an Ethernet header. -/
def adjustHead (ctx : XdpMd) (delta : ℤ) : Option XdpMd :=
  if delta < 0 then
    let grow := delta.natAbs
    if grow ≤ ctx.headroom.length then
      some { ctx with
        data := ctx.headroom.drop (ctx.headroom.length - grow) ++ ctx.data
        headroom := ctx.headroom.take (ctx.headroom.length - grow) }
    else none
  else
    let trim := delta.natAbs
    if trim + ethLen ≤ ctx.data.length then
      some { ctx with data := ctx.data.drop trim, headroom := ctx.headroom ++ ctx.data.take trim }
    else none

/-- `bpf_xdp_adjust_tail` by a negative amount: drop `trim` bytes off the end. -/
def adjustTail (ctx : XdpMd) (trim : ℕ) : Option XdpMd :=
  if trim + ethLen ≤ ctx.data.length then
    some { ctx with data := ctx.data.take (ctx.data.length - trim) }
  else none

end XdpMd

structure Xdp where
  maps : Maps
  ctx : XdpMd

namespace Xdp

def count (x : Xdp) (s : StatId) : Xdp := { x with maps := x.maps.increaseStatsCount s }

def store (x : Xdp) (off : ℕ) (b : Bytes) : Xdp :=
  { x with ctx := { x.ctx with data := overwrite x.ctx.data off b } }

def exit (x : Xdp) (s : StatId) (a : XdpAction) : XdpAction × Xdp := (a, x.count s)

end Xdp

/-- The answer of the header parsers: malformed, not ours, or the IP header's offset. -/
inductive Parsed
  | malformed
  | other
  | ip (l2Len : ℕ)
  deriving DecidableEq

def isVlan (proto : UInt16) : Bool := proto == ethP8021Q || proto == ethP8021AD

/-- One round of the tag loop of `parse_l2_ipv4`: step over a VLAN tag if there is one. -/
def skipVlanTag (data : Bytes) : Option (ℕ × UInt16) → Option (ℕ × UInt16)
  | none => none
  | some (off, proto) =>
    if isVlan proto then
      if data.length < off + 4 then none else some (off + 4, be16At data (off + 2))
    else some (off, proto)

/-- `parse_l2_ipv4`: Ethernet, at most two VLAN tags, then an option-free IPv4 header. -/
def parseL2Ipv4 (data : Bytes) : Parsed :=
  if data.length < ethLen then .malformed
  else
    match skipVlanTag data (skipVlanTag data (some (ethLen, (Ethhdr.read data).hProto))) with
    | none => .malformed
    | some (off, proto) =>
      if proto ≠ ethPIp then .other
      else if data.length < off + iphdrLen then .malformed
      else
        let iph := Iphdr.read (data.drop off)
        if iph.version ≠ 4 ∨ iph.ihl ≠ 5 then .other
        else if iph.totLen.toNat < iphdrLen then .malformed
        else if data.length < off + iph.totLen.toNat then .malformed
        else .ip off

/-- `parse_l2_ipv6`: Ethernet and an IPv6 header, no VLAN tag. -/
def parseL2Ipv6 (data : Bytes) : Parsed :=
  if data.length < ethLen then .malformed
  else if (Ethhdr.read data).hProto ≠ ethPIpv6 then .other
  else if data.length < ethLen + ipv6hdrLen then .malformed
  else
    let ip6h := Ipv6hdr.read (data.drop ethLen)
    if ip6h.version ≠ 6 then .other
    else if data.length < ethLen + ipv6hdrLen + ip6h.payloadLen.toNat then .malformed
    else .ip ethLen

theorem parseL2Ipv6_ip {data : Bytes} {l2Len : ℕ} (h : parseL2Ipv6 data = .ip l2Len) :
    l2Len = ethLen := by
  unfold parseL2Ipv6 at h
  dsimp only at h
  split_ifs at h
  cases h
  rfl

/-- `write_outer_ipv6`. -/
def outerIpv6 (saddr daddr : In6Addr) (nexthdr : UInt8) (payloadLen : ℕ) : Ipv6hdr where
  verPrio := 0x60
  flowLbl := FixedBytes.zero 3
  payloadLen := UInt16.ofNat payloadLen
  nexthdr := nexthdr
  hopLimit := 64
  saddr := saddr
  daddr := daddr

/-- `write_outer_eth6`. -/
def outerEth6 (cfg : B4Config) (fib : FibResult) (fibOk : Bool) : Ethhdr :=
  if fibOk then ⟨fib.dmac, fib.smac, ethPIpv6⟩ else ⟨cfg.dstMac, cfg.srcMac, ethPIpv6⟩

def outerHdrLen : ℕ := ethLen + ipv6hdrLen

/-- The checksum of `decrease_ipv4_ttl`: one's-complement increment of the high byte. -/
def ttlChecksum (check : UInt16) : UInt16 :=
  let csum := check.toNat + 0x0100
  UInt16.ofNat (csum % 65536 + csum / 65536)

def decreaseIpv4Ttl (data : Bytes) (off : ℕ) : Bytes :=
  let iph := Iphdr.read (data.drop off)
  overwrite (overwrite data (off + 10) (be16 (ttlChecksum iph.check))) (off + 8) [iph.ttl - 1]

def ipv4HeaderSum (pkt : Bytes) : ℕ :=
  ((List.range 10).map fun i => (be16At pkt (2 * i)).toNat).sum

/-- The header's Internet checksum verifies: its words add up to minus zero. -/
def ChecksumOk (pkt : Bytes) : Prop := ipv4HeaderSum pkt % 65535 = 0

/-- The packet `out` is `pkt` one hop further: only the TTL and the checksum differ. -/
structure OneHopFurther (pkt out : Bytes) : Prop where
  length : out.length = pkt.length
  ttl : (Iphdr.read out).ttl = (Iphdr.read pkt).ttl - 1
  others : ∀ i, i ≠ 8 → i ≠ 10 → i ≠ 11 → out[i]? = pkt[i]?
  checksum : ChecksumOk pkt → ChecksumOk out

section TimeToLive
variable {pkt : Bytes}

private theorem ipv4HeaderSum_eq (pkt : Bytes) :
    ipv4HeaderSum pkt = (be16At pkt 0).toNat + (be16At pkt 2).toNat + (be16At pkt 4).toNat +
      (be16At pkt 6).toNat + (be16At pkt 8).toNat + (be16At pkt 10).toNat + (be16At pkt 12).toNat +
      (be16At pkt 14).toNat + (be16At pkt 16).toNat + (be16At pkt 18).toNat := by
  simp [ipv4HeaderSum, List.range_succ]
  ring

private theorem pred_toNat {a : UInt8} (h : a ≠ 0) : (a - 1).toNat + 1 = a.toNat := by
  have hle : (1 : UInt8) ≤ a := UInt8.pos_iff_ne_zero.mpr h
  have hpos : 1 ≤ a.toNat := UInt8.le_iff_toNat_le.mp hle
  rw [UInt8.toNat_sub_of_le _ _ hle]
  exact Nat.sub_add_cancel hpos

private theorem decreaseIpv4Ttl_byteAt (h : iphdrLen ≤ pkt.length) (i : ℕ) :
    byteAt (decreaseIpv4Ttl pkt 0) i =
      if i = 8 then (Iphdr.read pkt).ttl - 1
      else if i = 10 then UInt8.ofNat ((ttlChecksum (Iphdr.read pkt).check).toNat / 256)
      else if i = 11 then UInt8.ofNat (ttlChecksum (Iphdr.read pkt).check).toNat
      else byteAt pkt i := by
  have hlen : iphdrLen = 20 := rfl
  have hcheck : (overwrite pkt 10 (be16 (ttlChecksum (Iphdr.read pkt).check))).length =
      pkt.length := overwrite_length (by simp; omega)
  simp only [decreaseIpv4Ttl, List.drop_zero, Nat.zero_add]
  rw [byteAt_overwrite (by simp; omega), byteAt_overwrite (by simp; omega)]
  by_cases h8 : i = 8
  · subst h8
    simp [byteAt]
  · by_cases h10 : i = 10
    · subst h10
      simp [byteAt, be16]
    · by_cases h11 : i = 11
      · subst h11
        simp [byteAt, be16]
      · rw [if_neg (by simp; omega), if_neg (by simp; omega), if_neg h8, if_neg h10, if_neg h11]

theorem decreaseIpv4Ttl_append {a : Bytes} {off : ℕ} (h : a.length = off) :
    decreaseIpv4Ttl (a ++ pkt) off = a ++ decreaseIpv4Ttl pkt 0 := by
  have hdrop : (a ++ pkt).drop off = pkt := by rw [← h, List.drop_left]
  simp only [decreaseIpv4Ttl, hdrop, List.drop_zero, Nat.zero_add]
  rw [overwrite_append_add h, overwrite_append_add h]

theorem decreaseIpv4Ttl_append_right (h : iphdrLen ≤ pkt.length) (rest : Bytes) :
    decreaseIpv4Ttl (pkt ++ rest) 0 = decreaseIpv4Ttl pkt 0 ++ rest := by
  have hlen : iphdrLen = 20 := rfl
  have hcheck : be16At (pkt ++ rest) 10 = be16At pkt 10 := be16At_append_left (by omega)
  have httl : byteAt (pkt ++ rest) 8 = byteAt pkt 8 := byteAt_append_left (by omega)
  simp only [decreaseIpv4Ttl, List.drop_zero, Nat.zero_add, Iphdr.read, hcheck, httl]
  rw [overwrite_append_of_le (by simp; omega), overwrite_append_of_le]
  rw [overwrite_length (by simp; omega)]
  simp
  omega

theorem decreaseIpv4Ttl_length (h : iphdrLen ≤ pkt.length) :
    (decreaseIpv4Ttl pkt 0).length = pkt.length := by
  have hlen : iphdrLen = 20 := rfl
  have hcheck : (overwrite pkt 10 (be16 (ttlChecksum (Iphdr.read pkt).check))).length =
      pkt.length := overwrite_length (by simp; omega)
  simp only [decreaseIpv4Ttl, List.drop_zero, Nat.zero_add]
  rw [overwrite_length (by simp; omega), hcheck]

private theorem ttlChecksum_toNat (check : UInt16) :
    (ttlChecksum check).toNat = check.toNat + 256 ∨
      (ttlChecksum check).toNat + 65535 = check.toNat + 256 := by
  have hlt := check.toNat_lt
  simp only [ttlChecksum, UInt16.toNat_ofNat']
  rcases Nat.lt_or_ge (check.toNat + 256) 65536 with hsmall | hcarry
  · have hdiv : (check.toNat + 256) / 65536 = 0 := by omega
    have hmod : (check.toNat + 256) % 65536 = check.toNat + 256 := by omega
    rw [hdiv, hmod]
    omega
  · have hdiv : (check.toNat + 256) / 65536 = 1 := by omega
    have hmod : (check.toNat + 256) % 65536 = check.toNat - 65280 := by omega
    rw [hdiv, hmod]
    omega

/-- Forwarding decrements the TTL and keeps the header checksum verifying. -/
theorem decreaseIpv4Ttl_oneHopFurther (h : iphdrLen ≤ pkt.length)
    (httl : (Iphdr.read pkt).ttl ≠ 0) : OneHopFurther pkt (decreaseIpv4Ttl pkt 0) := by
  have hlen : iphdrLen = 20 := rfl
  have hbyte := decreaseIpv4Ttl_byteAt h
  refine ⟨decreaseIpv4Ttl_length h, ?_, ?_, ?_⟩
  · change byteAt (decreaseIpv4Ttl pkt 0) 8 = _
    rw [hbyte, if_pos rfl]
  · intro i h8 h10 h11
    have hcheck : (overwrite pkt 10 (be16 (ttlChecksum (Iphdr.read pkt).check))).length =
        pkt.length := overwrite_length (by simp; omega)
    simp only [decreaseIpv4Ttl, List.drop_zero, Nat.zero_add]
    by_cases hlt : i < 8
    · rw [overwrite_getElem?_of_lt hlt (by omega), overwrite_getElem?_of_lt (by omega) (by omega)]
    · rw [overwrite_getElem?_of_le (by simp; omega) (by omega)]
      by_cases hnine : i < 10
      · rw [overwrite_getElem?_of_lt hnine (by omega)]
      · rw [overwrite_getElem?_of_le (by simp; omega) (by omega)]
  · intro hok
    have hsame : ∀ i, i < 7 ∨ 11 < i →
        be16At (decreaseIpv4Ttl pkt 0) i = be16At pkt i := by
      intro i hi
      rw [be16At, be16At, hbyte, hbyte, if_neg (by omega), if_neg (by omega), if_neg (by omega),
        if_neg (by omega), if_neg (by omega), if_neg (by omega)]
    have httlWord : (be16At (decreaseIpv4Ttl pkt 0) 8).toNat + 256 = (be16At pkt 8).toNat := by
      have hpred : ((Iphdr.read pkt).ttl - 1).toNat + 1 = (byteAt pkt 8).toNat := pred_toNat httl
      rw [be16At_toNat, be16At_toNat, hbyte, if_pos rfl, hbyte (8 + 1), if_neg (by decide),
        if_neg (by decide), if_neg (by decide)]
      omega
    have hcheckWord : be16At (decreaseIpv4Ttl pkt 0) 10 = ttlChecksum (be16At pkt 10) := by
      rw [be16At, hbyte, hbyte (10 + 1), if_neg (by decide), if_pos rfl, if_neg (by decide),
        if_neg (by decide), if_pos rfl, be16_ofNat_bytes, UInt16.ofNat_toNat]
      rfl
    have hsum := ttlChecksum_toNat (be16At pkt 10)
    unfold ChecksumOk at *
    rw [ipv4HeaderSum_eq] at *
    rw [hsame 0 (by omega), hsame 2 (by omega), hsame 4 (by omega), hsame 6 (by omega),
      hsame 12 (by omega), hsame 14 (by omega), hsame 16 (by omega), hsame 18 (by omega),
      hcheckWord]
    omega

end TimeToLive

end Minuteman.Datapath
