import Minuteman.Datapath.Transparency

/-!
# Whom a tunnel error is for

An ICMPv6 error about a softwire packet concerns the host whose packet was
quoted. Errors about the packets of LAN hosts are the datapath's to relay; those
about packets of the device itself, which leave through a tunnel device with
the same endpoints, are the kernel's. `handle_tunnel_icmpv6` tells them apart
by the route back to the quoted source.
-/
namespace Minuteman.Datapath
open Library ByteString

/-- The frame is an ICMPv6 error for the B4 end of a softwire about a packet sent through it, whose
inner packet is quoted at `innerOff`. -/
structure TunnelError (m : Maps) (data : Bytes) (innerOff : ℕ) : Prop where
  parsed : parseL2Ipv6 data = .ip ethLen
  icmpv6 : (Ipv6hdr.read (data.drop ethLen)).nexthdr = ipprotoIcmpv6
  error : byteAt data outerHdrLen = 1 ∨ byteAt data outerHdrLen = 2 ∨ byteAt data outerHdrLen = 3
  length : outerHdrLen + 8 + ipv6hdrLen ≤ data.length
  softwire : (findDsliteLocalSlot m (Ipv6hdr.read (data.drop (outerHdrLen + 8)))
    (Ipv6hdr.read (data.drop ethLen)).daddr).isSome
  inner : quotedInner data (outerHdrLen + 8) = some innerOff

/-- Enough of the inner packet is quoted, and it has no options. -/
structure FullQuote (data : Bytes) (innerOff : ℕ) : Prop where
  length : innerOff + icmpFragQuoteLen ≤ data.length
  version : (Iphdr.read (data.drop innerOff)).version = 4
  ihl : (Iphdr.read (data.drop innerOff)).ihl = 5

def quotedSource (env : Env) (ctx : XdpMd) (innerOff : ℕ) : FibResult :=
  bpfFibLookup env (sourceFibParams ctx (copyIpv4Quote (ctx.data.drop innerOff)))

def SentForLan (env : Env) (x : Xdp) (innerOff : ℕ) : Prop :=
  (quotedSource env x.ctx innerOff).ret = .success ∧
    (quotedSource env x.ctx innerOff).ifindex ≠ x.maps.b4Config.wanIfindex ∧
    (x.maps.getLanConfig (quotedSource env x.ctx innerOff).ifindex).isSome

/-- The packet quoted is from one of the device's own addresses, to which nothing is forwarded. -/
def SentByCpe (env : Env) (x : Xdp) (innerOff : ℕ) : Prop :=
  (quotedSource env x.ctx innerOff).ret = .notFwded

instance (env : Env) (x : Xdp) (innerOff : ℕ) : Decidable (SentByCpe env x innerOff) :=
  inferInstanceAs (Decidable (_ = _))

/-- The source quoted is neither. -/
def Forged (env : Env) (x : Xdp) (innerOff : ℕ) : Prop :=
  ¬ SentForLan env x innerOff ∧ ¬ SentByCpe env x innerOff

/-- Only errors about packets of LAN hosts and forged ones are kept from the kernel; those about
packets of the device itself are passed to it. -/
structure KernelGetsOwn (env : Env) (x : Xdp) : Prop where
  taken : ∀ r, parseL2Ipv6 x.ctx.data = .ip ethLen →
    (Ipv6hdr.read (x.ctx.data.drop ethLen)).nexthdr = ipprotoIcmpv6 →
    handleTunnelIcmpv6 env x ethLen = some r → r.1 ≠ .pass →
    ∃ innerOff, TunnelError x.maps x.ctx.data innerOff ∧
      (SentForLan env x innerOff ∨ Forged env x innerOff)
  own : ∀ innerOff, TunnelError x.maps x.ctx.data innerOff → SentByCpe env x innerOff →
    (doXdpDsliteDecap env x).1 = .pass

section Cases
variable {env : Env} {x : Xdp} {innerOff : ℕ} {r : XdpAction × Xdp}

theorem TunnelError.run (h : TunnelError x.maps x.ctx.data innerOff) :
    doXdpDsliteDecap env x =
      (handleTunnelIcmpv6 env x ethLen).getD (forwardNative env x ethLen) := by
  have hfrag : ipprotoIcmpv6 ≠ ipprotoFragment := by decide
  simp only [doXdpDsliteDecap, h.parsed]
  rw [if_neg (by rw [h.icmpv6]; exact fun hf => hfrag hf.1), if_pos h.icmpv6]

theorem fullQuote_iff {data : Bytes} : FullQuote data innerOff ↔
    ¬ (data.length < innerOff + icmpFragQuoteLen ∨ (Iphdr.read (data.drop innerOff)).version ≠ 4 ∨
      (Iphdr.read (data.drop innerOff)).ihl ≠ 5) := by
  rw [not_or, not_or, not_lt, not_not, not_not]
  exact ⟨fun h => ⟨h.length, h.version, h.ihl⟩, fun h => ⟨h.1, h.2.1, h.2.2⟩⟩

theorem sentForLan_iff : SentForLan env x innerOff ↔
    ¬ ((quotedSource env x.ctx innerOff).ret ≠ .success ∨
      (quotedSource env x.ctx innerOff).ifindex = x.maps.b4Config.wanIfindex ∨
      (x.maps.getLanConfig (quotedSource env x.ctx innerOff).ifindex).isNone) := by
  rw [not_or, not_or, not_not, Option.isNone_iff_eq_none, ← ne_eq (Maps.getLanConfig _ _),
    Option.ne_none_iff_isSome]
  exact Iff.rfl

/-- A quote that is too short goes to the kernel, and one whose source is not behind a LAN is
dropped. -/
theorem TunnelError.handle (env : Env) (h : TunnelError x.maps x.ctx.data innerOff) :
    ∃ r, handleTunnelIcmpv6 env x ethLen = some r ∧
      (¬ FullQuote x.ctx.data innerOff → r.1 = .pass) ∧
      (FullQuote x.ctx.data innerOff → ¬ SentForLan env x innerOff → r.1 = .drop) := by
  have houter : outerHdrLen = ethLen + ipv6hdrLen := rfl
  obtain ⟨-, -, herror, hlength, hslot, hinner⟩ := h
  obtain ⟨slot, hslot⟩ := Option.isSome_iff_exists.mp hslot
  rw [houter] at herror hlength hslot hinner
  rw [fullQuote_iff, sentForLan_iff, not_not, not_not]
  unfold handleTunnelIcmpv6
  dsimp only
  rw [if_neg (by omega), if_neg (by tauto), if_neg (by omega), hslot, hinner]
  dsimp only
  split_ifs with hshort hsource htoobig hdf
  · exact ⟨_, rfl, fun _ => rfl, fun hfull => absurd hshort hfull⟩
  · exact ⟨_, rfl, fun hshort' => absurd hshort' hshort, fun _ _ => rfl⟩
  · exact ⟨_, rfl, fun hshort' => absurd hshort' hshort, fun _ hsource' => absurd hsource' hsource⟩
  · exact ⟨_, rfl, fun hshort' => absurd hshort' hshort, fun _ hsource' => absurd hsource' hsource⟩
  · exact ⟨_, rfl, fun hshort' => absurd hshort' hshort, fun _ hsource' => absurd hsource' hsource⟩

/-- What is kept from the kernel quotes a softwire packet. -/
theorem tunnelError_of_taken (hparse : parseL2Ipv6 x.ctx.data = .ip ethLen)
    (hicmpv6 : (Ipv6hdr.read (x.ctx.data.drop ethLen)).nexthdr = ipprotoIcmpv6)
    (h : handleTunnelIcmpv6 env x ethLen = some r) (htaken : r.1 ≠ .pass) :
    ∃ innerOff, TunnelError x.maps x.ctx.data innerOff := by
  have houter : outerHdrLen = ethLen + ipv6hdrLen := rfl
  unfold handleTunnelIcmpv6 at h
  dsimp only at h
  split at h
  · cases h
  split at h
  · cases h
  next herror =>
  split at h
  · cases h
  next hlength =>
  cases hslot : findDsliteLocalSlot x.maps (Ipv6hdr.read (x.ctx.data.drop (outerHdrLen + 8)))
      (Ipv6hdr.read (x.ctx.data.drop ethLen)).daddr with
  | none =>
    rw [houter] at hslot
    rw [hslot] at h
    cases h
  | some slot =>
    cases hinner : quotedInner x.ctx.data (outerHdrLen + 8) with
    | none =>
      rw [houter] at hslot hinner
      rw [hslot, hinner] at h
      cases h
      exact absurd rfl htaken
    | some innerOff =>
      refine ⟨innerOff, hparse, hicmpv6, ?_, ?_, ?_, hinner⟩
      · rw [houter]
        tauto
      · rw [houter]
        omega
      · rw [hslot]
        rfl

end Cases

/-- The device's own errors reach the kernel exactly if none of them quotes enough of the packet
to be looked at. -/
theorem kernelGetsOwn_iff (env : Env) (x : Xdp) :
    KernelGetsOwn env x ↔ ¬ ∃ innerOff, TunnelError x.maps x.ctx.data innerOff ∧
      FullQuote x.ctx.data innerOff ∧ SentByCpe env x innerOff := by
  constructor
  · rintro h ⟨innerOff, herror, hfull, hcpe⟩
    obtain ⟨r, hrun, -, hdrop⟩ := herror.handle env
    have hnotLan : ¬ SentForLan env x innerOff := fun hlan => by
      have hsuccess := hlan.1.symm.trans hcpe
      cases hsuccess
    have hpass := h.own innerOff herror hcpe
    rw [herror.run, hrun, Option.getD_some, hdrop hfull hnotLan] at hpass
    cases hpass
  · intro hnone
    constructor
    · intro r hparse hicmpv6 hrun htaken
      obtain ⟨innerOff, herror⟩ := tunnelError_of_taken hparse hicmpv6 hrun htaken
      obtain ⟨r', hrun', hshort, -⟩ := herror.handle env
      cases hrun.symm.trans hrun'
      have hfull : FullQuote x.ctx.data innerOff := by
        by_contra hnot
        exact htaken (hshort hnot)
      refine ⟨innerOff, herror, ?_⟩
      by_cases hlan : SentForLan env x innerOff
      · exact .inl hlan
      · exact .inr ⟨hlan, fun hcpe => hnone ⟨innerOff, herror, hfull, hcpe⟩⟩
    · intro innerOff herror hcpe
      obtain ⟨r, hrun, hshort, -⟩ := herror.handle env
      rw [herror.run, hrun]
      exact hshort fun hfull => hnone ⟨innerOff, herror, hfull, hcpe⟩

/-- A Time Exceeded about a packet the device sent from its own address through the softwire. -/
def ownError : XdpMd where
  data := (Ethhdr.mk default default ethPIpv6).toBytes ++
    ((outerIpv6 (sampleAddr 9) (sampleAddr 1) ipprotoIcmpv6 76).toBytes ++
      ([3, 0, 0, 0, 0, 0, 0, 0] ++
        ((outerIpv6 (sampleAddr 1) (sampleAddr 2) ipprotoIpip 28).toBytes ++
          ((Iphdr.mk 0x45 0 28 1 0 64 17 0 0xc0000002 0xcb007105).toBytes ++
            List.replicate 8 0))))
  headroom := List.replicate 64 0
  ingressIfindex := 2

/-- 192.0.0.2 is an address of the device; other IPv4 is routed to the LAN. -/
def ownAddressEnv : Env where
  fib p := match p.addrs with
    | .inet _ dst => { ret := if dst = 0xc0000002 then .notFwded else .success, egress := 3 }
    | .inet6 _ _ => { ret := .notFwded, egress := 0 }
  mtu _ := some 1500
  now := 1000000000

/-- It is dropped. -/
theorem ownError_dropped :
    TunnelError linkedMaps ownError.data 102 ∧
      SentByCpe ownAddressEnv ⟨linkedMaps, ownError⟩ 102 ∧
      (doXdpDsliteDecap ownAddressEnv ⟨linkedMaps, ownError⟩).1 = .drop := by
  refine ⟨⟨?_, ?_, ?_, ?_, ?_, ?_⟩, ?_, ?_⟩
  all_goals decide +kernel

end Minuteman.Datapath
