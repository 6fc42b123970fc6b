import Minuteman.Datapath.Transparency
import Minuteman.PathMtu.Attribution

/-!
# The MTU a LAN client is told

`handle_tunnel_icmpv6` learns a path MTU from a Packet Too Big message and
relays the message as an ICMPv4 error. What it learns is floored and held
against the reading it has; what it relays is worked out from the report.
-/
namespace Minuteman.PathMtu
open Library ByteString Datapath Loader

def nextHopMtu (frame : Bytes) : ℕ := (be16At frame (ethLen + iphdrLen + 6)).toNat

/-- A Packet Too Big message about the packets of `slot`, relayed to the LAN with `y` the result. -/
structure Relayed (env : Env) (x : Xdp) (slot reported : ℕ) (y : Xdp) : Prop where
  tooBig : tunnelTooBig env x.maps x.ctx ethLen = some (slot, reported)
  run : ∃ target, handleTunnelIcmpv6 env x ethLen = some (.redirect target, y)

def Unexpired (now : ℕ) (e : TunnelPmtu) : Prop :=
  e.updatedNs ≠ 0 ∧ elapsedNs now e.updatedNs < tunnelPmtuExpiryNs

/-- The client is told what encap carries from now on: at least what every path carries, and no
more than the reading `before` allows while it lasts. -/
structure Truthful (now : ℕ) (before : TunnelPmtu) (after told : ℕ) : Prop where
  carried : told = min 65535 (after - ipv6hdrLen)
  floor : 1240 ≤ told
  bounded : Unexpired now before → told ≤ before.mtu - ipv6hdrLen

/-- The report is an MTU that IPv6 allows, and no reading below it lasts; what a client cannot be
told in sixteen bits makes no difference. -/
def Plain (now : ℕ) (before : TunnelPmtu) (reported : ℕ) : Prop :=
  ipv6MinMtu ≤ reported ∧ (Unexpired now before → min reported 65575 ≤ before.mtu)

section Frame
variable {env : Env} {x y : Xdp} {slot reported : ℕ} {target : Target}

theorem nextHopMtu_report (eth : Ethhdr) (iph : Iphdr) (type code : UInt8) {mtu : ℕ}
    (hmtu : mtu ≤ 65535) (quote rest : Bytes) :
    nextHopMtu (eth.toBytes ++ (iph.toBytes ++
      (icmpv4Error type code (UInt32.ofNat mtu) quote ++ rest))) = mtu := by
  have hhead : (eth.toBytes ++ iph.toBytes).length = ethLen + iphdrLen := by simp; rfl
  have hword : ∃ csum, icmpv4Error type code (UInt32.ofNat mtu) quote =
      type :: code :: (be16 csum ++ (be32 (UInt32.ofNat mtu) ++ quote)) := ⟨_, rfl⟩
  obtain ⟨csum, hword⟩ := hword
  unfold nextHopMtu
  rw [← List.append_assoc, ← be16At_drop, List.drop_left' hhead, hword]
  have hlow : be16At (type :: code :: (be16 csum ++ (be32 (UInt32.ofNat mtu) ++ quote)) ++ rest) 6 =
      UInt16.ofNat (UInt32.ofNat mtu).toNat := be16At_be16 _ (quote ++ rest)
  rw [hlow, UInt16.toNat_ofNat', UInt32.toNat_ofNat']
  omega

theorem relayTunnelError_redirect {l2Len : ℕ} {type code : UInt8} {extra : UInt32} {quote : Bytes}
    (h : (relayTunnelError env x l2Len type code extra quote).1 = .redirect target) :
    ∃ relType relCode relExtra fib z, relayedError type code extra = some (relType, relCode, relExtra) ∧
      (relayTunnelError env x l2Len type code extra quote).2.ctx.data =
        (writeLanIcmpv4Error z fib quote relType relCode relExtra).ctx.data := by
  revert h
  unfold relayTunnelError
  dsimp only
  split
  · intro h
    cases h
  next relType relCode relExtra hrel =>
  split
  · intro h
    cases h
  split
  · intro h
    cases h
  split
  · intro h
    cases h
  split
  · intro h
    cases h
  split
  · intro h
    cases h
  split
  · intro h
    cases h
  intro h
  exact ⟨relType, relCode, relExtra, _, _, hrel, rfl⟩

/-- A Packet Too Big message that is not dropped is relayed once its MTU is learned. -/
theorem handleTunnelIcmpv6_tooBig {l2Len : ℕ}
    (h : tunnelTooBig env x.maps x.ctx l2Len = some (slot, reported))
    (hrun : handleTunnelIcmpv6 env x l2Len = some (.redirect target, y)) :
    ∃ code extra quote, extra.toNat = reported ∧
      relayTunnelError env (learnTunnelPmtu env x slot reported) l2Len 2 code extra quote =
        (.redirect target, y) := by
  unfold tunnelTooBig at h
  unfold handleTunnelIcmpv6 at hrun
  dsimp only at h hrun
  split_ifs at h with hshort
  rw [not_or, not_not] at hshort
  rw [if_neg (by omega), if_neg (by simp [hshort.2]), if_neg hshort.1] at hrun
  split at h
  · next slot' innerOff hslot hinner =>
    split_ifs at h with hbad
    cases h
    simp only [not_or] at hbad
    simp only [hslot, hinner] at hrun
    rw [if_neg (by tauto), if_neg (by tauto), if_pos hshort.2, hshort.2] at hrun
    split_ifs at hrun
    · cases hrun
    · exact ⟨_, _, _, rfl, Option.some.inj hrun⟩
  · cases h

/-- What a relayed message tells the client. -/
theorem Relayed.told (h : Relayed env x slot reported y) :
    nextHopMtu y.ctx.data = clampNextMtu (reported - ipv6hdrLen) := by
  obtain ⟨target, hrun⟩ := h.run
  obtain ⟨code, extra, quote, rfl, hrelay⟩ := handleTunnelIcmpv6_tooBig h.tooBig hrun
  obtain ⟨relType, relCode, relExtra, fib, z, hrel, hdata⟩ :=
    relayTunnelError_redirect (congrArg Prod.fst hrelay)
  rw [hrelay] at hdata
  rw [relayedError, if_pos rfl] at hrel
  cases hrel
  obtain ⟨rest, hframe⟩ := writeLanIcmpv4Error_frame z fib quote 3 4
    (UInt32.ofNat (clampNextMtu (extra.toNat - ipv6hdrLen)))
  rw [hdata, hframe]
  exact nextHopMtu_report _ _ _ _ (min_le_right _ _) _ _

theorem Relayed.tunnelPmtus (h : Relayed env x slot reported y) :
    y.maps.tunnelPmtus = learnedPmtus x.maps.tunnelPmtus env.now slot reported := by
  obtain ⟨target, hrun⟩ := h.run
  have hkept := congrArg Kept.pmtus (handleTunnelIcmpv6_kept hrun)
  rw [h.tooBig] at hkept
  exact hkept

end Frame

section Reading
variable {env : Env} {m m' : Maps} {slot reported : ℕ}

/-- A reading that lasts and is not above the report stays. -/
theorem tunnelPmtuFor_kept (hslot : slot < numNextHops)
    (h : m'.tunnelPmtus = learnedPmtus m.tunnelPmtus env.now slot reported)
    (hlasts : Unexpired env.now (m.tunnelPmtus slot))
    (hle : (m.tunnelPmtus slot).mtu ≤ max reported ipv6MinMtu) :
    tunnelPmtuFor env m' slot = (m.tunnelPmtus slot).mtu := by
  rw [learnedPmtus, if_pos ⟨hlasts.1, hle, hlasts.2⟩] at h
  rw [tunnelPmtuFor, if_pos hslot, h]
  dsimp only
  rw [if_neg hlasts.1, if_neg (not_lt.mpr hlasts.2.le)]

/-- Any other gives way. -/
theorem tunnelPmtuFor_learned (hslot : slot < numNextHops) (hclock : 0 < env.now)
    (h : m'.tunnelPmtus = learnedPmtus m.tunnelPmtus env.now slot reported)
    (hgives : Unexpired env.now (m.tunnelPmtus slot) →
      max reported ipv6MinMtu < (m.tunnelPmtus slot).mtu) :
    tunnelPmtuFor env m' slot = max reported ipv6MinMtu := by
  have hnew : ¬ ((m.tunnelPmtus slot).updatedNs ≠ 0 ∧
      max reported ipv6MinMtu ≥ (m.tunnelPmtus slot).mtu ∧
      elapsedNs env.now (m.tunnelPmtus slot).updatedNs < tunnelPmtuExpiryNs) := by
    rintro ⟨hset, hge, hyoung⟩
    exact absurd (hgives ⟨hset, hyoung⟩) (not_lt.mpr hge)
  rw [learnedPmtus, if_neg hnew] at h
  have hnow : elapsedNs env.now env.now = 0 := by
    unfold elapsedNs
    omega
  rw [tunnelPmtuFor, if_pos hslot, h]
  dsimp only
  rw [Function.update_self, if_neg hclock.ne', hnow, if_neg (by simp)]

end Reading

section Arithmetic
variable {now reported : ℕ} {before : TunnelPmtu}

theorem truthful_kept_iff (hlasts : Unexpired now before)
    (hle : before.mtu ≤ max reported ipv6MinMtu) :
    Truthful now before before.mtu (clampNextMtu (reported - ipv6hdrLen)) ↔
      Plain now before reported := by
  have hmin : ipv6MinMtu = 1280 := rfl
  have hhdr : ipv6hdrLen = 40 := rfl
  unfold Plain clampNextMtu
  constructor
  · rintro ⟨-, hfloor, hbounded⟩
    have hfits := hbounded hlasts
    exact ⟨by omega, fun _ => by omega⟩
  · rintro ⟨hallowed, hfits⟩
    have habove := hfits hlasts
    exact ⟨by omega, by omega, fun _ => by omega⟩

theorem truthful_learned_iff (hgives : Unexpired now before → max reported ipv6MinMtu < before.mtu) :
    Truthful now before (max reported ipv6MinMtu) (clampNextMtu (reported - ipv6hdrLen)) ↔
      Plain now before reported := by
  have hmin : ipv6MinMtu = 1280 := rfl
  have hhdr : ipv6hdrLen = 40 := rfl
  unfold Plain clampNextMtu
  constructor
  · rintro ⟨-, hfloor, -⟩
    refine ⟨by omega, fun hlasts => ?_⟩
    have habove := hgives hlasts
    omega
  · rintro ⟨hallowed, -⟩
    refine ⟨by omega, by omega, fun hlasts => ?_⟩
    have habove := hgives hlasts
    omega

end Arithmetic

/-- A relayed Packet Too Big tells the truth exactly when its report is plain. -/
theorem relayed_mtu_truthful_iff {env : Env} {x y : Xdp} {slot reported : ℕ} (hclock : 0 < env.now)
    (h : Relayed env x slot reported y) :
    Truthful env.now (x.maps.tunnelPmtus slot) (tunnelPmtuFor env y.maps slot)
        (nextHopMtu y.ctx.data) ↔
      Plain env.now (x.maps.tunnelPmtus slot) reported := by
  have hslot := (tunnelTooBig_holds h.tooBig).1
  rw [h.told]
  by_cases hlasts : Unexpired env.now (x.maps.tunnelPmtus slot)
  · by_cases hle : (x.maps.tunnelPmtus slot).mtu ≤ max reported ipv6MinMtu
    · rw [tunnelPmtuFor_kept hslot h.tunnelPmtus hlasts hle]
      exact truthful_kept_iff hlasts hle
    · have hlt := not_le.mp hle
      rw [tunnelPmtuFor_learned hslot hclock h.tunnelPmtus fun _ => hlt]
      exact truthful_learned_iff fun _ => hlt
  · rw [tunnelPmtuFor_learned hslot hclock h.tunnelPmtus fun hlasts' => absurd hlasts' hlasts]
    exact truthful_learned_iff fun hlasts' => absurd hlasts' hlasts

/-- A Packet Too Big message of MTU `mtu` about the softwire, which quotes a packet that may not be
fragmented. -/
def unfragmentable (mtu : UInt32) : XdpMd where
  data := (Ethhdr.mk default default ethPIpv6).toBytes ++
    ((outerIpv6 (sampleAddr 2) (sampleAddr 1) ipprotoIcmpv6 76).toBytes ++
      ([2, 0, 0, 0] ++ be32 mtu ++
        ((outerIpv6 (sampleAddr 1) (sampleAddr 2) ipprotoIpip 28).toBytes ++
          ((Iphdr.mk 0x45 0 28 1 ipDf 64 17 0 0xc0a8010a 0xcb007105).toBytes ++
            List.replicate 8 0))))
  headroom := List.replicate 64 0
  ingressIfindex := 2

/-- The softwire, its slot with the reading `before`, when that message arrives. -/
def reportedTo (before : TunnelPmtu) (mtu : UInt32) : Xdp :=
  ⟨{ linkedMaps with tunnelPmtus := fun _ => before }, unfragmentable mtu⟩

def relayOf (before : TunnelPmtu) (mtu : UInt32) : Xdp :=
  ((handleTunnelIcmpv6 (linkedEnv 3) (reportedTo before mtu) ethLen).getD
    (.pass, reportedTo before mtu)).2

theorem relayed_of_action {before : TunnelPmtu} {mtu : UInt32}
    (htooBig : tunnelTooBig (linkedEnv 3) (reportedTo before mtu).maps (unfragmentable mtu) ethLen =
      some (0, mtu.toNat))
    (haction : (handleTunnelIcmpv6 (linkedEnv 3) (reportedTo before mtu) ethLen).map Prod.fst =
      some (.redirect (.txPort 3))) :
    Relayed (linkedEnv 3) (reportedTo before mtu) 0 mtu.toNat (relayOf before mtu) := by
  refine ⟨htooBig, .txPort 3, ?_⟩
  obtain ⟨r, hr, hredirect⟩ := Option.map_eq_some_iff.mp haction
  rw [relayOf, hr, ← hredirect]
  rfl

/-- A first report is relayed as it is learned. -/
theorem relayed_mtu_truthful_iff_first :
    Relayed (linkedEnv 3) (reportedTo {} 1400) 0 1400 (relayOf {} 1400) ∧
      Truthful (linkedEnv 3).now {} (tunnelPmtuFor (linkedEnv 3) (relayOf {} 1400).maps 0)
        (nextHopMtu (relayOf {} 1400).ctx.data) := by
  have hrelayed : Relayed (linkedEnv 3) (reportedTo {} 1400) 0 1400 (relayOf {} 1400) :=
    relayed_of_action (by decide +kernel) (by decide +kernel)
  exact ⟨hrelayed, (relayed_mtu_truthful_iff (by decide) hrelayed).mpr
    ⟨by decide, fun h => absurd rfl h.1⟩⟩

/-- A report below the IPv6 minimum is relayed unfloored, and one above a reading that lasts is
relayed although encap goes on with the reading. -/
theorem relayed_mtu_untruthful :
    (Relayed (linkedEnv 3) (reportedTo {} 1000) 0 1000 (relayOf {} 1000) ∧
      nextHopMtu (relayOf {} 1000).ctx.data = 960 ∧
      tunnelPmtuFor (linkedEnv 3) (relayOf {} 1000).maps 0 = 1280) ∧
    (Relayed (linkedEnv 3) (reportedTo ⟨1300, 5⟩ 1400) 0 1400 (relayOf ⟨1300, 5⟩ 1400) ∧
      Unexpired (linkedEnv 3).now ⟨1300, 5⟩ ∧
      nextHopMtu (relayOf ⟨1300, 5⟩ 1400).ctx.data = 1360 ∧
      tunnelPmtuFor (linkedEnv 3) (relayOf ⟨1300, 5⟩ 1400).maps 0 = 1300) := by
  refine ⟨⟨relayed_of_action ?_ ?_, ?_, ?_⟩, relayed_of_action ?_ ?_, ⟨?_, ?_⟩, ?_, ?_⟩
  all_goals decide +kernel

end Minuteman.PathMtu
