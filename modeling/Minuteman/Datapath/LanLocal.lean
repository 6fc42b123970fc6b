import Minuteman.Datapath.Encap
import Minuteman.Loader.Runs

/-!
# LAN-local traffic

Which packets the LAN program keeps out of the softwire, against which
destinations the routing table calls local to the site.
-/
namespace Minuteman.Datapath
open Library ByteString Loader Prog

/-- The routing decision for the IPv4 packet at `l2Len`. -/
def lanRoute (env : Env) (ctx : XdpMd) (l2Len : ℕ) : FibRoute :=
  let iph := Iphdr.read (ctx.data.drop l2Len)
  env.fib (innerFibParams iph iph.totLen.toNat ctx.ingressIfindex)

/-- The destination is not off-site transit: it is not unicast, it is one of the CPE's own
addresses or a subnet broadcast, or its route leaves through a managed LAN. -/
inductive LanLocal (env : Env) (lans : ℕ → Option LanConfig) (ctx : XdpMd) (l2Len : ℕ) : Prop
  | nonUnicast (h : isNonUnicastDst (Iphdr.read (ctx.data.drop l2Len)) = true)
  | own (h : (lanRoute env ctx l2Len).ret = .notFwded)
  | lanEgress (hlan : (lans (lanRoute env ctx l2Len).egress).isSome)
      (hret : (lanRoute env ctx l2Len).ret = .success ∨ (lanRoute env ctx l2Len).ret = .noNeigh ∨
        (lanRoute env ctx l2Len).ret = .fragNeeded)

/-- In every configured datapath with these LANs the frame is passed on as it came and no flow
is recorded for it. -/
def StaysLocal (env : Env) (lans : ℕ → Option LanConfig) (ctx : XdpMd) : Prop :=
  ∀ m : Maps, SlotInvariant m → m.lanConfigs = lans →
    (doXdpDsliteEncap env ⟨m, ctx⟩).1 = .pass ∧ (doXdpDsliteEncap env ⟨m, ctx⟩).2.ctx = ctx ∧
      (doXdpDsliteEncap env ⟨m, ctx⟩).2.maps.flowAffinity = m.flowAffinity

theorem isLocalLanRoute_iff {env : Env} {m : LoaderMaps} {ctx : XdpMd} {l2Len : ℕ} :
    isLocalLanRoute env m ctx (Iphdr.read (ctx.data.drop l2Len)) = true ↔
      (lanRoute env ctx l2Len).ret = .success ∧
        (m.lanConfigs (lanRoute env ctx l2Len).egress).isSome := by
  unfold isLocalLanRoute bpfFibLookup lanRoute
  dsimp only
  cases (env.fib _).ret <;> simp

theorem bypasses_iff {env : Env} {m : LoaderMaps} {ctx : XdpMd} {lan : LanConfig} {l2Len : ℕ} :
    bypasses env m ctx lan (Iphdr.read (ctx.data.drop l2Len)) = true ↔
      isNonUnicastDst (Iphdr.read (ctx.data.drop l2Len)) = true ∨
        (lan.gatewayIp ≠ 0 ∧ (Iphdr.read (ctx.data.drop l2Len)).daddr = lan.gatewayIp) ∨
        ((lanRoute env ctx l2Len).ret = .success ∧
          (m.lanConfigs (lanRoute env ctx l2Len).egress).isSome) := by
  rw [bypasses, Bool.or_eq_true, Bool.or_eq_true, isLocalLanRoute_iff, or_assoc, isLocalGatewayDst,
    Bool.and_eq_true, bne_iff_ne, beq_iff_eq]

section Encap
variable {env : Env} {m : Maps} {ctx : XdpMd} {l2Len : ℕ} {lan : LanConfig}

theorem doXdpDsliteEncap_of_bypasses (hparse : parseL2Ipv4 ctx.data = .ip l2Len)
    (hlan : m.lanConfigs ctx.ingressIfindex = some lan)
    (h : bypasses env m.toLoaderMaps ctx lan (Iphdr.read (ctx.data.drop l2Len)) = true) :
    doXdpDsliteEncap env ⟨m, ctx⟩ = (.pass, ⟨m.increaseStatsCount .bypass, ctx⟩) := by
  have hget : m.getLanConfig ctx.ingressIfindex = some lan := hlan
  simp only [doXdpDsliteEncap, hparse, encapIpv4, hget]
  rw [if_pos h]
  rfl

/-- A packet no test keeps out has its slot picked, and that is all the flow table sees. -/
theorem doXdpDsliteEncap_flows (hparse : parseL2Ipv4 ctx.data = .ip l2Len)
    (hlan : m.lanConfigs ctx.ingressIfindex = some lan)
    (h : ¬ bypasses env m.toLoaderMaps ctx lan (Iphdr.read (ctx.data.drop l2Len)) = true) :
    (doXdpDsliteEncap env ⟨m, ctx⟩).2.maps.flowView =
      (pickSoftwireSlot m env.now m.migrationCtrl (ctx.data.drop l2Len)).2.flowView := by
  rw [doXdpDsliteEncap_encapInto hparse hlan h]
  exact Maps.flowView_of_kept (encapInto_kept ..)

end Encap

def primingRun : CallRun :=
  [(.setB4Config docConfig, noFaults), (.beginMigration (docAddr 1) (docAddr 3), noFaults)]

def primedMaps (lans : ℕ → Option LanConfig) : Maps :=
  { runState primingRun Maps.zeroed with lanConfigs := lans }

theorem primedMaps_slotInvariant (lans : ℕ → Option LanConfig) :
    SlotInvariant (primedMaps lans) := by
  have hrun : ConfiguredFirst primingRun Maps.zeroed :=
    ⟨Or.inl rfl, Or.inr ⟨0, by decide⟩, trivial⟩
  rcases runState_configured (Or.inl zeroed_unconfigured) hrun with hu | hinv
  · exact absurd hu.ctrl (by decide)
  · exact hinv

theorem primedMaps_priming (lans : ℕ → Option LanConfig) :
    migState (primedMaps lans).migrationCtrl = migPriming := by
  change migState (runState primingRun Maps.zeroed).migrationCtrl = migPriming
  decide

theorem primedMaps_flows (lans : ℕ → Option LanConfig) :
    (primedMaps lans).flowAffinity = BoundedMap.empty := rfl

/-- Priming records a packet that no test keeps out, so only the three tests keep it local. -/
theorem staysLocal_iff {env : Env} {lans : ℕ → Option LanConfig} {ctx : XdpMd} {l2Len : ℕ}
    {lan : LanConfig} (hparse : parseL2Ipv4 ctx.data = .ip l2Len)
    (hlan : lans ctx.ingressIfindex = some lan) :
    StaysLocal env lans ctx ↔
      isNonUnicastDst (Iphdr.read (ctx.data.drop l2Len)) = true ∨
        (lan.gatewayIp ≠ 0 ∧ (Iphdr.read (ctx.data.drop l2Len)).daddr = lan.gatewayIp) ∨
        ((lanRoute env ctx l2Len).ret = .success ∧
          (lans (lanRoute env ctx l2Len).egress).isSome) := by
  constructor
  · intro hstays
    by_contra hnot
    have hpass : ¬ bypasses env (primedMaps lans).toLoaderMaps ctx lan
        (Iphdr.read (ctx.data.drop l2Len)) = true := fun hb => hnot (bypasses_iff.mp hb)
    obtain ⟨-, -, hflows⟩ := hstays (primedMaps lans) (primedMaps_slotInvariant lans) rfl
    have hpriming := primedMaps_priming lans
    obtain ⟨fa, htouched, -⟩ :=
      @pickSoftwireSlot_touched (primedMaps lans) env.now (primedMaps lans).migrationCtrl
        (ctx.data.drop l2Len) (by rw [hpriming]; exact migSteady_ne_migPriming.symm)
    rw [← doXdpDsliteEncap_flows hparse hlan hpass] at htouched
    rcases htouched.priming hpriming with ⟨hget, -⟩ | ⟨-, -, hfull⟩
    · rw [Maps.flowView, hflows, primedMaps_flows] at hget
      cases hget
    · change (BoundedMap.empty : FlowTable).dom.card = maxFlowAffinity at hfull
      exact absurd hfull (by decide)
  · intro hcond m _ hlans
    have hb : bypasses env m.toLoaderMaps ctx lan (Iphdr.read (ctx.data.drop l2Len)) = true := by
      rw [bypasses_iff, hlans]
      exact hcond
    rw [doXdpDsliteEncap_of_bypasses hparse (by rw [hlans]; exact hlan) hb]
    exact ⟨rfl, rfl, rfl⟩

/-- LAN-local traffic stays out of the softwire exactly when it is not unicast, addressed to the
gateway of the LAN it came from, or routed to a managed LAN by a lookup that succeeded. -/
theorem lanLocal_staysLocal_iff {env : Env} {lans : ℕ → Option LanConfig} {ctx : XdpMd}
    {l2Len : ℕ} {lan : LanConfig} (hparse : parseL2Ipv4 ctx.data = .ip l2Len)
    (hlan : lans ctx.ingressIfindex = some lan) :
    (LanLocal env lans ctx l2Len → StaysLocal env lans ctx) ↔
      (LanLocal env lans ctx l2Len →
        isNonUnicastDst (Iphdr.read (ctx.data.drop l2Len)) = true ∨
          (lan.gatewayIp ≠ 0 ∧ (Iphdr.read (ctx.data.drop l2Len)).daddr = lan.gatewayIp) ∨
          ((lanRoute env ctx l2Len).ret = .success ∧
            (lans (lanRoute env ctx l2Len).egress).isSome)) :=
  imp_congr_right fun _ => staysLocal_iff hparse hlan

def twoLans : ℕ → Option LanConfig
  | 3 => some { gatewayIp := 0xc0a80101 }
  | 4 => some { gatewayIp := 0xc0a80201 }
  | _ => none

def otherGatewayFrame : XdpMd where
  data := [2, 0, 0, 0, 0, 1, 2, 0, 0, 0, 0, 2, 0x08, 0x00,
    0x45, 0, 0, 28, 0, 1, 0, 0, 64, 17, 0, 0, 192, 168, 1, 10, 192, 168, 2, 1,
    0x13, 0x88, 0, 53, 0, 8, 0, 0]
  headroom := List.replicate 64 0
  ingressIfindex := 3

def answering (ret : FibRet) : Env where
  fib := fun p => match p.addrs with
    | .inet _ _ => { ret, egress := 4 }
    | .inet6 _ _ => { ret := .success, egress := 2 }
  mtu := fun _ => some 1500
  now := 1

theorem lanLocal_staysLocal_iff_success :
    LanLocal (answering .success) twoLans otherGatewayFrame 14 ∧
      StaysLocal (answering .success) twoLans otherGatewayFrame := by
  have hlocal : LanLocal (answering .success) twoLans otherGatewayFrame 14 :=
    .lanEgress rfl (Or.inl rfl)
  have hlan : twoLans otherGatewayFrame.ingressIfindex = some ⟨0xc0a80101, 0⟩ := rfl
  exact ⟨hlocal, (lanLocal_staysLocal_iff (by decide) hlan).mpr
    (fun _ => Or.inr (Or.inr ⟨rfl, rfl⟩)) hlocal⟩

/-- The CPE's own address on the other LAN: the lookup does not succeed, and the packet is sent
to the AFTR. -/
theorem other_gateway_encapsulated :
    LanLocal (answering .notFwded) twoLans otherGatewayFrame 14 ∧
      SlotInvariant (primedMaps twoLans) ∧
      (doXdpDsliteEncap (answering .notFwded) ⟨primedMaps twoLans, otherGatewayFrame⟩).1 =
        .redirect (.txPort 2) ∧
      ¬ StaysLocal (answering .notFwded) twoLans otherGatewayFrame := by
  have hsent : (doXdpDsliteEncap (answering .notFwded)
      ⟨primedMaps twoLans, otherGatewayFrame⟩).1 = .redirect (.txPort 2) := by decide
  refine ⟨.own rfl, primedMaps_slotInvariant twoLans, hsent, ?_⟩
  intro hstays
  obtain ⟨hpass, -, -⟩ := hstays (primedMaps twoLans) (primedMaps_slotInvariant twoLans) rfl
  cases hsent.symm.trans hpass

end Minuteman.Datapath
