import Minuteman.Datapath.Transparency

/-!
# Packets that would bounce back

A packet out of the softwire whose route leaves the managed LANs again must
not be forwarded: the kernel would send it back toward the AFTR. Every such
answer of the routing table leads to a drop except one, a resolved route over
the WAN itself, which is left to the kernel.
-/
namespace Minuteman.Datapath
open Library ByteString

/-- The answer of the routing table that decides about the inner packet: the second one if the
route is too small for the packet. -/
def lanAnswer (env : Env) (ingressIfindex : ℕ) (pkt : Bytes) : FibResult :=
  let iph := Iphdr.read pkt
  let first := bpfFibLookup env (innerFibParams iph iph.totLen.toNat ingressIfindex)
  if first.ret = .fragNeeded then
    bpfFibLookup env { innerFibParams iph iphdrLen ingressIfindex with skipNeigh := true }
  else first

/-- The route is one to forward on, over an interface that is not a managed LAN. -/
def LeavesLans (m : Maps) (fib : FibResult) : Prop :=
  (fib.ret = .success ∨ fib.ret = .noNeigh) ∧
    (fib.ifindex = m.b4Config.wanIfindex ∨ m.lanConfigs fib.ifindex = none)

section Lookup
variable {env : Env} {x : Xdp} {m : Maps} {ctx : XdpMd} {cfg : B4Config} {pkt : Bytes}

theorem lookupLanNexthop_eq (env : Env) (x : Xdp) (cfg : B4Config) (pkt : Bytes) :
    ∃ large : LanLookup × Xdp,
      lookupLanNexthop env x cfg (Iphdr.read pkt) (Iphdr.read pkt).totLen.toNat =
        let fib := lanAnswer env x.ctx.ingressIfindex pkt
        if fib.ret = .success then
          if fib.ifindex = cfg.wanIfindex then (.fail, x.count .fibWrongIf)
          else if (x.maps.getLanConfig fib.ifindex).isNone then (.drop, x.count .decapMartian)
          else large
        else if fib.ret = .noNeigh then
          if fib.ifindex ≠ cfg.wanIfindex ∧ (x.maps.getLanConfig fib.ifindex).isSome then
            (.fail, x.count .fibNoNeigh)
          else (.drop, x.count .decapMartian)
        else (.fail, x.count .fibFail) := ⟨_, rfl⟩

/-- An answer that leaves the LANs fails the lookup or drops the packet, and fails it only for a
resolved route over the WAN. -/
theorem lookupLanNexthop_leaves (hwan : cfg.wanIfindex = x.maps.b4Config.wanIfindex)
    (h : LeavesLans x.maps (lanAnswer env x.ctx.ingressIfindex pkt)) :
    (lookupLanNexthop env x cfg (Iphdr.read pkt) (Iphdr.read pkt).totLen.toNat).1 =
      if (lanAnswer env x.ctx.ingressIfindex pkt).ret = .success ∧
        (lanAnswer env x.ctx.ingressIfindex pkt).ifindex = x.maps.b4Config.wanIfindex then .fail
      else .drop := by
  obtain ⟨large, heq⟩ := lookupLanNexthop_eq env x cfg pkt
  obtain ⟨hret, hegress⟩ := h
  rw [heq, hwan]
  dsimp only [Maps.getLanConfig]
  generalize lanAnswer env x.ctx.ingressIfindex pkt = fib at hret hegress
  rcases hret with hsuccess | hneigh
  · by_cases hegressWan : fib.ifindex = x.maps.b4Config.wanIfindex
    · simp [hsuccess, hegressWan]
    · have hnone := hegress.resolve_left hegressWan
      simp [hsuccess, hegressWan, hnone]
  · rw [hneigh]
    rcases hegress with hegressWan | hnone
    · simp [hegressWan]
    · simp [hnone]

/-- A decapsulated packet whose route leaves the managed LANs is dropped exactly if that route is
not a resolved one over the WAN. -/
theorem handleXdpDsliteDecap_drop_iff (hpkt : decapPacket m ctx = some pkt)
    (h : LeavesLans m (lanAnswer env ctx.ingressIfindex pkt)) :
    (handleXdpDsliteDecap env ⟨m, ctx⟩).1 = .drop ↔
      ¬ ((lanAnswer env ctx.ingressIfindex pkt).ret = .success ∧
        (lanAnswer env ctx.ingressIfindex pkt).ifindex = m.b4Config.wanIfindex) := by
  obtain ⟨rfl, cfg, y, hout, -, hrun⟩ := handleXdpDsliteDecap_of_some env hpkt
  have hsame : lanAnswer env y.ctx.ingressIfindex (y.ctx.data.drop outerHdrLen) =
      lanAnswer env ctx.ingressIfindex (ctx.data.drop outerHdrLen) := by
    rw [lanAnswer, hout.packet.iphdr, hout.ingress]
    rfl
  have hwan : y.maps.b4Config.wanIfindex = m.b4Config.wanIfindex := by rw [hout.loader]
  have hlookup := @lookupLanNexthop_leaves env y cfg (y.ctx.data.drop outerHdrLen)
    (hout.wan.trans hwan.symm) (by
      unfold LeavesLans
      rw [hsame, hout.loader]
      exact h)
  rw [hsame, hwan] at hlookup
  rw [hrun]
  unfold deliverInner
  dsimp only
  rw [hlookup]
  by_cases hresolved : (lanAnswer env ctx.ingressIfindex (ctx.data.drop outerHdrLen)).ret = .success ∧
      (lanAnswer env ctx.ingressIfindex (ctx.data.drop outerHdrLen)).ifindex = m.b4Config.wanIfindex
  · rw [if_pos hresolved]
    dsimp only
    rcases stripOuter_none_action (lookupLanNexthop env y cfg
      (Iphdr.read (y.ctx.data.drop outerHdrLen))
      (Iphdr.read (y.ctx.data.drop outerHdrLen)).totLen.toNat).2
      (Iphdr.read (y.ctx.data.drop outerHdrLen)).totLen.toNat with hpass | habort
    · simp [hpass, hresolved]
    · simp [habort, hresolved]
  · rw [if_neg hresolved]
    simp [hresolved]

end Lookup

def unresolvedEnv (egress : ℕ) : Env where
  fib _ := { ret := .noNeigh, egress := egress }
  mtu _ := some 1500
  now := 1000000000

def narrowEnv (egress : ℕ) : Env where
  fib p := if p.skipNeigh then { ret := .success, egress := egress }
    else { ret := .fragNeeded, egress := egress }
  mtu _ := some 1500
  now := 1000000000

theorem handleXdpDsliteDecap_drop_unresolved :
    (handleXdpDsliteDecap (unresolvedEnv 2) ⟨linkedMaps, downlinkFrame 64⟩).1 = .drop := by
  have hpkt : decapPacket linkedMaps (downlinkFrame 64) =
      some (sampleIpv4 64 0xcb007105 0xc0a8010a) := by decide +kernel
  apply (handleXdpDsliteDecap_drop_iff hpkt ⟨Or.inr (by decide +kernel), Or.inl (by decide +kernel)⟩).mpr
  decide +kernel

/-- A resolved route over the WAN hands the decapsulated packet to the kernel, after one lookup or
after two. -/
theorem handleXdpDsliteDecap_passes_wan_route :
    (lanAnswer (linkedEnv 2) 2 (sampleIpv4 64 0xcb007105 0xc0a8010a)).ifindex =
        linkedMaps.b4Config.wanIfindex ∧
      (handleXdpDsliteDecap (linkedEnv 2) ⟨linkedMaps, downlinkFrame 64⟩).1 = .pass ∧
      (handleXdpDsliteDecap (linkedEnv 2) ⟨linkedMaps, downlinkFrame 64⟩).2.ctx.data.drop ethLen =
        sampleIpv4 64 0xcb007105 0xc0a8010a ∧
      (lanAnswer (narrowEnv 2) 2 (sampleIpv4 64 0xcb007105 0xc0a8010a)).ifindex =
        linkedMaps.b4Config.wanIfindex ∧
      (handleXdpDsliteDecap (narrowEnv 2) ⟨linkedMaps, downlinkFrame 64⟩).1 = .pass := by
  decide +kernel

end Minuteman.Datapath
