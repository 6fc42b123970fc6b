import Minuteman.Datapath.Decap

/-!
# Packets through the programs

One packet through one of the XDP programs, the flow it belongs to as that
program sees it, and the only thing it can do to flow affinity: touch that
flow.
-/
namespace Minuteman.Datapath
open Library ByteString

/-- The XDP programs; `softwireFrag i` is `xdp_softwire_frag<i>`. -/
inductive Program
  | dsliteEncap
  | dsliteDecap
  | dsliteDecapCpu
  | ipv6FwdCpu
  | softwireFrag (i : ℕ)
  deriving DecidableEq

def Program.run : Program → Env → Xdp → XdpAction × Xdp
  | .dsliteEncap, env, x => doXdpDsliteEncap env x
  | .dsliteDecap, env, x => doXdpDsliteDecap env x
  | .dsliteDecapCpu, env, x => handleXdpDsliteDecap env x
  | .ipv6FwdCpu, env, x => doXdpIpv6FwdCpu env x
  | .softwireFrag i, _, x => emitSoftwireFragment x i

structure Packet where
  program : Program
  env : Env
  ctx : XdpMd

/-- The packet that `do_xdp_dslite_encap` picks a slot for. -/
def encapPacket (env : Env) (m : Maps) (ctx : XdpMd) : Option Bytes :=
  match parseL2Ipv4 ctx.data with
  | .malformed => none
  | .other => none
  | .ip l2Len =>
    match m.getLanConfig ctx.ingressIfindex with
    | none => none
    | some lan =>
      if bypasses env m.toLoaderMaps ctx lan (Iphdr.read (ctx.data.drop l2Len)) then none
      else some (ctx.data.drop l2Len)

/-- The inner packet that `handle_xdp_dslite_decap` accepts. -/
def decapPacket (m : Maps) (ctx : XdpMd) : Option Bytes :=
  match parseL2Ipv6 ctx.data with
  | .malformed => none
  | .other => none
  | .ip l2Len =>
    let outer := Ipv6hdr.read (ctx.data.drop l2Len)
    if outer.nexthdr = ipprotoIpip ∧ (findDslitePeerNh m outer).isSome ∧
        validateDsliteIpv6 ctx.data (l2Len + ipv6hdrLen) = none then
      some (ctx.data.drop (l2Len + ipv6hdrLen))
    else none

/-- The Packet Too Big message that `do_xdp_dslite_decap` learns a path MTU from. -/
def decapTooBig (env : Env) (m : Maps) (ctx : XdpMd) : Option (ℕ × ℕ) :=
  match parseL2Ipv6 ctx.data with
  | .malformed => none
  | .other => none
  | .ip l2Len =>
    if (Ipv6hdr.read (ctx.data.drop l2Len)).nexthdr = ipprotoIcmpv6 then tunnelTooBig env m ctx l2Len
    else none

namespace Packet

def run (p : Packet) (m : Maps) : XdpAction × Xdp := p.program.run p.env ⟨m, p.ctx⟩

def after (p : Packet) (m : Maps) : Maps := (p.run m).2.maps

/-- The flow a packet is seen as: forwards by encap, reversed by decap. A packet that is handed
to another CPU is seen there. -/
def flowKey (p : Packet) (m : Maps) : Option FlowKey :=
  match p.program with
  | .dsliteEncap => (encapPacket p.env m p.ctx).map fun pkt => buildFlowKey pkt false
  | .dsliteDecap =>
    (decapPacket m p.ctx).bind fun pkt =>
      if maybeRedirectToCpu m pkt = none then some (buildFlowKey pkt true) else none
  | .dsliteDecapCpu => (decapPacket m p.ctx).map fun pkt => buildFlowKey pkt true
  | .ipv6FwdCpu => none
  | .softwireFrag _ => none

/-- The Packet Too Big message by which a packet teaches a path MTU: its slot and MTU. -/
def tooBig (p : Packet) (m : Maps) : Option (ℕ × ℕ) :=
  match p.program with
  | .dsliteDecap => decapTooBig p.env m p.ctx
  | _ => none

def slot (p : Packet) (m : Maps) : Option ℕ :=
  match p.program with
  | .dsliteEncap => (encapPacket p.env m p.ctx).map fun pkt =>
      (pickSoftwireSlot m p.env.now m.migrationCtrl pkt).1
  | _ => none

end Packet

theorem doXdpDsliteEncap_kept (env : Env) (m : Maps) (ctx : XdpMd) :
    (doXdpDsliteEncap env ⟨m, ctx⟩).2.maps.kept =
      match encapPacket env m ctx with
      | none => m.kept
      | some pkt => (pickSoftwireSlot m env.now m.migrationCtrl pkt).2.kept := by
  unfold encapPacket
  cases hparse : parseL2Ipv4 ctx.data with
  | malformed => simp [doXdpDsliteEncap, hparse]
  | other =>
    simp only [doXdpDsliteEncap, hparse]
    repeat' split
    all_goals simp
  | ip l2Len =>
    dsimp only
    cases hlan : m.getLanConfig ctx.ingressIfindex with
    | none => simp [doXdpDsliteEncap, hparse, encapIpv4, hlan]
    | some lan =>
      dsimp only
      split_ifs with hb
      · simp [doXdpDsliteEncap, hparse, encapIpv4, hlan, hb]
      · rw [doXdpDsliteEncap_encapInto hparse hlan hb]
        exact encapInto_kept ..

theorem decapCounted_kept (env : Env) (m : Maps) (ctx : XdpMd) :
    (decapCounted env ⟨m, ctx⟩).2.maps.kept =
      match decapPacket m ctx with
      | none => m.kept
      | some pkt => (touchReversed env m pkt).kept := by
  unfold decapCounted decapPacket
  dsimp only
  cases parseL2Ipv6 ctx.data with
  | malformed => simp
  | other => simp
  | ip l2Len =>
    dsimp only
    by_cases hproto : (Ipv6hdr.read (ctx.data.drop l2Len)).nexthdr = ipprotoIpip
    · rw [if_neg (not_not.mpr hproto)]
      cases hnh : findDslitePeerNh m (Ipv6hdr.read (ctx.data.drop l2Len)) with
      | none => simp
      | some nh =>
        have hvalid : nh.valid = true := (findDslitePeerNh_some hnh).1
        simp only [resolveSoftwire, hvalid, if_true]
        cases hbad : validateDsliteIpv6 ctx.data (l2Len + ipv6hdrLen) with
        | some action => simp
        | none => simp [hproto]
    · simp [hproto]

/-- Feeding the flow table from the downlink touches the flow, except in a steady state. -/
theorem touchReversed_touched (env : Env) (m : Maps) (pkt : Bytes) :
    (migState m.migrationCtrl = migSteady ∧ (touchReversed env m pkt).flowView = m.flowView) ∨
      (migState m.migrationCtrl ≠ migSteady ∧ ∃ fa, Touched m.flowView env.now m.migrationCtrl
        (buildFlowKey pkt true) fa (touchReversed env m pkt).flowView) := by
  unfold touchReversed
  split_ifs with hstate
  · exact Or.inl ⟨hstate, rfl⟩
  · exact Or.inr ⟨hstate, _, touchFlowAffinity_touched m env.now m.migrationCtrl _⟩

/-- Either nothing happened to flow affinity, or the flow `key` was touched. -/
def FlowStep (m m' : Maps) (now : ℕ) (key : Option FlowKey) : Prop :=
  ((key = none ∨ migState m.migrationCtrl = migSteady) ∧ m'.flowView = m.flowView) ∨
    (migState m.migrationCtrl ≠ migSteady ∧
      ∃ k fa, key = some k ∧ Touched m.flowView now m.migrationCtrl k fa m'.flowView)

theorem encap_flowStep (env : Env) (m : Maps) (ctx : XdpMd) :
    FlowStep m (doXdpDsliteEncap env ⟨m, ctx⟩).2.maps env.now
      ((encapPacket env m ctx).map fun pkt => buildFlowKey pkt false) := by
  have hkept := doXdpDsliteEncap_kept env m ctx
  unfold FlowStep
  cases hpacket : encapPacket env m ctx with
  | none =>
    rw [hpacket] at hkept
    exact Or.inl ⟨Or.inl rfl, Maps.flowView_of_kept hkept⟩
  | some pkt =>
    rw [hpacket] at hkept
    rw [Maps.flowView_of_kept hkept]
    by_cases hstate : migState m.migrationCtrl = migSteady
    · exact Or.inl ⟨Or.inr hstate, by simp only [pickSoftwireSlot_steady hstate]⟩
    · obtain ⟨fa, htouched, -⟩ := pickSoftwireSlot_touched hstate
      exact Or.inr ⟨hstate, _, fa, rfl, htouched⟩

theorem decap_flowStep (env : Env) (m : Maps) (ctx : XdpMd) :
    FlowStep m (handleXdpDsliteDecap env ⟨m, ctx⟩).2.maps env.now
      ((decapPacket m ctx).map fun pkt => buildFlowKey pkt true) := by
  have hkept := decapCounted_kept env (m.increaseStatsCount .decap) ctx
  have hcount : (m.increaseStatsCount .decap).flowView = m.flowView :=
    Maps.flowView_increaseStatsCount (by decide) m
  rw [show decapPacket (m.increaseStatsCount .decap) ctx = decapPacket m ctx from rfl] at hkept
  unfold FlowStep
  cases hpacket : decapPacket m ctx with
  | none =>
    rw [hpacket] at hkept
    exact Or.inl ⟨Or.inl rfl, (Maps.flowView_of_kept hkept).trans hcount⟩
  | some pkt =>
    rw [hpacket] at hkept
    rw [show (handleXdpDsliteDecap env ⟨m, ctx⟩).2.maps.flowView = _ from
      Maps.flowView_of_kept hkept]
    rcases touchReversed_touched env (m.increaseStatsCount .decap) pkt with
      ⟨hstate, hsame⟩ | ⟨hstate, fa, htouched⟩
    · exact Or.inl ⟨Or.inr hstate, hsame.trans hcount⟩
    · rw [hcount] at htouched
      exact Or.inr ⟨hstate, _, fa, rfl, htouched⟩

/-- A frame that is not an accepted softwire packet is not decapsulated by the entry program. -/
theorem doXdpDsliteDecap_kept_of_none {env : Env} {m : Maps} {ctx : XdpMd}
    (h : decapPacket m ctx = none) :
    (doXdpDsliteDecap env ⟨m, ctx⟩).2.maps.kept = { m.kept with
      pmtus := pmtusAfter m.tunnelPmtus env.now (decapTooBig env m ctx) } := by
  have hcounted := decapCounted_kept env (m.increaseStatsCount .decap) ctx
  have hhandle : (handleXdpDsliteDecap env ⟨m, ctx⟩).2.maps.kept = m.kept := by
    rw [show decapPacket (m.increaseStatsCount .decap) ctx = none from h] at hcounted
    exact hcounted.trans (Maps.kept_increaseStatsCount (by decide) m)
  have hicmp : ipprotoFragment ≠ ipprotoIcmpv6 := by decide
  unfold doXdpDsliteDecap decapTooBig
  dsimp only
  cases parseL2Ipv6 ctx.data with
  | malformed => exact Maps.kept_increaseStatsCount (by decide) m
  | other => exact Maps.kept_increaseStatsCount (by decide) m
  | ip l2Len =>
    dsimp only
    by_cases hproto : (Ipv6hdr.read (ctx.data.drop l2Len)).nexthdr = ipprotoIcmpv6
    · rw [if_neg (fun hf => hicmp (hf.1.symm.trans hproto)), if_pos hproto, if_pos hproto]
      cases htunnel : handleTunnelIcmpv6 env ⟨m, ctx⟩ l2Len with
      | none =>
        rw [show tunnelTooBig env m ctx l2Len = none from tunnelTooBig_of_not_mine htunnel]
        exact forwardNative_kept env ⟨m, ctx⟩ l2Len
      | some r => exact handleTunnelIcmpv6_kept htunnel
    · rw [if_neg hproto, if_neg hproto]
      change _ = m.kept
      split
      · simp
      split
      · simp
      split
      · rfl
      split
      · simp
      split
      · rfl
      · exact hhandle

theorem decapPacket_eq_some {m : Maps} {ctx : XdpMd} {pkt : Bytes}
    (h : decapPacket m ctx = some pkt) :
    ∃ l2Len, parseL2Ipv6 ctx.data = .ip l2Len ∧
      (Ipv6hdr.read (ctx.data.drop l2Len)).nexthdr = ipprotoIpip ∧
      (findDslitePeerNh m (Ipv6hdr.read (ctx.data.drop l2Len))).isSome = true ∧
      validateDsliteIpv6 ctx.data (l2Len + ipv6hdrLen) = none ∧
      pkt = ctx.data.drop (l2Len + ipv6hdrLen) := by
  unfold decapPacket at h
  split at h
  · cases h
  · cases h
  · next l2Len hparse =>
    dsimp only at h
    split_ifs at h with hkey
    cases h
    exact ⟨l2Len, hparse, hkey.1, hkey.2.1, hkey.2.2, rfl⟩

theorem doXdpDsliteDecap_of_some {env : Env} {m : Maps} {ctx : XdpMd} {pkt : Bytes}
    (h : decapPacket m ctx = some pkt) :
    doXdpDsliteDecap env ⟨m, ctx⟩ =
      match maybeRedirectToCpu m pkt with
      | some action => (action, ⟨m, ctx⟩)
      | none => handleXdpDsliteDecap env ⟨m, ctx⟩ := by
  obtain ⟨l2Len, hparse, hproto, hpeer, hvalid, rfl⟩ := decapPacket_eq_some h
  have hfrag : ipprotoIpip ≠ ipprotoFragment := by decide
  have hicmp : ipprotoIpip ≠ ipprotoIcmpv6 := by decide
  simp only [doXdpDsliteDecap, hparse]
  rw [if_neg (fun hf => hfrag (hproto.symm.trans hf.1)),
    if_neg (fun hi => hicmp (hproto.symm.trans hi)), if_neg (not_not.mpr hproto),
    if_neg (by rw [Option.isNone_iff_eq_none]; exact Option.isSome_iff_ne_none.mp hpeer)]
  cases maybeRedirectToCpu m (ctx.data.drop (l2Len + ipv6hdrLen)) with
  | none => simp only [hvalid]
  | some action => simp only [hvalid]

@[simp] theorem emitSoftwireFragment_kept (x : Xdp) (idx : ℕ) :
    (emitSoftwireFragment x idx).2.maps.kept = x.maps.kept := by
  have hne : ∀ s ∈ cloneStats, s ≠ .affinityInsertFail := by decide
  exact emitSoftwireFragment_view (fun m s hs => Maps.kept_increaseStatsCount (hne s hs) m) x idx

/-- A packet's whole effect on flow affinity is one touch of the flow it is seen as. -/
theorem Packet.flowStep (p : Packet) (m : Maps) :
    FlowStep m (p.after m) p.env.now (p.flowKey m) := by
  obtain ⟨program, env, ctx⟩ := p
  cases program with
  | dsliteEncap => exact encap_flowStep env m ctx
  | dsliteDecapCpu => exact decap_flowStep env m ctx
  | ipv6FwdCpu =>
    exact Or.inl ⟨Or.inl rfl, Maps.flowView_of_kept (doXdpIpv6FwdCpu_kept env ⟨m, ctx⟩)⟩
  | softwireFrag i =>
    exact Or.inl ⟨Or.inl rfl, Maps.flowView_of_kept (emitSoftwireFragment_kept ⟨m, ctx⟩ i)⟩
  | dsliteDecap =>
    simp only [Packet.flowKey, Packet.after, Packet.run, Program.run]
    cases hpacket : decapPacket m ctx with
    | none =>
      exact Or.inl ⟨Or.inl rfl, congrArg Kept.flow (doXdpDsliteDecap_kept_of_none hpacket)⟩
    | some pkt =>
      rw [doXdpDsliteDecap_of_some hpacket]
      cases hcpu : maybeRedirectToCpu m pkt with
      | some action => exact Or.inl ⟨Or.inl (by simp [hcpu]), rfl⟩
      | none =>
        have hstep := decap_flowStep env m ctx
        rw [hpacket] at hstep
        simpa [hcpu] using hstep

/-- Packets leave the loader's maps alone. -/
theorem Packet.after_toLoaderMaps (p : Packet) (m : Maps) :
    (p.after m).toLoaderMaps = m.toLoaderMaps := by
  rcases p.flowStep m with ⟨-, hsame⟩ | ⟨-, key, fa, -, htouched⟩
  · exact congrArg FlowView.loader hsame
  · exact htouched.loader_eq

/-- Picking a slot and feeding the flow table leave the path MTUs alone. -/
theorem touchFlowAffinity_tunnelPmtus (m : Maps) (now ctrl : ℕ) (key : FlowKey) :
    (touchFlowAffinity m now ctrl key).2.tunnelPmtus = m.tunnelPmtus := by
  unfold touchFlowAffinity
  dsimp only
  repeat' split
  all_goals rfl

theorem pickSoftwireSlot_tunnelPmtus (m : Maps) (now ctrl : ℕ) (pkt : Bytes) :
    (pickSoftwireSlot m now ctrl pkt).2.tunnelPmtus = m.tunnelPmtus := by
  have htouch := touchFlowAffinity_tunnelPmtus m now ctrl (buildFlowKey pkt false)
  unfold pickSoftwireSlot
  dsimp only
  split_ifs
  · rfl
  · exact htouch
  · exact htouch

/-- Nor do they touch the loader's maps. -/
theorem pickSoftwireSlot_toLoaderMaps (m : Maps) (now ctrl : ℕ) (pkt : Bytes) :
    (pickSoftwireSlot m now ctrl pkt).2.toLoaderMaps = m.toLoaderMaps := by
  by_cases hstate : migState ctrl = migSteady
  · rw [pickSoftwireSlot_steady hstate]
  · obtain ⟨fa, htouched, -⟩ := @pickSoftwireSlot_touched m now ctrl pkt hstate
    exact htouched.loader_eq

theorem touchReversed_toLoaderMaps (env : Env) (m : Maps) (pkt : Bytes) :
    (touchReversed env m pkt).toLoaderMaps = m.toLoaderMaps := by
  rcases touchReversed_touched env m pkt with ⟨-, hsame⟩ | ⟨-, fa, htouched⟩
  · exact congrArg FlowView.loader hsame
  · exact htouched.loader_eq

theorem touchReversed_tunnelPmtus (env : Env) (m : Maps) (pkt : Bytes) :
    (touchReversed env m pkt).tunnelPmtus = m.tunnelPmtus := by
  unfold touchReversed
  split_ifs
  · rfl
  · exact touchFlowAffinity_tunnelPmtus ..

theorem handleXdpDsliteDecap_tunnelPmtus (env : Env) (m : Maps) (ctx : XdpMd) :
    (handleXdpDsliteDecap env ⟨m, ctx⟩).2.maps.tunnelPmtus = m.tunnelPmtus := by
  have hkept := decapCounted_kept env (m.increaseStatsCount .decap) ctx
  split at hkept
  · exact Maps.tunnelPmtus_of_kept hkept
  · exact (Maps.tunnelPmtus_of_kept hkept).trans (touchReversed_tunnelPmtus ..)

/-- A packet's whole effect on the learned path MTUs is the Packet Too Big message it carries. -/
theorem Packet.pmtuStep (p : Packet) (m : Maps) :
    (p.after m).tunnelPmtus = pmtusAfter m.tunnelPmtus p.env.now (p.tooBig m) := by
  obtain ⟨program, env, ctx⟩ := p
  cases program with
  | dsliteEncap =>
    have hkept := doXdpDsliteEncap_kept env m ctx
    split at hkept
    · exact Maps.tunnelPmtus_of_kept hkept
    · exact (Maps.tunnelPmtus_of_kept hkept).trans (pickSoftwireSlot_tunnelPmtus ..)
  | dsliteDecapCpu => exact handleXdpDsliteDecap_tunnelPmtus env m ctx
  | ipv6FwdCpu => exact Maps.tunnelPmtus_of_kept (doXdpIpv6FwdCpu_kept env ⟨m, ctx⟩)
  | softwireFrag i => exact Maps.tunnelPmtus_of_kept (emitSoftwireFragment_kept ⟨m, ctx⟩ i)
  | dsliteDecap =>
    cases hpacket : decapPacket m ctx with
    | none => exact congrArg Kept.pmtus (doXdpDsliteDecap_kept_of_none hpacket)
    | some pkt =>
      have hnone : decapTooBig env m ctx = none := by
        obtain ⟨l2Len, hparse, hproto, -⟩ := decapPacket_eq_some hpacket
        simp only [decapTooBig, hparse, hproto]
        exact if_neg (by decide)
      simp only [Packet.after, Packet.run, Program.run, Packet.tooBig, hnone]
      rw [doXdpDsliteDecap_of_some hpacket]
      cases maybeRedirectToCpu m pkt with
      | some action => rfl
      | none => exact handleXdpDsliteDecap_tunnelPmtus env m ctx

section Slot
variable {p : Packet} {m : Maps} {slot : ℕ}

/-- Only encap picks a slot, and it sees the packet it picks one for as a flow. -/
theorem Packet.slot_eq_some (h : p.slot m = some slot) :
    p.program = .dsliteEncap ∧ ∃ pkt, encapPacket p.env m p.ctx = some pkt ∧
      p.flowKey m = some (buildFlowKey pkt false) ∧
      (pickSoftwireSlot m p.env.now m.migrationCtrl pkt).1 = slot := by
  unfold Packet.slot at h
  split at h
  · next hprogram =>
    obtain ⟨pkt, hpkt, hslot⟩ := Option.map_eq_some_iff.mp h
    refine ⟨hprogram, pkt, hpkt, ?_, hslot⟩
    simp [Packet.flowKey, hprogram, hpkt]
  · cases h

theorem encapPacket_eq_some {env : Env} {ctx : XdpMd} {pkt : Bytes}
    (h : encapPacket env m ctx = some pkt) :
    ∃ l2Len lan, parseL2Ipv4 ctx.data = .ip l2Len ∧
      m.getLanConfig ctx.ingressIfindex = some lan ∧ pkt = ctx.data.drop l2Len ∧
      ¬ bypasses env m.toLoaderMaps ctx lan (Iphdr.read pkt) = true := by
  unfold encapPacket at h
  split at h
  · cases h
  · cases h
  · next l2Len hparse =>
    split at h
    · cases h
    · next lan hlan =>
      split_ifs at h with hb
      cases h
      exact ⟨l2Len, lan, hparse, hlan, rfl, hb⟩

/-- An encapsulated packet leaves with the endpoints of the slot that was picked for it. -/
theorem Packet.tunnelled {target : Target} (hslot : p.slot m = some slot)
    (hsent : (p.run m).1 = .redirect target) :
    Tunnelled (p.run m).2.ctx.data (m.nextHops slot).b4Addr (m.nextHops slot).aftrAddr := by
  obtain ⟨hprogram, pkt, hpkt, -, hpicked⟩ := Packet.slot_eq_some hslot
  obtain ⟨l2Len, lan, hparse, hlan, rfl, hb⟩ := encapPacket_eq_some hpkt
  have hrun : p.run m = encapInto p.env
      ⟨(pickSoftwireSlot m p.env.now m.migrationCtrl (p.ctx.data.drop l2Len)).2, p.ctx⟩ l2Len
        slot := by
    rw [← hpicked, Packet.run, hprogram]
    exact doXdpDsliteEncap_encapInto hparse hlan hb
  rw [hrun] at hsent ⊢
  have htunnelled := (encapInto_tunnelled (parseL2Ipv4_ip hparse).1 hsent).2.2
  rw [pickSoftwireSlot_toLoaderMaps] at htunnelled
  exact htunnelled

end Slot

end Minuteman.Datapath
