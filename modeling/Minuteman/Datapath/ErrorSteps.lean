import Minuteman.Datapath.ErrorReplies

/-!
# Which packets draw an error

The originating routines in the programs that reach them: for every program
and every frame, whether a token is taken, whether an error is sent, and what
it reports on.
-/
namespace Minuteman.Datapath
open Library ByteString

def senderConfig (m : Maps) (ctx : XdpMd) : B4Config :=
  let outer := Ipv6hdr.read (ctx.data.drop ethLen)
  { m.b4Config with b4Addr := outer.daddr, aftrAddr := outer.saddr }

def innerIph (ctx : XdpMd) : Iphdr := Iphdr.read (ctx.data.drop outerHdrLen)

def lanNexthop (env : Env) (m : Maps) (ctx : XdpMd) : LanLookup :=
  (lookupLanNexthop env ⟨m, ctx⟩ m.b4Config (innerIph ctx) (innerIph ctx).totLen.toNat).1

/-- The packet is bound for a managed LAN, which takes no packet of its size. -/
def TooBigForLan (env : Env) (m : Maps) (ctx : XdpMd) : Prop :=
  (∃ mtu, lanNexthop env m ctx = .fragNeeded mtu) ∨ ∃ fib, lanNexthop env m ctx = .ok fib ∧
    (bpfCheckMtu env fib.ifindex (innerIph ctx).totLen.toNat).1 = .fragNeeded

/-- A token is taken for a packet out of the softwire that is not answered: it is too big for its
LAN but may not draw an error, or nothing can be sent back. -/
inductive WastesDelivery (env : Env) (m : Maps) (ctx : XdpMd) : Prop
  | fragNeeded (httl : 1 < (innerIph ctx).ttl) (hdf : ipv4HasDf (innerIph ctx) = true)
      (hbig : TooBigForLan env m ctx)
      (h : (innerIph ctx).totLen.toNat < icmpFragQuoteLen ∨
        icmpErrorEligible (copyIpv4Quote (ctx.data.drop outerHdrLen)) = false ∨
        NoWayBack env m ctx (senderConfig m ctx))
  | timeExceeded (httl : (innerIph ctx).ttl ≤ 1)
      (hlan : (∃ mtu, lanNexthop env m ctx = .fragNeeded mtu) ∨
        ∃ fib, lanNexthop env m ctx = .ok fib)
      (hmay : icmpErrorEligible (copyIpv4Quote (ctx.data.drop outerHdrLen)) = true)
      (h : NoWayBack env m ctx (senderConfig m ctx))

section Programs
variable {env : Env} {x y : Xdp} {m : Maps} {ctx : XdpMd} {cfg cfg' : B4Config} {pkt : Bytes}

theorem lookupLanNexthop_answer {iph : Iphdr} {innerLen : ℕ}
    (hmaps : y.maps.toLoaderMaps = x.maps.toLoaderMaps)
    (hingress : y.ctx.ingressIfindex = x.ctx.ingressIfindex)
    (hwan : cfg'.wanIfindex = cfg.wanIfindex) :
    (lookupLanNexthop env y cfg' iph innerLen).1 = (lookupLanNexthop env x cfg iph innerLen).1 := by
  unfold lookupLanNexthop
  simp only [Maps.getLanConfig, hmaps, hingress, hwan]
  split_ifs <;> rfl

theorem aftrNexthop_congr {ctx' : XdpMd} {innerLen : ℕ}
    (hingress : ctx'.ingressIfindex = ctx.ingressIfindex) (hwan : cfg'.wanIfindex = cfg.wanIfindex)
    (hb4 : cfg'.b4Addr = cfg.b4Addr) (haftr : cfg'.aftrAddr = cfg.aftrAddr) :
    aftrNexthop env ctx' cfg' innerLen = aftrNexthop env ctx cfg innerLen := by
  have hparams : aftrFibParams ctx' cfg' innerLen = aftrFibParams ctx cfg innerLen := by
    simp only [aftrFibParams, hingress, hb4, haftr]
  unfold aftrNexthop
  rw [hparams, hwan]

theorem TakenOut.lookup_eq (h : TakenOut m ctx cfg y) :
    (lookupLanNexthop env y cfg (innerIph y.ctx) (innerIph y.ctx).totLen.toNat).1 =
      lanNexthop env m ctx := by
  have hiph : innerIph y.ctx = innerIph ctx := h.packet.iphdr
  rw [hiph]
  exact lookupLanNexthop_answer h.loader h.ingress h.wan

theorem TakenOut.report (h : TakenOut m ctx cfg y) {frame : Bytes}
    (hreport : SoftwireReport (y.ctx.data.drop outerHdrLen) frame) :
    SoftwireReport (ctx.data.drop outerHdrLen) frame := by
  have hiph := h.packet.iphdr
  have htype : byteAt (y.ctx.data.drop outerHdrLen) iphdrLen =
      byteAt (ctx.data.drop outerHdrLen) iphdrLen := by
    rw [← copyIpv4Quote_byteAt _ (by decide), h.packet.quote, copyIpv4Quote_byteAt _ (by decide)]
  obtain ⟨⟨hmay, msg, hcarries, habout⟩, hvalid⟩ := hreport
  refine ⟨⟨⟨?_, ?_, ?_⟩, msg, hcarries, habout.protocol, habout.error, ?_, ?_⟩,
    hvalid.congr h.packet.quote h.packet.length.le⟩
  · rw [← hiph, ← htype]
    exact hmay.notError
  · rw [← hiph]
    exact hmay.notLater
  · rw [← hiph]
    exact hmay.source
  · exact habout.quoted.trans h.packet.quote
  · rw [← hiph]
    exact habout.addressed

theorem TakenOut.noWayBack (h : TakenOut m ctx cfg y) (hback : NoWayBack env y.maps y.ctx cfg) :
    NoWayBack env m ctx (senderConfig m ctx) := by
  have hlen : (y.ctx.data.drop outerHdrLen).length = (ctx.data.drop outerHdrLen).length :=
    h.packet.length
  have hfit := h.length
  rw [List.length_drop, List.length_drop] at hlen
  have hsame : aftrNexthop env y.ctx cfg icmpv4ErrorL3Len =
      aftrNexthop env ctx (senderConfig m ctx) icmpv4ErrorL3Len :=
    aftrNexthop_congr h.ingress h.wan h.b4 h.aftr
  rcases hback with hnone | hshort | hport
  · exact .inl (hsame.symm.trans hnone)
  · exact .inr (.inl (by omega))
  · rw [h.loader, h.wan] at hport
    exact .inr (.inr hport)

theorem tooBigForLan_outcome (env : Env) (x : Xdp) (cfg : B4Config) (off mtu : ℕ) :
    ErrorOutcome env x.maps.errorView
      (ipv4HasDf (Iphdr.read (x.ctx.data.drop off)) = true ∧
        ((Iphdr.read (x.ctx.data.drop off)).totLen.toNat < icmpFragQuoteLen ∨
          x.ctx.data.length < off + icmpFragQuoteLen ∨
          icmpErrorEligible (copyIpv4Quote (x.ctx.data.drop off)) = false ∨
          NoWayBack env x.maps x.ctx cfg))
      (SoftwireReport (x.ctx.data.drop off)) (tooBigForLan env x cfg off mtu) := by
  unfold tooBigForLan
  split
  · next hdf =>
    exact (sendDsliteIcmpFragNeeded_outcome env x cfg off _).mono (fun hw => ⟨hdf, hw⟩)
      fun _ hr => hr
  · exact .quiet (Maps.errorView_increaseStatsCount (by decide) (by decide) (by decide) _)

theorem lookupLanNexthop_loader (iph : Iphdr) (innerLen : ℕ) :
    (lookupLanNexthop env x cfg iph innerLen).2.maps.toLoaderMaps = x.maps.toLoaderMaps := by
  unfold lookupLanNexthop
  extract_lets first tooBig fib
  repeat' split
  all_goals rfl

theorem TakenOut.congr (h : TakenOut m ctx cfg x)
    (hmaps : y.maps.toLoaderMaps = x.maps.toLoaderMaps) (hctx : y.ctx = x.ctx) :
    TakenOut m ctx cfg y where
  wan := h.wan
  b4 := h.b4
  aftr := h.aftr
  loader := hmaps.trans h.loader
  ingress := by rw [hctx, h.ingress]
  length := by rw [hctx]; exact h.length
  packet := by rw [hctx]; exact h.packet

theorem TakenOut.timeExceeded (h : TakenOut m ctx cfg y) (httl : (innerIph ctx).ttl ≤ 1)
    (hlan : (∃ mtu, lanNexthop env m ctx = .fragNeeded mtu) ∨
      ∃ fib, lanNexthop env m ctx = .ok fib) :
    ErrorOutcome env y.maps.errorView (WastesDelivery env m ctx)
      (SoftwireReport (ctx.data.drop outerHdrLen))
      (sendDsliteIcmpTimeExceeded env y cfg outerHdrLen) := by
  apply (sendDsliteIcmpTimeExceeded_outcome env y cfg outerHdrLen).mono
  · rintro ⟨hmay, -, hback⟩
    rw [h.packet.quote] at hmay
    exact .timeExceeded httl hlan hmay (h.noWayBack hback)
  · intro frame hreport
    exact h.report hreport

theorem TakenOut.tooBig (h : TakenOut m ctx cfg y) (httl : 1 < (innerIph ctx).ttl)
    (hbig : TooBigForLan env m ctx) (mtu : ℕ) :
    ErrorOutcome env y.maps.errorView (WastesDelivery env m ctx)
      (SoftwireReport (ctx.data.drop outerHdrLen)) (tooBigForLan env y cfg outerHdrLen mtu) := by
  have hiph : Iphdr.read (y.ctx.data.drop outerHdrLen) = innerIph ctx := h.packet.iphdr
  apply (tooBigForLan_outcome env y cfg outerHdrLen mtu).mono
  · rintro ⟨hdf, hfail⟩
    rw [hiph] at hdf hfail
    rw [h.packet.quote] at hfail
    have hback := @TakenOut.noWayBack env y m ctx cfg h
    have hshort : y.ctx.data.length < outerHdrLen + icmpFragQuoteLen →
        y.ctx.data.length < outerHdrLen + icmpv4ErrorL3Len := fun hlt => lt_trans hlt (by decide)
    refine .fragNeeded httl hdf hbig ?_
    rcases hfail with hlen | hlen | hmay | hnone
    · exact .inl hlen
    · exact .inr (.inr (hback (.inr (.inl (hshort hlen)))))
    · exact .inr (.inl hmay)
    · exact .inr (.inr (hback hnone))
  · intro frame hreport
    exact h.report hreport

theorem checkDevMtu_answer (ifindex l3Len : ℕ) :
    (checkDevMtu env x ifindex l3Len).1 = bpfCheckMtu env ifindex l3Len := by
  unfold checkDevMtu
  dsimp only
  split_ifs <;> rfl

theorem checkDevMtu_loader (ifindex l3Len : ℕ) :
    (checkDevMtu env x ifindex l3Len).2.maps.toLoaderMaps = x.maps.toLoaderMaps := by
  unfold checkDevMtu
  dsimp only
  split_ifs <;> rfl

theorem deliverInner_outcome (env : Env) (h : TakenOut m ctx cfg y) :
    ErrorOutcome env y.maps.errorView (WastesDelivery env m ctx)
      (SoftwireReport (ctx.data.drop outerHdrLen)) (deliverInner env y cfg outerHdrLen) := by
  have hanswer := @TakenOut.lookup_eq env y m ctx cfg h
  have hiph : innerIph y.ctx = innerIph ctx := h.packet.iphdr
  have hout := h.congr
    (@lookupLanNexthop_loader env y cfg (innerIph y.ctx) (innerIph y.ctx).totLen.toNat)
    (lookupLanNexthop_ctx (innerIph y.ctx))
  have hview := lookupLanNexthop_errorView env y cfg (innerIph y.ctx)
    (innerIph y.ctx).totLen.toNat
  unfold deliverInner
  rw [show Iphdr.read (y.ctx.data.drop outerHdrLen) = innerIph y.ctx from rfl]
  dsimp only
  generalize lookupLanNexthop env y cfg (innerIph y.ctx) (innerIph y.ctx).totLen.toNat = lookup
    at hanswer hout hview ⊢
  obtain ⟨answer, z⟩ := lookup
  dsimp only at hanswer hout hview ⊢
  rw [hiph, ← hview]
  cases answer with
  | drop => exact .quiet rfl
  | fail => exact .quiet (stripOuter_errorView ..)
  | fragNeeded mtu =>
    dsimp only
    split
    · next httl => exact hout.timeExceeded httl (.inl ⟨mtu, hanswer.symm⟩)
    · next httl => exact hout.tooBig (UInt8.not_le.mp httl) (.inl ⟨mtu, hanswer.symm⟩) _
  | ok fib =>
    dsimp only
    split
    · next httl => exact hout.timeExceeded httl (.inr ⟨fib, hanswer.symm⟩)
    next httl =>
    have hmtuView := checkDevMtu_errorView env z fib.ifindex (innerIph ctx).totLen.toNat
    split
    · next hmtu =>
      rw [← hmtuView]
      rw [checkDevMtu_answer] at hmtu
      exact (hout.congr (checkDevMtu_loader ..) (checkDevMtu_ctx ..)).tooBig (UInt8.not_le.mp httl)
        (.inr ⟨fib, hanswer.symm, hmtu⟩) _
    · exact .quiet hmtuView
    · exact .quiet ((stripOuter_errorView ..).trans hmtuView)

/-- The route of the native packet at `ethLen` takes no packet of its size. -/
def TooBigForRoute (env : Env) (ctx : XdpMd) : Prop :=
  let ip6h := Ipv6hdr.read (ctx.data.drop ethLen)
  ipv6IsForwardable ip6h = true ∧ 1 < ip6h.hopLimit ∧
    (bpfFibLookup env (ipv6FibParams ctx ip6h)).ret = .fragNeeded

/-- The frame is a Packet Too Big about the native packet of `data`, which is in transit. -/
def Icmpv6Report (data frame : Bytes) : Prop :=
  let ip6h := Ipv6hdr.read (data.drop ethLen)
  ipv6IsForwardable ip6h = true ∧ 1 < ip6h.hopLimit ∧
    ethLen + icmpv6PtbReplyL3Len ≤ data.length ∧ Icmpv6About (data.drop ethLen) frame

theorem handleIpv6Forward_outcome (env : Env) (x : Xdp) (cfg : B4Config) :
    ErrorOutcome env x.maps.errorView
      (TooBigForRoute env x.ctx ∧ (x.ctx.data.length < ethLen + icmpv6PtbReplyL3Len ∨
        x.maps.txPorts x.ctx.ingressIfindex = false))
      (fun frame => Icmpv6Report x.ctx.data frame ∧ TooBigError (x.ctx.data.drop ethLen) frame)
      (handleIpv6Forward env x ethLen cfg) := by
  have hquiet : ∀ s a, s = .ipv6Pass ∨ s = .fibNoNeigh ∨ s = .fibWrongIf →
      (x.exit s a).2.maps.errorView = x.maps.errorView := by
    rintro s a (rfl | rfl | rfl) <;> simp [Xdp.exit]
  unfold handleIpv6Forward
  dsimp only
  split
  · exact .quiet (hquiet _ _ (.inl rfl))
  next hforward =>
  split
  · exact .quiet (hquiet _ _ (.inl rfl))
  next hhops =>
  rw [Bool.not_eq_true, Bool.not_eq_false'] at hforward
  rw [UInt8.not_le] at hhops
  split
  · next hfrag =>
    apply (sendIcmpv6PktTooBig_outcome env x cfg.b4Addr _).mono
    · exact fun hw => ⟨⟨hforward, hhops, hfrag⟩, hw⟩
    · rintro frame ⟨hlen, habout, hvalid⟩
      exact ⟨⟨hforward, hhops, hlen, habout⟩, hvalid⟩
  split
  · split
    · exact .quiet (hquiet _ _ (.inr (.inl rfl)))
    · exact .quiet (hquiet _ _ (.inl rfl))
  split
  · exact .quiet (hquiet _ _ (.inl rfl))
  split
  · exact .quiet (hquiet _ _ (.inr (.inr rfl)))
  split
  · exact .quiet (by simp [Xdp.exit])
  · exact .quiet (by simp)

theorem learnTunnelPmtu_frame (slot mtu : ℕ) :
    (learnTunnelPmtu env x slot mtu).maps.toLoaderMaps = x.maps.toLoaderMaps ∧
      (learnTunnelPmtu env x slot mtu).ctx = x.ctx := by
  unfold learnTunnelPmtu
  dsimp only
  split_ifs <;> exact ⟨rfl, rfl⟩

/-- The relayed error of a tunnel error is about a packet quoted in the frame. -/
theorem handleTunnelIcmpv6_outcome {r : XdpAction × Xdp} {l2Len : ℕ}
    (h : handleTunnelIcmpv6 env x l2Len = some r) :
    ErrorOutcome env x.maps.errorView
      (∃ innerOff, quotedInner x.ctx.data (l2Len + ipv6hdrLen + 8) = some innerOff ∧
        NoRelay env x.maps x.ctx (copyIpv4Quote (x.ctx.data.drop innerOff)))
      (fun frame => ∃ innerOff, quotedInner x.ctx.data (l2Len + ipv6hdrLen + 8) = some innerOff ∧
        LanReport (x.ctx.data.drop innerOff) frame) r := by
  have hrelay : ∀ {y : Xdp} {innerOff : ℕ} {type code : UInt8} {extra : UInt32},
      y.maps.toLoaderMaps = x.maps.toLoaderMaps → y.ctx = x.ctx →
      y.maps.errorView = x.maps.errorView →
      quotedInner x.ctx.data (l2Len + ipv6hdrLen + 8) = some innerOff →
      icmpFragQuoteLen ≤ (x.ctx.data.drop innerOff).length →
      ErrorOutcome env x.maps.errorView
        (∃ innerOff, quotedInner x.ctx.data (l2Len + ipv6hdrLen + 8) = some innerOff ∧
          NoRelay env x.maps x.ctx (copyIpv4Quote (x.ctx.data.drop innerOff)))
        (fun frame => ∃ innerOff, quotedInner x.ctx.data (l2Len + ipv6hdrLen + 8) = some innerOff ∧
          LanReport (x.ctx.data.drop innerOff) frame)
        (relayTunnelError env y l2Len type code extra
          (copyIpv4Quote (x.ctx.data.drop innerOff))) := by
    intro y innerOff type code extra hmaps hctx hview hinner hlong
    have houtcome := relayTunnelError_outcome env y l2Len type code extra hlong
    rw [NoRelay, hmaps, hctx, hview] at houtcome
    exact houtcome.mono (fun hw => ⟨innerOff, hinner, hw⟩) fun frame hr => ⟨innerOff, hinner, hr⟩
  unfold handleTunnelIcmpv6 at h
  dsimp only at h
  split at h
  · cases h
  split at h
  · cases h
  split at h
  · cases h
  split at h
  · cases h
  split at h
  · cases h
    exact .quiet (by simp [Xdp.exit])
  next innerOff hinner =>
  split at h
  · cases h
    exact .quiet (by simp [Xdp.exit])
  next hbad =>
  have hlong : icmpFragQuoteLen ≤ (x.ctx.data.drop innerOff).length := by
    rw [List.length_drop]
    omega
  split at h
  · cases h
    exact .quiet (by simp [Xdp.exit])
  split at h
  · split at h
    · cases h
      exact .quiet (by simp [Xdp.exit])
    · cases h
      exact hrelay (learnTunnelPmtu_frame ..).1 (learnTunnelPmtu_frame ..).2
        (learnTunnelPmtu_errorView ..) hinner hlong
  · cases h
    exact hrelay rfl rfl rfl hinner hlong

@[simp] theorem encapFragmentOuter_errorView (l2Len innerLen : ℕ) (cfg : B4Config) (wanMtu : ℕ) :
    (encapFragmentOuter env x l2Len innerLen cfg wanMtu).2.maps.errorView = x.maps.errorView := by
  obtain ⟨y, hlookup, -, -, hview⟩ :=
    lookupAftrNexthop_cases env x cfg ((fragUnitOf cfg + fragHdrLen) % 2 ^ 16)
  unfold encapFragmentOuter
  dsimp only
  rw [hlookup, ← hview]
  split
  · simp [Xdp.exit, hview]
  split
  · simp [Xdp.exit, hview]
  cases aftrNexthop env x.ctx cfg ((fragUnitOf cfg + fragHdrLen) % 2 ^ 16) with
  | none => rfl
  | some fib =>
    dsimp only
    repeat' split
    all_goals simp

@[simp] theorem sendEncapsulated_errorView (l2Len innerLen : ℕ) (cfg : B4Config) :
    (sendEncapsulated env x l2Len innerLen cfg).2.maps.errorView = x.maps.errorView := by
  unfold sendEncapsulated
  dsimp only
  repeat' split
  all_goals simp

@[simp] theorem encapInto_errorView (l2Len slot : ℕ) :
    (encapInto env x l2Len slot).2.maps.errorView = x.maps.errorView := by
  unfold encapInto
  dsimp only
  repeat' split
  all_goals simp

@[simp] theorem emitSoftwireFragment_errorView (idx : ℕ) :
    (emitSoftwireFragment x idx).2.maps.errorView = x.maps.errorView := by
  have hne : ∀ s ∈ cloneStats, s ≠ .icmpFragNeeded ∧ s ≠ .icmpTimeExceeded ∧
      s ≠ .tunnelIcmpRelay := by decide
  apply emitSoftwireFragment_view
  intro m s hs
  obtain ⟨hfrag, htime, hrelay⟩ := hne s hs
  exact Maps.errorView_increaseStatsCount hfrag htime hrelay m

/-- IPv4 from the LAN draws no error from the datapath. -/
theorem encapIpv4_errorView (l2Len : ℕ) :
    (encapIpv4 env x l2Len).2.maps.errorView = x.maps.errorView := by
  unfold encapIpv4
  dsimp only
  repeat' split
  all_goals simp

/-- What the programs do not accept as a softwire packet draws no error either. -/
theorem decapCounted_errorView_of_none (env : Env) (h : decapPacket m ctx = none) :
    (decapCounted env ⟨m, ctx⟩).2.maps.errorView = m.errorView := by
  unfold decapPacket at h
  unfold decapCounted
  cases hparse : parseL2Ipv6 ctx.data with
  | malformed => simp
  | other => simp
  | ip l2Len =>
    simp only [hparse] at h ⊢
    split
    · simp
    · next hproto =>
      split
      · simp
      · next nh hnh =>
        split
        · simp
        · split
          · simp
          · next hvalid =>
            rw [if_pos ⟨not_not.mp hproto, by rw [hnh]; rfl, hvalid⟩] at h
            cases h

end Programs

/-- The frame calls for an error that cannot be sent, which shows only once a token is taken. -/
inductive Unanswerable (env : Env) (m : Maps) (ctx : XdpMd) : Prop
  | delivery (hpkt : (decapPacket m ctx).isSome = true) (h : WastesDelivery env m ctx)
  | native (hparse : parseL2Ipv6 ctx.data = .ip ethLen) (hbig : TooBigForRoute env ctx)
      (h : ctx.data.length < ethLen + icmpv6PtbReplyL3Len ∨ m.txPorts ctx.ingressIfindex = false)
  | relay (innerOff : ℕ) (hinner : quotedInner ctx.data (outerHdrLen + 8) = some innerOff)
      (h : NoRelay env m ctx (copyIpv4Quote (ctx.data.drop innerOff)))

def ErrorReport (data frame : Bytes) : Prop :=
  (∃ pkt, pkt <:+ data ∧ Icmpv4Report pkt frame) ∨
    parseL2Ipv6 data = .ip ethLen ∧ Icmpv6Report data frame

/-- The frame is a valid error that quotes a packet of the frame `data`: the one in the softwire,
the one an ICMPv6 error quotes, or the native one. -/
def ValidError (data frame : Bytes) : Prop :=
  SoftwireError (data.drop outerHdrLen) frame ∨
    (∃ innerOff, quotedInner data (outerHdrLen + 8) = some innerOff ∧
      LanError (data.drop innerOff) frame) ∨
    TooBigError (data.drop ethLen) frame

def ValidReport (data frame : Bytes) : Prop := ErrorReport data frame ∧ ValidError data frame

section Packets
variable {env : Env} {m : Maps} {ctx : XdpMd}

theorem handleXdpDsliteDecap_outcome (env : Env) (m : Maps) (ctx : XdpMd) :
    ErrorOutcome env m.errorView (Unanswerable env m ctx) (ValidReport ctx.data)
      (handleXdpDsliteDecap env ⟨m, ctx⟩) := by
  have hcount : (m.increaseStatsCount .decap).errorView = m.errorView :=
    Maps.errorView_increaseStatsCount (by decide) (by decide) (by decide) m
  cases hpkt : decapPacket m ctx with
  | none =>
    exact .quiet ((@decapCounted_errorView_of_none (m.increaseStatsCount .decap) ctx env hpkt).trans
      hcount)
  | some pkt =>
    obtain ⟨-, cfg, y, hout, hy, hrun⟩ := handleXdpDsliteDecap_of_some env hpkt
    have hview : y.maps.errorView = m.errorView := by
      rw [hy, applyMssClamp_errorView, touchReversed_errorView, hcount]
    rw [hrun, ← hview]
    exact (deliverInner_outcome env hout).mono
      (fun hw => .delivery (by rw [hpkt]; rfl) hw)
      fun frame hr => ⟨.inl ⟨_, List.drop_suffix _ _, hr.1⟩, .inl hr.2⟩

/-- The native path of all programs. -/
theorem native_outcome {x : Xdp} (hparse : parseL2Ipv6 ctx.data = .ip ethLen)
    (hmaps : x.maps.toLoaderMaps = m.toLoaderMaps) (hview : x.maps.errorView = m.errorView)
    (hctx : x.ctx = ctx) (cfg : B4Config) :
    ErrorOutcome env m.errorView (Unanswerable env m ctx) (ValidReport ctx.data)
      (handleIpv6Forward env x ethLen cfg) := by
  have houtcome := handleIpv6Forward_outcome env x cfg
  rw [hctx, hview, hmaps] at houtcome
  apply houtcome.mono
  · exact fun hw => .native hparse hw.1 hw.2
  · exact fun frame hr => ⟨.inr ⟨hparse, hr.1⟩, .inr (.inr hr.2)⟩

theorem maybeRedirectIpv6ToCpu_frame (x : Xdp) (pkt : Bytes) :
    (maybeRedirectIpv6ToCpu x pkt).2.maps.toLoaderMaps = x.maps.toLoaderMaps ∧
      (maybeRedirectIpv6ToCpu x pkt).2.ctx = x.ctx := by
  unfold maybeRedirectIpv6ToCpu
  dsimp only
  split_ifs <;> exact ⟨rfl, rfl⟩

/-- Native forwarding behind the software-RSS stage. -/
theorem fanned_outcome (hparse : parseL2Ipv6 ctx.data = .ip ethLen) (pkt : Bytes) (cfg : B4Config) :
    ErrorOutcome env m.errorView (Unanswerable env m ctx) (ValidReport ctx.data)
      (match (maybeRedirectIpv6ToCpu ⟨m, ctx⟩ pkt).1 with
      | some action => (action, (maybeRedirectIpv6ToCpu ⟨m, ctx⟩ pkt).2)
      | none => handleIpv6Forward env (maybeRedirectIpv6ToCpu ⟨m, ctx⟩ pkt).2 ethLen cfg) := by
  obtain ⟨hmaps, hctx⟩ := maybeRedirectIpv6ToCpu_frame ⟨m, ctx⟩ pkt
  have hview := maybeRedirectIpv6ToCpu_errorView ⟨m, ctx⟩ pkt
  cases (maybeRedirectIpv6ToCpu ⟨m, ctx⟩ pkt).1 with
  | some action => exact .quiet hview
  | none => exact native_outcome hparse hmaps hview hctx cfg

theorem doXdpDsliteEncap_outcome (env : Env) (m : Maps) (ctx : XdpMd) :
    ErrorOutcome env m.errorView (Unanswerable env m ctx) (ValidReport ctx.data)
      (doXdpDsliteEncap env ⟨m, ctx⟩) := by
  unfold doXdpDsliteEncap
  dsimp only
  split
  · exact .quiet (by simp [Xdp.exit])
  · split
    · exact .quiet (by simp [Xdp.exit])
    · exact .quiet (by simp [Xdp.exit])
    · next l2Len hparse =>
      obtain rfl := parseL2Ipv6_ip hparse
      split
      · exact .quiet (by simp [Xdp.exit])
      · exact fanned_outcome hparse _ _
  · exact .quiet (encapIpv4_errorView _)

theorem doXdpIpv6FwdCpu_outcome (env : Env) (m : Maps) (ctx : XdpMd) :
    ErrorOutcome env m.errorView (Unanswerable env m ctx) (ValidReport ctx.data)
      (doXdpIpv6FwdCpu env ⟨m, ctx⟩) := by
  unfold doXdpIpv6FwdCpu
  dsimp only
  split
  · exact .quiet (by simp [Xdp.exit])
  · exact .quiet (by simp [Xdp.exit])
  · next l2Len hparse =>
    obtain rfl := parseL2Ipv6_ip hparse
    split
    · exact .quiet (by simp [Xdp.exit])
    · exact @native_outcome env m ctx ⟨m, ctx⟩ hparse rfl rfl rfl _

theorem forwardNative_outcome (env : Env) (hparse : parseL2Ipv6 ctx.data = .ip ethLen) :
    ErrorOutcome env m.errorView (Unanswerable env m ctx) (ValidReport ctx.data)
      (forwardNative env ⟨m, ctx⟩ ethLen) := by
  unfold forwardNative
  split
  · exact .quiet rfl
  · exact fanned_outcome hparse _ _

theorem doXdpDsliteDecap_outcome (env : Env) (m : Maps) (ctx : XdpMd) :
    ErrorOutcome env m.errorView (Unanswerable env m ctx) (ValidReport ctx.data)
      (doXdpDsliteDecap env ⟨m, ctx⟩) := by
  unfold doXdpDsliteDecap
  dsimp only
  split
  · exact .quiet (by simp [Xdp.exit])
  · exact .quiet (by simp [Xdp.exit])
  next l2Len hparse =>
  obtain rfl := parseL2Ipv6_ip hparse
  split
  · exact .quiet (by simp [Xdp.exit])
  split
  · cases htunnel : handleTunnelIcmpv6 env ⟨m, ctx⟩ ethLen with
    | none => exact forwardNative_outcome env hparse
    | some r =>
      apply (handleTunnelIcmpv6_outcome htunnel).mono
      · rintro ⟨innerOff, hinner, hrelay⟩
        exact .relay innerOff hinner hrelay
      · rintro frame ⟨innerOff, hinner, hreport, hvalid⟩
        exact ⟨.inl ⟨_, List.drop_suffix _ _, hreport⟩, .inr (.inl ⟨innerOff, hinner, hvalid⟩)⟩
  split
  · exact forwardNative_outcome env hparse
  split
  · exact .quiet rfl
  split
  · exact .quiet (by simp [Xdp.exit])
  split
  · exact .quiet rfl
  · exact handleXdpDsliteDecap_outcome env m ctx

/-- How any packet ends with respect to errors. The clones of a fragmented packet draw none. -/
theorem Packet.errorOutcome (p : Packet) (m : Maps) :
    ErrorOutcome p.env m.errorView
      ((∀ i, p.program ≠ .softwireFrag i) ∧ Unanswerable p.env m p.ctx) (ValidReport p.ctx.data)
      (p.run m) := by
  obtain ⟨program, env, ctx⟩ := p
  have hwhole : ∀ {r}, (∀ i, program ≠ .softwireFrag i) →
      ErrorOutcome env m.errorView (Unanswerable env m ctx) (ValidReport ctx.data) r →
      ErrorOutcome env m.errorView ((∀ i, program ≠ .softwireFrag i) ∧ Unanswerable env m ctx)
        (ValidReport ctx.data) r :=
    fun hne houtcome => houtcome.mono (fun hw => ⟨hne, hw⟩) fun _ => id
  cases program with
  | dsliteEncap => exact hwhole (by simp) (doXdpDsliteEncap_outcome env m ctx)
  | dsliteDecap => exact hwhole (by simp) (doXdpDsliteDecap_outcome env m ctx)
  | dsliteDecapCpu => exact hwhole (by simp) (handleXdpDsliteDecap_outcome env m ctx)
  | ipv6FwdCpu => exact hwhole (by simp) (doXdpIpv6FwdCpu_outcome env m ctx)
  | softwireFrag i => exact .quiet (emitSoftwireFragment_errorView i)

end Packets

/-- The packet draws an error of the datapath's own: one is counted, and `frame` leaves. -/
def Packet.DrawsError (p : Packet) (m : Maps) (frame : Bytes) : Prop :=
  m.icmpErrors < (p.after m).icmpErrors ∧ sentFrame (p.run m) = some frame

theorem Packet.DrawsError.report {p : Packet} {m : Maps} {frame : Bytes}
    (h : p.DrawsError m frame) : ValidReport p.ctx.data frame := by
  obtain ⟨hcount, hframe⟩ := h
  cases p.errorOutcome m with
  | quiet hview =>
    have hsame : (p.after m).icmpErrors = m.icmpErrors := congrArg ErrorView.errors hview
    omega
  | limited hempty hview =>
    have hsame : (p.after m).icmpErrors = m.icmpErrors := congrArg ErrorView.errors hview
    omega
  | wasted htoken hrate hunsent hwaste =>
    rw [hunsent] at hframe
    cases hframe
  | answered htoken hview hsent hreport =>
    rw [hsent] at hframe
    cases hframe
    exact hreport

/-- Whatever program the frame is given to, in whatever state and with whatever answers of the
kernel: an error it draws is about a packet that may draw one, and goes to that packet's source. -/
def ErrorsFit (ctx : XdpMd) : Prop :=
  ∀ (program : Program) (env : Env) (m : Maps) (frame : Bytes),
    (Packet.mk program env ctx).DrawsError m frame →
      (∃ pkt, pkt <:+ ctx.data ∧ MayDrawIcmpv4 pkt ∧
        ∃ msg, CarriesIpv4 frame msg ∧ Icmpv4About pkt msg) ∨
      MayDrawIcmpv6 (ctx.data.drop ethLen) ∧ Icmpv6About (ctx.data.drop ethLen) frame

/-- The frame is an ICMPv6 error in transit, or a later fragment that hides behind another extension
header, and is large enough for the reply to be cut out of it. -/
def TransitIcmpv6Error (data : Bytes) : Prop :=
  let pkt := data.drop ethLen
  parseL2Ipv6 data = .ip ethLen ∧ ipv6IsForwardable (Ipv6hdr.read pkt) = true ∧
    1 < (Ipv6hdr.read pkt).hopLimit ∧ ethLen + icmpv6PtbReplyL3Len ≤ data.length ∧
    ∃ h ∈ ipv6Headers pkt, h.1 = ipprotoIcmpv6 ∧ byteAt h.2 0 < 128 ∨
      h.1 = ipprotoFragment ∧ (FragHdr.read h.2).fragOff.toNat / 8 ≠ 0

theorem ipv6IsForwardable_source {ip6h : Ipv6hdr} (h : ipv6IsForwardable ip6h = true) :
    UnicastIpv6 ip6h.saddr := by
  simp only [ipv6IsForwardable, Bool.if_false_left, Bool.and_eq_true, Bool.not_eq_true',
    decide_eq_false_iff_not] at h
  obtain ⟨-, -, -, -, hzero, hmulti, -, hloop, -, -⟩ := h
  refine ⟨?_, ?_, ?_⟩
  · intro heq
    apply hzero
    rw [ipv6AddrIsUnspecified, beq_iff_eq]
    cases hsaddr : ip6h.saddr with
    | mk bytes size =>
      rw [hsaddr] at heq
      simp only [FixedBytes.zero, FixedBytes.mk.injEq]
      exact heq
  · intro heq
    exact hloop (by simpa [ipv6AddrIsLoopback] using heq)
  · intro heq
    exact hmulti (by simpa [isMulticast6] using heq)

/-- A frame that is an ICMPv6 error is no ICMPv4 error. -/
theorem Icmpv6About.not_carriesIpv4 {pkt frame msg : Bytes} (h : Icmpv6About pkt frame) :
    ¬ CarriesIpv4 frame msg := by
  intro hcarries
  have hdrop : ∀ (eth : Ethhdr) (tail : Bytes), (eth.toBytes ++ tail).drop ethLen = tail :=
    fun eth tail => List.drop_left' (by simp; rfl)
  cases hcarries with
  | plain eth _ hproto =>
    have hread := h.ethertype
    rw [Ethhdr.read_toBytes, hproto] at hread
    exact absurd hread (by decide)
  | softwire eth outer _ hproto hnext =>
    have hread := h.protocol
    rw [hdrop, Ipv6hdr.read_toBytes, hnext] at hread
    exact absurd hread (by decide)

def openMaps : Maps := { linkedMaps with txPorts := fun _ => true }

def narrowRoutes : Env where
  fib _ := { ret := .fragNeeded, egress := 2, mtu := 1280 }
  mtu _ := none
  now := 1000000000

/-- With a token, room for the reply and a registered interface, Packet Too Big is sent. -/
theorem sendIcmpv6PktTooBig_sent {env : Env} {x : Xdp} {src6 : In6Addr} (mtu : ℕ)
    (hsrc : ipv6AddrIsUnspecified src6 = false)
    (htoken : (x.maps.errorView.bucket env).tokens ≠ 0)
    (hlen : ethLen + icmpv6PtbReplyL3Len ≤ x.ctx.data.length)
    (hport : x.maps.txPorts x.ctx.ingressIfindex = true) :
    ∃ y, sendIcmpv6PktTooBig env x ethLen src6 mtu =
        (.redirect (.txPort x.ctx.ingressIfindex), y) ∧
      y.maps.icmpErrors = x.maps.icmpErrors + 1 ∧
      Icmpv6About (x.ctx.data.drop ethLen) y.ctx.data := by
  obtain ⟨y, hy, hctx, hports, hview, hcase⟩ := icmpErrorAllowed_cases env x
  have hallowed : (icmpErrorAllowed env x).1 = true := by
    rcases hcase with ⟨-, hempty⟩ | ⟨hallowed, -⟩
    · exact absurd hempty htoken
    · exact hallowed
  have hquote : icmpv6PtbQuoteLen = 48 := rfl
  have hreply : icmpv6PtbReplyL3Len = 96 := rfl
  have heth : ethLen = 14 := rfl
  unfold sendIcmpv6PktTooBig
  simp only [hy, hallowed, hsrc]
  rw [if_neg (by decide), if_neg (by decide), if_neg (by decide), hctx, if_neg (by omega),
    if_neg (by omega), XdpMd.adjustTail_to (by decide) hlen]
  dsimp only
  rw [if_neg (by rw [List.length_take]; omega)]
  refine ⟨_, Prod.ext ?_ rfl, ?_, writeIcmpv6PktTooBig_about _ _ _ (by rw [List.length_drop]; omega)⟩
  · dsimp only [writeIcmpv6PktTooBig_maps, writeIcmpv6PktTooBig_ingress]
    rw [redirectTxPort, hports, if_pos hport]
  · have hcounted : (y.maps.increaseStatsCount .mtuDrop).errorView = x.maps.errorView.drawn env := by
      rw [Maps.errorView_increaseStatsCount (by decide) (by decide) (by decide), hview]
    dsimp only [Xdp.count_maps, writeIcmpv6PktTooBig_maps]
    exact congrArg ErrorView.errors (Maps.errorView_answered (.inl rfl) hcounted)

/-- With such routes any transit packet that is long enough draws a Packet Too Big. -/
theorem narrowRoutes_drawsError {ctx : XdpMd} (hparse : parseL2Ipv6 ctx.data = .ip ethLen)
    (hforward : ipv6IsForwardable (Ipv6hdr.read (ctx.data.drop ethLen)) = true)
    (hhops : 1 < (Ipv6hdr.read (ctx.data.drop ethLen)).hopLimit)
    (hlen : ethLen + icmpv6PtbReplyL3Len ≤ ctx.data.length) :
    ∃ frame, (Packet.mk .ipv6FwdCpu narrowRoutes ctx).DrawsError openMaps frame ∧
      Icmpv6About (ctx.data.drop ethLen) frame := by
  have htoken : (openMaps.errorView.bucket narrowRoutes).tokens ≠ 0 := by decide
  have hfib : ∀ params, bpfFibLookup narrowRoutes params =
      ⟨.fragNeeded, params.ifindex, default, default, 1280⟩ := fun _ => rfl
  obtain ⟨y, hsend, hcount, habout⟩ := @sendIcmpv6PktTooBig_sent narrowRoutes ⟨openMaps, ctx⟩
    (sampleAddr 1) 1280 (by decide) htoken hlen rfl
  have hrun : (Packet.mk .ipv6FwdCpu narrowRoutes ctx).run openMaps =
      (.redirect (.txPort ctx.ingressIfindex), y) := by
    rw [← hsend]
    change doXdpIpv6FwdCpu narrowRoutes ⟨openMaps, ctx⟩ = _
    simp only [doXdpIpv6FwdCpu, hparse]
    change handleIpv6Forward narrowRoutes ⟨openMaps, ctx⟩ ethLen _ = _
    unfold handleIpv6Forward
    simp only [hfib]
    rw [if_neg (by simp [hforward]), if_neg (UInt8.not_le.mpr hhops), if_pos trivial]
    rfl
  refine ⟨y.ctx.data, ⟨?_, ?_⟩, habout⟩
  · rw [Packet.after, hrun, hcount]
    exact Nat.lt_succ_self _
  · rw [hrun]
    rfl

/-- Every error fits, except that a Packet Too Big may answer an ICMPv6 error in transit. -/
theorem errorsFit_iff (ctx : XdpMd) : ErrorsFit ctx ↔ ¬ TransitIcmpv6Error ctx.data := by
  constructor
  · rintro hfit ⟨hparse, hforward, hhops, hlen, h, hmem, hbarred⟩
    obtain ⟨frame, hdraws, habout⟩ := narrowRoutes_drawsError hparse hforward hhops hlen
    rcases hfit _ _ _ _ hdraws with ⟨pkt, -, -, msg, hcarries, -⟩ | ⟨hmay, -⟩
    · exact habout.not_carriesIpv4 hcarries
    · rcases hbarred with ⟨hicmp, htype⟩ | ⟨hfrag, hlater⟩
      · exact absurd (hmay.notError h hmem hicmp) (UInt8.not_le.mpr htype)
      · exact hlater (hmay.notLater h hmem hfrag)
  · intro hnot program env m frame hdraws
    rcases hdraws.report.1 with
      ⟨pkt, hsuffix, hmay, hcarried⟩ | ⟨hparse, hforward, hhops, hlen, habout⟩
    · exact .inl ⟨pkt, hsuffix, hmay, hcarried⟩
    · refine .inr ⟨⟨?_, ?_, ipv6IsForwardable_source hforward⟩, habout⟩
      · intro h hmem hicmp
        by_contra htype
        exact hnot ⟨hparse, hforward, hhops, hlen, h, hmem, .inl ⟨hicmp, UInt8.not_le.mp htype⟩⟩
      · intro h hmem hfrag
        by_contra hlater
        exact hnot ⟨hparse, hforward, hhops, hlen, h, hmem, .inr ⟨hfrag, hlater⟩⟩

/-- A Destination Unreachable of 1440 bytes from host 5 to host 6. -/
def unreachableFrame : XdpMd where
  data := (Ethhdr.mk default default ethPIpv6).toBytes ++
    ((outerIpv6 (sampleAddr 5) (sampleAddr 6) ipprotoIcmpv6 1400).toBytes ++
      1 :: List.replicate 1399 0)
  headroom := []
  ingressIfindex := 3

/-- An ICMPv6 error is answered with another one. -/
theorem tooBig_answers_unreachable :
    (Ipv6hdr.read (unreachableFrame.data.drop ethLen)).nexthdr = ipprotoIcmpv6 ∧
      byteAt (unreachableFrame.data.drop ethLen) ipv6hdrLen = 1 ∧
      ∃ frame, (Packet.mk .ipv6FwdCpu narrowRoutes unreachableFrame).DrawsError openMaps frame ∧
        Icmpv6About (unreachableFrame.data.drop ethLen) frame := by
  refine ⟨by decide +kernel, by decide +kernel, narrowRoutes_drawsError ?_ ?_ ?_ ?_⟩
  all_goals decide +kernel

/-- Every error that leaves is valid and quotes the packet it reports on, although it is written
over that packet. -/
theorem drawn_error_valid (p : Packet) (m : Maps) (frame : Bytes) (h : p.DrawsError m frame) :
    ValidError p.ctx.data frame := h.report.2

theorem drawn_error_valid_unreachable :
    ∃ frame, (Packet.mk .ipv6FwdCpu narrowRoutes unreachableFrame).DrawsError openMaps frame ∧
      ValidError unreachableFrame.data frame := by
  obtain ⟨frame, hdraws, -⟩ := @narrowRoutes_drawsError unreachableFrame
    (by decide +kernel) (by decide +kernel) (by decide +kernel) (by decide +kernel)
  exact ⟨frame, hdraws, drawn_error_valid _ _ frame hdraws⟩

end Minuteman.Datapath
