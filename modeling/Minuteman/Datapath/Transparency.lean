import Minuteman.Datapath.MssClamp
import Minuteman.Datapath.Programs

/-!
# What the softwire does to a packet

A packet goes into the softwire whole, behind an Ethernet and an IPv6 header,
and comes out whole. On either side it loses one hop, and the MSS of a SYN may
be lowered. What decap answers itself goes back through the softwire.
-/
namespace Minuteman.Datapath
open Library ByteString

/-- The packet `out` is `pkt`, with the MSS of a SYN lowered to `clamp` if it was above. -/
def MssClamped (clamp : ℕ) (pkt out : Bytes) : Prop :=
  out = pkt ∨ clamp ≠ 0 ∧ ∃ opt, RewritesMss pkt (UInt16.ofNat clamp) opt ∧
    out = rewriteMss pkt opt (UInt16.ofNat clamp)

/-- The packet `out` is `pkt` as the softwire hands it on: one hop further, its MSS clamped. -/
structure HandedOn (clamp : ℕ) (pkt out : Bytes) : Prop where
  length : out.length = pkt.length
  ttl : (Iphdr.read out).ttl = (Iphdr.read pkt).ttl - 1
  changed : ∀ i, out[i]? ≠ pkt[i]? → i = 8 ∨ i = 10 ∨ i = 11 ∨
    clamp ≠ 0 ∧ ∃ opt, RewritesMss pkt (UInt16.ofNat clamp) opt ∧
      (i = iphdrLen + 16 ∨ i = iphdrLen + 17 ∨ i = iphdrLen + opt + 2 ∨ i = iphdrLen + opt + 3)
  checksum : ChecksumOk pkt → ChecksumOk out

section Clamp
variable {clamp opt : ℕ} {pkt mid out : Bytes}

theorem RewritesMss.bounds {c : UInt16} (h : RewritesMss pkt c opt) :
    tcphdrLen ≤ opt ∧ iphdrLen + opt + 4 ≤ pkt.length := by
  obtain ⟨harea, -, hpresent, -, -⟩ := findMssOption_some h.found
  rw [List.length_drop] at hpresent
  have hip : iphdrLen = 20 := rfl
  exact ⟨harea, by omega⟩

theorem MssClamped.length (h : MssClamped clamp pkt out) : out.length = pkt.length := by
  rcases h with rfl | ⟨-, opt, hr, rfl⟩
  · rfl
  · exact rewriteMss_length hr.bounds.1 hr.bounds.2 _

theorem MssClamped.byteAt (h : MssClamped clamp pkt out) {i : ℕ} (hi : i < iphdrLen) :
    ByteString.byteAt out i = ByteString.byteAt pkt i := by
  rcases h with rfl | ⟨-, opt, hr, rfl⟩
  · rfl
  · simp only [ByteString.byteAt, List.getD_eq_getElem?_getD]
    rw [rewriteMss_getElem? hr.bounds.1 hr.bounds.2 _ (by omega) (by omega)]

theorem MssClamped.quote (h : MssClamped clamp pkt out) : copyIpv4Quote out = copyIpv4Quote pkt := by
  rcases h with rfl | ⟨-, opt, hr, rfl⟩
  · rfl
  · have hip : iphdrLen = 20 := rfl
    have htcp : tcphdrLen = 20 := rfl
    have hquote : icmpFragQuoteLen = 28 := rfl
    obtain ⟨harea, hlen⟩ := hr.bounds
    apply List.ext_getElem?
    intro i
    rw [copyIpv4Quote, copyIpv4Quote, List.getElem?_take, List.getElem?_take]
    split_ifs with hi
    · exact rewriteMss_getElem? harea hlen _ (by omega) (by omega)
    · rfl

theorem MssClamped.iphdr (h : MssClamped clamp pkt out) : Iphdr.read out = Iphdr.read pkt :=
  Iphdr.read_congr fun _ hi => h.byteAt hi

theorem MssClamped.checksumOk (h : MssClamped clamp pkt out) :
    ChecksumOk out ↔ ChecksumOk pkt := by
  have hsum : ipv4HeaderSum out = ipv4HeaderSum pkt := by
    apply congrArg List.sum
    apply List.map_congr_left
    intro i hi
    have hip : iphdrLen = 20 := rfl
    rw [List.mem_range] at hi
    rw [be16At, be16At, h.byteAt (by omega), h.byteAt (by omega)]
  rw [ChecksumOk, ChecksumOk, hsum]

theorem MssClamped.handedOn (h : MssClamped clamp pkt mid) (hop : OneHopFurther mid out) :
    HandedOn clamp pkt out where
  length := hop.length.trans h.length
  ttl := by rw [hop.ttl, h.iphdr]
  checksum hok := hop.checksum (h.checksumOk.mpr hok)
  changed := by
    intro i hi
    by_contra hnot
    rw [not_or, not_or, not_or] at hnot
    obtain ⟨h8, h10, h11, hmss⟩ := hnot
    apply hi
    rw [hop.others i h8 h10 h11]
    rcases h with rfl | ⟨hclamp, opt, hr, rfl⟩
    · rfl
    · by_contra hne
      apply hmss
      refine ⟨hclamp, opt, hr, ?_⟩
      by_contra hother
      rw [not_or, not_or, not_or] at hother
      exact hne (rewriteMss_getElem? hr.bounds.1 hr.bounds.2 _ ⟨hother.1, hother.2.1⟩ hother.2.2)

/-- The clamp changes the packet at `off` and a counter. -/
theorem applyMssClamp_clamped {x : Xdp} {off : ℕ} (h : off ≤ x.ctx.data.length) (cfg : B4Config) :
    ∃ out, MssClamped cfg.mssClamp (x.ctx.data.drop off) out ∧
      (applyMssClamp x off cfg).ctx = { x.ctx with data := x.ctx.data.take off ++ out } := by
  have hsame : { x.ctx with data := x.ctx.data.take off ++ x.ctx.data.drop off } = x.ctx := by
    rw [List.take_append_drop]
  unfold applyMssClamp
  split_ifs with hclamp
  · exact ⟨_, Or.inl rfl, hsame.symm⟩
  · split
    · exact ⟨_, Or.inl rfl, hsame.symm⟩
    · next data hdata =>
      obtain ⟨opt, hr, rfl⟩ := (clampTcpMss_eq_some_iff h).mp hdata
      exact ⟨_, Or.inr ⟨hclamp, opt, hr, rfl⟩, rfl⟩

end Clamp

structure Encapsulated (env : Env) (m : Maps) (slot : ℕ) (pkt frame : Bytes) : Prop where
  resolved : slot < numNextHops ∧ (m.nextHops slot).valid = true
  framed : ∃ (eth : Ethhdr) (outer : Ipv6hdr) (out : Bytes),
    frame = eth.toBytes ++ (outer.toBytes ++ out) ∧ eth.hProto = ethPIpv6 ∧ outer.version = 6 ∧
    outer.nexthdr = ipprotoIpip ∧ outer.payloadLen = (Iphdr.read pkt).totLen ∧
    outer.saddr = (m.nextHops slot).b4Addr ∧ outer.daddr = (m.nextHops slot).aftrAddr ∧
    HandedOn m.b4Config.mssClamp pkt out
  deviceMtu : ∃ mtu, env.mtu m.b4Config.wanIfindex = some mtu ∧
    ipv6hdrLen + (Iphdr.read pkt).totLen.toNat ≤ mtu
  pathMtu : tunnelPmtuFor env m slot ≠ 0 →
    ipv6hdrLen + (Iphdr.read pkt).totLen.toNat ≤ tunnelPmtuFor env m slot

theorem outerIpv6_version (saddr daddr : In6Addr) (nexthdr : UInt8) (payloadLen : ℕ) :
    (outerIpv6 saddr daddr nexthdr payloadLen).version = 6 := by
  change (0x60 : UInt8) >>> 4 = 6
  decide

theorem redirectToIfindex_target {x : Xdp} {port : ℕ} {stat : StatId} {target : Target}
    (h : (redirectToIfindex x port stat).1 = .redirect target) : target = .txPort port := by
  unfold redirectToIfindex redirectTxPort at h
  dsimp only at h
  split_ifs at h
  cases h
  rfl

section Encap
variable {env : Env} {x : Xdp} {m : Maps} {ctx : XdpMd} {l2Len innerLen slot : ℕ} {cfg : B4Config}
  {target : Target}

/-- The frame `do_xdp_dslite_encap` sends: the outer headers in front of the packet, which loses
one hop. -/
theorem sendEncapsulated_frame (hl2 : l2Len ≤ 22) (hpkt : l2Len + iphdrLen ≤ x.ctx.data.length)
    (h : (sendEncapsulated env x l2Len innerLen cfg).1 = .redirect target) :
    target = .txPort cfg.wanIfindex ∧ ∃ fib out, OneHopFurther (x.ctx.data.drop l2Len) out ∧
      (sendEncapsulated env x l2Len innerLen cfg).2.ctx.data =
        (outerEth6 cfg fib true).toBytes ++
          ((outerIpv6 cfg.b4Addr cfg.aftrAddr ipprotoIpip innerLen).toBytes ++ out) := by
  have hctx := lookupAftrNexthop_ctx env x cfg innerLen
  have houter : outerHdrLen = 54 := rfl
  revert h
  unfold sendEncapsulated
  dsimp only
  split
  · intro h
    cases h
  · next httl =>
    split
    · intro h
      cases h
    · next fib hfib =>
      split
      · intro h
        cases h
      · next ctx hadjust =>
        have hinner := adjustHead_grow_drop (by omega) hadjust
        rw [hctx] at hinner
        split
        · intro h
          cases h
        split
        · intro h
          cases h
        intro h
        have hne : (Iphdr.read (x.ctx.data.drop l2Len)).ttl ≠ 0 := by
          intro hzero
          rw [hzero] at httl
          exact httl (by decide)
        refine ⟨redirectToIfindex_target h, fib, _,
          decreaseIpv4Ttl_oneHopFurther (by simp; omega) hne, ?_⟩
        change decreaseIpv4Ttl (overwrite (overwrite ctx.data 0 _) ethLen _) outerHdrLen = _
        rw [overwrite_zero, overwrite_append (by simp; rfl), ← List.append_assoc,
          decreaseIpv4Ttl_append (by simp; rfl), List.append_assoc, List.drop_drop]
        simp only [Ethhdr.toBytes_length, Ipv6hdr.toBytes_length]
        rw [← hinner]
        rfl

theorem checkDevMtu_ok {port len : ℕ} (h : (checkDevMtu env x port len).1.1 = .ok) :
    (checkDevMtu env x port len).2 = x ∧
      env.mtu port = some (checkDevMtu env x port len).1.2 ∧
      len ≤ (checkDevMtu env x port len).1.2 := by
  unfold checkDevMtu bpfCheckMtu at *
  dsimp only at *
  cases hmtu : env.mtu port with
  | none => simp [hmtu] at h
  | some mtu =>
    simp only [hmtu] at h ⊢
    split_ifs at h ⊢ with hgt
    all_goals simp_all

theorem effectiveMtu_le {wanMtu len : ℕ} (h : len ≤ effectiveMtu env m slot wanMtu) :
    len ≤ wanMtu ∧ (tunnelPmtuFor env m slot ≠ 0 → len ≤ tunnelPmtuFor env m slot) := by
  unfold effectiveMtu at h
  dsimp only at h
  split_ifs at h with hlearned
  · exact ⟨by omega, fun _ => h⟩
  · refine ⟨h, fun hne => ?_⟩
    rw [not_and] at hlearned
    have hge := hlearned hne
    omega

/-- A packet redirected through a slot's softwire is encapsulated there, and fits. -/
theorem encapInto_encapsulated (hl2 : l2Len ≤ 22) (hpkt : l2Len + iphdrLen ≤ x.ctx.data.length)
    (h : (encapInto env x l2Len slot).1 = .redirect target) (hwhole : target ≠ .fragPorts) :
    target = .txPort x.maps.b4Config.wanIfindex ∧
      Encapsulated env x.maps slot (x.ctx.data.drop l2Len) (encapInto env x l2Len slot).2.ctx.data := by
  revert h
  unfold encapInto
  split
  · intro h
    cases h
  · next cfg hcfg =>
    obtain ⟨hlt, hvalid, hslot⟩ := resolveSoftwire_getNextHop hcfg
    dsimp only
    generalize hlen : (Iphdr.read (x.ctx.data.drop l2Len)).totLen = totLen
    split
    · intro h
      cases h
    · next herror =>
      split
      · intro h
        exact absurd (encapFragmentOuter_target h) hwhole
      · next hfits =>
        rw [not_or, not_lt] at hfits
        have hok : (checkDevMtu env x cfg.wanIfindex (ipv6hdrLen + totLen.toNat)).1.1 = .ok := by
          cases hret : (checkDevMtu env x cfg.wanIfindex (ipv6hdrLen + totLen.toNat)).1.1 with
          | ok => rfl
          | fragNeeded => exact absurd hret hfits.1
          | error => exact absurd hret herror
        obtain ⟨hsame, hmtu, -⟩ := checkDevMtu_ok hok
        rw [hsame] at hfits ⊢
        obtain ⟨out, hclamped, hctx⟩ := applyMssClamp_clamped (by omega : l2Len ≤ x.ctx.data.length) cfg
        have hdrop : (applyMssClamp x l2Len cfg).ctx.data.drop l2Len = out := by
          rw [hctx, List.drop_left' (by simp; omega)]
        intro h
        obtain ⟨hwan, fib, out', hop, hframe⟩ := sendEncapsulated_frame hl2 (by
          rw [hctx]
          simp [hclamped.length]
          omega) h
        rw [hdrop] at hop
        obtain ⟨hdevice, hpath⟩ := effectiveMtu_le hfits.2
        subst hslot
        refine ⟨hwan, ⟨hlt, hvalid⟩, ⟨_, _, out', hframe, rfl, outerIpv6_version .., rfl, ?_, rfl, rfl,
          hclamped.handedOn hop⟩, ⟨_, hmtu, ?_⟩, ?_⟩
        · rw [hlen]
          exact UInt16.ofNat_toNat
        · rw [hlen]
          exact hdevice
        · rw [hlen]
          exact hpath

theorem Encapsulated.congr {m' : Maps} {pkt frame : Bytes}
    (hloader : m.toLoaderMaps = m'.toLoaderMaps) (hpmtus : m.tunnelPmtus = m'.tunnelPmtus)
    (h : Encapsulated env m slot pkt frame) : Encapsulated env m' slot pkt frame := by
  cases m
  cases m'
  cases hloader
  cases hpmtus
  exact ⟨h.resolved, h.framed, h.deviceMtu, h.pathMtu⟩

/-- What encap redirects whole is encapsulated in the slot picked for it. -/
theorem doXdpDsliteEncap_encapsulated (hparse : parseL2Ipv4 ctx.data = .ip l2Len)
    (h : (doXdpDsliteEncap env ⟨m, ctx⟩).1 = .redirect target) (hwhole : target ≠ .fragPorts) :
    target = .txPort m.b4Config.wanIfindex ∧
      Encapsulated env m (pickSoftwireSlot m env.now m.migrationCtrl (ctx.data.drop l2Len)).1
        (ctx.data.drop l2Len) (doXdpDsliteEncap env ⟨m, ctx⟩).2.ctx.data := by
  obtain ⟨hl2, hlen, hpkt⟩ := parseL2Ipv4_ip hparse
  cases hlan : m.lanConfigs ctx.ingressIfindex with
  | none =>
    simp only [doXdpDsliteEncap, hparse, encapIpv4, Maps.getLanConfig, hlan] at h
    cases h
  | some lan =>
    by_cases hb : bypasses env m.toLoaderMaps ctx lan (Iphdr.read (ctx.data.drop l2Len)) = true
    · simp only [doXdpDsliteEncap, hparse, encapIpv4, Maps.getLanConfig, hlan] at h
      rw [if_pos hb] at h
      cases h
    · have hmaps := pickSoftwireSlot_toLoaderMaps m env.now m.migrationCtrl (ctx.data.drop l2Len)
      rw [doXdpDsliteEncap_encapInto hparse hlan hb] at h ⊢
      obtain ⟨htarget, hencap⟩ := encapInto_encapsulated hl2 (by dsimp only; omega) h hwhole
      dsimp only at htarget
      rw [hmaps] at htarget
      exact ⟨htarget, hencap.congr hmaps (pickSoftwireSlot_tunnelPmtus ..)⟩

end Encap

structure Decapsulated (m : Maps) (pkt frame : Bytes) (ifindex : ℕ) : Prop where
  framed : ∃ (eth : Ethhdr) (out : Bytes), frame = eth.toBytes ++ out ∧ eth.hProto = ethPIp ∧
    HandedOn m.b4Config.mssClamp pkt out
  managed : (m.lanConfigs ifindex).isSome = true
  notWan : ifindex ≠ m.b4Config.wanIfindex

/-- An ICMP error of the B4 about the packet `pkt`, inside the softwire: Time Exceeded or
Fragmentation Needed, with the packet's first bytes. -/
def IcmpReply (b4 aftr : In6Addr) (pkt frame : Bytes) : Prop :=
  ∃ (eth : Ethhdr) (outer : Ipv6hdr) (iph : Iphdr) (type code : UInt8) (check : UInt16)
    (word : UInt32) (rest : Bytes),
    frame = eth.toBytes ++ (outer.toBytes ++ (iph.toBytes ++ (type :: code :: (be16 check ++
      (be32 word ++ (pkt.take icmpFragQuoteLen ++ rest)))))) ∧
    outer.nexthdr = ipprotoIpip ∧ outer.saddr = b4 ∧ outer.daddr = aftr ∧
    iph.protocol = ipprotoIcmp ∧ iph.saddr = b4WellKnownIpv4 ∧
    iph.daddr = (Iphdr.read pkt).saddr ∧
    (type = 11 ∧ code = 0 ∨ type = 3 ∧ code = 4) ∧ icmpFragQuoteLen ≤ pkt.length

section Decap
variable {env : Env} {x : Xdp} {m : Maps} {ctx : XdpMd} {off innerLen : ℕ} {cfg : B4Config}
  {fib : FibResult} {pkt : Bytes} {target : Target}

/-- The frame decap delivers: the link addresses of the next hop in front of the inner packet. -/
theorem stripOuter_frame (hlen : outerHdrLen + iphdrLen ≤ x.ctx.data.length)
    (h : (stripOuter x innerLen (some fib)).1 = .redirect target) :
    target = .txPort fib.ifindex ∧ ∃ out, OneHopFurther (x.ctx.data.drop outerHdrLen) out ∧
      (stripOuter x innerLen (some fib)).2.ctx.data =
        (Ethhdr.mk fib.dmac fib.smac ethPIp).toBytes ++ out := by
  revert h
  unfold stripOuter
  dsimp only
  split
  · intro h
    cases h
  · next ctx hadjust =>
    have hstripped : ctx.data.drop ethLen = x.ctx.data.drop outerHdrLen := by
      unfold XdpMd.adjustHead at hadjust
      rw [if_neg (by omega)] at hadjust
      dsimp only at hadjust
      split_ifs at hadjust
      cases hadjust
      dsimp only
      rw [List.drop_drop]
      rfl
    split
    · intro h
      cases h
    split
    · intro h
      cases h
    split
    · intro h
      cases h
    have hstore : overwrite ctx.data 0 (Ethhdr.mk fib.dmac fib.smac ethPIp).toBytes =
        (Ethhdr.mk fib.dmac fib.smac ethPIp).toBytes ++ x.ctx.data.drop outerHdrLen := by
      rw [overwrite_zero, Ethhdr.toBytes_length]
      exact congrArg _ hstripped
    split
    · intro h
      cases h
    · next httl =>
      intro h
      change ¬ (Iphdr.read ((overwrite ctx.data 0 _).drop ethLen)).ttl ≤ 1 at httl
      rw [hstore, List.drop_left' (by simp; rfl)] at httl
      have hne : (Iphdr.read (x.ctx.data.drop outerHdrLen)).ttl ≠ 0 := by
        intro hzero
        rw [hzero] at httl
        exact httl (by decide)
      refine ⟨redirectToIfindex_target h, _,
        decreaseIpv4Ttl_oneHopFurther (by simp; omega) hne, ?_⟩
      change decreaseIpv4Ttl (overwrite ctx.data 0 _) ethLen = _
      rw [hstore, decreaseIpv4Ttl_append (by simp; rfl)]

/-- Without a next hop the packet is left to the kernel. -/
theorem stripOuter_none_action (x : Xdp) (innerLen : ℕ) :
    (stripOuter x innerLen none).1 = .pass ∨ (stripOuter x innerLen none).1 = .aborted := by
  unfold stripOuter
  dsimp only
  repeat' split
  all_goals first | exact Or.inl rfl | exact Or.inr rfl

theorem checkDevMtu_ctx (port len : ℕ) : (checkDevMtu env x port len).2.ctx = x.ctx := by
  unfold checkDevMtu
  dsimp only
  split_ifs <;> rfl

theorem lookupLanNexthop_ok {iph : Iphdr}
    (h : (lookupLanNexthop env x cfg iph innerLen).1 = .ok fib) :
    fib.ifindex ≠ cfg.wanIfindex ∧ (x.maps.lanConfigs fib.ifindex).isSome = true := by
  unfold lookupLanNexthop at h
  extract_lets first tooBig answer at h
  split_ifs at h with hsuccess hwan hlan htoo
  rw [Maps.getLanConfig, Option.isNone_iff_eq_none] at hlan
  rw [← LanLookup.ok.inj h]
  exact ⟨hwan, Option.isSome_iff_ne_none.mpr hlan⟩

theorem lookupLanNexthop_ctx (iph : Iphdr) :
    (lookupLanNexthop env x cfg iph innerLen).2.ctx = x.ctx := by
  unfold lookupLanNexthop
  extract_lets first tooBig answer
  repeat' split
  all_goals rfl

theorem copyIpv4Quote_iphdr (hpkt : icmpFragQuoteLen ≤ pkt.length) :
    Iphdr.read (copyIpv4Quote pkt) = Iphdr.read pkt := by
  have hlen : icmpFragQuoteLen = 28 := rfl
  conv_rhs => rw [← List.take_append_drop icmpFragQuoteLen pkt]
  rw [Iphdr.read_append_left (by simp; omega)]
  rfl

theorem writeDsliteIcmp_frame (x : Xdp) (cfg : B4Config) (fib : FibResult) (quote msg : Bytes) :
    ∃ rest, (writeDsliteIcmp x cfg fib quote msg).ctx.data =
      (outerEth6 cfg fib true).toBytes ++
        ((outerIpv6 cfg.b4Addr cfg.aftrAddr ipprotoIpip icmpv4ErrorL3Len).toBytes ++
          ((innerIcmpIph quote).toBytes ++ (msg ++ rest))) := by
  change ∃ rest, overwrite (overwrite (overwrite (overwrite x.ctx.data 0 _) ethLen _)
    outerHdrLen _) (outerHdrLen + iphdrLen) msg = _
  rw [overwrite_zero, overwrite_append (by simp; rfl), ← List.append_assoc,
    overwrite_append (by simp; rfl), ← List.append_assoc, overwrite_append (by simp; rfl)]
  simp only [List.append_assoc]
  exact ⟨_, rfl⟩

/-- An ICMPv4 error is its header, whatever the checksum, and the quote. -/
theorem icmpv4Error_eq (type code : UInt8) (word : UInt32) (quote : Bytes) :
    ∃ csum, icmpv4Error type code word quote =
      type :: code :: (be16 csum ++ (be32 word ++ quote)) := ⟨_, rfl⟩

theorem writeDsliteIcmp_reply (x : Xdp) (cfg : B4Config) (fib : FibResult) {type code : UInt8}
    (word : UInt32) (htype : type = 11 ∧ code = 0 ∨ type = 3 ∧ code = 4)
    (hpkt : icmpFragQuoteLen ≤ pkt.length) :
    IcmpReply cfg.b4Addr cfg.aftrAddr pkt (writeDsliteIcmp x cfg fib (copyIpv4Quote pkt)
      (icmpv4Error type code word (copyIpv4Quote pkt))).ctx.data := by
  obtain ⟨rest, hframe⟩ := writeDsliteIcmp_frame x cfg fib (copyIpv4Quote pkt)
    (icmpv4Error type code word (copyIpv4Quote pkt))
  obtain ⟨check, hmsg⟩ := icmpv4Error_eq type code word (copyIpv4Quote pkt)
  simp only [hmsg, List.cons_append, List.append_assoc] at hframe
  rw [hmsg]
  refine ⟨_, _, _, type, code, check, word, rest, hframe, rfl, rfl, rfl, rfl, rfl, ?_, htype, hpkt⟩
  change (Iphdr.read (copyIpv4Quote pkt)).saddr = _
  rw [copyIpv4Quote_iphdr hpkt]

theorem sendDsliteIcmpTimeExceeded_reply
    (h : (sendDsliteIcmpTimeExceeded env x cfg off).1 = .redirect target) :
    target = .txPort cfg.wanIfindex ∧
      IcmpReply cfg.b4Addr cfg.aftrAddr (x.ctx.data.drop off)
        (sendDsliteIcmpTimeExceeded env x cfg off).2.ctx.data := by
  revert h
  unfold sendDsliteIcmpTimeExceeded
  dsimp only
  split
  · intro h
    cases h
  split
  · intro h
    cases h
  · next hshort =>
    have hquote : icmpFragQuoteLen ≤ (x.ctx.data.drop off).length := by
      rw [List.length_drop]
      omega
    repeat' split
    all_goals intro h
    all_goals try cases h
    exact ⟨redirectToIfindex_target h, writeDsliteIcmp_reply _ _ _ 0 (.inl ⟨rfl, rfl⟩) hquote⟩

theorem sendDsliteIcmpFragNeeded_reply {nextMtu : ℕ}
    (h : (sendDsliteIcmpFragNeeded env x cfg off nextMtu).1 = .redirect target) :
    target = .txPort cfg.wanIfindex ∧ IcmpReply cfg.b4Addr cfg.aftrAddr (x.ctx.data.drop off)
      (sendDsliteIcmpFragNeeded env x cfg off nextMtu).2.ctx.data := by
  revert h
  unfold sendDsliteIcmpFragNeeded
  dsimp only
  split
  · intro h
    cases h
  split
  · intro h
    cases h
  split
  · intro h
    cases h
  · next hshort =>
    have hquote : icmpFragQuoteLen ≤ (x.ctx.data.drop off).length := by
      change ¬ (_ ∨ x.ctx.data.length < _) at hshort
      rw [List.length_drop]
      omega
    repeat' split
    all_goals intro h
    all_goals try cases h
    exact ⟨redirectToIfindex_target h, writeDsliteIcmp_reply _ _ _ _ (.inr ⟨rfl, rfl⟩) hquote⟩

theorem tooBigForLan_reply {mtu : ℕ} (h : (tooBigForLan env x cfg off mtu).1 = .redirect target) :
    target = .txPort cfg.wanIfindex ∧
      IcmpReply cfg.b4Addr cfg.aftrAddr (x.ctx.data.drop off)
        (tooBigForLan env x cfg off mtu).2.ctx.data := by
  revert h
  unfold tooBigForLan
  split
  · exact sendDsliteIcmpFragNeeded_reply
  · intro h
    cases h

/-- What decap redirects from the LAN lookup on is its answer or the inner packet. -/
theorem deliverInner_redirect (hlen : outerHdrLen + iphdrLen ≤ x.ctx.data.length)
    (h : (deliverInner env x cfg outerHdrLen).1 = .redirect target) :
    target = .txPort cfg.wanIfindex ∧ IcmpReply cfg.b4Addr cfg.aftrAddr (x.ctx.data.drop outerHdrLen)
        (deliverInner env x cfg outerHdrLen).2.ctx.data ∨
      ∃ (fib : FibResult) (out : Bytes), target = .txPort fib.ifindex ∧
        fib.ifindex ≠ cfg.wanIfindex ∧
        (x.maps.lanConfigs fib.ifindex).isSome = true ∧
        OneHopFurther (x.ctx.data.drop outerHdrLen) out ∧
        (deliverInner env x cfg outerHdrLen).2.ctx.data =
          (Ethhdr.mk fib.dmac fib.smac ethPIp).toBytes ++ out := by
  revert h
  unfold deliverInner
  dsimp only
  generalize (Iphdr.read (x.ctx.data.drop outerHdrLen)).totLen.toNat = innerLen
  have hctx := @lookupLanNexthop_ctx env x innerLen cfg (Iphdr.read (x.ctx.data.drop outerHdrLen))
  have hok : ∀ fib, (lookupLanNexthop env x cfg (Iphdr.read (x.ctx.data.drop outerHdrLen))
      innerLen).1 = .ok fib → fib.ifindex ≠ cfg.wanIfindex ∧
        (x.maps.lanConfigs fib.ifindex).isSome = true := fun fib => lookupLanNexthop_ok
  generalize lookupLanNexthop env x cfg (Iphdr.read (x.ctx.data.drop outerHdrLen)) innerLen =
    lookup at hctx hok ⊢
  obtain ⟨answer, y⟩ := lookup
  dsimp only at hctx hok ⊢
  rw [← hctx] at hlen ⊢
  cases answer with
  | drop =>
    intro h
    cases h
  | fail =>
    intro h
    rcases stripOuter_none_action y innerLen with hpass | habort
    · rw [hpass] at h
      cases h
    · rw [habort] at h
      cases h
  | fragNeeded mtu =>
    dsimp only
    split
    · exact fun h => Or.inl (sendDsliteIcmpTimeExceeded_reply h)
    · exact fun h => Or.inl (tooBigForLan_reply h)
  | ok fib =>
    obtain ⟨hwan, hlan⟩ := hok fib rfl
    dsimp only
    split
    · exact fun h => Or.inl (sendDsliteIcmpTimeExceeded_reply h)
    · split
      · intro h
        obtain ⟨htarget, hreply⟩ := tooBigForLan_reply h
        rw [checkDevMtu_ctx] at hreply
        exact Or.inl ⟨htarget, hreply⟩
      · intro h
        cases h
      · next hmtu =>
        rw [(checkDevMtu_ok hmtu).1]
        intro h
        obtain ⟨htarget, out, hop, hframe⟩ := stripOuter_frame hlen h
        exact Or.inr ⟨fib, out, htarget, hwan, hlan, hop, hframe⟩

theorem validateDsliteIpv6_none (h : validateDsliteIpv6 ctx.data off = none) :
    off + iphdrLen ≤ ctx.data.length ∧
      iphdrLen ≤ (Iphdr.read (ctx.data.drop off)).totLen.toNat ∧
      off + (Iphdr.read (ctx.data.drop off)).totLen.toNat ≤ ctx.data.length := by
  unfold validateDsliteIpv6 at h
  dsimp only at h
  split_ifs at h
  exact ⟨by omega, by omega, by omega⟩

/-- Decap reads the packet it accepts at a fixed offset and looks for its LAN. -/
theorem decapCounted_of_some (env : Env) (h : decapPacket m ctx = some pkt) :
    ∃ nh, findDslitePeerNh m (Ipv6hdr.read (ctx.data.drop ethLen)) = some nh ∧
      pkt = ctx.data.drop outerHdrLen ∧ outerHdrLen + iphdrLen ≤ ctx.data.length ∧
      ∀ cfg, cfg = { m.b4Config with b4Addr := nh.b4Addr, aftrAddr := nh.aftrAddr } →
        decapCounted env ⟨m, ctx⟩ = deliverInner env
          (applyMssClamp ⟨touchReversed env m pkt, ctx⟩ outerHdrLen cfg) cfg outerHdrLen := by
  obtain ⟨l2Len, hparse, hproto, hpeer, hvalid, rfl⟩ := decapPacket_eq_some h
  obtain rfl := parseL2Ipv6_ip hparse
  obtain ⟨nh, hnh⟩ := Option.isSome_iff_exists.mp hpeer
  refine ⟨nh, hnh, rfl, (validateDsliteIpv6_none hvalid).1, ?_⟩
  rintro cfg rfl
  have hnhValid : nh.valid = true := (findDslitePeerNh_some hnh).1
  simp only [decapCounted, hparse, hproto, hnh, resolveSoftwire, hnhValid, hvalid, ne_eq,
    not_true_eq_false, if_false, if_true]
  rfl

/-- What decap does not accept is dropped or left to the kernel. -/
theorem decapCounted_of_none (env : Env) (h : decapPacket m ctx = none) :
    (decapCounted env ⟨m, ctx⟩).1 = .drop ∨ (decapCounted env ⟨m, ctx⟩).1 = .pass := by
  unfold decapPacket at h
  unfold decapCounted
  cases hparse : parseL2Ipv6 ctx.data with
  | malformed => exact Or.inl rfl
  | other => exact Or.inr rfl
  | ip l2Len =>
    simp only [hparse] at h ⊢
    split
    · exact Or.inr rfl
    · next hproto =>
      split
      · exact Or.inr rfl
      · next nh hnh =>
        split
        · exact Or.inr rfl
        · split
          · next action hbad =>
            unfold validateDsliteIpv6 at hbad
            dsimp only at hbad
            split_ifs at hbad
            all_goals cases hbad
            all_goals first | exact Or.inl rfl | exact Or.inr rfl
          · next hvalid =>
            rw [if_pos ⟨not_not.mp hproto, by rw [hnh]; rfl, hvalid⟩] at h
            cases h

theorem MssClamped.icmpReply {clamp : ℕ} {b4 aftr : In6Addr} {pkt' frame : Bytes}
    (hpkt : MssClamped clamp pkt pkt') (h : IcmpReply b4 aftr pkt' frame) :
    IcmpReply b4 aftr pkt frame := by
  unfold IcmpReply at *
  rw [hpkt.iphdr, hpkt.length, show pkt'.take icmpFragQuoteLen = _ from hpkt.quote] at h
  exact h

/-- How a packet that decap accepts reaches the LAN lookup: with the endpoints it came from and its
MSS clamped. -/
structure TakenOut (m : Maps) (ctx : XdpMd) (cfg : B4Config) (y : Xdp) : Prop where
  wan : cfg.wanIfindex = m.b4Config.wanIfindex
  b4 : cfg.b4Addr = (Ipv6hdr.read (ctx.data.drop ethLen)).daddr
  aftr : cfg.aftrAddr = (Ipv6hdr.read (ctx.data.drop ethLen)).saddr
  loader : y.maps.toLoaderMaps = m.toLoaderMaps
  ingress : y.ctx.ingressIfindex = ctx.ingressIfindex
  length : outerHdrLen + iphdrLen ≤ y.ctx.data.length
  packet : MssClamped m.b4Config.mssClamp (ctx.data.drop outerHdrLen)
    (y.ctx.data.drop outerHdrLen)

theorem handleXdpDsliteDecap_of_some (env : Env) (h : decapPacket m ctx = some pkt) :
    pkt = ctx.data.drop outerHdrLen ∧ ∃ cfg y, TakenOut m ctx cfg y ∧
      y = applyMssClamp ⟨touchReversed env (m.increaseStatsCount .decap) pkt, ctx⟩ outerHdrLen cfg ∧
      handleXdpDsliteDecap env ⟨m, ctx⟩ = deliverInner env y cfg outerHdrLen := by
  obtain ⟨nh, hnh, rfl, hlen, hrun⟩ :=
    @decapCounted_of_some (m.increaseStatsCount .decap) ctx pkt env h
  obtain ⟨-, hb4, haftr⟩ := findDslitePeerNh_some hnh
  generalize hcfg : { (m.increaseStatsCount .decap).b4Config with
    b4Addr := nh.b4Addr, aftrAddr := nh.aftrAddr } = cfg at hrun
  have hkept := applyMssClamp_kept
    ⟨touchReversed env (m.increaseStatsCount .decap) (ctx.data.drop outerHdrLen), ctx⟩ outerHdrLen cfg
  obtain ⟨out, hclamped, hctx⟩ := @applyMssClamp_clamped
    ⟨touchReversed env (m.increaseStatsCount .decap) (ctx.data.drop outerHdrLen), ctx⟩
    outerHdrLen (by dsimp only; omega) cfg
  refine ⟨rfl, cfg, _, ?_, rfl, hrun cfg rfl⟩
  subst hcfg
  exact
    { wan := rfl
      b4 := hb4.symm
      aftr := haftr.symm
      loader := (congrArg FlowView.loader (Maps.flowView_of_kept hkept)).trans
        (touchReversed_toLoaderMaps env (m.increaseStatsCount .decap) _)
      ingress := by rw [hctx]
      length := by
        rw [hctx]
        simp [hclamped.length]
        omega
      packet := by
        rw [hctx, List.drop_left' (by simp; omega)]
        exact hclamped }

/-- What decap redirects is its own answer into the softwire, or the inner packet to a LAN. -/
theorem handleXdpDsliteDecap_redirect
    (h : (handleXdpDsliteDecap env ⟨m, ctx⟩).1 = .redirect target) :
    target = .txPort m.b4Config.wanIfindex ∧
        IcmpReply (Ipv6hdr.read (ctx.data.drop ethLen)).daddr
          (Ipv6hdr.read (ctx.data.drop ethLen)).saddr (ctx.data.drop outerHdrLen)
          (handleXdpDsliteDecap env ⟨m, ctx⟩).2.ctx.data ∨
      ∃ ifindex, target = .txPort ifindex ∧ Decapsulated m (ctx.data.drop outerHdrLen)
        (handleXdpDsliteDecap env ⟨m, ctx⟩).2.ctx.data ifindex := by
  cases hpacket : decapPacket m ctx with
  | none =>
    rcases @decapCounted_of_none (m.increaseStatsCount .decap) ctx env hpacket with hdrop | hpass
    · cases hdrop.symm.trans h
    · cases hpass.symm.trans h
  | some pkt =>
    obtain ⟨-, cfg, y, hout, -, hrun⟩ := handleXdpDsliteDecap_of_some env hpacket
    rw [hrun] at h ⊢
    rcases deliverInner_redirect hout.length h with
      ⟨htarget, hreply⟩ | ⟨fib, out', htarget, hne, hlan, hop, hframe⟩
    · rw [hout.b4, hout.aftr] at hreply
      rw [hout.wan] at htarget
      exact Or.inl ⟨htarget, hout.packet.icmpReply hreply⟩
    · rw [hout.wan] at hne
      rw [hout.loader] at hlan
      exact Or.inr ⟨fib.ifindex, htarget, ⟨_, out', hframe, rfl, hout.packet.handedOn hop⟩, hlan, hne⟩

end Decap

/-- Softwire transparency: what encap redirects whole is the packet behind the outer headers of the
slot picked for it, within both MTUs; what decap redirects is its own ICMP answer into the softwire
or the inner packet, on a managed LAN. -/
theorem softwire_transparent (env : Env) (m : Maps) (ctx : XdpMd) (target : Target) :
    (∀ l2Len, parseL2Ipv4 ctx.data = .ip l2Len → target ≠ .fragPorts →
      (doXdpDsliteEncap env ⟨m, ctx⟩).1 = .redirect target →
      target = .txPort m.b4Config.wanIfindex ∧
        Encapsulated env m (pickSoftwireSlot m env.now m.migrationCtrl (ctx.data.drop l2Len)).1
          (ctx.data.drop l2Len) (doXdpDsliteEncap env ⟨m, ctx⟩).2.ctx.data) ∧
    ((handleXdpDsliteDecap env ⟨m, ctx⟩).1 = .redirect target →
      target = .txPort m.b4Config.wanIfindex ∧
          IcmpReply (Ipv6hdr.read (ctx.data.drop ethLen)).daddr
            (Ipv6hdr.read (ctx.data.drop ethLen)).saddr (ctx.data.drop outerHdrLen)
            (handleXdpDsliteDecap env ⟨m, ctx⟩).2.ctx.data ∨
        ∃ ifindex, target = .txPort ifindex ∧ Decapsulated m (ctx.data.drop outerHdrLen)
          (handleXdpDsliteDecap env ⟨m, ctx⟩).2.ctx.data ifindex) ∧
    ∀ (eth : Ethhdr) (outer : Ipv6hdr) (pkt : Bytes) (ifindex : ℕ),
      ctx.data = eth.toBytes ++ (outer.toBytes ++ pkt) → ifindex ≠ m.b4Config.wanIfindex →
      (handleXdpDsliteDecap env ⟨m, ctx⟩).1 = .redirect (.txPort ifindex) →
      ∃ (eth' : Ethhdr) (out : Bytes),
        (handleXdpDsliteDecap env ⟨m, ctx⟩).2.ctx.data = eth'.toBytes ++ out ∧
          HandedOn m.b4Config.mssClamp pkt out := by
  refine ⟨fun l2Len hparse hwhole h => doXdpDsliteEncap_encapsulated hparse h hwhole,
    handleXdpDsliteDecap_redirect, ?_⟩
  intro eth outer pkt ifindex hdata hne h
  have hpkt : ctx.data.drop outerHdrLen = pkt := by
    rw [hdata, ← List.append_assoc]
    exact List.drop_left' (by simp; rfl)
  rcases handleXdpDsliteDecap_redirect h with ⟨htarget, -⟩ | ⟨port, htarget, hdecap⟩
  · cases htarget
    exact absurd rfl hne
  · obtain ⟨eth', out, hframe, -, hon⟩ := hdecap.framed
    rw [hpkt] at hon
    exact ⟨eth', out, hframe, hon⟩

section Sample

def sampleAddr (n : UInt8) : In6Addr :=
  ⟨[0x20, 0x01, 0x0d, 0xb8] ++ List.replicate 11 0 ++ [n], rfl⟩

/-- A softwire from B4 1 to AFTR 2 over interface 2, and one LAN at interface 3. -/
def linkedMaps : Maps :=
  { b4Config := { wanIfindex := 2, mssClamp := 1420 }
    nextHops := fun slot => if slot = 0 then ⟨true, sampleAddr 1, sampleAddr 2⟩ else {}
    lanConfigs := fun ifindex => if ifindex = 3 then some ⟨0xc0a80101, 1500⟩ else none
    txPorts := fun ifindex => ifindex == 2 || ifindex == 3 }

def linkedEnv (egress : ℕ) : Env where
  fib p := match p.addrs with
    | .inet _ _ => { ret := .success, egress := egress }
    | .inet6 _ _ => { ret := .success, egress := 2 }
  mtu _ := some 1500
  now := 1000000000

def sampleIpv4 (ttl : UInt8) (saddr daddr : UInt32) : Bytes :=
  (Iphdr.mk 0x45 0 64 1 0 ttl 17 0 saddr daddr).toBytes ++ List.replicate 44 0

def uplinkFrame : XdpMd where
  data := (Ethhdr.mk default default ethPIp).toBytes ++ sampleIpv4 64 0xc0a8010a 0xcb007105
  headroom := List.replicate 64 0
  ingressIfindex := 3

def downlinkFrame (ttl : UInt8) : XdpMd where
  data := (Ethhdr.mk default default ethPIpv6).toBytes ++
    ((outerIpv6 (sampleAddr 2) (sampleAddr 1) ipprotoIpip 64).toBytes ++
      sampleIpv4 ttl 0xcb007105 0xc0a8010a)
  headroom := List.replicate 64 0
  ingressIfindex := 2

theorem softwire_transparent_linked :
    Encapsulated (linkedEnv 2) linkedMaps 0 (sampleIpv4 64 0xc0a8010a 0xcb007105)
        (doXdpDsliteEncap (linkedEnv 2) ⟨linkedMaps, uplinkFrame⟩).2.ctx.data ∧
      ∃ (eth : Ethhdr) (out : Bytes),
        (handleXdpDsliteDecap (linkedEnv 3) ⟨linkedMaps, downlinkFrame 64⟩).2.ctx.data =
          eth.toBytes ++ out ∧ HandedOn 1420 (sampleIpv4 64 0xcb007105 0xc0a8010a) out := by
  constructor
  · exact ((softwire_transparent (linkedEnv 2) linkedMaps uplinkFrame (.txPort 2)).1 14
      (by decide +kernel) (by decide) (by decide +kernel)).2
  · exact (softwire_transparent (linkedEnv 3) linkedMaps (downlinkFrame 64) (.txPort 3)).2.2 _ _ _ 3
      rfl (by decide) (by decide +kernel)

/-- A packet whose hops run out is answered, and the answer goes back to the WAN. -/
theorem handleXdpDsliteDecap_answers_on_wan :
    (handleXdpDsliteDecap (linkedEnv 3) ⟨linkedMaps, downlinkFrame 1⟩).1 = .redirect (.txPort 2) ∧
      ¬ ∃ (eth : Ethhdr) (out : Bytes),
        (handleXdpDsliteDecap (linkedEnv 3) ⟨linkedMaps, downlinkFrame 1⟩).2.ctx.data =
          eth.toBytes ++ out ∧ HandedOn 1420 (sampleIpv4 1 0xcb007105 0xc0a8010a) out := by
  constructor
  · decide +kernel
  · rintro ⟨eth, out, hframe, hon⟩
    have hlen : (handleXdpDsliteDecap (linkedEnv 3) ⟨linkedMaps, downlinkFrame 1⟩).2.ctx.data.length =
        110 := by decide +kernel
    have hpkt : (sampleIpv4 1 0xcb007105 0xc0a8010a).length = 64 := rfl
    rw [hframe, List.length_append, Ethhdr.toBytes_length, hon.length, hpkt] at hlen
    omega

end Sample

end Minuteman.Datapath
