import Minuteman.Datapath.Encap

/-!
# The WAN programs

`handle_xdp_dslite_decap` takes an IPv4 packet out of the softwire and
delivers it to its LAN; `handle_tunnel_icmpv6` relays an ICMPv6 error about a
softwire packet to the LAN host that caused it, learning the path MTU on the
way; `do_xdp_dslite_decap` is the entry program that chooses between them and
native IPv6 forwarding.
-/
namespace Minuteman.Datapath
open Library ByteString

/-- `validate_dslite_ipv6` on the inner packet at offset `off`: the verdict on a bad one. -/
def validateDsliteIpv6 (data : Bytes) (off : ℕ) : Option XdpAction :=
  let iph := Iphdr.read (data.drop off)
  if data.length < off + iphdrLen then some .drop
  else if iph.version ≠ 4 ∨ iph.ihl ≠ 5 then some .pass
  else if iph.totLen.toNat < iphdrLen then some .drop
  else if data.length < off + iph.totLen.toNat then some .drop
  else none

/-- `enum lan_lookup_result` with what each answer carries. -/
inductive LanLookup
  | fail
  | ok (fib : FibResult)
  | fragNeeded (mtu : ℕ)
  | drop

/-- `lookup_lan_nexthop`: a route too small for the packet is looked up again with a small length,
since the first answer names no egress. -/
def lookupLanNexthop (env : Env) (x : Xdp) (cfg : B4Config) (iph : Iphdr) (innerLen : ℕ) :
    LanLookup × Xdp :=
  let first := bpfFibLookup env (innerFibParams iph innerLen x.ctx.ingressIfindex)
  let tooBig := first.ret = .fragNeeded
  let fib := if tooBig then
      bpfFibLookup env
        { innerFibParams iph iphdrLen x.ctx.ingressIfindex with skipNeigh := true }
    else first
  if fib.ret = .success then
    if fib.ifindex = cfg.wanIfindex then (.fail, x.count .fibWrongIf)
    else if (x.maps.getLanConfig fib.ifindex).isNone then (.drop, x.count .decapMartian)
    else if tooBig then (.fragNeeded first.mtuResult, x)
    else (.ok fib, x.count .fibSuccess)
  else if fib.ret = .noNeigh then
    if fib.ifindex ≠ cfg.wanIfindex ∧ (x.maps.getLanConfig fib.ifindex).isSome then
      (.fail, x.count .fibNoNeigh)
    else (.drop, x.count .decapMartian)
  else (.fail, x.count .fibFail)

def ipv4HasDf (iph : Iphdr) : Bool := iph.fragOff &&& ipDf != 0

/-- The next-hop MTU of a reply: at least `ICMPV4_MIN_MTU`, at most what its field holds. -/
def clampNextMtu (mtu : ℕ) : ℕ := min (max mtu 68) 0xffff

/-- Too big for the LAN: an error to the sender, or the kernel's own fragmentation. -/
def tooBigForLan (env : Env) (x : Xdp) (cfg : B4Config) (off mtu : ℕ) : XdpAction × Xdp :=
  if ipv4HasDf (Iphdr.read (x.ctx.data.drop off)) then
    sendDsliteIcmpFragNeeded env x cfg off (clampNextMtu mtu)
  else x.exit .decapFragSlow .pass

/-- The end of `handle_xdp_dslite_decap`: strip the outer header and deliver, through the kernel
when there is no next hop `fib`. -/
def stripOuter (x : Xdp) (innerLen : ℕ) (fib : Option FibResult) : XdpAction × Xdp :=
  let oldEth := Ethhdr.read x.ctx.data
  match x.ctx.adjustHead (ipv6hdrLen : ℤ) with
  | none => x.exit .abort .aborted
  | some ctx =>
    let x : Xdp := { x with ctx }
    if x.ctx.data.length < ethLen then x.exit .abort .aborted
    else if x.ctx.data.length < ethLen + iphdrLen then x.exit .abort .aborted
    else if x.ctx.data.length < ethLen + innerLen then x.exit .abort .aborted
    else
      match fib with
      | none => (x.store 0 { oldEth with hProto := ethPIp : Ethhdr }.toBytes).exit .decapSlow .pass
      | some fib =>
        let x := x.store 0 (Ethhdr.mk fib.dmac fib.smac ethPIp).toBytes
        if (Iphdr.read (x.ctx.data.drop ethLen)).ttl ≤ 1 then x.exit .pass .pass
        else
          redirectToIfindex
            { x with ctx := { x.ctx with data := decreaseIpv4Ttl x.ctx.data ethLen } }
            fib.ifindex .redirectLan

/-- `handle_xdp_dslite_decap` from the LAN lookup on, for the inner packet at offset `off`. -/
def deliverInner (env : Env) (x : Xdp) (cfg : B4Config) (off : ℕ) : XdpAction × Xdp :=
  let iph := Iphdr.read (x.ctx.data.drop off)
  let innerLen := iph.totLen.toNat
  let lookup := lookupLanNexthop env x cfg iph innerLen
  let x := lookup.2
  match lookup.1 with
  | .drop => (.drop, x)
  | .fail => stripOuter x innerLen none
  | .fragNeeded mtu =>
    if iph.ttl ≤ 1 then sendDsliteIcmpTimeExceeded env x cfg off else tooBigForLan env x cfg off mtu
  | .ok fib =>
    if iph.ttl ≤ 1 then sendDsliteIcmpTimeExceeded env x cfg off
    else
      let checked := checkDevMtu env x fib.ifindex innerLen
      let x := checked.2
      match checked.1.1 with
      | .fragNeeded => tooBigForLan env x cfg off checked.1.2
      | .error => (.drop, x)
      | .ok => stripOuter x innerLen (some fib)

def touchReversed (env : Env) (m : Maps) (pkt : Bytes) : Maps :=
  if migState m.getMigrationCtrl = migSteady then m
  else (touchFlowAffinity m env.now m.getMigrationCtrl (buildFlowKey pkt true)).2

/-- `handle_xdp_dslite_decap` after it has counted the packet. -/
def decapCounted (env : Env) (x : Xdp) : XdpAction × Xdp :=
  match parseL2Ipv6 x.ctx.data with
  | .malformed => x.exit .drop .drop
  | .other => x.exit .decapPass .pass
  | .ip l2Len =>
    let outer := Ipv6hdr.read (x.ctx.data.drop l2Len)
    let off := l2Len + ipv6hdrLen
    if outer.nexthdr ≠ ipprotoIpip then x.exit .decapNotDslite .pass
    else
      match findDslitePeerNh x.maps outer with
      | none => x.exit .decapPass .pass
      | some nh =>
        match resolveSoftwire x.maps (some nh) with
        | none => x.exit .noConfig .pass
        | some cfg =>
          match validateDsliteIpv6 x.ctx.data off with
          | some action => x.exit .decapBadPacket action
          | none =>
            let x : Xdp := { x with maps := touchReversed env x.maps (x.ctx.data.drop off) }
            deliverInner env (applyMssClamp x off cfg) cfg off

def handleXdpDsliteDecap (env : Env) (x : Xdp) : XdpAction × Xdp := decapCounted env (x.count .decap)

/-- `learn_tunnel_pmtu`: a smaller MTU is always taken, a larger one once the reading is old. -/
def learnTunnelPmtu (env : Env) (x : Xdp) (slot mtu : ℕ) : Xdp :=
  let mtu := max mtu ipv6MinMtu
  let e := x.maps.tunnelPmtus slot
  if e.updatedNs ≠ 0 ∧ mtu ≥ e.mtu ∧ elapsedNs env.now e.updatedNs < tunnelPmtuExpiryNs then x
  else
    { x with maps :=
        { x.maps with tunnelPmtus := Function.update x.maps.tunnelPmtus slot ⟨mtu, env.now⟩ }
      }.count .tunnelPmtu

def findDsliteLocalSlot (m : Maps) (quoted : Ipv6hdr) (errorDst : In6Addr) : Option ℕ :=
  (List.range numNextHops).find? fun slot =>
    let nh := m.nextHops slot
    nh.valid && quoted.saddr == nh.b4Addr && quoted.daddr == nh.aftrAddr && errorDst == nh.b4Addr

/-- Where the quoted packet's IPv4 header starts, if the quote is one of our softwire packets or
the first fragment of one. -/
def quotedInner (data : Bytes) (quotedOff : ℕ) : Option ℕ :=
  let quoted := Ipv6hdr.read (data.drop quotedOff)
  let off := quotedOff + ipv6hdrLen
  if quoted.nexthdr = ipprotoIpip then some off
  else if quoted.nexthdr = ipprotoFragment then
    let fh := FragHdr.read (data.drop off)
    if data.length < off + fragHdrLen then none
    else if fh.fragOff &&& 0xfff8 ≠ 0 ∨ fh.nexthdr ≠ ipprotoIpip then none
    else some (off + fragHdrLen)
  else none

/-- The ICMPv4 type, code and word an ICMPv6 error is relayed as. -/
def relayedError (type code : UInt8) (extra : UInt32) : Option (UInt8 × UInt8 × UInt32) :=
  if type = 2 then some (3, 4, UInt32.ofNat (clampNextMtu (extra.toNat - ipv6hdrLen)))
  else if type = 3 then some (11, if code = 1 then 1 else 0, 0)
  else if code = 0 ∨ code = 3 then some (3, 1, 0)
  else if code = 1 ∨ code = 5 then some (3, 10, 0)
  else none

def relayFibParams (ctx : XdpMd) (quote : Bytes) : FibParams where
  l4Protocol := ipprotoIcmp
  totLen := icmpv4ErrorL3Len
  addrs := .inet 0 (Iphdr.read quote).saddr
  ifindex := ctx.ingressIfindex

/-- `handle_tunnel_icmpv6` from the choice of the relayed error on. -/
def relayTunnelError (env : Env) (x : Xdp) (l2Len : ℕ) (type code : UInt8) (extra : UInt32)
    (quote : Bytes) : XdpAction × Xdp :=
  let wan := x.maps.b4Config.wanIfindex
  let fib := bpfFibLookup env (relayFibParams x.ctx quote)
  let frameLen := ethLen + icmpv4ErrorL3Len
  match relayedError type code extra with
  | none => x.exit .tunnelIcmpPass .pass
  | some (relType, relCode, relExtra) =>
    if !icmpErrorEligible quote then x.exit .tunnelIcmpDrop .drop
    else if fib.ret ≠ .success ∨ fib.ifindex = wan ∨ (x.maps.getLanConfig fib.ifindex).isNone then
      x.exit .tunnelIcmpPass .pass
    else if l2Len ≠ ethLen ∨ x.ctx.data.length < frameLen then x.exit .tunnelIcmpPass .pass
    else
      let allowed := icmpErrorAllowed env x
      let x := allowed.2
      if !allowed.1 then x.exit .icmpRateLimited .drop
      else
        match if x.ctx.data.length > frameLen then x.ctx.adjustTail (x.ctx.data.length - frameLen)
          else some x.ctx with
        | none => x.exit .abort .aborted
        | some ctx =>
          let x : Xdp := { x with ctx }
          if x.ctx.data.length < frameLen then x.exit .abort .aborted
          else
            let x := writeLanIcmpv4Error x fib quote relType relCode relExtra
            redirectToIfindex (x.count .tunnelIcmpRelay) fib.ifindex .redirectLan

/-- The lookup that shows a quoted source to belong to a managed LAN. -/
def sourceFibParams (ctx : XdpMd) (quote : Bytes) : FibParams where
  totLen := iphdrLen
  addrs := .inet 0 (Iphdr.read quote).saddr
  ifindex := ctx.ingressIfindex
  skipNeigh := true

/-- `handle_tunnel_icmpv6`; `none` stands for `TUNNEL_ICMP_NOT_MINE`. -/
def handleTunnelIcmpv6 (env : Env) (x : Xdp) (l2Len : ℕ) : Option (XdpAction × Xdp) :=
  let data := x.ctx.data
  let ip6h := Ipv6hdr.read (data.drop l2Len)
  let icmpOff := l2Len + ipv6hdrLen
  let type := byteAt data icmpOff
  let code := byteAt data (icmpOff + 1)
  let extra := be32At data (icmpOff + 4)
  let quotedOff := icmpOff + 8
  if data.length < quotedOff then none
  else if type ≠ 1 ∧ type ≠ 2 ∧ type ≠ 3 then none
  else if data.length < quotedOff + ipv6hdrLen then none
  else
    match findDsliteLocalSlot x.maps (Ipv6hdr.read (data.drop quotedOff)) ip6h.daddr with
    | none => none
    | some slot =>
      match quotedInner data quotedOff with
      | none => some (x.exit .tunnelIcmpPass .pass)
      | some innerOff =>
        let inner := Iphdr.read (data.drop innerOff)
        let quote := copyIpv4Quote (data.drop innerOff)
        let source := bpfFibLookup env (sourceFibParams x.ctx quote)
        if data.length < innerOff + icmpFragQuoteLen ∨ inner.version ≠ 4 ∨ inner.ihl ≠ 5 then
          some (x.exit .tunnelIcmpPass .pass)
        else if source.ret ≠ .success ∨ source.ifindex = x.maps.b4Config.wanIfindex ∨
            (x.maps.getLanConfig source.ifindex).isNone then
          some (x.exit .tunnelIcmpDrop .drop)
        else if type = 2 then
          let x := learnTunnelPmtu env x slot extra.toNat
          if !ipv4HasDf inner then some (x.exit .tunnelIcmpDrop .drop)
          else some (relayTunnelError env x l2Len type code extra quote)
        else some (relayTunnelError env x l2Len type code extra quote)

def forwardNative (env : Env) (x : Xdp) (l2Len : ℕ) : XdpAction × Xdp :=
  match resolveActiveSoftwire x.maps with
  | none => (.pass, x)
  | some cfg6 =>
    let fanned := maybeRedirectIpv6ToCpu x (x.ctx.data.drop l2Len)
    match fanned.1 with
    | some action => (action, fanned.2)
    | none => handleIpv6Forward env fanned.2 l2Len cfg6

def doXdpDsliteDecap (env : Env) (x : Xdp) : XdpAction × Xdp :=
  match parseL2Ipv6 x.ctx.data with
  | .malformed => x.exit .drop .drop
  | .other => x.exit .decapPass .pass
  | .ip l2Len =>
    let outer := Ipv6hdr.read (x.ctx.data.drop l2Len)
    if outer.nexthdr = ipprotoFragment ∧ (findDslitePeerNh x.maps outer).isSome then
      x.exit .decapReasmPass .pass
    else if outer.nexthdr = ipprotoIcmpv6 then
      (handleTunnelIcmpv6 env x l2Len).getD (forwardNative env x l2Len)
    else if outer.nexthdr ≠ ipprotoIpip then forwardNative env x l2Len
    else if (findDslitePeerNh x.maps outer).isNone then (.pass, x)
    else
      match validateDsliteIpv6 x.ctx.data (l2Len + ipv6hdrLen) with
      | some action => x.exit .decapBadPacket action
      | none =>
        match maybeRedirectToCpu x.maps (x.ctx.data.drop (l2Len + ipv6hdrLen)) with
        | some action => (action, x)
        | none => handleXdpDsliteDecap env x

/-! Apart from feeding the flow table, none of this touches it. -/

@[simp] theorem lookupLanNexthop_kept (env : Env) (x : Xdp) (cfg : B4Config) (iph : Iphdr)
    (innerLen : ℕ) :
    (lookupLanNexthop env x cfg iph innerLen).2.maps.kept = x.maps.kept := by
  unfold lookupLanNexthop
  extract_lets first tooBig fib
  repeat' split
  all_goals simp

@[simp] theorem tooBigForLan_kept (env : Env) (x : Xdp) (cfg : B4Config) (off mtu : ℕ) :
    (tooBigForLan env x cfg off mtu).2.maps.kept = x.maps.kept := by
  unfold tooBigForLan
  split
  all_goals simp

@[simp] theorem stripOuter_kept (x : Xdp) (innerLen : ℕ) (fib : Option FibResult) :
    (stripOuter x innerLen fib).2.maps.kept = x.maps.kept := by
  unfold stripOuter
  dsimp only
  repeat' split
  all_goals simp

@[simp] theorem deliverInner_kept (env : Env) (x : Xdp) (cfg : B4Config) (off : ℕ) :
    (deliverInner env x cfg off).2.maps.kept = x.maps.kept := by
  unfold deliverInner
  dsimp only
  repeat' split
  all_goals simp

def learnedPmtus (pmtus : ℕ → TunnelPmtu) (now slot mtu : ℕ) : ℕ → TunnelPmtu :=
  if (pmtus slot).updatedNs ≠ 0 ∧ max mtu ipv6MinMtu ≥ (pmtus slot).mtu ∧
      elapsedNs now (pmtus slot).updatedNs < tunnelPmtuExpiryNs then pmtus
  else Function.update pmtus slot ⟨max mtu ipv6MinMtu, now⟩

def pmtusAfter (pmtus : ℕ → TunnelPmtu) (now : ℕ) (tooBig : Option (ℕ × ℕ)) : ℕ → TunnelPmtu :=
  match tooBig with
  | none => pmtus
  | some (slot, mtu) => learnedPmtus pmtus now slot mtu

@[simp] theorem learnTunnelPmtu_kept (env : Env) (x : Xdp) (slot mtu : ℕ) :
    (learnTunnelPmtu env x slot mtu).maps.kept =
      { x.maps.kept with pmtus := learnedPmtus x.maps.tunnelPmtus env.now slot mtu } := by
  unfold learnTunnelPmtu learnedPmtus
  dsimp only
  split_ifs
  · rfl
  · rw [Xdp.count_maps, Maps.kept_increaseStatsCount (by decide)]
    rfl

@[simp] theorem relayTunnelError_kept (env : Env) (x : Xdp) (l2Len : ℕ) (type code : UInt8)
    (extra : UInt32) (quote : Bytes) :
    (relayTunnelError env x l2Len type code extra quote).2.maps.kept = x.maps.kept := by
  unfold relayTunnelError
  dsimp only
  repeat' split
  all_goals simp

@[simp] theorem forwardNative_kept (env : Env) (x : Xdp) (l2Len : ℕ) :
    (forwardNative env x l2Len).2.maps.kept = x.maps.kept := by
  unfold forwardNative
  dsimp only
  repeat' split
  all_goals simp

/-- The Packet Too Big message about a softwire packet that `handle_tunnel_icmpv6` takes on, with
the slot it is about. -/
def tunnelTooBig (env : Env) (m : Maps) (ctx : XdpMd) (l2Len : ℕ) : Option (ℕ × ℕ) :=
  let icmpOff := l2Len + ipv6hdrLen
  let quotedOff := icmpOff + 8
  if ctx.data.length < quotedOff + ipv6hdrLen ∨ byteAt ctx.data icmpOff ≠ 2 then none
  else
    match findDsliteLocalSlot m (Ipv6hdr.read (ctx.data.drop quotedOff))
      (Ipv6hdr.read (ctx.data.drop l2Len)).daddr, quotedInner ctx.data quotedOff with
    | some slot, some innerOff =>
      let inner := Iphdr.read (ctx.data.drop innerOff)
      let source := bpfFibLookup env (sourceFibParams ctx (copyIpv4Quote (ctx.data.drop innerOff)))
      if ctx.data.length < innerOff + icmpFragQuoteLen ∨ inner.version ≠ 4 ∨ inner.ihl ≠ 5 ∨
          source.ret ≠ .success ∨ source.ifindex = m.b4Config.wanIfindex ∨
          (m.getLanConfig source.ifindex).isNone then none
      else some (slot, (be32At ctx.data (icmpOff + 4)).toNat)
    | _, _ => none

theorem handleTunnelIcmpv6_kept {env : Env} {x : Xdp} {l2Len : ℕ} {r : XdpAction × Xdp}
    (h : handleTunnelIcmpv6 env x l2Len = some r) :
    r.2.maps.kept = { x.maps.kept with
      pmtus := pmtusAfter x.maps.tunnelPmtus env.now (tunnelTooBig env x.maps x.ctx l2Len) } := by
  unfold handleTunnelIcmpv6 at h
  unfold pmtusAfter tunnelTooBig
  dsimp only at h ⊢
  by_cases htwo : byteAt x.ctx.data (l2Len + ipv6hdrLen) = 2
  · simp only [htwo, ne_eq, not_true_eq_false, or_false, and_false, false_and, if_false, if_true] at h ⊢
    split_ifs at h with hshort hquote
    rw [if_neg hquote]
    split at h
    · cases h
    · next slot hslot =>
      split at h
      · next hinner =>
        cases h
        simp only [hslot, hinner]
        exact Maps.kept_increaseStatsCount (by decide) x.maps
      · next innerOff hinner =>
        simp only [hslot, hinner]
        split_ifs at h with hbad hsource hdf
        · cases h
          rw [if_pos (by tauto)]
          exact Maps.kept_increaseStatsCount (by decide) x.maps
        · cases h
          rw [if_pos (by tauto)]
          exact Maps.kept_increaseStatsCount (by decide) x.maps
        · cases h
          rw [if_neg (by tauto)]
          simp
        · cases h
          rw [if_neg (by tauto)]
          simp
  · rw [if_pos (Or.inr htwo)]
    change r.2.maps.kept = x.maps.kept
    repeat' split at h
    all_goals cases h
    all_goals first | contradiction | simp

theorem tunnelTooBig_of_not_mine {env : Env} {x : Xdp} {l2Len : ℕ}
    (h : handleTunnelIcmpv6 env x l2Len = none) : tunnelTooBig env x.maps x.ctx l2Len = none := by
  unfold handleTunnelIcmpv6 at h
  unfold tunnelTooBig
  dsimp only at h ⊢
  split_ifs with hbad
  · rfl
  · rw [not_or, not_not] at hbad
    rw [if_neg (by omega), if_neg (by simp [hbad.2]), if_neg hbad.1] at h
    split at h
    · next hslot => simp only [hslot]
    · repeat' split at h
      all_goals cases h

end Minuteman.Datapath
