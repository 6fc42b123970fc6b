import Minuteman.Datapath.ErrorSteps

/-!
# Native IPv6, inline and behind software RSS

IPv6 that the softwire paths do not claim is routed by the program it arrives
at, or by a second program on the CPU it is fanned out to. The second stage
derives everything from the frame again, so both come to the same; only the
tokens for ICMP errors are each CPU's own.
-/
namespace Minuteman.Datapath
open Library ByteString

def result (r : XdpAction × Xdp) : XdpAction × Bytes := (r.1, r.2.ctx.data)

def Maps.inlined (m : Maps) : Maps :=
  { m with ipv6RssConfig := { m.ipv6RssConfig with enabled := false } }

/-- An IPv6 frame that no softwire path of the program claims. -/
def Native (program : Program) (env : Env) (m : Maps) (ctx : XdpMd) : Prop :=
  let ip6h := Ipv6hdr.read (ctx.data.drop ethLen)
  parseL2Ipv6 ctx.data = .ip ethLen ∧
    match program with
    | .dsliteEncap => parseL2Ipv4 ctx.data = .other
    | .dsliteDecap =>
      (ip6h.nexthdr = ipprotoFragment ∨ ip6h.nexthdr = ipprotoIpip →
        findDslitePeerNh m ip6h = none) ∧
      (ip6h.nexthdr = ipprotoIcmpv6 → handleTunnelIcmpv6 env ⟨m, ctx⟩ ethLen = none)
    | _ => False

/-- The frame given to the program, and on to the second stage if the program fans it out; that
stage finds the maps `m'` and the kernel's answers `env'`. -/
def throughRss (program : Program) (env env' : Env) (m m' : Maps) (ctx : XdpMd) :
    XdpAction × Xdp :=
  let first := program.run env ⟨m, ctx⟩
  match first.1 with
  | .redirect (.cpuV6 _) => doXdpIpv6FwdCpu env' ⟨m', first.2.ctx⟩
  | _ => first

/-- An address of a packet in transit: not unspecified, loopback, multicast or link-local. -/
def TransitAddr (a : In6Addr) : Prop :=
  UnicastIpv6 a ∧ ¬ (byteAt a.bytes 0 = 0xfe ∧ byteAt a.bytes 1 &&& 0xc0 = 0x80)

/-- The frame `out` for `port` is the frame of `ctx` one hop further. -/
structure Forwarded (m : Maps) (ctx : XdpMd) (port : ℕ) (out : Bytes) : Prop where
  source : TransitAddr (Ipv6hdr.read (ctx.data.drop ethLen)).saddr
  destination : TransitAddr (Ipv6hdr.read (ctx.data.drop ethLen)).daddr
  extension : (Ipv6hdr.read (ctx.data.drop ethLen)).nexthdr ∉
    [ipprotoHopopts, ipprotoRouting, ipprotoFragment, ipprotoDstopts]
  hops : 2 ≤ (Ipv6hdr.read (ctx.data.drop ethLen)).hopLimit.toNat
  managed : port = m.b4Config.wanIfindex ∨ (m.getLanConfig port).isSome
  elsewhere : port ≠ ctx.ingressIfindex
  length : out.length = ctx.data.length
  hopLimit : (byteAt out (ethLen + 7)).toNat = (byteAt ctx.data (ethLen + 7)).toNat - 1
  others : ∀ i, 12 ≤ i → i ≠ ethLen + 7 → out[i]? = ctx.data[i]?

/-- A native packet is redirected one hop further, or a Packet Too Big about it goes back to where
it came from. -/
def RedirectsNative (env : Env) (m : Maps) (ctx : XdpMd) (r : XdpAction × Bytes) : Prop :=
  ∀ target, r.1 = .redirect target →
    (∃ port, target = .txPort port ∧ Forwarded m ctx port r.2) ∨
      TooBigForRoute env ctx ∧ target = .txPort ctx.ingressIfindex ∧
        TooBigError (ctx.data.drop ethLen) r.2

section Step
variable {env env' : Env} {x y : Xdp} {cfg cfg' : B4Config}

/-- What a packet too big for its route comes to, given the answer of the rate limit. -/
def tooBigResult (m : Maps) (ctx : XdpMd) (src6 : In6Addr) (mtu : ℕ) (allowed : Bool) :
    XdpAction × Bytes :=
  let cut : XdpMd := { ctx with data := ctx.data.take (ethLen + icmpv6PtbReplyL3Len) }
  if ipv6AddrIsUnspecified src6 then (.pass, ctx.data)
  else if !allowed then (.drop, ctx.data)
  else if ctx.data.length < ethLen + icmpv6PtbReplyL3Len then (.aborted, ctx.data)
  else
    (redirectTxPort m ctx.ingressIfindex,
      (writeIcmpv6PktTooBig ⟨m, cut⟩ ethLen (copyIpv6Quote (ctx.data.drop ethLen)) src6
        (max mtu ipv6MinMtu)).ctx.data)

theorem sendIcmpv6PktTooBig_result (env : Env) (x : Xdp) (src6 : In6Addr) (mtu : ℕ) :
    result (sendIcmpv6PktTooBig env x ethLen src6 mtu) =
      tooBigResult x.maps x.ctx src6 mtu (decide ((x.maps.errorView.bucket env).tokens ≠ 0)) := by
  obtain ⟨y, hy, hctx, hports, -, hcase⟩ := icmpErrorAllowed_cases env x
  have hquote : icmpv6PtbQuoteLen = 48 := rfl
  have hreply : icmpv6PtbReplyL3Len = 96 := rfl
  have heth : ethLen = 14 := rfl
  have hsame : ∀ action, result (y.exit .abort action) = (action, x.ctx.data) :=
    fun _ => Prod.ext rfl (congrArg XdpMd.data hctx)
  have hgrant : decide ((x.maps.errorView.bucket env).tokens ≠ 0) = (icmpErrorAllowed env x).1 := by
    rcases hcase with ⟨hallowed, htoken⟩ | ⟨hallowed, htoken⟩
    · simp [hallowed, htoken]
    · simp [hallowed, htoken]
  rw [hgrant]
  unfold sendIcmpv6PktTooBig tooBigResult
  simp only [hy]
  split
  · rfl
  cases (icmpErrorAllowed env x).1 with
  | false => exact Prod.ext rfl (congrArg XdpMd.data hctx)
  | true =>
    simp only [Bool.not_true, Bool.false_eq_true, if_false]
    rw [if_neg (by decide), hctx]
    by_cases hfits : x.ctx.data.length < ethLen + icmpv6PtbReplyL3Len
    · rw [if_pos hfits]
      split
      · exact hsame _
      · exact hsame _
    · rw [if_neg hfits, if_neg (by omega), if_neg (by omega),
        XdpMd.adjustTail_to (by decide) (by omega)]
      dsimp only
      rw [if_neg (by rw [List.length_take]; omega)]
      refine Prod.ext ?_ rfl
      change redirectTxPort y.maps x.ctx.ingressIfindex = redirectTxPort x.maps x.ctx.ingressIfindex
      rw [redirectTxPort, redirectTxPort, hports]

theorem bpfFibLookup_congr (h : env'.fib = env.fib) (p : FibParams) :
    bpfFibLookup env' p = bpfFibLookup env p := by
  simp only [bpfFibLookup, h]

/-- The step depends on the frame, the routes, the loader's maps and, for a packet too big for its
route, on the answer of the rate limit. -/
theorem handleIpv6Forward_congr {m m' : Maps} {ctx : XdpMd} (hfib : env'.fib = env.fib)
    (hlan : m'.lanConfigs = m.lanConfigs) (hports : m'.txPorts = m.txPorts)
    (htoken : TooBigForRoute env ctx →
      ((m'.errorView.bucket env').tokens = 0 ↔ (m.errorView.bucket env).tokens = 0)) :
    result (handleIpv6Forward env' ⟨m', ctx⟩ ethLen cfg) =
      result (handleIpv6Forward env ⟨m, ctx⟩ ethLen cfg) := by
  have hport : ∀ port, redirectTxPort m' port = redirectTxPort m port := by
    intro port
    rw [redirectTxPort, redirectTxPort, hports]
  have hconfig : ∀ port, m'.getLanConfig port = m.getLanConfig port := fun port => congrFun hlan port
  unfold handleIpv6Forward
  simp only [bpfFibLookup_congr hfib, hconfig]
  split
  · rfl
  next hforward =>
  split
  · rfl
  next hhops =>
  split
  · next hfrag =>
    rw [sendIcmpv6PktTooBig_result, sendIcmpv6PktTooBig_result]
    have hbig : TooBigForRoute env ctx := ⟨by simpa using hforward, UInt8.not_le.mp hhops, hfrag⟩
    have hgrant : decide ((m'.errorView.bucket env').tokens ≠ 0) =
        decide ((m.errorView.bucket env).tokens ≠ 0) := by
      rw [decide_eq_decide]
      exact not_congr (htoken hbig)
    rw [hgrant, tooBigResult, tooBigResult, hport]
    rfl
  split
  · split
    · rfl
    · rfl
  split
  · rfl
  split
  · rfl
  by_cases hshort : ctx.data.length < ethLen ∨ ctx.data.length < ethLen + ipv6hdrLen
  · refine (congrArg result (if_pos hshort)).trans
      (Eq.trans ?_ (congrArg result (if_pos hshort)).symm)
    rfl
  · refine (congrArg result (if_neg hshort)).trans
      (Eq.trans ?_ (congrArg result (if_neg hshort)).symm)
    exact Prod.ext (hport _) rfl

theorem transitAddr_of {a : In6Addr} (hmulti : isMulticast6 a = false)
    (hlink : isLinkLocal a = false) (hloop : ipv6AddrIsLoopback a = false)
    (hzero : ipv6AddrIsUnspecified a = false) : TransitAddr a := by
  simp only [isMulticast6, isLinkLocal, ipv6AddrIsLoopback, ipv6AddrIsUnspecified,
    Bool.and_eq_false_iff, beq_eq_false_iff_ne] at hmulti hlink hloop hzero
  refine ⟨⟨?_, hloop, hmulti⟩, by tauto⟩
  intro hbytes
  apply hzero
  cases a
  simp only [FixedBytes.zero, FixedBytes.mk.injEq]
  exact hbytes

/-- Only what is in transit is forwardable. -/
theorem ipv6IsForwardable_transit {ip6h : Ipv6hdr} (h : ipv6IsForwardable ip6h = true) :
    TransitAddr ip6h.saddr ∧ TransitAddr ip6h.daddr ∧
      ip6h.nexthdr ∉ [ipprotoHopopts, ipprotoRouting, ipprotoFragment, ipprotoDstopts] := by
  simp only [ipv6IsForwardable, Bool.if_false_left, Bool.and_eq_true, Bool.not_eq_true',
    decide_eq_false_iff_not, Bool.not_eq_true] at h
  obtain ⟨hmulti, hlink, hloop, hzero, hzero', hmulti', hlink', hloop', hnext, -⟩ := h
  refine ⟨transitAddr_of hmulti' hlink' hloop' hzero', transitAddr_of hmulti hlink hloop hzero, ?_⟩
  simpa using hnext

/-- Storing a link header that keeps the type changes only the addresses. -/
theorem overwrite_eth {data : Bytes} (hlen : ethLen ≤ data.length) (dmac smac : Mac) :
    overwrite data 0 (Ethhdr.mk dmac smac (Ethhdr.read data).hProto).toBytes =
      (dmac.bytes ++ smac.bytes) ++ data.drop 12 := by
  have hlen : 14 ≤ data.length := hlen
  have htype : be16 (Ethhdr.read data).hProto = (data.drop 12).take 2 := by
    rw [take_drop_eq_be16 (by omega)]
    change be16 (be16At (data.drop 12) 0) = _
    rw [be16At_drop]
  have hrest : data.drop 14 = (data.drop 12).drop 2 := by rw [List.drop_drop]
  rw [overwrite_zero, Ethhdr.toBytes_length, Ethhdr.toBytes, htype, hrest, List.append_assoc,
    List.append_assoc, List.append_assoc, List.take_append_drop]

def hopFurther (data : Bytes) (dmac smac : Mac) : Bytes :=
  overwrite (overwrite data 0 (Ethhdr.mk dmac smac (Ethhdr.read data).hProto).toBytes) (ethLen + 7)
    [(Ipv6hdr.read (data.drop ethLen)).hopLimit - 1]

section HopFurther
variable {data : Bytes} (hlen : ethLen + ipv6hdrLen ≤ data.length) (dmac smac : Mac)
include hlen

theorem overwrite_eth_length {eth : Ethhdr} :
    (overwrite data 0 eth.toBytes).length = data.length :=
  overwrite_length (by rw [Ethhdr.toBytes_length]; exact le_trans (by decide) hlen)

theorem hopFurther_length : (hopFurther data dmac smac).length = data.length := by
  have heth : ethLen = 14 := rfl
  have hip6 : ipv6hdrLen = 40 := rfl
  rw [hopFurther, overwrite_length, overwrite_eth_length hlen]
  rw [overwrite_eth_length hlen, List.length_singleton]
  omega

theorem hopFurther_hopLimit (h : 1 < (Ipv6hdr.read (data.drop ethLen)).hopLimit) :
    (byteAt (hopFurther data dmac smac) (ethLen + 7)).toNat =
      (byteAt data (ethLen + 7)).toNat - 1 := by
  have heth : ethLen = 14 := rfl
  have hip6 : ipv6hdrLen = 40 := rfl
  have hread : (Ipv6hdr.read (data.drop ethLen)).hopLimit = byteAt data (ethLen + 7) := by
    change byteAt ((data.drop ethLen).drop 7) 0 = _
    rw [List.drop_drop, byteAt_drop]
  rw [hread] at h
  rw [hopFurther, byteAt_overwrite (by rw [overwrite_eth_length hlen, List.length_singleton]; omega),
    if_pos ⟨le_rfl, by rw [List.length_singleton]; omega⟩, Nat.sub_self, hread]
  exact UInt8.toNat_sub_of_le _ _ (UInt8.le_of_lt h)

theorem hopFurther_others {i : ℕ} (hi : 12 ≤ i) (hne : i ≠ ethLen + 7) :
    (hopFurther data dmac smac)[i]? = data[i]? := by
  have heth : ethLen = 14 := rfl
  have hip6 : ipv6hdrLen = 40 := rfl
  have haddrs : (dmac.bytes ++ smac.bytes).length = 12 := by simp
  have hlink : (overwrite data 0 (Ethhdr.mk dmac smac (Ethhdr.read data).hProto).toBytes)[i]? =
      data[i]? := by
    rw [overwrite_eth (by omega), List.getElem?_append_right (by omega), haddrs,
      List.getElem?_drop]
    congr 1
    omega
  rw [hopFurther, ← hlink]
  have hsame := @overwrite_eth_length data hlen (Ethhdr.mk dmac smac (Ethhdr.read data).hProto)
  by_cases hbefore : i < ethLen + 7
  · exact overwrite_getElem?_of_lt hbefore (by omega)
  · exact overwrite_getElem?_of_le (by rw [List.length_singleton]; omega) (by omega)

end HopFurther

theorem tooBigResult_redirects {m : Maps} {ctx : XdpMd} {src6 : In6Addr} {mtu : ℕ} {allowed : Bool}
    {target : Target} (h : (tooBigResult m ctx src6 mtu allowed).1 = .redirect target) :
    target = .txPort ctx.ingressIfindex ∧
      TooBigError (ctx.data.drop ethLen) (tooBigResult m ctx src6 mtu allowed).2 := by
  have hquote : icmpv6PtbQuoteLen = 48 := rfl
  have hreply : icmpv6PtbReplyL3Len = 96 := rfl
  have heth : ethLen = 14 := rfl
  unfold tooBigResult at h ⊢
  dsimp only at h ⊢
  split at h
  · cases h
  next hsrc =>
  split at h
  · cases h
  next hallowed =>
  split at h
  · cases h
  next hfits =>
  rw [if_neg hsrc, if_neg hallowed, if_neg hfits]
  constructor
  · dsimp only [redirectTxPort] at h
    split at h
    · cases h
      rfl
    · cases h
  · exact writeIcmpv6PktTooBig_error _ src6 _ (by rw [List.length_take]; omega)
      (by rw [List.length_drop]; omega)

theorem handleIpv6Forward_redirects (env : Env) (x : Xdp)
    (hwan : cfg.wanIfindex = x.maps.b4Config.wanIfindex) :
    RedirectsNative env x.maps x.ctx (result (handleIpv6Forward env x ethLen cfg)) := by
  intro target htarget
  have heth : ethLen = 14 := rfl
  have hip6 : ipv6hdrLen = 40 := rfl
  unfold handleIpv6Forward at htarget ⊢
  dsimp only at htarget ⊢
  split at htarget
  · cases htarget
  next hforward =>
  split at htarget
  · cases htarget
  next hhops =>
  rw [if_neg hforward, if_neg hhops]
  rw [Bool.not_eq_true, Bool.not_eq_false'] at hforward
  rw [UInt8.not_le] at hhops
  split at htarget
  · next hfrag =>
    rw [if_pos hfrag]
    rw [sendIcmpv6PktTooBig_result] at htarget ⊢
    obtain ⟨hport, hvalid⟩ := tooBigResult_redirects htarget
    exact .inr ⟨⟨hforward, hhops, hfrag⟩, hport, hvalid⟩
  next hfrag =>
  split at htarget
  · split at htarget
    · cases htarget
    · cases htarget
  next hsuccess =>
  split at htarget
  · cases htarget
  next helsewhere =>
  split at htarget
  · cases htarget
  next hmanaged =>
  split at htarget
  · cases htarget
  next hlong =>
  rw [if_neg hfrag, if_neg hsuccess, if_neg helsewhere, if_neg hmanaged, if_neg hlong]
  obtain ⟨hsource, hdest, hnext⟩ := ipv6IsForwardable_transit hforward
  rw [not_or, not_lt, not_lt] at hlong
  generalize hfib : bpfFibLookup env (ipv6FibParams x.ctx (Ipv6hdr.read (x.ctx.data.drop ethLen))) =
    fib at *
  change redirectTxPort x.maps fib.ifindex = .redirect target at htarget
  change (∃ port, _ ∧ Forwarded x.maps x.ctx port (hopFurther x.ctx.data fib.dmac fib.smac)) ∨ _
  rw [redirectTxPort] at htarget
  split at htarget
  · cases htarget
    refine .inl ⟨_, rfl, hsource, hdest, hnext, hhops, ?_, helsewhere,
      hopFurther_length hlong.2 _ _, hopFurther_hopLimit hlong.2 _ _ hhops,
      fun i => hopFurther_others hlong.2 _ _⟩
    rw [not_and_or, not_not, hwan] at hmanaged
    exact hmanaged.imp id fun hnone => by simpa [Option.isSome_iff_ne_none] using hnone
  · cases htarget

end Step

section Programs
variable {program : Program} {env env' : Env} {m m' : Maps} {ctx : XdpMd}

/-- What becomes of a native frame: WAN frames with an unknown softwire's header are passed, others
routed. -/
def routeNative (program : Program) (env : Env) (m : Maps) (ctx : XdpMd) : XdpAction × Bytes :=
  if program = .dsliteDecap ∧ (Ipv6hdr.read (ctx.data.drop ethLen)).nexthdr = ipprotoIpip then
    (.pass, ctx.data)
  else
    match resolveActiveSoftwire m with
    | none => (.pass, ctx.data)
    | some cfg => result (handleIpv6Forward env ⟨m, ctx⟩ ethLen cfg)

theorem resolveActiveSoftwire_wan {cfg : B4Config} (h : resolveActiveSoftwire m = some cfg) :
    cfg.wanIfindex = m.b4Config.wanIfindex := by
  unfold resolveActiveSoftwire resolveSoftwire at h
  split at h
  · cases h
  · split at h
    · cases h
      rfl
    · cases h

theorem routeNative_redirects (program : Program) (env : Env) (m : Maps) (ctx : XdpMd) :
    RedirectsNative env m ctx (routeNative program env m ctx) := by
  unfold routeNative
  split
  · intro target htarget
    cases htarget
  split
  · intro target htarget
    cases htarget
  · next cfg hcfg => exact handleIpv6Forward_redirects env ⟨m, ctx⟩ (resolveActiveSoftwire_wan hcfg)

/-- The routing depends on the maps the loader writes, software RSS apart. -/
structure SameRouting (m m' : Maps) : Prop where
  b4Config : m'.b4Config = m.b4Config
  nextHops : m'.nextHops = m.nextHops
  migrationCtrl : m'.migrationCtrl = m.migrationCtrl
  lanConfigs : m'.lanConfigs = m.lanConfigs
  txPorts : m'.txPorts = m.txPorts

theorem SameRouting.resolve (h : SameRouting m m') :
    resolveActiveSoftwire m' = resolveActiveSoftwire m := by
  have hslot : m'.getNextHop (migActiveSlot m'.getMigrationCtrl) =
      m.getNextHop (migActiveSlot m.getMigrationCtrl) := by
    unfold Maps.getNextHop Maps.getMigrationCtrl
    rw [h.nextHops, h.migrationCtrl]
  rw [resolveActiveSoftwire, resolveActiveSoftwire, hslot]
  unfold resolveSoftwire
  rw [h.b4Config]

theorem routeNative_congr (h : SameRouting m m') (hfib : env'.fib = env.fib)
    (htoken : TooBigForRoute env ctx →
      ((m'.errorView.bucket env').tokens = 0 ↔ (m.errorView.bucket env).tokens = 0)) :
    routeNative program env' m' ctx = routeNative program env m ctx := by
  unfold routeNative
  rw [h.resolve]
  split
  · rfl
  cases resolveActiveSoftwire m with
  | none => rfl
  | some cfg => exact handleIpv6Forward_congr hfib h.lanConfigs h.txPorts htoken

/-- The fan-out leaves the frame and what routing depends on alone, and needs software RSS. -/
theorem maybeRedirectIpv6ToCpu_cases (m : Maps) (ctx : XdpMd) (pkt : Bytes) :
    ∃ n, SameRouting m n ∧ n.errorView = m.errorView ∧
      (maybeRedirectIpv6ToCpu ⟨m, ctx⟩ pkt = (none, ⟨n, ctx⟩) ∨
        m.ipv6RssConfig.enabled = true ∧ ∃ cpu,
          maybeRedirectIpv6ToCpu ⟨m, ctx⟩ pkt = (some (.redirect (.cpuV6 cpu)), ⟨n, ctx⟩)) := by
  have hview := maybeRedirectIpv6ToCpu_errorView ⟨m, ctx⟩ pkt
  unfold maybeRedirectIpv6ToCpu at hview ⊢
  dsimp only at hview ⊢
  split
  · exact ⟨m, ⟨rfl, rfl, rfl, rfl, rfl⟩, rfl, .inl rfl⟩
  next hon =>
  rw [if_neg hon] at hview
  split
  · exact ⟨m, ⟨rfl, rfl, rfl, rfl, rfl⟩, rfl, .inl rfl⟩
  next hidx =>
  rw [if_neg hidx] at hview
  refine ⟨m.increaseStatsCount .ipv6RssRedirect, ⟨rfl, rfl, rfl, rfl, rfl⟩, hview, ?_⟩
  split
  · exact .inr ⟨by simpa using (not_or.mp hon).1, _, rfl⟩
  · exact .inl rfl

/-- What a program does with a frame it routes natively: route it at once, or fan it out untouched
for the second stage. -/
def RoutedOrFanned (program : Program) (env : Env) (m : Maps) (ctx : XdpMd) (r : XdpAction × Xdp) :
    Prop :=
  result r = routeNative program env m ctx ∨
    m.ipv6RssConfig.enabled = true ∧ (∃ cpu, r.1 = .redirect (.cpuV6 cpu)) ∧ r.2.ctx = ctx ∧
      (∀ env' m', SameRouting m m' →
        result (doXdpIpv6FwdCpu env' ⟨m', ctx⟩) = routeNative program env' m' ctx)

theorem routedOrFanned {cfg : B4Config} (hparse : parseL2Ipv6 ctx.data = .ip ethLen)
    (hroute : ¬ (program = .dsliteDecap ∧
      (Ipv6hdr.read (ctx.data.drop ethLen)).nexthdr = ipprotoIpip))
    (hcfg : resolveActiveSoftwire m = some cfg) (pkt : Bytes) :
    RoutedOrFanned program env m ctx
      (match (maybeRedirectIpv6ToCpu ⟨m, ctx⟩ pkt).1 with
      | some action => (action, (maybeRedirectIpv6ToCpu ⟨m, ctx⟩ pkt).2)
      | none => handleIpv6Forward env (maybeRedirectIpv6ToCpu ⟨m, ctx⟩ pkt).2 ethLen cfg) := by
  have hrouted : ∀ (env' : Env) (m' : Maps), resolveActiveSoftwire m' = some cfg →
      routeNative program env' m' ctx = result (handleIpv6Forward env' ⟨m', ctx⟩ ethLen cfg) := by
    intro env' m' hcfg'
    rw [routeNative, if_neg hroute, hcfg']
  obtain ⟨n, hsame, hview, heq | ⟨hon, cpu, heq⟩⟩ := maybeRedirectIpv6ToCpu_cases m ctx pkt
  · left
    rw [heq, hrouted env m hcfg]
    exact handleIpv6Forward_congr rfl hsame.lanConfigs hsame.txPorts fun _ => by rw [hview]
  · right
    rw [heq]
    refine ⟨hon, ⟨cpu, rfl⟩, rfl, ?_⟩
    intro env' m' hsame'
    have hcfg' := hsame'.resolve.trans hcfg
    rw [hrouted env' m' hcfg', doXdpIpv6FwdCpu]
    simp only [hparse, hcfg']

/-- Which ICMPv6 `handle_tunnel_icmpv6` does not claim. -/
theorem handleTunnelIcmpv6_eq_none_iff (env : Env) (x : Xdp) :
    handleTunnelIcmpv6 env x ethLen = none ↔
      x.ctx.data.length < ethLen + ipv6hdrLen + 8 ∨
        (byteAt x.ctx.data (ethLen + ipv6hdrLen) ≠ 1 ∧ byteAt x.ctx.data (ethLen + ipv6hdrLen) ≠ 2 ∧
          byteAt x.ctx.data (ethLen + ipv6hdrLen) ≠ 3) ∨
        x.ctx.data.length < ethLen + ipv6hdrLen + 8 + ipv6hdrLen ∨
        findDsliteLocalSlot x.maps (Ipv6hdr.read (x.ctx.data.drop (ethLen + ipv6hdrLen + 8)))
          (Ipv6hdr.read (x.ctx.data.drop ethLen)).daddr = none := by
  unfold handleTunnelIcmpv6
  dsimp only
  split
  · next hshort => exact iff_of_true rfl (.inl hshort)
  next hshort =>
  split
  · next htype => exact iff_of_true rfl (.inr (.inl htype))
  next htype =>
  split
  · next hquote => exact iff_of_true rfl (.inr (.inr (.inl hquote)))
  next hquote =>
  split
  · next hslot => exact iff_of_true rfl (.inr (.inr (.inr hslot)))
  · next slot hslot =>
    rw [hslot]
    refine iff_of_false ?_ (by simp only [reduceCtorEq, or_false]; tauto)
    repeat' split
    all_goals simp

theorem Native.congr (h : Native program env m ctx) (hhops : m'.nextHops = m.nextHops) :
    Native program env m' ctx := by
  have hpeer : ∀ outer, findDslitePeerNh m' outer = findDslitePeerNh m outer := by
    intro outer
    simp only [findDslitePeerNh, hhops]
  have hslot : ∀ quoted dst,
      findDsliteLocalSlot m' quoted dst = findDsliteLocalSlot m quoted dst := by
    intro quoted dst
    simp only [findDsliteLocalSlot, hhops]
  cases program with
  | dsliteDecap =>
    obtain ⟨hparse, hsoftwire, htunnel⟩ := h
    refine ⟨hparse, ?_, ?_⟩
    · rw [hpeer]
      exact hsoftwire
    · rw [handleTunnelIcmpv6_eq_none_iff] at htunnel ⊢
      rw [hslot]
      exact htunnel
  | _ => exact h

theorem Native.run (h : Native program env m ctx) :
    RoutedOrFanned program env m ctx (program.run env ⟨m, ctx⟩) := by
  obtain ⟨hparse, h⟩ := h
  cases program with
  | dsliteEncap =>
    change RoutedOrFanned _ _ _ _ (doXdpDsliteEncap env ⟨m, ctx⟩)
    simp only at h
    simp only [doXdpDsliteEncap, h, hparse]
    cases hcfg : resolveActiveSoftwire m with
    | none =>
      left
      rw [routeNative, if_neg (by simp), hcfg]
      rfl
    | some cfg => exact routedOrFanned hparse (by simp) hcfg _
  | dsliteDecap =>
    obtain ⟨hsoftwire, htunnel⟩ := h
    change RoutedOrFanned _ _ _ _ (doXdpDsliteDecap env ⟨m, ctx⟩)
    have hnative : ∀ (_ : (Ipv6hdr.read (ctx.data.drop ethLen)).nexthdr ≠ ipprotoIpip),
        RoutedOrFanned .dsliteDecap env m ctx (forwardNative env ⟨m, ctx⟩ ethLen) := by
      intro hproto
      unfold forwardNative
      cases hcfg : resolveActiveSoftwire m with
      | none =>
        left
        rw [routeNative, if_neg (fun h => hproto h.2), hcfg]
        rfl
      | some cfg => exact routedOrFanned hparse (fun h => hproto h.2) hcfg _
    simp only [doXdpDsliteDecap, hparse]
    rw [if_neg (by rintro ⟨hfrag, hsome⟩; rw [hsoftwire (.inl hfrag)] at hsome; cases hsome)]
    split
    · next hicmp =>
      rw [htunnel hicmp]
      exact hnative (by rw [hicmp]; decide)
    split
    · next hproto => exact hnative hproto
    · next hproto =>
      rw [not_not] at hproto
      rw [hsoftwire (.inr hproto), if_pos (by rfl)]
      left
      rw [routeNative, if_pos ⟨rfl, hproto⟩]
      rfl
  | dsliteDecapCpu => exact h.elim
  | ipv6FwdCpu => exact h.elim
  | softwireFrag i => exact h.elim

/-- Behind software RSS the frame is routed once, on either of the two CPUs. -/
theorem throughRss_result (h : Native program env m ctx) (env' : Env) (hsame : SameRouting m m') :
    result (throughRss program env env' m m' ctx) = routeNative program env m ctx ∨
      result (throughRss program env env' m m' ctx) = routeNative program env' m' ctx := by
  unfold throughRss
  rcases h.run with hrouted | ⟨-, ⟨cpu, haction⟩, hctx, hsecond⟩
  · left
    dsimp only
    split
    · next cpu haction =>
      have hredirect := routeNative_redirects program env m ctx (.cpuV6 cpu)
        ((congrArg Prod.fst hrouted).symm.trans haction)
      rcases hredirect with ⟨port, htarget, -⟩ | ⟨-, htarget, -⟩
      · cases htarget
      · cases htarget
    · exact hrouted
  · right
    dsimp only
    rw [haction]
    dsimp only
    rw [hctx]
    exact hsecond env' m' hsame

theorem inlined_result (h : Native program env m ctx) :
    result (program.run env ⟨m.inlined, ctx⟩) = routeNative program env m ctx := by
  have hsame : SameRouting m m.inlined := ⟨rfl, rfl, rfl, rfl, rfl⟩
  rcases (h.congr hsame.nextHops).run with hrouted | ⟨hon, -⟩
  · exact hrouted.trans (routeNative_congr hsame rfl fun _ => Iff.rfl)
  · cases hon

theorem RedirectsNative.congr {r : XdpAction × Bytes} (h : RedirectsNative env' m' ctx r)
    (hsame : SameRouting m m') (hfib : env'.fib = env.fib) : RedirectsNative env m ctx r := by
  intro target htarget
  rcases h target htarget with ⟨port, hport, hforwarded⟩ | ⟨hbig, hport, hvalid⟩
  · refine .inl ⟨port, hport, { hforwarded with managed := ?_ }⟩
    rw [← hsame.b4Config, Maps.getLanConfig, ← hsame.lanConfigs]
    exact hforwarded.managed
  · obtain ⟨hforward, hhops, hfrag⟩ := hbig
    rw [bpfFibLookup_congr hfib] at hfrag
    exact .inr ⟨⟨hforward, hhops, hfrag⟩, hport, hvalid⟩

end Programs

/-- With unchanged configuration and routes, a native frame comes to the same inline and behind
software RSS, if both CPUs answer alike to a packet too big for its route; and it is redirected only
one hop further, or answered where it came from when it is too big. -/
theorem native_same (program : Program) (env env' : Env) (m m' : Maps) (ctx : XdpMd)
    (h : Native program env m ctx) (hconfig : m'.toLoaderMaps = m.toLoaderMaps)
    (hfib : env'.fib = env.fib) :
    ((TooBigForRoute env ctx →
        ((m'.errorView.bucket env').tokens = 0 ↔ (m.errorView.bucket env).tokens = 0)) →
      result (throughRss program env env' m m' ctx) = result (program.run env ⟨m.inlined, ctx⟩)) ∧
    RedirectsNative env m ctx (result (program.run env ⟨m.inlined, ctx⟩)) ∧
    RedirectsNative env m ctx (result (throughRss program env env' m m' ctx)) := by
  have hsame : SameRouting m m' := by
    constructor
    all_goals rw [hconfig]
  rw [inlined_result h]
  have hinline := routeNative_redirects program env m ctx
  rcases throughRss_result h env' hsame with heq | heq
  · rw [heq]
    exact ⟨fun _ => rfl, hinline, hinline⟩
  · rw [heq]
    exact ⟨routeNative_congr hsame hfib, hinline,
      (routeNative_redirects program env' m' ctx).congr hsame hfib⟩

section Sample

def rssMaps : Maps :=
  { openMaps with
    ipv6RssConfig := ⟨true, 1⟩
    ipv6RssCpus := fun _ => 1
    cpuMapV6 := fun cpu => cpu == 1 }

def transitFrame : XdpMd where
  data := (Ethhdr.mk default default ethPIpv6).toBytes ++
    ((outerIpv6 (sampleAddr 5) (sampleAddr 6) ipprotoUdp 60).toBytes ++ List.replicate 60 0)
  headroom := []
  ingressIfindex := 3

theorem transitFrame_native (env : Env) (m : Maps) : Native .dsliteEncap env m transitFrame := by
  refine ⟨by decide +kernel, ?_⟩
  change parseL2Ipv4 transitFrame.data = .other
  decide +kernel

def busyCpu : Env := { narrowRoutes with cpu := 1 }

def busyMaps : Maps :=
  { rssMaps with icmpErrorRate := fun cpu => if cpu = 1 then ⟨1000000000, 0⟩ else {} }

/-- A packet in transit goes out of the WAN, whichever CPU routes it. -/
theorem native_same_transit :
    result (throughRss .dsliteEncap (linkedEnv 3) { linkedEnv 3 with cpu := 1 } rssMaps busyMaps
        transitFrame) =
      result (Program.dsliteEncap.run (linkedEnv 3) ⟨rssMaps.inlined, transitFrame⟩) ∧
    (Program.dsliteEncap.run (linkedEnv 3) ⟨rssMaps.inlined, transitFrame⟩).1 =
      .redirect (.txPort 2) := by
  refine ⟨(native_same .dsliteEncap (linkedEnv 3) { linkedEnv 3 with cpu := 1 } rssMaps busyMaps
    transitFrame (transitFrame_native _ _) rfl rfl).1 ?_, by decide +kernel⟩
  rintro ⟨-, -, hfib⟩
  exact absurd hfib (by decide +kernel)

/-- A packet too big for its route is answered where it came from, with other bytes, or dropped if
the CPU it is fanned out to has no token left. -/
theorem tooBig_differs_by_cpu :
    (Program.dsliteEncap.run narrowRoutes ⟨rssMaps.inlined, transitFrame⟩).1 =
        .redirect (.txPort transitFrame.ingressIfindex) ∧
      (Program.dsliteEncap.run narrowRoutes ⟨rssMaps.inlined, transitFrame⟩).2.ctx.data.length ≠
        transitFrame.data.length ∧
      (throughRss .dsliteEncap narrowRoutes busyCpu rssMaps busyMaps transitFrame).1 = .drop := by
  decide +kernel

end Sample
end Minuteman.Datapath
