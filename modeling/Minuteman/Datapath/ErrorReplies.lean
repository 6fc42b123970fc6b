import Minuteman.Datapath.ErrorFrames

/-!
# The errors a packet draws

Four routines originate ICMP errors: Fragmentation Needed and Time Exceeded
into the softwire, the relayed tunnel error on the LAN and Packet Too Big on
the native IPv6 path. Each takes a token and sends a frame about a packet of
the frame it was given; no other part of the programs touches the tokens or
the counters of errors.
-/
namespace Minuteman.Datapath
open Library ByteString

def Maps.icmpErrors (m : Maps) : ℕ :=
  m.stats .icmpFragNeeded + m.stats .icmpTimeExceeded + m.stats .tunnelIcmpRelay

/-- What only the originating routines change: the rate buckets and the errors counted. -/
structure ErrorView where
  rate : ℕ → IcmpRateBucket
  errors : ℕ

def Maps.errorView (m : Maps) : ErrorView := ⟨m.icmpErrorRate, m.icmpErrors⟩

namespace ErrorView

def bucket (v : ErrorView) (env : Env) : IcmpRateBucket := (v.rate env.cpu).refilled env.now

/-- The view after `icmp_error_allowed`: one token less, if there was one. -/
def drawn (v : ErrorView) (env : Env) : ErrorView :=
  let b := v.bucket env
  let spent : IcmpRateBucket := if b.tokens = 0 then b else { b with tokens := b.tokens - 1 }
  { v with rate := Function.update v.rate env.cpu spent }

end ErrorView

/-- How a program's run `r` ends with respect to errors, from the view `v`: `waste` tells when a
token is taken for nothing, `report` what is sent otherwise. -/
inductive ErrorOutcome (env : Env) (v : ErrorView) (waste : Prop) (report : Bytes → Prop)
    (r : XdpAction × Xdp) : Prop
  | quiet (hview : r.2.maps.errorView = v)
  | limited (hempty : (v.bucket env).tokens = 0) (hview : r.2.maps.errorView = v.drawn env)
  | wasted (htoken : (v.bucket env).tokens ≠ 0) (hrate : r.2.maps.icmpErrorRate = (v.drawn env).rate)
      (hunsent : sentFrame r = none) (hwaste : waste)
  | answered (htoken : (v.bucket env).tokens ≠ 0)
      (hview : r.2.maps.errorView = { v.drawn env with errors := v.errors + 1 })
      (hsent : sentFrame r = some r.2.ctx.data) (hreport : report r.2.ctx.data)

theorem ErrorOutcome.mono {env : Env} {v : ErrorView} {waste waste' : Prop}
    {report report' : Bytes → Prop} {r : XdpAction × Xdp} (h : ErrorOutcome env v waste report r)
    (hwaste : waste → waste') (hreport : ∀ frame, report frame → report' frame) :
    ErrorOutcome env v waste' report' r := by
  cases h with
  | quiet hview => exact .quiet hview
  | limited hempty hview => exact .limited hempty hview
  | wasted htoken hrate hunsent hw => exact .wasted htoken hrate hunsent (hwaste hw)
  | answered htoken hview hsent hr => exact .answered htoken hview hsent (hreport _ hr)

section View
variable (env : Env) (x : Xdp)

@[simp] theorem Maps.errorView_increaseStatsCount {s : StatId} (hfrag : s ≠ .icmpFragNeeded)
    (htime : s ≠ .icmpTimeExceeded) (hrelay : s ≠ .tunnelIcmpRelay) (m : Maps) :
    (m.increaseStatsCount s).errorView = m.errorView := by
  simp only [Maps.errorView, Maps.icmpErrors, Maps.increaseStatsCount_stats_of_ne m hfrag.symm,
    Maps.increaseStatsCount_stats_of_ne m htime.symm,
    Maps.increaseStatsCount_stats_of_ne m hrelay.symm]
  rfl

/-- Each originating routine counts its error once. -/
theorem Maps.errorView_countError {s : StatId}
    (h : s = .icmpFragNeeded ∨ s = .icmpTimeExceeded ∨ s = .tunnelIcmpRelay) (m : Maps) :
    (m.increaseStatsCount s).errorView = { m.errorView with errors := m.icmpErrors + 1 } := by
  rcases h with rfl | rfl | rfl
  · simp [Maps.errorView, Maps.icmpErrors, Maps.increaseStatsCount]
    omega
  · simp [Maps.errorView, Maps.icmpErrors, Maps.increaseStatsCount]
    omega
  · simp [Maps.errorView, Maps.icmpErrors, Maps.increaseStatsCount]
    omega

@[simp] theorem redirectToIfindex_errorView (ifindex : ℕ) {stat : StatId}
    (hfrag : stat ≠ .icmpFragNeeded) (htime : stat ≠ .icmpTimeExceeded)
    (hrelay : stat ≠ .tunnelIcmpRelay) :
    (redirectToIfindex x ifindex stat).2.maps.errorView = x.maps.errorView :=
  Maps.errorView_increaseStatsCount hfrag htime hrelay x.maps

@[simp] theorem lookupAftrNexthop_errorView (cfg : B4Config) (innerLen : ℕ) :
    (lookupAftrNexthop env x cfg innerLen).2.maps.errorView = x.maps.errorView := by
  unfold lookupAftrNexthop
  dsimp only
  split_ifs <;> simp

@[simp] theorem checkDevMtu_errorView (ifindex l3Len : ℕ) :
    (checkDevMtu env x ifindex l3Len).2.maps.errorView = x.maps.errorView := by
  unfold checkDevMtu
  dsimp only
  split_ifs <;> simp

@[simp] theorem maybeRedirectIpv6ToCpu_errorView (pkt : Bytes) :
    (maybeRedirectIpv6ToCpu x pkt).2.maps.errorView = x.maps.errorView := by
  unfold maybeRedirectIpv6ToCpu
  dsimp only
  split_ifs <;> simp

@[simp] theorem applyMssClamp_errorView (off : ℕ) (cfg : B4Config) :
    (applyMssClamp x off cfg).maps.errorView = x.maps.errorView := by
  unfold applyMssClamp
  split_ifs
  · rfl
  · split <;> simp

@[simp] theorem touchFlowAffinity_errorView (m : Maps) (now ctrl : ℕ) (key : FlowKey) :
    (touchFlowAffinity m now ctrl key).2.errorView = m.errorView := by
  unfold touchFlowAffinity
  dsimp only
  repeat' split
  all_goals simp [Maps.errorView, Maps.icmpErrors, Maps.increaseStatsCount]

@[simp] theorem pickSoftwireSlot_errorView (m : Maps) (now ctrl : ℕ) (pkt : Bytes) :
    (pickSoftwireSlot m now ctrl pkt).2.errorView = m.errorView := by
  unfold pickSoftwireSlot
  dsimp only
  split_ifs <;> simp

@[simp] theorem touchReversed_errorView (m : Maps) (pkt : Bytes) :
    (touchReversed env m pkt).errorView = m.errorView := by
  unfold touchReversed
  split_ifs <;> simp

@[simp] theorem learnTunnelPmtu_errorView (slot mtu : ℕ) :
    (learnTunnelPmtu env x slot mtu).maps.errorView = x.maps.errorView := by
  unfold learnTunnelPmtu
  dsimp only
  split_ifs
  · rfl
  · rw [Xdp.count_maps, Maps.errorView_increaseStatsCount (by decide) (by decide) (by decide)]
    rfl

@[simp] theorem lookupLanNexthop_errorView (cfg : B4Config) (iph : Iphdr) (innerLen : ℕ) :
    (lookupLanNexthop env x cfg iph innerLen).2.maps.errorView = x.maps.errorView := by
  unfold lookupLanNexthop
  extract_lets first tooBig fib
  repeat' split
  all_goals simp

@[simp] theorem stripOuter_errorView (innerLen : ℕ) (fib : Option FibResult) :
    (stripOuter x innerLen fib).2.maps.errorView = x.maps.errorView := by
  unfold stripOuter
  dsimp only
  repeat' split
  all_goals simp

end View

/-! ## What an error says -/

def UnicastIpv4 (a : UInt32) : Prop :=
  a ≠ 0 ∧ a ≠ 0xffffffff ∧ a.toNat / 2 ^ 24 ≠ 127 ∧ a.toNat / 2 ^ 28 ≠ 14

def UnicastIpv6 (a : In6Addr) : Prop :=
  a.bytes ≠ List.replicate 16 0 ∧ a.bytes ≠ List.replicate 15 0 ++ [1] ∧ byteAt a.bytes 0 ≠ 0xff

/-- An ICMP error may be sent about the IPv4 packet: it is no error itself and no later fragment,
and it came from one host. -/
structure MayDrawIcmpv4 (pkt : Bytes) : Prop where
  notError : (Iphdr.read pkt).protocol = ipprotoIcmp → byteAt pkt iphdrLen ∉ [3, 4, 5, 11, 12]
  notLater : (Iphdr.read pkt).fragOff.toNat % 2 ^ 13 = 0
  source : UnicastIpv4 (Iphdr.read pkt).saddr

/-- The length of the extension header `b` begins with, if `nexthdr` is one: a Fragment header, an
Authentication Header, or one that counts its length in units of eight (the options, Routing,
Mobility, HIP and Shim6). -/
def extensionLen (nexthdr : UInt8) (b : Bytes) : Option ℕ :=
  if nexthdr = ipprotoFragment then some fragHdrLen
  else if nexthdr = 51 then some (4 * ((byteAt b 1).toNat + 2))
  else if nexthdr ∈ [ipprotoHopopts, ipprotoRouting, ipprotoDstopts, 135, 139, 140] then
    some (8 * ((byteAt b 1).toNat + 1))
  else none

/-- The chain of headers from `nexthdr` on, each with the bytes from it on. -/
def headersFrom : ℕ → UInt8 → Bytes → List (UInt8 × Bytes)
  | 0, _, _ => []
  | fuel + 1, nexthdr, b =>
    (nexthdr, b) :: match extensionLen nexthdr b with
      | some n => if n < b.length then headersFrom fuel (byteAt b 0) (b.drop n) else []
      | none => []

/-- The headers behind the IPv6 header. Each extension header takes some of the packet's bytes, so
the fuel is enough. -/
def ipv6Headers (pkt : Bytes) : List (UInt8 × Bytes) :=
  headersFrom pkt.length (Ipv6hdr.read pkt).nexthdr (pkt.drop ipv6hdrLen)

/-- The same of an IPv6 packet, whose errors are the ICMPv6 types below 128, whatever extension
headers stand in front. -/
structure MayDrawIcmpv6 (pkt : Bytes) : Prop where
  notError : ∀ h ∈ ipv6Headers pkt, h.1 = ipprotoIcmpv6 → 128 ≤ byteAt h.2 0
  notLater : ∀ h ∈ ipv6Headers pkt, h.1 = ipprotoFragment →
    (FragHdr.read h.2).fragOff.toNat / 8 = 0
  source : UnicastIpv6 (Ipv6hdr.read pkt).saddr

/-- The frame carries the IPv4 packet plainly or through the softwire. -/
inductive CarriesIpv4 : Bytes → Bytes → Prop
  | plain (eth : Ethhdr) (msg : Bytes) (h : eth.hProto = ethPIp) :
      CarriesIpv4 (eth.toBytes ++ msg) msg
  | softwire (eth : Ethhdr) (outer : Ipv6hdr) (msg : Bytes) (h : eth.hProto = ethPIpv6)
      (hnext : outer.nexthdr = ipprotoIpip) :
      CarriesIpv4 (eth.toBytes ++ (outer.toBytes ++ msg)) msg

/-- The IPv4 packet `msg` is an ICMPv4 error about `pkt`, addressed to its source. -/
structure Icmpv4About (pkt msg : Bytes) : Prop where
  protocol : (Iphdr.read msg).protocol = ipprotoIcmp
  error : byteAt msg iphdrLen ∈ [3, 4, 5, 11, 12]
  quoted : (msg.drop (iphdrLen + 8)).take icmpFragQuoteLen = pkt.take icmpFragQuoteLen
  addressed : (Iphdr.read msg).daddr = (Iphdr.read pkt).saddr

/-- The frame is an ICMPv6 error about `pkt`, addressed to its source. -/
structure Icmpv6About (pkt frame : Bytes) : Prop where
  ethertype : (Ethhdr.read frame).hProto = ethPIpv6
  protocol : (Ipv6hdr.read (frame.drop ethLen)).nexthdr = ipprotoIcmpv6
  error : byteAt frame outerHdrLen < 128
  quoted : (frame.drop (outerHdrLen + 8)).take icmpv6PtbQuoteLen = pkt.take icmpv6PtbQuoteLen
  addressed : (Ipv6hdr.read (frame.drop ethLen)).daddr = (Ipv6hdr.read pkt).saddr

/-- The frame is an ICMPv4 error about `pkt`, which may draw one. -/
def Icmpv4Report (pkt frame : Bytes) : Prop :=
  MayDrawIcmpv4 pkt ∧ ∃ msg, CarriesIpv4 frame msg ∧ Icmpv4About pkt msg

def SoftwireReport (pkt frame : Bytes) : Prop := Icmpv4Report pkt frame ∧ SoftwireError pkt frame

def LanReport (pkt frame : Bytes) : Prop := Icmpv4Report pkt frame ∧ LanError pkt frame

section Reports
variable {pkt : Bytes}

theorem copyIpv4Quote_byteAt (pkt : Bytes) {i : ℕ} (h : i < icmpFragQuoteLen) :
    byteAt (copyIpv4Quote pkt) i = byteAt pkt i := by
  simp only [byteAt, List.getD_eq_getElem?_getD, copyIpv4Quote, List.getElem?_take, if_pos h]

theorem icmpErrorEligible_mayDraw (hlong : icmpFragQuoteLen ≤ pkt.length)
    (h : icmpErrorEligible (copyIpv4Quote pkt) = true) : MayDrawIcmpv4 pkt := by
  unfold icmpErrorEligible at h
  rw [copyIpv4Quote_iphdr hlong, copyIpv4Quote_byteAt pkt (by decide)] at h
  dsimp only at h
  split_ifs at h with hfrag hzero hloop herror
  rw [not_not] at hfrag
  rw [not_or] at hzero hloop
  constructor
  · intro hicmp hmem
    apply herror
    refine ⟨hicmp, ?_⟩
    simpa [icmpv4TypeIsError, or_assoc] using hmem
  · have hnat := congrArg UInt16.toNat hfrag
    rw [UInt16.toNat_and] at hnat
    exact (Nat.and_two_pow_sub_one_eq_mod _ 13).symm.trans hnat
  · refine ⟨hzero.1, hzero.2, ?_, ?_⟩
    · intro heq
      apply hloop.1
      apply UInt32.toNat_inj.mp
      rw [UInt32.toNat_shiftRight, Nat.shiftRight_eq_div_pow]
      exact heq
    · intro heq
      apply hloop.2
      apply UInt32.toNat_inj.mp
      rw [UInt32.toNat_shiftRight, Nat.shiftRight_eq_div_pow]
      exact heq

theorem innerIcmpIph_about (hlong : icmpFragQuoteLen ≤ pkt.length) {type : UInt8}
    (htype : type ∈ [3, 4, 5, 11, 12]) (code : UInt8) (word : UInt32) (rest : Bytes) :
    Icmpv4About pkt ((innerIcmpIph (copyIpv4Quote pkt)).toBytes ++
      (icmpv4Error type code word (copyIpv4Quote pkt) ++ rest)) := by
  obtain ⟨csum, heq⟩ := icmpv4Error_eq type code word (copyIpv4Quote pkt)
  have hquote := copyIpv4Quote_length hlong
  rw [heq]
  constructor
  · rw [Iphdr.read_toBytes]
    rfl
  · exact htype
  · change List.take icmpFragQuoteLen (copyIpv4Quote pkt ++ rest) = _
    rw [List.take_left' hquote]
    rfl
  · rw [Iphdr.read_toBytes]
    change (Iphdr.read (copyIpv4Quote pkt)).saddr = _
    rw [copyIpv4Quote_iphdr hlong]

/-- The Ethernet header and the softwire's outer header in front of an error about `pkt`. -/
theorem writeDsliteIcmp_report (x : Xdp) (cfg : B4Config) (fib : FibResult)
    (hdata : x.ctx.data.length = outerHdrLen + icmpv4ErrorL3Len)
    (hlong : icmpFragQuoteLen ≤ pkt.length)
    (hmay : icmpErrorEligible (copyIpv4Quote pkt) = true) {type : UInt8}
    (htype : type ∈ [3, 4, 5, 11, 12]) (code : UInt8) (word : UInt32) :
    SoftwireReport pkt (writeDsliteIcmp x cfg fib (copyIpv4Quote pkt)
      (icmpv4Error type code word (copyIpv4Quote pkt))).ctx.data := by
  refine ⟨?_, writeDsliteIcmp_error x cfg fib hdata hlong type code word⟩
  obtain ⟨rest, hframe⟩ := writeDsliteIcmp_frame x cfg fib (copyIpv4Quote pkt)
    (icmpv4Error type code word (copyIpv4Quote pkt))
  rw [hframe]
  exact ⟨icmpErrorEligible_mayDraw hlong hmay, _, .softwire _ _ _ rfl rfl,
    innerIcmpIph_about hlong htype code word rest⟩

theorem writeLanIcmpv4Error_report (x : Xdp) (fib : FibResult)
    (hdata : x.ctx.data.length = ethLen + icmpv4ErrorL3Len)
    (hlong : icmpFragQuoteLen ≤ pkt.length)
    (hmay : icmpErrorEligible (copyIpv4Quote pkt) = true) {type : UInt8}
    (htype : type ∈ [3, 4, 5, 11, 12]) (code : UInt8) (word : UInt32) :
    LanReport pkt (writeLanIcmpv4Error x fib (copyIpv4Quote pkt) type code word).ctx.data := by
  refine ⟨?_, writeLanIcmpv4Error_error x fib hdata hlong type code word⟩
  obtain ⟨rest, hframe⟩ := writeLanIcmpv4Error_frame x fib (copyIpv4Quote pkt) type code word
  rw [hframe]
  exact ⟨icmpErrorEligible_mayDraw hlong hmay, _, .plain _ _ rfl,
    innerIcmpIph_about hlong htype code word rest⟩

/-- A Packet Too Big message is its header, whatever the checksum, and the quote. -/
theorem buildIcmpv6PktTooBig_eq (src dst : In6Addr) (quote : Bytes) (mtu : ℕ) :
    ∃ csum, buildIcmpv6PktTooBig src dst quote mtu =
      2 :: 0 :: (be16 csum ++ (be32 (UInt32.ofNat mtu) ++ quote)) := ⟨_, rfl⟩

theorem copyIpv6Quote_ipv6hdr (hlong : icmpv6PtbQuoteLen ≤ pkt.length) :
    Ipv6hdr.read (copyIpv6Quote pkt) = Ipv6hdr.read pkt := by
  have hlen : icmpv6PtbQuoteLen = 48 := rfl
  conv_rhs => rw [← List.take_append_drop icmpv6PtbQuoteLen pkt]
  rw [Ipv6hdr.read_append_left (by simp; omega)]
  rfl

theorem writeIcmpv6PktTooBig_about (x : Xdp) (src6 : In6Addr) (mtu : ℕ)
    (hlong : icmpv6PtbQuoteLen ≤ pkt.length) :
    Icmpv6About pkt (writeIcmpv6PktTooBig x ethLen (copyIpv6Quote pkt) src6 mtu).ctx.data := by
  obtain ⟨csum, heq⟩ := buildIcmpv6PktTooBig_eq src6 (Ipv6hdr.read (copyIpv6Quote pkt)).saddr
    (copyIpv6Quote pkt) mtu
  have hquote := copyIpv6Quote_length hlong
  obtain ⟨rest, hframe⟩ := writeIcmpv6PktTooBig_frame x (copyIpv6Quote pkt) src6 mtu
  rw [heq] at hframe
  generalize heth : Ethhdr.mk (Ethhdr.read x.ctx.data).hSource (Ethhdr.read x.ctx.data).hDest
    ethPIpv6 = eth at hframe
  have hdrop : ∀ tail : Bytes, (eth.toBytes ++ tail).drop ethLen = tail :=
    fun tail => List.drop_left' (by simp; rfl)
  have houter : ∀ (ip6h : Ipv6hdr) (tail : Bytes),
      (eth.toBytes ++ (ip6h.toBytes ++ tail)).drop outerHdrLen = tail := by
    intro ip6h tail
    rw [← List.append_assoc]
    exact List.drop_left' (by simp; rfl)
  rw [hframe]
  constructor
  · rw [Ethhdr.read_toBytes, ← heth]
  · rw [hdrop, Ipv6hdr.read_toBytes]
    rfl
  · rw [← Nat.add_zero outerHdrLen, ← byteAt_drop, houter]
    change (2 : UInt8) < 128
    decide
  · rw [← List.drop_drop, houter]
    change List.take icmpv6PtbQuoteLen (copyIpv6Quote pkt ++ rest) = _
    rw [List.take_left' hquote]
    rfl
  · rw [hdrop, Ipv6hdr.read_toBytes]
    change (Ipv6hdr.read (copyIpv6Quote pkt)).saddr = _
    rw [copyIpv6Quote_ipv6hdr hlong]

end Reports

/-! ## The originating routines -/

def aftrNexthop (env : Env) (ctx : XdpMd) (cfg : B4Config) (innerLen : ℕ) : Option FibResult :=
  let fib := bpfFibLookup env (aftrFibParams ctx cfg innerLen)
  if (fib.ret = .success ∨ fib.ret = .fragNeeded) ∧
      ¬ (cfg.wanIfindex ≠ 0 ∧ fib.ifindex ≠ cfg.wanIfindex) then some fib
  else none

/-- An answer into the softwire cannot be sent: no next hop, a frame too short to hold it, or a WAN
interface that is not registered for redirects. -/
def NoWayBack (env : Env) (m : Maps) (ctx : XdpMd) (cfg : B4Config) : Prop :=
  aftrNexthop env ctx cfg icmpv4ErrorL3Len = none ∨
    ctx.data.length < outerHdrLen + icmpv4ErrorL3Len ∨ m.txPorts cfg.wanIfindex = false

/-- A relayed error about the packet quoted is bound for a LAN that is not registered for
redirects. -/
def NoRelay (env : Env) (m : Maps) (ctx : XdpMd) (quote : Bytes) : Prop :=
  let port := (bpfFibLookup env (relayFibParams ctx quote)).ifindex
  icmpErrorEligible quote = true ∧ (m.lanConfigs port).isSome = true ∧ m.txPorts port = false

section Routines
variable {env : Env} {x : Xdp} {v : ErrorView} {waste : Prop} {report : Bytes → Prop}

theorem XdpMd.adjustTail_to {ctx : XdpMd} {newLen : ℕ} (hnew : ethLen ≤ newLen)
    (h : newLen ≤ ctx.data.length) :
    ctx.adjustTail (ctx.data.length - newLen) = some { ctx with data := ctx.data.take newLen } := by
  rw [XdpMd.adjustTail, if_pos (by omega), Nat.sub_sub_self h]

theorem lookupAftrNexthop_cases (env : Env) (x : Xdp) (cfg : B4Config) (innerLen : ℕ) :
    ∃ y, lookupAftrNexthop env x cfg innerLen = (aftrNexthop env x.ctx cfg innerLen, y) ∧
      y.ctx = x.ctx ∧ y.maps.toLoaderMaps = x.maps.toLoaderMaps ∧
      y.maps.errorView = x.maps.errorView := by
  have hanswer : (lookupAftrNexthop env x cfg innerLen).1 = aftrNexthop env x.ctx cfg innerLen := by
    unfold lookupAftrNexthop aftrNexthop
    dsimp only
    split_ifs <;> first | rfl | tauto
  refine ⟨_, Prod.ext hanswer rfl, ?_, ?_, lookupAftrNexthop_errorView ..⟩
  all_goals
    unfold lookupAftrNexthop
    dsimp only
    split_ifs <;> rfl

/-- What `icmp_error_allowed` answers and leaves. -/
theorem icmpErrorAllowed_cases (env : Env) (x : Xdp) :
    ∃ y, (icmpErrorAllowed env x).2 = y ∧ y.ctx = x.ctx ∧
      y.maps.toLoaderMaps = x.maps.toLoaderMaps ∧
      y.maps.errorView = x.maps.errorView.drawn env ∧
      ((icmpErrorAllowed env x).1 = false ∧ (x.maps.errorView.bucket env).tokens = 0 ∨
        (icmpErrorAllowed env x).1 = true ∧ (x.maps.errorView.bucket env).tokens ≠ 0) := by
  refine ⟨_, rfl, rfl, rfl, rfl, ?_⟩
  change decide ((x.maps.errorView.bucket env).tokens ≠ 0) = false ∧ _ ∨
    decide ((x.maps.errorView.bucket env).tokens ≠ 0) = true ∧ _
  by_cases htoken : (x.maps.errorView.bucket env).tokens = 0
  · exact Or.inl ⟨by simp [htoken], htoken⟩
  · exact Or.inr ⟨by simp [htoken], htoken⟩

theorem Maps.errorView_answered {m : Maps} {s : StatId}
    (hs : s = .icmpFragNeeded ∨ s = .icmpTimeExceeded ∨ s = .tunnelIcmpRelay)
    (hview : m.errorView = v.drawn env) :
    (m.increaseStatsCount s).errorView = { v.drawn env with errors := v.errors + 1 } := by
  have herrors : m.icmpErrors = v.errors := congrArg ErrorView.errors hview
  rw [Maps.errorView_countError hs, hview, herrors]

/-- A token was taken and the run ends without a frame. -/
theorem ErrorOutcome.unsent {r : XdpAction × Xdp} (htoken : (v.bucket env).tokens ≠ 0)
    (hview : r.2.maps.errorView = v.drawn env) (hunsent : sentFrame r = none) (hwaste : waste) :
    ErrorOutcome env v waste report r :=
  .wasted htoken (congrArg ErrorView.rate hview) hunsent hwaste

/-- A token was taken and the error goes to `port`, if that is registered. -/
theorem ErrorOutcome.redirected {r : XdpAction × Xdp} {port : ℕ}
    (htoken : (v.bucket env).tokens ≠ 0)
    (hview : r.2.maps.errorView = { v.drawn env with errors := v.errors + 1 })
    (haction : r.1 = redirectTxPort x.maps port)
    (hwaste : x.maps.txPorts port = false → waste) (hreport : report r.2.ctx.data) :
    ErrorOutcome env v waste report r := by
  cases hport : x.maps.txPorts port with
  | false =>
    refine .wasted htoken (congrArg ErrorView.rate hview) ?_ (hwaste hport)
    simp [sentFrame, haction, redirectTxPort, hport]
  | true =>
    refine .answered htoken hview ?_ hreport
    simp [sentFrame, haction, redirectTxPort, hport]

theorem sendDsliteIcmpFragNeeded_outcome (env : Env) (x : Xdp) (cfg : B4Config) (off nextMtu : ℕ) :
    ErrorOutcome env x.maps.errorView
      ((Iphdr.read (x.ctx.data.drop off)).totLen.toNat < icmpFragQuoteLen ∨
        x.ctx.data.length < off + icmpFragQuoteLen ∨
        icmpErrorEligible (copyIpv4Quote (x.ctx.data.drop off)) = false ∨
        NoWayBack env x.maps x.ctx cfg)
      (SoftwireReport (x.ctx.data.drop off)) (sendDsliteIcmpFragNeeded env x cfg off nextMtu) := by
  obtain ⟨y, hy, hctx, hports, hview, hcase⟩ := icmpErrorAllowed_cases env x
  obtain ⟨z, hlookup, hctx', hports', hview'⟩ := lookupAftrNexthop_cases env y cfg icmpv4ErrorL3Len
  rw [hctx] at hlookup hctx'
  rw [hports] at hports'
  rw [hview] at hview'
  unfold sendDsliteIcmpFragNeeded
  simp only [hy, hlookup]
  split
  · exact .quiet (Maps.errorView_increaseStatsCount (by decide) (by decide) (by decide) _)
  rcases hcase with ⟨hallowed, htoken⟩ | ⟨hallowed, htoken⟩
  · rw [hallowed, if_pos (by decide)]
    exact .limited htoken (by simp [Xdp.exit, hview])
  rw [hallowed, if_neg (by decide), hctx]
  split
  · exact .unsent htoken (by simp [Xdp.exit, hview]) rfl (by tauto)
  next hlong =>
  split
  · next hmay => exact .unsent htoken (by simp [Xdp.exit, hview]) rfl (by simp at hmay; tauto)
  next hmay =>
  cases hfib : aftrNexthop env x.ctx cfg icmpv4ErrorL3Len with
  | none => exact .unsent htoken hview' rfl (.inr (.inr (.inr (.inl hfib))))
  | some fib =>
    dsimp only
    rw [hctx']
    split
    · next hshort =>
      exact .unsent htoken (by simp [Xdp.exit, hview']) rfl
        (.inr (.inr (.inr (.inr (.inl hshort)))))
    next hfits =>
    rw [XdpMd.adjustTail_to (by decide) (by omega)]
    dsimp only
    rw [if_neg (by rw [List.length_take]; omega)]
    apply ErrorOutcome.redirected htoken _ rfl
    · intro hport
      change z.maps.txPorts cfg.wanIfindex = false at hport
      rw [hports'] at hport
      exact .inr (.inr (.inr (.inr (.inr hport))))
    · exact writeDsliteIcmp_report _ cfg fib (by rw [List.length_take]; omega)
        (by rw [List.length_drop]; omega) (by simpa using hmay) (by decide) 4 _
    · rw [redirectToIfindex_errorView _ _ (by decide) (by decide) (by decide)]
      apply Maps.errorView_answered (.inl rfl)
      simp [hview']

theorem sendDsliteIcmpTimeExceeded_outcome (env : Env) (x : Xdp) (cfg : B4Config) (off : ℕ) :
    ErrorOutcome env x.maps.errorView
      (icmpErrorEligible (copyIpv4Quote (x.ctx.data.drop off)) = true ∧
        outerHdrLen + icmpv4ErrorL3Len ≤ x.ctx.data.length ∧ NoWayBack env x.maps x.ctx cfg)
      (SoftwireReport (x.ctx.data.drop off)) (sendDsliteIcmpTimeExceeded env x cfg off) := by
  obtain ⟨y, hy, hctx, hports, hview, hcase⟩ := icmpErrorAllowed_cases env x
  obtain ⟨z, hlookup, hctx', hports', hview'⟩ := lookupAftrNexthop_cases env y cfg icmpv4ErrorL3Len
  rw [hctx] at hlookup hctx'
  rw [hports] at hports'
  rw [hview] at hview'
  have hquiet : (x.exit .decapPass .pass).2.maps.errorView = x.maps.errorView :=
    Maps.errorView_increaseStatsCount (by decide) (by decide) (by decide) _
  unfold sendDsliteIcmpTimeExceeded
  simp only [hy, hlookup]
  split
  · exact .quiet hquiet
  split
  · exact .quiet hquiet
  next hlong =>
  split
  · exact .quiet hquiet
  next hmay =>
  split
  · exact .quiet hquiet
  next hfits =>
  rw [Bool.not_eq_true, Bool.not_eq_false'] at hmay
  rcases hcase with ⟨hallowed, htoken⟩ | ⟨hallowed, htoken⟩
  · rw [hallowed, if_pos (by decide)]
    exact .limited htoken (by simp [Xdp.exit, hview])
  rw [hallowed, if_neg (by decide)]
  cases hfib : aftrNexthop env x.ctx cfg icmpv4ErrorL3Len with
  | none => exact .unsent htoken hview' rfl ⟨hmay, by omega, .inl hfib⟩
  | some fib =>
    dsimp only
    rw [hctx', XdpMd.adjustTail_to (by decide) (by omega)]
    dsimp only
    rw [if_neg (by rw [List.length_take]; omega)]
    apply ErrorOutcome.redirected htoken _ rfl
    · intro hport
      change z.maps.txPorts cfg.wanIfindex = false at hport
      rw [hports'] at hport
      exact ⟨hmay, by omega, .inr (.inr hport)⟩
    · exact writeDsliteIcmp_report _ cfg fib (by rw [List.length_take]; omega)
        (by rw [List.length_drop]; omega) hmay (by decide) 0 _
    · rw [redirectToIfindex_errorView _ _ (by decide) (by decide) (by decide)]
      exact Maps.errorView_answered (.inr (.inl rfl)) hview'

theorem relayedError_type {type code relType relCode : UInt8} {extra relExtra : UInt32}
    (h : relayedError type code extra = some (relType, relCode, relExtra)) :
    relType ∈ [3, 4, 5, 11, 12] := by
  unfold relayedError at h
  split_ifs at h
  all_goals
    cases h
    decide

theorem relayTunnelError_outcome (env : Env) (x : Xdp) (l2Len : ℕ) (type code : UInt8)
    (extra : UInt32) {pkt : Bytes} (hlong : icmpFragQuoteLen ≤ pkt.length) :
    ErrorOutcome env x.maps.errorView (NoRelay env x.maps x.ctx (copyIpv4Quote pkt))
      (LanReport pkt)
      (relayTunnelError env x l2Len type code extra (copyIpv4Quote pkt)) := by
  obtain ⟨y, hy, hctx, hports, hview, hcase⟩ := icmpErrorAllowed_cases env x
  unfold relayTunnelError
  simp only [hy]
  split
  · exact .quiet (Maps.errorView_increaseStatsCount (by decide) (by decide) (by decide) _)
  next relType relCode relExtra hrel =>
  split
  · exact .quiet (Maps.errorView_increaseStatsCount (by decide) (by decide) (by decide) _)
  next hmay =>
  split
  · exact .quiet (Maps.errorView_increaseStatsCount (by decide) (by decide) (by decide) _)
  next hlan =>
  split
  · exact .quiet (Maps.errorView_increaseStatsCount (by decide) (by decide) (by decide) _)
  next hfits =>
  rw [Bool.not_eq_true, Bool.not_eq_false'] at hmay
  rcases hcase with ⟨hallowed, htoken⟩ | ⟨hallowed, htoken⟩
  · rw [hallowed, if_pos (by decide)]
    exact .limited htoken (by simp [Xdp.exit, hview])
  rw [hallowed, if_neg (by decide), hctx]
  have htail : ∃ ctx : XdpMd, (if x.ctx.data.length > ethLen + icmpv4ErrorL3Len then
      x.ctx.adjustTail (x.ctx.data.length - (ethLen + icmpv4ErrorL3Len)) else some x.ctx) = some ctx ∧
        ctx.data.length = ethLen + icmpv4ErrorL3Len := by
    split
    · refine ⟨_, XdpMd.adjustTail_to (by decide) (by omega), ?_⟩
      rw [List.length_take]
      omega
    · exact ⟨_, rfl, by omega⟩
  obtain ⟨ctx, htail, hlen⟩ := htail
  rw [htail]
  dsimp only
  rw [if_neg (by omega)]
  apply ErrorOutcome.redirected htoken _ rfl
  · intro hport
    change y.maps.txPorts _ = false at hport
    rw [hports] at hport
    simp only [not_or, Option.isNone_iff_eq_none] at hlan
    exact ⟨hmay, Option.isSome_iff_ne_none.mpr hlan.2.2, hport⟩
  · exact writeLanIcmpv4Error_report _ _ hlen hlong hmay (relayedError_type hrel) _ _
  · rw [redirectToIfindex_errorView _ _ (by decide) (by decide) (by decide)]
    exact Maps.errorView_answered (.inr (.inr rfl)) hview

theorem sendIcmpv6PktTooBig_outcome (env : Env) (x : Xdp) (src6 : In6Addr) (mtu : ℕ) :
    ErrorOutcome env x.maps.errorView
      (x.ctx.data.length < ethLen + icmpv6PtbReplyL3Len ∨
        x.maps.txPorts x.ctx.ingressIfindex = false)
      (fun frame => ethLen + icmpv6PtbReplyL3Len ≤ x.ctx.data.length ∧
        Icmpv6About (x.ctx.data.drop ethLen) frame ∧ TooBigError (x.ctx.data.drop ethLen) frame)
      (sendIcmpv6PktTooBig env x ethLen src6 mtu) := by
  obtain ⟨y, hy, hctx, hports, hview, hcase⟩ := icmpErrorAllowed_cases env x
  have hquote : icmpv6PtbQuoteLen = 48 := rfl
  have hreply : icmpv6PtbReplyL3Len = 96 := rfl
  have heth : ethLen = 14 := rfl
  unfold sendIcmpv6PktTooBig
  simp only [hy]
  split
  · exact .quiet (Maps.errorView_increaseStatsCount (by decide) (by decide) (by decide) _)
  rcases hcase with ⟨hallowed, htoken⟩ | ⟨hallowed, htoken⟩
  · rw [hallowed, if_pos (by decide)]
    exact .limited htoken (by simp [Xdp.exit, hview])
  rw [hallowed, if_neg (by decide), if_neg (by decide), hctx]
  split
  · exact .unsent htoken (by simp [Xdp.exit, hview]) rfl (.inl (by omega))
  split
  · exact .unsent htoken (by simp [Xdp.exit, hview]) rfl (.inl (by omega))
  next hfits =>
  rw [XdpMd.adjustTail_to (by decide) (by omega)]
  dsimp only
  rw [if_neg (by rw [List.length_take]; omega)]
  apply ErrorOutcome.redirected htoken _ rfl
  · intro hport
    change y.maps.txPorts x.ctx.ingressIfindex = false at hport
    rw [hports] at hport
    exact .inr hport
  · have hlong : icmpv6PtbQuoteLen ≤ (x.ctx.data.drop ethLen).length := by
      rw [List.length_drop]
      omega
    exact ⟨by omega, writeIcmpv6PktTooBig_about _ _ _ hlong,
      writeIcmpv6PktTooBig_error _ _ _ (by rw [List.length_take]; omega) hlong⟩
  · apply Maps.errorView_answered (.inl rfl)
    simp [hview]

end Routines

end Minuteman.Datapath
