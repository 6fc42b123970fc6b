import Minuteman.Datapath.Affinity
import Minuteman.Library.InternetChecksum

/-!
# Shared steps of the XDP programs

Redirection, next-hop and MTU lookups, the learned path MTU, the ICMP error
rate limit, CPU fanout and the TCP MSS clamp.
-/
namespace Minuteman.Datapath
open Library ByteString

/-- `now - then` on the kernel's 64-bit clock. -/
def elapsedNs (now since : ℕ) : ℕ := (now + 2 ^ 64 - since) % 2 ^ 64

/-- `bpf_redirect_map` into `tx_ports`: a missing entry aborts the packet. -/
def redirectTxPort (m : Maps) (ifindex : ℕ) : XdpAction :=
  if m.txPorts ifindex then .redirect (.txPort ifindex) else .aborted

def redirectToIfindex (x : Xdp) (ifindex : ℕ) (stat : StatId) : XdpAction × Xdp :=
  (redirectTxPort x.maps ifindex, x.count stat)

/-- The lookup parameters of `lookup_aftr_nexthop`. -/
def aftrFibParams (ctx : XdpMd) (cfg : B4Config) (innerLen : ℕ) : FibParams where
  l4Protocol := ipprotoIpip
  totLen := (ipv6hdrLen + innerLen) % 2 ^ 16
  addrs := .inet6 cfg.b4Addr cfg.aftrAddr
  ifindex := ctx.ingressIfindex

/-- `lookup_aftr_nexthop`: the resolved next hop, or `none` with the failure counted. -/
def lookupAftrNexthop (env : Env) (x : Xdp) (cfg : B4Config) (innerLen : ℕ) :
    Option FibResult × Xdp :=
  let fib := bpfFibLookup env (aftrFibParams x.ctx cfg innerLen)
  if fib.ret = .success ∨ fib.ret = .fragNeeded then
    if cfg.wanIfindex ≠ 0 ∧ fib.ifindex ≠ cfg.wanIfindex then (none, x.count .fibWrongIf)
    else if fib.ret = .success then (some fib, x.count .fibSuccess)
    else (some fib, x)
  else if fib.ret = .noNeigh then (none, x.count .fibNoNeigh)
  else (none, x.count .fibFail)

/-- `check_dev_mtu`: an unknown device is counted as an abort. -/
def checkDevMtu (env : Env) (x : Xdp) (ifindex l3Len : ℕ) : (MtuCheck × ℕ) × Xdp :=
  let r := bpfCheckMtu env ifindex l3Len
  if r.1 = .error then (r, x.count .abort) else (r, x)

def tunnelPmtuExpiryNs : ℕ := 600 * 1000000000

/-- `tunnel_pmtu_for`: the path MTU learned for a slot, or 0. -/
def tunnelPmtuFor (env : Env) (m : Maps) (slot : ℕ) : ℕ :=
  if slot < numNextHops then
    let e := m.tunnelPmtus slot
    if e.updatedNs = 0 then 0
    else if elapsedNs env.now e.updatedNs > tunnelPmtuExpiryNs then 0
    else e.mtu
  else 0

/-- `ICMP_ERROR_BURST` and `ICMP_ERROR_REFILL_INTERVAL_NS`. -/
def icmpErrorBurst : ℕ := 20
def icmpErrorRefillIntervalNs : ℕ := 1000000000 / 100

/-- The refill of `icmp_error_allowed`: one token per elapsed interval, up to the burst. -/
def IcmpRateBucket.refilled (b : IcmpRateBucket) (now : ℕ) : IcmpRateBucket :=
  let refill := elapsedNs now b.lastRefillNs / icmpErrorRefillIntervalNs
  if refill > 0 then
    ⟨(b.lastRefillNs + refill * icmpErrorRefillIntervalNs) % 2 ^ 64,
      min icmpErrorBurst (b.tokens + refill)⟩
  else b

/-- `icmp_error_allowed`: take a token from this CPU's bucket, refilling it first. -/
def icmpErrorAllowed (env : Env) (x : Xdp) : Bool × Xdp :=
  let b := (x.maps.icmpErrorRate env.cpu).refilled env.now
  let spent : IcmpRateBucket := if b.tokens = 0 then b else { b with tokens := b.tokens - 1 }
  (decide (b.tokens ≠ 0), { x with maps :=
    { x.maps with icmpErrorRate := Function.update x.maps.icmpErrorRate env.cpu spent } })

def murmurMix (h : UInt32) : UInt32 :=
  let h := h ^^^ (h >>> 16)
  let h := h * 0x7feb352d
  let h := h ^^^ (h >>> 15)
  let h := h * 0x846ca68b
  h ^^^ (h >>> 16)

/-- The ports at offset `off`, folded into a flow hash when the transport has them. -/
def hashPorts (pkt : Bytes) (off : ℕ) (proto : UInt8) (h : UInt32) : UInt32 :=
  if off + 4 ≤ pkt.length ∧ (proto = ipprotoTcp ∨ proto = ipprotoUdp) then
    h ^^^ ((be16At pkt off).toUInt32 <<< 16) ^^^ (be16At pkt (off + 2)).toUInt32
  else h

def innerIp4Hash (pkt : Bytes) : UInt32 :=
  let iph := Iphdr.read pkt
  let h := iph.saddr ^^^ iph.daddr ^^^ (iph.protocol.toUInt32 <<< 16)
  if iph.ihl ≠ 5 then murmurMix h else murmurMix (hashPorts pkt iphdrLen iph.protocol h)

def innerIp6Hash (pkt : Bytes) : UInt32 :=
  let ip6h := Ipv6hdr.read pkt
  let words := (List.range 4).map fun i =>
    be32At ip6h.saddr.bytes (4 * i) ^^^ be32At ip6h.daddr.bytes (4 * i)
  let h := words.foldl (· ^^^ ·) 0 ^^^ (ip6h.nexthdr.toUInt32 <<< 16)
  murmurMix (hashPorts pkt ipv6hdrLen ip6h.nexthdr h)

def maxCpus : ℕ := 256

/-- `maybe_redirect_to_cpu`: `none` stands for the value 0, "handle it here", which is also what
a redirect to a CPU missing from the map returns. -/
def maybeRedirectToCpu (m : Maps) (pkt : Bytes) : Option XdpAction :=
  if !m.fanoutConfig.enabled ∨ m.fanoutConfig.cpuCount = 0 then none
  else
    let idx := (innerIp4Hash pkt).toNat % m.fanoutConfig.cpuCount
    if idx ≥ maxCpus then none
    else
      let cpu := m.fanoutCpus idx
      if m.cpuMap cpu then some (.redirect (.cpu cpu)) else none

/-- `maybe_redirect_ipv6_to_cpu`, which counts before it redirects. -/
def maybeRedirectIpv6ToCpu (x : Xdp) (pkt : Bytes) : Option XdpAction × Xdp :=
  let m := x.maps
  if !m.ipv6RssConfig.enabled ∨ m.ipv6RssConfig.cpuCount = 0 then (none, x)
  else
    let idx := (innerIp6Hash pkt).toNat % m.ipv6RssConfig.cpuCount
    if idx ≥ maxCpus then (none, x)
    else
      let cpu := m.ipv6RssCpus idx
      (if m.cpuMapV6 cpu then some (.redirect (.cpuV6 cpu)) else none, x.count .ipv6RssRedirect)

def checksumFold32 (csum : ℕ) : UInt16 :=
  let csum := csum % 65536 + csum / 65536
  let csum := csum % 65536 + csum / 65536
  ~~~ UInt16.ofNat csum

/-- Two folds of a 32-bit accumulator keep the sum modulo `0xffff`. -/
theorem checksumFold32_mod {n : ℕ} (h : n < 2 ^ 32) :
    ((checksumFold32 n).toNat + n) % 65535 = 0 := by
  have hfold : ∀ k : ℕ, (k % 65536 + k / 65536) % 65535 = k % 65535 := by
    intro k
    omega
  have honce : n % 65536 + n / 65536 < 131071 := by omega
  have htwice : (n % 65536 + n / 65536) % 65536 + (n % 65536 + n / 65536) / 65536 < 65536 := by
    generalize n % 65536 + n / 65536 = k at honce
    omega
  have hsame := hfold n
  rw [← hfold (n % 65536 + n / 65536)] at hsame
  unfold checksumFold32
  dsimp only
  generalize (n % 65536 + n / 65536) % 65536 + (n % 65536 + n / 65536) / 65536 = k at htwice hsame ⊢
  rw [complement_toNat, UInt16.toNat_ofNat_of_lt' htwice]
  omega

def csumReplace16 (csum old replacement : UInt16) : UInt16 :=
  checksumFold32 ((~~~csum).toNat + (~~~old).toNat + replacement.toNat)

/-- The option walk of `clamp_tcp_mss`, bounded by `MAX_TCP_OPTIONS`: the offset of the MSS
option in the TCP header `th`. -/
def findMssOption (th : Bytes) (doff : ℕ) : ℕ → ℕ → Option ℕ
  | 0, _ => none
  | fuel + 1, off =>
    if off ≥ doff ∨ th.length < off + 1 then none
    else
      let kind := byteAt th off
      if kind = 0 then none
      else if kind = 1 then findMssOption th doff fuel (off + 1)
      else if off + 2 > doff ∨ th.length < off + 2 then none
      else
        let optlen := (byteAt th (off + 1)).toNat
        if optlen < 2 ∨ off + optlen > doff then none
        else if kind = 2 ∧ optlen = 4 then
          if th.length < off + 4 then none else some off
        else findMssOption th doff fuel (off + optlen)

def maxTcpOptions : ℕ := 10

/-- `clamp_tcp_mss` on the IPv4 packet at offset `off` of the frame: the rewritten frame, if the
advertised MSS was lowered. -/
def clampTcpMss (data : Bytes) (off : ℕ) (clamp : UInt16) : Option Bytes :=
  let iph := Iphdr.read (data.drop off)
  let th := data.drop (off + iphdrLen)
  let flags := byteAt th 13
  let doff := (byteAt th 12 >>> 4).toNat * 4
  if iph.protocol ≠ ipprotoTcp ∨ iph.ihl ≠ 5 then none
  else if iph.fragOff &&& ipOffset ≠ 0 then none
  else if th.length < tcphdrLen then none
  else if flags &&& 2 = 0 ∨ flags &&& 4 ≠ 0 then none
  else if doff ≤ tcphdrLen ∨ doff > 60 then none
  else
    match findMssOption th doff maxTcpOptions tcphdrLen with
    | none => none
    | some opt =>
      let mss := be16At th (opt + 2)
      if mss ≤ clamp then none
      else
        let check := csumReplace16 (be16At th 16) mss clamp
        let data := overwrite data (off + iphdrLen + 16) (be16 check)
        some (overwrite data (off + iphdrLen + opt + 2) (be16 clamp))

def applyMssClamp (x : Xdp) (off : ℕ) (cfg : B4Config) : Xdp :=
  if cfg.mssClamp = 0 then x
  else
    match clampTcpMss x.ctx.data off (UInt16.ofNat cfg.mssClamp) with
    | none => x
    | some data => { x with ctx := { x.ctx with data } }.count .mssClamped

/-! None of the shared steps touches the flow table or the loader's maps. -/

@[simp] theorem redirectToIfindex_kept {stat : StatId} (h : stat ≠ .affinityInsertFail)
    (x : Xdp) (ifindex : ℕ) :
    (redirectToIfindex x ifindex stat).2.maps.kept = x.maps.kept :=
  Maps.kept_increaseStatsCount h x.maps

@[simp] theorem lookupAftrNexthop_kept (env : Env) (x : Xdp) (cfg : B4Config) (innerLen : ℕ) :
    (lookupAftrNexthop env x cfg innerLen).2.maps.kept = x.maps.kept := by
  unfold lookupAftrNexthop
  dsimp only
  split_ifs <;> simp

@[simp] theorem checkDevMtu_kept (env : Env) (x : Xdp) (ifindex l3Len : ℕ) :
    (checkDevMtu env x ifindex l3Len).2.maps.kept = x.maps.kept := by
  unfold checkDevMtu
  dsimp only
  split_ifs <;> simp

@[simp] theorem icmpErrorAllowed_kept (env : Env) (x : Xdp) :
    (icmpErrorAllowed env x).2.maps.kept = x.maps.kept := rfl

@[simp] theorem maybeRedirectIpv6ToCpu_kept (x : Xdp) (pkt : Bytes) :
    (maybeRedirectIpv6ToCpu x pkt).2.maps.kept = x.maps.kept := by
  unfold maybeRedirectIpv6ToCpu
  dsimp only
  split_ifs <;> simp

@[simp] theorem applyMssClamp_kept (x : Xdp) (off : ℕ) (cfg : B4Config) :
    (applyMssClamp x off cfg).maps.kept = x.maps.kept := by
  unfold applyMssClamp
  split_ifs
  · rfl
  · split <;> simp

end Minuteman.Datapath
