import Minuteman.Datapath.IcmpErrors

/-!
# Native IPv6 forwarding

The router step shared by the LAN and WAN programs and by the software-RSS
stage: look up the next hop, rewrite the link header, decrement the hop limit
and redirect. What is not plain transit goes back to the kernel.
-/
namespace Minuteman.Datapath
open Library ByteString

def isLinkLocal (a : In6Addr) : Bool :=
  byteAt a.bytes 0 == 0xfe && byteAt a.bytes 1 &&& 0xc0 == 0x80

def isMulticast6 (a : In6Addr) : Bool := byteAt a.bytes 0 == 0xff

def ipv6IsForwardable (ip6h : Ipv6hdr) : Bool :=
  if isMulticast6 ip6h.daddr then false
  else if isLinkLocal ip6h.daddr then false
  else if ipv6AddrIsLoopback ip6h.daddr then false
  else if ipv6AddrIsUnspecified ip6h.daddr then false
  else if ipv6AddrIsUnspecified ip6h.saddr then false
  else if isMulticast6 ip6h.saddr then false
  else if isLinkLocal ip6h.saddr then false
  else if ipv6AddrIsLoopback ip6h.saddr then false
  else if ip6h.nexthdr = ipprotoHopopts ∨ ip6h.nexthdr = ipprotoRouting ∨
      ip6h.nexthdr = ipprotoFragment ∨ ip6h.nexthdr = ipprotoDstopts then false
  else true

/-- The lookup parameters of `handle_ipv6_forward`. -/
def ipv6FibParams (ctx : XdpMd) (ip6h : Ipv6hdr) : FibParams where
  l4Protocol := ip6h.nexthdr
  totLen := (ipv6hdrLen + ip6h.payloadLen.toNat) % 2 ^ 16
  addrs := .inet6 ip6h.saddr ip6h.daddr
  ifindex := ctx.ingressIfindex

def handleIpv6Forward (env : Env) (x : Xdp) (l2Len : ℕ) (cfg : B4Config) : XdpAction × Xdp :=
  let ip6h := Ipv6hdr.read (x.ctx.data.drop l2Len)
  let fib := bpfFibLookup env (ipv6FibParams x.ctx ip6h)
  if !ipv6IsForwardable ip6h then x.exit .ipv6Pass .pass
  else if ip6h.hopLimit ≤ 1 then x.exit .ipv6Pass .pass
  else if fib.ret = .fragNeeded then sendIcmpv6PktTooBig env x l2Len cfg.b4Addr fib.mtuResult
  else if fib.ret ≠ .success then
    if fib.ret = .noNeigh then x.exit .fibNoNeigh .pass else x.exit .ipv6Pass .pass
  else if fib.ifindex = x.ctx.ingressIfindex then x.exit .ipv6Pass .pass
  else if fib.ifindex ≠ cfg.wanIfindex ∧ (x.maps.getLanConfig fib.ifindex).isNone then
    x.exit .fibWrongIf .pass
  else
    let x := x.count .fibSuccess
    if x.ctx.data.length < ethLen ∨ x.ctx.data.length < l2Len + ipv6hdrLen then
      x.exit .abort .aborted
    else
      let eth := Ethhdr.read x.ctx.data
      let x := x.store 0 { eth with hDest := fib.dmac, hSource := fib.smac : Ethhdr }.toBytes
      let x := x.store (l2Len + 7) [ip6h.hopLimit - 1]
      redirectToIfindex x fib.ifindex .ipv6Fwd

/-- `do_xdp_ipv6_fwd_cpu`: the second stage of software RSS. -/
def doXdpIpv6FwdCpu (env : Env) (x : Xdp) : XdpAction × Xdp :=
  match parseL2Ipv6 x.ctx.data with
  | .malformed => x.exit .ipv6Pass .pass
  | .other => x.exit .ipv6Pass .pass
  | .ip l2Len =>
    match resolveActiveSoftwire x.maps with
    | none => x.exit .noConfig .pass
    | some cfg => handleIpv6Forward env x l2Len cfg

@[simp] theorem handleIpv6Forward_kept (env : Env) (x : Xdp) (l2Len : ℕ) (cfg : B4Config) :
    (handleIpv6Forward env x l2Len cfg).2.maps.kept = x.maps.kept := by
  unfold handleIpv6Forward
  dsimp only
  repeat' split
  all_goals simp

@[simp] theorem doXdpIpv6FwdCpu_kept (env : Env) (x : Xdp) :
    (doXdpIpv6FwdCpu env x).2.maps.kept = x.maps.kept := by
  unfold doXdpIpv6FwdCpu
  repeat' split
  all_goals simp

end Minuteman.Datapath
