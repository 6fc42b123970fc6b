import Minuteman.Datapath.Helpers

/-!
# The ICMP errors the datapath originates

Fragmentation Needed and Time Exceeded, re-encapsulated toward the AFTR, the
plain ICMPv4 error toward the LAN, and the ICMPv6 Packet Too Big of the native
IPv6 path. Every reply is built by shrinking the offending frame in place.
-/
namespace Minuteman.Datapath
open Library ByteString

/-- `ICMP_FRAG_QUOTE_LEN`: the IPv4 header and eight bytes past it. -/
def icmpFragQuoteLen : ℕ := iphdrLen + 8

def icmpv4ErrorLen : ℕ := 8 + icmpFragQuoteLen

/-- `ICMP_FRAG_REPLY_L3_LEN`, `ICMP_TIME_EXCEEDED_REPLY_L3_LEN` and `ICMPV4_ERROR_L3_LEN`. -/
def icmpv4ErrorL3Len : ℕ := iphdrLen + icmpv4ErrorLen

def icmpv6PtbQuoteLen : ℕ := ipv6hdrLen + 8

def icmpv6PktTooBigLen : ℕ := 8 + icmpv6PtbQuoteLen

def icmpv6PtbReplyL3Len : ℕ := ipv6hdrLen + icmpv6PktTooBigLen

def ipv6MinMtu : ℕ := 1280

def b4WellKnownIpv4 : UInt32 := 0xc0000002

def wordSum (b : Bytes) : ℕ := ((List.range (b.length / 2)).map fun i => (be16At b (2 * i)).toNat).sum

/-- `copy_ipv4_quote`, and `copy_ipv6_quote` with the other length. -/
def copyIpv4Quote (pkt : Bytes) : Bytes := pkt.take icmpFragQuoteLen
def copyIpv6Quote (pkt : Bytes) : Bytes := pkt.take icmpv6PtbQuoteLen

def icmpv4TypeIsError (type : UInt8) : Bool :=
  type == 3 || type == 4 || type == 5 || type == 11 || type == 12

/-- `icmp_error_eligible`: no error about a later fragment, another error, or a source that is
not one host. -/
def icmpErrorEligible (quote : Bytes) : Bool :=
  let iph := Iphdr.read quote
  if iph.fragOff &&& ipOffset ≠ 0 then false
  else if iph.saddr = 0 ∨ iph.saddr = 0xffffffff then false
  else if iph.saddr >>> 24 = 127 ∨ iph.saddr >>> 28 = 0xe then false
  else if iph.protocol = ipprotoIcmp ∧ icmpv4TypeIsError (byteAt quote iphdrLen) then false
  else true

/-- An ICMPv4 error message: its type-specific word and the quote, checksummed. -/
def icmpv4Error (type code : UInt8) (word : UInt32) (quote : Bytes) : Bytes :=
  let msg := [type, code, 0, 0] ++ be32 word ++ quote
  overwrite msg 2 (be16 (checksumFold32 (wordSum msg)))

def buildIcmpFragNeeded (quote : Bytes) (nextMtu : ℕ) : Bytes :=
  icmpv4Error 3 4 (UInt16.ofNat nextMtu).toUInt32 quote

def buildIcmpTimeExceeded (quote : Bytes) : Bytes := icmpv4Error 11 0 0 quote

/-- `write_dslite_inner_icmp_iph` and the `ipv4_checksum` that follows it. -/
def innerIcmpIph (quote : Bytes) : Iphdr :=
  let iph : Iphdr :=
    { verIhl := 0x45
      tos := 0
      totLen := UInt16.ofNat icmpv4ErrorL3Len
      id := 0
      fragOff := 0
      ttl := 64
      protocol := ipprotoIcmp
      check := 0
      saddr := b4WellKnownIpv4
      daddr := (Iphdr.read quote).saddr }
  { iph with check := checksumFold32 (wordSum iph.toBytes) }

/-- `write_dslite_icmp_frag_needed`, `write_dslite_icmp_time_exceeded` and the Ethernet header:
the message `msg` inside the softwire. -/
def writeDsliteIcmp (x : Xdp) (cfg : B4Config) (fib : FibResult) (quote msg : Bytes) : Xdp :=
  (((x.store 0 (outerEth6 cfg fib true).toBytes).store ethLen
    (outerIpv6 cfg.b4Addr cfg.aftrAddr ipprotoIpip icmpv4ErrorL3Len).toBytes).store outerHdrLen
      (innerIcmpIph quote).toBytes).store (outerHdrLen + iphdrLen) msg

/-- `send_dslite_icmp_frag_needed` about the IPv4 packet at offset `off`. -/
def sendDsliteIcmpFragNeeded (env : Env) (x : Xdp) (cfg : B4Config) (off nextMtu : ℕ) :
    XdpAction × Xdp :=
  let iph := Iphdr.read (x.ctx.data.drop off)
  let quote := copyIpv4Quote (x.ctx.data.drop off)
  let newLen := outerHdrLen + icmpv4ErrorL3Len
  if iph.ihl ≠ 5 then x.exit .mtuDrop .drop
  else
    let allowed := icmpErrorAllowed env x
    let x := allowed.2
    if !allowed.1 then (x.count .mtuDrop).exit .icmpRateLimited .drop
    else if iph.totLen.toNat < icmpFragQuoteLen ∨ x.ctx.data.length < off + icmpFragQuoteLen then
      x.exit .abort .aborted
    else if !icmpErrorEligible quote then x.exit .mtuDrop .drop
    else
      let lookup := lookupAftrNexthop env x cfg icmpv4ErrorL3Len
      let x := lookup.2
      match lookup.1 with
      | none => (.drop, x)
      | some fib =>
        if newLen > x.ctx.data.length then x.exit .abort .aborted
        else
          match x.ctx.adjustTail (x.ctx.data.length - newLen) with
          | none => x.exit .abort .aborted
          | some ctx =>
            let x : Xdp := { x with ctx }
            if x.ctx.data.length < newLen then x.exit .abort .aborted
            else
              let x := writeDsliteIcmp x cfg fib quote (buildIcmpFragNeeded quote nextMtu)
              redirectToIfindex ((x.count .mtuDrop).count .icmpFragNeeded) cfg.wanIfindex
                .redirectWan

/-- `send_dslite_icmp_time_exceeded`: what it cannot answer itself it leaves to the kernel. -/
def sendDsliteIcmpTimeExceeded (env : Env) (x : Xdp) (cfg : B4Config) (off : ℕ) :
    XdpAction × Xdp :=
  let iph := Iphdr.read (x.ctx.data.drop off)
  let quote := copyIpv4Quote (x.ctx.data.drop off)
  let newLen := outerHdrLen + icmpv4ErrorL3Len
  if iph.ihl ≠ 5 then x.exit .decapPass .pass
  else if iph.totLen.toNat < icmpFragQuoteLen ∨ x.ctx.data.length < off + icmpFragQuoteLen then
    x.exit .decapPass .pass
  else if !icmpErrorEligible quote then x.exit .decapPass .pass
  else if newLen > x.ctx.data.length then x.exit .decapPass .pass
  else
    let allowed := icmpErrorAllowed env x
    let x := allowed.2
    if !allowed.1 then x.exit .icmpRateLimited .drop
    else
      let lookup := lookupAftrNexthop env x cfg icmpv4ErrorL3Len
      let x := lookup.2
      match lookup.1 with
      | none => (.drop, x)
      | some fib =>
        match x.ctx.adjustTail (x.ctx.data.length - newLen) with
        | none => x.exit .abort .aborted
        | some ctx =>
          let x : Xdp := { x with ctx }
          if x.ctx.data.length < newLen then x.exit .abort .aborted
          else
            let x := writeDsliteIcmp x cfg fib quote (buildIcmpTimeExceeded quote)
            redirectToIfindex (x.count .icmpTimeExceeded) cfg.wanIfindex .redirectWan

def writeLanIcmpv4Error (x : Xdp) (fib : FibResult) (quote : Bytes) (type code : UInt8)
    (extra : UInt32) : Xdp :=
  ((x.store 0 (Ethhdr.mk fib.dmac fib.smac ethPIp).toBytes).store ethLen
    (innerIcmpIph quote).toBytes).store (ethLen + iphdrLen) (icmpv4Error type code extra quote)

/-- `ipv6_addr_is_unspecified` and `ipv6_addr_is_loopback`. -/
def ipv6AddrIsUnspecified (a : In6Addr) : Bool := a == FixedBytes.zero 16
def ipv6AddrIsLoopback (a : In6Addr) : Bool := a.bytes == List.replicate 15 0 ++ [1]

/-- The Packet Too Big message of `write_icmpv6_pkt_too_big`; its checksum covers the
pseudo-header. -/
def buildIcmpv6PktTooBig (src dst : In6Addr) (quote : Bytes) (mtu : ℕ) : Bytes :=
  let msg := [2, 0, 0, 0] ++ be32 (UInt32.ofNat mtu) ++ quote
  let pseudo := wordSum src.bytes + wordSum dst.bytes + icmpv6PktTooBigLen + ipprotoIcmpv6.toNat
  overwrite msg 2 (be16 (checksumFold32 (pseudo + wordSum msg)))

def writeIcmpv6PktTooBig (x : Xdp) (l2Len : ℕ) (quote : Bytes) (src6 : In6Addr) (mtu : ℕ) : Xdp :=
  let eth := Ethhdr.read x.ctx.data
  let dst := (Ipv6hdr.read quote).saddr
  ((x.store 0 (Ethhdr.mk eth.hSource eth.hDest ethPIpv6).toBytes).store l2Len
    (outerIpv6 src6 dst ipprotoIcmpv6 icmpv6PktTooBigLen).toBytes).store (l2Len + ipv6hdrLen)
      (buildIcmpv6PktTooBig src6 dst quote mtu)

/-- `send_icmpv6_pkt_too_big`: answer on the interface the packet came from. -/
def sendIcmpv6PktTooBig (env : Env) (x : Xdp) (l2Len : ℕ) (src6 : In6Addr) (mtu : ℕ) :
    XdpAction × Xdp :=
  let quote := copyIpv6Quote (x.ctx.data.drop l2Len)
  let newLen := l2Len + icmpv6PtbReplyL3Len
  if ipv6AddrIsUnspecified src6 then x.exit .ipv6Pass .pass
  else
    let allowed := icmpErrorAllowed env x
    let x := allowed.2
    if !allowed.1 then (x.count .mtuDrop).exit .icmpRateLimited .drop
    else if l2Len < ethLen ∨ l2Len > 64 then x.exit .abort .aborted
    else if x.ctx.data.length < l2Len + icmpv6PtbQuoteLen then x.exit .abort .aborted
    else if newLen > x.ctx.data.length then x.exit .abort .aborted
    else
      match x.ctx.adjustTail (x.ctx.data.length - newLen) with
      | none => x.exit .abort .aborted
      | some ctx =>
        let x : Xdp := { x with ctx }
        if x.ctx.data.length < newLen then x.exit .abort .aborted
        else
          let x := writeIcmpv6PktTooBig x l2Len quote src6 (max mtu ipv6MinMtu)
          (redirectTxPort x.maps x.ctx.ingressIfindex, (x.count .mtuDrop).count .icmpFragNeeded)

@[simp] theorem writeDsliteIcmp_maps (x : Xdp) (cfg : B4Config) (fib : FibResult)
    (quote msg : Bytes) : (writeDsliteIcmp x cfg fib quote msg).maps = x.maps := rfl

@[simp] theorem writeLanIcmpv4Error_maps (x : Xdp) (fib : FibResult) (quote : Bytes)
    (type code : UInt8) (extra : UInt32) :
    (writeLanIcmpv4Error x fib quote type code extra).maps = x.maps := rfl

theorem writeLanIcmpv4Error_frame (x : Xdp) (fib : FibResult) (quote : Bytes) (type code : UInt8)
    (extra : UInt32) :
    ∃ rest, (writeLanIcmpv4Error x fib quote type code extra).ctx.data =
      (Ethhdr.mk fib.dmac fib.smac ethPIp).toBytes ++
        ((innerIcmpIph quote).toBytes ++ (icmpv4Error type code extra quote ++ rest)) := by
  change ∃ rest, overwrite (overwrite (overwrite x.ctx.data 0 _) ethLen _) (ethLen + iphdrLen) _ = _
  rw [overwrite_zero, overwrite_append (by simp; rfl), ← List.append_assoc,
    overwrite_append (by simp; rfl)]
  simp only [List.append_assoc]
  exact ⟨_, rfl⟩

@[simp] theorem writeIcmpv6PktTooBig_maps (x : Xdp) (l2Len : ℕ) (quote : Bytes) (src6 : In6Addr)
    (mtu : ℕ) : (writeIcmpv6PktTooBig x l2Len quote src6 mtu).maps = x.maps := rfl

@[simp] theorem writeIcmpv6PktTooBig_ingress (x : Xdp) (l2Len : ℕ) (quote : Bytes) (src6 : In6Addr)
    (mtu : ℕ) :
    (writeIcmpv6PktTooBig x l2Len quote src6 mtu).ctx.ingressIfindex = x.ctx.ingressIfindex := rfl

@[simp] theorem sendDsliteIcmpFragNeeded_kept (env : Env) (x : Xdp) (cfg : B4Config)
    (off nextMtu : ℕ) :
    (sendDsliteIcmpFragNeeded env x cfg off nextMtu).2.maps.kept = x.maps.kept := by
  unfold sendDsliteIcmpFragNeeded
  dsimp only
  repeat' split
  all_goals simp

@[simp] theorem sendDsliteIcmpTimeExceeded_kept (env : Env) (x : Xdp) (cfg : B4Config)
    (off : ℕ) : (sendDsliteIcmpTimeExceeded env x cfg off).2.maps.kept = x.maps.kept := by
  unfold sendDsliteIcmpTimeExceeded
  dsimp only
  repeat' split
  all_goals simp

@[simp] theorem sendIcmpv6PktTooBig_kept (env : Env) (x : Xdp) (l2Len : ℕ) (src6 : In6Addr)
    (mtu : ℕ) : (sendIcmpv6PktTooBig env x l2Len src6 mtu).2.maps.kept = x.maps.kept := by
  unfold sendIcmpv6PktTooBig
  dsimp only
  repeat' split
  all_goals simp

end Minuteman.Datapath
