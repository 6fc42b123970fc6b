import Minuteman.Datapath.Transparency
import Minuteman.Library.InternetChecksum

/-!
# The frames of the errors the datapath originates

An error is written over the frame that drew it, cut to the length of the
reply. What leaves is valid: its length fields are those of the frame, its
checksums verify, and it quotes the first bytes of the packet it reports on.
-/
namespace Minuteman.Datapath
open Library ByteString

/-- The IPv4 packet `msg` is a valid ICMPv4 error that quotes the first bytes of `pkt`. -/
structure ValidIcmpv4 (pkt msg : Bytes) : Prop where
  version : (Iphdr.read msg).version = 4
  ihl : (Iphdr.read msg).ihl = 5
  totalLength : (Iphdr.read msg).totLen.toNat = msg.length
  headerChecksum : ChecksumOk msg
  protocol : (Iphdr.read msg).protocol = ipprotoIcmp
  icmpChecksum : internetSum (msg.drop iphdrLen) % 65535 = 0
  quote : msg.drop (iphdrLen + 8) = pkt.take icmpFragQuoteLen
  quoteLength : icmpFragQuoteLen ≤ pkt.length

/-- The sum the ICMPv6 checksum is taken over: the pseudo-header and the message. -/
def icmpv6Sum (ip6h : Ipv6hdr) (msg : Bytes) : ℕ :=
  internetSum (ip6h.saddr.bytes ++ (ip6h.daddr.bytes ++ (be32 (UInt32.ofNat msg.length) ++
    [0, 0, 0, ipprotoIcmpv6]))) + internetSum msg

/-- The message `msg` under the header `ip6h` is a valid ICMPv6 error that quotes the first bytes
of `pkt`. -/
structure ValidIcmpv6 (pkt : Bytes) (ip6h : Ipv6hdr) (msg : Bytes) : Prop where
  version : ip6h.version = 6
  payloadLength : ip6h.payloadLen.toNat = msg.length
  protocol : ip6h.nexthdr = ipprotoIcmpv6
  checksum : icmpv6Sum ip6h msg % 65535 = 0
  quote : msg.drop 8 = pkt.take icmpv6PtbQuoteLen
  quoteLength : icmpv6PtbQuoteLen ≤ pkt.length

def SoftwireError (pkt frame : Bytes) : Prop :=
  ∃ (eth : Ethhdr) (outer : Ipv6hdr) (msg : Bytes),
    frame = eth.toBytes ++ (outer.toBytes ++ msg) ∧ eth.hProto = ethPIpv6 ∧ outer.version = 6 ∧
      outer.payloadLen.toNat = msg.length ∧ outer.nexthdr = ipprotoIpip ∧ ValidIcmpv4 pkt msg

def LanError (pkt frame : Bytes) : Prop :=
  ∃ (eth : Ethhdr) (msg : Bytes),
    frame = eth.toBytes ++ msg ∧ eth.hProto = ethPIp ∧ ValidIcmpv4 pkt msg

/-- The frame is a valid Packet Too Big about `pkt`. -/
def TooBigError (pkt frame : Bytes) : Prop :=
  ∃ (eth : Ethhdr) (ip6h : Ipv6hdr) (msg : Bytes),
    frame = eth.toBytes ++ (ip6h.toBytes ++ msg) ∧ eth.hProto = ethPIpv6 ∧
      msg.take 2 = [2, 0] ∧ ValidIcmpv6 pkt ip6h msg

/-! ## The checksums -/

theorem wordSum_cons_cons (a b : UInt8) (rest : Bytes) :
    wordSum (a :: b :: rest) = a.toNat * 256 + b.toNat + wordSum rest := by
  have hhalf : (rest.length + 1 + 1) / 2 = rest.length / 2 + 1 := by omega
  have hword : ∀ i, be16At (a :: b :: rest) (2 * (i + 1)) = be16At rest (2 * i) := by
    intro i
    rw [Nat.mul_add, Nat.add_comm, ← be16At_drop]
    rfl
  simp only [wordSum, List.length_cons, hhalf, List.range_succ_eq_map, List.map_cons, List.map_map,
    List.sum_cons, Function.comp_def, Nat.succ_eq_add_one, hword, Nat.mul_zero]
  rw [be16At_toNat]
  rfl

theorem wordSum_eq_internetSum {b : Bytes} (h : b.length % 2 = 0) : wordSum b = internetSum b := by
  induction b using internetSum.induct with
  | case1 => rfl
  | case2 a => simp at h
  | case3 a b rest ih =>
    rw [wordSum_cons_cons, ih (by simpa [Nat.add_assoc] using h), internetSum]

/-- The checksum stored in a field that was zero makes the sum verify, over whatever else of `base`
it covers. -/
theorem checksummed_mod {b : Bytes} {o : ℕ} (base : ℕ) (heven : b.length % 2 = 0)
    (hlen : b.length < 256) (hbase : base < 2 ^ 31) (hoff : o % 2 = 0)
    (hfits : o + 2 ≤ b.length) (hzero : be16At b o = 0) :
    (base + internetSum (overwrite b o (be16 (checksumFold32 (base + wordSum b))))) % 65535 = 0 := by
  have hle := internetSum_le b
  rw [wordSum_eq_internetSum heven]
  have hfold := checksumFold32_mod (n := base + internetSum b) (by omega)
  rw [internetSum_overwrite_zero hoff hfits hzero]
  omega

section Messages
variable {quote : Bytes}

theorem icmpv4Error_length (type code : UInt8) (word : UInt32) :
    (icmpv4Error type code word quote).length = 8 + quote.length := by
  change (type :: code :: (be16 _ ++ (be32 word ++ quote))).length = _
  simp
  omega

theorem be16At_cons_cons (a b : UInt8) (rest : Bytes) :
    be16At (a :: b :: 0 :: 0 :: rest) 2 = 0 :=
  (be16At_drop _ 2 0).symm.trans (be16At_be16 0 rest)

theorem icmpv4Error_checksum (hquote : quote.length = icmpFragQuoteLen) (type code : UInt8)
    (word : UInt32) : internetSum (icmpv4Error type code word quote) % 65535 = 0 := by
  have hlen : ([type, code, 0, 0] ++ be32 word ++ quote).length = 36 := by
    simp [hquote]
    rfl
  have hmod := checksummed_mod 0 (b := [type, code, 0, 0] ++ be32 word ++ quote) (o := 2)
    (by rw [hlen]) (by rw [hlen]; decide) (by decide) rfl (by rw [hlen]; decide)
    (be16At_cons_cons type code _)
  rw [Nat.zero_add, Nat.zero_add] at hmod
  exact hmod

theorem ipv4HeaderSum_toBytes (iph : Iphdr) (rest : Bytes) :
    ipv4HeaderSum (iph.toBytes ++ rest) = wordSum iph.toBytes := by
  rw [ipv4HeaderSum, wordSum, Iphdr.toBytes_length]
  apply congrArg List.sum
  apply List.map_congr_left
  intro i hi
  rw [List.mem_range] at hi
  rw [be16At_append_left (by rw [Iphdr.toBytes_length]; omega)]

theorem innerIcmpIph_checksum (quote rest : Bytes) :
    ChecksumOk ((innerIcmpIph quote).toBytes ++ rest) := by
  have hread : ∀ iph : Iphdr, be16At iph.toBytes 10 = iph.check := by
    intro iph
    have hcheck := congrArg Iphdr.check (Iphdr.read_toBytes iph [])
    rw [List.append_nil] at hcheck
    exact hcheck
  have heven : ∀ iph : Iphdr, iph.toBytes.length % 2 = 0 := fun iph => by rw [iph.toBytes_length]
  have hmod := checksummed_mod 0 (b := Iphdr.toBytes { innerIcmpIph quote with check := 0 })
    (o := 10) (heven _) (by rw [Iphdr.toBytes_length]; decide) (by decide) rfl
    (by rw [Iphdr.toBytes_length]; decide) (hread _)
  rw [Nat.zero_add, Nat.zero_add] at hmod
  rw [ChecksumOk, ipv4HeaderSum_toBytes, wordSum_eq_internetSum (heven _)]
  exact hmod

theorem buildIcmpv6PktTooBig_length (src dst : In6Addr) (mtu : ℕ) :
    (buildIcmpv6PktTooBig src dst quote mtu).length = 8 + quote.length := by
  change (2 :: 0 :: (be16 _ ++ (be32 _ ++ quote)) : Bytes).length = _
  simp
  omega

theorem pseudoHeader_sum (src dst : In6Addr) :
    internetSum (src.bytes ++ (dst.bytes ++ (be32 (UInt32.ofNat icmpv6PktTooBigLen) ++
      [0, 0, 0, ipprotoIcmpv6]))) =
    wordSum src.bytes + wordSum dst.bytes + icmpv6PktTooBigLen + ipprotoIcmpv6.toNat := by
  have heven : ∀ a : In6Addr, a.bytes.length % 2 = 0 := fun a => by rw [a.size]
  rw [internetSum_append (heven src), internetSum_append (heven dst),
    wordSum_eq_internetSum (heven src), wordSum_eq_internetSum (heven dst), Nat.add_assoc,
    Nat.add_assoc]
  rfl

theorem buildIcmpv6PktTooBig_checksum (hquote : quote.length = icmpv6PtbQuoteLen)
    (ip6h : Ipv6hdr) (mtu : ℕ) :
    icmpv6Sum ip6h (buildIcmpv6PktTooBig ip6h.saddr ip6h.daddr quote mtu) % 65535 = 0 := by
  have hlen : (([2, 0, 0, 0] : Bytes) ++ be32 (UInt32.ofNat mtu) ++ quote).length = 56 := by
    simp [hquote]
    rfl
  have hpseudo := internetSum_le (ip6h.saddr.bytes ++ (ip6h.daddr.bytes ++
    (be32 (UInt32.ofNat icmpv6PktTooBigLen) ++ [0, 0, 0, ipprotoIcmpv6])))
  rw [icmpv6Sum, buildIcmpv6PktTooBig_length, hquote]
  rw [show 8 + icmpv6PtbQuoteLen = icmpv6PktTooBigLen from rfl]
  have hbase := pseudoHeader_sum ip6h.saddr ip6h.daddr
  have hbytes : (ip6h.saddr.bytes ++ (ip6h.daddr.bytes ++
      (be32 (UInt32.ofNat icmpv6PktTooBigLen) ++ [0, 0, 0, ipprotoIcmpv6]))).length = 40 := by
    simp
  rw [hbytes] at hpseudo
  rw [hbase] at hpseudo ⊢
  exact checksummed_mod _ (b := ([2, 0, 0, 0] : Bytes) ++ be32 (UInt32.ofNat mtu) ++ quote)
    (o := 2) (by rw [hlen]) (by rw [hlen]; decide) (by omega) rfl (by rw [hlen]; decide)
    (be16At_cons_cons 2 0 _)

end Messages

/-! ## The frames -/

section Frames
variable {pkt : Bytes}

theorem copyIpv4Quote_length (h : icmpFragQuoteLen ≤ pkt.length) :
    (copyIpv4Quote pkt).length = icmpFragQuoteLen := by
  rw [copyIpv4Quote, List.length_take, Nat.min_eq_left h]

theorem copyIpv6Quote_length (h : icmpv6PtbQuoteLen ≤ pkt.length) :
    (copyIpv6Quote pkt).length = icmpv6PtbQuoteLen := by
  rw [copyIpv6Quote, List.length_take, Nat.min_eq_left h]

/-- A frame that is as long as what was written at its front has nothing behind it. -/
theorem eq_of_written {frame written : Bytes} (h : ∃ rest, frame = written ++ rest)
    (hlen : frame.length = written.length) : frame = written := by
  obtain ⟨rest, rfl⟩ := h
  rw [List.length_append] at hlen
  rw [List.length_eq_zero_iff.mp (by omega : rest.length = 0), List.append_nil]

theorem icmpv4Error_valid (h : icmpFragQuoteLen ≤ pkt.length) (type code : UInt8) (word : UInt32) :
    ValidIcmpv4 pkt ((innerIcmpIph (copyIpv4Quote pkt)).toBytes ++
      icmpv4Error type code word (copyIpv4Quote pkt)) := by
  have hquote := copyIpv4Quote_length h
  have hdrop : ((innerIcmpIph (copyIpv4Quote pkt)).toBytes ++
      icmpv4Error type code word (copyIpv4Quote pkt)).drop iphdrLen =
        icmpv4Error type code word (copyIpv4Quote pkt) := List.drop_left' rfl
  constructor
  · rw [Iphdr.read_toBytes]
    change (0x45 : UInt8) >>> 4 = 4
    decide
  · rw [Iphdr.read_toBytes]
    change (0x45 : UInt8) &&& 0xF = 5
    decide
  · rw [Iphdr.read_toBytes, List.length_append, icmpv4Error_length, hquote]
    rfl
  · exact innerIcmpIph_checksum _ _
  · rw [Iphdr.read_toBytes]
    rfl
  · rw [hdrop]
    exact icmpv4Error_checksum hquote type code word
  · rw [← List.drop_drop, hdrop]
    rfl
  · exact h

theorem writeDsliteIcmp_error (x : Xdp) (cfg : B4Config) (fib : FibResult)
    (hdata : x.ctx.data.length = outerHdrLen + icmpv4ErrorL3Len)
    (h : icmpFragQuoteLen ≤ pkt.length) (type code : UInt8) (word : UInt32) :
    SoftwireError pkt (writeDsliteIcmp x cfg fib (copyIpv4Quote pkt)
      (icmpv4Error type code word (copyIpv4Quote pkt))).ctx.data := by
  have hmsg : (icmpv4Error type code word (copyIpv4Quote pkt)).length = 36 := by
    rw [icmpv4Error_length, copyIpv4Quote_length h]
    rfl
  have hdata : x.ctx.data.length = 110 := hdata
  refine ⟨outerEth6 cfg fib true, outerIpv6 cfg.b4Addr cfg.aftrAddr ipprotoIpip icmpv4ErrorL3Len, _,
    eq_of_written ?_ ?_, rfl, outerIpv6_version _ _ _ _, ?_, rfl,
    icmpv4Error_valid h type code word⟩
  · simp only [List.append_assoc]
    exact writeDsliteIcmp_frame x cfg fib _ _
  · have heth : ethLen = 14 := rfl
    have houter : outerHdrLen = 54 := rfl
    have hiph : iphdrLen = 20 := rfl
    simp only [writeDsliteIcmp, Xdp.store, overwrite, List.length_append, List.length_take,
      List.length_drop, Ethhdr.toBytes_length, Ipv6hdr.toBytes_length, Iphdr.toBytes_length, hmsg]
    omega
  · rw [List.length_append, hmsg]
    rfl

theorem writeLanIcmpv4Error_error (x : Xdp) (fib : FibResult)
    (hdata : x.ctx.data.length = ethLen + icmpv4ErrorL3Len)
    (h : icmpFragQuoteLen ≤ pkt.length) (type code : UInt8) (word : UInt32) :
    LanError pkt (writeLanIcmpv4Error x fib (copyIpv4Quote pkt) type code word).ctx.data := by
  have hmsg : (icmpv4Error type code word (copyIpv4Quote pkt)).length = 36 := by
    rw [icmpv4Error_length, copyIpv4Quote_length h]
    rfl
  have hdata : x.ctx.data.length = 70 := hdata
  refine ⟨Ethhdr.mk fib.dmac fib.smac ethPIp, _, eq_of_written ?_ ?_, rfl,
    icmpv4Error_valid h type code word⟩
  · simp only [List.append_assoc]
    exact writeLanIcmpv4Error_frame x fib _ type code word
  · have heth : ethLen = 14 := rfl
    have hiph : iphdrLen = 20 := rfl
    simp only [writeLanIcmpv4Error, Xdp.store, overwrite, List.length_append, List.length_take,
      List.length_drop, Ethhdr.toBytes_length, Iphdr.toBytes_length, hmsg]
    omega

theorem writeIcmpv6PktTooBig_frame (x : Xdp) (quote : Bytes) (src6 : In6Addr) (mtu : ℕ) :
    ∃ rest, (writeIcmpv6PktTooBig x ethLen quote src6 mtu).ctx.data =
      (Ethhdr.mk (Ethhdr.read x.ctx.data).hSource (Ethhdr.read x.ctx.data).hDest
        ethPIpv6).toBytes ++
        ((outerIpv6 src6 (Ipv6hdr.read quote).saddr ipprotoIcmpv6 icmpv6PktTooBigLen).toBytes ++
          (buildIcmpv6PktTooBig src6 (Ipv6hdr.read quote).saddr quote mtu ++ rest)) := by
  change ∃ rest, overwrite (overwrite (overwrite x.ctx.data 0 _) ethLen _)
    (ethLen + ipv6hdrLen) _ = _
  rw [overwrite_zero, overwrite_append (by simp; rfl), ← List.append_assoc,
    overwrite_append (by simp; rfl)]
  simp only [List.append_assoc]
  exact ⟨_, rfl⟩

theorem writeIcmpv6PktTooBig_error (x : Xdp) (src6 : In6Addr) (mtu : ℕ)
    (hdata : x.ctx.data.length = ethLen + icmpv6PtbReplyL3Len)
    (h : icmpv6PtbQuoteLen ≤ pkt.length) :
    TooBigError pkt (writeIcmpv6PktTooBig x ethLen (copyIpv6Quote pkt) src6 mtu).ctx.data := by
  have hquote := copyIpv6Quote_length h
  have hmsg : (buildIcmpv6PktTooBig src6 (Ipv6hdr.read (copyIpv6Quote pkt)).saddr
      (copyIpv6Quote pkt) mtu).length = 56 := by
    rw [buildIcmpv6PktTooBig_length, hquote]
    rfl
  have hdata : x.ctx.data.length = 110 := hdata
  refine ⟨Ethhdr.mk (Ethhdr.read x.ctx.data).hSource (Ethhdr.read x.ctx.data).hDest ethPIpv6,
    outerIpv6 src6 (Ipv6hdr.read (copyIpv6Quote pkt)).saddr ipprotoIcmpv6 icmpv6PktTooBigLen,
    buildIcmpv6PktTooBig src6 (Ipv6hdr.read (copyIpv6Quote pkt)).saddr (copyIpv6Quote pkt) mtu,
    eq_of_written ?_ ?_, rfl, rfl, outerIpv6_version _ _ _ _, ?_, rfl, ?_, rfl, h⟩
  · simp only [List.append_assoc]
    exact writeIcmpv6PktTooBig_frame x _ src6 mtu
  · have heth : ethLen = 14 := rfl
    have hip6 : ipv6hdrLen = 40 := rfl
    simp only [writeIcmpv6PktTooBig, Xdp.store, overwrite, List.length_append, List.length_take,
      List.length_drop, Ethhdr.toBytes_length, Ipv6hdr.toBytes_length, hmsg]
    omega
  · rw [hmsg]
    rfl
  · exact buildIcmpv6PktTooBig_checksum hquote _ mtu

/-- Only the bytes quoted matter. -/
theorem SoftwireError.congr {pkt' frame : Bytes} (h : SoftwireError pkt frame)
    (hquote : copyIpv4Quote pkt = copyIpv4Quote pkt') (hlen : pkt.length ≤ pkt'.length) :
    SoftwireError pkt' frame := by
  obtain ⟨eth, outer, msg, hframe, hproto, hversion, hpayload, hnext, hvalid⟩ := h
  exact ⟨eth, outer, msg, hframe, hproto, hversion, hpayload, hnext,
    { hvalid with
      quote := hvalid.quote.trans hquote
      quoteLength := hvalid.quoteLength.trans hlen }⟩

end Frames
end Minuteman.Datapath
