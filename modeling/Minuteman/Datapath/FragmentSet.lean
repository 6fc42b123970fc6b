import Minuteman.Datapath.Fragmenter

/-!
# The emitted fragment set

The fragments the four clone programs send reassemble to the inner packet one
hop further, exactly when the WAN port is usable and the lengths fit the
16-bit fields that carry them.
-/
namespace Minuteman.Datapath
open Library ByteString

theorem lookupAftrNexthop_ctx (env : Env) (x : Xdp) (cfg : B4Config) (innerLen : ℕ) :
    (lookupAftrNexthop env x cfg innerLen).2.ctx = x.ctx := by
  unfold lookupAftrNexthop
  dsimp only
  split_ifs <;> rfl

theorem lookupAftrNexthop_toLoaderMaps (env : Env) (x : Xdp) (cfg : B4Config) (innerLen : ℕ) :
    (lookupAftrNexthop env x cfg innerLen).2.maps.toLoaderMaps = x.maps.toLoaderMaps := by
  unfold lookupAftrNexthop
  dsimp only
  split_ifs <;> rfl

/-- Three stores from the front replace exactly the bytes they cover. -/
private theorem store_headers {data a b c : Bytes} (hb : a.length = ethLen)
    (hc : a.length + b.length = outerHdrLen) (hlen : a.length + b.length + c.length = fragInnerOff) :
    overwrite (overwrite (overwrite data 0 a) ethLen b) outerHdrLen c =
      a ++ (b ++ (c ++ data.drop fragInnerOff)) := by
  rw [overwrite_zero, overwrite_append hb, ← List.append_assoc,
    overwrite_append (by rw [List.length_append]; exact hc), List.append_assoc]
  simp only [List.drop_drop]
  rw [hlen]

private theorem skipVlanTag_le {data : Bytes} {s : Option (ℕ × UInt16)} {off : ℕ} {proto : UInt16}
    (h : skipVlanTag data s = some (off, proto)) :
    ∃ off' proto', s = some (off', proto') ∧ off' ≤ off ∧ off ≤ off' + 4 := by
  cases s with
  | none => simp [skipVlanTag] at h
  | some p =>
    obtain ⟨off', proto'⟩ := p
    unfold skipVlanTag at h
    dsimp only at h
    split_ifs at h
    · cases h
      exact ⟨off', proto', rfl, by omega, by omega⟩
    · cases h
      exact ⟨_, _, rfl, le_refl _, by omega⟩

/-- A parsed IPv4 frame: where its header may start and that the packet lies in the frame. -/
theorem parseL2Ipv4_ip {data : Bytes} {l2Len : ℕ} (h : parseL2Ipv4 data = .ip l2Len) :
    l2Len ≤ 22 ∧ l2Len + (Iphdr.read (data.drop l2Len)).totLen.toNat ≤ data.length ∧
      iphdrLen ≤ (Iphdr.read (data.drop l2Len)).totLen.toNat := by
  unfold parseL2Ipv4 at h
  split_ifs at h with hlen
  split at h
  · cases h
  · next off proto hskip =>
    obtain ⟨off₁, proto₁, hskip₁, -, hle₁⟩ := skipVlanTag_le hskip
    obtain ⟨off₂, proto₂, hskip₂, -, hle₂⟩ := skipVlanTag_le hskip₁
    cases hskip₂
    dsimp only at h
    split_ifs at h
    cases h
    have hethLen : ethLen = 14 := rfl
    exact ⟨by omega, by omega, by omega⟩

/-- Growing the frame to put the inner packet at `off` leaves it there unchanged. -/
theorem adjustHead_grow_drop {ctx ctx' : XdpMd} {l2Len off : ℕ} (hlt : l2Len < off)
    (h : ctx.adjustHead ((l2Len : ℤ) - (off : ℤ)) = some ctx') :
    ctx'.data.drop off = ctx.data.drop l2Len := by
  unfold XdpMd.adjustHead at h
  have hgrow : ((l2Len : ℤ) - (off : ℤ)).natAbs = off - l2Len := by omega
  rw [if_pos (by omega)] at h
  dsimp only at h
  rw [hgrow] at h
  split_ifs at h with hroom
  cases h
  have hlen : (ctx.headroom.drop (ctx.headroom.length - (off - l2Len))).length = off - l2Len := by
    simp
    omega
  dsimp only
  rw [List.drop_append, List.drop_eq_nil_of_le (by omega), hlen, List.nil_append]
  congr 1
  omega

def cloneFrame (eth : Ethhdr) (cfg : B4Config) (random : UInt32) (inner : Bytes) (innerLen : ℕ) :
    Bytes :=
  eth.toBytes ++ ((cloneIpv6 cfg innerLen (fragUnitOf cfg)).toBytes ++
    ((cloneFragHdr random).toBytes ++ decreaseIpv4Ttl inner 0))

/-- What a broadcast implies: the guards passed and every clone is the encapsulated packet. -/
theorem encapFragmentOuter_broadcast {env : Env} {x y : Xdp} {l2Len innerLen : ℕ} {cfg : B4Config}
    {wanMtu : ℕ} (hl2 : l2Len ≤ 22)
    (h : encapFragmentOuter env x l2Len innerLen cfg wanMtu = (.redirect .fragPorts, y)) :
    ¬ (Iphdr.read (x.ctx.data.drop l2Len)).ttl ≤ 1 ∧ ¬ fragSlow x.maps cfg innerLen wanMtu ∧
      y.maps.toLoaderMaps = x.maps.toLoaderMaps ∧
      ∃ eth : Ethhdr, eth.hProto = ethPIpv6 ∧
        y.ctx.data = cloneFrame eth cfg env.random (x.ctx.data.drop l2Len) innerLen := by
  have hoff : fragInnerOff = 62 := rfl
  have hctx := lookupAftrNexthop_ctx env x cfg ((fragUnitOf cfg + fragHdrLen) % 2 ^ 16)
  have hmaps := lookupAftrNexthop_toLoaderMaps env x cfg ((fragUnitOf cfg + fragHdrLen) % 2 ^ 16)
  unfold encapFragmentOuter at h
  dsimp only at h
  split_ifs at h with httl hslow
  · cases h
  · cases h
  · refine ⟨httl, hslow, ?_⟩
    split at h
    · cases h
    · next fib x₁ hlookup =>
      rw [hlookup] at hctx hmaps
      dsimp only at hctx hmaps
      split at h
      · cases h
      · next ctx hadjust =>
        split_ifs at h with hshort
        · cases h
        · cases h
          refine ⟨hmaps, outerEth6 cfg fib true, rfl, ?_⟩
          have hinner := adjustHead_grow_drop (by omega) hadjust
          rw [hctx] at hinner
          change decreaseIpv4Ttl (overwrite (overwrite (overwrite ctx.data 0 _) ethLen _)
            outerHdrLen _) fragInnerOff = _
          rw [store_headers (by simp; rfl) (by simp; rfl) (by simp; rfl), hinner,
            ← List.append_assoc, ← List.append_assoc, decreaseIpv4Ttl_append (by simp; rfl),
            List.append_assoc, List.append_assoc]
          rfl

/-- The unit a clone carries: the low sixteen bits of the configured one. -/
def carriedUnit (cfg : B4Config) : ℕ := fragUnitOf cfg % 65536

section Clone
variable {eth : Ethhdr} {cfg : B4Config} {random : UInt32} {inner : Bytes} {innerLen : ℕ}

theorem cloneFrame_length (h : iphdrLen ≤ inner.length) :
    (cloneFrame eth cfg random inner innerLen).length = fragInnerOff + inner.length := by
  simp only [cloneFrame, List.length_append, Ethhdr.toBytes_length, Ipv6hdr.toBytes_length,
    FragHdr.toBytes_length, decreaseIpv4Ttl_length h]
  have hoff : fragInnerOff = 62 := rfl
  omega

@[simp] theorem cloneFrame_eth : Ethhdr.read (cloneFrame eth cfg random inner innerLen) = eth :=
  Ethhdr.read_toBytes _ _

theorem cloneFrame_drop_eth : (cloneFrame eth cfg random inner innerLen).drop ethLen =
    (cloneIpv6 cfg innerLen (fragUnitOf cfg)).toBytes ++
      ((cloneFragHdr random).toBytes ++ decreaseIpv4Ttl inner 0) := by
  rw [cloneFrame, List.drop_left' (by simp; rfl)]

@[simp] theorem cloneFrame_ipv6 :
    Ipv6hdr.read ((cloneFrame eth cfg random inner innerLen).drop ethLen) =
      cloneIpv6 cfg innerLen (fragUnitOf cfg) := by
  rw [cloneFrame_drop_eth, Ipv6hdr.read_toBytes]

@[simp] theorem cloneFrame_fragHdr :
    FragHdr.read ((cloneFrame eth cfg random inner innerLen).drop (ethLen + ipv6hdrLen)) =
      cloneFragHdr random := by
  rw [← List.drop_drop, cloneFrame_drop_eth, List.drop_left' (by simp; rfl), FragHdr.read_toBytes]

theorem cloneFrame_drop_inner :
    (cloneFrame eth cfg random inner innerLen).drop fragInnerOff = decreaseIpv4Ttl inner 0 := by
  have hoff : fragInnerOff = ethLen + (ipv6hdrLen + fragHdrLen) := rfl
  rw [hoff, ← List.drop_drop, cloneFrame_drop_eth, ← List.drop_drop,
    List.drop_left' (by simp; rfl), List.drop_left' (by simp; rfl)]

theorem cloneIpv6_payloadLen {unit : ℕ} :
    (cloneIpv6 cfg innerLen unit).payloadLen.toNat = (innerLen + 8) % 65536 := by
  simp [cloneIpv6, outerIpv6, fragHdrLen]

/-- The clone programs read back the carried unit. -/
theorem cloneIpv6_unit :
    ((byteAt (cloneIpv6 cfg innerLen (fragUnitOf cfg)).flowLbl.bytes 1).toNat * 256 +
      (byteAt (cloneIpv6 cfg innerLen (fragUnitOf cfg)).flowLbl.bytes 2).toNat) / 8 * 8 =
      carriedUnit cfg := by
  simp only [cloneIpv6, byteAt, List.getD_cons_succ, List.getD_cons_zero, UInt8.toNat_ofNat',
    carriedUnit, fragUnitOf]
  omega

theorem parseL2Ipv6_cloneFrame (heth : eth.hProto = ethPIpv6) (hlen : innerLen ≤ inner.length)
    (hinner : iphdrLen ≤ inner.length) :
    parseL2Ipv6 (cloneFrame eth cfg random inner innerLen) = .ip ethLen := by
  have hframe : (cloneFrame eth cfg random inner innerLen).length = _ := cloneFrame_length hinner
  have hoff : fragInnerOff = 62 := rfl
  have heth' : ethLen = 14 := rfl
  have hip6 : ipv6hdrLen = 40 := rfl
  have hversion : (cloneIpv6 cfg innerLen (fragUnitOf cfg)).version = 6 := by
    change (0x60 : UInt8) >>> 4 = 6
    decide
  have hpayload : (cloneIpv6 cfg innerLen (fragUnitOf cfg)).payloadLen.toNat ≤ innerLen + 8 := by
    rw [cloneIpv6_payloadLen]
    exact Nat.mod_le _ _
  unfold parseL2Ipv6
  rw [if_neg (by omega), cloneFrame_eth, if_neg (by simp [heth]), if_neg (by omega)]
  dsimp only
  rw [cloneFrame_ipv6, if_neg (by simp [hversion]), if_neg (by omega)]

/-- The outer fragment a clone program makes of a slice of the inner packet. -/
def outerFragmentOf (cfg : B4Config) (random : UInt32) (f : Fragment UInt8) : OuterFragment where
  src := cfg.b4Addr
  dst := cfg.aftrAddr
  identification := random
  flowLbl := FixedBytes.zero 3
  l3Len := ipv6hdrLen + fragHdrLen + f.payload.length
  slice := f

/-- What the clone programs need of the WAN port and of the 16-bit fields. -/
def CloneUsable (m : LoaderMaps) (cfg : B4Config) (innerLen : ℕ) : Prop :=
  m.b4Config.wanIfindex ≠ 0 ∧ m.txPorts m.b4Config.wanIfindex = true ∧ innerLen ≤ 65527 ∧
    carriedUnit cfg ≠ 0

instance (m : LoaderMaps) (cfg : B4Config) (innerLen : ℕ) : Decidable (CloneUsable m cfg innerLen) :=
  inferInstanceAs (Decidable (_ ∧ _ ∧ _ ∧ _))

private theorem adjustHead_trim {ctx : XdpMd} {n : ℕ} (h : n + ethLen ≤ ctx.data.length) :
    ∃ ctx', (if n > 0 then ctx.adjustHead n else some ctx) = some ctx' ∧
      ctx'.data = ctx.data.drop n := by
  split_ifs with hn
  · unfold XdpMd.adjustHead
    rw [if_neg (by omega)]
    dsimp only [Int.natAbs_natCast]
    rw [if_pos h]
    exact ⟨_, rfl, rfl⟩
  · exact ⟨ctx, rfl, by rw [Nat.eq_zero_of_not_pos hn, List.drop_zero]⟩

private theorem adjustTail_trim {ctx : XdpMd} {n : ℕ} (h : n + ethLen ≤ ctx.data.length) :
    ∃ ctx', (if n > 0 then ctx.adjustTail n else some ctx) = some ctx' ∧
      ctx'.data = ctx.data.take (ctx.data.length - n) := by
  split_ifs with hn
  · unfold XdpMd.adjustTail
    rw [if_pos h]
    exact ⟨_, rfl, rfl⟩
  · refine ⟨ctx, rfl, ?_⟩
    rw [Nat.eq_zero_of_not_pos hn, Nat.sub_zero, List.take_length]

/-- Reading back a fragment whose headers were written over `rest`. -/
private theorem ofFrame_headers {ip6 : Ipv6hdr} {fh : FragHdr} {rest : Bytes} {start len : ℕ}
    {more : Prop} [Decidable more] (hlen : len ≤ 65527) (hstart : start < 65536) (height : 8 ∣ start) :
    OuterFragment.ofFrame (eth.toBytes ++
      ({ ip6 with flowLbl := FixedBytes.zero 3
                  payloadLen := UInt16.ofNat (len + fragHdrLen) : Ipv6hdr }.toBytes ++
        ({ fh with fragOff := UInt16.ofNat (start ||| if more then 1 else 0) : FragHdr }.toBytes ++
          rest))) =
      { src := ip6.saddr
        dst := ip6.daddr
        identification := fh.identification
        flowLbl := FixedBytes.zero 3
        l3Len := ipv6hdrLen + fragHdrLen + len
        slice := ⟨start, decide more, rest.take len⟩ } := by
  have hfrag : fragHdrLen = 8 := rfl
  have hpayload : (UInt16.ofNat (len + fragHdrLen)).toNat = len + fragHdrLen :=
    UInt16.toNat_ofNat_of_lt' (by change _ < 65536; omega)
  have hbit : (if more then 1 else 0) < 2 ^ 3 := by split <;> decide
  have hor : (start ||| if more then 1 else 0) = start + if more then 1 else 0 := by
    obtain ⟨k, rfl⟩ := height
    exact (Nat.two_pow_add_eq_or_of_lt hbit k).symm
  have hoff : (UInt16.ofNat (start ||| if more then 1 else 0)).toNat =
      start + if more then 1 else 0 := by
    rw [hor]
    exact UInt16.toNat_ofNat_of_lt' (by change _ < 65536; split <;> omega)
  have houter : outerHdrLen = ethLen + ipv6hdrLen := rfl
  have hinner : fragInnerOff = ethLen + (ipv6hdrLen + fragHdrLen) := rfl
  unfold OuterFragment.ofFrame
  rw [houter, hinner, ← List.drop_drop, ← List.drop_drop, List.drop_left' (by simp; rfl),
    ← List.drop_drop, List.drop_left' (by simp; rfl), List.drop_left' (by simp; rfl),
    Ipv6hdr.read_toBytes, FragHdr.read_toBytes]
  dsimp only
  have hdiv : (start + if more then 1 else 0) / 8 * 8 = start := by split <;> omega
  have hmod : ((start + if more then 1 else 0) % 2 == 1) = decide more := by
    by_cases hmore : more <;> simp [hmore] <;> omega
  rw [hpayload, hoff, hdiv, hmod, Nat.add_sub_cancel, Nat.add_comm len, Nat.add_assoc]

private theorem sentFrame_redirectToIfindex (x : Xdp) (ifindex : ℕ) (stat : StatId) :
    sentFrame (redirectToIfindex x ifindex stat) =
      if x.maps.txPorts ifindex = true then some x.ctx.data else none := by
  unfold redirectToIfindex redirectTxPort
  split_ifs <;> rfl

/-- Trimming a clone to `unit` bytes of the inner packet from `start` on. -/
private theorem trim_cloneFrame {ctx : XdpMd} {start unit : ℕ}
    (hdata : ctx.data = cloneFrame eth cfg random inner innerLen) (hmin : iphdrLen ≤ innerLen)
    (hlen : innerLen ≤ inner.length) (hstart : start < innerLen) :
    let len := if innerLen - start > unit then unit else innerLen - start
    let slice := (((decreaseIpv4Ttl inner 0).take innerLen).drop start).take unit
    ∃ ctx₁ ctx₂, (if start > 0 then ctx.adjustHead start else some ctx) = some ctx₁ ∧
      (if innerLen - start - len > 0 then ctx₁.adjustTail (innerLen - start - len)
        else some ctx₁) = some ctx₂ ∧
      fragInnerOff ≤ ctx₂.data.length ∧ (ctx₂.data.drop fragInnerOff).take len = slice ∧
      slice.length = len := by
  intro len slice
  have hip : iphdrLen = 20 := rfl
  have hethLen : ethLen = 14 := rfl
  have hoff : fragInnerOff = 62 := rfl
  have hframe : (cloneFrame eth cfg random inner innerLen).length = _ :=
    cloneFrame_length (by omega)
  have hlenMin : min unit (innerLen - start) = len := by
    dsimp only [len]
    split_ifs <;> omega
  obtain ⟨ctx₁, hhead, hdata₁⟩ := @adjustHead_trim ctx start (by rw [hdata]; omega)
  rw [hdata] at hdata₁
  have hlen₁ : ctx₁.data.length = fragInnerOff + inner.length - start := by
    rw [hdata₁, List.length_drop, hframe]
  obtain ⟨ctx₂, htail, hdata₂⟩ := @adjustTail_trim ctx₁ (innerLen - start - len) (by omega)
  have hlen₂ : ctx₂.data.length =
      fragInnerOff + inner.length - start - (innerLen - start - len) := by
    rw [hdata₂, List.length_take, hlen₁]
    omega
  refine ⟨ctx₁, ctx₂, hhead, htail, by omega, ?_, ?_⟩
  · rw [hdata₂, hlen₁, hdata₁, List.drop_take, List.drop_drop, Nat.add_comm start,
      ← List.drop_drop, cloneFrame_drop_inner, List.take_take]
    dsimp only [slice]
    rw [List.drop_take, List.take_take, hlenMin]
    congr 1
    omega
  · rw [List.length_take, List.length_drop, List.length_take, decreaseIpv4Ttl_length (by omega),
      Nat.min_eq_left hlen, hlenMin]

/-- A clone program sends slice `idx` of the inner packet, or nothing. -/
theorem emitSoftwireFragment_cloneFrame {x : Xdp} {idx : ℕ}
    (hdata : x.ctx.data = cloneFrame eth cfg random inner innerLen) (heth : eth.hProto = ethPIpv6)
    (hmin : iphdrLen ≤ innerLen) (hmax : innerLen < 65536) (hlen : innerLen ≤ inner.length) :
    (sentFrame (emitSoftwireFragment x idx)).map OuterFragment.ofFrame =
      if CloneUsable x.maps.toLoaderMaps cfg innerLen then
        (chunk (carriedUnit cfg) ((decreaseIpv4Ttl inner 0).take innerLen) idx).map
          (outerFragmentOf cfg random)
      else none := by
  have hfrag : fragHdrLen = 8 := rfl
  have hip : iphdrLen = 20 := rfl
  have hethLen : ethLen = 14 := rfl
  have hoff : fragInnerOff = 62 := rfl
  have hip6 : ipv6hdrLen = 40 := rfl
  have hframe : (cloneFrame eth cfg random inner innerLen).length = _ :=
    cloneFrame_length (by omega)
  have hdec : ((decreaseIpv4Ttl inner 0).take innerLen).length = innerLen := by
    rw [List.length_take, decreaseIpv4Ttl_length (by omega)]
    omega
  have hnext : (cloneIpv6 cfg innerLen (fragUnitOf cfg)).nexthdr = ipprotoFragment := rfl
  have hmult : 8 ∣ carriedUnit cfg := by
    unfold carriedUnit fragUnitOf
    omega
  have hcarried : carriedUnit cfg < 65536 := Nat.mod_lt _ (by decide)
  unfold emitSoftwireFragment
  rw [hdata, parseL2Ipv6_cloneFrame heth hlen (by omega)]
  dsimp only
  rw [cloneFrame_eth, cloneFrame_ipv6, cloneFrame_fragHdr, cloneIpv6_unit, cloneIpv6_payloadLen,
    if_neg (by simp [hnext]), if_neg (by omega)]
  by_cases hwide : innerLen ≤ 65527
  · have htotal : innerLen + 8 - fragHdrLen = innerLen := by omega
    rw [Nat.mod_eq_of_lt (by omega), if_neg (by omega), htotal]
    by_cases hwan : x.maps.b4Config.wanIfindex = 0
    · rw [if_pos hwan, if_neg (fun h => h.1 hwan)]
      rfl
    rw [if_neg hwan]
    by_cases hunit : carriedUnit cfg = 0
    · rw [if_pos (by omega), if_neg (fun h => h.2.2.2 hunit)]
      rfl
    rw [if_neg (by omega)]
    by_cases hstart : idx * carriedUnit cfg < innerLen
    · rw [if_neg (by omega)]
      obtain ⟨ctx₁, ctx₂, hhead, htail, hroom, hslice, hpayload⟩ :=
        @trim_cloneFrame _ _ _ _ _ x.ctx (idx * carriedUnit cfg) (carriedUnit cfg) hdata hmin hlen
          hstart
      rw [hhead]
      dsimp only
      rw [htail]
      dsimp only
      rw [if_neg (by omega), sentFrame_redirectToIfindex]
      change Option.map _ (if x.maps.txPorts x.maps.b4Config.wanIfindex = true then some
        (overwrite (overwrite (overwrite ctx₂.data 0 _) ethLen _) outerHdrLen _) else none) = _
      by_cases hport : x.maps.txPorts x.maps.b4Config.wanIfindex = true
      · have husable : CloneUsable x.maps.toLoaderMaps cfg innerLen := ⟨hwan, hport, hwide, hunit⟩
        rw [if_pos hport, if_pos husable, chunk, hdec, if_pos hstart,
          store_headers (by simp; rfl) (by simp; rfl) (by simp; rfl), Option.map_some,
          Option.map_some, ofFrame_headers (by split_ifs <;> omega) (by omega)
          (hmult.mul_left idx), hslice, outerFragmentOf, hpayload]
        rfl
      · rw [if_neg hport, if_neg (fun h => hport h.2.1)]
        rfl
    · rw [if_pos (by omega), chunk, hdec, if_neg hstart]
      simp [sentFrame]
  · rw [if_pos (by omega), if_neg (fun h => hwide h.2.2.1)]
    rfl

end Clone

/-- The fragments are one set that reassembles to `inner` one hop further, and each fits. -/
structure CarriesOneHopFurther (fs : List OuterFragment) (inner : Bytes) (wanMtu : ℕ) : Prop where
  sameSet : ∃ src dst identification, ∀ f ∈ fs,
    f.src = src ∧ f.dst = dst ∧ f.identification = identification
  body : ∃ out, Reassembles (fs.map OuterFragment.slice) out ∧ OneHopFurther inner out
  fits : ∀ f ∈ fs, f.l3Len ≤ wanMtu
  unlabelled : ∀ f ∈ fs, f.flowLbl = FixedBytes.zero 3

section Broadcast
variable {env : Env} {x y : Xdp} {l2Len : ℕ} {cfg : B4Config} {wanMtu : ℕ} {units : ℕ → ℕ}
  {clones : ℕ → XdpMd}

def innerPacket (data : Bytes) (l2Len : ℕ) : Bytes :=
  (data.drop l2Len).take (Iphdr.read (data.drop l2Len)).totLen.toNat

theorem innerPacket_length {data : Bytes} (h : parseL2Ipv4 data = .ip l2Len) :
    (innerPacket data l2Len).length = (Iphdr.read (data.drop l2Len)).totLen.toNat := by
  obtain ⟨-, hin, -⟩ := parseL2Ipv4_ip h
  rw [innerPacket, List.length_take, List.length_drop]
  omega

theorem innerPacket_ttl {data : Bytes} (h : parseL2Ipv4 data = .ip l2Len) :
    (Iphdr.read (innerPacket data l2Len)).ttl = (Iphdr.read (data.drop l2Len)).ttl := by
  have hlen := innerPacket_length h
  have hmin := (parseL2Ipv4_ip h).2.2
  have hip : iphdrLen = 20 := rfl
  have hbyte : byteAt (innerPacket data l2Len ++ (data.drop l2Len).drop
      (Iphdr.read (data.drop l2Len)).totLen.toNat) 8 = _ := byteAt_append_left (by omega)
  rw [innerPacket, List.take_append_drop] at hbyte
  exact hbyte.symm

theorem decreaseIpv4Ttl_innerPacket {data : Bytes} (h : parseL2Ipv4 data = .ip l2Len) :
    (decreaseIpv4Ttl (data.drop l2Len) 0).take (Iphdr.read (data.drop l2Len)).totLen.toNat =
      decreaseIpv4Ttl (innerPacket data l2Len) 0 := by
  have hlen := innerPacket_length h
  have hmin : iphdrLen ≤ (innerPacket data l2Len).length := by
    rw [hlen]
    exact (parseL2Ipv4_ip h).2.2
  have hsplit := decreaseIpv4Ttl_append_right hmin
    ((data.drop l2Len).drop (Iphdr.read (data.drop l2Len)).totLen.toNat)
  rw [innerPacket, List.take_append_drop] at hsplit
  rw [hsplit, List.take_left']
  · rfl
  · rw [← innerPacket, decreaseIpv4Ttl_length hmin, hlen]

/-- The clone programs together send the pieces of the packet they have room for. -/
theorem emittedFragments_eq (hparse : parseL2Ipv4 x.ctx.data = .ip l2Len)
    (hout : encapFragmentOuter env x l2Len (Iphdr.read (x.ctx.data.drop l2Len)).totLen.toNat cfg
      wanMtu = (.redirect .fragPorts, y)) (hclones : ∀ i, (clones i).data = y.ctx.data) :
    emittedFragments y units clones =
      if CloneUsable x.maps.toLoaderMaps cfg
          (Iphdr.read (x.ctx.data.drop l2Len)).totLen.toNat then
        (chunks (carriedUnit cfg) maxSoftwireFrags
          (decreaseIpv4Ttl (innerPacket x.ctx.data l2Len) 0)).map (outerFragmentOf cfg env.random)
      else [] := by
  obtain ⟨hl2, hin, hmin⟩ := parseL2Ipv4_ip hparse
  obtain ⟨-, -, hmaps, eth, heth, hdata⟩ := encapFragmentOuter_broadcast hl2 hout
  have hclone : ∀ i, (sentFrame (runClone y units clones i)).map OuterFragment.ofFrame = _ :=
    fun i => emitSoftwireFragment_cloneFrame ((hclones i).trans hdata) heth hmin
      (UInt16.toNat_lt _) (by rw [List.length_drop]; omega)
  have husable : ∀ i, CloneUsable { y.maps with
      b4Config := { y.maps.b4Config with fragUnit := units i } }.toLoaderMaps cfg
        (Iphdr.read (x.ctx.data.drop l2Len)).totLen.toNat ↔ CloneUsable x.maps.toLoaderMaps cfg
          (Iphdr.read (x.ctx.data.drop l2Len)).totLen.toNat := by
    intro i
    rw [← hmaps]
    rfl
  have hpiece : ∀ i, (sentFrame (runClone y units clones i)).map OuterFragment.ofFrame =
      if CloneUsable x.maps.toLoaderMaps cfg (Iphdr.read (x.ctx.data.drop l2Len)).totLen.toNat then
        (chunk (carriedUnit cfg) (decreaseIpv4Ttl (innerPacket x.ctx.data l2Len) 0) i).map
          (outerFragmentOf cfg env.random)
      else none := by
    intro i
    rw [hclone i, decreaseIpv4Ttl_innerPacket hparse]
    exact if_congr (husable i) rfl rfl
  unfold emittedFragments
  simp only [List.map_filterMap, hpiece]
  split_ifs
  · rw [chunks, List.map_filterMap]
  · simp

/-- The emitted fragments carry the inner packet one hop further exactly when the WAN port is
known and open, the packet with the Fragment header fits the payload length field, and four
carried units cover it. -/
theorem emittedFragments_carry_iff (hparse : parseL2Ipv4 x.ctx.data = .ip l2Len)
    (hout : encapFragmentOuter env x l2Len (Iphdr.read (x.ctx.data.drop l2Len)).totLen.toNat cfg
      wanMtu = (.redirect .fragPorts, y)) (hclones : ∀ i, (clones i).data = y.ctx.data) :
    CarriesOneHopFurther (emittedFragments y units clones) (innerPacket x.ctx.data l2Len) wanMtu ↔
      x.maps.b4Config.wanIfindex ≠ 0 ∧ x.maps.txPorts x.maps.b4Config.wanIfindex = true ∧
        (Iphdr.read (x.ctx.data.drop l2Len)).totLen.toNat ≤ 65527 ∧
        (Iphdr.read (x.ctx.data.drop l2Len)).totLen.toNat ≤
          maxSoftwireFrags * (fragUnitOf cfg % 65536) := by
  obtain ⟨hl2, hin, hmin⟩ := parseL2Ipv4_ip hparse
  obtain ⟨httl, hslow, -⟩ := encapFragmentOuter_broadcast hl2 hout
  have hip : iphdrLen = 20 := rfl
  have hlen := innerPacket_length hparse
  have hbody : (decreaseIpv4Ttl (innerPacket x.ctx.data l2Len) 0).length =
      (Iphdr.read (x.ctx.data.drop l2Len)).totLen.toNat := by
    rw [decreaseIpv4Ttl_length (by omega), hlen]
  have hne : decreaseIpv4Ttl (innerPacket x.ctx.data l2Len) 0 ≠ [] :=
    List.ne_nil_of_length_pos (by omega)
  have hmult : 8 ∣ carriedUnit cfg := by
    unfold carriedUnit fragUnitOf
    omega
  have hslice : OuterFragment.slice ∘ outerFragmentOf cfg env.random = id := rfl
  rw [emittedFragments_eq hparse hout hclones]
  constructor
  · rintro ⟨-, ⟨out, hre, -⟩, -, -⟩
    split_ifs at hre with husable
    · rw [List.map_map, hslice, List.map_id] at hre
      have hcover := hre.length_le_of_chunks (Nat.pos_of_ne_zero husable.2.2.2) hne
      rw [hbody] at hcover
      exact ⟨husable.1, husable.2.1, husable.2.2.1, hcover⟩
    · have hone := hre.oneLast
      simp at hone
  · rintro ⟨hwan, hport, hwide, hcover⟩
    have hunit : carriedUnit cfg ≠ 0 := by
      intro hzero
      unfold carriedUnit at hzero
      rw [hzero] at hcover
      omega
    rw [if_pos ⟨hwan, hport, hwide, hunit⟩]
    refine ⟨⟨cfg.b4Addr, cfg.aftrAddr, env.random, ?_⟩,
      ⟨decreaseIpv4Ttl (innerPacket x.ctx.data l2Len) 0, ?_, ?_⟩, ?_, ?_⟩
    · intro f hf
      obtain ⟨s, -, rfl⟩ := List.mem_map.mp hf
      exact ⟨rfl, rfl, rfl⟩
    · rw [List.map_map, hslice, List.map_id]
      exact chunks_reassemble (Nat.pos_of_ne_zero hunit) hmult hne (by rw [hbody]; exact hcover)
    · apply decreaseIpv4Ttl_oneHopFurther (by omega)
      rw [innerPacket_ttl hparse]
      rintro hzero
      rw [hzero] at httl
      exact httl (by decide)
    · intro f hf
      obtain ⟨s, hs, rfl⟩ := List.mem_map.mp hf
      obtain ⟨i, -, rfl⟩ := eq_of_mem_chunks hs
      have hroom : fragUnitOf cfg + ipv6hdrLen + fragHdrLen ≤ wanMtu := by
        unfold fragSlow at hslow
        omega
      have hcarried : carriedUnit cfg ≤ fragUnitOf cfg := Nat.mod_le _ _
      have htake := List.length_take_le (carriedUnit cfg)
        ((decreaseIpv4Ttl (innerPacket x.ctx.data l2Len) 0).drop (i * carriedUnit cfg))
      simp only [outerFragmentOf]
      omega
    · intro f hf
      obtain ⟨s, -, rfl⟩ := List.mem_map.mp hf
      rfl

end Broadcast

def sampleFrame : Bytes :=
  [2, 0, 0, 0, 0, 1, 2, 0, 0, 0, 0, 2, 0x08, 0x00,
    0x45, 0, 0, 40, 0, 1, 0, 0, 64, 17, 0, 0, 192, 168, 1, 10, 203, 0, 113, 5,
    0x13, 0x88, 0, 53, 0, 20, 0, 0, 1, 2, 3, 4, 5, 6, 7, 8, 9, 10, 11, 12]

def sampleConfig (wanIfindex : ℕ) : B4Config :=
  { wanIfindex, fragUnit := 16, fragMaxInner := 1500 }

def sampleXdp (wanIfindex : ℕ) : Xdp where
  maps :=
    { b4Config := sampleConfig wanIfindex
      txPorts := fun ifindex => ifindex == 2
      fragPorts := fun i => some (i + 10) }
  ctx := ⟨sampleFrame, List.replicate 64 0, 3⟩

def sampleEnv : Env where
  fib := fun _ => { ret := .success, egress := 2 }
  mtu := fun _ => some 1280
  now := 0

def sampleBroadcast (wanIfindex : ℕ) : XdpAction × Xdp :=
  encapFragmentOuter sampleEnv (sampleXdp wanIfindex) 14 40 (sampleConfig wanIfindex) 1280

theorem emittedFragments_carry_iff_sample :
    parseL2Ipv4 sampleFrame = .ip 14 ∧ (sampleBroadcast 2).1 = .redirect .fragPorts ∧
      CarriesOneHopFurther
        (emittedFragments (sampleBroadcast 2).2 (fun i => 8 * i) fun _ => (sampleBroadcast 2).2.ctx)
        (innerPacket sampleFrame 14) 1280 := by
  have hparse : parseL2Ipv4 sampleFrame = .ip 14 := by decide
  have hout : (sampleBroadcast 2).1 = .redirect .fragPorts := by decide
  refine ⟨hparse, hout, ?_⟩
  exact (emittedFragments_carry_iff (x := sampleXdp 2) (y := (sampleBroadcast 2).2) hparse
    (Prod.ext hout rfl) (fun _ => rfl)).mpr ⟨by decide, rfl, by decide, by decide⟩

/-- With no WAN interface configured the broadcast still happens, and every clone is dropped. -/
theorem broadcast_without_wan_lost :
    parseL2Ipv4 sampleFrame = .ip 14 ∧ (sampleBroadcast 0).1 = .redirect .fragPorts ∧
      ¬ CarriesOneHopFurther
        (emittedFragments (sampleBroadcast 0).2 (fun _ => 16) fun _ => (sampleBroadcast 0).2.ctx)
        (innerPacket sampleFrame 14) 1280 := by
  refine ⟨by decide, by decide, ?_⟩
  rintro ⟨-, ⟨out, hre, -⟩, -, -⟩
  have hnone : ((emittedFragments (sampleBroadcast 0).2 (fun _ => 16) fun _ =>
      (sampleBroadcast 0).2.ctx).map OuterFragment.slice).length = 0 := by decide
  have hone := hre.oneLast
  rw [List.eq_nil_of_length_eq_zero hnone] at hone
  simp at hone

end Minuteman.Datapath
