import Minuteman.Datapath.Helpers
import Minuteman.Library.InternetChecksum

/-!
# What clamping the MSS of a SYN changes

`clamp_tcp_mss` rewrites the MSS option and updates the TCP checksum for a
16-bit word that has changed. The option walk is bounded by the end of the
frame and takes the option wherever it stands, so the update is right for an
option at an even offset of the header and inside the packet.
-/
namespace Minuteman.Datapath
open Library ByteString

def ipv4Packet (data : Bytes) (off : ℕ) : Bytes :=
  (data.drop off).take (Iphdr.read (data.drop off)).totLen.toNat

/-- The sum the TCP checksum is taken over: the pseudo-header and the segment. -/
def tcpSum (pkt : Bytes) : ℕ :=
  internetSum ((pkt.drop 12).take 8) + ipprotoTcp.toNat + (pkt.length - iphdrLen) +
    internetSum (pkt.drop iphdrLen)

def TcpChecksumOk (pkt : Bytes) : Prop := tcpSum pkt % 65535 = 0

instance (pkt : Bytes) : Decidable (TcpChecksumOk pkt) := by
  unfold TcpChecksumOk
  infer_instance

def tcpDoff (th : Bytes) : ℕ := (byteAt th 12 >>> 4).toNat * 4

/-- An MSS option of four bytes at offset `opt` of the TCP header `th`. -/
structure IsMssOption (th : Bytes) (opt : ℕ) : Prop where
  area : tcphdrLen ≤ opt
  within : opt + 4 ≤ tcpDoff th
  present : opt + 4 ≤ th.length
  kind : byteAt th opt = 2
  length : byteAt th (opt + 1) = 4

/-- What the option walk returns is an MSS option behind the offset it starts from. -/
theorem findMssOption_some {th : Bytes} {doff fuel off opt : ℕ}
    (h : findMssOption th doff fuel off = some opt) :
    off ≤ opt ∧ opt + 4 ≤ doff ∧ opt + 4 ≤ th.length ∧ byteAt th opt = 2 ∧
      byteAt th (opt + 1) = 4 := by
  induction fuel generalizing off with
  | zero => cases h
  | succ fuel ih =>
    unfold findMssOption at h
    dsimp only at h
    split_ifs at h with hend heol hnop hlen hopt hmss hshort
    · obtain ⟨hle, hrest⟩ := ih h
      exact ⟨by omega, hrest⟩
    · cases h
      refine ⟨le_rfl, by omega, by omega, hmss.1, ?_⟩
      apply UInt8.toNat_inj.mp
      exact hmss.2
    · obtain ⟨hle, hrest⟩ := ih h
      exact ⟨by omega, hrest⟩

theorem tcpDoff_le (th : Bytes) : tcpDoff th ≤ 60 := by
  have hlt := (byteAt th 12).toNat_lt
  have hshift : (byteAt th 12 >>> 4).toNat = (byteAt th 12).toNat / 16 := by
    rw [UInt8.toNat_shiftRight]
    exact Nat.shiftRight_eq_div_pow _ _
  rw [tcpDoff, hshift]
  omega

theorem IsMssOption.of_found {th : Bytes} {opt : ℕ}
    (h : findMssOption th (tcpDoff th) maxTcpOptions tcphdrLen = some opt) : IsMssOption th opt := by
  obtain ⟨harea, hwithin, hpresent, hkind, hlength⟩ := findMssOption_some h
  exact ⟨harea, hwithin, hpresent, hkind, hlength⟩

/-- The clamp rewrites the MSS option at offset `opt` of the TCP header. -/
structure RewritesMss (pkt : Bytes) (clamp : UInt16) (opt : ℕ) : Prop where
  tcp : (Iphdr.read pkt).protocol = ipprotoTcp
  plain : (Iphdr.read pkt).ihl = 5
  first : (Iphdr.read pkt).fragOff &&& ipOffset = 0
  syn : byteAt (pkt.drop iphdrLen) 13 &&& 2 ≠ 0
  rst : byteAt (pkt.drop iphdrLen) 13 &&& 4 = 0
  found : findMssOption (pkt.drop iphdrLen) (tcpDoff (pkt.drop iphdrLen)) maxTcpOptions tcphdrLen =
    some opt
  above : clamp < be16At (pkt.drop iphdrLen) (opt + 2)

def rewriteMss (pkt : Bytes) (opt : ℕ) (clamp : UInt16) : Bytes :=
  let th := pkt.drop iphdrLen
  let check := csumReplace16 (be16At th 16) (be16At th (opt + 2)) clamp
  overwrite (overwrite pkt (iphdrLen + 16) (be16 check)) (iphdrLen + opt + 2) (be16 clamp)

/-- The clamp works on the packet alone. -/
theorem clampTcpMss_eq {data : Bytes} {off : ℕ} (h : off ≤ data.length) (clamp : UInt16) :
    clampTcpMss data off clamp =
      (clampTcpMss (data.drop off) 0 clamp).map fun pkt => data.take off ++ pkt := by
  have hlen : (data.take off).length = off := by simp [h]
  have hstore : ∀ k w k' w', overwrite (overwrite data (off + k) w) (off + k') w' =
      data.take off ++ overwrite (overwrite (data.drop off) k w) k' w' := by
    intro k w k' w'
    conv_lhs => rw [← List.take_append_drop off data]
    rw [overwrite_append_add hlen, overwrite_append_add hlen]
  unfold clampTcpMss
  simp only [Nat.zero_add, Nat.add_zero, List.drop_drop, Nat.add_assoc]
  split_ifs
  · rfl
  · rfl
  · rfl
  · rfl
  · rfl
  · split
    · rfl
    · split_ifs
      · rfl
      · rw [hstore]
        rfl

theorem clampTcpMss_eq_some {pkt pkt' : Bytes} {clamp : UInt16} :
    clampTcpMss pkt 0 clamp = some pkt' ↔
      ∃ opt, RewritesMss pkt clamp opt ∧ pkt' = rewriteMss pkt opt clamp := by
  unfold clampTcpMss
  simp only [List.drop_zero, Nat.zero_add]
  constructor
  · intro h
    split_ifs at h with htcp hfrag hshort hflags hdoff
    rw [not_or, not_not, not_not] at htcp
    rw [not_or, not_not] at hflags
    split at h
    · cases h
    · next opt hopt =>
      split_ifs at h with habove
      cases h
      exact ⟨opt, ⟨htcp.1, htcp.2, not_not.mp hfrag, hflags.1, hflags.2, hopt,
        UInt16.not_le.mp habove⟩, rfl⟩
  · rintro ⟨opt, hr, rfl⟩
    obtain ⟨harea, hwithin, hpresent, -, -⟩ := findMssOption_some hr.found
    have hdoff : ¬ ((byteAt (pkt.drop iphdrLen) 12 >>> 4).toNat * 4 ≤ tcphdrLen ∨
        (byteAt (pkt.drop iphdrLen) 12 >>> 4).toNat * 4 > 60) := by
      have hle := tcpDoff_le (pkt.drop iphdrLen)
      unfold tcpDoff at hwithin hle
      omega
    rw [if_neg (by simp [hr.tcp, hr.plain]), if_neg (by simp [hr.first]), if_neg (by omega),
      if_neg (by simp [hr.syn, hr.rst]), if_neg hdoff]
    have hfound := hr.found
    unfold tcpDoff at hfound
    rw [hfound]
    exact if_neg (UInt16.not_le.mpr hr.above)

section Checksum

/-- The update makes up for the word that was replaced. -/
theorem csumReplace16_mod (check old new : UInt16) :
    ((csumReplace16 check old new).toNat + new.toNat) % 65535 =
      (check.toNat + old.toNat) % 65535 := by
  have hcheck := check.toNat_lt
  have hold := old.toNat_lt
  have hnew := new.toNat_lt
  have hfold := checksumFold32_mod (n := (~~~check).toNat + (~~~old).toNat + new.toNat)
    (by rw [complement_toNat, complement_toNat]; omega)
  rw [complement_toNat, complement_toNat] at hfold
  unfold csumReplace16
  rw [complement_toNat, complement_toNat]
  omega

end Checksum

def rewriteTh (th : Bytes) (opt : ℕ) (clamp : UInt16) : Bytes :=
  overwrite (overwrite th 16 (be16 (csumReplace16 (be16At th 16) (be16At th (opt + 2)) clamp)))
    (opt + 2) (be16 clamp)

theorem rewriteMss_append {hdr : Bytes} (h : hdr.length = iphdrLen) (th : Bytes) (opt : ℕ)
    (clamp : UInt16) : rewriteMss (hdr ++ th) opt clamp = hdr ++ rewriteTh th opt clamp := by
  unfold rewriteMss
  simp only [List.drop_left' h]
  rw [overwrite_append_add h, Nat.add_assoc, overwrite_append_add h]
  rfl

section Rewritten
variable {th : Bytes} {opt : ℕ}

private theorem stored_length (harea : tcphdrLen ≤ opt) (h : opt + 4 ≤ th.length) (check : UInt16) :
    (overwrite th 16 (be16 check)).length = th.length := by
  have hlen : tcphdrLen = 20 := rfl
  apply overwrite_length
  simp
  omega

theorem rewriteTh_length (harea : tcphdrLen ≤ opt) (h : opt + 4 ≤ th.length) (clamp : UInt16) :
    (rewriteTh th opt clamp).length = th.length := by
  unfold rewriteTh
  rw [overwrite_length, stored_length harea h]
  rw [stored_length harea h]
  exact h

/-- The sum of the rewritten header, up to multiples of `0xffff`. -/
theorem internetSum_rewriteTh (harea : tcphdrLen ≤ opt) (h : opt + 4 ≤ th.length) (clamp : UInt16) :
    (internetSum (rewriteTh th opt clamp) + clamp.toNat +
        fieldSum (decide (opt % 2 = 1)) (be16At th (opt + 2))) % 65535 =
      (internetSum th + (be16At th (opt + 2)).toNat +
        fieldSum (decide (opt % 2 = 1)) clamp) % 65535 := by
  have hlen : tcphdrLen = 20 := rfl
  have hparity : (opt + 2) % 2 = opt % 2 := Nat.add_mod_right opt 2
  have hmod := csumReplace16_mod (be16At th 16) (be16At th (opt + 2)) clamp
  unfold rewriteTh
  generalize csumReplace16 (be16At th 16) (be16At th (opt + 2)) clamp = check at hmod ⊢
  have hsame : be16At (overwrite th 16 (be16 check)) (opt + 2) = be16At th (opt + 2) := by
    apply be16At_overwrite_of_outside
    · simp
      omega
    · simp
      omega
  have hfirst := internetSum_overwrite_be16 (b := th) (by omega : 16 + 2 ≤ th.length) check
  have hsecond := internetSum_overwrite_be16 (b := overwrite th 16 (be16 check))
    (by rw [stored_length harea h]; exact h : opt + 2 + 2 ≤ _) clamp
  rw [hsame, hparity] at hsecond
  rw [show fieldSum (decide (16 % 2 = 1)) (be16At th 16) = (be16At th 16).toNat from rfl,
    show fieldSum (decide (16 % 2 = 1)) check = check.toNat from rfl] at hfirst
  omega

end Rewritten

/-- The update of the checksum is right: the option stands at an even offset, or exchanging the two
bytes changes the old and the new value alike. -/
def UpdatesChecksum (opt : ℕ) (mss clamp : UInt16) : Prop :=
  opt % 2 = 0 ∨ (mss.toNat + fieldSum true clamp) % 65535 = (clamp.toNat + fieldSum true mss) % 65535

/-- A packet whose option lies inside it keeps its checksum if the update is right. -/
theorem tcpChecksumOk_rewriteMss {pkt : Bytes} {opt : ℕ} (harea : tcphdrLen ≤ opt)
    (h : iphdrLen + opt + 4 ≤ pkt.length) (clamp : UInt16) (hok : TcpChecksumOk pkt) :
    TcpChecksumOk (rewriteMss pkt opt clamp) ↔
      UpdatesChecksum opt (be16At (pkt.drop iphdrLen) (opt + 2)) clamp := by
  have hlen : iphdrLen = 20 := rfl
  have hhdr : (pkt.take iphdrLen).length = iphdrLen := by simp; omega
  have hth : opt + 4 ≤ (pkt.drop iphdrLen).length := by simp; omega
  have hsplit : pkt.take iphdrLen ++ pkt.drop iphdrLen = pkt := List.take_append_drop _ _
  generalize pkt.take iphdrLen = hdr, pkt.drop iphdrLen = th at *
  subst hsplit
  have hsum := internetSum_rewriteTh harea hth clamp
  have hpseudo : ∀ t : Bytes, ((hdr ++ t).drop 12).take 8 = hdr.drop 12 := by
    intro t
    rw [List.drop_append_of_le_length (by omega), List.take_left' (by simp; omega)]
  rw [rewriteMss_append hhdr]
  unfold TcpChecksumOk tcpSum at *
  rw [hpseudo, List.drop_left' hhdr, List.length_append] at hok
  rw [hpseudo, List.drop_left' hhdr, List.length_append, rewriteTh_length harea hth]
  generalize hdr.length + th.length - iphdrLen = n at *
  unfold UpdatesChecksum
  rcases Nat.mod_two_eq_zero_or_one opt with heven | hodd
  · have hlow : decide (opt % 2 = 1) = false := by simp [heven]
    rw [hlow] at hsum
    simp only [fieldSum, Bool.false_eq_true, if_false] at hsum
    constructor
    · exact fun _ => Or.inl heven
    · intro _
      omega
  · rw [decide_eq_true hodd] at hsum
    constructor
    · intro hok'
      right
      omega
    · rintro (heven | hswap)
      · omega
      · omega

section Packet
variable {pkt : Bytes} {opt : ℕ}

private theorem checked_length (harea : tcphdrLen ≤ opt) (h : iphdrLen + opt + 4 ≤ pkt.length)
    (check : UInt16) : (overwrite pkt (iphdrLen + 16) (be16 check)).length = pkt.length := by
  have hlen : tcphdrLen = 20 := rfl
  apply overwrite_length
  simp
  omega

theorem rewriteMss_length (harea : tcphdrLen ≤ opt) (h : iphdrLen + opt + 4 ≤ pkt.length)
    (clamp : UInt16) : (rewriteMss pkt opt clamp).length = pkt.length := by
  unfold rewriteMss
  rw [overwrite_length, checked_length harea h]
  rw [checked_length harea h]
  exact h

/-- The rewrite touches the checksum and the MSS value and nothing else. -/
theorem rewriteMss_getElem? (harea : tcphdrLen ≤ opt) (h : iphdrLen + opt + 4 ≤ pkt.length)
    (clamp : UInt16) {i : ℕ} (hcheck : i ≠ iphdrLen + 16 ∧ i ≠ iphdrLen + 17)
    (hmss : i ≠ iphdrLen + opt + 2 ∧ i ≠ iphdrLen + opt + 3) :
    (rewriteMss pkt opt clamp)[i]? = pkt[i]? := by
  have hlen : tcphdrLen = 20 := rfl
  unfold rewriteMss
  rw [overwrite_getElem?_of_outside, overwrite_getElem?_of_outside]
  · omega
  · simp
    omega
  · rw [checked_length harea h]
    omega
  · simp
    omega

theorem rewriteMss_mss (harea : tcphdrLen ≤ opt) (h : iphdrLen + opt + 4 ≤ pkt.length)
    (clamp : UInt16) : be16At (rewriteMss pkt opt clamp) (iphdrLen + opt + 2) = clamp := by
  apply be16At_overwrite
  rw [checked_length harea h]
  exact h

theorem rewriteMss_append_right (harea : tcphdrLen ≤ opt) (h : iphdrLen + opt + 4 ≤ pkt.length)
    (rest : Bytes) (clamp : UInt16) :
    rewriteMss (pkt ++ rest) opt clamp = rewriteMss pkt opt clamp ++ rest := by
  have hlen : tcphdrLen = 20 := rfl
  have hip : iphdrLen = 20 := rfl
  have hdrop : (pkt ++ rest).drop iphdrLen = pkt.drop iphdrLen ++ rest :=
    List.drop_append_of_le_length (by omega)
  have hcheck : be16At (pkt.drop iphdrLen ++ rest) 16 = be16At (pkt.drop iphdrLen) 16 :=
    be16At_append_left (by simp; omega)
  have hmss : be16At (pkt.drop iphdrLen ++ rest) (opt + 2) = be16At (pkt.drop iphdrLen) (opt + 2) :=
    be16At_append_left (by simp; omega)
  unfold rewriteMss
  simp only [hdrop, hcheck, hmss]
  rw [overwrite_append_of_le (by simp; omega), overwrite_append_of_le]
  rw [checked_length harea h]
  exact h

end Packet

/-- The clamp does what it is for: it lowers the MSS of a SYN of this packet to `clamp`, changes
nothing else but the TCP checksum, and keeps that verifying. -/
structure ClampedWell (data data' : Bytes) (off : ℕ) (clamp : UInt16) : Prop where
  tcp : (Iphdr.read (data.drop off)).protocol = ipprotoTcp
  first : (Iphdr.read (data.drop off)).fragOff &&& ipOffset = 0
  syn : byteAt (data.drop (off + iphdrLen)) 13 &&& 2 ≠ 0
  rst : byteAt (data.drop (off + iphdrLen)) 13 &&& 4 = 0
  option : ∃ opt, IsMssOption (data.drop (off + iphdrLen)) opt ∧
    iphdrLen + opt + 4 ≤ (Iphdr.read (data.drop off)).totLen.toNat ∧
    clamp < be16At (data.drop (off + iphdrLen)) (opt + 2) ∧
    be16At (data'.drop (off + iphdrLen)) (opt + 2) = clamp ∧
    ∀ i, i ≠ off + iphdrLen + 16 → i ≠ off + iphdrLen + 17 → i ≠ off + iphdrLen + opt + 2 →
      i ≠ off + iphdrLen + opt + 3 → data'[i]? = data[i]?
  checksum : TcpChecksumOk (ipv4Packet data off) → TcpChecksumOk (ipv4Packet data' off)

theorem iphdrRead_rewriteMss {pkt : Bytes} {opt : ℕ} (harea : tcphdrLen ≤ opt)
    (h : iphdrLen + opt + 4 ≤ pkt.length) (clamp : UInt16) :
    Iphdr.read (rewriteMss pkt opt clamp) = Iphdr.read pkt := by
  have hip : iphdrLen = 20 := rfl
  apply Iphdr.read_congr
  intro i hi
  simp only [byteAt, List.getD_eq_getElem?_getD]
  rw [rewriteMss_getElem? harea h clamp (by omega) (by omega)]

section Clamped
variable {data : Bytes} {off opt : ℕ} {clamp : UInt16}

def clampFrame (data : Bytes) (off opt : ℕ) (clamp : UInt16) : Bytes :=
  data.take off ++ rewriteMss (data.drop off) opt clamp

theorem clampFrame_drop (h : off ≤ data.length) (n : ℕ) :
    (clampFrame data off opt clamp).drop (off + n) = (rewriteMss (data.drop off) opt clamp).drop n := by
  rw [← List.drop_drop, clampFrame, List.drop_left' (by simp [h])]

theorem clampFrame_getElem? (h : off ≤ data.length) (harea : tcphdrLen ≤ opt)
    (hlen : iphdrLen + opt + 4 ≤ (data.drop off).length) {i : ℕ}
    (hcheck : i ≠ off + iphdrLen + 16 ∧ i ≠ off + iphdrLen + 17)
    (hmss : i ≠ off + iphdrLen + opt + 2 ∧ i ≠ off + iphdrLen + opt + 3) :
    (clampFrame data off opt clamp)[i]? = data[i]? := by
  have htake : (data.take off).length = off := by simp [h]
  by_cases hi : i < off
  · rw [clampFrame, List.getElem?_append_left (by omega), List.getElem?_take_of_lt hi]
  · rw [clampFrame, List.getElem?_append_right (by omega), htake,
      rewriteMss_getElem? harea hlen clamp (by omega) (by omega), List.getElem?_drop]
    congr 1
    omega

theorem clampFrame_mss (h : off ≤ data.length) (harea : tcphdrLen ≤ opt)
    (hlen : iphdrLen + opt + 4 ≤ (data.drop off).length) :
    be16At ((clampFrame data off opt clamp).drop (off + iphdrLen)) (opt + 2) = clamp := by
  rw [clampFrame_drop h, be16At_drop, ← Nat.add_assoc]
  exact rewriteMss_mss harea hlen clamp

theorem ipv4Packet_length (h : off + (Iphdr.read (data.drop off)).totLen.toNat ≤ data.length) :
    (ipv4Packet data off).length = (Iphdr.read (data.drop off)).totLen.toNat := by
  unfold ipv4Packet
  simp
  omega

theorem ipv4Packet_append (data : Bytes) (off : ℕ) :
    ipv4Packet data off ++ (data.drop off).drop (Iphdr.read (data.drop off)).totLen.toNat =
      data.drop off := List.take_append_drop _ _

theorem be16At_ipv4Packet (h : off + (Iphdr.read (data.drop off)).totLen.toNat ≤ data.length)
    {i : ℕ} (hin : iphdrLen + i + 2 ≤ (Iphdr.read (data.drop off)).totLen.toNat) :
    be16At ((ipv4Packet data off).drop iphdrLen) i = be16At (data.drop (off + iphdrLen)) i := by
  have hlen := ipv4Packet_length h
  rw [← List.drop_drop, be16At_drop, be16At_drop, ← ipv4Packet_append data off, be16At_append_left]
  omega

/-- The packet of the rewritten frame is the packet rewritten, if the option lies inside it. -/
theorem ipv4Packet_clampFrame (h : off + (Iphdr.read (data.drop off)).totLen.toNat ≤ data.length)
    (harea : tcphdrLen ≤ opt)
    (hin : iphdrLen + opt + 4 ≤ (Iphdr.read (data.drop off)).totLen.toNat) :
    ipv4Packet (clampFrame data off opt clamp) off = rewriteMss (ipv4Packet data off) opt clamp := by
  have hip : iphdrLen = 20 := rfl
  have hdrop : (clampFrame data off opt clamp).drop off = rewriteMss (data.drop off) opt clamp :=
    clampFrame_drop (by omega) 0
  have hpkt := ipv4Packet_length h
  have hsplit := ipv4Packet_append data off
  rw [ipv4Packet, hdrop, iphdrRead_rewriteMss harea (by simp; omega)]
  conv_lhs => rw [← hsplit]
  rw [rewriteMss_append_right harea (by omega)]
  apply List.take_left'
  rw [rewriteMss_length harea (by omega), hpkt, hsplit]

theorem clampTcpMss_eq_some_iff (h : off ≤ data.length) {data' : Bytes} :
    clampTcpMss data off clamp = some data' ↔
      ∃ opt, RewritesMss (data.drop off) clamp opt ∧ data' = clampFrame data off opt clamp := by
  rw [clampTcpMss_eq h, Option.map_eq_some_iff]
  constructor
  · rintro ⟨pkt, hpkt, rfl⟩
    obtain ⟨opt, hr, rfl⟩ := clampTcpMss_eq_some.mp hpkt
    exact ⟨opt, hr, rfl⟩
  · rintro ⟨opt, hr, rfl⟩
    exact ⟨_, clampTcpMss_eq_some.mpr ⟨opt, hr, rfl⟩, rfl⟩

/-- Two MSS options do not overlap, so a change of the value of one is seen at the other only if
they are the same. -/
theorem IsMssOption.unique {th th' : Bytes} {opt opt' : ℕ} (hopt : IsMssOption th opt)
    (hopt' : IsMssOption th opt') (hne : be16At th' (opt + 2) ≠ be16At th (opt + 2))
    (hsame : ∀ i, i ≠ 16 → i ≠ 17 → i ≠ opt' + 2 → i ≠ opt' + 3 → byteAt th' i = byteAt th i) :
    opt' = opt := by
  have hlen : tcphdrLen = 20 := rfl
  have harea := hopt.area
  by_contra hdiff
  have hbefore : opt ≠ opt' + 1 := by
    intro heq
    have hkind := hopt.kind
    rw [heq, hopt'.length] at hkind
    cases hkind
  have hbehind : opt' ≠ opt + 1 := by
    intro heq
    have hkind := hopt'.kind
    rw [heq, hopt.length] at hkind
    cases hkind
  apply hne
  rw [be16At, be16At, hsame (opt + 2), hsame (opt + 2 + 1)] <;> omega

theorem RewritesMss.isMssOption (hr : RewritesMss (data.drop off) clamp opt) :
    IsMssOption (data.drop (off + iphdrLen)) opt := by
  have hopt := IsMssOption.of_found hr.found
  rw [List.drop_drop] at hopt
  exact hopt

/-- The clamp does what it is for exactly if the option lies inside the packet and the update of a
checksum that verified is right. -/
theorem clampTcpMss_clampedWell_iff
    (hpkt : off + (Iphdr.read (data.drop off)).totLen.toNat ≤ data.length) :
    (∀ data', clampTcpMss data off clamp = some data' → ClampedWell data data' off clamp) ↔
      ∀ opt, RewritesMss (data.drop off) clamp opt →
        iphdrLen + opt + 4 ≤ (Iphdr.read (data.drop off)).totLen.toNat ∧
        (TcpChecksumOk (ipv4Packet data off) →
          UpdatesChecksum opt (be16At (data.drop (off + iphdrLen)) (opt + 2)) clamp) := by
  have hoff : off ≤ data.length := by omega
  have hinside : ∀ {opt}, IsMssOption (data.drop (off + iphdrLen)) opt →
      iphdrLen + opt + 4 ≤ (data.drop off).length := by
    intro opt hopt
    have hpresent := hopt.present
    simp only [List.length_drop] at hpresent ⊢
    have hip : iphdrLen = 20 := rfl
    omega
  have hverifies : ∀ {opt}, tcphdrLen ≤ opt →
      iphdrLen + opt + 4 ≤ (Iphdr.read (data.drop off)).totLen.toNat →
      TcpChecksumOk (ipv4Packet data off) →
      (TcpChecksumOk (ipv4Packet (clampFrame data off opt clamp) off) ↔
        UpdatesChecksum opt (be16At (data.drop (off + iphdrLen)) (opt + 2)) clamp) := by
    intro opt harea hin hok
    rw [ipv4Packet_clampFrame hpkt harea hin, tcpChecksumOk_rewriteMss harea _ clamp hok,
      be16At_ipv4Packet hpkt hin]
    rw [ipv4Packet_length hpkt]
    exact hin
  constructor
  · intro hwell opt hr
    have hopt := hr.isMssOption
    have hw := hwell _ ((clampTcpMss_eq_some_iff hoff).mpr ⟨opt, hr, rfl⟩)
    obtain ⟨opt', hopt', hin, hlower, hclamp, hothers⟩ := hw.option
    have heq : opt' = opt := by
      apply hopt.unique hopt'
      · rw [clampFrame_mss hoff hopt.area (hinside hopt)]
        have habove := hr.above
        rw [List.drop_drop] at habove
        exact UInt16.ne_of_lt habove
      · intro i h16 h17 h2 h3
        rw [byteAt_drop, byteAt_drop, byteAt, byteAt, List.getD_eq_getElem?_getD,
          List.getD_eq_getElem?_getD, hothers] <;> omega
    subst heq
    exact ⟨hin, fun hok => (hverifies hopt.area hin hok).mp (hw.checksum hok)⟩
  · intro hcond data' hsome
    obtain ⟨opt, hr, rfl⟩ := (clampTcpMss_eq_some_iff hoff).mp hsome
    obtain ⟨hin, hupdates⟩ := hcond opt hr
    have hopt := hr.isMssOption
    have habove := hr.above
    have hsyn := hr.syn
    have hrst := hr.rst
    rw [List.drop_drop] at habove hsyn hrst
    exact
      { tcp := hr.tcp
        first := hr.first
        syn := hsyn
        rst := hrst
        option := ⟨opt, hopt, hin, habove, clampFrame_mss hoff hopt.area (hinside hopt),
          fun i h16 h17 h2 h3 => clampFrame_getElem? hoff hopt.area (hinside hopt) ⟨h16, h17⟩ ⟨h2, h3⟩⟩
        checksum := fun hok => (hverifies hopt.area hin hok).mpr (hupdates hok) }

end Clamped

def sampleSyn (totLen : UInt16) (doff : UInt8) (check : UInt16) (options : Bytes) : Bytes :=
  let ip : Iphdr := ⟨0x45, 0, totLen, 1, 0x4000, 64, ipprotoTcp, 0, 0xc0000201, 0xc6336402⟩
  let tcp : Bytes := [0xc0, 0, 1, 0xbb, 0, 0, 0, 1, 0, 0, 0, 0, doff <<< 4, 2, 0xff, 0xff]
  ip.toBytes ++ tcp ++ be16 check ++ be16 0 ++ options

def mssSyn : Bytes := sampleSyn 44 6 0xea32 [2, 4, 5, 0xb4]

def nopMssSyn : Bytes := sampleSyn 48 7 0x27dd [1, 2, 4, 5, 0xb4, 1, 1, 1]

/-- A packet that ends before its options, which the frame goes on with. -/
def shortSyn : Bytes := sampleSyn 40 6 0xf1ee [2, 4, 5, 0xb4]

theorem clampTcpMss_clampedWell_mssSyn :
    TcpChecksumOk (ipv4Packet mssSyn 0) ∧
      ∀ data', clampTcpMss mssSyn 0 1400 = some data' → ClampedWell mssSyn data' 0 1400 := by
  constructor
  · decide +kernel
  · apply (clampTcpMss_clampedWell_iff (by decide +kernel)).mpr
    intro opt hr
    have hopt : opt = 20 := Option.some.inj (hr.found.symm.trans (by decide +kernel))
    subst hopt
    exact ⟨by decide +kernel, fun _ => Or.inl rfl⟩

/-- The checksum of the option behind the NOP goes wrong, and the bytes behind the short packet
change. -/
theorem clampTcpMss_breaks_checksum_and_trailer :
    (∃ data', clampTcpMss nopMssSyn 0 1400 = some data' ∧
      TcpChecksumOk (ipv4Packet nopMssSyn 0) ∧ ¬ TcpChecksumOk (ipv4Packet data' 0)) ∧
    ∃ data', clampTcpMss shortSyn 0 1400 = some data' ∧
      (Iphdr.read shortSyn).totLen = 40 ∧ data'[43]? ≠ shortSyn[43]? := by
  constructor
  · exact ⟨clampFrame nopMssSyn 0 21 1400, by decide +kernel, by decide +kernel, by decide +kernel⟩
  · exact ⟨clampFrame shortSyn 0 20 1400, by decide +kernel, by decide +kernel, by decide +kernel⟩

end Minuteman.Datapath
