import Minuteman.Dhcpv4.Packets

/-!
# Frames with valid lengths and checksums

What `buildFrame` stores byte by byte is an IPv4 header, a UDP header and the
payload. Both checksums are taken while their own field is zero, so storing them
brings the sums to all ones.
-/
namespace Minuteman.Dhcpv4
open Library ByteString Checked

def ipv4Header (src dst : Addr) (total check : UInt16) : Bytes :=
  [0x45, 0] ++ be16 total ++ [0, 0, 0, 0, 64, ipprotoUDP] ++ be16 check ++ be32 src ++ be32 dst

def udpHeader (length check : UInt16) : Bytes :=
  be16 bootpServerPort ++ be16 bootpClientPort ++ be16 length ++ be16 check

/-- What the UDP checksum of a frame is computed over: the pseudo header and the datagram. -/
def pseudoDatagram (frame : Bytes) : Bytes :=
  (frame.take 20).drop 12 ++ [0, byteAt frame 9] ++ be16 (be16At frame 24) ++ frame.drop 20

/-- A store in the front of a buffer. -/
theorem store_append_left {a b w : Bytes} {off : ℕ} (h : off + w.length ≤ a.length) :
    store (a ++ b) off w = .ok (overwrite a off w ++ b) := by
  have hab : off + w.length ≤ (a ++ b).length := by
    rw [List.length_append]
    omega
  rw [store, if_pos hab, overwrite_append_of_le h]

/-- The checksum that is sent: a computed one of zero is sent as all ones. -/
def sentChecksum (csum : UInt16) : UInt16 := if csum = 0 then 0xffff else csum

theorem ipv4Header_length {src dst : Addr} {total : UInt16} (check : UInt16) :
    (ipv4Header src dst total check).length = 20 := rfl

def headers (src dst : Addr) (total check length csum : UInt16) : Bytes :=
  ipv4Header src dst total check ++ udpHeader length csum

section Layout
variable {src dst : Addr} {total check length csum : UInt16}

theorem headers_length : (headers src dst total check length csum).length = 28 := rfl

/-- A store in the UDP header, behind the IPv4 header. -/
theorem store_udp {k : ℕ} {u w : Bytes} (rest : Bytes) (h : k + w.length ≤ u.length) :
    store (ipv4Header src dst total check ++ u ++ rest) (20 + k) w =
      .ok (ipv4Header src dst total check ++ overwrite u k w ++ rest) := by
  have hfits : 20 + k + w.length ≤ (ipv4Header src dst total check ++ u).length := by
    rw [List.length_append, ipv4Header_length]
    omega
  rw [store_append_left hfits, overwrite_append_add (ipv4Header_length check)]

theorem store_payload (payload : Bytes) :
    store (headers src dst total check length csum ++ List.replicate payload.length 0) 28 payload =
      .ok (headers src dst total check length csum ++ payload) := by
  have hfits : 28 + payload.length ≤
      (headers src dst total check length csum ++ List.replicate payload.length 0).length := by
    rw [List.length_append, headers_length, List.length_replicate]
  rw [store, if_pos hfits, overwrite_append headers_length, List.drop_replicate, Nat.sub_self,
    List.replicate_zero, List.append_nil]

theorem drop_headers (payload : Bytes) :
    (headers src dst total check length csum ++ payload).drop 20 =
      udpHeader length csum ++ payload := by
  rw [headers, List.append_assoc]
  exact List.drop_left' (ipv4Header_length check)

theorem sliceFrom_datagram (payload : Bytes) :
    sliceFrom (headers src dst total check length csum ++ payload) 20 =
      .ok (udpHeader length csum ++ payload) := by
  have hlong : 20 ≤ (headers src dst total check length csum ++ payload).length := by
    rw [List.length_append, headers_length]
    omega
  rw [sliceFrom_eq hlong, drop_headers]

end Layout

theorem buildFrame_eq (src dst : Addr) (payload : Bytes) :
    buildFrame (.v4 src) (.v4 dst) payload =
      let total := UInt16.ofNat (20 + (8 + payload.length))
      let check := checksum (ipv4Header src dst total 0)
      let length := UInt16.ofNat (8 + payload.length)
      let csum := sentChecksum (udpChecksum src dst (udpHeader length 0 ++ payload))
      .ok (headers src dst total check length csum ++ payload) := by
  have hzeros : List.replicate (20 + (8 + payload.length)) (0 : UInt8) =
      List.replicate 20 0 ++ (List.replicate 8 0 ++ List.replicate payload.length 0) := by
    rw [List.replicate_append_replicate, List.replicate_append_replicate]
  dsimp only
  rw [buildFrame]
  dsimp only
  rw [hzeros]
  generalize UInt16.ofNat (20 + (8 + payload.length)) = total
  generalize UInt16.ofNat (8 + payload.length) = length
  have hle : ∀ {m n : ℕ}, m.ble n = true → m ≤ n := Nat.le_of_ble_eq_true
  rw [store_append_left (hle rfl), ok_bind, store_append_left (hle rfl), ok_bind,
    store_append_left (hle rfl), ok_bind, store_append_left (hle rfl), ok_bind, NetAddr.as4,
    NetAddr.as4, ok_bind, ok_bind, store_append_left (hle rfl), ok_bind,
    store_append_left (hle rfl), ok_bind]
  have hip : overwrite (overwrite (overwrite (overwrite (overwrite (overwrite
      (List.replicate 20 0) 0 [0x45]) 2 (be16 total)) 8 [64]) 9 [ipprotoUDP]) 12 (be32 src)) 16
      (be32 dst) = ipv4Header src dst total 0 := rfl
  rw [hip, slice_eq (Nat.zero_le _) (by simp [ipv4Header_length]), ok_bind, List.drop_zero,
    List.take_left' (ipv4Header_length 0)]
  generalize checksum (ipv4Header src dst total 0) = check
  have hcheck : overwrite (ipv4Header src dst total 0) 10 (be16 check) =
      ipv4Header src dst total check := rfl
  have hudp : overwrite (overwrite (overwrite (List.replicate 8 0) 0 (be16 bootpServerPort)) 2
      (be16 bootpClientPort)) 4 (be16 length) = udpHeader length 0 := rfl
  rw [store_append_left (hle rfl), ok_bind, hcheck, ← List.append_assoc,
    store_udp (k := 0) _ (hle rfl), ok_bind, store_udp (k := 2) _ (hle rfl), ok_bind,
    store_udp (k := 4) _ (hle rfl), ok_bind, hudp, ← headers, store_payload, ok_bind,
    sliceFrom_datagram, ok_bind, headers]
  exact store_udp (k := 6) payload (hle rfl)

/-- Adding carries keeps the sum modulo `0xffff`. -/
theorem foldCarries_mod (turns : ℕ) (sum : UInt32) :
    (foldCarries turns sum).toNat % 65535 = sum.toNat % 65535 := by
  induction turns generalizing sum with
  | zero => rfl
  | succ turns ih =>
    rw [foldCarries]
    split_ifs
    · rw [ih, carries_toNat]
      omega
    · rfl

/-- A sum that fits 32 bits verifies with its checksum. -/
theorem checksum_mod {b : Bytes} (h : internetSum b < 2 ^ 32) :
    (internetSum b + (checksum b).toNat) % 65535 = 0 := by
  have hmod := foldCarries_mod 2 (UInt32.ofNat (internetSum b))
  have hdone := congrArg UInt32.toNat (foldCarries_two (UInt32.ofNat (internetSum b)))
  rw [UInt32.toNat_ofNat_of_lt' h] at hmod
  rw [shiftRight_toNat, UInt32.toNat_zero] at hdone
  rw [checksum, complement_toNat, UInt32.toNat_toUInt16]
  omega

theorem sentChecksum_ne_zero (csum : UInt16) : sentChecksum csum ≠ 0 := by
  unfold sentChecksum
  split_ifs with hzero
  · decide
  · exact hzero

theorem sentChecksum_mod (csum : UInt16) :
    (sentChecksum csum).toNat % 65535 = csum.toNat % 65535 := by
  unfold sentChecksum
  split_ifs with hzero
  · rw [hzero]
    rfl
  · rfl

theorem ipv4Header_sum (src dst : Addr) (total check : UInt16) :
    internetSum (ipv4Header src dst total check) =
      internetSum (ipv4Header src dst total 0) + check.toNat := by
  have hfield : (ipv4Header src dst total 0).drop 10 = be16 0 ++ (be32 src ++ be32 dst) := rfl
  have hstored : overwrite (ipv4Header src dst total 0) 10 (be16 check) =
      ipv4Header src dst total check := rfl
  rw [← hstored, internetSum_overwrite_zero (by decide) (by rw [ipv4Header_length]; decide)
    (be16At_of_drop hfield)]

/-- The header with its checksum sums to all ones. -/
theorem ipv4Header_verifies (src dst : Addr) (total : UInt16) :
    onesSum (ipv4Header src dst total (checksum (ipv4Header src dst total 0))) = 0xffff := by
  have hle := internetSum_le (ipv4Header src dst total 0)
  rw [ipv4Header_length] at hle
  have hversion : internetSum (ipv4Header src dst total 0) =
      0x45 * 256 + 0 + internetSum ((ipv4Header src dst total 0).drop 2) := rfl
  apply onesSum_eq_all_ones
  · rw [ipv4Header_sum]
    exact checksum_mod (by omega)
  · rw [ipv4Header_sum]
    omega

def pseudoHeader (src dst : Addr) (length : UInt16) : Bytes :=
  be32 src ++ be32 dst ++ [0, ipprotoUDP] ++ be16 length

theorem pseudoDatagram_length (src dst : Addr) (length csum : UInt16) (payload : Bytes) :
    (pseudoHeader src dst length ++ (udpHeader length csum ++ payload)).length =
      20 + payload.length := by
  rw [← List.append_assoc, List.length_append]
  rfl

theorem udp_sum (src dst : Addr) (length csum : UInt16) (payload : Bytes) :
    internetSum (pseudoHeader src dst length ++ (udpHeader length csum ++ payload)) =
      internetSum (pseudoHeader src dst length ++ (udpHeader length 0 ++ payload)) +
        csum.toNat := by
  have hstored : overwrite (pseudoHeader src dst length ++ (udpHeader length 0 ++ payload)) 18
      (be16 csum) = pseudoHeader src dst length ++ (udpHeader length csum ++ payload) := rfl
  have hfield : (pseudoHeader src dst length ++ (udpHeader length 0 ++ payload)).drop 18 =
      be16 0 ++ payload := rfl
  have hfits : 18 + 2 ≤ (pseudoHeader src dst length ++ (udpHeader length 0 ++ payload)).length := by
    rw [pseudoDatagram_length]
    omega
  rw [← hstored, internetSum_overwrite_zero (by decide) hfits (be16At_of_drop hfield)]

/-- The datagram with its checksum sums to all ones, the pseudo header included. -/
theorem udp_verifies (src dst : Addr) {payload : Bytes} (h : payload.length ≤ 65507) :
    let length := UInt16.ofNat (8 + payload.length)
    let csum := sentChecksum (udpChecksum src dst (udpHeader length 0 ++ payload))
    onesSum (pseudoHeader src dst length ++ (udpHeader length csum ++ payload)) = 0xffff := by
  intro length csum
  have hudp : udpChecksum src dst (udpHeader length 0 ++ payload) =
      checksum (pseudoHeader src dst length ++ (udpHeader length 0 ++ payload)) := by
    have hlength : (udpHeader length 0 ++ payload).length = 8 + payload.length := by
      rw [List.length_append]
      rfl
    rw [udpChecksum, hlength]
    rfl
  have hsent : csum.toNat % 65535 =
      (udpChecksum src dst (udpHeader length 0 ++ payload)).toNat % 65535 := sentChecksum_mod _
  have hpos : 0 < csum.toNat :=
    Nat.pos_of_ne_zero fun h => sentChecksum_ne_zero _ (UInt16.toNat_inj.mp h)
  have hle := internetSum_le (pseudoHeader src dst length ++ (udpHeader length 0 ++ payload))
  rw [pseudoDatagram_length] at hle
  have hmod := checksum_mod
    (b := pseudoHeader src dst length ++ (udpHeader length 0 ++ payload)) (by omega)
  rw [← hudp] at hmod
  apply onesSum_eq_all_ones
  · rw [udp_sum]
    omega
  · rw [udp_sum]
    omega

/-- A frame that carries the payload with lengths and checksums that a receiver accepts. -/
structure ValidFrame (src dst : Addr) (payload f : Bytes) : Prop where
  source : be32At f 12 = src
  destination : be32At f 16 = dst
  payload : f.drop 28 = payload
  totalLength : (be16At f 2).toNat = f.length
  udpLength : (be16At f 24).toNat = (f.drop 20).length
  headerChecksum : onesSum (f.take 20) = 0xffff
  udpChecksum : onesSum (pseudoDatagram f) = 0xffff
  udpChecksumSent : be16At f 26 ≠ 0

theorem headers_valid (src dst : Addr) {payload : Bytes} (h : payload.length ≤ 65507) :
    let total := UInt16.ofNat (20 + (8 + payload.length))
    let check := checksum (ipv4Header src dst total 0)
    let length := UInt16.ofNat (8 + payload.length)
    let csum := sentChecksum (udpChecksum src dst (udpHeader length 0 ++ payload))
    ValidFrame src dst payload (headers src dst total check length csum ++ payload) := by
  intro total check length csum
  have htotal : total.toNat = 28 + payload.length := by
    change (UInt16.ofNat (20 + (8 + payload.length))).toNat = _
    rw [UInt16.toNat_ofNat']
    omega
  have hlength : length.toNat = 8 + payload.length := by
    change (UInt16.ofNat (8 + payload.length)).toNat = _
    rw [UInt16.toNat_ofNat']
    omega
  generalize hf : headers src dst total check length csum ++ payload = f
  have hsource : f.drop 12 = be32 src ++ f.drop 16 := hf ▸ rfl
  have hdestination : f.drop 16 = be32 dst ++ f.drop 20 := hf ▸ rfl
  have htotalField : f.drop 2 = be16 total ++ f.drop 4 := hf ▸ rfl
  have hlengthField : f.drop 24 = be16 length ++ f.drop 26 := hf ▸ rfl
  have hcsumField : f.drop 26 = be16 csum ++ f.drop 28 := hf ▸ rfl
  have hdatagram : f.drop 20 = udpHeader length csum ++ payload := hf ▸ drop_headers payload
  have hheader : f.take 20 = ipv4Header src dst total check := by
    rw [← hf, headers, List.append_assoc]
    exact List.take_left' (ipv4Header_length check)
  have hpseudo : pseudoDatagram f =
      pseudoHeader src dst length ++ (udpHeader length csum ++ payload) := by
    have hprotocol : byteAt f 9 = ipprotoUDP := hf ▸ rfl
    rw [pseudoDatagram, hheader, hprotocol, be16At_of_drop hlengthField, hdatagram]
    rfl
  refine ⟨be32At_of_drop hsource, be32At_of_drop hdestination, ?_, ?_, ?_, ?_, ?_, ?_⟩
  · rw [← hf]
    exact List.drop_left' headers_length
  · rw [be16At_of_drop htotalField, htotal, ← hf, List.length_append, headers_length]
  · rw [be16At_of_drop hlengthField, hlength, hdatagram, List.length_append]
    rfl
  · rw [hheader]
    exact ipv4Header_verifies src dst total
  · rw [hpseudo]
    exact udp_verifies src dst h
  · rw [be16At_of_drop hcsumField]
    exact sentChecksum_ne_zero _

/-- Every frame is valid, whatever the parity of its payload. -/
theorem buildFrame_valid (src dst : Addr) {payload : Bytes} (h : payload.length ≤ 65507) :
    ∃ f, buildFrame (.v4 src) (.v4 dst) payload = .ok f ∧ ValidFrame src dst payload f :=
  ⟨_, buildFrame_eq src dst payload, headers_valid src dst h⟩

theorem buildFrame_valid_odd : ∃ f, buildFrame (.v4 0xc0a80101) (.v4 0xffffffff) [1, 2, 3] = .ok f ∧
    ValidFrame 0xc0a80101 0xffffffff [1, 2, 3] f :=
  buildFrame_valid 0xc0a80101 0xffffffff (by decide)

end Minuteman.Dhcpv4
