import Minuteman.Datapath.Transparency

/-!
# Bytes behind the outer packet

A frame may be longer than the IPv6 packet in it. `parse_l2_ipv6` holds the
outer length against the end of the frame, `validate_dslite_ipv6` the inner
one, and nothing holds the two against each other.
-/
namespace Minuteman.Datapath
open Library ByteString

def trailing (frame : Bytes) : ℕ :=
  frame.length - (outerHdrLen + (Ipv6hdr.read (frame.drop ethLen)).payloadLen.toNat)

/-- The inner packet lies inside the outer one. -/
def InnerInside (frame : Bytes) : Prop :=
  (Iphdr.read (frame.drop outerHdrLen)).totLen.toNat ≤
    (Ipv6hdr.read (frame.drop ethLen)).payloadLen.toNat

def Delivered (r : XdpAction × Xdp) : Prop :=
  (r.1 = .pass ∨ ∃ port, r.1 = .redirect (.txPort port)) ∧
    (Ethhdr.read r.2.ctx.data).hProto = ethPIp

def decapPrograms : List Program := [.dsliteDecap, .dsliteDecapCpu]

/-- What an accepted frame is known to satisfy: the inner packet ends within the frame. -/
theorem decapPacket_length {m : Maps} {ctx : XdpMd} {pkt : Bytes}
    (h : decapPacket m ctx = some pkt) :
    outerHdrLen + (Iphdr.read (ctx.data.drop outerHdrLen)).totLen.toNat ≤ ctx.data.length := by
  unfold decapPacket at h
  cases hparse : parseL2Ipv6 ctx.data with
  | malformed =>
    rw [hparse] at h
    cases h
  | other =>
    rw [hparse] at h
    cases h
  | ip l2Len =>
    rw [hparse] at h
    dsimp only at h
    obtain ⟨rfl, -⟩ := parseL2Ipv6_ip hparse
    split_ifs at h with haccept
    have hvalid := haccept.2.2
    unfold validateDsliteIpv6 at hvalid
    dsimp only at hvalid
    split_ifs at hvalid with hshort hversion hsmall hlong
    exact not_lt.mp hlong

theorem innerInside_of_no_trailer {m : Maps} {ctx : XdpMd} {pkt : Bytes}
    (h : decapPacket m ctx = some pkt) (hend : trailing ctx.data = 0) : InnerInside ctx.data := by
  have hlen := decapPacket_length h
  unfold trailing at hend
  unfold InnerInside
  omega

/-- A packet for the LAN host whose last byte the outer packet does not cover. -/
def paddedFrame : XdpMd where
  data := (Ethhdr.mk default default ethPIpv6).toBytes ++
    ((outerIpv6 (sampleAddr 2) (sampleAddr 1) ipprotoIpip 63).toBytes ++
      sampleIpv4 64 0xcb007105 0xc0a8010a)
  headroom := List.replicate 64 0
  ingressIfindex := 2

theorem paddedFrame_delivered :
    (decapPacket linkedMaps paddedFrame).isSome = true ∧ trailing paddedFrame.data = 1 ∧
      Delivered (doXdpDsliteDecap (linkedEnv 3) ⟨linkedMaps, paddedFrame⟩) ∧
      ¬ InnerInside paddedFrame.data := by
  refine ⟨by decide +kernel, by decide +kernel, ⟨Or.inr ⟨3, by decide +kernel⟩, by decide +kernel⟩, ?_⟩
  unfold InnerInside
  decide +kernel

/-- Exactly when frames have nothing behind their outer packet is every inner packet that is
delivered inside it. -/
theorem delivered_innerInside_iff (bound : ℕ) :
    (∀ p ∈ decapPrograms, ∀ (env : Env) (m : Maps) (ctx : XdpMd) (pkt : Bytes),
      decapPacket m ctx = some pkt → Delivered (p.run env ⟨m, ctx⟩) → trailing ctx.data ≤ bound →
      InnerInside ctx.data) ↔ bound = 0 := by
  obtain ⟨haccept, htrailer, hdelivered, houtside⟩ := paddedFrame_delivered
  obtain ⟨pkt, hpkt⟩ := Option.isSome_iff_exists.mp haccept
  constructor
  · intro h
    by_contra hbound
    exact houtside (h .dsliteDecap (by decide) (linkedEnv 3) linkedMaps paddedFrame pkt hpkt
      hdelivered (by omega))
  · rintro rfl p _ env m ctx pkt' haccept' _ hend
    exact innerInside_of_no_trailer haccept' (by omega)

/-- A byte behind the outer packet is delivered to the LAN as data. -/
theorem trailer_byte_delivered :
    Delivered (doXdpDsliteDecap (linkedEnv 3) ⟨linkedMaps, paddedFrame⟩) ∧
      (Iphdr.read (paddedFrame.data.drop outerHdrLen)).totLen = 64 ∧
      (Ipv6hdr.read (paddedFrame.data.drop ethLen)).payloadLen = 63 :=
  ⟨paddedFrame_delivered.2.2.1, by decide +kernel, by decide +kernel⟩

end Minuteman.Datapath
