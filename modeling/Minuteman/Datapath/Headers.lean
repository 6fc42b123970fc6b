import Minuteman.Library.ByteString

/-!
# Packet headers

The Ethernet, IPv4, IPv6, fragment and TCP headers the datapath reads and
writes, each with its wire layout. A header is read from the front of a byte
suffix; callers have checked that the suffix is long enough.
-/
namespace Minuteman.Datapath
open Library ByteString

abbrev Mac := FixedBytes 6
abbrev In6Addr := FixedBytes 16

structure Ethhdr where
  hDest : Mac
  hSource : Mac
  hProto : UInt16

/-- `struct iphdr`; `verIhl` is the byte of the version and header-length nibbles. -/
structure Iphdr where
  verIhl : UInt8
  tos : UInt8
  totLen : UInt16
  id : UInt16
  fragOff : UInt16
  ttl : UInt8
  protocol : UInt8
  check : UInt16
  saddr : UInt32
  daddr : UInt32

/-- `struct ipv6hdr`; `verPrio` is the byte of the version and priority nibbles. -/
structure Ipv6hdr where
  verPrio : UInt8
  flowLbl : FixedBytes 3
  payloadLen : UInt16
  nexthdr : UInt8
  hopLimit : UInt8
  saddr : In6Addr
  daddr : In6Addr

structure FragHdr where
  nexthdr : UInt8
  reserved : UInt8
  fragOff : UInt16
  identification : UInt32

def ethLen : ℕ := 14
def iphdrLen : ℕ := 20
def ipv6hdrLen : ℕ := 40
def fragHdrLen : ℕ := 8
def tcphdrLen : ℕ := 20

def ethP8021Q : UInt16 := 0x8100
def ethP8021AD : UInt16 := 0x88A8
def ethPIp : UInt16 := 0x0800
def ethPIpv6 : UInt16 := 0x86DD

def ipprotoHopopts : UInt8 := 0
def ipprotoIcmp : UInt8 := 1
def ipprotoIpip : UInt8 := 4
def ipprotoTcp : UInt8 := 6
def ipprotoUdp : UInt8 := 17
def ipprotoRouting : UInt8 := 43
def ipprotoFragment : UInt8 := 44
def ipprotoIcmpv6 : UInt8 := 58
def ipprotoDstopts : UInt8 := 60

def ipDf : UInt16 := 0x4000
def ipMf : UInt16 := 0x2000
def ipOffset : UInt16 := 0x1FFF

namespace Ethhdr

def toBytes (h : Ethhdr) : Bytes := h.hDest.bytes ++ (h.hSource.bytes ++ be16 h.hProto)

def read (b : Bytes) : Ethhdr where
  hDest := FixedBytes.read 6 b
  hSource := FixedBytes.read 6 (b.drop 6)
  hProto := be16At (b.drop 12) 0

@[simp] theorem toBytes_length (h : Ethhdr) : h.toBytes.length = 14 := by
  simp [toBytes]

@[simp] theorem read_toBytes (h : Ethhdr) (b : Bytes) : read (h.toBytes ++ b) = h := by
  have hdrop : (h.toBytes ++ b).drop 12 = be16 h.hProto ++ b := by
    simp [toBytes, List.drop_append]
  have hsource : (h.toBytes ++ b).drop 6 = h.hSource.bytes ++ (be16 h.hProto ++ b) := by
    simp [toBytes]
  rw [read, hdrop, hsource, be16At_be16]
  simp [toBytes]

end Ethhdr

namespace Iphdr

def version (h : Iphdr) : UInt8 := h.verIhl >>> 4
def ihl (h : Iphdr) : UInt8 := h.verIhl &&& 0xF

def read (b : Bytes) : Iphdr where
  verIhl := byteAt b 0
  tos := byteAt b 1
  totLen := be16At b 2
  id := be16At b 4
  fragOff := be16At b 6
  ttl := byteAt b 8
  protocol := byteAt b 9
  check := be16At b 10
  saddr := be32At b 12
  daddr := be32At b 16

def toBytes (h : Iphdr) : Bytes :=
  [h.verIhl, h.tos] ++ be16 h.totLen ++ be16 h.id ++ be16 h.fragOff ++ [h.ttl, h.protocol] ++
    be16 h.check ++ be32 h.saddr ++ be32 h.daddr

@[simp] theorem toBytes_length (h : Iphdr) : h.toBytes.length = 20 := rfl

/-- The header is its first 20 bytes. -/
theorem read_congr {a b : Bytes} (h : ∀ i < 20, byteAt a i = byteAt b i) : read a = read b := by
  simp only [read, be32At, be16At]
  simp (disch := decide) only [h]

theorem read_append_left {a : Bytes} (h : 20 ≤ a.length) (b : Bytes) : read (a ++ b) = read a :=
  read_congr fun _ hi => byteAt_append_left (by omega)

@[simp] theorem read_toBytes (h : Iphdr) (b : Bytes) : read (h.toBytes ++ b) = h := by
  have hword : ∀ i, be16At (h.toBytes ++ b) i = be16At ((h.toBytes ++ b).drop i) 0 :=
    fun i => (be16At_drop _ i 0).symm
  have hlen : be16At (h.toBytes ++ b) 2 = h.totLen := (hword 2).trans (be16At_be16 _ _)
  have hid : be16At (h.toBytes ++ b) 4 = h.id := (hword 4).trans (be16At_be16 _ _)
  have hfrag : be16At (h.toBytes ++ b) 6 = h.fragOff := (hword 6).trans (be16At_be16 _ _)
  have hcheck : be16At (h.toBytes ++ b) 10 = h.check := (hword 10).trans (be16At_be16 _ _)
  have hsaddr : be32At (h.toBytes ++ b) 12 = h.saddr := by
    rw [be32At, hword 12, hword (12 + 2)]
    exact be32At_be32 h.saddr (be32 h.daddr ++ b)
  have hdaddr : be32At (h.toBytes ++ b) 16 = h.daddr := by
    rw [be32At, hword 16, hword (16 + 2)]
    exact be32At_be32 h.daddr b
  rw [read, hlen, hid, hfrag, hcheck, hsaddr, hdaddr]
  rfl

end Iphdr

namespace Ipv6hdr

def version (h : Ipv6hdr) : UInt8 := h.verPrio >>> 4

def toBytes (h : Ipv6hdr) : Bytes :=
  h.verPrio :: (h.flowLbl.bytes ++
    (be16 h.payloadLen ++ (h.nexthdr :: h.hopLimit :: (h.saddr.bytes ++ h.daddr.bytes))))

def read (b : Bytes) : Ipv6hdr where
  verPrio := byteAt b 0
  flowLbl := FixedBytes.read 3 (b.drop 1)
  payloadLen := be16At (b.drop 4) 0
  nexthdr := byteAt (b.drop 6) 0
  hopLimit := byteAt (b.drop 7) 0
  saddr := FixedBytes.read 16 (b.drop 8)
  daddr := FixedBytes.read 16 (b.drop 24)

@[simp] theorem toBytes_length (h : Ipv6hdr) : h.toBytes.length = 40 := by
  simp [toBytes]

@[simp] theorem read_toBytes (h : Ipv6hdr) (b : Bytes) : read (h.toBytes ++ b) = h := by
  have hlabel : (h.toBytes ++ b).drop 1 = h.flowLbl.bytes ++ (be16 h.payloadLen ++
      (h.nexthdr :: h.hopLimit :: (h.saddr.bytes ++ (h.daddr.bytes ++ b)))) := by
    simp [toBytes]
  have hlen : (h.toBytes ++ b).drop 4 = be16 h.payloadLen ++
      (h.nexthdr :: h.hopLimit :: (h.saddr.bytes ++ (h.daddr.bytes ++ b))) := by
    simp [toBytes]
  have hnext : (h.toBytes ++ b).drop 6 =
      h.nexthdr :: h.hopLimit :: (h.saddr.bytes ++ (h.daddr.bytes ++ b)) := by
    simp [toBytes, List.drop_append, be16]
  have hhop : (h.toBytes ++ b).drop 7 =
      h.hopLimit :: (h.saddr.bytes ++ (h.daddr.bytes ++ b)) := by
    simp [toBytes, List.drop_append, be16]
  have hsaddr : (h.toBytes ++ b).drop 8 = h.saddr.bytes ++ (h.daddr.bytes ++ b) := by
    simp [toBytes, List.drop_append, be16]
  have hdaddr : (h.toBytes ++ b).drop 24 = h.daddr.bytes ++ b := by
    simp [toBytes, List.drop_append, be16]
  rw [read, hlabel, hlen, hnext, hhop, hsaddr, hdaddr, be16At_be16]
  simp [toBytes, byteAt]

theorem read_append_left {a : Bytes} (h : 40 ≤ a.length) (b : Bytes) : read (a ++ b) = read a := by
  have hdrop : ∀ i ≤ 40, (a ++ b).drop i = a.drop i ++ b :=
    fun i hi => List.drop_append_of_le_length (by omega)
  have hlen : ∀ i, (a.drop i).length = a.length - i := fun i => List.length_drop
  rw [read, read, hdrop 1 (by omega), hdrop 4 (by omega), hdrop 6 (by omega),
    hdrop 7 (by omega), hdrop 8 (by omega), hdrop 24 (by omega),
    byteAt_append_left (by omega), byteAt_append_left (by rw [hlen]; omega),
    byteAt_append_left (by rw [hlen]; omega), be16At_append_left (by rw [hlen]; omega),
    FixedBytes.read_append_left (by rw [hlen]; omega),
    FixedBytes.read_append_left (by rw [hlen]; omega),
    FixedBytes.read_append_left (by rw [hlen]; omega)]

end Ipv6hdr

namespace FragHdr

def toBytes (h : FragHdr) : Bytes :=
  h.nexthdr :: h.reserved :: (be16 h.fragOff ++ be32 h.identification)

def read (b : Bytes) : FragHdr where
  nexthdr := byteAt b 0
  reserved := byteAt b 1
  fragOff := be16At (b.drop 2) 0
  identification := be32At (b.drop 4) 0

@[simp] theorem toBytes_length (h : FragHdr) : h.toBytes.length = 8 := rfl

@[simp] theorem read_toBytes (h : FragHdr) (b : Bytes) : read (h.toBytes ++ b) = h := by
  have hoff : (h.toBytes ++ b).drop 2 = be16 h.fragOff ++ (be32 h.identification ++ b) := rfl
  have hid : (h.toBytes ++ b).drop 4 = be32 h.identification ++ b := rfl
  rw [read, hoff, hid, be16At_be16, be32At_be32]
  rfl

end FragHdr
end Minuteman.Datapath
