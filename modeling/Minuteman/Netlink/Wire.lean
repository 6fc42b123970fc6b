import Minuteman.Library.ByteOrder
import Minuteman.Loader.Operations

/-!
# Netlink messages

`pkg/netlink/message.go`: messages and their attributes, each with its length in
front and padded to four bytes, in the byte order of the machine. Every parser
walks its attributes itself; what the walks have in common is `walkAttrs`.
-/
namespace Minuteman.Netlink.Wire
open Library ByteString Checked Loader

def sizeofRtAttr : ℕ := 4
def sizeofNlMsghdr : ℕ := 16
def sizeofIfAddrmsg : ℕ := 8
def sizeofRtMsg : ℕ := 12
def sizeofIfInfomsg : ℕ := 16

def afInet6 : UInt8 := 10
def rtScopeUniverse : UInt8 := 0
def ifaAddress : UInt16 := 1
def ifaLocal : UInt16 := 2
def rtaPrefsrc : UInt16 := 7
def iflaIfname : UInt16 := 3
def iflaXdp : UInt16 := 43
def iflaXdpProgId : UInt16 := 4

/-- Round up to a multiple of four: add three and clear the two low bits. -/
def nlmsgAlign (n : ℕ) : ℕ := (n + 3) / 4 * 4

theorem le_nlmsgAlign (n : ℕ) : n ≤ nlmsgAlign n := by
  rw [nlmsgAlign]
  omega

section Encoding
variable (o : ByteOrder)

def encodeRtAttr (attrType : UInt16) (payload : Bytes) : Bytes :=
  let rtaLen := sizeofRtAttr + payload.length
  o.put16 (UInt16.ofNat rtaLen) ++ o.put16 attrType ++ payload ++
    List.replicate (nlmsgAlign rtaLen - rtaLen) 0

def encodeNestedAttr (attrType : UInt16) (children : List Bytes) : Bytes :=
  encodeRtAttr o attrType children.flatten

/-- The header ends with the port, which is left zero. -/
def buildMessage (rtmType flags : UInt16) (seq : UInt32) (body : Bytes) : Bytes :=
  o.put32 (UInt32.ofNat (sizeofNlMsghdr + body.length)) ++ o.put16 rtmType ++ o.put16 flags ++
    o.put32 seq ++ o.put32 0 ++ body

/-- The part of an address message after its header. -/
def addrMessageBody (ifindex : ℤ) (addr : Addr) (prefixLen : ℤ) : Bytes :=
  let addr16 := addr.as16.bytes
  [afInet6, UInt8.ofInt prefixLen, 0, 0] ++ o.put32 (UInt32.ofInt ifindex) ++
    encodeRtAttr o ifaLocal addr16 ++ encodeRtAttr o ifaAddress addr16

def buildAddrMessage (rtmType flags : UInt16) (seq : UInt32) (ifindex : ℤ) (addr : Addr)
    (prefixLen : ℤ) : Bytes :=
  buildMessage o rtmType flags seq (addrMessageBody o ifindex addr prefixLen)

end Encoding

def addrFromSlice (b : Bytes) : Option Addr :=
  if h : b.length = 4 then some (.v4 ⟨b, h⟩)
  else if h : b.length = 16 then some (.v6 ⟨b, h⟩ "")
  else none

/-- `netip.Prefix`; one whose length is out of range has none. -/
structure Prefix where
  addr : Addr
  bits : Option ℕ
  deriving DecidableEq

def bitLen : Addr → ℕ
  | .invalid => 0
  | .v4 _ => 32
  | .v6 _ _ => 128

def withoutZone : Addr → Addr
  | .v6 a _ => .v6 a ""
  | a => a

def prefixFrom (ip : Addr) (bits : ℕ) : Prefix :=
  ⟨withoutZone ip, if ip ≠ .invalid ∧ bits ≤ bitLen ip then some bits else none⟩

/-- What looking at an attribute comes to: the walk goes on or is over. -/
inductive Visit (σ ρ : Type)
  | next (s : σ)
  | done (r : ρ)

section Parsing
variable (o : ByteOrder) {σ ρ : Type}

theorem sliceFrom_ok {b rest : Bytes} {low : ℕ} (h : sliceFrom b low = .ok rest) :
    low ≤ b.length ∧ rest = b.drop low := by
  unfold sliceFrom at h
  split_ifs at h with hlow
  cases h
  exact ⟨hlow, rfl⟩

/-- The loop over attributes. `visit` is given the attributes left, with the type and the length of
the first. -/
def walkAttrs (visit : σ → Bytes → UInt16 → ℕ → Checked (Visit σ ρ)) (s : σ) (attrs : Bytes) :
    Checked (Visit σ ρ) :=
  if attrs.length < sizeofRtAttr then .ok (.next s)
  else do
    let attrLen ← slice attrs 0 2 >>= o.uint16
    let attrType ← slice attrs 2 4 >>= o.uint16
    if attrLen.toNat < sizeofRtAttr ∨ attrLen.toNat > attrs.length then .ok (.next s)
    else
      match ← visit s attrs attrType attrLen.toNat with
      | .done r => .ok (.done r)
      | .next s =>
        let next := nlmsgAlign attrLen.toNat
        if next > attrs.length then .ok (.next s)
        else
          match _hrest : sliceFrom attrs next with
          | .error e => .error e
          | .ok rest => walkAttrs visit s rest
termination_by attrs.length
decreasing_by
  obtain ⟨-, rfl⟩ := sliceFrom_ok _hrest
  have halign : attrLen.toNat ≤ next := le_nlmsgAlign _
  simp only [sizeofRtAttr, List.length_drop] at *
  omega

def visitPrefsrc (_ : Unit) (attrs : Bytes) (attrType : UInt16) (attrLen : ℕ) :
    Checked (Visit Unit Addr) :=
  if attrType = rtaPrefsrc then do
    match addrFromSlice (← slice attrs sizeofRtAttr attrLen) with
    | some addr => .ok (.done addr)
    | none => .ok (.next ())
  else .ok (.next ())

def parseRoutePrefsrc (payload : Bytes) : Checked (Option Addr) :=
  if payload.length < sizeofRtMsg then .ok none
  else do
    if (← index payload 0) ≠ afInet6 then .ok none
    else
      match ← walkAttrs o visitPrefsrc () (← sliceFrom payload sizeofRtMsg) with
      | .done addr => .ok (some addr)
      | .next _ => .ok none

/-- The variables `address` and `local` of `parseIfAddrMsg`. -/
structure IfAddrs where
  address : Addr
  local_ : Addr

def visitIfAddr (s : IfAddrs) (attrs : Bytes) (attrType : UInt16) (attrLen : ℕ) :
    Checked (Visit IfAddrs Empty) := do
  let value ← slice attrs sizeofRtAttr attrLen
  if attrType = ifaAddress then
    .ok (.next { s with address := (addrFromSlice value).getD .invalid })
  else if attrType = ifaLocal then
    .ok (.next { s with local_ := (addrFromSlice value).getD .invalid })
  else .ok (.next s)

def parseIfAddrMsg (payload : Bytes) (wantIfindex : ℤ) : Checked (Option Prefix) :=
  if payload.length < sizeofIfAddrmsg then .ok none
  else do
    let family ← index payload 0
    let prefixLen ← index payload 1
    let scope ← index payload 3
    let ifindex ← slice payload 4 8 >>= o.uint32
    if family ≠ afInet6 ∨ (ifindex.toNat : ℤ) ≠ wantIfindex ∨ scope ≠ rtScopeUniverse then .ok none
    else
      match ← walkAttrs o visitIfAddr ⟨.invalid, .invalid⟩ (← sliceFrom payload sizeofIfAddrmsg) with
      | .next s =>
        let addr := if s.address = .invalid then s.local_ else s.address
        if addr = .invalid then .ok none else .ok (some (prefixFrom addr prefixLen.toNat))

@[ext] structure Link where
  index : ℕ
  name : Bytes
  xdpProgID : UInt32
  deriving DecidableEq

def visitXDPProgID (_ : Unit) (attrs : Bytes) (attrType : UInt16) (attrLen : ℕ) :
    Checked (Visit Unit UInt32) :=
  if attrType = iflaXdpProgId ∧ attrLen ≥ sizeofRtAttr + 4 then do
    let id ← slice attrs sizeofRtAttr (sizeofRtAttr + 4) >>= o.uint32
    .ok (.done id)
  else .ok (.next ())

def parseXDPProgID (attrs : Bytes) : Checked UInt32 := do
  match ← walkAttrs o (visitXDPProgID o) () attrs with
  | .done id => .ok id
  | .next _ => .ok 0

/-- A name in a buffer, which may end with a NUL. -/
def cutName (value : Bytes) : Checked Bytes :=
  let i := value.idxOf 0
  if i < value.length then slice value 0 i else .ok value

def visitIfInfo (link : Link) (attrs : Bytes) (attrType : UInt16) (attrLen : ℕ) :
    Checked (Visit Link Empty) := do
  let value ← slice attrs sizeofRtAttr attrLen
  if attrType = iflaIfname then .ok (.next { link with name := ← cutName value })
  else if attrType = iflaXdp then .ok (.next { link with xdpProgID := ← parseXDPProgID o value })
  else .ok (.next link)

def parseIfInfoMsg (payload : Bytes) : Checked (Option Link) :=
  if payload.length < sizeofIfInfomsg then .ok none
  else do
    let ifindex ← slice payload 4 8 >>= o.uint32
    match ← walkAttrs o (visitIfInfo o) ⟨ifindex.toNat, [], 0⟩ (← sliceFrom payload sizeofIfInfomsg)
      with
    | .next link => if link.index = 0 ∨ link.name = [] then .ok none else .ok (some link)

structure RawMsg where
  type : UInt16
  raw : Bytes
  deriving DecidableEq

inductive WalkError
  | trailing (length : ℕ)
  | malformed (msgLen : UInt32) (remaining : ℕ)
  deriving DecidableEq

/-- The loop of `walkMessages`, with the messages split off so far. -/
def walkMessagesFrom (msgs : List RawMsg) (buf : Bytes) : Checked (Except WalkError (List RawMsg)) :=
  if ¬ buf.length > 0 then .ok (.ok msgs)
  else if buf.length < sizeofNlMsghdr then .ok (.error (.trailing buf.length))
  else do
    let msgLen ← slice buf 0 4 >>= o.uint32
    let msgType ← slice buf 4 6 >>= o.uint16
    if msgLen.toNat < sizeofNlMsghdr ∨ msgLen.toNat > buf.length then
      .ok (.error (.malformed msgLen buf.length))
    else
      let raw ← slice buf 0 msgLen.toNat
      match hrest : sliceFrom buf (min (nlmsgAlign msgLen.toNat) buf.length) with
      | .error e => .error e
      | .ok rest => walkMessagesFrom (msgs ++ [⟨msgType, raw⟩]) rest
termination_by buf.length
decreasing_by
  obtain ⟨-, rfl⟩ := sliceFrom_ok hrest
  have halign := le_nlmsgAlign msgLen.toNat
  simp only [sizeofNlMsghdr, List.length_drop] at *
  omega

def walkMessages (buf : Bytes) : Checked (Except WalkError (List RawMsg)) :=
  walkMessagesFrom o [] buf

end Parsing
end Minuteman.Netlink.Wire
