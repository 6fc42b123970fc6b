import Minuteman.Dhcpv4.Pool

/-!
# DHCPv4 messages

`pkg/dhcpv4/message.go` and the option constructors and extractors of
`pkg/dhcpv4/options.go`. A field holding the zero `netip.Addr` is `none`.
-/
namespace Minuteman.Dhcpv4
open Library ByteString

abbrev OptionCode := UInt8

def optSubnetMask : OptionCode := 1
def optRouter : OptionCode := 3
def optDNSServers : OptionCode := 6
def optInterfaceMTU : OptionCode := 26
def optBroadcastAddr : OptionCode := 28
def optRequestedIP : OptionCode := 50
def optLeaseTime : OptionCode := 51
def optMessageType : OptionCode := 53
def optServerID : OptionCode := 54
def optRenewalTime : OptionCode := 58
def optRebindingTime : OptionCode := 59
def optClientID : OptionCode := 61

/-- The message types this server knows, and the bytes that are none of them. -/
inductive MessageType where
  | discover
  | offer
  | request
  | decline
  | ack
  | nak
  | release
  | inform
  | unknown (t : UInt8)
  deriving DecidableEq

namespace MessageType

def ofByte (t : UInt8) : MessageType :=
  if t = 1 then discover
  else if t = 2 then offer
  else if t = 3 then request
  else if t = 4 then decline
  else if t = 5 then ack
  else if t = 6 then nak
  else if t = 7 then release
  else if t = 8 then inform
  else unknown t

def toByte : MessageType → UInt8
  | discover => 1
  | offer => 2
  | request => 3
  | decline => 4
  | ack => 5
  | nak => 6
  | release => 7
  | inform => 8
  | unknown t => t

end MessageType

/-- A single DHCP option: PAD and END never appear as one. -/
structure DhcpOption where
  code : OptionCode
  data : Bytes
  deriving DecidableEq

abbrev Options := List DhcpOption

def newMessageType (t : MessageType) : DhcpOption := ⟨optMessageType, [t.toByte]⟩

def newAddr (code : OptionCode) (a : Addr) : DhcpOption := ⟨code, be32 a⟩

def newAddrs (code : OptionCode) (addrs : List Addr) : DhcpOption := ⟨code, addrs.flatMap be32⟩

/-- Whole seconds, rounded down and saturated at the 32-bit maximum. -/
def newSeconds (code : OptionCode) (d : ℤ) : DhcpOption :=
  ⟨code, be32 (UInt32.ofNat (min (max (d.tdiv second) 0) 0xffffffff).toNat)⟩

def newMTU (mtu : UInt16) : DhcpOption := ⟨optInterfaceMTU, be16 mtu⟩

namespace Options

def get (o : Options) (code : OptionCode) : Option DhcpOption := o.find? (fun opt => opt.code = code)

def messageType (o : Options) : Option MessageType :=
  match o.get optMessageType with
  | some ⟨_, [t]⟩ => some (MessageType.ofByte t)
  | _ => none

def addr (o : Options) (code : OptionCode) : Option Addr :=
  match o.get code with
  | some opt => if opt.data.length ≠ 4 then none else some (be32At opt.data 0)
  | none => none

def requestedIP (o : Options) : Option Addr := o.addr optRequestedIP

def serverID (o : Options) : Option Addr := o.addr optServerID

def clientID (o : Options) (fallback : Bytes) : ClientId :=
  match o.get optClientID with
  | some opt => if 0 < opt.data.length then opt.data else fallback
  | none => fallback

end Options

def opBootRequest : UInt8 := 1
def opBootReply : UInt8 := 2
def hardwareTypeEthernet : UInt8 := 1
def flagBroadcast : UInt16 := 0x8000

structure Message where
  op : UInt8
  htype : UInt8
  hlen : UInt8
  hops : UInt8
  xid : UInt32
  secs : UInt16
  flags : UInt16
  ciaddr : Option Addr
  yiaddr : Option Addr
  siaddr : Option Addr
  giaddr : Option Addr
  chaddr : Bytes
  sname : Bytes
  file : Bytes
  options : Options
  deriving DecidableEq

def Message.client (m : Message) : ClientId := m.options.clientID m.chaddr

/-- The address a message grants: that of an OFFER or ACK in `yiaddr`. -/
def Message.granted (m : Message) : Option Addr :=
  match m.options.messageType with
  | some .offer => m.yiaddr
  | some .ack => m.yiaddr
  | _ => none

end Minuteman.Dhcpv4
