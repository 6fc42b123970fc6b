import Minuteman.Library.ByteString
import Minuteman.Library.Duration

/-!
# DHCPv6 messages and exchanges

`pkg/dhcpv6`: options as they are encoded and decoded, in a message or in the
data of another option, and the exchanges a client runs. Durations are in
nanoseconds.
-/
namespace Minuteman.Dhcpv6
open Library ByteString

abbrev Duid := Bytes

def optionClientID : UInt16 := 1
def optionServerID : UInt16 := 2
def optionORO : UInt16 := 6
def optionElapsedTime : UInt16 := 8
def optionStatusCode : UInt16 := 13
def optionDNSServers : UInt16 := 23
def optionIAPD : UInt16 := 25
def optionIAPrefix : UInt16 := 26

structure DhcpOption where
  code : UInt16
  data : Bytes
  deriving DecidableEq

abbrev Options := List DhcpOption

/-- Why options do not decode: the bytes left are too few for a header, or for the data the
header announces. -/
inductive OptionsError where
  | truncatedHeader (left : ℕ)
  | lengthExceeds (code : UInt16) (length remaining : ℕ)
  deriving DecidableEq

/-- The loop of `parseOptions`; `fuel` is at least the number of bytes left. -/
def parseOptionsFrom : ℕ → Bytes → Except OptionsError Options
  | fuel + 1, b@(_ :: _) =>
    if b.length < 4 then .error (.truncatedHeader b.length)
    else
      let code := be16At b 0
      let optLen := (be16At b 2).toNat
      if b.length < 4 + optLen then .error (.lengthExceeds code optLen (b.length - 4))
      else
        match parseOptionsFrom fuel (b.drop (4 + optLen)) with
        | .ok rest => .ok (⟨code, (b.drop 4).take optLen⟩ :: rest)
        | .error e => .error e
  | _, _ => .ok []

def parseOptions (b : Bytes) : Except OptionsError Options := parseOptionsFrom b.length b

namespace Options

def get (o : Options) (code : UInt16) : Option DhcpOption := o.find? (fun opt => opt.code = code)

def marshal (o : Options) : Bytes :=
  o.flatMap fun opt => be16 opt.code ++ be16 (UInt16.ofNat opt.data.length) ++ opt.data

def clientID (o : Options) : Option Duid := (o.get optionClientID).map DhcpOption.data

def serverID (o : Options) : Option Duid := (o.get optionServerID).map DhcpOption.data

/-- The addresses of `DNSServers`: none if the option is absent or does not decode, which the
callers treat alike. -/
def dnsServers (o : Options) : List (FixedBytes 16) :=
  match o.get optionDNSServers with
  | some opt =>
    if opt.data.length % 16 ≠ 0 then []
    else (List.range (opt.data.length / 16)).map fun i =>
      FixedBytes.read 16 (opt.data.drop (16 * i))
  | none => []

end Options

def newClientIDOption (d : Duid) : DhcpOption := ⟨optionClientID, d⟩

def newORO (codes : List UInt16) : DhcpOption := ⟨optionORO, codes.flatMap be16⟩

def maxElapsedTime : ℤ := 0xffff

def newElapsedTimeOption (sinceFirstSend : ℤ) : DhcpOption :=
  let centiseconds := sinceFirstSend.tdiv 10000000
  let centiseconds := if centiseconds > maxElapsedTime then maxElapsedTime else centiseconds
  let centiseconds := if centiseconds < 0 then 0 else centiseconds
  ⟨optionElapsedTime, be16 (UInt16.ofNat centiseconds.toNat)⟩

abbrev MessageType := UInt8

def messageTypeSolicit : MessageType := 1
def messageTypeAdvertise : MessageType := 2
def messageTypeRequest : MessageType := 3
def messageTypeRenew : MessageType := 5
def messageTypeRebind : MessageType := 6
def messageTypeReply : MessageType := 7
def messageTypeRelease : MessageType := 8
def messageTypeInformationRequest : MessageType := 11

abbrev TransactionID := FixedBytes 3

structure Message where
  type : MessageType
  xid : TransactionID
  options : Options
  deriving DecidableEq

def Message.marshalBinary (m : Message) : Bytes := [m.type] ++ m.xid.bytes ++ m.options.marshal

inductive MessageError where
  | tooShort (length : ℕ)
  | options (e : OptionsError)
  deriving DecidableEq

def parseMessage (b : Bytes) : Except MessageError Message :=
  if b.length < 4 then .error (.tooShort b.length)
  else
    match parseOptions (b.drop 4) with
    | .error e => .error (.options e)
    | .ok opts => .ok ⟨byteAt b 0, FixedBytes.read 3 (b.drop 1), opts⟩

/-- The retransmission parameters of an exchange: `mrc`, how often its message is sent at most,
is unbounded when 0. -/
structure Timing where
  initialDelayMax : ℤ
  irt : ℤ
  mrt : ℤ
  mrc : ℕ
  deriving DecidableEq

structure Exchange where
  type : MessageType
  expect : MessageType
  options : Options
  timing : Timing
  deriving DecidableEq

namespace Exchange

def message (x : Exchange) (xid : TransactionID) (clientID : Duid) (elapsed : ℤ) : Message :=
  ⟨x.type, xid, [newClientIDOption clientID] ++ x.options ++ [newElapsedTimeOption elapsed]⟩

/-- Whether `reply` ends the exchange `x`, sent as transaction `xid` by the client `clientID`. -/
def answers (x : Exchange) (reply : Message) (xid : TransactionID) (clientID : Duid) : Bool :=
  if reply.type ≠ x.expect ∨ reply.xid ≠ xid then false
  else if reply.options.serverID.isNone then false
  else
    match reply.options.clientID with
    | some echoed => echoed = clientID
    | none => true

end Exchange

/-- Why an exchange ends without an answer: it was sent as often as it may be, the context it ran
under was done, or the client running it is gone. -/
inductive ExchangeError where
  | exhausted
  | deadlineExceeded
  | clientFailed
  deriving DecidableEq

def informationRequest (requestedOptions : List UInt16) : Exchange :=
  { type := messageTypeInformationRequest
    expect := messageTypeReply
    options := [newORO requestedOptions]
    timing := ⟨1 * second, 1 * second, 3600 * second, 0⟩ }

def solicit (extraOptions : Options) : Exchange :=
  { type := messageTypeSolicit
    expect := messageTypeAdvertise
    options := extraOptions
    timing := ⟨1 * second, 1 * second, 3600 * second, 0⟩ }

def request (extraOptions : Options) : Exchange :=
  { type := messageTypeRequest
    expect := messageTypeReply
    options := extraOptions
    timing := ⟨0, 1 * second, 30 * second, 10⟩ }

def renew (extraOptions : Options) : Exchange :=
  { type := messageTypeRenew
    expect := messageTypeReply
    options := extraOptions
    timing := ⟨0, 10 * second, 600 * second, 0⟩ }

def rebind (extraOptions : Options) : Exchange :=
  { type := messageTypeRebind
    expect := messageTypeReply
    options := extraOptions
    timing := ⟨0, 10 * second, 600 * second, 0⟩ }

def release (extraOptions : Options) : Exchange :=
  { type := messageTypeRelease
    expect := messageTypeReply
    options := extraOptions
    timing := ⟨0, 1 * second, 0, 5⟩ }

end Minuteman.Dhcpv6
