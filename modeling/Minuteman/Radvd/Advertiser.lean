import Minuteman.Library.TimedServer
import Minuteman.Library.Duration
import Minuteman.PrefixDelegation.IaPd

/-!
# The advertiser of an interface

`internal/radvd` over `pkg/routeradvert`: the handlers of the process that
sends the Router Advertisements of one interface. The generator is a parameter
of the handlers that draw from it; an advertisement is kept as its fields.
-/
namespace Minuteman.Radvd
open Library PrefixDelegation

def maxRtrAdvInterval : ℤ := 600 * second
def minRtrAdvInterval : ℤ := 198 * second
def advDefaultLifetime : ℤ := 3 * maxRtrAdvInterval
def maxInitialRtrAdvertisements : ℕ := 3
def maxInitialRtrAdvertInterval : ℤ := 16 * second
def minDelayBetweenRAs : ℤ := 3 * second
def maxRADelayTime : ℤ := 500 * 1000000
def tentativeRetryInterval : ℤ := second

/-- The zero prefix and the zero address, which are not valid, are `none`. -/
structure Config where
  subnet : Option Prefix
  onLink : Bool
  validLifetime : ℤ
  preferredLifetime : ℤ
  rdnssAddr : Option (FixedBytes 16 × String)
  deriving DecidableEq

inductive RAOption
  | prefixInformation (subnet : Option Prefix) (onLink autonomous : Bool) (valid preferred : ℤ)
  | sourceLinkLayerAddress (mac : Bytes)
  | rdnss (servers : List (FixedBytes 16)) (lifetime : ℤ)
  deriving DecidableEq

structure RouterAdvertisement where
  routerLifetime : ℤ
  options : List RAOption
  deriving DecidableEq

def buildRA (cfg : Config) (lifetime : ℤ) (mac : Bytes) : RouterAdvertisement where
  routerLifetime := lifetime
  options :=
    [.prefixInformation cfg.subnet cfg.onLink true cfg.validLifetime cfg.preferredLifetime,
      .sourceLinkLayerAddress mac] ++
    cfg.rdnssAddr.toList.map fun addr => .rdnss [addr.1] lifetime

/-- Uniform in `[lo, hi]`; a draw stands for the offset it gives. -/
def randInterval (lo hi : ℤ) (draw : ℕ) : ℤ :=
  if hi ≤ lo then lo else lo + draw % (hi - lo + 1)

def nextUnsolicitedInterval (sent : ℕ) (draw : ℕ) : ℤ :=
  if sent < maxInitialRtrAdvertisements then randInterval 0 maxInitialRtrAdvertInterval draw
  else randInterval minRtrAdvInterval maxRtrAdvInterval draw

def replyDelay (draw : ℕ) : ℤ := randInterval 0 maxRADelayTime draw

def isRouterSolicitation (b : Bytes) : Bool := b.head? = some 133

/-- `EADDRNOTAVAIL`: the link-local source is still tentative. -/
def isTentative (errno : ℕ) : Bool := errno = 99

inductive Timer
  | unsolicited
  | quiet
  | reply
  deriving DecidableEq

inductive Output
  | sendRA (ra : RouterAdvertisement)
  | armRS
  deriving DecidableEq

inductive StopReason
  | sending (iface : String) (errno : ℕ)
  | reading (iface : String) (errno : ℕ)
  | closed (iface : String)
  deriving DecidableEq

abbrev Effect := ServerEffect Timer StopReason Output

inductive SocketMsg
  | data (bytes : Bytes)
  | sendError (errno : ℕ)
  | error (errno : ℕ)
  | closed

/-- What `HandleInfo` is called for. -/
inductive Info
  | timer (t : Timer)
  | socket (m : SocketMsg)

structure State where
  cfg : Config
  configured : Bool
  sent : ℕ
  recent : Bool
  pending : Bool
  replying : Bool
  deriving DecidableEq

structure Advertiser where
  iface : String
  mac : Bytes

def State.initial : State := ⟨⟨none, false, 0, 0, none⟩, false, 0, false, false, false⟩

def sendNow : Effect := .startTimer .unsolicited 0

def handleCast (s : State) (cfg : Config) : State × List Effect :=
  if s.configured = false then ({ s with cfg := cfg, configured := true }, [sendNow])
  else if cfg = s.cfg then (s, [])
  else if s.recent then ({ s with cfg := cfg, pending := true }, [])
  else ({ s with cfg := cfg }, [sendNow])

namespace Advertiser
variable (a : Advertiser)

def ra (cfg : Config) (lifetime : ℤ) : RouterAdvertisement := buildRA cfg lifetime a.mac

def send (s : State) : State × List Effect :=
  ({ s with recent := true },
    [.out (.sendRA (a.ra s.cfg advDefaultLifetime)), .startTimer .quiet minDelayBetweenRAs])

def handleInfo (s : State) (draw : ℕ) : Info → State × List Effect
  | .timer .unsolicited =>
    let s := { s with sent := s.sent + 1 }
    let next := nextUnsolicitedInterval s.sent draw
    ((a.send s).1, (a.send s).2 ++ [.startTimer .unsolicited next])
  | .timer .quiet =>
    let s := { s with recent := false }
    if s.pending then ({ s with pending := false }, [sendNow]) else (s, [])
  | .socket (.data bytes) =>
    if !s.configured || s.recent || s.replying || !isRouterSolicitation bytes then
      (s, [.out .armRS])
    else
      ({ s with replying := true }, [.out .armRS, .startTimer .reply (replyDelay draw)])
  | .timer .reply =>
    let s := { s with replying := false }
    if s.recent then (s, []) else a.send s
  | .socket (.sendError errno) =>
    if isTentative errno then
      ({ s with sent := s.sent - 1 }, [.startTimer .unsolicited tentativeRetryInterval])
    else (s, [.stop (.sending a.iface errno)])
  | .socket (.error errno) => (s, [.stop (.reading a.iface errno)])
  | .socket .closed => (s, [.stop (.closed a.iface)])

def terminate (s : State) : List Effect :=
  if s.configured then [.out (.sendRA (a.ra s.cfg 0))] else []

end Advertiser

inductive Letter
  | cast (cfg : Config)
  | socket (m : SocketMsg)

abbrev Process := Server State Timer Letter

/-- An advertisement handed to the socket, and whether the socket failed to send it. -/
structure Sent where
  time : ℤ
  ra : RouterAdvertisement
  failed : Bool
  deriving DecidableEq

/-- The process of an interface and its socket. The process is `none` while it is down; what was
sent is kept the latest first; a failed send is reported later. -/
structure World where
  now : ℤ
  process : Option Process
  sent : List Sent
  unreported : List ℕ

/-- A handler is given the draw it may make and how the socket takes what it sends: the error, if
it fails. -/
inductive Event
  | elapse (d : ℕ)
  | cast (cfg : Config)
  | received (bytes : Bytes)
  | readFailed (errno : ℕ)
  | socketClosed
  | reported
  | handled (draw : ℕ) (outcome : Option ℕ)
  | fired (t : Timer) (draw : ℕ) (outcome : Option ℕ)
  | shutdown (outcome : Option ℕ)
  | killed

def Output.advertisement : Output → Option RouterAdvertisement
  | .sendRA ra => some ra
  | .armRS => none

def advertisements (effects : List Effect) : List RouterAdvertisement :=
  (outputs effects).filterMap Output.advertisement

namespace World

def initial (now : ℤ) : World := ⟨now, some (.fresh .initial), [], []⟩

def transmit (w : World) (effects : List Effect) (outcome : Option ℕ) : World :=
  { w with
    sent := ((advertisements effects).map (⟨w.now, ·, outcome.isSome⟩)).reverse ++ w.sent
    unreported := w.unreported ++ (advertisements effects).flatMap fun _ => outcome.toList }

def arrive (w : World) (m : Letter) : World := { w with process := w.process.map (·.arrive m) }

def exit (a : Advertiser) (w : World) (s : State) (outcome : Option ℕ) : World :=
  { w with process := none }.transmit (a.terminate s) outcome

/-- What a handler returned takes effect on the process it ran in. -/
def settle (a : Advertiser) (w : World) (p : Process) (result : State × List Effect)
    (outcome : Option ℕ) : World :=
  let w := w.transmit result.2 outcome
  match stopReason result.2 with
  | none =>
    { w with process := some { p with
      state := result.1, timers := startTimers w.now result.2 p.timers } }
  | some _ => w.exit a result.1 outcome

def handle (a : Advertiser) (s : State) (draw : ℕ) : Letter → State × List Effect
  | .cast cfg => handleCast s cfg
  | .socket m => a.handleInfo s draw (.socket m)

def step (a : Advertiser) (w : World) : Event → World
  | .elapse d => { w with now := w.now + d }
  | .cast cfg => w.arrive (.cast cfg)
  | .received bytes => w.arrive (.socket (.data bytes))
  | .readFailed errno => w.arrive (.socket (.error errno))
  | .socketClosed => w.arrive (.socket .closed)
  | .reported =>
    match w.unreported with
    | [] => w
    | errno :: rest => { w with unreported := rest }.arrive (.socket (.sendError errno))
  | .handled draw outcome =>
    match w.process with
    | none => w
    | some p =>
      match p.mailbox with
      | [] => w
      | m :: rest =>
        w.settle a { p with mailbox := rest } (handle a p.state draw m) outcome
  | .fired t draw outcome =>
    match w.process with
    | none => w
    | some p =>
      if p.Due w.now t then
        w.settle a { p with timers := Function.update p.timers t none }
          (a.handleInfo p.state draw (.timer t)) outcome
      else w
  | .shutdown outcome =>
    match w.process with
    | none => w
    | some p => w.exit a p.state outcome
  | .killed => { w with process := none }

end World
end Minuteman.Radvd
