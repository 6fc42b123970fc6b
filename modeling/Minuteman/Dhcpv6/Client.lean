import Minuteman.Library.PhasedProcess
import Minuteman.Dhcpv6.Messages

/-!
# The DHCPv6 client process

`internal/dhcpv6client`: the machine that runs the exchanges of one interface,
one at a time. Its draws from the random generator come with each event.
-/
namespace Minuteman.Dhcpv6.Client
open Library

inductive Phase where
  | idle
  | delaying
  | waiting
  deriving DecidableEq

/-- A request to run an exchange, and the caller awaiting its outcome. -/
structure Call where
  id : ℕ
  x : Exchange
  deriving DecidableEq

structure Running where
  call : Call
  xid : TransactionID
  rt : ℤ
  elapsed : ℤ
  sent : ℕ
  deriving DecidableEq

inductive Timer where
  | transmit
  | retransmit
  deriving DecidableEq

inductive Msg where
  | call (c : Call)
  | abandoned (id : ℕ)
  | data (b : Bytes)
  | sendError
  | socketError
  | closed
  deriving DecidableEq

/-- What the machine does: a datagram sent and the next one asked for, the next one asked for, a
reply to the caller, or an end to the process. -/
inductive Out where
  | sendActive (r : Running) (b : Bytes)
  | setActive
  | reply (r : Running) (outcome : Except ExchangeError Message)
  | stop

/-- What an event may draw: a transaction, the jitter of a timeout and that of the ceiling, and
an initial delay. -/
structure Draws where
  xid : TransactionID
  jitter : ℤ
  ceilingJitter : ℤ
  delay : ℤ

def initialDelay (max : ℤ) (draws : Draws) : ℤ := if max = 0 then 0 else draws.delay

def firstRT (irt : ℤ) (draws : Draws) : ℤ := irt + draws.jitter

def nextRT (prev mrt : ℤ) (draws : Draws) : ℤ :=
  let rt := 2 * prev + draws.jitter
  if mrt ≠ 0 ∧ rt > mrt then mrt + draws.ceilingJitter else rt

abbrev Result := Phase × Option Running × List (PhaseEffect Timer Out)

section Machine
variable (clientID : Duid) (draws : Draws)

def send (r : Running) : Result :=
  let r' := { r with sent := r.sent + 1 }
  (.waiting, some r',
    [.out (.sendActive r' (r.call.x.message r.xid clientID r.elapsed).marshalBinary),
      .timeoutAfter r.rt .retransmit])

def finish (r : Running) (outcome : Except ExchangeError Message) : Result :=
  (.idle, none, [.out (.reply r outcome)])

def start (c : Call) : Result :=
  let r : Running :=
    { call := c
      xid := draws.xid
      rt := firstRT c.x.timing.irt draws
      elapsed := 0
      sent := 0 }
  let delay := initialDelay c.x.timing.initialDelayMax draws
  if delay > 0 then (.delaying, some r, [.timeoutAfter delay .transmit]) else send clientID r

/-- The state timeout of `Waiting`. -/
def unanswered (r : Running) : Result :=
  if r.call.x.timing.mrc ≠ 0 ∧ r.sent ≥ r.call.x.timing.mrc then finish r (.error .exhausted)
  else send clientID
    { r with elapsed := r.elapsed + r.rt, rt := nextRT r.rt r.call.x.timing.mrt draws }

/-- A datagram that arrives in `Waiting`. -/
def received (r : Running) (b : Bytes) : Result :=
  match parseMessage b with
  | .ok reply =>
    if r.call.x.answers reply r.xid clientID then finish r (.ok reply)
    else (.waiting, some r, [.out .setActive])
  | .error _ => (.waiting, some r, [.out .setActive])

/-- The exchange running is none in `Idle`, where no timeout is armed and a datagram is dropped. -/
def handleEvent (st : Phase) (d : Option Running) : Occurrence Msg Timer → Result
  | .event (.call c) => if st ≠ .idle then (st, d, [.postpone]) else start clientID draws c
  | .timeout msg =>
    match d, msg with
    | some r, .transmit => send clientID r
    | some r, .retransmit => unanswered clientID draws r
    | none, _ => (st, d, [])
  | .event (.abandoned id) =>
    match d with
    | some r => if st ≠ .idle ∧ id = r.call.id then (.idle, none, []) else (st, d, [])
    | none => (st, d, [])
  | .event (.data b) =>
    match st, d with
    | .waiting, some r => received clientID r b
    | _, _ => (st, d, [])
  | .event .sendError => (st, d, [])
  | .event .socketError => (st, d, [.out .stop])
  | .event .closed => (st, d, [.out .stop])

end Machine
end Minuteman.Dhcpv6.Client
