import Minuteman.Dhcpv4.Handler

/-!
# The DHCPv4 server process

`internal/dhcpv4server/server.go`: the server of one LAN interface as a
function from its state, the lease pool, and a message to the next state and
the effects asked for. A reply stands for its frame and the address it is
sent to, which `dhcpv4.Frame` computes from it.
-/
namespace Minuteman.Dhcpv4
open Library

/-- One turn of the loop of `restore`: the pool, and the leases it has not taken so far. -/
def restoreStep (now : ℤ) (acc : Pool × List ClientId) (entry : ClientId × Lease) :
    Pool × List ClientId :=
  match acc.1.restore entry.1 entry.2 now with
  | (true, pool) => (pool, acc.2)
  | (false, pool) => (pool, acc.2 ++ [entry.1])

/-- Put the leases kept back into the pool, in the order the table yields them, and list those
it does not take. -/
def restore (pool : Pool) (kept : List (ClientId × Lease)) (now : ℤ) : Pool × List ClientId :=
  kept.foldl (restoreStep now) (pool, [])

/-- The shortest lease the command line takes (`cmd/minuteman`). -/
def minDHCPv4Lease : ℤ := 60 * second

/-- The pool a server starts with, and the lease table once those no longer taken are deleted. -/
def starter (cfg : InterfaceConfig) (leases : ClientId → Option Lease)
    (kept : List (ClientId × Lease)) (now : ℤ) :
    Except PoolError (Pool × (ClientId → Option Lease)) :=
  match newPool cfg.subnet cfg.serverIP cfg.leaseTime with
  | .error e => .error e
  | .ok pool =>
    let (pool, gone) := restore pool kept now
    .ok (pool, gone.foldl (fun t id => Function.update t id none) leases)

/-- What the server asks of the runtime. `put` carries the reply to send once the lease is on
disk, if any. -/
inductive Effect where
  | setActive
  | send (reply : Message)
  | sendActive (reply : Message)
  | put (id : ClientId) (l : Lease) (held : Option Message)
  | delete (id : ClientId)
  | expire (now : ℤ)
  | startTimer
  | stop

/-- The messages the server is sent. `data` is a packet parsed, if it is a request, with the
two readings of the clock made while it is handled. -/
inductive Info where
  | data (request : Option Message) (answered kept : ℤ)
  | durable (held : Message)
  | expire (now : ℤ)
  | sendError
  | error
  | closed

/-- The pool after a request, the reply to it and the ID of the client asking. -/
def answer (cfg : InterfaceConfig) (pool : Pool) (request : Option Message) (now : ℤ) :
    Pool × Option Message × ClientId :=
  match request with
  | none => (pool, none, [])
  | some req =>
    let (reply, next) := handle cfg pool req now
    (next, reply, req.client)

/-- What to write to the lease table of the change a request made: the lease to put, or that
it is to be deleted, or nothing. -/
def keep (leases : Bool) (pool next : Pool) (id : ClientId) (now : ℤ) : Option Lease × Bool :=
  if leases = false ∨ id = [] then (none, false)
  else
    match pool.committed id now, next.committed id now with
    | was, some l => if was ≠ some l then (some l, false) else (none, false)
    | some _, none => (none, true)
    | none, none => (none, false)

def replyEffects (reply : Option Message) (effects : List Effect) : List Effect :=
  match reply with
  | none => effects ++ [.setActive]
  | some m => effects ++ [.sendActive m]

def handleInfo (cfg : InterfaceConfig) (leases : Bool) (pool : Pool) : Info → Pool × List Effect
  | .data request answered kept =>
    let (next, reply, id) := answer cfg pool request answered
    match keep leases pool next id kept, reply with
    | (some l, _), some m => (next, [.setActive, .put id l (some m)])
    | (some l, _), none => (next, replyEffects none [.put id l none])
    | (none, true), reply => (next, replyEffects reply [.delete id])
    | (none, false), reply => (next, replyEffects reply [])
  | .durable held => (pool, [.send held])
  | .expire now => (pool, [.expire now, .startTimer])
  | .sendError => (pool, [])
  | .error => (pool, [.stop])
  | .closed => (pool, [.stop])

end Minuteman.Dhcpv4
