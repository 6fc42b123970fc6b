import Minuteman.Control.Softwire

/-!
# The controller, the server and the datapath together

The controller runs as a state machine process: a change of phase cancels its
state timeout, runs the entry action and redelivers what was postponed. Its
requests queue at the server, which answers in order; answers to a controller
that has died are lost. Packets, timeouts, discovery outcomes and crashes come
at any point. A loader call stores the control word in one map operation and
packets never write what it reads, so a request is handled as one step.
-/
namespace Minuteman.Control
open Library Datapath Loader Migration Prog

structure Item where
  owner : ℕ
  tag : Tag
  req : Request

/-- The controller process, its messages, the server and the datapath. `cutOver` is a history
variable: a cutover was executed since the controller was last steady. -/
structure System where
  incarnation : ℕ := 0
  phase : Phase := .recovering
  data : Data := {}
  stateTimer : Option StateMsg := none
  b4PollTimer : Bool := false
  drainCapTimer : Option ℕ := none
  async : Option String := none
  postponed : List TimeoutMsg := []
  mailbox : List Response := []
  queue : List Item := []
  softwire : Softwire
  world : Monitored
  cutOver : Bool := false

namespace System

/-- A controller process is started, by the supervisor when the last one has died. -/
def spawn (s : System) (incarnation : ℕ) : System :=
  { s with
    incarnation := incarnation
    phase := init.phase
    data := init.data
    stateTimer := none
    b4PollTimer := false
    drainCapTimer := none
    async := none
    postponed := []
    mailbox := []
    queue := s.queue ++ [⟨incarnation, ⟨.recover, 0⟩, .recoverReq⟩]
    cutOver := false }

def perform (ev : StatemEvent) (s : System) : Effect → System
  | .sendRequest tag req => { s with queue := s.queue ++ [⟨s.incarnation, tag, req⟩] }
  | .startStateTimeout _ msg => { s with stateTimer := some msg }
  | .startTimeout _ .b4Poll => { s with b4PollTimer := true }
  | .startTimeout _ (.drainCap n) => { s with drainCapTimer := some n }
  | .cancelTimeout .b4PollTimer => { s with b4PollTimer := false }
  | .cancelTimeout .drainCapTimer => { s with drainCapTimer := none }
  | .async token => { s with async := some token }
  | .cancelAsync => { s with async := none }
  | .postpone =>
    match ev with
    | .timeout msg =>
      { s with postponed := s.postponed ++ [msg] }
    | _ => s
  | .stop _ => s.spawn (s.incarnation + 1)

variable (c : Controller)

/-- Handle one event: the new phase and data, a state timeout cancelled by a change of phase, and
the effects. -/
def handle (s : System) (ev : StatemEvent) : System :=
  let t := c.handleEvent s.phase s.data ev
  let timer := if t.phase = s.phase then s.stateTimer else none
  t.effects.foldl (perform ev)
    { s with phase := t.phase, data := t.data, stateTimer := timer }

def redeliver (s : System) : System :=
  s.postponed.foldl (fun s msg => s.handle c (.timeout msg))
    { s with postponed := [] }

/-- A change of phase: the entry action, then the postponed events. -/
def enter (s : System) : System :=
  let s := redeliver c (s.handle c .enter)
  { s with cutOver := if s.phase = .steady then false else s.cutOver }

def dispatch (s : System) (ev : StatemEvent) : System :=
  if (s.handle c ev).phase = s.phase then s.handle c ev
  else enter c (s.handle c ev)

end System

inductive Action
  | packet (p : Packet)
  | serve (a : Answers)
  | deliver
  | stateTimeout
  | b4Poll
  | drainCap
  | discovered (disc : Discovery) (err : Option String) (retryIn : ℤ)
  | discoverFailed (err : String)
  | crash

def Reply.isDone : Reply → Bool
  | .doneRep none => true
  | _ => false

def worldAfter (w : Monitored) (event : Option Event) : Monitored := event.elim w w.step

namespace System
variable (c : Controller)

def serve (s : System) (a : Answers) : System :=
  match s.queue with
  | [] => s
  | item :: rest =>
    let h := s.softwire.handle s.world.maps a item.req
    { s with
      queue := rest
      softwire := h.softwire
      world := worldAfter s.world h.event
      mailbox := if item.owner = s.incarnation then s.mailbox ++ [⟨item.tag, some h.reply, none⟩]
        else s.mailbox
      cutOver := s.cutOver || (item.req == .cutoverReq && h.reply.isDone) }

/-- An action that is not enabled does nothing. -/
def step (s : System) : Action → System
  | .packet p => { s with world := s.world.step (.packet p) }
  | .serve a => s.serve a
  | .deliver =>
    match s.mailbox with
    | [] => s
    | r :: rest => dispatch c { s with mailbox := rest } (.response r)
  | .stateTimeout =>
    match s.stateTimer with
    | none => s
    | some msg =>
      dispatch c { s with stateTimer := none } (.stateTimeout msg)
  | .b4Poll =>
    if s.b4PollTimer then
      dispatch c { s with b4PollTimer := false } (.timeout .b4Poll)
    else s
  | .drainCap =>
    match s.drainCapTimer with
    | none => s
    | some n =>
      dispatch c { s with drainCapTimer := none }
        (.timeout (.drainCap n))
  | .discovered disc err retryIn =>
    match s.async with
    | none => s
    | some _ =>
      dispatch c { s with async := none }
        (.asyncResult (some (.discoverRep disc err retryIn)) none)
  | .discoverFailed err =>
    match s.async with
    | none => s
    | some _ =>
      dispatch c { s with async := none } (.asyncResult none (some err))
  | .crash => s.spawn (s.incarnation + 1)

def run (s : System) (actions : List Action) : System := actions.foldl (step c) s

/-- The system as it is brought up: the datapath configured with the endpoints `cfg` names, the
server on them, and the first controller started. -/
inductive Boots (cfg : B4ConfigArgs) : System → Prop
  | mk {m₀ m : Maps} {faults : Faults} (hasRouter : Bool) (hun : Unconfigured m₀)
      (hempty : m₀.flowAffinity = BoundedMap.empty)
      (hexec : (Call.setB4Config cfg).exec faults m₀ = (.ok (), m)) :
      Boots cfg (spawn
        { softwire := { active := ⟨cfg.b4Addr, cfg.aftrAddr⟩, hasRouter }, world := ⟨m, {}⟩ } 0)

end System

end Minuteman.Control
