import Minuteman.Dhcpv6.Client

/-!
# Exchanges over one socket

The client process with its callers, its socket and the clock. Calls queue and
are handled in order; an abandonment, a timeout, a datagram or a failed send may
come in between. What the client sent, replied and was told is logged, newest
first.
-/
namespace Minuteman.Dhcpv6
open Library Client

inductive Entry where
  | sent (at_ : ℤ) (r : Running) (b : Bytes)
  | replied (at_ : ℤ) (r : Running) (outcome : Except ExchangeError Message)
  | abandoned (at_ : ℤ) (id : ℕ)

def Entry.id : Entry → ℕ
  | .sent _ r _ => r.call.id
  | .replied _ r _ => r.call.id
  | .abandoned _ id => id

/-- `issued` are the exchanges asked for so far, each call numbered by its place. `queued` holds the
datagrams delivered and not handled; the socket delivers one more only while it is `armed`. -/
structure Service where
  now : ℤ
  process : Process Phase (Option Running) Call Timer
  issued : List Exchange
  armed : Bool
  queued : List Bytes
  log : List Entry

namespace Service

def initial (now : ℤ) : Service := ⟨now, ⟨.idle, none, none, [], []⟩, [], false, [], []⟩

inductive Event where
  | elapse (t : ℤ)
  | call (x : Exchange)
  | next (draws : Draws)
  | abandon (id : ℕ)
  | timeout (draws : Draws)
  | deliver (b : Bytes)
  | receive
  | sendError (armed : Bool)

/-- `SendActiveEffect` arms the socket also where its send fails. The library leaves that open. -/
def Event.Arms : Event → Prop
  | .sendError armed => armed = true
  | _ => True

def entry (now : ℤ) : Out → Option Entry
  | .sendActive r b => some (.sent now r b)
  | .reply r outcome => some (.replied now r outcome)
  | _ => none

def arms : Out → Bool
  | .sendActive _ _ => true
  | .setActive => true
  | _ => false

/-- The handler returned `r`; `e` is the call it handled, if it was one. -/
def conclude (s : Service) (e : Option Call) (r : Result) : Service :=
  { s with
    process := s.process.conclude s.now e r
    armed := s.armed || (Process.outs r.2.2).any arms
    log := ((Process.outs r.2.2).filterMap (entry s.now)).reverse ++ s.log }

def noDraws : Draws := ⟨default, 0, 0, 0⟩

def step (clientID : Duid) (s : Service) : Event → Service
  | .elapse t => { s with now := max s.now t }
  | .call x =>
    { s with process := s.process.arrive ⟨s.issued.length, x⟩, issued := s.issued ++ [x] }
  | .next draws =>
    match s.process.mailbox with
    | [] => s
    | c :: mailbox =>
      { s with process := { s.process with mailbox := mailbox } }.conclude (some c)
        (handleEvent clientID draws s.process.phase s.process.data (.event (.call c)))
  | .abandon id =>
    if id < s.issued.length then
      { s with
        process := s.process.discard fun c => c.id = id
        log := .abandoned s.now id :: s.log }.conclude none
        (handleEvent clientID noDraws s.process.phase s.process.data (.event (.abandoned id)))
    else s
  | .timeout draws =>
    match s.process.timeout with
    | none => s
    | some (due, msg) =>
      if due ≤ s.now then
        { s with process := { s.process with timeout := none } }.conclude none
          (handleEvent clientID draws s.process.phase s.process.data (.timeout msg))
      else s
  | .deliver b => if s.armed then { s with armed := false, queued := s.queued ++ [b] } else s
  | .receive =>
    match s.queued with
    | [] => s
    | b :: queued =>
      { s with queued := queued }.conclude none
        (handleEvent clientID noDraws s.process.phase s.process.data (.event (.data b)))
  | .sendError armed =>
    { s with armed := s.armed && armed }.conclude none
      (handleEvent clientID noDraws s.process.phase s.process.data (.event .sendError))

/-- What one step adds to the log, if anything. -/
inductive Adds (clientID : Duid) (s : Service) : Event → List Entry → Prop where
  | nothing (ev : Event) : Adds clientID s ev []
  | sent (ev : Event) (r : Running) (b : Bytes) : Adds clientID s ev [.sent s.now r b]
  | exhausted (ev : Event) (r : Running) : Adds clientID s ev [.replied s.now r (.error .exhausted)]
  | answered (r : Running) (b : Bytes) (queued : List Bytes) (m : Message) :
      s.queued = b :: queued → parseMessage b = .ok m → s.process.data = some r →
      r.call.x.answers m r.xid clientID = true → Adds clientID s .receive [.replied s.now r (.ok m)]
  | abandoned (id : ℕ) : Adds clientID s (.abandon id) [.abandoned s.now id]

theorem step_log (clientID : Duid) (s : Service) (ev : Event) :
    ∃ added, (s.step clientID ev).log = added ++ s.log ∧ Adds clientID s ev added := by
  cases ev with
  | elapse t => exact ⟨[], rfl, .nothing _⟩
  | call x => exact ⟨[], rfl, .nothing _⟩
  | next draws =>
    rw [step]
    cases s.process.mailbox with
    | nil => exact ⟨[], rfl, .nothing _⟩
    | cons c mailbox =>
      dsimp only [handleEvent, start]
      split_ifs
      · exact ⟨[], rfl, .nothing _⟩
      · exact ⟨[], rfl, .nothing _⟩
      · exact ⟨_, rfl, .sent _ _ _⟩
  | abandon id =>
    rw [step]
    split_ifs
    · refine ⟨[.abandoned s.now id], ?_, .abandoned id⟩
      cases s.process.data with
      | none => rfl
      | some r =>
        dsimp only [handleEvent]
        split_ifs <;> rfl
    · exact ⟨[], rfl, .nothing _⟩
  | timeout draws =>
    rw [step]
    cases s.process.timeout with
    | none => exact ⟨[], rfl, .nothing _⟩
    | some timer =>
      obtain ⟨due, msg⟩ := timer
      dsimp only
      split_ifs
      · cases s.process.data with
        | none => exact ⟨[], rfl, .nothing _⟩
        | some r =>
          cases msg with
          | transmit => exact ⟨_, rfl, .sent _ _ _⟩
          | retransmit =>
            dsimp only [handleEvent, unanswered]
            split_ifs
            · exact ⟨_, rfl, .exhausted _ r⟩
            · exact ⟨_, rfl, .sent _ _ _⟩
      · exact ⟨[], rfl, .nothing _⟩
  | deliver b =>
    rw [step]
    split_ifs <;> exact ⟨[], rfl, .nothing _⟩
  | receive =>
    rw [step]
    cases hqueued : s.queued with
    | nil => exact ⟨[], rfl, .nothing _⟩
    | cons b queued =>
      cases hphase : s.process.phase with
      | waiting =>
        cases hdata : s.process.data with
        | none => exact ⟨[], rfl, .nothing _⟩
        | some r =>
          dsimp only [handleEvent, received]
          split
          · next m hparse =>
            split_ifs with hanswers
            · exact ⟨_, rfl, .answered r b queued m hqueued hparse hdata hanswers⟩
            · exact ⟨[], rfl, .nothing _⟩
          · exact ⟨[], rfl, .nothing _⟩
      | _ => exact ⟨[], rfl, .nothing _⟩
  | sendError armed => exact ⟨[], rfl, .nothing _⟩

theorem step_now_eq {clientID : Duid} {s : Service} {ev : Event} (h : ∀ t, ev ≠ .elapse t) :
    (s.step clientID ev).now = s.now := by
  cases ev <;> rw [step]
  case elapse t => exact absurd rfl (h t)
  all_goals try split
  all_goals try split
  all_goals rfl

theorem step_now (clientID : Duid) (s : Service) (ev : Event) :
    s.now ≤ (s.step clientID ev).now := by
  by_cases helapse : ∃ t, ev = .elapse t
  · obtain ⟨t, rfl⟩ := helapse
    exact le_max_left _ _
  · exact (step_now_eq fun t ht => helapse ⟨t, ht⟩).ge

theorem step_issued {clientID : Duid} {s : Service} {ev : Event} (h : ∀ x, ev ≠ .call x) :
    (s.step clientID ev).issued = s.issued := by
  cases ev <;> rw [step]
  case call x => exact absurd rfl (h x)
  all_goals try split
  all_goals try split
  all_goals rfl

/-- A call keeps the exchange it was made for. -/
theorem issued_step {clientID : Duid} {s : Service} {id : ℕ} {x : Exchange}
    (h : s.issued[id]? = some x) (ev : Event) : (s.step clientID ev).issued[id]? = some x := by
  by_cases hcall : ∃ y, ev = .call y
  · obtain ⟨y, rfl⟩ := hcall
    have hlt := (List.getElem?_eq_some_iff.mp h).1
    exact (List.getElem?_append_left hlt).trans h
  · rw [step_issued fun y hy => hcall ⟨y, hy⟩]
    exact h

end Service
end Minuteman.Dhcpv6
