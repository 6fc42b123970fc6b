import Minuteman.PrefixDelegation.Lease
import Minuteman.Dhcpv6.Exchanges
import Minuteman.Library.Interference

/-!
# The renewal ladder

`internal/pdlease`: the process that keeps a lease, with the exchange it runs
through the DHCPv6 client, which others use too. A rung ends when its exchange
does. As long as no Reply to a Renew or a Rebind is unusable, a rung is left for
the next only at its time.
-/
namespace Minuteman.PrefixDelegation
open Library Dhcpv6 Client

inductive Rung where
  | bound
  | renewing
  | rebinding
  | soliciting
  deriving DecidableEq

inductive LeaserTimer where
  | renewNow

inductive LeaserOut where
  | exchange (e : Exchanging)
  | applied (lease : Lease)
  | stop (e : LeaseError)

namespace Leaser

abbrev Result := Rung × Lease × List (PhaseEffect LeaserTimer LeaserOut)

def bound (lease : Lease) : Result :=
  (.bound, lease, [.out (.applied lease), .timeoutAt lease.renewAt .renewNow])

/-- An event is the outcome of the exchange running. -/
def handleEvent (ph : Rung) (lease : Lease) :
    Occurrence (Except LeaseError Lease) LeaserTimer → Result
  | .timeout .renewNow =>
    if ph = .bound then (.renewing, lease, [.out (.exchange (.renew lease))]) else (ph, lease, [])
  | .event (.ok granted) => bound granted
  | .event (.error e) =>
    match ph with
    | .renewing => (.rebinding, lease, [.out (.exchange (.rebind lease))])
    | .rebinding => (.soliciting, lease, [.out (.exchange .solicit)])
    | .soliciting => (ph, lease, [.out (.stop e)])
    | .bound => (ph, lease, [])

end Leaser

/-- How a rung ended: what its last exchange was and how that came out. -/
structure Ending where
  exchanging : Exchanging
  outcome : Except ExchangeError Message

/-- The lease process and the client. `task` is the exchange running and the call it awaits;
`leases` gives, for each call the process made, the lease it held then. -/
structure World where
  service : Service
  leaser : Process Rung Lease (Except LeaseError Lease) LeaserTimer
  task : Option (Exchanging × ℕ)
  leases : ℕ → Option Lease
  endings : List Ending
  applied : List Lease
  stopped : Bool

namespace World

def issue (clientID : Duid) (w : World) (e : Exchanging) : World :=
  { w with
    service := w.service.step clientID (.call e.exchange)
    task := some (e, w.service.issued.length)
    leases := Function.update w.leases w.service.issued.length (some w.leaser.data) }

/-- The exchange awaited came out as `outcome`. -/
def advance (clientID : Duid) (w : World) (e : Exchanging)
    (outcome : Except ExchangeError Message) : World :=
  match e.next ⟨w.service.now, outcome⟩ with
  | .exchange e' => w.issue clientID e'
  | .done r =>
    { w with
      leaser := w.leaser.arrive r
      task := none
      endings := ⟨e, outcome⟩ :: w.endings }

/-- The call awaited returns once the client replied. -/
def settle (clientID : Duid) (w : World) : World :=
  match w.task with
  | none => w
  | some (e, id) =>
    match repliesTo id w.service.log with
    | [] => w
    | outcome :: _ => w.advance clientID e outcome

def perform (clientID : Duid) (w : World) : LeaserOut → World
  | .exchange e => w.issue clientID e
  | .applied lease => { w with applied := lease :: w.applied }
  | .stop _ => { w with stopped := true }

/-- The lease process handled something. -/
def conclude (clientID : Duid) (w : World) (r : Leaser.Result) : World :=
  (Process.outs r.2.2).foldl (perform clientID)
    { w with leaser := w.leaser.conclude w.service.now none r }

inductive Event where
  | service (ev : Service.Event)
  | deadline
  | renewNow
  | result
  | clientFails

/-- Whether the client may see this now: a call is abandoned only once it is no longer awaited. -/
def admits (w : World) : Service.Event → Bool
  | .abandon id => w.task.all fun t => t.2 ≠ id
  | _ => true

def step (clientID : Duid) (w : World) : Event → World
  | .service ev =>
    if w.admits ev then
      settle clientID { w with service := w.service.step clientID ev }
    else w
  | .deadline =>
    match w.task with
    | some (e, _) =>
      match e.deadline with
      | some due =>
        if due ≤ w.service.now then w.advance clientID e (.error .deadlineExceeded) else w
      | none => w
    | none => w
  | .renewNow =>
    match w.leaser.timeout with
    | some (due, msg) =>
      if due ≤ w.service.now then
        { w with leaser := { w.leaser with timeout := none } }.conclude clientID
          (Leaser.handleEvent w.leaser.phase w.leaser.data (.timeout msg))
      else w
    | none => w
  | .result =>
    match w.leaser.mailbox with
    | [] => w
    | r :: mailbox =>
      { w with leaser := { w.leaser with mailbox := mailbox } }.conclude clientID
        (Leaser.handleEvent w.leaser.phase w.leaser.data (.event r))
  | .clientFails =>
    let w' := { w with service := { w.service with process := ⟨.idle, none, none, [], []⟩ } }
    match w.task with
    | some (e, _) => w'.advance clientID e (.error .clientFailed)
    | none => w'

/-- The process starts with a lease, the client having run exchanges before. -/
def initial (clientID : Duid) (now : ℤ) (prior : List Service.Event) (lease : Lease) : World where
  service := prior.foldl (Service.step clientID) (Service.initial now)
  leaser := ⟨.bound, lease, some (lease.renewAt, .renewNow), [], []⟩
  task := none
  leases := fun _ => none
  endings := []
  applied := []
  stopped := false

end World

/-- The exchanges that extend a lease, and end their rung however they come out. -/
def Exchanging.Extends : Exchanging → Prop
  | .renew _ => True
  | .rebind _ => True
  | .solicit => False
  | .request _ _ => False

/-- No unusable answer to a Renew or a Rebind, and no failure of the client under one. -/
def Steady (clientID : Duid) (w : World) : World.Event → Prop
  | .service .receive => ∀ b queued m r e, w.service.queued = b :: queued →
      parseMessage b = .ok m → w.service.process.data = some r →
      r.call.x.answers m r.xid clientID = true → w.task = some (e, r.call.id) → e.Extends →
      ∃ u, usableIAPD m = .ok u
  | .clientFails => ∀ e id, w.task = some (e, id) → ¬ e.Extends
  | _ => True

/-- A transmission at `at_` for an exchange that a process holding `lease` asked for is not early. -/
def Timely (lease : Lease) (x : Exchange) (at_ : ℤ) : Prop :=
  (x.type = messageTypeRebind → lease.rebindAt ≤ at_) ∧
    (x.type = messageTypeSolicit → lease.expiresAt ≤ at_)

/-- The ladder is climbed on time, and no unusable Reply ended a rung. -/
structure OnTime (w : World) : Prop where
  sent : ∀ at_ r b, Entry.sent at_ r b ∈ w.service.log →
    ∀ lease, w.leases r.call.id = some lease → Timely lease r.call.x at_
  discarded : ∀ ending ∈ w.endings, ∀ m, ending.outcome = .ok m → ∃ u, usableIAPD m = .ok u

/-- Where the process is on the ladder, the exchange it runs and the outcome it has yet to take. -/
inductive Standing (lease : Lease) (now : ℤ) :
    Rung → Option (Exchanging × ℕ) → List (Except LeaseError Lease) → Prop where
  | bound : Standing lease now .bound none []
  | renewing (id : ℕ) : Standing lease now .renewing (some (.renew lease, id)) []
  | renewed (r : Except LeaseError Lease) : (∀ e, r = .error e → lease.rebindAt ≤ now) →
      Standing lease now .renewing none [r]
  | rebinding (id : ℕ) : Standing lease now .rebinding (some (.rebind lease, id)) []
  | rebound (r : Except LeaseError Lease) : (∀ e, r = .error e → lease.expiresAt ≤ now) →
      Standing lease now .rebinding none [r]
  | soliciting (e : Exchanging) (id : ℕ) : lease.expiresAt ≤ now → ¬ e.Extends →
      Standing lease now .soliciting (some (e, id)) []
  | solicited (r : Except LeaseError Lease) : lease.expiresAt ≤ now →
      Standing lease now .soliciting none [r]
  | stopped : lease.expiresAt ≤ now → Standing lease now .soliciting none []

theorem Standing.mono {lease : Lease} {now now' : ℤ} {rung : Rung} {task : Option (Exchanging × ℕ)}
    {rs : List (Except LeaseError Lease)} (h : Standing lease now rung task rs) (hle : now ≤ now') :
    Standing lease now' rung task rs := by
  cases h with
  | bound => exact .bound
  | renewing id => exact .renewing id
  | renewed r hr => exact .renewed r fun e he => (hr e he).trans hle
  | rebinding id => exact .rebinding id
  | rebound r hr => exact .rebound r fun e he => (hr e he).trans hle
  | soliciting e id hexpired hacquires => exact .soliciting e id (hexpired.trans hle) hacquires
  | solicited r hexpired => exact .solicited r (hexpired.trans hle)
  | stopped hexpired => exact .stopped (hexpired.trans hle)

/-- What holds whatever the rung: calls were made on time, and so their transmissions are. -/
structure Prompt (clientID : Duid) (w : World) : Prop where
  sound : w.service.Invariant clientID
  calls : ∀ id lease, w.leases id = some lease →
    ∃ x, w.service.issued[id]? = some x ∧ Timely lease x w.service.now
  onTime : OnTime w

/-- The call awaited is for the exchange the process is in, and has not been replied to. -/
structure Awaits (w : World) : Prop where
  made : ∀ e id, w.task = some (e, id) → w.service.issued[id]? = some e.exchange
  open_ : ∀ e id, w.task = some (e, id) → repliesTo id w.service.log = []

theorem Timely.mono {lease : Lease} {x : Exchange} {t t' : ℤ} (h : Timely lease x t) (hle : t ≤ t') :
    Timely lease x t' :=
  ⟨fun hx => (h.1 hx).trans hle, fun hx => (h.2 hx).trans hle⟩

namespace Prompt
variable {clientID : Duid} {w : World}

theorem service (h : Prompt clientID w) (ev : Service.Event) :
    Prompt clientID { w with service := w.service.step clientID ev } := by
  have hsound := h.sound.step ev
  have hnow := Service.step_now clientID w.service ev
  refine ⟨hsound, ?_, ⟨?_, h.onTime.discarded⟩⟩
  · intro id lease hlease
    obtain ⟨x, hx, htimely⟩ := h.calls id lease hlease
    exact ⟨x, Service.issued_step hx ev, htimely.mono hnow⟩
  · intro at_ r b hr lease hlease
    obtain ⟨x, hx, htimely⟩ := h.calls r.call.id lease hlease
    have hmade : (w.service.step clientID ev).issued[r.call.id]? = some r.call.x :=
      hsound.logMade _ hr
    obtain ⟨added, hlog, hadds⟩ := Service.step_log clientID w.service ev
    dsimp only at hr
    rw [hlog] at hr
    rcases List.mem_append.mp hr with hnew | hold
    · cases Option.some.inj (hmade.symm.trans (Service.issued_step hx ev))
      cases hadds with
      | sent ev r b =>
        cases List.mem_singleton.mp hnew
        exact htimely
      | nothing ev => cases hnew
      | exhausted ev r => cases List.mem_singleton.mp hnew
      | answered r b queued m hq hp hd ha => cases List.mem_singleton.mp hnew
      | abandoned id => cases List.mem_singleton.mp hnew
    · exact h.onTime.sent at_ r b hold lease hlease

/-- A call for an exchange whose time has come. -/
theorem issue (h : Prompt clientID w) {e : Exchanging}
    (htimely : Timely w.leaser.data e.exchange w.service.now) :
    Prompt clientID (w.issue clientID e) := by
  have hs := h.service (.call e.exchange)
  have hnew : (w.service.step clientID (.call e.exchange)).issued[w.service.issued.length]? =
      some e.exchange := List.getElem?_concat_length
  refine ⟨hs.sound, ?_, ⟨?_, h.onTime.discarded⟩⟩
  · intro id lease hlease
    by_cases hid : id = w.service.issued.length
    · subst hid
      cases (Function.update_self .. : (w.issue clientID e).leases _ = _).symm.trans hlease
      exact ⟨e.exchange, hnew, htimely⟩
    · exact hs.calls id lease ((Function.update_of_ne hid _ _).symm.trans hlease)
  · intro at_ r b hr lease hlease
    have hid : r.call.id ≠ w.service.issued.length := ((h.sound.logMade _ hr).lt).ne
    exact hs.onTime.sent at_ r b hr lease ((Function.update_of_ne hid _ _).symm.trans hlease)

end Prompt

theorem World.issue_awaits {clientID : Duid} {w : World} (h : Prompt clientID w) (e : Exchanging) :
    Awaits (w.issue clientID e) := by
  constructor
  · intro e' id htask
    cases htask
    exact List.getElem?_concat_length
  · intro e' id htask
    cases htask
    apply Lawful.repliesTo_eq_nil
    apply Untouched.isOpen
    intro entry hentry
    exact (h.sound.logMade entry hentry).lt.ne

/-- The invariant of the lease process and the client. -/
structure Climbing (clientID : Duid) (w : World) : Prop where
  prompt : Prompt clientID w
  awaits : Awaits w
  unpostponed : w.leaser.postponed = []
  standing : Standing w.leaser.data w.service.now w.leaser.phase w.task w.leaser.mailbox

section Leaser
variable {p : Process Rung Lease (Except LeaseError Lease) LeaserTimer} {now : ℤ}

/-- The handler took up the exchange of another rung. -/
theorem Leaser.conclude_exchange {rung : Rung} {e : Exchanging} (hpost : p.postponed = [])
    (hrung : rung ≠ p.phase) :
    p.conclude now none (rung, p.data, [.out (LeaserOut.exchange e)]) =
      ⟨rung, p.data, none, [], p.mailbox⟩ := by
  simp [Process.conclude, Process.enter, Process.perform, hrung, hpost]

theorem Leaser.conclude_bound {granted : Lease} (hpost : p.postponed = [])
    (hphase : p.phase ≠ .bound) (hmailbox : p.mailbox = []) :
    p.conclude now none (Leaser.bound granted) =
      ⟨.bound, granted, some (granted.renewAt, .renewNow), [], []⟩ := by
  simp [Leaser.bound, Process.conclude, Process.enter, Process.perform, hphase.symm, hpost,
    hmailbox]

end Leaser

namespace Climbing
variable {clientID : Duid} {w : World}

theorem issue {e : Exchanging} (h : Prompt clientID w) (hpost : w.leaser.postponed = [])
    (htimely : Timely w.leaser.data e.exchange w.service.now)
    (hstanding : Standing w.leaser.data w.service.now w.leaser.phase
      (some (e, w.service.issued.length)) w.leaser.mailbox) :
    Climbing clientID (w.issue clientID e) :=
  ⟨h.issue htimely, World.issue_awaits h e, hpost, hstanding⟩

def Fair (now : ℤ) (e : Exchanging) (outcome : Except ExchangeError Message) : Prop :=
  e.Extends → (∃ m u, outcome = .ok m ∧ usableIAPD m = .ok u) ∨
    ∃ err due, outcome = .error err ∧ e.deadline = some due ∧ due ≤ now

theorem finish {e : Exchanging} {outcome : Except ExchangeError Message}
    {r : Except LeaseError Lease} (h : Prompt clientID w) (hpost : w.leaser.postponed = [])
    (husable : ∀ m, outcome = .ok m → ∃ u, usableIAPD m = .ok u)
    (hstanding : Standing w.leaser.data w.service.now w.leaser.phase none
      (w.leaser.mailbox ++ [r])) :
    Climbing clientID { w with
      leaser := w.leaser.arrive r
      task := none
      endings := ⟨e, outcome⟩ :: w.endings } := by
  refine ⟨⟨h.sound, h.calls, h.onTime.sent, ?_⟩, ⟨by simp, by simp⟩, hpost, hstanding⟩
  exact List.forall_mem_cons.mpr ⟨husable, h.onTime.discarded⟩

theorem extended {e : Exchanging} {outcome : Except ExchangeError Message}
    (hextends : e.Extends) (hfair : Fair w.service.now e outcome) :
    ∃ r, e.next ⟨w.service.now, outcome⟩ = .done r ∧
      (∀ m, outcome = .ok m → ∃ u, usableIAPD m = .ok u) ∧
      ∀ err, r = .error err → ∀ due, e.deadline = some due → due ≤ w.service.now := by
  rcases hfair hextends with ⟨m, u, rfl, husable⟩ | ⟨err, due, rfl, hdeadline, hdue⟩
  · have hlease : ∀ sid, ∃ lease, leaseFromReply w.service.now sid m = .ok lease := by
      intro sid
      rw [leaseFromReply, husable]
      exact ⟨_, rfl⟩
    cases e with
    | renew lease =>
      obtain ⟨granted, hgranted⟩ := hlease (some lease.serverID)
      refine ⟨.ok granted, ?_, ?_, ?_⟩
      · simp [Exchanging.next, Exchanging.answered, hgranted, Except.mapError]
      · rintro m' ⟨⟩
        exact ⟨u, husable⟩
      · rintro err ⟨⟩
    | rebind lease =>
      obtain ⟨granted, hgranted⟩ := hlease none
      refine ⟨.ok granted, ?_, ?_, ?_⟩
      · simp [Exchanging.next, Exchanging.answered, hgranted, Except.mapError]
      · rintro m' ⟨⟩
        exact ⟨u, husable⟩
      · rintro err ⟨⟩
    | solicit => exact hextends.elim
    | request sid offered => exact hextends.elim
  · refine ⟨.error (.exchange err), ?_, ?_, ?_⟩
    · cases e with
      | request sid offered => exact hextends.elim
      | _ => rfl
    · rintro m' ⟨⟩
    · intro err' _ due' hdue'
      cases hdeadline.symm.trans hdue'
      exact hdue

theorem advance {e : Exchanging} {id : ℕ} {outcome : Except ExchangeError Message}
    (h : Prompt clientID w) (hpost : w.leaser.postponed = [])
    (hstanding : Standing w.leaser.data w.service.now w.leaser.phase (some (e, id))
      w.leaser.mailbox) (hfair : Fair w.service.now e outcome) :
    Climbing clientID (w.advance clientID e outcome) := by
  rw [World.advance]
  generalize hphase : w.leaser.phase = phase at hstanding
  generalize hmailbox : w.leaser.mailbox = mailbox at hstanding
  cases hstanding with
  | renewing id =>
    obtain ⟨r, hnext, husable, hdue⟩ := extended (e := .renew w.leaser.data) trivial hfair
    rw [hnext]
    apply finish h hpost husable
    rw [hphase, hmailbox]
    exact .renewed r fun err herr => hdue err herr _ rfl
  | rebinding id =>
    obtain ⟨r, hnext, husable, hdue⟩ := extended (e := .rebind w.leaser.data) trivial hfair
    rw [hnext]
    apply finish h hpost husable
    rw [hphase, hmailbox]
    exact .rebound r fun err herr => hdue err herr _ rfl
  | soliciting e id hexpired hacquires =>
    have hagain : Climbing clientID (w.issue clientID .solicit) := by
      apply issue h hpost ⟨by simp [Exchanging.exchange, solicit, messageTypeSolicit,
        messageTypeRebind], fun _ => hexpired⟩
      rw [hphase, hmailbox]
      exact .soliciting _ _ hexpired (by simp [Exchanging.Extends])
    have hsolicited : ∀ r, Standing w.leaser.data w.service.now w.leaser.phase none
        (w.leaser.mailbox ++ [r]) := by
      intro r
      rw [hphase, hmailbox]
      exact .solicited r hexpired
    cases e with
    | renew lease => exact absurd trivial hacquires
    | rebind lease => exact absurd trivial hacquires
    | solicit =>
      cases outcome with
      | error err => exact finish h hpost (by rintro m ⟨⟩) (hsolicited _)
      | ok m =>
        dsimp only [Exchanging.next, Exchanging.answered]
        cases husable : usableIAPD m with
        | error u => exact hagain
        | ok offer =>
          obtain ⟨offered, sid⟩ := offer
          apply issue h hpost
          · constructor <;> intro htype <;> cases htype
          · rw [hphase, hmailbox]
            exact .soliciting _ _ hexpired fun hextends => hextends
    | request sid offered =>
      cases outcome with
      | error err => exact hagain
      | ok m =>
        dsimp only [Exchanging.next, Exchanging.answered]
        cases husable : usableIAPD m with
        | error u => exact hagain
        | ok grant =>
          refine finish h hpost ?_ (hsolicited _)
          rintro m' ⟨⟩
          exact ⟨grant, husable⟩

theorem repliesTo_singleton {id : ℕ} {at_ : ℤ} {r : Running} {o outcome : Except ExchangeError Message}
    {rest : List (Except ExchangeError Message)}
    (h : repliesTo id [.replied at_ r o] = outcome :: rest) : r.call.id = id ∧ o = outcome := by
  by_cases hid : r.call.id = id
  · simp only [repliesTo, List.filterMap_cons, hid, if_true, List.filterMap_nil, List.cons.injEq] at h
    exact ⟨hid, h.1⟩
  · simp [repliesTo, hid] at h

/-- The reply awaited comes of this step: it is an answer received in it, or not to an exchange
that extends the lease. -/
theorem reply_fair (h : Climbing clientID w) {ev : Service.Event} {e : Exchanging} {id : ℕ}
    (hsteady : Steady clientID w (.service ev)) (htask : w.task = some (e, id))
    {outcome : Except ExchangeError Message} {rest : List (Except ExchangeError Message)}
    (hreply : repliesTo id (w.service.step clientID ev).log = outcome :: rest) (now : ℤ) :
    Fair now e outcome := by
  intro hextends
  left
  obtain ⟨added, hlog, hadds⟩ := Service.step_log clientID w.service ev
  have hsound := h.prompt.sound.step ev
  have hadded : repliesTo id added = outcome :: rest := by
    rw [hlog, repliesTo, List.filterMap_append] at hreply
    rw [← hreply]
    exact (List.append_nil _).symm.trans (congrArg _ (h.awaits.open_ e id htask).symm)
  cases hadds with
  | nothing ev => cases hadded
  | sent ev r b => cases hadded
  | abandoned id' => cases hadded
  | exhausted ev r =>
    obtain ⟨rfl, -⟩ := repliesTo_singleton hadded
    have hr : Entry.replied w.service.now r (.error .exhausted) ∈
        (w.service.step clientID ev).log := by simp [hlog]
    obtain ⟨hmade, -, hmrc, -⟩ := hsound.replied hr
    rw [Option.some.inj (hmade.symm.trans (Service.issued_step (h.awaits.made e _ htask) ev))]
      at hmrc
    cases e with
    | renew lease => exact absurd rfl hmrc
    | rebind lease => exact absurd rfl hmrc
    | solicit => exact hextends.elim
    | request sid offered => exact hextends.elim
  | answered r b queued m hqueued hparse hdata hanswers =>
    obtain ⟨rfl, rfl⟩ := repliesTo_singleton hadded
    obtain ⟨u, hu⟩ := hsteady b queued m r e hqueued hparse hdata hanswers htask hextends
    exact ⟨m, u, rfl, hu⟩

theorem service (h : Climbing clientID w) {ev : Service.Event}
    (hsteady : Steady clientID w (.service ev)) :
    Climbing clientID (w.step clientID (.service ev)) := by
  rw [World.step]
  split_ifs
  · have hprompt := h.prompt.service ev
    have hstanding := h.standing.mono (Service.step_now clientID w.service ev)
    rw [World.settle]
    split
    · next htask =>
      refine ⟨hprompt, ⟨?_, ?_⟩, h.unpostponed, hstanding⟩
      · intro e id hsome
        cases htask.symm.trans hsome
      · intro e id hsome
        cases htask.symm.trans hsome
    · next e id htask =>
      have htask' : w.task = some (e, id) := htask
      split
      · next hnone =>
        refine ⟨hprompt, ⟨?_, ?_⟩, h.unpostponed, hstanding⟩
        · intro e' id' hsome
          exact Service.issued_step (h.awaits.made e' id' hsome) ev
        · intro e' id' hsome
          cases htask.symm.trans hsome
          exact hnone
      · next outcome rest hreply =>
        have hstanding' : Standing w.leaser.data (w.service.step clientID ev).now w.leaser.phase
            (some (e, id)) w.leaser.mailbox := htask' ▸ hstanding
        exact advance hprompt h.unpostponed hstanding' (h.reply_fair hsteady htask' hreply _)
  · exact h

theorem deadline (h : Climbing clientID w) : Climbing clientID (w.step clientID .deadline) := by
  rw [World.step]
  split
  · next e id htask =>
    split
    · next due hdeadline =>
      split_ifs with hdue
      · have hstanding : Standing w.leaser.data w.service.now w.leaser.phase (some (e, id))
            w.leaser.mailbox := htask ▸ h.standing
        apply advance h.prompt h.unpostponed hstanding
        intro _
        exact .inr ⟨.deadlineExceeded, due, rfl, hdeadline, hdue⟩
      · exact h
    · exact h
  · exact h

/-- The lease process took up a new exchange. -/
theorem conclude_exchange {rung : Rung} {e : Exchanging} (h : Prompt clientID w)
    (hpost : w.leaser.postponed = []) (hrung : rung ≠ w.leaser.phase)
    (htimely : Timely w.leaser.data e.exchange w.service.now)
    (hstanding : ∀ id, Standing w.leaser.data w.service.now rung (some (e, id)) w.leaser.mailbox) :
    Climbing clientID (w.conclude clientID (rung, w.leaser.data, [.out (.exchange e)])) := by
  rw [World.conclude]
  simp only [Process.outs, List.filterMap_cons, List.filterMap_nil, List.foldl_cons,
    List.foldl_nil, World.perform]
  refine issue (w := { w with leaser := _ }) ⟨h.sound, h.calls, h.onTime.sent,
    h.onTime.discarded⟩ ?_ ?_ ?_ <;> rw [Leaser.conclude_exchange hpost hrung]
  · exact htimely
  · exact hstanding _

theorem conclude_bound {granted : Lease} (h : Prompt clientID w) (hpost : w.leaser.postponed = [])
    (htask : w.task = none) (hmailbox : w.leaser.mailbox = []) (hphase : w.leaser.phase ≠ .bound) :
    Climbing clientID (w.conclude clientID (Leaser.bound granted)) := by
  rw [World.conclude, Leaser.conclude_bound hpost hphase hmailbox]
  refine ⟨⟨h.sound, h.calls, h.onTime.sent, h.onTime.discarded⟩, ⟨?_, ?_⟩, rfl, ?_⟩
  · intro e id hsome
    cases htask.symm.trans hsome
  · intro e id hsome
    cases htask.symm.trans hsome
  · change Standing granted w.service.now .bound w.task []
    rw [htask]
    exact .bound

theorem renewNow (h : Climbing clientID w) : Climbing clientID (w.step clientID .renewNow) := by
  rw [World.step]
  split
  · next due msg htimeout =>
    split_ifs
    · set w₁ : World := { w with leaser := { w.leaser with timeout := none } } with hw₁
      have hprompt : Prompt clientID w₁ :=
        ⟨h.prompt.sound, h.prompt.calls, h.prompt.onTime.sent,
          h.prompt.onTime.discarded⟩
      cases msg
      rw [Leaser.handleEvent]
      split_ifs with hbound
      · apply conclude_exchange (w := w₁) hprompt h.unpostponed
        · rw [show w₁.leaser.phase = .bound from hbound]
          simp
        · constructor <;> intro htype <;> cases htype
        · intro id
          have hempty : w.leaser.mailbox = [] := by
            have hstanding := h.standing
            rw [hbound] at hstanding
            generalize w.leaser.mailbox = mailbox at hstanding ⊢
            generalize w.task = task at hstanding
            cases hstanding
            rfl
          rw [show w₁.leaser.mailbox = [] from hempty]
          exact .renewing id
      · have hstay : w₁.conclude clientID (w.leaser.phase, w.leaser.data, []) = w₁ := by
          simp [World.conclude, Process.outs, Process.conclude, Process.enter, hw₁]
        rw [hstay]
        exact ⟨hprompt, ⟨h.awaits.made, h.awaits.open_⟩, h.unpostponed, h.standing⟩
    · exact h
  · exact h

theorem result (h : Climbing clientID w) : Climbing clientID (w.step clientID .result) := by
  rw [World.step]
  split
  · exact h
  · next r mailbox hmailbox =>
    set w₁ : World := { w with leaser := { w.leaser with mailbox := mailbox } } with hw₁
    have hprompt : Prompt clientID w₁ :=
      ⟨h.prompt.sound, h.prompt.calls, h.prompt.onTime.sent,
        h.prompt.onTime.discarded⟩
    have hstanding := h.standing
    rw [hmailbox] at hstanding
    cases r with
    | ok granted =>
      generalize hphase : w.leaser.phase = phase at hstanding
      generalize htask : w.task = task at hstanding
      obtain ⟨hne, hidle, hempty⟩ : phase ≠ .bound ∧ task = none ∧ mailbox = [] := by
        cases hstanding <;> simp
      exact conclude_bound (w := w₁) hprompt h.unpostponed (htask.trans hidle) hempty
        (hphase ▸ hne)
    | error err =>
      generalize hphase : w.leaser.phase = phase at hstanding
      generalize htask : w.task = task at hstanding
      cases hstanding with
      | renewed r hdue =>
        apply conclude_exchange (w := w₁) hprompt h.unpostponed
        · rw [show w₁.leaser.phase = .renewing from hphase]
          simp
        · exact ⟨fun _ => hdue err rfl, fun htype => nomatch htype⟩
        · intro id
          exact .rebinding id
      | rebound r hexpired =>
        apply conclude_exchange (w := w₁) hprompt h.unpostponed
        · rw [show w₁.leaser.phase = .rebinding from hphase]
          simp
        · exact ⟨(fun htype => nomatch htype), fun _ => hexpired err rfl⟩
        · intro id
          exact .soliciting .solicit id (hexpired err rfl) fun hextends => hextends
      | solicited r hexpired =>
        have hstop : w₁.conclude clientID (.soliciting, w.leaser.data, [.out (.stop err)]) =
            { w₁ with stopped := true } := by
          simp [World.conclude, Process.outs, Process.conclude, Process.enter, Process.perform,
            World.perform, hw₁, hphase]
        rw [Leaser.handleEvent, hstop]
        refine ⟨⟨hprompt.sound, hprompt.calls, hprompt.onTime.sent,
          hprompt.onTime.discarded⟩, ⟨h.awaits.made, h.awaits.open_⟩, h.unpostponed, ?_⟩
        change Standing w.leaser.data w.service.now w.leaser.phase w.task []
        rw [hphase, htask]
        exact .stopped hexpired

theorem clientFails (h : Climbing clientID w) (hsteady : Steady clientID w .clientFails) :
    Climbing clientID (w.step clientID .clientFails) := by
  have hprompt : Prompt clientID
      { w with service := { w.service with process := ⟨.idle, none, none, [], []⟩ } } :=
    ⟨h.prompt.sound.toIdle.sublist (List.nil_sublist _), h.prompt.calls, h.prompt.onTime.sent,
      h.prompt.onTime.discarded⟩
  rw [World.step]
  dsimp only
  split
  · next e id htask =>
    have hstanding : Standing w.leaser.data w.service.now w.leaser.phase (some (e, id))
        w.leaser.mailbox := htask ▸ h.standing
    exact advance hprompt h.unpostponed hstanding
      fun hextends => absurd hextends (hsteady e id htask)
  · exact ⟨hprompt, ⟨h.awaits.made, h.awaits.open_⟩, h.unpostponed, h.standing⟩

end Climbing

/-- The ladder is climbed on time in every steady run of the lease process. -/
theorem ladder_on_time {clientID : Duid} {now : ℤ} {prior : List Service.Event} {lease : Lease}
    {events : List World.Event}
    (h : Along (World.step clientID) (Steady clientID) (World.initial clientID now prior lease)
      events) :
    OnTime (events.foldl (World.step clientID) (World.initial clientID now prior lease)) := by
  have hinitial : Climbing clientID (World.initial clientID now prior lease) := by
    have hsound := Service.run_invariant clientID now prior
    refine ⟨⟨hsound, ?_, ?_, ?_⟩, ⟨?_, ?_⟩, rfl, .bound⟩ <;> simp [World.initial]
  refine (h.invariant ?_ hinitial).prompt.onTime
  intro w ev hw hsteady
  cases ev with
  | service ev => exact hw.service hsteady
  | deadline => exact hw.deadline
  | renewNow => exact hw.renewNow
  | result => exact hw.result
  | clientFails => exact hw.clientFails hsteady

def unansweredEvents : List World.Event :=
  [.service (.elapse sampleLease.renewAt), .renewNow, .service (.next Service.noDraws),
    .service (.elapse sampleLease.rebindAt), .deadline, .result, .service (.abandon 0),
    .service (.next Service.noDraws)]

theorem ladder_on_time_unanswered :
    Along (World.step [9]) (Steady [9]) (World.initial [9] 0 [] sampleLease) unansweredEvents ∧
      OnTime (unansweredEvents.foldl (World.step [9]) (World.initial [9] 0 [] sampleLease)) := by
  have hsteady : Along (World.step [9]) (Steady [9]) (World.initial [9] 0 [] sampleLease)
      unansweredEvents := by
    refine ⟨?_, ?_, ?_, ?_, ?_, ?_, ?_, ?_, ?_⟩ <;> trivial
  exact ⟨hsteady, ladder_on_time hsteady⟩

/-- The Renew is answered at once, without an IA_PD. -/
def refusedEvents : List World.Event :=
  [.service (.elapse sampleLease.renewAt), .renewNow, .service (.next Service.noDraws),
    .service (.deliver
      (Message.marshalBinary ⟨messageTypeReply, default, [⟨optionServerID, [1]⟩]⟩)),
    .service .receive, .result, .service (.next Service.noDraws)]

/-- A transmission of a Rebind before the T2 of its lease. -/
def World.early (w : World) : Entry → Bool
  | .sent at_ r _ => r.call.x.type = messageTypeRebind &&
      (w.leases r.call.id).any fun lease => at_ < lease.rebindAt
  | _ => false

/-- An unusable Reply to the Renew at T1 ends the rung, and a Rebind is sent at once. -/
theorem refused_renew_rebinds_early :
    ¬ OnTime (refusedEvents.foldl (World.step [9]) (World.initial [9] 0 [] sampleLease)) := by
  intro h
  set w := refusedEvents.foldl (World.step [9]) (World.initial [9] 0 [] sampleLease) with hw
  have hany : w.service.log.any w.early = true := by
    rw [hw]
    decide +kernel
  obtain ⟨entry, hentry, hearly⟩ := List.any_eq_true.mp hany
  cases entry with
  | sent at_ r b =>
    simp only [World.early, Bool.and_eq_true, decide_eq_true_eq, Option.any_eq_true] at hearly
    obtain ⟨htype, lease, hlease, hlt⟩ := hearly
    have hdue := (h.sent at_ r b hentry lease hlease).1 htype
    omega
  | replied at_ r outcome => cases hearly
  | abandoned at_ id => cases hearly

end Minuteman.PrefixDelegation
