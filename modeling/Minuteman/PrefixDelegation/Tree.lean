import Minuteman.PrefixDelegation.Ladder

/-!
# The tree that keeps the lease

`internal/pdlease`: the lease process and the process that applies its leases,
under their supervisor. A lease process that crashed is started again from the
lease of the configuration; one that is shut down releases the lease it holds,
unless it is soliciting another.
-/
namespace Minuteman.PrefixDelegation
open Library Dhcpv6 Client

def releaseTimeout : ℤ := 5 * second

def Lease.release (l : Lease) : Exchange :=
  Dhcpv6.release [⟨optionServerID, l.serverID⟩, l.iaPDOption]

abbrev LeaseProcess := Process Rung Lease (Except LeaseError Lease) LeaserTimer

def Leaser.init (initial : Lease) : LeaseProcess :=
  ⟨.bound, initial, some (initial.renewAt, .renewNow), [], []⟩

def grants (outcomes : List (Except LeaseError Lease)) : List Lease :=
  outcomes.filterMap Except.toOption

/-- The leases that came in, going by the mailbox before and after a step. -/
def arrivals (before after : List (Except LeaseError Lease)) : List Lease :=
  grants (after.drop before.length)

/-- The lease that the process takes up in a step, if it does. -/
def takenUp (mailbox : List (Except LeaseError Lease)) : World.Event → List Lease
  | .result => grants mailbox.head?.toList
  | _ => []

namespace World

/-- The lease process is gone, and with it what it waited for. -/
def down (w : World) : World :=
  { w with leaser := ⟨.bound, w.leaser.data, none, [], []⟩, task := none, stopped := false }

end World

/-- A Release: for which lease, since when, and as which call of the client. -/
structure Release where
  lease : Lease
  since : ℤ
  call : ℕ

/-- The two processes. The leases cast are those of `world.applied`; there were `started` of them
when the lease process last started. The apply process is done with `handled` of them, and the LAN
is on the one it applied last, of number `current`. -/
structure Tree where
  world : World
  running : Bool
  ended : Bool
  started : ℕ
  handled : ℕ
  current : ℕ
  granted : List Lease
  taken : List Lease
  release : Option Release

namespace Tree

inductive Action where
  | world (ev : World.Event)
  | crash
  | restart
  | apply
  | applyCrash
  | shutdown

def down (t : Tree) : Tree := { t with world := t.world.down, running := false }

def terminate (clientID : Duid) (t : Tree) : Tree :=
  if t.world.leaser.phase ≠ .soliciting then
    { t with
      world := { t.world with
        service := t.world.service.step clientID (.call t.world.leaser.data.release) }
      release := some
        ⟨t.world.leaser.data, t.world.service.now, t.world.service.issued.length⟩ }
  else t

section Runs
variable (clientID : Duid) (initial : Lease)

def step (t : Tree) : Action → Tree
  | .world ev =>
    let w := t.world.step clientID ev
    let t' := { t with
      world := w
      granted := t.granted ++ arrivals t.world.leaser.mailbox w.leaser.mailbox
      taken := t.taken ++ takenUp t.world.leaser.mailbox ev }
    if w.stopped then t'.down else t'
  | .crash => if t.running then t.down else t
  | .restart =>
    if t.running || t.ended then t
    else { t with
      world := { t.world with leaser := Leaser.init initial }
      running := true
      started := t.world.applied.length }
  | .apply =>
    if t.handled < t.world.applied.length then
      { t with handled := t.handled + 1, current := t.handled + 1 }
    else t
  | .applyCrash => { t with handled := t.world.applied.length }
  | .shutdown =>
    if t.running then { (t.terminate clientID).down with ended := true } else { t with ended := true }

def start (now : ℤ) (prior : List Service.Event) : Tree where
  world := World.initial clientID now prior initial
  running := true
  ended := false
  started := 0
  handled := 0
  current := 0
  granted := []
  taken := []
  release := none

end Runs

def casts (t : Tree) : List Lease := t.world.applied.reverse

def lan (initial : Lease) (t : Tree) : Lease := (initial :: t.casts).getD t.current initial

/-- A Release is of the LAN's lease, asked for and transmitted only before that expires. -/
def Rightful (initial : Lease) (t : Tree) : Prop :=
  ∀ rel, t.release = some rel → rel.lease = t.lan initial ∧ rel.since < rel.lease.expiresAt ∧
    ∀ at_ r b, .sent at_ r b ∈ t.world.service.log → r.call.id = rel.call →
      at_ < rel.lease.expiresAt

/-- No lease that came in is lost with its process. A Release is of the lease that was cast last,
which is applied and outlives the time a Release has; and it is given up in that time. -/
def Orderly (t : Tree) : Action → Prop
  | .crash => grants t.world.leaser.mailbox = []
  | .shutdown => grants t.world.leaser.mailbox = [] ∧
      (t.running = true → t.world.leaser.phase ≠ .soliciting →
        (t.started < t.world.applied.length ∨ t.started = 0) ∧
          t.current = t.world.applied.length ∧
          t.world.service.now + releaseTimeout < t.world.leaser.data.expiresAt)
  | .world (.service (.elapse now)) => ∀ rel, t.release = some rel →
      Open rel.call t.world.service.log → now ≤ rel.since + releaseTimeout
  | _ => True

end Tree

def Rung.Runs (lease : Lease) : Rung → Exchanging → Prop
  | .bound, _ => False
  | .renewing, e => e = .renew lease
  | .rebinding, e => e = .rebind lease
  | .soliciting, e => ¬ e.Extends

/-- The process waits for one thing: in `bound` its timer, otherwise the exchange of its rung, or
for itself to take up how that came out. -/
inductive Waits (p : LeaseProcess) : Option (Exchanging × ℕ) → Prop where
  | timer : p.phase = .bound → p.timeout = some (p.data.renewAt, .renewNow) → p.mailbox = [] →
      Waits p none
  | exchange (e : Exchanging) (id : ℕ) : p.phase.Runs p.data e → p.timeout = none →
      p.mailbox = [] → Waits p (some (e, id))
  | outcome (r : Except LeaseError Lease) : p.phase ≠ .bound → p.timeout = none →
      p.mailbox = [r] → Waits p none

/-- What the steps of the world change about the lease process. -/
structure Keeping where
  leaser : LeaseProcess
  task : Option (Exchanging × ℕ)
  applied : List Lease
  stopped : Bool

def World.keeping (w : World) : Keeping := ⟨w.leaser, w.task, w.applied, w.stopped⟩

/-- A step as the lease process sees it. -/
inductive Moves : Keeping → World.Event → Keeping → Prop where
  | stays {ev : World.Event} {k : Keeping} : (ev = .result → k.leaser.mailbox = []) → Moves k ev k
  | goesOn {ev : World.Event} {p : LeaseProcess} {e e' : Exchanging} {id id' : ℕ}
      {casts : List Lease} {s : Bool} : ev ≠ .result → ¬ e.Extends → ¬ e'.Extends →
      Moves ⟨p, some (e, id), casts, s⟩ ev ⟨p, some (e', id'), casts, s⟩
  | comesIn {ev : World.Event} {p : LeaseProcess} {e : Exchanging} {id : ℕ} {casts : List Lease}
      {s : Bool} (r : Except LeaseError Lease) : ev ≠ .result →
      Moves ⟨p, some (e, id), casts, s⟩ ev ⟨p.arrive r, none, casts, s⟩
  | renews {p : LeaseProcess} {casts : List Lease} {s : Bool} (id : ℕ) : p.phase = .bound →
      Moves ⟨p, none, casts, s⟩ .renewNow
        ⟨⟨.renewing, p.data, none, [], p.mailbox⟩, some (.renew p.data, id), casts, s⟩
  | binds {p : LeaseProcess} {casts : List Lease} {s : Bool} (lease : Lease) :
      p.mailbox = [.ok lease] →
      Moves ⟨p, none, casts, s⟩ .result ⟨Leaser.init lease, none, lease :: casts, s⟩
  | descends {p : LeaseProcess} {casts : List Lease} {s : Bool} {err : LeaseError} {rung : Rung}
      {e : Exchanging} (id : ℕ) : p.mailbox = [.error err] → rung ≠ .bound →
      rung.Runs p.data e →
      Moves ⟨p, none, casts, s⟩ .result
        ⟨⟨rung, p.data, none, [], []⟩, some (e, id), casts, s⟩
  | stops {p : LeaseProcess} {casts : List Lease} {s : Bool} {err : LeaseError} :
      p.mailbox = [.error err] →
      Moves ⟨p, none, casts, s⟩ .result ⟨{ p with mailbox := [] }, none, casts, true⟩

theorem Rung.Runs.ne_bound {lease : Lease} {rung : Rung} {e : Exchanging} (h : rung.Runs lease e) :
    rung ≠ .bound := by
  rintro rfl
  exact h

section Moves
variable {clientID : Duid} {w : World} {ev : World.Event}

theorem Exchanging.next_exchange {e e' : Exchanging} {o : Outcome} (h : e.next o = .exchange e') :
    ¬ e.Extends ∧ ¬ e'.Extends := by
  rw [Exchanging.next] at h
  cases e with
  | renew lease => split at h <;> cases h
  | rebind lease => split at h <;> cases h
  | solicit =>
    refine ⟨id, ?_⟩
    split at h
    · rw [Exchanging.answered] at h
      split at h <;> cases h <;> exact id
    · cases h
  | request serverID offered =>
    refine ⟨id, ?_⟩
    split at h
    · rw [Exchanging.answered] at h
      split at h <;> cases h
      exact id
    · cases h
      exact id

theorem World.advance_moves {e : Exchanging} {id : ℕ} (hev : ev ≠ .result)
    (htask : w.task = some (e, id)) (outcome : Except ExchangeError Message) :
    Moves w.keeping ev (w.advance clientID e outcome).keeping := by
  rw [World.advance, World.keeping, htask]
  split
  · next e' hnext =>
    obtain ⟨he, he'⟩ := Exchanging.next_exchange hnext
    exact .goesOn hev he he'
  · exact .comesIn _ hev

theorem World.conclude_exchange {rung : Rung} {e : Exchanging} (hpost : w.leaser.postponed = [])
    (hrung : rung ≠ w.leaser.phase) :
    (w.conclude clientID (rung, w.leaser.data, [.out (.exchange e)])).keeping =
      ⟨⟨rung, w.leaser.data, none, [], w.leaser.mailbox⟩, some (e, w.service.issued.length),
        w.applied, w.stopped⟩ := by
  rw [World.conclude, Leaser.conclude_exchange hpost hrung]
  rfl

theorem World.conclude_bound {lease : Lease} (hpost : w.leaser.postponed = [])
    (hphase : w.leaser.phase ≠ .bound) (hmailbox : w.leaser.mailbox = []) :
    (w.conclude clientID (Leaser.bound lease)).keeping =
      ⟨Leaser.init lease, w.task, lease :: w.applied, w.stopped⟩ := by
  rw [World.conclude, Leaser.conclude_bound hpost hphase hmailbox]
  rfl

theorem Waits.received {p : LeaseProcess} {task : Option (Exchanging × ℕ)}
    {r : Except LeaseError Lease} {rest : List (Except LeaseError Lease)} (h : Waits p task)
    (hmailbox : p.mailbox = r :: rest) : task = none ∧ rest = [] ∧ p.phase ≠ .bound := by
  cases h with
  | timer hphase htimeout hnone => cases hmailbox.symm.trans hnone
  | exchange e id hruns htimeout hnone => cases hmailbox.symm.trans hnone
  | outcome r' hphase htimeout hone =>
    cases hmailbox.symm.trans hone
    exact ⟨rfl, rfl, hphase⟩

theorem Waits.timed {p : LeaseProcess} {task : Option (Exchanging × ℕ)} {timer : ℤ × LeaserTimer}
    (h : Waits p task) (htimeout : p.timeout = some timer) : task = none ∧ p.phase = .bound := by
  cases h with
  | timer hphase htimer hmailbox => exact ⟨rfl, hphase⟩
  | exchange e id hruns hnone hmailbox => cases htimeout.symm.trans hnone
  | outcome r hphase hnone hmailbox => cases htimeout.symm.trans hnone

theorem World.result_moves (h : Waits w.leaser w.task) (hpost : w.leaser.postponed = []) :
    Moves w.keeping .result (w.step clientID .result).keeping := by
  rw [World.step]
  split
  · next hmailbox => exact .stays fun _ => hmailbox
  · next r mailbox hmailbox =>
    obtain ⟨htask, rfl, hphase⟩ := h.received hmailbox
    set w₁ : World := { w with leaser := { w.leaser with mailbox := [] } } with hw₁
    have hkeeping : w.keeping = ⟨w.leaser, none, w₁.applied, w₁.stopped⟩ := by
      rw [World.keeping, htask]
    have htask₁ : w₁.task = none := htask
    rw [hkeeping]
    cases r with
    | ok lease =>
      rw [Leaser.handleEvent, World.conclude_bound (w := w₁) hpost hphase rfl, htask₁]
      exact .binds lease hmailbox
    | error err =>
      dsimp only [Leaser.handleEvent]
      split
      · next hrung =>
        have hne : Rung.rebinding ≠ w₁.leaser.phase := fun heq => by cases heq.trans hrung
        rw [World.conclude_exchange (w := w₁) hpost hne]
        exact .descends _ hmailbox (by simp) rfl
      · next hrung =>
        have hne : Rung.soliciting ≠ w₁.leaser.phase := fun heq => by cases heq.trans hrung
        rw [World.conclude_exchange (w := w₁) hpost hne]
        exact .descends _ hmailbox (by simp) id
      · next hrung =>
        have hstop : (w₁.conclude clientID (w.leaser.phase, w.leaser.data,
            [.out (.stop err)])).keeping = ⟨w₁.leaser, none, w₁.applied, true⟩ := by
          simp [World.conclude, World.perform, World.keeping, Process.outs, Process.conclude,
            Process.enter, Process.perform, hw₁, htask]
        rw [hstop]
        exact .stops hmailbox
      · next hrung => exact absurd hrung hphase

theorem World.renewNow_moves (h : Waits w.leaser w.task) (hpost : w.leaser.postponed = []) :
    Moves w.keeping .renewNow (w.step clientID .renewNow).keeping := by
  rw [World.step]
  split
  · next due msg htimeout =>
    split_ifs
    · obtain ⟨htask, hphase⟩ := h.timed htimeout
      set w₁ : World := { w with leaser := { w.leaser with timeout := none } } with hw₁
      have hne : Rung.renewing ≠ w₁.leaser.phase := fun heq => by cases heq.trans hphase
      cases msg
      rw [Leaser.handleEvent, if_pos hphase, World.conclude_exchange (w := w₁) hpost hne,
        World.keeping, htask]
      exact .renews _ hphase
    · exact .stays (by simp)
  · exact .stays (by simp)

/-- Whatever happens, the lease process makes one of its moves. -/
theorem World.step_moves (h : Waits w.leaser w.task) (hpost : w.leaser.postponed = [])
    (ev : World.Event) : Moves w.keeping ev (w.step clientID ev).keeping := by
  cases ev with
  | service ev =>
    rw [World.step]
    split_ifs
    · rw [World.settle]
      split
      · exact .stays (by simp)
      · next e id htask =>
        split
        · exact .stays (by simp)
        · next outcome rest hreply =>
          exact World.advance_moves (w := { w with service := w.service.step clientID ev })
            (by simp) htask outcome
    · exact .stays (by simp)
  | deadline =>
    rw [World.step]
    split
    · next e id htask =>
      split
      · split_ifs
        · exact World.advance_moves (by simp) htask _
        · exact .stays (by simp)
      · exact .stays (by simp)
    · exact .stays (by simp)
  | renewNow => exact World.renewNow_moves h hpost
  | result => exact World.result_moves h hpost
  | clientFails =>
    have hev : World.Event.clientFails ≠ .result := by simp
    rw [World.step]
    dsimp only
    split
    · next e id htask =>
      exact World.advance_moves (w := { w with
        service := { w.service with process := ⟨.idle, none, none, [], []⟩ } }) hev htask _
    · exact .stays (by simp)

/-- A process that is gone makes none. -/
theorem World.step_idle (htimeout : w.leaser.timeout = none) (hmailbox : w.leaser.mailbox = [])
    (htask : w.task = none) (ev : World.Event) :
    (w.step clientID ev).keeping = w.keeping ∧
      ((∃ ev', ev = .service ev' ∧ (w.step clientID ev).service = w.service.step clientID ev') ∨
        ((w.step clientID ev).service.log = w.service.log ∧
          (w.step clientID ev).service.now = w.service.now)) := by
  cases ev with
  | service ev =>
    have hadmits : w.admits ev = true := by
      cases ev with
      | abandon id => simp [World.admits, htask]
      | _ => rfl
    rw [World.step, if_pos hadmits, World.settle]
    simp only [htask]
    exact ⟨by rw [World.keeping, World.keeping, htask], .inl ⟨ev, rfl, rfl⟩⟩
  | deadline =>
    rw [World.step, htask]
    exact ⟨rfl, .inr ⟨rfl, rfl⟩⟩
  | renewNow =>
    rw [World.step, htimeout]
    exact ⟨rfl, .inr ⟨rfl, rfl⟩⟩
  | result =>
    rw [World.step, hmailbox]
    exact ⟨rfl, .inr ⟨rfl, rfl⟩⟩
  | clientFails =>
    rw [World.step]
    simp only [htask, World.keeping, and_self, or_true]

def World.Served (clientID : Duid) (w : World) : Prop := w.service.Invariant clientID

theorem World.Served.issue (h : w.Served clientID) (e : Exchanging) :
    (w.issue clientID e).Served clientID :=
  Service.Invariant.step h _

theorem World.Served.advance (h : w.Served clientID) (e : Exchanging)
    (outcome : Except ExchangeError Message) : (w.advance clientID e outcome).Served clientID := by
  rw [World.advance]
  split
  · exact h.issue _
  · exact h

/-- A client started again has no exchange going. -/
theorem World.Served.restarted (h : w.Served clientID) :
    World.Served clientID
      { w with service := { w.service with process := ⟨.idle, none, none, [], []⟩ } } :=
  (Sound.toIdle h).sublist (List.nil_sublist _)

theorem World.Served.conclude (h : w.Served clientID) (r : Leaser.Result) :
    (w.conclude clientID r).Served clientID := by
  rw [World.conclude]
  refine List.foldlRecOn (motive := World.Served clientID) _ _ h ?_
  intro w hw out _
  cases out with
  | exchange e => exact hw.issue e
  | applied lease => exact hw
  | stop err => exact hw

theorem World.Served.step (h : w.Served clientID) (ev : World.Event) :
    (w.step clientID ev).Served clientID := by
  cases ev with
  | service ev =>
    rw [World.step]
    split_ifs
    · have hserved : World.Served clientID { w with service := w.service.step clientID ev } :=
        Service.Invariant.step h ev
      rw [World.settle]
      split
      · exact hserved
      · split
        · exact hserved
        · exact hserved.advance _ _
    · exact h
  | deadline =>
    rw [World.step]
    split
    · split
      · split_ifs
        · exact h.advance _ _
        · exact h
      · exact h
    · exact h
  | renewNow =>
    rw [World.step]
    split
    · split_ifs
      · apply World.Served.conclude
        exact h
      · exact h
    · exact h
  | result =>
    rw [World.step]
    split
    · exact h
    · apply World.Served.conclude
      exact h
  | clientFails =>
    rw [World.step]
    dsimp only
    split
    · exact h.restarted.advance _ _
    · exact h.restarted

variable {k k' : Keeping}

theorem Moves.postponed (h : Moves k ev k') (hpost : k.leaser.postponed = []) :
    k'.leaser.postponed = [] := by
  cases h <;> first | exact hpost | rfl

/-- Unless it stops, the process waits for one thing again. -/
theorem Moves.waits (h : Moves k ev k') (hw : Waits k.leaser k.task) (hruns : k'.stopped = false) :
    Waits k'.leaser k'.task := by
  cases h with
  | stays hresult => exact hw
  | goesOn hev he he' =>
    cases hw with
    | exchange e id hphase htimeout hmailbox =>
      refine .exchange _ _ ?_ htimeout hmailbox
      dsimp only at hphase ⊢
      generalize Process.phase _ = rung at hphase ⊢
      cases rung with
      | bound => exact hphase.elim
      | renewing => exact absurd (hphase ▸ trivial) he
      | rebinding => exact absurd (hphase ▸ trivial) he
      | soliciting => exact he'
  | comesIn r hev =>
    cases hw with
    | exchange e id hphase htimeout hmailbox =>
      exact .outcome r hphase.ne_bound htimeout (congrArg (· ++ [r]) hmailbox)
  | renews id hphase =>
    refine .exchange _ _ rfl rfl ?_
    cases hw with
    | timer hbound htimeout hmailbox => exact hmailbox
    | outcome r hne htimeout hmailbox => exact absurd hphase hne
  | binds lease hmailbox => exact .timer rfl rfl rfl
  | descends id hmailbox hne hphase => exact .exchange _ _ hphase rfl rfl
  | stops hmailbox => cases hruns

theorem takenUp_eq_nil {mailbox : List (Except LeaseError Lease)} (h : ev = .result → mailbox = []) :
    takenUp mailbox ev = [] := by
  cases ev with
  | result => rw [h rfl]; rfl
  | _ => rfl

/-- What is taken up is cast. -/
theorem Moves.casts (h : Moves k ev k') :
    k'.applied.reverse = k.applied.reverse ++ takenUp k.leaser.mailbox ev := by
  cases h with
  | stays hresult => rw [takenUp_eq_nil hresult, List.append_nil]
  | goesOn hev => rw [takenUp_eq_nil fun hresult => absurd hresult hev, List.append_nil]
  | comesIn r hev => rw [takenUp_eq_nil fun hresult => absurd hresult hev, List.append_nil]
  | renews id hphase => exact (List.append_nil _).symm
  | binds lease hmailbox => simp [takenUp, grants, hmailbox, Except.toOption]
  | descends id hmailbox => simp [takenUp, grants, hmailbox, Except.toOption]
  | stops hmailbox => simp [takenUp, grants, hmailbox, Except.toOption]

/-- A lease that came in is cast or still waits. -/
theorem Moves.granted (h : Moves k ev k') :
    k'.applied.reverse ++ grants k'.leaser.mailbox =
      k.applied.reverse ++ grants k.leaser.mailbox ++
        arrivals k.leaser.mailbox k'.leaser.mailbox := by
  cases h with
  | comesIn r hev => simp [arrivals, grants, Process.arrive]
  | binds lease hmailbox => simp [arrivals, grants, hmailbox, Leaser.init, Except.toOption]
  | descends id hmailbox => simp [arrivals, grants, hmailbox, Except.toOption]
  | stops hmailbox => simp [arrivals, grants, hmailbox, Except.toOption]
  | _ => simp [arrivals, grants]

/-- The lease held is the one it was, or the one cast in this step. -/
theorem Moves.held (h : Moves k ev k') :
    (k'.applied = k.applied ∧ k'.leaser.data = k.leaser.data) ∨
      ∃ lease, k'.applied = lease :: k.applied ∧ k'.leaser.data = lease := by
  cases h with
  | binds lease hmailbox => exact .inr ⟨lease, rfl, rfl⟩
  | _ => exact .inl ⟨rfl, rfl⟩

theorem Moves.stopped (h : Moves k ev k') (hruns : k.stopped = false) (hstops : k'.stopped = true) :
    k'.leaser.mailbox = [] := by
  cases h with
  | stops hmailbox => rfl
  | _ => cases hruns.symm.trans hstops

end Moves

namespace Tree
variable {clientID : Duid} {initial : Lease} {t : Tree}

/-- What holds of the tree in every run. -/
structure Kept (initial : Lease) (t : Tree) : Prop where
  waits : t.running = true → Waits t.world.leaser t.world.task
  idle : t.running = false → t.world.leaser.timeout = none ∧ t.world.leaser.mailbox = [] ∧
    t.world.task = none
  postponed : t.world.leaser.postponed = []
  alive : t.world.stopped = false
  cast : t.casts = t.taken
  held : t.running = true →
    (t.world.applied.length = t.started ∧ t.world.leaser.data = initial) ∨
      (t.started < t.world.applied.length ∧ t.world.applied.head? = some t.world.leaser.data)
  applied : t.current ≤ t.handled ∧ t.handled ≤ t.world.applied.length

theorem Kept.down (h : Kept initial t) : Kept initial t.down where
  waits := nofun
  idle _ := ⟨rfl, rfl, rfl⟩
  postponed := rfl
  alive := rfl
  cast := h.cast
  held := nofun
  applied := h.applied

theorem Kept.running (h : Kept initial t) (hrun : t.running = true) (ev : World.Event) :
    Kept initial (t.step clientID initial (.world ev)) := by
  have hmoves : Moves t.world.keeping ev (t.world.step clientID ev).keeping :=
    World.step_moves (h.waits hrun) h.postponed ev
  set w := t.world.step clientID ev with hw
  have hcast : w.applied.reverse = t.taken ++ takenUp t.world.leaser.mailbox ev := by
    rw [← h.cast]
    exact hmoves.casts
  have happlied : t.current ≤ t.handled ∧ t.handled ≤ w.applied.length := by
    have hle := h.applied
    rcases hmoves.held with ⟨heq, -⟩ | ⟨lease, heq, -⟩
    · rw [show w.applied = t.world.applied from heq]
      exact hle
    · rw [show w.applied = lease :: t.world.applied from heq, List.length_cons]
      omega
  rw [step, ← hw]
  split_ifs with hstopped
  · exact ⟨nofun, fun _ => ⟨rfl, rfl, rfl⟩, rfl, rfl, hcast, nofun, happlied⟩
  · have halive : w.stopped = false := by simpa using hstopped
    refine ⟨fun _ => hmoves.waits (h.waits hrun) halive, fun hdown => ?_,
      hmoves.postponed h.postponed, halive, hcast, fun _ => ?_, happlied⟩
    · cases hrun.symm.trans hdown
    · change (w.applied.length = t.started ∧ w.leaser.data = initial) ∨
        (t.started < w.applied.length ∧ w.applied.head? = some w.leaser.data)
      rcases hmoves.held with ⟨heq, hdata⟩ | ⟨lease, heq, hdata⟩
      · rw [show w.applied = t.world.applied from heq,
          show w.leaser.data = t.world.leaser.data from hdata]
        exact h.held hrun
      · rw [show w.applied = lease :: t.world.applied from heq, show w.leaser.data = lease from hdata]
        refine .inr ⟨?_, rfl⟩
        rw [List.length_cons]
        rcases h.held hrun with ⟨hlen, -⟩ | ⟨hlt, -⟩ <;> omega

theorem Kept.stopped (h : Kept initial t) (hdown : t.running = false) (ev : World.Event) :
    Kept initial (t.step clientID initial (.world ev)) ∧
      (t.step clientID initial (.world ev)).running = false := by
  obtain ⟨htimeout, hmailbox, htask⟩ := h.idle hdown
  obtain ⟨hkeeping, -⟩ := @World.step_idle clientID _ htimeout hmailbox htask ev
  set w := t.world.step clientID ev with hw
  obtain ⟨hleaser, htask', happlied, hstopped⟩ : w.leaser = t.world.leaser ∧
      w.task = t.world.task ∧ w.applied = t.world.applied ∧ w.stopped = t.world.stopped := by
    simpa [World.keeping] using hkeeping
  have htaken : takenUp t.world.leaser.mailbox ev = [] := takenUp_eq_nil fun _ => hmailbox
  rw [step, ← hw, if_neg (by simp [hstopped, h.alive])]
  refine ⟨⟨fun hrun => ?_, fun _ => ?_, ?_, ?_, ?_, fun hrun => ?_, ?_⟩, hdown⟩
  · cases hrun.symm.trans hdown
  · exact ⟨hleaser ▸ htimeout, hleaser ▸ hmailbox, htask' ▸ htask⟩
  · exact hleaser ▸ h.postponed
  · exact hstopped.trans h.alive
  · change w.applied.reverse = t.taken ++ takenUp t.world.leaser.mailbox ev
    rw [htaken, List.append_nil, happlied]
    exact h.cast
  · cases hrun.symm.trans hdown
  · exact happlied ▸ h.applied

/-- A process granted a lease since it started, or started before there was any, holds the LAN's
lease once that is applied. -/
theorem Kept.holds_lan (h : Kept initial t) (hrun : t.running = true)
    (hstarted : t.started < t.world.applied.length ∨ t.started = 0)
    (hcurrent : t.current = t.world.applied.length) : t.world.leaser.data = t.lan initial := by
  rw [lan, casts, hcurrent]
  rcases h.held hrun with ⟨hlen, hdata⟩ | ⟨-, hhead⟩
  · have hnil : t.world.applied = [] := List.length_eq_zero_iff.mp (by omega)
    rw [hdata, hnil]
    rfl
  · obtain ⟨rest, hcons⟩ := List.head?_eq_some_iff.mp hhead
    simp [hcons]

theorem Kept.terminate (h : Kept initial t) (clientID : Duid) :
    Kept initial { (t.terminate clientID).down with ended := true } := by
  have hworld : (t.terminate clientID).world.applied = t.world.applied := by
    rw [Tree.terminate]
    split_ifs <;> rfl
  have htree : (t.terminate clientID).taken = t.taken ∧ (t.terminate clientID).current = t.current ∧
      (t.terminate clientID).handled = t.handled := by
    rw [Tree.terminate]
    split_ifs <;> exact ⟨rfl, rfl, rfl⟩
  obtain ⟨htaken, hcurrent, hhandled⟩ := htree
  refine ⟨nofun, fun _ => ⟨rfl, rfl, rfl⟩, rfl, rfl, ?_, nofun, ?_⟩
  · change (t.terminate clientID).world.applied.reverse = (t.terminate clientID).taken
    rw [hworld, htaken]
    exact h.cast
  · change (t.terminate clientID).current ≤ (t.terminate clientID).handled ∧
      (t.terminate clientID).handled ≤ (t.terminate clientID).world.applied.length
    rw [hworld, hcurrent, hhandled]
    exact h.applied

theorem Kept.step (h : Kept initial t) (a : Action) : Kept initial (t.step clientID initial a) := by
  cases a with
  | world ev =>
    cases hrun : t.running with
    | true => exact h.running hrun ev
    | false => exact (h.stopped hrun ev).1
  | crash =>
    rw [Tree.step]
    split_ifs
    · exact h.down
    · exact h
  | restart =>
    rw [Tree.step]
    split_ifs with hup
    · exact h
    · obtain ⟨hdown, -⟩ : t.running = false ∧ t.ended = false := by simpa using hup
      have hwaits : Waits (Leaser.init initial) t.world.task := by
        rw [(h.idle hdown).2.2]
        exact .timer rfl rfl rfl
      exact ⟨fun _ => hwaits, nofun, rfl, h.alive, h.cast, fun _ => .inl ⟨rfl, rfl⟩, h.applied⟩
  | apply =>
    rw [Tree.step]
    split_ifs with hmore
    · exact ⟨h.waits, h.idle, h.postponed, h.alive, h.cast, h.held, le_rfl, hmore⟩
    · exact h
  | applyCrash =>
    have hle := h.applied
    exact ⟨h.waits, h.idle, h.postponed, h.alive, h.cast, h.held, hle.1.trans hle.2, le_rfl⟩
  | shutdown =>
    rw [Tree.step]
    split_ifs
    · exact h.terminate clientID
    · exact ⟨h.waits, h.idle, h.postponed, h.alive, h.cast, h.held, h.applied⟩

theorem Kept.start (clientID : Duid) (initial : Lease) (now : ℤ) (prior : List Service.Event) :
    Kept initial (start clientID initial now prior) :=
  ⟨fun _ => .timer rfl rfl rfl, nofun, rfl, rfl, rfl, fun _ => .inl ⟨rfl, rfl⟩, le_rfl, le_rfl⟩

/-- The Release is of the lease the LAN is on and stays on, and is transmitted within the time it
has. -/
structure Released (initial : Lease) (t : Tree) (rel : Release) : Prop where
  ended : t.running = false ∧ t.ended = true
  current : t.current = t.world.applied.length
  lease : rel.lease = t.lan initial
  early : rel.since + releaseTimeout < rel.lease.expiresAt
  given : Open rel.call t.world.service.log → t.world.service.now ≤ rel.since + releaseTimeout
  sent : ∀ at_ r b, .sent at_ r b ∈ t.world.service.log → r.call.id = rel.call →
    at_ ≤ rel.since + releaseTimeout

/-- What holds besides in an orderly run: no lease that came in was lost. -/
structure Settled (clientID : Duid) (initial : Lease) (t : Tree) : Prop where
  kept : Kept initial t
  served : t.world.Served clientID
  granted : t.granted = t.casts ++ grants t.world.leaser.mailbox
  release : ∀ rel, t.release = some rel → Released initial t rel

theorem Settled.rightful (h : Settled clientID initial t) : t.Rightful initial := by
  intro rel hrel
  obtain ⟨-, -, hlease, hearly, -, hsent⟩ := h.release rel hrel
  have hpos : 0 < releaseTimeout := by decide
  refine ⟨hlease, by omega, ?_⟩
  intro at_ r b hmem hcall
  have := hsent at_ r b hmem hcall
  omega

theorem Settled.unreleased (h : Settled clientID initial t) (hrun : t.running = true)
    (rel : Release) : t.release ≠ some rel := by
  intro hrel
  cases hrun.symm.trans (h.release rel hrel).ended.1

theorem Settled.running (h : Settled clientID initial t) (hrun : t.running = true)
    (ev : World.Event) : Settled clientID initial (t.step clientID initial (.world ev)) := by
  have hkept : Kept initial (t.step clientID initial (.world ev)) := h.kept.step _
  have hmoves : Moves t.world.keeping ev (t.world.step clientID ev).keeping :=
    World.step_moves (h.kept.waits hrun) h.kept.postponed ev
  have hgranted : t.granted ++ arrivals t.world.leaser.mailbox
      (t.world.step clientID ev).leaser.mailbox = (t.world.step clientID ev).applied.reverse ++
        grants (t.world.step clientID ev).leaser.mailbox := by
    rw [h.granted]
    exact hmoves.granted.symm
  rw [Tree.step] at hkept ⊢
  split_ifs at hkept ⊢ with hstopped
  · refine ⟨hkept, h.served.step ev, hgranted.trans ?_,
      fun rel hrel => absurd hrel (h.unreleased hrun rel)⟩
    rw [show (t.world.step clientID ev).leaser.mailbox = [] from
      hmoves.stopped h.kept.alive hstopped]
    rfl
  · exact ⟨hkept, h.served.step ev, hgranted, fun rel hrel => absurd hrel (h.unreleased hrun rel)⟩

/-- A transmission is made while the call is open, and so in time. -/
theorem Released.service {rel : Release} {ev : Service.Event} (h : Released initial t rel)
    (hserved : t.world.Served clientID) (horderly : t.Orderly (.world (.service ev)))
    (hrel : t.release = some rel) :
    (Open rel.call (t.world.service.step clientID ev).log →
        (t.world.service.step clientID ev).now ≤ rel.since + releaseTimeout) ∧
      ∀ at_ r b, .sent at_ r b ∈ (t.world.service.step clientID ev).log → r.call.id = rel.call →
        at_ ≤ rel.since + releaseTimeout := by
  obtain ⟨added, hlog, hadds⟩ := Service.step_log clientID t.world.service ev
  have hsound := Service.Invariant.step hserved ev
  rw [hlog]
  constructor
  · intro hopen
    have hgiven := h.given hopen.of_append
    by_cases helapse : ∃ now, ev = .elapse now
    · obtain ⟨now, rfl⟩ := helapse
      exact max_le hgiven (horderly rel hrel hopen.of_append)
    · rw [Service.step_now_eq fun now hnow => helapse ⟨now, hnow⟩]
      exact hgiven
  · intro at_ r b hmem hcall
    rcases List.mem_append.mp hmem with hnew | hold
    · cases hadds with
      | sent ev r' b' =>
        cases List.mem_singleton.mp hnew
        have hlawful := hsound.lawful
        rw [hlog] at hlawful
        apply h.given
        rw [← hcall]
        exact hlawful.1.1
      | nothing ev => cases hnew
      | exhausted ev r' => cases List.mem_singleton.mp hnew
      | answered r' b' queued m hq hp hd ha => cases List.mem_singleton.mp hnew
      | abandoned id => cases List.mem_singleton.mp hnew
    · exact h.sent at_ r b hold hcall

theorem Settled.idle (h : Settled clientID initial t) (hdown : t.running = false)
    {ev : World.Event} (horderly : t.Orderly (.world ev)) :
    Settled clientID initial (t.step clientID initial (.world ev)) := by
  obtain ⟨htimeout, hmailbox, htask⟩ := h.kept.idle hdown
  obtain ⟨hkeeping, hservice⟩ := @World.step_idle clientID _ htimeout hmailbox htask ev
  have hkept := (@Kept.stopped clientID _ _ h.kept hdown ev).1
  set w := t.world.step clientID ev with hw
  obtain ⟨hleaser, htask', happlied, hstopped⟩ : w.leaser = t.world.leaser ∧
      w.task = t.world.task ∧ w.applied = t.world.applied ∧ w.stopped = t.world.stopped := by
    simpa [World.keeping] using hkeeping
  rw [Tree.step, ← hw, if_neg (by simp [hstopped, h.kept.alive])] at hkept ⊢
  refine ⟨hkept, h.served.step ev, ?_, ?_⟩
  · change t.granted ++ arrivals t.world.leaser.mailbox w.leaser.mailbox =
      w.applied.reverse ++ grants w.leaser.mailbox
    rw [hleaser, hmailbox, happlied, h.granted, hmailbox]
    exact List.append_nil _
  · intro rel hrel
    have hreleased := h.release rel hrel
    have hlan : rel.lease = (initial :: w.applied.reverse).getD t.current initial := by
      rw [happlied]
      exact hreleased.lease
    have hwithin : (Open rel.call w.service.log → w.service.now ≤ rel.since + releaseTimeout) ∧
        ∀ at_ r b, .sent at_ r b ∈ w.service.log → r.call.id = rel.call →
          at_ ≤ rel.since + releaseTimeout := by
      rcases hservice with ⟨ev', rfl, hstep⟩ | ⟨hlog, hnow⟩
      · rw [hstep]
        exact hreleased.service h.served horderly hrel
      · rw [hlog, hnow]
        exact ⟨hreleased.given, hreleased.sent⟩
    exact ⟨hreleased.ended, happlied ▸ hreleased.current, hlan, hreleased.early, hwithin.1,
      hwithin.2⟩

theorem Settled.shutdown (h : Settled clientID initial t) (horderly : t.Orderly .shutdown) :
    Settled clientID initial (t.step clientID initial .shutdown) := by
  have hkept : Kept initial (t.step clientID initial .shutdown) := h.kept.step _
  rw [Tree.step] at hkept ⊢
  split_ifs at hkept ⊢ with hrun
  · rw [Tree.terminate] at hkept ⊢
    split_ifs at hkept ⊢ with hphase
    · refine ⟨hkept, ?_, ?_, ?_⟩
      · exact Service.Invariant.step h.served _
      · refine h.granted.trans ?_
        rw [horderly.1]
        rfl
      · rintro rel ⟨⟩
        obtain ⟨hstarted, hcurrent, hearly⟩ := horderly.2 hrun hphase
        have hnew : Untouched t.world.service.issued.length t.world.service.log :=
          fun entry hentry => (Sound.logMade h.served entry hentry).lt.ne
        refine ⟨⟨rfl, rfl⟩, hcurrent, h.kept.holds_lan hrun hstarted hcurrent, hearly, ?_, ?_⟩
        · intro _
          exact le_add_of_nonneg_right (by decide)
        · intro at_ r b hmem hcall
          exact absurd hcall (hnew _ hmem)
    · exact ⟨hkept, h.served, h.granted.trans (by rw [horderly.1]; rfl),
        fun rel hrel => absurd hrel (h.unreleased hrun rel)⟩
  · refine ⟨hkept, h.served, h.granted, fun rel hrel => ?_⟩
    have hreleased := h.release rel hrel
    exact ⟨⟨hreleased.ended.1, rfl⟩, hreleased.current, hreleased.lease, hreleased.early,
      hreleased.given, hreleased.sent⟩

theorem Settled.step (h : Settled clientID initial t) {a : Action} (horderly : t.Orderly a) :
    Settled clientID initial (t.step clientID initial a) := by
  cases a with
  | world ev =>
    cases hrun : t.running with
    | true => exact h.running hrun ev
    | false => exact h.idle hrun horderly
  | crash =>
    have hkept : Kept initial (t.step clientID initial .crash) := h.kept.step _
    rw [Tree.step] at hkept ⊢
    split_ifs at hkept ⊢ with hrun
    · refine ⟨hkept, h.served, h.granted.trans ?_,
        fun rel hrel => absurd hrel (h.unreleased hrun rel)⟩
      rw [show grants t.world.leaser.mailbox = [] from horderly]
      rfl
    · exact h
  | restart =>
    have hkept : Kept initial (t.step clientID initial .restart) := h.kept.step _
    rw [Tree.step] at hkept ⊢
    split_ifs at hkept ⊢ with hup
    · exact h
    · obtain ⟨hdown, hnot⟩ : t.running = false ∧ t.ended = false := by simpa using hup
      refine ⟨hkept, h.served, h.granted.trans ?_, fun rel hrel => ?_⟩
      · rw [(h.kept.idle hdown).2.1]
        rfl
      · cases hnot.symm.trans (h.release rel hrel).ended.2
  | apply =>
    have hkept : Kept initial (t.step clientID initial .apply) := h.kept.step _
    rw [Tree.step] at hkept ⊢
    split_ifs at hkept ⊢ with hmore
    · refine ⟨hkept, h.served, h.granted, fun rel hrel => ?_⟩
      have hcurrent := (h.release rel hrel).current
      have hle := h.kept.applied
      omega
    · exact h
  | applyCrash =>
    refine ⟨h.kept.step _, h.served, h.granted, fun rel hrel => ?_⟩
    have hreleased := h.release rel hrel
    exact ⟨hreleased.ended, hreleased.current, hreleased.lease, hreleased.early, hreleased.given,
      hreleased.sent⟩
  | shutdown => exact h.shutdown horderly

theorem Settled.start (clientID : Duid) (initial : Lease) (now : ℤ) (prior : List Service.Event) :
    Settled clientID initial (start clientID initial now prior) :=
  ⟨Kept.start clientID initial now prior, Service.run_invariant clientID now prior, rfl, nofun⟩

end Tree

/-- In every run of the tree each lease the process takes up is cast once, in order, and the
process, while it runs, waits for one thing. In an orderly run no lease that came in is lost, and a
Release is of the lease the LAN is on, before that expires. -/
theorem lease_released_rightfully (clientID : Duid) (initial : Lease) (now : ℤ)
    (prior : List Service.Event) (actions : List Tree.Action) :
    let t := actions.foldl (Tree.step clientID initial) (Tree.start clientID initial now prior)
    t.casts = t.taken ∧ (t.running = true → Waits t.world.leaser t.world.task) ∧
      (Along (Tree.step clientID initial) Tree.Orderly (Tree.start clientID initial now prior)
          actions →
        t.granted = t.casts ++ grants t.world.leaser.mailbox ∧ t.Rightful initial) := by
  have hkept : Tree.Kept initial (actions.foldl (Tree.step clientID initial)
      (Tree.start clientID initial now prior)) := by
    refine List.foldlRecOn (motive := Tree.Kept initial) actions _
      (Tree.Kept.start clientID initial now prior) ?_
    intro t ht a _
    exact ht.step a
  refine ⟨hkept.cast, hkept.waits, fun h => ?_⟩
  have hsettled := h.invariant (I := Tree.Settled clientID initial)
    (fun t a ht horderly => ht.step horderly) (Tree.Settled.start clientID initial now prior)
  exact ⟨hsettled.granted, hsettled.rightful⟩

/-- The lease is renewed at T1, with another prefix, and applied. -/
def renumberedActions : List Tree.Action :=
  [.world (.service (.elapse sampleLease.renewAt)), .world .renewNow,
    .world (.service (.next Service.noDraws)),
    .world (.service (.deliver (sampleReply [1] [samplePrefix 2 3600 7200]).marshalBinary)),
    .world (.service .receive), .world .result, .apply]

def sampleTree (actions : List Tree.Action) : Tree :=
  actions.foldl (Tree.step [9] sampleLease) (Tree.start [9] sampleLease 0 [])

theorem lease_released_rightfully_renumbered :
    let t := sampleTree (renumberedActions ++ [.shutdown])
    t.release.isSome = true ∧ t.granted = t.casts ++ grants t.world.leaser.mailbox ∧
      t.Rightful sampleLease := by
  have horderly : Along (Tree.step [9] sampleLease) Tree.Orderly (Tree.start [9] sampleLease 0 [])
      (renumberedActions ++ [.shutdown]) := by
    refine ⟨nofun, trivial, trivial, trivial, trivial, trivial, trivial, ⟨?_, fun _ _ => ?_⟩, trivial⟩
    · decide +kernel
    · exact ⟨by decide +kernel, by decide +kernel, by decide +kernel⟩
  exact ⟨by decide +kernel, (lease_released_rightfully [9] sampleLease 0 [] _).2.2 horderly⟩

/-- After a crash the process holds its first lease again, and that is the one it releases. -/
theorem restart_releases_superseded_lease :
    let t := sampleTree (renumberedActions ++ [.crash, .restart, .shutdown])
    t.release.map (fun rel => rel.lease.prefixes) = some sampleLease.prefixes ∧
      (t.lan sampleLease).prefixes = [samplePrefix 2 3600 7200] ∧ ¬ t.Rightful sampleLease := by
  have hreleased : (sampleTree (renumberedActions ++ [.crash, .restart, .shutdown])).release.map
      (fun rel => rel.lease.prefixes) = some sampleLease.prefixes := by
    decide +kernel
  have hlan : ((sampleTree (renumberedActions ++ [.crash, .restart, .shutdown])).lan
      sampleLease).prefixes = [samplePrefix 2 3600 7200] := by
    decide +kernel
  refine ⟨hreleased, hlan, fun h => ?_⟩
  obtain ⟨rel, hrel, hprefixes⟩ := Option.map_eq_some_iff.mp hreleased
  rw [← (h rel hrel).1, hprefixes] at hlan
  revert hlan
  decide +kernel

end Minuteman.PrefixDelegation
