import Minuteman.Dhcpv6.Exchanges
import Minuteman.Library.Backoff
import Minuteman.Library.Interference

/-!
# When a client retransmits

The times of the transmissions of an exchange, whatever calls, abandonments and
datagrams come in between: each waits out the timeout of the one before, the
timeouts back off as RFC 3315 has it, and the elapsed time a message carries is
never more than what has passed.
-/
namespace Minuteman.Dhcpv6
open Library Client

def sentAt (id : ℕ) (log : List Entry) : List (ℤ × Running) :=
  log.filterMap fun e =>
    match e with
    | .sent at_ r _ => if r.call.id = id then some (at_, r) else none
    | _ => none

def started (c : Call) (draws : Draws) : Running :=
  ⟨c, draws.xid, firstRT c.x.timing.irt draws, 0, 0⟩

def again (r : Running) (draws : Draws) : Running :=
  { r with elapsed := r.elapsed + r.rt, rt := nextRT r.rt r.call.x.timing.mrt draws }

/-- The generator's RAND is at most a tenth of what it is to vary. -/
def Service.Fair (s : Service) : Service.Event → Prop
  | .next draws => ∀ c rest, s.process.mailbox = c :: rest →
      10 * |draws.jitter| ≤ c.x.timing.irt
  | .timeout draws => ∀ r, s.process.data = some r →
      10 * |draws.jitter| ≤ r.rt ∧ 10 * |draws.ceilingJitter| ≤ r.call.x.timing.mrt
  | _ => True

/-- Where a transmission comes from: a call just taken up, one whose delay is over, or an
exchange that was not answered in time. -/
inductive Origin (s : Service) (ev : Service.Event) (r : Running) : Prop where
  | taken (draws : Draws) (c : Call) (rest : List Call) (hev : ev = .next draws)
      (hmailbox : s.process.mailbox = c :: rest) (hr : r = started c draws)
  | delayed (hphase : s.process.phase = .delaying) (hdata : s.process.data = some r)
  | unanswered (draws : Draws) (r₀ : Running) (due : ℤ) (hev : ev = .timeout draws)
      (hphase : s.process.phase = .waiting) (hdata : s.process.data = some r₀)
      (htimeout : s.process.timeout = some (due, .retransmit)) (hdue : due ≤ s.now)
      (hr : r = again r₀ draws)

/-- What a step does to the exchange running and to the log. -/
inductive Turn (s : Service) (ev : Service.Event) (s' : Service) : Prop where
  | stays (hphase : s'.process.phase = s.process.phase)
      (hdata : s'.process.data = s.process.data)
      (htimeout : s'.process.timeout = s.process.timeout)
      (hlog : s'.log = s.log ∨ ∃ id, s'.log = .abandoned s.now id :: s.log)
  | delays (draws : Draws) (c : Call) (rest : List Call) (hev : ev = .next draws)
      (hmailbox : s.process.mailbox = c :: rest) (hphase : s'.process.phase = .delaying)
      (hdata : s'.process.data = some (started c draws)) (hlog : s'.log = s.log)
  | sends (r : Running) (b : Bytes) (hfrom : Origin s ev r)
      (hphase : s'.process.phase = .waiting)
      (hdata : s'.process.data = some { r with sent := r.sent + 1 })
      (htimeout : s'.process.timeout = some (s.now + r.rt, .retransmit))
      (hlog : s'.log = .sent s.now { r with sent := r.sent + 1 } b :: s.log)
  | replies (r : Running) (outcome : Except ExchangeError Message)
      (hrunning : s.process.phase = .waiting ∧ s.process.data = some r)
      (hfailed : ∀ e, outcome = .error e →
        ∃ due, s.process.timeout = some (due, .retransmit) ∧ due ≤ s.now)
      (hdata : s'.process.data = none) (hlog : s'.log = .replied s.now r outcome :: s.log)
  | abandoned (id : ℕ) (hdata : s'.process.data = none)
      (hlog : s'.log = .abandoned s.now id :: s.log)

namespace Service
variable {clientID : Duid} {s : Service} {r : Running}

theorem conclude_send (e : Option Call) (r : Running) :
    (s.conclude e (Client.send clientID r)).process.phase = .waiting ∧
      (s.conclude e (Client.send clientID r)).process.data =
        some { r with sent := r.sent + 1 } ∧
      (s.conclude e (Client.send clientID r)).process.timeout =
        some (s.now + r.rt, .retransmit) ∧
      (s.conclude e (Client.send clientID r)).log = .sent s.now { r with sent := r.sent + 1 }
        (r.call.x.message r.xid clientID r.elapsed).marshalBinary :: s.log :=
  ⟨Process.conclude_phase _, Process.conclude_data _, rfl, rfl⟩

theorem conclude_finish (r : Running) (outcome : Except ExchangeError Message) :
    (s.conclude none (Client.finish r outcome)).process.data = none ∧
      (s.conclude none (Client.finish r outcome)).log = .replied s.now r outcome :: s.log :=
  ⟨Process.conclude_data _, rfl⟩

theorem Turn.sent {s' : Service} {ev : Event} {e : Option Call} (hfrom : Origin s ev r)
    (hs' : s'.now = s.now ∧ s'.log = s.log) :
    Turn s ev (s'.conclude e (Client.send clientID r)) := by
  obtain ⟨hphase, hdata, htimeout, hlog⟩ := @conclude_send clientID s' e r
  rw [hs'.1] at htimeout hlog
  rw [hs'.2] at hlog
  exact .sends r _ hfrom hphase hdata htimeout hlog

theorem turn_next (draws : Draws) : Turn s (.next draws) (s.step clientID (.next draws)) := by
  rw [step]
  cases hmailbox : s.process.mailbox with
  | nil => exact .stays rfl rfl rfl (.inl rfl)
  | cons c mailbox =>
    dsimp only [handleEvent]
    split_ifs with hbusy
    · refine .stays ?_ ?_ ?_ (.inl ?_) <;>
        simp [conclude, Process.conclude, Process.enter, Process.perform, Process.outs]
    · rw [not_not] at hbusy
      dsimp only [Client.start]
      split_ifs with hdelay
      · refine .delays draws c mailbox rfl hmailbox ?_ ?_ ?_ <;>
          simp [conclude, Process.conclude, Process.enter, Process.perform, Process.outs, hbusy,
            started, entry]
      · exact Turn.sent (.taken draws c mailbox rfl hmailbox rfl) ⟨rfl, rfl⟩

theorem turn_abandon (id : ℕ) :
    Turn s (.abandon id) (s.step clientID (.abandon id)) := by
  rw [step]
  split_ifs with hid
  · set s₁ : Service :=
      { s with
        process := s.process.discard fun c => c.id = id
        log := .abandoned s.now id :: s.log } with hs₁
    cases hr : s.process.data with
    | none =>
      have hstay := s₁.conclude_stay
      rw [show s₁.process.data = none from hr] at hstay
      have hsame : handleEvent clientID noDraws s.process.phase none (.event (.abandoned id)) =
          (s₁.process.phase, none, []) := rfl
      rw [hsame, hstay]
      exact .stays rfl rfl rfl (.inr ⟨id, rfl⟩)
    | some r =>
      dsimp only [handleEvent]
      split_ifs with hboth
      · obtain ⟨-, hdata, -, hlog⟩ := s₁.conclude_idle hboth.1
        exact .abandoned id hdata hlog
      · have hstay := s₁.conclude_stay
        rw [show s₁.process.data = some r from hr] at hstay
        rw [show s.process.phase = s₁.process.phase from rfl, hstay]
        exact .stays rfl rfl rfl (.inr ⟨id, rfl⟩)
  · exact .stays rfl rfl rfl (.inl rfl)

theorem turn_timeout (h : s.Invariant clientID) (draws : Draws) :
    Turn s (.timeout draws) (s.step clientID (.timeout draws)) := by
  rw [step]
  cases htimeout : s.process.timeout with
  | none => exact .stays rfl rfl (htimeout.symm ▸ rfl) (.inl rfl)
  | some timer =>
    obtain ⟨due, msg⟩ := timer
    dsimp only
    split_ifs with hdue
    · have hstage := h.stage
      rw [htimeout] at hstage
      generalize hp : s.process.phase = phase at hstage
      generalize hd : s.process.data = data at hstage
      cases hstage with
      | delaying r due hsent helapsed huntouched =>
        exact Turn.sent (.delayed hp hd) ⟨rfl, rfl⟩
      | waiting r due rs hrs hopen =>
        dsimp only [handleEvent, Client.unanswered]
        split_ifs with hexhausted
        · obtain ⟨hdata, hlog⟩ := conclude_finish
            (s := { s with process := { s.process with timeout := none } }) r (.error .exhausted)
          exact .replies r _ ⟨hp, hd⟩ (fun e _ => ⟨due, htimeout, hdue⟩) hdata hlog
        · exact Turn.sent (.unanswered draws r due rfl hp hd htimeout hdue rfl) ⟨rfl, rfl⟩
    · exact .stays rfl rfl (htimeout.symm ▸ rfl) (.inl rfl)

theorem turn_receive (h : s.Invariant clientID) : Turn s .receive (s.step clientID .receive) := by
  rw [step]
  cases hqueued : s.queued with
  | nil => exact .stays rfl rfl rfl (.inl rfl)
  | cons b queued =>
    dsimp only
    set s₁ : Service := { s with queued := queued } with hs₁
    by_cases hwaiting : s.process.phase = .waiting
    · have hstage := h.stage
      rw [hwaiting] at hstage
      obtain ⟨r, hr⟩ := hstage.running
      have hset := s₁.conclude_setActive
      rw [show s₁.process.phase = .waiting from hwaiting, show s₁.process.data = some r from hr]
        at hset
      rw [hwaiting, hr]
      dsimp only [handleEvent, received]
      split
      · split_ifs
        · obtain ⟨hdata, hlog⟩ := conclude_finish (s := s₁) r (.ok _)
          exact .replies r _ ⟨hwaiting, hr⟩ (fun e he => by cases he) hdata hlog
        · exact hset ▸ .stays rfl rfl rfl (.inl rfl)
      · exact hset ▸ .stays rfl rfl rfl (.inl rfl)
    · have hresult : handleEvent clientID noDraws s.process.phase s.process.data (.event (.data b))
          = (s₁.process.phase, s₁.process.data, []) := by
        change _ = (s.process.phase, s.process.data, [])
        cases hp : s.process.phase with
        | waiting => exact absurd hp hwaiting
        | _ => rfl
      rw [hresult, conclude_stay]
      exact .stays rfl rfl rfl (.inl rfl)

/-- Every step is one of these. -/
theorem turn (h : s.Invariant clientID) (ev : Event) : Turn s ev (s.step clientID ev) := by
  cases ev with
  | elapse t => exact .stays rfl rfl rfl (.inl rfl)
  | call x => exact .stays rfl rfl rfl (.inl rfl)
  | next draws => exact turn_next draws
  | abandon id => exact turn_abandon id
  | timeout draws => exact turn_timeout h draws
  | deliver b =>
    rw [step]
    split_ifs
    · exact .stays rfl rfl rfl (.inl rfl)
    · exact .stays rfl rfl rfl (.inl rfl)
  | receive => exact turn_receive h
  | sendError armed =>
    rw [step, handleEvent, conclude_stay]
    exact .stays rfl rfl rfl (.inl rfl)

end Service

section Log
variable {id : ℕ} {log : List Entry} {at_ : ℤ} {r : Running} {b : Bytes}

theorem sentAt_cons_sent :
    sentAt r.call.id (.sent at_ r b :: log) = (at_, r) :: sentAt r.call.id log := by
  simp [sentAt]

theorem sentAt_cons_other (h : r.call.id ≠ id) :
    sentAt id (.sent at_ r b :: log) = sentAt id log := by
  simp [sentAt, h]

theorem sentAt_map_snd : (sentAt id log).map Prod.snd = sentBy id log := by
  rw [sentAt, sentBy, List.map_filterMap]
  congr 1
  funext e
  cases e with
  | sent at_ r b => by_cases h : r.call.id = id <;> simp [h]
  | _ => rfl

end Log

theorem Series.of_append {later rest : List Running} (h : Series (later ++ rest)) :
    Series rest := by
  induction later with
  | nil => exact h
  | cons r later ih => exact ih h.2

/-- A transmission came no sooner than the timeout of the one before. -/
def WaitedOut (later earlier : ℤ × Running) : Prop := earlier.1 + earlier.2.rt ≤ later.1

/-- The timeouts of the transmissions back off, and each was waited out. -/
structure Timed (timing : Timing) (sent : List (ℤ × Running)) : Prop where
  backoff : Backoff timing.irt timing.mrt (sent.map fun e => e.2.rt)
  waited : sent.IsChain WaitedOut

theorem backsOff_nextRT {prev mrt : ℤ} {draws : Draws} (hprev : 10 * |draws.jitter| ≤ prev)
    (hmrt : 10 * |draws.ceilingJitter| ≤ mrt) : BacksOff mrt prev (nextRT prev mrt draws) := by
  dsimp only [nextRT]
  split_ifs with hover
  · exact backsOff_capped hover.1 hprev hmrt hover.2
  · refine backsOff_doubled hprev ?_
    by_contra hnot
    push Not at hnot
    exact hover ⟨hnot.1, hnot.2⟩

namespace Timed
variable {timing : Timing} {at_ at₀ : ℤ} {r r₀ : Running} {later rest : List (ℤ × Running)}

theorem first (h : Near timing.irt r.rt) : Timed timing [(at_, r)] := ⟨h, .singleton _⟩

theorem cons (h : Timed timing ((at₀, r₀) :: rest)) (hrt : BacksOff timing.mrt r₀.rt r.rt)
    (hdue : at₀ + r₀.rt ≤ at_) : Timed timing ((at_, r) :: (at₀, r₀) :: rest) :=
  ⟨⟨hrt, h.backoff⟩, .cons_cons hdue h.waited⟩

theorem tail {e : ℤ × Running} (h : Timed timing (e :: rest)) : Timed timing rest :=
  ⟨h.backoff.tail, h.waited.tail⟩

theorem of_append (h : Timed timing (later ++ rest)) : Timed timing rest := by
  induction later with
  | nil => exact h
  | cons e later ih => exact ih h.tail

theorem rt_pos (h : Timed timing ((at_, r) :: rest)) (hirt : 0 < timing.irt)
    (hmrt : 0 ≤ timing.mrt) : 0 < r.rt := (h.backoff.lower hirt hmrt).1

/-- Each transmission waited out every timeout before it. -/
theorem waited_all (h : Timed timing ((at_, r) :: rest)) (hirt : 0 < timing.irt)
    (hmrt : 0 ≤ timing.mrt) : ∀ e ∈ rest, 0 < e.2.rt ∧ e.1 + e.2.rt ≤ at_ := by
  induction rest generalizing at_ r with
  | nil => simp
  | cons e₀ rest ih =>
    have hwaited : e₀.1 + e₀.2.rt ≤ at_ := (List.isChain_cons_cons.mp h.waited).1
    have hpos := h.tail.rt_pos hirt hmrt
    intro e he
    rcases List.mem_cons.mp he with rfl | hold
    · exact ⟨hpos, hwaited⟩
    · obtain ⟨hpos', hle⟩ := ih h.tail e hold
      exact ⟨hpos', by omega⟩

/-- The elapsed time is the sum of the timeouts, and no more than has passed. -/
theorem elapsed_le (h : Timed timing ((at_, r) :: rest))
    (hseries : Series (((at_, r) :: rest).map Prod.snd)) (hirt : 0 < timing.irt)
    (hmrt : 0 ≤ timing.mrt) {first : ℤ × Running} (hfirst : rest.getLast? = some first) :
    0 < r.elapsed ∧ first.1 + r.elapsed ≤ at_ := by
  induction rest generalizing at_ r with
  | nil => cases hfirst
  | cons e₀ rest ih =>
    obtain ⟨at₀, r₀⟩ := e₀
    have hwaited : at₀ + r₀.rt ≤ at_ := (List.isChain_cons_cons.mp h.waited).1
    have hpos := h.tail.rt_pos hirt hmrt
    have helapsed : r.elapsed = r₀.elapsed + r₀.rt := hseries.1.2.2.2
    cases rest with
    | nil =>
      obtain rfl : (at₀, r₀) = first := Option.some.inj hfirst
      have hzero : r₀.elapsed = 0 := hseries.2.1.2
      rw [helapsed, hzero]
      dsimp only
      constructor <;> omega
    | cons e₁ rest =>
      rw [List.getLast?_cons_cons] at hfirst
      have hold := ih h.tail hseries.2 hfirst
      constructor <;> omega

end Timed

/-- What holds of the exchange running, of those before it and of those given up. -/
structure Service.Clocked (s : Service) : Prop where
  timed : ∀ id at_ r rest, sentAt id s.log = (at_, r) :: rest →
    Timed r.call.x.timing ((at_, r) :: rest)
  delaying : s.process.phase = .delaying → ∀ r, s.process.data = some r →
    Near r.call.x.timing.irt r.rt
  waiting : s.process.phase = .waiting → ∀ r, s.process.data = some r →
    ∃ at_ rest, sentAt r.call.id s.log = (at_, r) :: rest ∧
      s.process.timeout = some (at_ + r.rt, .retransmit)
  gaveUp : ∀ at_ r e, Entry.replied at_ r (.error e) ∈ s.log →
    ∃ t rest, sentAt r.call.id s.log = (t, r) :: rest ∧ t + r.rt ≤ at_

namespace Service
variable {clientID : Duid} {s s' : Service} {ev : Event} {r : Running}

namespace Clocked

/-- The exchange running is gone, and the log tells of nothing sent. -/
theorem quiet (h : s.Clocked) (hsent : ∀ id, sentAt id s'.log = sentAt id s.log)
    (hdata : s'.process.data = none)
    (hlog : ∀ at_ r e, Entry.replied at_ r (.error e) ∈ s'.log →
      Entry.replied at_ r (.error e) ∈ s.log ∨
        ∃ t rest, sentAt r.call.id s.log = (t, r) :: rest ∧ t + r.rt ≤ at_) : s'.Clocked where
  timed := by
    intro id at_ r rest hid
    exact h.timed id at_ r rest (hsent id ▸ hid)
  delaying := by simp [hdata]
  waiting := by simp [hdata]
  gaveUp := by
    intro at_ r e hr
    rw [hsent]
    rcases hlog at_ r e hr with hold | hnew
    · exact h.gaveUp at_ r e hold
    · exact hnew

/-- What was sent just now follows what was sent before. -/
theorem timed_sent (hinv : s.Invariant clientID) (h : s.Clocked) (hfair : s.Fair ev)
    (hfrom : Origin s ev r) (hcontinues : Continues { r with sent := r.sent + 1 }
      (sentBy r.call.id s.log)) :
    Timed r.call.x.timing
      ((s.now, { r with sent := r.sent + 1 }) :: sentAt r.call.id s.log) := by
  have hseries := hinv.lawful.series r.call.id
  have hfresh (hsent : r.sent = 0) (hnear : Near r.call.x.timing.irt r.rt) : Timed
      r.call.x.timing ((s.now, { r with sent := r.sent + 1 }) :: sentAt r.call.id s.log) := by
    cases hrest : sentAt r.call.id s.log with
    | nil => exact .first hnear
    | cons e rest =>
      rw [← sentAt_map_snd, hrest] at hcontinues hseries
      have hcount : e.2.sent = (rest.map Prod.snd).length + 1 := hseries.length_eq
      have hnext : r.sent + 1 = e.2.sent + 1 := hcontinues.2.2.1
      omega
  cases hfrom with
  | taken draws c rest hev hmailbox hr =>
    subst hev hr
    exact hfresh rfl (near_add (hfair c rest hmailbox))
  | delayed hphase hdata =>
    refine hfresh ?_ (h.delaying hphase r hdata)
    have hstage := hinv.stage
    rw [hphase, hdata] at hstage
    generalize s.process.timeout = timeout at hstage
    cases hstage with
    | delaying _ _ hsent _ _ => exact hsent
  | unanswered draws r₀ due hev hphase hdata htimeout hdue hr =>
    subst hev hr
    obtain ⟨at_, rest, hrest, harmed⟩ := h.waiting hphase r₀ hdata
    obtain ⟨hjitter, hceiling⟩ := hfair r₀ hdata
    rw [htimeout] at harmed
    cases harmed
    rw [show (again r₀ draws).call = r₀.call from rfl, hrest]
    exact (h.timed _ at_ r₀ rest hrest).cons (backsOff_nextRT hjitter hceiling) hdue

theorem sends (hinv : s.Invariant clientID) (h : s.Clocked) (hfair : s.Fair ev) {b : Bytes}
    (hlawful : Lawful clientID s'.log) (hfrom : Origin s ev r)
    (hphase : s'.process.phase = .waiting)
    (hdata : s'.process.data = some { r with sent := r.sent + 1 })
    (htimeout : s'.process.timeout = some (s.now + r.rt, .retransmit))
    (hlog : s'.log = .sent s.now { r with sent := r.sent + 1 } b :: s.log) : s'.Clocked := by
  rw [hlog] at hlawful
  obtain ⟨hopen, hcontinues, -⟩ := hlawful.1
  have hnew : sentAt r.call.id s'.log =
      (s.now, { r with sent := r.sent + 1 }) :: sentAt r.call.id s.log := by
    rw [hlog]
    exact sentAt_cons_sent (r := { r with sent := r.sent + 1 })
  have hold (id : ℕ) (hid : r.call.id ≠ id) : sentAt id s'.log = sentAt id s.log := by
    rw [hlog]
    exact sentAt_cons_other (r := { r with sent := r.sent + 1 }) hid
  constructor
  · intro id at_ r' rest hrest
    by_cases hid : r.call.id = id
    · subst hid
      have htimed := h.timed_sent hinv hfair hfrom hcontinues
      rw [← hnew, hrest] at htimed
      rw [hnew] at hrest
      cases hrest
      exact htimed
    · exact h.timed id at_ r' rest (hold id hid ▸ hrest)
  · intro hdelaying
    rw [hphase] at hdelaying
    cases hdelaying
  · intro _ r' hr'
    rw [hdata] at hr'
    cases hr'
    exact ⟨s.now, _, hnew, htimeout⟩
  · intro at_ r' e hr'
    rw [hlog] at hr'
    rcases List.mem_cons.mp hr' with heq | hmem
    · cases heq
    · have hne : r.call.id ≠ r'.call.id := by
        intro heq
        exact Lawful.replied_not_open hmem (heq ▸ hopen)
      rw [hold _ hne]
      exact h.gaveUp at_ r' e hmem

/-- Every step with fair draws keeps the times. -/
theorem step (hinv : s.Invariant clientID) (h : s.Clocked) (hfair : s.Fair ev) :
    (s.step clientID ev).Clocked := by
  have hlawful := (hinv.step ev).lawful
  rcases turn hinv ev with ⟨hphase, hdata, htimeout, hlog⟩ |
    ⟨draws, c, rest, hev, hmailbox, hphase, hdata, hlog⟩ |
    ⟨r, b, hfrom, hphase, hdata, htimeout, hlog⟩ | ⟨r, outcome, hrunning, hfailed, hdata, hlog⟩ |
    ⟨id, hdata, hlog⟩
  · have hsent (id : ℕ) : sentAt id (s.step clientID ev).log = sentAt id s.log := by
      rcases hlog with hlog | ⟨id', hlog⟩ <;> rw [hlog]
      rfl
    constructor
    · intro id at_ r rest hrest
      exact h.timed id at_ r rest (hsent id ▸ hrest)
    · rw [hphase, hdata]
      exact h.delaying
    · rw [hphase, hdata, htimeout]
      simpa only [hsent] using h.waiting
    · intro at_ r e hr
      rw [hsent]
      refine h.gaveUp at_ r e ?_
      rcases hlog with hlog | ⟨id', hlog⟩
      · exact hlog ▸ hr
      · simpa [hlog] using hr
  · subst hev
    constructor
    · rw [hlog]
      exact h.timed
    · intro _ r hr
      rw [hdata] at hr
      cases hr
      exact near_add (hfair c rest hmailbox)
    · intro hwaiting
      rw [hphase] at hwaiting
      cases hwaiting
    · rw [hlog]
      exact h.gaveUp
  · exact h.sends hinv hfair hlawful hfrom hphase hdata htimeout hlog
  · refine h.quiet (fun id => by rw [hlog]; rfl) hdata ?_
    intro at_ r' e hr'
    rw [hlog] at hr'
    rcases List.mem_cons.mp hr' with heq | hmem
    · cases heq
      obtain ⟨due, hdue, hle⟩ := hfailed e rfl
      obtain ⟨t, rest, hrest, harmed⟩ := h.waiting hrunning.1 r hrunning.2
      rw [hdue] at harmed
      cases harmed
      exact .inr ⟨t, rest, hrest, hle⟩
    · exact .inl hmem
  · refine h.quiet (fun id => by rw [hlog]; rfl) hdata ?_
    intro at_ r' e hr'
    exact .inl (by simpa [hlog] using hr')

end Clocked

theorem initial_clocked (now : ℤ) : (initial now).Clocked := by
  constructor <;> simp [initial, sentAt]

theorem run_clocked (clientID : Duid) (now : ℤ) {events : List Event}
    (h : Along (Service.step clientID) Fair (initial now) events) :
    (events.foldl (Service.step clientID) (initial now)).Clocked := by
  refine (h.invariant (I := fun s => s.Invariant clientID ∧ s.Clocked) ?_ ?_).2
  · intro s ev hs hfair
    exact ⟨hs.1.step ev, hs.2.step hs.1 hfair⟩
  · exact ⟨initial_invariant clientID now, initial_clocked now⟩

end Service

/-- A transmission with timeout `r.rt` at `at_`, after those in `earlier`. -/
structure Paced (timing : Timing) (earlier : List (ℤ × Running)) (at_ : ℤ) (r : Running) :
    Prop where
  waited : ∀ e ∈ earlier, 0 < e.2.rt ∧ e.1 + e.2.rt ≤ at_
  grown : 9 * timing.irt * 19 ^ earlier.length ≤ 10 ^ (earlier.length + 1) * r.rt ∨
    timing.mrt ≠ 0 ∧ 9 * timing.mrt ≤ 10 * r.rt
  bounded : timing.mrt ≠ 0 → 10 * r.rt ≤ 11 * timing.mrt
  counted : timing.mrc ≠ 0 → earlier.length < timing.mrc
  elapsed : ∀ first, earlier.getLast? = some first →
    0 < r.elapsed ∧ first.1 + r.elapsed ≤ at_

namespace Service
variable {clientID : Duid} {s : Service} {id : ℕ} {x : Exchange}

theorem Invariant.issued_sent (h : s.Invariant clientID) (hx : s.issued[id]? = some x) :
    ∀ r ∈ sentBy id s.log, r.call.x = x := by
  intro r hr
  obtain ⟨at_, b, hmem, rfl⟩ := Lawful.mem_sentBy hr
  have hmade : s.issued[r.call.id]? = some r.call.x := h.logMade _ hmem
  exact Option.some.inj (hmade.symm.trans hx)

/-- What was sent for a call is timed by what it asked for. -/
theorem Clocked.timed_issued (hinv : s.Invariant clientID) (h : s.Clocked)
    (hx : s.issued[id]? = some x) : Timed x.timing (sentAt id s.log) := by
  cases hsent : sentAt id s.log with
  | nil => exact ⟨trivial, .nil⟩
  | cons e rest =>
    have hmem : e.2 ∈ sentBy id s.log := by
      rw [← sentAt_map_snd, hsent]
      exact List.mem_cons_self
    rw [← hinv.issued_sent hx e.2 hmem]
    exact h.timed id e.1 e.2 rest hsent

theorem Clocked.paced (hinv : s.Invariant clientID) (h : s.Clocked)
    (hx : s.issued[id]? = some x) (hirt : 0 < x.timing.irt)
    (hmrt : x.timing.mrt = 0 ∨ x.timing.irt ≤ x.timing.mrt) {later earlier : List (ℤ × Running)}
    {at_ : ℤ} {r : Running} (hsent : sentAt id s.log = later ++ (at_, r) :: earlier) :
    Paced x.timing earlier at_ r := by
  have hnonneg : 0 ≤ x.timing.mrt := by omega
  have htimed := h.timed_issued hinv hx
  rw [hsent] at htimed
  have htimed := htimed.of_append
  have hseries : Series (((at_, r) :: earlier).map Prod.snd) := by
    have hall := hinv.lawful.series id
    rw [← sentAt_map_snd, hsent, List.map_append] at hall
    exact hall.of_append
  have hmem : r ∈ sentBy id s.log := by
    rw [← sentAt_map_snd, hsent]
    simp
  constructor
  · exact htimed.waited_all hirt hnonneg
  · simpa using (htimed.backoff.lower hirt hnonneg).2
  · intro hne
    exact htimed.backoff.upper hne (by omega) hnonneg
  · intro hmrc
    obtain ⟨at', b, hlogged, -⟩ := Lawful.mem_sentBy hmem
    have hmost := (hinv.lawful.sent_spec hlogged).1
    rw [hinv.issued_sent hx r hmem] at hmost
    have hcount : r.sent = (earlier.map Prod.snd).length + 1 := hseries.length_eq
    rw [List.length_map] at hcount
    have := hmost hmrc
    omega
  · intro first hfirst
    exact htimed.elapsed_le hseries hirt hnonneg hfirst

theorem Clocked.givenUp (hinv : s.Invariant clientID) (h : s.Clocked) {at_ : ℤ} {r : Running}
    {e : ExchangeError} (hr : Entry.replied at_ r (.error e) ∈ s.log) :
    r.call.x.timing.mrc ≠ 0 ∧ (sentAt r.call.id s.log).length = r.call.x.timing.mrc ∧
      ∃ t rest, sentAt r.call.id s.log = (t, r) :: rest ∧ t + r.rt ≤ at_ := by
  obtain ⟨-, -, hmrc, hlength⟩ := hinv.replied hr
  rw [← sentAt_map_snd, List.length_map] at hlength
  exact ⟨hmrc, hlength, h.gaveUp at_ r e hr⟩

end Service

/-- Whatever happens to a client, an exchange is transmitted at intervals that start near IRT, grow
by at least nine tenths each time until they are near MRT and never exceed it by more than a tenth;
its messages never state more elapsed time than has passed; and it is given up only when its last
transmission has gone unanswered. -/
theorem retransmissions_paced (clientID : Duid) (now : ℤ) (events : List Service.Event)
    (hfair : Along (Service.step clientID) Service.Fair (Service.initial now) events) :
    let s := events.foldl (Service.step clientID) (Service.initial now)
    (∀ id x, s.issued[id]? = some x → 0 < x.timing.irt →
      (x.timing.mrt = 0 ∨ x.timing.irt ≤ x.timing.mrt) →
        ∀ later at_ r earlier, sentAt id s.log = later ++ (at_, r) :: earlier →
          Paced x.timing earlier at_ r) ∧
      ∀ at_ r e, Entry.replied at_ r (.error e) ∈ s.log →
        r.call.x.timing.mrc ≠ 0 ∧ (sentAt r.call.id s.log).length = r.call.x.timing.mrc ∧
          ∃ t rest, sentAt r.call.id s.log = (t, r) :: rest ∧ t + r.rt ≤ at_ := by
  intro s
  have hinv := Service.run_invariant clientID now events
  have hclocked := Service.run_clocked clientID now hfair
  constructor
  · intro id x hx hirt hmrt later at_ r earlier hsent
    exact hclocked.paced hinv hx hirt hmrt hsent
  · intro at_ r e hr
    exact hclocked.givenUp hinv hr

/-- A Release that nobody answers. Its first timeout is drawn as short as it may be. -/
def releaseUnanswered : List Service.Event :=
  [.call (release []), .next ⟨default, -(second / 10), 0, 0⟩] ++
    (List.range 5).flatMap fun k => [.elapse ((k + 1) * 20 * second), .timeout Service.noDraws]

theorem retransmissions_paced_release :
    let s := releaseUnanswered.foldl (Service.step default) (Service.initial 0)
    (sentAt 0 s.log).map (fun e => (e.1, e.2.rt, e.2.elapsed)) =
        [(80 * second, 14400000000, 13500000000), (60 * second, 7200000000, 6300000000),
          (40 * second, 3600000000, 2700000000), (20 * second, 1800000000, 900000000),
          (0, 900000000, 0)] ∧
      (∃ at_ r e rest, s.log = Entry.replied at_ r (.error e) :: rest) ∧
      ∀ later at_ r earlier, sentAt 0 s.log = later ++ (at_, r) :: earlier →
        Paced (release []).timing earlier at_ r := by
  refine ⟨by decide +kernel, ⟨_, _, _, _, rfl⟩, ?_⟩
  refine (retransmissions_paced default 0 releaseUnanswered ?_).1 0 _ rfl (by decide) (by decide)
  refine ⟨trivial, ?_, trivial, ?_, trivial, ?_, trivial, ?_, trivial, ?_, trivial, ?_, trivial⟩
  · intro c rest hmailbox
    cases hmailbox
    decide
  all_goals
    intro r hr
    cases hr
    decide

end Minuteman.Dhcpv6
