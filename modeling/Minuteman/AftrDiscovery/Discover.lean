import Minuteman.Dhcpv6.Exchanges
import Minuteman.Library.Interference

/-!
# AFTR discovery over a shared client

`pkg/aftrdiscovery`: `Discover` asks for information through the WAN's DHCPv6
client, which prefix delegation uses too, and gives up after a time. That it
gave up means that nothing answered only if its request got its turn.
-/
namespace Minuteman.AftrDiscovery
open Library Dhcpv6 Client

def optionInformationRefreshTime : UInt16 := 32
def optionAFTRName : UInt16 := 64

def question : Exchange :=
  informationRequest [optionDNSServers, optionAFTRName, optionInformationRefreshTime]

/-- What `Discover` comes to: it goes on with a Reply, or returns `ErrNoReply` or another error. -/
inductive Verdict where
  | reply (m : Message)
  | noReply
  | failed (e : ExchangeError)

structure Pending where
  id : ℕ
  started : ℤ
  deadline : Option ℤ

/-- A `Discover` whose exchange is over, with the client's log at that time. -/
structure Returned where
  pending : Pending
  verdict : Verdict
  log : List Entry

def Pending.verdict (p : Pending) : Except ExchangeError Message → Verdict
  | .ok m => .reply m
  | .error e => if p.deadline.isSome ∧ e = .deadlineExceeded then .noReply else .failed e

structure World where
  service : Service
  pending : Option Pending
  returned : List Returned

namespace World

def finish (w : World) (p : Pending) (verdict : Verdict) : World :=
  { w with pending := none, returned := ⟨p, verdict, w.service.log⟩ :: w.returned }

def settle (w : World) : World :=
  match w.pending with
  | none => w
  | some p =>
    match repliesTo p.id w.service.log with
    | [] => w
    | outcome :: _ => w.finish p (p.verdict outcome)

inductive Event where
  | service (ev : Service.Event)
  | discover (replyTimeout : ℤ)
  | deadline
  | cancel
  | clientFails

/-- Whether the client may see this now: a call is abandoned only once it is no longer awaited. -/
def admits (w : World) : Service.Event → Bool
  | .abandon id => w.pending.all fun p => p.id ≠ id
  | _ => true

def step (clientID : Duid) (w : World) : Event → World
  | .service ev =>
    if w.admits ev then settle { w with service := w.service.step clientID ev } else w
  | .discover replyTimeout =>
    match w.pending with
    | some _ => w
    | none =>
      { w with
        service := w.service.step clientID (.call question)
        pending := some
          { id := w.service.issued.length
            started := w.service.now
            deadline := if replyTimeout > 0 then some (w.service.now + replyTimeout) else none } }
  | .deadline =>
    match w.pending with
    | some p =>
      match p.deadline with
      | some due =>
        if due ≤ w.service.now then w.finish p (p.verdict (.error .deadlineExceeded)) else w
      | none => w
    | none => w
  | .cancel =>
    match w.pending with
    | some p => w.finish p (.failed .deadlineExceeded)
    | none => w
  | .clientFails =>
    let w' := { w with service := { w.service with process := ⟨.idle, none, none, [], []⟩ } }
    match w.pending with
    | some p => w'.finish p (p.verdict (.error .clientFailed))
    | none => w'

def initial (now : ℤ) : World := ⟨Service.initial now, none, []⟩

end World

/-- The question was sent within the time given, and not answered. -/
def Returned.Meant (r : Returned) : Prop :=
  (∃ at_ t b, Entry.sent at_ t b ∈ r.log ∧ t.call = ⟨r.pending.id, question⟩ ∧
    r.pending.started ≤ at_ ∧ ∀ due, r.pending.deadline = some due → at_ ≤ due) ∧
  repliesTo r.pending.id r.log = []

/-- `ErrNoReply` only ever meant that nothing answered. -/
def Truthful (w : World) : Prop := ∀ r ∈ w.returned, r.verdict = .noReply → r.Meant

/-- The question waits behind other exchanges no longer than there is still time for its own delay,
which it has from the start; timeouts are handled before time goes on; delays are drawn from their
range. -/
def Unobstructed (w : World) : World.Event → Prop
  | .discover replyTimeout => replyTimeout > 0 → question.timing.initialDelayMax < replyTimeout
  | .service (.elapse t) =>
      (∀ due msg, w.service.process.timeout = some (due, msg) → t ≤ due) ∧
        ∀ p due, w.pending = some p → p.deadline = some due →
          ⟨p.id, question⟩ ∈ w.service.process.waiting → t + question.timing.initialDelayMax < due
  | .service (.next draws) => ∀ c ∈ w.service.process.mailbox,
      initialDelay c.x.timing.initialDelayMax draws ≤ c.x.timing.initialDelayMax
  | _ => True

inductive InTime (s : Service) (p : Pending) (due : ℤ) : Prop where
  | sent (at_ : ℤ) (r : Running) (b : Bytes) : Entry.sent at_ r b ∈ s.log →
      r.call = ⟨p.id, question⟩ → p.started ≤ at_ → at_ ≤ due → InTime s p due
  | delayed (r : Running) (t : ℤ) : s.process.phase = .delaying → s.process.data = some r →
      s.process.timeout = some (t, .transmit) → r.call = ⟨p.id, question⟩ → p.started ≤ s.now →
      s.now ≤ t → t < due → InTime s p due
  | waiting : ⟨p.id, question⟩ ∈ s.process.waiting → p.started ≤ s.now →
      s.now + question.timing.initialDelayMax < due → InTime s p due

section InTime
variable {clientID : Duid} {s : Service} {p : Pending} {due : ℤ}

def Clear (s : Service) (id : ℕ) (due : ℤ) : Service.Event → Prop
  | .elapse t => (∀ due msg, s.process.timeout = some (due, msg) → t ≤ due) ∧
      (⟨id, question⟩ ∈ s.process.waiting → t + question.timing.initialDelayMax < due)
  | .next draws => ∀ c ∈ s.process.mailbox,
      initialDelay c.x.timing.initialDelayMax draws ≤ c.x.timing.initialDelayMax
  | .abandon id' => id ≠ id'
  | _ => True

theorem InTime.log {s' : Service} {at_ : ℤ} {r : Running} {b : Bytes} {ev : Service.Event}
    (h : Entry.sent at_ r b ∈ s.log) (hs' : s' = s.step clientID ev) :
    Entry.sent at_ r b ∈ s'.log := by
  obtain ⟨added, hlog, -⟩ := Service.step_log clientID s ev
  rw [hs', hlog]
  exact List.mem_append_right added h

theorem InTime.step_delayed {r : Running} {t : ℤ} {ev : Service.Event}
    (hphase : s.process.phase = .delaying) (hdata : s.process.data = some r)
    (htimeout : s.process.timeout = some (t, .transmit)) (hcall : r.call = ⟨p.id, question⟩)
    (hstarted : p.started ≤ s.now) (hnow : s.now ≤ t) (hlt : t < due)
    (hclear : Clear s p.id due ev) : InTime (s.step clientID ev) p due := by
  cases ev with
  | elapse t' =>
    have hle := hclear.1 t _ htimeout
    exact .delayed r t hphase hdata htimeout hcall (hstarted.trans (le_max_left _ _))
      (max_le hnow hle) hlt
  | call x => exact .delayed r t hphase hdata htimeout hcall hstarted hnow hlt
  | next draws =>
    rw [Service.step]
    cases s.process.mailbox with
    | nil => exact .delayed r t hphase hdata htimeout hcall hstarted hnow hlt
    | cons c mailbox =>
      refine .delayed r t ?_ ?_ ?_ hcall hstarted hnow hlt <;>
        simp [Service.conclude, handleEvent, hphase, hdata, htimeout, Process.conclude,
          Process.enter, Process.perform]
  | abandon id =>
    have hne : id ≠ r.call.id := by
      rw [hcall]
      exact Ne.symm hclear
    rw [Service.step]
    split_ifs
    · refine .delayed r t ?_ ?_ ?_ hcall hstarted hnow hlt <;>
        simp [Service.conclude, handleEvent, hphase, hdata, htimeout, Process.conclude,
          Process.enter, Process.discard, hne]
    · exact .delayed r t hphase hdata htimeout hcall hstarted hnow hlt
  | timeout draws =>
    rw [Service.step, htimeout]
    dsimp only
    split_ifs
    · refine .sent s.now { r with sent := r.sent + 1 }
        (r.call.x.message r.xid clientID r.elapsed).marshalBinary ?_ hcall hstarted (by omega)
      simp [Service.conclude, handleEvent, hdata, send, Process.outs, Service.entry]
    · exact .delayed r t hphase hdata htimeout hcall hstarted hnow hlt
  | deliver b =>
    rw [Service.step]
    split_ifs <;> exact .delayed r t hphase hdata htimeout hcall hstarted hnow hlt
  | receive =>
    rw [Service.step]
    cases s.queued with
    | nil => exact .delayed r t hphase hdata htimeout hcall hstarted hnow hlt
    | cons b queued =>
      refine .delayed r t ?_ ?_ ?_ hcall hstarted hnow hlt <;>
        simp [Service.conclude, handleEvent, hphase, hdata, htimeout, Process.conclude,
          Process.enter]
  | sendError armed =>
    refine .delayed r t ?_ ?_ ?_ hcall hstarted hnow hlt <;>
      simp [Service.step, Service.conclude, handleEvent, hphase, hdata, htimeout,
        Process.conclude, Process.enter]

/-- The question waits behind another exchange, or is taken up. -/
theorem InTime.step_waiting {ev : Service.Event} (hwaits : ⟨p.id, question⟩ ∈ s.process.waiting)
    (hstarted : p.started ≤ s.now) (hlt : s.now + question.timing.initialDelayMax < due)
    (hclear : Clear s p.id due ev) : InTime (s.step clientID ev) p due := by
  have hkept : ev ≠ .abandon p.id := by
    rintro rfl
    exact hclear rfl
  rcases Service.waiting_step hwaits hkept with hstill | ⟨draws, mailbox, rfl, hphase, hmailbox⟩
  · refine .waiting hstill (hstarted.trans (Service.step_now clientID s ev)) ?_
    by_cases helapse : ∃ t, ev = .elapse t
    · obtain ⟨t, rfl⟩ := helapse
      have hroom := hclear.2 hwaits
      change max s.now t + _ < due
      omega
    · rw [Service.step_now_eq fun t ht => helapse ⟨t, ht⟩]
      exact hlt
  · have hdelay := hclear ⟨p.id, question⟩ (by simp [hmailbox])
    rw [Service.step, hmailbox]
    dsimp only [handleEvent, start]
    rw [if_neg (by simp [hphase])]
    split_ifs with hpositive
    · refine .delayed ⟨⟨p.id, question⟩, draws.xid, firstRT question.timing.irt draws, 0, 0⟩
        (s.now + initialDelay question.timing.initialDelayMax draws) ?_ ?_ ?_ rfl hstarted ?_ ?_
      · exact Process.conclude_phase _
      · exact Process.conclude_data _
      · rfl
      · dsimp only [Service.conclude]
        omega
      · dsimp only at hdelay
        omega
    · refine .sent s.now _ _ (List.mem_cons_self) rfl hstarted ?_
      have hnonneg : 0 ≤ question.timing.initialDelayMax := by decide
      omega

theorem InTime.step (h : InTime s p due) {ev : Service.Event} (hclear : Clear s p.id due ev) :
    InTime (s.step clientID ev) p due := by
  cases h with
  | sent at_ r b hmem hcall hstarted hdue =>
    exact .sent at_ r b (InTime.log hmem rfl) hcall hstarted hdue
  | delayed r t hphase hdata htimeout hcall hstarted hnow hlt =>
    exact InTime.step_delayed hphase hdata htimeout hcall hstarted hnow hlt hclear
  | waiting hwaits hstarted hlt => exact InTime.step_waiting hwaits hstarted hlt hclear

end InTime

structure Watching (clientID : Duid) (w : World) : Prop where
  sound : w.service.Invariant clientID
  unanswered : ∀ p, w.pending = some p → repliesTo p.id w.service.log = []
  inTime : ∀ p, w.pending = some p → ∀ due, p.deadline = some due → InTime w.service p due
  truthful : Truthful w

namespace Watching
variable {clientID : Duid} {w : World}

theorem finish (h : Watching clientID w) {p : Pending} {verdict : Verdict}
    (hmeant : verdict = .noReply → Returned.Meant ⟨p, verdict, w.service.log⟩) :
    Watching clientID (w.finish p verdict) := by
  refine ⟨h.sound, ?_, ?_, ?_⟩
  · rintro p' ⟨⟩
  · rintro p' ⟨⟩
  · exact List.forall_mem_cons.mpr ⟨hmeant, h.truthful⟩

/-- A reply of the client is never taken for the want of one. -/
theorem verdict_ne {p : Pending} {outcome : Except ExchangeError Message}
    (hsound : w.service.Invariant clientID) (ho : outcome ∈ repliesTo p.id w.service.log) :
    p.verdict outcome ≠ .noReply := by
  obtain ⟨at_, r, hr, -⟩ := Lawful.mem_repliesTo ho
  have hfits := (hsound.lawful.replied_spec hr).2
  cases outcome with
  | ok m => simp [Pending.verdict]
  | error e =>
    obtain ⟨rfl, -⟩ := hfits
    simp [Pending.verdict]

theorem clear {ev : Service.Event} (hev : Unobstructed w (.service ev)) (hadmits : w.admits ev)
    {p : Pending} (hp : w.pending = some p) {due : ℤ} (hdue : p.deadline = some due) :
    Clear w.service p.id due ev := by
  cases ev with
  | abandon id => simpa [World.admits, hp, Clear] using hadmits
  | elapse t => exact ⟨hev.1, hev.2 p due hp hdue⟩
  | next draws => exact hev
  | _ => trivial

theorem service (h : Watching clientID w) {ev : Service.Event}
    (hev : Unobstructed w (.service ev)) :
    Watching clientID (w.step clientID (.service ev)) := by
  rw [World.step]
  split_ifs with hadmits
  · have hsound := h.sound.step ev
    rw [World.settle]
    split
    · next hnone =>
      refine ⟨hsound, ?_, ?_, h.truthful⟩ <;> intro p hp <;> cases hnone.symm.trans hp
    · next p hp =>
      have hinTime : ∀ due, p.deadline = some due → InTime (w.service.step clientID ev) p due :=
        fun due hdue => (h.inTime p hp due hdue).step (clear hev hadmits hp hdue)
      split
      · next hnone =>
        refine ⟨hsound, ?_, ?_, h.truthful⟩
        · intro p' hp'
          cases hp.symm.trans hp'
          exact hnone
        · intro p' hp'
          cases hp.symm.trans hp'
          exact hinTime
      · next outcome rest hreply =>
        have hne := verdict_ne (w := { w with service := w.service.step clientID ev }) (p := p)
          hsound (hreply ▸ List.mem_cons_self)
        refine ⟨hsound, by rintro p' ⟨⟩, by rintro p' ⟨⟩, ?_⟩
        exact List.forall_mem_cons.mpr ⟨fun hnoReply => absurd hnoReply hne, h.truthful⟩
  · exact h

theorem discover (h : Watching clientID w) {replyTimeout : ℤ}
    (hev : Unobstructed w (.discover replyTimeout)) :
    Watching clientID (w.step clientID (.discover replyTimeout)) := by
  rw [World.step]
  split
  · exact h
  · next hnone =>
    refine ⟨h.sound.step (.call question), ?_, ?_, h.truthful⟩
    · rintro p ⟨⟩
      apply Lawful.repliesTo_eq_nil
      apply Untouched.isOpen
      intro e he
      exact (h.sound.logMade e he).lt.ne
    · rintro p ⟨⟩ due hdue
      dsimp only at hdue
      split_ifs at hdue with hpositive
      cases hdue
      have hwaits : ⟨w.service.issued.length, question⟩ ∈
          (w.service.step clientID (.call question)).process.waiting := by
        rw [Service.step, Process.waiting_arrive]
        exact List.mem_append_right _ List.mem_cons_self
      refine .waiting hwaits le_rfl ?_
      have hlonger := hev hpositive
      change w.service.now + _ < _
      omega

theorem deadline (h : Watching clientID w) : Watching clientID (w.step clientID .deadline) := by
  rw [World.step]
  split
  · next p hp =>
    split
    · next due hdeadline =>
      split_ifs with hdue
      · apply h.finish
        intro _
        refine ⟨?_, h.unanswered p hp⟩
        cases h.inTime p hp due hdeadline with
        | sent at_ r b hmem hcall hstarted hle =>
          refine ⟨at_, r, b, hmem, hcall, hstarted, ?_⟩
          intro due' hdue'
          cases hdeadline.symm.trans hdue'
          exact hle
        | delayed r t _ _ _ _ _ hnow hlt => omega
        | waiting _ _ hlt =>
          have hnonneg : 0 ≤ question.timing.initialDelayMax := by decide
          omega
      · exact h
    · exact h
  · exact h

theorem clientFails (h : Watching clientID w) :
    Watching clientID (w.step clientID .clientFails) := by
  have hfresh : Watching clientID { w with
      service := { w.service with process := ⟨.idle, none, none, [], []⟩ }, pending := none } := by
    exact ⟨h.sound.toIdle.sublist (List.nil_sublist _), by rintro p ⟨⟩, by rintro p ⟨⟩,
      h.truthful⟩
  rw [World.step]
  dsimp only
  split
  · next p hp =>
    apply hfresh.finish
    intro hnoReply
    simp [Pending.verdict] at hnoReply
  · next hnone =>
    rw [hnone]
    exact hfresh

theorem cancel (h : Watching clientID w) : Watching clientID (w.step clientID .cancel) := by
  rw [World.step]
  split
  · apply h.finish
    intro hnoReply
    cases hnoReply
  · exact h

end Watching

/-- In every run in which each question gets its turn in time, `ErrNoReply` means that nothing
answered. -/
theorem no_reply_truthful {clientID : Duid} {now : ℤ} {events : List World.Event}
    (h : Along (World.step clientID) Unobstructed (World.initial now) events) :
    Truthful (events.foldl (World.step clientID) (World.initial now)) := by
  have hinitial : Watching clientID (World.initial now) := by
    refine ⟨Service.initial_invariant clientID now, by rintro p ⟨⟩, by rintro p ⟨⟩, ?_⟩
    intro r hr
    cases hr
  refine (h.invariant ?_ hinitial).truthful
  intro w ev hw hev
  cases ev with
  | service ev => exact hw.service hev
  | discover replyTimeout => exact hw.discover hev
  | deadline => exact hw.deadline
  | cancel => exact hw.cancel
  | clientFails => exact hw.clientFails

/-- A Solicit is given up after half a second, and nothing answers in the two seconds allowed. -/
def silentEvents : List World.Event :=
  [.service (.call (solicit [])), .service (.next Service.noDraws), .discover (2 * second),
    .service (.next Service.noDraws), .service (.elapse (second / 2)), .service (.abandon 0),
    .service (.next Service.noDraws), .service (.elapse (3 * second / 2)),
    .service (.timeout Service.noDraws), .service (.elapse (2 * second)), .deadline]

theorem no_reply_truthful_silent :
    Along (World.step [9]) Unobstructed (World.initial 0) silentEvents ∧
      Truthful (silentEvents.foldl (World.step [9]) (World.initial 0)) := by
  have hprompt : ∀ (s : Service) (t : ℤ), (s.process.timeout.all fun timer => t ≤ timer.1) = true →
      ∀ due msg, s.process.timeout = some (due, msg) → t ≤ due := by
    intro s t hall due msg htimeout
    simpa [htimeout] using hall
  have hasked : ∀ (w : World) (t : ℤ),
      (w.service.process.timeout.all fun timer => t ≤ timer.1) = true →
      w.service.process.waiting.isEmpty = true → Unobstructed w (.service (.elapse t)) := by
    intro w t hall hempty
    refine ⟨hprompt _ _ hall, fun p due _ _ hmem => ?_⟩
    rw [List.isEmpty_iff.mp hempty] at hmem
    cases hmem
  have hdelay : ∀ (w : World) (c : Call), w.service.process.mailbox = [c] →
      0 ≤ c.x.timing.initialDelayMax → Unobstructed w (.service (.next Service.noDraws)) := by
    intro w c hmailbox hmax c' hc'
    rw [hmailbox] at hc'
    cases List.mem_singleton.mp hc'
    simpa [initialDelay, Service.noDraws] using hmax
  have hclear : Along (World.step [9]) Unobstructed (World.initial 0) silentEvents := by
    refine ⟨trivial, hdelay _ _ rfl (by decide), fun _ => by decide, hdelay _ _ rfl (by decide),
      ⟨hprompt _ _ (by decide +kernel), ?_⟩, trivial, hdelay _ _ rfl (by decide),
      hasked _ _ (by decide +kernel) (by decide +kernel), trivial,
      hasked _ _ (by decide +kernel) (by decide +kernel), trivial, trivial⟩
    rintro p due ⟨⟩ ⟨⟩ -
    decide
  exact ⟨hclear, no_reply_truthful hclear⟩

/-- A Solicit of prefix delegation is running, and stays unanswered. -/
def queuedEvents : List World.Event :=
  [.service (.call (solicit [])), .service (.next Service.noDraws), .discover (2 * second),
    .service (.next Service.noDraws), .service (.elapse second),
    .service (.timeout Service.noDraws), .service (.elapse (2 * second)), .deadline]

/-- A discovery behind another exchange reports no reply to a question it never sent. -/
theorem queued_question_reports_no_reply :
    ¬ Truthful (queuedEvents.foldl (World.step [9]) (World.initial 0)) := by
  intro h
  set w := queuedEvents.foldl (World.step [9]) (World.initial 0) with hw
  have hreturned : w.returned.any (fun r => (match r.verdict with
      | .noReply => true
      | _ => false) && (sentBy r.pending.id r.log).isEmpty) = true := by
    rw [hw]
    decide +kernel
  obtain ⟨r, hr, hboth⟩ := List.any_eq_true.mp hreturned
  rw [Bool.and_eq_true, List.isEmpty_iff] at hboth
  have hverdict : r.verdict = .noReply := by
    cases hv : r.verdict with
    | noReply => rfl
    | reply m => simp [hv] at hboth
    | failed e => simp [hv] at hboth
  obtain ⟨⟨at_, t, b, hsent, hcall, -⟩, -⟩ := h r hr hverdict
  have hmem : t ∈ sentBy r.pending.id r.log :=
    List.mem_filterMap.mpr ⟨.sent at_ t b, hsent, by simp [hcall]⟩
  rw [hboth.2] at hmem
  cases hmem

end Minuteman.AftrDiscovery
