import Minuteman.Dhcpv6.Service

/-!
# What becomes of an exchange

The log of a client process is lawful: each entry may follow those before it.
Exclusion, single replies, retransmission and abandonment are read off that.
-/
namespace Minuteman.Dhcpv6
open Library Client

def sentBy (id : ℕ) (log : List Entry) : List Running :=
  log.filterMap fun e =>
    match e with
    | .sent _ r _ => if r.call.id = id then some r else none
    | _ => none

def repliesTo (id : ℕ) (log : List Entry) : List (Except ExchangeError Message) :=
  log.filterMap fun e =>
    match e with
    | .replied _ r outcome => if r.call.id = id then some outcome else none
    | _ => none

def Untouched (id : ℕ) (log : List Entry) : Prop := ∀ e ∈ log, e.id ≠ id

def Open (id : ℕ) (log : List Entry) : Prop :=
  ∀ e ∈ log, e.id = id → ∃ at_ r b, e = .sent at_ r b

/-- The transmission `r` follows the ones listed. -/
def Continues (r : Running) : List Running → Prop
  | [] => r.sent = 1 ∧ r.elapsed = 0
  | r₀ :: _ => r.call = r₀.call ∧ r.xid = r₀.xid ∧ r.sent = r₀.sent + 1 ∧
      r.elapsed = r₀.elapsed + r₀.rt

def Fits (clientID : Duid) (r : Running) : Except ExchangeError Message → Prop
  | .ok m => r.call.x.answers m r.xid clientID = true
  | .error e => e = .exhausted ∧ r.call.x.timing.mrc ≠ 0 ∧ r.call.x.timing.mrc ≤ r.sent

/-- The entry may follow the log. -/
def Permitted (clientID : Duid) (log : List Entry) : Entry → Prop
  | .sent _ r b => Open r.call.id log ∧ Continues r (sentBy r.call.id log) ∧
      (r.call.x.timing.mrc ≠ 0 → r.sent ≤ r.call.x.timing.mrc) ∧
      b = (r.call.x.message r.xid clientID r.elapsed).marshalBinary
  | .replied _ r outcome => Open r.call.id log ∧ (∃ rs, sentBy r.call.id log = r :: rs) ∧
      Fits clientID r outcome
  | .abandoned _ _ => True

def Lawful (clientID : Duid) : List Entry → Prop
  | [] => True
  | e :: log => Permitted clientID log e ∧ Lawful clientID log

/-- The phase, the exchange running in it and its timeout belong together. -/
inductive Stage (log : List Entry) : Phase → Option Running → Option (ℤ × Timer) → Prop where
  | idle : Stage log .idle none none
  | delaying (r : Running) (due : ℤ) : r.sent = 0 → r.elapsed = 0 → Untouched r.call.id log →
      Stage log .delaying (some r) (some (due, .transmit))
  | waiting (r : Running) (due : ℤ) (rs : List Running) : sentBy r.call.id log = r :: rs →
      Open r.call.id log → Stage log .waiting (some r) (some (due, .retransmit))

/-- The exchange asked for is the one of the call. -/
def Made (issued : List Exchange) (c : Call) : Prop := issued[c.id]? = some c.x

def Entry.Made (issued : List Exchange) : Entry → Prop
  | .sent _ r _ => Dhcpv6.Made issued r.call
  | .replied _ r _ => Dhcpv6.Made issued r.call
  | .abandoned _ id => id < issued.length

/-- The invariant of the client, apart from its socket: the calls waiting have left no trace, and
the one running is none of them. -/
structure Sound (clientID : Duid) (issued : List Exchange) (log : List Entry) (phase : Phase)
    (data : Option Running) (timeout : Option (ℤ × Timer)) (waiting : List Call) : Prop where
  stage : Stage log phase data timeout
  distinct : (waiting.map Call.id).Nodup
  untouched : ∀ c ∈ waiting, Untouched c.id log
  apart : ∀ c ∈ waiting, ∀ r, data = some r → r.call.id ≠ c.id
  waitingMade : ∀ c ∈ waiting, Made issued c
  runningMade : ∀ r, data = some r → Made issued r.call
  logMade : ∀ e ∈ log, e.Made issued
  lawful : Lawful clientID log

section Log
variable {id : ℕ} {log : List Entry} {e : Entry} {at_ : ℤ} {r : Running} {b : Bytes}

theorem Untouched.cons (h : Untouched id log) (he : e.id ≠ id) : Untouched id (e :: log) :=
  List.forall_mem_cons.mpr ⟨he, h⟩

theorem Untouched.isOpen (h : Untouched id log) : Open id log :=
  fun e he hid => absurd hid (h e he)

theorem Open.cons (h : Open id log) (he : e.id ≠ id) : Open id (e :: log) :=
  List.forall_mem_cons.mpr ⟨fun hid => absurd hid he, h⟩

theorem Open.of_append {added : List Entry} (h : Open id (added ++ log)) : Open id log :=
  fun e he => h e (List.mem_append_right _ he)

theorem Open.sent (h : Open id log) : Open id (.sent at_ r b :: log) :=
  List.forall_mem_cons.mpr ⟨fun _ => ⟨at_, r, b, rfl⟩, h⟩

theorem sentBy_cons_of_ne (he : e.id ≠ id) : sentBy id (e :: log) = sentBy id log := by
  cases e with
  | sent at_ r b =>
    have hne : ¬ r.call.id = id := he
    simp [sentBy, hne]
  | replied at_ r outcome => rfl
  | abandoned at_ id' => rfl

theorem sentBy_cons_sent : sentBy r.call.id (.sent at_ r b :: log) = r :: sentBy r.call.id log := by
  simp [sentBy]

theorem Untouched.sentBy (h : Untouched id log) : sentBy id log = [] := by
  induction log with
  | nil => rfl
  | cons e log ih =>
    rw [sentBy_cons_of_ne (h e (by simp))]
    exact ih fun e he => h e (by simp [he])

theorem Stage.cons {phase : Phase} {data : Option Running} {timeout : Option (ℤ × Timer)}
    (h : Stage log phase data timeout) (he : ∀ r, data = some r → e.id ≠ r.call.id) :
    Stage (e :: log) phase data timeout := by
  cases h with
  | idle => exact .idle
  | delaying r due hsent helapsed huntouched =>
    exact .delaying r due hsent helapsed (huntouched.cons (he r rfl))
  | waiting r due rs hrs hopen =>
    refine .waiting r due rs ?_ (hopen.cons (he r rfl))
    rw [sentBy_cons_of_ne (he r rfl), hrs]

theorem Stage.idle_iff {phase : Phase} {data : Option Running} {timeout : Option (ℤ × Timer)}
    (h : Stage log phase data timeout) :
    (phase = .idle ↔ data = none) ∧ (phase = .idle ↔ timeout = none) := by
  cases h <;> simp

theorem Stage.running {data : Option Running} {timeout : Option (ℤ × Timer)}
    (h : Stage log .waiting data timeout) : ∃ r, data = some r := by
  cases h with
  | waiting r due rs hrs hopen => exact ⟨r, rfl⟩

end Log

section Made
variable {issued : List Exchange} {c : Call} {x : Exchange} {e : Entry}

theorem Made.lt (h : Made issued c) : c.id < issued.length :=
  (List.getElem?_eq_some_iff.mp h).1

theorem Made.issue (h : Made issued c) : Made (issued ++ [x]) c := by
  rw [Made, List.getElem?_append_left h.lt]
  exact h

theorem Entry.Made.lt (h : e.Made issued) : e.id < issued.length := by
  cases e with
  | sent at_ r b => exact Dhcpv6.Made.lt h
  | replied at_ r outcome => exact Dhcpv6.Made.lt h
  | abandoned at_ id => exact h

theorem Entry.Made.issue (h : e.Made issued) : e.Made (issued ++ [x]) := by
  cases e with
  | sent at_ r b => exact Dhcpv6.Made.issue h
  | replied at_ r outcome => exact Dhcpv6.Made.issue h
  | abandoned at_ id =>
    rw [Entry.Made, List.length_append]
    exact Nat.lt_add_right _ h

end Made

namespace Sound
variable {clientID : Duid} {issued : List Exchange} {log : List Entry} {phase : Phase}
  {data : Option Running} {timeout : Option (ℤ × Timer)} {waiting waiting' : List Call}
  {r : Running} {now due : ℤ}

theorem sublist (h : Sound clientID issued log phase data timeout waiting)
    (hsub : List.Sublist waiting' waiting) :
    Sound clientID issued log phase data timeout waiting' :=
  { h with
    distinct := h.distinct.sublist (hsub.map Call.id)
    untouched := fun c hc => h.untouched c (hsub.subset hc)
    apart := fun c hc => h.apart c (hsub.subset hc)
    waitingMade := fun c hc => h.waitingMade c (hsub.subset hc) }

/-- A new call is numbered unlike any before. -/
theorem call (h : Sound clientID issued log phase data timeout waiting) (x : Exchange) :
    Sound clientID (issued ++ [x]) log phase data timeout (waiting ++ [⟨issued.length, x⟩]) where
  stage := h.stage
  distinct := by
    rw [List.map_append, List.map_singleton]
    refine List.Nodup.append h.distinct (by simp) ?_
    intro id hid hnew
    obtain ⟨c, hc, rfl⟩ := List.mem_map.mp hid
    have := (h.waitingMade c hc).lt
    simp only [List.mem_singleton] at hnew
    omega
  untouched := by
    intro c hc
    rcases List.mem_append.mp hc with hold | hnew
    · exact h.untouched c hold
    · intro e he
      have := (h.logMade e he).lt
      rw [List.mem_singleton.mp hnew]
      exact this.ne
  apart := by
    intro c hc r hr
    rcases List.mem_append.mp hc with hold | hnew
    · exact h.apart c hold r hr
    · rw [List.mem_singleton.mp hnew]
      exact (h.runningMade r hr).lt.ne
  waitingMade := by
    intro c hc
    rcases List.mem_append.mp hc with hold | hnew
    · exact (h.waitingMade c hold).issue
    · rw [List.mem_singleton.mp hnew, Made, List.getElem?_concat_length]
  runningMade := fun r hr => (h.runningMade r hr).issue
  logMade := fun e he => (h.logMade e he).issue
  lawful := h.lawful

/-- A transmission for a call that is not waiting. -/
theorem sent (h : Sound clientID issued log phase data timeout waiting)
    (hopen : Open r.call.id log) (hcontinues : Continues r (sentBy r.call.id log))
    (hmrc : r.call.x.timing.mrc ≠ 0 → r.sent ≤ r.call.x.timing.mrc) (hmade : Made issued r.call)
    (hapart : ∀ c ∈ waiting, r.call.id ≠ c.id) :
    Sound clientID issued
      (.sent now r (r.call.x.message r.xid clientID r.elapsed).marshalBinary :: log)
      .waiting (some r) (some (due, .retransmit)) waiting where
  stage := .waiting r due _ sentBy_cons_sent hopen.sent
  distinct := h.distinct
  untouched := fun c hc => (h.untouched c hc).cons (hapart c hc)
  apart := by
    intro c hc r' hr'
    cases hr'
    exact hapart c hc
  waitingMade := h.waitingMade
  runningMade := by
    intro r' hr'
    cases hr'
    exact hmade
  logMade := List.forall_mem_cons.mpr ⟨hmade, h.logMade⟩
  lawful := ⟨⟨hopen, hcontinues, hmrc, rfl⟩, h.lawful⟩

/-- The first transmission of a call. -/
theorem sentFirst (h : Sound clientID issued log phase data timeout waiting)
    (huntouched : Untouched r.call.id log) (hsent : r.sent = 0) (helapsed : r.elapsed = 0)
    (hmade : Made issued r.call) (hapart : ∀ c ∈ waiting, r.call.id ≠ c.id) :
    Sound clientID issued
      (.sent now { r with sent := r.sent + 1 }
        (r.call.x.message r.xid clientID r.elapsed).marshalBinary :: log)
      .waiting (some { r with sent := r.sent + 1 }) (some (due, .retransmit)) waiting := by
  refine h.sent (r := { r with sent := r.sent + 1 }) huntouched.isOpen ?_ ?_ hmade hapart
  · rw [huntouched.sentBy]
    exact ⟨by rw [hsent], helapsed⟩
  · intro hmrc
    rw [hsent]
    exact Nat.one_le_iff_ne_zero.mpr hmrc

/-- A call taken up, its first transmission put off. -/
theorem delaying (h : Sound clientID issued log phase data timeout waiting)
    (huntouched : Untouched r.call.id log) (hsent : r.sent = 0) (helapsed : r.elapsed = 0)
    (hmade : Made issued r.call) (hapart : ∀ c ∈ waiting, r.call.id ≠ c.id) (due : ℤ) :
    Sound clientID issued log .delaying (some r) (some (due, .transmit)) waiting :=
  { h with
    stage := .delaying r due hsent helapsed huntouched
    apart := by
      intro c hc r' hr'
      cases hr'
      exact hapart c hc
    runningMade := by
      intro r' hr'
      cases hr'
      exact hmade }

theorem replied {outcome : Except ExchangeError Message}
    (h : Sound clientID issued log .waiting (some r) timeout waiting)
    (hfits : Fits clientID r outcome) :
    Sound clientID issued (.replied now r outcome :: log) .idle none none waiting where
  stage := .idle
  distinct := h.distinct
  untouched := fun c hc => (h.untouched c hc).cons (h.apart c hc r rfl)
  apart := by simp
  waitingMade := h.waitingMade
  runningMade := by simp
  logMade := List.forall_mem_cons.mpr ⟨h.runningMade r rfl, h.logMade⟩
  lawful := by
    cases h.stage with
    | waiting r due rs hrs hopen => exact ⟨⟨hopen, ⟨rs, hrs⟩, hfits⟩, h.lawful⟩

/-- The call of an abandonment no longer waits. -/
theorem abandoned (h : Sound clientID issued log phase data timeout waiting) {id : ℕ}
    (hid : id < issued.length) (hnot : ∀ r, data = some r → id ≠ r.call.id)
    (hwaiting : ∀ c ∈ waiting, id ≠ c.id) :
    Sound clientID issued (.abandoned now id :: log) phase data timeout waiting where
  stage := h.stage.cons hnot
  distinct := h.distinct
  untouched := fun c hc => (h.untouched c hc).cons (hwaiting c hc)
  apart := h.apart
  waitingMade := h.waitingMade
  runningMade := h.runningMade
  logMade := List.forall_mem_cons.mpr ⟨hid, h.logMade⟩
  lawful := ⟨trivial, h.lawful⟩

theorem toIdle (h : Sound clientID issued log phase data timeout waiting) :
    Sound clientID issued log .idle none none waiting :=
  { h with
    stage := .idle
    apart := by simp
    runningMade := by simp }

end Sound

namespace Service
variable {clientID : Duid} {s : Service} {draws : Draws} {r : Running}

def Invariant (clientID : Duid) (s : Service) : Prop :=
  Sound clientID s.issued s.log s.process.phase s.process.data s.process.timeout s.process.waiting

/-- Whoever waits for a datagram will get the next one. -/
def Listening (s : Service) : Prop :=
  s.process.phase = .waiting → s.armed = true ∨ s.queued ≠ []

theorem conclude_waiting (e : Option Call) {result : Result}
    (h : ∀ effect ∈ result.2.2, effect ≠ .postpone) :
    (s.conclude e result).process.waiting = s.process.waiting :=
  Process.conclude_waiting h

/-- Only a call is ever postponed. -/
theorem handleEvent_keeps {phase : Phase} {data : Option Running} {o : Occurrence Msg Timer}
    (h : ∀ c, o ≠ .event (.call c)) :
    ∀ effect ∈ (handleEvent clientID draws phase data o).2.2, effect ≠ .postpone := by
  unfold handleEvent received unanswered
  split
  · next c => exact absurd rfl (h c)
  all_goals
    repeat' split
    all_goals simp [Client.send, Client.finish]

/-- A call waits until it is abandoned or the client, being idle, takes it up. -/
theorem waiting_step {c : Call} (h : c ∈ s.process.waiting) {ev : Event}
    (hkept : ev ≠ .abandon c.id) :
    c ∈ (s.step clientID ev).process.waiting ∨ ∃ draws mailbox, ev = .next draws ∧
      s.process.phase = .idle ∧ s.process.mailbox = c :: mailbox := by
  cases ev with
  | elapse t => exact .inl h
  | call x =>
    left
    rw [step, Process.waiting_arrive]
    exact List.mem_append_left _ h
  | next draws =>
    rw [step]
    cases hmailbox : s.process.mailbox with
    | nil => exact .inl h
    | cons c' mailbox =>
      have hmem : c = c' ∨ c ∈ s.process.postponed ++ mailbox := by
        simp only [Process.waiting, hmailbox, List.mem_append, List.mem_cons] at h ⊢
        tauto
      dsimp only [handleEvent]
      split_ifs with hbusy
      · left
        simp only [List.mem_append] at hmem
        simp [conclude, Process.conclude, Process.enter, Process.perform, Process.waiting]
        tauto
      · rcases hmem with rfl | hrest
        · exact .inr ⟨draws, mailbox, rfl, not_not.mp hbusy, rfl⟩
        · left
          rw [conclude_waiting]
          · exact hrest
          · unfold Client.start Client.send
            dsimp only
            split_ifs <;> simp
  | abandon id =>
    left
    rw [step]
    split_ifs
    · rw [conclude_waiting _ (handleEvent_keeps (by simp)), Process.waiting_discard]
      refine List.mem_filter.mpr ⟨h, ?_⟩
      have hne : c.id ≠ id := fun heq => hkept (by rw [heq])
      simp [hne]
    · exact h
  | timeout draws =>
    left
    rw [step]
    repeat' split
    · exact h
    · rw [conclude_waiting _ (handleEvent_keeps (by simp))]
      exact h
    · exact h
  | deliver b =>
    left
    rw [step]
    split_ifs <;> exact h
  | receive =>
    left
    rw [step]
    split
    · exact h
    · rw [conclude_waiting _ (handleEvent_keeps (by simp))]
      exact h
  | sendError armed =>
    left
    rw [step, conclude_waiting _ (handleEvent_keeps (by simp))]
    exact h

theorem Invariant.send {e : Option Call} (h : ∀ due, Sound clientID s.issued
      (.sent s.now { r with sent := r.sent + 1 }
        (r.call.x.message r.xid clientID r.elapsed).marshalBinary :: s.log)
      .waiting (some { r with sent := r.sent + 1 }) (some (due, .retransmit)) s.process.waiting) :
    (s.conclude e (Client.send clientID r)).Invariant clientID := by
  have hphase : (s.conclude e (Client.send clientID r)).process.phase = .waiting :=
    Process.conclude_phase _
  rw [Invariant, conclude_waiting e (by simp [Client.send]), hphase]
  exact h _

theorem listening_send (e : Option Call) :
    (s.conclude e (Client.send clientID r)).Listening := by
  intro _
  left
  simp [conclude, Client.send, Process.outs, arms]

theorem Invariant.finish {outcome : Except ExchangeError Message}
    (h : Sound clientID s.issued (.replied s.now r outcome :: s.log) .idle none none
      s.process.waiting) (hphase : s.process.phase ≠ .idle) :
    (s.conclude none (Client.finish r outcome)).Invariant clientID := by
  have hidle : (s.conclude none (Client.finish r outcome)).process.phase = .idle :=
    Process.conclude_phase _
  have htimeout : (s.conclude none (Client.finish r outcome)).process.timeout = none := by
    simp [conclude, Client.finish, Process.conclude, Process.perform, Process.enter, hphase.symm]
  rw [Invariant, conclude_waiting none (by simp [Client.finish]), hidle, htimeout]
  exact h

theorem listening_finish (outcome : Except ExchangeError Message) :
    (s.conclude none (Client.finish r outcome)).Listening := by
  intro hwaiting
  have hidle : (s.conclude none (Client.finish r outcome)).process.phase = .idle :=
    Process.conclude_phase _
  rw [hidle] at hwaiting
  cases hwaiting

theorem conclude_stay (s : Service) :
    s.conclude none (s.process.phase, s.process.data, []) = s := by
  simp [conclude, Process.conclude, Process.enter, Process.outs]

theorem conclude_setActive (s : Service) :
    s.conclude none (s.process.phase, s.process.data, [.out .setActive]) =
      { s with armed := true } := by
  simp [conclude, Process.conclude, Process.enter, Process.outs, Process.perform, arms, entry]

theorem conclude_idle (s : Service) (hphase : s.process.phase ≠ .idle) :
    (s.conclude none (.idle, none, [])).process.phase = .idle ∧
      (s.conclude none (.idle, none, [])).process.data = none ∧
      (s.conclude none (.idle, none, [])).process.timeout = none ∧
      (s.conclude none (.idle, none, [])).log = s.log := by
  simp [conclude, Process.conclude, Process.enter, Process.outs, hphase.symm]

/-- A call that waits in front, the others behind it. -/
theorem Invariant.next (h : s.Invariant clientID) (draws : Draws) :
    (s.step clientID (.next draws)).Invariant clientID ∧
      (s.Listening → (s.step clientID (.next draws)).Listening) := by
  rw [step]
  cases hmailbox : s.process.mailbox with
  | nil => exact ⟨h, id⟩
  | cons c mailbox =>
    have hwaiting : s.process.waiting = s.process.postponed ++ c :: mailbox := by
      rw [Process.waiting, hmailbox]
    have hc : c ∈ s.process.waiting := by simp [hwaiting]
    have hrest : List.Sublist (s.process.postponed ++ mailbox) s.process.waiting := by
      rw [hwaiting]
      exact (List.sublist_cons_self c mailbox).append_left _
    have hapart : ∀ c' ∈ s.process.postponed ++ mailbox, c.id ≠ c'.id := by
      have hperm : (c :: (s.process.postponed ++ mailbox)).Perm s.process.waiting := by
        rw [hwaiting]
        exact List.perm_middle.symm
      have hdistinct := (hperm.map Call.id).nodup_iff.mpr h.distinct
      rw [List.map_cons, List.nodup_cons] at hdistinct
      intro c' hc' heq
      exact hdistinct.1 (heq ▸ List.mem_map_of_mem hc')
    dsimp only [handleEvent]
    split_ifs with hbusy
    · constructor
      · simpa [Invariant, conclude, Process.conclude, Process.enter, Process.perform,
          Process.waiting, Process.outs, hmailbox] using h
      · simp [Listening, conclude, Process.conclude, Process.enter, Process.perform, Process.outs]
    · rw [not_not] at hbusy
      dsimp only [Client.start]
      split_ifs with hdelay
      · have hsound := (h.sublist hrest).delaying
          (r := ⟨c, draws.xid, firstRT c.x.timing.irt draws, 0, 0⟩) (h.untouched c hc) rfl rfl
          (h.waitingMade c hc) hapart
        constructor
        · rw [Invariant, conclude_waiting _ (by simp)]
          simpa [conclude, Process.conclude, Process.enter, Process.perform, Process.outs, hbusy,
            Process.waiting] using hsound _
        · simp [Listening, conclude, Process.conclude, Process.enter, Process.perform, hbusy]
      · refine ⟨Invariant.send fun due => ?_, fun _ => listening_send _⟩
        exact (h.sublist hrest).sentFirst (h.untouched c hc) rfl rfl (h.waitingMade c hc) hapart

theorem Invariant.abandon (h : s.Invariant clientID) (id : ℕ) :
    (s.step clientID (.abandon id)).Invariant clientID ∧
      (s.Listening → (s.step clientID (.abandon id)).Listening) := by
  rw [step]
  split_ifs with hid
  · set s₁ : Service :=
      { s with
        process := s.process.discard fun c => c.id = id
        log := .abandoned s.now id :: s.log } with hs₁
    have hwaiting : s₁.process.waiting = s.process.waiting.filter fun c => !decide (c.id = id) :=
      Process.waiting_discard _ _
    have hnotWaiting : ∀ c ∈ s₁.process.waiting, id ≠ c.id := by
      intro c hc heq
      rw [hwaiting, List.mem_filter] at hc
      simp [heq] at hc
    have hsub : Sound clientID s.issued s.log s.process.phase s.process.data s.process.timeout
        s₁.process.waiting := h.sublist (hwaiting ▸ List.filter_sublist)
    by_cases hrunning : ∃ r, s.process.data = some r ∧ id = r.call.id
    · obtain ⟨r, hr, hrid⟩ := hrunning
      have hphase : s.process.phase ≠ .idle := by
        intro hidle
        have hstage := h.stage
        rw [hidle, hr] at hstage
        cases hstage
      have hresult : handleEvent clientID noDraws s.process.phase s.process.data
          (.event (.abandoned id)) = (.idle, none, []) := by
        simp only [handleEvent, hr]
        exact if_pos ⟨hphase, hrid⟩
      rw [hresult]
      obtain ⟨hp, hd, ht, hlog⟩ := s₁.conclude_idle hphase
      constructor
      · rw [Invariant, conclude_waiting none (by simp), hp, hd, ht, hlog]
        exact hsub.toIdle.abandoned hid (by simp) hnotWaiting
      · intro _ hwait
        rw [hp] at hwait
        cases hwait
    · have hresult : handleEvent clientID noDraws s.process.phase s.process.data
          (.event (.abandoned id)) = (s₁.process.phase, s₁.process.data, []) := by
        have hdata : s₁.process.data = s.process.data := rfl
        cases hr : s.process.data with
        | none => rw [hdata, hr]; rfl
        | some r =>
          have hne : ¬ (s.process.phase ≠ .idle ∧ id = r.call.id) :=
            fun hboth => hrunning ⟨r, hr, hboth.2⟩
          rw [hdata, hr]
          exact if_neg hne
      rw [hresult, conclude_stay]
      refine ⟨hsub.abandoned hid ?_ hnotWaiting, fun hl => hl⟩
      intro r hr heq
      exact hrunning ⟨r, hr, heq⟩
  · exact ⟨h, fun hl => hl⟩

theorem Invariant.timeout (h : s.Invariant clientID) (draws : Draws) :
    (s.step clientID (.timeout draws)).Invariant clientID ∧
      (s.Listening → (s.step clientID (.timeout draws)).Listening) := by
  rw [step]
  cases htimeout : s.process.timeout with
  | none => exact ⟨h, id⟩
  | some timer =>
    obtain ⟨due, msg⟩ := timer
    dsimp only
    split_ifs with hdue
    · set s₁ : Service := { s with process := { s.process with timeout := none } } with hs₁
      obtain ⟨hphase, hdata⟩ : s.process.phase = s₁.process.phase ∧
        s.process.data = s₁.process.data := ⟨rfl, rfl⟩
      have hwaiting : s₁.process.waiting = s.process.waiting := rfl
      have hstage := h.stage
      rw [htimeout] at hstage
      generalize hp : s.process.phase = phase at hstage
      generalize hd : s.process.data = data at hstage
      cases hstage with
      | delaying r due hsent helapsed huntouched =>
        refine ⟨Invariant.send fun due => ?_, fun _ => listening_send _⟩
        exact h.sentFirst huntouched hsent helapsed (h.runningMade r hd)
          fun c hc => h.apart c hc r hd
      | waiting r due rs hrs hopen =>
        dsimp only [handleEvent, unanswered]
        split_ifs with hexhausted
        · have hsound : Sound clientID s₁.issued s₁.log .waiting (some r) s.process.timeout
              s₁.process.waiting := by
            rw [← hp, ← hd]
            exact h
          have hfits : Fits clientID r (.error .exhausted) := ⟨rfl, hexhausted⟩
          refine ⟨Invariant.finish (hsound.replied hfits) ?_, fun _ => listening_finish _⟩
          rw [← hphase, hp]
          simp
        · refine ⟨Invariant.send fun due => ?_, fun _ => listening_send _⟩
          refine h.sent hopen ?_ ?_ (h.runningMade r hd) fun c hc => h.apart c hc r hd
          · rw [hrs]
            exact ⟨rfl, rfl, rfl, rfl⟩
          · intro hmrc
            dsimp only at hmrc ⊢
            omega
    · exact ⟨h, id⟩

theorem Invariant.receive (h : s.Invariant clientID) :
    (s.step clientID .receive).Invariant clientID ∧
      (s.Listening → (s.step clientID .receive).Listening) := by
  rw [step]
  cases hqueued : s.queued with
  | nil => exact ⟨h, id⟩
  | cons b queued =>
    dsimp only
    set s₁ : Service := { s with queued := queued } with hs₁
    have hphase : s.process.phase = s₁.process.phase := rfl
    have hdata : s.process.data = s₁.process.data := rfl
    by_cases hwaiting : s.process.phase = .waiting
    · have hstage := h.stage
      rw [hwaiting] at hstage
      obtain ⟨r, hr⟩ := hstage.running
      have hsound : Sound clientID s₁.issued s₁.log .waiting (some r) s₁.process.timeout
          s₁.process.waiting := by
        rw [← hwaiting, ← hr]
        exact h
      have hagain : (s₁.conclude none (.waiting, some r, [.out .setActive])).Invariant clientID ∧
          (s.Listening →
            (s₁.conclude none (.waiting, some r, [.out .setActive])).Listening) := by
        have hset := s₁.conclude_setActive
        rw [← hphase, hwaiting, ← hdata, hr] at hset
        rw [hset]
        exact ⟨h, fun _ _ => .inl rfl⟩
      rw [hwaiting, hr]
      dsimp only [handleEvent, received]
      split
      · next reply hparse =>
        split_ifs with hanswers
        · have hfits : Fits clientID r (.ok reply) := hanswers
          refine ⟨Invariant.finish (hsound.replied hfits) ?_, fun _ => listening_finish _⟩
          rw [← hphase, hwaiting]
          simp
        · exact hagain
      · exact hagain
    · have hresult : handleEvent clientID noDraws s.process.phase s.process.data (.event (.data b))
          = (s₁.process.phase, s₁.process.data, []) := by
        rw [← hphase, ← hdata]
        cases hp : s.process.phase with
        | waiting => exact absurd hp hwaiting
        | _ => rfl
      rw [hresult, conclude_stay]
      exact ⟨h, fun _ hwait => absurd hwait hwaiting⟩

/-- Every step keeps the invariant and, if a failed send arms the socket, the client listening. -/
theorem Invariant.step_listening (h : s.Invariant clientID) (ev : Event) :
    (s.step clientID ev).Invariant clientID ∧
      (ev.Arms → s.Listening → (s.step clientID ev).Listening) := by
  cases ev with
  | elapse t => exact ⟨h, fun _ => id⟩
  | call x =>
    refine ⟨?_, fun _ hl => hl⟩
    have hwaiting := s.process.waiting_arrive ⟨s.issued.length, x⟩
    rw [Invariant]
    dsimp only [Service.step]
    rw [hwaiting]
    exact Sound.call h x
  | next draws => exact (h.next draws).imp_right fun hl _ => hl
  | abandon id => exact (h.abandon id).imp_right fun hl _ => hl
  | timeout draws => exact (h.timeout draws).imp_right fun hl _ => hl
  | deliver b =>
    rw [Service.step]
    split_ifs
    · exact ⟨h, fun _ _ _ => .inr (by simp)⟩
    · exact ⟨h, fun _ => id⟩
  | receive => exact h.receive.imp_right fun hl _ => hl
  | sendError armed =>
    have hstep : s.step clientID (.sendError armed) = { s with armed := s.armed && armed } :=
      conclude_stay { s with armed := s.armed && armed }
    rw [hstep]
    refine ⟨h, fun harms hl hwait => ?_⟩
    rw [show armed = true from harms, Bool.and_true]
    exact hl hwait

theorem Invariant.step (h : s.Invariant clientID) (ev : Event) :
    (s.step clientID ev).Invariant clientID := (h.step_listening ev).1

end Service

def Series : List Running → Prop
  | [] => True
  | r :: rs => Continues r rs ∧ Series rs

namespace Series
variable {r : Running} {rs : List Running}

theorem length_eq (h : Series (r :: rs)) : r.sent = rs.length + 1 := by
  induction rs generalizing r with
  | nil => exact h.1.1
  | cons r₀ rs ih =>
    rw [h.1.2.2.1, ih h.2]
    rfl

theorem same (h : Series (r :: rs)) : ∀ t ∈ r :: rs, t.call = r.call ∧ t.xid = r.xid := by
  induction rs generalizing r with
  | nil => simp
  | cons r₀ rs ih =>
    intro t ht
    rcases List.mem_cons.mp ht with rfl | hold
    · exact ⟨rfl, rfl⟩
    · obtain ⟨hcall, hxid⟩ := ih h.2 t hold
      exact ⟨hcall.trans h.1.1.symm, hxid.trans h.1.2.1.symm⟩

theorem elapsed_le (h : Series (r :: rs)) (hrt : ∀ t ∈ r :: rs, 0 < t.rt) :
    ∀ t ∈ r :: rs, t.elapsed ≤ r.elapsed := by
  induction rs generalizing r with
  | nil => simp
  | cons r₀ rs ih =>
    intro t ht
    rcases List.mem_cons.mp ht with rfl | hold
    · exact le_rfl
    · have hle := ih h.2 (fun t ht => hrt t (by simp [ht])) t hold
      have hpos := hrt r₀ (by simp)
      have heq := h.1.2.2.2
      omega

theorem elapsed_lt (h : Series rs) (hrt : ∀ t ∈ rs, 0 < t.rt) :
    rs.Pairwise fun later earlier => earlier.elapsed < later.elapsed := by
  induction rs with
  | nil => exact .nil
  | cons r rs ih =>
    have hrest : ∀ t ∈ rs, 0 < t.rt := fun t ht => hrt t (by simp [ht])
    refine .cons ?_ (ih h.2 hrest)
    intro t ht
    cases rs with
    | nil => cases ht
    | cons r₀ rs =>
      have hle := elapsed_le h.2 hrest t ht
      have hpos := hrt r₀ (by simp)
      have heq := h.1.2.2.2
      omega

theorem first (h : Series rs) (hr : rs.getLast? = some r) : r.sent = 1 ∧ r.elapsed = 0 := by
  induction rs with
  | nil => cases hr
  | cons t rs ih =>
    cases rs with
    | nil =>
      cases hr
      exact h.1
    | cons t₀ rs =>
      rw [List.getLast?_cons_cons] at hr
      exact ih h.2 hr

end Series

namespace Lawful
variable {clientID : Duid} {id : ℕ} {e : Entry} {log : List Entry} {at_ : ℤ} {r : Running}
  {outcome : Except ExchangeError Message}

/-- Nothing is transmitted for a call that was replied to or abandoned. -/
theorem closed (h : Lawful clientID (e :: log)) (hclosed : ¬ Open id log) :
    sentBy id (e :: log) = sentBy id log := by
  cases e with
  | sent at_ r b =>
    apply sentBy_cons_of_ne
    rintro rfl
    exact hclosed h.1.1
  | replied at_ r outcome => rfl
  | abandoned at_ id' => rfl

theorem series (h : Lawful clientID log) (id : ℕ) : Series (sentBy id log) := by
  induction log with
  | nil => trivial
  | cons e log ih =>
    cases e with
    | sent at_ r b =>
      by_cases hid : r.call.id = id
      · subst hid
        rw [sentBy_cons_sent]
        exact ⟨h.1.2.1, ih h.2⟩
      · have hne : (Entry.sent at_ r b).id ≠ id := hid
        rw [sentBy_cons_of_ne hne]
        exact ih h.2
    | replied at_ r outcome => exact ih h.2
    | abandoned at_ id' => exact ih h.2

theorem replied_not_open (h : Entry.replied at_ r outcome ∈ log) : ¬ Open r.call.id log := by
  intro hopen
  obtain ⟨_, _, _, heq⟩ := hopen _ h rfl
  cases heq

theorem repliesTo_eq_nil (h : Open id log) : repliesTo id log = [] := by
  apply List.filterMap_eq_nil_iff.mpr
  intro e he
  cases e with
  | replied at_ r outcome =>
    by_cases hid : r.call.id = id
    · obtain ⟨_, _, _, heq⟩ := h _ he hid
      cases heq
    · simp [hid]
  | _ => rfl

theorem repliesTo_length (h : Lawful clientID log) (id : ℕ) : (repliesTo id log).length ≤ 1 := by
  induction log with
  | nil => simp [repliesTo]
  | cons e log ih =>
    cases e with
    | replied at_ r outcome =>
      by_cases hid : r.call.id = id
      · subst hid
        have hnil := repliesTo_eq_nil h.1.1
        rw [repliesTo] at hnil ⊢
        simp [hnil]
      · simpa [repliesTo, hid] using ih h.2
    | sent at_ r b => exact ih h.2
    | abandoned at_ id' => exact ih h.2

/-- A reply fits the last transmission there is or will be for its call. -/
theorem replied_spec (h : Lawful clientID log) (hr : Entry.replied at_ r outcome ∈ log) :
    (∃ rs, sentBy r.call.id log = r :: rs) ∧ Fits clientID r outcome := by
  induction log with
  | nil => cases hr
  | cons e log ih =>
    rcases List.mem_cons.mp hr with rfl | hold
    · exact ⟨h.1.2.1, h.1.2.2⟩
    · rw [h.closed (replied_not_open hold)]
      exact ih h.2 hold

theorem sent_spec {b : Bytes} (h : Lawful clientID log) (hr : Entry.sent at_ r b ∈ log) :
    (r.call.x.timing.mrc ≠ 0 → r.sent ≤ r.call.x.timing.mrc) ∧
      b = (r.call.x.message r.xid clientID r.elapsed).marshalBinary := by
  induction log with
  | nil => cases hr
  | cons e log ih =>
    rcases List.mem_cons.mp hr with rfl | hold
    · exact h.1.2.2
    · exact ih h.2 hold

theorem abandoned_pairwise (h : Lawful clientID log) :
    log.Pairwise fun later earlier => ∀ at_ id, earlier = .abandoned at_ id →
      ∀ at' r b, later = .sent at' r b → r.call.id ≠ id := by
  induction log with
  | nil => exact .nil
  | cons e log ih =>
    refine .cons ?_ (ih h.2)
    rintro earlier hearlier at_ id rfl at' r b rfl heq
    obtain ⟨_, _, _, hsent⟩ := h.1.1 _ hearlier heq.symm
    cases hsent

theorem mem_sentBy (hr : r ∈ sentBy id log) : ∃ at_ b, Entry.sent at_ r b ∈ log ∧ r.call.id = id := by
  obtain ⟨e, he, hsome⟩ := List.mem_filterMap.mp hr
  cases e with
  | sent at_ t b =>
    dsimp only at hsome
    split_ifs at hsome with hid
    cases hsome
    exact ⟨at_, b, he, hid⟩
  | replied at_ t outcome => cases hsome
  | abandoned at_ id' => cases hsome

theorem mem_repliesTo (ho : outcome ∈ repliesTo id log) :
    ∃ at_ r, Entry.replied at_ r outcome ∈ log ∧ r.call.id = id := by
  obtain ⟨e, he, hsome⟩ := List.mem_filterMap.mp ho
  cases e with
  | replied at_ r outcome =>
    dsimp only at hsome
    split_ifs at hsome with hid
    cases hsome
    exact ⟨at_, r, he, hid⟩
  | sent at_ r b => cases hsome
  | abandoned at_ id' => cases hsome

end Lawful

def Ends (clientID : Duid) (log : List Entry) (r : Running) : Except ExchangeError Message → Prop
  | .ok m => r.call.x.answers m r.xid clientID = true
  | .error _ => r.call.x.timing.mrc ≠ 0 ∧ (sentBy r.call.id log).length = r.call.x.timing.mrc

/-- What a caller of the client may rely on. -/
structure Service.Orderly (clientID : Duid) (s : Service) : Prop where
  exclusive : s.process.phase = .idle ↔ s.process.data = none
  timeout : s.process.phase = .idle ↔ s.process.timeout = none
  oneReply : ∀ id, (repliesTo id s.log).length ≤ 1
  reply : ∀ at_ r outcome, Entry.replied at_ r outcome ∈ s.log →
    s.issued[r.call.id]? = some r.call.x ∧ (∀ t ∈ sentBy r.call.id s.log, t.xid = r.xid) ∧
      Ends clientID s.log r outcome
  oneTransaction : ∀ id, ∀ t ∈ sentBy id s.log, ∀ t' ∈ sentBy id s.log, t.xid = t'.xid
  fromZero : ∀ id t, (sentBy id s.log).getLast? = some t → t.elapsed = 0
  increasing : ∀ id, (∀ t ∈ sentBy id s.log, 0 < t.rt) →
    (sentBy id s.log).Pairwise fun later earlier => earlier.elapsed < later.elapsed
  message : ∀ at_ r b, Entry.sent at_ r b ∈ s.log →
    b = (r.call.x.message r.xid clientID r.elapsed).marshalBinary
  abandoned : s.log.Pairwise fun later earlier => ∀ at_ id, earlier = .abandoned at_ id →
    ∀ at' r b, later = .sent at' r b → r.call.id ≠ id

namespace Service
variable {clientID : Duid} {s : Service}

theorem Invariant.replied (h : s.Invariant clientID) {at_ : ℤ} {r : Running}
    {outcome : Except ExchangeError Message} (hr : Entry.replied at_ r outcome ∈ s.log) :
    s.issued[r.call.id]? = some r.call.x ∧ (∀ t ∈ sentBy r.call.id s.log, t.xid = r.xid) ∧
      Ends clientID s.log r outcome := by
  obtain ⟨⟨rs, hrs⟩, hfits⟩ := h.lawful.replied_spec hr
  have hseries := h.lawful.series r.call.id
  rw [hrs] at hseries
  refine ⟨h.logMade _ hr, fun t ht => (hseries.same t (hrs ▸ ht)).2, ?_⟩
  cases outcome with
  | ok m => exact hfits
  | error e =>
    obtain ⟨-, hmrc, hle⟩ := hfits
    obtain ⟨_, _, hsent, -⟩ : ∃ at_ b, Entry.sent at_ r b ∈ s.log ∧ r.call.id = r.call.id :=
      Lawful.mem_sentBy (hrs ▸ List.mem_cons_self)
    have hmost := (h.lawful.sent_spec hsent).1 hmrc
    have hlength := hseries.length_eq
    rw [Ends, hrs, List.length_cons]
    exact ⟨hmrc, by omega⟩

theorem Invariant.orderly (h : s.Invariant clientID) : s.Orderly clientID where
  exclusive := h.stage.idle_iff.1
  timeout := h.stage.idle_iff.2
  oneReply := h.lawful.repliesTo_length
  reply := fun _ _ _ hr => h.replied hr
  oneTransaction := by
    intro id t ht t' ht'
    have hseries := h.lawful.series id
    cases hrs : sentBy id s.log with
    | nil =>
      rw [hrs] at ht
      cases ht
    | cons r rs =>
      rw [hrs] at ht ht' hseries
      exact (hseries.same t ht).2.trans (hseries.same t' ht').2.symm
  fromZero := fun id t ht => ((h.lawful.series id).first ht).2
  increasing := fun id hrt => (h.lawful.series id).elapsed_lt hrt
  message := fun _ _ _ hr => (h.lawful.sent_spec hr).2
  abandoned := h.lawful.abandoned_pairwise

theorem initial_invariant (clientID : Duid) (now : ℤ) : (initial now).Invariant clientID where
  stage := .idle
  distinct := .nil
  untouched := by simp [initial, Process.waiting]
  apart := by simp [initial, Process.waiting]
  waitingMade := by simp [initial, Process.waiting]
  runningMade := by simp [initial]
  logMade := by simp [initial]
  lawful := trivial

theorem run_invariant (clientID : Duid) (now : ℤ) (events : List Event) :
    (events.foldl (step clientID) (initial now)).Invariant clientID :=
  List.foldlRecOn (motive := Invariant clientID) events _ (initial_invariant clientID now)
    fun _ hs ev _ => hs.step ev

theorem run_listening (clientID : Duid) (now : ℤ) {events : List Event}
    (h : ∀ ev ∈ events, ev.Arms) : (events.foldl (step clientID) (initial now)).Listening := by
  refine (List.foldlRecOn (motive := fun s : Service => s.Invariant clientID ∧ s.Listening) events _
    ⟨initial_invariant clientID now, fun hwait => by cases hwait⟩ ?_).2
  intro s hs ev hmem
  exact ⟨hs.1.step ev, (hs.1.step_listening ev).2 (h ev hmem) hs.2⟩

end Service

/-- In every run of the client its exchanges are orderly, and if a failed send arms the socket, the
client never waits for a datagram it would not get. -/
theorem exchanges_orderly (clientID : Duid) (now : ℤ) (events : List Service.Event) :
    let s := events.foldl (Service.step clientID) (Service.initial now)
    s.Orderly clientID ∧ ((∀ ev ∈ events, ev.Arms) → s.Listening) :=
  ⟨(Service.run_invariant clientID now events).orderly, Service.run_listening clientID now⟩

end Minuteman.Dhcpv6
