import Minuteman.Radvd.Advertiser
import Minuteman.Library.Interference

/-!
# The time between two advertisements

Two multicast advertisements are to be `minDelayBetweenRAs` apart. The process
holds the next one off while `recent` is set, but the unsolicited timer does
not ask: it fires as soon as the interval drawn for it has passed, which in the
initial burst can be shorter.
-/
namespace Minuteman.Radvd
open Library

def Sent.counted (s : Sent) : Bool := !s.failed && s.ra.routerLifetime ≠ 0

def Spaced (sent : List Sent) : Prop :=
  (sent.filter Sent.counted).Pairwise fun later earlier =>
    earlier.time + minDelayBetweenRAs ≤ later.time

instance (sent : List Sent) : Decidable (Spaced sent) :=
  inferInstanceAs (Decidable (List.Pairwise _ _))

/-- `minDelayBetweenRAs` has passed at `t` since every advertisement that went out. -/
def Clear (sent : List Sent) (t : ℤ) : Prop :=
  ∀ s ∈ sent, s.counted → s.time + minDelayBetweenRAs ≤ t

def LastFailed (sent : List Sent) : Prop := ∀ s, sent.head? = some s → s.failed

/-- The unsolicited timer fires while the last advertisement is recent only if that one failed. -/
def HeldOff (w : World) : Event → Prop
  | .fired .unsolicited _ _ =>
    ∀ p, w.process = some p → p.Due w.now .unsolicited → p.state.recent = true → LastFailed w.sent
  | _ => True

/-- The handler sends nothing and leaves the holding off as it is. -/
structure Silent (s : State) (r : State × List Effect) : Prop where
  recent : r.1.recent = s.recent
  quiet : ∀ after, .startTimer .quiet after ∉ r.2
  silent : advertisements r.2 = []

structure Sends (r : State × List Effect) : Prop where
  recent : r.1.recent = true
  runs : stopReason r.2 = none
  quiet : ∀ now timers, startTimers now r.2 timers .quiet = some (now + minDelayBetweenRAs)
  one : ∃ ra, advertisements r.2 = [ra]

section Handlers
variable {a : Advertiser} {s : State} {draw : ℕ}

theorem handleCast_silent (cfg : Config) : Silent s (handleCast s cfg) := by
  unfold handleCast
  split_ifs <;> constructor <;> simp [sendNow, advertisements, outputs, ServerEffect.output]

theorem handleInfo_silent (m : SocketMsg) : Silent s (a.handleInfo s draw (.socket m)) := by
  cases m with
  | data bytes =>
    simp only [Advertiser.handleInfo]
    split_ifs <;> constructor <;>
      simp [advertisements, outputs, ServerEffect.output, Output.advertisement]
  | sendError errno =>
    simp only [Advertiser.handleInfo]
    split_ifs <;> constructor <;> simp [advertisements, outputs, ServerEffect.output]
  | error errno => constructor <;> simp [Advertiser.handleInfo, advertisements, outputs,
      ServerEffect.output]
  | closed => constructor <;> simp [Advertiser.handleInfo, advertisements, outputs,
      ServerEffect.output]

theorem send_sends : Sends (a.send s) where
  recent := rfl
  runs := rfl
  quiet _ _ := rfl
  one := ⟨_, rfl⟩

theorem handleInfo_unsolicited : Sends (a.handleInfo s draw (.timer .unsolicited)) where
  recent := rfl
  runs := rfl
  quiet _ _ := rfl
  one := ⟨_, rfl⟩

theorem handleInfo_reply_silent (h : s.recent = true) :
    Silent s (a.handleInfo s draw (.timer .reply)) := by
  constructor <;> simp [Advertiser.handleInfo, h, advertisements, outputs]

theorem handleInfo_reply_sends (h : s.recent = false) :
    Sends (a.handleInfo s draw (.timer .reply)) := by
  simpa [Advertiser.handleInfo, h] using send_sends

theorem handleInfo_quiet_recent : (a.handleInfo s draw (.timer .quiet)).1.recent = false := by
  simp only [Advertiser.handleInfo]
  split_ifs <;> rfl

theorem handleInfo_quiet_advertisements :
    advertisements (a.handleInfo s draw (.timer .quiet)).2 = [] := by
  simp only [Advertiser.handleInfo]
  split_ifs <;> rfl

end Handlers

theorem Clear.mono {sent : List Sent} {t u : ℤ} (h : Clear sent t) (htu : t ≤ u) : Clear sent u :=
  fun s hs hc => (h s hs hc).trans htu

/-- What a process holds off, given what was sent so far. -/
structure Holding (sent : List Sent) (now : ℤ) (p : Process) : Prop where
  clear : p.state.recent = false → Clear sent now
  held : p.state.recent = true → ∃ due, p.timers .quiet = some due ∧ Clear sent due
  failed : p.state.recent = true → LastFailed sent → Clear sent now

structure Paced (w : World) : Prop where
  spaced : Spaced w.sent
  holding : ∀ p, w.process = some p → Holding w.sent w.now p

section Holding
variable {sent : List Sent} {now : ℤ} {p q : Process} {a : Advertiser} {w : World}
  {r : State × List Effect}

theorem Holding.congr (h : Holding sent now p) (hrecent : q.state.recent = p.state.recent)
    (hquiet : q.timers .quiet = p.timers .quiet) : Holding sent now q := by
  constructor
  · exact fun hq => h.clear (hrecent ▸ hq)
  · intro hq
    rw [hquiet]
    exact h.held (hrecent ▸ hq)
  · exact fun hq => h.failed (hrecent ▸ hq)

theorem Holding.elapse (h : Holding sent now p) (d : ℕ) : Holding sent (now + d) p where
  clear hp := (h.clear hp).mono (by omega)
  held := h.held
  failed hp hlast := (h.failed hp hlast).mono (by omega)

/-- Once `quiet` is due another advertisement may go out. -/
theorem Holding.due_quiet (h : Holding sent now p) (hdue : p.Due now .quiet) : Clear sent now := by
  cases hrecent : p.state.recent with
  | false => exact h.clear hrecent
  | true =>
    obtain ⟨due, hquiet, hclear⟩ := h.held hrecent
    obtain ⟨due', hquiet', hle⟩ := hdue
    cases hquiet.symm.trans hquiet'
    exact hclear.mono hle

/-- An advertisement sent when the last one is far enough. -/
theorem Spaced.cons {s : Sent} (h : Spaced sent) (hclear : Clear sent s.time) :
    Spaced (s :: sent) := by
  by_cases hs : s.counted
  · rw [Spaced, List.filter_cons_of_pos hs]
    apply List.Pairwise.cons _ h
    intro earlier hmem
    obtain ⟨hearlier, hcounted⟩ := List.mem_filter.mp hmem
    exact hclear earlier hearlier hcounted
  · rw [Spaced, List.filter_cons_of_neg hs]
    exact h

theorem Clear.cons {s : Sent} {t : ℤ} (h : Clear sent t)
    (hs : s.counted → s.time + minDelayBetweenRAs ≤ t) : Clear (s :: sent) t :=
  List.forall_mem_cons.mpr ⟨hs, h⟩

theorem Holding.sends {ra : RouterAdvertisement} {failed : Bool} (hclear : Clear sent now)
    (hrecent : p.state.recent = true)
    (hquiet : p.timers .quiet = some (now + minDelayBetweenRAs)) :
    Holding (⟨now, ra, failed⟩ :: sent) now p := by
  constructor
  · intro hp
    rw [hrecent] at hp
    cases hp
  · intro _
    refine ⟨_, hquiet, Clear.cons (hclear.mono ?_) fun _ => le_rfl⟩
    exact le_add_of_nonneg_right (by decide)
  · intro _ hlast
    apply hclear.cons
    have hfailed : failed = true := hlast ⟨now, ra, failed⟩ rfl
    simp [Sent.counted, hfailed]

theorem transmit_silent {effects : List Effect} (h : advertisements effects = [])
    (outcome : Option ℕ) : w.transmit effects outcome = w := by
  simp [World.transmit, h]

theorem Paced.exit (h : Spaced w.sent) (s : State) (outcome : Option ℕ) :
    Paced (w.exit a s outcome) := by
  refine ⟨?_, fun p hp => by cases hp⟩
  cases hconf : s.configured with
  | false => simpa [World.exit, World.transmit, Advertiser.terminate, hconf, advertisements, outputs]
  | true =>
    simpa [World.exit, World.transmit, Advertiser.terminate, hconf, advertisements, outputs,
      ServerEffect.output, Output.advertisement, Spaced, Sent.counted, Advertiser.ra, buildRA]

theorem Paced.settle_none (h : Spaced w.sent) (hsilent : advertisements r.2 = [])
    (hp : Holding w.sent w.now { p with
      state := r.1, timers := startTimers w.now r.2 p.timers }) (outcome : Option ℕ) :
    Paced (w.settle a p r outcome) := by
  simp only [World.settle, transmit_silent hsilent]
  cases stopReason r.2 with
  | some reason => exact Paced.exit h r.1 outcome
  | none =>
    refine ⟨h, fun q hq => ?_⟩
    cases hq
    exact hp

theorem Paced.silent (h : Spaced w.sent) (hp : Holding w.sent w.now p) (hr : Silent p.state r)
    (outcome : Option ℕ) : Paced (w.settle a p r outcome) :=
  Paced.settle_none h hr.silent
    (hp.congr hr.recent (startTimers_of_not_started hr.quiet)) outcome

theorem Paced.sends (h : Spaced w.sent) (hclear : Clear w.sent w.now) (hr : Sends r)
    (outcome : Option ℕ) : Paced (w.settle a p r outcome) := by
  obtain ⟨ra, hra⟩ := hr.one
  simp only [World.settle, hr.runs]
  constructor
  · simpa [World.transmit, hra] using h.cons hclear
  · intro q hq
    cases hq
    simpa [World.transmit, hra] using Holding.sends hclear hr.recent (hr.quiet w.now p.timers)

end Holding

theorem Paced.arrive {w : World} (h : Paced w) (m : Letter) : Paced (w.arrive m) := by
  refine ⟨h.spaced, fun q hq => ?_⟩
  obtain ⟨p, hp, rfl⟩ := Option.map_eq_some_iff.mp hq
  exact (h.holding p hp).congr rfl rfl

theorem Paced.fired {a : Advertiser} {w : World} {p : Process} {t : Timer} (h : Paced w)
    (hp : w.process = some p) (hdue : p.Due w.now t)
    (hheld : t = .unsolicited → p.state.recent = true → LastFailed w.sent)
    (draw : ℕ) (outcome : Option ℕ) :
    Paced (w.settle a { p with timers := Function.update p.timers t none }
      (a.handleInfo p.state draw (.timer t)) outcome) := by
  have hholding := h.holding p hp
  cases t with
  | unsolicited =>
    refine Paced.sends h.spaced ?_ handleInfo_unsolicited outcome
    cases hrecent : p.state.recent with
    | false => exact hholding.clear hrecent
    | true => exact hholding.failed hrecent (hheld rfl hrecent)
  | quiet =>
    have hclear := hholding.due_quiet hdue
    apply Paced.settle_none h.spaced handleInfo_quiet_advertisements
    refine ⟨fun _ => hclear, ?_, fun _ _ => hclear⟩
    intro hrecent
    rw [handleInfo_quiet_recent] at hrecent
    cases hrecent
  | reply =>
    cases hrecent : p.state.recent with
    | false => exact Paced.sends h.spaced (hholding.clear hrecent) (handleInfo_reply_sends hrecent) _
    | true =>
      have hkept : Holding w.sent w.now
          { p with timers := Function.update p.timers .reply none } := hholding.congr rfl rfl
      exact Paced.silent h.spaced hkept (handleInfo_reply_silent hrecent) _

theorem Paced.step {a : Advertiser} {w : World} {e : Event} (h : Paced w) (he : HeldOff w e) :
    Paced (w.step a e) := by
  cases e with
  | elapse d => exact ⟨h.spaced, fun p hp => (h.holding p hp).elapse d⟩
  | cast cfg => exact h.arrive _
  | received bytes => exact h.arrive _
  | readFailed errno => exact h.arrive _
  | socketClosed => exact h.arrive _
  | killed => exact ⟨h.spaced, fun p hp => by cases hp⟩
  | reported =>
    simp only [World.step]
    split
    · exact h
    · apply Paced.arrive
      exact ⟨h.spaced, h.holding⟩
  | handled draw outcome =>
    simp only [World.step]
    split
    · exact h
    · rename_i p hp
      split
      · exact h
      · rename_i m rest hmail
        have hholding : Holding w.sent w.now { p with mailbox := rest } :=
          (h.holding p hp).congr rfl rfl
        apply Paced.silent h.spaced hholding
        cases m with
        | cast cfg => exact handleCast_silent cfg
        | socket m => exact handleInfo_silent m
  | fired t draw outcome =>
    simp only [World.step]
    split
    · exact h
    · rename_i p hp
      split
      · rename_i hdue
        apply h.fired hp hdue
        rintro rfl hrecent
        exact he p hp hdue hrecent
      · exact h
  | shutdown outcome =>
    simp only [World.step]
    split
    · exact h
    · exact Paced.exit h.spaced _ _

theorem Paced.initial (now : ℤ) : Paced (.initial now) where
  spaced := List.Pairwise.nil
  holding p hp := by
    cases hp
    have hnone : Clear (World.initial now).sent now := fun s hs => by cases hs
    exact ⟨fun _ => hnone, fun h => (by cases h), fun _ _ => hnone⟩

/-- In every run in which the unsolicited timer is held off while an advertisement is recent, no
two advertisements go out within `minDelayBetweenRAs` of each other. -/
theorem advertisements_spaced (a : Advertiser) (now : ℤ) (events : List Event)
    (h : Along (World.step a) HeldOff (.initial now) events) :
    Spaced (events.foldl (World.step a) (.initial now)).sent :=
  (h.invariant (I := Paced) (fun _ _ hw he => hw.step he) (Paced.initial now)).spaced

def sampleConfig : Config := ⟨none, true, 2 * 3600 * second, 3600 * second, none⟩

def sampleAdvertiser : Advertiser := ⟨"lan0", [2, 0, 0, 0, 0, 1]⟩

/-- The first advertisement, and the second when the interval drawn for it has passed. -/
def burst (interval : ℕ) : List Event :=
  [.cast sampleConfig, .handled 0 none, .fired .unsolicited interval none, .elapse interval,
    .fired .quiet 0 none, .fired .unsolicited 0 none]

/-- After an interval of five seconds. -/
theorem advertisements_spaced_burst :
    let run := (burst 5000000000).foldl (World.step sampleAdvertiser) (.initial 0)
    run.sent.length = 2 ∧ Spaced run.sent := by
  refine ⟨by decide +kernel, advertisements_spaced sampleAdvertiser 0 (burst 5000000000) ?_⟩
  refine ⟨trivial, trivial, ?_, trivial, trivial, ?_, trivial⟩
  · rintro p ⟨⟩ - h
    cases h
  · rintro p ⟨⟩ - h
    cases h

/-- After an interval of one second, drawn in the initial burst. -/
theorem burst_not_spaced :
    let run := (burst 1000000000).foldl (World.step sampleAdvertiser) (.initial 0)
    run.sent.map (·.time) = [1000000000, 0] ∧ (∀ s ∈ run.sent, s.counted) ∧ ¬ Spaced run.sent := by
  decide +kernel

end Minuteman.Radvd
