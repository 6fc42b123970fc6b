import Minuteman.Radvd.Advertiser

/-!
# Extending the WAN prefix

`internal/wanextend`: the prefix of the WAN is advertised on every LAN, and a
watch process reads it again on a timer. The watch extends a reading that
differs from the prefix it remembers. A restarted watch remembers the prefix
found at startup, whatever its last incarnation handed to the advertisers.
-/
namespace Minuteman.WanExtend
open Library PrefixDelegation

def validLifetime : ℤ := 2592000 * second
def preferredLifetime : ℤ := 604800 * second
def watchPollInterval : ℤ := 300 * second

/-- What the WAN prefix is extended onto. An interface without RDNSS has the zero address. -/
structure Config where
  lans : List String
  rdnss : String → Option (FixedBytes 16 × String)

/-- The configuration last handed to the advertiser of each interface. -/
abbrev Advertised := String → Option Radvd.Config

namespace Config
variable (c : Config)

def config (iface : String) (subnet : Option Prefix) : Radvd.Config where
  subnet := subnet
  onLink := false
  validLifetime := validLifetime
  preferredLifetime := preferredLifetime
  rdnssAddr := c.rdnss iface

def sync (subnet : Option Prefix) (lanIfaces : List String) (adv : Advertised) : Advertised :=
  lanIfaces.foldl (fun adv iface => Function.update adv iface (some (c.config iface subnet))) adv

def extend (subnet : Option Prefix) (adv : Advertised) : Advertised := c.sync subnet c.lans adv

def Carries (adv : Advertised) (subnet : Option Prefix) : Prop :=
  ∀ iface ∈ c.lans, adv iface = some (c.config iface subnet)

theorem sync_apply (subnet : Option Prefix) (lanIfaces : List String) (adv : Advertised)
    (iface : String) : c.sync subnet lanIfaces adv iface =
      if iface ∈ lanIfaces then some (c.config iface subnet) else adv iface := by
  induction lanIfaces generalizing adv with
  | nil => simp [sync]
  | cons first rest ih =>
    have hsync : c.sync subnet (first :: rest) adv =
        c.sync subnet rest (Function.update adv first (some (c.config first subnet))) := rfl
    rw [hsync, ih]
    by_cases hfirst : iface = first
    · subst hfirst
      simp
    · simp [hfirst]

theorem extend_carries (subnet : Option Prefix) (adv : Advertised) :
    c.Carries (c.extend subnet adv) subnet := by
  intro iface hiface
  rw [extend, sync_apply, if_pos hiface]

end Config

structure Reading where
  next : Option Prefix
  err : Bool

/-- The prefix to go on with, and whether it is a change. -/
def nextWatchState (current : Option Prefix) (r : Reading) : Option Prefix × Bool :=
  if r.err ∨ r.next = none ∨ r.next = current then (current, false) else (r.next, true)

inductive Timer
  | tick
  deriving DecidableEq

abbrev Effect := ServerEffect Timer Empty Empty

inductive Info
  | tick (r : Reading)
  | other

/-- The watch and the prefix it starts with. -/
structure Watcher where
  cfg : Config
  initial : Option Prefix

namespace Watcher
variable (w : Watcher)

def init : Option Prefix × List Effect := (w.initial, [.startTimer .tick 0])

def handleInfo (current : Option Prefix) (adv : Advertised) :
    Info → (Option Prefix × List Effect) × Advertised
  | .other => ((current, []), adv)
  | .tick r =>
    let next := nextWatchState current r
    ((if next.2 then next.1 else current, [.startTimer .tick watchPollInterval]),
      if next.2 then w.cfg.extend next.1 adv else adv)

/-- What the advertisers have been handed when `HandleInfo` dies after some calls to them. -/
def handedBefore (calls : ℕ) (current : Option Prefix) (adv : Advertised) (r : Reading) :
    Advertised :=
  let next := nextWatchState current r
  if next.2 then w.cfg.sync next.1 (w.cfg.lans.take calls) adv else adv

end Watcher

abbrev Process := Server (Option Prefix) Timer Info

/-- The watch, which is `none` while it is down, and what the advertisers were handed. `reset` says
that the watch was restarted and has extended nothing since. -/
structure World where
  now : ℤ
  process : Option Process
  advertised : Advertised
  reset : Bool

inductive Action
  | elapse (d : ℕ)
  | info
  | tick (r : Reading)
  | tickCrash (r : Reading) (calls : ℕ)
  | crash
  | restart

namespace World

def started (w : Watcher) (now : ℤ) : Process :=
  ⟨w.init.1, startTimers now w.init.2 fun _ => none, []⟩

def initial (w : Watcher) (now : ℤ) : World :=
  ⟨now, some (started w now), w.cfg.extend w.initial fun _ => none, false⟩

def settle (w : Watcher) (s : World) (p : Process) (m : Info) (reset : Bool) : World :=
  let result := w.handleInfo p.state s.advertised m
  { s with
    process := some { p with
      state := result.1.1, timers := startTimers s.now result.1.2 p.timers }
    advertised := result.2
    reset := reset }

def step (w : Watcher) (s : World) : Action → World
  | .elapse d => { s with now := s.now + d }
  | .info =>
    match s.process with
    | none => s
    | some p => s.settle w p .other s.reset
  | .tick r =>
    match s.process with
    | none => s
    | some p =>
      if p.Due s.now .tick then
        s.settle w { p with timers := Function.update p.timers .tick none } (.tick r)
          (s.reset && !(nextWatchState p.state r).2)
      else s
  | .tickCrash r calls =>
    match s.process with
    | none => s
    | some p =>
      if p.Due s.now .tick then
        { s with
          process := none
          advertised := w.handedBefore calls p.state s.advertised r }
      else s
  | .crash => { s with process := none }
  | .restart =>
    match s.process with
    | none => { s with process := some (started w s.now), reset := true }
    | some _ => s

/-- The advertisers were handed another prefix than the one found at startup, which a restarted
watch takes to be extended, and now reads. -/
def Stale (w : Watcher) (s : World) (subnet : Prefix) : Prop :=
  s.reset = true ∧ w.initial = some subnet ∧ ¬ w.cfg.Carries s.advertised w.initial

end World

/-- A tick leaves all as it is, or extends what was read and remembers it. -/
theorem handleInfo_tick (w : Watcher) (current : Option Prefix) (adv : Advertised) (r : Reading) :
    w.handleInfo current adv (.tick r) =
      if (nextWatchState current r).2 then
        ((r.next, [.startTimer .tick watchPollInterval]), w.cfg.extend r.next adv)
      else ((current, [.startTimer .tick watchPollInterval]), adv) := by
  by_cases hkeep : r.err ∨ r.next = none ∨ r.next = current
  · simp [Watcher.handleInfo, nextWatchState, if_pos hkeep]
  · simp [Watcher.handleInfo, nextWatchState, if_neg hkeep]

/-- What the watch remembers was handed to every LAN, unless a restart reset it. -/
structure Remembers (w : Watcher) (s : World) : Prop where
  carried : ∀ p, s.process = some p → s.reset = false → w.cfg.Carries s.advertised p.state
  initial : ∀ p, s.process = some p → s.reset = true → p.state = w.initial

namespace Remembers
variable {w : Watcher} {s : World}

theorem start (w : Watcher) (now : ℤ) : Remembers w (.initial w now) := by
  constructor
  · rintro p hp -
    cases hp
    exact w.cfg.extend_carries _ _
  · intro p hp hreset
    cases hreset

theorem down {adv : Advertised} {reset : Bool} : Remembers w ⟨s.now, none, adv, reset⟩ :=
  ⟨nofun, nofun⟩

theorem settle_tick (h : Remembers w s) {p : Process} (hp : s.process = some p) (r : Reading)
    (timers : Timer → Option ℤ) :
    Remembers w (s.settle w { p with timers := timers } (.tick r)
      (s.reset && !(nextWatchState p.state r).2)) := by
  simp only [World.settle, handleInfo_tick]
  cases hchanged : (nextWatchState p.state r).2 with
  | true =>
    constructor
    · rintro q hq -
      cases hq
      exact w.cfg.extend_carries _ _
    · intro q hq hreset
      rw [Bool.not_true, Bool.and_false] at hreset
      cases hreset
  | false =>
    simp only [Bool.not_false, Bool.and_true]
    constructor
    · intro q hq hreset
      cases hq
      exact h.carried p hp hreset
    · intro q hq hreset
      cases hq
      exact h.initial p hp hreset

theorem step (h : Remembers w s) (a : Action) : Remembers w (s.step w a) := by
  cases a with
  | elapse d => exact ⟨h.carried, h.initial⟩
  | info =>
    simp only [World.step]
    split
    · exact h
    · next p hp =>
      constructor
      · intro q hq
        cases hq
        exact h.carried p hp
      · intro q hq
        cases hq
        exact h.initial p hp
  | tick r =>
    simp only [World.step]
    split
    · exact h
    · next p hp =>
      split_ifs
      · exact h.settle_tick hp r _
      · exact h
  | tickCrash r calls =>
    simp only [World.step]
    split
    · exact h
    · split_ifs
      · exact down
      · exact h
  | crash => exact down
  | restart =>
    simp only [World.step]
    split
    · constructor
      · intro q hq hreset
        cases hreset
      · intro q hq hreset
        cases hq
        rfl
    · exact h

end Remembers

/-- A tick hands a reading to the advertisers if it is not what the watch remembers. -/
theorem step_tick_advertised {w : Watcher} {s : World} {p : Process} (hp : s.process = some p)
    (hdue : p.Due s.now .tick) (subnet : Prefix) :
    (s.step w (.tick ⟨some subnet, false⟩)).advertised =
      if some subnet = p.state then s.advertised else w.cfg.extend (some subnet) s.advertised := by
  simp only [World.step, hp, if_pos hdue, World.settle, handleInfo_tick, nextWatchState]
  by_cases hsame : some subnet = p.state
  · simp [hsame]
  · simp [hsame]

theorem Remembers.tick_carries_iff {w : Watcher} {s : World} (h : Remembers w s) {p : Process}
    (hp : s.process = some p) (hdue : p.Due s.now .tick) (subnet : Prefix) :
    w.cfg.Carries (s.step w (.tick ⟨some subnet, false⟩)).advertised (some subnet) ↔
      ¬ s.Stale w subnet := by
  rw [step_tick_advertised hp hdue]
  split_ifs with hsame
  · cases hreset : s.reset with
    | true =>
      have hinitial : w.initial = some subnet := (h.initial p hp hreset).symm.trans hsame.symm
      simp [World.Stale, hreset, hinitial]
    | false =>
      have hcarried := h.carried p hp hreset
      rw [← hsame] at hcarried
      simp [World.Stale, hreset, hcarried]
  · have hfresh : ¬ s.Stale w subnet := by
      rintro ⟨hreset, hinitial, -⟩
      exact hsame (hinitial.symm.trans (h.initial p hp hreset).symm)
    exact iff_of_true (w.cfg.extend_carries _ _) hfresh

/-- After a tick that read a prefix every LAN was last handed it, exactly unless the watch, which
was restarted and has extended nothing since, reads the prefix found at startup while a LAN was
last handed another. -/
theorem extended_iff (w : Watcher) (now : ℤ) (actions : List Action) {p : Process}
    (hp : (actions.foldl (World.step w) (.initial w now)).process = some p)
    (hdue : p.Due (actions.foldl (World.step w) (.initial w now)).now .tick) (subnet : Prefix) :
    let s := actions.foldl (World.step w) (.initial w now)
    w.cfg.Carries (s.step w (.tick ⟨some subnet, false⟩)).advertised (some subnet) ↔
      ¬ s.Stale w subnet := by
  have hremembers : Remembers w (actions.foldl (World.step w) (.initial w now)) := by
    refine List.foldlRecOn (motive := Remembers w) actions _ (Remembers.start w now) ?_
    intro s hs a _
    exact hs.step a
  exact hremembers.tick_carries_iff hp hdue subnet

section Renumbering

def docPrefix (n : UInt8) : Prefix :=
  ⟨⟨[0x20, 0x01, 0x0d, 0xb8, 0, 0, 0, n, 0, 0, 0, 0, 0, 0, 0, 0], rfl⟩, 64⟩

def docWatcher : Watcher := ⟨⟨["lan0", "lan1"], fun _ => none⟩, some (docPrefix 0)⟩

/-- The WAN changes to another prefix, then the watch dies and is restarted. -/
def renumbered : List Action :=
  [.tick ⟨some (docPrefix 1), false⟩, .crash, .restart]

/-- The restarted watch extends the new prefix once more. -/
theorem extended_iff_renumbered :
    let s := renumbered.foldl (World.step docWatcher) (.initial docWatcher 0)
    docWatcher.cfg.Carries (s.step docWatcher (.tick ⟨some (docPrefix 1), false⟩)).advertised
      (some (docPrefix 1)) := by
  have hdue : (World.started docWatcher 0).Due 0 .tick := by decide
  refine (extended_iff docWatcher 0 renumbered (p := World.started docWatcher 0) rfl hdue
    (docPrefix 1)).mpr ?_
  rintro ⟨-, hinitial, -⟩
  exact absurd hinitial (by decide)

/-- The WAN changes back: the restarted watch reads the prefix it starts with and leaves both LANs
with the other. -/
theorem restarted_watch_keeps_superseded_prefix :
    let s := (renumbered ++ [Action.tick ⟨some (docPrefix 0), false⟩]).foldl (World.step docWatcher)
      (.initial docWatcher 0)
    s.advertised "lan0" = some (docWatcher.cfg.config "lan0" (some (docPrefix 1))) ∧
      s.advertised "lan1" = some (docWatcher.cfg.config "lan1" (some (docPrefix 1))) ∧
      ¬ docWatcher.cfg.Carries s.advertised (some (docPrefix 0)) := by
  intro s
  have hlan0 : s.advertised "lan0" = some (docWatcher.cfg.config "lan0" (some (docPrefix 1))) := by
    decide +kernel
  have hlan1 : s.advertised "lan1" = some (docWatcher.cfg.config "lan1" (some (docPrefix 1))) := by
    decide +kernel
  refine ⟨hlan0, hlan1, fun hcarries => ?_⟩
  have hother := hlan0.symm.trans (hcarries "lan0" (by decide))
  exact absurd hother (by decide)

end Renumbering

end Minuteman.WanExtend
