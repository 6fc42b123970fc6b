import Minuteman.Radvd.Spacing

/-!
# What a restart leaves advertised

The configuration of an interface is kept by its process alone. `Advertise` is a
cast, which a process that is down does not get, and a process started again
is idle until the next one.
-/
namespace Minuteman.Radvd
open Library

/-- An interface, and the configuration most recently passed to `Advertise` for it. -/
structure Interface where
  world : World
  latest : Option Config

inductive Action
  | event (e : Event)
  | restart

def Event.passed : Event → Option Config
  | .cast cfg => some cfg
  | _ => none

def World.restart (w : World) : World :=
  { w with process := some (.fresh .initial), unreported := [] }

namespace Interface

def initial (now : ℤ) : Interface := ⟨.initial now, none⟩

def step (a : Advertiser) (i : Interface) : Action → Interface
  | .event e => ⟨i.world.step a e, e.passed.or i.latest⟩
  | .restart =>
    match i.world.process with
    | some _ => i
    | none => ⟨i.world.restart, i.latest⟩

end Interface

structure Advertising (p : Process) (cfg : Config) : Prop where
  configured : p.state.configured = true
  cfg_eq : p.state.cfg = cfg
  armed : (p.timers .unsolicited).isSome

/-- The process is not started again once a configuration was passed. -/
def NotRestarted (i : Interface) : Action → Prop
  | .restart => i.world.process = none → i.latest = none
  | .event _ => True

def State.config (s : State) : Option Config := if s.configured then some s.cfg else none

def Letter.apply (config : Option Config) : Letter → Option Config
  | .cast cfg => some cfg
  | .socket _ => config

/-- The configuration the process has once it has handled what is waiting. -/
def promised (p : Process) : Option Config := p.mailbox.foldl Letter.apply p.state.config

/-- A process that has not lost a configuration. -/
structure Retaining (latest : Option Config) (p : Process) : Prop where
  promised_eq : promised p = latest
  armed : p.state.configured = true → (p.timers .unsolicited).isSome

def Retains (i : Interface) : Prop := ∀ p, i.world.process = some p → Retaining i.latest p

section Handlers
variable {a : Advertiser} {s : State} {draw : ℕ}

theorem handleCast_config (cfg : Config) : (handleCast s cfg).1.config = some cfg := by
  unfold handleCast
  split_ifs with hnew hsame hrecent <;> simp_all [State.config]

theorem handleInfo_config (msg : Info) : (a.handleInfo s draw msg).1.config = s.config := by
  rcases msg with (_ | _ | _) | (_ | _ | _ | _) <;> simp only [Advertiser.handleInfo]
  all_goals first | rfl | (split_ifs <;> rfl)

theorem handle_config (m : Letter) : (World.handle a s draw m).1.config = m.apply s.config := by
  cases m with
  | cast cfg => exact handleCast_config cfg
  | socket m => exact handleInfo_config (.socket m)

theorem State.configured_iff : s.configured = true ↔ s.config.isSome := by
  cases h : s.configured <;> simp [State.config, h]

theorem handle_configured {m : Letter} (h : (World.handle a s draw m).1.configured = true) :
    s.configured = true ∨ sendNow ∈ (World.handle a s draw m).2 := by
  cases m with
  | cast cfg =>
    cases hs : s.configured with
    | true => exact .inl rfl
    | false => simp [World.handle, handleCast, hs]
  | socket m =>
    rw [State.configured_iff, handle_config] at h
    exact .inl (State.configured_iff.mpr h)

end Handlers

section Retaining
variable {a : Advertiser} {i : Interface} {p : Process} {w : World} {latest : Option Config}
  {r : State × List Effect}

theorem settle_process {outcome : Option ℕ} {q : Process}
    (h : (w.settle a p r outcome).process = some q) :
    q = { p with state := r.1, timers := startTimers w.now r.2 p.timers } := by
  simp only [World.settle] at h
  split at h
  · cases h
    rfl
  · cases h

theorem Retaining.handle {m : Letter} {rest : List Letter} {now : ℤ} {draw : ℕ}
    (h : Retaining latest p) (hmail : p.mailbox = m :: rest) :
    Retaining latest
      { state := (World.handle a p.state draw m).1
        timers := startTimers now (World.handle a p.state draw m).2 p.timers
        mailbox := rest } := by
  constructor
  · rw [← h.promised_eq]
    simp only [promised, hmail, handle_config, List.foldl_cons]
  · intro hconf
    rcases handle_configured hconf with hold | hnow
    · exact startTimers_isSome (h.armed hold)
    · exact startTimers_isSome_of_mem hnow

theorem Retaining.fired {t : Timer} {now : ℤ} {draw : ℕ} (h : Retaining latest p) :
    Retaining latest
      { state := (a.handleInfo p.state draw (.timer t)).1
        timers := startTimers now (a.handleInfo p.state draw (.timer t)).2
          (Function.update p.timers t none)
        mailbox := p.mailbox } := by
  constructor
  · rw [← h.promised_eq]
    simp only [promised, handleInfo_config]
  · intro hconf
    rw [State.configured_iff, handleInfo_config, ← State.configured_iff] at hconf
    have harmed := h.armed hconf
    cases t with
    | unsolicited =>
      exact startTimers_isSome_of_mem (List.mem_append_right _ List.mem_cons_self)
    | quiet => exact startTimers_isSome harmed
    | reply => exact startTimers_isSome harmed

theorem Retaining.arrive (h : Retaining latest p) (m : Letter) :
    Retaining (m.apply latest) (p.arrive m) := by
  refine ⟨?_, h.armed⟩
  rw [← h.promised_eq]
  simp [promised, Server.arrive]

theorem Retaining.advertising {cfg : Config} (h : Retaining (some cfg) p) (hmail : p.mailbox = []) :
    Advertising p cfg := by
  have hconfig : p.state.config = some cfg := by simpa [promised, hmail] using h.promised_eq
  have hconf : p.state.configured = true := State.configured_iff.mpr (by simp [hconfig])
  refine ⟨hconf, ?_, h.armed hconf⟩
  simpa [State.config, hconf] using hconfig

theorem Retains.arrive (h : Retains i) (m : Letter) :
    Retains ⟨i.world.arrive m, m.apply i.latest⟩ := by
  intro q hq
  obtain ⟨p, hp, rfl⟩ := Option.map_eq_some_iff.mp hq
  exact (h p hp).arrive m

theorem Retains.event (h : Retains i) (e : Event) : Retains (i.step a (.event e)) := by
  cases e with
  | elapse d => exact h
  | cast cfg => exact h.arrive (.cast cfg)
  | received bytes => exact h.arrive (.socket (.data bytes))
  | readFailed errno => exact h.arrive (.socket (.error errno))
  | socketClosed => exact h.arrive (.socket .closed)
  | killed => exact fun q hq => by cases hq
  | reported =>
    intro q hq
    simp only [Interface.step, World.step] at hq
    split at hq
    · exact h q hq
    · exact h.arrive (.socket (.sendError _)) q hq
  | handled draw outcome =>
    intro q hq
    simp only [Interface.step, World.step] at hq
    split at hq
    · exact h q hq
    · rename_i p hp
      split at hq
      · exact h q hq
      · rename_i m rest hmail
        rw [settle_process hq]
        exact (h p hp).handle hmail
  | fired t draw outcome =>
    intro q hq
    simp only [Interface.step, World.step] at hq
    split at hq
    · exact h q hq
    · rename_i p hp
      split_ifs at hq
      · rw [settle_process hq]
        exact (h p hp).fired
      · exact h q hq
  | shutdown outcome =>
    intro q hq
    simp only [Interface.step, World.step] at hq
    split at hq
    · exact h q hq
    · cases hq

theorem retains_fresh (w : World) : Retains ⟨w.restart, none⟩ := by
  intro p hp
  cases hp
  exact ⟨rfl, fun hconf => by cases hconf⟩

theorem Retains.initial (now : ℤ) : Retains (.initial now) := retains_fresh (.initial now)

theorem Retains.step {action : Action} (h : Retains i) (hact : NotRestarted i action) :
    Retains (i.step a action) := by
  cases action with
  | event e => exact h.event e
  | restart =>
    simp only [Interface.step]
    split
    · exact h
    · next hdown =>
      rw [hact hdown]
      exact retains_fresh i.world

end Retaining

end Minuteman.Radvd
