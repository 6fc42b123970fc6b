import Minuteman.Radvd.Announcing

/-!
# What an advertiser was passed

The configurations an advertiser takes up and sends are among those that were
passed to it. One that is up and has something to advertise either took up the
latest of them or has it waiting.
-/
namespace Minuteman.Radvd
open Library

def Action.passed : Action → Option Config
  | .event e => e.passed
  | .restart => none

/-- Every configuration that was passed to the process, and so every one it took up, is one of
these. -/
structure Heeds (allowed : Config → Prop) (o : Observed) : Prop where
  waiting : ∀ p cfg, o.world.process = some p → Letter.cast cfg ∈ p.mailbox → allowed cfg
  handled : ∀ cfg, o.handled = some cfg → allowed cfg
  sent : ∀ x ∈ o.sent, ∀ cfg, x.2 = some cfg → allowed cfg

/-- A process that is up has taken up, or has waiting, what was passed last; or nothing at all,
having been started after that. -/
def Recent (latest : Option Config) (o : Observed) : Prop :=
  ∃ known, (known = none ∨ known = latest) ∧ Retains ⟨o.world, known⟩

section Steps
variable {a : Advertiser} {o : Observed} {w : World} {allowed : Config → Prop}
  {latest : Option Config}

theorem mem_arrive_mailbox {p : Process} {m m' : Letter} (h : w.process.map (·.arrive m) = some p)
    (hm : m' ∈ p.mailbox) : m' = m ∨ ∃ q, w.process = some q ∧ m' ∈ q.mailbox := by
  obtain ⟨q, hq, rfl⟩ := Option.map_eq_some_iff.mp h
  rcases List.mem_append.mp hm with hold | hnew
  · exact .inr ⟨q, hq, hold⟩
  · exact .inl (List.mem_singleton.mp hnew)

/-- What waits after an event waited before, or came with it. -/
theorem cast_mem_step {e : Event} {p : Process} {cfg : Config}
    (hp : (w.step a e).process = some p) (hm : Letter.cast cfg ∈ p.mailbox) :
    e = .cast cfg ∨ ∃ q, w.process = some q ∧ Letter.cast cfg ∈ q.mailbox := by
  cases e with
  | elapse d => exact .inr ⟨p, hp, hm⟩
  | cast cfg' =>
    rcases mem_arrive_mailbox hp hm with heq | hold
    · cases heq
      exact .inl rfl
    · exact .inr hold
  | received | readFailed | socketClosed =>
    exact .inr ((mem_arrive_mailbox hp hm).resolve_left (by simp))
  | killed => cases hp
  | reported =>
    simp only [World.step] at hp
    split at hp
    · exact .inr ⟨p, hp, hm⟩
    · exact .inr ((mem_arrive_mailbox hp hm).resolve_left (by simp))
  | handled draw outcome =>
    simp only [World.step] at hp
    split at hp
    · exact .inr ⟨p, hp, hm⟩
    · next q hq =>
      split at hp
      · exact .inr ⟨p, hp, hm⟩
      · next m rest hmail =>
        rw [settle_process hp] at hm
        exact .inr ⟨q, hq, hmail ▸ List.mem_cons_of_mem m hm⟩
  | fired t draw outcome =>
    simp only [World.step] at hp
    split at hp
    · exact .inr ⟨p, hp, hm⟩
    · next q hq =>
      split_ifs at hp
      · rw [settle_process hp] at hm
        exact .inr ⟨q, hq, hm⟩
      · exact .inr ⟨p, hp, hm⟩
  | shutdown outcome =>
    simp only [World.step] at hp
    split at hp
    · exact .inr ⟨p, hp, hm⟩
    · cases hp

theorem casting_mem {e : Event} {cfg : Config} (h : w.casting e = some cfg) :
    ∃ p, w.process = some p ∧ Letter.cast cfg ∈ p.mailbox := by
  cases e with
  | handled draw outcome =>
    obtain ⟨p, hp, hhead⟩ := Option.bind_eq_some_iff.mp h
    obtain ⟨m, hm, hcfg⟩ := Option.bind_eq_some_iff.mp hhead
    cases m with
    | cast cfg' =>
      cases hcfg
      exact ⟨p, hp, List.mem_of_mem_head? hm⟩
    | socket m => cases hcfg
  | _ => cases h

theorem Heeds.mono {allowed' : Config → Prop} (h : Heeds allowed o)
    (hle : ∀ cfg, allowed cfg → allowed' cfg) : Heeds allowed' o where
  waiting p cfg hp hm := hle cfg (h.waiting p cfg hp hm)
  handled cfg hcfg := hle cfg (h.handled cfg hcfg)
  sent x hx cfg hcfg := hle cfg (h.sent x hx cfg hcfg)

theorem Heeds.initial (allowed : Config → Prop) (now : ℤ) : Heeds allowed (.initial now) where
  waiting p cfg hp hm := by
    cases hp
    cases hm
  handled cfg h := by cases h
  sent x hx := by cases hx

theorem Heeds.step {action : Action} (h : Heeds allowed o)
    (hcast : ∀ cfg, action.passed = some cfg → allowed cfg) :
    Heeds allowed (o.step a action) := by
  cases action with
  | restart =>
    rw [Observed.step]
    split
    · exact h
    · refine ⟨fun p cfg hp hm => ?_, fun cfg hcfg => (by cases hcfg), h.sent⟩
      cases hp
      cases hm
  | event e =>
    have hhandled : ∀ cfg, (o.world.casting e).or o.handled = some cfg → allowed cfg := by
      intro cfg hcfg
      rcases Option.or_eq_some_iff.mp hcfg with hnew | ⟨-, hold⟩
      · obtain ⟨p, hp, hm⟩ := casting_mem hnew
        exact h.waiting p cfg hp hm
      · exact h.handled cfg hold
    refine ⟨fun p cfg hp hm => ?_, hhandled, fun x hx cfg hcfg => ?_⟩
    · rcases cast_mem_step hp hm with rfl | ⟨q, hq, hold⟩
      · exact hcast cfg rfl
      · exact h.waiting q cfg hq hold
    · rcases List.mem_append.mp hx with hnew | hold
      · obtain ⟨ra, -, rfl⟩ := List.mem_map.mp hnew
        exact hhandled cfg hcfg
      · exact h.sent x hold cfg hcfg

theorem Recent.initial (latest : Option Config) (now : ℤ) : Recent latest (.initial now) :=
  ⟨none, .inl rfl, Retains.initial now⟩

theorem Recent.cast (h : Recent latest o) (cfg : Config) :
    Recent (some cfg) (o.step a (.event (.cast cfg))) := by
  obtain ⟨known, -, hretains⟩ := h
  exact ⟨some cfg, .inr rfl, hretains.event (a := a) (.cast cfg)⟩

theorem Recent.step {action : Action} (h : Recent latest o) (hnone : action.passed = none) :
    Recent latest (o.step a action) := by
  obtain ⟨known, hknown, hretains⟩ := h
  cases action with
  | restart =>
    rw [Observed.step]
    split
    · exact ⟨known, hknown, hretains⟩
    · exact ⟨none, .inl rfl, retains_fresh _⟩
  | event e =>
    have hnext := hretains.event (a := a) e
    rw [Interface.step, show e.passed = none from hnone, Option.none_or] at hnext
    exact ⟨known, hknown, hnext⟩

/-- An idle process that took something up advertises what was passed last. -/
theorem Recent.advertising {p : Process} (h : Recent latest o) (hp : o.world.process = some p)
    (hidle : p.mailbox = []) (hconf : p.state.configured = true) :
    ∃ cfg, latest = some cfg ∧ Advertising p cfg := by
  obtain ⟨known, hknown, hretains⟩ := h
  have hp' : Retaining known p := hretains p hp
  have hconfig : p.state.config = known := by simpa [promised, hidle] using hp'.promised_eq
  rw [State.config, if_pos hconf] at hconfig
  rcases hknown with rfl | rfl
  · cases hconfig
  · exact ⟨p.state.cfg, hconfig.symm, (hconfig ▸ hp').advertising hidle⟩

end Steps
end Minuteman.Radvd
