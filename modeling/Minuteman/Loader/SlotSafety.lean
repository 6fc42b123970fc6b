import Minuteman.Loader.Operations

/-!
# Slot safety

The slots a packet can resolve stay valid, and are never written, through
every map operation of every loader call, whichever operations fail.
-/
namespace Minuteman.Loader
open Library Datapath Prog

def Validated (nh : NextHop) : Prop :=
  ∃ b4 aftr, validateSoftwireAddrs b4 aftr = .pure () ∧ nh = ⟨true, b4.as16, aftr.as16⟩

theorem Validated.valid {nh : NextHop} (h : Validated nh) : nh.valid = true := by
  obtain ⟨b4, aftr, -, rfl⟩ := h
  rfl

/-- The control word names only slots that hold validated pairs. -/
structure SlotsSafe (c : MigrationCtrl) (slots : ℕ → NextHop) : Prop where
  state : c.state = migSteady ∨ c.state = migPriming ∨ c.state = migDraining
  active_lt : c.activeSlot < numNextHops
  active : Validated (slots c.activeSlot)
  old_lt : c.oldSlot < numNextHops
  draining : c.state = migDraining → c.oldSlot ≠ c.activeSlot ∧ Validated (slots c.oldSlot)
  priming : c.state = migPriming → Validated (slots (otherSlot c.activeSlot))

/-- What holds of the maps once a softwire is configured. -/
abbrev SlotInvariant (m : Maps) : Prop := SlotsSafe m.ctrl m.nextHops

/-- The slots the datapath can resolve: the active one and, while draining, the old one. -/
def Resolvable (m : Maps) (slot : ℕ) : Prop :=
  slot = m.ctrl.activeSlot ∨ (m.ctrl.state = migDraining ∧ slot = m.ctrl.oldSlot)

/-- The maps before any softwire was configured. -/
structure Unconfigured (m : Maps) : Prop where
  ctrl : m.migrationCtrl = 0
  invalid : ∀ slot, (m.nextHops slot).valid = false

theorem zeroed_unconfigured : Unconfigured Maps.zeroed := ⟨rfl, fun _ => rfl⟩

/-- One map operation keeps the slots safe and the traffic's own maps untouched. -/
structure SafeStep (step : OpStep MapOp Maps) : Prop where
  after : Unconfigured step.after ∨ SlotInvariant step.after
  stays : SlotInvariant step.before → SlotInvariant step.after
  put : ∀ slot nh, step.op = .putNextHop slot nh →
    ¬ Resolvable step.before slot ∨ Unconfigured step.before
  flows : step.after.flowAffinity = step.before.flowAffinity
  stats : step.after.stats = step.before.stats

theorem otherSlot_lt (slot : ℕ) : otherSlot slot < numNextHops := Nat.mod_lt _ (by decide)

theorem otherSlot_ne (slot : ℕ) : otherSlot slot ≠ slot := by
  simp only [otherSlot, numNextHops]
  omega

theorem eq_otherSlot {slot slot' : ℕ} (h : slot < numNextHops) (h' : slot' < numNextHops)
    (hne : slot' ≠ slot) : slot' = otherSlot slot := by
  simp only [otherSlot, numNextHops] at *
  omega

namespace SlotsSafe
variable {c : MigrationCtrl} {slots : ℕ → NextHop}

/-- While draining, the old slot is the one that is not active. -/
theorem old_eq (h : SlotsSafe c slots) (hd : c.state = migDraining) :
    c.oldSlot = otherSlot c.activeSlot :=
  eq_otherSlot h.active_lt h.old_lt (h.draining hd).1

theorem state_lt (h : SlotsSafe c slots) : c.state < 256 := by
  rcases h.state with hs | hs | hs <;> rw [hs] <;> decide

/-- Writing a slot no packet resolves keeps the invariant; a staged slot must stay valid. -/
theorem update (h : SlotsSafe c slots) {slot : ℕ} {nh : NextHop} (hactive : slot ≠ c.activeSlot)
    (hold : c.state = migDraining → slot ≠ c.oldSlot) (hnh : Validated nh ∨ c.state = migSteady) :
    SlotsSafe c (Function.update slots slot nh) := by
  refine ⟨h.state, h.active_lt, ?_, h.old_lt, ?_, ?_⟩
  · rw [Function.update_of_ne hactive.symm]
    exact h.active
  · intro hd
    rw [Function.update_of_ne (hold hd).symm]
    exact h.draining hd
  · intro hp
    by_cases heq : otherSlot c.activeSlot = slot
    · rw [heq, Function.update_self]
      refine hnh.resolve_right fun hs => ?_
      rw [hp] at hs
      exact absurd hs (by decide)
    · rw [Function.update_of_ne heq]
      exact h.priming hp

end SlotsSafe

/-- Storing a word whose fields fit their bytes makes it the control word. -/
theorem ctrl_putCtrl {m : Maps} {c : MigrationCtrl} (hactive : c.activeSlot < numNextHops)
    (hold : c.oldSlot < numNextHops) (hstate : c.state < 256) (hepoch : c.epoch < 256) :
    (MapOp.effect (.putCtrl c.pack) m).ctrl = c := by
  have hslots : numNextHops ≤ 256 := by decide
  exact unpackMigrationCtrl_pack_of_lt (by omega) (by omega) hstate hepoch

theorem SlotInvariant.putCtrl {m : Maps} {c : MigrationCtrl} (h : SlotsSafe c m.nextHops)
    (hepoch : c.epoch < 256) : SlotInvariant (MapOp.effect (.putCtrl c.pack) m) := by
  change SlotsSafe (MapOp.effect (.putCtrl c.pack) m).ctrl m.nextHops
  rw [ctrl_putCtrl h.active_lt h.old_lt h.state_lt hepoch]
  exact h

theorem SafeStep.skip {m : Maps} (h : Unconfigured m ∨ SlotInvariant m) {o : MapOp}
    (hput : ∀ slot nh, o = .putNextHop slot nh → ¬ Resolvable m slot ∨ Unconfigured m) :
    SafeStep ⟨o, m, m⟩ := ⟨h, fun hm => hm, hput, rfl, rfl⟩

/-- A call under the step condition of slot safety. -/
abbrev Safe {α : Type} (Q : Except LoaderError α → Maps → Prop) (p : LoaderM α) (m : Maps) : Prop :=
  Spec MapOp.effect SafeStep Q p m

section Primitives
variable {m : Maps} (slot : ℕ)

theorem readCtrl_safe (h : SlotInvariant m) :
    Safe (fun r m' => m' = m ∧ ∀ c, r = .ok c → c = m.ctrl) readCtrl m := by
  have hstep : SafeStep ⟨.lookupCtrl, m, m⟩ := .skip (Or.inr h) (by simp)
  refine Spec.perform hstep hstep ⟨rfl, ?_⟩ ⟨rfl, by simp⟩
  intro c hc
  cases hc
  rfl

theorem writeCtrl_safe {c : MigrationCtrl} (h : SlotInvariant m) (hc : SlotsSafe c m.nextHops)
    (hepoch : c.epoch < 256) :
    Safe (fun r m' => (r = .ok () ∧ m'.ctrl = c ∧ m'.nextHops = m.nextHops) ∨
      ((∃ e, r = .error e) ∧ m' = m)) (writeCtrl c) m := by
  have hinv := SlotInvariant.putCtrl (m := m) hc hepoch
  refine Spec.perform ⟨Or.inr hinv, fun _ => hinv, by simp, rfl, rfl⟩
    (.skip (Or.inr h) (by simp)) (Or.inl ⟨rfl, ?_, rfl⟩) (Or.inr ⟨⟨_, rfl⟩, rfl⟩)
  exact ctrl_putCtrl hc.active_lt hc.old_lt hc.state_lt hepoch

theorem clearTunnelPmtu_safe (h : SlotInvariant m) :
    Safe (fun _ m' => m'.migrationCtrl = m.migrationCtrl ∧ m'.nextHops = m.nextHops)
      (clearTunnelPmtu slot) m := by
  unfold clearTunnelPmtu putSlot
  split
  · exact Spec.perform ⟨Or.inr h, fun _ => h, by simp, rfl, rfl⟩
      (.skip (Or.inr h) (by simp)) ⟨rfl, rfl⟩ ⟨rfl, rfl⟩
  · exact ⟨rfl, rfl⟩

/-- A slot reported as not live cannot be resolved: a resolvable slot is valid. -/
theorem slotIsLive_safe (h : SlotInvariant m) :
    Safe (fun r m' => m' = m ∧ (r = .ok false → ¬ Resolvable m slot))
      (slotIsLive m.ctrl slot) m := by
  have hstep : SafeStep ⟨.lookupNextHop slot, m, m⟩ := .skip (Or.inr h) (by simp)
  unfold slotIsLive
  split_ifs with hres hlt
  · refine Spec.perform hstep hstep ⟨rfl, ?_⟩ ⟨rfl, by simp⟩
    intro hfalse
    have hvalid : (m.nextHops slot).valid = true := by
      rcases hres with rfl | ⟨hd, rfl⟩
      · exact h.active.valid
      · exact (h.draining hd).2.valid
    rw [hvalid] at hfalse
    cases hfalse
  · exact ⟨rfl, by simp⟩
  · exact ⟨rfl, fun _ => hres⟩

/-- `writeNextHop` stores the pair or changes no slot, and refuses a resolvable slot. -/
theorem writeNextHop_safe (h : SlotInvariant m) {b4 aftr : Addr}
    (hv : validateSoftwireAddrs b4 aftr = .pure ()) :
    Safe (fun r m' => m'.migrationCtrl = m.migrationCtrl ∧
      ((r = .ok () ∧ ¬ Resolvable m slot ∧
        m'.nextHops = Function.update m.nextHops slot ⟨true, b4.as16, aftr.as16⟩) ∨
      ((∃ e, r = .error e) ∧ m'.nextHops = m.nextHops))) (writeNextHop slot b4 aftr) m := by
  refine Spec.bind (readCtrl_safe h) ?_ ?_
  · rintro c t ⟨rfl, hc⟩
    obtain rfl := hc c rfl
    refine Spec.bind (slotIsLive_safe slot h) ?_ ?_
    · rintro live t ⟨rfl, hlive⟩
      split_ifs with hl
      · exact ⟨rfl, Or.inr ⟨⟨_, rfl⟩, rfl⟩⟩
      · have hfree : ¬ Resolvable t slot := hlive (by simpa using hl)
        refine Spec.bind (clearTunnelPmtu_safe slot h) ?_ ?_
        · rintro _ u ⟨hctrl, hslots⟩
          have hc : u.ctrl = t.ctrl := congrArg unpackMigrationCtrl hctrl
          have hu : SlotInvariant u := by rwa [SlotInvariant, hc, hslots]
          have hput : ¬ Resolvable u slot := by rwa [Resolvable, hc]
          have hnew : SlotInvariant (MapOp.effect (.putNextHop slot ⟨true, b4.as16, aftr.as16⟩) u) :=
            hu.update (fun h => hput (Or.inl h)) (fun hd h => hput (Or.inr ⟨hd, h⟩))
              (Or.inl ⟨b4, aftr, hv, rfl⟩)
          unfold putSlot
          split
          · refine Spec.perform ⟨Or.inr hnew, fun _ => hnew, ?_, rfl, rfl⟩ (.skip (Or.inr hu) ?_)
              ⟨hctrl, Or.inl ⟨rfl, hfree, ?_⟩⟩ ⟨hctrl, Or.inr ⟨⟨_, rfl⟩, hslots⟩⟩
            · rintro _ _ ⟨⟩
              exact Or.inl hput
            · rintro _ _ ⟨⟩
              exact Or.inl hput
            · rw [← hslots]
              rfl
          · exact ⟨hctrl, Or.inr ⟨⟨_, rfl⟩, hslots⟩⟩
        · rintro e u ⟨hctrl, hslots⟩
          exact ⟨hctrl, Or.inr ⟨⟨_, rfl⟩, hslots⟩⟩
    · rintro e t ⟨rfl, -⟩
      exact ⟨rfl, Or.inr ⟨⟨_, rfl⟩, rfl⟩⟩
  · rintro e t ⟨rfl, -⟩
    exact ⟨rfl, Or.inr ⟨⟨_, rfl⟩, rfl⟩⟩

/-- Clearing the free slot of a steady datapath, or failing to, leaves the active one alone. -/
theorem clearNextHop_safe (h : SlotInvariant m) (hsteady : m.ctrl.state = migSteady)
    (hslot : slot ≠ m.ctrl.activeSlot) :
    Safe (fun _ m' => m'.ctrl = m.ctrl ∧
      m'.nextHops m.ctrl.activeSlot = m.nextHops m.ctrl.activeSlot) (clearNextHop slot) m := by
  have hdraining : m.ctrl.state ≠ migDraining := by rw [hsteady]; decide
  have hput : ¬ Resolvable m slot := by
    rintro (heq | ⟨hd, -⟩)
    · exact hslot heq
    · exact hdraining hd
  have hnew : SlotInvariant (MapOp.effect (.putNextHop slot {}) m) :=
    h.update hslot (fun hd => absurd hd hdraining) (Or.inr hsteady)
  have hsame : (MapOp.effect (.putNextHop slot {}) m).nextHops m.ctrl.activeSlot =
      m.nextHops m.ctrl.activeSlot := Function.update_of_ne hslot.symm _ _
  have hclear : Safe (fun r m' => (m' = m ∧ ∃ e, r = .error e) ∨
      m' = MapOp.effect (.putNextHop slot {}) m)
      (putSlot (.putNextHop slot {}) slot (.clearingNextHop slot)) m := by
    unfold putSlot
    split
    · refine Spec.perform ⟨Or.inr hnew, fun _ => hnew, ?_, rfl, rfl⟩ (.skip (Or.inr h) ?_)
        (Or.inr rfl) (Or.inl ⟨rfl, ⟨_, rfl⟩⟩)
      · rintro _ _ ⟨⟩
        exact Or.inl hput
      · rintro _ _ ⟨⟩
        exact Or.inl hput
    · exact Or.inl ⟨rfl, ⟨_, rfl⟩⟩
  refine Spec.bind hclear ?_ ?_
  · rintro _ t (⟨-, e, he⟩ | rfl)
    · cases he
    · refine (clearTunnelPmtu_safe slot hnew).imp ?_
      rintro _ u ⟨hctrl, hslots⟩
      exact ⟨congrArg unpackMigrationCtrl hctrl, (congrFun hslots _).trans hsame⟩
  · rintro e t (⟨rfl, -⟩ | rfl)
    · exact ⟨rfl, rfl⟩
    · exact ⟨rfl, hsame⟩

end Primitives

/-- A call that moved nothing: the word, every resolvable slot and, during a migration, the staged
slot too are as before. -/
structure Unmoved (m m' : Maps) : Prop where
  ctrl : m'.ctrl = m.ctrl
  slots : ∀ slot, Resolvable m slot → m'.nextHops slot = m.nextHops slot
  staged : m.ctrl.state ≠ migSteady → m'.nextHops = m.nextHops

/-- A call that started a migration to the pair of `nh`. -/
structure Begun (nh : NextHop) (m m' : Maps) : Prop where
  steady : m.ctrl.state = migSteady
  ctrl : m'.ctrl =
    ⟨m.ctrl.activeSlot, m.ctrl.activeSlot, migPriming, (m.ctrl.epoch + 1) % 256⟩
  slots : m'.nextHops = Function.update m.nextHops (otherSlot m.ctrl.activeSlot) nh

structure CutOver (m m' : Maps) : Prop where
  priming : m.ctrl.state = migPriming
  ctrl : m'.ctrl =
    ⟨otherSlot m.ctrl.activeSlot, m.ctrl.activeSlot, migDraining, m.ctrl.epoch⟩
  slots : m'.nextHops = m.nextHops

structure Ended (m m' : Maps) : Prop where
  ctrl : m'.ctrl = ⟨m.ctrl.activeSlot, m.ctrl.activeSlot, migSteady, m.ctrl.epoch⟩
  slots : m'.nextHops m.ctrl.activeSlot = m.nextHops m.ctrl.activeSlot

/-- A call that moved the traffic to the other slot at once. -/
structure Switched (nh : NextHop) (m m' : Maps) : Prop where
  ctrl : m'.ctrl =
    ⟨otherSlot m.ctrl.activeSlot, otherSlot m.ctrl.activeSlot, migSteady, m.ctrl.epoch⟩
  slot : m'.nextHops (otherSlot m.ctrl.activeSlot) = nh
  kept : m'.nextHops m.ctrl.activeSlot = m.nextHops m.ctrl.activeSlot

theorem Ended.activeSlot {m m' : Maps} (h : Ended m m') :
    m'.ctrl.activeSlot = m.ctrl.activeSlot := by rw [h.ctrl]

theorem Ended.epoch {m m' : Maps} (h : Ended m m') : m'.ctrl.epoch = m.ctrl.epoch := by
  rw [h.ctrl]

theorem Unmoved.refl (m : Maps) : Unmoved m m := ⟨rfl, fun _ _ => rfl, fun _ => rfl⟩

end Minuteman.Loader
