import Minuteman.Loader.Runs

/-!
# Repeating a failed call

When one map operation of a call is refused, whether repeating the call
finishes what it started.
-/
namespace Minuteman.Loader
open Library Datapath Prog

section FailFastCalls

theorem validateSoftwireAddrs_failFast (b4 aftr : Addr) :
    (validateSoftwireAddrs b4 aftr).FailFast := by
  unfold validateSoftwireAddrs
  split_ifs <;> trivial

theorem readCtrl_failFast : readCtrl.FailFast := .perform _ _ _

theorem writeCtrl_failFast (c : MigrationCtrl) : (writeCtrl c).FailFast := .perform _ _ _

theorem putSlot_failFast (o : MapOp) (slot : ℕ) (e : LoaderError) : (putSlot o slot e).FailFast := by
  unfold putSlot
  split
  · exact .perform _ _ _
  · trivial

theorem slotIsLive_failFast (c : MigrationCtrl) (slot : ℕ) : (slotIsLive c slot).FailFast := by
  unfold slotIsLive
  split_ifs
  · exact .perform _ _ _
  · trivial
  · trivial

theorem writeNextHop_failFast (slot : ℕ) (b4 aftr : Addr) :
    (writeNextHop slot b4 aftr).FailFast := by
  refine .bind readCtrl_failFast fun c => .bind (slotIsLive_failFast c slot) fun live => ?_
  split
  · trivial
  · exact .bind (putSlot_failFast _ _ _) fun _ => putSlot_failFast _ _ _

theorem clearNextHop_failFast (slot : ℕ) : (clearNextHop slot).FailFast :=
  .bind (putSlot_failFast _ _ _) fun _ => putSlot_failFast _ _ _

theorem flipToFreeSlot_failFast (b4 aftr : Addr) : (flipToFreeSlot b4 aftr).FailFast :=
  .bind readCtrl_failFast fun _ => .bind (writeNextHop_failFast _ _ _) fun _ => writeCtrl_failFast _

theorem endMigration_failFast (required : ℕ) (refuse : ℕ → LoaderError)
    (retired : MigrationCtrl → ℕ) : (endMigration required refuse retired).FailFast := by
  refine .bind readCtrl_failFast fun c => ?_
  split
  · trivial
  · exact .bind (writeCtrl_failFast _) fun _ => clearNextHop_failFast _

/-- No call goes on after a refused map operation. -/
theorem Call.failFast (c : Call) : c.prog.FailFast := by
  cases c with
  | setB4Config cfg =>
    exact .bind (validateSoftwireAddrs_failFast _ _) fun _ => .bind (.perform _ _ _) fun _ =>
      .bind (writeNextHop_failFast _ _ _) fun _ => .bind (writeCtrl_failFast _) fun _ =>
        .perform _ _ _
  | beginMigration b4 aftr =>
    refine .bind (validateSoftwireAddrs_failFast _ _) fun _ => .bind readCtrl_failFast fun c => ?_
    split
    · trivial
    · exact .bind (writeNextHop_failFast _ _ _) fun _ => writeCtrl_failFast _
  | cutover =>
    refine .bind readCtrl_failFast fun c => ?_
    split
    · trivial
    · exact writeCtrl_failFast _
  | completeMigration => exact endMigration_failFast _ _ _
  | abortMigration => exact endMigration_failFast _ _ _
  | switchAftr b4 aftr =>
    refine .bind (validateSoftwireAddrs_failFast _ _) fun _ => .bind readCtrl_failFast fun c => ?_
    split_ifs
    · exact .bind (endMigration_failFast _ _ _) fun _ => flipToFreeSlot_failFast _ _
    · exact .bind (endMigration_failFast _ _ _) fun _ => flipToFreeSlot_failFast _ _
    · exact flipToFreeSlot_failFast _ _

end FailFastCalls

section CleanCalls
variable {m : Maps}

theorem readCtrl_clean (m : Maps) : readCtrl.exec MapOp.effect noFaults m = (.ok m.ctrl, m) := rfl

theorem writeCtrl_clean (c : MigrationCtrl) (m : Maps) :
    (writeCtrl c).exec MapOp.effect noFaults m = (.ok (), MapOp.effect (.putCtrl c.pack) m) := rfl

theorem putSlot_clean {o : MapOp} {slot : ℕ} {e : LoaderError} (h : slot < numNextHops) :
    (putSlot o slot e).exec MapOp.effect noFaults m = (.ok (), MapOp.effect o m) := by
  rw [putSlot, if_pos h]
  rfl

theorem writeNextHop_clean {slot : ℕ} (hslot : slot < numNextHops) (hfree : ¬ Resolvable m slot)
    (b4 aftr : Addr) :
    (writeNextHop slot b4 aftr).exec MapOp.effect noFaults m =
      (.ok (), MapOp.effect (.putNextHop slot (pairHop b4 aftr))
        (MapOp.effect (.putTunnelPmtu slot {}) m)) := by
  have hlive : (slotIsLive m.ctrl slot).exec MapOp.effect noFaults m = (.ok false, m) := by
    unfold Resolvable at hfree
    rw [slotIsLive, if_neg hfree]
    rfl
  rw [writeNextHop, exec_noFaults_bind (readCtrl_clean m), exec_noFaults_bind hlive,
    if_neg (by decide), clearTunnelPmtu, exec_noFaults_bind (putSlot_clean hslot),
    putSlot_clean hslot]
  rfl

theorem clearNextHop_clean {slot : ℕ} (hslot : slot < numNextHops) :
    (clearNextHop slot).exec MapOp.effect noFaults m =
      (.ok (), MapOp.effect (.putTunnelPmtu slot {}) (MapOp.effect (.putNextHop slot {}) m)) := by
  rw [clearNextHop, exec_noFaults_bind (putSlot_clean hslot)]
  exact putSlot_clean hslot

theorem validateSoftwireAddrs_clean {b4 aftr : Addr}
    (hv : validateSoftwireAddrs b4 aftr = .pure ()) :
    (validateSoftwireAddrs b4 aftr).exec MapOp.effect noFaults m = (.ok (), m) := by
  rw [hv]
  rfl

theorem not_resolvable_otherSlot (hsteady : m.ctrl.state = migSteady) :
    ¬ Resolvable m (otherSlot m.ctrl.activeSlot) := by
  rintro (heq | ⟨hd, -⟩)
  · exact otherSlot_ne _ heq
  · exact absurd (hsteady.symm.trans hd) migSteady_ne_migDraining

theorem endMigration_clean {required : ℕ} {refuse : ℕ → LoaderError}
    {retired : MigrationCtrl → ℕ} (hstate : m.ctrl.state = required)
    (hretired : retired m.ctrl < numNextHops) :
    ∃ m', (endMigration required refuse retired).exec MapOp.effect noFaults m = (.ok (), m') := by
  rw [endMigration, exec_noFaults_bind (readCtrl_clean m), if_neg (not_not.mpr hstate),
    exec_noFaults_bind (writeCtrl_clean _ _)]
  exact ⟨_, clearNextHop_clean hretired⟩

theorem abortMigration_clean (hpriming : m.ctrl.state = migPriming) :
    ∃ m', abortMigration.exec MapOp.effect noFaults m = (.ok (), m') :=
  endMigration_clean hpriming (otherSlot_lt _)

theorem completeMigration_clean (h : SlotInvariant m) (hdraining : m.ctrl.state = migDraining) :
    ∃ m', completeMigration.exec MapOp.effect noFaults m = (.ok (), m') :=
  endMigration_clean hdraining h.old_lt

theorem flipToFreeSlot_clean (hsteady : m.ctrl.state = migSteady) (b4 aftr : Addr) :
    ∃ m', (flipToFreeSlot b4 aftr).exec MapOp.effect noFaults m = (.ok (), m') := by
  rw [flipToFreeSlot, exec_noFaults_bind (readCtrl_clean m),
    exec_noFaults_bind
      (writeNextHop_clean (otherSlot_lt _) (not_resolvable_otherSlot hsteady) b4 aftr)]
  exact ⟨_, writeCtrl_clean _ _⟩

end CleanCalls

/-- The arguments and the migration state a call accepts. -/
def Call.Accepts : Call → Maps → Prop
  | .setB4Config cfg, m =>
    validateSoftwireAddrs cfg.b4Addr cfg.aftrAddr = .pure () ∧ ¬ Resolvable m 0
  | .beginMigration b4 aftr, m =>
    validateSoftwireAddrs b4 aftr = .pure () ∧ m.ctrl.state = migSteady
  | .cutover, m => m.ctrl.state = migPriming
  | .completeMigration, m => m.ctrl.state = migDraining
  | .abortMigration, m => m.ctrl.state = migPriming
  | .switchAftr b4 aftr, _ => validateSoftwireAddrs b4 aftr = .pure ()

private theorem ended_of_ok {m m' : Maps} {P : Prop}
    (h : ((∃ e, (.ok () : Except LoaderError Unit) = .error e) ∧ Unmoved m m') ∨ (P ∧ Ended m m')) :
    Ended m m' := by
  rcases h with ⟨⟨e, he⟩, -⟩ | ⟨-, hend⟩
  · cases he
  · exact hend

/-- An accepted call succeeds when no map operation is refused. -/
theorem Call.exec_noFaults_of_accepts {m : Maps} (h : SlotInvariant m) {c : Call}
    (hc : c.Accepts m) : (c.exec noFaults m).1 = .ok () := by
  suffices hok : ∃ m', c.exec noFaults m = (.ok (), m') by
    obtain ⟨m', hm'⟩ := hok
    rw [hm']
  cases c with
  | setB4Config cfg =>
    have hfree : ¬ Resolvable (MapOp.effect (.putB4Config (b4ConfigOf cfg)) m) 0 := hc.2
    rw [Call.exec, Call.prog, Loader.setB4Config, exec_noFaults_bind (validateSoftwireAddrs_clean hc.1),
      exec_noFaults_bind (exec_noFaults_perform _ _ _),
      exec_noFaults_bind (writeNextHop_clean (by decide) hfree _ _),
      exec_noFaults_bind (writeCtrl_clean _ _)]
    exact ⟨_, exec_noFaults_perform _ _ _⟩
  | beginMigration b4 aftr =>
    rw [Call.exec, Call.prog, Loader.beginMigration, exec_noFaults_bind (validateSoftwireAddrs_clean hc.1),
      exec_noFaults_bind (readCtrl_clean m), if_neg (not_not.mpr hc.2),
      exec_noFaults_bind
        (writeNextHop_clean (otherSlot_lt _) (not_resolvable_otherSlot hc.2) b4 aftr)]
    exact ⟨_, writeCtrl_clean _ _⟩
  | cutover =>
    have hpriming : m.ctrl.state = migPriming := hc
    rw [Call.exec, Call.prog, Loader.cutover, exec_noFaults_bind (readCtrl_clean m),
      if_neg (not_not.mpr hpriming)]
    exact ⟨_, writeCtrl_clean _ _⟩
  | completeMigration => exact completeMigration_clean h hc
  | abortMigration => exact abortMigration_clean hc
  | switchAftr b4 aftr =>
    rw [Call.exec, Call.prog, Loader.switchAftr, exec_noFaults_bind (validateSoftwireAddrs_clean hc),
      exec_noFaults_bind (readCtrl_clean m)]
    rcases h.state with hs | hs | hs
    · rw [if_neg (by rw [hs]; decide), if_neg (by rw [hs]; decide)]
      exact flipToFreeSlot_clean hs b4 aftr
    · obtain ⟨m', hm'⟩ := abortMigration_clean hs
      have hend := (abortMigration_safe h).exec noFaults
      rw [hm'] at hend
      rw [if_pos hs, exec_noFaults_bind hm']
      exact flipToFreeSlot_clean (by rw [(ended_of_ok hend).ctrl]) b4 aftr
    · obtain ⟨m', hm'⟩ := completeMigration_clean h hs
      have hend := (completeMigration_safe h).exec noFaults
      rw [hm'] at hend
      rw [if_neg (by rw [hs]; decide), if_pos hs, exec_noFaults_bind hm']
      exact flipToFreeSlot_clean (by rw [(ended_of_ok hend).ctrl]) b4 aftr

/-- A call that succeeded was accepted. -/
theorem Call.accepts_of_ok {m : Maps} (h : SlotInvariant m) {c : Call}
    (hc : c.isSetB4Config = false) {faults : Faults} (hok : (c.exec faults m).1 = .ok ()) :
    c.Accepts m := by
  cases c with
  | setB4Config cfg => cases hc
  | beginMigration b4 aftr =>
    rcases (beginMigration_safe h b4 aftr).exec faults with ⟨-, hv, hbegun⟩ | ⟨⟨e, he⟩, -⟩
    · exact ⟨hv, hbegun.steady⟩
    · cases hok.symm.trans he
  | cutover =>
    rcases (cutover_safe h).exec faults with ⟨-, hcut⟩ | ⟨⟨e, he⟩, -⟩
    · exact hcut.priming
    · cases hok.symm.trans he
  | completeMigration =>
    rcases (completeMigration_safe h).exec faults with ⟨⟨e, he⟩, -⟩ | ⟨hd, -⟩
    · cases hok.symm.trans he
    · exact hd
  | abortMigration =>
    rcases (abortMigration_safe h).exec faults with ⟨⟨e, he⟩, -⟩ | ⟨hp, -⟩
    · cases hok.symm.trans he
    · exact hp
  | switchAftr b4 aftr =>
    rcases (switchAftr_safe h b4 aftr).exec faults with ⟨⟨e, he⟩, -⟩ | ⟨-, hv, -⟩
    · cases hok.symm.trans he
    · exact hv

/-- The calls that end a migration by storing the word first and clearing the slot second. -/
def Call.endsMigration : Call → Bool
  | .completeMigration => true
  | .abortMigration => true
  | _ => false

structure SameSoftwire (a b : Maps) : Prop where
  ctrl : a.ctrl = b.ctrl
  active : a.nextHops a.ctrl.activeSlot = b.nextHops b.ctrl.activeSlot
  valid : ∀ slot < numNextHops, (a.nextHops slot).valid = (b.nextHops slot).valid

/-- Repeating the call, after its map operation `i` was refused, ends as a call that went through. -/
def Call.RetryFinishes (c : Call) (i : ℕ) (m : Maps) : Prop :=
  (c.exec noFaults (c.exec (faultAt i) m).2).1 = .ok () ∧
    SameSoftwire (c.exec noFaults (c.exec (faultAt i) m).2).2 (c.exec noFaults m).2

def Reached (m : Maps) : Prop :=
  ∃ run, ConfiguredFirst run Maps.zeroed ∧ runState run Maps.zeroed = m ∧
    ∃ slot, (m.nextHops slot).valid

/-- Two states agreeing on the word and on both slots are the same softwire. -/
private theorem sameSoftwire_of {a b : Maps} {slot : ℕ} (hlt : slot < numNextHops)
    (hctrl : a.ctrl = b.ctrl) (hactive : a.ctrl.activeSlot < numNextHops)
    (hslot : a.nextHops slot = b.nextHops slot)
    (hother : a.nextHops (otherSlot slot) = b.nextHops (otherSlot slot)) : SameSoftwire a b := by
  have hall : ∀ k < numNextHops, a.nextHops k = b.nextHops k := by
    intro k hk
    by_cases heq : k = slot
    · rw [heq, hslot]
    · rw [eq_otherSlot hlt hk heq, hother]
  refine ⟨hctrl, ?_, fun k hk => by rw [hall k hk]⟩
  rw [hall _ hactive, hctrl]

theorem Reached.slotInvariant {m : Maps} (h : Reached m) : SlotInvariant m := by
  obtain ⟨run, hrun, rfl, slot, hslot⟩ := h
  rcases runState_configured (Or.inl zeroed_unconfigured) hrun with hu | hinv
  · rw [hu.invalid] at hslot
    cases hslot
  · exact hinv

section Finishing
variable {m t : Maps} {b4 aftr : Addr}

theorem begun_of_clean (h : SlotInvariant m) (hc : (Call.beginMigration b4 aftr).Accepts m) :
    Begun (pairHop b4 aftr) m ((Call.beginMigration b4 aftr).exec noFaults m).2 := by
  have hok := Call.exec_noFaults_of_accepts h hc
  rcases (beginMigration_safe h b4 aftr).exec noFaults with ⟨-, -, hbegun⟩ | ⟨⟨e, he⟩, -⟩
  · exact hbegun
  · cases hok.symm.trans he

theorem cutOver_of_clean (h : SlotInvariant m) (hc : Call.cutover.Accepts m) :
    CutOver m (Call.cutover.exec noFaults m).2 := by
  have hok := Call.exec_noFaults_of_accepts h hc
  rcases (cutover_safe h).exec noFaults with ⟨-, hcut⟩ | ⟨⟨e, he⟩, -⟩
  · exact hcut
  · cases hok.symm.trans he

theorem switched_of_clean (h : SlotInvariant m) (hc : (Call.switchAftr b4 aftr).Accepts m) :
    Switched (pairHop b4 aftr) m ((Call.switchAftr b4 aftr).exec noFaults m).2 := by
  have hok := Call.exec_noFaults_of_accepts h hc
  rcases (switchAftr_safe h b4 aftr).exec noFaults with ⟨⟨e, he⟩, -⟩ | ⟨-, -, hsw⟩
  · cases hok.symm.trans he
  · exact hsw

theorem Unmoved.begun {nh : NextHop} {a b : Maps} (h : SlotInvariant m) (hu : Unmoved m t)
    (ha : Begun nh t a) (hb : Begun nh m b) : SameSoftwire a b := by
  have hctrl : a.ctrl = b.ctrl := by rw [ha.ctrl, hb.ctrl, hu.ctrl]
  refine sameSoftwire_of h.active_lt hctrl ?_ ?_ ?_
  · rw [hctrl, hb.ctrl]
    exact h.active_lt
  · rw [ha.slots, hb.slots, hu.ctrl, Function.update_of_ne (otherSlot_ne _).symm,
      Function.update_of_ne (otherSlot_ne _).symm]
    exact hu.slots _ (Or.inl rfl)
  · rw [ha.slots, hb.slots, hu.ctrl, Function.update_self, Function.update_self]

/-- A hard switch ends the same from the state it failed in, whichever slot was cleared. -/
theorem switched_same {nh : NextHop} {a b : Maps} (h : SlotInvariant m) (ha : Switched nh t a)
    (hb : Switched nh m b) (hactive : t.ctrl.activeSlot = m.ctrl.activeSlot)
    (hepoch : t.ctrl.epoch = m.ctrl.epoch)
    (hslot : t.nextHops m.ctrl.activeSlot = m.nextHops m.ctrl.activeSlot) : SameSoftwire a b := by
  have hctrl : a.ctrl = b.ctrl := by rw [ha.ctrl, hb.ctrl, hactive, hepoch]
  refine sameSoftwire_of h.active_lt hctrl ?_ ?_ ?_
  · rw [hctrl, hb.ctrl]
    exact otherSlot_lt _
  · have hkept := ha.kept
    rw [hactive] at hkept
    rw [hkept, hb.kept, hslot]
  · have hnew := ha.slot
    rw [hactive] at hnew
    rw [hnew, hb.slot]

end Finishing

private theorem endMigration_past_read {m : Maps} {required : ℕ} {refuse : ℕ → LoaderError}
    {retired : MigrationCtrl → ℕ} (hstate : m.ctrl.state = required) (i : ℕ) :
    (endMigration required refuse retired).exec MapOp.effect (faultAt (i + 1)) m =
      (do writeCtrl ⟨m.ctrl.activeSlot, m.ctrl.activeSlot, migSteady, m.ctrl.epoch⟩
          clearNextHop (retired m.ctrl) : LoaderM Unit).exec MapOp.effect (faultAt i) m := by
  rw [endMigration, readCtrl, exec_faultAt_succ]
  exact congrArg (fun p : LoaderM Unit => p.exec MapOp.effect (faultAt i) m)
    (if_neg (not_not.mpr hstate))

/-- What ending a migration leaves behind when its operation `i` is refused. -/
theorem endMigration_faultAt {m : Maps} (h : SlotInvariant m) {required : ℕ}
    (refuse : ℕ → LoaderError) (retired : MigrationCtrl → ℕ) (hstate : m.ctrl.state = required)
    (hretired : retired m.ctrl ≠ m.ctrl.activeSlot) (i : ℕ) :
    (i ≤ 1 ∧ ((endMigration required refuse retired).exec MapOp.effect (faultAt i) m).2 = m) ∨
      (1 < i ∧ ((endMigration required refuse retired).exec MapOp.effect
        (faultAt i) m).2.ctrl.state = migSteady) := by
  rcases i with _ | _ | i
  · exact Or.inl ⟨by omega, rfl⟩
  · refine Or.inl ⟨by omega, ?_⟩
    rw [endMigration_past_read hstate, writeCtrl, exec_faultAt_zero]
  · refine Or.inr ⟨by omega, ?_⟩
    rw [endMigration_past_read hstate, writeCtrl, exec_faultAt_succ]
    have hsafe := steady_safe h
    have hctrl := ctrl_putCtrl (m := m) hsafe.active_lt hsafe.old_lt hsafe.state_lt m.ctrl_epoch_lt
    have hinv := SlotInvariant.putCtrl (m := m) hsafe m.ctrl_epoch_lt
    have hend := (clearNextHop_safe (retired m.ctrl) hinv (by rw [hctrl])
      (by rw [hctrl]; exact hretired)).exec (faultAt i)
    rw [hend.1, hctrl]

/-- A retry is accepted only if the first attempt was, and was refused before its store. -/
private theorem endMigration_retry {m : Maps} (h : SlotInvariant m) {required : ℕ}
    {refuse : ℕ → LoaderError} {retired : MigrationCtrl → ℕ} (hne : migSteady ≠ required)
    (hretired : m.ctrl.state = required → retired m.ctrl ≠ m.ctrl.activeSlot) {i : ℕ}
    (hretry : ((endMigration required refuse retired).exec MapOp.effect
      (faultAt i) m).2.ctrl.state = required) : m.ctrl.state = required ∧ i ≤ 1 := by
  have hstate : m.ctrl.state = required := by
    rcases (endMigration_safe h refuse hretired).exec (faultAt i) with ⟨-, hu⟩ | ⟨hs, -⟩
    · rw [← hu.ctrl]
      exact hretry
    · exact hs
  rcases endMigration_faultAt h refuse retired hstate (hretired hstate) i with ⟨hi, -⟩ | ⟨-, hsteady⟩
  · exact ⟨hstate, hi⟩
  · exact absurd (hsteady.symm.trans hretry) hne

private theorem accepts_of_retry {m : Maps} (h : SlotInvariant m) {c : Call}
    (hc : c.isSetB4Config = false) {i : ℕ} (he : ∃ e, (c.exec (faultAt i) m).1 = .error e)
    (hretry : c.Accepts (c.exec (faultAt i) m).2) : c.Accepts m ∧ (c.endsMigration → i ≤ 1) := by
  obtain ⟨e, he⟩ := he
  cases c with
  | setB4Config cfg => cases hc
  | beginMigration b4 aftr =>
    rcases (beginMigration_safe h b4 aftr).exec (faultAt i) with ⟨hr, -⟩ | ⟨-, hu⟩
    · cases hr.symm.trans he
    · exact ⟨⟨hretry.1, hu.ctrl ▸ hretry.2⟩, by simp [Call.endsMigration]⟩
  | cutover =>
    rcases (cutover_safe h).exec (faultAt i) with ⟨hr, -⟩ | ⟨-, hu⟩
    · cases hr.symm.trans he
    · exact ⟨by rw [← hu]; exact hretry, by simp [Call.endsMigration]⟩
  | completeMigration =>
    have hend := endMigration_retry h migSteady_ne_migDraining (fun hd => (h.draining hd).1) hretry
    exact ⟨hend.1, fun _ => hend.2⟩
  | abortMigration =>
    have hend := endMigration_retry h migSteady_ne_migPriming (fun _ => otherSlot_ne _) hretry
    exact ⟨hend.1, fun _ => hend.2⟩
  | switchAftr b4 aftr => exact ⟨hretry, by simp [Call.endsMigration]⟩

/-- A refused call that moved nothing at all is repeated from where it started. -/
private theorem retry_from_start {m : Maps} (h : SlotInvariant m) {c : Call} {i : ℕ}
    (haccept : c.Accepts m) (hsame : (c.exec (faultAt i) m).2 = m) : c.RetryFinishes i m := by
  rw [Call.RetryFinishes, hsame]
  exact ⟨Call.exec_noFaults_of_accepts h haccept, rfl, rfl, fun _ _ => rfl⟩

private theorem retry_of_accepts {m : Maps} (h : SlotInvariant m) {c : Call}
    (hc : c.isSetB4Config = false) {i : ℕ} (he : ∃ e, (c.exec (faultAt i) m).1 = .error e)
    (haccept : c.Accepts m) (hidx : c.endsMigration → i ≤ 1) : c.RetryFinishes i m := by
  obtain ⟨e, he⟩ := he
  have hinv := c.exec_slotInvariant h (faultAt i)
  cases c with
  | setB4Config cfg => cases hc
  | beginMigration b4 aftr =>
    rcases (beginMigration_safe h b4 aftr).exec (faultAt i) with ⟨hr, -⟩ | ⟨-, hu⟩
    · cases hr.symm.trans he
    · have hretry : (Call.beginMigration b4 aftr).Accepts
          ((Call.beginMigration b4 aftr).exec (faultAt i) m).2 :=
        ⟨haccept.1, hu.ctrl ▸ haccept.2⟩
      exact ⟨Call.exec_noFaults_of_accepts hinv hretry,
        hu.begun h (begun_of_clean hinv hretry) (begun_of_clean h haccept)⟩
  | cutover =>
    rcases (cutover_safe h).exec (faultAt i) with ⟨hr, -⟩ | ⟨-, hu⟩
    · cases hr.symm.trans he
    · exact retry_from_start h haccept hu
  | completeMigration =>
    rcases endMigration_faultAt h .completingRequiresDraining (fun c => c.oldSlot) haccept
      (h.draining haccept).1 i with ⟨-, hsame⟩ | ⟨hi, -⟩
    · exact retry_from_start h haccept hsame
    · exact absurd (hidx rfl) (by omega)
  | abortMigration =>
    rcases endMigration_faultAt h .abortRequiresPriming (fun c => otherSlot c.activeSlot) haccept
      (otherSlot_ne _) i with ⟨-, hsame⟩ | ⟨hi, -⟩
    · exact retry_from_start h haccept hsame
    · exact absurd (hidx rfl) (by omega)
  | switchAftr b4 aftr =>
    refine ⟨Call.exec_noFaults_of_accepts hinv haccept, ?_⟩
    rcases (switchAftr_safe h b4 aftr).exec (faultAt i) with ⟨-, hu | hu⟩ | ⟨hr, -⟩
    · exact switched_same h (switched_of_clean hinv haccept) (switched_of_clean h haccept)
        (congrArg MigrationCtrl.activeSlot hu.ctrl) (congrArg MigrationCtrl.epoch hu.ctrl)
        (hu.slots _ (Or.inl rfl))
    · exact switched_same h (switched_of_clean hinv haccept) (switched_of_clean h haccept)
        hu.activeSlot hu.epoch hu.slots
    · cases hr.symm.trans he

/-- Repeating a call after one refused map operation finishes it exactly when the call was
accepted and, for the two calls that end a migration, the refused operation comes no later
than their store of the control word. -/
theorem retryFinishes_iff (m : Maps) (hm : Reached m) (c : Call) (hc : c.isSetB4Config = false)
    (i : ℕ) (hi : i < (c.prog.trace MapOp.effect noFaults m).length) :
    c.RetryFinishes i m ↔ c.Accepts m ∧ (c.endsMigration → i ≤ 1) := by
  have h := hm.slotInvariant
  have he := c.failFast.exec_faultAt hi
  constructor
  · rintro ⟨hok, -⟩
    exact accepts_of_retry h hc he
      (Call.accepts_of_ok (c.exec_slotInvariant h (faultAt i)) hc hok)
  · rintro ⟨haccept, hidx⟩
    exact retry_of_accepts h hc he haccept hidx

def drainingRun : CallRun :=
  [(.setB4Config docConfig, noFaults), (.beginMigration (docAddr 1) (docAddr 3), noFaults),
    (.cutover, noFaults)]

theorem drainingRun_reached : Reached (runState drainingRun Maps.zeroed) :=
  ⟨drainingRun, ⟨Or.inl rfl, Or.inr ⟨0, by decide⟩, Or.inr ⟨0, by decide⟩, trivial⟩, rfl, 0,
    by decide⟩

theorem retryFinishes_iff_draining :
    Call.completeMigration.RetryFinishes 1 (runState drainingRun Maps.zeroed) ↔
      Call.completeMigration.Accepts (runState drainingRun Maps.zeroed) ∧
        (Call.completeMigration.endsMigration → 1 ≤ 1) :=
  retryFinishes_iff _ drainingRun_reached .completeMigration rfl 1 (by decide)

/-- Refuse the clearing of the old slot: the repeated `CompleteMigration` is rejected. -/
theorem completeMigration_retry_rejected :
    Reached (runState drainingRun Maps.zeroed) ∧
      2 < (completeMigration.trace MapOp.effect noFaults
        (runState drainingRun Maps.zeroed)).length ∧
      (Call.completeMigration.exec noFaults (Call.completeMigration.exec (faultAt 2)
        (runState drainingRun Maps.zeroed)).2).1 = .error (.completingRequiresDraining migSteady) :=
  ⟨drainingRun_reached, by decide, by decide⟩

end Minuteman.Loader
