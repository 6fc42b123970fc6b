import Minuteman.Loader.Calls

/-!
# Runs of loader calls

Any sequence of loader calls, each under any pattern of refused map
operations, from maps as the kernel creates them.
-/
namespace Minuteman.Loader
open Library Datapath Prog

inductive Call
  | setB4Config (cfg : B4ConfigArgs)
  | beginMigration (b4 aftr : Addr)
  | cutover
  | completeMigration
  | abortMigration
  | switchAftr (b4 aftr : Addr)

def Call.prog : Call → LoaderM Unit
  | .setB4Config cfg => Loader.setB4Config cfg
  | .beginMigration b4 aftr => Loader.beginMigration b4 aftr
  | .cutover => Loader.cutover
  | .completeMigration => Loader.completeMigration
  | .abortMigration => Loader.abortMigration
  | .switchAftr b4 aftr => Loader.switchAftr b4 aftr

def Call.isSetB4Config : Call → Bool
  | .setB4Config _ => true
  | _ => false

def Call.exec (c : Call) (faults : Faults) (m : Maps) : Except LoaderError Unit × Maps :=
  c.prog.exec MapOp.effect faults m

/-- Calls with the map operations refused in each. -/
abbrev CallRun := List (Call × Faults)

def runState : CallRun → Maps → Maps
  | [], m => m
  | (c, faults) :: rest, m => runState rest (c.exec faults m).2

def runTrace : CallRun → Maps → List (OpStep MapOp Maps)
  | [], _ => []
  | (c, faults) :: rest, m =>
    c.prog.trace MapOp.effect faults m ++ runTrace rest (c.exec faults m).2

/-- Only `SetB4Config` is called until some slot has been written. -/
def ConfiguredFirst : CallRun → Maps → Prop
  | [], _ => True
  | (c, faults) :: rest, m =>
    (c.isSetB4Config ∨ ∃ slot, (m.nextHops slot).valid) ∧
      ConfiguredFirst rest (c.exec faults m).2

private theorem steadyZero_safe {slots : ℕ → NextHop} (h : Validated (slots 0)) :
    SlotsSafe ⟨0, 0, migSteady, 0⟩ slots :=
  ⟨Or.inl rfl, by decide, h, by decide, fun hd => absurd hd migSteady_ne_migDraining,
    fun hp => absurd hp migSteady_ne_migPriming⟩

theorem unconfigured_ctrl {m : Maps} (h : Unconfigured m) : m.ctrl = ⟨0, 0, 0, 0⟩ := by
  rw [Maps.ctrl, h.ctrl]
  rfl

private theorem unconfigured_step {m m' : Maps} {o : MapOp} (h : Unconfigured m)
    (h' : Unconfigured m') (hflows : m'.flowAffinity = m.flowAffinity)
    (hstats : m'.stats = m.stats) : SafeStep ⟨o, m, m'⟩ := by
  refine ⟨Or.inl h', fun hinv => ?_, fun _ _ _ => Or.inr h, hflows, hstats⟩
  have hvalid := hinv.active.valid
  rw [h.invalid] at hvalid
  cases hvalid

/-- The first write of slot 0: its pair is stored, or nothing is configured yet. -/
theorem writeNextHop_unconfigured {m : Maps} (h : Unconfigured m) {b4 aftr : Addr}
    (hv : validateSoftwireAddrs b4 aftr = .pure ()) :
    Safe (fun r m' => (r = .ok () ∧ SlotInvariant m' ∧ Validated (m'.nextHops 0)) ∨
      ((∃ e, r = .error e) ∧ Unconfigured m')) (writeNextHop 0 b4 aftr) m := by
  have hlook : ∀ o, SafeStep ⟨o, m, m⟩ := fun o => unconfigured_step h h rfl rfl
  have hpmtu : Unconfigured (MapOp.effect (.putTunnelPmtu 0 {}) m) := ⟨h.ctrl, h.invalid⟩
  have hnew : Validated ((MapOp.effect (.putNextHop 0 (pairHop b4 aftr))
      (MapOp.effect (.putTunnelPmtu 0 {}) m)).nextHops 0) := by
    exact ⟨b4, aftr, hv, by simp [MapOp.effect, pairHop]⟩
  have hinv : SlotInvariant (MapOp.effect (.putNextHop 0 (pairHop b4 aftr))
      (MapOp.effect (.putTunnelPmtu 0 {}) m)) := by
    have hctrl : (MapOp.effect (.putNextHop 0 (pairHop b4 aftr))
        (MapOp.effect (.putTunnelPmtu 0 {}) m)).ctrl = ⟨0, 0, migSteady, 0⟩ := by
      change m.ctrl = _
      exact unconfigured_ctrl h
    rw [SlotInvariant, hctrl]
    exact steadyZero_safe hnew
  refine Spec.bind (Q := fun r m' => m' = m ∧ ∀ c, r = .ok c → c = m.ctrl)
    (Spec.perform (hlook _) (hlook _) ⟨rfl, ?_⟩ ⟨rfl, by simp⟩) ?_ ?_
  · rintro c ⟨⟩
    rfl
  · rintro c t ⟨rfl, hc⟩
    obtain rfl := hc c rfl
    refine Spec.bind (Q := fun r m' => m' = t ∧ ∀ live, r = .ok live → live = false) ?_ ?_ ?_
    · rw [unconfigured_ctrl h]
      refine Spec.perform (hlook _) (hlook _) ⟨rfl, ?_⟩ ⟨rfl, by simp⟩
      rintro live ⟨⟩
      exact h.invalid 0
    · rintro live t ⟨rfl, hlive⟩
      obtain rfl := hlive live rfl
      refine Spec.bind (Q := fun r m' => (r = .ok () → m' = MapOp.effect (.putTunnelPmtu 0 {}) t) ∧
        Unconfigured m') ?_ ?_ ?_
      · exact Spec.perform (unconfigured_step h hpmtu rfl rfl) (hlook _) ⟨fun _ => rfl, hpmtu⟩
          ⟨by simp, h⟩
      · rintro _ u ⟨hu, -⟩
        obtain rfl := hu rfl
        refine Spec.perform ⟨Or.inr hinv, fun _ => hinv, fun _ _ _ => Or.inr hpmtu, rfl, rfl⟩
          (unconfigured_step hpmtu hpmtu rfl rfl) (Or.inl ⟨rfl, hinv, hnew⟩)
          (Or.inr ⟨⟨_, rfl⟩, hpmtu⟩)
      · rintro e u ⟨-, hu⟩
        exact Or.inr ⟨⟨e, rfl⟩, hu⟩
    · rintro e t ⟨rfl, -⟩
      exact Or.inr ⟨⟨e, rfl⟩, h⟩
  · rintro e t ⟨rfl, -⟩
    exact Or.inr ⟨⟨e, rfl⟩, h⟩

/-- The end of `SetB4Config`: with a valid slot 0, point the word at it. -/
private theorem steadyZero_stored {m : Maps} (h : SlotInvariant m)
    (hzero : Validated (m.nextHops 0)) {ifindex : ℕ} :
    Safe (fun r m' => SlotInvariant m' ∧ (r = .ok () → m'.ctrl = ⟨0, 0, migSteady, 0⟩))
      (do writeCtrl ⟨0, 0, migSteady, 0⟩
          registerTxPort ifindex) m := by
  refine Spec.bind (writeCtrl_safe h (steadyZero_safe hzero) (by decide)) ?_ ?_
  · rintro _ t (⟨-, hc, hs⟩ | ⟨⟨e, he⟩, -⟩)
    · have ht : SlotInvariant t := by
        rw [SlotInvariant, hc, hs]
        exact steadyZero_safe hzero
      exact Spec.perform ⟨Or.inr ht, fun _ => ht, by simp, rfl, rfl⟩ (.skip (Or.inr ht) (by simp))
        ⟨ht, fun _ => hc⟩ ⟨ht, by simp⟩
    · cases he
  · rintro e t (⟨he, -⟩ | ⟨-, rfl⟩)
    · cases he
    · exact ⟨h, by simp⟩

theorem setB4Config_unconfigured {m : Maps} (h : Unconfigured m) (cfg : B4ConfigArgs) :
    Safe (fun r m' => ((∃ e, r = .error e) ∧ Unconfigured m') ∨
      (SlotInvariant m' ∧ (r = .ok () → m'.ctrl = ⟨0, 0, migSteady, 0⟩))) (setB4Config cfg) m := by
  have hlook : ∀ o, SafeStep ⟨o, m, m⟩ := fun o => unconfigured_step h h rfl rfl
  have hput : Unconfigured (MapOp.effect (.putB4Config (b4ConfigOf cfg)) m) := ⟨h.ctrl, h.invalid⟩
  refine Spec.bind (validateSoftwireAddrs_safe cfg.b4Addr cfg.aftrAddr) ?_ ?_
  · rintro _ t ⟨rfl, hv⟩
    refine Spec.bind (Q := fun _ m' => Unconfigured m')
      (Spec.perform (unconfigured_step h hput rfl rfl) (hlook _) hput h) ?_ ?_
    · rintro _ u hu
      refine Spec.bind (writeNextHop_unconfigured hu (hv rfl)) ?_ ?_
      · rintro _ v (⟨-, hinv, hzero⟩ | ⟨⟨e, he⟩, -⟩)
        · exact (steadyZero_stored hinv hzero).imp fun _ _ hstored => Or.inr hstored
        · cases he
      · rintro e v (⟨he, -⟩ | ⟨-, hv⟩)
        · cases he
        · exact Or.inl ⟨⟨e, rfl⟩, hv⟩
    · exact fun e u hu => Or.inl ⟨⟨e, rfl⟩, hu⟩
  · rintro e t ⟨rfl, -⟩
    exact Or.inl ⟨⟨e, rfl⟩, h⟩

theorem setB4Config_safe {m : Maps} (h : SlotInvariant m) (cfg : B4ConfigArgs) :
    Safe (fun _ m' => Unconfigured m' ∨ SlotInvariant m') (setB4Config cfg) m := by
  refine Spec.bind (validateSoftwireAddrs_safe cfg.b4Addr cfg.aftrAddr) ?_ ?_
  · rintro _ t ⟨rfl, hv⟩
    refine Spec.bind (Q := fun _ m' => SlotInvariant m')
      (Spec.perform ⟨Or.inr h, fun _ => h, by simp, rfl, rfl⟩ (.skip (Or.inr h) (by simp)) h h)
      ?_ ?_
    · rintro _ u hu
      refine Spec.bind (writeNextHop_safe 0 hu (hv rfl)) ?_ ?_
      · rintro _ v ⟨hctrl, ⟨-, hfree, hslots⟩ | ⟨⟨e, he⟩, -⟩⟩
        · have hc : v.ctrl = u.ctrl := congrArg unpackMigrationCtrl hctrl
          have hnew : Validated ⟨true, cfg.b4Addr.as16, cfg.aftrAddr.as16⟩ :=
            ⟨cfg.b4Addr, cfg.aftrAddr, hv rfl, rfl⟩
          refine (steadyZero_stored ?_ (by rw [hslots, Function.update_self]; exact hnew)).imp
            fun _ _ hstored => Or.inr hstored.1
          rw [SlotInvariant, hc, hslots]
          exact hu.update (fun heq => hfree (Or.inl heq)) (fun hd heq => hfree (Or.inr ⟨hd, heq⟩))
            (Or.inl hnew)
        · cases he
      · rintro e v ⟨hctrl, ⟨he, -⟩ | ⟨-, hslots⟩⟩
        · cases he
        · refine Or.inr ?_
          rw [SlotInvariant, hslots, Maps.ctrl, hctrl]
          exact hu
    · exact fun _ u hu => Or.inr hu
  · rintro e t ⟨rfl, -⟩
    exact Or.inr h

/-- Every call on a configured datapath takes safe steps only. -/
theorem Call.safe {m : Maps} (h : SlotInvariant m) (c : Call) : Safe (fun _ _ => True) c.prog m := by
  cases c with
  | setB4Config cfg => exact (setB4Config_safe h cfg).imp fun _ _ _ => trivial
  | beginMigration b4 aftr => exact (beginMigration_safe h b4 aftr).imp fun _ _ _ => trivial
  | cutover => exact (cutover_safe h).imp fun _ _ _ => trivial
  | completeMigration => exact (completeMigration_safe h).imp fun _ _ _ => trivial
  | abortMigration => exact (abortMigration_safe h).imp fun _ _ _ => trivial
  | switchAftr b4 aftr => exact (switchAftr_safe h b4 aftr).imp fun _ _ _ => trivial

/-- A configured datapath stays configured through every call. -/
theorem Call.exec_slotInvariant {m : Maps} (h : SlotInvariant m) (c : Call) (faults : Faults) :
    SlotInvariant (c.exec faults m).2 := by
  have hrel := (c.safe h).rel (R := fun a b => SlotInvariant a → SlotInvariant b)
    (fun _ ha => ha) (fun _ _ _ hab hbc ha => hbc (hab ha)) (fun _ hstep => hstep.stays) faults
  exact hrel h

/-- No call but the garbage collection touches the flow table or the counters. -/
theorem Call.exec_traffic {m : Maps} (h : SlotInvariant m) (c : Call) (faults : Faults) :
    (c.exec faults m).2.flowAffinity = m.flowAffinity ∧ (c.exec faults m).2.stats = m.stats :=
  (c.safe h).rel
    (R := fun (a b : Maps) => b.flowAffinity = a.flowAffinity ∧ b.stats = a.stats)
    (fun _ => ⟨rfl, rfl⟩) (fun _ _ _ hab hbc => ⟨hbc.1.trans hab.1, hbc.2.trans hab.2⟩)
    (fun _ hstep => ⟨hstep.flows, hstep.stats⟩) faults

theorem Call.exec_lanConfigs (c : Call) (faults : Faults) (m : Maps) :
    (c.exec faults m).2.lanConfigs = m.lanConfigs := by
  refine exec_keeps (f := fun m : Maps => m.lanConfigs) ?_ c.prog faults m
  intro o t
  cases o <;> rfl

/-- What a call on a configured datapath came to. -/
inductive Outcome (m m' : Maps) : Call → Except LoaderError Unit → Prop
  | unmoved {c : Call} {e : LoaderError} (h : Unmoved m m') : Outcome m m' c (.error e)
  | begun {b4 aftr : Addr} (hv : validateSoftwireAddrs b4 aftr = .pure ())
      (h : Begun (pairHop b4 aftr) m m') : Outcome m m' (.beginMigration b4 aftr) (.ok ())
  | cutOver (h : CutOver m m') : Outcome m m' .cutover (.ok ())
  | completed {r : Except LoaderError Unit} (hstate : m.ctrl.state = migDraining)
      (h : Ended m m') : Outcome m m' .completeMigration r
  | aborted {r : Except LoaderError Unit} (hstate : m.ctrl.state = migPriming)
      (h : Ended m m') : Outcome m m' .abortMigration r
  | switchFailed {b4 aftr : Addr} {e : LoaderError} (h : Ended m m') :
      Outcome m m' (.switchAftr b4 aftr) (.error e)
  | switched {b4 aftr : Addr} (hv : validateSoftwireAddrs b4 aftr = .pure ())
      (h : Switched (pairHop b4 aftr) m m') : Outcome m m' (.switchAftr b4 aftr) (.ok ())

theorem Call.outcome {m : Maps} (h : SlotInvariant m) {c : Call} (hc : c.isSetB4Config = false)
    (faults : Faults) : Outcome m (c.exec faults m).2 c (c.exec faults m).1 := by
  cases c with
  | setB4Config cfg => cases hc
  | beginMigration b4 aftr =>
    rcases (beginMigration_safe h b4 aftr).exec faults with ⟨hr, hv, hb⟩ | ⟨⟨e, hr⟩, hu⟩
    · rw [show ((Call.beginMigration b4 aftr).exec faults m).1 = .ok () from hr]
      exact .begun hv hb
    · rw [show ((Call.beginMigration b4 aftr).exec faults m).1 = .error e from hr]
      exact .unmoved hu
  | cutover =>
    rcases (cutover_safe h).exec faults with ⟨hr, hb⟩ | ⟨⟨e, hr⟩, hu⟩
    · rw [show (Call.cutover.exec faults m).1 = .ok () from hr]
      exact .cutOver hb
    · rw [show (Call.cutover.exec faults m).1 = .error e from hr,
        show (Call.cutover.exec faults m).2 = m from hu]
      exact .unmoved (.refl m)
  | completeMigration =>
    rcases (completeMigration_safe h).exec faults with ⟨⟨e, hr⟩, hu⟩ | ⟨hstate, hb⟩
    · rw [show (Call.completeMigration.exec faults m).1 = .error e from hr]
      exact .unmoved hu
    · exact .completed hstate hb
  | abortMigration =>
    rcases (abortMigration_safe h).exec faults with ⟨⟨e, hr⟩, hu⟩ | ⟨hstate, hb⟩
    · rw [show (Call.abortMigration.exec faults m).1 = .error e from hr]
      exact .unmoved hu
    · exact .aborted hstate hb
  | switchAftr b4 aftr =>
    rcases (switchAftr_safe h b4 aftr).exec faults with ⟨⟨e, hr⟩, hu | hb⟩ | ⟨hr, hv, hb⟩
    · rw [show ((Call.switchAftr b4 aftr).exec faults m).1 = .error e from hr]
      exact .unmoved hu
    · rw [show ((Call.switchAftr b4 aftr).exec faults m).1 = .error e from hr]
      exact .switchFailed hb
    · rw [show ((Call.switchAftr b4 aftr).exec faults m).1 = .ok () from hr]
      exact .switched hv hb

private theorem call_steps {m : Maps} (h : Unconfigured m ∨ SlotInvariant m) {c : Call}
    (hc : c.isSetB4Config ∨ ∃ slot, (m.nextHops slot).valid) :
    Safe (fun _ _ => True) c.prog m := by
  rcases h with h | h
  · rcases hc with hc | ⟨slot, hslot⟩
    · cases c with
      | setB4Config cfg => exact (setB4Config_unconfigured h cfg).imp fun _ _ _ => trivial
      | _ => cases hc
    · rw [h.invalid] at hslot
      cases hslot
  · exact c.safe h

private theorem call_keeps {m : Maps} (h : Unconfigured m ∨ SlotInvariant m) {c : Call}
    (hc : c.isSetB4Config ∨ ∃ slot, (m.nextHops slot).valid) (faults : Faults) :
    Unconfigured (c.exec faults m).2 ∨ SlotInvariant (c.exec faults m).2 := by
  have hrel := (call_steps h hc).rel
    (R := fun a b => Unconfigured a ∨ SlotInvariant a → Unconfigured b ∨ SlotInvariant b)
    (fun _ ha => ha) (fun _ _ _ hab hbc ha => hbc (hab ha)) (fun _ hstep _ => hstep.after) faults
  exact hrel h

theorem runState_configured {run : CallRun} {m : Maps} (h : Unconfigured m ∨ SlotInvariant m)
    (hrun : ConfiguredFirst run m) :
    Unconfigured (runState run m) ∨ SlotInvariant (runState run m) := by
  induction run generalizing m with
  | nil => exact h
  | cons head rest ih => exact ih (call_keeps h hrun.1 head.2) hrun.2

private theorem runTrace_safe {run : CallRun} {m : Maps} (h : Unconfigured m ∨ SlotInvariant m)
    (hrun : ConfiguredFirst run m) : ∀ step ∈ runTrace run m, SafeStep step := by
  induction run generalizing m with
  | nil => simp [runTrace]
  | cons head rest ih =>
    obtain ⟨c, faults⟩ := head
    intro step hstep
    rcases List.mem_append.mp hstep with hstep | hstep
    · exact (call_steps h hrun.1).trace faults step hstep
    · exact ih (call_keeps h hrun.1 faults) hrun.2 step hstep

/-- The slots stay safe through every map operation of every run. -/
theorem runTrace_slots_safe (run : CallRun) (hrun : ConfiguredFirst run Maps.zeroed) :
    ∀ step ∈ runTrace run Maps.zeroed,
      (Unconfigured step.after ∨ SlotInvariant step.after) ∧
      (SlotInvariant step.before → SlotInvariant step.after) ∧
      ∀ slot nh, step.op = .putNextHop slot nh →
        ¬ Resolvable step.before slot ∨ Unconfigured step.before := by
  intro step hstep
  have hsafe := runTrace_safe (Or.inl zeroed_unconfigured) hrun step hstep
  exact ⟨hsafe.after, hsafe.stays, hsafe.put⟩

def docAddr (n : UInt8) : Addr :=
  .v6 ⟨[0x20, 0x01, 0x0d, 0xb8, 0, 0, 0, 0, 0, 0, 0, 0, 0, 0, 0, n], rfl⟩ ""

def docConfig : B4ConfigArgs := { b4Addr := docAddr 1, aftrAddr := docAddr 2, wanIfindex := 2 }

theorem runTrace_slots_safe_startup :
    ConfiguredFirst [(.setB4Config docConfig, noFaults),
      (.beginMigration (docAddr 1) (docAddr 3), noFaults)] Maps.zeroed ∧
    ∀ step ∈ runTrace [(.setB4Config docConfig, noFaults),
        (.beginMigration (docAddr 1) (docAddr 3), noFaults)] Maps.zeroed,
      (Unconfigured step.after ∨ SlotInvariant step.after) ∧
      (SlotInvariant step.before → SlotInvariant step.after) ∧
      ∀ slot nh, step.op = .putNextHop slot nh →
        ¬ Resolvable step.before slot ∨ Unconfigured step.before := by
  have hrun : ConfiguredFirst [(.setB4Config docConfig, noFaults),
      (.beginMigration (docAddr 1) (docAddr 3), noFaults)] Maps.zeroed :=
    ⟨Or.inl rfl, Or.inr ⟨0, by decide⟩, trivial⟩
  exact ⟨hrun, runTrace_slots_safe _ hrun⟩

/-- Before the first write of slot 0 the word already names it active, and it is not valid. -/
theorem startup_active_slot_invalid :
    ∃ step ∈ runTrace [(.setB4Config docConfig, noFaults)] Maps.zeroed,
      ¬ SlotInvariant step.after := by
  refine ⟨⟨.putB4Config (b4ConfigOf docConfig), Maps.zeroed,
    MapOp.effect (.putB4Config (b4ConfigOf docConfig)) Maps.zeroed⟩, ?_, ?_⟩
  · exact List.mem_append_left _ (List.mem_cons_self)
  · intro h
    exact absurd h.active.valid (by decide)

end Minuteman.Loader
