import Minuteman.Loader.SlotSafety

/-!
# What each loader call can do

For every call and every pattern of refused map operations, the ways the
control word and the slots can come out.
-/
namespace Minuteman.Loader
open Library Datapath Prog

def pairHop (b4 aftr : Addr) : NextHop := ⟨true, b4.as16, aftr.as16⟩

theorem steady_safe {m : Maps} (h : SlotInvariant m) :
    SlotsSafe ⟨m.ctrl.activeSlot, m.ctrl.activeSlot, migSteady, m.ctrl.epoch⟩ m.nextHops :=
  ⟨Or.inl rfl, h.active_lt, h.active, h.active_lt,
    fun hd => absurd hd migSteady_ne_migDraining, fun hp => absurd hp migSteady_ne_migPriming⟩

/-- An address check either lets the call go on or ends it before any map operation. -/
theorem validateSoftwireAddrs_safe {m : Maps} (b4 aftr : Addr) :
    Safe (fun r m' => m' = m ∧ (r = .ok () → validateSoftwireAddrs b4 aftr = .pure ()))
      (validateSoftwireAddrs b4 aftr) m := by
  unfold validateSoftwireAddrs
  split_ifs
  · exact ⟨rfl, fun h => by cases h⟩
  · exact ⟨rfl, fun h => by cases h⟩
  · exact ⟨rfl, fun _ => rfl⟩

theorem beginMigration_safe {m : Maps} (h : SlotInvariant m) (b4 aftr : Addr) :
    Safe (fun r m' => (r = .ok () ∧ validateSoftwireAddrs b4 aftr = .pure () ∧
        Begun (pairHop b4 aftr) m m') ∨ ((∃ e, r = .error e) ∧ Unmoved m m'))
      (beginMigration b4 aftr) m := by
  refine Spec.bind (validateSoftwireAddrs_safe b4 aftr) ?_ ?_
  · rintro _ t ⟨rfl, hv⟩
    have hv := hv rfl
    refine Spec.bind (readCtrl_safe h) ?_ ?_
    · rintro c t ⟨rfl, hc⟩
      obtain rfl := hc c rfl
      split_ifs with hstate
      · exact Or.inr ⟨⟨_, rfl⟩, .refl t⟩
      · have hsteady : t.ctrl.state = migSteady := not_not.mp hstate
        refine Spec.bind (writeNextHop_safe (otherSlot t.ctrl.activeSlot) h hv) ?_ ?_
        · rintro _ u ⟨hctrl, ⟨-, -, hslots⟩ | ⟨⟨e, he⟩, -⟩⟩
          · have hcu : u.ctrl = t.ctrl := congrArg unpackMigrationCtrl hctrl
            have hsame : u.nextHops t.ctrl.activeSlot = t.nextHops t.ctrl.activeSlot := by
              rw [hslots, Function.update_of_ne (otherSlot_ne _).symm]
            have hstaged : Validated (u.nextHops (otherSlot t.ctrl.activeSlot)) := by
              rw [hslots, Function.update_self]
              exact ⟨b4, aftr, hv, rfl⟩
            have hu : SlotInvariant u := by
              rw [SlotInvariant, hcu, hslots]
              exact h.update (otherSlot_ne _)
                (fun hd => absurd (hsteady.symm.trans hd) migSteady_ne_migDraining) (Or.inr hsteady)
            have hsafe : SlotsSafe
                ⟨t.ctrl.activeSlot, t.ctrl.activeSlot, migPriming, (t.ctrl.epoch + 1) &&& 0xff⟩
                u.nextHops :=
              ⟨Or.inr (Or.inl rfl), h.active_lt, by rw [hsame]; exact h.active, h.active_lt,
                fun hd => absurd hd migPriming_ne_migDraining, fun _ => hstaged⟩
            refine (writeCtrl_safe hu hsafe ?_).imp ?_
            · change (t.ctrl.epoch + 1) &&& 0xff < 256
              rw [succ_epoch_mask]
              exact Nat.mod_lt _ (by decide)
            · rintro r v (⟨rfl, hcv, hsv⟩ | ⟨⟨e, rfl⟩, rfl⟩)
              · exact Or.inl ⟨rfl, hv, hsteady, by rw [hcv, succ_epoch_mask], hsv.trans hslots⟩
              · refine Or.inr ⟨⟨e, rfl⟩, hcu, ?_, fun hne => absurd hsteady hne⟩
                rintro slot (rfl | ⟨hd, -⟩)
                · exact hsame
                · exact absurd (hsteady.symm.trans hd) migSteady_ne_migDraining
          · cases he
        · rintro e u ⟨hctrl, ⟨he, -⟩ | ⟨-, hslots⟩⟩
          · cases he
          · exact Or.inr ⟨⟨e, rfl⟩, congrArg unpackMigrationCtrl hctrl,
              fun slot _ => congrFun hslots slot, fun _ => hslots⟩
    · rintro e t ⟨rfl, -⟩
      exact Or.inr ⟨⟨e, rfl⟩, .refl _⟩
  · rintro e t ⟨rfl, -⟩
    exact Or.inr ⟨⟨e, rfl⟩, .refl _⟩

theorem cutover_safe {m : Maps} (h : SlotInvariant m) :
    Safe (fun r m' => (r = .ok () ∧ CutOver m m') ∨ ((∃ e, r = .error e) ∧ m' = m))
      cutover m := by
  refine Spec.bind (readCtrl_safe h) ?_ ?_
  · rintro c t ⟨rfl, hc⟩
    obtain rfl := hc c rfl
    split_ifs with hstate
    · exact Or.inr ⟨⟨_, rfl⟩, rfl⟩
    · have hpriming : t.ctrl.state = migPriming := not_not.mp hstate
      have hsafe : SlotsSafe
          ⟨otherSlot t.ctrl.activeSlot, t.ctrl.activeSlot, migDraining, t.ctrl.epoch⟩
          t.nextHops :=
        ⟨Or.inr (Or.inr rfl), otherSlot_lt _, h.priming hpriming, h.active_lt,
          fun _ => ⟨(otherSlot_ne _).symm, h.active⟩, fun hp => absurd hp.symm migPriming_ne_migDraining⟩
      refine (writeCtrl_safe h hsafe t.ctrl_epoch_lt).imp ?_
      rintro r u (⟨rfl, hcu, hsu⟩ | ⟨⟨e, rfl⟩, rfl⟩)
      · exact Or.inl ⟨rfl, hpriming, hcu, hsu⟩
      · exact Or.inr ⟨⟨e, rfl⟩, rfl⟩
  · rintro e t ⟨rfl, -⟩
    exact Or.inr ⟨⟨e, rfl⟩, rfl⟩

/-- Ending a migration stores a steady word on the active slot, or moves nothing. -/
theorem endMigration_safe {m : Maps} (h : SlotInvariant m) {required : ℕ}
    (refuse : ℕ → LoaderError) {retired : MigrationCtrl → ℕ}
    (hretired : m.ctrl.state = required → retired m.ctrl ≠ m.ctrl.activeSlot) :
    Safe (fun r m' => ((∃ e, r = .error e) ∧ Unmoved m m') ∨
      (m.ctrl.state = required ∧ Ended m m')) (endMigration required refuse retired) m := by
  refine Spec.bind (readCtrl_safe h) ?_ ?_
  · rintro c t ⟨rfl, hc⟩
    obtain rfl := hc c rfl
    split_ifs with hstate
    · exact Or.inl ⟨⟨_, rfl⟩, .refl t⟩
    · have hrequired : t.ctrl.state = required := not_not.mp hstate
      refine Spec.bind (writeCtrl_safe h (steady_safe h) t.ctrl_epoch_lt) ?_ ?_
      · rintro _ u (⟨-, hcu, hsu⟩ | ⟨⟨e, he⟩, -⟩)
        · have hu : SlotInvariant u := by
            rw [SlotInvariant, hcu, hsu]
            exact steady_safe h
          refine (clearNextHop_safe _ hu (by rw [hcu])
            (by rw [hcu]; exact hretired hrequired)).imp ?_
          rintro r v ⟨hcv, hsv⟩
          rw [hcu] at hcv hsv
          exact Or.inr ⟨hrequired, hcv, by rw [hsv, hsu]⟩
        · cases he
      · rintro e u (⟨he, -⟩ | ⟨-, rfl⟩)
        · cases he
        · exact Or.inl ⟨⟨e, rfl⟩, .refl _⟩
  · rintro e t ⟨rfl, -⟩
    exact Or.inl ⟨⟨e, rfl⟩, .refl _⟩

theorem completeMigration_safe {m : Maps} (h : SlotInvariant m) :
    Safe (fun r m' => ((∃ e, r = .error e) ∧ Unmoved m m') ∨
      (m.ctrl.state = migDraining ∧ Ended m m')) completeMigration m :=
  endMigration_safe h _ fun hd => (h.draining hd).1

theorem abortMigration_safe {m : Maps} (h : SlotInvariant m) :
    Safe (fun r m' => ((∃ e, r = .error e) ∧ Unmoved m m') ∨
      (m.ctrl.state = migPriming ∧ Ended m m')) abortMigration m :=
  endMigration_safe h _ fun _ => otherSlot_ne _

theorem flipToFreeSlot_safe {m : Maps} (h : SlotInvariant m) (hsteady : m.ctrl.state = migSteady)
    {b4 aftr : Addr} (hv : validateSoftwireAddrs b4 aftr = .pure ()) :
    Safe (fun r m' => ((∃ e, r = .error e) ∧ Unmoved m m') ∨
      (r = .ok () ∧ Switched (pairHop b4 aftr) m m')) (flipToFreeSlot b4 aftr) m := by
  refine Spec.bind (readCtrl_safe h) ?_ ?_
  · rintro c t ⟨rfl, hc⟩
    obtain rfl := hc c rfl
    refine Spec.bind (writeNextHop_safe (otherSlot t.ctrl.activeSlot) h hv) ?_ ?_
    · rintro _ u ⟨hctrl, ⟨-, -, hslots⟩ | ⟨⟨e, he⟩, -⟩⟩
      · have hcu : u.ctrl = t.ctrl := congrArg unpackMigrationCtrl hctrl
        have hwritten : u.nextHops (otherSlot t.ctrl.activeSlot) = pairHop b4 aftr := by
          rw [hslots, Function.update_self]
          rfl
        have hu : SlotInvariant u := by
          rw [SlotInvariant, hcu, hslots]
          exact h.update (otherSlot_ne _)
            (fun hd => absurd (hsteady.symm.trans hd) migSteady_ne_migDraining) (Or.inr hsteady)
        have hsafe : SlotsSafe ⟨otherSlot t.ctrl.activeSlot, otherSlot t.ctrl.activeSlot,
            migSteady, t.ctrl.epoch⟩ u.nextHops :=
          ⟨Or.inl rfl, otherSlot_lt _, by rw [hwritten]; exact ⟨b4, aftr, hv, rfl⟩, otherSlot_lt _,
            fun hd => absurd hd migSteady_ne_migDraining,
            fun hp => absurd hp migSteady_ne_migPriming⟩
        refine (writeCtrl_safe hu hsafe t.ctrl_epoch_lt).imp ?_
        rintro r v (⟨rfl, hcv, hsv⟩ | ⟨⟨e, rfl⟩, rfl⟩)
        · refine Or.inr ⟨rfl, hcv, by rw [hsv, hwritten], ?_⟩
          rw [hsv, hslots, Function.update_of_ne (otherSlot_ne _).symm]
        · refine Or.inl ⟨⟨e, rfl⟩, hcu, ?_, fun hne => absurd hsteady hne⟩
          rintro slot (rfl | ⟨hd, -⟩)
          · rw [hslots, Function.update_of_ne (otherSlot_ne _).symm]
          · exact absurd (hsteady.symm.trans hd) migSteady_ne_migDraining
      · cases he
    · rintro e u ⟨hctrl, ⟨he, -⟩ | ⟨-, hslots⟩⟩
      · cases he
      · exact Or.inl ⟨⟨e, rfl⟩, congrArg unpackMigrationCtrl hctrl,
          fun slot _ => congrFun hslots slot, fun _ => hslots⟩
  · rintro e t ⟨rfl, -⟩
    exact Or.inl ⟨⟨e, rfl⟩, .refl _⟩

theorem Ended.slotInvariant {m m' : Maps} (h : SlotInvariant m) (he : Ended m m') :
    SlotInvariant m' := by
  refine ⟨?_, ?_, ?_, ?_, ?_, ?_⟩ <;> rw [he.ctrl]
  · exact Or.inl rfl
  · exact h.active_lt
  · rw [he.slots]
    exact h.active
  · exact h.active_lt
  · exact fun hd => absurd hd migSteady_ne_migDraining
  · exact fun hp => absurd hp migSteady_ne_migPriming

/-- After a migration has ended, flipping to the free slot starts from the same active slot. -/
private theorem flip_after_end {m t u : Maps} {nh : NextHop} (he : Ended m t)
    {r : Except LoaderError Unit}
    (hflip : ((∃ e, r = .error e) ∧ Unmoved t u) ∨ (r = .ok () ∧ Switched nh t u)) :
    ((∃ e, r = .error e) ∧ (Unmoved m u ∨ Ended m u)) ∨ (r = .ok () ∧ Switched nh m u) := by
  have hactive : t.ctrl.activeSlot = m.ctrl.activeSlot := by rw [he.ctrl]
  rcases hflip with ⟨herr, hu⟩ | ⟨rfl, hu⟩
  · refine Or.inl ⟨herr, Or.inr ⟨hu.ctrl.trans he.ctrl, ?_⟩⟩
    rw [← he.slots]
    exact hu.slots _ (Or.inl hactive.symm)
  · refine Or.inr ⟨rfl, ?_, ?_, ?_⟩
    · rw [hu.ctrl, he.ctrl]
    · rw [← hu.slot, hactive]
    · rw [← he.slots, ← hactive, hu.kept]

theorem switchAftr_safe {m : Maps} (h : SlotInvariant m) (b4 aftr : Addr) :
    Safe (fun r m' => ((∃ e, r = .error e) ∧ (Unmoved m m' ∨ Ended m m')) ∨
      (r = .ok () ∧ validateSoftwireAddrs b4 aftr = .pure () ∧
        Switched (pairHop b4 aftr) m m')) (switchAftr b4 aftr) m := by
  have herror : ∀ (e : LoaderError) (t : Maps),
      (((∃ e', (.error e : Except LoaderError Unit) = .error e') ∧ Unmoved m t) ∨ Ended m t) →
      ((∃ e', (.error e : Except LoaderError Unit) = .error e') ∧ (Unmoved m t ∨ Ended m t)) := by
    rintro e t (⟨-, ht⟩ | ht)
    · exact ⟨⟨e, rfl⟩, Or.inl ht⟩
    · exact ⟨⟨e, rfl⟩, Or.inr ht⟩
  refine Spec.bind (validateSoftwireAddrs_safe b4 aftr) ?_ ?_
  · rintro _ t ⟨rfl, hv⟩
    have hv := hv rfl
    refine Spec.bind (readCtrl_safe h) ?_ ?_
    · rintro c t ⟨rfl, hc⟩
      obtain rfl := hc c rfl
      have hflip : ∀ u, Ended t u → Safe (fun r m' =>
          ((∃ e, r = .error e) ∧ (Unmoved t m' ∨ Ended t m')) ∨
          (r = .ok () ∧ validateSoftwireAddrs b4 aftr = .pure () ∧
            Switched (pairHop b4 aftr) t m')) (flipToFreeSlot b4 aftr) u :=
        fun u hu => (flipToFreeSlot_safe (hu.slotInvariant h) (by rw [hu.ctrl]) hv).imp
          fun r v hflip => (flip_after_end hu hflip).imp_right fun hr => ⟨hr.1, hv, hr.2⟩
      split_ifs with hpriming hdraining
      · refine Spec.bind (abortMigration_safe h) ?_ ?_
        · rintro _ u (⟨⟨e, he⟩, -⟩ | ⟨-, hu⟩)
          · cases he
          · exact hflip u hu
        · rintro e u hu
          exact Or.inl (herror e u (hu.imp_right And.right))
      · refine Spec.bind (completeMigration_safe h) ?_ ?_
        · rintro _ u (⟨⟨e, he⟩, -⟩ | ⟨-, hu⟩)
          · cases he
          · exact hflip u hu
        · rintro e u hu
          exact Or.inl (herror e u (hu.imp_right And.right))
      · have hsteady : t.ctrl.state = migSteady :=
          (h.state.resolve_right (not_or.mpr ⟨hpriming, hdraining⟩))
        refine (flipToFreeSlot_safe h hsteady hv).imp ?_
        rintro r u (⟨herr, hu⟩ | hu)
        · exact Or.inl ⟨herr, Or.inl hu⟩
        · exact Or.inr ⟨hu.1, hv, hu.2⟩
    · rintro e t ⟨rfl, -⟩
      exact Or.inl ⟨⟨e, rfl⟩, Or.inl (.refl _)⟩
  · rintro e t ⟨rfl, -⟩
    exact Or.inl ⟨⟨e, rfl⟩, Or.inl (.refl _)⟩

end Minuteman.Loader
