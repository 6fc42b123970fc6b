import Minuteman.PathMtu.Recycling

/-!
# The path MTU that user space applies

`TunnelPMTU` takes the minimum of the readings in force over all slots, and
relies on the loader to forget the readings of endpoints that traffic has
left.
-/
namespace Minuteman.PathMtu
open Library ByteString Datapath Loader Migration Prog

def tunnelPmtuExpiry : ℕ := 10 * 60 * 1000000000

/-- One round of the loop of `TunnelPMTU`. -/
def takeReading (now : ℕ) (mtu : Option ℕ) (v : TunnelPmtu) : Option ℕ :=
  if v.updatedNs = 0 ∨ v.mtu = 0 then mtu
  else if elapsedNs now v.updatedNs > tunnelPmtuExpiry then mtu
  else
    match mtu with
    | none => some v.mtu
    | some best => if v.mtu < best then some v.mtu else some best

/-- `TunnelPMTU`, given the clock's answer and the lookups the kernel refuses. -/
def tunnelPmtu (m : Maps) (clock : Option ℕ) (refused : ℕ → Bool) : Option ℕ :=
  match clock with
  | none => none
  | some now =>
    (List.range numNextHops).foldl
      (fun mtu slot => if refused slot then mtu else takeReading now mtu (m.tunnelPmtus slot)) none

/-- `effective`: the MTU that the fragmenter, the MSS clamp and the tunnel device are given. -/
def effective (wanMtu : ℤ) (learned : Option ℕ) : ℤ :=
  match learned with
  | none => wanMtu
  | some mtu => if (mtu : ℤ) < wanMtu then mtu else wanMtu

def InForce (now : ℕ) (e : TunnelPmtu) : Prop :=
  e.updatedNs ≠ 0 ∧ e.mtu ≠ 0 ∧ elapsedNs now e.updatedNs ≤ tunnelPmtuExpiry

theorem not_inForce_empty (now : ℕ) : ¬ InForce now {} := fun h => h.1 rfl

/-- A reading that no longer counts does not count again while the clock lasts. -/
theorem not_inForce_later {e : TunnelPmtu} {clock now : ℕ} (h : ¬ InForce clock e)
    (hpast : e.updatedNs ≤ clock) (hclock : clock ≤ now) (hnow : now < 2 ^ 64) :
    ¬ InForce now e := by
  rintro ⟨hset, hmtu, hyoung⟩
  refine h ⟨hset, hmtu, ?_⟩
  rw [elapsedNs_of_le (by omega) (by omega)] at hyoung ⊢
  omega

/-- The least member of a set, if it has one. -/
inductive LeastOf (S : Set ℕ) : Option ℕ → Prop
  | none (h : S = ∅) : LeastOf S none
  | some {v : ℕ} (h : IsLeast S v) : LeastOf S (some v)

theorem takeReading_of_inForce {now : ℕ} {v : TunnelPmtu} (h : InForce now v) {S : Set ℕ}
    {mtu : Option ℕ} (hleast : LeastOf S mtu) :
    LeastOf (insert v.mtu S) (takeReading now mtu v) := by
  obtain ⟨hset, hmtu, hyoung⟩ := h
  unfold takeReading
  rw [if_neg (not_or.mpr ⟨hset, hmtu⟩), if_neg (not_lt.mpr hyoung)]
  cases hleast with
  | none hempty =>
    rw [hempty]
    exact .some ⟨Set.mem_insert _ _, by simp⟩
  | some hbest =>
    have hinsert := hbest.insert v.mtu
    dsimp only
    split_ifs with hlt
    · rw [min_eq_left hlt.le] at hinsert
      exact .some hinsert
    · rw [min_eq_right (not_lt.mp hlt)] at hinsert
      exact .some hinsert

theorem takeReading_of_not_inForce {now : ℕ} {v : TunnelPmtu} (h : ¬ InForce now v)
    (mtu : Option ℕ) : takeReading now mtu v = mtu := by
  unfold takeReading
  split_ifs with hunset hold
  · rfl
  · rfl
  · rw [not_or] at hunset
    exact absurd ⟨hunset.1, hunset.2, not_lt.mp hold⟩ h

/-- The MTUs in force at `now` among the slots of which `P` holds. -/
def readings (m : Maps) (now : ℕ) (P : ℕ → Prop) : Set ℕ :=
  {v | ∃ slot, P slot ∧ InForce now (m.tunnelPmtus slot) ∧ (m.tunnelPmtus slot).mtu = v}

theorem readings_congr {m : Maps} {now : ℕ} {P P' : ℕ → Prop}
    (h : ∀ slot, InForce now (m.tunnelPmtus slot) → (P slot ↔ P' slot)) :
    readings m now P = readings m now P' := by
  ext v
  constructor
  · rintro ⟨slot, hP, hforce, hv⟩
    exact ⟨slot, (h slot hforce).mp hP, hforce, hv⟩
  · rintro ⟨slot, hP, hforce, hv⟩
    exact ⟨slot, (h slot hforce).mpr hP, hforce, hv⟩

/-- The loop of `TunnelPMTU` finds the least of the readings it could look up. -/
theorem foldl_leastOf (m : Maps) (now : ℕ) (refused : ℕ → Bool) (slots : List ℕ) :
    LeastOf (readings m now fun slot => slot ∈ slots ∧ refused slot = false)
      (slots.foldl (fun mtu slot => if refused slot then mtu
        else takeReading now mtu (m.tunnelPmtus slot)) none) := by
  induction slots using List.reverseRecOn with
  | nil => exact .none (Set.eq_empty_of_forall_notMem fun v ⟨slot, h, _⟩ => List.not_mem_nil h.1)
  | append_singleton slots slot ih =>
    rw [List.foldl_append, List.foldl_cons, List.foldl_nil]
    by_cases hcounts : refused slot = false ∧ InForce now (m.tunnelPmtus slot)
    · have hinsert : readings m now (fun i => i ∈ slots ++ [slot] ∧ refused i = false) =
          insert (m.tunnelPmtus slot).mtu
            (readings m now fun i => i ∈ slots ∧ refused i = false) := by
        ext v
        simp only [readings, List.mem_append, List.mem_singleton, Set.mem_insert_iff,
          Set.mem_ofPred_eq]
        constructor
        · rintro ⟨i, ⟨hi | rfl, hread⟩, hforce, rfl⟩
          · exact Or.inr ⟨i, ⟨hi, hread⟩, hforce, rfl⟩
          · exact Or.inl rfl
        · rintro (rfl | ⟨i, ⟨hi, hread⟩, hforce, rfl⟩)
          · exact ⟨slot, ⟨Or.inr rfl, hcounts.1⟩, hcounts.2, rfl⟩
          · exact ⟨i, ⟨Or.inl hi, hread⟩, hforce, rfl⟩
      rw [hinsert, if_neg (by simp [hcounts.1])]
      exact takeReading_of_inForce hcounts.2 ih
    · have hsame : readings m now (fun i => i ∈ slots ++ [slot] ∧ refused i = false) =
          readings m now fun i => i ∈ slots ∧ refused i = false := by
        refine readings_congr fun i hforce => ?_
        rw [List.mem_append, List.mem_singleton]
        constructor
        · rintro ⟨hi | rfl, hread⟩
          · exact ⟨hi, hread⟩
          · exact absurd ⟨hread, hforce⟩ hcounts
        · exact fun h => ⟨Or.inl h.1, h.2⟩
      rw [hsame]
      split_ifs with hread
      · exact ih
      · have hold : ¬ InForce now (m.tunnelPmtus slot) :=
          fun hforce => hcounts ⟨by simpa using hread, hforce⟩
        rwa [takeReading_of_not_inForce hold]

/-- Something that happens to the maps, or time passing. -/
inductive Happening
  | event (e : Event)
  | tick (now : ℕ)

def Timed.next (s : Timed) : Happening → Timed
  | .event e => s.step e
  | .tick now => { s with clock := now }

/-- No refused operation and no unexpired reading keeps the old slot's path MTU in force. -/
def RetiresOld (s : Timed) (faults : Faults) : Prop :=
  s.maps.ctrl.state = migDraining →
    faults = noFaults ∨ ¬ InForce s.clock (s.maps.tunnelPmtus s.maps.ctrl.oldSlot)

/-- The call leaves no slot with a reading in force, unless it clears it. -/
def LeavesNoReading (s : Timed) (faults : Faults) : Call → Prop
  | .setB4Config _ => False
  | .completeMigration => RetiresOld s faults
  | .switchAftr _ _ =>
    ¬ InForce s.clock (s.maps.tunnelPmtus s.maps.ctrl.activeSlot) ∧ RetiresOld s faults
  | _ => True

/-- Time does not go back, messages are about slots that encap resolves, and no call leaves a
reading in force behind. -/
def Admits (s : Timed) : Happening → Prop
  | .tick now => s.clock ≤ now ∧ now < 2 ^ 64
  | .event (.packet p) => (s.clock ≤ p.env.now ∧ p.env.now < 2 ^ 64) ∧
      ∀ slot mtu, p.tooBig s.maps = some (slot, mtu) → Resolvable s.maps slot
  | .event (.call c faults) => LeavesNoReading s faults c
  | .event (.gc _ _ _) => True

/-- Only slots that encap can resolve have a reading in force. -/
structure Settled (s : Timed) : Prop where
  slots : SlotInvariant s.maps
  past : ∀ slot, (s.maps.tunnelPmtus slot).updatedNs ≤ s.clock
  quiet : ∀ slot < numNextHops, ¬ Resolvable s.maps slot →
    ¬ InForce s.clock (s.maps.tunnelPmtus slot)

namespace Settled
variable {s : Timed}

/-- Encap's slots have all the readings in force, so the minimum over all slots is theirs. -/
theorem tunnelPmtu_leastOf (h : Settled s) {now : ℕ} (hclock : s.clock ≤ now) (hnow : now < 2 ^ 64)
    (refused : ℕ → Bool) :
    LeastOf (readings s.maps now fun slot => Resolvable s.maps slot ∧ refused slot = false)
      (tunnelPmtu s.maps (some now) refused) := by
  have hslots : readings s.maps now (fun slot => slot ∈ List.range numNextHops ∧
      refused slot = false) =
      readings s.maps now fun slot => Resolvable s.maps slot ∧ refused slot = false := by
    refine readings_congr fun slot hforce => and_congr_left fun _ => ?_
    rw [List.mem_range]
    constructor
    · intro hlt
      by_contra hres
      exact not_inForce_later (h.quiet slot hlt hres) (h.past slot) hclock hnow hforce
    · rintro (rfl | ⟨-, rfl⟩)
      · exact h.slots.active_lt
      · exact h.slots.old_lt
  rw [← hslots]
  exact foldl_leastOf s.maps now refused (List.range numNextHops)

theorem tick (h : Settled s) {now : ℕ} (hclock : s.clock ≤ now) (hnow : now < 2 ^ 64) :
    Settled { s with clock := now } :=
  ⟨h.slots, fun slot => (h.past slot).trans hclock,
    fun slot hlt hres => not_inForce_later (h.quiet slot hlt hres) (h.past slot) hclock hnow⟩

theorem packet (h : Settled s) {p : Packet} (hclock : s.clock ≤ p.env.now)
    (hnow : p.env.now < 2 ^ 64)
    (hres : ∀ slot mtu, p.tooBig s.maps = some (slot, mtu) → Resolvable s.maps slot) :
    Settled (s.step (.packet p)) := by
  have hloader : (p.after s.maps).toLoaderMaps = s.maps.toLoaderMaps := p.after_toLoaderMaps s.maps
  have hctrl : (p.after s.maps).ctrl = s.maps.ctrl :=
    congrArg (fun l : LoaderMaps => unpackMigrationCtrl l.migrationCtrl) hloader
  have hslots : (p.after s.maps).nextHops = s.maps.nextHops := congrArg LoaderMaps.nextHops hloader
  have hlater := h.tick hclock hnow
  have hread : ∀ slot, (p.after s.maps).tunnelPmtus slot = s.maps.tunnelPmtus slot ∨
      (Resolvable s.maps slot ∧ ((p.after s.maps).tunnelPmtus slot).updatedNs = p.env.now) := by
    intro slot
    rcases p.after_tunnelPmtus s.maps with ⟨hsame, -⟩ | ⟨slot', mtu, htooBig, -, hpmtus⟩
    · exact Or.inl (congrFun hsame slot)
    · rw [hpmtus]
      by_cases heq : slot = slot'
      · subst heq
        exact Or.inr ⟨hres slot mtu htooBig, by rw [Function.update_self]⟩
      · exact Or.inl (Function.update_of_ne heq _ _)
  refine ⟨?_, fun slot => ?_, fun slot hlt hslot => ?_⟩
  · change SlotsSafe (p.after s.maps).ctrl (p.after s.maps).nextHops
    rw [hctrl, hslots]
    exact h.slots
  · rcases hread slot with hsame | ⟨-, hnew⟩
    · change ((p.after s.maps).tunnelPmtus slot).updatedNs ≤ p.env.now
      rw [hsame]
      exact hlater.past slot
    · exact hnew.le
  · have hfree : ¬ Resolvable s.maps slot := by
      unfold Resolvable at hslot ⊢
      rwa [show (s.step (.packet p)).maps.ctrl = s.maps.ctrl from hctrl] at hslot
    have hsame := (hread slot).resolve_right fun hnew => hfree hnew.1
    change ¬ InForce p.env.now ((p.after s.maps).tunnelPmtus slot)
    rw [hsame]
    exact hlater.quiet slot hlt hfree

end Settled

/-- A call leaves a reading as it is or forgets it. -/
theorem exec_tunnelPmtus {α : Type} {p : LoaderM α} {Q : Option ℕ → Prop} {cleared : Option ℕ}
    (h : Obeys clearFirst Q p cleared) (faults : Faults) (m : Maps) (slot : ℕ) :
    (p.exec MapOp.effect faults m).2.tunnelPmtus slot = m.tunnelPmtus slot ∨
      (p.exec MapOp.effect faults m).2.tunnelPmtus slot = {} := by
  refine h.rel (R := fun (a b : Maps) => b.tunnelPmtus slot = a.tunnelPmtus slot ∨
    b.tunnelPmtus slot = {}) (fun _ => Or.inl rfl) ?_ ?_ faults m
  · rintro a b c hab (hbc | hbc)
    · rw [hbc]
      exact hab
    · exact Or.inr hbc
  · intro t o m ho
    cases o with
    | putTunnelPmtu i v =>
      by_cases heq : slot = i
      · subst heq
        exact Or.inr ((Function.update_self _ _ _).trans ho)
      · exact Or.inl (Function.update_of_ne heq _ _)
    | _ => exact Or.inl rfl

/-- A complete migration that no fault disturbs forgets the old slot's reading. -/
theorem completeMigration_noFaults {m : Maps} (h : SlotInvariant m)
    (hstate : m.ctrl.state = migDraining) :
    ∃ m', completeMigration.exec MapOp.effect noFaults m = (.ok (), m') ∧
      m'.tunnelPmtus m.ctrl.oldSlot = {} := by
  have hread : readCtrl.exec MapOp.effect noFaults m = (.ok m.ctrl, m) := rfl
  rw [completeMigration, endMigration, exec_noFaults_bind hread, if_neg (not_not.mpr hstate)]
  simp only [writeCtrl, clearNextHop, clearTunnelPmtu, putSlot, if_pos h.old_lt, perform_bind,
    exec_noFaults_op, exec_noFaults_perform]
  exact ⟨_, rfl, Function.update_self _ _ _⟩

/-- A switch that ends a migration undisturbed forgets the old slot's reading too. -/
theorem switchAftr_noFaults {m : Maps} (h : SlotInvariant m) (hstate : m.ctrl.state = migDraining)
    (b4 aftr : Addr) :
    ((switchAftr b4 aftr).exec MapOp.effect noFaults m).2 = m ∨
      ((switchAftr b4 aftr).exec MapOp.effect noFaults m).2.tunnelPmtus m.ctrl.oldSlot = {} := by
  have hread : readCtrl.exec MapOp.effect noFaults m = (.ok m.ctrl, m) := rfl
  have hpriming : m.ctrl.state ≠ migPriming := by
    rw [hstate]
    decide
  obtain ⟨m', hcomplete, hclear⟩ := completeMigration_noFaults h hstate
  unfold switchAftr validateSoftwireAddrs
  split_ifs
  · exact Or.inl rfl
  · exact Or.inl rfl
  · rw [pure_bind, exec_noFaults_bind hread, if_neg hpriming, if_pos hstate,
      exec_noFaults_bind hcomplete]
    have hflip : Obeys clearFirst (fun _ => True) (flipToFreeSlot b4 aftr) none :=
      flipToFreeSlot_obeys b4 aftr
    refine Or.inr ?_
    rcases exec_tunnelPmtus hflip noFaults m' m.ctrl.oldSlot with hsame | hempty
    · rw [hsame, hclear]
    · exact hempty

/-- A slot that a call makes unresolvable has no reading in force, or has none any more. -/
theorem Settled.retired {s : Timed} (h : Settled s) {c : Call} {faults : Faults}
    (hc : LeavesNoReading s faults c) {slot : ℕ} (hlt : slot < numNextHops)
    (hfree : ¬ Resolvable (c.exec faults s.maps).2 slot) :
    ¬ InForce s.clock (s.maps.tunnelPmtus slot) ∨
      (c.exec faults s.maps).2.tunnelPmtus slot = {} := by
  have hset : c.isSetB4Config = false := by
    cases c with
    | setB4Config cfg => exact hc.elim
    | _ => rfl
  have hout := c.outcome h.slots hset faults
  have hquiet : slot ≠ s.maps.ctrl.activeSlot → s.maps.ctrl.state ≠ migDraining →
      ¬ InForce s.clock (s.maps.tunnelPmtus slot) := fun hactive hstate =>
    h.quiet slot hlt (not_or.mpr ⟨hactive, fun hold => hstate hold.1⟩)
  generalize hr : (c.exec faults s.maps).1 = r at hout
  generalize hm : (c.exec faults s.maps).2 = m' at hout hfree ⊢
  cases hout with
  | unmoved hu =>
    refine Or.inl (h.quiet slot hlt ?_)
    unfold Resolvable at hfree ⊢
    rwa [hu.ctrl] at hfree
  | begun _ hb =>
    refine Or.inl (hquiet (fun heq => hfree (Or.inl ?_)) ?_)
    · rw [hb.ctrl]
      exact heq
    · rw [hb.steady]
      decide
  | cutOver hcut =>
    refine absurd ?_ hfree
    unfold Resolvable
    rw [hcut.ctrl]
    by_cases heq : slot = s.maps.ctrl.activeSlot
    · exact Or.inr ⟨rfl, heq⟩
    · exact Or.inl (eq_otherSlot h.slots.active_lt hlt heq)
  | completed hstate hend =>
    have hold : slot = s.maps.ctrl.oldSlot := by
      rw [h.slots.old_eq hstate]
      exact eq_otherSlot h.slots.active_lt hlt fun heq => hfree (Or.inl (heq.trans hend.activeSlot.symm))
    rcases hc hstate with rfl | hforce
    · obtain ⟨m'', hexec, hclear⟩ := completeMigration_noFaults h.slots hstate
      refine Or.inr ?_
      rw [hold, ← hm, Call.exec, Call.prog, hexec]
      exact hclear
    · rw [hold]
      exact Or.inl hforce
  | aborted hstate hend =>
    refine Or.inl (hquiet (fun heq => hfree (Or.inl (heq.trans hend.activeSlot.symm))) ?_)
    rw [hstate]
    decide
  | switchFailed hend =>
    have hne : slot ≠ s.maps.ctrl.activeSlot :=
      fun heq => hfree (Or.inl (heq.trans hend.activeSlot.symm))
    by_cases hstate : s.maps.ctrl.state = migDraining
    · have hold : slot = s.maps.ctrl.oldSlot := by
        rw [h.slots.old_eq hstate]
        exact eq_otherSlot h.slots.active_lt hlt hne
      rcases hc.2 hstate with rfl | hforce
      · next b4 aftr _ =>
        rcases switchAftr_noFaults h.slots hstate b4 aftr with hsame | hclear
        · have hsteady := congrArg MigrationCtrl.state hend.ctrl
          rw [show m' = s.maps from hm.symm.trans hsame, hstate] at hsteady
          cases hsteady
        · rw [hold, ← hm]
          exact Or.inr hclear
      · rw [hold]
        exact Or.inl hforce
    · exact Or.inl (hquiet hne hstate)
  | switched _ hsw =>
    have hactive : slot = s.maps.ctrl.activeSlot := by
      by_contra hne
      refine hfree (Or.inl ?_)
      rw [hsw.ctrl]
      exact eq_otherSlot h.slots.active_lt hlt hne
    rw [hactive]
    exact Or.inl hc.1

theorem Settled.call {s : Timed} (h : Settled s) {c : Call} {faults : Faults}
    (hc : LeavesNoReading s faults c) : Settled (s.step (.call c faults)) := by
  have hobeys : Obeys clearFirst (fun _ => True) c.prog none := call_obeys c
  have hread : ∀ slot, (c.exec faults s.maps).2.tunnelPmtus slot = s.maps.tunnelPmtus slot ∨
      (c.exec faults s.maps).2.tunnelPmtus slot = {} :=
    exec_tunnelPmtus hobeys faults s.maps
  refine ⟨c.exec_slotInvariant h.slots faults, fun slot => ?_, fun slot hlt hfree => ?_⟩
  · change ((c.exec faults s.maps).2.tunnelPmtus slot).updatedNs ≤ s.clock
    rcases hread slot with hsame | hempty
    · rw [hsame]
      exact h.past slot
    · rw [hempty]
      exact Nat.zero_le _
  · change ¬ InForce s.clock ((c.exec faults s.maps).2.tunnelPmtus slot)
    rcases hread slot with hsame | hempty
    · rcases h.retired hc hlt hfree with hforce | hempty
      · rwa [hsame]
      · rw [hempty]
        exact not_inForce_empty s.clock
    · rw [hempty]
      exact not_inForce_empty s.clock

theorem Settled.gc {s : Timed} (h : Settled s) (t : FlowIdleTimeouts) (now : ℕ) (faults : Faults) :
    Settled (s.step (.gc t now faults)) := by
  have hpmtus : (s.step (.gc t now faults)).maps.tunnelPmtus = s.maps.tunnelPmtus :=
    gcFlowAffinity_tunnelPmtus t now faults s.maps
  have hloader : (s.step (.gc t now faults)).maps.toLoaderMaps = s.maps.toLoaderMaps := by
    rcases (gcFlowAffinity_spec t now s.maps).exec faults with ⟨-, hsame⟩ | ⟨-, hcollected⟩
    · exact congrArg Maps.toLoaderMaps hsame
    · exact hcollected.loader
  have hctrl : (s.step (.gc t now faults)).maps.ctrl = s.maps.ctrl :=
    congrArg (fun l : LoaderMaps => unpackMigrationCtrl l.migrationCtrl) hloader
  refine ⟨?_, fun slot => ?_, fun slot hlt hfree => ?_⟩
  · rw [SlotInvariant, hctrl, congrArg LoaderMaps.nextHops hloader]
    exact h.slots
  · rw [hpmtus]
    exact h.past slot
  · rw [hpmtus]
    refine h.quiet slot hlt ?_
    unfold Resolvable at hfree ⊢
    rwa [hctrl] at hfree

theorem Settled.next {s : Timed} (h : Settled s) {a : Happening} (ha : Admits s a) :
    Settled (s.next a) := by
  cases a with
  | tick now => exact h.tick ha.1 ha.2
  | event e =>
    cases e with
    | packet p => exact h.packet ha.1.1 ha.1.2 ha.2
    | call c faults => exact h.call ha
    | gc t now faults => exact h.gc t now faults

/-- In every run in which no traffic leaves a reading in force behind, what user space applies is
the least reading in force among the slots that encap can resolve. -/
theorem tunnelPmtu_least_resolvable (m : Maps) (clock : ℕ) (hm : SlotInvariant m)
    (hclear : ∀ slot, m.tunnelPmtus slot = {}) (happenings : List Happening)
    (hadmits : Along Timed.next Admits ⟨m, clock⟩ happenings) (now : ℕ)
    (hclock : (happenings.foldl Timed.next ⟨m, clock⟩).clock ≤ now) (hnow : now < 2 ^ 64)
    (refused : ℕ → Bool) (wanMtu : ℤ) :
    let s := happenings.foldl Timed.next ⟨m, clock⟩
    let inForce := readings s.maps now fun slot => Resolvable s.maps slot ∧ refused slot = false
    LeastOf inForce (tunnelPmtu s.maps (some now) refused) ∧
      (effective wanMtu (tunnelPmtu s.maps (some now) refused) ≠ wanMtu →
        ∃ v ∈ inForce, effective wanMtu (tunnelPmtu s.maps (some now) refused) = v) := by
  intro s inForce
  have hfirst : Settled ⟨m, clock⟩ := by
    refine ⟨hm, fun slot => ?_, fun slot _ _ => ?_⟩ <;> dsimp only <;> rw [hclear slot]
    · exact Nat.zero_le _
    · exact not_inForce_empty clock
  have hlast : Settled s := hadmits.invariant (fun _ _ hs ha => hs.next ha) hfirst
  have hleast := hlast.tunnelPmtu_leastOf hclock hnow refused
  refine ⟨hleast, fun hne => ?_⟩
  generalize tunnelPmtu s.maps (some now) refused = mtu at hleast hne ⊢
  cases hleast with
  | none _ => exact absurd rfl hne
  | some hmin =>
    next v =>
    unfold effective at hne ⊢
    dsimp only at hne ⊢
    split_ifs at hne ⊢
    · exact ⟨v, hmin.1, rfl⟩
    · exact absurd rfl hne

/-- A message about the softwire in use, and then a migration begins. -/
def reportedHappenings : List Happening :=
  [.event (.packet (docTooBig 2 1300 5)),
    .event (.call (.beginMigration (docAddr 1) (docAddr 3)) noFaults), .tick 20]

def reported : Timed := reportedHappenings.foldl Timed.next ⟨configuredMaps, 0⟩

theorem tunnelPmtu_least_resolvable_reported :
    LeastOf (readings reported.maps 20 fun slot => Resolvable reported.maps slot ∧ false = false)
      (some 1300) := by
  have hadmits : Along Timed.next Admits ⟨configuredMaps, 0⟩ reportedHappenings := by
    refine ⟨⟨⟨by decide, by norm_num [docTooBig, tooBigPacket]⟩, fun slot mtu htooBig => ?_⟩, trivial,
      ⟨by decide, by norm_num⟩, trivial⟩
    have hslot : (docTooBig 2 1300 5).tooBig configuredMaps = some (0, 1300) := by decide +kernel
    cases hslot.symm.trans htooBig
    exact Or.inl (by decide)
  have hclock : reported.clock ≤ 20 := by decide
  have hboth := tunnelPmtu_least_resolvable configuredMaps 0 configuredMaps_started.slotInvariant
    configuredMaps_tunnelPmtus reportedHappenings hadmits 20 hclock (by norm_num)
    (fun _ => false) 1500
  have hresult : tunnelPmtu reported.maps (some 20) (fun _ => false) = some 1300 := by
    decide +kernel
  rw [← hresult]
  exact hboth.1

/-- The maps after a message about the softwire in use and a hard switch to another AFTR. -/
def switchedAway : Maps :=
  ((Call.switchAftr (docAddr 1) (docAddr 3)).exec noFaults
    ((docTooBig 2 1300 5).after configuredMaps)).2

theorem switchAftr_keeps_reading :
    tunnelPmtu switchedAway (some 20) (fun _ => false) = some 1300 ∧
      readings switchedAway 20 (Resolvable switchedAway) = ∅ := by
  have hctrl : switchedAway.ctrl = ⟨1, 1, migSteady, 0⟩ := by decide +kernel
  have hempty : switchedAway.tunnelPmtus 1 = {} := by decide +kernel
  refine ⟨by decide +kernel, Set.eq_empty_of_forall_notMem ?_⟩
  rintro v ⟨slot, hres, hforce, -⟩
  unfold Resolvable at hres
  rw [hctrl] at hres
  dsimp only at hres
  rcases hres with rfl | ⟨hstate, -⟩
  · rw [hempty] at hforce
    exact not_inForce_empty 20 hforce
  · exact absurd hstate (by decide)

end Minuteman.PathMtu
