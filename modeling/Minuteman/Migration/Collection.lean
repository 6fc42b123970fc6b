import Minuteman.Library.Interference
import Minuteman.Migration.Pinning

/-!
# Collecting flows while packets pass

`GCFlowAffinity` decides about each flow from a copy of its entry and deletes
the flows it decided against afterwards, by key alone. Packets pass between
any two of its steps.
-/
namespace Minuteman.Migration
open Library Datapath Loader Prog

/-- How far a collection has come, with what it has read. -/
inductive Phase
  | entered
  | holding (c : MigrationCtrl)
  | scanning (c : MigrationCtrl) (now : ℕ) (stale : List FlowKey)
  | deleting (c : MigrationCtrl) (stale : List FlowKey)
  | returned

/-- The flows that are collected and not yet deleted. -/
def Phase.stale : Phase → List FlowKey
  | .scanning _ _ stale => stale
  | .deleting _ stale => stale
  | _ => []

/-- What was read is the control word `ctrl` and a time no later than `clock`. -/
def Phase.Reads (ctrl : MigrationCtrl) (clock : ℕ) : Phase → Prop
  | .holding c => c = ctrl
  | .scanning c now _ => c = ctrl ∧ now ≤ clock
  | _ => True

theorem Phase.Reads.later {ctrl : MigrationCtrl} {clock clock' : ℕ} {phase : Phase}
    (h : phase.Reads ctrl clock) (hclock : clock ≤ clock') : phase.Reads ctrl clock' := by
  cases phase with
  | scanning c now stale => exact ⟨h.1, h.2.trans hclock⟩
  | holding c => exact h
  | _ => trivial

/-- The maps, the monotonic clock and a collection under way. -/
structure Collecting where
  maps : Maps
  clock : ℕ
  phase : Phase := .entered

/-- A whole packet, time passing, or a step of the collection. -/
inductive CollectAct
  | packet (p : Packet)
  | tick (now : ℕ)
  | readCtrl
  | readClock
  | visit (key : FlowKey)
  | endScan
  | delete (refused : Bool)
  | abandon

namespace Collecting
variable (t : FlowIdleTimeouts)

/-- Visit one entry: collect its key if the copy read is to be dropped. -/
def visit (s : Collecting) (key : FlowKey) : Collecting :=
  match s.phase, s.maps.flowAffinity.get key with
  | .scanning c now stale, some fa =>
    if dropsEntry c t now (key, fa) then { s with phase := .scanning c now (stale ++ [key]) } else s
  | _, _ => s

/-- Delete the next collected key; a refused deletion is skipped. -/
def delete (s : Collecting) (refused : Bool) : Collecting :=
  match s.phase with
  | .deleting c (key :: stale) =>
    { s with
      maps := if refused then s.maps else MapOp.effect (.deleteFlowAffinity key) s.maps
      phase := .deleting c stale }
  | _ => s

def step (s : Collecting) : CollectAct → Collecting
  | .packet p => { s with maps := p.after s.maps, clock := p.env.now }
  | .tick now => { s with clock := now }
  | .readCtrl =>
    match s.phase with
    | .entered => { s with phase := .holding s.maps.ctrl }
    | _ => s
  | .readClock =>
    match s.phase with
    | .holding c => { s with phase := .scanning c s.clock [] }
    | _ => s
  | .visit key => s.visit t key
  | .endScan =>
    match s.phase with
    | .scanning c _ stale => { s with phase := .deleting c stale }
    | _ => s
  | .delete refused => s.delete refused
  | .abandon =>
    match s.phase with
    | .deleting _ _ => s
    | _ => { s with phase := .returned }

/-- The entry is stamped with a past epoch or has been idle for longer than its timeout. -/
def Expired (s : Collecting) (key : FlowKey) (fa : FlowAffinity) : Prop :=
  fa.epoch ≠ s.maps.ctrl.epoch ∨ idleNs s.clock fa.lastSeenNs > t.of key

/-- The packet belongs to a pinned flow that is collected and not yet deleted. -/
def Resumes (s : Collecting) (p : Packet) : Prop :=
  ∃ key fa, p.flowKey s.maps = some key ∧ key ∈ s.phase.stale ∧
    s.maps.flowAffinity.get key = some fa ∧ fa.epoch = s.maps.ctrl.epoch

/-- Time does not go back, and no collected flow resumes before it is deleted. -/
def Allows (s : Collecting) : CollectAct → Prop
  | .packet p => (s.clock ≤ p.env.now ∧ p.env.now < 2 ^ 63) ∧ ¬ s.Resumes p
  | .tick now => s.clock ≤ now ∧ now < 2 ^ 63
  | _ => True

end Collecting

theorem idleNs_eq {now lastSeen : ℕ} (hnow : now < 2 ^ 63) (hseen : lastSeen < 2 ^ 63) :
    idleNs now lastSeen = (now : ℤ) - lastSeen := by
  have hbmod : ∀ n : ℕ, n < 2 ^ 63 → Int.bmod n (2 ^ 64) = n :=
    fun n hn => Int.bmod_eq_of_le (by omega) (by omega)
  unfold idleNs
  rw [hbmod now hnow, hbmod lastSeen hseen]
  exact Int.bmod_eq_of_le (by omega) (by omega)

namespace Collecting
variable {t : FlowIdleTimeouts} {s : Collecting}

/-- The collection works for the current migration, which is draining, and all it has collected is
expired. -/
structure Sound (t : FlowIdleTimeouts) (s : Collecting) : Prop where
  draining : s.maps.ctrl.state = migDraining
  fits : s.clock < 2 ^ 63
  seen : ∀ key fa, s.maps.flowAffinity.get key = some fa → fa.lastSeenNs ≤ s.clock
  reads : s.phase.Reads s.maps.ctrl s.clock
  stale : ∀ key ∈ s.phase.stale, ∀ fa, s.maps.flowAffinity.get key = some fa → s.Expired t key fa

/-- An expired entry stays expired while it is not touched. -/
theorem Expired.later {key : FlowKey} {fa : FlowAffinity} (h : s.Expired t key fa)
    (hseen : fa.lastSeenNs ≤ s.clock) {s' : Collecting} (hctrl : s'.maps.ctrl = s.maps.ctrl)
    (hclock : s.clock ≤ s'.clock) (hfits : s'.clock < 2 ^ 63) : s'.Expired t key fa := by
  unfold Expired at h ⊢
  rw [hctrl]
  refine h.imp_right fun hidle => ?_
  rw [idleNs_eq (by omega) (by omega)] at hidle ⊢
  omega

theorem Sound.tick (h : s.Sound t) {now : ℕ} (hclock : s.clock ≤ now) (hnow : now < 2 ^ 63) :
    Sound t { s with clock := now } := by
  refine ⟨h.draining, hnow, fun key fa hget => (h.seen key fa hget).trans hclock,
    h.reads.later hclock, fun key hkey fa hget => ?_⟩
  exact (h.stale key hkey fa hget).later (h.seen key fa hget) rfl hclock hnow

/-- While draining, a packet leaves every flow but its own alone, and its own too unless it is
pinned. -/
theorem packet_get {p : Packet} (hdraining : s.maps.ctrl.state = migDraining)
    (hresume : ¬ s.Resumes p) {key : FlowKey} (hkey : key ∈ s.phase.stale) :
    (p.after s.maps).flowAffinity.get key = s.maps.flowAffinity.get key := by
  rcases p.flowStep s.maps with ⟨-, hsame⟩ | ⟨-, k, fa, hk, htouched⟩
  · exact congrArg (fun v : FlowView => v.flows.get key) hsame
  · by_cases heq : key = k
    · subst heq
      have hstate : migState s.maps.migrationCtrl ≠ migPriming := by
        rw [show migState s.maps.migrationCtrl = migDraining from hdraining]
        decide
      have hsame := htouched.get_of_past hstate fun e hget hepoch =>
        hresume ⟨key, e, hk, hkey, hget, hepoch⟩
      exact congrArg (fun v : FlowView => v.flows.get key) hsame
    · exact htouched.get_of_ne heq

theorem Sound.packet (h : s.Sound t) {p : Packet} (hclock : s.clock ≤ p.env.now)
    (hnow : p.env.now < 2 ^ 63) (hresume : ¬ s.Resumes p) : (s.step t (.packet p)).Sound t := by
  have hctrl : (p.after s.maps).ctrl = s.maps.ctrl :=
    congrArg (fun l : LoaderMaps => unpackMigrationCtrl l.migrationCtrl)
      (p.after_toLoaderMaps s.maps)
  refine ⟨?_, hnow, fun key fa hget => ?_, ?_, fun key hkey fa hget => ?_⟩
  · exact (congrArg MigrationCtrl.state hctrl).trans h.draining
  · change (p.after s.maps).flowAffinity.get key = some fa at hget
    rcases p.flowStep s.maps with ⟨-, hsame⟩ | ⟨-, k, fa', -, htouched⟩
    · rw [show (p.after s.maps).flowAffinity = s.maps.flowAffinity from
        congrArg FlowView.flows hsame] at hget
      exact (h.seen key fa hget).trans hclock
    · rcases htouched.get_or_now hget with hold | hseen
      · exact (h.seen key fa hold).trans hclock
      · exact hseen.le
  · change s.phase.Reads (p.after s.maps).ctrl p.env.now
    rw [hctrl]
    exact h.reads.later hclock
  · change (p.after s.maps).flowAffinity.get key = some fa at hget
    rw [packet_get h.draining hresume hkey] at hget
    exact (h.stale key hkey fa hget).later (h.seen key fa hget) hctrl hclock hnow

theorem Sound.visit (h : s.Sound t) (key : FlowKey) : (s.visit t key).Sound t := by
  unfold Collecting.visit
  split
  · next c now stale fa hphase hget =>
    split_ifs with hdrop
    · have hreads := h.reads
      rw [hphase] at hreads
      obtain ⟨hc, hgc⟩ := hreads
      have hdropped : s.Expired t key fa := by
        have hseen := h.seen key fa hget
        have hfits := h.fits
        unfold dropsEntry at hdrop
        split_ifs at hdrop with hepoch hpriming
        · exact Or.inl (by rwa [hc] at hepoch)
        · refine Or.inr ?_
          rw [decide_eq_true_eq] at hdrop
          dsimp only at hdrop
          rw [idleNs_eq (by omega) (by omega)] at hdrop ⊢
          omega
      refine ⟨h.draining, h.fits, h.seen, ⟨hc, hgc⟩, fun k hk fa' hget' => ?_⟩
      rcases List.mem_append.mp hk with hk | hk
      · exact h.stale k (by rw [hphase]; exact hk) fa' hget'
      · obtain rfl := List.mem_singleton.mp hk
        cases hget.symm.trans hget'
        exact hdropped
    · exact h
  · exact h

theorem Sound.delete (h : s.Sound t) (refused : Bool) : (s.delete refused).Sound t := by
  unfold Collecting.delete
  split
  · next c key stale hphase =>
    have hkept : ∀ k fa, (if refused then s.maps
        else MapOp.effect (.deleteFlowAffinity key) s.maps).flowAffinity.get k = some fa →
        s.maps.flowAffinity.get k = some fa := by
      intro k fa hget
      split_ifs at hget
      · exact hget
      · rw [show (MapOp.effect (.deleteFlowAffinity key) s.maps).flowAffinity.get k = _ from
          BoundedMap.get_delete _ _ _] at hget
        split_ifs at hget
        exact hget
    have hctrl : (if refused then s.maps
        else MapOp.effect (.deleteFlowAffinity key) s.maps).ctrl = s.maps.ctrl := by
      split_ifs <;> rfl
    refine ⟨?_, h.fits, fun k fa hget => h.seen k fa (hkept k fa hget), trivial, ?_⟩
    · exact (congrArg MigrationCtrl.state hctrl).trans h.draining
    · intro k hk fa hget
      have hold := hkept k fa hget
      have hmem : k ∈ s.phase.stale := by
        rw [hphase]
        exact List.mem_cons_of_mem _ hk
      exact (h.stale k hmem fa hold).later (h.seen k fa hold) hctrl le_rfl h.fits
  · exact h

theorem Sound.step (h : s.Sound t) {a : CollectAct} (ha : s.Allows a) : (s.step t a).Sound t := by
  cases a with
  | packet p => exact h.packet ha.1.1 ha.1.2 ha.2
  | tick now => exact h.tick ha.1 ha.2
  | visit key => exact h.visit key
  | delete refused => exact h.delete refused
  | readCtrl =>
    unfold Collecting.step
    dsimp only
    split
    · exact ⟨h.draining, h.fits, h.seen, rfl, fun key hkey => absurd hkey List.not_mem_nil⟩
    · exact h
  | readClock =>
    unfold Collecting.step
    dsimp only
    split
    · next c hphase =>
      have hreads := h.reads
      rw [hphase] at hreads
      exact ⟨h.draining, h.fits, h.seen, ⟨hreads, le_rfl⟩,
        fun key hkey => absurd hkey List.not_mem_nil⟩
    · exact h
  | endScan =>
    unfold Collecting.step
    dsimp only
    split
    · next c now stale hphase =>
      refine ⟨h.draining, h.fits, h.seen, trivial, fun key hkey => h.stale key ?_⟩
      rw [hphase]
      exact hkey
    · exact h
  | abandon =>
    unfold Collecting.step
    dsimp only
    split
    · exact h
    · exact ⟨h.draining, h.fits, h.seen, trivial, fun key hkey => absurd hkey List.not_mem_nil⟩

end Collecting

def deleteActs : Faults → ℕ → List CollectAct
  | _, 0 => []
  | faults, n + 1 => .delete (faults 0) :: deleteActs (fun i => faults (i + 1)) n

section Quiet
variable (t : FlowIdleTimeouts) (m : Maps) (clock : ℕ) (c : MigrationCtrl)

/-- Visiting entries collects those that are to be dropped. -/
theorem foldl_visit (now : ℕ) (stale : List FlowKey) {entries : List (FlowKey × FlowAffinity)}
    (h : ∀ entry ∈ entries, m.flowAffinity.get entry.1 = some entry.2) :
    (entries.map fun entry => CollectAct.visit entry.1).foldl (Collecting.step t)
        ⟨m, clock, .scanning c now stale⟩ =
      ⟨m, clock, .scanning c now
        (stale ++ (entries.filter (dropsEntry c t now)).map Prod.fst)⟩ := by
  induction entries generalizing stale with
  | nil => simp
  | cons entry entries ih =>
    have hget := h entry List.mem_cons_self
    have hrest := fun e he => h e (List.mem_cons_of_mem _ he)
    rw [List.map_cons, List.foldl_cons, List.filter_cons]
    by_cases hdrop : dropsEntry c t now entry = true
    · have hvisit : Collecting.step t ⟨m, clock, .scanning c now stale⟩ (.visit entry.1) =
          ⟨m, clock, .scanning c now (stale ++ [entry.1])⟩ := by
        simp only [Collecting.step, Collecting.visit, hget]
        exact if_pos hdrop
      rw [hvisit, ih _ hrest, if_pos hdrop, List.map_cons, List.append_assoc, List.singleton_append]
    · have hvisit : Collecting.step t ⟨m, clock, .scanning c now stale⟩ (.visit entry.1) =
          ⟨m, clock, .scanning c now stale⟩ := by
        simp only [Collecting.step, Collecting.visit, hget]
        exact if_neg hdrop
      rw [hvisit, ih _ hrest, if_neg hdrop]

theorem foldl_delete (faults : Faults) (stale : List FlowKey) :
    ((deleteActs faults stale.length).foldl (Collecting.step t)
        ⟨m, clock, .deleting c stale⟩).maps =
      ((deleteFlows stale).exec MapOp.effect faults m).2 := by
  induction stale generalizing m faults with
  | nil => rfl
  | cons key stale ih =>
    rw [List.length_cons, deleteActs, List.foldl_cons]
    refine (ih _ _).trans ?_
    cases hfault : faults 0 <;> simp [deleteFlows, Prog.attempt, Prog.exec, hfault]

def quietActs (faults : Faults) : List CollectAct :=
  .readCtrl :: .readClock :: ((m.flowAffinity.toList.map fun entry => CollectAct.visit entry.1) ++
    .endScan :: deleteActs (fun n => faults (n + 3))
      (m.flowAffinity.toList.filter (dropsEntry m.ctrl t clock)).length)

/-- Uninterrupted, the steps do what `gcFlowAffinity` does. -/
theorem quiet_collection (faults : Faults) (hctrl : faults 0 = false) (hclock : faults 1 = false)
    (hiterate : faults 2 = false) :
    ((quietActs t m clock faults).foldl (Collecting.step t) ⟨m, clock, .entered⟩).maps =
      ((gcFlowAffinity t clock).exec MapOp.effect faults m).2 := by
  have hvisit := foldl_visit t m clock m.ctrl clock [] fun entry hentry =>
    BoundedMap.mem_toList.mp (show (entry.1, entry.2) ∈ m.flowAffinity.toList from hentry)
  have hdelete := foldl_delete t m clock m.ctrl (fun n => faults (n + 3))
    ((m.flowAffinity.toList.filter (dropsEntry m.ctrl t clock)).map Prod.fst)
  rw [List.length_map] at hdelete
  have hexec : ((gcFlowAffinity t clock).exec MapOp.effect faults m).2 =
      ((deleteFlows ((m.flowAffinity.toList.filter (dropsEntry m.ctrl t clock)).map Prod.fst)).exec
        MapOp.effect (fun n => faults (n + 3)) m).2 := by
    simp only [gcFlowAffinity, readCtrl, perform_bind, exec, hctrl, hclock, hiterate,
      Bool.false_eq_true, if_false]
    exact exec_bind_pure _ _ _ _
  rw [hexec, ← hdelete, quietActs, List.foldl_cons, List.foldl_cons, List.foldl_append]
  rw [List.nil_append] at hvisit
  change ((CollectAct.endScan :: deleteActs _ _).foldl (Collecting.step t)
    ((m.flowAffinity.toList.map fun entry => CollectAct.visit entry.1).foldl (Collecting.step t)
      ⟨m, clock, .scanning m.ctrl clock []⟩)).maps = _
  rw [hvisit]
  rfl

end Quiet

/-- Whatever packets pass between the steps of a collection made while draining, if no collected
flow that is still pinned has a packet before its deletion, every entry about to be deleted is
stamped with a past epoch or idle for too long. -/
theorem deleted_flows_expired (t : FlowIdleTimeouts) (m : Maps) (clock : ℕ)
    (hdraining : m.ctrl.state = migDraining) (hclock : clock < 2 ^ 63)
    (hseen : ∀ key fa, m.flowAffinity.get key = some fa → fa.lastSeenNs ≤ clock)
    (acts : List CollectAct)
    (hacts : Along (Collecting.step t) Collecting.Allows ⟨m, clock, .entered⟩ acts) :
    let s := acts.foldl (Collecting.step t) ⟨m, clock, .entered⟩
    ∀ c key stale fa, s.phase = .deleting c (key :: stale) →
      s.maps.flowAffinity.get key = some fa → s.Expired t key fa := by
  intro s c key stale fa hphase hget
  have hfirst : Collecting.Sound t ⟨m, clock, .entered⟩ :=
    ⟨hdraining, hclock, hseen, trivial, fun key hkey => absurd hkey List.not_mem_nil⟩
  have hlast : s.Sound t := hacts.invariant (fun _ _ hs ha => hs.step ha) hfirst
  refine hlast.stale key ?_ fa hget
  rw [hphase]
  exact List.mem_cons_self

/-- A migration is draining, and `transitPacket`'s flow is pinned, last seen at 1 ns. -/
def drainingMaps : Maps := (Monitored.run ⟨configuredMaps, {}⟩ drainingEvents).maps

theorem drainingMaps_entries : drainingMaps.flowAffinity.toList = [(transitKey, ⟨1, 1⟩)] := by
  decide +kernel

def docTimeouts : FlowIdleTimeouts := ⟨300000000000, 60000000000⟩

def scanActs : List CollectAct :=
  [.tick 100000000000, .readCtrl, .readClock, .visit transitKey, .endScan]

def scanned : Collecting :=
  scanActs.foldl (Collecting.step docTimeouts) ⟨drainingMaps, 1, .entered⟩

theorem deleted_flows_expired_scanned : scanned.Expired docTimeouts transitKey ⟨1, 1⟩ := by
  refine deleted_flows_expired docTimeouts drainingMaps 1 (by decide +kernel) (by norm_num) ?_
    scanActs ⟨⟨by decide, by norm_num⟩, trivial, trivial, trivial, trivial, trivial⟩
    drainingMaps.ctrl transitKey [] ⟨1, 1⟩ (by rfl) (by decide +kernel)
  intro key fa hget
  have hmem := BoundedMap.mem_toList.mpr hget
  rw [drainingMaps_entries, List.mem_singleton] at hmem
  cases hmem
  exact le_rfl

def resumedPacket : Packet :=
  { transitPacket with env := { transitPacket.env with now := 100000000001 } }

/-- The flow has a packet after the scan and loses its pin all the same. -/
theorem resumed_flow_deleted :
    let s := scanned.step docTimeouts (.packet resumedPacket)
    let s' := s.step docTimeouts (.delete false)
    s.phase = .deleting drainingMaps.ctrl [transitKey] ∧
      s.maps.flowAffinity.get transitKey = some ⟨100000000001, 1⟩ ∧
      ¬ s.Expired docTimeouts transitKey ⟨100000000001, 1⟩ ∧
      resumedPacket.slot s.maps = some 0 ∧ resumedPacket.slot s'.maps = some 1 := by
  refine ⟨by rfl, by decide +kernel, ?_, by decide +kernel, by decide +kernel⟩
  unfold Collecting.Expired
  decide +kernel

end Minuteman.Migration
