import Minuteman.Datapath.Programs
import Minuteman.Loader.GarbageCollection
import Minuteman.Loader.Runs

/-!
# The history of a run

Packets, loader calls and garbage collections in any order, with the facts
about the past that flow affinity is meant to remember: which flows were seen
while each migration was priming, when a flow was last seen, which flows a
collection found idle, and the endpoints a migration leaves.
-/
namespace Minuteman.Migration
open Library Datapath Loader Prog

/-- One step of the datapath and its loader. A step is a whole packet or a whole call. -/
inductive Event
  | packet (p : Packet)
  | call (c : Call) (faults : Faults)
  | gc (t : FlowIdleTimeouts) (now : ℕ) (faults : Faults)

namespace Event

def exec : Event → Maps → Maps
  | .packet p, m => p.after m
  | .call c faults, m => (c.exec faults m).2
  | .gc t now faults, m => ((gcFlowAffinity t now).exec MapOp.effect faults m).2

def reconfigures : Event → Bool
  | .call c _ => c.isSetB4Config
  | _ => false

end Event

/-- What a run has seen. `migration` counts the migrations begun; `seen j` are the flows seen
while the `j`-th was priming; `idle` are the flows a collection has found idle since the last
cutover; `oldHop` is the pair the current migration leaves. -/
structure History where
  migration : ℕ := 0
  seen : ℕ → Finset FlowKey := fun _ => ∅
  lastSeen : FlowKey → ℕ := fun _ => 0
  idle : FlowKey → Bool := fun _ => false
  oldHop : NextHop := {}
  lostAtBegin : ℕ := 0
  lossless : Bool := false

namespace History

def saw (h : History) (state now : ℕ) (key : FlowKey) : History :=
  { h with
    lastSeen := Function.update h.lastSeen key now
    seen := if state = migPriming then
        Function.update h.seen h.migration (insert key (h.seen h.migration)) else h.seen }

def began (h : History) (v : FlowView) : History :=
  { h with
    migration := h.migration + 1
    idle := fun _ => false
    oldHop := v.loader.nextHops v.ctrl.activeSlot
    lostAtBegin := v.lost
    lossless := false }

def cutOver (h : History) (v : FlowView) : History :=
  { h with lossless := decide (v.lost = h.lostAtBegin) }

def collected (h : History) (state : ℕ) (t : FlowIdleTimeouts) (now : ℕ) : History :=
  { h with
    idle := fun key => h.idle key ||
      (decide (state = migDraining) && decide (idleNs now (h.lastSeen key) > t.of key)) }

/-- What a loader call that returned `r` adds. -/
def called (h : History) (v : FlowView) : Call → Except LoaderError Unit → History
  | .beginMigration _ _, .ok _ => h.began v
  | .cutover, .ok _ => h.cutOver v
  | _, _ => h

def next (h : History) (m : Maps) : Event → History
  | .packet p =>
    match p.flowKey m with
    | none => h
    | some key => h.saw m.ctrl.state p.env.now key
  | .call c faults => h.called m.flowView c (c.exec faults m).1
  | .gc t now faults =>
    match ((gcFlowAffinity t now).exec MapOp.effect faults m).1 with
    | .error _ => h
    | .ok _ => h.collected m.ctrl.state t now

@[simp] theorem called_error (h : History) (v : FlowView) (c : Call) (e : LoaderError) :
    h.called v c (.error e) = h := by
  cases c <;> rfl

end History

/-- The maps together with the history of the run that led to them. -/
structure Monitored where
  maps : Maps
  history : History := {}

namespace Monitored

def step (s : Monitored) (e : Event) : Monitored := ⟨e.exec s.maps, s.history.next s.maps e⟩

def run (s : Monitored) (events : List Event) : Monitored := events.foldl step s

theorem step_call_history {s : Monitored} {c : Call} {faults : Faults}
    {r : Except LoaderError Unit} (hr : (c.exec faults s.maps).1 = r) :
    (s.step (.call c faults)).history = s.history.called s.maps.flowView c r := by
  subst hr
  rfl

end Monitored

/-- Everything one event can do to the maps and to the history. -/
inductive Change (m m' : Maps) (h : History) : Event → History → Prop
  | unseen (p : Packet) (hsame : m'.flowView = m.flowView) : Change m m' h (.packet p) h
  | steady (p : Packet) (key : FlowKey) (hstate : m.ctrl.state = migSteady)
      (hsame : m'.flowView = m.flowView) :
      Change m m' h (.packet p) (h.saw m.ctrl.state p.env.now key)
  | touched (p : Packet) (key : FlowKey) (fa : Option FlowAffinity)
      (hstate : m.ctrl.state ≠ migSteady)
      (ht : Touched m.flowView p.env.now m.migrationCtrl key fa m'.flowView) :
      Change m m' h (.packet p) (h.saw m.ctrl.state p.env.now key)
  | called (c : Call) (faults : Faults) (r : Except LoaderError Unit) (hslots : SlotInvariant m')
      (hout : Outcome m m' c r) (hflows : m'.flowAffinity = m.flowAffinity)
      (hstats : m'.stats = m.stats) :
      Change m m' h (.call c faults) (h.called m.flowView c r)
  | uncollected (t : FlowIdleTimeouts) (now : ℕ) (faults : Faults) (hsame : m' = m) :
      Change m m' h (.gc t now faults) h
  | collected (t : FlowIdleTimeouts) (now : ℕ) (faults : Faults) (hg : Collected t now m m') :
      Change m m' h (.gc t now faults) (h.collected m.ctrl.state t now)

theorem Event.change {m : Maps} {h : History} (hslots : SlotInvariant m) {e : Event}
    (he : e.reconfigures = false) : Change m (e.exec m) h e (h.next m e) := by
  cases e with
  | packet p =>
    simp only [History.next]
    rcases p.flowStep m with ⟨hkey, hsame⟩ | ⟨hstate, key, fa, hkey, ht⟩
    · cases hk : p.flowKey m with
      | none => exact .unseen p hsame
      | some key =>
        refine .steady p key (hkey.resolve_left ?_) hsame
        rw [hk]
        exact Option.some_ne_none key
    · rw [hkey]
      exact .touched p key fa hstate ht
  | call c faults =>
    obtain ⟨hflows, hstats⟩ := Call.exec_traffic hslots c faults
    exact .called c faults _ (Call.exec_slotInvariant hslots c faults)
      (Call.outcome hslots he faults) hflows hstats
  | gc t now faults =>
    simp only [History.next]
    rcases (gcFlowAffinity_spec t now m).exec faults with ⟨⟨err, hr⟩, hm⟩ | ⟨hr, hg⟩
    · rw [hr]
      exact .uncollected t now faults hm
    · rw [hr]
      exact .collected t now faults hg

/-- Every flow seen while the current migration was priming is on record: nothing was lost. -/
def Complete (v : FlowView) (h : History) : Prop :=
  (v.ctrl.state = migPriming ∧ v.lost = h.lostAtBegin) ∨
    (v.ctrl.state = migDraining ∧ h.lossless = true)

/-- How the maps reflect the history. -/
structure Invariant (v : FlowView) (h : History) : Prop where
  slots : SlotsSafe v.ctrl v.loader.nextHops
  epoch : v.ctrl.epoch = h.migration % 256
  primingHop : v.ctrl.state = migPriming →
    v.loader.nextHops v.ctrl.activeSlot = h.oldHop
  drainingHop : v.ctrl.state = migDraining →
    v.loader.nextHops v.ctrl.oldSlot = h.oldHop
  lost_le : h.lostAtBegin ≤ v.lost
  recorded : Complete v h → ∀ key ∈ h.seen h.migration, h.idle key = false →
    v.flows.get key = some ⟨h.lastSeen key, v.ctrl.epoch⟩
  stamped : ∀ key fa, v.flows.get key = some fa →
    ∃ j ≤ h.migration, fa.epoch = j % 256 ∧ key ∈ h.seen j
  future : ∀ j, h.migration < j → h.seen j = ∅

theorem not_complete_of_steady {v : FlowView} {h : History}
    (hsteady : v.ctrl.state = migSteady) : ¬ Complete v h := by
  rintro (⟨hp, -⟩ | ⟨hd, -⟩)
  · exact migSteady_ne_migPriming (hsteady.symm.trans hp)
  · exact migSteady_ne_migDraining (hsteady.symm.trans hd)

namespace Invariant
variable {v v' : FlowView} {h : History} {now : ℕ} {key : FlowKey}

/-- Seeing a packet of a steady datapath adds only when its flow was last seen. -/
theorem saw_steady (hinv : Invariant v h) (hsteady : v.ctrl.state = migSteady) :
    Invariant v (h.saw v.ctrl.state now key) := by
  have hseen : (h.saw v.ctrl.state now key).seen = h.seen :=
    if_neg (by rw [hsteady]; exact migSteady_ne_migPriming)
  refine ⟨hinv.slots, hinv.epoch, hinv.primingHop, hinv.drainingHop, hinv.lost_le,
    fun hc => absurd hc (not_complete_of_steady hsteady), ?_, ?_⟩
  · rw [hseen]
    exact hinv.stamped
  · rw [hseen]
    exact hinv.future

/-- While priming, the packet's flow is put on record or its loss is counted. -/
theorem touched_priming (hinv : Invariant v h) {fa : Option FlowAffinity}
    (ht : Touched v now v.loader.migrationCtrl key fa v') (hstate : v.ctrl.state = migPriming) :
    Invariant v' (h.saw v.ctrl.state now key) := by
  have hloader := ht.loader_eq
  have hctrl := ht.ctrl_eq
  have hseen : (h.saw v.ctrl.state now key).seen =
      Function.update h.seen h.migration (insert key (h.seen h.migration)) := if_pos hstate
  have hgrows : ∀ j, h.seen j ⊆ (h.saw v.ctrl.state now key).seen j := by
    intro j
    rw [hseen]
    by_cases hj : j = h.migration
    · subst hj
      rw [Function.update_self]
      exact Finset.subset_insert _ _
    · rw [Function.update_of_ne hj]
  have htouch := ht.priming hstate
  refine ⟨by rw [hctrl, hloader]; exact hinv.slots, by rw [hctrl]; exact hinv.epoch,
    fun hs => ?_, fun hs => ?_, ?_, ?_, ?_, ?_⟩
  · rw [hctrl, hloader]
    exact hinv.primingHop hstate
  · rw [hctrl, hstate] at hs
    exact absurd hs migPriming_ne_migDraining
  · rcases htouch with ⟨-, hlost⟩ | ⟨rfl, -⟩
    · rw [hlost]
      exact hinv.lost_le
    · exact hinv.lost_le.trans (Nat.le_succ _)
  · rintro (⟨-, hlost'⟩ | ⟨hd, -⟩) k hk hidle
    · rcases htouch with ⟨hget, hlost⟩ | ⟨rfl, -⟩
      · rw [hctrl]
        by_cases hkey : k = key
        · subst hkey
          rw [hget]
          change some _ = some (⟨Function.update h.lastSeen k now k, _⟩ : FlowAffinity)
          rw [Function.update_self]
          rfl
        · have hold : k ∈ h.seen h.migration := by
            change k ∈ (h.saw v.ctrl.state now key).seen h.migration at hk
            rw [hseen, Function.update_self] at hk
            exact (Finset.mem_insert.mp hk).resolve_left hkey
          rw [ht.get_of_ne hkey,
            hinv.recorded (Or.inl ⟨hstate, hlost.symm.trans hlost'⟩) k hold hidle]
          change some _ = some (⟨Function.update h.lastSeen key now k, _⟩ : FlowAffinity)
          rw [Function.update_of_ne hkey]
      · have hle := hinv.lost_le
        change v.lost + 1 = h.lostAtBegin at hlost'
        omega
    · rw [hctrl, hstate] at hd
      exact absurd hd migPriming_ne_migDraining
  · intro k e hget
    by_cases hkey : k = key
    · subst hkey
      rcases htouch with ⟨hget', -⟩ | ⟨rfl, hdom, -⟩
      · rw [hget'] at hget
        cases hget
        refine ⟨h.migration, le_rfl, hinv.epoch, ?_⟩
        rw [hseen, Function.update_self]
        exact Finset.mem_insert_self _ _
      · exact absurd (BoundedMap.mem_dom_of_get hget) hdom
    · rw [ht.get_of_ne hkey] at hget
      obtain ⟨j, hj, hepoch, hmem⟩ := hinv.stamped k e hget
      exact ⟨j, hj, hepoch, hgrows j hmem⟩
  · intro j hj
    have hne : j ≠ h.migration := Nat.ne_of_gt hj
    rw [hseen, Function.update_of_ne hne]
    exact hinv.future j hj

/-- Once priming is over, the packet refreshes its flow's entry or does nothing. -/
theorem touched_not_priming (hinv : Invariant v h) {fa : Option FlowAffinity}
    (ht : Touched v now v.loader.migrationCtrl key fa v') (hstate : v.ctrl.state ≠ migPriming) :
    Invariant v' (h.saw v.ctrl.state now key) := by
  have hloader := ht.loader_eq
  have hctrl := ht.ctrl_eq
  have hseen : (h.saw v.ctrl.state now key).seen = h.seen := if_neg hstate
  obtain ⟨hlost, hentries⟩ := ht.not_priming hstate
  refine ⟨by rw [hctrl, hloader]; exact hinv.slots, by rw [hctrl]; exact hinv.epoch,
    by rw [hctrl, hloader]; exact hinv.primingHop, by rw [hctrl, hloader]; exact hinv.drainingHop,
    hinv.lost_le.trans_eq hlost.symm, ?_, ?_, ?_⟩
  · intro hc k hk hidle
    have hold := hinv.recorded (by rwa [Complete, hctrl, hlost] at hc) k
      (by rwa [hseen] at hk) hidle
    rw [hctrl]
    by_cases hkey : k = key
    · subst hkey
      rw [(ht.get_of_live hold rfl).1]
      change some _ = some (⟨Function.update h.lastSeen k now k, _⟩ : FlowAffinity)
      rw [Function.update_self]
      rfl
    · rw [ht.get_of_ne hkey, hold]
      change some _ = some (⟨Function.update h.lastSeen key now k, _⟩ : FlowAffinity)
      rw [Function.update_of_ne hkey]
  · intro k e' hget
    obtain ⟨e, hget', hepoch⟩ := hentries k e' hget
    rw [hepoch, hseen]
    exact hinv.stamped k e hget'
  · rw [hseen]
    exact hinv.future

/-- A step of the loader that leaves the traffic's maps alone and ends any migration. -/
theorem to_steady (hinv : Invariant v h) (hslots : SlotsSafe v'.ctrl v'.loader.nextHops)
    (hflows : v'.flows = v.flows) (hlost : v'.lost = v.lost)
    (hepoch : v'.ctrl.epoch = v.ctrl.epoch) (hsteady : v'.ctrl.state = migSteady) :
    Invariant v' h := by
  refine ⟨hslots, hepoch.trans hinv.epoch, fun hp => ?_, fun hd => ?_,
    hinv.lost_le.trans_eq hlost.symm, fun hc => absurd hc (not_complete_of_steady hsteady), ?_,
    hinv.future⟩
  · exact absurd (hsteady.symm.trans hp) migSteady_ne_migPriming
  · exact absurd (hsteady.symm.trans hd) migSteady_ne_migDraining
  · rw [hflows]
    exact hinv.stamped

section Loader
variable {m m' : Maps}

theorem unmoved (hinv : Invariant m.flowView h) (hslots : SlotInvariant m') (hu : Unmoved m m')
    (hflows : m'.flowAffinity = m.flowAffinity) (hstats : m'.stats = m.stats) :
    Invariant m'.flowView h := by
  have hctrl : m'.flowView.ctrl = m.flowView.ctrl := hu.ctrl
  have hlost : m'.flowView.lost = m.flowView.lost := congrFun hstats _
  refine ⟨hslots, by rw [hctrl]; exact hinv.epoch, fun hp => ?_, fun hd => ?_,
    hinv.lost_le.trans_eq hlost.symm, fun hc => ?_, ?_, hinv.future⟩
  · rw [hctrl] at hp ⊢
    exact (hu.slots _ (Or.inl rfl)).trans (hinv.primingHop hp)
  · rw [hctrl] at hd ⊢
    exact (hu.slots _ (Or.inr ⟨hd, rfl⟩)).trans (hinv.drainingHop hd)
  · rw [Complete, hctrl, hlost] at hc
    rw [hctrl, show m'.flowView.flows = m.flowView.flows from hflows]
    exact hinv.recorded hc
  · rw [show m'.flowView.flows = m.flowView.flows from hflows]
    exact hinv.stamped

theorem began (hinv : Invariant m.flowView h) (hslots : SlotInvariant m') {nh : NextHop}
    (hb : Begun nh m m') (hflows : m'.flowAffinity = m.flowAffinity) (hstats : m'.stats = m.stats) :
    Invariant m'.flowView (h.began m.flowView) := by
  have hctrl : m'.flowView.ctrl =
      ⟨m.ctrl.activeSlot, m.ctrl.activeSlot, migPriming, (m.ctrl.epoch + 1) % 256⟩ := hb.ctrl
  have hlost : m'.flowView.lost = m.flowView.lost := congrFun hstats _
  have hepoch : m.ctrl.epoch = h.migration % 256 := hinv.epoch
  have hnone : h.seen (h.migration + 1) = ∅ := hinv.future _ (Nat.lt_succ_self _)
  refine ⟨hslots, ?_, fun _ => ?_, fun hd => ?_, hlost.ge, fun _ k hk => ?_, ?_, ?_⟩
  · rw [hctrl]
    change (m.ctrl.epoch + 1) % 256 = (h.migration + 1) % 256
    omega
  · rw [hctrl]
    change m'.nextHops m.ctrl.activeSlot = m.nextHops m.ctrl.activeSlot
    rw [hb.slots, Function.update_of_ne (otherSlot_ne _).symm]
  · rw [hctrl] at hd
    exact absurd hd migPriming_ne_migDraining
  · change k ∈ h.seen (h.migration + 1) at hk
    rw [hnone] at hk
    exact absurd hk (Finset.notMem_empty k)
  · intro k e hget
    rw [show m'.flowView.flows = m.flowView.flows from hflows] at hget
    obtain ⟨j, hj, hrest⟩ := hinv.stamped k e hget
    exact ⟨j, Nat.le_succ_of_le hj, hrest⟩
  · intro j hj
    exact hinv.future j (Nat.lt_of_succ_lt hj)

theorem cutOver (hinv : Invariant m.flowView h) (hslots : SlotInvariant m') (hb : CutOver m m')
    (hflows : m'.flowAffinity = m.flowAffinity) (hstats : m'.stats = m.stats) :
    Invariant m'.flowView (h.cutOver m.flowView) := by
  have hctrl : m'.flowView.ctrl =
      ⟨otherSlot m.ctrl.activeSlot, m.ctrl.activeSlot, migDraining, m.ctrl.epoch⟩ := hb.ctrl
  have hlost : m'.flowView.lost = m.flowView.lost := congrFun hstats _
  refine ⟨hslots, by rw [hctrl]; exact hinv.epoch, fun hp => ?_, fun _ => ?_,
    hinv.lost_le.trans_eq hlost.symm, fun hc => ?_, ?_, hinv.future⟩
  · rw [hctrl] at hp
    exact absurd hp.symm migPriming_ne_migDraining
  · rw [hctrl]
    change m'.nextHops m.ctrl.activeSlot = h.oldHop
    rw [hb.slots]
    exact hinv.primingHop hb.priming
  · rw [Complete, hctrl] at hc
    rcases hc with ⟨hp, -⟩ | ⟨-, hl⟩
    · exact absurd hp.symm migPriming_ne_migDraining
    · rw [hctrl, show m'.flowView.flows = m.flowView.flows from hflows]
      exact hinv.recorded (Or.inl ⟨hb.priming, of_decide_eq_true hl⟩)
  · rw [show m'.flowView.flows = m.flowView.flows from hflows]
    exact hinv.stamped

/-- What a loader call leaves is what its outcome adds to the history. -/
theorem called (hinv : Invariant m.flowView h) {c : Call} {r : Except LoaderError Unit}
    (hslots : SlotInvariant m') (hout : Outcome m m' c r)
    (hflows : m'.flowAffinity = m.flowAffinity) (hstats : m'.stats = m.stats) :
    Invariant m'.flowView (h.called m.flowView c r) := by
  have hlost : m'.flowView.lost = m.flowView.lost := congrFun hstats _
  have hended : Ended m m' → Invariant m'.flowView h := fun hend =>
    hinv.to_steady hslots hflows hlost hend.epoch (congrArg MigrationCtrl.state hend.ctrl)
  cases hout with
  | unmoved hu =>
    rw [History.called_error]
    exact hinv.unmoved hslots hu hflows hstats
  | begun hv hb => exact hinv.began hslots hb hflows hstats
  | cutOver hb => exact hinv.cutOver hslots hb hflows hstats
  | completed hstate hend => exact hended hend
  | aborted hstate hend => exact hended hend
  | switchFailed hend => exact hended hend
  | switched hv hsw =>
    have hepoch : m'.ctrl.epoch = m.ctrl.epoch := by rw [hsw.ctrl]
    exact hinv.to_steady hslots hflows hlost hepoch (congrArg MigrationCtrl.state hsw.ctrl)

/-- A collection drops a flow of the current migration only while draining and only if idle. -/
theorem not_dropped {c : MigrationCtrl} {t : FlowIdleTimeouts} {e : FlowAffinity}
    (hepoch : e.epoch = c.epoch) (hdrop : dropsEntry c t now (key, e) = true) :
    c.state ≠ migPriming ∧ idleNs now e.lastSeenNs > t.of key := by
  unfold dropsEntry at hdrop
  rw [if_neg (not_not.mpr hepoch)] at hdrop
  split_ifs at hdrop with hp
  exact ⟨hp, of_decide_eq_true hdrop⟩

theorem collected (hinv : Invariant m.flowView h) {t : FlowIdleTimeouts}
    (hg : Collected t now m m') : Invariant m'.flowView (h.collected m.ctrl.state t now) := by
  have hloader : m'.flowView.loader = m.flowView.loader := hg.loader
  have hctrl : m'.flowView.ctrl = m.flowView.ctrl := by rw [FlowView.ctrl, hloader]; rfl
  have hlost : m'.flowView.lost = m.flowView.lost := congrFun hg.stats _
  refine ⟨by rw [hctrl, hloader]; exact hinv.slots, by rw [hctrl]; exact hinv.epoch,
    by rw [hctrl, hloader]; exact hinv.primingHop, by rw [hctrl, hloader]; exact hinv.drainingHop,
    hinv.lost_le.trans_eq hlost.symm, ?_, ?_, hinv.future⟩
  · intro hc k hk hidle
    have hc' : Complete m.flowView h := by rwa [Complete, hctrl, hlost] at hc
    obtain ⟨hidle', hfound⟩ := Bool.or_eq_false_iff.mp hidle
    have hold := hinv.recorded hc' k hk hidle'
    rw [hctrl]
    refine Eq.trans ?_ hold
    refine (hg.kept k).resolve_right ?_
    rintro ⟨-, e, hget, hdrop⟩
    rw [show m.flowAffinity.get k = _ from hold] at hget
    cases hget
    obtain ⟨hp, hgt⟩ := not_dropped (c := m.ctrl) rfl hdrop
    have hd : m.ctrl.state = migDraining := by
      rcases hc' with ⟨hp', -⟩ | ⟨hd, -⟩
      · exact absurd hp' hp
      · exact hd
    rw [decide_eq_true hd, decide_eq_true hgt] at hfound
    cases hfound
  · intro k e hget
    rcases hg.kept k with hsame | ⟨hnone, -⟩
    · exact hinv.stamped k e (hsame.symm.trans hget)
    · cases hnone.symm.trans hget

end Loader

/-- Every packet, loader call and collection keeps the maps in step with the history. -/
theorem step {s : Monitored} (hinv : Invariant s.maps.flowView s.history) {e : Event}
    (he : e.reconfigures = false) :
    Invariant (s.step e).maps.flowView (s.step e).history := by
  have hchange := e.change (h := s.history) hinv.slots he
  change Invariant (e.exec s.maps).flowView (s.history.next s.maps e)
  generalize e.exec s.maps = m', s.history.next s.maps e = h' at hchange ⊢
  cases hchange with
  | unseen p hsame =>
    rw [hsame]
    exact hinv
  | steady p key hstate hsame =>
    rw [hsame]
    exact hinv.saw_steady hstate
  | touched p key fa hstate ht =>
    by_cases hp : s.maps.ctrl.state = migPriming
    · exact hinv.touched_priming ht hp
    · exact hinv.touched_not_priming ht hp
  | called c faults r hslots hout hflows hstats => exact hinv.called hslots hout hflows hstats
  | uncollected t now faults hsame =>
    rw [hsame]
    exact hinv
  | collected t now faults hg => exact hinv.collected hg

theorem run {s : Monitored} (hinv : Invariant s.maps.flowView s.history) {events : List Event}
    (hevents : ∀ e ∈ events, e.reconfigures = false) :
    Invariant (s.run events).maps.flowView (s.run events).history := by
  induction events generalizing s with
  | nil => exact hinv
  | cons e rest ih =>
    rw [List.forall_mem_cons] at hevents
    exact ih (hinv.step hevents.1) hevents.2

end Invariant

def Started (m : Maps) : Prop :=
  ∃ m₀ cfg faults, Unconfigured m₀ ∧ m₀.flowAffinity = BoundedMap.empty ∧
    (Call.setB4Config cfg).exec faults m₀ = (.ok (), m)

theorem Started.invariant {m : Maps} (h : Started m) : Invariant m.flowView {} := by
  obtain ⟨m₀, cfg, faults, hun, hempty, hexec⟩ := h
  have hspec := setB4Config_unconfigured hun cfg
  have hend := hspec.exec faults
  have hflows := hspec.rel (R := fun (a b : Maps) => b.flowAffinity = a.flowAffinity)
    (fun _ => rfl) (fun _ _ _ hab hbc => hbc.trans hab) (fun _ hstep => hstep.flows) faults
  rw [show (setB4Config cfg).exec MapOp.effect faults m₀ = _ from hexec] at hend hflows
  have hnone : ∀ key, m.flowView.flows.get key = none := by
    intro key
    rw [show m.flowView.flows = BoundedMap.empty from hflows.trans hempty]
    exact BoundedMap.get_empty key
  rcases hend with ⟨⟨e, he⟩, -⟩ | ⟨hslots, hctrl⟩
  · cases he
  · have hctrl : m.flowView.ctrl = ⟨0, 0, migSteady, 0⟩ := hctrl rfl
    refine ⟨hslots, by rw [hctrl]; rfl, fun hp => ?_, fun hd => ?_, Nat.zero_le _, fun hc => ?_, ?_,
      fun _ _ => rfl⟩
    · rw [hctrl] at hp
      exact absurd hp migSteady_ne_migPriming
    · rw [hctrl] at hd
      exact absurd hd migSteady_ne_migDraining
    · exact absurd hc (not_complete_of_steady (by rw [hctrl]))
    · intro key fa hget
      cases (hnone key).symm.trans hget

theorem Started.slotInvariant {m : Maps} (h : Started m) : SlotInvariant m := h.invariant.slots

end Minuteman.Migration
