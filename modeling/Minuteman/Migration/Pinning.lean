import Minuteman.Datapath.LanLocal
import Minuteman.Loader.Retry
import Minuteman.Migration.History

/-!
# Which flows a migration keeps on the old AFTR

The flows seen while a migration primes stay on the AFTR it leaves until they
are idle, and the epoch in an entry says which migration recorded it, up to
the eight bits it has.
-/
namespace Minuteman.Migration
open Library Datapath Loader Prog

/-- An encapsulated packet leaves through `slot`, which holds the pair `hop`. -/
structure SentVia (p : Packet) (m : Maps) (slot : ℕ) (hop : NextHop) : Prop where
  picked : p.slot m = some slot
  stored : m.nextHops slot = hop
  tunnelled : ∀ target, (p.run m).1 = .redirect target →
    Tunnelled (p.run m).2.ctx.data hop.b4Addr hop.aftrAddr

theorem SentVia.of_slot {p : Packet} {m : Maps} {slot : ℕ} {hop : NextHop}
    (hslot : p.slot m = some slot) (hhop : m.nextHops slot = hop) : SentVia p m slot hop := by
  subst hhop
  exact ⟨hslot, rfl, fun _ hsent => Packet.tunnelled hslot hsent⟩

section Step
variable {m : Maps} {h : History} {p : Packet} {slot : ℕ}

/-- While priming, every packet takes the slot of the pair the migration leaves. -/
theorem Invariant.sentVia_priming (hinv : Invariant m.flowView h) (hslot : p.slot m = some slot)
    (hstate : m.ctrl.state = migPriming) : SentVia p m m.ctrl.activeSlot h.oldHop := by
  obtain ⟨-, pkt, -, -, hpicked⟩ := Packet.slot_eq_some hslot
  have hactive : slot = m.ctrl.activeSlot :=
    hpicked.symm.trans (@pickSoftwireSlot_priming _ _ m.migrationCtrl _ hstate)
  subst hactive
  exact .of_slot hslot (hinv.primingHop hstate)

/-- While draining, a packet takes the old slot exactly when its flow has a live entry. -/
theorem Invariant.slot_draining (hinv : Invariant m.flowView h) (hslot : p.slot m = some slot)
    {key : FlowKey} (hkey : p.flowKey m = some key) (hstate : m.ctrl.state = migDraining) :
    slot = m.ctrl.oldSlot ↔
      ∃ fa, m.flowAffinity.get key = some fa ∧ fa.epoch = m.ctrl.epoch := by
  obtain ⟨-, pkt, -, hkey', hpicked⟩ := Packet.slot_eq_some hslot
  obtain rfl : buildFlowKey pkt false = key := Option.some.inj (hkey'.symm.trans hkey)
  rw [← hpicked]
  exact @pickSoftwireSlot_draining _ _ m.migrationCtrl _ hstate (hinv.slots.draining hstate).1

theorem Invariant.sentVia_draining (hinv : Invariant m.flowView h) (hslot : p.slot m = some slot)
    {key : FlowKey} (hkey : p.flowKey m = some key) (hstate : m.ctrl.state = migDraining)
    (hlossless : h.lossless = true) (hseen : key ∈ h.seen h.migration)
    (hidle : h.idle key = false) : SentVia p m m.ctrl.oldSlot h.oldHop := by
  have hentry := hinv.recorded (Or.inr ⟨hstate, hlossless⟩) key hseen hidle
  obtain rfl : slot = m.ctrl.oldSlot :=
    (hinv.slot_draining hslot hkey hstate).mpr ⟨_, hentry, rfl⟩
  exact .of_slot hslot (hinv.drainingHop hstate)

end Step

/-- In every run, a priming migration sends everything to the pair it leaves, and if it lost no
flow before its cutover, it keeps every flow seen while priming there until a collection finds
the flow idle. -/
theorem seen_flows_sentVia_oldHop {m : Maps} (hm : Started m) (events : List Event)
    (hevents : ∀ e ∈ events, e.reconfigures = false) (p : Packet) (slot : ℕ)
    (hslot : p.slot (Monitored.run ⟨m, {}⟩ events).maps = some slot) :
    let s := Monitored.run ⟨m, {}⟩ events
    (s.maps.ctrl.state = migPriming →
      SentVia p s.maps s.maps.ctrl.activeSlot s.history.oldHop) ∧
    (s.maps.ctrl.state = migDraining → s.history.lossless = true →
      ∀ key, p.flowKey s.maps = some key → key ∈ s.history.seen s.history.migration →
        s.history.idle key = false →
        SentVia p s.maps s.maps.ctrl.oldSlot s.history.oldHop) := by
  intro s
  have hinv : Invariant s.maps.flowView s.history := Invariant.run (s := ⟨m, {}⟩) hm.invariant hevents
  constructor
  · intro hstate
    exact hinv.sentVia_priming hslot hstate
  · intro hstate hlossless key hkey hseen hidle
    exact hinv.sentVia_draining hslot hkey hstate hlossless hseen hidle

def configuredMaps : Maps :=
  ((Call.setB4Config docConfig).exec noFaults { Maps.zeroed with lanConfigs := twoLans }).2

theorem configuredMaps_started : Started configuredMaps :=
  ⟨{ Maps.zeroed with lanConfigs := twoLans }, docConfig, noFaults, ⟨rfl, fun _ => rfl⟩, rfl, rfl⟩

/-- A 28-byte UDP packet from a LAN host to 203.0.113.5, which is reached over the WAN. -/
def transitPacket : Packet where
  program := .dsliteEncap
  env := { fib := fun _ => { ret := .success, egress := 2 }, mtu := fun _ => some 1500, now := 1 }
  ctx := {
    data := [2, 0, 0, 0, 0, 1, 2, 0, 0, 0, 0, 2, 0x08, 0x00,
      0x45, 0, 0, 28, 0, 1, 0, 0, 64, 17, 0, 0, 192, 168, 1, 10, 203, 0, 113, 5,
      0x13, 0x88, 0, 53, 0, 8, 0, 0]
    headroom := List.replicate 64 0
    ingressIfindex := 3 }

def transitKey : FlowKey := ⟨0xc0a8010a, 0xcb007105, 5000, 53, 17⟩

def drainingEvents : List Event :=
  [.call (.beginMigration (docAddr 1) (docAddr 3)) noFaults, .packet transitPacket,
    .call .cutover noFaults]

theorem drainingEvents_reconfigures : ∀ e ∈ drainingEvents, e.reconfigures = false := by
  intro e he
  simp only [drainingEvents, List.mem_cons, List.not_mem_nil, or_false] at he
  rcases he with rfl | rfl | rfl <;> rfl

theorem seen_flows_sentVia_oldHop_transit :
    transitKey ∈ (Monitored.run ⟨configuredMaps, {}⟩ drainingEvents).history.seen 1 ∧
      SentVia transitPacket (Monitored.run ⟨configuredMaps, {}⟩ drainingEvents).maps 0
        (pairHop (docAddr 1) (docAddr 2)) := by
  have hseen : transitKey ∈
      (Monitored.run ⟨configuredMaps, {}⟩ drainingEvents).history.seen 1 := by decide
  have hslot : transitPacket.slot (Monitored.run ⟨configuredMaps, {}⟩ drainingEvents).maps =
      some 0 := by decide
  exact ⟨hseen, (seen_flows_sentVia_oldHop configuredMaps_started drainingEvents
    drainingEvents_reconfigures transitPacket 0 hslot).2 (by decide) (by decide) transitKey
      (by decide) hseen (by decide)⟩

/-- Every live entry was recorded by the current migration. -/
def Current (v : FlowView) (h : History) : Prop :=
  ∀ key fa, v.flows.get key = some fa → fa.epoch = v.ctrl.epoch → key ∈ h.seen h.migration

/-- The event does not begin a migration while the table holds an entry with the epoch that the
migration is about to take. -/
def BeginsFresh (m : Maps) : Event → Prop
  | .call (.beginMigration _ _) _ => m.ctrl.state = migSteady →
      ∀ key fa, m.flowAffinity.get key = some fa → fa.epoch ≠ (m.ctrl.epoch + 1) % 256
  | _ => True

def FreshRun : Maps → List Event → Prop
  | _, [] => True
  | m, e :: rest => BeginsFresh m e ∧ FreshRun (e.exec m) rest

namespace Current
variable {v v' : FlowView} {h : History}

theorem touched (hcur : Current v h) {now : ℕ} {key : FlowKey} {fa : Option FlowAffinity}
    (ht : Touched v now v.loader.migrationCtrl key fa v') :
    Current v' (h.saw v.ctrl.state now key) := by
  intro k e hget hepoch
  rw [ht.ctrl_eq] at hepoch
  by_cases hstate : v.ctrl.state = migPriming
  · have hseen : (h.saw v.ctrl.state now key).seen h.migration =
        insert key (h.seen h.migration) := by
      simp [History.saw, hstate]
    rw [show (h.saw v.ctrl.state now key).migration = h.migration from rfl, hseen]
    by_cases hkey : k = key
    · exact Finset.mem_insert.mpr (Or.inl hkey)
    · rw [ht.get_of_ne hkey] at hget
      exact Finset.mem_insert_of_mem (hcur k e hget hepoch)
  · have hseen : (h.saw v.ctrl.state now key).seen = h.seen := if_neg hstate
    obtain ⟨e₀, hget₀, hsame⟩ := (ht.not_priming hstate).2 k e hget
    rw [hseen]
    exact hcur k e₀ hget₀ (hsame.symm.trans hepoch)

theorem saw_steady (hcur : Current v h) (hsteady : v.ctrl.state = migSteady) {now : ℕ}
    {key : FlowKey} : Current v (h.saw v.ctrl.state now key) := by
  have hseen : (h.saw v.ctrl.state now key).seen = h.seen :=
    if_neg (by rw [hsteady]; exact migSteady_ne_migPriming)
  intro k e hget hepoch
  rw [hseen]
  exact hcur k e hget hepoch

/-- A call that keeps the epoch keeps the live entries. -/
theorem of_epoch (hcur : Current v h) (hflows : v'.flows = v.flows)
    (hepoch : v'.ctrl.epoch = v.ctrl.epoch) : Current v' h := by
  intro k e hget hlive
  rw [hflows] at hget
  exact hcur k e hget (hlive.trans hepoch)

theorem called {m m' : Maps} (hcur : Current m.flowView h) {c : Call} {faults : Faults}
    {r : Except LoaderError Unit} (hfresh : BeginsFresh m (.call c faults))
    (hout : Outcome m m' c r) (hflows : m'.flowAffinity = m.flowAffinity) :
    Current m'.flowView (h.called m.flowView c r) := by
  cases hout with
  | unmoved hu =>
    rw [History.called_error]
    exact hcur.of_epoch hflows (congrArg MigrationCtrl.epoch hu.ctrl)
  | begun hv hb =>
    intro k e hget hlive
    rw [show m'.flowView.flows = m.flowView.flows from hflows] at hget
    have hepoch : m'.ctrl.epoch = (m.ctrl.epoch + 1) % 256 := by rw [hb.ctrl]
    exact absurd (hlive.trans hepoch) (hfresh hb.steady k e hget)
  | cutOver hb =>
    have hepoch : m'.ctrl.epoch = m.ctrl.epoch := by rw [hb.ctrl]
    exact hcur.of_epoch hflows hepoch
  | completed hstate hend => exact hcur.of_epoch hflows hend.epoch
  | aborted hstate hend => exact hcur.of_epoch hflows hend.epoch
  | switchFailed hend => exact hcur.of_epoch hflows hend.epoch
  | switched hv hsw =>
    have hepoch : m'.ctrl.epoch = m.ctrl.epoch := by rw [hsw.ctrl]
    exact hcur.of_epoch hflows hepoch

theorem collected {m m' : Maps} (hcur : Current m.flowView h) {t : FlowIdleTimeouts} {now : ℕ}
    (hg : Collected t now m m') : Current m'.flowView (h.collected m.ctrl.state t now) := by
  have hctrl : m'.ctrl = m.ctrl := by rw [Maps.ctrl, hg.loader]; rfl
  intro k e hget hlive
  rcases hg.kept k with hsame | ⟨hnone, -⟩
  · exact hcur k e (hsame.symm.trans hget) (hlive.trans (congrArg MigrationCtrl.epoch hctrl))
  · cases hnone.symm.trans hget

theorem step {s : Monitored} (hslots : SlotInvariant s.maps)
    (hcur : Current s.maps.flowView s.history) {e : Event} (he : e.reconfigures = false)
    (hfresh : BeginsFresh s.maps e) : Current (s.step e).maps.flowView (s.step e).history := by
  have hchange := e.change (h := s.history) hslots he
  change Current (e.exec s.maps).flowView (s.history.next s.maps e)
  generalize e.exec s.maps = m', s.history.next s.maps e = h' at hchange ⊢
  cases hchange with
  | unseen p hsame =>
    rw [hsame]
    exact hcur
  | steady p key hstate hsame =>
    rw [hsame]
    exact hcur.saw_steady hstate
  | touched p key fa hstate ht => exact hcur.touched ht
  | called c faults r hslots' hout hflows hstats => exact hcur.called hfresh hout hflows
  | uncollected t now faults hsame =>
    rw [hsame]
    exact hcur
  | collected t now faults hg => exact hcur.collected hg

theorem run {s : Monitored} (hinv : Invariant s.maps.flowView s.history)
    (hcur : Current s.maps.flowView s.history) {events : List Event}
    (hevents : ∀ e ∈ events, e.reconfigures = false) (hfresh : FreshRun s.maps events) :
    Current (s.run events).maps.flowView (s.run events).history := by
  induction events generalizing s with
  | nil => exact hcur
  | cons e rest ih =>
    rw [List.forall_mem_cons] at hevents
    exact ih (hinv.step hevents.1) (hcur.step hinv.slots hevents.1 hfresh.1) hevents.2 hfresh.2

end Current

/-- The epoch tells a pinned flow's migration up to a multiple of 256. -/
theorem pinned_flow_seen_modulo {m : Maps} (hm : Started m) (events : List Event)
    (hevents : ∀ e ∈ events, e.reconfigures = false) {p : Packet} {key : FlowKey} :
    let s := Monitored.run ⟨m, {}⟩ events
    s.maps.ctrl.state = migDraining → p.slot s.maps = some s.maps.ctrl.oldSlot →
      p.flowKey s.maps = some key →
      ∃ j ≤ s.history.migration, j % 256 = s.history.migration % 256 ∧ key ∈ s.history.seen j := by
  intro s hstate hslot hkey
  have hinv : Invariant s.maps.flowView s.history := Invariant.run (s := ⟨m, {}⟩) hm.invariant hevents
  obtain ⟨fa, hget, hepoch⟩ := (hinv.slot_draining hslot hkey hstate).mp rfl
  obtain ⟨j, hj, hstamp, hseen⟩ := hinv.stamped key fa hget
  exact ⟨j, hj, (hstamp.symm.trans hepoch).trans hinv.epoch, hseen⟩

/-- In every run whose migrations begin with no entry of the epoch they take, only the flows seen
while the current migration primed are pinned to the old slot. -/
theorem pinned_flow_seen {m : Maps} (hm : Started m) (events : List Event)
    (hevents : ∀ e ∈ events, e.reconfigures = false) (hfresh : FreshRun m events) (p : Packet)
    (key : FlowKey) :
    let s := Monitored.run ⟨m, {}⟩ events
    s.maps.ctrl.state = migDraining → p.slot s.maps = some s.maps.ctrl.oldSlot →
      p.flowKey s.maps = some key → key ∈ s.history.seen s.history.migration := by
  intro s hstate hslot hkey
  have hinv : Invariant s.maps.flowView s.history := Invariant.run (s := ⟨m, {}⟩) hm.invariant hevents
  have hempty : Current m.flowView {} := by
    intro k fa hget
    obtain ⟨j, -, -, hseen⟩ := hm.invariant.stamped k fa hget
    exact absurd hseen (Finset.notMem_empty k)
  have hcur : Current s.maps.flowView s.history :=
    Current.run (s := ⟨m, {}⟩) hm.invariant hempty hevents hfresh
  obtain ⟨fa, hget, hepoch⟩ := (hinv.slot_draining hslot hkey hstate).mp rfl
  exact hcur key fa hget hepoch

theorem pinned_flow_seen_transit :
    FreshRun configuredMaps drainingEvents ∧
      transitKey ∈ (Monitored.run ⟨configuredMaps, {}⟩ drainingEvents).history.seen
        (Monitored.run ⟨configuredMaps, {}⟩ drainingEvents).history.migration := by
  have hfresh : FreshRun configuredMaps drainingEvents := by
    refine ⟨fun _ key fa hget => ?_, trivial, trivial, trivial⟩
    cases hget
  exact ⟨hfresh, pinned_flow_seen configuredMaps_started drainingEvents drainingEvents_reconfigures
    hfresh transitPacket transitKey (by decide) (by decide) (by decide)⟩

def abortedMigrations (b4 aftr : Addr) : ℕ → List Event
  | 0 => []
  | n + 1 => .call (.beginMigration b4 aftr) noFaults :: .call .abortMigration noFaults ::
      abortedMigrations b4 aftr n

/-- After `n` migrations that saw no packet the datapath is steady again, `n` epochs later. -/
structure Quiet (n : ℕ) (s s' : Monitored) : Prop where
  slots : SlotInvariant s'.maps
  steady : s'.maps.ctrl.state = migSteady
  epoch : s'.maps.ctrl.epoch = (s.maps.ctrl.epoch + n) % 256
  flows : s'.maps.flowAffinity = s.maps.flowAffinity
  lans : s'.maps.lanConfigs = s.maps.lanConfigs
  migration : s'.history.migration = s.history.migration + n
  seen : s'.history.seen = s.history.seen

section Quiet
variable {b4 aftr : Addr} {s : Monitored}

theorem Call.exec_begun {m : Maps} (h : SlotInvariant m)
    (hv : validateSoftwireAddrs b4 aftr = .pure ()) (hsteady : m.ctrl.state = migSteady) :
    ((Call.beginMigration b4 aftr).exec noFaults m).1 = .ok () ∧
      Begun (pairHop b4 aftr) m ((Call.beginMigration b4 aftr).exec noFaults m).2 :=
  ⟨Call.exec_noFaults_of_accepts h ⟨hv, hsteady⟩, begun_of_clean h ⟨hv, hsteady⟩⟩

theorem Call.exec_aborted {m : Maps} (h : SlotInvariant m) (hpriming : m.ctrl.state = migPriming) :
    Ended m (Call.abortMigration.exec noFaults m).2 := by
  have hok : (abortMigration.exec MapOp.effect noFaults m).1 = .ok () :=
    Call.exec_noFaults_of_accepts (c := .abortMigration) h hpriming
  rcases (abortMigration_safe h).exec noFaults with ⟨⟨e, he⟩, -⟩ | ⟨-, hend⟩
  · cases hok.symm.trans he
  · exact hend

theorem quiet_one (h : SlotInvariant s.maps) (hsteady : s.maps.ctrl.state = migSteady)
    (hv : validateSoftwireAddrs b4 aftr = .pure ()) :
    Quiet 1 s ((s.step (.call (.beginMigration b4 aftr) noFaults)).step
      (.call .abortMigration noFaults)) := by
  obtain ⟨hok, hb⟩ := Call.exec_begun h hv hsteady
  have hinv := Call.exec_slotInvariant h (.beginMigration b4 aftr) noFaults
  have hend := Call.exec_aborted hinv (by rw [hb.ctrl])
  have hhistory : (s.step (.call (.beginMigration b4 aftr) noFaults)).history =
      s.history.began s.maps.flowView := Monitored.step_call_history hok
  refine ⟨Call.exec_slotInvariant hinv .abortMigration noFaults, ?_, ?_, ?_, ?_, ?_, ?_⟩
  · exact congrArg MigrationCtrl.state hend.ctrl
  · exact hend.epoch.trans (congrArg MigrationCtrl.epoch hb.ctrl)
  · exact (Call.exec_traffic hinv _ _).1.trans (Call.exec_traffic h _ _).1
  · exact (Call.exec_lanConfigs _ _ _).trans (Call.exec_lanConfigs _ _ _)
  · exact congrArg History.migration hhistory
  · have hseen := congrArg History.seen hhistory
    exact hseen

theorem quiet_abortedMigrations (hv : validateSoftwireAddrs b4 aftr = .pure ()) (n : ℕ)
    (h : SlotInvariant s.maps) (hsteady : s.maps.ctrl.state = migSteady) :
    Quiet n s (s.run (abortedMigrations b4 aftr n)) := by
  induction n generalizing s with
  | zero =>
    have hlt : s.maps.ctrl.epoch < 256 := s.maps.ctrl_epoch_lt
    exact ⟨h, hsteady, (Nat.mod_eq_of_lt hlt).symm, rfl, rfl, rfl, rfl⟩
  | succ n ih =>
    have hone := quiet_one h hsteady hv
    have hrest := ih hone.slots hone.steady
    refine ⟨hrest.slots, hrest.steady, ?_, hrest.flows.trans hone.flows,
      hrest.lans.trans hone.lans, ?_, hrest.seen.trans hone.seen⟩
    · have hepoch := hrest.epoch
      rw [hone.epoch] at hepoch
      exact hepoch.trans (by omega)
    · have hmigration := hrest.migration
      rw [hone.migration] at hmigration
      exact hmigration.trans (by omega)

/-- A migration cut over before any packet is seen. -/
theorem quiet_cutover (h : SlotInvariant s.maps) (hsteady : s.maps.ctrl.state = migSteady)
    (hv : validateSoftwireAddrs b4 aftr = .pure ()) :
    let s' := s.run [.call (.beginMigration b4 aftr) noFaults, .call .cutover noFaults]
    s'.maps.ctrl.state = migDraining ∧ s'.maps.ctrl.epoch = (s.maps.ctrl.epoch + 1) % 256 ∧
      s'.maps.flowAffinity = s.maps.flowAffinity ∧ s'.maps.lanConfigs = s.maps.lanConfigs ∧
      s'.history.migration = s.history.migration + 1 ∧ s'.history.seen = s.history.seen := by
  obtain ⟨hok, hb⟩ := Call.exec_begun h hv hsteady
  have hinv := Call.exec_slotInvariant h (.beginMigration b4 aftr) noFaults
  have hpriming : ((Call.beginMigration b4 aftr).exec noFaults s.maps).2.ctrl.state =
      migPriming := by rw [hb.ctrl]
  have hcut := cutOver_of_clean hinv hpriming
  have hcutOk := Call.exec_noFaults_of_accepts (c := .cutover) hinv hpriming
  have hhistory : (s.run [.call (.beginMigration b4 aftr) noFaults,
      .call .cutover noFaults]).history = (s.history.began s.maps.flowView).cutOver
        ((Call.beginMigration b4 aftr).exec noFaults s.maps).2.flowView := by
    refine (Monitored.step_call_history (c := .cutover) hcutOk).trans ?_
    rw [Monitored.step_call_history hok]
    rfl
  intro s'
  refine ⟨congrArg MigrationCtrl.state hcut.ctrl, ?_, ?_, ?_, ?_, ?_⟩
  · exact (congrArg MigrationCtrl.epoch hcut.ctrl).trans (congrArg MigrationCtrl.epoch hb.ctrl)
  · exact (Call.exec_traffic hinv _ _).1.trans (Call.exec_traffic h _ _).1
  · exact (Call.exec_lanConfigs _ _ _).trans (Call.exec_lanConfigs _ _ _)
  · exact congrArg History.migration hhistory
  · have hseen := congrArg History.seen hhistory
    exact hseen

theorem abortedMigrations_reconfigures (n : ℕ) :
    ∀ e ∈ abortedMigrations b4 aftr n, e.reconfigures = false := by
  induction n with
  | zero => simp [abortedMigrations]
  | succ n ih =>
    intro e he
    rcases List.mem_cons.mp he with rfl | he
    · rfl
    · rcases List.mem_cons.mp he with rfl | he
      · rfl
      · exact ih e he

end Quiet

/-- With these LANs `transitPacket` is encapsulated, as the flow `transitKey`. -/
theorem transitPacket_flow {m : Maps} (h : m.lanConfigs = twoLans) :
    transitPacket.flowKey m = some transitKey ∧ ∃ slot, transitPacket.slot m = some slot := by
  have hpacket : encapPacket transitPacket.env m transitPacket.ctx =
      some (transitPacket.ctx.data.drop 14) := by
    have hparse : parseL2Ipv4 transitPacket.ctx.data = .ip 14 := by decide
    have hlan : m.getLanConfig transitPacket.ctx.ingressIfindex = some ⟨0xc0a80101, 0⟩ := by
      rw [Maps.getLanConfig, h]
      rfl
    have hpass : ¬ bypasses transitPacket.env m.toLoaderMaps transitPacket.ctx ⟨0xc0a80101, 0⟩
        (Iphdr.read (transitPacket.ctx.data.drop 14)) = true := by
      rw [bypasses_iff, h]
      decide
    simp only [encapPacket, hparse, hlan]
    rw [if_neg hpass]
  constructor
  · have hkey : buildFlowKey (transitPacket.ctx.data.drop 14) false = transitKey := by decide
    change (encapPacket transitPacket.env m transitPacket.ctx).map _ = _
    rw [hpacket, Option.map_some, hkey]
  · change ∃ slot, (encapPacket transitPacket.env m transitPacket.ctx).map _ = some slot
    rw [hpacket]
    exact ⟨_, rfl⟩

/-- A first migration that records `transitKey`, aborted; 255 more that see no packet; and one
that is cut over. -/
def recordedEvents : List Event :=
  [.call (.beginMigration (docAddr 1) (docAddr 3)) noFaults, .packet transitPacket,
    .call .abortMigration noFaults]

def wrappedEvents : List Event :=
  recordedEvents ++ abortedMigrations (docAddr 1) (docAddr 3) 255 ++
    [.call (.beginMigration (docAddr 1) (docAddr 3)) noFaults, .call .cutover noFaults]

/-- The 257th migration takes the epoch of the first and honours the entry it left. -/
theorem wrapped_epoch_pinned :
    Started configuredMaps ∧ (∀ e ∈ wrappedEvents, e.reconfigures = false) ∧
      let s := Monitored.run ⟨configuredMaps, {}⟩ wrappedEvents
      s.maps.ctrl.state = migDraining ∧
        transitPacket.slot s.maps = some s.maps.ctrl.oldSlot ∧
        transitPacket.flowKey s.maps = some transitKey ∧
        transitKey ∉ s.history.seen s.history.migration := by
  have hrecorded : ∀ e ∈ recordedEvents, e.reconfigures = false := by
    intro e he
    simp only [recordedEvents, List.mem_cons, List.not_mem_nil, or_false] at he
    rcases he with rfl | rfl | rfl <;> rfl
  have hevents : ∀ e ∈ wrappedEvents, e.reconfigures = false := by
    intro e he
    rw [wrappedEvents, List.mem_append, List.mem_append] at he
    rcases he with (he | he) | he
    · exact hrecorded e he
    · exact abortedMigrations_reconfigures 255 e he
    · simp only [List.mem_cons, List.not_mem_nil, or_false] at he
      rcases he with rfl | rfl <;> rfl
  refine ⟨configuredMaps_started, hevents, ?_⟩
  have hv : validateSoftwireAddrs (docAddr 1) (docAddr 3) = .pure () := rfl
  have hinv := Invariant.run (s := ⟨configuredMaps, {}⟩) configuredMaps_started.invariant hevents
  have hinv₁ := Invariant.run (s := ⟨configuredMaps, {}⟩) configuredMaps_started.invariant hrecorded
  have hq := quiet_abortedMigrations (s := Monitored.run ⟨configuredMaps, {}⟩ recordedEvents) hv 255
    hinv₁.slots (by decide)
  obtain ⟨hstate, hepoch, hflows, hlans, hmigration, hseen⟩ := quiet_cutover hq.slots hq.steady hv
  rw [show Monitored.run ⟨configuredMaps, {}⟩ wrappedEvents = ((Monitored.run ⟨configuredMaps, {}⟩
    recordedEvents).run (abortedMigrations (docAddr 1) (docAddr 3) 255)).run
      [.call (.beginMigration (docAddr 1) (docAddr 3)) noFaults, .call .cutover noFaults] by
    rw [wrappedEvents, Monitored.run, List.foldl_append, List.foldl_append]
    rfl] at hinv ⊢
  obtain ⟨hkey, slot, hslot⟩ := transitPacket_flow (hlans.trans hq.lans)
  have hentry : (Monitored.run ⟨configuredMaps, {}⟩ recordedEvents).maps.flowAffinity.get
      transitKey = some ⟨1, 1⟩ := by decide
  have hfirst : (Monitored.run ⟨configuredMaps, {}⟩ recordedEvents).maps.ctrl.epoch = 1 := by decide
  refine ⟨hstate, ?_, hkey, ?_⟩
  · rw [hslot, (hinv.slot_draining hslot hkey hstate).mpr ⟨⟨1, 1⟩, ?_, ?_⟩]
    · rw [hflows, hq.flows]
      exact hentry
    · rw [hepoch, hq.epoch, hfirst]
  · rw [hmigration, hq.migration, hseen, hq.seen, hinv₁.future _ (by decide)]
    exact Finset.notMem_empty _

end Minuteman.Migration
