import Minuteman.Migration.Pinning

/-!
# How full the flow table gets

A recording is lost only when the table is full. If every migration begins
with an empty table, a full one holds flows of its own priming only; entries
left by earlier migrations take their room otherwise.
-/
namespace Minuteman.Migration
open Library Datapath Loader Prog ByteString

/-- While priming, the table holds only flows seen in this priming. -/
def Confined (v : FlowView) (h : History) : Prop :=
  v.ctrl.state = migPriming → v.flows.dom ⊆ h.seen h.migration

/-- The event does not begin a migration while the table holds an entry. -/
def BeginsEmpty (m : Maps) : Event → Prop
  | .call (.beginMigration _ _) _ => m.ctrl.state = migSteady → m.flowAffinity.dom = ∅
  | _ => True

theorem saw_priming_seen {h : History} {now : ℕ} {key : FlowKey} :
    (h.saw migPriming now key).seen h.migration = insert key (h.seen h.migration) := by
  simp [History.saw]

namespace Confined
variable {v v' : FlowView} {h : History}

theorem of_not_priming (hstate : v.ctrl.state ≠ migPriming) : Confined v h :=
  fun hpriming => absurd hpriming hstate

theorem of_steady (hstate : v.ctrl.state = migSteady) : Confined v h := by
  apply of_not_priming
  rw [hstate]
  exact migSteady_ne_migPriming

theorem touched (hconf : Confined v h) {now : ℕ} {key : FlowKey} {fa : Option FlowAffinity}
    (ht : Touched v now v.loader.migrationCtrl key fa v') :
    Confined v' (h.saw v.ctrl.state now key) := by
  intro hpriming
  rw [ht.ctrl_eq] at hpriming
  rw [hpriming, show (h.saw migPriming now key).migration = h.migration from rfl, saw_priming_seen]
  intro k hk
  by_cases hkey : k = key
  · exact Finset.mem_insert.mpr (Or.inl hkey)
  · rw [BoundedMap.mem_dom, ht.get_of_ne hkey, ← BoundedMap.mem_dom] at hk
    exact Finset.mem_insert_of_mem (hconf hpriming hk)

theorem called {m m' : Maps} (hconf : Confined m.flowView h) {c : Call} {faults : Faults}
    {r : Except LoaderError Unit} (hempty : BeginsEmpty m (.call c faults))
    (hout : Outcome m m' c r) (hflows : m'.flowAffinity = m.flowAffinity) :
    Confined m'.flowView (h.called m.flowView c r) := by
  cases hout with
  | unmoved hu =>
    rw [History.called_error]
    intro hpriming
    rw [show m'.flowView.ctrl = m.flowView.ctrl from hu.ctrl] at hpriming
    rw [show m'.flowView.flows = m.flowView.flows from hflows]
    exact hconf hpriming
  | begun hv hb =>
    intro _
    rw [show m'.flowView.flows = m.flowAffinity from hflows, hempty hb.steady]
    exact Finset.empty_subset _
  | cutOver hb =>
    apply of_not_priming
    rw [show m'.flowView.ctrl = _ from hb.ctrl]
    exact migPriming_ne_migDraining.symm
  | completed hstate hend => exact of_steady (congrArg MigrationCtrl.state hend.ctrl)
  | aborted hstate hend => exact of_steady (congrArg MigrationCtrl.state hend.ctrl)
  | switchFailed hend => exact of_steady (congrArg MigrationCtrl.state hend.ctrl)
  | switched hv hsw => exact of_steady (congrArg MigrationCtrl.state hsw.ctrl)

theorem collected {m m' : Maps} (hconf : Confined m.flowView h) {t : FlowIdleTimeouts} {now : ℕ}
    (hg : Collected t now m m') : Confined m'.flowView (h.collected m.ctrl.state t now) := by
  have hctrl : m'.flowView.ctrl = m.flowView.ctrl :=
    congrArg (fun l : LoaderMaps => unpackMigrationCtrl l.migrationCtrl) hg.loader
  intro hpriming k hk
  rw [hctrl] at hpriming
  apply hconf hpriming
  rw [BoundedMap.mem_dom] at hk ⊢
  rcases hg.kept k with hsame | ⟨hnone, -⟩
  · rw [← show m'.flowView.flows.get k = m.flowView.flows.get k from hsame]
    exact hk
  · rw [show m'.flowView.flows.get k = none from hnone] at hk
    cases hk

theorem step {s : Monitored} (hslots : SlotInvariant s.maps)
    (hconf : Confined s.maps.flowView s.history) {e : Event} (he : e.reconfigures = false)
    (hempty : BeginsEmpty s.maps e) : Confined (s.step e).maps.flowView (s.step e).history := by
  have hchange := e.change (h := s.history) hslots he
  change Confined (e.exec s.maps).flowView (s.history.next s.maps e)
  generalize e.exec s.maps = m', s.history.next s.maps e = h' at hchange ⊢
  cases hchange with
  | unseen p hsame =>
    rw [hsame]
    exact hconf
  | steady p key hstate hsame =>
    rw [hsame]
    exact of_steady hstate
  | touched p key fa hstate ht => exact hconf.touched ht
  | called c faults r hslots' hout hflows hstats => exact hconf.called hempty hout hflows
  | uncollected t now faults hsame =>
    rw [hsame]
    exact hconf
  | collected t now faults hg => exact hconf.collected hg

/-- A lost recording: more flows than the table has room for were seen in this priming. -/
theorem overflow {s : Monitored} (hslots : SlotInvariant s.maps)
    (hconf : Confined s.maps.flowView s.history) {p : Packet}
    (hlost : s.maps.flowView.lost < (s.step (.packet p)).maps.flowView.lost) :
    maxFlowAffinity < ((s.step (.packet p)).history.seen
      (s.step (.packet p)).history.migration).card := by
  have hchange := Event.change (h := s.history) hslots (e := .packet p) rfl
  change s.maps.flowView.lost < (Event.exec (.packet p) s.maps).flowView.lost at hlost
  change maxFlowAffinity < ((s.history.next s.maps (.packet p)).seen
    (s.history.next s.maps (.packet p)).migration).card
  generalize Event.exec (.packet p) s.maps = m', s.history.next s.maps (.packet p) = h'
    at hchange hlost ⊢
  cases hchange with
  | unseen _ hsame =>
    rw [hsame] at hlost
    exact absurd hlost (lt_irrefl _)
  | steady _ key hstate hsame =>
    rw [hsame] at hlost
    exact absurd hlost (lt_irrefl _)
  | touched _ key fa hstate ht =>
    by_cases hpriming : s.maps.ctrl.state = migPriming
    · rcases ht.priming hpriming with ⟨-, hsame⟩ | ⟨-, hkey, hcard⟩
      · rw [hsame] at hlost
        exact absurd hlost (lt_irrefl _)
      · rw [hpriming, show (s.history.saw migPriming p.env.now key).migration =
          s.history.migration from rfl, saw_priming_seen]
        calc maxFlowAffinity < s.maps.flowView.flows.dom.card + 1 := by rw [hcard]; omega
          _ = (insert key s.maps.flowView.flows.dom).card := (Finset.card_insert_of_notMem hkey).symm
          _ ≤ _ := Finset.card_le_card (Finset.insert_subset_insert key (hconf hpriming))
    · rw [(ht.not_priming hpriming).1] at hlost
      exact absurd hlost (lt_irrefl _)

end Confined

theorem Started.confined {m : Maps} (h : Started m) : Confined m.flowView {} := by
  obtain ⟨m₀, cfg, faults, hun, -, hexec⟩ := h
  have hend := (setB4Config_unconfigured hun cfg).exec faults
  rw [show (setB4Config cfg).exec MapOp.effect faults m₀ = _ from hexec] at hend
  rcases hend with ⟨⟨e, he⟩, -⟩ | ⟨-, hctrl⟩
  · cases he
  · exact Confined.of_steady (congrArg MigrationCtrl.state (hctrl rfl))

def portPacket (port : UInt16) : Packet where
  program := .dsliteEncap
  env := transitPacket.env
  ctx := {
    data := [2, 0, 0, 0, 0, 1, 2, 0, 0, 0, 0, 2, 0x08, 0x00,
      0x45, 0, 0, 28, 0, 1, 0, 0, 64, 17, 0, 0, 192, 168, 1, 10, 203, 0, 113, 6] ++
      (be16 port ++ [0, 53, 0, 8, 0, 0])
    headroom := List.replicate 64 0
    ingressIfindex := 3 }

def portKey (port : UInt16) : FlowKey := ⟨0xc0a8010a, 0xcb007106, port, 53, 17⟩

theorem portKey_injective : Function.Injective portKey := by
  intro port port' h
  injection h

theorem portPacket_header (port : UInt16) : Iphdr.read ((portPacket port).ctx.data.drop 14) =
    Iphdr.read ((portPacket 0).ctx.data.drop 14) := rfl

theorem portPacket_parse (port : UInt16) : parseL2Ipv4 (portPacket port).ctx.data = .ip 14 := by
  have heth : (Ethhdr.read (portPacket port).ctx.data).hProto = ethPIp :=
    (rfl : _ = (Ethhdr.read (portPacket 0).ctx.data).hProto).trans (by decide)
  have hskip : skipVlanTag (portPacket port).ctx.data (some (ethLen, ethPIp)) =
      some (ethLen, ethPIp) := by
    simp only [skipVlanTag]
    rw [if_neg (by decide)]
  have hlength : (portPacket port).ctx.data.length = 42 := rfl
  simp only [parseL2Ipv4, heth, hskip, hlength]
  rw [show (portPacket port).ctx.data.drop ethLen = (portPacket port).ctx.data.drop 14 from rfl,
    portPacket_header]
  decide

theorem portPacket_key (port : UInt16) :
    buildFlowKey ((portPacket port).ctx.data.drop 14) false = portKey port := by
  have hsport : be16At ((portPacket port).ctx.data.drop 14) iphdrLen = port :=
    be16At_be16 port [0, 53, 0, 8, 0, 0]
  have hdport : be16At ((portPacket port).ctx.data.drop 14) (iphdrLen + 2) = 53 :=
    (rfl : _ = be16At ((portPacket 0).ctx.data.drop 14) (iphdrLen + 2)).trans (by decide)
  have hlength : ((portPacket port).ctx.data.drop 14).length = 28 := rfl
  simp only [buildFlowKey, portPacket_header, hsport, hdport, hlength, Bool.false_eq_true, if_false]
  rw [if_pos (by decide), if_pos (by decide), portKey, FlowKey.mk.injEq]
  exact ⟨by decide, by decide, rfl, rfl, by decide⟩

/-- With these LANs every `portPacket` is encapsulated. -/
theorem portPacket_flowKey {m : Maps} (h : m.lanConfigs = twoLans) (port : UInt16) :
    (portPacket port).flowKey m = some (portKey port) := by
  have hpacket : encapPacket (portPacket port).env m (portPacket port).ctx =
      some ((portPacket port).ctx.data.drop 14) := by
    have hlan : m.getLanConfig (portPacket port).ctx.ingressIfindex = some ⟨0xc0a80101, 0⟩ := by
      rw [Maps.getLanConfig, h]
      rfl
    have hpass : ¬ bypasses (portPacket port).env m.toLoaderMaps (portPacket port).ctx
        ⟨0xc0a80101, 0⟩ (Iphdr.read ((portPacket port).ctx.data.drop 14)) = true := by
      rw [bypasses_iff, h, portPacket_header]
      have hroute : lanRoute (portPacket port).env (portPacket port).ctx 14 =
          { ret := .success, egress := 2 } := rfl
      rw [hroute]
      decide
    simp only [encapPacket, portPacket_parse, hlan]
    rw [if_neg hpass]
  have hkey : (portPacket port).flowKey m = (encapPacket (portPacket port).env m
      (portPacket port).ctx).map fun pkt => buildFlowKey pkt false := by
    simp only [Packet.flowKey, portPacket]
  rw [hkey, hpacket, Option.map_some, portPacket_key]

/-- The ports were recorded, each as a flow of its own. -/
structure Filled (ports : List UInt16) (s s' : Monitored) : Prop where
  loader : s'.maps.toLoaderMaps = s.maps.toLoaderMaps
  lost : s'.maps.flowView.lost = s.maps.flowView.lost
  dom : s'.maps.flowAffinity.dom = s.maps.flowAffinity.dom ∪ (ports.map portKey).toFinset
  migration : s'.history.migration = s.history.migration
  lostAtBegin : s'.history.lostAtBegin = s.history.lostAtBegin
  seen : ∀ j, j ≠ s.history.migration → s'.history.seen j = s.history.seen j

theorem Monitored.step_packet_maps (s : Monitored) (p : Packet) :
    (s.step (.packet p)).maps = p.after s.maps := rfl

theorem filled_one {s : Monitored} (hlans : s.maps.lanConfigs = twoLans)
    (hpriming : s.maps.ctrl.state = migPriming) {port : UInt16}
    (hnew : portKey port ∉ s.maps.flowAffinity.dom)
    (hroom : s.maps.flowAffinity.dom.card < maxFlowAffinity) :
    Filled [port] s (s.step (.packet (portPacket port))) := by
  have hkey := portPacket_flowKey hlans port
  have hstep := (portPacket port).flowStep s.maps
  have hmaps := s.step_packet_maps (portPacket port)
  have hhistory : (s.step (.packet (portPacket port))).history =
      s.history.saw migPriming (portPacket port).env.now (portKey port) := by
    simp only [Monitored.step, History.next, hkey, hpriming]
  generalize (portPacket port).after s.maps = m' at hstep hmaps
  rw [hkey] at hstep
  rcases hstep with ⟨hunseen, -⟩ | ⟨-, key, fa, hkey', ht⟩
  · rcases hunseen with hnone | hsteady
    · cases hnone
    · exact absurd (hsteady.symm.trans hpriming) migSteady_ne_migPriming
  · obtain rfl : portKey port = key := Option.some.inj hkey'
    have hdom : m'.flowAffinity.dom = insert (portKey port) s.maps.flowAffinity.dom := by
      change m'.flowView.flows.dom = _
      generalize m'.flowView = v at ht
      cases ht with
      | refreshed _ hget _ => exact absurd (BoundedMap.mem_dom_of_get hget) hnew
      | stale _ hget _ _ => exact absurd (BoundedMap.mem_dom_of_get hget) hnew
      | absent _ hstate => exact absurd hpriming hstate
      | inserted table _ _ htable => exact BoundedMap.dom_insert htable
      | full _ _ hfull => exact absurd (BoundedMap.insert_eq_none.mp hfull).2 hroom.ne
    constructor
    · rw [hmaps]
      exact ht.loader_eq
    · rw [hmaps]
      rcases ht.priming hpriming with ⟨-, hsame⟩ | ⟨-, -, hcard⟩
      · exact hsame
      · exact absurd hcard hroom.ne
    · rw [hmaps, hdom]
      ext k
      simp
    · rw [hhistory]
      rfl
    · rw [hhistory]
      rfl
    · intro j hj
      rw [hhistory]
      simp [History.saw, hj]

/-- Packets of distinct ports fill the table. -/
theorem filled {s : Monitored} (hlans : s.maps.lanConfigs = twoLans)
    (hpriming : s.maps.ctrl.state = migPriming) {ports : List UInt16} (hports : ports.Nodup)
    (hnew : ∀ port ∈ ports, portKey port ∉ s.maps.flowAffinity.dom)
    (hroom : s.maps.flowAffinity.dom.card + ports.length ≤ maxFlowAffinity) :
    Filled ports s (s.run (ports.map fun port => .packet (portPacket port))) := by
  induction ports generalizing s with
  | nil => exact ⟨rfl, rfl, by simp [Monitored.run], rfl, rfl, fun _ _ => rfl⟩
  | cons port ports ih =>
    rw [List.forall_mem_cons] at hnew
    rw [List.length_cons] at hroom
    have hone := filled_one hlans hpriming hnew.1 (by omega)
    rw [List.map_cons, Monitored.run, List.foldl_cons]
    generalize s.step (.packet (portPacket port)) = t at hone ⊢
    have hdom : t.maps.flowAffinity.dom = insert (portKey port) s.maps.flowAffinity.dom := by
      rw [hone.dom]
      ext k
      simp
    have hrest := @ih t ?_ ?_ (List.nodup_cons.mp hports).2 ?_ ?_
    · refine ⟨hrest.loader.trans hone.loader, hrest.lost.trans hone.lost, ?_,
        hrest.migration.trans hone.migration, hrest.lostAtBegin.trans hone.lostAtBegin, ?_⟩
      · refine hrest.dom.trans ?_
        rw [hdom]
        ext k
        simp only [Finset.mem_union, Finset.mem_insert, List.mem_toFinset, List.mem_map,
          List.mem_cons, exists_eq_or_imp]
        tauto
      · intro j hj
        exact (hrest.seen j (by rw [hone.migration]; exact hj)).trans (hone.seen j hj)
    · exact (congrArg LoaderMaps.lanConfigs hone.loader).trans hlans
    · rw [← hpriming]
      exact congrArg (fun l : LoaderMaps => (unpackMigrationCtrl l.migrationCtrl).state) hone.loader
    · intro port' hport'
      rw [hdom, Finset.mem_insert, not_or]
      refine ⟨fun heq => ?_, hnew.2 port' hport'⟩
      rw [portKey_injective heq] at hport'
      exact (List.nodup_cons.mp hports).1 hport'
    · rw [hdom, Finset.card_insert_of_notMem hnew.1]
      omega

def allPorts : List UInt16 := (List.range 65536).map UInt16.ofNat

def fillingEvents : List Event := allPorts.map fun port => .packet (portPacket port)

theorem allPorts_nodup : allPorts.Nodup := by
  refine List.Nodup.map_on ?_ List.nodup_range
  intro n hn k hk h
  rw [List.mem_range] at hn hk
  have hnat := congrArg UInt16.toNat h
  rwa [UInt16.toNat_ofNat_of_lt' hn, UInt16.toNat_ofNat_of_lt' hk] at hnat

/-- From an empty table, the packets of all ports leave no room for another flow. -/
theorem filled_all {s : Monitored} (hlans : s.maps.lanConfigs = twoLans)
    (hpriming : s.maps.ctrl.state = migPriming) (hempty : s.maps.flowAffinity.dom = ∅) :
    Filled allPorts s (s.run fillingEvents) ∧
      (s.run fillingEvents).maps.flowAffinity.dom.card = maxFlowAffinity ∧
      transitKey ∉ (s.run fillingEvents).maps.flowAffinity.dom := by
  have hlength : allPorts.length = maxFlowAffinity := by simp [allPorts, maxFlowAffinity]
  have hfilled : Filled allPorts s (s.run fillingEvents) := by
    apply filled hlans hpriming allPorts_nodup
    · simp [hempty]
    · rw [hempty, hlength, Finset.card_empty, zero_add]
  have hdom : (s.run fillingEvents).maps.flowAffinity.dom = (allPorts.map portKey).toFinset := by
    rw [hfilled.dom, hempty, Finset.empty_union]
  refine ⟨hfilled, ?_, ?_⟩
  · rw [hdom, List.toFinset_card_of_nodup (allPorts_nodup.map portKey_injective), List.length_map,
      hlength]
  · rw [hdom, List.mem_toFinset, List.mem_map]
    rintro ⟨port, -, hport⟩
    have hdst : (0xcb007106 : UInt32) = 0xcb007105 := congrArg FlowKey.dst hport
    exact absurd hdst (by decide)

/-- A flow that a full table does not hold is lost, and still seen. -/
theorem transitPacket_lost {s : Monitored} (hlans : s.maps.lanConfigs = twoLans)
    (hpriming : s.maps.ctrl.state = migPriming)
    (hfull : s.maps.flowAffinity.dom.card = maxFlowAffinity)
    (hnew : transitKey ∉ s.maps.flowAffinity.dom) :
    (s.step (.packet transitPacket)).maps.flowView =
        { s.maps.flowView with lost := s.maps.flowView.lost + 1 } ∧
      (s.step (.packet transitPacket)).history =
        s.history.saw migPriming transitPacket.env.now transitKey := by
  obtain ⟨hkey, -⟩ := transitPacket_flow hlans
  have hstep := transitPacket.flowStep s.maps
  have hmaps := s.step_packet_maps transitPacket
  have hhistory : (s.step (.packet transitPacket)).history =
      s.history.saw migPriming transitPacket.env.now transitKey := by
    simp only [Monitored.step, History.next, hkey, hpriming]
  refine ⟨?_, hhistory⟩
  rw [hmaps]
  generalize transitPacket.after s.maps = m' at hstep
  rw [hkey] at hstep
  rcases hstep with ⟨hunseen, -⟩ | ⟨-, key, fa, hkey', ht⟩
  · rcases hunseen with hnone | hsteady
    · cases hnone
    · exact absurd (hsteady.symm.trans hpriming) migSteady_ne_migPriming
  · obtain rfl : transitKey = key := Option.some.inj hkey'
    generalize m'.flowView = v at ht ⊢
    cases ht with
    | refreshed _ hget _ => exact absurd (BoundedMap.mem_dom_of_get hget) hnew
    | stale _ hget _ _ => exact absurd (BoundedMap.mem_dom_of_get hget) hnew
    | absent _ hstate => exact absurd hpriming hstate
    | inserted table _ _ htable =>
      have hinsert := BoundedMap.insert_eq_none (v := ⟨transitPacket.env.now,
        migEpoch s.maps.migrationCtrl⟩) |>.mpr ⟨hnew, hfull⟩
      cases hinsert.symm.trans htable
    | full _ _ hfull => rfl

end Minuteman.Migration
