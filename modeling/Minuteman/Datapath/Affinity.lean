import Minuteman.Datapath.Context

/-!
# Flow affinity

How a packet's flow key is built, recorded and looked up while an AFTR
migration is in progress, and which next-hop slot a packet is sent through.
-/
namespace Minuteman.Datapath
open Library ByteString

/-- `build_flow_key` for the IPv4 packet that starts at the front of `pkt`. Fragments and
portless protocols use ports 0; `reverse` gives the key of the opposite direction. -/
def buildFlowKey (pkt : Bytes) (reverse : Bool) : FlowKey :=
  let iph := Iphdr.read pkt
  let hasPorts := (iph.fragOff &&& (ipMf ||| ipOffset)) == 0 && iph.ihl == 5 &&
    (iph.protocol == ipprotoTcp || iph.protocol == ipprotoUdp) && iphdrLen + 4 ≤ pkt.length
  let sport := if hasPorts then be16At pkt iphdrLen else 0
  let dport := if hasPorts then be16At pkt (iphdrLen + 2) else 0
  if reverse then ⟨iph.daddr, iph.saddr, dport, sport, iph.protocol⟩
  else ⟨iph.saddr, iph.daddr, sport, dport, iph.protocol⟩

/-- `touch_flow_affinity` on an already built key: the entry of a flow that predates the cutover,
and the maps with the flow recorded or refreshed. -/
def touchFlowAffinity (m : Maps) (now ctrl : ℕ) (key : FlowKey) : Option FlowAffinity × Maps :=
  let epoch := migEpoch ctrl
  match m.flowAffinity.get key with
  | some fa =>
    let stamped := if migState ctrl = migPriming then epoch else fa.epoch
    if stamped ≠ epoch then (none, m)
    else (some ⟨now, stamped⟩, { m with flowAffinity := m.flowAffinity.set key ⟨now, stamped⟩ })
  | none =>
    if migState ctrl ≠ migPriming then (none, m)
    else
      match m.flowAffinity.insert key ⟨now, epoch⟩ with
      | none => (none, m.increaseStatsCount .affinityInsertFail)
      | some table => (none, { m with flowAffinity := table }.increaseStatsCount .affinityInsert)

def pickSoftwireSlot (m : Maps) (now ctrl : ℕ) (pkt : Bytes) : ℕ × Maps :=
  let slot := migActiveSlot ctrl
  if migState ctrl = migSteady then (slot, m)
  else
    let (fa, m') := touchFlowAffinity m now ctrl (buildFlowKey pkt false)
    if migState ctrl = migDraining ∧ fa.isSome then
      (migOldSlot ctrl, m'.increaseStatsCount .affinityPinned)
    else (slot, m')

/-- `resolve_softwire`: the stored configuration with one slot's addresses. -/
def resolveSoftwire (m : Maps) (nh : Option NextHop) : Option B4Config :=
  match nh with
  | none => none
  | some nh =>
    if nh.valid then some { m.b4Config with b4Addr := nh.b4Addr, aftrAddr := nh.aftrAddr } else none

def resolveActiveSoftwire (m : Maps) : Option B4Config :=
  resolveSoftwire m (m.getNextHop (migActiveSlot m.getMigrationCtrl))

/-- `find_dslite_peer_nh`: the first valid slot with these endpoints. -/
def findDslitePeerNh (m : Maps) (outer : Ipv6hdr) : Option NextHop :=
  ((List.range numNextHops).map m.nextHops).find? fun nh =>
    nh.valid && outer.daddr == nh.b4Addr && outer.saddr == nh.aftrAddr

theorem findDslitePeerNh_some {m : Maps} {outer : Ipv6hdr} {nh : NextHop}
    (h : findDslitePeerNh m outer = some nh) :
    nh.valid = true ∧ outer.daddr = nh.b4Addr ∧ outer.saddr = nh.aftrAddr := by
  have hfound := List.find?_some h
  simp only [Bool.and_eq_true, beq_iff_eq] at hfound
  exact ⟨hfound.1.1, hfound.1.2, hfound.2⟩

/-- What flow affinity depends on: the loader's maps, the flow table and the number of recordings
that found it full. -/
structure FlowView where
  loader : LoaderMaps
  flows : FlowTable
  lost : ℕ

def FlowView.ctrl (v : FlowView) : MigrationCtrl := unpackMigrationCtrl v.loader.migrationCtrl

def Maps.flowView (m : Maps) : FlowView :=
  ⟨m.toLoaderMaps, m.flowAffinity, m.stats .affinityInsertFail⟩

@[simp] theorem Maps.flowView_increaseStatsCount {s : StatId} (h : s ≠ .affinityInsertFail)
    (m : Maps) : (m.increaseStatsCount s).flowView = m.flowView := by
  simp only [Maps.flowView, Maps.increaseStatsCount_stats_of_ne m h.symm]
  rfl

/-- What packets leave behind, apart from counters and rate limits. -/
structure Kept where
  flow : FlowView
  pmtus : ℕ → TunnelPmtu

def Maps.kept (m : Maps) : Kept := ⟨m.flowView, m.tunnelPmtus⟩

@[simp] theorem Maps.kept_increaseStatsCount {s : StatId} (h : s ≠ .affinityInsertFail)
    (m : Maps) : (m.increaseStatsCount s).kept = m.kept := by
  rw [Maps.kept, Maps.flowView_increaseStatsCount h]
  rfl

theorem Maps.flowView_of_kept {m m' : Maps} (h : m.kept = m'.kept) : m.flowView = m'.flowView :=
  congrArg Kept.flow h

theorem Maps.tunnelPmtus_of_kept {m m' : Maps} (h : m.kept = m'.kept) :
    m.tunnelPmtus = m'.tunnelPmtus := congrArg Kept.pmtus h

theorem Maps.flowView_lost (m : Maps) : (m.increaseStatsCount .affinityInsertFail).flowView =
    { m.flowView with lost := m.flowView.lost + 1 } := by
  simp [Maps.flowView, Maps.increaseStatsCount]

/-- What touching a flow can do: refresh a live entry, ignore a stale one, or, only while
priming, record a new flow or find the table full. -/
inductive Touched (v : FlowView) (now ctrl : ℕ) (key : FlowKey) :
    Option FlowAffinity → FlowView → Prop
  | refreshed (fa : FlowAffinity) (hget : v.flows.get key = some fa)
      (hlive : migState ctrl = migPriming ∨ fa.epoch = migEpoch ctrl) :
      Touched v now ctrl key (some ⟨now, migEpoch ctrl⟩)
        { v with flows := v.flows.set key ⟨now, migEpoch ctrl⟩ }
  | stale (fa : FlowAffinity) (hget : v.flows.get key = some fa)
      (hstate : migState ctrl ≠ migPriming) (hepoch : fa.epoch ≠ migEpoch ctrl) :
      Touched v now ctrl key none v
  | absent (hget : v.flows.get key = none) (hstate : migState ctrl ≠ migPriming) :
      Touched v now ctrl key none v
  | inserted (table : FlowTable) (hget : v.flows.get key = none)
      (hstate : migState ctrl = migPriming)
      (htable : v.flows.insert key ⟨now, migEpoch ctrl⟩ = some table) :
      Touched v now ctrl key none { v with flows := table }
  | full (hget : v.flows.get key = none) (hstate : migState ctrl = migPriming)
      (hfull : v.flows.insert key ⟨now, migEpoch ctrl⟩ = none) :
      Touched v now ctrl key none { v with lost := v.lost + 1 }

theorem touchFlowAffinity_touched (m : Maps) (now ctrl : ℕ) (key : FlowKey) :
    Touched m.flowView now ctrl key (touchFlowAffinity m now ctrl key).1
      (touchFlowAffinity m now ctrl key).2.flowView := by
  cases hget : m.flowAffinity.get key with
  | some fa =>
    by_cases hstate : migState ctrl = migPriming
    · simp only [touchFlowAffinity, hget, hstate, if_true, ne_eq, not_true_eq_false, if_false]
      exact .refreshed fa hget (Or.inl hstate)
    · by_cases hepoch : fa.epoch = migEpoch ctrl
      · simp only [touchFlowAffinity, hget, hstate, hepoch, if_false, ne_eq, not_true_eq_false]
        exact .refreshed fa hget (Or.inr hepoch)
      · simp only [touchFlowAffinity, hget, hstate, hepoch, if_false, ne_eq, not_false_eq_true,
          if_true]
        exact .stale fa hget hstate hepoch
  | none =>
    by_cases hstate : migState ctrl = migPriming
    · cases hinsert : m.flowAffinity.insert key ⟨now, migEpoch ctrl⟩ with
      | none =>
        simp only [touchFlowAffinity, hget, hstate, hinsert, ne_eq, not_true_eq_false, if_false,
          Maps.flowView_lost]
        exact .full hget hstate hinsert
      | some table =>
        simp only [touchFlowAffinity, hget, hstate, hinsert, ne_eq, not_true_eq_false, if_false]
        rw [Maps.flowView_increaseStatsCount (by decide)]
        exact .inserted table hget hstate hinsert
    · simp only [touchFlowAffinity, hget, hstate, ne_eq, not_false_eq_true, if_true]
      exact .absent hget hstate

namespace Touched
variable {v v' : FlowView} {now ctrl : ℕ} {key : FlowKey} {fa : Option FlowAffinity}

theorem loader_eq (h : Touched v now ctrl key fa v') : v'.loader = v.loader := by
  cases h <;> rfl

theorem ctrl_eq (h : Touched v now ctrl key fa v') : v'.ctrl = v.ctrl := by
  cases h <;> rfl

/-- Only the touched key's entry can change. -/
theorem get_of_ne (h : Touched v now ctrl key fa v') {k : FlowKey} (hk : k ≠ key) :
    v'.flows.get k = v.flows.get k := by
  cases h with
  | refreshed _ hget _ =>
    exact (BoundedMap.get_set (BoundedMap.mem_dom_of_get hget) k).trans (if_neg hk)
  | stale => rfl
  | absent => rfl
  | inserted table _ _ htable => exact (BoundedMap.get_insert htable k).trans (if_neg hk)
  | full => rfl

/-- While priming, a touched flow is stamped with the epoch, or its loss is counted because the
table is full of other flows. -/
theorem priming (h : Touched v now ctrl key fa v') (hstate : migState ctrl = migPriming) :
    (v'.flows.get key = some ⟨now, migEpoch ctrl⟩ ∧ v'.lost = v.lost) ∨
      (v' = { v with lost := v.lost + 1 } ∧ key ∉ v.flows.dom ∧
        v.flows.dom.card = maxFlowAffinity) := by
  cases h with
  | refreshed _ hget _ =>
    exact Or.inl ⟨(BoundedMap.get_set (BoundedMap.mem_dom_of_get hget) key).trans (if_pos rfl), rfl⟩
  | stale _ _ hne _ => exact absurd hstate hne
  | absent _ hne => exact absurd hstate hne
  | inserted table _ _ htable =>
    exact Or.inl ⟨(BoundedMap.get_insert htable key).trans (if_pos rfl), rfl⟩
  | full _ _ hfull => exact Or.inr ⟨rfl, BoundedMap.insert_eq_none.mp hfull⟩

/-- A live entry stays, refreshed to the packet's time. -/
theorem get_of_live (h : Touched v now ctrl key fa v') {e : FlowAffinity}
    (hget : v.flows.get key = some e) (hepoch : e.epoch = migEpoch ctrl) :
    v'.flows.get key = some ⟨now, migEpoch ctrl⟩ ∧ fa = some ⟨now, migEpoch ctrl⟩ := by
  cases h with
  | refreshed _ hget' _ =>
    exact ⟨(BoundedMap.get_set (BoundedMap.mem_dom_of_get hget') key).trans (if_pos rfl), rfl⟩
  | stale e' hget' _ hne =>
    rw [hget] at hget'
    cases hget'
    exact absurd hepoch hne
  | absent hget' _ => cases hget.symm.trans hget'
  | inserted _ hget' _ _ => cases hget.symm.trans hget'
  | full hget' _ _ => cases hget.symm.trans hget'

/-- Every entry is as it was or was seen just now. -/
theorem get_or_now (h : Touched v now ctrl key fa v') {k : FlowKey} {e : FlowAffinity}
    (hget : v'.flows.get k = some e) : v.flows.get k = some e ∨ e.lastSeenNs = now := by
  by_cases hk : k = key
  · subst hk
    cases h with
    | refreshed _ hold _ =>
      rw [(BoundedMap.get_set (BoundedMap.mem_dom_of_get hold) k).trans (if_pos rfl)] at hget
      cases hget
      exact Or.inr rfl
    | stale => exact Or.inl hget
    | absent => exact Or.inl hget
    | inserted table _ _ htable =>
      rw [(BoundedMap.get_insert htable k).trans (if_pos rfl)] at hget
      cases hget
      exact Or.inr rfl
    | full => exact Or.inl hget
  · rw [h.get_of_ne hk] at hget
    exact Or.inl hget

/-- Once priming is over, a flow without a live entry is left as it was. -/
theorem get_of_past (h : Touched v now ctrl key fa v') (hstate : migState ctrl ≠ migPriming)
    (hpast : ∀ e, v.flows.get key = some e → e.epoch ≠ migEpoch ctrl) : v' = v := by
  cases h with
  | refreshed e hget hlive => exact absurd (hlive.resolve_left hstate) (hpast e hget)
  | stale => rfl
  | absent => rfl
  | inserted _ _ hpriming _ => exact absurd hpriming hstate
  | full _ hpriming _ => exact absurd hpriming hstate

/-- Once priming is over nothing is recorded or lost, and an entry keeps its epoch. -/
theorem not_priming (h : Touched v now ctrl key fa v') (hstate : migState ctrl ≠ migPriming) :
    v'.lost = v.lost ∧ ∀ k e', v'.flows.get k = some e' →
      ∃ e, v.flows.get k = some e ∧ e'.epoch = e.epoch := by
  cases h with
  | refreshed e hget hlive =>
    refine ⟨rfl, fun k e' hget' => ?_⟩
    have hset := BoundedMap.get_set (v := ⟨now, migEpoch ctrl⟩) (BoundedMap.mem_dom_of_get hget) k
    rw [hset] at hget'
    split_ifs at hget' with hk
    · subst hk
      cases hget'
      exact ⟨e, hget, (hlive.resolve_left hstate).symm⟩
    · exact ⟨e', hget', rfl⟩
  | stale => exact ⟨rfl, fun k e' hget' => ⟨e', hget', rfl⟩⟩
  | absent => exact ⟨rfl, fun k e' hget' => ⟨e', hget', rfl⟩⟩
  | inserted _ _ hpriming _ => exact absurd hpriming hstate
  | full _ hpriming _ => exact absurd hpriming hstate

/-- Once priming is over, exactly the live entries are found. -/
theorem isSome_iff (h : Touched v now ctrl key fa v') (hstate : migState ctrl ≠ migPriming) :
    fa.isSome ↔ ∃ e, v.flows.get key = some e ∧ e.epoch = migEpoch ctrl := by
  cases h with
  | refreshed e hget hlive => exact ⟨fun _ => ⟨e, hget, hlive.resolve_left hstate⟩, fun _ => rfl⟩
  | stale e hget _ hne =>
    refine ⟨fun hsome => (Bool.false_ne_true hsome).elim, ?_⟩
    rintro ⟨e', hget', hepoch⟩
    rw [hget] at hget'
    cases hget'
    exact absurd hepoch hne
  | absent hget _ =>
    refine ⟨fun hsome => (Bool.false_ne_true hsome).elim, ?_⟩
    rintro ⟨e', hget', -⟩
    cases hget.symm.trans hget'
  | inserted _ _ hpriming _ => exact absurd hpriming hstate
  | full _ hpriming _ => exact absurd hpriming hstate

end Touched

section PickSlot
variable {m : Maps} {now ctrl : ℕ} {pkt : Bytes}

/-- While a migration is in progress, picking a slot touches the packet's flow. -/
theorem pickSoftwireSlot_touched (h : migState ctrl ≠ migSteady) :
    ∃ fa, Touched m.flowView now ctrl (buildFlowKey pkt false) fa
        (pickSoftwireSlot m now ctrl pkt).2.flowView ∧
      (pickSoftwireSlot m now ctrl pkt).1 =
        if migState ctrl = migDraining ∧ fa.isSome then migOldSlot ctrl else migActiveSlot ctrl := by
  have htouched := touchFlowAffinity_touched m now ctrl (buildFlowKey pkt false)
  refine ⟨(touchFlowAffinity m now ctrl (buildFlowKey pkt false)).1, ?_, ?_⟩
  · unfold pickSoftwireSlot
    rw [if_neg h]
    dsimp only
    split_ifs
    · rw [Maps.flowView_increaseStatsCount (by decide)]
      exact htouched
    · exact htouched
  · unfold pickSoftwireSlot
    rw [if_neg h]
    dsimp only
    split_ifs <;> rfl

theorem pickSoftwireSlot_priming (h : migState ctrl = migPriming) :
    (pickSoftwireSlot m now ctrl pkt).1 = migActiveSlot ctrl := by
  obtain ⟨fa, -, hslot⟩ := @pickSoftwireSlot_touched m now ctrl pkt
    (by rw [h]; exact migSteady_ne_migPriming.symm)
  rw [hslot, if_neg]
  rintro ⟨hdraining, -⟩
  exact migPriming_ne_migDraining (h.symm.trans hdraining)

/-- While draining, a packet goes to the old slot exactly when its flow has a live entry. -/
theorem pickSoftwireSlot_draining (h : migState ctrl = migDraining)
    (hne : migOldSlot ctrl ≠ migActiveSlot ctrl) :
    (pickSoftwireSlot m now ctrl pkt).1 = migOldSlot ctrl ↔
      ∃ e, m.flowAffinity.get (buildFlowKey pkt false) = some e ∧ e.epoch = migEpoch ctrl := by
  obtain ⟨fa, htouched, hslot⟩ := @pickSoftwireSlot_touched m now ctrl pkt
    (by rw [h]; exact migSteady_ne_migDraining.symm)
  have hsome := htouched.isSome_iff (by rw [h]; exact migPriming_ne_migDraining.symm)
  change fa.isSome ↔ ∃ e, m.flowAffinity.get _ = some e ∧ _ at hsome
  rw [hslot, ← hsome]
  constructor
  · intro hold
    by_contra hnone
    rw [if_neg (fun hf => hnone hf.2)] at hold
    exact hne hold.symm
  · intro hfound
    rw [if_pos ⟨h, hfound⟩]

theorem pickSoftwireSlot_steady (h : migState ctrl = migSteady) :
    pickSoftwireSlot m now ctrl pkt = (migActiveSlot ctrl, m) := if_pos h

end PickSlot

namespace Xdp

@[simp] theorem count_maps (x : Xdp) (s : StatId) :
    (x.count s).maps = x.maps.increaseStatsCount s := rfl

@[simp] theorem count_ctx (x : Xdp) (s : StatId) : (x.count s).ctx = x.ctx := rfl

@[simp] theorem store_maps (x : Xdp) (off : ℕ) (b : Bytes) : (x.store off b).maps = x.maps := rfl

@[simp] theorem exit_maps (x : Xdp) (s : StatId) (a : XdpAction) :
    (x.exit s a).2.maps = x.maps.increaseStatsCount s := rfl

end Xdp

end Minuteman.Datapath
