import Minuteman.Datapath.Affinity
import Minuteman.Library.Linearization

/-!
# Flow affinity on several CPUs

The packets of a migration touch the flow table on many CPUs at once. Here each
access of `touch_flow_affinity` to the shared table is a step of its own: the
lookup, which yields a pointer to an element, the writes and reads through that
pointer, and the insertion. An insertion replaces the element of a key that is
there by now, and an element no key has any more is used again, also while a CPU
still holds a pointer to it. The collector's deletions are not among the steps.
-/
namespace Minuteman.Datapath.Racing
open Library Linearization

/-- A packet on its CPU with the control word and the time it read. `reverse` is a packet from the
softwire, which only feeds the table. -/
structure Packet where
  now : ℕ
  ctrl : ℕ
  pkt : Bytes
  reverse : Bool

namespace Packet

def key (p : Packet) : FlowKey := buildFlowKey p.pkt p.reverse

/-- The slot a packet to the softwire goes through, by whether a live entry was found. -/
def outcome (p : Packet) (found : Bool) : Option ℕ :=
  if p.reverse then none
  else
    some (if migState p.ctrl = migDraining ∧ found then migOldSlot p.ctrl else migActiveSlot p.ctrl)

def pick (m : Maps) (p : Packet) : Option ℕ × Maps :=
  if p.reverse then
    (none, if migState p.ctrl = migSteady then m else (touchFlowAffinity m p.now p.ctrl p.key).2)
  else
    let picked := pickSoftwireSlot m p.now p.ctrl p.pkt
    (some picked.1, picked.2)

end Packet

/-- The table: the element of each key, and what each element holds. `lost` counts the insertions
that failed. -/
structure Shared where
  index : BoundedMap FlowKey ℕ maxFlowAffinity
  elems : ℕ → FlowAffinity
  lost : ℕ

namespace Shared

def used (s : Shared) (elem : ℕ) : Bool := s.index.toList.any fun e => e.2 == elem

def stamp (s : Shared) (elem epoch : ℕ) : Shared :=
  { s with elems := Function.update s.elems elem ⟨(s.elems elem).lastSeenNs, epoch⟩ }

def refresh (s : Shared) (elem now : ℕ) : Shared :=
  { s with elems := Function.update s.elems elem ⟨now, (s.elems elem).epoch⟩ }

def inserted (s : Shared) (index : BoundedMap FlowKey ℕ maxFlowAffinity) (free now epoch : ℕ) :
    Shared := { s with index := index, elems := Function.update s.elems free ⟨now, epoch⟩ }

def epochAt (s : Shared) (key : FlowKey) : Option ℕ :=
  (s.index.get key).map fun elem => (s.elems elem).epoch

end Shared

/-- Where a packet is between two accesses to the table. -/
inductive Thread where
  | begun (p : Packet)
  | stamping (p : Packet) (elem : ℕ)
  | reading (p : Packet) (elem : ℕ)
  | refreshing (p : Packet) (elem : ℕ)
  | inserting (p : Packet)

def Thread.packet : Thread → Packet
  | begun p => p
  | stamping p _ => p
  | reading p _ => p
  | refreshing p _ => p
  | inserting p => p

/-- The next access; `free` is the element an insertion is given. -/
def Thread.step (s : Shared) (free : ℕ) : Thread → Shared × (Thread ⊕ Option ℕ)
  | .begun p =>
    if migState p.ctrl = migSteady then (s, .inr (p.outcome false))
    else
      match s.index.get p.key with
      | some elem =>
        if migState p.ctrl = migPriming then (s, .inl (.stamping p elem))
        else (s, .inl (.reading p elem))
      | none =>
        if migState p.ctrl ≠ migPriming then (s, .inr (p.outcome false))
        else (s, .inl (.inserting p))
  | .stamping p elem => (s.stamp elem (migEpoch p.ctrl), .inl (.reading p elem))
  | .reading p elem =>
    if (s.elems elem).epoch ≠ migEpoch p.ctrl then (s, .inr (p.outcome false))
    else (s, .inl (.refreshing p elem))
  | .refreshing p elem => (s.refresh elem p.now, .inr (p.outcome true))
  | .inserting p =>
    match s.index.insert p.key free with
    | none => ({ s with lost := s.lost + 1 }, .inr (p.outcome false))
    | some index =>
      if s.used free then (s, .inl (.inserting p))
      else (s.inserted index free p.now (migEpoch p.ctrl), .inr (p.outcome false))

def machine : Machine Shared Thread Packet (Option ℕ) ℕ := ⟨.begun, Thread.packet, Thread.step⟩

/-- A table and what the packets one after the other leave agree on the flows, the epoch of each and
the recordings lost. When a flow was last seen depends on the order of the stores alone. -/
structure Represents (v : FlowView) (s : Shared) : Prop where
  epochs : ∀ k, (v.flows.get k).map FlowAffinity.epoch = s.epochAt k
  injective : ∀ {k k' elem}, s.index.get k = some elem → s.index.get k' = some elem → k = k'
  lost : v.lost = s.lost

/-- A pointer got for `key` in the migration of `epoch`: to the key's element, or to one that was
replaced, which has the epoch as the key's own element has. -/
def Shared.Holds (s : Shared) (epoch : ℕ) (key : FlowKey) (elem : ℕ) : Prop :=
  s.index.get key = some elem ∨ (s.elems elem).epoch = epoch ∧ s.epochAt key = some epoch

/-- What a packet may rely on between two accesses. -/
def Thread.Sound (epoch : ℕ) (s : Shared) : Thread → Prop
  | .begun p => migEpoch p.ctrl = epoch
  | .stamping p elem =>
    migEpoch p.ctrl = epoch ∧ migState p.ctrl = migPriming ∧ s.Holds epoch p.key elem
  | .reading p elem =>
    migEpoch p.ctrl = epoch ∧ migState p.ctrl ≠ migSteady ∧
      if migState p.ctrl = migPriming then (s.elems elem).epoch = epoch
      else s.Holds epoch p.key elem
  | .refreshing p elem => migEpoch p.ctrl = epoch ∧ (s.elems elem).epoch = epoch
  | .inserting p =>
    migEpoch p.ctrl = epoch ∧ migState p.ctrl = migPriming ∧
      (s.epochAt p.key = none ∨ s.epochAt p.key = some epoch)

/-- The outcome, once nothing the other packets do can change it. -/
def Thread.decided : Thread → Option (Option ℕ)
  | .reading p _ => if migState p.ctrl = migPriming then some (p.outcome true) else none
  | .refreshing p _ => some (p.outcome true)
  | _ => none

/-- What packets of the migration may have done to the table in the meantime. -/
structure Later (epoch : ℕ) (s s' : Shared) : Prop where
  elems : ∀ {elem}, (s.elems elem).epoch = epoch → (s'.elems elem).epoch = epoch
  live : ∀ {k}, s.epochAt k = some epoch → s'.epochAt k = some epoch
  holds : ∀ {k elem}, s.index.get k = some elem → s'.Holds epoch k elem
  absent : ∀ {k}, s.epochAt k = none → s'.epochAt k = none ∨ s'.epochAt k = some epoch

theorem Later.refl (epoch : ℕ) (s : Shared) : Later epoch s s := ⟨id, id, Or.inl, Or.inl⟩

theorem Later.holds_of_holds {epoch : ℕ} {s s' : Shared} (h : Later epoch s s') {k : FlowKey}
    {elem : ℕ} (hholds : s.Holds epoch k elem) : s'.Holds epoch k elem :=
  hholds.elim h.holds fun hlive => .inr ⟨h.elems hlive.1, h.live hlive.2⟩

theorem Thread.Sound.later {epoch : ℕ} {s s' : Shared} {t : Thread} (h : t.Sound epoch s)
    (hlater : Later epoch s s') : t.Sound epoch s' := by
  cases t with
  | begun p => exact h
  | stamping p elem => exact ⟨h.1, h.2.1, hlater.holds_of_holds h.2.2⟩
  | reading p elem =>
    refine ⟨h.1, h.2.1, ?_⟩
    have hif := h.2.2
    split_ifs at hif ⊢
    · exact hlater.elems hif
    · exact hlater.holds_of_holds hif
  | refreshing p elem => exact ⟨h.1, hlater.elems h.2⟩
  | inserting p =>
    exact ⟨h.1, h.2.1, h.2.2.elim hlater.absent fun hlive => .inr (hlater.live hlive)⟩

section Accesses
variable {epoch now ctrl : ℕ} {s : Shared} {v v' : FlowView} {key : FlowKey}
  {fa : Option FlowAffinity}

theorem Shared.stamp_elems (s : Shared) (elem epoch e : ℕ) :
    ((s.stamp elem epoch).elems e).epoch = if e = elem then epoch else (s.elems e).epoch := by
  simp only [Shared.stamp, Function.update_apply]
  split_ifs <;> rfl

theorem Shared.refresh_elems (s : Shared) (elem now e : ℕ) :
    ((s.refresh elem now).elems e).epoch = (s.elems e).epoch := by
  simp only [Shared.refresh, Function.update_apply]
  split_ifs with h
  · rw [h]
  · rfl

theorem Shared.refresh_epochAt (s : Shared) (elem now : ℕ) (k : FlowKey) :
    (s.refresh elem now).epochAt k = s.epochAt k := by
  simp only [Shared.epochAt, Shared.refresh_elems]
  rfl

theorem Later.refresh (epoch : ℕ) (s : Shared) (elem now : ℕ) :
    Later epoch s (s.refresh elem now) where
  elems h := (s.refresh_elems elem now _).trans h
  live h := (s.refresh_epochAt elem now _).trans h
  holds := Or.inl
  absent h := .inl ((s.refresh_epochAt elem now _).trans h)

theorem Represents.refresh (h : Represents v s) (elem now : ℕ) :
    Represents v (s.refresh elem now) :=
  ⟨fun k => (h.epochs k).trans (s.refresh_epochAt elem now k).symm, h.injective, h.lost⟩

theorem Later.stamp (epoch : ℕ) (s : Shared) (elem : ℕ) : Later epoch s (s.stamp elem epoch) where
  elems h := by rw [Shared.stamp_elems, h, ite_self]
  live {k} h := by
    obtain ⟨e, hindex, hepoch⟩ := Option.map_eq_some_iff.mp h
    refine Option.map_eq_some_iff.mpr ⟨e, hindex, ?_⟩
    rw [Shared.stamp_elems, hepoch, ite_self]
  holds := Or.inl
  absent {k} h := .inl (Option.map_eq_none_iff.mpr (Option.map_eq_none_iff.mp h))

/-- Only the touched flow's epoch may change, in the table as in the maps. -/
theorem Represents.touched {s' : Shared} (h : Represents v s) (ht : Touched v now ctrl key fa v')
    (hinjective : ∀ {k k' elem}, s'.index.get k = some elem → s'.index.get k' = some elem → k = k')
    (hother : ∀ k, k ≠ key → s'.epochAt k = s.epochAt k)
    (hkey : (v'.flows.get key).map FlowAffinity.epoch = s'.epochAt key)
    (hlost : v'.lost = s'.lost) :
    Represents v' s' := by
  refine ⟨fun k => ?_, hinjective, hlost⟩
  by_cases hk : k = key
  · rw [hk]
    exact hkey
  · rw [ht.get_of_ne hk, hother k hk]
    exact h.epochs k

theorem Represents.get_of_epochAt (h : Represents v s) {k : FlowKey} {e : ℕ}
    (hepoch : s.epochAt k = some e) : ∃ fa, v.flows.get k = some fa ∧ fa.epoch = e :=
  Option.map_eq_some_iff.mp ((h.epochs k).trans hepoch)

theorem Represents.get_eq_none (h : Represents v s) {k : FlowKey} (hepoch : s.epochAt k = none) :
    v.flows.get k = none := Option.map_eq_none_iff.mp ((h.epochs k).trans hepoch)

theorem Represents.dom_eq (h : Represents v s) : v.flows.dom = s.index.dom := by
  ext k
  have hsome := congrArg Option.isSome (h.epochs k)
  rw [Option.isSome_map, Shared.epochAt, Option.isSome_map] at hsome
  rw [BoundedMap.mem_dom, BoundedMap.mem_dom, hsome]

/-- The element of another key is not the one written through a pointer held for this key, or has
the epoch already. -/
theorem Represents.stamp {elem : ℕ} (h : Represents v s) (hholds : s.Holds (migEpoch ctrl) key elem)
    (hpriming : migState ctrl = migPriming) (ht : Touched v now ctrl key fa v') :
    Represents v' (s.stamp elem (migEpoch ctrl)) := by
  have hlive : (s.stamp elem (migEpoch ctrl)).epochAt key = some (migEpoch ctrl) := by
    rcases hholds with hindex | ⟨-, hlive⟩
    · refine Option.map_eq_some_iff.mpr ⟨elem, hindex, ?_⟩
      rw [Shared.stamp_elems, if_pos rfl]
    · exact (Later.stamp _ s elem).live hlive
  have hdom : key ∈ v.flows.dom := by
    rw [h.dom_eq, BoundedMap.mem_dom]
    rcases hholds with hindex | ⟨-, hepoch⟩
    · rw [hindex]
      rfl
    · obtain ⟨e, hindex, -⟩ := Option.map_eq_some_iff.mp hepoch
      rw [hindex]
      rfl
  obtain ⟨hget, hlost⟩ := (ht.priming hpriming).resolve_right fun hfull => hfull.2.1 hdom
  refine h.touched ht h.injective (fun k hk => ?_) (by rw [hget, hlive]; rfl) (hlost.trans h.lost)
  refine Option.map_congr fun e he => ?_
  rw [Shared.stamp_elems]
  split_ifs with helem
  · subst helem
    rcases hholds with hindex | ⟨hepoch, -⟩
    · exact absurd (h.injective he hindex) hk
    · exact hepoch.symm
  · rfl

theorem Shared.get_ne_of_not_used {free : ℕ} (h : s.used free = false) {k : FlowKey} {elem : ℕ}
    (hindex : s.index.get k = some elem) : elem ≠ free := by
  rintro rfl
  have hmem := BoundedMap.mem_toList.mpr hindex
  have hused : s.used elem = true := List.any_eq_true.mpr ⟨_, hmem, by simp⟩
  rw [h] at hused
  exact Bool.false_ne_true hused

theorem Shared.inserted_elems (s : Shared) (index : BoundedMap FlowKey ℕ maxFlowAffinity)
    (free now epoch e : ℕ) : ((s.inserted index free now epoch).elems e).epoch =
      if e = free then epoch else (s.elems e).epoch := by
  simp only [Shared.inserted, Function.update_apply]
  split_ifs <;> rfl

theorem Shared.inserted_epochAt {index : BoundedMap FlowKey ℕ maxFlowAffinity} {key : FlowKey}
    {free : ℕ} (hinsert : s.index.insert key free = some index) (hfree : s.used free = false)
    (now epoch : ℕ) (k : FlowKey) :
    (s.inserted index free now epoch).epochAt k = if k = key then some epoch else s.epochAt k := by
  have hget := BoundedMap.get_insert hinsert k
  split_ifs at hget ⊢ with hk
  · refine Option.map_eq_some_iff.mpr ⟨free, hget, ?_⟩
    rw [Shared.inserted_elems, if_pos rfl]
  · rw [Shared.epochAt, Shared.epochAt, ← hget]
    refine Option.map_congr fun e he => ?_
    rw [Shared.inserted_elems, if_neg (Shared.get_ne_of_not_used hfree (hget ▸ he))]

theorem Later.inserted {index : BoundedMap FlowKey ℕ maxFlowAffinity} {key : FlowKey} {free : ℕ}
    (hinsert : s.index.insert key free = some index) (hfree : s.used free = false) (now : ℕ)
    (hmissed : s.epochAt key = none ∨ s.epochAt key = some epoch) :
    Later epoch s (s.inserted index free now epoch) := by
  have helems : ∀ {elem}, (s.elems elem).epoch = epoch →
      ((s.inserted index free now epoch).elems elem).epoch = epoch := by
    intro elem h
    rw [Shared.inserted_elems, h, ite_self]
  refine ⟨helems, fun h => ?_, fun {k elem} h => ?_, fun h => ?_⟩
  · rw [Shared.inserted_epochAt hinsert hfree, h, ite_self]
  · by_cases hk : k = key
    · subst hk
      have hepoch := hmissed.resolve_left fun hnone => by
        rw [Shared.epochAt, h] at hnone
        cases hnone
      obtain ⟨e, hindex, he⟩ := Option.map_eq_some_iff.mp hepoch
      rw [h] at hindex
      cases hindex
      exact .inr ⟨helems he, by rw [Shared.inserted_epochAt hinsert hfree, if_pos rfl]⟩
    · exact .inl (by rw [Shared.inserted, BoundedMap.get_insert hinsert, if_neg hk, h])
  · rw [Shared.inserted_epochAt hinsert hfree]
    split_ifs
    · exact .inr rfl
    · exact .inl h

theorem Represents.inserted {index : BoundedMap FlowKey ℕ maxFlowAffinity} {free : ℕ}
    (h : Represents v s) (hinsert : s.index.insert key free = some index)
    (hfree : s.used free = false) (hpriming : migState ctrl = migPriming)
    (ht : Touched v now ctrl key fa v') :
    Represents v' (s.inserted index free now (migEpoch ctrl)) := by
  have hroom : ¬(key ∉ v.flows.dom ∧ v.flows.dom.card = maxFlowAffinity) := by
    intro hfull
    rw [h.dom_eq] at hfull
    rw [BoundedMap.insert_eq_none.mpr hfull] at hinsert
    cases hinsert
  obtain ⟨hget, hlost⟩ := (ht.priming hpriming).resolve_right fun hfull => hroom hfull.2
  refine h.touched ht (fun {k k' elem} hk hk' => ?_) (fun k hk => ?_) ?_ (hlost.trans h.lost)
  · rw [Shared.inserted, BoundedMap.get_insert hinsert] at hk hk'
    split_ifs at hk hk' with heq heq' heq'
    · rw [heq, heq']
    · cases hk
      exact absurd rfl (Shared.get_ne_of_not_used hfree hk')
    · cases hk'
      exact absurd rfl (Shared.get_ne_of_not_used hfree hk)
    · exact h.injective hk hk'
  · rw [Shared.inserted_epochAt hinsert hfree, if_neg hk]
  · rw [hget, Shared.inserted_epochAt hinsert hfree, if_pos rfl]
    rfl

theorem Represents.full {free : ℕ} (h : Represents v s) (hinsert : s.index.insert key free = none)
    (hpriming : migState ctrl = migPriming) (ht : Touched v now ctrl key fa v') :
    Represents v' { s with lost := s.lost + 1 } := by
  have hfull := BoundedMap.insert_eq_none.mp hinsert
  rw [← h.dom_eq] at hfull
  have hv : v' = { v with lost := v.lost + 1 } := by
    cases ht with
    | refreshed e hget _ => exact absurd (BoundedMap.mem_dom_of_get hget) hfull.1
    | stale _ _ hne _ => exact absurd hpriming hne
    | absent _ hne => exact absurd hpriming hne
    | inserted table _ _ htable =>
      rw [BoundedMap.insert_eq_none.mpr hfull] at htable
      cases htable
    | full => rfl
  rw [hv]
  exact ⟨h.epochs, h.injective, congrArg (· + 1) h.lost⟩

theorem isSome_of_past (h : Touched v now ctrl key fa v') (hstate : migState ctrl ≠ migPriming)
    (hpast : ∀ e, v.flows.get key = some e → e.epoch ≠ migEpoch ctrl) : fa.isSome = false := by
  rw [Bool.eq_false_iff, ne_eq, h.isSome_iff hstate]
  rintro ⟨e, he, hlive⟩
  exact hpast e he hlive

end Accesses
section Packets
variable {m : Maps} {p : Packet}

theorem Packet.pick_steady (h : migState p.ctrl = migSteady) : p.pick m = (p.outcome false, m) := by
  rw [Packet.pick, Packet.outcome]
  split_ifs with hreverse hdraining
  · rfl
  · exact absurd (h.symm.trans hdraining.1) migSteady_ne_migDraining
  · rw [pickSoftwireSlot_steady h]

theorem Packet.pick_touched (h : migState p.ctrl ≠ migSteady) :
    ∃ fa, Touched m.flowView p.now p.ctrl p.key fa (p.pick m).2.flowView ∧
      (p.pick m).1 = p.outcome fa.isSome := by
  by_cases hreverse : p.reverse = true
  · refine ⟨(touchFlowAffinity m p.now p.ctrl p.key).1, ?_, ?_⟩
    · rw [Packet.pick, if_pos hreverse, if_neg h]
      exact touchFlowAffinity_touched m p.now p.ctrl p.key
    · rw [Packet.pick, if_pos hreverse, Packet.outcome, if_pos hreverse]
  · obtain ⟨fa, htouched, hslot⟩ := @pickSoftwireSlot_touched m p.now p.ctrl p.pkt h
    refine ⟨fa, ?_, ?_⟩
    · rw [Packet.pick, if_neg hreverse, Packet.key, Bool.eq_false_of_not_eq_true hreverse]
      exact htouched
    · rw [Packet.pick, if_neg hreverse, Packet.outcome, if_neg hreverse]
      exact congrArg some hslot

/-- While priming, every packet goes through the active slot. -/
theorem Packet.outcome_priming (h : migState p.ctrl = migPriming) (found found' : Bool) :
    p.outcome found = p.outcome found' := by
  have hne : migState p.ctrl ≠ migDraining := by
    rw [h]
    exact migPriming_ne_migDraining
  simp only [Packet.outcome, hne, false_and, if_false]

end Packets

/-- The maps agree with the table, and every packet under way is where it may be. -/
def Agrees (epoch : ℕ) (m : Maps) (s : Shared) (ts : List Thread) : Prop :=
  Represents m.flowView s ∧ ∀ t ∈ ts, t.Sound epoch s

section Steps
variable {epoch : ℕ} {m : Maps} {s : Shared} {rest : List Thread}

theorem Agrees.perm {ts ts' : List Thread} (hperm : ts.Perm ts') (h : Agrees epoch m s ts) :
    Agrees epoch m s ts' := ⟨h.1, fun t ht => h.2 t (hperm.mem_iff.mpr ht)⟩

theorem Agrees.next {t : Thread} {m' : Maps} {s' : Shared} (h : Agrees epoch m s (t :: rest))
    (hrep : Represents m'.flowView s') (hlater : Later epoch s s') : Agrees epoch m' s' rest :=
  ⟨hrep, fun t' ht' => (h.2 t' (List.mem_cons_of_mem _ ht')).later hlater⟩

theorem Agrees.cons {t : Thread} (h : Agrees epoch m s rest) (ht : t.Sound epoch s) :
    Agrees epoch m s (t :: rest) := ⟨h.1, List.forall_mem_cons.mpr ⟨ht, h.2⟩⟩

abbrev Step (epoch : ℕ) (m : Maps) (t : Thread) (rest : List Thread) :
    Shared × (Thread ⊕ Option ℕ) → Prop :=
  Advances machine (fun m p => Packet.pick m p) Thread.decided (Agrees epoch) m t rest

theorem step_begun {p : Packet} (h : Agrees epoch m s (.begun p :: rest)) (free : ℕ) :
    Step epoch m (.begun p) rest (Thread.step s free (.begun p)) := by
  have hepoch : migEpoch p.ctrl = epoch := h.2 _ List.mem_cons_self
  rw [Thread.step]
  by_cases hsteady : migState p.ctrl = migSteady
  · have hpick := Packet.pick_steady (m := m) hsteady
    have hlast : Step epoch m (.begun p) rest (s, .inr (p.pick m).1) := by
      refine .decidesLast s rfl ?_
      change Agrees epoch (p.pick m).2 s rest
      rw [hpick]
      exact h.next h.1 (.refl epoch s)
    rw [hpick] at hlast
    rw [if_pos hsteady]
    exact hlast
  · rw [if_neg hsteady]
    cases hget : s.index.get p.key with
    | some elem =>
      dsimp only
      split_ifs with hpriming
      · exact .stays s _ rfl rfl ((h.next h.1 (.refl epoch s)).cons ⟨hepoch, hpriming, .inl hget⟩)
      · refine .stays s _ (if_neg hpriming) rfl
          ((h.next h.1 (.refl epoch s)).cons ⟨hepoch, hsteady, ?_⟩)
        rw [if_neg hpriming]
        exact .inl hget
    | none =>
      have habsent : s.epochAt p.key = none := by rw [Shared.epochAt, hget]; rfl
      dsimp only
      split_ifs with hpriming
      · obtain ⟨fa, htouched, houtcome⟩ := Packet.pick_touched (m := m) hsteady
        have hnone := h.1.get_eq_none habsent
        have hpast : ∀ e, m.flowView.flows.get p.key = some e → e.epoch ≠ migEpoch p.ctrl :=
          fun e he => by rw [hnone] at he; cases he
        have hview := htouched.get_of_past hpriming hpast
        rw [← isSome_of_past htouched hpriming hpast, ← houtcome]
        exact .decidesLast s rfl (h.next (hview ▸ h.1) (.refl epoch s))
      · rw [not_not] at hpriming
        exact .stays s _ rfl rfl
          ((h.next h.1 (.refl epoch s)).cons ⟨hepoch, hpriming, .inl habsent⟩)

theorem step_stamping {p : Packet} {elem : ℕ} (h : Agrees epoch m s (.stamping p elem :: rest))
    (free : ℕ) : Step epoch m (.stamping p elem) rest (Thread.step s free (.stamping p elem)) := by
  obtain ⟨rfl, hpriming, hholds⟩ := h.2 _ List.mem_cons_self
  have hsteady : migState p.ctrl ≠ migSteady := by
    rw [hpriming]
    exact migSteady_ne_migPriming.symm
  obtain ⟨fa, htouched, houtcome⟩ := Packet.pick_touched (m := m) hsteady
  refine .decides _ _ rfl ?_ rfl ((h.next (h.1.stamp hholds hpriming htouched)
    (.stamp _ s elem)).cons ⟨rfl, hsteady, ?_⟩)
  · change (if migState p.ctrl = migPriming then some (p.outcome true) else none) =
      some (p.pick m).1
    rw [if_pos hpriming, houtcome, Packet.outcome_priming hpriming]
  · rw [if_pos hpriming, Shared.stamp_elems, if_pos rfl]

theorem step_reading {p : Packet} {elem : ℕ} (h : Agrees epoch m s (.reading p elem :: rest))
    (free : ℕ) : Step epoch m (.reading p elem) rest (Thread.step s free (.reading p elem)) := by
  obtain ⟨rfl, hsteady, hif⟩ := h.2 _ List.mem_cons_self
  rw [Thread.step]
  by_cases hpriming : migState p.ctrl = migPriming
  · rw [if_pos hpriming] at hif
    rw [if_neg (not_not.mpr hif)]
    exact .stays s _ (if_pos hpriming).symm rfl ((h.next h.1 (.refl _ s)).cons ⟨rfl, hif⟩)
  · rw [if_neg hpriming] at hif
    obtain ⟨fa, htouched, houtcome⟩ := Packet.pick_touched (m := m) hsteady
    have hopen : (Thread.reading p elem).decided = none := if_neg hpriming
    split_ifs with hepoch
    · have hindex := hif.resolve_right fun hlive => hepoch hlive.1
      have hat : s.epochAt p.key = some (s.elems elem).epoch := by rw [Shared.epochAt, hindex]; rfl
      obtain ⟨e, he, heq⟩ := h.1.get_of_epochAt hat
      have hstale : ∀ e', m.flowView.flows.get p.key = some e' → e'.epoch ≠ migEpoch p.ctrl := by
        intro e' he'
        rw [he] at he'
        cases he'
        rw [heq]
        exact hepoch
      have hview := htouched.get_of_past hpriming hstale
      rw [← isSome_of_past htouched hpriming hstale, ← houtcome]
      exact .decidesLast s hopen (h.next (hview ▸ h.1) (.refl _ s))
    · rw [not_not] at hepoch
      have hat : s.epochAt p.key = some (migEpoch p.ctrl) := by
        rcases hif with hindex | ⟨-, hlive⟩
        · rw [Shared.epochAt, hindex, ← hepoch]
          rfl
        · exact hlive
      obtain ⟨e, he, heq⟩ := h.1.get_of_epochAt hat
      obtain ⟨hget, rfl⟩ := htouched.get_of_live he heq
      have hrep : Represents (p.pick m).2.flowView s :=
        h.1.touched htouched h.1.injective (fun _ _ => rfl) (by rw [hget, hat]; rfl)
          ((htouched.not_priming hpriming).1.trans h.1.lost)
      exact .decides s _ hopen (congrArg some houtcome.symm) rfl
        ((h.next hrep (.refl _ s)).cons ⟨rfl, hepoch⟩)

theorem step_refreshing {p : Packet} {elem : ℕ} (h : Agrees epoch m s (.refreshing p elem :: rest))
    (free : ℕ) : Step epoch m (.refreshing p elem) rest (Thread.step s free (.refreshing p elem)) :=
  .ends _ _ rfl (h.next (h.1.refresh elem p.now) (.refresh epoch s elem p.now))

theorem step_inserting {p : Packet} (h : Agrees epoch m s (.inserting p :: rest)) (free : ℕ) :
    Step epoch m (.inserting p) rest (Thread.step s free (.inserting p)) := by
  obtain ⟨rfl, hpriming, hmissed⟩ := h.2 _ List.mem_cons_self
  have hsteady : migState p.ctrl ≠ migSteady := by
    rw [hpriming]
    exact migSteady_ne_migPriming.symm
  obtain ⟨fa, htouched, houtcome⟩ := Packet.pick_touched (m := m) hsteady
  rw [Packet.outcome_priming hpriming fa.isSome false] at houtcome
  rw [Thread.step]
  cases hinsert : s.index.insert p.key free with
  | none =>
    dsimp only
    rw [← houtcome]
    exact .decidesLast _ rfl (h.next (h.1.full hinsert hpriming htouched) ⟨id, id, Or.inl, Or.inl⟩)
  | some index =>
    dsimp only
    split_ifs with hused
    · exact .stays s _ rfl rfl h
    · have hfree := Bool.eq_false_of_not_eq_true hused
      rw [← houtcome]
      exact .decidesLast _ rfl (h.next (h.1.inserted hinsert hfree hpriming htouched)
        (.inserted hinsert hfree p.now hmissed))

end Steps

/-- A packet that stamps or inserts takes effect there, one that finds a live or a stale entry when
it reads its epoch, and one that finds none at the lookup. -/
def simulation (epoch : ℕ) :
    Simulation machine (fun m p => Packet.pick m p) fun p => migEpoch p.ctrl = epoch where
  decided := Thread.decided
  rel := Agrees epoch
  perm := Agrees.perm
  begins _ hp h := h.cons hp
  open_ _ := rfl
  input_start _ := rfl
  step {_ _ t _} free h := by
    cases t with
    | begun p => exact step_begun h free
    | stamping p elem => exact step_stamping h free
    | reading p elem => exact step_reading h free
    | refreshing p elem => exact step_refreshing h free
    | inserting p => exact step_inserting h free

def inTurn (m : Maps) (ps : List Packet) : List (Option ℕ) × Maps :=
  sequence (fun m p => Packet.pick m p) m ps

/-- `order` is an order of whole packets with the same slots and the same table. Those that are over
are all in it; so are others under way, none once no packet is. -/
structure Explained (m : Maps) (w : State Shared Thread Packet (Option ℕ))
    (order : List (Packet × Option ℕ)) : Prop where
  outcomes : (inTurn m (order.map Prod.fst)).1 = order.map Prod.snd
  table : Represents (inTurn m (order.map Prod.fst)).2.flowView w.shared
  finished : w.finished.Subperm order
  idle : w.running = [] → w.finished.Perm order

theorem explained_of_explains {epoch : ℕ} {m : Maps} {w : State Shared Thread Packet (Option ℕ)}
    {order : List (Packet × Option ℕ)} (h : Explains (simulation epoch) m w order) :
    Explained m w order := by
  refine ⟨h.outcomes, h.rel.1, ?_, fun hidle => ?_⟩
  · exact (List.sublist_append_left _ _).subperm.trans h.perm.symm.subperm
  · have hperm := h.perm
    rw [hidle, List.filterMap_nil, List.append_nil] at hperm
    exact hperm.symm

/-- Two packets of one flow miss it on two CPUs and both insert it. -/
def missedTwice : List (Event Packet ℕ) :=
  [.begin_ ⟨5, 16842752, [69], false⟩, .begin_ ⟨6, 16842752, [69], false⟩, .step 0 0, .step 1 0,
    .step 0 7, .step 0 8]

def noFlows : Shared := ⟨.empty, fun _ => ⟨0, 0⟩, 0⟩

theorem represents_noFlows : Represents Maps.zeroed.flowView noFlows :=
  ⟨fun _ => rfl, (fun {_ _ _} h => absurd h (by simp [noFlows])), rfl⟩

theorem missedTwice_epoch (p : Packet) (hp : .begin_ p ∈ missedTwice) : migEpoch p.ctrl = 1 := by
  simp only [missedTwice, List.mem_cons, Event.begin_.injEq, reduceCtorEq, List.not_mem_nil,
    or_false] at hp
  rcases hp with rfl | rfl <;> rfl

/-- However the accesses of the packets of one migration interleave, the packets go through the
slots, and leave the flows with their epochs and the count of lost recordings, that they would if
each touched the table as a whole, in some order that only grows with time. -/
theorem touches_linearizable {epoch : ℕ} {m : Maps} {s : Shared} (hs : Represents m.flowView s)
    (evs₁ evs₂ : List (Event Packet ℕ))
    (hepoch : ∀ p, .begin_ p ∈ evs₁ ++ evs₂ → migEpoch p.ctrl = epoch) :
    ∃ o₁ o₂, Explained m (machine.run ⟨s, [], []⟩ evs₁) o₁ ∧
      Explained m (machine.run ⟨s, [], []⟩ (evs₁ ++ evs₂)) (o₁ ++ o₂) := by
  have hinitial : Explains (simulation epoch) m ⟨s, [], []⟩ [] :=
    .initial ⟨hs, List.forall_mem_nil _⟩
  obtain ⟨o₁, h₁⟩ := hinitial.run evs₁ fun p hp => hepoch p (List.mem_append_left _ hp)
  obtain ⟨o₂, h₂⟩ := h₁.run evs₂ fun p hp => hepoch p (List.mem_append_right _ hp)
  rw [Machine.run_append]
  exact ⟨o₁, o₂, explained_of_explains h₁, explained_of_explains h₂⟩

theorem touches_linearizable_missedTwice :
    ∃ o₁ o₂, Explained Maps.zeroed (machine.run ⟨noFlows, [], []⟩ missedTwice) o₁ ∧
      Explained Maps.zeroed (machine.run ⟨noFlows, [], []⟩ (missedTwice ++ [])) (o₁ ++ o₂) :=
  touches_linearizable represents_noFlows missedTwice [] fun p hp =>
    missedTwice_epoch p (List.append_nil missedTwice ▸ hp)

def Live (epoch : ℕ) (v : FlowView) (k : FlowKey) : Prop :=
  ∃ fa, v.flows.get k = some fa ∧ fa.epoch = epoch

/-- What packets of one migration leave of the table: recorded flows stay recorded, none is dropped,
and a recording fails only in a full table. -/
structure Persists (epoch : ℕ) (v v' : FlowView) : Prop where
  lost : v.lost ≤ v'.lost
  live : ∀ {k}, Live epoch v k → Live epoch v' k
  dom : v.flows.dom ⊆ v'.flows.dom
  full : v'.lost ≠ v.lost → v'.flows.dom.card = maxFlowAffinity

theorem Persists.refl (epoch : ℕ) (v : FlowView) : Persists epoch v v :=
  ⟨le_rfl, id, Finset.Subset.refl _, fun h => absurd rfl h⟩

theorem Persists.trans {epoch : ℕ} {v v' v'' : FlowView} (h : Persists epoch v v')
    (h' : Persists epoch v' v'') : Persists epoch v v'' := by
  refine ⟨h.lost.trans h'.lost, fun hk => h'.live (h.live hk), h.dom.trans h'.dom, fun hne => ?_⟩
  by_cases hlast : v''.lost = v'.lost
  · have hcard := h.full fun heq => hne (hlast.trans heq)
    refine le_antisymm ?_ (hcard.symm.trans_le (Finset.card_le_card h'.dom))
    rw [BoundedMap.card_dom]
    exact v''.flows.size_le
  · exact h'.full hlast

theorem Persists.touched {v v' : FlowView} {now ctrl : ℕ} {key : FlowKey}
    {fa : Option FlowAffinity} (h : Touched v now ctrl key fa v') :
    Persists (migEpoch ctrl) v v' := by
  have hlive : ∀ {k}, Live (migEpoch ctrl) v k → Live (migEpoch ctrl) v' k := by
    rintro k ⟨e, hget, hepoch⟩
    by_cases hk : k = key
    · subst hk
      exact ⟨_, (h.get_of_live hget hepoch).1, rfl⟩
    · exact ⟨e, (h.get_of_ne hk).trans hget, hepoch⟩
  cases h with
  | refreshed e hget _ =>
    refine ⟨le_rfl, hlive, ?_, fun hne => absurd rfl hne⟩
    rw [BoundedMap.dom_insert (BoundedMap.insert_eq_some _ (BoundedMap.mem_dom_of_get hget))]
    exact Finset.subset_insert _ _
  | stale => exact .refl _ v
  | absent => exact .refl _ v
  | inserted table _ _ htable =>
    refine ⟨le_rfl, hlive, ?_, fun hne => absurd rfl hne⟩
    rw [BoundedMap.dom_insert htable]
    exact Finset.subset_insert _ _
  | full _ _ hfull =>
    exact ⟨Nat.le_succ _, hlive, Finset.Subset.refl _,
      fun _ => (BoundedMap.insert_eq_none.mp hfull).2⟩

/-- One packet keeps what is recorded, and while priming records its own flow unless it is counted
as lost. -/
theorem Packet.pick_persists (m : Maps) (p : Packet) :
    Persists (migEpoch p.ctrl) m.flowView (p.pick m).2.flowView ∧
    (migState p.ctrl = migPriming → (p.pick m).2.flowView.lost = m.flowView.lost →
      Live (migEpoch p.ctrl) (p.pick m).2.flowView p.key) := by
  by_cases hsteady : migState p.ctrl = migSteady
  · rw [Packet.pick_steady hsteady]
    refine ⟨.refl _ _, fun hpriming => ?_⟩
    exact absurd (hsteady.symm.trans hpriming) migSteady_ne_migPriming
  · obtain ⟨fa, htouched, -⟩ := Packet.pick_touched (m := m) hsteady
    refine ⟨.touched htouched, fun hpriming hlost => ?_⟩
    rcases htouched.priming hpriming with ⟨hget, -⟩ | ⟨hview, -⟩
    · exact ⟨_, hget, rfl⟩
    · rw [hview] at hlost
      exact absurd hlost (Nat.succ_ne_self _)

theorem inTurn_persists {epoch : ℕ} (ps : List Packet) (m : Maps)
    (hepoch : ∀ p ∈ ps, migEpoch p.ctrl = epoch) :
    Persists epoch m.flowView (inTurn m ps).2.flowView ∧
    ((inTurn m ps).2.flowView.lost = m.flowView.lost → ∀ p ∈ ps, migState p.ctrl = migPriming →
      Live epoch (inTurn m ps).2.flowView p.key) := by
  induction ps generalizing m with
  | nil => exact ⟨.refl _ _, fun _ => List.forall_mem_nil _⟩
  | cons p ps ih =>
    obtain ⟨rfl, hrest⟩ := List.forall_mem_cons.mp hepoch
    obtain ⟨hfirst, hrecorded⟩ := p.pick_persists m
    obtain ⟨hthen, hlater⟩ := ih (p.pick m).2 hrest
    change Persists _ _ (inTurn (p.pick m).2 ps).2.flowView ∧ (_ → ∀ q ∈ p :: ps, _ →
      Live _ (inTurn (p.pick m).2 ps).2.flowView q.key)
    refine ⟨hfirst.trans hthen, fun hlost => ?_⟩
    have hsame : (p.pick m).2.flowView.lost = m.flowView.lost :=
      le_antisymm (hthen.lost.trans_eq hlost) hfirst.lost
    refine List.forall_mem_cons.mpr ⟨fun hpriming => ?_, hlater (hlost.trans hsame.symm)⟩
    exact hthen.live (hrecorded hpriming hsame)

/-- Whatever the CPUs do at once: if no recording was counted as lost, every flow whose packet is
through is in the table with the migration's epoch, and one is counted as lost only once the table
is full. -/
theorem priming_records {epoch : ℕ} {m : Maps} {s : Shared} (hs : Represents m.flowView s)
    (evs : List (Event Packet ℕ)) (hepoch : ∀ p, .begin_ p ∈ evs → migEpoch p.ctrl = epoch) :
    ((machine.run ⟨s, [], []⟩ evs).shared.lost = s.lost →
      ∀ r ∈ (machine.run ⟨s, [], []⟩ evs).finished, migState r.1.ctrl = migPriming →
        (machine.run ⟨s, [], []⟩ evs).shared.epochAt r.1.key = some epoch) ∧
    ((machine.run ⟨s, [], []⟩ evs).shared.lost ≠ s.lost →
      (machine.run ⟨s, [], []⟩ evs).shared.index.dom.card = maxFlowAffinity) := by
  have hinitial : Explains (simulation epoch) m ⟨s, [], []⟩ [] :=
    .initial ⟨hs, List.forall_mem_nil _⟩
  obtain ⟨order, horder⟩ := hinitial.run evs hepoch
  have hadmitted : ∀ p ∈ ([] ++ order).map Prod.fst, migEpoch p.ctrl = epoch :=
    List.forall_mem_map.mpr horder.admitted
  obtain ⟨hpersists, hrecorded⟩ := inTurn_persists _ m hadmitted
  have hexplained := explained_of_explains horder
  have htable := hexplained.table
  rw [← htable.lost, ← hs.lost, ← htable.dom_eq]
  refine ⟨fun hlost r hr hpriming => ?_, hpersists.full⟩
  have hmem := List.mem_map_of_mem (f := Prod.fst) (hexplained.finished.subset hr)
  obtain ⟨fa, hget, hfa⟩ := hrecorded hlost r.1 hmem hpriming
  rw [← htable.epochs, hget, Option.map_some, hfa]

theorem priming_records_missedTwice :
    (machine.run ⟨noFlows, [], []⟩ missedTwice).shared.lost = noFlows.lost ∧
      ∀ r ∈ (machine.run ⟨noFlows, [], []⟩ missedTwice).finished, migState r.1.ctrl = migPriming →
        (machine.run ⟨noFlows, [], []⟩ missedTwice).shared.epochAt r.1.key = some 1 :=
  ⟨rfl, (priming_records represents_noFlows missedTwice missedTwice_epoch).1 rfl⟩

end Minuteman.Datapath.Racing
