import Minuteman.Datapath.Affinity
import Minuteman.Library.Interference
import Minuteman.Loader.Runs

/-!
# Slots read while they are written

A `next_hops` update copies the new pair over the old one field by field, and
a packet reads its slot field by field after it loaded the control word. The
loader writes only slots that the current word does not name, while a packet
acts on the word it loaded.
-/
namespace Minuteman.Loader
open Library Datapath ByteString Prog

inductive Field
  | valid
  | b4Addr
  | aftrAddr
  deriving DecidableEq

def Field.all : List Field := [.valid, .b4Addr, .aftrAddr]

theorem Field.mem_all (f : Field) : f ∈ Field.all := by cases f <;> decide

/-- Copy one field of `new` over the same field of `nh`. -/
def Field.store (new nh : NextHop) : Field → NextHop
  | .valid => { nh with valid := new.valid }
  | .b4Addr => { nh with b4Addr := new.b4Addr }
  | .aftrAddr => { nh with aftrAddr := new.aftrAddr }

structure Put where
  slot : ℕ
  nh : NextHop
  fields : List Field

/-- How far a packet has come in `resolve_softwire`, with what it has read. -/
inductive Reader
  | idle
  | chosen (slot : ℕ)
  | checked (slot : ℕ)
  | half (slot : ℕ) (b4Addr : In6Addr)
  | sent (pair : In6Addr × In6Addr)
  | passed

def Reader.slot : Reader → Option ℕ
  | .chosen slot => some slot
  | .checked slot => some slot
  | .half slot _ => some slot
  | _ => none

/-- The maps as packets see them, the loader's call and update under way, the packets in flight,
and every pair the loader has written. -/
structure Torn where
  maps : Maps
  rest : LoaderM Unit := .pure ()
  put : Option Put := none
  readers : ℕ → Reader := fun _ => .idle
  written : List (In6Addr × In6Addr) := []

/-- A loader call starts, its next operation is answered, one field is copied, a packet loads the
control word and chooses a slot it names, or a packet reads on. -/
inductive TornAct
  | call (c : Call)
  | accept
  | refuse
  | store (f : Field)
  | load (i slot : ℕ)
  | read (i : ℕ)

instance (m : Maps) (slot : ℕ) : Decidable (Resolvable m slot) :=
  inferInstanceAs (Decidable (_ ∨ _ ∧ _))

namespace Torn

/-- The next field that `resolve_softwire` reads from the slot `nh`. -/
def advance (nh : NextHop) : Reader → Reader
  | .chosen slot => if nh.valid then .checked slot else .passed
  | .checked slot => .half slot nh.b4Addr
  | .half _ b4Addr => .sent (b4Addr, nh.aftrAddr)
  | r => r

/-- The kernel accepts the loader's next operation; an update of a slot starts to be copied. -/
def accept (s : Torn) : Torn :=
  match s.put, s.rest.nextOp with
  | none, some (.putNextHop slot nh) =>
    { s with
      rest := s.rest.accepted s.maps
      put := some ⟨slot, nh, Field.all⟩
      written := if nh.valid then nh.pair :: s.written else s.written }
  | none, some o => { s with maps := o.effect s.maps, rest := s.rest.accepted s.maps }
  | _, _ => s

def store (s : Torn) (f : Field) : Torn :=
  match s.put with
  | none => s
  | some put =>
    if f ∈ put.fields then
      let nh := f.store put.nh (s.maps.nextHops put.slot)
      { s with
        maps := MapOp.effect (.putNextHop put.slot nh) s.maps
        put := if put.fields.erase f = [] then none
          else some { put with fields := put.fields.erase f } }
    else s

def step (s : Torn) : TornAct → Torn
  | .call c => if s.put.isNone ∧ s.rest.nextOp.isNone then { s with rest := c.prog } else s
  | .accept => s.accept
  | .refuse => if s.put.isNone then { s with rest := s.rest.refused } else s
  | .store f => s.store f
  | .load i slot =>
    if Resolvable s.maps slot then
      { s with readers := Function.update s.readers i (.chosen slot) } else s
  | .read i =>
    match (s.readers i).slot with
    | none => s
    | some slot =>
      let r := advance (s.maps.nextHops slot) (s.readers i)
      { s with readers := Function.update s.readers i r }

/-- The maps once the update under way is over. -/
def settled (s : Torn) : Maps :=
  match s.put with
  | none => s.maps
  | some put => MapOp.effect (.putNextHop put.slot put.nh) s.maps

/-- A field is copied into a slot that a packet in flight is reading. -/
def Tears (s : Torn) : TornAct → Prop
  | .store f => ∃ put i, s.put = some put ∧ f ∈ put.fields ∧ (s.readers i).slot = some put.slot
  | _ => False

end Torn

/-- The slot encap picks is one that the control word it loaded names. -/
theorem pickSoftwireSlot_resolvable (m : Maps) (now : ℕ) (pkt : Bytes) :
    Resolvable m (pickSoftwireSlot m now m.migrationCtrl pkt).1 := by
  by_cases hstate : migState m.migrationCtrl = migSteady
  · rw [pickSoftwireSlot_steady hstate]
    exact Or.inl rfl
  · obtain ⟨fa, -, hslot⟩ := @pickSoftwireSlot_touched m now m.migrationCtrl pkt hstate
    rw [hslot]
    split_ifs with hpinned
    · exact Or.inr ⟨hpinned.1, rfl⟩
    · exact Or.inl rfl

namespace Torn
variable {s : Torn}

/-- The update has copied the fields it no longer lists. -/
def Copied (put : Put) (nh : NextHop) : Prop :=
  ∀ f, f ∉ put.fields → f.store put.nh nh = nh

/-- What a packet in flight has read agrees with its slot, which holds a written pair. -/
def Reads (slots : ℕ → NextHop) (written : List (In6Addr × In6Addr)) : Reader → Prop
  | .chosen slot => (slots slot).pair ∈ written
  | .checked slot => (slots slot).pair ∈ written
  | .half slot b4Addr => (slots slot).pair ∈ written ∧ b4Addr = (slots slot).b4Addr
  | .sent pair => pair ∈ written
  | _ => True

/-- The loader's call is safe once the update under way is over, the update goes to a slot that the
control word does not name, and packets read whole pairs. -/
structure Whole (s : Torn) : Prop where
  slots : SlotInvariant s.settled
  safe : Safe (fun _ _ => True) s.rest s.settled
  put : ∀ put, s.put = some put →
    ¬ Resolvable s.maps put.slot ∧ put.fields ≠ [] ∧ Copied put (s.maps.nextHops put.slot)
  written : ∀ slot, (s.settled.nextHops slot).valid = true →
    (s.settled.nextHops slot).pair ∈ s.written
  readers : ∀ i, Reads s.maps.nextHops s.written (s.readers i)

theorem Reads.mono {slots : ℕ → NextHop} {written written' : List (In6Addr × In6Addr)}
    (hsub : written ⊆ written') {r : Reader} (h : Reads slots written r) :
    Reads slots written' r := by
  cases r with
  | half slot b4Addr => exact ⟨hsub h.1, h.2⟩
  | idle => trivial
  | passed => trivial
  | _ => exact hsub h

/-- A packet does not notice a change of another slot. -/
theorem Reads.update {slots : ℕ → NextHop} {written : List (In6Addr × In6Addr)} {r : Reader}
    (h : Reads slots written r) {slot : ℕ} (hslot : r.slot ≠ some slot) (nh : NextHop) :
    Reads (Function.update slots slot nh) written r := by
  have hne : ∀ i, r.slot = some i → Function.update slots slot nh i = slots i := by
    intro i hi
    have hdiff : i ≠ slot := by
      rintro rfl
      exact hslot hi
    exact Function.update_of_ne hdiff _ _
  cases r with
  | chosen i => rwa [Reads, hne i rfl]
  | checked i => rwa [Reads, hne i rfl]
  | half i b4Addr => rwa [Reads, hne i rfl]
  | _ => exact h

theorem settled_ctrl (s : Torn) : s.settled.ctrl = s.maps.ctrl := by
  unfold settled
  split <;> rfl

/-- A slot the control word names is not under update. -/
theorem Whole.settled_slot (h : s.Whole) {slot : ℕ} (hres : Resolvable s.maps slot) :
    s.settled.nextHops slot = s.maps.nextHops slot := by
  unfold settled
  split
  · rfl
  · next put hput =>
    have hdiff : slot ≠ put.slot := by
      rintro rfl
      exact (h.put put hput).1 hres
    exact Function.update_of_ne hdiff _ _

theorem Whole.load (h : s.Whole) {i slot : ℕ} (hres : Resolvable s.maps slot) :
    Whole { s with readers := Function.update s.readers i (.chosen slot) } := by
  refine ⟨h.slots, h.safe, h.put, h.written, fun j => ?_⟩
  by_cases hj : j = i
  · subst hj
    have hvalid : (s.settled.nextHops slot).valid = true := by
      have hsettled : Resolvable s.settled slot := by rwa [Resolvable, settled_ctrl]
      rcases hsettled with rfl | ⟨hd, rfl⟩
      · exact h.slots.active.valid
      · exact (h.slots.draining hd).2.valid
    have hpair := h.written slot hvalid
    rw [h.settled_slot hres] at hpair
    dsimp only
    rw [Function.update_self]
    exact hpair
  · dsimp only
    rw [Function.update_of_ne hj]
    exact h.readers j

theorem Whole.read (h : s.Whole) {i slot : ℕ} (hslot : (s.readers i).slot = some slot) :
    Whole { s with
      readers := Function.update s.readers i (advance (s.maps.nextHops slot) (s.readers i)) } := by
  refine ⟨h.slots, h.safe, h.put, h.written, fun j => ?_⟩
  by_cases hj : j = i
  · subst hj
    have hreads := h.readers j
    dsimp only
    rw [Function.update_self]
    revert hreads hslot
    cases s.readers j with
    | chosen k =>
      rintro ⟨⟩ hreads
      unfold advance
      split_ifs
      · exact hreads
      · trivial
    | checked k =>
      rintro ⟨⟩ hreads
      exact ⟨hreads, rfl⟩
    | half k b4Addr =>
      rintro ⟨⟩ ⟨hpair, hb4⟩
      rw [advance, hb4]
      exact hpair
    | _ => rintro ⟨⟩
  · dsimp only
    rw [Function.update_of_ne hj]
    exact h.readers j

theorem store_comm (new nh : NextHop) (f g : Field) :
    g.store new (f.store new nh) = f.store new (g.store new nh) := by
  cases f <;> cases g <;> rfl

theorem store_idem (new nh : NextHop) (f : Field) :
    f.store new (f.store new nh) = f.store new nh := by
  cases f <;> rfl

/-- Copying the only field left makes the slot the new pair. -/
theorem store_last {new nh : NextHop} {f : Field} (h : ∀ g ≠ f, g.store new nh = nh) :
    f.store new nh = new := by
  have hfields : ∀ g : Field, g.store new (f.store new nh) = f.store new nh := by
    intro g
    by_cases hg : g = f
    · rw [hg, store_idem]
    · rw [store_comm, h g hg]
  generalize f.store new nh = final at hfields
  calc final = Field.aftrAddr.store new final := (hfields _).symm
    _ = Field.aftrAddr.store new (Field.b4Addr.store new final) := by rw [hfields .b4Addr]
    _ = Field.aftrAddr.store new (Field.b4Addr.store new (Field.valid.store new final)) := by
      rw [hfields .valid]
    _ = new := rfl

theorem Copied.store {put : Put} {nh : NextHop} (h : Copied put nh) (f : Field) :
    Copied { put with fields := put.fields.erase f } (f.store put.nh nh) := by
  intro g hg
  by_cases heq : g = f
  · rw [heq]
    exact store_idem put.nh nh f
  · have hold : g ∉ put.fields := fun hmem => hg ((List.mem_erase_of_ne heq).mpr hmem)
    exact (store_comm put.nh nh f g).trans (congrArg (fun nh' => f.store put.nh nh') (h g hold))

theorem store_of_mem {put : Put} {f : Field} (hput : s.put = some put) (hf : f ∈ put.fields) :
    s.store f = { s with
      maps := MapOp.effect (.putNextHop put.slot (f.store put.nh (s.maps.nextHops put.slot))) s.maps
      put := if put.fields.erase f = [] then none
        else some { put with fields := put.fields.erase f } } := by
  unfold Torn.store
  rw [hput]
  exact if_pos hf

/-- Copying one field of an update leaves what the update will have done as it is. -/
theorem settled_store {put : Put} {f : Field} (hput : s.put = some put) (hf : f ∈ put.fields)
    (hcopied : Copied put (s.maps.nextHops put.slot)) : (s.store f).settled = s.settled := by
  rw [store_of_mem hput hf]
  unfold settled
  rw [hput]
  dsimp only
  by_cases hlast : put.fields.erase f = []
  · have hnew : f.store put.nh (s.maps.nextHops put.slot) = put.nh := by
      refine store_last fun g hg => hcopied g fun hmem => ?_
      have herase := (List.mem_erase_of_ne hg).mpr hmem
      rw [hlast] at herase
      exact List.not_mem_nil herase
    rw [if_pos hlast, hnew]
  · rw [if_neg hlast]
    dsimp only [MapOp.effect]
    rw [Function.update_idem]

theorem Whole.store (h : s.Whole) {f : Field} (htear : ¬ s.Tears (.store f)) :
    (s.store f).Whole := by
  cases hput : s.put with
  | none =>
    unfold Torn.store
    rw [hput]
    exact h
  | some put =>
    by_cases hf : f ∈ put.fields
    · obtain ⟨hfree, -, hcopied⟩ := h.put put hput
      have hsettled := settled_store hput hf hcopied
      have heq := store_of_mem hput hf
      refine ⟨by rw [hsettled]; exact h.slots, ?_, fun put' hput' => ?_, ?_, fun i => ?_⟩
      · rw [hsettled, heq]
        exact h.safe
      · rw [heq] at hput' ⊢
        dsimp only at hput'
        split_ifs at hput' with hlast
        cases hput'
        refine ⟨hfree, hlast, ?_⟩
        rw [show (MapOp.effect (.putNextHop put.slot _) s.maps).nextHops put.slot = _ from
          Function.update_self _ _ _]
        exact hcopied.store f
      · rw [hsettled, heq]
        exact h.written
      · rw [heq]
        exact (h.readers i).update (fun hslot => htear ⟨put, i, hput, hf, hslot⟩) _
    · unfold Torn.store
      rw [hput]
      dsimp only
      rw [if_neg hf]
      exact h

/-- The loader's call finds the maps settled, and its next operation is safe on them. -/
theorem Whole.accepted (h : s.Whole) (hput : s.put = none) {o : MapOp}
    (ho : s.rest.nextOp = some o) :
    SafeStep ⟨o, s.maps, o.effect s.maps⟩ ∧
      Safe (fun _ _ => True) (s.rest.accepted s.maps) (o.effect s.maps) ∧
      SlotInvariant (o.effect s.maps) := by
  have hsettled : s.settled = s.maps := by
    unfold settled
    rw [hput]
  have hsafe := h.safe
  have hslots := h.slots
  rw [hsettled] at hsafe hslots
  obtain ⟨hstep, hrest⟩ := hsafe.accepted ho
  exact ⟨hstep, hrest, hstep.stays hslots⟩

theorem Whole.accept (h : s.Whole) : s.accept.Whole := by
  have hsettled : s.put = none → s.settled = s.maps := by
    intro hput
    unfold settled
    rw [hput]
  unfold Torn.accept
  split
  · next slot nh hput ho =>
    obtain ⟨hstep, hrest, hinv⟩ := h.accepted hput ho
    have hold := h.written
    rw [hsettled hput] at hold
    refine ⟨hinv, hrest, fun put hput' => ?_, fun i hvalid => ?_, fun i => ?_⟩
    · cases hput'
      refine ⟨?_, List.cons_ne_nil _ _, fun f hf => absurd f.mem_all hf⟩
      refine (hstep.put slot nh rfl).resolve_right fun hunconfigured => ?_
      have hactive := h.slots.active.valid
      rw [hsettled hput, hunconfigured.invalid] at hactive
      cases hactive
    · change ((MapOp.effect (.putNextHop slot nh) s.maps).nextHops i).valid = true at hvalid
      change ((MapOp.effect (.putNextHop slot nh) s.maps).nextHops i).pair ∈ _
      by_cases hi : i = slot
      · subst hi
        simp only [MapOp.effect, Function.update_self] at hvalid ⊢
        rw [if_pos hvalid]
        exact List.mem_cons_self
      · simp only [MapOp.effect, Function.update_of_ne hi] at hvalid ⊢
        split_ifs
        · exact List.mem_cons_of_mem _ (hold i hvalid)
        · exact hold i hvalid
    · refine (h.readers i).mono ?_
      dsimp only
      split_ifs
      · exact List.subset_cons_self _ _
      · exact List.Subset.refl _
  · next o hne hput ho =>
    obtain ⟨-, hrest, hinv⟩ := h.accepted hput ho
    have hold := h.written
    rw [hsettled hput] at hold
    have hslots : (o.effect s.maps).nextHops = s.maps.nextHops := by
      cases o with
      | putNextHop slot nh => exact (hne slot nh rfl).elim
      | _ => rfl
    have hnew : settled { s with maps := o.effect s.maps, rest := s.rest.accepted s.maps } =
        o.effect s.maps := by
      unfold settled
      rw [hput]
    refine ⟨by rw [hnew]; exact hinv, by rw [hnew]; exact hrest, fun put hput' => ?_, ?_,
      fun i => ?_⟩
    · cases hput.symm.trans hput'
    · rw [hnew, hslots]
      exact hold
    · rw [hslots]
      exact h.readers i
  · exact h

theorem Whole.step (h : s.Whole) {a : TornAct} (ha : ¬ s.Tears a) : (s.step a).Whole := by
  cases a with
  | accept => exact h.accept
  | store f => exact h.store ha
  | call c =>
    unfold Torn.step
    dsimp only
    split_ifs with hidle
    · exact ⟨h.slots, c.safe h.slots, h.put, h.written, h.readers⟩
    · exact h
  | refuse =>
    unfold Torn.step
    dsimp only
    split_ifs
    · exact ⟨h.slots, h.safe.refused, h.put, h.written, h.readers⟩
    · exact h
  | load i slot =>
    unfold Torn.step
    dsimp only
    split_ifs with hres
    · exact h.load hres
    · exact h
  | read i =>
    unfold Torn.step
    dsimp only
    split
    · exact h
    · next slot hslot => exact h.read hslot

end Torn

/-- Whatever map operations, field copies and packets alternate, if no field is copied into a slot
that a packet in flight is reading, every packet is sent with a pair that was written as one. -/
theorem sent_pairs_written (m : Maps) (hm : SlotInvariant m) (written : List (In6Addr × In6Addr))
    (hwritten : ∀ slot, (m.nextHops slot).valid = true → (m.nextHops slot).pair ∈ written)
    (acts : List TornAct)
    (hacts : Along Torn.step (fun s a => ¬ s.Tears a)
      ⟨m, .pure (), none, fun _ => .idle, written⟩ acts) (i : ℕ) (pair : In6Addr × In6Addr)
    (hsent : (acts.foldl Torn.step ⟨m, .pure (), none, fun _ => .idle, written⟩).readers i =
      .sent pair) :
    pair ∈ (acts.foldl Torn.step ⟨m, .pure (), none, fun _ => .idle, written⟩).written := by
  have hfirst : Torn.Whole ⟨m, .pure (), none, fun _ => .idle, written⟩ :=
    ⟨hm, trivial, fun put hput => (by cases hput), hwritten, fun _ => trivial⟩
  have hreads := (hacts.invariant (fun _ _ hs ha => hs.step ha) hfirst).readers i
  rw [hsent] at hreads
  exact hreads

def docMaps : Maps := ((Call.setB4Config docConfig).exec noFaults Maps.zeroed).2

def docPair (b4 aftr : UInt8) : In6Addr × In6Addr := ((docAddr b4).as16, (docAddr aftr).as16)

theorem docMaps_slotInvariant : SlotInvariant docMaps := by
  have hend := (setB4Config_unconfigured zeroed_unconfigured docConfig).exec noFaults
  rcases hend with ⟨⟨e, herr⟩, -⟩ | ⟨hinv, -⟩
  · cases herr
  · exact hinv

theorem docMaps_written (slot : ℕ) (h : (docMaps.nextHops slot).valid = true) :
    (docMaps.nextHops slot).pair ∈ [docPair 1 2] := by
  have hslots : docMaps.nextHops =
      Function.update (fun _ => {}) 0 (pairHop (docAddr 1) (docAddr 2)) := rfl
  rw [hslots] at h ⊢
  by_cases hslot : slot = 0
  · rw [hslot, Function.update_self]
    exact List.mem_singleton.mpr rfl
  · rw [Function.update_of_ne hslot] at h
    cases h

def docTorn : Torn := ⟨docMaps, .pure (), none, fun _ => .idle, [docPair 1 2]⟩

def overlapActs : List TornAct :=
  [.load 0 0, .read 0, .call (.switchAftr (docAddr 4) (docAddr 3)), .accept, .accept, .accept,
    .accept, .read 0, .accept, .read 0]

theorem sent_pairs_written_overlap :
    docPair 1 2 ∈ (overlapActs.foldl Torn.step docTorn).written :=
  sent_pairs_written docMaps docMaps_slotInvariant [docPair 1 2] docMaps_written overlapActs
    ⟨id, id, id, id, id, id, id, id, id, id, trivial⟩ 0 (docPair 1 2) (by rfl)

def storedSwitch (b4 aftr : UInt8) : List TornAct :=
  [.call (.switchAftr (docAddr b4) (docAddr aftr)), .accept, .accept, .accept, .accept, .accept,
    .store .valid, .store .b4Addr, .store .aftrAddr, .accept]

/-- Two switches between the last two reads of a packet. -/
def tearingActs : List TornAct :=
  [.load 0 0, .read 0, .read 0] ++ storedSwitch 4 3 ++ storedSwitch 5 6 ++ [.read 0]

theorem two_switches_tear_packet :
    (tearingActs.foldl Torn.step docTorn).readers 0 = .sent (docPair 1 6) ∧
      docPair 1 6 ∉ (tearingActs.foldl Torn.step docTorn).written := by
  refine ⟨by rfl, ?_⟩
  decide +kernel

end Minuteman.Loader
