import Minuteman.PathMtu.Attribution

/-!
# Path MTUs of recycled slots

The loader forgets a slot's path MTU just before it stores a new pair there,
by two separate map operations, while the datapath goes on learning. Packets
happen between any two map operations of a loader call.
-/
namespace Minuteman.PathMtu
open Library ByteString Datapath Loader Migration Prog

/-- A valid pair is only stored right after the slot's path MTU was cleared, and path MTUs are
only ever cleared. -/
def clearFirst : Discipline MapOp (Option ℕ) where
  start := none
  allows cleared o := match o with
    | .putNextHop slot nh => nh.valid = true → cleared = some slot
    | .putTunnelPmtu _ v => v = {}
    | _ => True
  after o := match o with
    | .putTunnelPmtu slot _ => some slot
    | _ => none

section Calls
variable {cleared : Option ℕ} {Q : Option ℕ → Prop}

theorem putSlot_obeys {o : MapOp} {slot : ℕ} {e : LoaderError} (ho : clearFirst.allows cleared o)
    (hQ : Q (clearFirst.after o)) : Obeys clearFirst Q (putSlot o slot e) cleared := by
  unfold putSlot
  split
  · exact .perform ho hQ
  · trivial

theorem readCtrl_obeys : Obeys clearFirst (fun _ => True) readCtrl cleared := .perform trivial trivial

theorem writeCtrl_obeys (c : MigrationCtrl) :
    Obeys clearFirst (fun _ => True) (writeCtrl c) cleared := .perform trivial trivial

theorem validateSoftwireAddrs_obeys (b4 aftr : Addr) :
    Obeys clearFirst (fun _ => True) (validateSoftwireAddrs b4 aftr) cleared := by
  unfold validateSoftwireAddrs
  split_ifs <;> trivial

theorem slotIsLive_obeys (c : MigrationCtrl) (slot : ℕ) :
    Obeys clearFirst (fun _ => True) (slotIsLive c slot) cleared := by
  unfold slotIsLive
  split_ifs
  · exact .perform trivial trivial
  · trivial
  · trivial

theorem writeNextHop_obeys (slot : ℕ) (b4 aftr : Addr) :
    Obeys clearFirst (fun _ => True) (writeNextHop slot b4 aftr) cleared := by
  refine readCtrl_obeys.bind fun c _ _ => ?_
  refine (slotIsLive_obeys c slot).bind fun live _ _ => ?_
  split_ifs
  · trivial
  · have hclear : ∀ t, Obeys clearFirst (fun t => t = some slot) (clearTunnelPmtu slot) t :=
      fun t => putSlot_obeys rfl rfl
    refine (hclear _).bind fun _ t ht => ?_
    exact putSlot_obeys (fun _ => ht) trivial

theorem clearNextHop_obeys (slot : ℕ) :
    Obeys clearFirst (fun _ => True) (clearNextHop slot) cleared := by
  have hput : Obeys clearFirst (fun _ => True)
      (putSlot (.putNextHop slot {}) slot (.clearingNextHop slot)) cleared :=
    putSlot_obeys (fun hvalid => absurd hvalid (by decide)) trivial
  exact hput.bind fun _ _ _ => putSlot_obeys rfl trivial

theorem endMigration_obeys (required : ℕ) (refuse : ℕ → LoaderError) (retired : MigrationCtrl → ℕ) :
    Obeys clearFirst (fun _ => True) (endMigration required refuse retired) cleared := by
  refine readCtrl_obeys.bind fun c _ _ => ?_
  split_ifs
  · trivial
  · exact (writeCtrl_obeys _).bind fun _ _ _ => clearNextHop_obeys _

theorem flipToFreeSlot_obeys (b4 aftr : Addr) :
    Obeys clearFirst (fun _ => True) (flipToFreeSlot b4 aftr) cleared := by
  refine readCtrl_obeys.bind fun c _ _ => ?_
  exact (writeNextHop_obeys _ b4 aftr).bind fun _ _ _ => writeCtrl_obeys _

/-- Every call clears a slot's path MTU before it stores a pair there. -/
theorem call_obeys (c : Call) : Obeys clearFirst (fun _ => True) c.prog cleared := by
  cases c with
  | setB4Config cfg =>
    refine (validateSoftwireAddrs_obeys _ _).bind fun _ _ _ => ?_
    refine Obeys.bind (Q := fun _ => True) (.perform trivial trivial) fun _ _ _ => ?_
    refine (writeNextHop_obeys _ _ _).bind fun _ _ _ => ?_
    exact (writeCtrl_obeys _).bind fun _ _ _ => .perform trivial trivial
  | beginMigration b4 aftr =>
    refine (validateSoftwireAddrs_obeys _ _).bind fun _ _ _ => ?_
    refine readCtrl_obeys.bind fun c _ _ => ?_
    split_ifs
    · trivial
    · exact (writeNextHop_obeys _ _ _).bind fun _ _ _ => writeCtrl_obeys _
  | cutover =>
    refine readCtrl_obeys.bind fun c _ _ => ?_
    split_ifs
    · trivial
    · exact writeCtrl_obeys _
  | completeMigration => exact endMigration_obeys _ _ _
  | abortMigration => exact endMigration_obeys _ _ _
  | switchAftr b4 aftr =>
    refine (validateSoftwireAddrs_obeys _ _).bind fun _ _ _ => ?_
    refine readCtrl_obeys.bind fun c _ _ => ?_
    split_ifs
    · exact (endMigration_obeys _ _ _).bind fun _ _ _ => flipToFreeSlot_obeys b4 aftr
    · exact (endMigration_obeys _ _ _).bind fun _ _ _ => flipToFreeSlot_obeys b4 aftr
    · exact flipToFreeSlot_obeys b4 aftr

end Calls

/-- The maps, what the loader's current call has left to do, and for each slot the endpoints
quoted by the message its reading was learned from. -/
structure Shared where
  maps : Maps
  rest : LoaderM Unit := .pure ()
  quoted : ℕ → Option (In6Addr × In6Addr) := fun _ => none

/-- A whole packet, the start of a call, or the kernel's answer to the next map operation. -/
inductive Act
  | packet (p : Packet)
  | call (c : Call)
  | accept
  | refuse

instance (e : TunnelPmtu) (now mtu : ℕ) : Decidable (e.GivesWay now mtu) :=
  inferInstanceAs (Decidable (_ ∨ _ ∨ _))

namespace Shared

/-- The endpoints each reading was learned for, after a packet. -/
def quotedAfter (s : Shared) (p : Packet) : ℕ → Option (In6Addr × In6Addr) :=
  match p.tooBig s.maps with
  | none => s.quoted
  | some (slot, mtu) =>
    if (s.maps.tunnelPmtus slot).GivesWay p.env.now mtu then
      Function.update s.quoted slot (some p.quotedPair)
    else s.quoted

def step (s : Shared) : Act → Shared
  | .packet p => { s with maps := p.after s.maps, quoted := s.quotedAfter p }
  | .call c => if s.rest.nextOp.isNone then { s with rest := c.prog } else s
  | .accept =>
    match s.rest.nextOp with
    | none => s
    | some o => { s with maps := o.effect s.maps, rest := s.rest.accepted s.maps }
  | .refuse =>
    match s.rest.nextOp with
    | none => s
    | some _ => { s with rest := s.rest.refused }

/-- Every reading of a valid slot was learned for the pair the slot holds. -/
def Owned (s : Shared) : Prop :=
  ∀ slot, (s.maps.nextHops slot).valid = true → s.maps.tunnelPmtus slot ≠ {} →
    s.quoted slot = some (s.maps.nextHops slot).pair

/-- A Packet Too Big message is attributed to a slot that the loader is about to give to another
pair. -/
def Races (s : Shared) : Act → Prop
  | .packet p => ∃ slot mtu nh, p.tooBig s.maps = some (slot, mtu) ∧
      s.rest.nextOp = some (.putNextHop slot nh) ∧ nh.valid = true ∧
      nh.pair ≠ (s.maps.nextHops slot).pair
  | _ => False

/-- The readings are owned, and the pair about to be stored finds none but its own. -/
structure Guarded (s : Shared) : Prop where
  owned : s.Owned
  obeys : ∃ cleared, Obeys clearFirst (fun _ => True) s.rest cleared
  pending : ∀ slot nh, s.rest.nextOp = some (.putNextHop slot nh) → nh.valid = true →
    s.maps.tunnelPmtus slot = {} ∨ s.quoted slot = some nh.pair

end Shared

/-- A pair is about to be stored only where the last operation cleared the path MTU. -/
theorem cleared_of_nextOp {rest : LoaderM Unit} {cleared : Option ℕ}
    (h : Obeys clearFirst (fun _ => True) rest cleared) {slot : ℕ} {nh : NextHop}
    (hnext : rest.nextOp = some (.putNextHop slot nh)) (hvalid : nh.valid = true) :
    cleared = some slot := (h.accepted hnext Maps.zeroed).1 hvalid

namespace Shared
variable {s : Shared}

theorem Guarded.call (h : s.Guarded) (c : Call) : (s.step (.call c)).Guarded := by
  unfold step
  dsimp only
  split_ifs
  · have hobeys : Obeys clearFirst (fun _ => True) c.prog none := call_obeys c
    refine ⟨h.owned, ⟨none, hobeys⟩, fun slot nh hnext hvalid => ?_⟩
    cases cleared_of_nextOp hobeys hnext hvalid
  · exact h

theorem Guarded.refuse (h : s.Guarded) : (s.step .refuse).Guarded := by
  unfold step
  cases ho : s.rest.nextOp with
  | none => exact h
  | some o =>
    obtain ⟨cleared, hobeys⟩ := h.obeys
    have hrest : Obeys clearFirst (fun _ => True) s.rest.refused none := hobeys.refused ho
    refine ⟨h.owned, ⟨none, hrest⟩, fun slot nh hnext hvalid => ?_⟩
    cases cleared_of_nextOp hrest hnext hvalid

/-- One accepted operation leaves every reading owned. -/
theorem Guarded.owned_effect (h : s.Guarded) {o : MapOp} {cleared : Option ℕ}
    (ho : s.rest.nextOp = some o) (hallows : clearFirst.allows cleared o) :
    ({ s with maps := o.effect s.maps } : Shared).Owned := by
  cases o with
  | putNextHop i nh =>
    intro slot hvalid hreading
    by_cases heq : slot = i
    · subst heq
      simp only [MapOp.effect, Function.update_self] at hvalid hreading ⊢
      exact (h.pending slot nh ho hvalid).resolve_left hreading
    · simp only [MapOp.effect, Function.update_of_ne heq] at hvalid hreading ⊢
      exact h.owned slot hvalid hreading
  | putTunnelPmtu i v =>
    intro slot hvalid hreading
    by_cases heq : slot = i
    · subst heq
      simp only [MapOp.effect, Function.update_self] at hreading
      exact absurd hallows hreading
    · simp only [MapOp.effect, Function.update_of_ne heq] at hvalid hreading ⊢
      exact h.owned slot hvalid hreading
  | _ => exact h.owned

theorem Guarded.accept (h : s.Guarded) : (s.step .accept).Guarded := by
  unfold step
  cases ho : s.rest.nextOp with
  | none => exact h
  | some o =>
    obtain ⟨cleared, hobeys⟩ := h.obeys
    obtain ⟨hallows, hrest⟩ := hobeys.accepted ho s.maps
    refine ⟨h.owned_effect ho hallows, ⟨_, hrest⟩, fun slot nh hnext hvalid => ?_⟩
    have hcleared := cleared_of_nextOp hrest hnext hvalid
    cases o with
    | putTunnelPmtu i v =>
      cases hcleared
      cases hallows
      exact Or.inl (Function.update_self _ _ _)
    | _ => cases hcleared

/-- A packet either leaves the readings alone or is learned from. -/
theorem packet_learns (s : Shared) (p : Packet) :
    ((p.after s.maps).tunnelPmtus = s.maps.tunnelPmtus ∧ s.quotedAfter p = s.quoted) ∨
    ∃ slot mtu, p.tooBig s.maps = some (slot, mtu) ∧
      (p.after s.maps).tunnelPmtus =
        Function.update s.maps.tunnelPmtus slot ⟨max mtu ipv6MinMtu, p.env.now⟩ ∧
      s.quotedAfter p = Function.update s.quoted slot (some p.quotedPair) := by
  unfold quotedAfter
  rcases p.after_tunnelPmtus s.maps with ⟨hsame, hnone⟩ | ⟨slot, mtu, htooBig, hway, hpmtus⟩
  · refine Or.inl ⟨hsame, ?_⟩
    split
    · rfl
    · next slot mtu htooBig => exact if_neg (hnone slot mtu htooBig)
  · refine Or.inr ⟨slot, mtu, htooBig, hpmtus, ?_⟩
    rw [htooBig]
    exact if_pos hway

theorem Guarded.packet (h : s.Guarded) {p : Packet} (hrace : ¬ s.Races (.packet p)) :
    (s.step (.packet p)).Guarded := by
  have hslots : (p.after s.maps).nextHops = s.maps.nextHops :=
    congrArg LoaderMaps.nextHops (p.after_toLoaderMaps s.maps)
  rcases s.packet_learns p with ⟨hpmtus, hquoted⟩ | ⟨slot, mtu, htooBig, hpmtus, hquoted⟩
  · refine ⟨?_, h.obeys, ?_⟩
    · simp only [step, Owned, hslots, hpmtus, hquoted]
      exact h.owned
    · simp only [step, hpmtus, hquoted]
      exact h.pending
  · have hpair := (Packet.tooBig_holds htooBig).2.1.2
    refine ⟨?_, h.obeys, ?_⟩
    · simp only [step, Owned, hslots, hpmtus, hquoted]
      intro i hvalid hreading
      by_cases heq : i = slot
      · subst heq
        rw [Function.update_self, hpair]
      · rw [Function.update_of_ne heq] at hreading ⊢
        exact h.owned i hvalid hreading
    · simp only [step, hpmtus, hquoted]
      intro i nh hnext hvalid
      by_cases heq : i = slot
      · subst heq
        rw [Function.update_self, Function.update_self]
        refine Or.inr (congrArg some ?_)
        by_contra hne
        refine hrace ⟨i, mtu, nh, htooBig, hnext, hvalid, ?_⟩
        rw [hpair]
        exact fun hnh => hne hnh.symm
      · rw [Function.update_of_ne heq, Function.update_of_ne heq]
        exact h.pending i nh hnext hvalid

theorem Guarded.step (h : s.Guarded) {a : Act} (ha : ¬ s.Races a) : (s.step a).Guarded := by
  cases a with
  | packet p => exact h.packet ha
  | call c => exact h.call c
  | accept => exact h.accept
  | refuse => exact h.refuse

end Shared

/-- Whatever packets and map operations alternate, if no message about a slot is taken between
the last two operations that give the slot to another pair, every reading of a valid slot was
learned for the pair the slot holds. -/
theorem readings_owned (m : Maps) (hclear : ∀ slot, m.tunnelPmtus slot = {}) (acts : List Act)
    (hacts : Along Shared.step (fun s a => ¬ s.Races a) ⟨m, .pure (), fun _ => none⟩ acts) :
    (acts.foldl Shared.step ⟨m, .pure (), fun _ => none⟩).Owned := by
  have hfirst : Shared.Guarded ⟨m, .pure (), fun _ => none⟩ :=
    ⟨fun slot _ hreading => absurd (hclear slot) hreading, ⟨none, trivial⟩,
      fun slot nh hnext _ => by cases hnext⟩
  exact (hacts.invariant (fun _ _ hs ha => hs.step ha) hfirst).owned

def switchActs (n : UInt8) : List Act :=
  .call (.switchAftr (docAddr 1) (docAddr n)) :: List.replicate 6 .accept

theorem configuredMaps_tunnelPmtus (slot : ℕ) : configuredMaps.tunnelPmtus slot = {} := by
  have hcleared : configuredMaps.tunnelPmtus = Function.update (fun _ => {}) 0 {} := rfl
  rw [hcleared, Function.update_apply]
  split <;> rfl

theorem readings_owned_switch :
    Shared.Owned ((.packet (docTooBig 2 1300 5) :: switchActs 3).foldl Shared.step
      ⟨configuredMaps, .pure (), fun _ => none⟩) := by
  refine readings_owned configuredMaps configuredMaps_tunnelPmtus _
    ⟨?_, id, id, id, id, id, id, id, trivial⟩
  rintro ⟨slot, mtu, nh, -, hnext, -⟩
  cases hnext

/-- Two switches give slot 0 to a third pair; a message about its first pair arrives between the
two operations that do so. -/
def racingActs : List Act :=
  switchActs 3 ++ ((switchActs 4).take 5 ++ [.packet (docTooBig 2 1300 5), .accept, .accept])

def raced : Shared := racingActs.foldl Shared.step ⟨configuredMaps, .pure (), fun _ => none⟩

theorem switch_inherits_reading :
    raced.maps.ctrl.activeSlot = 0 ∧ raced.maps.nextHops 0 = pairHop (docAddr 1) (docAddr 4) ∧
      raced.maps.tunnelPmtus 0 = ⟨1300, 5⟩ ∧
      raced.quoted 0 = some ((docAddr 1).as16, (docAddr 2).as16) ∧ ¬ raced.Owned := by
  have hslot : raced.maps.nextHops 0 = pairHop (docAddr 1) (docAddr 4) := by decide +kernel
  have hreading : raced.maps.tunnelPmtus 0 = ⟨1300, 5⟩ := by decide +kernel
  have hquoted : raced.quoted 0 = some ((docAddr 1).as16, (docAddr 2).as16) := by decide +kernel
  refine ⟨by decide +kernel, hslot, hreading, hquoted, fun howned => ?_⟩
  have hpair := howned 0 (by rw [hslot]; rfl) (by rw [hreading]; decide)
  rw [hquoted, hslot] at hpair
  revert hpair
  decide +kernel

end Minuteman.PathMtu
