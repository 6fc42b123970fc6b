import Minuteman.Library.Interference
import Minuteman.Migration.Pinning

/-!
# Which slot a path MTU is learned for

A Packet Too Big message about a softwire packet is attributed to a slot that
holds the endpoints it quotes, and its MTU is kept there until it is ten
minutes old. Encap looks at the reading of the slot it picked.
-/
namespace Minuteman.Datapath
open Library ByteString

/-- The endpoints of the softwire packet that an ICMPv6 error quotes. -/
def Packet.quotedPair (p : Packet) : In6Addr × In6Addr :=
  let quoted := Ipv6hdr.read (p.ctx.data.drop (ethLen + ipv6hdrLen + 8))
  (quoted.saddr, quoted.daddr)

def Maps.Holds (m : Maps) (slot : ℕ) (pair : In6Addr × In6Addr) : Prop :=
  (m.nextHops slot).valid = true ∧ (m.nextHops slot).pair = pair

/-- The slot is the first that holds the pair. -/
def Maps.FirstHolds (m : Maps) (slot : ℕ) (pair : In6Addr × In6Addr) : Prop :=
  m.Holds slot pair ∧ ∀ other < slot, ¬ m.Holds other pair

theorem findDsliteLocalSlot_some {m : Maps} {quoted : Ipv6hdr} {errorDst : In6Addr} {slot : ℕ}
    (h : findDsliteLocalSlot m quoted errorDst = some slot) :
    slot < numNextHops ∧ m.FirstHolds slot (quoted.saddr, quoted.daddr) := by
  rw [findDsliteLocalSlot, List.find?_range_eq_some] at h
  obtain ⟨hfound, hmem, hbefore⟩ := h
  simp only [Bool.and_eq_true, beq_iff_eq] at hfound
  obtain ⟨⟨⟨hvalid, hb4⟩, haftr⟩, hdst⟩ := hfound
  refine ⟨List.mem_range.mp hmem, ⟨hvalid, by rw [NextHop.pair, hb4, haftr]⟩, ?_⟩
  rintro other hlt ⟨hvalid', hpair⟩
  obtain ⟨hb4', haftr'⟩ := Prod.mk.inj hpair
  have hdst' : errorDst = (m.nextHops other).b4Addr := by rw [hdst, ← hb4, hb4']
  exact absurd (hbefore other hlt) (by simp [hvalid', hb4', haftr', hdst'])

theorem tunnelTooBig_holds {env : Env} {m : Maps} {ctx : XdpMd} {l2Len slot mtu : ℕ}
    (h : tunnelTooBig env m ctx l2Len = some (slot, mtu)) :
    let quoted := Ipv6hdr.read (ctx.data.drop (l2Len + ipv6hdrLen + 8))
    slot < numNextHops ∧ m.FirstHolds slot (quoted.saddr, quoted.daddr) := by
  unfold tunnelTooBig at h
  dsimp only at h ⊢
  split_ifs at h
  split at h
  · next hslot _ =>
    split_ifs at h
    cases h
    exact findDsliteLocalSlot_some hslot
  · cases h

/-- A Packet Too Big message is attributed to the first slot that holds the quoted endpoints. -/
theorem Packet.tooBig_holds {p : Packet} {m : Maps} {slot mtu : ℕ}
    (h : p.tooBig m = some (slot, mtu)) : slot < numNextHops ∧ m.FirstHolds slot p.quotedPair := by
  unfold Packet.tooBig at h
  split at h
  · unfold decapTooBig at h
    split at h
    · cases h
    · cases h
    · next l2Len hparse =>
      obtain rfl := parseL2Ipv6_ip hparse
      split_ifs at h
      exact tunnelTooBig_holds h
  · cases h

/-- A message with this MTU replaces the reading: there is none, it is wider, or it is old. -/
def TunnelPmtu.GivesWay (e : TunnelPmtu) (now mtu : ℕ) : Prop :=
  e.updatedNs = 0 ∨ max mtu ipv6MinMtu < e.mtu ∨ tunnelPmtuExpiryNs ≤ elapsedNs now e.updatedNs

theorem learnedPmtus_of_givesWay {pmtus : ℕ → TunnelPmtu} {now slot mtu : ℕ}
    (h : (pmtus slot).GivesWay now mtu) :
    learnedPmtus pmtus now slot mtu = Function.update pmtus slot ⟨max mtu ipv6MinMtu, now⟩ := by
  unfold learnedPmtus
  unfold TunnelPmtu.GivesWay at h
  rw [if_neg]
  omega

theorem learnedPmtus_of_not_givesWay {pmtus : ℕ → TunnelPmtu} {now slot mtu : ℕ}
    (h : ¬ (pmtus slot).GivesWay now mtu) : learnedPmtus pmtus now slot mtu = pmtus := by
  unfold learnedPmtus
  unfold TunnelPmtu.GivesWay at h
  rw [if_pos]
  omega

/-- A packet changes at most one reading: that of the slot its message is attributed to. -/
theorem Packet.after_tunnelPmtus (p : Packet) (m : Maps) :
    ((p.after m).tunnelPmtus = m.tunnelPmtus ∧ ∀ slot mtu, p.tooBig m = some (slot, mtu) →
      ¬ (m.tunnelPmtus slot).GivesWay p.env.now mtu) ∨
    ∃ slot mtu, p.tooBig m = some (slot, mtu) ∧ (m.tunnelPmtus slot).GivesWay p.env.now mtu ∧
      (p.after m).tunnelPmtus =
        Function.update m.tunnelPmtus slot ⟨max mtu ipv6MinMtu, p.env.now⟩ := by
  have hpmtus := p.pmtuStep m
  cases htooBig : p.tooBig m with
  | none =>
    rw [htooBig] at hpmtus
    exact Or.inl ⟨hpmtus, fun slot mtu h => by cases h⟩
  | some reading =>
    obtain ⟨slot, mtu⟩ := reading
    rw [htooBig, pmtusAfter] at hpmtus
    by_cases hway : (m.tunnelPmtus slot).GivesWay p.env.now mtu
    · rw [learnedPmtus_of_givesWay hway] at hpmtus
      exact Or.inr ⟨slot, mtu, rfl, hway, hpmtus⟩
    · rw [learnedPmtus_of_not_givesWay hway] at hpmtus
      refine Or.inl ⟨hpmtus, fun slot' mtu' h => ?_⟩
      cases h
      exact hway

end Minuteman.Datapath

namespace Minuteman.PathMtu
open Library ByteString Datapath Loader Migration Prog

structure Timed where
  maps : Maps
  clock : ℕ

def Timed.step (s : Timed) (e : Event) : Timed where
  maps := e.exec s.maps
  clock := match e with
    | .packet p => p.env.now
    | _ => s.clock

def writesSlot (slot : ℕ) : MapOp → Bool
  | .putNextHop i _ => i == slot
  | .putTunnelPmtu i _ => i == slot
  | _ => false

/-- The event happens before the deadline and does not rewrite the slot. -/
def Spares (slot deadline : ℕ) (s : Timed) : Event → Prop
  | .packet p => s.clock ≤ p.env.now ∧ p.env.now < deadline
  | .call c faults => ∀ step ∈ c.prog.trace MapOp.effect faults s.maps,
      writesSlot slot step.op = false
  | .gc _ _ _ => True

theorem elapsedNs_of_le {now since : ℕ} (h : since ≤ now) (hlt : now - since < 2 ^ 64) :
    elapsedNs now since = now - since := by
  have heq : now + 2 ^ 64 - since = now - since + 2 ^ 64 := by omega
  rw [elapsedNs, heq, Nat.add_mod_right, Nat.mod_eq_of_lt hlt]

theorem tunnelPmtus_effect {o : MapOp} {slot : ℕ} (h : writesSlot slot o = false) (m : Maps) :
    (o.effect m).tunnelPmtus slot = m.tunnelPmtus slot := by
  cases o with
  | putTunnelPmtu i v =>
    have hne : i ≠ slot := by simpa [writesSlot] using h
    exact Function.update_of_ne hne.symm _ _
  | _ => rfl

/-- The slot has a reading, taken since `since`, of at most `bound`. -/
structure Constrains (slot since bound : ℕ) (s : Timed) : Prop where
  start : 0 < since
  since : since ≤ (s.maps.tunnelPmtus slot).updatedNs
  past : (s.maps.tunnelPmtus slot).updatedNs ≤ s.clock
  pos : 0 < (s.maps.tunnelPmtus slot).mtu
  bound : (s.maps.tunnelPmtus slot).mtu ≤ bound

/-- Until it is old, a reading only gives way to a narrower one. -/
theorem Constrains.packet {slot since bound : ℕ} {s : Timed} (h : Constrains slot since bound s)
    {p : Packet} (hclock : s.clock ≤ p.env.now) (hnow : p.env.now < since + tunnelPmtuExpiryNs) :
    Constrains slot since bound (s.step (.packet p)) := by
  have hkept : (s.step (.packet p)).maps.tunnelPmtus slot = s.maps.tunnelPmtus slot →
      Constrains slot since bound (s.step (.packet p)) := by
    intro hsame
    refine ⟨h.start, ?_, ?_, ?_, ?_⟩ <;> rw [hsame]
    · exact h.since
    · exact h.past.trans hclock
    · exact h.pos
    · exact h.bound
  rcases p.after_tunnelPmtus s.maps with ⟨hsame, -⟩ | ⟨slot', mtu, -, hway, hpmtus⟩
  · exact hkept (congrFun hsame slot)
  · by_cases heq : slot = slot'
    · subst heq
      obtain ⟨hstart, hsince, hpast, -, hbound⟩ := h
      have hnew : (s.step (.packet p)).maps.tunnelPmtus slot = ⟨max mtu ipv6MinMtu, p.env.now⟩ :=
        (congrFun hpmtus slot).trans (Function.update_self _ _ _)
      have hyoung : elapsedNs p.env.now (s.maps.tunnelPmtus slot).updatedNs <
          tunnelPmtuExpiryNs := by
        have hexpiry : tunnelPmtuExpiryNs < 2 ^ 64 := by decide
        rw [elapsedNs_of_le (by omega) (by omega)]
        omega
      have hnarrow : max mtu ipv6MinMtu < (s.maps.tunnelPmtus slot).mtu :=
        (hway.resolve_left (by omega)).resolve_right (not_le.mpr hyoung)
      refine ⟨hstart, ?_, ?_, ?_, ?_⟩ <;> rw [hnew]
      · exact (hsince.trans hpast).trans hclock
      · exact le_refl _
      · exact lt_max_of_lt_right (by decide)
      · exact hnarrow.le.trans hbound
    · exact hkept ((congrFun hpmtus slot).trans (Function.update_of_ne heq _ _))

theorem Constrains.step {slot since bound : ℕ} {s : Timed} (h : Constrains slot since bound s)
    {e : Event} (he : Spares slot (since + tunnelPmtuExpiryNs) s e) :
    Constrains slot since bound (s.step e) := by
  have hkept : (s.step e).maps.tunnelPmtus slot = s.maps.tunnelPmtus slot →
      (s.step e).clock = s.clock → Constrains slot since bound (s.step e) := by
    intro hsame hclock
    refine ⟨h.start, ?_, ?_, ?_, ?_⟩ <;> rw [hsame]
    · exact h.since
    · rw [hclock]
      exact h.past
    · exact h.pos
    · exact h.bound
  cases e with
  | packet p => exact h.packet he.1 he.2
  | call c faults =>
    refine hkept (exec_keeps_of_trace (f := fun m : Maps => m.tunnelPmtus slot) ?_) rfl
    exact fun step hstep => tunnelPmtus_effect (he step hstep) step.before
  | gc t now faults =>
    exact hkept (congrFun (gcFlowAffinity_tunnelPmtus t now faults s.maps) slot) rfl

/-- While it constrains a slot, a reading is what encap finds there. -/
theorem Constrains.tunnelPmtuFor {slot since bound : ℕ} {s : Timed}
    (h : Constrains slot since bound s) (hslot : slot < numNextHops) {env : Env}
    (hclock : s.clock ≤ env.now) (hnow : env.now < since + tunnelPmtuExpiryNs) :
    tunnelPmtuFor env s.maps slot = (s.maps.tunnelPmtus slot).mtu := by
  obtain ⟨hstart, hsince, hpast, -, -⟩ := h
  have hexpiry : tunnelPmtuExpiryNs < 2 ^ 64 := by decide
  have helapsed := elapsedNs_of_le (hpast.trans hclock) (by omega)
  unfold Datapath.tunnelPmtuFor
  dsimp only
  rw [if_pos hslot, if_neg (by omega), helapsed, if_neg (by omega)]

/-- A Packet Too Big message about a packet sent through a slot constrains that slot until the
reading is old or the slot is rewritten, if no slot before it holds the same endpoints and the slot
has no young reading as narrow. -/
theorem tooBig_constrains_slot (m : Maps) (p : Packet) (slot slot' mtu : ℕ)
    (hslot : slot < numNextHops) (hsent : m.Holds slot p.quotedPair)
    (htooBig : p.tooBig m = some (slot', mtu)) (hstart : 0 < p.env.now)
    (hfirst : ∀ other < slot, ¬ m.Holds other p.quotedPair)
    (hnew : (m.tunnelPmtus slot).GivesWay p.env.now mtu) (events : List Event)
    (hevents : Along Timed.step (Spares slot (p.env.now + tunnelPmtuExpiryNs))
      ⟨p.after m, p.env.now⟩ events) (env : Env)
    (hclock : (events.foldl Timed.step ⟨p.after m, p.env.now⟩).clock ≤ env.now)
    (hnow : env.now < p.env.now + tunnelPmtuExpiryNs) :
    let m' := (events.foldl Timed.step ⟨p.after m, p.env.now⟩).maps
    tunnelPmtuFor env m' slot ≠ 0 ∧ tunnelPmtuFor env m' slot ≤ max mtu ipv6MinMtu := by
  intro m'
  obtain ⟨-, hholds, hbefore⟩ := Packet.tooBig_holds htooBig
  obtain rfl : slot' = slot :=
    le_antisymm (not_lt.mp fun h => hbefore slot h hsent) (not_lt.mp fun h => hfirst slot' h hholds)
  have hlearned : (p.after m).tunnelPmtus slot' = ⟨max mtu ipv6MinMtu, p.env.now⟩ := by
    rw [p.pmtuStep m, htooBig, pmtusAfter, learnedPmtus_of_givesWay hnew, Function.update_self]
  have hstarted : Constrains slot' p.env.now (max mtu ipv6MinMtu) ⟨p.after m, p.env.now⟩ := by
    refine ⟨hstart, ?_, ?_, ?_, ?_⟩ <;> dsimp only <;> rw [hlearned]
    exact lt_max_of_lt_right (by decide)
  have hlast := hevents.invariant (fun _ _ hs he => hs.step he) hstarted
  rw [hlast.tunnelPmtuFor hslot hclock hnow]
  exact ⟨hlast.pos.ne', hlast.bound⟩

/-- A Packet Too Big message that quotes a packet from the LAN host, sent from `b4` to `aftr`. -/
def tooBigPacket (b4 aftr : In6Addr) (mtu : UInt32) (now : ℕ) : Packet where
  program := .dsliteDecap
  env := { fib := fun _ => { ret := .success, egress := 3 }, mtu := fun _ => some 1500, now := now }
  ctx := {
    data := (Ethhdr.mk default default ethPIpv6).toBytes ++
      ((outerIpv6 aftr b4 ipprotoIcmpv6 76).toBytes ++
        ([2, 0, 0, 0] ++ be32 mtu ++
          ((outerIpv6 b4 aftr ipprotoIpip 28).toBytes ++
            ((Iphdr.mk 0x45 0 28 1 0 64 17 0 0xc0a8010a 0xcb007105).toBytes ++
              List.replicate 8 0))))
    headroom := List.replicate 64 0
    ingressIfindex := 2 }

def docTooBig (n : UInt8) (mtu : UInt32) (now : ℕ) : Packet :=
  tooBigPacket (docAddr 1).as16 (docAddr n).as16 mtu now

/-- A migration begins, and then a wider message arrives. -/
def sparingEvents : List Event :=
  [.call (.beginMigration (docAddr 1) (docAddr 3)) noFaults, .packet (docTooBig 2 1400 9)]

theorem tooBig_constrains_slot_configured :
    let s := sparingEvents.foldl Timed.step ⟨(docTooBig 2 1300 5).after configuredMaps, 5⟩
    tunnelPmtuFor (docTooBig 2 1300 10).env s.maps 0 ≠ 0 ∧
      tunnelPmtuFor (docTooBig 2 1300 10).env s.maps 0 ≤ max 1300 ipv6MinMtu := by
  refine tooBig_constrains_slot configuredMaps (docTooBig 2 1300 5) 0 0 1300 (by decide)
    ⟨by decide +kernel, by decide +kernel⟩ (by decide +kernel) (by decide) ?_ (Or.inl rfl)
    sparingEvents ?_ (docTooBig 2 1300 10).env (by decide) (by decide)
  · unfold Maps.Holds
    decide +kernel
  · refine ⟨?_, ⟨by decide, by decide⟩, trivial⟩
    unfold Spares
    decide +kernel

/-- After a recovery onto the endpoints already in use both slots hold them, and the message is
attributed to the slot that was left. A repeated message does not renew the reading it finds. -/
theorem tooBig_misses_slot :
    let m := ((Call.switchAftr (docAddr 1) (docAddr 2)).exec noFaults configuredMaps).2
    let again := (docTooBig 2 1300 5).after configuredMaps
    (transitPacket.slot m = some 1 ∧ m.Holds 1 (docTooBig 2 1300 5).quotedPair ∧
      (docTooBig 2 1300 5).tooBig m = some (0, 1300) ∧
      tunnelPmtuFor (docTooBig 2 1300 5).env ((docTooBig 2 1300 5).after m) 1 = 0) ∧
    (again.Holds 0 (docTooBig 2 1300 500000000000).quotedPair ∧
      (docTooBig 2 1300 500000000000).tooBig again = some (0, 1300) ∧
      tunnelPmtuFor (docTooBig 2 1300 601000000000).env
        ((docTooBig 2 1300 500000000000).after again) 0 = 0) := by
  unfold Maps.Holds
  decide +kernel

end Minuteman.PathMtu
