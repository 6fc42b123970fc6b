import Minuteman.Datapath.Programs

/-!
# Where frames are lost

A frame that an XDP program drops or aborts is gone, and the counters are all
an operator sees of it. Every way a program can end is weighed against them:
no loss goes uncounted, and the counters that stand for losses alone count
nothing else.
-/
namespace Minuteman.Datapath
open Library ByteString

def XdpAction.lost : XdpAction → Bool
  | .aborted => true
  | .drop => true
  | .pass => false
  | .redirect _ => false

/-- The counters that stand for a lost frame and nothing else. -/
def certainLosses : List StatId := [.drop, .abort, .decapMartian, .tunnelIcmpDrop, .icmpRateLimited]

/-- The counters a lost frame is found under; the later ones also count frames that live on. -/
def possibleLosses : List StatId :=
  certainLosses ++ [.noConfig, .mtuDrop, .decapBadPacket, .fibWrongIf, .fibNoNeigh, .fibFail]

def sentStats : List StatId := [.redirectWan, .redirectLan, .ipv6Fwd]

def total (kinds : List StatId) (stats : StatId → ℕ) : ℕ := (kinds.map stats).sum

theorem total_count (kinds : List StatId) (x : Xdp) (s : StatId) :
    total kinds (x.count s).maps.stats = total kinds x.maps.stats + kinds.count s := by
  induction kinds with
  | nil => rfl
  | cons kind kinds ih =>
    have hone : (x.count s).maps.stats kind = x.maps.stats kind + if kind = s then 1 else 0 := by
      by_cases h : kind = s
      · subst h
        simp [Xdp.count, Maps.increaseStatsCount]
      · simp [Xdp.count, Maps.increaseStatsCount, h]
    simp only [total, List.map_cons, List.sum_cons, List.count_cons, beq_iff_eq, hone] at ih ⊢
    omega

/-- A step on a frame's way to its verdict counts no certain loss. -/
structure Passing (stats stats' : StatId → ℕ) : Prop where
  certain : total certainLosses stats' = total certainLosses stats
  possible : total possibleLosses stats ≤ total possibleLosses stats'
  sent : total sentStats stats ≤ total sentStats stats'

/-- How a program that found the counters at `stats` left them, given its verdict. -/
structure Settled (stats : StatId → ℕ) (r : XdpAction × Xdp) : Prop where
  certain : total certainLosses r.2.maps.stats ≤
    total certainLosses stats + if r.1.lost then 1 else 0
  possible : total possibleLosses stats ≤ total possibleLosses r.2.maps.stats
  counted : r.1.lost = true → total possibleLosses stats < total possibleLosses r.2.maps.stats ∨
    r.1 = .aborted ∧ total sentStats stats < total sentStats r.2.maps.stats

section Ends
variable {stats stats' : StatId → ℕ} {x : Xdp} {s : StatId} {a : XdpAction} {r : XdpAction × Xdp}

theorem Passing.refl (stats : StatId → ℕ) : Passing stats stats := ⟨rfl, le_rfl, le_rfl⟩

theorem Passing.trans {stats'' : StatId → ℕ} (h : Passing stats stats')
    (h' : Passing stats' stats'') : Passing stats stats'' :=
  ⟨h'.certain.trans h.certain, h.possible.trans h'.possible, h.sent.trans h'.sent⟩

theorem Passing.count (h : Passing stats x.maps.stats) (hs : s ∉ certainLosses) :
    Passing stats (x.count s).maps.stats := by
  refine h.trans ⟨?_, ?_, ?_⟩
  · rw [total_count, List.count_eq_zero_of_not_mem hs, Nat.add_zero]
  · exact total_count .. ▸ Nat.le_add_right ..
  · exact total_count .. ▸ Nat.le_add_right ..

theorem Settled.after (hstep : Passing stats stats') (h : Settled stats' r) : Settled stats r where
  certain := hstep.certain ▸ h.certain
  possible := hstep.possible.trans h.possible
  counted := fun hlost => (h.counted hlost).imp hstep.possible.trans_lt
    fun hsent => ⟨hsent.1, hstep.sent.trans_lt hsent.2⟩

theorem Settled.alive (hstep : Passing stats r.2.maps.stats) (h : r.1.lost = false) :
    Settled stats r where
  certain := by simp [hstep.certain]
  possible := hstep.possible
  counted := by simp [h]

theorem Settled.found (hstep : Passing stats r.2.maps.stats)
    (h : total possibleLosses stats < total possibleLosses r.2.maps.stats) : Settled stats r where
  certain := hstep.certain.le.trans (Nat.le_add_right ..)
  possible := hstep.possible
  counted := fun _ => Or.inl h

def Fits (s : StatId) (a : XdpAction) : Prop :=
  if a.lost then s ∈ possibleLosses else s ∉ certainLosses

instance : Decidable (Fits s a) := by
  unfold Fits
  infer_instance

theorem fits_decapBadPacket (a : XdpAction) : Fits .decapBadPacket a := by
  unfold Fits
  split <;> decide

theorem Settled.exit (hx : Passing stats x.maps.stats) (h : Fits s a) :
    Settled stats (x.exit s a) := by
  apply Settled.after hx
  cases hlost : a.lost with
  | false =>
    rw [Fits, hlost] at h
    exact .alive ((Passing.refl _).count h) hlost
  | true =>
    rw [Fits, hlost, if_pos rfl] at h
    have hone : certainLosses.count s ≤ 1 := List.nodup_iff_count_le_one.mp (by decide) s
    have hpos : 0 < possibleLosses.count s := List.count_pos_iff.mpr h
    have hcertain := total_count certainLosses x s
    have hpossible := total_count possibleLosses x s
    refine ⟨?_, ?_, fun _ => Or.inl ?_⟩ <;> simp only [Xdp.exit, hlost, if_true] <;> omega

/-- A redirect whose port is missing is counted as sent. -/
theorem Settled.redirect (hx : Passing stats x.maps.stats) (hs : s ∈ sentStats) (ifindex : ℕ) :
    Settled stats (redirectToIfindex x ifindex s) := by
  have hnot : ∀ s ∈ sentStats, s ∉ certainLosses := by decide
  have hpos : 0 < sentStats.count s := List.count_pos_iff.mpr hs
  have hsent := total_count sentStats x s
  have hstep : Passing stats (x.count s).maps.stats := hx.count (hnot s hs)
  refine ⟨hstep.certain.le.trans (Nat.le_add_right ..), hstep.possible, fun hlost => Or.inr ?_⟩
  have hverdict : redirectTxPort x.maps ifindex = .aborted := by
    simp only [redirectToIfindex, redirectTxPort] at hlost ⊢
    split_ifs at hlost ⊢
    · cases hlost
    · rfl
  refine ⟨hverdict, hx.sent.trans_lt ?_⟩
  simp only [redirectToIfindex]
  omega

end Ends

section Lookups
variable (env : Env) (x : Xdp)

theorem lookupAftrNexthop_passing (cfg : B4Config) (innerLen : ℕ) :
    Passing x.maps.stats (lookupAftrNexthop env x cfg innerLen).2.maps.stats ∧
      ((lookupAftrNexthop env x cfg innerLen).1 = none → total possibleLosses x.maps.stats <
        total possibleLosses (lookupAftrNexthop env x cfg innerLen).2.maps.stats) := by
  have hmiss : ∀ s ∈ possibleLosses, total possibleLosses x.maps.stats <
      total possibleLosses (x.count s).maps.stats := by
    intro s hs
    rw [total_count]
    exact Nat.lt_add_of_pos_right (List.count_pos_iff.mpr hs)
  unfold lookupAftrNexthop
  dsimp only
  split_ifs
  · exact ⟨.count (.refl _) (by decide), fun _ => hmiss _ (by decide)⟩
  · exact ⟨.count (.refl _) (by decide), fun h => by cases h⟩
  · exact ⟨.refl _, fun h => by cases h⟩
  · exact ⟨.count (.refl _) (by decide), fun _ => hmiss _ (by decide)⟩
  · exact ⟨.count (.refl _) (by decide), fun _ => hmiss _ (by decide)⟩

theorem checkDevMtu_error {ifindex l3Len : ℕ}
    (h : (checkDevMtu env x ifindex l3Len).1.1 = .error) :
    Settled x.maps.stats (.drop, (checkDevMtu env x ifindex l3Len).2) := by
  unfold checkDevMtu at h ⊢
  dsimp only at h ⊢
  split_ifs at h ⊢ with hret
  · exact Settled.exit (.refl _) (by decide)
  · exact absurd h hret

theorem checkDevMtu_known {ifindex l3Len : ℕ} (h : (checkDevMtu env x ifindex l3Len).1.1 ≠ .error) :
    (checkDevMtu env x ifindex l3Len).2 = x := by
  unfold checkDevMtu at h ⊢
  dsimp only at h ⊢
  split_ifs at h ⊢ with hret
  · exact absurd hret h
  · rfl

theorem applyMssClamp_passing (off : ℕ) (cfg : B4Config) :
    Passing x.maps.stats (applyMssClamp x off cfg).maps.stats := by
  unfold applyMssClamp
  repeat' split
  · exact .refl _
  · exact .refl _
  · exact .count (.refl _) (by decide)

theorem touchFlowAffinity_passing (now ctrl : ℕ) (key : FlowKey) :
    Passing x.maps.stats (touchFlowAffinity x.maps now ctrl key).2.stats := by
  unfold touchFlowAffinity
  dsimp only
  repeat' split
  iterate 5 exact .refl _
  · exact @Passing.count _ x .affinityInsertFail (.refl _) (by decide)
  · exact @Passing.count _ x .affinityInsert (.refl _) (by decide)

theorem pickSoftwireSlot_passing (now ctrl : ℕ) (pkt : Bytes) :
    Passing x.maps.stats (pickSoftwireSlot x.maps now ctrl pkt).2.stats := by
  have htouch := touchFlowAffinity_passing x now ctrl (buildFlowKey pkt false)
  unfold pickSoftwireSlot
  dsimp only
  split_ifs
  · exact .refl _
  · exact @Passing.count _ ⟨_, x.ctx⟩ .affinityPinned htouch (by decide)
  · exact htouch

end Lookups

section Functions
variable (env : Env) (x : Xdp)

theorem sendDsliteIcmpFragNeeded_settled (cfg : B4Config) (off nextMtu : ℕ) :
    Settled x.maps.stats (sendDsliteIcmpFragNeeded env x cfg off nextMtu) := by
  have hlookup := lookupAftrNexthop_passing env (icmpErrorAllowed env x).2 cfg icmpv4ErrorL3Len
  unfold sendDsliteIcmpFragNeeded
  dsimp only
  repeat' split
  all_goals try exact .exit (.refl _) (by decide)
  all_goals try exact .exit hlookup.1 (by decide)
  · exact .exit (.count (.refl _) (by decide)) (by decide)
  · next hnone => exact .found hlookup.1 (hlookup.2 hnone)
  · refine .redirect (.count (.count ?_ (by decide)) (by decide)) (by decide) _
    rw [writeDsliteIcmp_maps]
    exact hlookup.1

theorem sendDsliteIcmpTimeExceeded_settled (cfg : B4Config) (off : ℕ) :
    Settled x.maps.stats (sendDsliteIcmpTimeExceeded env x cfg off) := by
  have hlookup := lookupAftrNexthop_passing env (icmpErrorAllowed env x).2 cfg icmpv4ErrorL3Len
  unfold sendDsliteIcmpTimeExceeded
  dsimp only
  repeat' split
  all_goals try exact .exit (.refl _) (by decide)
  all_goals try exact .exit hlookup.1 (by decide)
  · next hnone => exact .found hlookup.1 (hlookup.2 hnone)
  · refine .redirect (.count ?_ (by decide)) (by decide) _
    rw [writeDsliteIcmp_maps]
    exact hlookup.1

theorem sendIcmpv6PktTooBig_settled (l2Len : ℕ) (src6 : In6Addr) (mtu : ℕ) :
    Settled x.maps.stats (sendIcmpv6PktTooBig env x l2Len src6 mtu) := by
  unfold sendIcmpv6PktTooBig
  dsimp only
  repeat' split
  all_goals try exact .exit (.refl _) (by decide)
  · exact .exit (.count (.refl _) (by decide)) (by decide)
  · refine .found (.count (.count (.refl _) (by decide)) (by decide)) ?_
    rw [total_count, total_count]
    exact Nat.lt_add_of_pos_right (by decide)

theorem handleIpv6Forward_settled (l2Len : ℕ) (cfg : B4Config) :
    Settled x.maps.stats (handleIpv6Forward env x l2Len cfg) := by
  unfold handleIpv6Forward
  dsimp only
  repeat' split
  all_goals try exact .exit (.refl _) (by decide)
  · exact sendIcmpv6PktTooBig_settled ..
  · exact .exit (.count (.refl _) (by decide)) (by decide)
  · refine .redirect ?_ (by decide) _
    exact @Passing.count _ x .fibSuccess (.refl _) (by decide)

/-- Native IPv6 is routed here or on another CPU. -/
theorem nativeStage_settled (pkt : Bytes) (l2Len : ℕ) (cfg : B4Config) :
    Settled x.maps.stats (match (maybeRedirectIpv6ToCpu x pkt).1 with
      | some action => (action, (maybeRedirectIpv6ToCpu x pkt).2)
      | none => handleIpv6Forward env (maybeRedirectIpv6ToCpu x pkt).2 l2Len cfg) := by
  unfold maybeRedirectIpv6ToCpu
  dsimp only
  split_ifs
  · exact handleIpv6Forward_settled ..
  · exact handleIpv6Forward_settled ..
  · exact .alive (.count (.refl _) (by decide)) rfl
  · exact .after (.count (.refl _) (by decide)) (handleIpv6Forward_settled ..)

theorem encapFragmentOuter_settled (l2Len innerLen : ℕ) (cfg : B4Config) (wanMtu : ℕ) :
    Settled x.maps.stats (encapFragmentOuter env x l2Len innerLen cfg wanMtu) := by
  have hlookup := (lookupAftrNexthop_passing env x cfg ((fragUnitOf cfg + fragHdrLen) % 2 ^ 16)).1
  unfold encapFragmentOuter
  dsimp only
  iterate 2
    split
    · exact .exit (.refl _) (by decide)
  generalize lookupAftrNexthop env x cfg _ = looked at hlookup ⊢
  repeat' split
  · exact .alive hlookup rfl
  · exact .exit hlookup (by decide)
  · exact .exit hlookup (by decide)
  · exact .alive (@Passing.count _ ⟨_, x.ctx⟩ .encapFragXdp hlookup (by decide)) rfl

theorem sendEncapsulated_settled (l2Len innerLen : ℕ) (cfg : B4Config) :
    Settled x.maps.stats (sendEncapsulated env x l2Len innerLen cfg) := by
  have hlookup := (lookupAftrNexthop_passing env x cfg innerLen).1
  unfold sendEncapsulated
  dsimp only
  repeat' split
  · exact .exit (.refl _) (by decide)
  · exact .alive hlookup rfl
  iterate 3 exact .exit hlookup (by decide)
  · refine .redirect (.count ?_ (by decide)) (by decide) _
    exact hlookup

theorem encapInto_settled (l2Len slot : ℕ) :
    Settled x.maps.stats (encapInto env x l2Len slot) := by
  unfold encapInto
  split
  · exact .exit (.refl _) (by decide)
  dsimp only
  split
  · next herror => exact checkDevMtu_error env x herror
  next herror =>
  rw [checkDevMtu_known env x herror]
  apply Settled.after (applyMssClamp_passing x l2Len _)
  split
  · exact encapFragmentOuter_settled ..
  · exact sendEncapsulated_settled ..

theorem doXdpDsliteEncap_settled : Settled x.maps.stats (doXdpDsliteEncap env x) := by
  unfold doXdpDsliteEncap
  split
  · exact .exit (.refl _) (by decide)
  · split
    · exact .exit (.refl _) (by decide)
    · exact .exit (.refl _) (by decide)
    split
    · exact .exit (.refl _) (by decide)
    · exact nativeStage_settled ..
  unfold encapIpv4
  split
  · exact .exit (.refl _) (by decide)
  dsimp only
  split
  · exact .exit (.refl _) (by decide)
  refine .after ?_ (encapInto_settled ..)
  exact pickSoftwireSlot_passing ..

theorem tooBigForLan_settled (cfg : B4Config) (off mtu : ℕ) :
    Settled x.maps.stats (tooBigForLan env x cfg off mtu) := by
  unfold tooBigForLan
  split
  · exact sendDsliteIcmpFragNeeded_settled ..
  · exact .exit (.refl _) (by decide)

theorem stripOuter_settled (innerLen : ℕ) (fib : Option FibResult) :
    Settled x.maps.stats (stripOuter x innerLen fib) := by
  unfold stripOuter
  dsimp only
  repeat' split
  iterate 6 exact .exit (.refl _) (by decide)
  · refine .redirect ?_ (by decide) _
    exact .refl _

/-- A martian is dropped; every other answer leads on. -/
theorem lookupLanNexthop_passing (cfg : B4Config) (iph : Iphdr) (innerLen : ℕ) :
    Settled x.maps.stats (.drop, (lookupLanNexthop env x cfg iph innerLen).2) ∧
        (lookupLanNexthop env x cfg iph innerLen).1 = .drop ∨
      Passing x.maps.stats (lookupLanNexthop env x cfg iph innerLen).2.maps.stats ∧
        (lookupLanNexthop env x cfg iph innerLen).1 ≠ .drop := by
  unfold lookupLanNexthop
  extract_lets first tooBig fib
  repeat' split
  · exact Or.inr ⟨.count (.refl _) (by decide), by simp⟩
  · exact Or.inl ⟨.exit (.refl _) (by decide), rfl⟩
  · exact Or.inr ⟨.refl _, by simp⟩
  · exact Or.inr ⟨.count (.refl _) (by decide), by simp⟩
  · exact Or.inr ⟨.count (.refl _) (by decide), by simp⟩
  · exact Or.inl ⟨.exit (.refl _) (by decide), rfl⟩
  · exact Or.inr ⟨.count (.refl _) (by decide), by simp⟩

theorem deliverInner_settled (cfg : B4Config) (off : ℕ) :
    Settled x.maps.stats (deliverInner env x cfg off) := by
  have hlookup := lookupLanNexthop_passing env x cfg (Iphdr.read (x.ctx.data.drop off))
    (Iphdr.read (x.ctx.data.drop off)).totLen.toNat
  unfold deliverInner
  dsimp only
  generalize lookupLanNexthop env x cfg _ _ = looked at hlookup ⊢
  rcases hlookup with ⟨hdrop, hmartian⟩ | ⟨hstep, hmartian⟩
  · rw [hmartian]
    exact hdrop
  apply Settled.after hstep
  split
  · next heq => exact absurd heq hmartian
  · exact stripOuter_settled ..
  · split
    · exact sendDsliteIcmpTimeExceeded_settled ..
    · exact tooBigForLan_settled ..
  split
  · exact sendDsliteIcmpTimeExceeded_settled ..
  split
  · next hret =>
    rw [checkDevMtu_known _ _ (by simp [hret])]
    exact tooBigForLan_settled ..
  · next hret => exact checkDevMtu_error _ _ hret
  · next hret =>
    rw [checkDevMtu_known _ _ (by simp [hret])]
    exact stripOuter_settled ..

theorem handleXdpDsliteDecap_settled : Settled x.maps.stats (handleXdpDsliteDecap env x) := by
  apply Settled.after ((Passing.refl _).count (by decide : StatId.decap ∉ certainLosses))
  unfold handleXdpDsliteDecap decapCounted
  generalize x.count .decap = x
  dsimp only
  repeat' split
  iterate 5 exact .exit (.refl _) (by decide)
  · exact .exit (.refl _) (fits_decapBadPacket _)
  · refine .after ?_ (deliverInner_settled ..)
    refine Passing.trans ?_ (applyMssClamp_passing _ _ _)
    unfold touchReversed
    split_ifs
    · exact .refl _
    · exact touchFlowAffinity_passing ..

theorem relayTunnelError_settled (l2Len : ℕ) (type code : UInt8) (extra : UInt32) (quote : Bytes) :
    Settled x.maps.stats (relayTunnelError env x l2Len type code extra quote) := by
  unfold relayTunnelError
  dsimp only
  repeat' split
  iterate 7 exact .exit (.refl _) (by decide)
  · refine .redirect (.count ?_ (by decide)) (by decide) _
    exact .refl _

theorem handleTunnelIcmpv6_settled {l2Len : ℕ} {r : XdpAction × Xdp}
    (h : handleTunnelIcmpv6 env x l2Len = some r) : Settled x.maps.stats r := by
  have hlearn : ∀ slot mtu, Passing x.maps.stats (learnTunnelPmtu env x slot mtu).maps.stats := by
    intro slot mtu
    unfold learnTunnelPmtu
    dsimp only
    split_ifs
    · exact .refl _
    · exact .count (.refl _) (by decide)
  unfold handleTunnelIcmpv6 at h
  dsimp only at h
  repeat' split at h
  all_goals cases h
  iterate 3 exact .exit (.refl _) (by decide)
  · exact .exit (hlearn _ _) (by decide)
  · exact .after (hlearn _ _) (relayTunnelError_settled ..)
  · exact relayTunnelError_settled ..

theorem doXdpDsliteDecap_settled : Settled x.maps.stats (doXdpDsliteDecap env x) := by
  have hnative : ∀ l2Len, Settled x.maps.stats (forwardNative env x l2Len) := by
    intro l2Len
    unfold forwardNative
    split
    · exact .alive (.refl _) rfl
    · exact nativeStage_settled ..
  unfold doXdpDsliteDecap
  split
  · exact .exit (.refl _) (by decide)
  · exact .exit (.refl _) (by decide)
  dsimp only
  split
  · exact .exit (.refl _) (by decide)
  split
  · cases htunnel : handleTunnelIcmpv6 env x _ with
    | none => exact hnative _
    | some r => exact handleTunnelIcmpv6_settled env x htunnel
  split
  · exact hnative _
  split
  · exact .alive (.refl _) rfl
  split
  · exact .exit (.refl _) (fits_decapBadPacket _)
  split
  · next action hcpu =>
    unfold maybeRedirectToCpu at hcpu
    dsimp only at hcpu
    split_ifs at hcpu
    cases hcpu
    exact .alive (.refl _) rfl
  · exact handleXdpDsliteDecap_settled ..

theorem doXdpIpv6FwdCpu_settled : Settled x.maps.stats (doXdpIpv6FwdCpu env x) := by
  unfold doXdpIpv6FwdCpu
  repeat' split
  iterate 3 exact .exit (.refl _) (by decide)
  · exact handleIpv6Forward_settled ..

end Functions

/-- A clone for a fragment past the end of the packet it carries. -/
def Packet.spareClone (p : Packet) : Bool :=
  let ip6h := Ipv6hdr.read (p.ctx.data.drop ethLen)
  match p.program with
  | .softwireFrag i =>
    decide (ip6h.payloadLen.toNat - fragHdrLen ≤ i * (((byteAt ip6h.flowLbl.bytes 1).toNat * 256 +
      (byteAt ip6h.flowLbl.bytes 2).toNat) / 8 * 8))
  | _ => false

def Packet.undelivered (p : Packet) (m : Maps) : Bool :=
  decide ((p.run m).1 = .aborted ∧ total sentStats m.stats < total sentStats (p.after m).stats)

theorem emitSoftwireFragment_settled (env : Env) (x : Xdp) (idx : ℕ) :
    (Packet.mk (.softwireFrag idx) env x.ctx).spareClone = true ∧
        emitSoftwireFragment x idx = (.drop, x) ∨
      Settled x.maps.stats (emitSoftwireFragment x idx) := by
  unfold emitSoftwireFragment
  split
  · exact Or.inr (.exit (.refl _) (by decide))
  · exact Or.inr (.exit (.refl _) (by decide))
  next l2Len hparse =>
  cases parseL2Ipv6_ip hparse
  extract_lets eth ip6h fh plen size unit start len
  iterate 5
    split
    · exact Or.inr (.exit (.refl _) (by decide))
  split
  · next hspare => exact Or.inl ⟨decide_eq_true hspare, rfl⟩
  apply Or.inr
  split
  · exact .exit (.refl _) (by decide)
  dsimp only
  iterate 2
    split
    · exact .exit (.refl _) (by decide)
  refine .redirect (.count ?_ (by decide)) (by decide) _
  exact .refl _

theorem Packet.settled (p : Packet) (m : Maps) :
    p.spareClone = true ∧ p.run m = (.drop, ⟨m, p.ctx⟩) ∨ Settled m.stats (p.run m) := by
  obtain ⟨program, env, ctx⟩ := p
  cases program with
  | dsliteEncap => exact Or.inr (doXdpDsliteEncap_settled env ⟨m, ctx⟩)
  | dsliteDecap => exact Or.inr (doXdpDsliteDecap_settled env ⟨m, ctx⟩)
  | dsliteDecapCpu => exact Or.inr (handleXdpDsliteDecap_settled env ⟨m, ctx⟩)
  | ipv6FwdCpu => exact Or.inr (doXdpIpv6FwdCpu_settled env ⟨m, ctx⟩)
  | softwireFrag i => exact emitSoftwireFragment_settled env ⟨m, ctx⟩ i

/-- What happens to the maps: a frame comes in, or user space writes all but the counters. -/
inductive MapEvent
  | frame (p : Packet)
  | userspace (write : Maps → Maps)

/-- The maps with what became of the frames so far: how many were lost, and how many of those
were spare clones or had no port to leave by. -/
structure Tally where
  maps : Maps := Maps.zeroed
  lost : ℕ := 0
  excused : ℕ := 0

def Tally.step (t : Tally) : MapEvent → Tally
  | .frame p =>
    { maps := p.after t.maps
      lost := t.lost + if (p.run t.maps).1.lost then 1 else 0
      excused := t.excused +
        if (p.run t.maps).1.lost && (p.spareClone || p.undelivered t.maps) then 1 else 0 }
  | .userspace write => { t with maps := { write t.maps with stats := t.maps.stats } }

def Tally.Balanced (t : Tally) : Prop :=
  total certainLosses t.maps.stats ≤ t.lost ∧
    t.lost ≤ total possibleLosses t.maps.stats + t.excused

theorem Tally.Balanced.step {t : Tally} (h : t.Balanced) (e : MapEvent) : (t.step e).Balanced := by
  cases e with
  | userspace write => exact h
  | frame p =>
    obtain ⟨hcertain, hpossible⟩ := h
    unfold Tally.Balanced Tally.step
    dsimp only [Packet.after]
    rcases p.settled t.maps with ⟨hspare, hrun⟩ | hsettled
    · simp only [hrun, hspare, XdpAction.lost, Bool.true_or, Bool.and_self, if_true]
      omega
    · have hmore := hsettled.certain
      have hkept := hsettled.possible
      cases hlost : (p.run t.maps).1.lost with
      | false =>
        simp only [hlost, Bool.false_and, Bool.false_eq_true, if_false] at hmore ⊢
        omega
      | true =>
        simp only [hlost, Bool.true_and, if_true] at hmore ⊢
        rcases hsettled.counted hlost with hmoved | hsent
        · omega
        · rw [if_pos (by simp [Packet.undelivered, Packet.after, hsent])]
          omega

/-- Whatever frames the programs are given and whatever user space writes, no frame but a spare clone
is dropped or aborted without a counter to show for it, and the counters of certain losses never
exceed the losses. -/
theorem losses_counted (events : List MapEvent) : (events.foldl Tally.step {}).Balanced :=
  List.foldlRecOn (motive := Tally.Balanced) events Tally.step ⟨by decide, by decide⟩
    fun _ h e _ => h.step e

end Minuteman.Datapath
