import Minuteman.Datapath.ErrorSteps
import Minuteman.Library.Interference

/-!
# The budget of ICMP errors

Every token `icmp_error_allowed` grants should pay for one error. The routines
take it at different points, so a packet that draws no error can still use one
up; where none does, tokens and errors balance.
-/
namespace Minuteman.Datapath
open Library ByteString

deriving instance DecidableEq for IcmpRateBucket

/-- A token was granted on the way from one view to the other: there was one, and the bucket is
left with one less. -/
def Granted (env : Env) (v v' : ErrorView) : Prop :=
  (v.bucket env).tokens ≠ 0 ∧ v'.rate env.cpu = (v.drawn env).rate env.cpu

instance (env : Env) (v v' : ErrorView) : Decidable (Granted env v v') := by
  unfold Granted
  infer_instance

def Packet.granted (p : Packet) (m : Maps) : ℕ :=
  if Granted p.env m.errorView (p.after m).errorView then 1 else 0

def Packet.emitted (p : Packet) (m : Maps) : ℕ :=
  if m.icmpErrors < (p.after m).icmpErrors ∧ (sentFrame (p.run m)).isSome then 1 else 0

structure Spending where
  maps : Maps
  granted : ℕ
  emitted : ℕ

def Spending.step (s : Spending) (p : Packet) : Spending where
  maps := p.after s.maps
  granted := s.granted + p.granted s.maps
  emitted := s.emitted + p.emitted s.maps

section Steps
variable {env : Env} {v : ErrorView} {p : Packet} {m : Maps}

theorem ErrorView.drawn_rate_of_empty (h : (v.bucket env).tokens = 0) :
    (v.drawn env).rate env.cpu = v.bucket env := by
  rw [ErrorView.drawn]
  dsimp only
  rw [Function.update_self, if_pos h]

theorem ErrorView.drawn_rate_of_token (h : (v.bucket env).tokens ≠ 0) :
    (v.drawn env).rate env.cpu =
      ⟨(v.bucket env).lastRefillNs, (v.bucket env).tokens - 1⟩ := by
  rw [ErrorView.drawn]
  dsimp only
  rw [Function.update_self, if_neg h]

theorem IcmpRateBucket.ext_iff {b b' : IcmpRateBucket} :
    b = b' ↔ b.lastRefillNs = b'.lastRefillNs ∧ b.tokens = b'.tokens := by
  cases b
  cases b'
  simp

theorem elapsedNs_lt (now since : ℕ) : elapsedNs now since < 2 ^ 64 := by
  unfold elapsedNs
  exact Nat.mod_lt _ (by norm_num)

theorem advanced_ne {last n : ℕ} (hpos : 0 < n) (hlt : n < 2 ^ 64) : (last + n) % 2 ^ 64 ≠ last := by
  omega

/-- A refill moves the bucket's clock. -/
theorem IcmpRateBucket.refilled_cases (b : IcmpRateBucket) (now : ℕ) :
    b.refilled now = b ∨ (b.refilled now).lastRefillNs ≠ b.lastRefillNs := by
  have hlt := elapsedNs_lt now b.lastRefillNs
  have hle := Nat.div_mul_le_self (elapsedNs now b.lastRefillNs) icmpErrorRefillIntervalNs
  unfold IcmpRateBucket.refilled
  dsimp only
  split
  · next hrefill =>
    exact .inr (advanced_ne (Nat.mul_pos hrefill (by decide)) (lt_of_le_of_lt hle hlt))
  · exact .inl rfl

theorem IcmpRateBucket.tokens_of_refilled {b : IcmpRateBucket} {now : ℕ}
    (h : (b.refilled now).tokens = 0) : b.tokens = 0 := by
  have hburst : icmpErrorBurst = 20 := rfl
  unfold IcmpRateBucket.refilled at h
  dsimp only at h
  split at h
  · dsimp only at h
    omega
  · exact h

theorem IcmpRateBucket.spent_ne {b b' : IcmpRateBucket} (h : b.tokens ≠ 0)
    (hcases : b = b' ∨ b.lastRefillNs ≠ b'.lastRefillNs) :
    (⟨b.lastRefillNs, b.tokens - 1⟩ : IcmpRateBucket) ≠ b' := by
  intro heq
  rw [IcmpRateBucket.ext_iff] at heq
  rcases hcases with rfl | hclock
  · exact absurd heq.2 (Nat.sub_one_lt h).ne
  · exact hclock heq.1

/-- Taking a token shows in the bucket: refilling moves its clock, spending lowers its count. -/
theorem ErrorView.drawn_rate_ne (h : (v.bucket env).tokens ≠ 0) :
    (v.drawn env).rate env.cpu ≠ v.rate env.cpu := by
  have hcases : v.bucket env = v.rate env.cpu ∨
      (v.bucket env).lastRefillNs ≠ (v.rate env.cpu).lastRefillNs := by
    unfold ErrorView.bucket
    exact (v.rate env.cpu).refilled_cases env.now
  rw [ErrorView.drawn_rate_of_token h]
  exact IcmpRateBucket.spent_ne h hcases

/-- The packet finds a token, which is taken for nothing. -/
structure WastesToken (p : Packet) (m : Maps) : Prop where
  token : (m.errorView.bucket p.env).tokens ≠ 0
  whole : ∀ i, p.program ≠ .softwireFrag i
  unanswerable : Unanswerable p.env m p.ctx

/-- A packet that wastes no token is granted one exactly if it draws an error, and otherwise leaves
the tokens of its CPU as they were. -/
theorem Packet.balanced (h : ¬ WastesToken p m) :
    p.granted m = p.emitted m ∧ (p.emitted m = 0 →
      ((p.after m).icmpErrorRate p.env.cpu).tokens = (m.icmpErrorRate p.env.cpu).tokens) := by
  unfold Packet.granted Packet.emitted
  cases p.errorOutcome m with
  | quiet hview =>
    have hcount : (p.after m).icmpErrors = m.icmpErrors := congrArg ErrorView.errors hview
    have hrate : (p.after m).icmpErrorRate = m.icmpErrorRate := congrArg ErrorView.rate hview
    rw [if_neg, if_neg]
    · exact ⟨rfl, fun _ => by rw [hrate]⟩
    · intro hemit
      omega
    · rintro ⟨htoken, hspent⟩
      rw [Packet.after, hview] at hspent
      exact ErrorView.drawn_rate_ne htoken hspent.symm
  | limited hempty hview =>
    have hcount : (p.after m).icmpErrors = m.icmpErrors := congrArg ErrorView.errors hview
    have hrate : (p.after m).icmpErrorRate p.env.cpu = m.errorView.bucket p.env := by
      rw [← ErrorView.drawn_rate_of_empty hempty, ← hview]
      rfl
    rw [if_neg, if_neg]
    · refine ⟨rfl, fun _ => ?_⟩
      rw [hrate, hempty]
      unfold ErrorView.bucket at hempty
      exact (IcmpRateBucket.tokens_of_refilled hempty).symm
    · intro hemit
      omega
    · rintro ⟨htoken, -⟩
      exact htoken hempty
  | wasted htoken hrate hunsent hwaste => exact absurd ⟨htoken, hwaste.1, hwaste.2⟩ h
  | answered htoken hview hsent hreport =>
    have hcount : (p.after m).icmpErrors = m.icmpErrors + 1 := congrArg ErrorView.errors hview
    rw [if_pos, if_pos]
    · exact ⟨rfl, fun hzero => absurd hzero (by decide)⟩
    · exact ⟨by omega, by rw [hsent]; rfl⟩
    · exact ⟨htoken, by rw [Packet.after, hview]⟩

end Steps

/-- Tokens are conserved on a CPU where no packet wastes one: as many are granted as errors are
emitted, and packets that draw none leave the bucket alone. -/
theorem tokens_conserved (cpu : ℕ) (m : Maps) (packets : List Packet)
    (h : Along Spending.step
      (fun s p => p.env.cpu = cpu ∧ ¬ WastesToken p s.maps) ⟨m, 0, 0⟩ packets) :
    (packets.foldl Spending.step ⟨m, 0, 0⟩).granted =
        (packets.foldl Spending.step ⟨m, 0, 0⟩).emitted ∧
      ((packets.foldl Spending.step ⟨m, 0, 0⟩).emitted = 0 →
        ((packets.foldl Spending.step ⟨m, 0, 0⟩).maps.icmpErrorRate cpu).tokens =
          (m.icmpErrorRate cpu).tokens) := by
  apply Along.invariant (I := fun s => s.granted = s.emitted ∧
    (s.emitted = 0 → (s.maps.icmpErrorRate cpu).tokens = (m.icmpErrorRate cpu).tokens)) ?_ h
    ⟨rfl, fun _ => rfl⟩
  rintro s p ⟨hbalance, htokens⟩ ⟨rfl, hfree⟩
  obtain ⟨hgrant, hkeep⟩ := Packet.balanced hfree
  constructor
  · change s.granted + p.granted s.maps = s.emitted + p.emitted s.maps
    rw [hbalance, hgrant]
  · intro hzero
    change s.emitted + p.emitted s.maps = 0 at hzero
    exact (hkeep (by omega)).trans (htokens (by omega))

section Sample

/-- The LAN takes packets of 60 bytes, and the AFTR is reached over the WAN. -/
def smallLanEnv : Env where
  fib p := match p.addrs with
    | .inet _ _ => { ret := if p.skipNeigh then .success else .fragNeeded, egress := 3, mtu := 60 }
    | .inet6 _ _ => { ret := .success, egress := 2 }
  mtu _ := some 1500
  now := 1000000000

def bigPacket (saddr : UInt32) : Packet where
  program := .dsliteDecapCpu
  env := smallLanEnv
  ctx :=
    { data := (Ethhdr.mk default default ethPIpv6).toBytes ++
        ((outerIpv6 (sampleAddr 2) (sampleAddr 1) ipprotoIpip 64).toBytes ++
          ((Iphdr.mk 0x45 0 64 1 ipDf 64 17 0 saddr 0xc0a8010a).toBytes ++ List.replicate 44 0))
      headroom := []
      ingressIfindex := 2 }

theorem bigPacket_wastes_nothing :
    ¬ WastesToken (bigPacket 0xcb007105) linkedMaps := by
  rintro ⟨-, -, ⟨-, h⟩ | ⟨-, ⟨-, -, hfib⟩, -⟩ | ⟨innerOff, hinner, -⟩⟩
  · rcases h with ⟨-, -, -, hlen | hmay | hback | hlen | hport⟩ | ⟨httl, -, -, -⟩
    · exact absurd hlen (by decide +kernel)
    · exact absurd hmay (by decide +kernel)
    · exact absurd (congrArg Option.isNone hback) (by decide +kernel)
    · exact absurd hlen (by decide +kernel)
    · exact absurd hport (by decide +kernel)
    · exact absurd httl (by decide +kernel)
  · exact absurd hfib (by decide +kernel)
  · have hnone : quotedInner (bigPacket 0xcb007105).ctx.data (outerHdrLen + 8) = none := by
      decide +kernel
    cases hnone.symm.trans hinner

/-- A packet from a host draws an error for its token. -/
theorem tokens_conserved_answered :
    (bigPacket 0xcb007105).emitted linkedMaps = 1 ∧ (bigPacket 0xcb007105).granted linkedMaps = 1 := by
  have hemitted : (bigPacket 0xcb007105).emitted linkedMaps = 1 := by decide +kernel
  have hbalance := (tokens_conserved 0 linkedMaps [bigPacket 0xcb007105]
    ⟨⟨rfl, bigPacket_wastes_nothing⟩, trivial⟩).1
  simp only [List.foldl_cons, List.foldl_nil, Spending.step, Nat.zero_add] at hbalance
  exact ⟨hemitted, hbalance.trans hemitted⟩

def drained : Spending :=
  (List.replicate 20 (bigPacket 0xe0000001)).foldl Spending.step ⟨linkedMaps, 0, 0⟩

/-- They draw no error and use up the bucket: the next packet from a host gets no answer. -/
theorem multicast_packets_drain_bucket :
    drained.granted = 20 ∧ drained.emitted = 0 ∧
      (bigPacket 0xcb007105).emitted drained.maps = 0 := by
  decide +kernel

end Sample

end Minuteman.Datapath
