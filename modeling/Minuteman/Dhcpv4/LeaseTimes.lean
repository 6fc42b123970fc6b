import Minuteman.Dhcpv4.Exclusivity

/-!
# The times of an OFFER or ACK

The lease time, the renewal time T1 and the rebinding time T2 of a reply are
computed from the lease duration in 64-bit nanoseconds and stated in 32-bit
seconds. Seven eighths of the duration are taken by multiplying first, so a
duration whose sevenfold is no 64-bit number gets a wrong T2.
-/
namespace Minuteman.Dhcpv4
open Library ByteString

/-- The number of seconds an option states, as its reader finds it. -/
def Options.seconds (o : Options) (code : OptionCode) : Option ℕ :=
  (o.addr code).map UInt32.toNat

/-- What `newSeconds` states for a duration. -/
def statedSeconds (d : ℤ) : ℕ := (min (max (d.tdiv second) 0) 0xffffffff).toNat

theorem newSeconds_data (code : OptionCode) (d : ℤ) :
    (be32At (newSeconds code d).data 0).toNat = statedSeconds d := by
  have hread := be32At_be32 (UInt32.ofNat (statedSeconds d)) []
  rw [List.append_nil] at hread
  have hlt : statedSeconds d < 2 ^ 32 := by
    rw [statedSeconds]
    omega
  change (be32At (be32 (UInt32.ofNat (statedSeconds d))) 0).toNat = statedSeconds d
  rw [hread, UInt32.toNat_ofNat_of_lt' hlt]

theorem seconds_of_get {o : Options} {code : OptionCode} {d : ℤ}
    (h : o.get code = some (newSeconds code d)) : o.seconds code = some (statedSeconds d) := by
  have hlen : (newSeconds code d).data.length = 4 := rfl
  simp only [Options.seconds, Options.addr, h, hlen, ne_eq, not_true_eq_false, if_false,
    Option.map_some, newSeconds_data]

section Reply
variable (cfg : InterfaceConfig) (pool : Pool) (req : Message) (mt : MessageType) (ip : Addr)

theorem buildReply_leaseTime : (buildReply cfg pool req mt ip).options.seconds optLeaseTime =
    some (statedSeconds pool.duration) := seconds_of_get rfl

theorem buildReply_renewalTime : (buildReply cfg pool req mt ip).options.seconds optRenewalTime =
    some (statedSeconds (pool.duration.tdiv 2)) := seconds_of_get rfl

theorem buildReply_rebindingTime :
    (buildReply cfg pool req mt ip).options.seconds optRebindingTime =
      some (statedSeconds ((wrap64 (pool.duration * 7)).tdiv 8)) := seconds_of_get rfl

end Reply

/-- The times `m` states to the client `c`, for leases of the duration `d`. The pool `q` has just
recorded its binding, at `now`. -/
structure ProperTimes (d now : ℤ) (q : Pool) (c : ClientId) (m : Message) (t1 t2 lease : ℕ) :
    Prop where
  renewal : m.options.seconds optRenewalTime = some t1
  rebinding : m.options.seconds optRebindingTime = some t2
  leaseTime : m.options.seconds optLeaseTime = some lease
  increasing : t1 < t2 ∧ t2 < lease
  half : (t1 : ℤ) = d / (2 * second)
  sevenEighths : (t2 : ℤ) = 7 * d / (8 * second)
  covered : ∀ l, q.byClient c = some l → l.state = .committed → lease * second ≤ l.expiry - now

theorem statedSeconds_of_le {d : ℤ} (hpos : 0 ≤ d) (hle : d ≤ 0xffffffff * second) :
    (statedSeconds d : ℤ) = d / second := by
  rw [statedSeconds, Int.tdiv_eq_ediv_of_nonneg hpos]
  simp only [second] at hle ⊢
  omega

theorem statedSeconds_le {d : ℤ} (hpos : 0 ≤ d) : (statedSeconds d : ℤ) ≤ d / second := by
  rw [statedSeconds, Int.tdiv_eq_ediv_of_nonneg hpos]
  simp only [second]
  omega

theorem statedSeconds_of_nonpos {d : ℤ} (h : d ≤ 0) : statedSeconds d = 0 := by
  have hneg : d.tdiv second ≤ 0 := tdiv_nonpos h (by decide)
  rw [statedSeconds]
  omega

/-- What is left of a product that does not fit is too little. -/
theorem wrapped_lt {d : ℤ} (hmax : d < 2 ^ 63) (hover : 2 ^ 63 ≤ d * 7) :
    (statedSeconds ((wrap64 (d * 7)).tdiv 8) : ℤ) < 7 * d / (8 * second) := by
  have hwrap : wrap64 (d * 7) ≤ d * 7 - 2 ^ 64 := by
    rw [wrap64, Int.bmod_def]
    omega
  generalize wrap64 (d * 7) = w at hwrap
  rcases lt_or_ge w 0 with hneg | hpos
  · rw [statedSeconds_of_nonpos (tdiv_nonpos hneg.le (by decide))]
    simp only [second]
    omega
  · rw [Int.tdiv_eq_ediv_of_nonneg hpos]
    have hle := statedSeconds_le (Int.ediv_nonneg hpos (by decide : (0 : ℤ) ≤ 8))
    simp only [second] at hle ⊢
    omega

/-- The times stated for a duration whose sevenfold fits. -/
theorem statedSeconds_times {d : ℤ} (hmin : minDHCPv4Lease ≤ d) (hfits : d * 7 < 2 ^ 63) :
    (statedSeconds (d / 2) : ℤ) = d / (2 * second) ∧
    (statedSeconds (d * 7 / 8) : ℤ) = 7 * d / (8 * second) ∧
    statedSeconds d * second ≤ d ∧
    statedSeconds (d / 2) < statedSeconds (d * 7 / 8) ∧
      statedSeconds (d * 7 / 8) < statedSeconds d := by
  simp only [minDHCPv4Lease, second] at hmin
  have hhalf := statedSeconds_of_le (d := d / 2) (by omega) (by simp only [second]; omega)
  have hseven := statedSeconds_of_le (d := d * 7 / 8) (by omega) (by simp only [second]; omega)
  have hwhole := statedSeconds_of_le (d := d) (by omega) (by simp only [second]; omega)
  simp only [second] at hhalf hseven hwhole ⊢
  omega

/-- An OFFER or ACK states its times right exactly if the sevenfold of the lease duration fits a
64-bit number. -/
theorem times_proper_iff {cfg : InterfaceConfig} {p q : Pool} {req m : Message} {now : ℤ}
    {ip : Addr} (hmin : minDHCPv4Lease ≤ p.duration) (hmax : p.duration < 2 ^ 63)
    (hreply : handle cfg p req now = (some m, q)) (hgrant : m.granted = some ip) :
    (∃ t1 t2 lease, ProperTimes p.duration now q req.client m t1 t2 lease) ↔
      p.duration * 7 < 2 ^ 63 := by
  have hhandled := handle_handled cfg p req now
  rw [hreply] at hhandled
  cases hhandled with
  | ungranted _ _ hq hnone =>
    rw [hnone m rfl] at hgrant
    cases hgrant
  | granted r ip state mt hr take own hmt =>
    have hduration : (r.hold req.client ip now state).duration = p.duration := by
      rw [Pool.hold_duration, hr.eq]
    have hrenewal := buildReply_renewalTime cfg (r.hold req.client ip now state) req mt ip
    have hrebinding := buildReply_rebindingTime cfg (r.hold req.client ip now state) req mt ip
    have hlease := buildReply_leaseTime cfg (r.hold req.client ip now state) req mt ip
    rw [hduration] at hrenewal hrebinding hlease
    constructor
    · rintro ⟨t1, t2, lease, h⟩
      by_contra hover
      have hlt := wrapped_lt hmax (not_lt.mp hover)
      rw [← h.sevenEighths] at hlt
      cases hrebinding.symm.trans h.rebinding
      exact lt_irrefl _ hlt
    · intro hfits
      have hpos : 0 ≤ p.duration := le_trans (by decide) hmin
      have hwrap : wrap64 (p.duration * 7) = p.duration * 7 := wrap64_of_mem (by omega) hfits
      rw [Int.tdiv_eq_ediv_of_nonneg hpos] at hrenewal
      rw [hwrap, Int.tdiv_eq_ediv_of_nonneg (by omega)] at hrebinding
      obtain ⟨hhalf, hseven, hwhole, hincreasing⟩ := statedSeconds_times hmin hfits
      refine ⟨_, _, _, hrenewal, hrebinding, hlease, hincreasing, hhalf, hseven, ?_⟩
      intro l hl hstate
      rw [Pool.hold_byClient_self] at hl
      cases hl
      cases hstate
      have hhold : r.holdTime .committed = p.duration := by rw [hr.eq]; rfl
      rw [hhold]
      change _ ≤ now + p.duration - now
      omega

def timedPool (d : ℤ) : Pool := { samplePool with duration := d }

theorem times_proper_iff_day :
    ∃ m q, handle sampleConfig (timedPool (86400 * second)) (discoverFrom [1]) 0 = (some m, q) ∧
      ∃ t1 t2 lease, ProperTimes (86400 * second) 0 q [1] m t1 t2 lease := by
  have hgrant : ((handle sampleConfig (timedPool (86400 * second)) (discoverFrom [1]) 0).1.bind
      Message.granted) = some 0xC0A80102 := by decide
  have hmin : minDHCPv4Lease ≤ (timedPool (86400 * second)).duration := by decide
  obtain ⟨m, hm, hgranted⟩ := Option.bind_eq_some_iff.mp hgrant
  have hreply : handle sampleConfig (timedPool (86400 * second)) (discoverFrom [1]) 0 =
      (some m, _) := Prod.ext hm rfl
  exact ⟨m, _, hreply, (times_proper_iff hmin (by decide) hreply hgranted).mpr (by decide)⟩

/-- A lease of fifty years, as 438000h on the command line: the client is told to rebind at
once. -/
theorem fifty_years_rebind_at_once :
    minDHCPv4Lease ≤ 438000 * 3600 * second ∧ 438000 * 3600 * second < 2 ^ 63 ∧
    ∃ m, (handle sampleConfig (timedPool (438000 * 3600 * second)) (discoverFrom [1]) 0).1 = some m ∧
      m.granted = some 0xC0A80102 ∧
      m.options.seconds optRenewalTime = some 788400000 ∧
      m.options.seconds optRebindingTime = some 0 ∧
      m.options.seconds optLeaseTime = some 1576800000 :=
  ⟨by decide, by decide, _, rfl, by decide, by decide, by decide, by decide⟩

end Minuteman.Dhcpv4
