import Minuteman.PrefixDelegation.IaPd

/-!
# Renewal timers

`pkg/prefixdelegation/timers.go`: the T1 and T2 a lease runs on. A server may
leave either to the client by sending 0; the value chosen then is a share of
the shortest preferred lifetime, kept off zero, below the deadlines the server
did give, and ordered.
-/
namespace Minuteman.PrefixDelegation
open Library ByteString Dhcpv6

def infiniteLifetime : ℤ := 4294967295 * second

def minDerivedT1 : ℤ := 60 * second

def shorter (lifetime : IAPrefix → ℤ) (s : ℤ) (p : IAPrefix) : ℤ :=
  if lifetime p < s then lifetime p else s

/-- The body of the two functions below. -/
def shortest (lifetime : IAPrefix → ℤ) : List IAPrefix → ℤ
  | [] => 0
  | p :: prefixes => prefixes.foldl (shorter lifetime) (lifetime p)

def shortestPreferredLifetime : List IAPrefix → ℤ := shortest IAPrefix.preferredLifetime

def shortestValidLifetime : List IAPrefix → ℤ := shortest IAPrefix.validLifetime

def earlier (a b : ℤ) : ℤ := if a = 0 ∨ (b > 0 ∧ b < a) then b else a

section Arithmetic
variable (keep : ℤ → ℤ)

/-- `recommendedTimers`, with `keep` what becomes of the results of sums and products. -/
def recommendedTimersWith (preferred : ℤ) : ℤ × ℤ :=
  if preferred = infiniteLifetime then (infiniteLifetime, infiniteLifetime)
  else (preferred.tdiv 2, keep (preferred.tdiv 5 * 4))

/-- The T1 of `effectiveTimers` when the server sent none. -/
def derivedT1 (recT1 t2 valid : ℤ) : ℤ :=
  let t1 := if recT1 < minDerivedT1 then minDerivedT1 else recT1
  let limit := earlier t2 valid
  if limit > 0 ∧ limit ≠ infiniteLifetime ∧ t1 ≥ limit then limit.tdiv 2 else t1

/-- The T2 of `effectiveTimers` when the server sent none. -/
def derivedT2With (recT2 t1 valid : ℤ) : ℤ :=
  let t2 :=
    if t1 = infiniteLifetime then infiniteLifetime
    else if recT2 > t1 then recT2
    else keep (t1 + t1.tdiv 2)
  if valid > t1 ∧ t2 > valid then valid else t2

def effectiveTimersWith (iapd : IAPD) : ℤ × ℤ :=
  if iapd.t1 > 0 ∧ iapd.t2 > 0 then (iapd.t1, iapd.t2)
  else
    let rec_ := recommendedTimersWith keep (shortestPreferredLifetime iapd.prefixes)
    let valid := shortestValidLifetime iapd.prefixes
    let t1 := if iapd.t1 = 0 then derivedT1 rec_.1 iapd.t2 valid else iapd.t1
    let t2 := if iapd.t2 = 0 then derivedT2With keep rec_.2 t1 valid else iapd.t2
    (t1, t2)

end Arithmetic

/-- The timers, computed in 64 bits. -/
def effectiveTimers : IAPD → ℤ × ℤ := effectiveTimersWith wrap64

section Shortest
variable {lifetime : IAPrefix → ℤ}

theorem foldl_shorter (prefixes : List IAPrefix) (s : ℤ) :
    (∀ p ∈ prefixes, prefixes.foldl (shorter lifetime) s ≤ lifetime p) ∧
      prefixes.foldl (shorter lifetime) s ≤ s ∧
      (prefixes.foldl (shorter lifetime) s = s ∨
        ∃ p ∈ prefixes, prefixes.foldl (shorter lifetime) s = lifetime p) := by
  induction prefixes generalizing s with
  | nil => simp
  | cons p prefixes ih =>
    obtain ⟨hall, hle, hmem⟩ := ih (shorter lifetime s p)
    have hshorter : shorter lifetime s p ≤ lifetime p ∧ shorter lifetime s p ≤ s ∧
        (shorter lifetime s p = s ∨ shorter lifetime s p = lifetime p) := by
      rw [shorter]
      split_ifs <;> omega
    simp only [List.foldl_cons, List.mem_cons, forall_eq_or_imp, exists_eq_or_imp]
    refine ⟨⟨by omega, hall⟩, by omega, ?_⟩
    rcases hmem with heq | hex
    · rw [heq]
      tauto
    · exact .inr (.inr hex)

/-- The shortest lifetime is that of one prefix and at most that of any. -/
theorem shortest_spec {prefixes : List IAPrefix} (h : prefixes ≠ []) :
    (∀ p ∈ prefixes, shortest lifetime prefixes ≤ lifetime p) ∧
      ∃ p ∈ prefixes, shortest lifetime prefixes = lifetime p := by
  cases prefixes with
  | nil => exact absurd rfl h
  | cons p prefixes =>
    obtain ⟨hall, hle, hmem⟩ := @foldl_shorter lifetime prefixes (lifetime p)
    simp only [shortest, List.mem_cons, forall_eq_or_imp, exists_eq_or_imp]
    exact ⟨⟨hle, hall⟩, hmem⟩

end Shortest

/-- A duration read from a field of seconds is 0 or at least a second, and not above infinity. -/
theorem IsSeconds.bounds {d : ℤ} (h : IsSeconds d) :
    d = 0 ∨ (second ≤ d ∧ d ≤ infiniteLifetime) := by
  obtain ⟨v, rfl⟩ := h
  have hv := v.toNat_lt
  rw [seconds_eq, infiniteLifetime, second]
  omega

theorem IsSeconds.nonneg {d : ℤ} (h : IsSeconds d) : 0 ≤ d := by
  have := h.bounds
  rw [second] at this
  omega

theorem IsSeconds.le {d : ℤ} (h : IsSeconds d) : d ≤ infiniteLifetime := by
  have := h.bounds
  rw [infiniteLifetime, second] at *
  omega

theorem earlier_of_pos {a b : ℤ} (ha : 0 ≤ a) (hb : 0 ≤ b) (h : 0 < a ∨ 0 < b) :
    0 < earlier a b ∧ (0 < a → earlier a b ≤ a) ∧ (0 < b → earlier a b ≤ b) ∧
      (earlier a b = a ∨ earlier a b = b) := by
  rw [earlier]
  split_ifs <;> omega

section Derived
variable {preferred valid recT1 recT2 t1 t2 : ℤ}

/-- The recommended T1 is in range, and infinite only for an infinite lifetime. -/
theorem recommendedTimersWith_fst (hp : 0 ≤ preferred) (hle : preferred ≤ infiniteLifetime)
    (keep : ℤ → ℤ) :
    (recommendedTimersWith keep preferred).1 ≤ infiniteLifetime ∧
      ((recommendedTimersWith keep preferred).1 = infiniteLifetime →
        preferred = infiniteLifetime) := by
  rw [recommendedTimersWith]
  split_ifs with hinf
  · exact ⟨le_rfl, fun _ => hinf⟩
  · dsimp only
    rw [Int.tdiv_eq_ediv_of_nonneg hp]
    simp only [infiniteLifetime, second] at *
    omega

theorem recommendedTimersWith_wrap64 (hp : 0 ≤ preferred) (hle : preferred ≤ infiniteLifetime) :
    recommendedTimersWith wrap64 preferred = recommendedTimersWith id preferred := by
  have hkept : wrap64 (preferred.tdiv 5 * 4) = preferred.tdiv 5 * 4 := by
    rw [Int.tdiv_eq_ediv_of_nonneg hp]
    simp only [infiniteLifetime, second] at hle
    apply wrap64_of_mem <;> omega
  rw [recommendedTimersWith, recommendedTimersWith, hkept, id]

theorem derivedT2With_wrap64 (ht1 : 0 ≤ t1) (hle : t1 ≤ infiniteLifetime) :
    derivedT2With wrap64 recT2 t1 valid = derivedT2With id recT2 t1 valid := by
  have hkept : wrap64 (t1 + t1.tdiv 2) = t1 + t1.tdiv 2 := by
    rw [Int.tdiv_eq_ediv_of_nonneg ht1]
    simp only [infiniteLifetime, second] at hle
    apply wrap64_of_mem <;> omega
  rw [derivedT2With, derivedT2With, hkept, id]

theorem derivedT1_cases :
    (0 < earlier t2 valid ∧ earlier t2 valid ≠ infiniteLifetime ∧
        derivedT1 recT1 t2 valid = earlier t2 valid / 2) ∨
      ((earlier t2 valid ≤ 0 ∨ earlier t2 valid = infiniteLifetime ∨
          derivedT1 recT1 t2 valid < earlier t2 valid) ∧
        derivedT1 recT1 t2 valid = max recT1 minDerivedT1) := by
  have hfloor : (if recT1 < minDerivedT1 then minDerivedT1 else recT1) =
      max recT1 minDerivedT1 := by
    split_ifs <;> omega
  simp only [derivedT1, hfloor]
  split_ifs with hcap
  · left
    rw [Int.tdiv_eq_ediv_of_nonneg hcap.1.le]
    exact ⟨hcap.1, hcap.2.1, rfl⟩
  · omega

/-- A derived T1 is below the earlier of the deadlines, if that is finite. -/
theorem derivedT1_lt_limit (hpos : 0 < earlier t2 valid)
    (hfin : earlier t2 valid ≠ infiniteLifetime) :
    derivedT1 recT1 t2 valid < earlier t2 valid := by
  have h := @derivedT1_cases valid recT1 t2
  omega

/-- A derived T1 is positive, the deadlines being whole seconds. -/
theorem derivedT1_pos (hlimit : earlier t2 valid ≤ 0 ∨ second ≤ earlier t2 valid) :
    0 < derivedT1 recT1 t2 valid := by
  have h := @derivedT1_cases valid recT1 t2
  rw [minDerivedT1, second] at h
  rw [second] at hlimit
  omega

theorem derivedT1_le (hrec : recT1 ≤ infiniteLifetime)
    (hlimit : earlier t2 valid ≤ infiniteLifetime) :
    derivedT1 recT1 t2 valid ≤ infiniteLifetime := by
  have h := @derivedT1_cases valid recT1 t2
  simp only [minDerivedT1, infiniteLifetime, second] at *
  omega

/-- A derived T1 is infinite only for want of any finite number to derive it from. -/
theorem derivedT1_infinite (hlimit : earlier t2 valid ≤ infiniteLifetime)
    (hinf : derivedT1 recT1 t2 valid = infiniteLifetime) :
    recT1 = infiniteLifetime ∧ (earlier t2 valid ≤ 0 ∨ earlier t2 valid = infiniteLifetime) := by
  have h := @derivedT1_cases valid recT1 t2
  simp only [minDerivedT1, infiniteLifetime, second] at *
  omega

theorem derivedT2With_ge (ht1 : 0 ≤ t1) (hle : t1 ≤ infiniteLifetime) :
    t1 ≤ derivedT2With id recT2 t1 valid := by
  simp only [derivedT2With, id]
  rw [Int.tdiv_eq_ediv_of_nonneg ht1]
  split_ifs <;> omega

theorem derivedT2With_le_valid (h : t1 < valid) : derivedT2With id recT2 t1 valid ≤ valid := by
  simp only [derivedT2With]
  split_ifs with hcap <;> omega

end Derived

theorem IAPD.Acceptable.shortest {iapd : IAPD} (h : iapd.Acceptable) :
    IsSeconds (shortestPreferredLifetime iapd.prefixes) ∧
      IsSeconds (shortestValidLifetime iapd.prefixes) := by
  obtain ⟨p, hp, hpreferred⟩ := (@shortest_spec IAPrefix.preferredLifetime _ h.nonempty).2
  obtain ⟨q, hq, hvalid⟩ := (@shortest_spec IAPrefix.validLifetime _ h.nonempty).2
  rw [shortestPreferredLifetime, shortestValidLifetime, hpreferred, hvalid]
  exact ⟨h.decoded.preferred p hp, h.decoded.valid q hq⟩

theorem IsSeconds.earlier {a b : ℤ} (ha : IsSeconds a) (hb : IsSeconds b) :
    IsSeconds (earlier a b) := by
  rw [PrefixDelegation.earlier]
  split_ifs <;> assumption

/-- What the renewal ladder needs of its timers. -/
structure Sensible (iapd : IAPD) (t1 t2 : ℤ) : Prop where
  positive : 0 < t1
  ordered : t1 ≤ t2
  keepsT1 : iapd.t1 ≠ 0 → t1 = iapd.t1
  keepsT2 : iapd.t2 ≠ 0 → t2 = iapd.t2
  beforeDeadlines : iapd.t1 = 0 →
    ∀ d ∈ [iapd.t2, shortestValidLifetime iapd.prefixes], 0 < d → d < infiniteLifetime → t1 < d
  withinLife : iapd.t2 = 0 → t1 < shortestValidLifetime iapd.prefixes →
    t2 ≤ shortestValidLifetime iapd.prefixes
  infinite : iapd.t1 = 0 → t1 = infiniteLifetime →
    (∀ p ∈ iapd.prefixes, p.preferredLifetime = infiniteLifetime) ∧
      (iapd.t2 = 0 ∨ iapd.t2 = infiniteLifetime)

section Effective
variable {iapd : IAPD}

def effectiveT1 (iapd : IAPD) : ℤ :=
  if iapd.t1 = 0 then
    derivedT1 (recommendedTimersWith id (shortestPreferredLifetime iapd.prefixes)).1 iapd.t2
      (shortestValidLifetime iapd.prefixes)
  else iapd.t1

/-- The T2 in effect, beside `effectiveT1`. -/
def effectiveT2 (iapd : IAPD) : ℤ :=
  if iapd.t2 = 0 then
    derivedT2With id (recommendedTimersWith id (shortestPreferredLifetime iapd.prefixes)).2
      (effectiveT1 iapd) (shortestValidLifetime iapd.prefixes)
  else iapd.t2

theorem effectiveTimersWith_id :
    effectiveTimersWith id iapd = (effectiveT1 iapd, effectiveT2 iapd) := by
  rw [effectiveTimersWith]
  by_cases hsent : iapd.t1 > 0 ∧ iapd.t2 > 0
  · rw [if_pos hsent, effectiveT1, effectiveT2, if_neg hsent.1.ne', if_neg hsent.2.ne']
  · rw [if_neg hsent]
    rfl

theorem effectiveT1_bounds (h : iapd.Acceptable) :
    0 < effectiveT1 iapd ∧ effectiveT1 iapd ≤ infiniteLifetime := by
  obtain ⟨hpreferred, hvalid⟩ := h.shortest
  have hlimit := h.decoded.t2.earlier hvalid
  have hrec := recommendedTimersWith_fst hpreferred.nonneg hpreferred.le id
  rw [effectiveT1]
  split_ifs with hzero
  · constructor
    · apply derivedT1_pos
      have := hlimit.bounds
      omega
    · exact derivedT1_le hrec.1 hlimit.le
  · have := h.decoded.t1.nonneg
    exact ⟨by omega, h.decoded.t1.le⟩

theorem effectiveT1_lt (h : iapd.Acceptable) (hzero : iapd.t1 = 0) {d : ℤ}
    (hd : d ∈ [iapd.t2, shortestValidLifetime iapd.prefixes]) (hpos : 0 < d)
    (hfin : d < infiniteLifetime) : effectiveT1 iapd < d := by
  obtain ⟨hpreferred, hvalid⟩ := h.shortest
  simp only [List.mem_cons, List.not_mem_nil, or_false] at hd
  have hlimit := earlier_of_pos h.decoded.t2.nonneg hvalid.nonneg (by omega)
  rw [effectiveT1, if_pos hzero]
  have hlt := @derivedT1_lt_limit (shortestValidLifetime iapd.prefixes)
    (recommendedTimersWith id (shortestPreferredLifetime iapd.prefixes)).1 iapd.t2 hlimit.1
    (by omega)
  omega

theorem effectiveT1_infinite (h : iapd.Acceptable) (hzero : iapd.t1 = 0)
    (hinf : effectiveT1 iapd = infiniteLifetime) :
    (∀ p ∈ iapd.prefixes, p.preferredLifetime = infiniteLifetime) ∧
      (iapd.t2 = 0 ∨ iapd.t2 = infiniteLifetime) := by
  obtain ⟨hpreferred, hvalid⟩ := h.shortest
  have hlimit := h.decoded.t2.earlier hvalid
  have hrec := recommendedTimersWith_fst hpreferred.nonneg hpreferred.le id
  rw [effectiveT1, if_pos hzero] at hinf
  obtain ⟨hrecInf, hnone⟩ := derivedT1_infinite hlimit.le hinf
  constructor
  · intro p hp
    have hshortest := (@shortest_spec IAPrefix.preferredLifetime _ h.nonempty).1 p hp
    have heq : shortest IAPrefix.preferredLifetime iapd.prefixes = infiniteLifetime :=
      hrec.2 hrecInf
    exact le_antisymm (h.decoded.preferred p hp).le (heq ▸ hshortest)
  · have hpos := earlier_of_pos h.decoded.t2.nonneg hvalid.nonneg
    have ht2 := h.decoded.t2.le
    have := h.decoded.t2.nonneg
    omega

theorem effectiveTimers_exact (h : iapd.Acceptable) :
    effectiveTimers iapd = effectiveTimersWith id iapd := by
  have hpreferred := h.shortest.1
  obtain ⟨hpos, hle⟩ := effectiveT1_bounds h
  rw [effectiveT1] at hpos hle
  rw [effectiveTimers, effectiveTimersWith, effectiveTimersWith,
    recommendedTimersWith_wrap64 hpreferred.nonneg hpreferred.le]
  dsimp only
  rw [derivedT2With_wrap64 hpos.le hle]

/-- The timers in effect are computed without overflow and are sensible. -/
theorem effectiveTimers_sensible (h : iapd.Acceptable) :
    effectiveTimers iapd = effectiveTimersWith id iapd ∧
      Sensible iapd (effectiveTimers iapd).1 (effectiveTimers iapd).2 := by
  obtain ⟨hpos, hle⟩ := effectiveT1_bounds h
  refine ⟨effectiveTimers_exact h, ?_⟩
  rw [effectiveTimers_exact h, effectiveTimersWith_id]
  have hnonneg := h.decoded.t2.nonneg
  constructor
  · exact hpos
  · rw [effectiveT2]
    split_ifs with hzero
    · exact derivedT2With_ge hpos.le hle
    · by_cases hderived : iapd.t1 = 0
      · by_cases hfin : iapd.t2 < infiniteLifetime
        · exact (effectiveT1_lt h hderived (by simp) (by omega) hfin).le
        · exact hle.trans (not_lt.mp hfin)
      · have := h.timers
        rw [effectiveT1, if_neg hderived]
        omega
  · intro hsent
    exact if_neg hsent
  · intro hsent
    exact if_neg hsent
  · intro hzero d hd hdpos hfin
    exact effectiveT1_lt h hzero hd hdpos hfin
  · intro hzero hlt
    rw [effectiveT2, if_pos hzero]
    exact derivedT2With_le_valid hlt
  · exact effectiveT1_infinite h

end Effective

def samplePrefix (site : UInt8) (preferred valid : UInt32) : IAPrefix :=
  ⟨seconds preferred, seconds valid, ⟨FixedBytes.read 16 ([0x20, 0x01, 0x0d, 0xb8, 0, site] ++
    List.replicate 10 0), 56⟩⟩

/-- The timers left to the client. -/
def sampleIAPD (prefixes : List IAPrefix) : IAPD := ⟨default, seconds 0, seconds 0, prefixes, none⟩

theorem effectiveTimers_sensible_untimed :
    (sampleIAPD [samplePrefix 1 3600 7200]).Acceptable ∧
      Sensible (sampleIAPD [samplePrefix 1 3600 7200])
        (effectiveTimers (sampleIAPD [samplePrefix 1 3600 7200])).1
        (effectiveTimers (sampleIAPD [samplePrefix 1 3600 7200])).2 := by
  have hacc : (sampleIAPD [samplePrefix 1 3600 7200]).Acceptable := by
    refine ⟨⟨isSeconds_seconds 0, isSeconds_seconds 0, ?_, ?_⟩, ?_, ?_, ?_⟩
    · simp [sampleIAPD, samplePrefix, isSeconds_seconds]
    · simp [sampleIAPD, samplePrefix, isSeconds_seconds]
    · simp [sampleIAPD]
    · decide +kernel
    · decide +kernel
  exact ⟨hacc, (effectiveTimers_sensible hacc).2⟩
end Minuteman.PrefixDelegation
