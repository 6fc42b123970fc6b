import Minuteman.Dhcpv6.Messages

/-!
# Identity associations for prefix delegation

`pkg/prefixdelegation/options.go` and `usableIAPD` of `acquire.go`: an IA_PD as
it is decoded, encoded and judged usable. Durations are in nanoseconds.
-/
namespace Minuteman.PrefixDelegation
open Library ByteString Dhcpv6

structure StatusCode where
  code : UInt16
  message : Bytes
  deriving DecidableEq

def statusSuccess : UInt16 := 0

structure Prefix where
  addr : FixedBytes 16
  bits : ℕ
  deriving DecidableEq

structure IAPrefix where
  preferredLifetime : ℤ
  validLifetime : ℤ
  pfx : Prefix
  deriving DecidableEq

structure IAPD where
  iaid : FixedBytes 4
  t1 : ℤ
  t2 : ℤ
  prefixes : List IAPrefix
  statusCode : Option StatusCode
  deriving DecidableEq

@[irreducible] def seconds (v : UInt32) : ℤ := wrap64 (v.toNat * second)

def toSeconds (d : ℤ) : UInt32 := UInt32.ofNat ((d.tdiv second) % 4294967296).toNat

def newIAPDOption (iaid : FixedBytes 4) : DhcpOption :=
  ⟨optionIAPD, iaid.bytes ++ List.replicate 8 0⟩

def iaPrefixOption (p : IAPrefix) : DhcpOption :=
  ⟨optionIAPrefix, be32 (toSeconds p.preferredLifetime) ++ be32 (toSeconds p.validLifetime) ++
    [UInt8.ofNat p.pfx.bits] ++ p.pfx.addr.bytes⟩

def iapdOption (iapd : IAPD) : DhcpOption :=
  ⟨optionIAPD, iapd.iaid.bytes ++ be32 (toSeconds iapd.t1) ++ be32 (toSeconds iapd.t2) ++
    Options.marshal (iapd.prefixes.map iaPrefixOption)⟩

inductive IAPDError where
  | optionTooShort (length : ℕ)
  | suboptions (e : OptionsError)
  | prefixTooShort (length : ℕ)
  | prefixLengthExceeds (bits : ℕ)
  | statusTooShort (length : ℕ)
  deriving DecidableEq

def parseIAPrefix (data : Bytes) : Except IAPDError IAPrefix :=
  if data.length < 25 then .error (.prefixTooShort data.length)
  else
    let prefixLen := (byteAt data 8).toNat
    if prefixLen > 128 then .error (.prefixLengthExceeds prefixLen)
    else .ok
      { preferredLifetime := seconds (be32At data 0)
        validLifetime := seconds (be32At data 4)
        pfx := ⟨FixedBytes.read 16 (data.drop 9), prefixLen⟩ }

def parseStatusCode (data : Bytes) : Except IAPDError StatusCode :=
  if data.length < 2 then .error (.statusTooShort data.length)
  else .ok ⟨be16At data 0, data.drop 2⟩

/-- One turn of the loop of `parseIAPD` over the suboptions. -/
def parseSubOption (iapd : IAPD) (sub : DhcpOption) : Except IAPDError IAPD :=
  if sub.code = optionIAPrefix then
    match parseIAPrefix sub.data with
    | .ok p => .ok { iapd with prefixes := iapd.prefixes ++ [p] }
    | .error e => .error e
  else if sub.code = optionStatusCode then
    match parseStatusCode sub.data with
    | .ok sc => .ok { iapd with statusCode := some sc }
    | .error e => .error e
  else .ok iapd

def parseIAPD (opt : DhcpOption) : Except IAPDError IAPD :=
  if opt.data.length < 12 then .error (.optionTooShort opt.data.length)
  else
    let iapd : IAPD :=
      { iaid := FixedBytes.read 4 opt.data
        t1 := seconds (be32At opt.data 4)
        t2 := seconds (be32At opt.data 8)
        prefixes := []
        statusCode := none }
    match parseOptions (opt.data.drop 12) with
    | .error e => .error (.suboptions e)
    | .ok subOpts => subOpts.foldlM parseSubOption iapd

/-- The prefixes preferred for longer than they are valid are deleted. -/
def IAPD.discardInvalid (iapd : IAPD) : IAPD :=
  { iapd with prefixes := iapd.prefixes.filter fun p => ¬ p.preferredLifetime > p.validLifetime }

/-- Why an IA_PD is not usable. -/
inductive Unusable where
  | missingServerID
  | missingIAPD
  | malformed (e : IAPDError)
  | status (sc : StatusCode)
  | noUsablePrefixes
  | t1GreaterThanT2 (t1 t2 : ℤ)
  deriving DecidableEq

def usableIAPD (msg : Message) : Except Unusable (IAPD × Duid) :=
  match msg.options.serverID with
  | none => .error .missingServerID
  | some serverID =>
    match msg.options.get optionIAPD with
    | none => .error .missingIAPD
    | some iaOpt =>
      match parseIAPD iaOpt with
      | .error e => .error (.malformed e)
      | .ok iapd =>
        match iapd.statusCode with
        | some sc =>
          if sc.code ≠ statusSuccess then .error (.status sc)
          else usablePrefixes iapd serverID
        | none => usablePrefixes iapd serverID
where
  /-- The checks on the prefixes and timers of an IA_PD that reports no failure. -/
  usablePrefixes (iapd : IAPD) (serverID : Duid) : Except Unusable (IAPD × Duid) :=
    let iapd := iapd.discardInvalid
    if iapd.prefixes.length = 0 then .error .noUsablePrefixes
    else if iapd.t2 > 0 ∧ iapd.t1 > iapd.t2 then .error (.t1GreaterThanT2 iapd.t1 iapd.t2)
    else .ok (iapd, serverID)

theorem seconds_eq (v : UInt32) : seconds v = v.toNat * second := by
  have hv := v.toNat_lt
  unfold seconds
  apply wrap64_of_mem <;> rw [second] <;> omega

def IsSeconds (d : ℤ) : Prop := ∃ v : UInt32, d = seconds v

theorem isSeconds_seconds (v : UInt32) : IsSeconds (seconds v) := ⟨v, rfl⟩

/-- Every duration of the IA_PD was read from such a field. -/
structure IAPD.Decoded (iapd : IAPD) : Prop where
  t1 : IsSeconds iapd.t1
  t2 : IsSeconds iapd.t2
  preferred : ∀ p ∈ iapd.prefixes, IsSeconds p.preferredLifetime
  valid : ∀ p ∈ iapd.prefixes, IsSeconds p.validLifetime

/-- What `effectiveTimers` may rely on. -/
structure IAPD.Acceptable (iapd : IAPD) : Prop where
  decoded : iapd.Decoded
  nonempty : iapd.prefixes ≠ []
  ordered : ∀ p ∈ iapd.prefixes, p.preferredLifetime ≤ p.validLifetime
  timers : ¬ (0 < iapd.t2 ∧ iapd.t2 < iapd.t1)

theorem parseIAPrefix_isSeconds {data : Bytes} {p : IAPrefix} (h : parseIAPrefix data = .ok p) :
    IsSeconds p.preferredLifetime ∧ IsSeconds p.validLifetime := by
  unfold parseIAPrefix at h
  dsimp only at h
  split_ifs at h
  rw [← Except.ok.inj h]
  exact ⟨isSeconds_seconds _, isSeconds_seconds _⟩

theorem parseSubOption_decoded {iapd next : IAPD} {sub : DhcpOption} (hd : iapd.Decoded)
    (h : parseSubOption iapd sub = .ok next) : next.Decoded := by
  unfold parseSubOption at h
  split_ifs at h
  · split at h
    · next p hp =>
      cases h
      obtain ⟨hpreferred, hvalid⟩ := parseIAPrefix_isSeconds hp
      refine ⟨hd.t1, hd.t2, ?_, ?_⟩
      · simpa [or_imp, forall_and, hpreferred] using hd.preferred
      · simpa [or_imp, forall_and, hvalid] using hd.valid
    · cases h
  · split at h
    · cases h
      exact ⟨hd.t1, hd.t2, hd.preferred, hd.valid⟩
    · cases h
  · cases h
    exact hd

/-- What every suboption keeps holds after all of them. -/
theorem parseSubOptions_invariant {P : IAPD → Prop}
    (hstep : ∀ iapd sub next, P iapd → parseSubOption iapd sub = .ok next → P next)
    {subOpts : Options} {iapd next : IAPD} (hP : P iapd)
    (h : subOpts.foldlM parseSubOption iapd = .ok next) : P next := by
  induction subOpts generalizing iapd with
  | nil =>
    cases h
    exact hP
  | cons sub subOpts ih =>
    rw [List.foldlM_cons] at h
    cases hsub : parseSubOption iapd sub with
    | error e =>
      rw [hsub] at h
      cases h
    | ok mid =>
      rw [hsub] at h
      exact ih (hstep iapd sub mid hP hsub) h

theorem parseIAPD_decoded {opt : DhcpOption} {iapd : IAPD} (h : parseIAPD opt = .ok iapd) :
    iapd.Decoded := by
  unfold parseIAPD at h
  split_ifs at h
  dsimp only at h
  split at h
  · cases h
  · refine parseSubOptions_invariant (fun _ _ _ => parseSubOption_decoded) ⟨?_, ?_, ?_, ?_⟩ h <;>
      simp [isSeconds_seconds]

theorem parseSubOption_iaid {iapd next : IAPD} {sub : DhcpOption}
    (h : parseSubOption iapd sub = .ok next) : next.iaid = iapd.iaid := by
  unfold parseSubOption at h
  split_ifs at h
  · split at h <;> cases h
    rfl
  · split at h <;> cases h
    rfl
  · cases h
    rfl

theorem parseIAPD_iaid {opt : DhcpOption} {iapd : IAPD} (h : parseIAPD opt = .ok iapd) :
    iapd.iaid.bytes = opt.data.take 4 := by
  unfold parseIAPD at h
  split_ifs at h with hlen
  dsimp only at h
  split at h
  · cases h
  · have hiaid := parseSubOptions_invariant (P := fun next => next.iaid = FixedBytes.read 4 opt.data)
      (fun _ _ _ hP hsub => (parseSubOption_iaid hsub).trans hP) rfl h
    rw [hiaid, FixedBytes.read, dif_pos (by omega)]

theorem IAPD.mem_discardInvalid {iapd : IAPD} {p : IAPrefix} :
    p ∈ iapd.discardInvalid.prefixes ↔
      p ∈ iapd.prefixes ∧ p.preferredLifetime ≤ p.validLifetime := by
  simp [IAPD.discardInvalid]

theorem usablePrefixes_ok {offered iapd : IAPD} {serverID sid : Duid} (hd : offered.Decoded)
    (h : usableIAPD.usablePrefixes offered serverID = .ok (iapd, sid)) :
    sid = serverID ∧ iapd = offered.discardInvalid ∧ iapd.Acceptable := by
  unfold usableIAPD.usablePrefixes at h
  dsimp only at h
  split_ifs at h with hempty htimers
  cases h
  refine ⟨rfl, rfl, ⟨⟨hd.t1, hd.t2, ?_, ?_⟩, ?_, ?_, htimers⟩⟩
  · intro p hp
    exact hd.preferred p (IAPD.mem_discardInvalid.mp hp).1
  · intro p hp
    exact hd.valid p (IAPD.mem_discardInvalid.mp hp).1
  · intro hnil
    exact hempty (List.length_eq_zero_iff.mpr hnil)
  · intro p hp
    exact (IAPD.mem_discardInvalid.mp hp).2

/-- How a usable IA_PD comes from the first IA_PD option of the message. -/
structure Usable (msg : Message) (offered iapd : IAPD) (serverID : Duid) : Prop where
  server : msg.options.serverID = some serverID
  parsed : ∃ opt, msg.options.get optionIAPD = some opt ∧ parseIAPD opt = .ok offered
  kept : iapd = offered.discardInvalid
  acceptable : iapd.Acceptable

theorem usableIAPD_ok {msg : Message} {iapd : IAPD} {serverID : Duid}
    (h : usableIAPD msg = .ok (iapd, serverID)) :
    ∃ offered, Usable msg offered iapd serverID := by
  unfold usableIAPD at h
  split at h
  · cases h
  · next sid hsid =>
    split at h
    · cases h
    · next opt hopt =>
      split at h
      · cases h
      · next offered hparse =>
        have hprefixes : usableIAPD.usablePrefixes offered sid = .ok (iapd, serverID) := by
          split at h
          · split_ifs at h
            exact h
          · exact h
        obtain ⟨rfl, hkept, hacc⟩ := usablePrefixes_ok (parseIAPD_decoded hparse) hprefixes
        exact ⟨offered, hsid, ⟨opt, hopt, hparse⟩, hkept, hacc⟩

end Minuteman.PrefixDelegation
