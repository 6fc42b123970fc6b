import Minuteman.Dhcpv6.Codec
import Minuteman.PrefixDelegation.Lease

/-!
# The IA_PD a client echoes

An IA_PD whose durations are whole seconds decodes to itself once encoded. So
the server that reads a Request, Renew or Rebind finds the prefixes and
lifetimes the message was built from.
-/
namespace Minuteman.PrefixDelegation
open Library ByteString Dhcpv6

theorem toSeconds_seconds (v : UInt32) : toSeconds (seconds v) = v := by
  have hv := v.toNat_lt
  have hquot : (seconds v).tdiv second = v.toNat := by
    rw [seconds_eq]
    exact Int.mul_tdiv_cancel _ (by decide)
  apply UInt32.toNat_inj.mp
  rw [toSeconds, hquot, UInt32.toNat_ofNat']
  omega

theorem seconds_toSeconds {d : ℤ} (h : IsSeconds d) : seconds (toSeconds d) = d := by
  obtain ⟨v, rfl⟩ := h
  rw [toSeconds_seconds]

/-- A prefix that a suboption can state: its lifetimes are whole seconds, and its length is one of
an IPv6 prefix. -/
structure IAPrefix.Statable (p : IAPrefix) : Prop where
  preferred : IsSeconds p.preferredLifetime
  valid : IsSeconds p.validLifetime
  bits : p.pfx.bits ≤ 128

theorem iaPrefixOption_length (p : IAPrefix) : (iaPrefixOption p).data.length = 25 := by
  simp [iaPrefixOption]

theorem parseIAPrefix_iaPrefixOption {p : IAPrefix} (h : p.Statable) :
    parseIAPrefix (iaPrefixOption p).data = .ok p := by
  have hlen := iaPrefixOption_length p
  generalize hdata : (iaPrefixOption p).data = data at hlen
  rw [iaPrefixOption, List.append_assoc, List.append_assoc] at hdata
  have hpreferred : be32At data 0 = toSeconds p.preferredLifetime := hdata ▸ be32At_be32 _ _
  have hvalid : be32At data 4 = toSeconds p.validLifetime :=
    hdata ▸ be32At_be32 (toSeconds p.validLifetime) ([UInt8.ofNat p.pfx.bits] ++ p.pfx.addr.bytes)
  have hbits : (byteAt data 8).toNat = p.pfx.bits := by
    have hread : byteAt data 8 = UInt8.ofNat p.pfx.bits := hdata ▸ rfl
    have hle := h.bits
    exact hread ▸ UInt8.toNat_ofNat_of_lt' (lt_of_le_of_lt hle (by decide))
  have haddr : FixedBytes.read 16 (data.drop 9) = p.pfx.addr := by
    have hdrop : data.drop 9 = p.pfx.addr.bytes ++ [] := by
      rw [List.append_nil]
      exact hdata ▸ rfl
    rw [hdrop, FixedBytes.read_append]
  rw [parseIAPrefix, if_neg (by omega)]
  dsimp only
  rw [hbits, if_neg (not_lt.mpr h.bits), hpreferred, hvalid, seconds_toSeconds h.preferred,
    seconds_toSeconds h.valid, haddr]

theorem parseIAPrefix_bits {data : Bytes} {p : IAPrefix} (h : parseIAPrefix data = .ok p) :
    p.pfx.bits ≤ 128 := by
  unfold parseIAPrefix at h
  dsimp only at h
  split_ifs at h with _ hbits
  rw [← Except.ok.inj h]
  exact not_lt.mp hbits

theorem parseIAPrefix_length {data : Bytes} {p : IAPrefix} (h : parseIAPrefix data = .ok p) :
    25 ≤ data.length := by
  unfold parseIAPrefix at h
  split_ifs at h with hshort
  exact not_lt.mp hshort

/-- The loop over the suboptions collects the prefixes they were encoded from. -/
theorem parseSubOptions_prefixes {prefixes : List IAPrefix} (h : ∀ p ∈ prefixes, p.Statable)
    (iapd : IAPD) : (prefixes.map iaPrefixOption).foldlM parseSubOption iapd =
      .ok { iapd with prefixes := iapd.prefixes ++ prefixes } := by
  induction prefixes generalizing iapd with
  | nil =>
    rw [List.append_nil]
    rfl
  | cons p prefixes ih =>
    have hcode : (iaPrefixOption p).code = optionIAPrefix := rfl
    have hstep : parseSubOption iapd (iaPrefixOption p) =
        .ok { iapd with prefixes := iapd.prefixes ++ [p] } := by
      rw [parseSubOption, if_pos hcode, parseIAPrefix_iaPrefixOption (h p (by simp))]
    rw [List.map_cons, List.foldlM_cons, hstep]
    change (prefixes.map iaPrefixOption).foldlM parseSubOption _ = _
    rw [ih fun p' hp => h p' (by simp [hp])]
    simp

theorem marshal_prefixes_length (prefixes : List IAPrefix) :
    (Options.marshal (prefixes.map iaPrefixOption)).length = 29 * prefixes.length := by
  induction prefixes with
  | nil => rfl
  | cons p prefixes ih =>
    rw [List.map_cons, marshal_length_cons, iaPrefixOption_length, ih, List.length_cons]
    omega

theorem iapdOption_length (iapd : IAPD) :
    (iapdOption iapd).data.length = 12 + 29 * iapd.prefixes.length := by
  simp [iapdOption, marshal_prefixes_length]
  omega

structure IAPD.Statable (iapd : IAPD) : Prop where
  t1 : IsSeconds iapd.t1
  t2 : IsSeconds iapd.t2
  prefixes : ∀ p ∈ iapd.prefixes, p.Statable

/-- The prefixes and times an IA_PD was encoded from are decoded; a status code is not sent. -/
theorem parseIAPD_iapdOption {iapd : IAPD} (h : iapd.Statable) :
    parseIAPD (iapdOption iapd) = .ok { iapd with statusCode := none } := by
  have hlen := iapdOption_length iapd
  have hfit : Options.Fit (iapd.prefixes.map iaPrefixOption) := by
    intro opt hopt
    obtain ⟨p, -, rfl⟩ := List.mem_map.mp hopt
    rw [iaPrefixOption_length]
    omega
  have hsub : parseOptions (Options.marshal (iapd.prefixes.map iaPrefixOption)) =
      .ok (iapd.prefixes.map iaPrefixOption) := parseOptionsFrom_marshal hfit le_rfl
  rw [parseIAPD]
  generalize hdata : (iapdOption iapd).data = data at hlen ⊢
  rw [iapdOption, List.append_assoc, List.append_assoc] at hdata
  have hiaid : FixedBytes.read 4 data = iapd.iaid := hdata ▸ iapd.iaid.read_append _
  have ht1 : be32At data 4 = toSeconds iapd.t1 := by
    rw [← be32At_drop data 4 0, ← hdata, List.drop_left' (by simp)]
    exact be32At_be32 _ _
  have ht2 : be32At data 8 = toSeconds iapd.t2 := by
    rw [← be32At_drop data 8 0, ← hdata, ← List.append_assoc, List.drop_left' (by simp)]
    exact be32At_be32 _ _
  have hdrop : data.drop 12 = Options.marshal (iapd.prefixes.map iaPrefixOption) := by
    rw [← hdata, ← List.append_assoc, ← List.append_assoc]
    exact List.drop_left' (by simp)
  rw [if_neg (by omega)]
  dsimp only
  rw [hiaid, ht1, ht2, hdrop, hsub, seconds_toSeconds h.t1, seconds_toSeconds h.t2]
  exact parseSubOptions_prefixes h.prefixes _

theorem parseSubOption_statable {iapd next : IAPD} {sub : DhcpOption} (hs : iapd.Statable)
    (h : parseSubOption iapd sub = .ok next) : next.Statable := by
  unfold parseSubOption at h
  split_ifs at h
  · split at h <;> cases h
    next p hp =>
      refine ⟨hs.t1, hs.t2, fun p' hp' => ?_⟩
      rcases List.mem_append.mp hp' with hmem | hmem
      · exact hs.prefixes p' hmem
      · cases List.mem_singleton.mp hmem
        obtain ⟨hpreferred, hvalid⟩ := parseIAPrefix_isSeconds hp
        exact ⟨hpreferred, hvalid, parseIAPrefix_bits hp⟩
  · split at h <;> cases h
    exact ⟨hs.t1, hs.t2, hs.prefixes⟩
  · cases h
    exact hs

/-- What was decoded can be stated again. -/
theorem parseIAPD_statable {opt : DhcpOption} {iapd : IAPD} (h : parseIAPD opt = .ok iapd) :
    iapd.Statable := by
  unfold parseIAPD at h
  split_ifs at h
  dsimp only at h
  split at h
  · cases h
  · refine parseSubOptions_invariant (fun _ _ _ => parseSubOption_statable) ⟨?_, ?_, ?_⟩ h <;>
      simp [isSeconds_seconds]

/-- A suboption adds a prefix only if it has the bytes of one. -/
theorem parseSubOption_length {iapd next : IAPD} {sub : DhcpOption}
    (h : parseSubOption iapd sub = .ok next) :
    29 * next.prefixes.length ≤ 29 * iapd.prefixes.length + (4 + sub.data.length) := by
  unfold parseSubOption at h
  split_ifs at h
  · split at h <;> cases h
    next p hp =>
      have hlen := parseIAPrefix_length hp
      rw [List.length_append, List.length_singleton]
      omega
  · split at h <;> cases h
    dsimp only
    omega
  · cases h
    omega

theorem parseSubOptions_length {subOpts : Options} {iapd next : IAPD}
    (h : subOpts.foldlM parseSubOption iapd = .ok next) :
    29 * next.prefixes.length ≤ 29 * iapd.prefixes.length + (Options.marshal subOpts).length := by
  induction subOpts generalizing iapd with
  | nil =>
    cases h
    omega
  | cons sub subOpts ih =>
    rw [List.foldlM_cons] at h
    cases hsub : parseSubOption iapd sub with
    | error e =>
      rw [hsub] at h
      cases h
    | ok mid =>
      rw [hsub] at h
      have hrest := ih h
      have hfirst := parseSubOption_length hsub
      rw [marshal_length_cons]
      omega

/-- An option has room for so many prefixes. -/
theorem parseIAPD_length {opt : DhcpOption} {iapd : IAPD} (h : parseIAPD opt = .ok iapd)
    (hopt : opt.data.length ≤ 65535) : iapd.prefixes.length ≤ 2259 := by
  unfold parseIAPD at h
  split_ifs at h
  dsimp only at h
  split at h
  · cases h
  · next subOpts hsub =>
    have hlen := parseSubOptions_length h
    rw [(marshal_of_parseOptionsFrom le_rfl hsub).1, List.length_drop, List.length_nil] at hlen
    omega

/-- The IA_PD a client takes from a message can be echoed. -/
theorem usable_statable {b : Bytes} {msg : Message} {iapd : IAPD} {serverID : Duid}
    (hparse : parseMessage b = .ok msg) (h : usableIAPD msg = .ok (iapd, serverID)) :
    iapd.Statable ∧ iapd.prefixes.length ≤ 2259 := by
  obtain ⟨offered, -, ⟨opt, hopt, hoffered⟩, rfl, -⟩ := usableIAPD_ok h
  have hmem := (marshalBinary_of_parseMessage hparse).2 opt (List.mem_of_find?_eq_some hopt)
  have hstatable := parseIAPD_statable hoffered
  refine ⟨⟨hstatable.t1, hstatable.t2, fun p hp => ?_⟩, ?_⟩
  · exact hstatable.prefixes p (IAPD.mem_discardInvalid.mp hp).1
  · exact (List.length_filter_le _ _).trans (parseIAPD_length hoffered hmem)

/-- The messages that carry the prefixes of `iapd` back to a server. -/
inductive Echoes (iapd : IAPD) : Exchanging → Prop
  | request (serverID : Duid) (hserver : serverID.length ≤ 65535) :
      Echoes iapd (.request serverID iapd)
  | renew (now : ℤ) (serverID : Duid) (dnsServers : List (FixedBytes 16))
      (hserver : serverID.length ≤ 65535) :
      Echoes iapd (.renew (newLease now serverID iapd dnsServers))
  | rebind (now : ℤ) (serverID : Duid) (dnsServers : List (FixedBytes 16)) :
      Echoes iapd (.rebind (newLease now serverID iapd dnsServers))

/-- The IA_PD such a message carries, as a server reads it. -/
theorem Echoes.option {iapd : IAPD} {e : Exchanging} (h : Echoes iapd e) (hs : iapd.Statable)
    (hlen : iapd.prefixes.length ≤ 2259) {clientID : Duid} (hclient : clientID.length ≤ 65535)
    (xid : TransactionID) (elapsed : ℤ) :
    (e.exchange.message xid clientID elapsed).options.Fit ∧
      ∃ opt echoed, (e.exchange.message xid clientID elapsed).options.get optionIAPD = some opt ∧
        parseIAPD opt = .ok echoed ∧ echoed.prefixes = iapd.prefixes := by
  have hzero : IsSeconds 0 := ⟨0, by rw [seconds_eq]; rfl⟩
  have hlease : IAPD.Statable ⟨clientIAID, 0, 0, iapd.prefixes, none⟩ := ⟨hzero, hzero, hs.prefixes⟩
  have hroom : ∀ x : IAPD, x.prefixes = iapd.prefixes → (iapdOption x).data.length ≤ 65535 := by
    intro x hx
    rw [iapdOption_length, hx]
    omega
  have horo : Options.Fit [requestedOptions] := by simp [requestedOptions, newORO]
  cases h with
  | request serverID hserver =>
    refine ⟨Exchange.message_fit ?_ hclient xid elapsed, _, _, rfl, parseIAPD_iapdOption hs, rfl⟩
    exact fit_cons.mpr ⟨hserver, fit_cons.mpr ⟨hroom iapd rfl, horo⟩⟩
  | renew now serverID dnsServers hserver =>
    refine ⟨Exchange.message_fit ?_ hclient xid elapsed, _, _, rfl, parseIAPD_iapdOption hlease, rfl⟩
    exact fit_cons.mpr ⟨hserver, fit_cons.mpr ⟨hroom _ rfl, horo⟩⟩
  | rebind now serverID dnsServers =>
    refine ⟨Exchange.message_fit ?_ hclient xid elapsed, _, _, rfl, parseIAPD_iapdOption hlease, rfl⟩
    exact fit_cons.mpr ⟨hroom _ rfl, horo⟩

/-- Decoding inverts encoding, of messages and of the IA_PDs in them, and encoding inverts
decoding. What a client echoes are the prefixes and lifetimes it was offered. -/
theorem codec_inverse :
    (∀ m : Message, (∀ opt ∈ m.options, opt.data.length ≤ 65535) →
      parseMessage m.marshalBinary = .ok m) ∧
    (∀ b m, parseMessage b = .ok m → m.marshalBinary = b) ∧
    (∀ x : IAPD, x.statusCode = none → IsSeconds x.t1 → IsSeconds x.t2 →
      (∀ p ∈ x.prefixes, IsSeconds p.preferredLifetime ∧ IsSeconds p.validLifetime ∧
        p.pfx.bits ≤ 128) →
      x.prefixes.length ≤ 2259 →
      parseIAPD (iapdOption x) = .ok x ∧ (iapdOption x).data.length ≤ 65535) ∧
    (∀ b msg offered serverID, parseMessage b = .ok msg →
      usableIAPD msg = .ok (offered, serverID) →
      ∀ e, Echoes offered e → ∀ xid clientID elapsed, clientID.length ≤ 65535 →
        ∃ m opt echoed, parseMessage (e.exchange.message xid clientID elapsed).marshalBinary = .ok m ∧
          m.options.get optionIAPD = some opt ∧ parseIAPD opt = .ok echoed ∧
          echoed.prefixes = offered.prefixes) := by
  refine ⟨fun m => parseMessage_marshalBinary, fun b m h => (marshalBinary_of_parseMessage h).1,
    ?_, ?_⟩
  · intro x hstatus ht1 ht2 hprefixes hlen
    have hs : x.Statable := by
      refine ⟨ht1, ht2, fun p hp => ?_⟩
      obtain ⟨hpreferred, hvalid, hbits⟩ := hprefixes p hp
      exact ⟨hpreferred, hvalid, hbits⟩
    rw [parseIAPD_iapdOption hs, iapdOption_length, ← hstatus]
    exact ⟨rfl, by omega⟩
  · intro b msg offered serverID hparse husable e he xid clientID elapsed hclient
    obtain ⟨hs, hlen⟩ := usable_statable hparse husable
    obtain ⟨hfit, opt, echoed, hopt, hechoed, hprefixes⟩ := he.option hs hlen hclient xid elapsed
    exact ⟨_, opt, echoed, parseMessage_marshalBinary hfit, hopt, hechoed, hprefixes⟩

theorem codec_inverse_sample :
    parseMessage (sampleReply [1] [samplePrefix 1 3600 7200]).marshalBinary =
      .ok (sampleReply [1] [samplePrefix 1 3600 7200]) ∧
    parseIAPD (iapdOption (sampleIAPD [samplePrefix 1 3600 7200])) =
      .ok (sampleIAPD [samplePrefix 1 3600 7200]) := by
  obtain ⟨hmessage, -, hiapd, -⟩ := codec_inverse
  constructor
  · apply hmessage
    simp [sampleReply, iapdOption_length, sampleIAPD]
  · have hprefixes : ∀ p ∈ [samplePrefix 1 3600 7200], IsSeconds p.preferredLifetime ∧
        IsSeconds p.validLifetime ∧ p.pfx.bits ≤ 128 := by
      simp [samplePrefix, isSeconds_seconds]
    exact (hiapd _ rfl (isSeconds_seconds 0) (isSeconds_seconds 0) hprefixes (by decide)).1

end Minuteman.PrefixDelegation
