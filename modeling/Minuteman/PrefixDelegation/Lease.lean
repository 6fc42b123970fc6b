import Minuteman.PrefixDelegation.Timers

/-!
# Acquiring and extending a lease

`pkg/prefixdelegation`: `Acquire`, `Renew` and `Rebind` as the exchanges they
run one after another, each going on or returning with what the last one came
to. A lease returned is live and ours just when its Reply was.
-/
namespace Minuteman.PrefixDelegation
open Library ByteString Dhcpv6

def clientIAID : FixedBytes 4 := ⟨[0, 0, 0, 1], rfl⟩

structure Lease where
  serverID : Duid
  prefixes : List IAPrefix
  t1 : ℤ
  t2 : ℤ
  dnsServers : List (FixedBytes 16)
  acquiredAt : ℤ
  deriving DecidableEq

def newLease (now : ℤ) (serverID : Duid) (iapd : IAPD) (dnsServers : List (FixedBytes 16)) :
    Lease :=
  let timers := effectiveTimers iapd
  { serverID := serverID
    prefixes := iapd.prefixes
    t1 := timers.1
    t2 := timers.2
    dnsServers := dnsServers
    acquiredAt := now }

namespace Lease

def renewAt (l : Lease) : ℤ := l.acquiredAt + l.t1

def rebindAt (l : Lease) : ℤ := l.acquiredAt + l.t2

def expiresAt (l : Lease) : ℤ := l.acquiredAt + shortestValidLifetime l.prefixes

def iaPDOption (l : Lease) : DhcpOption :=
  iapdOption ⟨clientIAID, 0, 0, l.prefixes, none⟩

end Lease

def requestedOptions : DhcpOption := newORO [optionDNSServers]

def leaseFromReply (now : ℤ) (serverID : Option Duid) (reply : Message) : Except Unusable Lease :=
  match usableIAPD reply with
  | .error e => .error e
  | .ok (granted, replyServerID) =>
    .ok (newLease now (serverID.getD replyServerID) granted reply.options.dnsServers)

inductive LeaseError where
  | exchange (e : ExchangeError)
  | unusable (u : Unusable)
  deriving DecidableEq

/-- The exchange `Renew`, `Rebind` or `Acquire` is waiting for. -/
inductive Exchanging where
  | renew (lease : Lease)
  | rebind (lease : Lease)
  | solicit
  | request (serverID : Duid) (offered : IAPD)
  deriving DecidableEq

inductive Progress where
  | exchange (e : Exchanging)
  | done (r : Except LeaseError Lease)

namespace Exchanging

def exchange : Exchanging → Exchange
  | .renew lease =>
    Dhcpv6.renew [⟨optionServerID, lease.serverID⟩, lease.iaPDOption, requestedOptions]
  | .rebind lease => Dhcpv6.rebind [lease.iaPDOption, requestedOptions]
  | .solicit => Dhcpv6.solicit [newIAPDOption clientIAID, requestedOptions]
  | .request serverID offered =>
    Dhcpv6.request [⟨optionServerID, serverID⟩, iapdOption offered, requestedOptions]

def deadline : Exchanging → Option ℤ
  | .renew lease => some lease.rebindAt
  | .rebind lease => some lease.expiresAt
  | .solicit => none
  | .request _ _ => none

/-- The server its message is addressed to, if it is to one in particular. -/
def server : Exchanging → Option Duid
  | .renew lease => some lease.serverID
  | .request serverID _ => some serverID
  | .rebind _ => none
  | .solicit => none

def answered (now : ℤ) : Exchanging → Message → Progress
  | .renew lease, reply =>
    .done ((leaseFromReply now (some lease.serverID) reply).mapError .unusable)
  | .rebind _, reply => .done ((leaseFromReply now none reply).mapError .unusable)
  | .solicit, advertise =>
    match usableIAPD advertise with
    | .error _ => .exchange .solicit
    | .ok (offered, serverID) => .exchange (.request serverID offered)
  | .request serverID _, reply =>
    match usableIAPD reply with
    | .error _ => .exchange .solicit
    | .ok (granted, _) =>
      .done (.ok (newLease now serverID granted reply.options.dnsServers))

def failed : Exchanging → ExchangeError → Progress
  | .request _ _, _ => .exchange .solicit
  | _, err => .done (.error (.exchange err))

end Exchanging

structure Outcome where
  at_ : ℤ
  result : Except ExchangeError Message

def Exchanging.next (e : Exchanging) (o : Outcome) : Progress :=
  match o.result with
  | .ok m => e.answered o.at_ m
  | .error err => e.failed err

/-- A lease returned, with the Reply that granted it and the exchange that Reply answered. -/
structure Granted where
  lease : Lease
  exchanging : Exchanging
  reply : Message

/-- The lease that a call returns whose exchanges come out as listed, if it returns one. -/
def Exchanging.returned : Exchanging → List Outcome → Option Granted
  | _, [] => none
  | e, o :: outcomes =>
    match e.next o, o.result with
    | .exchange e', _ => e'.returned outcomes
    | .done (.ok lease), .ok reply => some ⟨lease, e, reply⟩
    | _, _ => none

/-- The lease is granted to us, by the server it names, and has not expired at once. -/
structure Granted.Genuine (g : Granted) : Prop where
  iaid : ∃ opt iapd, g.reply.options.get optionIAPD = some opt ∧ parseIAPD opt = .ok iapd ∧
    g.lease.prefixes = iapd.discardInvalid.prefixes ∧ iapd.iaid = clientIAID
  server : g.reply.options.serverID = some g.lease.serverID
  live : ∃ p, g.lease.prefixes.head? = some p ∧ 0 < p.validLifetime
  unexpired : g.lease.acquiredAt < g.lease.expiresAt

/-- A Reply to our IA_PD, from the server that was asked, with no prefix in it withdrawn. -/
structure Exchanging.Proper (e : Exchanging) (reply : Message) : Prop where
  iaid : ∀ opt, reply.options.get optionIAPD = some opt → opt.data.take 4 = clientIAID.bytes
  server : ∀ serverID, e.server = some serverID → reply.options.serverID = some serverID
  standing : ∀ opt iapd, reply.options.get optionIAPD = some opt → parseIAPD opt = .ok iapd →
    ∀ p ∈ iapd.prefixes, ¬ (p.preferredLifetime = 0 ∧ p.validLifetime = 0)

theorem Exchanging.returned_answered {e : Exchanging} {outcomes : List Outcome} {g : Granted}
    (h : e.returned outcomes = some g) :
    ∃ now, g.exchanging.answered now g.reply = .done (.ok g.lease) := by
  induction outcomes generalizing e with
  | nil => cases h
  | cons o outcomes ih =>
    rw [Exchanging.returned] at h
    split at h
    · exact ih h
    · next lease reply hnext hresult =>
      cases h
      rw [Exchanging.next, hresult] at hnext
      exact ⟨o.at_, hnext⟩
    · cases h

theorem leaseFromReply_ok {now : ℤ} {serverID : Option Duid} {reply : Message} {lease : Lease}
    (h : leaseFromReply now serverID reply = .ok lease) :
    ∃ granted replyServerID, usableIAPD reply = .ok (granted, replyServerID) ∧
      lease = newLease now (serverID.getD replyServerID) granted reply.options.dnsServers := by
  unfold leaseFromReply at h
  split at h
  · cases h
  · next granted replyServerID husable =>
    cases h
    exact ⟨granted, replyServerID, husable, rfl⟩

theorem mapError_eq_ok {r : Except Unusable Lease} {lease : Lease} :
    r.mapError LeaseError.unusable = .ok lease ↔ r = .ok lease := by
  cases r <;> simp [Except.mapError]

/-- The one way to a lease: a usable IA_PD, under the server asked or else the one that replied. -/
theorem Exchanging.answered_lease {e : Exchanging} {now : ℤ} {reply : Message} {lease : Lease}
    (h : e.answered now reply = .done (.ok lease)) :
    ∃ granted replyServerID, usableIAPD reply = .ok (granted, replyServerID) ∧
      lease = newLease now (e.server.getD replyServerID) granted reply.options.dnsServers := by
  cases e with
  | renew l =>
    rw [answered, Progress.done.injEq, mapError_eq_ok] at h
    exact leaseFromReply_ok h
  | rebind l =>
    rw [answered, Progress.done.injEq, mapError_eq_ok] at h
    exact leaseFromReply_ok h
  | solicit =>
    rw [answered] at h
    split at h <;> cases h
  | request serverID offered =>
    rw [answered] at h
    split at h
    · cases h
    · next granted replyServerID husable =>
      cases h
      exact ⟨granted, replyServerID, husable, rfl⟩

section Genuine
variable {msg : Message} {offered iapd : IAPD} {serverID : Duid}

theorem Usable.iaid_iff (h : Usable msg offered iapd serverID) :
    (∀ opt, msg.options.get optionIAPD = some opt → opt.data.take 4 = clientIAID.bytes) ↔
      offered.iaid = clientIAID := by
  obtain ⟨opt, hopt, hparse⟩ := h.parsed
  have hbytes := parseIAPD_iaid hparse
  rw [hopt]
  simp only [Option.some.injEq, forall_eq', ← hbytes]
  constructor
  · intro heq
    cases hoff : offered.iaid
    rw [hoff] at heq
    cases heq
    rfl
  · intro heq
    rw [heq]

/-- No prefix was withdrawn just when every prefix kept is valid for some time. -/
theorem Usable.standing_iff (h : Usable msg offered iapd serverID) :
    (∀ p ∈ offered.prefixes, ¬ (p.preferredLifetime = 0 ∧ p.validLifetime = 0)) ↔
      ∀ p ∈ iapd.prefixes, 0 < p.validLifetime := by
  obtain ⟨opt, hopt, hparse⟩ := h.parsed
  have hdecoded := parseIAPD_decoded hparse
  rw [h.kept]
  constructor
  · intro hstanding p hp
    obtain ⟨hmem, hle⟩ := IAPD.mem_discardInvalid.mp hp
    have hpreferred := (hdecoded.preferred p hmem).nonneg
    have := hstanding p hmem
    omega
  · intro hvalid p hp hzero
    have := hvalid p (IAPD.mem_discardInvalid.mpr ⟨hp, by omega⟩)
    omega

end Genuine

/-- A lease is expired as it is granted unless all its prefixes are valid for some time. -/
theorem newLease_unexpired_iff {now : ℤ} {serverID : Duid} {iapd : IAPD}
    {dnsServers : List (FixedBytes 16)} (hne : iapd.prefixes ≠ []) :
    (newLease now serverID iapd dnsServers).acquiredAt <
        (newLease now serverID iapd dnsServers).expiresAt ↔
      ∀ p ∈ iapd.prefixes, 0 < p.validLifetime := by
  obtain ⟨hle, q, hq, heq⟩ := @shortest_spec IAPrefix.validLifetime _ hne
  have hexpires : (newLease now serverID iapd dnsServers).expiresAt =
      now + shortest IAPrefix.validLifetime iapd.prefixes := rfl
  rw [hexpires]
  change now < _ ↔ _
  constructor
  · intro hlt p hp
    have := hle p hp
    omega
  · intro hvalid
    have := hvalid q hq
    omega

/-- A lease that `Acquire`, `Renew` or `Rebind` returns is genuine just when the Reply was
proper. -/
theorem returned_genuine_iff {e : Exchanging} {outcomes : List Outcome} {g : Granted}
    (h : e.returned outcomes = some g) : g.Genuine ↔ g.exchanging.Proper g.reply := by
  obtain ⟨now, hanswered⟩ := Exchanging.returned_answered h
  obtain ⟨iapd, replyServerID, husable, hlease⟩ := Exchanging.answered_lease hanswered
  obtain ⟨offered, hu⟩ := usableIAPD_ok husable
  obtain ⟨opt, hopt, hparse⟩ := hu.parsed
  have hserver : g.lease.serverID = g.exchanging.server.getD replyServerID := by rw [hlease]; rfl
  have hprefixes : g.lease.prefixes = iapd.prefixes := by rw [hlease]; rfl
  have hlive : g.lease.acquiredAt < g.lease.expiresAt ↔
      ∀ p ∈ iapd.prefixes, 0 < p.validLifetime := by
    rw [hlease]
    exact newLease_unexpired_iff hu.acceptable.nonempty
  constructor
  · intro hg
    refine ⟨hu.iaid_iff.mpr ?_, ?_, ?_⟩
    · obtain ⟨opt', iapd', hopt', hparse', -, hiaid⟩ := hg.iaid
      cases hopt.symm.trans hopt'
      cases hparse.symm.trans hparse'
      exact hiaid
    · intro sid hsid
      rw [hg.server, hserver, hsid]
      rfl
    · intro opt' iapd' hopt' hparse'
      cases hopt.symm.trans hopt'
      cases hparse.symm.trans hparse'
      exact hu.standing_iff.mpr (hlive.mp hg.unexpired)
  · intro hp
    have hvalid := hu.standing_iff.mp (hp.standing opt offered hopt hparse)
    refine ⟨⟨opt, offered, hopt, hparse, ?_, hu.iaid_iff.mp hp.iaid⟩, ?_, ?_, hlive.mpr hvalid⟩
    · rw [hprefixes, hu.kept]
    · rw [hserver]
      cases hs : g.exchanging.server with
      | none => exact hu.server
      | some sid => exact hp.server sid hs
    · obtain ⟨p, rest, hcons⟩ := List.exists_cons_of_ne_nil hu.acceptable.nonempty
      rw [hprefixes, hcons]
      exact ⟨p, rfl, hvalid p (by simp [hcons])⟩

def sampleLease : Lease := newLease 0 [1] (sampleIAPD [samplePrefix 1 3600 7200]) []

def sampleReply (serverID : Duid) (prefixes : List IAPrefix) : Message :=
  ⟨messageTypeReply, default,
    [⟨optionServerID, serverID⟩, iapdOption { sampleIAPD prefixes with iaid := clientIAID }]⟩

theorem returned_genuine_iff_renewed :
    ∃ g, (Exchanging.renew sampleLease).returned
        [⟨sampleLease.renewAt, .ok (sampleReply [1] [samplePrefix 1 3600 7200])⟩] = some g ∧
      (g.Genuine ↔ g.exchanging.Proper g.reply) := by
  have hsome : ((Exchanging.renew sampleLease).returned
      [⟨sampleLease.renewAt, .ok (sampleReply [1] [samplePrefix 1 3600 7200])⟩]).isSome := by
    decide +kernel
  obtain ⟨g, hg⟩ := Option.isSome_iff_exists.mp hsome
  exact ⟨g, hg, returned_genuine_iff hg⟩

/-- A Reply that withdraws the old prefix and grants a new one yields a lease on the old one,
expired as it is granted. -/
theorem renumbering_yields_withdrawn_prefix :
    ∃ g, (Exchanging.renew sampleLease).returned [⟨sampleLease.renewAt,
        .ok (sampleReply [1] [samplePrefix 1 0 0, samplePrefix 2 3600 7200])⟩] = some g ∧
      ¬ g.Genuine := by
  have hany : ((Exchanging.renew sampleLease).returned [⟨sampleLease.renewAt,
      .ok (sampleReply [1] [samplePrefix 1 0 0, samplePrefix 2 3600 7200])⟩]).any
      (fun g => g.lease.expiresAt ≤ g.lease.acquiredAt) = true := by
    decide +kernel
  obtain ⟨g, hg⟩ := Option.isSome_iff_exists.mp (Option.isSome_of_any hany)
  rw [hg, Option.any_some, decide_eq_true_iff] at hany
  exact ⟨g, hg, fun hgenuine => absurd hgenuine.unexpired (not_lt.mpr hany)⟩

end Minuteman.PrefixDelegation
