import Minuteman.Dhcpv4.Index
import Minuteman.Dhcpv4.Server

/-!
# Exclusive addresses

Whatever requests reach the server, in whatever order, an address has one
client at a time: what one client holds no other is granted, and what one
client asks for changes no binding of another.
-/
namespace Minuteman.Dhcpv4
open Library

namespace Pool

structure SameService (p q : Pool) : Prop where
  inRange : ∀ ip, q.inRange ip = p.inRange ip
  duration : q.duration = p.duration

namespace SameService
variable {p q r : Pool} {c : ClientId} {ip : Addr} {now : ℤ} {state : BindingState}

theorem refl (p : Pool) : SameService p p := ⟨fun _ => rfl, rfl⟩

theorem trans (h : SameService p q) (h' : SameService q r) : SameService p r :=
  ⟨fun ip => (h'.inRange ip).trans (h.inRange ip), h'.duration.trans h.duration⟩

theorem pruned (h : Pruned now p q) : SameService p q := ⟨h.inRange, by rw [h.eq]⟩

theorem clear : SameService p (p.clear c) := ⟨fun _ => by simp, by simp⟩

theorem hold : SameService p (p.hold c ip now state) := ⟨fun _ => by simp, by simp⟩

theorem decline : SameService p (p.decline c ip now) := by
  rw [Pool.decline]
  split
  · exact refl p
  · have hdeclined : SameService p { p with
        declined := Function.update p.declined ip (some (now + declineQuarantine)) } :=
      ⟨fun _ => rfl, rfl⟩
    exact hdeclined.trans clear

end SameService

def Holds (p : Pool) (c : ClientId) (a : Addr) (e : ℤ) : Prop :=
  ∃ l, p.byClient c = some l ∧ l.ip = a ∧ l.state = .committed ∧ e ≤ l.expiry

end Pool

namespace Handled
variable {cfg : InterfaceConfig} {p : Pool} {req : Message} {clock now : ℤ}
  {r : Option Message × Pool} {c : ClientId} {l : PoolLease} {m : Message} {a : Addr} {e : ℤ}

theorem sameService (h : Handled cfg p req now r) : p.SameService r.2 := by
  cases h with
  | ungranted reply q hq _ => exact .pruned hq
  | granted q ip state mt hq _ _ _ => exact (Pool.SameService.pruned hq).trans .hold
  | cancelled l _ _ => exact .clear
  | released ip _ _ => exact .clear
  | declined ip _ _ => exact .decline

theorem sound (h : Handled cfg p req now r) (hp : p.Sound clock) (ht : clock ≤ now) :
    r.2.Sound now := by
  cases h with
  | ungranted reply q hq _ => exact hp.pruned hq ht
  | granted q ip state mt hq take _ _ =>
    exact (hp.pruned hq ht).hold ((hq.usable le_rfl ip).mpr (hp.mayTake ht take).1)
  | cancelled l _ _ => exact (hp.later ht).clear
  | released ip _ _ => exact (hp.later ht).clear
  | declined ip _ _ => exact hp.decline ht

/-- No request changes an unexpired binding of another client. -/
theorem others (h : Handled cfg p req now r) (hp : p.Sound clock) (ht : clock ≤ now)
    (hc : c ≠ req.client) (hl : p.byClient c = some l) (hlt : now < l.expiry) :
    r.2.byClient c = some l := by
  cases h with
  | ungranted reply q hq _ => rw [hq.byClient, hl]
  | granted q ip state mt hq take _ _ =>
    have hfree := (hp.mayTake ht take).2
    have hne : q.address c ≠ some ip := by
      intro haddr
      rw [Pool.address, hq.byClient, hl] at haddr
      have hbyIP : p.byIP ip = some c :=
        (hp.inverse c ip).mp (by rw [Pool.address, hl, haddr])
      have hexpired := (Pool.isFree_iff.mp hfree c hbyIP).resolve_left hc l hl
      exact absurd hlt (not_lt.mpr hexpired)
    rw [Pool.hold_byClient_of_ne (hp.pruned hq ht).inverse hc hne, hq.byClient, hl]
  | cancelled l' _ _ => simp [hc, hl]
  | released ip _ _ => simp [hc, hl]
  | declined ip _ own => simp [Pool.decline, own, hc, hl]

/-- What is granted is recorded for the client, and was free for it. -/
theorem grant (h : Handled cfg p req now r) (hm : r.1 = some m) (hg : m.granted = some a) :
    p.MayTake req.client a now ∧ ∃ state, (m.options.messageType = some .ack → state = .committed) ∧
      r.2.byClient req.client = some ⟨a, now + p.holdTime state, state⟩ := by
  cases h with
  | ungranted reply q hq hreply =>
    rw [hreply m hm] at hg
    cases hg
  | granted q ip state mt hq take _ hmt =>
    cases hm
    have hmt' : mt = .offer ∨ mt = .ack := hmt.imp id And.left
    rw [buildReply_granted hmt'] at hg
    cases hg
    refine ⟨take, state, ?_, ?_⟩
    · rw [buildReply_messageType hmt']
      intro hack
      rcases hmt with rfl | ⟨-, hstate⟩
      · cases hack
      · exact hstate
    · rw [Pool.hold_byClient_self, hq.eq]
      rfl
  | cancelled l _ _ => cases hm
  | released ip _ _ => cases hm
  | declined ip _ _ => cases hm

/-- A request gives no binding to another client. -/
theorem others_of (h : Handled cfg p req now r) (hp : p.Sound clock) (ht : clock ≤ now)
    (hc : c ≠ req.client) (hl : r.2.byClient c = some l) : p.byClient c = some l := by
  cases h with
  | ungranted reply q hq _ => rwa [hq.byClient] at hl
  | granted q ip state mt hq take _ _ =>
    have hinverse := (hp.pruned hq ht).inverse
    by_cases haddr : q.address c = some ip
    · rw [Pool.hold_byClient_evicted hinverse hc haddr] at hl
      cases hl
    · rwa [Pool.hold_byClient_of_ne hinverse hc haddr, hq.byClient] at hl
  | cancelled l' _ _ => simpa [hc] using hl
  | released ip _ _ => simpa [hc] using hl
  | declined ip _ own => simpa [Pool.decline, own, hc] using hl

/-- A client that keeps a binding keeps its address, for what was left of it or a full lease. -/
theorem own (h : Handled cfg p req now r) (hp : p.Sound clock) (ht : clock ≤ now) {b : PoolLease}
    (hl : p.byClient req.client = some l) (hstate : l.state = .committed) (hlt : now < l.expiry)
    (hb : r.2.byClient req.client = some b) :
    b.ip = l.ip ∧ (b = l ∨ b.expiry = now + p.duration) := by
  cases h with
  | ungranted reply q hq _ =>
    rw [hq.byClient, hl] at hb
    cases hb
    exact ⟨rfl, .inl rfl⟩
  | granted q ip state mt hq _ hown _ =>
    obtain ⟨rfl, hcommitted⟩ := hown l hl hlt ((hp.usable _ l hl).later ht)
    rw [Pool.hold_byClient_self, hcommitted hstate] at hb
    cases hb
    exact ⟨rfl, .inr (by rw [hq.eq]; rfl)⟩
  | cancelled l' _ _ => simp at hb
  | released ip _ _ => simp at hb
  | declined ip _ hown => simp [Pool.decline, hown] at hb

/-- A binding the client did not have before runs for at most a full lease. -/
theorem committed_until (h : Handled cfg p req now r) {b : PoolLease}
    (hb : r.2.byClient req.client = some b) (hstate : b.state = .committed) :
    p.byClient req.client = some b ∨ b.expiry = now + p.duration := by
  cases h with
  | ungranted reply q hq _ =>
    rw [hq.byClient] at hb
    exact .inl hb
  | granted q ip state mt hq _ _ _ =>
    rw [Pool.hold_byClient_self] at hb
    cases hb
    cases hstate
    exact .inr (by rw [hq.eq]; rfl)
  | cancelled l' _ _ => simp at hb
  | released ip _ _ => simp at hb
  | declined ip _ hown => simp [Pool.decline, hown] at hb

/-- A committed binding lasts until its end, unless its own client gives it up. -/
theorem holds (h : Handled cfg p req now r) (hp : p.Sound clock) (ht : clock ≤ now)
    (hheld : p.Holds c a e) (he : e ≤ now + p.duration) (hlt : now < e)
    (hkeep : req.client = c → ¬ req.GivesUp cfg a) : r.2.Holds c a e := by
  obtain ⟨l, hl, rfl, hstate, hle⟩ := hheld
  have hlive : now < l.expiry := hlt.trans_le hle
  by_cases hc : c = req.client
  · subst hc
    have howned : ∀ ip, p.byIP ip = some req.client → ip = l.ip := by
      intro ip hip
      have haddr := (hp.inverse req.client ip).mpr hip
      rw [Pool.address, hl] at haddr
      exact (Option.some.inj haddr).symm
    cases h with
    | ungranted reply q hq _ => exact ⟨l, by rw [hq.byClient, hl], rfl, hstate, hle⟩
    | granted q ip state mt hq _ own _ =>
      obtain ⟨rfl, hcommitted⟩ := own l hl hlive ((hp.usable _ l hl).later ht)
      refine ⟨_, Pool.hold_byClient_self, rfl, hcommitted hstate, ?_⟩
      rw [hcommitted hstate, hq.eq]
      exact he
    | cancelled l' hl' hoffered =>
      cases hl.symm.trans hl'
      rw [hstate] at hoffered
      cases hoffered
    | released ip gives own => exact absurd (howned ip own ▸ gives) (hkeep rfl)
    | declined ip gives own => exact absurd (howned ip own ▸ gives) (hkeep rfl)
  · exact ⟨l, h.others hp ht hc hl hlive, rfl, hstate, hle⟩

/-- What another client holds is not granted. -/
theorem not_granted (h : Handled cfg p req now r) (hp : p.Sound clock) (ht : clock ≤ now)
    (hc : c ≠ req.client) (hl : p.byClient c = some l) (hlt : now < l.expiry) (hm : r.1 = some m) :
    m.granted ≠ some l.ip := by
  intro hg
  have hkept := h.others hp ht hc hl hlt
  obtain ⟨-, state, -, hnew⟩ := h.grant hm hg
  apply hc
  apply (h.sound hp ht).inverse.unique (b := l.ip)
  · rw [Pool.address, hkept]
    rfl
  · rw [Pool.address, hnew]
    rfl

/-- A quarantine is not lifted before its time. -/
theorem quarantined (h : Handled cfg p req now r) (hp : p.Sound clock) (ht : clock ≤ now) {u : ℤ}
    (hu : p.declined a = some u) (hlt : now < u) : r.2.declined a = some u := by
  cases h with
  | ungranted reply q hq _ => exact hq.declined_of_lt hu hlt
  | granted q ip state mt hq _ _ _ => simpa using hq.declined_of_lt hu hlt
  | cancelled l _ _ => simpa using hu
  | released ip _ _ => simpa using hu
  | declined ip _ own =>
    have hne : a ≠ ip := by
      rintro rfl
      obtain ⟨l, hl, hip⟩ := Option.map_eq_some_iff.mp ((hp.inverse _ a).mpr own)
      have hle := ((hp.usable _ l hl).later ht).2 u (by rw [hip, hu])
      omega
    simp [Pool.decline, own, hne, hu]

end Handled

/-- The pool between requests, and the time of the last one. -/
structure Served where
  pool : Pool
  clock : ℤ

namespace Served

def step (cfg : InterfaceConfig) (s : Served) (r : Message × ℤ) : Served where
  pool := (handle cfg s.pool r.1 r.2).2
  clock := r.2

def InOrder (s : Served) (r : Message × ℤ) : Prop := s.clock ≤ r.2

/-- The state of a server started on `p`. -/
structure From (p : Pool) (s : Served) : Prop where
  sound : s.pool.Sound s.clock
  service : p.SameService s.pool

theorem From.step {cfg : InterfaceConfig} {p : Pool} (s : Served) (r : Message × ℤ) (h : s.From p)
    (hr : s.InOrder r) : (s.step cfg r).From p where
  sound := (handle_handled cfg s.pool r.1 r.2).sound h.sound hr
  service := h.service.trans (handle_handled cfg s.pool r.1 r.2).sameService

end Served

namespace Pool
variable {p : Pool} {c c' : ClientId} {l : Lease} {now : ℤ}

def Live (p : Pool) (now : ℤ) : Prop := ∀ c l, p.byClient c = some l → now < l.expiry

theorem Live.not_displaces (h : p.Live now) : ¬ p.Displaces c l now := by
  rintro ⟨-, -, owner, b, -, -, hb, hexpired⟩
  exact hexpired (h owner b hb)

theorem Live.restore (h : p.Live now) : (p.restore c l now).2.Live now := by
  intro c' b hb
  rw [restore_byClient] at hb
  split at hb
  case isTrue htaken =>
    by_cases hc : c' = c
    · subst hc
      rw [Function.update_self] at hb
      cases hb
      exact (restore_taken.mp htaken).1
    · rw [Function.update_of_ne hc] at hb
      exact h c' b hb
  case isFalse => exact h c' b hb

theorem SameService.restore : SameService p (p.restore c l now).2 := by
  rcases p.restore_cases c l now with ⟨-, q, hq, heq⟩ | ⟨-, q, hq, heq⟩
  · rw [heq]
    exact .pruned hq
  · rw [heq]
    have hclear : SameService p (q.clear c) := (SameService.pruned hq).trans .clear
    exact ⟨hclear.inRange, hclear.duration⟩

end Pool

structure Restored (p q : Pool) (now : ℤ) : Prop where
  sound : q.Sound now
  live : q.Live now
  service : p.SameService q

theorem Restored.restore {p q : Pool} {now : ℤ} (h : Restored p q now) (c : ClientId) (l : Lease) :
    Restored p (q.restore c l now).2 now where
  sound := h.sound.restore le_rfl h.live.not_displaces
  live := h.live.restore
  service := h.service.trans .restore

/-- What restoring a lease keeps, restoring all that were kept does. -/
theorem restore_invariant {now : ℤ} {I : Pool → Prop}
    (hrestore : ∀ q c l, I q → I (q.restore c l now).2) (kept : List (ClientId × Lease)) {p : Pool}
    (hp : I p) : I (restore p kept now).1 := by
  have hstart : I (p, ([] : List ClientId)).1 := hp
  apply List.foldlRecOn (motive := fun acc => I acc.1) kept (restoreStep now) hstart
  intro acc hacc entry _
  have hnext := hrestore acc.1 entry.1 entry.2 hacc
  rw [restoreStep]
  split
  case h_1 q heq => rwa [heq] at hnext
  case h_2 q heq => rwa [heq] at hnext

theorem newPool_live {subnet : Prefix} {serverIP : Addr} {duration : ℤ} {p : Pool}
    (hp : newPool subnet serverIP duration = .ok p) (now : ℤ) : p.Live now := by
  intro c l hl
  rw [newPool_eq hp] at hl
  cases hl

theorem newPool_restored {subnet : Prefix} {serverIP : Addr} {duration : ℤ} {p : Pool}
    (hp : newPool subnet serverIP duration = .ok p) (kept : List (ClientId × Lease)) (now : ℤ) :
    Restored p (restore p kept now).1 now := by
  apply restore_invariant (I := fun q => Restored p q now)
  · intro q c l h
    exact h.restore c l
  · exact ⟨newPool_sound hp now, newPool_live hp now, .refl p⟩

namespace Served
variable {cfg : InterfaceConfig} {p : Pool} {s : Served} {c : ClientId} {a : Addr} {e : ℤ}

theorem clock_le_last (requests : List (Message × ℤ)) (last : Message × ℤ)
    (h : Along (step cfg) InOrder s (requests ++ [last])) : s.clock ≤ last.2 := by
  induction requests generalizing s with
  | nil => exact h.1
  | cons r requests ih => exact h.1.trans (ih h.2)

/-- A committed binding is still there when a request arrives before its end, unless its own
client gave it up in between. -/
theorem holds_until (requests : List (Message × ℤ)) (last : Message × ℤ) (hs : s.From p)
    (hheld : s.pool.Holds c a e) (he : e ≤ s.clock + p.duration)
    (hrun : Along (step cfg) InOrder s (requests ++ [last])) (hlast : last.2 < e)
    (hkeep : ∀ r ∈ requests, r.1.client = c → ¬ r.1.GivesUp cfg a) :
    (requests.foldl (step cfg) s).From p ∧ (requests.foldl (step cfg) s).pool.Holds c a e ∧
      (requests.foldl (step cfg) s).clock ≤ last.2 := by
  induction requests generalizing s with
  | nil => exact ⟨hs, hheld, hrun.1⟩
  | cons r requests ih =>
    have hr : s.clock ≤ r.2 := hrun.1
    have hle : r.2 ≤ last.2 := clock_le_last requests last hrun.2
    have hnext : (s.step cfg r).pool.Holds c a e := by
      apply (handle_handled cfg s.pool r.1 r.2).holds hs.sound hr hheld
      · rw [hs.service.duration]
        omega
      · omega
      · exact hkeep r (List.mem_cons_self ..)
    exact ih (From.step s r hs hr) hnext (he.trans (by simpa [step] using hr)) hrun.2
      fun r' hr' => hkeep r' (List.mem_cons_of_mem _ hr')

end Served

/-- What holds of a server of `subnet` between any two requests, about the next one handled. -/
structure Exclusive (cfg : InterfaceConfig) (subnet : Prefix) (serverIP : Addr) (duration : ℤ)
    (s : Served) : Prop where
  /-- No two clients hold unexpired bindings on one address. -/
  apart : ∀ c c' l l', s.pool.byClient c = some l → s.pool.byClient c' = some l' →
    s.clock < l.expiry → s.clock < l'.expiry → l.ip = l'.ip → c = c'
  /-- What is granted is in range and not under quarantine. -/
  granted : ∀ req now m ip, s.clock ≤ now → (handle cfg s.pool req now).1 = some m →
    m.granted = some ip →
    subnet.masked.contains ip = true ∧ ip ≠ subnet.masked.addr ∧ ip ≠ lastAddr subnet.masked ∧
      ip ≠ serverIP ∧ ∀ untilTime, s.pool.declined ip = some untilTime → untilTime ≤ now
  /-- No quarantine is lifted before its time. -/
  quarantined : ∀ req now a untilTime, s.clock ≤ now → s.pool.declined a = some untilTime →
    now < untilTime → (handle cfg s.pool req now).2.declined a = some untilTime
  /-- An unexpired binding of another client is left as it is, and its address not granted. -/
  undisturbed : ∀ req now c l, s.clock ≤ now → c ≠ req.client → s.pool.byClient c = some l →
    now < l.expiry → (handle cfg s.pool req now).2.byClient c = some l ∧
      ∀ m, (handle cfg s.pool req now).1 = some m → m.granted ≠ some l.ip
  /-- An address acknowledged is granted to no other client before the lease ends, unless its
  client gives it up. -/
  acknowledged : ∀ req now m a, s.clock ≤ now → (handle cfg s.pool req now).1 = some m →
    m.options.messageType = some .ack → m.granted = some a →
    ∀ requests req' now' m',
      Along (Served.step cfg) Served.InOrder (s.step cfg (req, now)) (requests ++ [(req', now')]) →
      now' < now + duration →
      (∀ r ∈ requests, r.1.client = req.client → ¬ r.1.GivesUp cfg a) →
      req'.client ≠ req.client →
      (handle cfg (requests.foldl (Served.step cfg) (s.step cfg (req, now))).pool req' now').1 =
        some m' →
      m'.granted ≠ some a

/-- The bindings of a server are exclusive after any requests. -/
theorem bindings_exclusive {subnet : Prefix} {serverIP : Addr} {duration : ℤ} {p : Pool}
    (hp : newPool subnet serverIP duration = .ok p) (cfg : InterfaceConfig)
    (kept : List (ClientId × Lease)) (start : ℤ) (requests : List (Message × ℤ))
    (hrun : Along (Served.step cfg) Served.InOrder ⟨(restore p kept start).1, start⟩ requests) :
    Exclusive cfg subnet serverIP duration
      (requests.foldl (Served.step cfg) ⟨(restore p kept start).1, start⟩) := by
  have hstart := newPool_restored hp kept start
  have hs : (requests.foldl (Served.step cfg) ⟨(restore p kept start).1, start⟩).From p :=
    hrun.invariant Served.From.step ⟨hstart.sound, hstart.service⟩
  generalize requests.foldl (Served.step cfg) ⟨(restore p kept start).1, start⟩ = s at hs
  have hhandled := fun req now => handle_handled cfg s.pool req now
  constructor
  · intro c c' l l' hl hl' _ _ hip
    apply hs.sound.inverse.unique (b := l.ip)
    · simp [Pool.address, hl]
    · simp [Pool.address, hl', hip]
  · intro req now m ip ht hm hg
    obtain ⟨htake, -⟩ := (hhandled req now).grant hm hg
    obtain ⟨hrange, hdeclined⟩ := (hs.sound.mayTake ht htake).1
    rw [hs.service.inRange, newPool_eq hp] at hrange
    simp only [Pool.inRange, Bool.and_eq_true, bne_iff_ne] at hrange
    exact ⟨hrange.1.1.1, hrange.1.1.2, hrange.1.2, hrange.2, hdeclined⟩
  · intro req now a u ht hu hlt
    exact (hhandled req now).quarantined hs.sound ht hu hlt
  · intro req now c l ht hc hl hlt
    exact ⟨(hhandled req now).others hs.sound ht hc hl hlt,
      fun m hm => (hhandled req now).not_granted hs.sound ht hc hl hlt hm⟩
  · intro req now m a ht hm hack hg later req' now' m' hlater hlt hkeep hc hm'
    obtain ⟨-, state, hstate, hbound⟩ := (hhandled req now).grant hm hg
    have hduration : s.pool.duration = duration := by
      rw [hs.service.duration, newPool_eq hp]
    have hheld : (s.step cfg (req, now)).pool.Holds req.client a (now + duration) := by
      refine ⟨_, hbound, rfl, hstate hack, ?_⟩
      rw [hstate hack, Pool.holdTime, hduration]
    have hpduration : p.duration = duration := by rw [newPool_eq hp]
    obtain ⟨hfrom, ⟨l, hl, rfl, -, hle⟩, hclock⟩ := Served.holds_until later (req', now')
      (Served.From.step s (req, now) hs ht) hheld (by rw [hpduration]; exact le_rfl) hlater hlt
      hkeep
    exact (handle_handled cfg _ req' now').not_granted hfrom.sound hclock hc.symm hl
      (hlt.trans_le hle) hm'

def sampleConfig : InterfaceConfig where
  serverIP := sampleServer
  subnet := sampleSubnet
  dnsServers := []
  mtu := 0
  leaseTime := 3600 * second

def offeredServed : Served :=
  [(discoverFrom [1], second)].foldl (Served.step sampleConfig)
    ⟨(restore samplePool [([9], ⟨0xC0A80103, 60 * second⟩)] 0).1, 0⟩

theorem bindings_exclusive_offered :
    Exclusive sampleConfig sampleSubnet sampleServer (3600 * second) offeredServed ∧
    ((handle sampleConfig offeredServed.pool (requestFrom [1] sampleServer 0xC0A80102)
      (2 * second)).1.bind Message.granted) = some 0xC0A80102 :=
  have hclock : (0 : ℤ) ≤ second := by decide
  ⟨bindings_exclusive newPool_sample sampleConfig _ 0 _ ⟨hclock, trivial⟩, by decide⟩

end Minuteman.Dhcpv4
