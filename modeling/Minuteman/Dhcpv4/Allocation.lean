import Minuteman.Dhcpv4.Exclusivity

/-!
# Allocation is complete

Which address an offer reserves. The pool judges an address by its reverse
index and searches the subnet in increasing order; as long as the two indexes
are mutually inverse, an offer fails only when there is nothing left to offer.
-/
namespace Minuteman.Dhcpv4
open Library

namespace Prefix

theorem masked_aligned (s : Prefix) : 2 ^ (32 - s.bits) ∣ s.masked.addr.toNat := by
  have hlt : s.addr.toNat / 2 ^ (32 - s.bits) * 2 ^ (32 - s.bits) < 2 ^ 32 :=
    (Nat.div_mul_le_self _ _).trans_lt s.addr.toNat_lt
  rw [masked, UInt32.toNat_ofNat_of_lt' hlt]
  exact Nat.dvd_mul_left ..

/-- The addresses of a masked prefix are consecutive. -/
theorem contains_masked (s : Prefix) (a : Addr) : s.masked.contains a = true ↔
    s.masked.addr.toNat ≤ a.toNat ∧ a.toNat < s.masked.addr.toNat + 2 ^ (32 - s.bits) := by
  obtain ⟨k, hk⟩ := s.masked_aligned
  have hpos : 0 < 2 ^ (32 - s.bits) := Nat.two_pow_pos _
  have hbits : s.masked.bits = s.bits := rfl
  rw [contains, beq_iff_eq, hbits, hk, Nat.mul_div_cancel_left k hpos, Nat.div_eq_iff hpos,
    mul_comm k]
  omega

end Prefix

/-- An address of the subnet that is none of the network, broadcast and server address. -/
def Host (subnet : Prefix) (serverIP a : Addr) : Prop :=
  subnet.masked.contains a = true ∧ a ≠ subnet.masked.addr ∧ a ≠ lastAddr subnet.masked ∧
    a ≠ serverIP

namespace Pool

def Quarantined (p : Pool) (a : Addr) (now : ℤ) : Prop := ∃ u, p.declined a = some u ∧ now < u

def HeldByOther (p : Pool) (c : ClientId) (a : Addr) (now : ℤ) : Prop :=
  ∃ c' l, c' ≠ c ∧ p.byClient c' = some l ∧ l.ip = a ∧ now < l.expiry

/-- `a` may be handed out, and no other client than `c` holds it. -/
def Available (subnet : Prefix) (serverIP : Addr) (p : Pool) (c : ClientId) (a : Addr) (now : ℤ) :
    Prop :=
  (Host subnet serverIP a ∧ ¬ p.Quarantined a now) ∧ ¬ p.HeldByOther c a now

def NoneOwn (subnet : Prefix) (serverIP : Addr) (p : Pool) (c : ClientId) (now : ℤ) : Prop :=
  ∀ l, p.byClient c = some l → now < l.expiry → ¬ (Host subnet serverIP l.ip ∧
    ¬ p.Quarantined l.ip now)

/-- What a pool of `subnet` keeps whatever the order of the times it is given. -/
structure Formed (subnet : Prefix) (serverIP : Addr) (p : Pool) : Prop where
  subnet_eq : p.subnet = subnet.masked
  network_eq : p.network = subnet.masked.addr
  broadcast_eq : p.broadcast = lastAddr subnet.masked
  serverIP_eq : p.serverIP = serverIP
  inverse : MutuallyInverse p.address p.byIP
  hosts : ∀ c l, p.byClient c = some l → Host subnet serverIP l.ip

namespace Formed
variable {subnet : Prefix} {serverIP : Addr} {p q : Pool} {c : ClientId} {a ip : Addr} {now : ℤ}
  {state : BindingState}

theorem usable_iff (h : p.Formed subnet serverIP) :
    p.Usable a now ↔ Host subnet serverIP a ∧ ¬ p.Quarantined a now := by
  simp [Usable, inRange, Host, Quarantined, h.subnet_eq, h.network_eq, h.broadcast_eq, h.serverIP_eq,
    and_assoc]

/-- What a client may take is the address of a host. -/
theorem host_of_mayTake (h : p.Formed subnet serverIP) (htake : p.MayTake c ip now) :
    Host subnet serverIP ip := by
  rcases htake with ⟨husable, -⟩ | ⟨l, hl, rfl⟩
  · exact (h.usable_iff.mp husable).1
  · exact h.hosts c l hl

theorem pruned (h : p.Formed subnet serverIP) (hq : Pruned now p q) :
    q.Formed subnet serverIP := by
  rw [hq.eq]
  exact ⟨h.subnet_eq, h.network_eq, h.broadcast_eq, h.serverIP_eq, h.inverse, h.hosts⟩

theorem clear (h : p.Formed subnet serverIP) : (p.clear c).Formed subnet serverIP := by
  have hinverse := clear_inverse (c := c) h.inverse
  have hhosts : ∀ c' l, (p.clear c).byClient c' = some l → Host subnet serverIP l.ip := by
    intro c' l hl
    rw [clear_byClient, Function.update_apply] at hl
    split at hl
    · cases hl
    · exact h.hosts c' l hl
  cases hc : p.byClient c with
  | none => rwa [clear_of_none hc]
  | some l =>
    rw [clear_of_some hc] at hinverse hhosts ⊢
    exact ⟨h.subnet_eq, h.network_eq, h.broadcast_eq, h.serverIP_eq, hinverse, hhosts⟩

theorem hold (h : p.Formed subnet serverIP) (hhost : Host subnet serverIP ip) :
    (p.hold c ip now state).Formed subnet serverIP := by
  have hinverse : MutuallyInverse (p.hold c ip now state).address (p.hold c ip now state).byIP :=
    hold_inverse h.inverse
  have hhosts : ∀ c' l, (p.hold c ip now state).byClient c' = some l → Host subnet serverIP l.ip := by
    intro c' l hl
    by_cases hc : c' = c
    · subst hc
      cases hold_byClient_self.symm.trans hl
      exact hhost
    · by_cases haddr : p.address c' = some ip
      · rw [hold_byClient_evicted h.inverse hc haddr] at hl
        cases hl
      · rw [hold_byClient_of_ne h.inverse hc haddr] at hl
        exact h.hosts c' l hl
  have hclear := h.clear (c := c)
  rw [hold_eq] at hinverse hhosts ⊢
  exact ⟨hclear.subnet_eq, hclear.network_eq, hclear.broadcast_eq, hclear.serverIP_eq, hinverse,
    hhosts⟩

theorem decline (h : p.Formed subnet serverIP) : (p.decline c ip now).Formed subnet serverIP := by
  rw [Pool.decline]
  split
  · exact h
  · have hdeclined : Pool.Formed subnet serverIP { p with
        declined := Function.update p.declined ip (some (now + declineQuarantine)) } :=
      ⟨h.subnet_eq, h.network_eq, h.broadcast_eq, h.serverIP_eq, h.inverse, h.hosts⟩
    exact hdeclined.clear

theorem offered (h : p.Formed subnet serverIP) {r : Option Addr × Pool}
    (hr : Offered p c now r) : r.2.Formed subnet serverIP := by
  cases hr with
  | exhausted q hq => exact h.pruned hq
  | reserved q ip state hq take own => exact (h.pruned hq).hold (h.host_of_mayTake take)

theorem handled {cfg : InterfaceConfig} {req : Message} (h : p.Formed subnet serverIP)
    {r : Option Message × Pool} (hr : Handled cfg p req now r) : r.2.Formed subnet serverIP := by
  cases hr with
  | ungranted reply q hq _ => exact h.pruned hq
  | granted q ip state mt hq take _ _ => exact (h.pruned hq).hold (h.host_of_mayTake take)
  | cancelled l _ _ => exact h.clear
  | released ip _ _ => exact h.clear
  | declined ip _ _ => exact h.decline

theorem restore {l : Lease} (h : p.Formed subnet serverIP) (hp : p.Sound now) (hlive : p.Live now) :
    (p.restore c l now).2.Formed subnet serverIP := by
  have hinverse := (hp.restore le_rfl (hlive.not_displaces (c := c) (l := l))).inverse
  rcases p.restore_cases c l now with ⟨-, q, hq, heq⟩ | ⟨⟨-, husable, -⟩, q, hq, heq⟩
  · rw [heq]
    exact h.pruned hq
  · have hclear := (h.pruned hq).clear (c := c)
    rw [heq] at hinverse ⊢
    refine ⟨hclear.subnet_eq, hclear.network_eq, hclear.broadcast_eq, hclear.serverIP_eq, hinverse,
      fun c' b hb => ?_⟩
    dsimp only at hb
    rw [Function.update_apply] at hb
    split at hb
    · cases hb
      exact (h.usable_iff.mp husable).1
    · exact hclear.hosts c' b hb

theorem isFree_iff (h : p.Formed subnet serverIP) :
    p.isFree a c now = true ↔ ¬ p.HeldByOther c a now := by
  rw [Pool.isFree_iff]
  constructor
  · rintro hfree ⟨c', l, hc, hl, rfl, hlt⟩
    have howner : p.byIP l.ip = some c' := (h.inverse c' l.ip).mp (by simp [address, hl])
    have hexpired := (hfree c' howner).resolve_left hc l hl
    omega
  · intro hheld owner howner
    by_cases hc : owner = c
    · exact .inl hc
    · refine .inr fun l hl => ?_
      have haddr := (h.inverse owner a).mpr howner
      rw [address, hl] at haddr
      by_contra hlt
      exact hheld ⟨owner, l, hc, hl, Option.some.inj haddr, by omega⟩

end Formed

/-- The loop of `nextFree` in the source, from the loop variable `start`: it ends with a result
after finitely many turns. -/
inductive Searched (c : ClientId) (now : ℤ) : Pool → Option Addr → Option Addr × Pool → Prop
  | invalid (p : Pool) : Searched c now p none (none, p)
  | outside (p : Pool) (ip : Addr) (hout : p.subnet.contains ip = false) :
      Searched c now p (some ip) (none, p)
  | found (p : Pool) (ip : Addr) (hin : p.subnet.contains ip = true)
      (hfree : (p.allocatable ip now).1 = true ∧ (p.allocatable ip now).2.isFree ip c now = true) :
      Searched c now p (some ip) (some ip, (p.allocatable ip now).2)
  | next (p : Pool) (ip : Addr) (r : Option Addr × Pool) (hin : p.subnet.contains ip = true)
      (htaken : ¬ ((p.allocatable ip now).1 = true ∧
        (p.allocatable ip now).2.isFree ip c now = true))
      (rest : Searched c now (p.allocatable ip now).2 ip.next r) : Searched c now p (some ip) r

theorem Addr.next_toNat {a b : Addr} (h : Addr.next a = some b) : b.toNat = a.toNat + 1 := by
  rw [Addr.next] at h
  split at h
  · cases h
  case isFalse hlast =>
    cases h
    have hne : a.toNat ≠ 4294967295 := fun heq => hlast (UInt32.toNat_inj.mp heq)
    have hlt := a.toNat_lt
    rw [UInt32.toNat_add, UInt32.toNat_one]
    exact Nat.mod_eq_of_lt (by omega)

theorem Addr.exists_next {a b : Addr} (h : a.toNat < b.toNat) : ∃ a', Addr.next a = some a' := by
  have hne : a ≠ 0xffffffff := by
    rintro rfl
    have hlt := b.toNat_lt
    have hlast : (0xffffffff : UInt32).toNat = 4294967295 := rfl
    omega
  exact ⟨a + 1, if_neg hne⟩

/-- The turns counted by `nextFreeFrom` are enough. -/
theorem Formed.nextFreeFrom_searched {subnet : Prefix} {serverIP : Addr} {p : Pool}
    (h : p.Formed subnet serverIP) (c : ClientId) (now : ℤ) (fuel : ℕ) (start : Option Addr)
    (hfuel : ∀ ip, start = some ip →
      subnet.masked.addr.toNat + 2 ^ (32 - subnet.bits) ≤ ip.toNat + fuel) :
    Searched c now p start (p.nextFreeFrom c now fuel start) := by
  induction fuel generalizing p start with
  | zero =>
    cases start with
    | none => exact .invalid p
    | some ip =>
      apply Searched.outside
      rw [h.subnet_eq, Bool.eq_false_iff, ne_eq, subnet.contains_masked]
      have hle := hfuel ip rfl
      omega
  | succ fuel ih =>
    cases start with
    | none => exact .invalid p
    | some ip =>
      have hpruned := (p.allocatable_spec ip now).1
      rw [nextFreeFrom]
      split
      case isTrue hout => exact .outside p ip (by simpa using hout)
      case isFalse hin =>
        have hin := not_not.mp hin
        dsimp only
        split
        case isTrue hfree => exact .found p ip hin (by simpa using hfree)
        case isFalse htaken =>
          refine .next p ip _ hin (by simpa using htaken) (ih (h.pruned hpruned) _ ?_)
          intro ip' hip'
          have hle := hfuel ip rfl
          rw [Addr.next_toNat hip']
          omega

theorem Formed.nextFree_searched {subnet : Prefix} {serverIP : Addr} {p : Pool}
    (h : p.Formed subnet serverIP) (c : ClientId) (now : ℤ) :
    Searched c now p p.network.next (p.nextFree c now) := by
  apply h.nextFreeFrom_searched
  intro ip hip
  have hbits : p.subnet.bits = subnet.bits := by rw [h.subnet_eq]; rfl
  rw [Addr.next_toNat hip, h.network_eq, hbits]
  omega

/-- The search passes over no address that could be given to the client. -/
theorem Searched.least {subnet : Prefix} {serverIP : Addr} {p : Pool} {c : ClientId} {now : ℤ}
    {start : Option Addr} {r : Option Addr × Pool} (hs : Searched c now p start r)
    (h : p.Formed subnet serverIP) {a : Addr}
    (hstart : ∃ ip, start = some ip ∧ subnet.masked.addr.toNat ≤ ip.toNat ∧ ip.toNat ≤ a.toNat)
    (husable : p.Usable a now) (hfree : p.isFree a c now = true) :
    ∃ ip, r.1 = some ip ∧ ip ≤ a := by
  induction hs with
  | invalid p =>
    obtain ⟨ip, hip, -⟩ := hstart
    cases hip
  | outside p ip hout =>
    obtain ⟨ip', hip, hlow, hle⟩ := hstart
    cases hip
    have hin := (subnet.contains_masked a).mp (h.usable_iff.mp husable).1.1
    rw [h.subnet_eq, (subnet.contains_masked ip).mpr ⟨hlow, by omega⟩] at hout
    cases hout
  | found p ip hin hfound =>
    obtain ⟨ip', hip, -, hle⟩ := hstart
    cases hip
    exact ⟨ip, rfl, hle⟩
  | next p ip r hin htaken rest ih =>
    obtain ⟨ip', hip, hlow, hle⟩ := hstart
    cases hip
    obtain ⟨hpruned, hok⟩ := p.allocatable_spec ip now
    rw [hok, hpruned.isFree] at htaken
    have hne : ip ≠ a := by
      rintro rfl
      exact htaken ⟨husable, hfree⟩
    have hlt : ip.toNat < a.toNat := lt_of_le_of_ne hle fun heq => hne (UInt32.toNat_inj.mp heq)
    obtain ⟨ip', hip'⟩ := Addr.exists_next hlt
    apply ih (h.pruned hpruned)
    · have hsucc := Addr.next_toNat hip'
      exact ⟨ip', hip', by omega, by omega⟩
    · exact (hpruned.usable le_rfl a).mpr husable
    · rwa [hpruned.isFree]

theorem Formed.nextFree_least {subnet : Prefix} {serverIP : Addr} {p : Pool} {c : ClientId}
    {now : ℤ} (h : p.Formed subnet serverIP) {a : Addr} (husable : p.Usable a now)
    (hfree : p.isFree a c now = true) : ∃ ip, (p.nextFree c now).1 = some ip ∧ ip ≤ a := by
  obtain ⟨hin, hne, -⟩ := (h.usable_iff.mp husable).1
  have hlow := ((subnet.contains_masked a).mp hin).1
  rw [← h.network_eq] at hne hlow
  have hlt : p.network.toNat < a.toNat :=
    lt_of_le_of_ne hlow fun heq => hne (UInt32.toNat_inj.mp heq.symm)
  obtain ⟨first, hfirst⟩ := Addr.exists_next hlt
  have hsucc := Addr.next_toNat hfirst
  apply (h.nextFree_searched c now).least h ⟨first, hfirst, ?_⟩ husable hfree
  rw [← h.network_eq]
  omega

/-- The address an offer picks, as of the pool it is asked of: the client's own, else the one
requested, else the lowest that can be given to it. -/
inductive Choice (subnet : Prefix) (serverIP : Addr) (p : Pool) (c : ClientId)
    (requested : Option Addr) (now : ℤ) : Option Addr → Prop
  | own (l : PoolLease) (hl : p.byClient c = some l) (hlt : now < l.expiry)
      (hhost : Host subnet serverIP l.ip) (hquarantine : ¬ p.Quarantined l.ip now) :
      Choice subnet serverIP p c requested now (some l.ip)
  | requested (ip : Addr) (hip : requested = some ip) (hown : p.NoneOwn subnet serverIP c now)
      (hgive : p.Available subnet serverIP c ip now) :
      Choice subnet serverIP p c requested now (some ip)
  | lowest (ip : Addr) (hown : p.NoneOwn subnet serverIP c now)
      (hrequested : ∀ a, requested = some a → ¬ p.Available subnet serverIP c a now)
      (hgive : p.Available subnet serverIP c ip now)
      (hleast : ∀ a, p.Available subnet serverIP c a now → ip ≤ a) :
      Choice subnet serverIP p c requested now (some ip)
  | exhausted (hown : p.NoneOwn subnet serverIP c now)
      (hnone : ∀ a, Host subnet serverIP a → p.Quarantined a now ∨ p.HeldByOther c a now) :
      Choice subnet serverIP p c requested now none

section Choosing
variable {subnet : Prefix} {serverIP : Addr} {p q : Pool} {c : ClientId} {requested : Option Addr}
  {a ip : Addr} {now : ℤ}

theorem Formed.available_iff (h : p.Formed subnet serverIP) :
    p.Available subnet serverIP c a now ↔ p.Usable a now ∧ p.isFree a c now = true := by
  rw [Available, h.usable_iff, h.isFree_iff]

theorem Pruned.quarantined (hq : Pruned now p q) : q.Quarantined a now ↔ p.Quarantined a now := by
  rw [Quarantined, Quarantined]
  rcases hq.declined a with heq | ⟨heq, u, hu, hle⟩
  · rw [heq]
  · simp [heq, hu, hle]

theorem Pruned.heldByOther (hq : Pruned now p q) :
    q.HeldByOther c a now ↔ p.HeldByOther c a now := by
  rw [HeldByOther, HeldByOther, hq.byClient]

theorem Pruned.available (hq : Pruned now p q) :
    q.Available subnet serverIP c a now ↔ p.Available subnet serverIP c a now := by
  rw [Available, Available, hq.quarantined, hq.heldByOther]

theorem Pruned.noneOwn (hq : Pruned now p q) :
    q.NoneOwn subnet serverIP c now ↔ p.NoneOwn subnet serverIP c now := by
  simp only [NoneOwn, hq.byClient, hq.quarantined]

theorem Choice.of_pruned {choice : Option Addr} (hq : Pruned now p q)
    (h : q.Choice subnet serverIP c requested now choice) :
    p.Choice subnet serverIP c requested now choice := by
  cases h with
  | own l hl hlt hhost hquarantine =>
    rw [hq.byClient] at hl
    rw [hq.quarantined] at hquarantine
    exact .own l hl hlt hhost hquarantine
  | requested ip hip hown hgive =>
    exact .requested ip hip (hq.noneOwn.mp hown) (hq.available.mp hgive)
  | lowest ip hown hrequested hgive hleast =>
    simp only [hq.available] at hrequested hgive hleast
    exact .lowest ip (hq.noneOwn.mp hown) hrequested hgive hleast
  | exhausted hown hnone =>
    simp only [hq.quarantined, hq.heldByOther] at hnone
    exact .exhausted (hq.noneOwn.mp hown) hnone

theorem Formed.offerLowest_choice (h : p.Formed subnet serverIP)
    (hown : p.NoneOwn subnet serverIP c now)
    (hrequested : ∀ a, requested = some a → ¬ p.Available subnet serverIP c a now) :
    p.Choice subnet serverIP c requested now (p.offerLowest c now).1 := by
  have hleast : ∀ a, p.Available subnet serverIP c a now →
      ∃ ip, (p.nextFree c now).1 = some ip ∧ ip ≤ a := by
    intro a ha
    rw [h.available_iff] at ha
    exact h.nextFree_least ha.1 ha.2
  have hfound := (p.nextFreeFrom_spec c now (2 ^ (32 - p.subnet.bits)) p.network.next).2
  rw [← nextFree] at hfound
  rw [offerLowest]
  generalize p.nextFree c now = found at hleast hfound
  rcases found with ⟨_ | ip, q⟩
  · refine .exhausted hown fun a hhost => ?_
    by_contra hneither
    rw [not_or] at hneither
    obtain ⟨ip, hip, -⟩ := hleast a ⟨⟨hhost, hneither.1⟩, hneither.2⟩
    cases hip
  · refine .lowest ip hown hrequested (h.available_iff.mpr (hfound ip rfl)) fun a ha => ?_
    obtain ⟨ip', hip, hle⟩ := hleast a ha
    cases hip
    exact hle

theorem Formed.offerFree_choice (h : p.Formed subnet serverIP)
    (hown : p.NoneOwn subnet serverIP c now) :
    p.Choice subnet serverIP c requested now (p.offerFree c requested now).1 := by
  cases requested with
  | none => exact h.offerLowest_choice hown (by simp)
  | some ip =>
    obtain ⟨hpruned, hok⟩ := p.allocatable_spec ip now
    rw [offerFree]
    dsimp only
    rw [hpruned.isFree]
    split
    case isTrue hfree =>
      rw [Bool.and_eq_true, hok, ← h.available_iff] at hfree
      exact .requested ip rfl hown hfree
    case isFalse htaken =>
      rw [Bool.and_eq_true, hok, ← h.available_iff] at htaken
      apply Choice.of_pruned hpruned
      apply (h.pruned hpruned).offerLowest_choice (hpruned.noneOwn.mpr hown)
      rintro a ⟨⟩
      rwa [hpruned.available]

theorem Formed.offer_choice (h : p.Formed subnet serverIP) :
    p.Choice subnet serverIP c requested now (p.offer c requested now).1 := by
  rw [offer]
  cases hc : p.byClient c with
  | none =>
    refine h.offerFree_choice fun l hl => ?_
    cases hc.symm.trans hl
  | some l =>
    dsimp only
    split
    case isTrue hexp =>
      refine h.offerFree_choice fun l' hl hlt => ?_
      cases hc.symm.trans hl
      exact absurd hlt hexp
    case isFalse hexp =>
      obtain ⟨hpruned, hok⟩ := p.allocatable_spec l.ip now
      rw [h.usable_iff] at hok
      split
      case isTrue hgive => exact .own l hc (not_not.mp hexp) (hok.mp hgive).1 (hok.mp hgive).2
      case isFalse hgive =>
        apply Choice.of_pruned hpruned
        apply (h.pruned hpruned).offerFree_choice
        rw [hpruned.noneOwn]
        intro l' hl _ hhost
        cases hc.symm.trans hl
        exact hgive (hok.mpr hhost)

end Choosing

/-- What holds of offers made from `p` to any client, at any time. -/
structure Complete (subnet : Prefix) (serverIP : Addr) (p : Pool) : Prop where
  choice : ∀ c requested now, p.Choice subnet serverIP c requested now (p.offer c requested now).1
  /-- The search ends, whichever quarantines were forgotten before it. -/
  search : ∀ c now q, Pruned now p q → Searched c now q q.network.next (q.nextFree c now)
  /-- However often a client asks, it has one address at most. -/
  single : ∀ c (asked : List (Option Addr × ℤ)),
    {a | (asked.foldl (fun q r => (q.offer c r.1 r.2).2) p).byIP a = some c}.Subsingleton

theorem Formed.complete {subnet : Prefix} {serverIP : Addr} {p : Pool}
    (h : p.Formed subnet serverIP) : p.Complete subnet serverIP where
  choice _ _ _ := h.offer_choice
  search c now q hq := (h.pruned hq).nextFree_searched c now
  single c asked := by
    have hformed : (asked.foldl (fun q r => (q.offer c r.1 r.2).2) p).Formed subnet serverIP := by
      apply List.foldlRecOn (motive := Formed subnet serverIP) asked _ h
      intro q hq r _
      exact hq.offered (q.offer_spec c r.1 r.2)
    intro a ha b hb
    have haddr := (hformed.inverse c a).mpr ha
    rw [(hformed.inverse c b).mpr hb] at haddr
    exact (Option.some.inj haddr).symm

end Pool

theorem newPool_formed {subnet : Prefix} {serverIP : Addr} {duration : ℤ} {p : Pool}
    (hp : newPool subnet serverIP duration = .ok p) (kept : List (ClientId × Lease)) (now : ℤ) :
    (restore p kept now).1.Formed subnet serverIP := by
  have hboth : Restored p (restore p kept now).1 now ∧
      (restore p kept now).1.Formed subnet serverIP := by
    apply restore_invariant (I := fun q => Restored p q now ∧ q.Formed subnet serverIP)
    · rintro q c l ⟨hq, hformed⟩
      exact ⟨hq.restore c l, hformed.restore hq.sound hq.live⟩
    · refine ⟨⟨newPool_sound hp now, newPool_live hp now, .refl p⟩, ?_⟩
      rw [newPool_eq hp]
      exact ⟨rfl, rfl, rfl, rfl, MutuallyInverse.empty, fun c l hl => by cases hl⟩
  exact hboth.2

theorem served_formed {subnet : Prefix} {serverIP : Addr} {duration : ℤ} {p : Pool}
    (hp : newPool subnet serverIP duration = .ok p) (cfg : InterfaceConfig)
    (kept : List (ClientId × Lease)) (start : ℤ) (requests : List (Message × ℤ)) :
    (requests.foldl (Served.step cfg) ⟨(restore p kept start).1, start⟩).pool.Formed
      subnet serverIP := by
  apply List.foldlRecOn (motive := fun s : Served => s.pool.Formed subnet serverIP) requests _
    (newPool_formed hp kept start)
  intro s hs r _
  exact hs.handled (handle_handled cfg s.pool r.1 r.2)

/-- After any requests, at whatever times, an offer finds an address if there is one. -/
theorem offer_complete {subnet : Prefix} {serverIP : Addr} {duration : ℤ} {p : Pool}
    (hp : newPool subnet serverIP duration = .ok p) (cfg : InterfaceConfig)
    (kept : List (ClientId × Lease)) (start : ℤ) (requests : List (Message × ℤ)) :
    (requests.foldl (Served.step cfg) ⟨(restore p kept start).1, start⟩).pool.Complete
      subnet serverIP :=
  (served_formed hp cfg kept start requests).complete

def lastSubnet : Prefix := ⟨0xFFFFFFF8, 29⟩

def lastPool : Pool where
  subnet := lastSubnet
  serverIP := 0xFFFFFFF9
  network := 0xFFFFFFF8
  broadcast := 0xFFFFFFFF
  duration := 3600 * second
  byClient := fun _ => none
  byIP := fun _ => none
  declined := fun _ => none

def askedServed : Served :=
  [(discoverFrom [1], 0), (discoverFrom [2], second)].foldl (Served.step sampleConfig)
    ⟨(restore lastPool [] 0).1, 0⟩

theorem offer_complete_last :
    askedServed.pool.Complete lastSubnet 0xFFFFFFF9 ∧
    (askedServed.pool.offer [3] (some 0xFFFFFFFA) second).1 = some 0xFFFFFFFC ∧
    (askedServed.pool.offer [3] (some 0xFFFFFFFA) (60 * second)).1 = some 0xFFFFFFFA :=
  have hp : newPool lastSubnet 0xFFFFFFF9 (3600 * second) = .ok lastPool := rfl
  ⟨offer_complete hp sampleConfig [] 0 [(discoverFrom [1], 0), (discoverFrom [2], second)],
    by decide, by decide⟩

end Minuteman.Dhcpv4
