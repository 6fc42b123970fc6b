import Minuteman.Library.ByteString
import Minuteman.Library.Duration
import Minuteman.Library.InverseMaps

/-!
# The DHCPv4 address pool

`pkg/dhcpv4/lease.go`: the allocator of one LAN subnet. A pool keeps each
client's binding, the reverse index from addresses to clients, and the
addresses under a DECLINE quarantine. Its methods take the current time and
return the pool after them; the maps are partial functions, so a copy of a
pool is the pool itself. Times and durations are in nanoseconds.
-/
namespace Minuteman.Dhcpv4
open Library

/-- An IPv4 address, as the number its four bytes spell. The zero `netip.Addr`, which is no
address, is `none` wherever it can occur. -/
abbrev Addr := UInt32

abbrev ClientId := Bytes

def offerHoldTime : ℤ := 60 * second

def declineQuarantine : ℤ := 3600 * second

/-- `netip.Addr.Next`, with no successor of the last address. -/
def Addr.next (a : Addr) : Option Addr :=
  if a = 0xffffffff then none else some (a + 1)

structure Prefix where
  addr : Addr
  bits : ℕ
  deriving DecidableEq

namespace Prefix

def masked (s : Prefix) : Prefix :=
  { s with addr := UInt32.ofNat (s.addr.toNat / 2 ^ (32 - s.bits) * 2 ^ (32 - s.bits)) }

def contains (s : Prefix) (a : Addr) : Bool :=
  a.toNat / 2 ^ (32 - s.bits) == s.addr.toNat / 2 ^ (32 - s.bits)

end Prefix

def lastAddr (s : Prefix) : Addr := s.addr ||| UInt32.ofNat (2 ^ (32 - s.bits) - 1)

inductive BindingState where
  | offered
  | committed
  deriving DecidableEq

/-- The unexported `lease`: a binding as the pool records it. -/
structure PoolLease where
  ip : Addr
  expiry : ℤ
  state : BindingState
  deriving DecidableEq

/-- The exported `Lease`: a committed binding as a caller keeps it. -/
structure Lease where
  ip : Addr
  expiry : ℤ
  deriving DecidableEq

def PoolLease.expired (l : PoolLease) (now : ℤ) : Prop := ¬ now < l.expiry

instance (l : PoolLease) (now : ℤ) : Decidable (l.expired now) :=
  inferInstanceAs (Decidable (¬ now < l.expiry))

structure Pool where
  subnet : Prefix
  serverIP : Addr
  network : Addr
  broadcast : Addr
  duration : ℤ
  byClient : ClientId → Option PoolLease
  byIP : Addr → Option ClientId
  declined : Addr → Option ℤ

/-- Why `newPool` refuses a subnet; each text names the subnet, the last one the server too. -/
inductive PoolError where
  | noUsableHostRange (subnet : Prefix)
  | serverNotWithin (serverIP : Addr) (subnet : Prefix)
  deriving DecidableEq

def newPool (subnet : Prefix) (serverIP : Addr) (duration : ℤ) : Except PoolError Pool :=
  let subnet := subnet.masked
  if subnet.bits < 1 ∨ 30 < subnet.bits then .error (.noUsableHostRange subnet)
  else if ¬ subnet.contains serverIP then .error (.serverNotWithin serverIP subnet)
  else .ok
    { subnet := subnet
      serverIP := serverIP
      network := subnet.addr
      broadcast := lastAddr subnet
      duration := duration
      byClient := fun _ => none
      byIP := fun _ => none
      declined := fun _ => none }

theorem newPool_eq {subnet : Prefix} {serverIP : Addr} {duration : ℤ} {p : Pool}
    (hp : newPool subnet serverIP duration = .ok p) :
    p = { subnet := subnet.masked
          serverIP := serverIP
          network := subnet.masked.addr
          broadcast := lastAddr subnet.masked
          duration := duration
          byClient := fun _ => none
          byIP := fun _ => none
          declined := fun _ => none } := by
  simp only [newPool] at hp
  split at hp
  · cases hp
  · split at hp <;> cases hp
    rfl

namespace Pool

/-- What `allocatable` asks of an address whatever the time. -/
def inRange (p : Pool) (ip : Addr) : Bool :=
  p.subnet.contains ip && ip != p.network && ip != p.broadcast && ip != p.serverIP

/-- Whether `ip` may be handed out; an elapsed quarantine is forgotten on the way. -/
def allocatable (p : Pool) (ip : Addr) (now : ℤ) : Bool × Pool :=
  match p.declined ip with
  | some untilTime =>
    if now < untilTime then (false, p)
    else
      let p := { p with declined := Function.update p.declined ip none }
      (p.inRange ip, p)
  | none => (p.inRange ip, p)

/-- Unowned, owned by `forClient` already, or owned by someone whose lease has expired. -/
def isFree (p : Pool) (ip : Addr) (forClient : ClientId) (now : ℤ) : Bool :=
  match p.byIP ip with
  | none => true
  | some owner =>
    owner = forClient ||
      match p.byClient owner with
      | some l => l.expired now
      | none => true

def clear (p : Pool) (c : ClientId) : Pool :=
  match p.byClient c with
  | some l =>
    { p with
      byIP := Function.update p.byIP l.ip none
      byClient := Function.update p.byClient c none }
  | none => p

def holdTime (p : Pool) : BindingState → ℤ
  | .offered => offerHoldTime
  | .committed => p.duration

def hold (p : Pool) (c : ClientId) (ip : Addr) (now : ℤ) (state : BindingState) : Pool :=
  let p := p.clear c
  let p := match p.byIP ip with
    | some prev => { p with byClient := Function.update p.byClient prev none }
    | none => p
  let l : PoolLease := ⟨ip, now + p.holdTime state, state⟩
  { p with
    byClient := Function.update p.byClient c (some l)
    byIP := Function.update p.byIP ip (some c) }

/-- The loop of `nextFree` from `ip` on. `fuel` bounds the addresses left in the subnet. -/
def nextFreeFrom (p : Pool) (forClient : ClientId) (now : ℤ) :
    ℕ → Option Addr → Option Addr × Pool
  | fuel + 1, some ip =>
    if ¬ p.subnet.contains ip then (none, p)
    else
      let (ok, p) := p.allocatable ip now
      if ok && p.isFree ip forClient now then (some ip, p)
      else nextFreeFrom p forClient now fuel ip.next
  | _, _ => (none, p)

def nextFree (p : Pool) (forClient : ClientId) (now : ℤ) : Option Addr × Pool :=
  p.nextFreeFrom forClient now (2 ^ (32 - p.subnet.bits)) p.network.next

def offerLowest (p : Pool) (c : ClientId) (now : ℤ) : Option Addr × Pool :=
  match p.nextFree c now with
  | (some ip, p) => (some ip, p.hold c ip now .offered)
  | (none, p) => (none, p)

/-- The choices of `offer` for a client without an address of its own. -/
def offerFree (p : Pool) (c : ClientId) (requested : Option Addr) (now : ℤ) :
    Option Addr × Pool :=
  match requested with
  | some ip =>
    let (ok, p) := p.allocatable ip now
    if ok && p.isFree ip c now then (some ip, p.hold c ip now .offered)
    else p.offerLowest c now
  | none => p.offerLowest c now

def offer (p : Pool) (c : ClientId) (requested : Option Addr) (now : ℤ) : Option Addr × Pool :=
  match p.byClient c with
  | some l =>
    if l.expired now then p.offerFree c requested now
    else
      let (ok, p) := p.allocatable l.ip now
      if ok then (some l.ip, p.hold c l.ip now l.state) else p.offerFree c requested now
  | none => p.offerFree c requested now

def binding (p : Pool) (c : ClientId) (now : ℤ) : Option Addr :=
  match p.byClient c with
  | some l => if l.expired now then none else some l.ip
  | none => none

def commit (p : Pool) (c : ClientId) (ip : Addr) (now : ℤ) : Pool := p.hold c ip now .committed

def cancelOffer (p : Pool) (c : ClientId) : Pool :=
  match p.byClient c with
  | some l => if l.state = .offered then p.clear c else p
  | none => p

def release (p : Pool) (c : ClientId) (ip : Option Addr) : Pool :=
  if ip.bind p.byIP = some c then p.clear c else p

def decline (p : Pool) (c : ClientId) (ip : Addr) (now : ℤ) : Pool :=
  if p.byIP ip ≠ some c then p
  else
    let p := { p with declined := Function.update p.declined ip (some (now + declineQuarantine)) }
    p.clear c

def committed (p : Pool) (c : ClientId) (now : ℤ) : Option Lease :=
  match p.byClient c with
  | some l => if l.state ≠ .committed ∨ l.expired now then none else some ⟨l.ip, l.expiry⟩
  | none => none

/-- Commit a lease kept from an earlier run. -/
def restore (p : Pool) (c : ClientId) (l : Lease) (now : ℤ) : Bool × Pool :=
  if ¬ now < l.expiry then (false, p)
  else
    let (ok, p) := p.allocatable l.ip now
    if ¬ (ok ∧ p.isFree l.ip c now) then (false, p)
    else
      let p := p.clear c
      let kept : PoolLease := ⟨l.ip, l.expiry, .committed⟩
      (true,
        { p with
          byClient := Function.update p.byClient c (some kept)
          byIP := Function.update p.byIP l.ip (some c) })

/-- `ip` may be handed out at `now`: in range, and its last quarantine over. -/
def Usable (p : Pool) (ip : Addr) (now : ℤ) : Prop :=
  p.inRange ip = true ∧ ∀ untilTime, p.declined ip = some untilTime → untilTime ≤ now

theorem Usable.later {p : Pool} {ip : Addr} {now t : ℤ} (h : p.Usable ip now) (ht : now ≤ t) :
    p.Usable ip t := ⟨h.1, fun u hu => (h.2 u hu).trans ht⟩

/-- `q` is `p` with some quarantines that are over by `now` forgotten. -/
structure Pruned (now : ℤ) (p q : Pool) : Prop where
  eq : q = { p with declined := q.declined }
  declined : ∀ a, q.declined a = p.declined a ∨
    q.declined a = none ∧ ∃ u, p.declined a = some u ∧ u ≤ now

namespace Pruned
variable {p q r : Pool} {now : ℤ}

theorem refl (now : ℤ) (p : Pool) : Pruned now p p := ⟨rfl, fun _ => .inl rfl⟩

theorem byClient (h : Pruned now p q) : q.byClient = p.byClient := by rw [h.eq]

theorem byIP (h : Pruned now p q) : q.byIP = p.byIP := by rw [h.eq]

theorem inRange (h : Pruned now p q) (ip : Addr) : q.inRange ip = p.inRange ip := by
  rw [h.eq]
  rfl

theorem isFree (h : Pruned now p q) (ip : Addr) (c : ClientId) (t : ℤ) :
    q.isFree ip c t = p.isFree ip c t := by
  rw [h.eq]
  rfl

theorem trans (h : Pruned now p q) (h' : Pruned now q r) : Pruned now p r where
  eq := by
    rw [h'.eq, h.eq]
  declined a := by
    rcases h'.declined a with hr | ⟨hr, u, hu, hle⟩
    · rw [hr]
      exact h.declined a
    · rcases h.declined a with hq | ⟨hq, -⟩
      · exact .inr ⟨hr, u, hq ▸ hu, hle⟩
      · simp [hq] at hu

theorem usable (h : Pruned now p q) {t : ℤ} (ht : now ≤ t) (ip : Addr) :
    q.Usable ip t ↔ p.Usable ip t := by
  rw [Usable, Usable, h.inRange]
  rcases h.declined ip with hq | ⟨hq, u, hu, hle⟩
  · rw [hq]
  · simp [hq, hu, hle.trans ht]

/-- A quarantine that is not over is not forgotten. -/
theorem declined_of_lt (h : Pruned now p q) {a : Addr} {u : ℤ} (hu : p.declined a = some u)
    (hlt : now < u) : q.declined a = some u := by
  rcases h.declined a with hq | ⟨-, u', hu', hle⟩
  · rw [hq, hu]
  · cases hu.symm.trans hu'
    omega

end Pruned

theorem allocatable_spec (p : Pool) (ip : Addr) (now : ℤ) :
    Pruned now p (p.allocatable ip now).2 ∧
      ((p.allocatable ip now).1 = true ↔ p.Usable ip now) := by
  rw [allocatable, Usable]
  cases hd : p.declined ip with
  | none => exact ⟨Pruned.refl now p, by simp⟩
  | some u =>
    dsimp only
    by_cases hlt : now < u
    · simp [hlt, Pruned.refl]
    · rw [if_neg hlt]
      have hle := Int.not_lt.mp hlt
      constructor
      · refine ⟨rfl, fun a => ?_⟩
        by_cases ha : a = ip
        · subst ha
          exact .inr ⟨by simp, u, hd, hle⟩
        · exact .inl (by simp [ha])
      · change p.inRange ip = true ↔ _
        simp [hle]

theorem nextFreeFrom_spec (p : Pool) (c : ClientId) (now : ℤ) (fuel : ℕ) (start : Option Addr) :
    Pruned now p (p.nextFreeFrom c now fuel start).2 ∧
      ∀ ip, (p.nextFreeFrom c now fuel start).1 = some ip → p.Usable ip now ∧ p.isFree ip c now := by
  induction fuel generalizing p start with
  | zero => simp [nextFreeFrom, Pruned.refl]
  | succ fuel ih =>
    cases start with
    | none => simp [nextFreeFrom, Pruned.refl]
    | some a =>
      obtain ⟨hpruned, hok⟩ := p.allocatable_spec a now
      rw [nextFreeFrom]
      split
      · simp [Pruned.refl]
      · dsimp only
        split
        case isTrue hfree =>
          simp only [Bool.and_eq_true, hok, hpruned.isFree] at hfree
          exact ⟨hpruned, fun ip hip => Option.some.inj hip ▸ hfree⟩
        case isFalse =>
          obtain ⟨hrest, hfound⟩ := ih (p.allocatable a now).2 a.next
          refine ⟨hpruned.trans hrest, fun ip hip => ?_⟩
          rw [← hpruned.usable le_rfl, ← hpruned.isFree]
          exact hfound ip hip

/-- `c` may be given `ip`: it is usable and free for `c`, or bound to it already. -/
def MayTake (p : Pool) (c : ClientId) (ip : Addr) (now : ℤ) : Prop :=
  (p.Usable ip now ∧ p.isFree ip c now = true) ∨ ∃ l, p.byClient c = some l ∧ l.ip = ip

theorem Pruned.mayTake {p q : Pool} {c : ClientId} {ip : Addr} {now : ℤ} (h : Pruned now p q) :
    q.MayTake c ip now ↔ p.MayTake c ip now := by
  rw [MayTake, MayTake, h.usable le_rfl, h.isFree, h.byClient]

/-- How an offer ends. A client with a binding of its own that is usable is offered that one,
in the state it has; other reservations are offers. -/
inductive Offered (p : Pool) (c : ClientId) (now : ℤ) : Option Addr × Pool → Prop
  | exhausted (q : Pool) (hq : Pruned now p q) : Offered p c now (none, q)
  | reserved (q : Pool) (ip : Addr) (state : BindingState) (hq : Pruned now p q)
      (take : p.MayTake c ip now)
      (own : ∀ l, p.byClient c = some l → now < l.expiry → p.Usable l.ip now →
        ip = l.ip ∧ state = l.state) : Offered p c now (some ip, q.hold c ip now state)

theorem offerLowest_spec (p : Pool) (c : ClientId) (now : ℤ)
    (hown : ∀ l, p.byClient c = some l → now < l.expiry → ¬ p.Usable l.ip now) :
    Offered p c now (p.offerLowest c now) := by
  obtain ⟨hpruned, hfound⟩ := p.nextFreeFrom_spec c now (2 ^ (32 - p.subnet.bits)) p.network.next
  rw [offerLowest]
  rcases h : p.nextFree c now with ⟨_ | ip, q⟩
  · rw [nextFree] at h
    rw [h] at hpruned
    exact .exhausted q hpruned
  · rw [nextFree] at h
    rw [h] at hpruned hfound
    obtain ⟨husable, hfree⟩ := hfound ip rfl
    exact .reserved q ip .offered hpruned (.inl ⟨husable, hfree⟩)
      fun l hl hlt hu => absurd hu (hown l hl hlt)

theorem Offered.of_pruned {p q : Pool} {c : ClientId} {now : ℤ} {r : Option Addr × Pool}
    (hpq : Pruned now p q) (h : Offered q c now r) : Offered p c now r := by
  cases h with
  | exhausted r hr => exact .exhausted r (hpq.trans hr)
  | reserved r ip state hr take own =>
    rw [hpq.byClient] at own
    exact .reserved r ip state (hpq.trans hr) (hpq.mayTake.mp take)
      fun l hl hlt hu => own l hl hlt ((hpq.usable le_rfl l.ip).mpr hu)

theorem offerFree_spec (p : Pool) (c : ClientId) (requested : Option Addr) (now : ℤ)
    (hown : ∀ l, p.byClient c = some l → now < l.expiry → ¬ p.Usable l.ip now) :
    Offered p c now (p.offerFree c requested now) := by
  cases requested with
  | none => exact p.offerLowest_spec c now hown
  | some ip =>
    obtain ⟨hpruned, hok⟩ := p.allocatable_spec ip now
    rw [offerFree]
    dsimp only
    split
    case isTrue hfree =>
      simp only [Bool.and_eq_true, hok, hpruned.isFree] at hfree
      exact .reserved _ ip .offered hpruned (.inl hfree)
        fun l hl hlt hu => absurd hu (hown l hl hlt)
    case isFalse =>
      apply Offered.of_pruned hpruned
      apply offerLowest_spec
      intro l hl hlt hu
      rw [hpruned.byClient] at hl
      exact hown l hl hlt ((hpruned.usable le_rfl l.ip).mp hu)

theorem offer_spec (p : Pool) (c : ClientId) (requested : Option Addr) (now : ℤ) :
    Offered p c now (p.offer c requested now) := by
  rw [offer]
  cases hc : p.byClient c with
  | none => exact p.offerFree_spec c requested now (by simp [hc])
  | some l =>
    dsimp only
    split
    case isTrue hexp =>
      apply offerFree_spec
      intro l' hl' hlt
      cases hc.symm.trans hl'
      exact absurd hlt hexp
    case isFalse hexp =>
      obtain ⟨hpruned, hok⟩ := p.allocatable_spec l.ip now
      split
      case isTrue =>
        refine .reserved _ l.ip l.state hpruned (.inr ⟨l, hc, rfl⟩) ?_
        intro l' hl' _ _
        cases hc.symm.trans hl'
        exact ⟨rfl, rfl⟩
      case isFalse hunusable =>
        apply Offered.of_pruned hpruned
        apply offerFree_spec
        intro l' hl' _ hu
        rw [hpruned.byClient, hc] at hl'
        cases hl'
        exact hunusable (hok.mpr ((hpruned.usable le_rfl l.ip).mp hu))

theorem binding_eq_some {p : Pool} {c : ClientId} {now : ℤ} {ip : Addr} :
    p.binding c now = some ip ↔ ∃ l, p.byClient c = some l ∧ now < l.expiry ∧ l.ip = ip := by
  rw [binding]
  cases hc : p.byClient c with
  | none => simp
  | some l => by_cases hlt : now < l.expiry <;> simp [PoolLease.expired, hlt]

theorem committed_eq_some {p : Pool} {c : ClientId} {now : ℤ} {l : Lease} :
    p.committed c now = some l ↔
      now < l.expiry ∧ p.byClient c = some ⟨l.ip, l.expiry, .committed⟩ := by
  rw [committed]
  cases hc : p.byClient c with
  | none => simp
  | some b =>
    obtain ⟨ip, expiry, state⟩ := b
    obtain ⟨ip', expiry'⟩ := l
    simp only [PoolLease.expired]
    by_cases hs : state = .committed <;> by_cases hlt : now < expiry <;> simp [hs, hlt]
    · rintro - rfl
      exact hlt
    · rintro hlt' - rfl
      exact hlt hlt'

end Pool
end Minuteman.Dhcpv4
