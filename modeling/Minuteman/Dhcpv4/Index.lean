import Minuteman.Dhcpv4.Pool
import Minuteman.Library.Interference

/-!
# Integrity of the pool's two indexes

`byClient` and `byIP` are updated separately by every method of the pool. As
long as they are mutually inverse, clearing a client frees its own address
only, and a pool has no more bindings than addresses to hand out.
-/
namespace Minuteman.Dhcpv4
open Library

namespace Pool
variable {p q : Pool} {c c' : ClientId} {ip a : Addr} {now t : ℤ} {state : BindingState}

def address (p : Pool) (c : ClientId) : Option Addr := (p.byClient c).map PoolLease.ip

theorem address_update (f : ClientId → Option PoolLease) (c : ClientId) (l : Option PoolLease) :
    (fun x => (Function.update f c l x).map PoolLease.ip) =
      Function.update (fun x => (f x).map PoolLease.ip) c (l.map PoolLease.ip) := by
  funext x
  by_cases hx : x = c
  · subst hx
    simp
  · simp [hx]

theorem clear_of_some {l : PoolLease} (hl : p.byClient c = some l) :
    p.clear c = { p with
      byIP := Function.update p.byIP l.ip none
      byClient := Function.update p.byClient c none } := by
  rw [clear, hl]

theorem clear_of_none (hc : p.byClient c = none) : p.clear c = p := by
  rw [clear, hc]

@[simp] theorem clear_byClient (p : Pool) (c : ClientId) :
    (p.clear c).byClient = Function.update p.byClient c none := by
  cases hc : p.byClient c with
  | none => rw [clear_of_none hc, ← hc, Function.update_eq_self]
  | some l => rw [clear_of_some hc]

@[simp] theorem clear_declined (p : Pool) (c : ClientId) : (p.clear c).declined = p.declined := by
  rw [clear]
  split <;> rfl

@[simp] theorem clear_inRange (p : Pool) (c : ClientId) (ip : Addr) :
    (p.clear c).inRange ip = p.inRange ip := by
  rw [clear]
  split <;> rfl

@[simp] theorem clear_duration (p : Pool) (c : ClientId) : (p.clear c).duration = p.duration := by
  rw [clear]
  split <;> rfl

@[simp] theorem clear_usable : (p.clear c).Usable ip t ↔ p.Usable ip t := by
  simp [Usable]

theorem clear_inverse (h : MutuallyInverse p.address p.byIP) :
    MutuallyInverse (p.clear c).address (p.clear c).byIP := by
  cases hc : p.byClient c with
  | none => rwa [clear_of_none hc]
  | some l =>
    have haddr : p.address c = some l.ip := by simp [address, hc]
    rw [clear_of_some hc]
    unfold address
    rw [address_update]
    exact h.unlink haddr

theorem clear_address_self (p : Pool) (c : ClientId) : (p.clear c).address c = none := by
  simp [address]

theorem clear_address_of_ne (hne : c' ≠ c) : (p.clear c).address c' = p.address c' := by
  simp [address, hne]

/-- A client's departure frees no address recorded for someone else. -/
theorem clear_byIP_of_ne (h : MutuallyInverse p.address p.byIP) (hne : c' ≠ c)
    (ha : p.byIP a = some c') : (p.clear c).byIP a = some c' := by
  apply (clear_inverse h c' a).mp
  rw [clear_address_of_ne hne]
  exact (h c' a).mpr ha

theorem hold_eq (p : Pool) (c : ClientId) (ip : Addr) (now : ℤ) (state : BindingState) :
    p.hold c ip now state = { p.clear c with
      byClient := Function.update
        (match (p.clear c).byIP ip with
          | some prev => Function.update (p.clear c).byClient prev none
          | none => (p.clear c).byClient)
        c (some ⟨ip, now + p.holdTime state, state⟩)
      byIP := Function.update (p.clear c).byIP ip (some c) } := by
  rw [hold]
  cases h : (p.clear c).byIP ip with
  | none => cases state <;> simp [holdTime]
  | some prev => cases state <;> simp [holdTime]

@[simp] theorem hold_declined : (p.hold c ip now state).declined = p.declined := by
  simp [hold_eq]

@[simp] theorem hold_inRange : (p.hold c ip now state).inRange a = p.inRange a := by
  rw [← clear_inRange p c, hold_eq]
  rfl

@[simp] theorem hold_usable : (p.hold c ip now state).Usable a t ↔ p.Usable a t := by
  simp [Usable]

@[simp] theorem hold_duration : (p.hold c ip now state).duration = p.duration := by
  simp [hold_eq]

theorem hold_byClient_self :
    (p.hold c ip now state).byClient c = some ⟨ip, now + p.holdTime state, state⟩ := by
  simp [hold_eq]

/-- A binding on another address survives. -/
theorem hold_byClient_of_ne (h : MutuallyInverse p.address p.byIP) (hne : c' ≠ c)
    (haddr : p.address c' ≠ some ip) : (p.hold c ip now state).byClient c' = p.byClient c' := by
  rw [hold_eq]
  cases hip : (p.clear c).byIP ip with
  | none => simp [hne]
  | some prev =>
    have hprev := (clear_inverse h prev ip).mpr hip
    have hne' : c' ≠ prev := by
      rintro rfl
      rw [clear_address_of_ne hne] at hprev
      exact haddr hprev
    simp [hne, hne']

/-- The binding of the previous owner does not. -/
theorem hold_byClient_evicted (h : MutuallyInverse p.address p.byIP) (hne : c' ≠ c)
    (haddr : p.address c' = some ip) : (p.hold c ip now state).byClient c' = none := by
  have hip : (p.clear c).byIP ip = some c' := clear_byIP_of_ne h hne ((h c' ip).mp haddr)
  simp [hold_eq, hip, hne]

theorem hold_inverse (h : MutuallyInverse p.address p.byIP) :
    MutuallyInverse (p.hold c ip now state).address (p.hold c ip now state).byIP := by
  have hclear := clear_inverse (c := c) h
  rw [hold_eq]
  unfold address
  rw [address_update]
  cases hip : (p.clear c).byIP ip with
  | none => exact hclear.link (clear_address_self p c) hip
  | some prev =>
    simp only [address_update]
    exact hclear.relink (clear_address_self p c) hip

theorem isFree_iff : p.isFree ip c now = true ↔
    ∀ owner, p.byIP ip = some owner → owner = c ∨
      ∀ l, p.byClient owner = some l → l.expiry ≤ now := by
  rw [isFree]
  cases hip : p.byIP ip with
  | none => simp
  | some owner =>
    cases hl : p.byClient owner with
    | none => simp [hl]
    | some l => simp [hl, PoolLease.expired]

/-- The bindings of a pool, as of `clock`: indexed both ways, on addresses it may hand out. -/
structure Sound (p : Pool) (clock : ℤ) : Prop where
  inverse : MutuallyInverse p.address p.byIP
  usable : ∀ c l, p.byClient c = some l → p.Usable l.ip clock

namespace Sound
variable {clock : ℤ}

theorem later (h : p.Sound clock) (ht : clock ≤ now) : p.Sound now :=
  ⟨h.inverse, fun c l hl => (h.usable c l hl).later ht⟩

theorem pruned (h : p.Sound clock) (hq : Pruned now p q) (ht : clock ≤ now) : q.Sound now where
  inverse := by
    unfold address
    rw [hq.byClient, hq.byIP]
    exact h.inverse
  usable c l hl := by
    rw [hq.byClient] at hl
    exact (hq.usable le_rfl l.ip).mpr ((h.usable c l hl).later ht)

theorem clear (h : p.Sound clock) : (p.clear c).Sound clock where
  inverse := clear_inverse h.inverse
  usable c' l hl := by
    rw [clear_byClient, Function.update_apply] at hl
    split at hl
    · cases hl
    · exact clear_usable.mpr (h.usable c' l hl)

theorem hold (h : p.Sound clock) (hu : p.Usable ip clock) :
    (p.hold c ip now state).Sound clock where
  inverse := hold_inverse h.inverse
  usable c' l hl := by
    rw [hold_usable]
    by_cases hc : c' = c
    · subst hc
      cases hold_byClient_self.symm.trans hl
      exact hu
    · by_cases haddr : p.address c' = some ip
      · rw [hold_byClient_evicted h.inverse hc haddr] at hl
        cases hl
      · rw [hold_byClient_of_ne h.inverse hc haddr] at hl
        exact h.usable c' l hl

theorem decline (h : p.Sound clock) (ht : clock ≤ now) : (p.decline c ip now).Sound now := by
  rw [Pool.decline]
  split
  · exact h.later ht
  case isFalse hown =>
    have howner : p.byIP ip = some c := not_not.mp hown
    refine ⟨clear_inverse (c := c) h.inverse, fun c' l hl => ?_⟩
    rw [clear_byClient, Function.update_apply] at hl
    dsimp only at hl
    split at hl
    · cases hl
    case isFalse hc =>
      have hip : l.ip ≠ ip := by
        intro hip
        have haddr : p.address c' = some ip := by simp [address, hl, hip]
        rw [h.inverse, howner] at haddr
        exact hc (Option.some.inj haddr).symm
      obtain ⟨hin, hdeclined⟩ := (h.usable c' l hl).later ht
      rw [clear_usable]
      exact ⟨hin, by simpa [hip] using hdeclined⟩

/-- What a client may take is usable, and free for it. -/
theorem mayTake (h : p.Sound clock) (ht : clock ≤ now) (htake : p.MayTake c ip now) :
    p.Usable ip now ∧ p.isFree ip c now = true := by
  rcases htake with htake | ⟨l, hl, rfl⟩
  · exact htake
  · have haddr : p.address c = some l.ip := by simp [address, hl]
    rw [h.inverse] at haddr
    exact ⟨(h.usable c l hl).later ht, by simp [Pool.isFree, haddr]⟩

theorem offered (h : p.Sound clock) (ht : clock ≤ now) {r : Option Addr × Pool}
    (hr : Offered p c now r) : r.2.Sound now := by
  cases hr with
  | exhausted q hq => exact h.pruned hq ht
  | reserved q ip state hq take own =>
    exact (h.pruned hq ht).hold ((hq.usable le_rfl ip).mpr (h.mayTake ht take).1)

end Sound

/-- How a restore ends. -/
theorem restore_cases (p : Pool) (c : ClientId) (l : Lease) (now : ℤ) :
    (¬ (now < l.expiry ∧ p.Usable l.ip now ∧ p.isFree l.ip c now = true) ∧
      ∃ q, Pruned now p q ∧ p.restore c l now = (false, q)) ∨
    (now < l.expiry ∧ p.Usable l.ip now ∧ p.isFree l.ip c now = true) ∧
      ∃ q, Pruned now p q ∧ p.restore c l now = (true,
        { q.clear c with
          byClient := Function.update (q.clear c).byClient c (some ⟨l.ip, l.expiry, .committed⟩)
          byIP := Function.update (q.clear c).byIP l.ip (some c) }) := by
  obtain ⟨hpruned, hok⟩ := p.allocatable_spec l.ip now
  rw [restore]
  by_cases hlt : now < l.expiry
  · rw [if_neg (not_not.mpr hlt)]
    dsimp only
    rw [hpruned.isFree]
    by_cases hfree : (p.allocatable l.ip now).1 = true ∧ p.isFree l.ip c now = true
    · rw [if_neg (not_not.mpr hfree)]
      exact .inr ⟨⟨hlt, hok.mp hfree.1, hfree.2⟩, _, hpruned, rfl⟩
    · rw [if_pos hfree]
      exact .inl ⟨fun h => hfree ⟨hok.mpr h.2.1, h.2.2⟩, _, hpruned, rfl⟩
  · rw [if_pos hlt]
    exact .inl ⟨fun h => hlt h.1, p, Pruned.refl now p, rfl⟩

theorem restore_taken {l : Lease} : (p.restore c l now).1 = true ↔
    now < l.expiry ∧ p.Usable l.ip now ∧ p.isFree l.ip c now = true := by
  rcases p.restore_cases c l now with ⟨hrefused, q, -, heq⟩ | ⟨htaken, q, -, heq⟩
  · simpa [heq] using hrefused
  · simpa [heq] using htaken

theorem restore_byClient {l : Lease} : (p.restore c l now).2.byClient =
    if (p.restore c l now).1 = true then
      Function.update p.byClient c (some ⟨l.ip, l.expiry, .committed⟩)
    else p.byClient := by
  rcases p.restore_cases c l now with ⟨-, q, hq, heq⟩ | ⟨-, q, hq, heq⟩
  · simp [heq, hq.byClient]
  · simp [heq, hq.byClient]

theorem restore_declined {l : Lease} (h : ∀ a, p.declined a = none) (a : Addr) :
    (p.restore c l now).2.declined a = none := by
  rcases p.restore_cases c l now with ⟨-, q, hq, heq⟩ | ⟨-, q, hq, heq⟩
  · rw [heq]
    exact (hq.declined a).elim (fun hqa => hqa.trans (h a)) And.left
  · rw [heq]
    simpa using (hq.declined a).elim (fun hqa => hqa.trans (h a)) And.left

/-- Restoring `l` to `c` would take its address from another client, whose lease has expired. -/
def Displaces (p : Pool) (c : ClientId) (l : Lease) (now : ℤ) : Prop :=
  now < l.expiry ∧ p.Usable l.ip now ∧
    ∃ owner b, p.byIP l.ip = some owner ∧ owner ≠ c ∧ p.byClient owner = some b ∧ b.expired now

theorem Sound.restore {clock : ℤ} {l : Lease} (h : p.Sound clock) (ht : clock ≤ now)
    (hd : ¬ p.Displaces c l now) : (p.restore c l now).2.Sound now := by
  rcases p.restore_cases c l now with ⟨-, q, hq, heq⟩ | ⟨⟨hlt, husable, hfree⟩, q, hq, heq⟩
  · rw [heq]
    exact h.pruned hq ht
  · rw [heq]
    have hclear := (h.pruned hq ht).clear (c := c)
    have hunowned : (q.clear c).byIP l.ip = none := by
      by_contra hsome
      obtain ⟨owner, howner⟩ := Option.ne_none_iff_exists'.mp hsome
      have haddr := (hclear.inverse owner l.ip).mpr howner
      have hne : owner ≠ c := by
        rintro rfl
        rw [clear_address_self] at haddr
        cases haddr
      rw [clear_address_of_ne hne, address, hq.byClient, Option.map_eq_some_iff] at haddr
      obtain ⟨b, hb, hip⟩ := haddr
      have hbyIP : p.byIP l.ip = some owner :=
        (h.inverse owner l.ip).mp (by simp [address, hb, hip])
      have hexpired := (isFree_iff.mp hfree owner hbyIP).resolve_left hne b hb
      exact hd ⟨hlt, husable, owner, b, hbyIP, hne, hb, not_lt.mpr hexpired⟩
    constructor
    · unfold address
      rw [address_update]
      exact hclear.inverse.link (clear_address_self q c) hunowned
    · intro c' b hb
      have hrange : (q.clear c).Usable b.ip now := by
        dsimp only at hb
        rw [Function.update_apply] at hb
        split at hb
        · cases hb
          exact clear_usable.mpr ((hq.usable le_rfl l.ip).mpr husable)
        · exact hclear.usable c' b hb
      exact hrange

theorem finite_usable (p : Pool) (now : ℤ) : {a | p.Usable a now}.Finite :=
  (Set.finite_range (fun n : Fin (2 ^ 32) => UInt32.ofNat n)).subset fun a _ =>
    ⟨⟨a.toNat, a.toNat_lt⟩, UInt32.ofNat_toNat⟩

/-- A pool never has more bindings than addresses to hand out. -/
theorem Sound.bindings_le {clock : ℤ} (h : p.Sound clock) :
    {c | p.byClient c ≠ none}.Finite ∧
      {c | p.byClient c ≠ none}.ncard ≤ {a | p.Usable a clock}.ncard := by
  have hmem : ∀ c a, p.address c = some a → a ∈ {a | p.Usable a clock} := by
    intro c a ha
    obtain ⟨l, hl, rfl⟩ := Option.map_eq_some_iff.mp ha
    exact h.usable c l hl
  simpa [address] using h.inverse.ncard_le (p.finite_usable clock) hmem

end Pool

inductive PoolCall where
  | offer (c : ClientId) (requested : Option Addr)
  | binding (c : ClientId)
  /-- `Commit` of the address `Binding` returned at the time `asked`. -/
  | commit (c : ClientId) (asked : ℤ)
  | cancelOffer (c : ClientId)
  | release (c : ClientId) (ip : Option Addr)
  | decline (c : ClientId) (ip : Addr)
  | restore (c : ClientId) (l : Lease)

def Pool.call (p : Pool) (now : ℤ) : PoolCall → Pool
  | .offer c requested => (p.offer c requested now).2
  | .binding _ => p
  | .commit c asked =>
    match p.binding c asked with
    | some ip => p.commit c ip now
    | none => p
  | .cancelOffer c => p.cancelOffer c
  | .release c ip => p.release c ip
  | .decline c ip => p.decline c ip now
  | .restore c l => (p.restore c l now).2

/-- The pools a program has, and the time of its last call. -/
structure Pools where
  pools : List Pool
  clock : ℤ

/-- A call on the `i`-th pool, or a new copy of it. -/
inductive PoolsStep where
  | call (i : ℕ) (now : ℤ) (m : PoolCall)
  | clone (i : ℕ)

def Pools.step (s : Pools) : PoolsStep → Pools
  | .call i now m => { pools := s.pools.modify i (fun p => p.call now m), clock := now }
  | .clone i => { s with pools := s.pools ++ (s.pools[i]?).toList }

/-- Time does not go back, and no restore takes over the address of an expired lease. -/
def Pools.Orderly (s : Pools) : PoolsStep → Prop
  | .call i now m =>
    s.clock ≤ now ∧ ∀ c l, m = .restore c l → ∀ p, s.pools[i]? = some p → ¬ p.Displaces c l now
  | .clone _ => True

theorem Pool.Sound.call {p : Pool} {clock now : ℤ} {m : PoolCall} (h : p.Sound clock)
    (ht : clock ≤ now) (hm : ∀ c l, m = .restore c l → ¬ p.Displaces c l now) :
    (p.call now m).Sound now := by
  cases m with
  | offer c requested => exact h.offered ht (p.offer_spec c requested now)
  | binding c => exact h.later ht
  | commit c asked =>
    rw [Pool.call]
    split
    case h_1 ip hip =>
      obtain ⟨l, hl, -, rfl⟩ := Pool.binding_eq_some.mp hip
      exact (h.later ht).hold ((h.usable c l hl).later ht)
    case h_2 => exact h.later ht
  | cancelOffer c =>
    rw [Pool.call, Pool.cancelOffer]
    split
    · split
      · exact (h.later ht).clear
      · exact h.later ht
    · exact h.later ht
  | release c ip =>
    rw [Pool.call, Pool.release]
    split
    · exact (h.later ht).clear
    · exact h.later ht
  | decline c ip => exact h.decline ht
  | restore c l => exact h.restore ht (hm c l rfl)

theorem newPool_sound {subnet : Prefix} {serverIP : Addr} {duration : ℤ} {p : Pool}
    (hp : newPool subnet serverIP duration = .ok p) (clock : ℤ) : p.Sound clock := by
  rw [newPool_eq hp]
  exact ⟨MutuallyInverse.empty, fun c l hl => by cases hl⟩

theorem Pools.sound_step (s : Pools) (a : PoolsStep) (h : ∀ p ∈ s.pools, p.Sound s.clock)
    (ha : s.Orderly a) : ∀ p ∈ (s.step a).pools, p.Sound (s.step a).clock := by
  intro p hp
  cases a with
  | call i now m =>
    obtain ⟨ht, hm⟩ := ha
    obtain ⟨j, hj⟩ := List.getElem?_of_mem hp
    rw [Pools.step, List.getElem?_modify] at hj
    obtain ⟨q, hq, rfl⟩ := Option.map_eq_some_iff.mp hj
    have hsound := h q (List.mem_of_getElem? hq)
    by_cases hij : i = j
    · subst hij
      simpa [Pools.step] using hsound.call ht fun c l hr => hm c l hr q hq
    · simpa [Pools.step, hij] using hsound.later ht
  | clone i =>
    rcases List.mem_append.mp hp with hp | hp
    · exact h p hp
    · exact h p (List.mem_of_getElem? (Option.mem_toList.mp hp))

/-- As long as no restore takes over the address of an expired lease, the two indexes of every
pool stay mutually inverse. -/
theorem indexes_intact {subnet : Prefix} {serverIP : Addr} {duration : ℤ} {p₀ : Pool}
    (hp : newPool subnet serverIP duration = .ok p₀) (start : ℤ) (steps : List PoolsStep)
    (hrun : Along Pools.step Pools.Orderly ⟨[p₀], start⟩ steps) :
    let s := steps.foldl Pools.step ⟨[p₀], start⟩
    ∀ p ∈ s.pools,
      (∀ c a, (∃ l, p.byClient c = some l ∧ l.ip = a) ↔ p.byIP a = some c) ∧
      (∀ c c' l l', p.byClient c = some l → p.byClient c' = some l' → l.ip = l'.ip → c = c') ∧
      (∀ c c' a, c' ≠ c → p.byIP a = some c' → (p.clear c).byIP a = some c') ∧
      {c | p.byClient c ≠ none}.Finite ∧
      {c | p.byClient c ≠ none}.ncard ≤ {a | p.Usable a s.clock}.ncard := by
  intro s p hmem
  have hsound : p.Sound s.clock := hrun.invariant Pools.sound_step
    (by simpa using newPool_sound hp start) p hmem
  have hinverse : ∀ c a, (∃ l, p.byClient c = some l ∧ l.ip = a) ↔ p.byIP a = some c := by
    intro c a
    rw [← hsound.inverse c a, Pool.address, Option.map_eq_some_iff]
  refine ⟨hinverse, fun c c' l l' hl hl' hip => ?_, fun c c' a hne ha => ?_, hsound.bindings_le⟩
  · have hc := (hinverse c l.ip).mp ⟨l, hl, rfl⟩
    rw [(hinverse c' l.ip).mp ⟨l', hl', hip.symm⟩] at hc
    exact (Option.some.inj hc).symm
  · exact Pool.clear_byIP_of_ne hsound.inverse hne ha

def sampleSubnet : Prefix := ⟨0xC0A80100, 29⟩

def sampleServer : Addr := 0xC0A80101

def samplePool : Pool where
  subnet := sampleSubnet
  serverIP := sampleServer
  network := 0xC0A80100
  broadcast := 0xC0A80107
  duration := 3600 * second
  byClient := fun _ => none
  byIP := fun _ => none
  declined := fun _ => none

theorem newPool_sample : newPool sampleSubnet sampleServer (3600 * second) = .ok samplePool := rfl

/-- An offer, a copy of the pool, and a lease restored into the copy at another address. -/
def restoringSteps : List PoolsStep :=
  [.call 0 0 (.offer [1] none), .clone 0, .call 1 second (.restore [2] ⟨0xC0A80103, 60 * second⟩)]

theorem indexes_intact_restored : ∃ p ∈ (restoringSteps.foldl Pools.step ⟨[samplePool], 0⟩).pools,
    p.byIP 0xC0A80103 = some [2] ∧ ∃ l, p.byClient [2] = some l ∧ l.ip = 0xC0A80103 := by
  have hrun : Along Pools.step Pools.Orderly ⟨[samplePool], 0⟩ restoringSteps := by
    refine ⟨⟨le_rfl, by simp⟩, trivial, ⟨by decide, fun c l hm p hp => ?_⟩, trivial⟩
    cases hm
    cases hp
    rintro ⟨-, -, owner, b, howner, -⟩
    have hunowned : (samplePool.call 0 (.offer [1] none)).byIP 0xC0A80103 = none := by decide
    cases hunowned.symm.trans howner
  have hp := List.getElem_mem (l := (restoringSteps.foldl Pools.step ⟨[samplePool], 0⟩).pools)
    (n := 1) (by decide)
  have hbyIP : ((restoringSteps.foldl Pools.step ⟨[samplePool], 0⟩).pools[1]).byIP 0xC0A80103 =
      some [2] := by decide
  exact ⟨_, hp, hbyIP, ((indexes_intact newPool_sample 0 restoringSteps hrun _ hp).1 _ _).mpr hbyIP⟩

/-- A lease is restored over an expired one. -/
def displacingSteps : List PoolsStep :=
  [.call 0 0 (.offer [1] none),
    .call 0 (61 * second) (.restore [2] ⟨0xC0A80102, 3600 * second⟩)]

def displacedPool : Pool :=
  (samplePool.call 0 (.offer [1] none)).call (61 * second)
    (.restore [2] ⟨0xC0A80102, 3600 * second⟩)

def discoveredPool : Pool :=
  (displacedPool.call (62 * second) (.offer [1] none)).call (63 * second) (.offer [3] none)

/-- The old client is left pointing at the address of the new one, so its departure frees that
address, and a third client is offered it while the restored lease is running. -/
theorem restore_leaves_dangling_client :
    displacingSteps.foldl Pools.step ⟨[samplePool], 0⟩ = ⟨[displacedPool], 61 * second⟩ ∧
    (displacedPool.byClient [1]).map PoolLease.ip = some 0xC0A80102 ∧
    displacedPool.byIP 0xC0A80102 = some [2] ∧
    (displacedPool.clear [1]).byIP 0xC0A80102 = none ∧
    discoveredPool.byClient [2] = some ⟨0xC0A80102, 3600 * second, .committed⟩ ∧
    discoveredPool.byClient [3] = some ⟨0xC0A80102, 123 * second, .offered⟩ :=
  ⟨rfl, by decide, by decide, by decide, by decide, by decide⟩

end Minuteman.Dhcpv4
