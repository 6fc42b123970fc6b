import Minuteman.LanPrefix.Reconcile
import Minuteman.LanPrefix.Subnets
import Minuteman.PrefixDelegation.Soundness
import Minuteman.Radvd.Passed
import Minuteman.Radvd.Wire

/-!
# What the LAN hosts number themselves from

`runPrefixDelegation` and `internal/lanprefix/ra.go`: a lease that is applied is
carved up, and every LAN interface is made to advertise its part of it. The
process that keeps the lease, the one that applies it and the advertisers may
each end and be started again, and addresses may fail to be assigned; the hosts
are still told of nothing but what was delegated.
-/
namespace Minuteman.LanPrefix
open Library PrefixDelegation Dhcpv6

/-- The LAN interfaces, their link-layer addresses and the name server each is to advertise. -/
structure Lans where
  ifaces : List String
  mac : String → FixedBytes 6
  rdnss : String → Option (FixedBytes 16 × String)

/-- The processes, the addresses of the LAN interfaces and, by their names, what advertises on
them. -/
structure Site where
  tree : Tree
  lan : LanPrefix.World
  links : String → Radvd.Observed

namespace Lans
variable (lans : Lans)

def advertiser (iface : String) : Radvd.Advertiser := ⟨iface, (lans.mac iface).bytes⟩

def config (a : Assignment) : Radvd.Config where
  subnet := a.subnet
  onLink := true
  validLifetime := a.validLifetime
  preferredLifetime := a.preferredLifetime
  rdnssAddr := lans.rdnss a.iface

def advertise (links : String → Radvd.Observed) (a : Assignment) : String → Radvd.Observed :=
  if a.subnet.isSome then
    Function.update links a.iface
      ((links a.iface).step (lans.advertiser a.iface) (.event (.cast (lans.config a))))
  else links

def sync (links : String → Radvd.Observed) (assigned : List Assignment) :
    String → Radvd.Observed :=
  assigned.foldl lans.advertise links

/-- What the interface of this name and index is to advertise of a lease. -/
def share (lease : Lease) (index : ℕ) (iface : String) : Option Radvd.Config :=
  lease.prefixes.head?.bind fun p => (subnetFor p.pfx index).toOption.map fun subnet =>
    ⟨some subnet, true, p.validLifetime, p.preferredLifetime, lans.rdnss iface⟩

/-- The configuration is the interface's share of one of the leases. -/
def Delegates (leases : List Lease) (iface : String) (cfg : Radvd.Config) : Prop :=
  ∃ lease ∈ leases, ∃ index, lans.ifaces[index]? = some iface ∧
    lans.share lease index iface = some cfg

end Lans

namespace Site

inductive Action where
  | tree (act : Tree.Action) (faults : Faults)
  | link (iface : String) (act : Radvd.Action)

def Action.Opens : Action → Prop
  | .tree _ faults => faults.open_ = false
  | .link _ _ => True

section Runs
variable (lans : Lans) (clientID : Duid) (initial : Lease)

/-- `reconcileAndLog`. A lease without prefixes crashes the process it runs in. -/
def reconcileAndLog (s : Site) (faults : Faults) (lease : Lease) : Option Site :=
  lease.prefixes.head?.map fun p =>
    let lan :=
      reconcile lans.ifaces s.lan ⟨p.pfx, p.validLifetime, p.preferredLifetime, faults⟩
    { s with lan := lan, links := lans.sync s.links lan.assigned }

/-- Nothing but `Sync` passes a configuration to an advertiser. -/
def step (s : Site) : Action → Site
  | .tree act faults =>
    let next := { s with tree := s.tree.step clientID initial act }
    match s.tree.applies act with
    | none => next
    | some lease => (next.reconcileAndLog lans faults lease).getD
        { s with tree := s.tree.step clientID initial .applyCrash }
  | .link iface act =>
    if act.passed.isSome then s
    else
      let link := (s.links iface).step (lans.advertiser iface) act
      { s with links := Function.update s.links iface link }

/-- `runPrefixDelegation`: the lease acquired is applied, and the tree that keeps it started. -/
def start (now : ℤ) (prior : List Service.Event) (faults : Faults) : Option Site :=
  reconcileAndLog lans
    ⟨.start clientID initial now prior, .initial, fun _ => .initial now⟩ faults initial

end Runs
end Site

section Sync
variable {lans : Lans} {links : String → Radvd.Observed} {assigned : List Assignment}

/-- What passing an interface its configuration keeps holds of all interfaces after `Sync`. -/
theorem Lans.sync_invariant {I : String → Radvd.Observed → Prop}
    (hstart : ∀ iface, I iface (links iface))
    (hcast : ∀ a ∈ assigned, a.subnet.isSome = true → ∀ o, I a.iface o →
      I a.iface (o.step (lans.advertiser a.iface) (.event (.cast (lans.config a)))))
    (iface : String) : I iface (lans.sync links assigned iface) := by
  refine List.foldlRecOn
    (motive := fun links : String → Radvd.Observed => ∀ iface, I iface (links iface))
    assigned _ hstart ?_ iface
  intro links hlinks a ha iface
  rw [Lans.advertise]
  split_ifs with hsome
  · by_cases heq : iface = a.iface
    · subst heq
      rw [Function.update_self]
      exact hcast a ha hsome _ (hlinks _)
    · rw [Function.update_of_ne heq]
      exact hlinks iface
  · exact hlinks iface

theorem Lans.advertise_of_ne {a : Assignment} {iface : String} (h : iface ≠ a.iface) :
    lans.advertise links a iface = links iface := by
  rw [Lans.advertise]
  split_ifs
  · exact Function.update_of_ne h _ _
  · rfl

theorem Lans.sync_of_notMem {iface : String} (h : iface ∉ assigned.map Assignment.iface) :
    lans.sync links assigned iface = links iface := by
  induction assigned generalizing links with
  | nil => rfl
  | cons a rest ih =>
    obtain ⟨hne, hrest⟩ : iface ≠ a.iface ∧ iface ∉ rest.map Assignment.iface := by simpa using h
    exact (ih hrest).trans (Lans.advertise_of_ne hne)

/-- Where the interfaces differ, each is passed its own configuration once. -/
theorem Lans.sync_of_mem {a : Assignment} (hnodup : (assigned.map Assignment.iface).Nodup)
    (ha : a ∈ assigned) (hsome : a.subnet.isSome = true) :
    lans.sync links assigned a.iface =
      (links a.iface).step (lans.advertiser a.iface) (.event (.cast (lans.config a))) := by
  induction assigned generalizing links with
  | nil => cases ha
  | cons b rest ih =>
    obtain ⟨hnotin, hrest⟩ := List.nodup_cons.mp hnodup
    rcases List.mem_cons.mp ha with rfl | hmem
    · refine (Lans.sync_of_notMem hnotin).trans ?_
      rw [Lans.advertise, if_pos hsome, Function.update_self]
    · have hne : a.iface ≠ b.iface := by
        rintro heq
        exact hnotin (heq ▸ List.mem_map_of_mem hmem)
      refine (ih hrest hmem).trans ?_
      rw [Lans.advertise_of_ne hne]

end Sync

/-- A carved subnet lies in the delegated prefix. -/
theorem subnetFor_inside {delegated subnet : Prefix} {index : ℤ} {addr : Addr}
    (h : subnetFor delegated index = .ok subnet) (haddr : Contains subnet addr) :
    Contains delegated addr := by
  by_cases hzero : delegated.bits = 0
  · intro i hi
    omega
  · have hcarve := h
    unfold subnetFor at hcarve
    dsimp only at hcarve
    split_ifs at hcarve with hmapped hbits hneg hcapacity
    rw [lanSubnetBits] at hbits hcapacity
    have hone : delegated.bits ≠ 1 := by
      intro hone
      have hwrapped : wrap64 (2 ^ (64 - 1)) = -2 ^ 63 := by decide
      rw [hone] at hcapacity
      omega
    rw [wrap64_two_pow (by omega)] at hcapacity
    have hlt : index < 2 ^ (64 - delegated.bits) := by
      by_contra hge
      exact hcapacity ⟨by omega, not_lt.mp hge⟩
    rw [subnetFor_carved (by simpa using hmapped) (by rw [lanSubnetBits]; omega) hone
      (not_lt.mp hneg) hlt] at h
    cases h
    refine carved_inside (by rw [lanSubnetBits]; omega) ?_ haddr
    rw [lanSubnetBits, Int.toNat_lt (not_lt.mp hneg)]
    exact_mod_cast hlt

section Shares
variable {lans : Lans} {lease : Lease} {p : IAPrefix} {index : ℕ} {iface : String}

theorem Lans.share_eq_some {cfg : Radvd.Config} (h : lans.share lease index iface = some cfg) :
    ∃ p rest subnet, lease.prefixes = p :: rest ∧ subnetFor p.pfx index = .ok subnet ∧
      cfg = ⟨some subnet, true, p.validLifetime, p.preferredLifetime, lans.rdnss iface⟩ := by
  obtain ⟨p, hp, hshare⟩ := Option.bind_eq_some_iff.mp h
  obtain ⟨rest, hcons⟩ := List.head?_eq_some_iff.mp hp
  obtain ⟨subnet, hsubnet, hcfg⟩ := Option.map_eq_some_iff.mp hshare
  cases hcarve : subnetFor p.pfx index with
  | error e =>
    rw [hcarve] at hsubnet
    cases hsubnet
  | ok carved =>
    rw [hcarve] at hsubnet
    cases hsubnet
    exact ⟨p, rest, _, hcons, hcarve, hcfg.symm⟩

/-- What is assigned to an interface, whether or not its address could be, is its share of the
lease. -/
theorem Lans.config_reconcileOne (hp : lease.prefixes.head? = some p) (faults : Faults)
    (prev : List Assignment) (addrs : List Addr) :
    let a := (reconcileOne ⟨p.pfx, p.validLifetime, p.preferredLifetime, faults⟩ index iface prev
      addrs).assignment
    a.iface = iface ∧
      lans.share lease index iface = if a.subnet.isSome then some (lans.config a) else none := by
  intro a
  have hshare : lans.share lease index iface = (subnetFor p.pfx index).toOption.map fun subnet =>
      ⟨some subnet, true, p.validLifetime, p.preferredLifetime, lans.rdnss iface⟩ := by
    rw [Lans.share, hp]
    rfl
  rw [hshare]
  cases hcarve : subnetFor p.pfx index with
  | error e =>
    have ha : a = ⟨iface, none, none, 0, 0⟩ := by
      simp only [a]
      rw [reconcileOne_error hcarve]
    rw [ha]
    exact ⟨rfl, rfl⟩
  | ok subnet =>
    obtain ⟨addr, haddr⟩ := assignedAddress_of_subnetFor hcarve
    have ha : a = ⟨iface, some subnet, some addr, p.validLifetime, p.preferredLifetime⟩ := by
      simp only [a]
      unfold reconcileOne
      rw [hcarve]
      dsimp only
      rw [haddr]
      dsimp only
      repeat' split
      all_goals first | rfl | (unfold assign; split <;> rfl)
    rw [ha]
    exact ⟨rfl, rfl⟩

/-- A call that opens its socket assigns to every interface. -/
theorem reconcile_assigned {w : World} {c : Call} (hopen : c.faults.open_ = false) :
    (reconcile lans.ifaces w c).assigned = (List.range lans.ifaces.length).map fun index =>
      (reconcileOne c index (lans.ifaces.getD index "") w.assigned (w.addrs index)).assignment := by
  rw [reconcile, if_neg (by simp [hopen])]

theorem Lans.mem_assigned {w : World} {faults : Faults} {a : Assignment}
    (hp : lease.prefixes.head? = some p)
    (ha : a ∈ (reconcile lans.ifaces w
      ⟨p.pfx, p.validLifetime, p.preferredLifetime, faults⟩).assigned)
    (hsome : a.subnet.isSome = true) : lans.Delegates [lease] a.iface (lans.config a) := by
  cases hopen : faults.open_ with
  | true =>
    rw [reconcile, if_pos hopen] at ha
    cases ha
  | false =>
    rw [reconcile_assigned hopen] at ha
    obtain ⟨index, hindex, rfl⟩ := List.mem_map.mp ha
    obtain ⟨hname, hshare⟩ := @Lans.config_reconcileOne lans lease p index
      (lans.ifaces.getD index "") hp faults w.assigned (w.addrs index)
    rw [if_pos hsome] at hshare
    have hlt : index < lans.ifaces.length := List.mem_range.mp hindex
    refine ⟨lease, List.mem_singleton_self _, index, ?_, ?_⟩
    · rw [hname, List.getD_eq_getElem?_getD, List.getElem?_eq_getElem hlt]
      rfl
    · rw [hname]
      exact hshare

end Shares

theorem Lans.Delegates.mono {lans : Lans} {leases leases' : List Lease} {iface : String}
    {cfg : Radvd.Config} (h : lans.Delegates leases iface cfg) (hsub : leases ⊆ leases') :
    lans.Delegates leases' iface cfg := by
  obtain ⟨lease, hlease, hshare⟩ := h
  exact ⟨lease, hsub hlease, hshare⟩

/-- An interface that was only told of these leases. -/
structure Lans.Honest (lans : Lans) (leases : List Lease) (iface : String) (o : Radvd.Observed) :
    Prop where
  faithful : Radvd.Faithful (lans.advertiser iface) o
  told : Radvd.Told (lans.advertiser iface) o
  heeds : Radvd.Heeds (lans.Delegates leases iface) o

namespace Lans.Honest
variable {lans : Lans} {leases : List Lease} {iface : String} {o : Radvd.Observed}

theorem initial (now : ℤ) : lans.Honest leases iface (.initial now) where
  faithful := .initial _ now
  told := ⟨List.forall_mem_nil _, fun _ h => absurd h (by simp [Radvd.Observed.initial])⟩
  heeds := .initial _ now

theorem mono {leases' : List Lease} (h : lans.Honest leases iface o) (hsub : leases ⊆ leases') :
    lans.Honest leases' iface o :=
  ⟨h.faithful, h.told, h.heeds.mono fun _ hcfg => hcfg.mono hsub⟩

theorem step {action : Radvd.Action} (h : lans.Honest leases iface o)
    (hcast : ∀ cfg, action.passed = some cfg → lans.Delegates leases iface cfg) :
    lans.Honest leases iface (o.step (lans.advertiser iface) action) where
  faithful := h.faithful.step action
  told := h.told.step (.step h.faithful action)
  heeds := h.heeds.step hcast

/-- The hosts read each advertisement as the interface's share of a lease. -/
theorem read (h : lans.Honest leases iface o) {x : Radvd.RouterAdvertisement × Option Radvd.Config}
    (hx : x ∈ o.sent) : ∃ cfg, lans.Delegates leases iface cfg ∧
      ∃ lifetime, (lifetime = 1800 ∨ lifetime = 0) ∧
        Radvd.readRouterAdvertisement x.1.marshal =
          some (cfg.view (lans.mac iface).bytes lifetime) := by
  obtain ⟨cfg, lifetime, hcfg, hra⟩ := h.faithful.carried x hx
  refine ⟨cfg, h.heeds.sent x hx cfg hcfg, ?_⟩
  have hmac : (lans.advertiser iface).mac.length = 6 := (lans.mac iface).size
  rcases h.told.sent x hx with hdefault | hzero
  · have hlifetime : lifetime = Radvd.advDefaultLifetime := by rw [← hdefault, hra]; rfl
    exact ⟨1800, .inl rfl, by rw [hra]; exact Radvd.read_ra hmac cfg (.inl ⟨hlifetime, rfl⟩)⟩
  · have hlifetime : lifetime = 0 := by rw [← hzero, hra]; rfl
    exact ⟨0, .inr rfl, by rw [hra]; exact Radvd.read_ra hmac cfg (.inr ⟨hlifetime, rfl⟩)⟩

end Lans.Honest

namespace Site

/-- What holds in every run. -/
structure Numbered (lans : Lans) (initial : Lease) (s : Site) : Prop where
  sound : s.tree.world.Sound
  kept : Tree.Kept initial s.tree
  honest : ∀ iface, lans.Honest (initial :: s.tree.casts) iface (s.links iface)

def Current (lans : Lans) (initial : Lease) (index : ℕ) (iface : String) (s : Site) : Prop :=
  Radvd.Recent (lans.share (s.tree.lan initial) index iface) (s.links iface)

section Runs
variable {lans : Lans} {clientID : Duid} {initial lease : Lease} {s next : Site} {faults : Faults}

theorem reconcileAndLog_honest {leases : List Lease}
    (hnext : s.reconcileAndLog lans faults lease = some next) (hlease : lease ∈ leases)
    (h : ∀ iface, lans.Honest leases iface (s.links iface)) :
    next.tree = s.tree ∧ ∀ iface, lans.Honest leases iface (next.links iface) := by
  obtain ⟨p, hp, rfl⟩ := Option.map_eq_some_iff.mp hnext
  refine ⟨rfl, Lans.sync_invariant h fun a ha hsome o ho => ho.step fun cfg hcfg => ?_⟩
  cases hcfg
  exact (Lans.mem_assigned hp ha hsome).mono (by simpa using hlease)

theorem reconcileAndLog_current {index : ℕ} {iface : String} {latest : Option Radvd.Config}
    (hnext : s.reconcileAndLog lans faults lease = some next) (hopen : faults.open_ = false)
    (hnodup : lans.ifaces.Nodup) (hiface : lans.ifaces[index]? = some iface)
    (hshare : (lans.share lease index iface).isSome = true)
    (h : Radvd.Recent latest (s.links iface)) :
    Radvd.Recent (lans.share lease index iface) (next.links iface) := by
  obtain ⟨p, hp, rfl⟩ := Option.map_eq_some_iff.mp hnext
  obtain ⟨hlt, hname⟩ := List.getElem?_eq_some_iff.mp hiface
  have hgetD : ∀ j, lans.ifaces[j]?.getD "" = lans.ifaces.getD j "" := fun j =>
    (List.getD_eq_getElem?_getD ..).symm
  set c : Call := ⟨p.pfx, p.validLifetime, p.preferredLifetime, faults⟩ with hc
  set f : ℕ → Assignment := fun j =>
    (reconcileOne c j (lans.ifaces.getD j "") s.lan.assigned (s.lan.addrs j)).assignment with hf
  have hone : ∀ j, (f j).iface = lans.ifaces.getD j "" ∧
      lans.share lease j (lans.ifaces.getD j "") =
        if (f j).subnet.isSome then some (lans.config (f j)) else none := fun j =>
    Lans.config_reconcileOne hp faults s.lan.assigned (s.lan.addrs j)
  have hassigned : (reconcile lans.ifaces s.lan c).assigned =
      (List.range lans.ifaces.length).map f := reconcile_assigned hopen
  have hnames : ((List.range lans.ifaces.length).map f).map Assignment.iface = lans.ifaces := by
    apply List.ext_getElem
    · simp
    · intro j hj hj'
      simp [(hone j).1, List.getD_eq_getElem?_getD, hj']
  have hself : lans.ifaces.getD index "" = iface := by
    rw [← hgetD, hiface]
    rfl
  obtain ⟨hiface', hshare'⟩ := hone index
  rw [hself] at hiface' hshare'
  rw [hshare'] at hshare ⊢
  split_ifs at hshare ⊢ with hsome
  · have hsync : lans.sync s.links ((List.range lans.ifaces.length).map f) (f index).iface = _ :=
      Lans.sync_of_mem (by rwa [hnames]) (List.mem_map_of_mem (List.mem_range.mpr hlt)) hsome
    rw [hiface'] at hsync
    change Radvd.Recent _ (lans.sync s.links (reconcile lans.ifaces s.lan c).assigned iface)
    rw [hassigned, hsync]
    exact h.cast _
  · cases hshare

theorem Numbered.step (h : Numbered lans initial s) (act : Action) :
    Numbered lans initial (s.step lans clientID initial act) := by
  have hsound : ∀ act, (s.tree.step clientID initial act).world.Sound := fun act =>
    Tree.sound_step h.sound act
  have hhonest : ∀ act iface, lans.Honest (initial :: (s.tree.step clientID initial act).casts)
      iface (s.links iface) := fun act iface =>
    (h.honest iface).mono (List.cons_subset_cons initial (h.kept.casts_step act).subset)
  cases act with
  | tree act faults =>
    rw [Site.step]
    split
    · exact ⟨hsound act, h.kept.step act, hhonest act⟩
    · next lease happlies =>
      cases hnext : reconcileAndLog lans { s with tree := s.tree.step clientID initial act } faults
          lease with
      | none =>
        have hkept : Tree.Kept initial (s.tree.step clientID initial .applyCrash) :=
          h.kept.step .applyCrash
        exact ⟨hsound .applyCrash, hkept, hhonest .applyCrash⟩
      | some next =>
        have hlease : lease ∈ initial :: (s.tree.step clientID initial act).casts := by
          refine List.mem_cons_of_mem _ ((h.kept.casts_step act).subset ?_)
          exact List.mem_of_getElem? (Tree.applies_eq happlies).2
        obtain ⟨htree, hnext'⟩ := reconcileAndLog_honest hnext hlease (hhonest act)
        rw [Option.getD_some]
        exact ⟨htree ▸ hsound act, htree ▸ h.kept.step act, htree ▸ hnext'⟩
  | link iface act =>
    rw [Site.step]
    split_ifs with hpassed
    · exact h
    · refine ⟨h.sound, h.kept, fun iface' => ?_⟩
      by_cases heq : iface' = iface
      · subst heq
        dsimp only
        rw [Function.update_self]
        exact (h.honest iface').step fun cfg hcfg => absurd hpassed (by simp [hcfg])
      · dsimp only
        rw [Function.update_of_ne heq]
        exact h.honest iface'

theorem Numbered.casts_step (h : Numbered lans initial s) (act : Action) :
    s.tree.casts ⊆ (s.step lans clientID initial act).tree.casts := by
  cases act with
  | tree act faults =>
    rw [Site.step]
    split
    · exact (h.kept.casts_step act).subset
    · next lease happlies =>
      rw [reconcileAndLog]
      cases lease.prefixes.head? with
      | none => exact List.Subset.refl _
      | some p => exact (h.kept.casts_step act).subset
  | link iface act =>
    rw [Site.step]
    split_ifs
    · exact List.Subset.refl _
    · exact List.Subset.refl _

theorem Current.step {index : ℕ} {iface : String} {act : Action} (h : Current lans initial index
      iface s) (hkept : Tree.Kept initial s.tree) (hopen : act.Opens) (hnodup : lans.ifaces.Nodup)
    (hiface : lans.ifaces[index]? = some iface)
    (hshares : ∀ lease ∈ s.tree.casts, (lans.share lease index iface).isSome = true) :
    Current lans initial index iface (s.step lans clientID initial act) := by
  cases act with
  | tree act faults =>
    rw [Site.step]
    split
    · next hnone =>
      rw [Current]
      dsimp only
      rw [hkept.lan_step hnone]
      exact h
    · next lease happlies =>
      obtain ⟨rfl, hcast⟩ := Tree.applies_eq happlies
      have hshare := hshares lease (List.mem_of_getElem? hcast)
      cases hnext : reconcileAndLog lans { s with tree := s.tree.step clientID initial .apply }
          faults lease with
      | none =>
        obtain ⟨cfg, hcfg⟩ := Option.isSome_iff_exists.mp hshare
        obtain ⟨p, rest, subnet, hcons, -, -⟩ := Lans.share_eq_some hcfg
        rw [reconcileAndLog, hcons] at hnext
        cases hnext
      | some next =>
        have htree : next.tree = s.tree.step clientID initial .apply := by
          obtain ⟨p, -, rfl⟩ := Option.map_eq_some_iff.mp hnext
          rfl
        rw [Option.getD_some, Current, htree, Tree.lan_applied hcast]
        exact reconcileAndLog_current hnext hopen hnodup hiface hshare h
  | link iface' act =>
    rw [Site.step]
    split_ifs with hpassed
    · exact h
    · rw [Current]
      dsimp only
      by_cases heq : iface = iface'
      · subst heq
        rw [Function.update_self]
        exact Radvd.Recent.step h (by simpa using hpassed)
      · rw [Function.update_of_ne heq]
        exact h

theorem start_numbered (hinitial : initial.Sound) (clientID : Duid) (now : ℤ)
    (prior : List Service.Event) (faults : Faults) :
    ∃ s, start lans clientID initial now prior faults = some s ∧ Numbered lans initial s ∧
      ∀ index iface, faults.open_ = false → lans.ifaces.Nodup → lans.ifaces[index]? = some iface →
        (lans.share initial index iface).isSome = true → Current lans initial index iface s := by
  obtain ⟨p, rest, hcons, -⟩ := hinitial.first
  have hsome : (start lans clientID initial now prior faults).isSome = true := by
    simp [start, reconcileAndLog, hcons]
  obtain ⟨s, hs⟩ := Option.isSome_iff_exists.mp hsome
  have hhonest : ∀ iface, lans.Honest [initial] iface (Radvd.Observed.initial now) := fun iface =>
    .initial now
  obtain ⟨htree, hlinks⟩ := reconcileAndLog_honest hs (List.mem_singleton_self initial) hhonest
  have hcasts : s.tree.casts = [] := by
    rw [htree]
    rfl
  refine ⟨s, hs, ⟨?_, ?_, ?_⟩, fun index iface hopen hnodup hiface hshare => ?_⟩
  · rw [htree]
    exact ⟨fun lease hlease => (by cases hlease), List.forall_mem_nil _⟩
  · rw [htree]
    exact Tree.Kept.start clientID initial now prior
  · rw [hcasts]
    exact hlinks
  · have hlan : s.tree.lan initial = initial := by
      rw [htree]
      rfl
    rw [Current, hlan]
    exact reconcileAndLog_current hs hopen hnodup hiface hshare (.initial none now)

end Runs
end Site

/-- Applying the first lease, and every later one, comes through. Whatever ends and is started
again, and whatever address fails to be assigned, each advertisement on an interface is read by the
hosts as the interface's own /64 of a delegated prefix, with the lifetimes that prefix came with.
Where the sockets opened and the leases had room for it, an advertiser that took something up and
has nothing waiting advertises its part of the lease the LAN is on. -/
theorem lan_numbered_from_lease (lans : Lans) (clientID : Duid) {initial : Lease}
    (hinitial : initial.Sound) (now : ℤ) (prior : List Service.Event) (faults : Faults) :
    ∃ start, Site.start lans clientID initial now prior faults = some start ∧
      ∀ actions : List Site.Action,
        let s := actions.foldl (Site.step lans clientID initial) start
        (∀ lease ∈ s.tree.casts, ∃ p, lease.prefixes.head? = some p) ∧
        (∀ iface, ∀ x ∈ (s.links iface).sent, ∃ lease ∈ initial :: s.tree.casts,
          ∃ (p : IAPrefix) (index : ℕ) (subnet : Prefix) (lifetime : UInt16),
            lease.prefixes.head? = some p ∧
            p.preferredLifetime ≤ p.validLifetime ∧ lans.ifaces[index]? = some iface ∧
            subnetFor p.pfx index = .ok subnet ∧
            (∀ addr, Contains subnet addr → Contains p.pfx addr) ∧
            (lifetime = 1800 ∨ lifetime = 0) ∧
            Radvd.readRouterAdvertisement x.1.marshal =
              some (Radvd.Config.view ⟨some subnet, true, p.validLifetime, p.preferredLifetime,
                lans.rdnss iface⟩ (lans.mac iface).bytes lifetime)) ∧
        (lans.ifaces.Nodup → faults.open_ = false → (∀ act ∈ actions, act.Opens) →
          ∀ index iface, lans.ifaces[index]? = some iface →
            (∀ lease ∈ initial :: s.tree.casts, (lans.share lease index iface).isSome = true) →
            ∀ p, (s.links iface).world.process = some p → p.mailbox = [] →
              p.state.configured = true →
              ∃ cfg, lans.share (s.tree.lan initial) index iface = some cfg ∧
                Radvd.Advertising p cfg) := by
  obtain ⟨start, hstart, hnumbered, hcurrent⟩ :=
    Site.start_numbered hinitial clientID now prior faults
  refine ⟨start, hstart, fun actions => ?_⟩
  intro s
  have hrun : ∀ acts : List Site.Action, Site.Numbered lans initial
      (acts.foldl (Site.step lans clientID initial) start) := fun acts =>
    List.foldlRecOn (motive := Site.Numbered lans initial) acts _ hnumbered
      fun s hs act _ => hs.step act
  have hsound : ∀ lease ∈ initial :: s.tree.casts, lease.Sound := by
    refine List.forall_mem_cons.mpr ⟨hinitial, fun lease hlease => ?_⟩
    exact (hrun actions).sound.applied lease (List.mem_reverse.mp hlease)
  refine ⟨fun lease hlease => ?_, fun iface x hx => ?_, ?_⟩
  · obtain ⟨p, rest, hcons, -⟩ := (hsound lease (List.mem_cons_of_mem _ hlease)).first
    exact ⟨p, by rw [hcons]; rfl⟩
  · obtain ⟨cfg, ⟨lease, hlease, index, hiface, hshare⟩, lifetime, hlifetime, hread⟩ :=
      ((hrun actions).honest iface).read hx
    obtain ⟨p, rest, subnet, hcons, hsubnet, rfl⟩ := Lans.share_eq_some hshare
    obtain ⟨p', rest', hcons', hordered⟩ := (hsound lease hlease).first
    cases hcons.symm.trans hcons'
    exact ⟨lease, hlease, p, index, subnet, lifetime, by rw [hcons]; rfl, hordered, hiface, hsubnet,
      fun addr => subnetFor_inside hsubnet, hlifetime, hread⟩
  · intro hnodup hopen hopens index iface hiface hshares p hp hidle hconf
    have hcurrently : Site.Numbered lans initial s ∧
        ((∀ lease ∈ s.tree.casts, (lans.share lease index iface).isSome = true) →
          Site.Current lans initial index iface s) := by
      refine List.foldlRecOn (motive := fun s => Site.Numbered lans initial s ∧
        ((∀ lease ∈ s.tree.casts, (lans.share lease index iface).isSome = true) →
          Site.Current lans initial index iface s)) actions _ ⟨hnumbered, fun _ => ?_⟩ ?_
      · exact hcurrent index iface hopen hnodup hiface (hshares initial List.mem_cons_self)
      · intro s hs act hact
        refine ⟨hs.1.step act, fun hnext => ?_⟩
        have hbefore : ∀ lease ∈ s.tree.casts, (lans.share lease index iface).isSome = true :=
          fun lease hlease => hnext lease (hs.1.casts_step act hlease)
        exact (hs.2 hbefore).step hs.1.kept (hopens act hact) hnodup hiface hbefore
    have hcasts : ∀ lease ∈ s.tree.casts, (lans.share lease index iface).isSome = true :=
      fun lease hlease => hshares lease (List.mem_cons_of_mem _ hlease)
    exact (hcurrently.2 hcasts).advertising hp hidle hconf

def sampleLans : Lans := ⟨["lan0"], fun _ => .zero 6, fun _ => none⟩

/-- The lease is advertised, renewed with another prefix and applied, and that is advertised once
the first advertisement is no longer recent. -/
def renumberedSite : List Site.Action :=
  [.link "lan0" (.event (.handled 0 none)), .link "lan0" (.event (.fired .unsolicited 0 none))] ++
    renumberedActions.map (.tree · noFaults) ++
  [.link "lan0" (.event (.handled 0 none)), .link "lan0" (.event (.elapse 3000000000)),
    .link "lan0" (.event (.fired .quiet 0 none)),
    .link "lan0" (.event (.fired .unsolicited 0 none))]

theorem sampleLease_sound : sampleLease.Sound := by
  refine ⟨0, [1], sampleIAPD [PrefixDelegation.samplePrefix 1 3600 7200], [], ⟨⟨?_, ?_, ?_, ?_⟩,
    ?_, ?_, ?_⟩, rfl⟩
  · exact isSeconds_seconds 0
  · exact isSeconds_seconds 0
  · simp [sampleIAPD, PrefixDelegation.samplePrefix, isSeconds_seconds]
  · simp [sampleIAPD, PrefixDelegation.samplePrefix, isSeconds_seconds]
  · simp [sampleIAPD]
  · decide +kernel
  · decide +kernel

def bothAdvertised (s : Site) : Bool :=
  (s.links "lan0").sent.length = 2 &&
    (sampleLease :: s.tree.casts).all (fun lease => (sampleLans.share lease 0 "lan0").isSome) &&
    (s.links "lan0").world.process.any fun p => p.mailbox.isEmpty && p.state.configured

theorem lan_numbered_from_lease_renumbered :
    ∃ start, Site.start sampleLans [9] sampleLease 0 [] noFaults = some start ∧
      let s := renumberedSite.foldl (Site.step sampleLans [9] sampleLease) start
      (s.links "lan0").sent.length = 2 ∧ ∃ p cfg, (s.links "lan0").world.process = some p ∧
        sampleLans.share (s.tree.lan sampleLease) 0 "lan0" = some cfg ∧
          Radvd.Advertising p cfg := by
  obtain ⟨start, hstart, hrun⟩ :=
    lan_numbered_from_lease sampleLans [9] sampleLease_sound 0 [] noFaults
  have hboth : (Site.start sampleLans [9] sampleLease 0 [] noFaults).all (fun start =>
      bothAdvertised (renumberedSite.foldl (Site.step sampleLans [9] sampleLease) start)) =
        true := by
    decide +kernel
  rw [hstart, Option.all_some, bothAdvertised] at hboth
  simp only [Bool.and_eq_true, decide_eq_true_eq, List.all_eq_true, Option.any_eq_true,
    List.isEmpty_iff] at hboth
  obtain ⟨⟨hsent, hshares⟩, p, hp, hidle, hconf⟩ := hboth
  obtain ⟨cfg, hcfg, hadvertising⟩ := (hrun renumberedSite).2.2 (List.nodup_singleton _) rfl
    (by simp [renumberedSite, renumberedActions, Site.Action.Opens, noFaults]) 0 "lan0" rfl hshares
    p hp hidle hconf
  exact ⟨start, hstart, hsent, p, cfg, hp, hcfg, hadvertising⟩

end Minuteman.LanPrefix
