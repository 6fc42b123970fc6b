import Minuteman.LanPrefix.Carve
import Minuteman.Library.Interference

/-!
# Reconciling LAN addresses

`internal/lanprefix/reconcile.go`, called with each lease and the assignments
the previous call returned. Those are all it remembers, also of what failed.
-/
namespace Minuteman.LanPrefix
open Library PrefixDelegation

/-- The subnet is none where the source has the zero prefix, and so is the address. -/
structure Assignment where
  iface : String
  subnet : Option Prefix
  address : Option Addr
  validLifetime : ℤ
  preferredLifetime : ℤ
  deriving DecidableEq

inductive ReconcileError where
  | carve (e : CarveError)
  | lookup
  | remove (a : Addr)
  | assign (a : Addr)
  deriving DecidableEq

/-- What fails in one call, for each LAN interface by its position. -/
structure Faults where
  open_ : Bool
  lookup : ℕ → Bool
  del : ℕ → Bool
  add : ℕ → Bool

structure Call where
  delegated : Prefix
  validLifetime : ℤ
  preferredLifetime : ℤ
  faults : Faults

/-- Removing an address the interface does not have fails, too. -/
def delAddr (fails : Bool) (addr : Addr) (addrs : List Addr) : Option (List Addr) :=
  if fails ∨ addr ∉ addrs then none else some (addrs.erase addr)

/-- Adding an address the interface has leaves it as it is. -/
def addAddr (fails : Bool) (addr : Addr) (addrs : List Addr) : Option (List Addr) :=
  if fails then none else some (if addr ∈ addrs then addrs else addrs ++ [addr])

structure Outcome where
  assignment : Assignment
  err : Option ReconcileError
  addrs : List Addr

/-- The subnet an assignment records, with its address. -/
def Assignment.recorded (a : Assignment) : Option (Prefix × Addr) :=
  a.subnet.map fun subnet => (subnet, a.address.getD default)

def previous (prev : List Assignment) (index : ℕ) : Option (Prefix × Addr) :=
  prev[index]?.bind Assignment.recorded

/-- The last step of `reconcileOne`. -/
def assign (faults : Faults) (index : ℕ) (a : Assignment) (addr : Addr) (addrs : List Addr) :
    Outcome :=
  match addAddr (faults.add index) addr addrs with
  | some addrs' => ⟨a, none, addrs'⟩
  | none => ⟨a, some (.assign addr), addrs⟩

def reconcileOne (c : Call) (index : ℕ) (ifaceName : String) (prev : List Assignment)
    (addrs : List Addr) : Outcome :=
  match subnetFor c.delegated index with
  | .error e => ⟨⟨ifaceName, none, none, 0, 0⟩, some (.carve e), addrs⟩
  | .ok subnet =>
    match assignedAddress subnet with
    | .error e => ⟨⟨ifaceName, some subnet, none, 0, 0⟩, some (.carve e), addrs⟩
    | .ok addr =>
      let a : Assignment := ⟨ifaceName, some subnet, some addr, c.validLifetime, c.preferredLifetime⟩
      if c.faults.lookup index then ⟨a, some .lookup, addrs⟩
      else
        match previous prev index with
        | some (oldSubnet, oldAddress) =>
          if oldSubnet = subnet then ⟨a, none, addrs⟩
          else
            match delAddr (c.faults.del index) oldAddress addrs with
            | none => ⟨a, some (.remove oldAddress), addrs⟩
            | some addrs' => assign c.faults index a addr addrs'
        | none => assign c.faults index a addr addrs

/-- The addresses of the LAN interfaces that the calls manage, the assignments the last one
returned, the prefix it was given and whether it returned an error. -/
structure World where
  addrs : ℕ → List Addr
  assigned : List Assignment
  delegated : Option Prefix
  failed : Bool

/-- `Reconcile`, its result kept for the next call. -/
def reconcile (lanIfaces : List String) (w : World) (c : Call) : World :=
  if c.faults.open_ then
    { w with assigned := [], delegated := some c.delegated, failed := true }
  else
    let outcome (index : ℕ) :=
      reconcileOne c index (lanIfaces.getD index "") w.assigned (w.addrs index)
    { addrs := fun index => if index < lanIfaces.length then (outcome index).addrs else w.addrs index
      assigned := (List.range lanIfaces.length).map fun index => (outcome index).assignment
      delegated := some c.delegated
      failed := (List.range lanIfaces.length).any fun index => (outcome index).err.isSome }

def World.initial : World := ⟨fun _ => [], [], none, false⟩

/-- After a call that did not fail, each interface has exactly the address of the prefix it was
given. -/
def Converged (lanIfaces : List String) (w : World) : Prop :=
  ∀ delegated, w.delegated = some delegated → w.failed = false →
    ∀ index < lanIfaces.length, ∃ subnet addr, subnetFor delegated index = .ok subnet ∧
      assignedAddress subnet = .ok addr ∧ w.addrs index = [addr]

/-- Only what leaves nothing to remember fails: the socket or the carving where nothing is assigned
yet, anything at an interface whose subnet stays the same. -/
def Harmless (lanIfaces : List String) (w : World) (c : Call) : Prop :=
  if c.faults.open_ then ∀ index, previous w.assigned index = none
  else ∀ index < lanIfaces.length,
    match subnetFor c.delegated index with
    | .error _ => previous w.assigned index = none
    | .ok subnet => (previous w.assigned index).map Prod.fst = some subnet ∨
        (c.faults.lookup index = false ∧ c.faults.add index = false ∧
          (previous w.assigned index ≠ none → c.faults.del index = false))

/-- An interface has the one address its assignment names, or none. -/
def Holds (assigned : Option (Prefix × Addr)) (addrs : List Addr) : Prop :=
  match assigned with
  | none => addrs = []
  | some (subnet, addr) => assignedAddress subnet = .ok addr ∧ addrs = [addr]

def Tracks (lanIfaces : List String) (w : World) : Prop :=
  ∀ index < lanIfaces.length, Holds (previous w.assigned index) (w.addrs index)

section One
variable {c : Call} {index : ℕ} {ifaceName : String} {prev : List Assignment} {addrs : List Addr}
  {subnet : Prefix} {addr : Addr}

theorem assign_spec {a : Assignment} (hadd : c.faults.add index = false) :
    assign c.faults index a addr [] = ⟨a, none, [addr]⟩ := by
  simp [assign, addAddr, hadd]

/-- A harmless call gives the interface the address of its new subnet. -/
theorem reconcileOne_ok (hheld : Holds (previous prev index) addrs)
    (hsubnet : subnetFor c.delegated index = .ok subnet) (haddr : assignedAddress subnet = .ok addr)
    (hharmless : (previous prev index).map Prod.fst = some subnet ∨
      (c.faults.lookup index = false ∧ c.faults.add index = false ∧
        (previous prev index ≠ none → c.faults.del index = false))) :
    (reconcileOne c index ifaceName prev addrs).assignment.recorded = some (subnet, addr) ∧
      (reconcileOne c index ifaceName prev addrs).addrs = [addr] := by
  unfold reconcileOne
  rw [hsubnet]
  dsimp only
  rw [haddr]
  dsimp only
  cases hprev : previous prev index with
  | none =>
    rw [hprev] at hheld hharmless
    obtain ⟨hlookup, hadd, -⟩ := hharmless.resolve_left (by simp)
    cases (show addrs = [] from hheld)
    rw [if_neg (by simp [hlookup]), assign_spec hadd]
    exact ⟨rfl, rfl⟩
  | some old =>
    obtain ⟨oldSubnet, oldAddress⟩ := old
    rw [hprev] at hheld hharmless
    obtain ⟨hold, rfl⟩ := hheld
    by_cases hsame : oldSubnet = subnet
    · subst hsame
      cases hold.symm.trans haddr
      split_ifs
      · exact ⟨rfl, rfl⟩
      · dsimp only
        rw [if_pos rfl]
        exact ⟨rfl, rfl⟩
    · obtain ⟨hlookup, hadd, hdel⟩ := hharmless.resolve_left (by simpa using hsame)
      have hremoved : delAddr (c.faults.del index) oldAddress [oldAddress] = some [] := by
        simp [delAddr, hdel (by simp)]
      rw [if_neg (by simp [hlookup])]
      dsimp only
      rw [if_neg hsame, hremoved]
      dsimp only
      rw [assign_spec hadd]
      exact ⟨rfl, rfl⟩

theorem reconcileOne_error {e : CarveError} (hsubnet : subnetFor c.delegated index = .error e) :
    reconcileOne c index ifaceName prev addrs =
      ⟨⟨ifaceName, none, none, 0, 0⟩, some (.carve e), addrs⟩ := by
  unfold reconcileOne
  rw [hsubnet]

end One

theorem previous_range {n index : ℕ} (h : index < n) (f : ℕ → Assignment) :
    previous ((List.range n).map f) index = (f index).recorded := by
  simp [previous, h]

variable {lanIfaces : List String} {w : World} {c : Call}

theorem Tracks.reconcile (h : Tracks lanIfaces w) (hharmless : Harmless lanIfaces w c) :
    Tracks lanIfaces (reconcile lanIfaces w c) ∧ Converged lanIfaces (reconcile lanIfaces w c) := by
  rw [Harmless] at hharmless
  rw [LanPrefix.reconcile]
  split_ifs at hharmless ⊢ with hopen
  · constructor
    · intro index hindex
      have hheld := h index hindex
      rw [hharmless index] at hheld
      exact hheld
    · intro delegated _ hfailed
      cases hfailed
  · have hone : ∀ index < lanIfaces.length, ∀ name,
        Holds (reconcileOne c index name w.assigned (w.addrs index)).assignment.recorded
          (reconcileOne c index name w.assigned (w.addrs index)).addrs ∧
        ((reconcileOne c index name w.assigned (w.addrs index)).err.isSome = false →
          ∃ subnet addr, subnetFor c.delegated index = .ok subnet ∧
            assignedAddress subnet = .ok addr ∧
            (reconcileOne c index name w.assigned (w.addrs index)).addrs = [addr]) := by
      intro index hindex name
      have hheld := h index hindex
      have hcase := hharmless index hindex
      cases hsubnet : subnetFor c.delegated index with
      | error e =>
        rw [hsubnet] at hcase
        rw [hcase] at hheld
        rw [reconcileOne_error hsubnet]
        exact ⟨hheld, by simp⟩
      | ok subnet =>
        rw [hsubnet] at hcase
        obtain ⟨addr, haddr⟩ := assignedAddress_of_subnetFor hsubnet
        obtain ⟨hrecorded, haddrs⟩ := @reconcileOne_ok _ _ name _ _ _ _ hheld hsubnet haddr hcase
        rw [hrecorded, haddrs]
        exact ⟨⟨haddr, rfl⟩, fun _ => ⟨subnet, addr, rfl, haddr, rfl⟩⟩
    constructor
    · intro index hindex
      dsimp only
      rw [previous_range hindex, if_pos hindex]
      exact (hone index hindex _).1
    · intro delegated hdelegated hfailed index hindex
      cases hdelegated
      dsimp only at hfailed ⊢
      rw [if_pos hindex]
      rw [List.any_eq_false] at hfailed
      have hnone := hfailed index (List.mem_range.mpr hindex)
      exact (hone index hindex _).2 (by simpa using hnone)

/-- Reconciliation converges in every run of harmless calls. -/
theorem reconciliation_converges {calls : List Call}
    (h : Along (reconcile lanIfaces) (Harmless lanIfaces) World.initial calls) :
    Converged lanIfaces (calls.foldl (reconcile lanIfaces) World.initial) := by
  have hinitial : Tracks lanIfaces World.initial ∧ Converged lanIfaces World.initial := by
    constructor
    · intro index hindex
      rfl
    · rintro delegated ⟨⟩
  refine (h.invariant (I := fun w => Tracks lanIfaces w ∧ Converged lanIfaces w) ?_ hinitial).2
  intro w c hw hc
  exact hw.1.reconcile hc

def samplePrefix (site : UInt8) : Prefix :=
  ⟨FixedBytes.read 16 ([0x20, 0x01, 0x0d, 0xb8, 0, 0, site] ++ List.replicate 9 0), 56⟩

def noFaults : Faults := ⟨false, fun _ => false, fun _ => false, fun _ => false⟩

theorem harmless_noFaults {p : Prefix} (h : ∀ i < lanIfaces.length, (subnetFor p i).isOk = true) :
    Harmless lanIfaces w ⟨p, 0, 0, noFaults⟩ := by
  rw [Harmless, if_neg (by simp [noFaults])]
  intro index hindex
  have hok := h index hindex
  cases hsubnet : subnetFor p index with
  | error e =>
    rw [hsubnet] at hok
    cases hok
  | ok subnet => exact Or.inr ⟨rfl, rfl, fun _ => rfl⟩

def renumberingCalls : List Call :=
  [⟨samplePrefix 1, 0, 0, noFaults⟩, ⟨samplePrefix 2, 0, 0, noFaults⟩]

theorem reconciliation_converges_renumbering :
    Along (reconcile ["lan0"]) (Harmless ["lan0"]) World.initial renumberingCalls ∧
      Converged ["lan0"] (renumberingCalls.foldl (reconcile ["lan0"]) World.initial) := by
  have hharmless : Along (reconcile ["lan0"]) (Harmless ["lan0"]) World.initial renumberingCalls :=
    ⟨harmless_noFaults (by decide +kernel), harmless_noFaults (by decide +kernel), trivial⟩
  exact ⟨hharmless, reconciliation_converges hharmless⟩

def retryCalls : List Call :=
  [⟨samplePrefix 1, 0, 0, { noFaults with add := fun _ => true }⟩,
    ⟨samplePrefix 1, 0, 0, noFaults⟩]

/-- An address that failed to be added is never tried again. -/
theorem failed_address_not_retried :
    ¬ Converged ["lan0"] (retryCalls.foldl (reconcile ["lan0"]) World.initial) := by
  intro h
  obtain ⟨subnet, addr, -, -, haddrs⟩ := h (samplePrefix 1) rfl (by decide +kernel) 0 (by simp)
  have hnone : (retryCalls.foldl (reconcile ["lan0"]) World.initial).addrs 0 = [] := by
    decide +kernel
  cases hnone.symm.trans haddrs

end Minuteman.LanPrefix
