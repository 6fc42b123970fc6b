import Minuteman.Loader.Operations

/-!
# Garbage collection of recorded flows

`GCFlowAffinity` deletes the entries of past epochs and, unless a migration is
priming, the current ones that have been idle too long. A deletion that fails
is skipped.
-/
namespace Minuteman.Loader
open Library Datapath Prog

structure FlowIdleTimeouts where
  tcp : ℤ
  other : ℤ

def FlowIdleTimeouts.of (t : FlowIdleTimeouts) (key : FlowKey) : ℤ :=
  if key.proto = ipprotoTcp then t.tcp else t.other

def idleNs (now lastSeen : ℕ) : ℤ :=
  Int.bmod (Int.bmod now (2 ^ 64) - Int.bmod lastSeen (2 ^ 64)) (2 ^ 64)

/-- Whether the collection drops an entry it finds in a datapath with control word `c`. -/
def dropsEntry (c : MigrationCtrl) (t : FlowIdleTimeouts) (now : ℕ) (entry : FlowKey × FlowAffinity) :
    Bool :=
  if entry.2.epoch ≠ c.epoch then true
  else if c.state = migPriming then false
  else decide (idleNs now entry.2.lastSeenNs > t.of entry.1)

def deleteFlows : List FlowKey → LoaderM Unit
  | [] => .pure ()
  | key :: keys => do
    .attempt (.deleteFlowAffinity key)
    deleteFlows keys

/-- `GCFlowAffinity`, returning the number of flows that remain; `now` is the clock's answer. -/
def gcFlowAffinity (t : FlowIdleTimeouts) (now : ℕ) : LoaderM ℕ := do
  let c ← readCtrl
  let now ← .perform .clockGettime .readingClock fun _ => now
  let entries ← .perform .iterateFlowAffinity .iteratingFlowAffinity fun m => m.flowAffinity.toList
  deleteFlows ((entries.filter (dropsEntry c t now)).map Prod.fst)
  .pure (entries.countP fun entry => !dropsEntry c t now entry)

/-- Some of the flows `keys` were deleted and nothing else happened. -/
structure Deleted (keys : List FlowKey) (m m' : Maps) : Prop where
  loader : m'.toLoaderMaps = m.toLoaderMaps
  stats : m'.stats = m.stats
  kept : ∀ key, m'.flowAffinity.get key = m.flowAffinity.get key ∨
    (key ∈ keys ∧ m'.flowAffinity.get key = none)

theorem deleteFlows_spec (keys : List FlowKey) (m : Maps) :
    Spec MapOp.effect (fun _ => True) (fun r m' => r = .ok () ∧ Deleted keys m m')
      (deleteFlows keys) m := by
  induction keys generalizing m with
  | nil => exact ⟨rfl, rfl, rfl, fun _ => Or.inl rfl⟩
  | cons key keys ih =>
    refine ⟨⟨trivial, ?_⟩, ⟨trivial, ?_⟩⟩
    · refine (ih (MapOp.effect (.deleteFlowAffinity key) m)).imp ?_
      rintro r m' ⟨hr, h⟩
      refine ⟨hr, h.loader, h.stats, ?_⟩
      intro k
      have hdelete : (MapOp.effect (.deleteFlowAffinity key) m).flowAffinity.get k =
          if k = key then none else m.flowAffinity.get k := BoundedMap.get_delete _ _ _
      by_cases hk : k = key
      · subst hk
        rw [if_pos rfl] at hdelete
        refine Or.inr ⟨List.mem_cons_self, ?_⟩
        rcases h.kept k with hsame | ⟨-, hnone⟩
        · rw [hsame, hdelete]
        · exact hnone
      · rw [if_neg hk] at hdelete
        rcases h.kept k with hsame | ⟨hmem, hnone⟩
        · exact Or.inl (hsame.trans hdelete)
        · exact Or.inr ⟨List.mem_cons_of_mem _ hmem, hnone⟩
    · refine (ih m).imp ?_
      rintro r m' ⟨hr, h⟩
      refine ⟨hr, h.loader, h.stats, ?_⟩
      intro k
      exact (h.kept k).imp_right fun hk => ⟨List.mem_cons_of_mem _ hk.1, hk.2⟩

/-- Nothing but entries the collection drops is gone. -/
structure Collected (t : FlowIdleTimeouts) (now : ℕ) (m m' : Maps) : Prop where
  loader : m'.toLoaderMaps = m.toLoaderMaps
  stats : m'.stats = m.stats
  kept : ∀ key, m'.flowAffinity.get key = m.flowAffinity.get key ∨
    (m'.flowAffinity.get key = none ∧
      ∃ fa, m.flowAffinity.get key = some fa ∧ dropsEntry m.ctrl t now (key, fa) = true)

theorem Deleted.collected {t : FlowIdleTimeouts} {now : ℕ} {m m' : Maps}
    (h : Deleted ((m.flowAffinity.toList.filter (dropsEntry m.ctrl t now)).map Prod.fst) m m') :
    Collected t now m m' := by
  refine ⟨h.loader, h.stats, fun key => (h.kept key).imp_right ?_⟩
  rintro ⟨hmem, hnone⟩
  obtain ⟨⟨k, fa⟩, hentry, rfl⟩ := List.mem_map.mp hmem
  obtain ⟨hin, hdrop⟩ := List.mem_filter.mp hentry
  exact ⟨hnone, fa, BoundedMap.mem_toList.mp hin, hdrop⟩

/-- A collection that fails changes nothing; one that succeeds reports what is left alive. -/
theorem gcFlowAffinity_spec (t : FlowIdleTimeouts) (now : ℕ) (m : Maps) :
    Spec MapOp.effect (fun _ => True)
      (fun r m' => ((∃ e, r = .error e) ∧ m' = m) ∨
        (r = .ok (m.flowAffinity.toList.countP fun entry => !dropsEntry m.ctrl t now entry) ∧
          Collected t now m m'))
      (gcFlowAffinity t now) m := by
  refine ⟨⟨trivial, ⟨trivial, ⟨trivial, ?_⟩, ⟨trivial, ?_⟩⟩, ⟨trivial, ?_⟩⟩, ⟨trivial, ?_⟩⟩
  · change Spec MapOp.effect _ _
      (deleteFlows ((m.flowAffinity.toList.filter (dropsEntry m.ctrl t now)).map Prod.fst) >>=
        fun _ => .pure (m.flowAffinity.toList.countP fun entry => !dropsEntry m.ctrl t now entry)) m
    refine Spec.bind (deleteFlows_spec _ m) ?_ ?_
    · rintro _ m' ⟨-, h⟩
      exact Or.inr ⟨rfl, h.collected⟩
    · rintro e m' ⟨hr, -⟩
      cases hr
  all_goals exact Or.inl ⟨⟨_, rfl⟩, rfl⟩

private theorem deleteFlows_keeps_pmtus (keys : List FlowKey) (m : Maps) :
    Spec MapOp.effect (fun step => step.after.tunnelPmtus = step.before.tunnelPmtus)
      (fun _ _ => True) (deleteFlows keys) m := by
  induction keys generalizing m with
  | nil => trivial
  | cons key keys ih => exact ⟨⟨rfl, ih _⟩, ⟨rfl, ih _⟩⟩

/-- A collection leaves the learned path MTUs alone. -/
theorem gcFlowAffinity_tunnelPmtus (t : FlowIdleTimeouts) (now : ℕ) (faults : Faults) (m : Maps) :
    ((gcFlowAffinity t now).exec MapOp.effect faults m).2.tunnelPmtus = m.tunnelPmtus := by
  have hspec : Spec MapOp.effect (fun step => step.after.tunnelPmtus = step.before.tunnelPmtus)
      (fun _ _ => True) (gcFlowAffinity t now) m := by
    refine ⟨⟨rfl, ⟨rfl, ⟨rfl, ?_⟩, ⟨rfl, ?_⟩⟩, ⟨rfl, ?_⟩⟩, ⟨rfl, trivial⟩⟩
    · change Spec MapOp.effect _ _ (deleteFlows _ >>= fun _ => .pure _) m
      exact Spec.bind (deleteFlows_keeps_pmtus _ m) (fun _ _ _ => trivial) (fun _ _ _ => trivial)
    · trivial
    · trivial
  exact hspec.rel (R := fun (a b : Maps) => b.tunnelPmtus = a.tunnelPmtus) (fun _ => rfl)
    (fun _ _ _ hab hbc => hbc.trans hab) (fun _ hstep => hstep) faults

end Minuteman.Loader
