import Mathlib.Tactic

/-!
# Linearization

Operations run concurrently on a shared state, each by atomic steps of its own
that interleave in any order. A simulation fixes, for each operation, the step
that decides its outcome; the operations then have the outcomes they would have
if each ran as a whole at that step.
-/
namespace Minuteman.Library.Linearization
variable {σ τ ι ο χ α : Type}

/-- Operations with input `ι` and outcome `ο`: `τ` is where one of them is, `χ` what the
environment chooses in a step. -/
structure Machine (σ τ ι ο χ : Type) where
  start : ι → τ
  input : τ → ι
  step : σ → χ → τ → σ × (τ ⊕ ο)

/-- The operations under way, in no order, and those that are over. -/
structure State (σ τ ι ο : Type) where
  shared : σ
  running : List τ
  finished : List (ι × ο)

inductive Event (ι χ : Type) where
  | begin_ (i : ι)
  | step (n : ℕ) (c : χ)

def State.settle (w : State σ τ ι ο) (i : ι) (rest : List τ) : σ × (τ ⊕ ο) → State σ τ ι ο
  | (s, .inl t) => ⟨s, t :: rest, w.finished⟩
  | (s, .inr o) => ⟨s, rest, w.finished ++ [(i, o)]⟩

def Machine.next (M : Machine σ τ ι ο χ) (w : State σ τ ι ο) : Event ι χ → State σ τ ι ο
  | .begin_ i => { w with running := M.start i :: w.running }
  | .step n c =>
    match w.running[n]? with
    | none => w
    | some t => w.settle (M.input t) (w.running.eraseIdx n) (M.step w.shared c t)

def Machine.run (M : Machine σ τ ι ο χ) (w : State σ τ ι ο) (evs : List (Event ι χ)) :
    State σ τ ι ο := evs.foldl M.next w

theorem Machine.run_append (M : Machine σ τ ι ο χ) (w : State σ τ ι ο)
    (evs evs' : List (Event ι χ)) : M.run w (evs ++ evs') = M.run (M.run w evs) evs' :=
  List.foldl_append

def sequence (spec : α → ι → ο × α) (a : α) : List ι → List ο × α
  | [] => ([], a)
  | i :: is =>
    ((spec a i).1 :: (sequence spec (spec a i).2 is).1, (sequence spec (spec a i).2 is).2)

theorem sequence_append (spec : α → ι → ο × α) (a : α) (is js : List ι) :
    sequence spec a (is ++ js) =
      ((sequence spec a is).1 ++ (sequence spec (sequence spec a is).2 js).1,
        (sequence spec (sequence spec a is).2 js).2) := by
  induction is generalizing a with
  | nil => rfl
  | cons i is ih => simp only [List.cons_append, sequence, ih]

/-- What a step of operation `t` may do next to the operations `rest`: leave its outcome open or
decided as it was, decide it as the specification does from `a`, or end with it. -/
inductive Advances (M : Machine σ τ ι ο χ) (spec : α → ι → ο × α) (decided : τ → Option ο)
    (rel : α → σ → List τ → Prop) (a : α) (t : τ) (rest : List τ) : σ × (τ ⊕ ο) → Prop where
  | stays (s : σ) (t' : τ) : decided t' = decided t → M.input t' = M.input t →
      rel a s (t' :: rest) → Advances M spec decided rel a t rest (s, .inl t')
  | decides (s : σ) (t' : τ) : decided t = none → decided t' = some (spec a (M.input t)).1 →
      M.input t' = M.input t → rel (spec a (M.input t)).2 s (t' :: rest) →
      Advances M spec decided rel a t rest (s, .inl t')
  | ends (s : σ) (o : ο) : decided t = some o → rel a s rest →
      Advances M spec decided rel a t rest (s, .inr o)
  | decidesLast (s : σ) : decided t = none → rel (spec a (M.input t)).2 s rest →
      Advances M spec decided rel a t rest (s, .inr (spec a (M.input t)).1)

/-- `admits` are the inputs an operation may begin with. -/
structure Simulation (M : Machine σ τ ι ο χ) (spec : α → ι → ο × α) (admits : ι → Prop) where
  decided : τ → Option ο
  rel : α → σ → List τ → Prop
  perm : ∀ {a s ts ts'}, ts.Perm ts' → rel a s ts → rel a s ts'
  begins : ∀ {a s ts} (i : ι), admits i → rel a s ts → rel a s (M.start i :: ts)
  open_ : ∀ i, decided (M.start i) = none
  input_start : ∀ i, M.input (M.start i) = i
  step : ∀ {a s t rest} (c : χ), rel a s (t :: rest) →
    Advances M spec decided rel a t rest (M.step s c t)

/-- What an operation whose outcome is decided adds to an order. -/
def Simulation.place {M : Machine σ τ ι ο χ} {spec : α → ι → ο × α} {admits : ι → Prop}
    (S : Simulation M spec admits) (t : τ) : Option (ι × ο) :=
  (S.decided t).map fun o => (M.input t, o)

/-- `order` is an order of whole operations that explains a state: it has those that are over and
those whose outcome is decided, each with its outcome. -/
structure Explains {M : Machine σ τ ι ο χ} {spec : α → ι → ο × α} {admits : ι → Prop}
    (S : Simulation M spec admits) (a : α) (w : State σ τ ι ο) (order : List (ι × ο)) : Prop where
  outcomes : (sequence spec a (order.map Prod.fst)).1 = order.map Prod.snd
  rel : S.rel (sequence spec a (order.map Prod.fst)).2 w.shared w.running
  perm : order.Perm (w.finished ++ w.running.filterMap S.place)
  running : ∀ t ∈ w.running, admits (M.input t)
  admitted : ∀ r ∈ order, admits r.1

section
variable {M : Machine σ τ ι ο χ} {spec : α → ι → ο × α} {admits : ι → Prop}
  {S : Simulation M spec admits} {a : α} {w : State σ τ ι ο} {order : List (ι × ο)}

theorem Explains.initial {s : σ} (h : S.rel a s []) : Explains S a ⟨s, [], []⟩ [] :=
  ⟨rfl, h, .refl _, List.forall_mem_nil _, List.forall_mem_nil _⟩

theorem Explains.begins (h : Explains S a w order) {i : ι} (hi : admits i) :
    Explains S a (M.next w (.begin_ i)) order := by
  refine ⟨h.outcomes, S.begins i hi h.rel, ?_, ?_, h.admitted⟩
  · rw [Machine.next, List.filterMap_cons_none (by rw [Simulation.place, S.open_ i]; rfl)]
    exact h.perm
  · exact List.forall_mem_cons.mpr ⟨(S.input_start i).symm ▸ hi, h.running⟩

/-- One more operation takes its place at the end of the order. -/
theorem sequence_concat (spec : α → ι → ο × α) (a : α) (order : List (ι × ο)) (i : ι)
    (houtcomes : (sequence spec a (order.map Prod.fst)).1 = order.map Prod.snd) :
    (sequence spec a ((order ++ [(i, (spec (sequence spec a (order.map Prod.fst)).2 i).1)]).map
        Prod.fst)).1 =
      (order ++ [(i, (spec (sequence spec a (order.map Prod.fst)).2 i).1)]).map Prod.snd ∧
    (sequence spec a ((order ++ [(i, (spec (sequence spec a (order.map Prod.fst)).2 i).1)]).map
        Prod.fst)).2 = (spec (sequence spec a (order.map Prod.fst)).2 i).2 := by
  rw [List.map_append, List.map_append, sequence_append]
  exact ⟨congrArg (· ++ _) houtcomes, rfl⟩

theorem Explains.settle (h : Explains S a w order) {t : τ} {rest : List τ}
    (hrunning : w.running.Perm (t :: rest)) {r : σ × (τ ⊕ ο)}
    (hadvances :
      Advances M spec S.decided S.rel (sequence spec a (order.map Prod.fst)).2 t rest r) :
    ∃ more, Explains S a (w.settle (M.input t) rest r) (order ++ more) := by
  have hperm : order.Perm (w.finished ++ (t :: rest).filterMap S.place) :=
    h.perm.trans ((hrunning.filterMap S.place).append_left w.finished)
  obtain ⟨hadmits, hrest⟩ : admits (M.input t) ∧ ∀ t ∈ rest, admits (M.input t) :=
    List.forall_mem_cons.mp fun t ht => h.running t (hrunning.mem_iff.mpr ht)
  have hgrown : ∀ o, ∀ r ∈ order ++ [(M.input t, o)], admits r.1 := fun o =>
    List.forall_mem_append.mpr ⟨h.admitted, List.forall_mem_singleton.mpr hadmits⟩
  cases hadvances with
  | stays s t' hdecided hinput hrel =>
    have hplace : S.place t' = S.place t := by
      rw [Simulation.place, Simulation.place, hdecided, hinput]
    refine ⟨[], ?_⟩
    rw [List.append_nil]
    refine ⟨h.outcomes, hrel, ?_, List.forall_mem_cons.mpr ⟨hinput ▸ hadmits, hrest⟩, h.admitted⟩
    change order.Perm (w.finished ++ (t' :: rest).filterMap S.place)
    rw [List.filterMap_cons, hplace, ← List.filterMap_cons]
    exact hperm
  | decides s t' hopen hdecided hinput hrel =>
    obtain ⟨houtcomes, hlast⟩ := sequence_concat spec a order (M.input t) h.outcomes
    refine ⟨[_], houtcomes, hlast ▸ hrel, ?_,
      List.forall_mem_cons.mpr ⟨hinput ▸ hadmits, hrest⟩, hgrown _⟩
    have hplace : S.place t' =
        some (M.input t, (spec (sequence spec a (order.map Prod.fst)).2 (M.input t)).1) := by
      rw [Simulation.place, hdecided, hinput]
      rfl
    change (order ++ [_]).Perm (w.finished ++ (t' :: rest).filterMap S.place)
    rw [List.filterMap_cons_none (by rw [Simulation.place, hopen]; rfl)] at hperm
    rw [List.filterMap_cons_some hplace]
    exact (List.perm_append_singleton _ _).trans ((hperm.cons _).trans List.perm_middle.symm)
  | ends s o hdecided hrel =>
    have hplace : S.place t = some (M.input t, o) := by rw [Simulation.place, hdecided]; rfl
    refine ⟨[], ?_⟩
    rw [List.append_nil]
    refine ⟨h.outcomes, hrel, ?_, hrest, h.admitted⟩
    change order.Perm ((w.finished ++ [(M.input t, o)]) ++ rest.filterMap S.place)
    rw [List.append_assoc, List.singleton_append, ← List.filterMap_cons_some hplace]
    exact hperm
  | decidesLast s hopen hrel =>
    obtain ⟨houtcomes, hlast⟩ := sequence_concat spec a order (M.input t) h.outcomes
    refine ⟨[_], houtcomes, hlast ▸ hrel, ?_, hrest, hgrown _⟩
    change (order ++ [_]).Perm ((w.finished ++ [_]) ++ rest.filterMap S.place)
    rw [List.filterMap_cons_none (by rw [Simulation.place, hopen]; rfl)] at hperm
    rw [List.append_assoc]
    exact (List.perm_append_singleton _ _).trans ((hperm.cons _).trans List.perm_middle.symm)

/-- The order only grows, so an operation that is over before another begins comes before it. -/
theorem Explains.next (h : Explains S a w order) {ev : Event ι χ}
    (hev : ∀ i, ev = .begin_ i → admits i) :
    ∃ more, Explains S a (M.next w ev) (order ++ more) := by
  cases ev with
  | begin_ i => exact ⟨[], (List.append_nil order).symm ▸ h.begins (hev i rfl)⟩
  | step n c =>
    rw [Machine.next]
    cases ht : w.running[n]? with
    | none => exact ⟨[], (List.append_nil order).symm ▸ h⟩
    | some t =>
      obtain ⟨hn, rfl⟩ := List.getElem?_eq_some_iff.mp ht
      have hrunning := (List.getElem_cons_eraseIdx_perm hn).symm
      exact h.settle hrunning (S.step c (S.perm hrunning h.rel))

theorem Explains.run (h : Explains S a w order) (evs : List (Event ι χ))
    (hevs : ∀ i, .begin_ i ∈ evs → admits i) :
    ∃ more, Explains S a (M.run w evs) (order ++ more) := by
  induction evs generalizing w order with
  | nil => exact ⟨[], (List.append_nil order).symm ▸ h⟩
  | cons ev evs ih =>
    obtain ⟨first, hfirst⟩ := h.next fun i hi => hevs i (hi ▸ List.mem_cons_self)
    obtain ⟨more, hmore⟩ := ih hfirst fun i hi => hevs i (List.mem_cons_of_mem _ hi)
    exact ⟨first ++ more, by rw [← List.append_assoc]; exact hmore⟩

end
end Minuteman.Library.Linearization
