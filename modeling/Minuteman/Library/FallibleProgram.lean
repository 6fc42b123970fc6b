import Mathlib.Tactic

/-!
# Programs over operations that may fail

A program issues atomic operations on a shared state. Each operation either
takes effect, and hands the program the state it acted on, or fails without
effect and lets the program take its error path. Which operations fail is
chosen from outside, so a property of every fault pattern is a property of
the program text.
-/
namespace Minuteman.Library

/-- A program over operations `ω` on a state `σ`, with errors `ε`. -/
inductive Prog (ω σ ε : Type) (α : Type) where
  | pure (a : α)
  | throw (e : ε)
  | op (o : ω) (next : σ → Prog ω σ ε α) (fail : Prog ω σ ε α)

structure OpStep (ω σ : Type) where
  op : ω
  before : σ
  after : σ

namespace Prog
variable {ω σ ε α β : Type}

def bind : Prog ω σ ε α → (α → Prog ω σ ε β) → Prog ω σ ε β
  | .pure a, k => k a
  | .throw e, _ => .throw e
  | .op o next fail, k => .op o (fun s => (next s).bind k) (fail.bind k)

instance : Monad (Prog ω σ ε) where
  pure := Prog.pure
  bind := Prog.bind

@[simp] theorem pure_eq (a : α) : (Pure.pure a : Prog ω σ ε α) = .pure a := rfl

@[simp] theorem pure_bind (a : α) (k : α → Prog ω σ ε β) : (Prog.pure a >>= k) = k a := rfl

@[simp] theorem throw_bind (e : ε) (k : α → Prog ω σ ε β) :
    ((Prog.throw e : Prog ω σ ε α) >>= k) = .throw e := rfl

@[simp] theorem op_bind (o : ω) (next : σ → Prog ω σ ε α) (fail : Prog ω σ ε α)
    (k : α → Prog ω σ ε β) :
    (Prog.op o next fail >>= k) = .op o (fun s => next s >>= k) (fail >>= k) := rfl

/-- Issue one operation and compute the result from the state it acted on. -/
def perform (o : ω) (e : ε) (result : σ → α) : Prog ω σ ε α :=
  .op o (fun s => .pure (result s)) (.throw e)

/-- Issue one operation and go on whether or not it failed. -/
def attempt (o : ω) : Prog ω σ ε Unit := .op o (fun _ => .pure ()) (.pure ())

@[simp] theorem perform_bind (o : ω) (e : ε) (result : σ → α) (k : α → Prog ω σ ε β) :
    (perform o e result >>= k) = .op o (fun s => k (result s)) (.throw e) := rfl

/-- Which operations of a run fail, by their position. -/
abbrev Faults := ℕ → Bool

def noFaults : Faults := fun _ => false

/-- Only the operation at position `i` fails. -/
def faultAt (i : ℕ) : Faults := fun n => n == i

section Execution
variable (effect : ω → σ → σ)

/-- Run a program, returning its result and the final state. -/
def exec : Prog ω σ ε α → Faults → σ → Except ε α × σ
  | .pure a, _, s => (.ok a, s)
  | .throw e, _, s => (.error e, s)
  | .op o next fail, faults, s =>
    if faults 0 then fail.exec (fun n => faults (n + 1)) s
    else (next s).exec (fun n => faults (n + 1)) (effect o s)

def trace : Prog ω σ ε α → Faults → σ → List (OpStep ω σ)
  | .pure _, _, _ => []
  | .throw _, _, _ => []
  | .op o next fail, faults, s =>
    if faults 0 then ⟨o, s, s⟩ :: fail.trace (fun n => faults (n + 1)) s
    else ⟨o, s, effect o s⟩ :: (next s).trace (fun n => faults (n + 1)) (effect o s)

/-- Over all fault patterns from `s`, every issued operation meets `J` and every end meets `Q`. -/
def Spec (J : OpStep ω σ → Prop) (Q : Except ε α → σ → Prop) : Prog ω σ ε α → σ → Prop
  | .pure a, s => Q (.ok a) s
  | .throw e, s => Q (.error e) s
  | .op o next fail, s =>
    (J ⟨o, s, effect o s⟩ ∧ Spec J Q (next s) (effect o s)) ∧ (J ⟨o, s, s⟩ ∧ Spec J Q fail s)

variable {effect} {J : OpStep ω σ → Prop} {Q : Except ε α → σ → Prop} {s : σ}

/-- A run ends in one of the ways its specification allows. -/
theorem Spec.exec {p : Prog ω σ ε α} (h : Spec effect J Q p s) (faults : Faults) :
    Q (p.exec effect faults s).1 (p.exec effect faults s).2 := by
  induction p generalizing s faults with
  | pure a => exact h
  | throw e => exact h
  | op o next fail ihNext ihFail =>
    rw [Prog.exec]
    split
    · exact ihFail h.2.2 _
    · exact ihNext s h.1.2 _

/-- Every operation a run issues meets the step condition of its specification. -/
theorem Spec.trace {p : Prog ω σ ε α} (h : Spec effect J Q p s) (faults : Faults) :
    ∀ step ∈ p.trace effect faults s, J step := by
  induction p generalizing s faults with
  | pure a => simp [Prog.trace]
  | throw e => simp [Prog.trace]
  | op o next fail ihNext ihFail =>
    rw [Prog.trace]
    split
    · exact List.forall_mem_cons.mpr ⟨h.2.1, ihFail h.2.2 _⟩
    · exact List.forall_mem_cons.mpr ⟨h.1.1, ihNext s h.1.2 _⟩

theorem Spec.imp {R : Except ε α → σ → Prop} {p : Prog ω σ ε α} (h : Spec effect J Q p s)
    (hQR : ∀ r t, Q r t → R r t) : Spec effect J R p s := by
  induction p generalizing s with
  | pure a => exact hQR _ _ h
  | throw e => exact hQR _ _ h
  | op o next fail ihNext ihFail =>
    exact ⟨⟨h.1.1, ihNext s h.1.2⟩, ⟨h.2.1, ihFail h.2.2⟩⟩

/-- Nothing is asked of the program. -/
theorem Spec.trivial (p : Prog ω σ ε α) (s : σ) :
    Spec effect (fun _ => True) (fun _ _ => True) p s := by
  induction p generalizing s with
  | pure a => exact True.intro
  | throw e => exact True.intro
  | op o next fail ihNext ihFail =>
    exact ⟨⟨True.intro, ihNext s _⟩, ⟨True.intro, ihFail _⟩⟩

/-- Sequencing: the second program starts from whatever end of the first returned a value. -/
theorem Spec.bind {R : Except ε β → σ → Prop} {p : Prog ω σ ε α} {k : α → Prog ω σ ε β}
    (hp : Spec effect J Q p s) (hk : ∀ a t, Q (.ok a) t → Spec effect J R (k a) t)
    (he : ∀ e t, Q (.error e) t → R (.error e) t) : Spec effect J R (p >>= k) s := by
  induction p generalizing s with
  | pure a => exact hk _ _ hp
  | throw e => exact he _ _ hp
  | op o next fail ihNext ihFail =>
    exact ⟨⟨hp.1.1, ihNext s hp.1.2⟩, ⟨hp.2.1, ihFail hp.2.2⟩⟩

/-- A preorder that every operation respects relates the two ends of a run. -/
theorem Spec.rel {R : σ → σ → Prop} (hrefl : ∀ t, R t t) (htrans : ∀ t u v, R t u → R u v → R t v)
    (hstep : ∀ step : OpStep ω σ, J step → R step.before step.after) {p : Prog ω σ ε α}
    (h : Spec effect J Q p s) (faults : Faults) : R s (p.exec effect faults s).2 := by
  induction p generalizing s faults with
  | pure a => exact hrefl s
  | throw e => exact hrefl s
  | op o next fail ihNext ihFail =>
    rw [Prog.exec]
    split
    · exact ihFail h.2.2 _
    · exact htrans _ _ _ (hstep _ h.1.1) (ihNext s h.1.2 _)

/-- What no operation changes, no run changes. -/
theorem exec_keeps {γ : Type} {f : σ → γ} (hf : ∀ o t, f (effect o t) = f t) (p : Prog ω σ ε α)
    (faults : Faults) (s : σ) : f (p.exec effect faults s).2 = f s := by
  induction p generalizing s faults with
  | pure a => rfl
  | throw e => rfl
  | op o next fail ihNext ihFail =>
    rw [Prog.exec]
    split
    · exact ihFail _ _
    · exact (ihNext s _ _).trans (hf o s)

/-- Computing a result from the value of a program changes nothing. -/
theorem exec_bind_pure (f : α → β) (p : Prog ω σ ε α) (faults : Faults) (s : σ) :
    ((p >>= fun a => .pure (f a)).exec effect faults s).2 = (p.exec effect faults s).2 := by
  induction p generalizing s faults with
  | pure a => rfl
  | throw e => rfl
  | op o next fail ihNext ihFail =>
    rw [op_bind, exec, exec]
    split
    · exact ihFail _ _
    · exact ihNext s _ _

/-- What none of the operations a run issues changes, the run does not change. -/
theorem exec_keeps_of_trace {γ : Type} {f : σ → γ} {p : Prog ω σ ε α} {faults : Faults}
    (hf : ∀ step ∈ p.trace effect faults s, f (effect step.op step.before) = f step.before) :
    f (p.exec effect faults s).2 = f s := by
  induction p generalizing s faults with
  | pure a => rfl
  | throw e => rfl
  | op o next fail ihNext ihFail =>
    rw [Prog.exec]
    rw [Prog.trace] at hf
    split at hf
    · next hfault =>
      rw [if_pos hfault]
      exact ihFail (List.forall_mem_cons.mp hf).2
    · next hfault =>
      rw [if_neg hfault]
      exact (ihNext s (List.forall_mem_cons.mp hf).2).trans (List.forall_mem_cons.mp hf).1

/-- One operation: the step condition and both outcomes. -/
theorem Spec.perform {o : ω} {e : ε} {result : σ → α} (hdone : J ⟨o, s, effect o s⟩)
    (hfail : J ⟨o, s, s⟩) (hok : Q (.ok (result s)) (effect o s)) (herr : Q (.error e) s) :
    Spec effect J Q (perform o e result) s :=
  ⟨⟨hdone, hok⟩, ⟨hfail, herr⟩⟩

section Clean
variable {p : Prog ω σ ε α} {k : α → Prog ω σ ε β}

@[simp] theorem exec_noFaults_pure (a : α) :
    exec effect (.pure a : Prog ω σ ε α) noFaults s = (.ok a, s) := rfl

@[simp] theorem exec_noFaults_throw (e : ε) :
    exec effect (.throw e : Prog ω σ ε α) noFaults s = (.error e, s) := rfl

@[simp] theorem exec_noFaults_op (o : ω) (next : σ → Prog ω σ ε α) (fail : Prog ω σ ε α) :
    exec effect (.op o next fail) noFaults s = exec effect (next s) noFaults (effect o s) := rfl

@[simp] theorem exec_noFaults_perform (o : ω) (e : ε) (result : σ → α) :
    exec effect (perform o e result) noFaults s = (.ok (result s), effect o s) := rfl

/-- A fault-free run of a sequence runs the first program and then the second. -/
theorem exec_noFaults_bind {a : α} {t : σ} (h : exec effect p noFaults s = (.ok a, t)) :
    exec effect (p >>= k) noFaults s = exec effect (k a) noFaults t := by
  induction p generalizing s with
  | pure b =>
    cases h
    rfl
  | throw e => cases h
  | op o next fail ihNext ihFail => exact ihNext s h

end Clean

/-- Every refused operation ends the program. -/
def FailFast : Prog ω σ ε α → Prop
  | .pure _ => True
  | .throw _ => True
  | .op _ next fail => (∃ e, fail = .throw e) ∧ ∀ s, FailFast (next s)

theorem FailFast.perform (o : ω) (e : ε) (result : σ → α) : FailFast (perform o e result) :=
  ⟨⟨e, rfl⟩, fun _ => trivial⟩

theorem FailFast.bind {p : Prog ω σ ε α} {k : α → Prog ω σ ε β} (hp : FailFast p)
    (hk : ∀ a, FailFast (k a)) : FailFast (p >>= k) := by
  induction p with
  | pure a => exact hk a
  | throw e => trivial
  | op o next fail ihNext ihFail =>
    obtain ⟨⟨e, rfl⟩, hnext⟩ := hp
    exact ⟨⟨e, rfl⟩, fun t => ihNext t (hnext t)⟩

private theorem faultAt_shift (i : ℕ) : (fun n => faultAt (i + 1) (n + 1)) = faultAt i := by
  funext n
  simp [faultAt]

theorem exec_faultAt_zero (o : ω) (e : ε) (result : σ → α) (k : α → Prog ω σ ε β) :
    exec effect (Prog.perform o e result >>= k) (faultAt 0) s = (.error e, s) := rfl

theorem exec_faultAt_succ (o : ω) (e : ε) (result : σ → α) (k : α → Prog ω σ ε β) (i : ℕ) :
    exec effect (Prog.perform o e result >>= k) (faultAt (i + 1)) s =
      exec effect (k (result s)) (faultAt i) (effect o s) := by
  rw [perform_bind, exec, faultAt_shift]
  rfl

/-- Refusing one operation that the fault-free run issues makes the call return an error. -/
theorem FailFast.exec_faultAt {p : Prog ω σ ε α} (hp : FailFast p) {i : ℕ}
    (hi : i < (p.trace effect noFaults s).length) :
    ∃ e, (p.exec effect (faultAt i) s).1 = .error e := by
  induction p generalizing s i with
  | pure a => simp [Prog.trace] at hi
  | throw e => simp [Prog.trace] at hi
  | op o next fail ihNext ihFail =>
    obtain ⟨⟨e, rfl⟩, hnext⟩ := hp
    cases i with
    | zero => exact ⟨e, rfl⟩
    | succ i =>
      have hlen : i < ((next s).trace effect noFaults (effect o s)).length :=
        Nat.lt_of_succ_lt_succ hi
      rw [Prog.exec, faultAt_shift]
      exact ihNext s (hnext s) hlen

end Execution
end Prog
end Minuteman.Library
