import Minuteman.Library.FallibleProgram

/-!
# Programs among other activity

Between two operations of a program the state may be changed by others, so
what the next operation finds is not what the last one left. A discipline says
which operations may follow which; a program that obeys one obeys it whatever
the others do.
-/
namespace Minuteman.Library

section Runs
variable {σ α : Type} {step : σ → α → σ} {ok : σ → α → Prop}

/-- Every action of a run meets `ok` in the state it finds. -/
def Along (step : σ → α → σ) (ok : σ → α → Prop) : σ → List α → Prop
  | _, [] => True
  | s, a :: actions => ok s a ∧ Along step ok (step s a) actions

/-- What every permitted action keeps holds after a run of them. -/
theorem Along.invariant {I : σ → Prop} (hstep : ∀ s a, I s → ok s a → I (step s a)) {s : σ}
    {actions : List α} (h : Along step ok s actions) (hs : I s) : I (actions.foldl step s) := by
  induction actions generalizing s with
  | nil => exact hs
  | cons a actions ih => exact ih h.2 (hstep s a hs h.1)

theorem Along.take {s : σ} {actions : List α} (h : Along step ok s actions) (n : ℕ) :
    Along step ok s (actions.take n) := by
  induction actions generalizing s n with
  | nil => simpa using h
  | cons a actions ih =>
    cases n with
    | zero => trivial
    | succ n => exact ⟨h.1, ih h.2 n⟩

end Runs

/-- Which operations may be issued, given what the last one was. A refused operation starts
over. -/
structure Discipline (ω τ : Type) where
  start : τ
  allows : τ → ω → Prop
  after : ω → τ

namespace Prog
variable {ω σ ε α β τ : Type}

/-- Whatever states a program is given, the operations it issues are allowed, and it returns in
the situation `Q`. -/
def Obeys (d : Discipline ω τ) (Q : τ → Prop) : Prog ω σ ε α → τ → Prop
  | .pure _, t => Q t
  | .throw _, _ => True
  | .op o next fail, t =>
    d.allows t o ∧ (∀ s, Obeys d Q (next s) (d.after o)) ∧ Obeys d Q fail d.start

variable {d : Discipline ω τ} {Q R : τ → Prop} {t : τ}

theorem Obeys.bind {p : Prog ω σ ε α} {k : α → Prog ω σ ε β} (hp : Obeys d Q p t)
    (hk : ∀ a u, Q u → Obeys d R (k a) u) : Obeys d R (p >>= k) t := by
  induction p generalizing t with
  | pure a => exact hk a t hp
  | throw e => trivial
  | op o next fail ihNext ihFail => exact ⟨hp.1, fun s => ihNext s (hp.2.1 s), ihFail hp.2.2⟩

theorem Obeys.perform {o : ω} {e : ε} {result : σ → α} (ho : d.allows t o) (hQ : Q (d.after o)) :
    Obeys d Q (perform o e result) t := ⟨ho, fun _ => hQ, trivial⟩

/-- What every allowed operation respects relates the two ends of a run. -/
theorem Obeys.rel {effect : ω → σ → σ} {R : σ → σ → Prop} (hrefl : ∀ s, R s s)
    (htrans : ∀ s u v, R s u → R u v → R s v) (hstep : ∀ t o s, d.allows t o → R s (effect o s))
    {p : Prog ω σ ε α} (h : Obeys d Q p t) (faults : Faults) (s : σ) :
    R s (p.exec effect faults s).2 := by
  induction p generalizing t s faults with
  | pure a => exact hrefl s
  | throw e => exact hrefl s
  | op o next fail ihNext ihFail =>
    rw [Prog.exec]
    split
    · exact ihFail h.2.2 _ s
    · exact htrans _ _ _ (hstep t o s h.1) (ihNext s (h.2.1 s) _ _)

section Stepwise
variable {o : ω} {p : Prog ω σ ε α}

def nextOp : Prog ω σ ε α → Option ω
  | .op o _ _ => some o
  | _ => none

def accepted : Prog ω σ ε α → σ → Prog ω σ ε α
  | .op _ next _, s => next s
  | p, _ => p

def refused : Prog ω σ ε α → Prog ω σ ε α
  | .op _ _ fail => fail
  | p => p

theorem Obeys.accepted (h : Obeys d Q p t) (ho : p.nextOp = some o) (s : σ) :
    d.allows t o ∧ Obeys d Q (p.accepted s) (d.after o) := by
  cases p with
  | op o' next fail =>
    cases ho
    exact ⟨h.1, h.2.1 s⟩
  | pure a => cases ho
  | throw e => cases ho

theorem Obeys.refused (h : Obeys d Q p t) (ho : p.nextOp = some o) : Obeys d Q p.refused d.start := by
  cases p with
  | op o' next fail => exact h.2.2
  | pure a => cases ho
  | throw e => cases ho

theorem Spec.accepted {effect : ω → σ → σ} {J : OpStep ω σ → Prop} {S : Except ε α → σ → Prop}
    {s : σ} (h : Spec effect J S p s) (ho : p.nextOp = some o) :
    J ⟨o, s, effect o s⟩ ∧ Spec effect J S (p.accepted s) (effect o s) := by
  cases p with
  | op o' next fail =>
    cases ho
    exact h.1
  | pure a => cases ho
  | throw e => cases ho

theorem Spec.refused {effect : ω → σ → σ} {J : OpStep ω σ → Prop} {S : Except ε α → σ → Prop}
    {s : σ} (h : Spec effect J S p s) : Spec effect J S p.refused s := by
  cases p with
  | op o next fail => exact h.2.2
  | pure a => exact h
  | throw e => exact h

end Stepwise
end Prog
end Minuteman.Library
