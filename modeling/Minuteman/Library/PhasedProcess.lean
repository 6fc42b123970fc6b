import Mathlib.Tactic

/-!
# Processes with phases

A state machine behind a mailbox. Its handler is a pure function of the phase,
the data and what occurred; what it asks for comes back as effects. A phase may
have one timeout, which leaving the phase cancels, and an event postponed in one
phase is delivered again in the next.
-/
namespace Minuteman.Library

/-- What a handler asks of the process it runs in. -/
inductive PhaseEffect (τ ω : Type) where
  | timeoutAt (due : ℤ) (msg : τ)
  | timeoutAfter (delay : ℤ) (msg : τ)
  | postpone
  | out (o : ω)

/-- What a handler is called for. -/
inductive Occurrence (ε τ : Type) where
  | timeout (msg : τ)
  | event (e : ε)

structure Process (φ δ ε τ : Type) where
  phase : φ
  data : δ
  timeout : Option (ℤ × τ)
  postponed : List ε
  mailbox : List ε

namespace Process
variable {φ δ ε τ ω : Type}

def waiting (p : Process φ δ ε τ) : List ε := p.postponed ++ p.mailbox

def arrive (p : Process φ δ ε τ) (e : ε) : Process φ δ ε τ :=
  { p with mailbox := p.mailbox ++ [e] }

def discard (p : Process φ δ ε τ) (drop : ε → Bool) : Process φ δ ε τ :=
  { p with
    postponed := p.postponed.filter fun e => !drop e
    mailbox := p.mailbox.filter fun e => !drop e }

/-- `e` is the event being handled, if it is one that can be postponed. -/
def perform (now : ℤ) (e : Option ε) (p : Process φ δ ε τ) :
    PhaseEffect τ ω → Process φ δ ε τ
  | .timeoutAt due msg => { p with timeout := some (due, msg) }
  | .timeoutAfter delay msg => { p with timeout := some (now + delay, msg) }
  | .postpone => { p with postponed := p.postponed ++ e.toList }
  | .out _ => p

variable [DecidableEq φ]

def enter (p : Process φ δ ε τ) (phase : φ) : Process φ δ ε τ :=
  if phase = p.phase then p
  else { p with
    phase := phase
    timeout := none
    postponed := []
    mailbox := p.postponed ++ p.mailbox }

/-- The process after its handler returned. -/
def conclude (now : ℤ) (e : Option ε) (p : Process φ δ ε τ)
    (r : φ × δ × List (PhaseEffect τ ω)) : Process φ δ ε τ :=
  r.2.2.foldl (perform now e) { p.enter r.1 with data := r.2.1 }

def outs (effects : List (PhaseEffect τ ω)) : List ω :=
  effects.filterMap fun effect =>
    match effect with
    | .out o => some o
    | _ => none

variable {now : ℤ} {e : Option ε} {p : Process φ δ ε τ} {effects : List (PhaseEffect τ ω)}

omit [DecidableEq φ] in
theorem waiting_discard (p : Process φ δ ε τ) (drop : ε → Bool) :
    (p.discard drop).waiting = p.waiting.filter fun e => !drop e := by
  rw [waiting, waiting, List.filter_append]
  rfl

omit [DecidableEq φ] in
theorem waiting_arrive (p : Process φ δ ε τ) (e : ε) : (p.arrive e).waiting = p.waiting ++ [e] :=
  (List.append_assoc _ _ _).symm

omit [DecidableEq φ] in
theorem foldl_perform :
    (effects.foldl (perform now e) p).phase = p.phase ∧
      (effects.foldl (perform now e) p).data = p.data := by
  induction effects generalizing p with
  | nil => exact ⟨rfl, rfl⟩
  | cons effect effects ih =>
    obtain ⟨hphase, hdata⟩ := @ih (p.perform now e effect)
    cases effect <;> exact ⟨hphase, hdata⟩

omit [DecidableEq φ] in
theorem foldl_perform_waiting (h : ∀ effect ∈ effects, effect ≠ .postpone) :
    (effects.foldl (perform now e) p).waiting = p.waiting := by
  induction effects generalizing p with
  | nil => rfl
  | cons effect effects ih =>
    rw [List.foldl_cons, ih fun effect he => h effect (List.mem_cons_of_mem _ he)]
    cases effect with
    | postpone => exact absurd rfl (h .postpone List.mem_cons_self)
    | _ => rfl

theorem enter_phase (phase : φ) : (p.enter phase).phase = phase := by
  rw [enter]
  split_ifs with h
  · exact h.symm
  · rfl

theorem waiting_enter (phase : φ) : (p.enter phase).waiting = p.waiting := by
  rw [enter]
  split_ifs <;> simp [waiting]

theorem conclude_phase (r : φ × δ × List (PhaseEffect τ ω)) :
    (p.conclude now e r).phase = r.1 :=
  foldl_perform.1.trans (enter_phase r.1)

theorem conclude_data (r : φ × δ × List (PhaseEffect τ ω)) : (p.conclude now e r).data = r.2.1 :=
  foldl_perform.2

/-- Unless the event is postponed, the events waiting stay the ones they were. -/
theorem conclude_waiting {r : φ × δ × List (PhaseEffect τ ω)}
    (h : ∀ effect ∈ r.2.2, effect ≠ .postpone) : (p.conclude now e r).waiting = p.waiting :=
  (foldl_perform_waiting h).trans (waiting_enter r.1)

end Process
end Minuteman.Library
