import Mathlib.Tactic

/-!
# Servers with keyed timers

A server handles its messages one at a time. Its handlers are pure: what they
ask for comes back as effects. Starting a timer replaces the one of the same
key; what fires is disarmed.
-/
namespace Minuteman.Library

/-- What a handler asks of the server it runs in. -/
inductive ServerEffect (κ ρ ω : Type) where
  | startTimer (key : κ) (after : ℤ)
  | stop (reason : ρ)
  | out (o : ω)
  deriving DecidableEq

structure Server (σ κ μ : Type) where
  state : σ
  timers : κ → Option ℤ
  mailbox : List μ

namespace Server
variable {σ κ μ : Type}

def fresh (state : σ) : Server σ κ μ := ⟨state, fun _ => none, []⟩

def arrive (p : Server σ κ μ) (m : μ) : Server σ κ μ := { p with mailbox := p.mailbox ++ [m] }

/-- Timers fire no earlier than they are set for. -/
def Due (p : Server σ κ μ) (now : ℤ) (key : κ) : Prop := ∃ due, p.timers key = some due ∧ due ≤ now

instance (p : Server σ κ μ) (now : ℤ) (key : κ) : Decidable (p.Due now key) :=
  match h : p.timers key with
  | none => isFalse (by simp [Due, h])
  | some due => decidable_of_iff (due ≤ now) (by simp [Due, h])

end Server

section Effects
variable {κ ρ ω : Type} [DecidableEq κ]

def startTimer (now : ℤ) (timers : κ → Option ℤ) : ServerEffect κ ρ ω → κ → Option ℤ
  | .startTimer key after => Function.update timers key (some (now + after))
  | _ => timers

def startTimers (now : ℤ) (effects : List (ServerEffect κ ρ ω)) (timers : κ → Option ℤ) :
    κ → Option ℤ :=
  effects.foldl (startTimer now) timers

def ServerEffect.stopReason : ServerEffect κ ρ ω → Option ρ
  | .stop reason => some reason
  | _ => none

def ServerEffect.output : ServerEffect κ ρ ω → Option ω
  | .out o => some o
  | _ => none

def stopReason (effects : List (ServerEffect κ ρ ω)) : Option ρ :=
  effects.findSome? ServerEffect.stopReason

def outputs (effects : List (ServerEffect κ ρ ω)) : List ω :=
  effects.filterMap ServerEffect.output

variable {now : ℤ} {timers : κ → Option ℤ} {effects : List (ServerEffect κ ρ ω)} {key : κ}

@[simp] theorem startTimers_cons (e : ServerEffect κ ρ ω) :
    startTimers now (e :: effects) timers = startTimers now effects (startTimer now timers e) := rfl

theorem startTimers_of_not_started (h : ∀ after, .startTimer key after ∉ effects) :
    startTimers now effects timers key = timers key := by
  induction effects generalizing timers with
  | nil => rfl
  | cons e effects ih =>
    have hrest : ∀ after, .startTimer key after ∉ effects := fun after hmem =>
      h after (List.mem_cons_of_mem e hmem)
    refine (ih hrest).trans ?_
    cases e with
    | startTimer k after =>
      apply Function.update_of_ne
      rintro rfl
      exact h after List.mem_cons_self
    | stop reason => rfl
    | out o => rfl

/-- An armed timer stays armed. -/
theorem startTimers_isSome (h : (timers key).isSome) :
    (startTimers now effects timers key).isSome := by
  induction effects generalizing timers with
  | nil => exact h
  | cons e effects ih =>
    apply ih
    cases e with
    | startTimer k after =>
      by_cases hk : key = k
      · subst hk
        simp [startTimer]
      · simpa [startTimer, hk] using h
    | stop reason => exact h
    | out o => exact h

/-- A timer the handler starts is armed. -/
theorem startTimers_isSome_of_mem {after : ℤ} (h : .startTimer key after ∈ effects) :
    (startTimers now effects timers key).isSome := by
  induction effects generalizing timers with
  | nil => cases h
  | cons e effects ih =>
    rcases List.mem_cons.mp h with rfl | hmem
    · rw [startTimers_cons]
      exact startTimers_isSome (by simp [startTimer])
    · exact ih hmem

end Effects
end Minuteman.Library
