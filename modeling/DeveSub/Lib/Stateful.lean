/-
  File:      DeveSub/Lib/Stateful.lean
  Subject:   Programs with a state that may fail and keep the state then.
-/
import Mathlib.Data.List.Basic

namespace DeveSub

/-- A program with a state that may fail; a failure keeps the state. -/
abbrev Stateful (σ ε α : Type) := ExceptT ε (StateM σ) α

variable {σ ε α β : Type}

namespace Stateful

/-- The result and the state after it. -/
def outcome (p : Stateful σ ε α) (s : σ) : Except ε α × σ := p.run s

/-- One step. -/
def step (g : σ → Except ε α × σ) : Stateful σ ε α := ExceptT.mk g

/-- A result without a step of the state. -/
def lift (x : Except ε α) : Stateful σ ε α := step fun s => (x, s)

theorem outcome_bind (p : Stateful σ ε α) (f : α → Stateful σ ε β) (s : σ) :
    (p >>= f).outcome s = match p.outcome s with
      | (.ok a, s') => (f a).outcome s'
      | (.error e, s') => (.error e, s') := by
  change ExceptT.bindCont f (p.outcome s).1 (p.outcome s).2 = _
  cases p.outcome s with
  | mk r s' => cases r <;> rfl

end Stateful

end DeveSub
