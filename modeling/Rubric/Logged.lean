/-!
A value together with the log written while computing it. Steps are run one after another, each
on the value of the one before, and nothing that is logged stops a later step.
-/
namespace Rubric

structure Logged (ε α : Type) where
  value : α
  log : List ε
deriving Repr, DecidableEq

namespace Logged

variable {ε α β : Type}

def success (value : α) : Logged ε α := ⟨value, []⟩

/-- Runs a step on the value and appends its log. -/
def andThen (logged : Logged ε α) (step : α → Logged ε β) : Logged ε β :=
  let next := step logged.value
  ⟨next.value, logged.log ++ next.log⟩

def tell (logged : Logged ε α) (entries : List ε) : Logged ε α :=
  ⟨logged.value, logged.log ++ entries⟩

def fold (initial : α) (steps : List (α → Logged ε α)) : Logged ε α :=
  steps.foldl andThen (success initial)

end Logged

end Rubric
