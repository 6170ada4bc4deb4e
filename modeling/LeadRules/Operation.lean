import LeadRules.Fault

/-! Operations on a state that may fail. What an operation changed before it failed stays
changed: identifiers once drawn are used up, and a store keeps what a failed write has not
saved. -/
namespace LeadRules

abbrev Op (σ α : Type) := ExceptT Fault (StateM σ) α

namespace Op

def onPart {σ τ α : Type} (get : σ → τ) (set : σ → τ → σ) (op : Op τ α) : Op σ α := fun s =>
  let (result, part) := op (get s)
  (result, set s part)

/-- Turns the outcome into a value: a failure no longer stops what comes after. -/
def attempt {σ α : Type} (op : Op σ α) : Op σ (Except Fault α) := fun s =>
  let (result, s) := op s
  (.ok result, s)

def ofExcept {σ α : Type} : Except Fault α → Op σ α
  | .ok a => pure a
  | .error e => throw e

end Op

/-- The source of fresh identifiers: how many were drawn so far. -/
structure IdSource where
  drawn : Nat := 0

namespace IdSource

/-- The n-th identifier: its number in the first group, zeros in the others. -/
def identifier (n : Nat) : Text := hexDigits 8 n ++ "-0000-0000-0000-000000000000"

def draw : Op IdSource Text := do
  let s ← get
  set (IdSource.mk (s.drawn + 1))
  return identifier (s.drawn + 1)

def drawShort (length : Nat) : Op IdSource Text := return (← draw).take length

end IdSource
end LeadRules
