import LeadRules.Condition.Evaluation
import LeadRules.Host

/-! Conditions evaluated with their notes in the log, and segments: the leads of a list that
meet a chain. -/
namespace LeadRules.Segment

def resolve (catalog : FieldCatalog) (l : Lead) (ref : Value) : Op Host TypedValue := do
  let ref ← Op.ofExcept (FieldCatalog.reference ref)
  if catalog.isUnmapped ref then
    Op.log .debug ("Unmapped field reference '" ++ ref ++ "' resolved to null")
  Op.ofExcept (catalog.resolve l ref)

def check (catalog : FieldCatalog) (l : Lead) (c : Condition) : Op Host Bool := do
  Op.ofExcept (c.holdsFor (← resolve catalog l c.field))

def evaluate (catalog : FieldCatalog) (l : Lead) (conditions : List Condition) : Op Host Bool := do
  modify (Host.noteAll .debug (Condition.notes catalog l conditions))
  Op.ofExcept (Condition.evaluate catalog l conditions)

def ofLeads (catalog : FieldCatalog) (conditions : List Condition) : List Lead → Op Host (List Lead)
  | [] => return []
  | l :: rest => do
    let met ← evaluate catalog l conditions
    let others ← ofLeads catalog conditions rest
    return if met then l :: others else others

end LeadRules.Segment
