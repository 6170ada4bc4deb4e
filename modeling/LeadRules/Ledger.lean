import LeadRules.EdgeStore

/-! The ledger of processed deliveries. A delivery is a lead, a rule and an event; its action
runs unless the ledger has it. Recording only touches memory; `flush` writes the file. -/
namespace LeadRules

abbrev LedgerKey := WrittenKey × WrittenKey × WrittenKey

namespace LedgerKey

def ofTexts (lead rule event : Text) : LedgerKey := (.ofText lead, .ofText rule, .ofText event)

def identity (k : LedgerKey) : Key × Key × Key := (k.1.key, k.2.1.key, k.2.2.key)

def values (k : LedgerKey) : List Value := [k.1.value, k.2.1.value, k.2.2.value]

end LedgerKey

structure Ledger where
  path : Option FilePath := none
  maxEntries : Int := 10000
  /-- The deliveries and when each was processed, oldest first. -/
  processed : OrderedMap (Key × Key × Key) (LedgerKey × Value) := .empty
  /-- Whether memory holds records that the file may lack. -/
  dirty : Bool := false

namespace Ledger

/-- The records of a file in their order; of two with one key the later counts. -/
def loadRecords (processed : OrderedMap (Key × Key × Key) (LedgerKey × Value)) :
    List Value → Except Fault (OrderedMap (Key × Key × Key) (LedgerKey × Value))
  | [] => .ok processed
  | v :: rest => do
    let lead ← v.subscript "lead_id"
    let rule ← v.subscript "rule_id"
    let event ← v.subscript "event_id"
    let at_ ← v.subscript "processed_at"
    let key : LedgerKey := (← lead.asKey, ← rule.asKey, ← event.asKey)
    loadRecords (processed.putWritten key.identity key at_) rest

def load (path : Option FilePath) (maxEntries : Int) : Op Host Ledger := do
  let v ← StateFile.load path (.list [])
  return { path, maxEntries, processed := ← Op.ofExcept (v.iterate >>= loadRecords .empty) }

def isProcessed (l : Ledger) (key : LedgerKey) : Bool := l.processed.contains key.identity

/-- Records a delivery as the latest one and drops the oldest beyond the bound. -/
def record (l : Ledger) (key : LedgerKey) (time : DateTime) : Ledger :=
  { l with
    processed := (l.processed.putWritten key.identity key (.text time.isoText)).boundTo l.maxEntries
    dirty := l.dirty || 0 ≤ l.maxEntries }

/-- Runs an action unless its delivery was processed, and records the delivery when the action
returns, whatever its result. The state of the action is kept apart from the ledger. -/
def runOnce {σ α : Type} (ledger : σ → Ledger) (setLedger : σ → Ledger → σ) (now : σ → DateTime)
    (key : LedgerKey) (action : Op σ α) : Op σ (Option α) := do
  if (ledger (← get)).isProcessed key then return none
  let result ← action
  modify fun s => setLedger s ((ledger s).record key (now s))
  if (ledger (← get)).maxEntries < 0 then throw .nothingToEvict
  return some result

def toWire (l : Ledger) : Value := .list (l.processed.values.map fun ((lead, rule, event), time) => .record [
  ("lead_id", lead.value),
  ("rule_id", rule.value),
  ("event_id", event.value),
  ("processed_at", time)])

/-- Writes the records if any were added since the last write. A refused write leaves the ledger
as changed as it was. -/
def flush : StoreOp Ledger Unit := do
  let l ← Op.store
  if l.path.isNone || !l.dirty then return
  Op.setStore { l with dirty := false }
  match ← (Op.onHost (StateFile.save l.path l.toWire)).attempt with
  | .ok _ => return
  | .error fault =>
    if fault matches .file _ then Op.setStore l
    throw fault

end Ledger
end LeadRules
