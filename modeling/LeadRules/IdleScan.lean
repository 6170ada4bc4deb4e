import LeadRules.Engine

/-! Idle scans: a sweep sends one tick per lead through the engine, so that triggers on untouched
leads can fire. -/
namespace LeadRules

structure IdleScan where
  engine : Engine
  intervalMinutes : Nat := 15
  /-- When the last sweep that went through started. -/
  lastRun : Option DateTime := none

namespace IdleScan

def onEngine {α : Type} (op : StoreOp Engine α) : StoreOp IdleScan α :=
  op.onPart (fun (s, h) => (s.engine, h)) fun (s, _) (engine, h) => ({ s with engine }, h)

def tick (now : DateTime) (lead : Lead) : Op Host Event := do
  return { id := ← Op.drawing IdSource.draw, lead, occurredAt := now, occurrence := .idleScanTick }

def sweep (now : DateTime) : List Lead → StoreOp IdleScan (List EventOutcome)
  | [] => return []
  | lead :: rest => do
    let e ← Op.onHost (tick now lead)
    let outcome ← onEngine (Engine.onEvent e)
    return outcome :: (← sweep now rest)

def runOnce (leads : List Lead) : StoreOp IdleScan (List EventOutcome) := do
  let now := (← get).2.now
  let outcomes ← sweep now leads
  Op.setStore { ← Op.store with lastRun := some now }
  let fired := (outcomes.flatMap EventOutcome.requests).length
  Op.onHost (Op.log .info s!"Idle scan checked {outcomes.length} leads, {fired} action(s) executed")
  return outcomes

/-- One sweep of leads that have yet to be found. A failure is noted and ends the sweep. -/
def runOnceNoting (leads : Except Fault (List Lead)) : StoreOp IdleScan Unit := do
  match ← (do runOnce (← Op.ofExcept leads)).attempt with
  | .ok _ => return
  | .error fault => Op.onHost (Op.log .error ("Idle scan failed: " ++ fault.message))

/-- Starts the scan, lets it sweep once and stops it. -/
def runInBackground (leads : Except Fault (List Lead)) : StoreOp IdleScan Unit := do
  Op.onHost (Op.log .info s!"Idle scan started (every {(← Op.store).intervalMinutes} min)")
  Op.onHost (Op.log .info "Idle scan stopped")
  runOnceNoting leads

end IdleScan
end LeadRules
