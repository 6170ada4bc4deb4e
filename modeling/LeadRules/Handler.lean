import LeadRules.Webhook

/-! Handlers: who takes the requests that actions make. A recorder keeps them; a dispatcher posts
webhooks at once. A handler that refuses a request fails and keeps nothing of it. -/
namespace LeadRules

structure Recorder where
  /-- Why a request is never taken. -/
  refusal : Request → Option Fault := fun _ => none
  /-- Why a request is not taken this time, after the ones offered before it. -/
  lapse : List Request → Request → Option Fault := fun _ _ => none
  /-- The requests offered, taken or not, oldest first. -/
  offered : List Request := []
  /-- The requests taken, oldest first. -/
  requests : List Request := []

namespace Recorder

def take (r : Request) (s : Recorder) : Except Fault Unit × Recorder :=
  let asked := { s with offered := s.offered ++ [r] }
  match (s.refusal r).or (s.lapse s.offered r) with
  | some fault => (.error fault, asked)
  | none => (.ok (), { asked with requests := s.requests ++ [r] })

def ofKind (s : Recorder) (kind : RequestKind) : List Request := s.requests.filter (·.kind = kind)
def forLead (s : Recorder) (lead : Text) : List Request := s.requests.filter (·.lead = lead)
def clear (s : Recorder) : Recorder := { s with requests := [] }

end Recorder

inductive Handler where
  | recorder (r : Recorder)
  | dispatcher (d : Dispatcher)

namespace Handler

/-- Hands a request over. A dispatcher takes webhooks alone: what is none has no URL to post to. -/
def handle (r : Request) : StoreOp Handler Unit := do
  match ← Op.store with
  | .recorder s =>
    let (answer, s) := s.take r
    Op.setStore (.recorder s)
    Op.ofExcept answer
  | .dispatcher d =>
    match r.posting? with
    | none => throw (.noMember r.kind.name "url")
    | some p =>
      let _ ← (Dispatcher.dispatch p).onPart (fun s => (d, s.2)) fun _ s => (.dispatcher s.1, s.2)

end Handler
end LeadRules
