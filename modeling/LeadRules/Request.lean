import LeadRules.Wire

/-! Requests: what an executed action asks of the world outside, about one lead. -/
namespace LeadRules

inductive Effect where
  | tagAdd (tag : Text)
  /-- A new owner, chosen through a team or directly. -/
  | reassign (user : Text) (team : Option Text)
  | webhook (url : Text) (payload : Value)
  | taskCreate (title : Text) (dueAt : DateTime)
  | phoneListAdd (phoneList : Text)
deriving DecidableEq

def Effect.kind : Effect → RequestKind
  | tagAdd _ => .tagAdd
  | reassign .. => .reassignLead
  | webhook .. => .webhookDispatch
  | taskCreate .. => .taskCreate
  | phoneListAdd _ => .phoneListAdd

structure Request where
  lead : Text
  requestedAt : DateTime
  effect : Effect
deriving DecidableEq

namespace Request

def kind (r : Request) : RequestKind := r.effect.kind

def toWire (r : Request) : Value :=
  let own : List (Text × Value) := match r.effect with
    | .tagAdd tag => [("tag", .text tag)]
    | .reassign user team => [("userId", .text user), ("teamId", .ofText? team)]
    | .webhook url payload => [("url", .text url), ("payload", payload)]
    | .taskCreate title dueAt => [("title", .text title), ("dueAt", .text dueAt.isoText)]
    | .phoneListAdd phoneList => [("phoneListId", .text phoneList)]
  let common : List (Text × Value) := [
    ("type", .text r.kind.name),
    ("leadId", .text r.lead),
    ("requestedAt", .text r.requestedAt.isoText)]
  .record (common ++ own)

end Request
end LeadRules
