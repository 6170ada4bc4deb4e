import LeadRules.Request
import LeadRules.Settings

/-! Webhooks: a request is posted to its URL, again after growing pauses when that fails, up to a
number of attempts. What the other side answers is a script, of which the last answer stays. -/
namespace LeadRules

inductive Reply where
  | response (status : Int) (text : Text)
  /-- The post failed on its way. -/
  | refused (text : Text)
  /-- Something else failed, which no further attempt can mend. -/
  | broken (fault : Fault)

structure Post where
  url : Text
  payload : Value
  userAgent : Value
  requestedAt : DateTime
  timeout : Value
deriving DecidableEq

/-- The other side: the answers to come, and what it saw so far, oldest first. -/
structure Transport where
  script : List Reply := []
  posts : List Post := []
  pauses : List Value := []

namespace Transport

/-- The next answer. The last one of the script is not used up, and without a script every post
is accepted. -/
def send (t : Transport) (post : Post) : Reply × Transport :=
  let t := { t with posts := t.posts ++ [post] }
  match t.script with
  | [] => (.response 200 "", t)
  | [reply] => (reply, t)
  | reply :: rest => (reply, { t with script := rest })

def pause (t : Transport) (time : Value) : Transport := { t with pauses := t.pauses ++ [time] }

end Transport

structure Posting where
  lead : Text
  url : Text
  payload : Value
  requestedAt : DateTime
deriving DecidableEq

def Request.posting? (r : Request) : Option Posting :=
  match r.effect with
  | .webhook url payload => some { lead := r.lead, url, payload, requestedAt := r.requestedAt }
  | _ => none

/-- How a posting fared: the last status, answer and error, and when it was delivered. -/
structure Delivery where
  lead : Text
  url : Text
  payload : Value
  status : Option Int := none
  response : Option Text := none
  error : Option Text := none
  attempts : Nat := 0
  deliveredAt : Option DateTime := none
  createdAt : DateTime
deriving DecidableEq

namespace Delivery

def start (p : Posting) (now : DateTime) : Delivery :=
  { lead := p.lead, url := p.url, payload := p.payload, createdAt := now }

def delivered (d : Delivery) : Bool := d.deliveredAt.isSome

/-- A delivery counts as failed by its error, so one without a text does not. -/
def hasFailed (d : Delivery) : Bool := d.error.any (fun (text : Text) => text ≠ "") && !d.delivered

def responseLimit : Nat := 1000

/-- The delivery after an attempt: a status below 400 delivers it. -/
def answered (d : Delivery) (attempt : Nat) (now : DateTime) : Reply → Delivery
  | .response status text =>
    let d := { d with
      attempts := attempt, status := some status
      response := some (text.take responseLimit) }
    if status < 400 then { d with deliveredAt := some now, error := none }
    else { d with error := some (s!"HTTP {status}" : String) }
  | .refused text => { d with attempts := attempt, error := some text }
  | .broken _ => { d with attempts := attempt }

def note? (d : Delivery) (attempt : Nat) : Reply → Option LogRecord
  | .response status _ =>
    if status < 400 then
      some ⟨.info, "Webhook delivered for lead " ++ d.lead ++ " -> " ++ d.url ++ s!" (status: {status})"⟩
    else some ⟨.warning, "Webhook failed: " ++ d.url ++ s!" (attempt {attempt}): HTTP {status}"⟩
  | .refused text => some ⟨.error, "Webhook error: " ++ d.url ++ s!" (attempt {attempt}): " ++ text⟩
  | .broken _ => none

def failureText (d : Delivery) : Text :=
  "Webhook to " ++ d.url ++ " for lead " ++ d.lead ++ s!" failed after {d.attempts} attempt(s): "
    ++ d.error.getD "None"

end Delivery

namespace Settings

/-- How often a webhook is tried: as often as the settings say, once at least. -/
def webhookAttempts (s : Settings) : Except Fault Nat :=
  match s.webhookRetries.asInt?, s.webhookRetries with
  | some n, _ => .ok (max 1 n).toNat
  | none, .float x =>
    if (Binary64.ofNat 1).lt x then .error (.misuse (.notConvertibleToWhole "float")) else .ok 1
  | none, v => .error (.misuse (.notComparable v.shape))

def doubled {α : Type} (items : List α) : Nat → List α
  | 0 => items
  | times + 1 => doubled (items ++ items) times

/-- How often a text or list may be doubled: how often it is repeated fits a word. -/
def doublingLimit : Nat := 62

/-- The pause after an attempt, counted from zero: the backoff doubled that many times. A whole
number stays whole; texts and lists are repeated. -/
def pauseAfter (s : Settings) (attempt : Nat) : Except Fault Value :=
  let repeated (v : Value) : Except Fault Value :=
    if doublingLimit < attempt then .error (.overflow .repetition) else .ok v
  match s.webhookBackoff.asInt?, s.webhookBackoff with
  | some n, _ => .ok (.int (n * Nat.pow 2 attempt))
  | none, .float x =>
    match Binary64.ofInt? (Nat.pow 2 attempt) with
    | some factor => .ok (.float (x.mul factor))
    | none => .error (.overflow .wholeToDouble)
  | none, .text text => repeated (.text ⟨doubled text.points attempt⟩)
  | none, .list items => repeated (.list (doubled items attempt))
  | none, v => .error (.misuse (.notComparable v.shape))

end Settings

structure Dispatcher where
  settings : Settings
  transport : Transport := {}
  /-- Deliveries go on by themselves, so that no fault in one comes back. -/
  background : Bool := false
  /-- The latest deliveries, oldest first. -/
  history : List Delivery := []
  /-- The failed deliveries with what was said of them. -/
  reports : List (Delivery × Text) := []

namespace Dispatcher

def historyLimit : Nat := 500

/-- One attempt; whether it delivered. -/
def attemptOnce (s : Settings) (p : Posting) (attempt : Nat) : StoreOp (Delivery × Transport) Bool := do
  let ((d, t), h) ← get
  let (reply, t) := t.send
    { url := p.url, payload := p.payload, userAgent := s.userAgent, requestedAt := p.requestedAt
      timeout := s.webhookTimeout }
  let answered := d.answered attempt h.now reply
  set ((answered, t), { h with log := h.log ++ (d.note? attempt reply).toArray })
  if let .broken fault := reply then throw fault
  return answered.delivered

/-- Attempts until one delivers, `left` at most, with a pause between two of them. -/
def attemptFrom (s : Settings) (p : Posting) (attempt : Nat) : Nat → StoreOp (Delivery × Transport) Bool
  | 0 => return false
  | left + 1 => do
    if ← attemptOnce s p (attempt + 1) then return true
    if left ≠ 0 then
      let time ← Op.ofExcept (s.pauseAfter attempt)
      modify fun ((d, t), h) => ((d, t.pause time), h)
    attemptFrom s p (attempt + 1) left

def deliver (s : Settings) (p : Posting) : StoreOp (Delivery × Transport) Bool := do
  attemptFrom s p 0 (← Op.ofExcept s.webhookAttempts)

/-- The delivery that was started last. -/
def current (d : Dispatcher) (p : Posting) (now : DateTime) : Delivery :=
  (d.history.getLast?).getD (.start p now)

/-- Puts a delivery at the end of the history, which forgets the oldest beyond its limit. -/
def remember (d : Dispatcher) (delivery : Delivery) : Dispatcher :=
  let history := d.history ++ [delivery]
  { d with history := history.drop (history.length - historyLimit) }

/-- Delivers the posting that was remembered last, and reports it when its attempts are used up. -/
def finish (p : Posting) : StoreOp Dispatcher Unit := do
  let now := (← get).2.now
  let settings := (← Op.store).settings
  let delivered ← (deliver settings p).onPart
    (fun (d, h) => ((d.current p now, d.transport), h))
    fun (d, _) ((delivery, transport), h) =>
      ({ d with history := d.history.dropLast ++ [delivery], transport }, h)
  if delivered then return
  let d ← Op.store
  let delivery := d.current p now
  Op.onHost (Op.log .error delivery.failureText)
  Op.setStore { d with reports := d.reports ++ [(delivery, delivery.failureText)] }

/-- Posts a request. The delivery stands in the history also when a fault ends it. -/
def dispatch (p : Posting) : StoreOp Dispatcher Delivery := do
  let now := (← get).2.now
  Op.setStore ((← Op.store).remember (.start p now))
  match ← (finish p).attempt with
  | .ok _ => pure ()
  | .error fault => if !(← Op.store).background then throw fault
  return (← Op.store).current p now

def failedDeliveries (d : Dispatcher) : List Delivery := d.history.filter Delivery.hasFailed

end Dispatcher
end LeadRules
