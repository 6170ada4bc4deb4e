import LeadRules.Proofs.Calls
import LeadRules.Proofs.Reading
import LeadRules.Proofs.Rounding
import LeadRules.Proofs.ZonedText

/-! Rules on the wire. Reading makes each part of a rule into a form that it reads as it stands,
so that a rule that was read is the same again when its wire form is read, whatever the time and
without drawing an identifier. -/
namespace LeadRules

theorem TriggerKind.ofName?_name (kind : TriggerKind) : ofName? kind.name = some kind := by
  cases kind <;> decide
theorem ActionKind.ofName?_name (kind : ActionKind) : ofName? kind.name = some kind := by
  cases kind <;> decide
theorem Operator.ofName?_name (op : Operator) : ofName? op.name = some op := by cases op <;> decide

namespace Value

/-- A member that must be there is given as it is, and is not blank. -/
theorem of_filled {type key : String} {data : List (Value × Value)} {v : Value}
    (given : filled type key data = .ok v) :
    v = member key data ∧ v.isBlank = false := by
  simp only [filled] at given
  split at given
  · cases given
  next some =>
    cases given
    exact ⟨rfl, Bool.eq_false_iff.2 some⟩

theorem numeric_float (key : String) (x : Binary64) : (float x).numeric key = .ok x := rfl

/-- A whole number as a double. The value stays a variable: the kernel must not compute the
double. -/
theorem toNumber_of_int {v : Value} {n : Int} {x : Binary64} (whole : v = .int n)
    (double : Binary64.ofInt? n = some x) :
    v.toNumber = .ok (some x) := by
  fun_cases toNumber v with
  | case1 m y found =>
    cases whole
    rw [double] at found
    cases found
    rfl
  | case2 m none =>
    cases whole
    rw [double] at none
    cases none
  | case3 x => cases whole
  | case4 t => cases whole
  | case5 v other _ _ => exact absurd whole (other n)

theorem numeric_of_int {v : Value} {n : Int} {x : Binary64} (whole : v = .int n)
    (double : Binary64.ofInt? n = some x)
    (key : String) : v.numeric key = .ok x := by
  have number : v.toDouble = .ok (some x) := by
    rw [← toNumber_of_int whole double, whole]
    rfl
  rw [numeric, number]
  rfl

theorem isBlank_float (x : Binary64) : (float x).isBlank = false := by simp [isBlank]

theorem isBlank_text {t : Text} (some : t ≠ "") : (text t).isBlank = false := by
  simp [isBlank, some]

end Value

namespace Trigger

theorem check_eq {t t' : Trigger} (passed : t.check = .ok t') : t' = t := by
  cases t with
  | leadUntouched hours =>
    rw [check] at passed
    split at passed <;> cases passed
    rfl
  | stageChanged toStage =>
    rw [check] at passed
    split at passed <;> cases passed
    rfl
  | _ =>
    cases passed
    rfl

/-- What is read passes the check of its trigger. -/
theorem ofWire_checked (v : Value) : Admits (fun t : Trigger => t.check = .ok t) (ofWire v) := by
  have checked (t : Trigger) : Admits (fun t : Trigger => t.check = .ok t) t.check := by
    intro t' passed
    obtain rfl := check_eq passed
    exact passed
  unfold ofWire
  split
  · dsimp only
    split
    · split
      · split
        · exact .ok rfl
        · exact .bind fun hours _ => .bind fun x _ => checked _
        · exact .bind fun toStage _ => checked _
        · exact .ok rfl
        · exact .bind fun score _ => .bind fun x _ => .ok rfl
      · exact .error _
    · exact .error _
  · exact .error _

/-- A trigger that passes its check is read from its wire form. -/
theorem ofWire_toWire {t : Trigger} (checked : t.check = .ok t) : ofWire t.toWire = .ok t := by
  cases t with
  | newLead => rfl
  | taskCompleted => rfl
  | leadUntouched hours =>
    simpa [ofWire, toWire, kind, TriggerKind.ofName?_name, Value.record, Value.member, Value.lookup,
      Text.ofString_inj, Value.filled, Value.isBlank_float, Value.numeric_float, bind,
      Except.bind] using checked
  | stageChanged toStage =>
    have some : toStage ≠ "" := fun none => by simp [check, none] at checked
    simpa [ofWire, toWire, kind, TriggerKind.ofName?_name, Value.record, Value.member, Value.lookup,
      Text.ofString_inj, Value.filled, Value.isBlank_text some, Value.toText, bind,
      Except.bind] using checked
  | scoreReaches score =>
    simp [ofWire, toWire, kind, TriggerKind.ofName?_name, Value.record, Value.member, Value.lookup,
      Text.ofString_inj, Value.filled, Value.isBlank_float, Value.numeric_float, bind, Except.bind]
    rfl

end Trigger

theorem Value.toDouble_of_numeric {v : Value} {key : String} {x : Binary64}
    (given : v.numeric key = .ok x) :
    v.toDouble = .ok (some x) := by
  rw [numeric] at given
  rcases read : v.toDouble with fault | _ | y
  · rw [read] at given
    cases given
  · rw [read] at given
    cases given
  · rw [read] at given
    cases given
    rfl

theorem Binary64.truncate?_of_toWhole {x : Binary64} {n : Int} (cut : x.toWhole = .ok n) :
    x.truncate? = some n := by
  rw [toWhole] at cut
  split at cut
  next found =>
    cases cut
    exact found
  · cases cut

def Binary64.IsWhole (n : Int) : Prop := ∃ x, ofInt? n = some x ∧ x.truncate? = some n

namespace Action

def target : Action → Text
  | addTag tag => tag
  | assignToUser user => user
  | assignToTeam team | assignRoundRobin team => team
  | sendWebhook url => url
  | createTask title _ => title
  | addToPhoneList phoneList => phoneList

/-- An action that its wire form says all of: it names something, and the days of a task
are those of a double. -/
structure Faithful (a : Action) : Prop where
  checked : a.check = .ok a
  named : a.target ≠ ""
  due : ∀ title days, a = .createTask title days → Binary64.IsWhole days

theorem check_eq {a a' : Action} (passed : a.check = .ok a') : a' = a := by
  cases a with
  | addTag tag =>
    rw [check] at passed
    split at passed <;> cases passed
    rfl
  | sendWebhook url =>
    rw [check] at passed
    split at passed <;> cases passed
    rfl
  | createTask title days =>
    rw [check] at passed
    repeat' split at passed
    all_goals cases passed
    rfl
  | _ =>
    cases passed
    rfl

def daysGiven (data : List (Value × Value)) : Value := Value.memberOr "dueDays" (.int 1) data

structure ReadAs (v : Value) (a : Action) : Prop where
  checked : a.check = .ok a
  named : a.target ≠ ""
  cut : ∀ title days, a = .createTask title days →
    ∃ data x, v = .map data ∧ (daysGiven data).toDouble = .ok (some x) ∧ x.truncate? = some days

theorem ofWire_read (v : Value) : Admits (ReadAs v) (ofWire v) := by
  have filled {type key : String} {data : List (Value × Value)} {next : Text → Except Fault Action}
      (later : ∀ t : Text, t ≠ "" → Admits (ReadAs v) (next t)) :
      Admits (ReadAs v) ((do return (← Value.filled type key data).toText) >>= next) := by
    have some : Admits (fun t : Text => t ≠ "") (do return (← Value.filled type key data).toText) :=
      .bind fun v given => .ok (Value.toText_ne_empty (Value.of_filled given).2)
    exact .bind fun t read => later t (some t read)
  have checked {a : Action} (named : a.target ≠ "")
    (cut : ∀ title days, a = .createTask title days →
      ∃ data x, v = .map data ∧ (daysGiven data).toDouble = .ok (some x) ∧
        x.truncate? = some days) :
      Admits (ReadAs v) a.check := by
    intro a' passed
    obtain rfl := check_eq passed
    exact ⟨passed, named, cut⟩
  unfold ofWire
  split
  next data =>
    dsimp only
    split
    · split
      · split
        · exact filled fun tag some => checked some nofun
        · exact filled fun user some => .ok ⟨rfl, some, nofun⟩
        · exact filled fun team some => .ok ⟨rfl, some, nofun⟩
        · exact filled fun team some => .ok ⟨rfl, some, nofun⟩
        · exact filled fun url some => checked some nofun
        · refine filled fun title some => .bind fun x given => .bind fun days cut => checked some ?_
          rintro _ _ ⟨⟩
          exact ⟨data, x, rfl, Value.toDouble_of_numeric given, Binary64.truncate?_of_toWhole cut⟩
        · exact filled fun phoneList some => .ok ⟨rfl, some, nofun⟩
      · exact .error _
    · exact .error _
  · exact .error _

theorem ofWire_faithful (v : Value) : Admits Faithful (ofWire v) := by
  intro a given
  obtain ⟨checked, named, cut⟩ := ofWire_read v a given
  refine ⟨checked, named, fun title days task => ?_⟩
  obtain ⟨data, x, -, -, truncated⟩ := cut title days task
  exact Binary64.ofInt?_truncate? truncated

theorem ofWire_task {data : List (Value × Value)} {title : Text} {v : Value}
    {x : Binary64} {days : Int}
    (type : Value.member "type" data = .text ActionKind.createTask.name)
    (member : Value.member "title" data = .text title)
    (given : (Value.text title).isBlank = false) (due : Value.memberOr "dueDays" (.int 1) data = v)
    (number : v.numeric "dueDays" = .ok x) (whole : x.toWhole = .ok days) :
    ofWire (.map data) = check (createTask title days) := by
  have named : Value.filled ActionKind.createTask.name "title" data = .ok (.text title) := by
    simp [Value.filled, member, given]
  simp only [ofWire, type, ActionKind.ofName?_name, named, due, number, whole, bind, Except.bind,
    pure, Except.pure]
  rfl

/-- An action is read from its wire form. -/
theorem ofWire_toWire {a : Action} (faithful : a.Faithful) : ofWire a.toWire = .ok a := by
  obtain ⟨checked, named, due⟩ := faithful
  have given := Value.isBlank_text named
  cases a with
  | createTask title days =>
    obtain ⟨x, double, cut⟩ := due title days rfl
    have whole : x.toWhole = .ok days := by rw [Binary64.toWhole, cut]
    simp only [target] at given
    refine Eq.trans
      (ofWire_task ?_ ?_ given ?_ (Value.numeric_of_int rfl double "dueDays") whole) checked
    · rfl
    · simp [Value.member, Value.lookup, Text.ofString_inj]
    · simp [Value.memberOr, Value.lookup, Text.ofString_inj]
  | assignToUser _ | assignToTeam _ | assignRoundRobin _ | addToPhoneList _ =>
    simp only [target] at given
    simp [ofWire, toWire, kind, ActionKind.ofName?_name, Value.record, Value.member, Value.lookup,
      Text.ofString_inj, Value.filled, given, Value.toText, bind, Except.bind, pure, Except.pure]
  | addTag _ | sendWebhook _ =>
    simp only [target] at given
    simpa [ofWire, toWire, kind, ActionKind.ofName?_name, Value.record, Value.member, Value.lookup,
      Text.ofString_inj, Value.filled, given, Value.toText, bind, Except.bind, pure,
      Except.pure] using checked

end Action

namespace Condition

/-- A condition without the value that its operator does not take. -/
def bare (c : Condition) : Condition :=
  { c with value := if c.operator.takesValue then c.value else .null }

theorem check_iff (c : Condition) : c.check = .ok c ↔
    c.field.truthy = true ∧ (c.operator.takesValue = true ∨ c.value.isBlank = true) := by
  unfold check
  cases c.field.truthy <;> cases c.operator.takesValue <;> cases c.value.isBlank <;> simp

theorem check_eq {c c' : Condition} (passed : c.check = .ok c') : c' = c := by
  unfold check at passed
  repeat' split at passed
  all_goals cases passed
  rfl

/-- What is read passes its check and has no value that its operator does not take. -/
theorem ofWire_bare (v : Value) : Op.Yields (fun c => c.check = .ok c ∧ c.bare = c) (ofWire v) := by
  refine .bind fun data => .bind fun operator => .bind fun logic => .bind fun id => ?_
  intro s c passed
  rw [Op.run_ofExcept] at passed
  obtain rfl := check_eq passed
  refine ⟨passed, ?_⟩
  obtain ⟨-, taken⟩ := (check_iff _).1 passed
  cases takes : operator.takesValue with
  | true => simp [bare, takes]
  | false =>
    have blank := taken.resolve_left (by simp [takes])
    by_cases given : (Value.member "value" data).isBlank = true
    · simp [bare, takes, given]
    · simp [takes, given] at blank

theorem logicOfWire_name (l : Logic) : logicOfWire (.text l.name) = .ok l := by
  have given : (Value.text l.name).truthy = true := by cases l <;> decide
  have read : Logic.ofName? ((Value.text l.name).toText.mapChars Char.toUpper) = some l := by
    cases l <;> decide
  simp only [logicOfWire, given, if_true, read]

/-- What a condition with an identifier is read from. -/
theorem ofWire_members (data : List (Value × Value)) {operator : Operator} {logic : Logic}
    {id : Text} {field given : Value}
    (ops : operatorOfWire (Value.member "operator" data) = .ok operator)
    (logics : logicOfWire (Value.member "logic" data) = .ok logic)
    (identifier : Value.member "id" data = .text id)
    (fields : Value.member "field" data = field) (some : field.truthy = true)
    (values : Value.member "value" data = given)
    (ids : IdSource) : ofWire (.map data) ids =
      (check ⟨id, field, operator, if !operator.takesValue ∧ given.isBlank then .null else given,
        logic⟩, ids) := by
  simp only [ofWire, Value.members, Op.run_bind, Op.run_ofExcept, ops, logics, identifier, idOfWire,
    Op.run_pure, fields, some, if_true, values]
  rfl

/-- A condition that passes its check is read from its wire form, but for a value that is not
taken. -/
theorem ofWire_toWire {c : Condition} (checked : c.check = .ok c) (ids : IdSource) :
    ofWire c.toWire ids = (.ok c.bare, ids) := by
  obtain ⟨field, taken⟩ := (check_iff c).1 checked
  have operator : operatorOfWire (.text c.operator.name) = .ok c.operator := by
    rw [operatorOfWire, Operator.ofName?_name]
  have checked' : c.bare.check = .ok c.bare := by
    refine (check_iff _).2 ⟨field, ?_⟩
    cases takes : c.operator.takesValue <;> simp [bare, takes, Value.isBlank]
  have value : (if (!c.operator.takesValue) = true ∧ c.bare.value.isBlank = true then Value.null
      else c.bare.value) = c.bare.value := by
    cases takes : c.operator.takesValue <;> simp [bare, takes]
  have read :
    ofWire c.toWire ids = (check ⟨c.id, c.field, c.operator, if (!c.operator.takesValue) = true ∧
      c.bare.value.isBlank = true then .null else c.bare.value, c.logic⟩, ids) :=
    ofWire_members (c.toWire.members.toOption.getD []) operator
      (logicOfWire_name c.logic) rfl rfl field rfl ids
  rw [value] at read
  exact read.trans (congrArg (·, ids) checked')

end Condition

namespace Rule

theorem conditionsOfWire_bare (items : List Value) :
    Op.Yields (fun cs : List Condition => ∀ c ∈ cs, c.check = .ok c ∧ c.bare = c)
      (conditionsOfWire items) := by
  induction items with
  | nil => exact .pure nofun
  | cons v rest ih =>
    refine .bind_of (Condition.ofWire_bare v) fun c fine => .bind_of ih fun cs all => .pure ?_
    exact List.forall_mem_cons.2 ⟨fine, all⟩

theorem conditionsOfWire_toWire {conditions : List Condition}
    (checked : ∀ c ∈ conditions, c.check = .ok c) (ids : IdSource) :
    conditionsOfWire (conditions.map Condition.toWire) ids =
      (.ok (conditions.map Condition.bare), ids) := by
  induction conditions with
  | nil => rfl
  | cons c rest ih =>
    have first := Condition.ofWire_toWire (checked c List.mem_cons_self) ids
    have later := ih fun c member => checked c (List.mem_cons_of_mem _ member)
    simp only [List.map_cons, conditionsOfWire, Op.run_bind, first, later, Op.run_pure]

/-- A rule that its wire form says all of, but for values that its conditions do not take. -/
structure Faithful (r : Rule) : Prop where
  id : r.id ≠ ""
  name : r.name.truthy = true
  trigger : r.trigger.check = .ok r.trigger
  conditions : ∀ c ∈ r.conditions, c.check = .ok c
  strays : r.strays = []
  action : r.action.Faithful
  description : r.description.truthy = true ∨ r.description = .text ""
  isEnabled : ∃ b, r.isEnabled = .bool b
  createdAt : r.createdAt.IsRead
  updatedAt : r.updatedAt.IsRead

def bare (r : Rule) : Rule := { r with conditions := r.conditions.map Condition.bare }

theorem stampOfWire_isRead (now : DateTime) (v : Value) :
    Admits Stamp.IsRead (stampOfWire now v) := by
  unfold stampOfWire
  refine .ite (fun _ => .ok nofun) fun _ => ?_
  split
  next s _ =>
    intro x read
    unfold Iso.readTime at read
    cases time : Iso.read s with
    | error e => simp [time, Except.mapError] at read
    | ok y =>
      rw [time] at read
      cases read
      exact isRead_of_read time
  · exact .error _

theorem stampOfWire_isoText {s : Stamp} (isRead : s.IsRead) (now : DateTime) :
    stampOfWire now (.text s.isoText) = .ok s := by
  have filled : (Value.text s.isoText).truthy = true := by
    have some : Text.ofString s.isoText ≠ "" := by
      rw [Ne, Text.ofString_inj, ← String.toList_inj, Stamp.isoText, String.toList_append]
      exact List.append_ne_nil_of_left_ne_nil (isoText_ne_nil s.wall) _
    simpa [Value.truthy] using some
  rw [stampOfWire, filled]
  simp only [Bool.not_true, Bool.false_eq_true, if_false, Iso.readTime, read_stampText isRead]
  rfl

/-- What is read is written whole. -/
theorem ofWire_faithful (now : DateTime) (v : Value) :
    Op.Yields (fun r : Rule => r.Faithful ∧ r.bare = r) (ofWire now v) := by
  refine ofWire_yields v fun data items id some named => ?_
  refine .bind_of (.ofExcept (Trigger.ofWire_checked _)) fun trigger fit => ?_
  refine .bind_of (conditionsOfWire_bare _) fun conditions all => ?_
  refine .bind_of (.ofExcept (Action.ofWire_faithful _)) fun action faithful => ?_
  refine .bind_of (.ofExcept (stampOfWire_isRead _ _)) fun created first => ?_
  refine .bind_of (.ofExcept (stampOfWire_isRead _ _)) fun updated last => .pure ⟨?_, ?_⟩
  · have described :
      (if (Value.member "description" data).truthy = true then Value.member "description" data
        else .text "").truthy = true ∨
        (if (Value.member "description" data).truthy = true then Value.member "description" data
          else .text "") = .text "" := by
      by_cases given : (Value.member "description" data).truthy = true
      · exact .inl (by rw [if_pos given, given])
      · exact .inr (if_neg given)
    exact ⟨named, some, fit, fun c member => (all c member).1, rfl, faithful, described,
      ⟨_, rfl⟩, first, last⟩
  · have same : conditions.map Condition.bare = conditions :=
      (List.map_congr_left fun c member => (all c member).2).trans (List.map_id' _)
    rw [bare, same]

/-- What a rule with an identifier and a name is read from. -/
theorem ofWire_members (now : DateTime) (data : List (Value × Value)) {id : Text}
    {name description mark : Value}
    {trigger : Trigger} {action : Action} {items : List Value} {conditions : List Condition}
    {created updated : Stamp}
    (identifier : Value.member "id" data = .text id) (named : id ≠ "")
    (names : Value.member "name" data = name)
    (some : name.truthy = true) (list : Value.member "conditions" data = .list items)
    (descriptions : Value.member "description" data = description)
    (triggers : Trigger.ofWire (Value.member "trigger" data) = .ok trigger)
    (actions : Action.ofWire (Value.member "action" data) = .ok action)
    (first : stampOfWire now (Value.member "createdAt" data) = .ok created)
    (last : stampOfWire now (Value.member "updatedAt" data) = .ok updated)
    (marks : Value.memberOr "isEnabled" (.bool true) data = mark)
    (ids : IdSource) (members : conditionsOfWire items ids = (.ok conditions, ids)) :
    ofWire now (.map data) ids = (.ok {
      id, name, trigger, action, conditions, createdAt := created, updatedAt := updated
      description := if description.truthy then description else .text ""
      isEnabled := .bool mark.truthy }, ids) := by
  have given : (Value.text id).truthy = true := by simpa [Value.truthy] using named
  simp only [ofWire, Value.members, Op.run_bind, Op.run_ofExcept, names, some, list, identifier,
    given, if_true, Bool.not_true, Bool.false_eq_true, if_false, Op.run_pure, triggers, members,
    actions, first, last, descriptions, marks]
  rfl

/-- A rule is read from its wire form, but for the values that its conditions do not take. -/
theorem ofWire_toWire {r : Rule} (faithful : r.Faithful) : ∃ w, r.toWire = .ok w ∧
    ∀ (now : DateTime) (ids : IdSource), ofWire now w ids = (.ok r.bare, ids) := by
  obtain ⟨id, name, trigger, conditions, strays, action, description, ⟨enabled, marked⟩, created,
    updated⟩ := faithful
  let fields : List (Text × Value) :=
    [("id", .text r.id), ("name", r.name), ("description", r.description),
      ("isEnabled", .bool enabled), ("trigger", r.trigger.toWire),
      ("conditions", .list (r.conditions.map Condition.toWire)), ("action", r.action.toWire),
      ("createdAt", .text r.createdAt.isoText), ("updatedAt", .text r.updatedAt.isoText)]
  obtain ⟨data, form, entries⟩ : ∃ data, Value.record fields = .map data ∧
      ∀ key, Value.lookup key data = Entries.get? key fields :=
        ⟨_, rfl, fun key => Value.lookup_record key fields⟩
  have written : r.toWire = .ok (.map data) := by
    rw [toWire, strays, marked, ← form]
    rfl
  have found : ∀ entry ∈ fields, Value.lookup entry.1 data = some entry.2 := by
    simp only [entries, fields]
    simp [Entries.get?_cons, Text.ofString_inj]
  refine ⟨_, written, fun now ids => ?_⟩
  have member {key : Text} {v : Value} (entry : Value.lookup key data = some v) :
      Value.member key data = v := by
    rw [Value.member, entry, Option.getD_some]
  simp only [fields, List.forall_mem_cons] at found
  obtain ⟨identifier, names, descriptions, marks, triggers, items, actions, firsts, lasts, -⟩ :=
    found
  have mark : Value.memberOr "isEnabled" (.bool true) data = .bool enabled := by
    rw [Value.memberOr, marks, Option.getD_some]
  have read := ofWire_members now data (member identifier) id (member names) name (member items)
    (member descriptions)
    ((congrArg _ (member triggers)).trans (Trigger.ofWire_toWire trigger))
    ((congrArg _ (member actions)).trans (Action.ofWire_toWire action))
    ((congrArg _ (member firsts)).trans (stampOfWire_isoText created now))
    ((congrArg _ (member lasts)).trans (stampOfWire_isoText updated now))
    mark ids (conditionsOfWire_toWire conditions ids)
  have described : (if r.description.truthy then r.description else .text "") = r.description := by
    rcases description with some | none
    · rw [if_pos some]
    · rw [none]
      rfl
  rw [read, bare, described, strays, marked]
  rfl

/-- A rule that was read is written, and what is written is read as the same rule at any time,
with no identifier drawn. -/
theorem ofWire_again {now : DateTime} {v : Value} {ids later : IdSource} {r : Rule}
    (read : ofWire now v ids = (.ok r, later)) :
    ∃ w, r.toWire = .ok w ∧ ∀ (now : DateTime) (ids : IdSource),
      ofWire now w ids = (.ok r, ids) := by
  obtain ⟨faithful, same⟩ := ofWire_faithful now v ids r (congrArg Prod.fst read)
  obtain ⟨w, written, again⟩ := ofWire_toWire faithful
  exact ⟨w, written, fun now ids => (again now ids).trans (by rw [same])⟩

/-- A rule without an identifier, made east of here and named by a number: its hours are
no number, its days are more than doubles tell apart, and its condition has a blank value
that it does not take. -/
def oddlyWritten : Value := .record [("name", .int 7),
  ("trigger", .record [("type", .text "LEAD_UNTOUCHED"), ("hours", .text "nan")]),
  ("conditions",
    .list [.record [("field", .text "email"), ("operator", .text "is_set"), ("value", .text ""),
      ("logic", .text "or")]]),
  ("action",
    .record [("type", .text "CREATE_TASK"), ("title", .text "Call"),
      ("dueDays", .text "9007199254740993")]),
  ("createdAt", .text "2024-05-06T07:08:09+05:30")]

theorem ofWire_again_oddlyWritten : ∃ r, (ofWire Host.still.now oddlyWritten ⟨0⟩).1 = .ok r ∧
    (r.trigger, r.action, r.createdAt.offset, r.conditions.length) =
      (.leadUntouched (.nan .computed), .createTask "Call" 9007199254740992, some 19800000000, 1) ∧
    ∃ w, r.toWire = .ok w ∧ ∀ (now : DateTime) (ids : IdSource),
      ofWire now w ids = (.ok r, ids) := by
  have read : (ofWire Host.still.now oddlyWritten ⟨0⟩).1.toOption.map
      (fun r => (r.trigger, r.action, r.createdAt.offset, r.conditions.length)) =
        some (.leadUntouched (.nan .computed), .createTask "Call" 9007199254740992,
          some 19800000000, 1) := by decide +kernel
  rcases run : ofWire Host.still.now oddlyWritten ⟨0⟩ with ⟨fault | r, later⟩
  · simp [run, Except.toOption] at read
  · rw [run] at read
    exact ⟨r, rfl, Option.some.inj read, ofWire_again run⟩

end Rule
end LeadRules
