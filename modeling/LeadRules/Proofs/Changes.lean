import LeadRules.Proofs.Operation
import LeadRules.Proofs.Repositories
import LeadRules.Proofs.Selection

/-! Changes of a repository. Each of them comes to a plan: an answer at once, or an edit of
the rules that is then saved. What a change that is answered does is said of the rules in
their order of insertion. -/
namespace LeadRules.Repository

inductive Change where
  | create (name : Value) (trigger : Trigger) (action : Action) (conditions : List Condition)
      (description isEnabled : Value)
  | importRule (v : Value)
  | update (id : Text) (u : RuleUpdate)
  | setEnabled (id : Text) (enabled : Bool)
  | remove (id : Text)

/-- What a change answers: the rule it has stored, the one it has updated, or whether there was
one. -/
inductive Answer where
  | stored (r : Rule)
  | updated (r : Option Rule)
  | found (b : Bool)
deriving DecidableEq

/-- Carries out a change. Nobody else keeps data about the rules. -/
def carryOut : Change → StoreOp Repository Answer
  | .create name trigger action conditions description isEnabled =>
    return .stored (← create name trigger action conditions description isEnabled)
  | .importRule v => return .stored (← importRule v)
  | .update id u => return .updated (← update id u)
  | .setEnabled id enabled => return .found (← setEnabled id enabled)
  | .remove id => return .found (← delete (fun s => s) (fun _ s => s) id (pure ()))

/-- Whether the identifier that a change draws is a fresh one. -/
def Fresh (c : Change) (s : Repository × Host) : Prop :=
  match c with
  | .create .. => s.1.rules.contains ((IdSource.identifier (s.2.ids.drawn + 1)).take 12) = false
  | _ => True

section Plans

inductive Edit where
  | put (r : Rule)
  | drop (id : Text)

def Edit.apply (s : Repository) : Edit → Repository
  | put r => { s with rules := s.rules.put r.id r }
  | drop id => { s with rules := s.rules.erase id }

/-- What a change comes to. An edit is saved, then noted and answered. -/
inductive Plan where
  | answer (x : Except Fault Answer)
  | edit (e : Edit) (a : Answer) (notes : List Text)

def Plan.run : Plan → StoreOp Repository Answer
  | answer x => Op.ofExcept x
  | edit e a notes => do
    Op.setStore (e.apply (← Op.store))
    save
    Op.onHost (modify (Host.noteAll .info notes))
    return a

def created (h : Host) (name : Value) (trigger : Trigger) (action : Action)
    (conditions : List Condition)
    (description isEnabled : Value) : Rule where
  id := (IdSource.identifier (h.ids.drawn + 1)).take 12
  name := name
  trigger := trigger
  action := action
  conditions := conditions
  description := description
  isEnabled := isEnabled
  createdAt := .ofDateTime h.now
  updatedAt := .ofDateTime h.now

def updated (r : Rule) (u : RuleUpdate) (now : DateTime) (conditions : List Condition)
    (strays : List Text) : Rule :=
  { r with
    name := u.name.getD r.name
    description := u.description.getD r.description
    action := u.action.getD r.action
    isEnabled := u.isEnabled.getD r.isEnabled
    conditions, strays
    updatedAt := .ofDateTime now }

def planUpdate (s : Repository) (now : DateTime) (id : Text) (u : RuleUpdate)
    (answer : Option Rule → Answer) : Plan :=
  match refusal? u with
  | some cause => .answer (.error (.malformed cause))
  | none =>
    match s.get? id with
    | none => .answer (.ok (answer none))
    | some r =>
      match replacedConditions r u.conditions with
      | .error fault => .answer (.error fault)
      | .ok (conditions, strays) =>
        .edit (.put (updated r u now conditions strays))
          (answer (some (updated r u now conditions strays))) []

def plan (s : Repository) (h : Host) : Change → Plan × Host
  | .create name trigger action conditions description isEnabled =>
    if name.truthy then
      let r := created h name trigger action conditions description isEnabled
      (.edit (.put r) (.stored r)
        ["Created rule '" ++ name.toText ++ "' (" ++ r.id ++ "): " ++ trigger.kind.name ++ " -> " ++
          action.kind.name], { h with ids := ⟨h.ids.drawn + 1⟩ })
    else (.answer (.error (.malformed .ruleWithoutName)), h)
  | .importRule v =>
    let (x, ids) := Rule.ofWire h.now v h.ids
    (match x with
      | .error fault => .answer (.error fault)
      | .ok r =>
        if s.rules.contains r.id then .answer (.error (.malformed (.ruleExists r.id))) else .edit
          (.put r) (.stored r) [],
      { h with ids })
  | .update id u => (planUpdate s h.now id u .updated, h)
  | .setEnabled id enabled =>
    (planUpdate s h.now id { isEnabled := some (.bool enabled) } fun r => .found r.isSome, h)
  | .remove id =>
    (if s.rules.contains id then .edit (.drop id) (.found true) ["Deleted rule " ++ id]
      else .answer (.ok (.found false)), h)

theorem save_run (s : Repository) (h : Host) : save (s, h) =
    match s.toWire with
    | .error fault => (.error fault, (s, h))
    | .ok v => ((StateFile.save s.path v h).1, (s, (StateFile.save s.path v h).2)) := by
  simp only [save, Op.run_bind, Op.run_store, Op.run_ofExcept]
  cases s.toWire <;> rfl

theorem save_state (s : Repository) (h : Host) : (save (s, h)).2.1 = s := by
  rw [save_run]
  split <;> rfl

theorem run_edit (e : Edit) (a : Answer) (notes : List Text) (s : Repository) (h : Host) :
    (Plan.edit e a notes).run (s, h) =
      match save (e.apply s, h) with
      | (.ok _, (t, k)) => (.ok a, (t, k.noteAll .info notes))
      | (.error fault, t) => (.error fault, t) := by
  simp only [Plan.run, Op.run_bind, Op.run_store, Op.run_setStore]
  rcases save (e.apply s, h) with ⟨fault | _, t, k⟩ <;> rfl

theorem update_plan (s : Repository) (h : Host) (id : Text) (u : RuleUpdate)
    (answer : Option Rule → Answer) :
    (do return answer (← update id u) : StoreOp Repository Answer)
    (s, h) = (planUpdate s h.now id u answer).run (s, h) := by
  unfold update planUpdate
  cases refusal? u with
  | some cause => rfl
  | none =>
    simp only [Op.run_bind, Op.run_store, Op.run_pure]
    cases s.get? id with
    | none => rfl
    | some r =>
      simp only [Op.run_bind, Op.run_ofExcept]
      cases replacedConditions r u.conditions with
      | error fault => rfl
      | ok parts =>
        simp only [Op.run_bind, Op.run_get, put, Op.run_store, Op.run_setStore, run_edit,
          Edit.apply, updated, Op.run_pure]
        rcases save _ with ⟨fault | _, t⟩ <;> rfl

/-- A change is its plan, carried out. -/
theorem carryOut_plan (c : Change) (s : Repository) (h : Host) :
    carryOut c (s, h) = (plan s h c).1.run (s, (plan s h c).2) := by
  cases c with
  | create name trigger action conditions description isEnabled =>
    simp only [carryOut, create, plan]
    cases name.truthy with
    | false => rfl
    | true =>
      simp only [Bool.not_true, Bool.false_eq_true, if_false, if_true, Op.run_bind, Op.run_onHost,
        Op.run_drawing, drawShort_run, Op.run_get, put, Op.run_store, Op.run_setStore, run_edit,
        Edit.apply, created]
      rcases save _ with ⟨fault | _, t⟩ <;> rfl
  | importRule v =>
    simp only [carryOut, importRule, plan, Op.run_bind, Op.run_get, Op.run_onHost, Op.run_drawing]
    rcases Rule.ofWire h.now v h.ids with ⟨fault | r, ids⟩
    · rfl
    · simp only [add, Op.run_bind, Op.run_store, Op.run_ite]
      cases s.rules.contains r.id with
      | true => rfl
      | false =>
        simp only [Bool.false_eq_true, if_false, put, Op.run_bind, Op.run_store, Op.run_setStore,
          run_edit, Edit.apply]
        rcases save _ with ⟨fault | _, t⟩ <;> rfl
  | update id u => exact update_plan s h id u .updated
  | setEnabled id enabled =>
    rw [plan, ← update_plan]
    simp only [carryOut, setEnabled, Op.run_bind]
    rcases update id _ (s, h) with ⟨fault | r, t⟩ <;> rfl
  | remove id =>
    simp only [carryOut, delete, plan, Op.run_bind, Op.run_onPart, remove, Op.run_store]
    cases s.rules.contains id with
    | false => rfl
    | true =>
      simp only [Bool.not_true, Bool.false_eq_true, if_false, if_true, Op.run_bind, Op.run_setStore,
        run_edit, Edit.apply]
      rcases save _ with ⟨fault | _, t⟩ <;> rfl

end Plans

section Rows

variable {s : Repository} {id : Text} {r : Rule}

theorem Keyed.get?_iff (keyed : s.Keyed) : s.get? id = some r ↔ r ∈ s.rules.values ∧ r.id = id := by
  constructor
  · intro found
    have member := Entries.mem_of_get? found
    exact ⟨List.mem_map_of_mem member, (keyed _ member).symm⟩
  · rintro ⟨member, rfl⟩
    obtain ⟨e, there, rfl⟩ := List.mem_map.1 member
    rw [← keyed e there]
    exact Entries.get?_of_mem s.rules.distinct there

theorem Keyed.get?_none (keyed : s.Keyed) : s.get? id = none ↔ ∀ r ∈ s.rules.values, r.id ≠ id := by
  rw [Option.eq_none_iff_forall_ne_some]
  constructor
  · exact fun none r member same => none r (keyed.get?_iff.2 ⟨member, same⟩)
  · exact fun none r found => none r (keyed.get?_iff.1 found).1 (keyed.get?_iff.1 found).2

theorem values_put_absent (absent : s.rules.contains r.id = false) :
    (s.rules.put r.id r).values = s.rules.values ++ [r] := by
  have fresh : r.id ∉ s.rules.keys := by
    rw [← OrderedMap.contains_iff, absent]; exact Bool.false_ne_true
  have entries : (s.rules.put r.id r).entries = s.rules.entries ++ [(r.id, r)] :=
    Entries.put_of_absent fresh r
  rw [OrderedMap.values, entries, List.map_append]
  rfl

theorem values_put_present (keyed : s.Keyed) (present : s.rules.contains r.id = true) :
    (s.rules.put r.id r).values = s.rules.values.map fun x => if x.id = r.id then r else x := by
  have entries : (s.rules.put r.id r).entries = s.rules.entries.map fun e =>
      if e.1 = r.id then (r.id, r) else e :=
    if_pos ((s.rules.contains_iff r.id).1 present)
  rw [OrderedMap.values, entries, OrderedMap.values, List.map_map, List.map_map]
  refine List.map_congr_left fun e member => ?_
  simp only [Function.comp_apply, keyed e member]
  split <;> rfl

theorem values_erase (keyed : s.Keyed) (id : Text) :
    (s.rules.erase id).values = s.rules.values.filter fun x => x.id ≠ id := by
  have entries : (s.rules.erase id).entries = s.rules.entries.filter fun e => decide (e.1 ≠ id) :=
    rfl
  rw [OrderedMap.values, entries, OrderedMap.values, List.filter_map]
  exact congrArg (List.map _) (List.filter_congr fun e member => by simp [keyed e member])

end Rows

/-- A rule and what an update makes of it: the parts that are named, and the time of update. -/
structure Updates (u : RuleUpdate) (now : DateTime) (r r' : Rule) : Prop where
  id : r'.id = r.id
  trigger : r'.trigger = r.trigger
  createdAt : r'.createdAt = r.createdAt
  updatedAt : r'.updatedAt = .ofDateTime now
  name : r'.name = u.name.getD r.name
  description : r'.description = u.description.getD r.description
  action : r'.action = u.action.getD r.action
  isEnabled : r'.isEnabled = u.isEnabled.getD r.isEnabled
  conditions : u.conditions = none → r'.conditions = r.conditions ∧ r'.strays = r.strays
  replaced : ∀ conditions, u.conditions = some (.inl conditions) → r'.conditions = conditions ∧
    r'.strays = []

def Replaces (id : Text) (u : RuleUpdate) (now : DateTime) (rows rows' : List Rule) :
    Option Rule → Prop
  | none => (∀ r ∈ rows, r.id ≠ id) ∧ rows' = rows
  | some r' =>
    ∃ r ∈ rows, r.id = id ∧ Updates u now r r' ∧ rows' = rows.map fun x =>
      if x.id = id then r' else x

def Makes (h : Host) (rows rows' : List Rule) : Change → Answer → Prop
  | .create name trigger action conditions description isEnabled, .stored r =>
    r = created h name trigger action conditions description isEnabled ∧ rows' = rows ++ [r]
  | .importRule v, .stored r => (Rule.ofWire h.now v h.ids).1 = .ok r ∧ rows' = rows ++ [r]
  | .update id u, .updated r => Replaces id u h.now rows rows' r
  | .setEnabled id enabled, .found b =>
    ∃ r, Replaces id { isEnabled := some (.bool enabled) } h.now rows rows' r ∧ b = r.isSome
  | .remove id, .found b =>
    (b = true ↔ ∃ r ∈ rows, r.id = id) ∧ rows' = rows.filter fun r => r.id ≠ id
  | _, _ => False

def Refuses (h : Host) (rows : List Rule) (fault : Fault) : Change → Prop
  | .create name .. => name.truthy = false ∧ fault = .malformed .ruleWithoutName
  | .importRule v => (Rule.ofWire h.now v h.ids).1 = .error fault ∨
    ∃ r, (Rule.ofWire h.now v h.ids).1 = .ok r ∧ (∃ x ∈ rows, x.id = r.id) ∧
      fault = .malformed (.ruleExists r.id)
  | .update id u => (∃ cause, refusal? u = some cause ∧ fault = .malformed cause) ∨
    ∃ r ∈ rows, r.id = id ∧ replacedConditions r u.conditions = .error fault
  | .setEnabled .. | .remove _ => False

section Made

variable {s t : Repository} {h k : Host} {c : Change} {a : Answer} {x : Except Fault Answer}

/-- What a plan comes to: its edit is saved before it is answered. -/
theorem Plan.run_cases {plan : Plan} (run : plan.run (s, h) = (x, (t, k))) :
    (plan = .answer x ∧ t = s ∧ k = h) ∨
    ∃ e a notes, plan = .edit e a notes ∧ t = e.apply s ∧
      ((∃ fault, t.toWire = .error fault ∧ x = .error fault ∧ k = h) ∨
        ∃ v, t.toWire = .ok v ∧
          match StateFile.save t.path v h with
          | (.ok _, l) => x = .ok a ∧ k = l.noteAll .info notes
          | (.error fault, l) => x = .error fault ∧ k = l) := by
  cases plan with
  | answer y =>
    rw [Plan.run, Op.run_ofExcept] at run
    cases run
    exact .inl ⟨rfl, rfl, rfl⟩
  | edit e a notes =>
    refine .inr ⟨e, a, notes, rfl, ?_⟩
    rw [run_edit, save_run] at run
    cases wire : (e.apply s).toWire with
    | error fault =>
      rw [wire] at run
      cases run
      exact ⟨rfl, .inl ⟨fault, wire, rfl, rfl⟩⟩
    | ok v =>
      rw [wire] at run
      simp only at run
      rcases saved : StateFile.save (e.apply s).path v h with ⟨fault | _, l⟩ <;>
        rw [saved] at run <;> cases run <;>
        exact ⟨rfl, .inr ⟨v, wire, by rw [saved]; exact ⟨rfl, rfl⟩⟩⟩

/-- What an answer tells of the plan. -/
theorem Plan.run_ok {plan : Plan} (run : plan.run (s, h) = (.ok a, (t, k))) :
    (plan = .answer (.ok a) ∧ t = s) ∨ ∃ e notes, plan = .edit e a notes ∧ t = e.apply s := by
  rcases run_cases
    run with ⟨plan, same, -⟩ | ⟨e, a', notes, rfl, edited, ⟨fault, -, failed, -⟩ | ⟨v, -, saved⟩⟩
  · exact .inl ⟨plan, same⟩
  · cases failed
  · revert saved
    rcases StateFile.save t.path v h with ⟨fault | _, l⟩
    · rintro ⟨failed, -⟩
      cases failed
    · rintro ⟨answer, -⟩
      cases answer
      exact .inr ⟨e, notes, rfl, edited⟩

theorem updates_updated {u : RuleUpdate} {r : Rule} {conditions : List Condition}
    {strays : List Text}
    (parts : replacedConditions r u.conditions = .ok (conditions, strays)) (now : DateTime) :
    Updates u now r (updated r u now conditions strays) where
  id := rfl
  trigger := rfl
  createdAt := rfl
  updatedAt := rfl
  name := rfl
  description := rfl
  action := rfl
  isEnabled := rfl
  conditions none := by
    rw [none] at parts
    cases parts
    exact ⟨rfl, rfl⟩
  replaced given some := by
    rw [some] at parts
    cases parts
    exact ⟨rfl, rfl⟩

inductive Planned (s : Repository) (now : DateTime) (id : Text) (u : RuleUpdate)
    (answer : Option Rule → Answer) : Plan → Prop
  | refused {cause : Malformed} (asked : refusal? u = some cause) :
    Planned s now id u answer (.answer (.error (.malformed cause)))
  | missing (absent : s.get? id = none) : Planned s now id u answer (.answer (.ok (answer none)))
  | unread {r : Rule} {fault : Fault} (found : s.get? id = some r)
      (parts : replacedConditions r u.conditions = .error fault) :
    Planned s now id u answer (.answer (.error fault))
  | edited {r r' : Rule} (found : s.get? id = some r) (updates : Updates u now r r') :
    Planned s now id u answer (.edit (.put r') (answer (some r')) [])

theorem planned_planUpdate (s : Repository) (now : DateTime) (id : Text) (u : RuleUpdate)
    (answer : Option Rule → Answer) :
    Planned s now id u answer (planUpdate s now id u answer) := by
  unfold planUpdate
  cases asked : refusal? u with
  | some cause => exact .refused asked
  | none =>
    cases found : s.get? id with
    | none => exact .missing found
    | some r =>
      simp only
      cases parts : replacedConditions r u.conditions with
      | error fault => exact .unread found parts
      | ok parts' => exact .edited found (updates_updated parts now)

theorem replaces_of_plan (keyed : s.Keyed) {id : Text} {u : RuleUpdate}
    {answer : Option Rule → Answer}
    (run : (planUpdate s h.now id u answer).run (s, h) = (.ok a, (t, k))) :
    ∃ r, Replaces id u h.now s.rules.values t.rules.values r ∧ a = answer r := by
  have planned := planned_planUpdate s h.now id u answer
  generalize planUpdate s h.now id u answer = plan at run planned
  cases planned with
  | refused asked => cases run
  | missing absent =>
    cases run
    exact ⟨none, ⟨keyed.get?_none.1 absent, rfl⟩, rfl⟩
  | unread found parts => cases run
  | @edited r r' found updates =>
    obtain ⟨member, rfl⟩ := keyed.get?_iff.1 found
    rcases Plan.run_ok run with ⟨plan, -⟩ | ⟨e, notes, plan, rfl⟩ <;> cases plan
    have present : s.rules.contains r'.id = true := by
      rw [updates.id, OrderedMap.contains, show s.rules.get? r.id = _ from found]
      rfl
    refine ⟨some r', ⟨r, member, rfl, updates, ?_⟩, rfl⟩
    rw [← updates.id]
    exact values_put_present keyed present

theorem makes_of_run (keyed : s.Keyed) (fresh : Fresh c (s, h))
    (run : carryOut c (s, h) = (.ok a, (t, k))) :
    Makes h s.rules.values t.rules.values c a := by
  rw [carryOut_plan] at run
  cases c with
  | create name trigger action conditions description isEnabled =>
    rw [plan] at run
    split at run
    · rcases Plan.run_ok run with ⟨plan, -⟩ | ⟨e, notes, plan, rfl⟩ <;> cases plan
      exact ⟨rfl, values_put_absent fresh⟩
    · cases run
  | importRule v =>
    simp only [plan] at run
    rcases read : Rule.ofWire h.now v h.ids with ⟨fault | r, ids⟩ <;> rw [read] at run <;>
      simp only at run
    · cases run
    · split at run
      · cases run
      next absent =>
        rcases Plan.run_ok run with ⟨plan, -⟩ | ⟨e, notes, plan, rfl⟩ <;> cases plan
        exact ⟨congrArg Prod.fst read, values_put_absent (Bool.eq_false_iff.2 absent)⟩
  | update id u =>
    obtain ⟨r, replaces, rfl⟩ := replaces_of_plan keyed run
    exact replaces
  | setEnabled id enabled =>
    simp only [plan] at run
    obtain ⟨r, replaces, rfl⟩ := replaces_of_plan keyed run
    exact ⟨r, replaces, rfl⟩
  | remove id =>
    have known : s.rules.contains id = true ↔ ∃ r ∈ s.rules.values, r.id = id := by
      rw [OrderedMap.contains, Option.isSome_iff_exists]
      simp only [← keyed.get?_iff]
      rfl
    rw [plan] at run
    split at run
    next present =>
      rcases Plan.run_ok run with ⟨plan, -⟩ | ⟨e, notes, plan, rfl⟩ <;> cases plan
      exact ⟨⟨fun _ => known.1 present, fun _ => rfl⟩, values_erase keyed id⟩
    next absent =>
      cases run
      have none : ∀ r ∈ s.rules.values, r.id ≠ id :=
        fun r member same => absent (known.2 ⟨r, member, same⟩)
      refine ⟨⟨nofun, fun found => absurd (known.2 found) absent⟩, ?_⟩
      exact (List.filter_eq_self.2 fun r member => by simpa using none r member).symm

theorem refuses_of_planUpdate (keyed : s.Keyed) {id : Text} {u : RuleUpdate}
    {answer : Option Rule → Answer} {fault : Fault}
    (refused : planUpdate s h.now id u answer = .answer (.error fault)) :
    Refuses h s.rules.values fault (.update id u) := by
  have planned := planned_planUpdate s h.now id u answer
  rw [refused] at planned
  cases planned with
  | refused asked => exact .inl ⟨_, asked, rfl⟩
  | unread found parts =>
    obtain ⟨member, named⟩ := keyed.get?_iff.1 found
    exact .inr ⟨_, member, named, parts⟩

theorem refuses_of_plan (keyed : s.Keyed) {fault : Fault}
    (refused : (plan s h c).1 = .answer (.error fault)) :
    Refuses h s.rules.values fault c := by
  cases c with
  | create name trigger action conditions description isEnabled =>
    simp only [plan] at refused
    split at refused
    · cases refused
    next empty =>
      cases refused
      exact ⟨Bool.eq_false_iff.2 empty, rfl⟩
  | importRule v =>
    simp only [plan] at refused
    rcases read : Rule.ofWire h.now v h.ids with ⟨fault' | r, ids⟩ <;> rw [read] at refused <;>
      simp only at refused
    · cases refused
      exact .inl (congrArg Prod.fst read)
    · split at refused
      next present =>
        cases refused
        obtain ⟨x, found⟩ := Option.isSome_iff_exists.1 present
        exact .inr ⟨r, congrArg Prod.fst read, ⟨x, keyed.get?_iff.1 found⟩, rfl⟩
      next => cases refused
  | update id u => exact refuses_of_planUpdate keyed refused
  | setEnabled id enabled =>
    simp only [plan] at refused
    rcases refuses_of_planUpdate keyed refused with ⟨cause, asked, -⟩ | ⟨r, -, -, parts⟩
    · cases asked
    · cases parts
  | remove id =>
    simp only [plan] at refused
    split at refused <;> cases refused

end Made

end LeadRules.Repository
