import LeadRules.Event
import LeadRules.Proofs.Files
import LeadRules.Proofs.Repositories
import LeadRules.Proofs.Stores

/-! Reading what has identifiers of its own. Nothing is drawn for it, so that it is read the same
every time: an event with an identifier, and the rules that a repository has written. -/
namespace LeadRules

namespace Op

variable {σ α β : Type}

/-- An operation with one result, whatever the state, which it leaves alone. -/
def Constant (op : Op σ α) : Prop := ∃ x, ∀ s, op s = (x, s)

namespace Constant

theorem pure (a : α) : Constant (Pure.pure a : Op σ α) := ⟨_, fun _ => rfl⟩
theorem throw (f : Fault) : Constant (MonadExcept.throw f : Op σ α) := ⟨_, fun _ => rfl⟩
theorem ofExcept (x : Except Fault α) : Constant (Op.ofExcept x : Op σ α) := ⟨x, run_ofExcept x⟩

theorem bind {op : Op σ α} {next : α → Op σ β} (first : Constant op)
    (later : ∀ a, Constant (next a)) :
    Constant (op >>= next) := by
  obtain ⟨x, run⟩ := first
  cases x with
  | error fault => exact ⟨.error fault, fun s => by rw [run_bind, run]⟩
  | ok a =>
    obtain ⟨y, rest⟩ := later a
    exact ⟨y, fun s => by rw [run_bind, run]; exact rest s⟩

theorem ofExcept_bind {x : Except Fault α} {next : α → Op σ β}
    (later : ∀ a, x = .ok a → Constant (next a)) :
    Constant (Op.ofExcept x >>= next) := by
  cases x with
  | error fault => exact .throw fault
  | ok a => exact later a rfl

theorem pure_bind {a : α} {next : α → Op σ β} (later : Constant (next a)) :
    Constant (Pure.pure a >>= next) := later

theorem ite {c : Prop} [Decidable c] {first second : Op σ α} (yes : c → Constant first)
    (no : ¬ c → Constant second) :
    Constant (if c then first else second) := by
  split
  next holds => exact yes holds
  next fails => exact no fails

end Constant

/-- Whatever an operation returns has a property. -/
def Yields (P : α → Prop) (op : Op σ α) : Prop := ∀ s a, (op s).1 = .ok a → P a

namespace Yields

variable {P : β → Prop}

theorem pure {b : β} (holds : P b) : Yields P (Pure.pure b : Op σ β) := by
  rintro s _ ⟨⟩
  exact holds

theorem throw (f : Fault) : Yields P (MonadExcept.throw f : Op σ β) := by
  rintro s _ ⟨⟩

theorem bind_of {Q : α → Prop} {op : Op σ α} {next : α → Op σ β} (first : Yields Q op)
    (later : ∀ a, Q a → Yields P (next a)) : Yields P (op >>= next) := by
  intro s b
  have first := first s
  rw [run_bind]
  revert first
  rcases op s with ⟨fault | a, t⟩
  · rintro - ⟨⟩
  · exact fun first => later a (first a rfl) t b

theorem bind {op : Op σ α} {next : α → Op σ β} (later : ∀ a, Yields P (next a)) :
    Yields P (op >>= next) :=
  bind_of (Q := fun _ => True) (fun _ _ _ => trivial) fun a _ => later a

theorem ofExcept {x : Except Fault β} (admits : Admits P x) :
    Yields P (Op.ofExcept x : Op σ β) := by
  intro s b run
  rw [run_ofExcept] at run
  exact admits b run

theorem ite {c : Prop} [Decidable c] {first second : Op σ β} (yes : c → Yields P first)
    (no : ¬ c → Yields P second) :
    Yields P (if c then first else second) := by
  split
  next holds => exact yes holds
  next fails => exact no fails

end Yields
end Op

open Op (Constant Yields)

def Event.Identified (v : Value) : Prop :=
  ∀ data, v.members = .ok data → (Value.member "eventId" data).truthy = true

theorem Event.ofWire_constant {v : Value} (identified : Identified v) (now : DateTime) :
    Constant (ofWire now v) := by
  refine .ofExcept_bind fun data members => ?_
  have given := identified data members
  dsimp only
  split
  · split
    · split
      · refine .bind (.ofExcept _) fun lead => .bind (.ofExcept _) fun time =>
          .bind (.ofExcept _) fun occurrence => ?_
        exact .ite (fun _ => .pure _) fun absent => absurd given absent
      · exact .throw _
    · exact .throw _
  · exact .throw _

theorem Condition.ofWire_constant (c : Condition) : Constant (ofWire c.toWire) := by
  refine .ofExcept_bind fun data members => ?_
  have given : Value.member "id" data = .text c.id := by
    cases members
    exact (Value.member_record ..).trans (by simp [Entries.get?_cons])
  rw [given]
  refine .bind (.ofExcept _) fun operator => .bind (.ofExcept _) fun logic => ?_
  exact .bind (.pure c.id) fun id => .ofExcept _

namespace Rule

theorem conditionsOfWire_constant (conditions : List Condition) :
    Constant (conditionsOfWire (conditions.map Condition.toWire)) := by
  induction conditions with
  | nil => exact .pure []
  | cons c rest ih => exact .bind (Condition.ofWire_constant c) fun _ => .bind ih fun _ => .pure _

theorem ofWire_constant {r : Rule} {v : Value} (written : r.toWire = .ok v) (named : r.id ≠ "")
    (now : DateTime) :
    Constant (ofWire now v) := by
  unfold toWire at written
  split at written
  · cases written
  · obtain rfl := Except.ok.inj written
    refine .ofExcept_bind fun data members => ?_
    have given : Value.member "id" data = .text r.id := by
      cases members
      exact (Value.member_record ..).trans (by simp [Entries.get?_cons])
    have conditions :
        Value.member "conditions" data = .list (r.conditions.map Condition.toWire) := by
      cases members
      exact (Value.member_record ..).trans (by simp [Entries.get?_cons, Text.ofString_inj])
    have present : (Value.text r.id).truthy = true := by simpa [Value.truthy] using named
    rw [given, conditions]
    refine .ite (fun _ => .throw _) fun _ => .pure_bind ?_
    refine .ite (fun _ => .pure_bind ?_) fun absent => absurd present absent
    refine .bind (.ofExcept _) fun trigger =>
      .bind (conditionsOfWire_constant r.conditions) fun conditions => ?_
    refine .bind (.ofExcept _) fun action => .bind (.ofExcept _) fun created =>
      .bind (.ofExcept _) fun updated => ?_
    exact .pure _

end Rule

theorem Binary64.toText_ne_empty (x : Binary64) : x.toText ≠ "" := by
  have written (d : Decimal) : d.write .standard ≠ "" := by
    unfold Decimal.write Decimal.positional Decimal.scientific
    simp only
    split
    · decide
    · split
      · split
        · simp
        · split <;> simp
      · simp
        intro _
        split <;> exact fun none => absurd none (by decide)
  cases x with
  | nan => exact (by decide : "nan" ≠ "")
  | number negative rank bounded =>
    unfold toText
    simp only
    split
    · simp
    · split
      · exact written _
      · decide

/-- All values but null and the empty text have a text. -/
theorem Value.toText_ne_empty {v : Value} (given : v.isBlank = false) : v.toText ≠ "" := by
  have filled {s : String} (some : s ≠ "") : Text.ofString s ≠ "" :=
    fun none => some (Text.ofString_inj.1 none)
  cases v with
  | null => simp [isBlank] at given
  | bool b => cases b <;> exact filled (by decide)
  | int n =>
    cases n with
    | ofNat n => exact filled Nat.repr_ne_empty
    | negSucc n =>
      have sign : toString (Int.negSucc n) = "-" ++ (n + 1).repr := rfl
      exact filled (by simp [toLiteral, sign])
  | float x => exact filled x.toText_ne_empty
  | text t =>
    have filled : t ≠ "" := by simpa [isBlank] using given
    exact filled
  | list items => exact filled (by simp [toLiteral])
  | map entries => exact filled (by simp [toLiteral])

theorem Value.isBlank_of_truthy {v : Value} (given : v.truthy = true) : v.isBlank = false := by
  cases v with
  | null => cases given
  | text t =>
    have filled : t ≠ "" := by simpa [truthy] using given
    simp [isBlank, filled]
  | _ => simp [isBlank]

theorem Text.take_ne_empty {t : Text} (some : t.points ≠ []) (n : Nat) : t.take (n + 1) ≠ "" := by
  intro none
  have points : t.points.take (n + 1) = [] := congrArg Text.points none
  exact some ((List.take_eq_nil_iff.1 points).resolve_left (Nat.succ_ne_zero n))

theorem IdSource.identifier_ne_empty (n : Nat) : (identifier n).take 12 ≠ "" := by
  refine Text.take_ne_empty ?_ 11
  rw [identifier, Text.points_append]
  exact List.append_ne_nil_of_right_ne_nil _ (by decide)

namespace Rule

def conditionItems (data : List (Value × Value)) : Except Fault (List Value) :=
  match Value.member "conditions" data with
  | .list items => .ok items
  | other => if other.truthy then .error (.malformed .conditionsNotList) else .ok []

def idOf (data : List (Value × Value)) : Op IdSource Text :=
  if (Value.member "id" data).truthy then pure (Value.member "id" data).toText
  else IdSource.drawShort 12

def ofMembers (now : DateTime) (data : List (Value × Value)) (items : List Value) (id : Text) :
    Op IdSource Rule := do
  let trigger ← Op.ofExcept (Trigger.ofWire (Value.member "trigger" data))
  let conditions ← conditionsOfWire items
  let action ← Op.ofExcept (Action.ofWire (Value.member "action" data))
  let createdAt ← Op.ofExcept (stampOfWire now (Value.member "createdAt" data))
  let updatedAt ← Op.ofExcept (stampOfWire now (Value.member "updatedAt" data))
  return {
    id, name := Value.member "name" data, trigger, action, conditions, createdAt, updatedAt
    description :=
      if (Value.member "description" data).truthy then Value.member "description" data else .text ""
    isEnabled := .bool (Value.memberOr "isEnabled" (.bool true) data).truthy }

/-- A rule is read in four steps: its name is looked for, then its conditions, then its
identifier, then all else. -/
theorem ofWire_eq (now : DateTime) (v : Value) : ofWire now v = (do
    let data ← Op.ofExcept v.members
    if !(Value.member "name" data).truthy then throw (.malformed .ruleWithoutName)
    let items ← Op.ofExcept (conditionItems data)
    let id ← idOf data
    ofMembers now data items id) := by
  refine congrArg (Op.ofExcept v.members >>= ·) (funext fun data => ?_)
  unfold conditionItems idOf
  dsimp only
  split
  · rfl
  · generalize Value.member "conditions" data = conditions
    cases conditions with
    | list items =>
      dsimp only
      split <;> rfl
    | _ =>
      dsimp only
      split
      · rfl
      · split <;> rfl

theorem idOf_ne_empty (data : List (Value × Value)) :
    Yields (fun id : Text => id ≠ "") (idOf data) := by
  refine .ite (fun given => .pure (Value.toText_ne_empty (Value.isBlank_of_truthy given))) fun _ =>
    ?_
  rintro s id run
  rw [Repository.drawShort_run] at run
  obtain rfl := Except.ok.inj run
  exact IdSource.identifier_ne_empty _

/-- What holds of the rule of every entry with a name and an identifier holds of
every rule that is read. -/
theorem ofWire_yields {P : Rule → Prop} {now : DateTime} (v : Value)
    (holds : ∀ data items (id : Text), (Value.member "name" data).truthy = true → id ≠ "" →
      Yields P (ofMembers now data items id)) :
    Yields P (ofWire now v) := by
  rw [ofWire_eq]
  refine .bind fun data => .ite (fun _ => .throw _) fun some => .bind fun items => ?_
  exact .bind_of (idOf_ne_empty data) fun id named =>
    holds data items id (by simpa using some) named

/-- A rule that was read has an identifier, given or drawn. -/
theorem ofWire_named (now : DateTime) (v : Value) :
    Yields (fun r : Rule => r.id ≠ "") (ofWire now v) := by
  refine ofWire_yields v fun data items id _ named => ?_
  refine .bind fun trigger => .bind fun conditions => .bind fun action => .bind fun created =>
    .bind fun updated => ?_
  exact .pure named

end Rule

namespace Repository

def Named (s : Repository) : Prop := ∀ entry ∈ s.rules.entries, entry.2.id ≠ ""

theorem named_lasting : Lasting (· ≠ "") Named where
  put {s r} named fit := by
    intro entry member
    rcases Entries.mem_put member with old | rfl
    · exact named entry old
    · exact fit
  erase named := fun entry member => named entry (List.mem_filter.1 member).1
  held named found := named _ (Entries.mem_of_get? found)

/-- The repositories that are opened on some file and changed since, in any order and on any
hosts. A rule that is added as it is has an identifier. -/
inductive Kept : Repository → Prop
  | opened {path : Option FilePath} {h k : Host} {s : Repository}
      (run : load path h = (.ok s, k)) : Kept s
  | create {s : Repository} (kept : Kept s) (h : Host) (name : Value) (trigger : Trigger)
      (action : Action)
      (conditions : List Condition) (description isEnabled : Value) :
      Kept (create name trigger action conditions description isEnabled (s, h)).2.1
  | importRule {s : Repository} (kept : Kept s) (h : Host) (v : Value) :
      Kept (importRule v (s, h)).2.1
  | add {s : Repository} (kept : Kept s) (h : Host) (r : Rule) (named : r.id ≠ "") :
      Kept (add r (s, h)).2.1
  | update {s : Repository} (kept : Kept s) (h : Host) (id : Text) (u : RuleUpdate) :
      Kept (update id u (s, h)).2.1
  | remove {s : Repository} (kept : Kept s) (h : Host) (id : Text) : Kept (remove id (s, h)).2.1

theorem loadRules_named (path : Option FilePath) (items : List Value) :
    Yields (fun loaded : List Rule => ∀ r ∈ loaded, r.id ≠ "") (loadRules path items) := by
  induction items with
  | nil => exact .pure fun _ member => absurd member List.not_mem_nil
  | cons v rest ih =>
    refine .bind fun h =>
      .bind_of (Q := fun x => ∀ r : Rule, x = .ok r → r.id ≠ "") ?_ fun x named => ?_
    · rintro k x ⟨⟩ r read
      exact Rule.ofWire_named h.now v k.ids r read
    · split
      next r => 
        refine .bind_of ih fun loaded fine => .pure fun r' member => ?_
        rcases List.mem_cons.1 member with rfl | member
        · exact named _ rfl
        · exact fine r' member
      · exact .bind fun _ => ih
      · exact .throw _

theorem Kept.named {s : Repository} (kept : Kept s) : s.Named := by
  induction kept with
  | @opened path h k s run =>
    have yields : Yields Named (load path) := by
      refine .bind fun v => .bind fun items =>
        .bind_of (loadRules_named path items) fun loaded fine => ?_
      have named : Named { path, rules := .ofList (loaded.map fun r => (r.id, r)) } :=
        named_lasting.ofList (fun _ member => absurd member List.not_mem_nil) fine
      exact .ite (fun _ => .bind fun _ => .pure named) fun _ => .pure named
    exact yields h s (congrArg Prod.fst run)
  | create kept h name trigger action conditions description isEnabled named =>
    exact named_lasting.create_keeps IdSource.identifier_ne_empty name trigger action conditions
      description isEnabled
      _ named
  | importRule kept h v named =>
    exact named_lasting.importRule_keeps (Rule.ofWire_named _ _ _ _) v _ named
  | add kept h r fit named => exact named_lasting.add_keeps fit _ named
  | update kept h id u named => exact named_lasting.update_keeps id u _ named
  | remove kept h id named => exact named_lasting.remove_keeps id _ named

theorem mem_list {s : Repository} {ordered : List Rule} {r : Rule}
    (list : s.list false = .ok ordered)
    (member : r ∈ ordered) : ∃ entry ∈ s.rules.entries, entry.2 = r := by
  simp only [Repository.list, Bool.false_eq_true, if_false, inOrder] at list
  split at list
  · obtain rfl := Except.ok.inj list
    exact List.mem_map.1 (List.mem_mergeSort.1 member)
  · cases list

theorem mem_mapM_toWire {ordered : List Rule} {items : List Value}
    (wires : ordered.mapM Rule.toWire = .ok items)
    {v : Value} (member : v ∈ items) : ∃ r ∈ ordered, r.toWire = .ok v := by
  induction ordered generalizing items with
  | nil =>
    cases wires
    cases member
  | cons r rest ih =>
    rw [List.mapM_cons] at wires
    cases first : r.toWire with
    | error fault => simp [first, bind, Except.bind] at wires
    | ok w =>
      cases later : rest.mapM Rule.toWire with
      | error fault => simp [first, later, bind, Except.bind] at wires
      | ok others =>
        simp only [first, later, bind, Except.bind, pure, Except.pure] at wires
        obtain rfl := Except.ok.inj wires
        rcases List.mem_cons.1 member with rfl | member
        · exact ⟨r, List.mem_cons_self, first⟩
        · obtain ⟨r', member, written⟩ := ih later member
          exact ⟨r', List.mem_cons_of_mem _ member, written⟩

/-- What a repository has written are its rules. -/
theorem toWire_items {s : Repository} {v : Value} (written : s.toWire = .ok v) :
    ∃ items, v = .list items ∧ ∀ w ∈ items, ∃ entry ∈ s.rules.entries, entry.2.toWire = .ok w := by
  unfold toWire at written
  cases list : s.list false with
  | error fault => simp [list, bind, Except.bind] at written
  | ok ordered =>
    cases wires : ordered.mapM Rule.toWire with
    | error fault => simp [list, wires, bind, Except.bind] at written
    | ok items =>
      simp only [list, wires, bind, Except.bind] at written
      refine ⟨items, (Except.ok.inj written).symm, fun w member => ?_⟩
      obtain ⟨r, there, written⟩ := mem_mapM_toWire wires member
      obtain ⟨entry, stored, rfl⟩ := mem_list list there
      exact ⟨entry, stored, written⟩

/-- Rules that are read without drawing are loaded alike whenever the time is the same. -/
theorem loadRules_settled {now : DateTime} {items : List Value}
    (constant : ∀ v ∈ items, Constant (Rule.ofWire now v))
    (path : Option FilePath) :
    ∃ x, ∀ h : Host, h.now = now → ∃ k, loadRules path items h = (x, k) ∧ h.Relogged k := by
  induction items with
  | nil => exact ⟨.ok [], fun h _ => ⟨h, rfl, .refl h⟩⟩
  | cons v rest ih =>
    obtain ⟨x, read⟩ := constant v List.mem_cons_self
    obtain ⟨y, later⟩ := ih fun v member => constant v (List.mem_cons_of_mem _ member)
    cases x with
    | ok r =>
      refine ⟨y.map (r :: ·), fun h same => ?_⟩
      obtain ⟨k, done, noted⟩ := later h same
      refine ⟨k, ?_, noted⟩
      subst same
      simp only [loadRules, Op.run_bind, Op.run_get, Op.run_attempt, Op.run_drawing, read, done]
      cases y <;> rfl
    | error fault =>
      by_cases malformed : ∃ cause, fault = .malformed cause
      · obtain ⟨cause, rfl⟩ := malformed
        refine ⟨y, fun h same => ?_⟩
        have noted := Host.Relogged.note .error ("Skipping invalid stored rule " ++
          (Value.member "id" (v.members.toOption.getD [])).toText ++ ": " ++ cause.message) h
        obtain ⟨k, done, noted'⟩ := later _ (noted.now.trans same)
        refine ⟨k, ?_, noted.trans noted'⟩
        subst same
        simp only [loadRules, Op.run_bind, Op.run_get, Op.run_attempt, Op.run_drawing, read, Op.run_log]
        exact done
      · refine ⟨.error fault, fun h same => ⟨h, ?_, .refl h⟩⟩
        subst same
        cases fault with
        | malformed cause => exact absurd ⟨cause, rfl⟩ malformed
        | _ => simp only [loadRules, Op.run_bind, Op.run_get, Op.run_attempt, Op.run_drawing,
            read, Op.run_throw]

def loadItems (path : Option FilePath) (items : List Value) : Op Host Repository := do
  let loaded ← loadRules path items
  let rules := OrderedMap.ofList (loaded.map fun r => (r.id, r))
  if rules.size ≠ 0 then Op.log .info s!"Loaded {rules.size} automation rules"
  return { path, rules }

theorem load_items {p : FilePath} {place : Place} {items : List Value} {h : Host}
    (found : h.files.find p = .ok (place, some (.file (Json.writeIndented (.list items)))))
    (back : StateFile.ReadsBack (.list items)) : load (some p) h = loadItems (some p) items h := by
  simp only [load, loadItems, Op.run_bind, StateFile.load_written found back, Value.iterate,
    Op.run_ofExcept]

/-- A repository's file is loaded alike whenever the time is the same, whatever else has changed. -/
theorem Kept.load_settled {s : Repository} {v : Value} (kept : s.Kept) (written : s.toWire = .ok v)
    (back : StateFile.ReadsBack v) (p : FilePath) (now : DateTime) :
      ∃ x, ∀ (h : Host) (place : Place), h.now = now →
      h.files.find p = .ok (place, some (.file (Json.writeIndented v))) →
      ∃ k, load (some p) h = (x, k) ∧ h.Relogged k := by
  obtain ⟨items, rfl, stored⟩ := toWire_items written
  have constant (w : Value) (member : w ∈ items) : Constant (Rule.ofWire now w) := by
    obtain ⟨entry, there, written⟩ := stored w member
    exact Rule.ofWire_constant written (kept.named entry there) now
  obtain ⟨x, settled⟩ := loadRules_settled constant (some p)
  refine ⟨x.map fun loaded => { path := some p, rules := .ofList (loaded.map fun r => (r.id, r)) }, ?_⟩
  intro h place same found
  obtain ⟨k, done, noted⟩ := settled h same
  rw [load_items found back, loadItems, Op.run_bind, done]
  cases x with
  | error fault => exact ⟨k, rfl, noted⟩
  | ok loaded =>
    simp only [Op.run_ite, Op.run_bind, Op.run_log, Op.run_pure]
    split
    · exact ⟨_, rfl, noted.trans (.note ..)⟩
    · exact ⟨k, rfl, noted⟩

end Repository

end LeadRules
