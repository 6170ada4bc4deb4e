import LeadRules.Proofs.Codec
import LeadRules.Proofs.JsonValues

/-! Rules in a file. A value whose texts, numbers and keys JSON keeps comes back as it is, but
that each NaN is the named one; so what its wire form says all of comes back of a rule. -/
namespace LeadRules

instance (t : Text) : Decidable t.Unsplit :=
  inferInstanceAs (Decidable (t.points.IsChain fun p q => p.pair? q = none))

namespace Value

mutual
def named : Value → Value
  | float x => float x.reread
  | list items => list (namedItems items)
  | map entries => map (namedEntries entries)
  | null => null
  | bool b => bool b
  | int n => int n
  | text t => text t
def namedItems : List Value → List Value
  | [] => []
  | v :: rest => named v :: namedItems rest
def namedEntries : List (Value × Value) → List (Value × Value)
  | [] => []
  | (k, v) :: rest => (k, named v) :: namedEntries rest
end

mutual
/-- Whether a value in which so many containers may be opened comes back from a text: JSON keeps
its texts, its numbers are not too long, and the keys of an object are different texts. -/
def keeps (room : Nat) : Value → Bool
  | int n => Decimal.digitCount n.natAbs ≤ Numeral.digitLimit
  | text t => t.Unsplit
  | list items => 0 < room && keepsItems (room - 1) items
  | map entries => 0 < room && (entries.map (·.1)).Nodup && keepsEntries (room - 1) entries
  | null => true
  | bool _ => true
  | float _ => true
def keepsItems (room : Nat) : List Value → Bool
  | [] => true
  | v :: rest => keeps room v && keepsItems room rest
def keepsEntries (room : Nat) : List (Value × Value) → Bool
  | [] => true
  | (text t, v) :: rest => t.Unsplit && keeps room v && keepsEntries room rest
  | _ :: _ => false
end

theorem namedItems_eq (items : List Value) : namedItems items = items.map named := by
  induction items with
  | nil => rw [namedItems, List.map_nil]
  | cons v rest ih => rw [namedItems, ih, List.map_cons]

theorem namedEntries_eq (entries : List (Value × Value)) :
    namedEntries entries = entries.map fun e => (e.1, e.2.named) := by
  induction entries with
  | nil => rw [namedEntries, List.map_nil]
  | cons e rest ih => rw [namedEntries, ih, List.map_cons]

theorem keepsItems_iff {room : Nat} {items : List Value} : keepsItems room items = true ↔
    ∀ v ∈ items, v.keeps room = true := by
  induction items with
  | nil => simp [keepsItems]
  | cons v rest ih => rw [keepsItems, Bool.and_eq_true, ih, List.forall_mem_cons]

@[simp] theorem named_text (t : Text) : (text t).named = text t := rfl
@[simp] theorem named_null : null.named = null := rfl
@[simp] theorem named_bool (b : Bool) : (bool b).named = bool b := rfl
@[simp] theorem named_int (n : Int) : (int n).named = int n := rfl
@[simp] theorem named_float (x : Binary64) : (float x).named = float x.reread := rfl
@[simp] theorem named_list (items : List Value) :
    (list items).named = list (items.map named) := by rw [named, namedItems_eq]

@[simp] theorem named_record (entries : List (Text × Value)) :
    (record entries).named = record (entries.map fun e => (e.1, e.2.named)) := by
  rw [record, named, namedEntries_eq, record, List.map_map, List.map_map]
  rfl

@[simp] theorem truthy_named (v : Value) : v.named.truthy = v.truthy := by
  cases v with
  | float x =>
    rw [named_float]
    cases x <;> rfl
  | list items => cases items <;> simp [truthy]
  | map entries =>
    rw [named, namedEntries_eq]
    cases entries <;> simp [truthy]
  | _ => rw [named]

end Value

@[simp] theorem Binary64.reread_reread (x : Binary64) : x.reread.reread = x.reread := by cases x <;> rfl

namespace Value

mutual
@[simp] theorem named_named (v : Value) : v.named.named = v.named := by
  match v with
  | null | bool _ | int _ | text _ | float _ => simp
  | list items => rw [named, named, namedItems_named items]
  | map entries => rw [named, named, namedEntries_named entries]
theorem namedItems_named (items : List Value) :
    namedItems (namedItems items) = namedItems items := by
  match items with
  | [] => rw [namedItems, namedItems]
  | v :: rest => rw [namedItems, namedItems, named_named v, namedItems_named rest]
theorem namedEntries_named (entries : List (Value × Value)) :
    namedEntries (namedEntries entries) = namedEntries entries := by
  match entries with
  | [] => rw [namedEntries, namedEntries]
  | (k, v) :: rest => rw [namedEntries, namedEntries, named_named v, namedEntries_named rest]
end

end Value

namespace Json

open Value (named namedItems namedEntries keeps keepsItems keepsEntries)

mutual
/-- What JSON keeps is read as it was written, but for the names of NaNs. -/
theorem reread_keeps {room : Nat} (v : Value) (kept : keeps room v = true) :
    reread room v = .ok v.named := by
  match v with
  | .null | .bool _ | .float _ => rw [reread, named]
  | .int n =>
    rw [keeps, decide_eq_true_eq] at kept
    rw [reread, if_neg (Nat.not_lt.2 kept), named]
  | .text t =>
    rw [keeps, decide_eq_true_eq] at kept
    rw [reread, Text.joined_of_unsplit kept, named]
  | .list items =>
    rw [keeps, Bool.and_eq_true, decide_eq_true_eq] at kept
    obtain ⟨room, rfl⟩ := Nat.exists_eq_succ_of_ne_zero (Nat.pos_iff_ne_zero.1 kept.1)
    have later := reread_keepsItems items kept.2
    rw [reread, named]
    show (rereadItems room items >>= _) = _
    rw [show rereadItems room items = _ from later]
    rfl
  | .map entries =>
    rw [keeps, Bool.and_eq_true, Bool.and_eq_true, decide_eq_true_eq, decide_eq_true_eq] at kept
    obtain ⟨⟨some, distinct⟩, members⟩ := kept
    obtain ⟨room, rfl⟩ := Nat.exists_eq_succ_of_ne_zero (Nat.pos_iff_ne_zero.1 some)
    have later := reread_keepsEntries entries [] distinct members
    rw [reread, named]
    show (rereadMembers room [] entries >>= _) = _
    rw [show rereadMembers room [] entries = _ from later]
    rfl
theorem reread_keepsItems {room : Nat} (items : List Value) (kept : keepsItems room items = true) :
    rereadItems room items = .ok (namedItems items) := by
  match items with
  | [] => rw [rereadItems, namedItems]; rfl
  | v :: rest =>
    rw [keepsItems, Bool.and_eq_true] at kept
    rw [rereadItems, reread_keeps v kept.1, reread_keepsItems rest kept.2, namedItems]
    rfl
theorem reread_keepsEntries {room : Nat} (entries done : List (Value × Value))
    (distinct : ((done ++ entries).map (·.1)).Nodup) (kept : keepsEntries room entries = true) :
    rereadMembers room done entries = .ok (done ++ namedEntries entries) := by
  match entries with
  | [] =>
    rw [rereadMembers, namedEntries, List.append_nil]
    rfl
  | (.text t, v) :: rest =>
    rw [keepsEntries, Bool.and_eq_true, Bool.and_eq_true, decide_eq_true_eq] at kept
    have key : (keyName (.text t)).joined = t := Text.joined_of_unsplit kept.1.1
    have fresh : Value.text t ∉ done.map (·.1) := by
      intro member
      rw [List.map_append, List.nodup_append] at distinct
      exact distinct.2.2 _ member _ List.mem_cons_self rfl
    have later :=
      reread_keepsEntries rest (done ++ [(.text t, v.named)]) (by simpa using distinct) kept.2
    rw [rereadMembers, reread_keeps v kept.1.2, namedEntries]
    show rereadMembers room (Entries.put _ _ _) rest = _
    rw [key, Entries.put_of_absent fresh, later, List.append_assoc]
    rfl
  | (.null, _) :: _ | (.bool _, _) :: _ | (.int _, _) :: _ | (.float _, _) :: _ | (.list _, _) ::
      _ | (.map _, _) :: _ =>
    simp [keepsEntries] at kept
end

mutual
/-- All NaNs are written alike. -/
theorem writeIn_named (layout : Layout) (v : Value) :
    writeIn layout v.named = writeIn layout v := by
  match v with
  | .null | .bool _ | .int _ | .text _ => rw [named]
  | .float x =>
    rw [named, writeIn, writeIn]
    cases x <;> rfl
  | .list [] => rw [named, namedItems]
  | .list (v :: rest) =>
    rw [named, namedItems, writeIn, writeIn, writeIn_named layout.deeper v,
      writeItems_named layout.deeper rest]
  | .map [] => rw [named, namedEntries]
  | .map ((k, v) :: rest) =>
    rw [named, namedEntries, writeIn, writeIn, writeIn_named layout.deeper v,
      writeMembers_named layout.deeper rest]
theorem writeItems_named (layout : Layout) (items : List Value) :
    writeItems layout (namedItems items) = writeItems layout items := by
  match items with
  | [] => rw [namedItems]
  | v :: rest =>
    rw [namedItems, writeItems, writeItems, writeIn_named layout v, writeItems_named layout rest]
theorem writeMembers_named (layout : Layout) (entries : List (Value × Value)) :
    writeMembers layout (namedEntries entries) = writeMembers layout entries := by
  match entries with
  | [] => rw [namedEntries]
  | (k, v) :: rest =>
    rw [namedEntries, writeMembers, writeMembers, writeIn_named layout v, writeMembers_named layout rest]
end

end Json

def Trigger.named : Trigger → Trigger
  | leadUntouched hours => leadUntouched hours.reread
  | scoreReaches score => scoreReaches score.reread
  | t => t

theorem Trigger.toWire_named (t : Trigger) : t.named.toWire = t.toWire.named := by
  cases t <;> simp [named, toWire, kind]

theorem Trigger.check_named {t : Trigger} (checked : t.check = .ok t) :
    t.named.check = .ok t.named := by
  cases t with
  | leadUntouched hours =>
    have same : hours.reread.lt .zero = hours.lt .zero := by cases hours <;> rfl
    simp only [check] at checked
    simp only [named, check, same]
    split at checked
    · cases checked
    next fine => rw [if_neg fine]
  | stageChanged toStage => exact checked
  | _ => rfl

namespace Condition

def settled (c : Condition) : Condition :=
  { c.bare with field := c.field.named, value := c.bare.value.named }

theorem toWire_settled (c : Condition) : c.settled.toWire = c.toWire.named := by
  unfold toWire settled bare
  cases c.operator.takesValue <;> simp

theorem check_settled {c : Condition} (checked : c.check = .ok c) :
    c.settled.check = .ok c.settled := by
  obtain ⟨field, taken⟩ := (check_iff c).1 checked
  refine (check_iff _).2 ⟨(Value.truthy_named c.field).trans field, ?_⟩
  cases takes : c.operator.takesValue with
  | true => exact .inl takes
  | false => exact .inr (by simp [settled, bare, takes, Value.isBlank])

theorem bare_settled (c : Condition) : c.settled.bare = c.settled := by
  cases takes : c.operator.takesValue <;> simp [settled, bare, takes]

theorem settled_settled (c : Condition) : c.settled.settled = c.settled := by
  have field : c.settled.field = c.field.named := rfl
  have value : c.settled.value = c.bare.value.named := rfl
  rw [settled, bare_settled, field, value, Value.named_named, Value.named_named]
  rfl

end Condition

namespace Rule

/-- A rule as it is read from a text: with the named NaN in the place of every NaN, and without
values that its conditions do not take. -/
def settled (r : Rule) : Rule := { r with
  name := r.name.named
  trigger := r.trigger.named
  conditions := r.conditions.map Condition.settled
  description := r.description.named
  isEnabled := r.isEnabled.named }

variable {r : Rule}

@[simp] theorem settled_id (r : Rule) : r.settled.id = r.id := rfl
@[simp] theorem settled_createdAt (r : Rule) : r.settled.createdAt = r.createdAt := rfl

@[simp] theorem enabled_settled (r : Rule) : r.settled.enabled = r.enabled :=
  Value.truthy_named r.isEnabled

@[simp] theorem settled_settled (r : Rule) : r.settled.settled = r.settled := by
  have conditions : (r.conditions.map Condition.settled).map Condition.settled =
      r.conditions.map Condition.settled := by
    simp only [List.map_map, List.map_inj_left]
    exact fun c _ => c.settled_settled
  have trigger : r.trigger.named.named = r.trigger.named := by
    cases r.trigger <;> simp [Trigger.named]
  simp only [settled, conditions, trigger, Value.named_named]

theorem toWire_settled (r : Rule) : r.settled.toWire = r.toWire.map Value.named := by
  have action : r.action.toWire.named = r.action.toWire := by
    cases r.action <;> simp [Action.toWire]
  have conditions : (r.conditions.map Condition.settled).map Condition.toWire =
      (r.conditions.map Condition.toWire).map Value.named := by
    simp only [List.map_map, List.map_inj_left]
    exact fun c _ => c.toWire_settled
  unfold toWire
  cases none : r.strays.isEmpty with
  | false => simp [settled, none, Except.map]
  | true => simp [settled, none, Except.map, conditions, Trigger.toWire_named, action]

theorem Faithful.settled (faithful : r.Faithful) : r.settled.Faithful where
  id := faithful.id
  name := (Value.truthy_named r.name).trans faithful.name
  trigger := Trigger.check_named faithful.trigger
  conditions c member := by
    obtain ⟨c, there, rfl⟩ := List.mem_map.1 member
    exact Condition.check_settled (faithful.conditions c there)
  strays := faithful.strays
  action := faithful.action
  description := faithful.description.imp (Value.truthy_named r.description).trans fun none => by
    rw [Rule.settled, none, Value.named_text]
  isEnabled := by
    obtain ⟨b, marked⟩ := faithful.isEnabled
    exact ⟨b, by rw [Rule.settled, marked, Value.named_bool]⟩
  createdAt := faithful.createdAt
  updatedAt := faithful.updatedAt

theorem bare_settled (r : Rule) : r.settled.bare = r.settled := by
  have conditions : (r.conditions.map Condition.settled).map Condition.bare =
      r.conditions.map Condition.settled := by
    simp only [List.map_map, List.map_inj_left]
    exact fun c _ => c.bare_settled
  rw [bare, show r.settled.conditions = r.conditions.map Condition.settled from rfl, conditions]
  rfl

/-- A rule that a list of rules in a file keeps: its wire form says all of it, in
values that JSON keeps. -/
structure Lasting (r : Rule) : Prop where
  faithful : r.Faithful
  kept : ∀ w, r.toWire = .ok w → w.keeps (Json.depthLimit - 1) = true

/-- What a rule is read as when it has been written. -/
theorem Lasting.again (lasting : r.Lasting) :
    ∃ w, r.toWire = .ok w ∧ w.keeps (Json.depthLimit - 1) = true ∧
    ∀ (now : DateTime) (ids : IdSource), ofWire now w.named ids = (.ok r.settled, ids) := by
  obtain ⟨w, written, -⟩ := ofWire_toWire lasting.faithful
  obtain ⟨w', written', again⟩ := ofWire_toWire lasting.faithful.settled
  obtain rfl : w.named = w' := by
    rw [toWire_settled, written] at written'
    exact Except.ok.inj written'
  exact ⟨w, written, lasting.kept w written, fun now ids => (again now ids).trans (by rw [bare_settled])⟩

end Rule
end LeadRules
