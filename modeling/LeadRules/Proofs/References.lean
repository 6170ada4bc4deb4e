import LeadRules.Proofs.Calls
import LeadRules.Proofs.Fields

/-! References to fields and their types. A field of an organisation's own may be referred to by
its identifier alone or with either mark before it. Whatever a reference resolves to is a value of
the type that it is declared with, and nothing if it has none. -/
namespace LeadRules

inductive FieldType.Holds : FieldType → Value → Prop
  | number (x : Binary64) : Holds .number (.float x)
  | date (x : Binary64) : Holds .date (.float x)
  | list (items : List Value) : Holds .list (.list items)
  | text (t : Text) : Holds .text (.text t)
  | dropdown (t : Text) : Holds .dropdown (.text t)

inductive TypedValue.OfType (type : FieldType) : TypedValue → Prop
  | absent : OfType type .absent
  | held {v : Value} (holds : type.Holds v) : OfType type ⟨v, type⟩

theorem TypedValue.ofDouble?_ofType {type : FieldType} (numeric : type.isNumeric = true)
    (x? : Option Binary64) :
    (ofDouble? type x?).OfType type := by
  cases x? with
  | none => exact .absent
  | some x =>
    cases type with
    | number => exact .held (.number x)
    | date => exact .held (.date x)
    | _ => cases numeric

/-- Only tags are a list, and they are not brought to a type. -/
theorem FieldType.coerce_ofType {type : FieldType} (single : type ≠ .list) (raw : Value) :
    Admits (TypedValue.OfType type) (type.coerce raw) := by
  cases type with
  | number => exact .bind fun x _ => .ok (TypedValue.ofDouble?_ofType rfl x)
  | date => exact .bind fun x _ => .ok (TypedValue.ofDouble?_ofType rfl x)
  | text => exact .ok (.held (.text raw.toText))
  | dropdown => exact .ok (.held (.dropdown raw.toText))
  | list => exact absurd rfl single

theorem StandardField.resolve_ofType (f : StandardField) (l : Lead) :
    Admits (TypedValue.OfType f.type) (f.resolve l) := by
  by_cases tagged : f = tags
  · subst tagged
    exact .ok (.held (.list l.tags))
  · have single : f.type ≠ .list := by
      cases f with
      | tags => exact absurd rfl tagged
      | _ => nofun
    unfold resolve
    split
    · exact .ok .absent
    · rw [if_neg tagged]
      exact FieldType.coerce_ofType single _

namespace FieldCatalog

variable {catalog : FieldCatalog} {id ref : Text} {type : FieldType}

/-- A catalog in which no field is declared as a list. -/
def Listless (catalog : FieldCatalog) : Prop := ∀ d ∈ catalog.values, d.type ≠ .list

theorem Listless.single {d : FieldDefinition} (listless : catalog.Listless)
    (defined : catalog.get? id = some d) : d.type ≠ .list :=
  listless d (List.mem_map.2 ⟨(id, d), Entries.mem_of_get? defined, rfl⟩)

theorem resolve_ofType (declared : catalog.fieldType ref = some type)
    (single : catalog.Listless ∨ type ≠ .list) (l : Lead) :
    Admits (TypedValue.OfType type) (catalog.resolve l ref) := by
  unfold fieldType at declared
  unfold resolve
  split at declared
  next f _ =>
    cases declared
    exact f.resolve_ofType l
  next =>
    obtain ⟨d, defined, rfl⟩ := Option.map_eq_some_iff.1 declared
    have single : d.type ≠ .list := single.elim (fun listless => listless.single defined) id
    simp only [resolveCustom, defined]
    split
    · exact .ok .absent
    · exact .ite (fun _ => .ok .absent) fun _ => FieldType.coerce_ofType single _

theorem resolve_undeclared (undeclared : catalog.fieldType ref = none) (l : Lead) :
    catalog.resolve l ref = .ok .absent := by
  unfold fieldType at undeclared
  unfold resolve
  split at undeclared
  · cases undeclared
  next =>
    have undefined := Option.map_eq_none_iff.1 undeclared
    simp only [resolveCustom, undefined]

def marks : List Text := ["custom:", "customFields."]

/-- The ways to refer to an identifier: as it is, or behind a mark. -/
inductive RefersTo (id : Text) : Text → Prop
  | bare : RefersTo id id
  | marked {mark : Text} (known : mark ∈ marks) : RefersTo id (mark ++ id)

theorem startsWith_append (beginning t : Text) : (beginning ++ t).startsWith beginning = true := by
  simp [Text.startsWith, Text.points_append]

theorem dropBeginning?_append (beginning t : Text) :
    dropBeginning? beginning (beginning ++ t) = some t := by
  rw [dropBeginning?, if_pos (startsWith_append beginning t)]
  simp [Text.drop, Text.length, Text.points_append]

theorem dropBeginning?_eq_none {beginning t : Text} (other : t.startsWith beginning = false) :
    dropBeginning? beginning t = none :=
  if_neg (Bool.eq_false_iff.1 other)

theorem customId_bare (unmarked : ∀ mark ∈ marks, id.startsWith mark = false) :
    customId id = id := by
  have first := dropBeginning?_eq_none (unmarked "custom:" (by simp [marks]))
  have second := dropBeginning?_eq_none (unmarked "customFields." (by simp [marks]))
  simp only [customId, first, second]
  rfl

/-- One mark is dropped, and only one. -/
theorem customId_marked {mark : Text} (known : mark ∈ marks) (id : Text) :
    customId (mark ++ id) = id := by
  simp only [marks, List.mem_cons, List.not_mem_nil, or_false] at known
  rcases known with rfl | rfl
  · simp only [customId, dropBeginning?_append]
    rfl
  · have other : ("customFields." ++ id : Text).startsWith "custom:" = false := rfl
    simp only [customId, dropBeginning?_append, dropBeginning?_eq_none other]
    rfl

/-- No field that every lead has is named with a mark. -/
theorem ofReference?_marked {mark : Text} (known : mark ∈ marks) (id : Text) :
    StandardField.ofReference? (mark ++ id) = none := by
  rw [ofReference?_eq_none]
  intro f same
  have begins := startsWith_append mark id
  rw [← same] at begins
  have plain : ∀ mark ∈ marks, (f.reference : Text).startsWith mark = false := by
    cases f <;> decide +kernel
  rw [plain mark known] at begins
  cases begins

/-- An identifier, if it is no name that every lead has, is referred to alike with a
mark and without one. -/
theorem alike_of_refersTo (catalog : FieldCatalog) (refers : RefersTo id ref)
    (other : ∀ f : StandardField, (f.reference : Text) ≠ id)
    (unmarked : ∀ mark ∈ marks, id.startsWith mark = false) :
    catalog.fieldType ref = catalog.fieldType id ∧
    ∀ l, catalog.resolve l ref = catalog.resolve l id := by
  cases refers with
  | bare => exact ⟨rfl, fun l => rfl⟩
  | marked known =>
    have named := customId_marked known id
    have standard := ofReference?_marked known id
    constructor
    · rw [fieldType, fieldType, standard, ofReference?_eq_none.2 other, named, customId_bare unmarked]
    · intro l
      rw [resolve, resolve, standard, ofReference?_eq_none.2 other]
      simp only [resolveCustom, named, customId_bare unmarked]

theorem resolve_answer (catalog : FieldCatalog) (l : Lead) (ref : Text) (h : Host) :
    (Segment.resolve catalog l (.text ref) h).1 = catalog.resolve l ref := by
  obtain ⟨k, -, run⟩ := Segment.resolve_run catalog l ref h
  rw [run]

/-- The marks make no difference to a reference, neither to its type nor to what it
resolves to, failures included. What it resolves to is a value of its type or absent, and
absent if it has no type. -/
theorem references_agree (listless : catalog.Listless) :
    (∀ id ref, RefersTo id ref → (∀ f : StandardField, (f.reference : Text) ≠ id) →
      (∀ mark ∈ marks, id.startsWith mark = false) →
      catalog.fieldType ref = catalog.fieldType id ∧
      ∀ l h, (Segment.resolve catalog l (.text ref) h).1 =
        (Segment.resolve catalog l (.text id) h).1) ∧
    (∀ l ref h t, (Segment.resolve catalog l (.text ref) h).1 = .ok t → t.isNull = false →
      catalog.fieldType ref = some t.type ∧ t.type.Holds t.value) ∧
    ∀ l ref h, catalog.fieldType ref = none →
      (Segment.resolve catalog l (.text ref) h).1 = .ok .absent := by
  simp only [resolve_answer]
  refine ⟨fun id ref refers other unmarked => ?_, fun l ref h t resolved some => ?_,
    fun l ref h undeclared => ?_⟩
  · obtain ⟨declared, resolved⟩ := alike_of_refersTo catalog refers other unmarked
    exact ⟨declared, fun l h => resolved l⟩
  · cases declared : catalog.fieldType ref with
    | none =>
      rw [resolve_undeclared declared] at resolved
      cases resolved
      cases some
    | some type =>
      cases resolve_ofType declared (.inl listless) l t resolved with
      | absent => cases some
      | held holds => exact ⟨rfl, holds⟩
  · exact resolve_undeclared undeclared l

/-- A catalog with a budget, the day of moving in and a tier; the last is named as if it were
marked. -/
def household : FieldCatalog := .ofDefinitions [
  { id := "budget", name := .text "Budget", type := .number, options := [] },
  { id := "moveIn", name := .text "Move-in", type := .date, options := [] },
  { id := "custom:tier", name := .text "Tier", type := .dropdown, options := [.text "Gold"] }]

def tenant : Lead := { id := "L1", customFields := .ofList [
  (.ofText "budget", .text "25000"), (.ofText "moveIn", .text "soon"),
  (.ofText "custom:tier", .text "Gold")] }

/-- The mark before the budget is dropped. There is no tier, as the one that is defined has a
mark in its identifier. -/
theorem references_agree_household :
    (Segment.resolve household tenant (.text "customFields.budget") .still).1 =
      .ok ⟨.float (.ofNat 25000), .number⟩ ∧
    household.fieldType "customFields.budget" = some .number ∧
    (Segment.resolve household tenant (.text "tier") .still).1 = .ok .absent := by
  have listless : household.Listless := by
    unfold Listless
    decide +kernel
  obtain ⟨agree, typed, undeclared⟩ := references_agree listless
  have other : ∀ f : StandardField, (f.reference : Text) ≠ "budget" := by
    intro f
    cases f <;> decide +kernel
  have refers : RefersTo "budget" "customFields.budget" :=
    .marked (by simp [marks] : ("customFields." : Text) ∈ marks)
  obtain ⟨-, resolved⟩ := agree "budget" "customFields.budget" refers other (by decide +kernel)
  have bare : (Segment.resolve household tenant (.text "budget") .still).1 =
      .ok ⟨.float (.ofNat 25000), .number⟩ :=
    StateFile.of_toOption (by decide +kernel)
  have marked : (Segment.resolve household tenant (.text "customFields.budget") .still).1 =
      .ok ⟨.float (.ofNat 25000), .number⟩ := (resolved tenant .still).trans bare
  exact ⟨marked, (typed _ _ _ _ marked rfl).1, undeclared tenant "tier" .still (by decide +kernel)⟩

end FieldCatalog
end LeadRules
