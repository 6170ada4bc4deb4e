import LeadRules.Proofs.Chains
import LeadRules.Proofs.References
import Mathlib.Data.List.Perm.Basic

/-! Comparing a field of a numeric type with a number. The leads that have a value divide into
those below the number, those at it and those above it, each in their order; in which form the
number is given makes no difference. -/
namespace LeadRules

namespace Binary64

variable {x y : Binary64}

def side (x y : Binary64) : Ordering := if x.lt y then .lt else if x.same y then .eq else .gt

theorem exists_place (number : x.isNan = false) : ∃ n, x.place? = some n := by
  cases x with
  | nan => cases number
  | number negative rank => exact ⟨_, rfl⟩

/-- Each of the three comparisons tells one side. -/
theorem side_eq (first : x.isNan = false) (second : y.isNan = false) :
    x.lt y = decide (x.side y = .lt) ∧ x.same y = decide (x.side y = .eq) ∧
    y.lt x = decide (x.side y = .gt) := by
  obtain ⟨m, place⟩ := exists_place first
  obtain ⟨n, place'⟩ := exists_place second
  simp only [side, lt, same, compareWith, place, place']
  rcases Int.lt_trichotomy m n with below | rfl | above
  · simp [below, Int.ne_of_lt below, Int.not_lt.2 (Int.le_of_lt below)]
  · simp
  · simp [above, (Int.ne_of_lt above).symm, Int.not_lt.2 (Int.le_of_lt above)]

end Binary64

def Operator.compares? : Operator → Option (Binary64 → Binary64 → Bool)
  | less => some Binary64.lt
  | equals => some Binary64.same
  | greater => some fun x y => y.lt x
  | notEquals => some fun x y => !x.same y
  | contains | isSet | isNotSet => none

/-- What a comparison wants of the side on which a value lies, if there is a value. -/
def Operator.picks? : Operator → Option (Option Ordering → Bool)
  | less => some (· = some .lt)
  | equals => some (· = some .eq)
  | greater => some (· = some .gt)
  | notEquals => some (· ≠ some .eq)
  | contains | isSet | isNotSet => none

namespace FieldCatalog

variable {catalog : FieldCatalog} {ref : Text} {type : FieldType} {l : Lead} {leads : List Lead}
  {x y : Binary64} {c d : Condition}
  {picks : Option Ordering → Bool}

def hasValue (catalog : FieldCatalog) (ref : Text) (l : Lead) : Bool :=
  match catalog.resolve l ref with
  | .ok t => !t.isNull
  | .error _ => false

/-- Whether a reference resolves on a lead without a failure, and not to NaN. -/
def isClear (catalog : FieldCatalog) (ref : Text) (l : Lead) : Bool :=
  match catalog.resolve l ref with
  | .ok ⟨.float x, _⟩ => !x.isNan
  | .ok _ => true
  | .error _ => false

def side? (catalog : FieldCatalog) (ref : Text) (y : Binary64) (l : Lead) : Option Ordering :=
  match catalog.resolve l ref with
  | .ok ⟨.float x, _⟩ => some (x.side y)
  | _ => none

theorem isClear_double (clear : catalog.isClear ref l = true)
    (resolved : catalog.resolve l ref = .ok ⟨.float x, type⟩) :
    x.isNan = false := by
  rw [isClear, resolved] at clear
  exact Bool.not_eq_true' _ ▸ clear

/-- A reference of a numeric type comes to nothing or to a double. -/
theorem resolve_cases (clear : catalog.isClear ref l = true)
    (declared : catalog.fieldType ref = some type)
    (numeric : type.isNumeric = true) :
    catalog.resolve l ref = .ok .absent ∨ ∃ x, x.isNan = false ∧
    catalog.resolve l ref = .ok ⟨.float x, type⟩ := by
  have single : type ≠ .list := by
    rintro rfl
    cases numeric
  cases resolved : catalog.resolve l ref with
  | error fault =>
    rw [isClear, resolved] at clear
    cases clear
  | ok t =>
    cases resolve_ofType declared (.inr single) l t resolved with
    | absent => exact .inl rfl
    | held holds =>
      cases holds with
      | number x => exact .inr ⟨x, isClear_double clear resolved, rfl⟩
      | date x => exact .inr ⟨x, isClear_double clear resolved, rfl⟩
      | _ => cases numeric

theorem isSome_side? (clear : catalog.isClear ref l = true)
    (declared : catalog.fieldType ref = some type)
    (numeric : type.isNumeric = true) (y : Binary64) :
    (catalog.side? ref y l).isSome = catalog.hasValue ref l := by
  rcases resolve_cases clear declared numeric with resolved | ⟨x, -, resolved⟩ <;>
    rw [side?, hasValue, resolved] <;> rfl

/-- Numbers are compared as such. -/
theorem holdsFor_float {holds : Binary64 → Binary64 → Bool} (numeric : type.isNumeric = true)
    (operand : TypedValue.operand type d.value = .ok (some y))
    (compares : d.operator.compares? = some holds) :
    d.holdsFor ⟨.float x, type⟩ = .ok (holds x y) := by
  have number : Value.toNumber (.float x) = .ok (some x) := rfl
  unfold Condition.holdsFor
  cases operator : d.operator with
  | less =>
    rw [operator] at compares
    cases compares
    simp [TypedValue.compare, number, operand, bind, Except.bind, pure, Except.pure]
  | equals =>
    rw [operator] at compares
    cases compares
    simp [TypedValue.equals, TypedValue.isNumeric, numeric, operand, bind, Except.bind, pure, Except.pure]
  | greater =>
    rw [operator] at compares
    cases compares
    simp [TypedValue.compare, number, operand, bind, Except.bind, pure, Except.pure]
  | notEquals =>
    rw [operator] at compares
    cases compares
    simp [TypedValue.equals, TypedValue.isNumeric, numeric, operand, bind, Except.bind, pure, Except.pure]
  | _ =>
    rw [operator] at compares
    cases compares

/-- Each comparison of numbers asks for the side on which the first one lies. -/
theorem compares_side {op : Operator} (picked : op.picks? = some picks) (first : x.isNan = false)
    (second : y.isNan = false) :
    ∃ holds, op.compares? = some holds ∧ holds x y = picks (some (x.side y)) := by
  obtain ⟨below, same, above⟩ := Binary64.side_eq first second
  cases op with
  | less =>
    cases picked
    exact ⟨_, rfl, below.trans (by simp)⟩
  | equals =>
    cases picked
    exact ⟨_, rfl, same.trans (by simp)⟩
  | greater =>
    cases picked
    exact ⟨_, rfl, above.trans (by simp)⟩
  | notEquals =>
    cases picked
    exact ⟨_, rfl, by simp [same]⟩
  | _ => cases picked

/-- What is absent lies on no side, whatever it is compared with. -/
theorem holdsFor_absent (compares : d.operator.picks? = some picks) :
    d.holdsFor .absent = .ok (picks none) := by
  unfold Condition.holdsFor
  cases operator : d.operator <;> rw [operator] at compares <;> cases compares <;> rfl

/-- A comparison with a number holds by the side on which the value of a lead lies. -/
theorem holds_of_side (clear : catalog.isClear ref l = true)
    (declared : catalog.fieldType ref = some type)
    (numeric : type.isNumeric = true) (asks : d.field = .text ref)
    (operand : TypedValue.operand type d.value = .ok (some y)) (number : y.isNan = false)
    (compares : d.operator.picks? = some picks) :
    d.holds catalog l = .ok (picks (catalog.side? ref y l)) := by
  have reference : FieldCatalog.reference (.text ref) = .ok ref := rfl
  rcases resolve_cases clear declared numeric with resolved | ⟨x, some, resolved⟩
  · simp only [Condition.holds, asks, reference, bind, Except.bind, side?, resolved]
    exact holdsFor_absent compares
  · obtain ⟨holds, comparison, same⟩ := compares_side compares some number
    simp only [Condition.holds, asks, reference, bind, Except.bind, side?, resolved]
    rw [holdsFor_float numeric operand comparison, same]

theorem segment_of_side (clear : ∀ l ∈ leads, catalog.isClear ref l = true)
    (declared : catalog.fieldType ref = some type)
    (numeric : type.isNumeric = true) (asks : d.field = .text ref)
    (operand : TypedValue.operand type d.value = .ok (some y)) (number : y.isNan = false)
    (compares : d.operator.picks? = some picks) (h : Host) :
    (Segment.ofLeads catalog [d] leads h).1 = .ok
    (leads.filter fun l => picks (catalog.side? ref y l)) := by
  refine Segment.ofLeads_filter (fun l member => ?_) h
  rw [Condition.evaluate, holds_of_side (clear l member) declared numeric asks operand number compares]
  rfl

end FieldCatalog

/-- What lies on one of three sides lies in just one of three lists. -/
theorem perm_sides {α : Type} (side? : α → Option Ordering) (xs : List α) :
    (xs.filter (side? · = some .lt) ++ xs.filter (side? · = some .eq) ++
      xs.filter (side? · = some .gt)).Perm (xs.filter fun a => (side? a).isSome) := by
  induction xs with
  | nil => exact .nil
  | cons a rest ih =>
    rcases side : side? a with _ | _ | _ | _
    · simpa [side] using ih
    · simpa [side] using ih
    · simp only [List.filter_cons, side, Option.some.injEq, reduceCtorEq, decide_false, decide_true,
        if_true, if_false, Bool.false_eq_true, Option.isSome_some, List.append_assoc] at ih ⊢
      exact List.perm_middle.trans (ih.cons a)
    · simp only [List.filter_cons, side, Option.some.injEq, reduceCtorEq, decide_false, decide_true,
        if_true, if_false, Bool.false_eq_true, Option.isSome_some] at ih ⊢
      exact List.perm_middle.trans (ih.cons a)

/-- The leads of a list that are on one side of a number are on no other one. -/
theorem disjoint_sides {α : Type} {side? : α → Option Ordering} {s t : Ordering} (apart : s ≠ t)
    (xs : List α) :
    (xs.filter (side? · = some s)).Disjoint (xs.filter (side? · = some t)) := by
  intro a first second
  have first := of_decide_eq_true (List.mem_filter.1 first).2
  have second := of_decide_eq_true (List.mem_filter.1 second).2
  exact apart (Option.some.inj (first.symm.trans second))

namespace FieldCatalog

variable {catalog : FieldCatalog} {ref : Text} {type : FieldType} {leads : List Lead} {y : Binary64}
  {c : Condition}

/-- Below, at and above a number lie the leads that have a value, each in just one of the three
segments and in their order. The leads that are not equal are those that are left, with a value or
without one. And what is compared with counts as the number that it is, not as it is written. -/
theorem comparisons_part (declared : catalog.fieldType ref = some type)
    (numeric : type.isNumeric = true)
    (asks : c.field = .text ref) (operand : TypedValue.operand type c.value = .ok (some y))
    (number : y.isNan = false)
    (clear : ∀ l ∈ leads, catalog.isClear ref l = true) :
    ∃ below equal above,
      (∀ h, (Segment.ofLeads catalog [{ c with operator := .less }] leads h).1 = .ok below) ∧
      (∀ h, (Segment.ofLeads catalog [{ c with operator := .equals }] leads h).1 = .ok equal) ∧
      (∀ h, (Segment.ofLeads catalog [{ c with operator := .greater }] leads h).1 = .ok above) ∧
      (∀ h, (Segment.ofLeads catalog [{ c with operator := .notEquals }] leads h).1 =
        .ok (leads.filter (· ∉ equal))) ∧
      (below.Sublist leads ∧ equal.Sublist leads ∧ above.Sublist leads) ∧
      (below.Disjoint equal ∧ below.Disjoint above ∧ equal.Disjoint above) ∧
      (below ++ equal ++ above).Perm (leads.filter (catalog.hasValue ref)) ∧
      (∀ l ∈ leads, ∀ x, catalog.resolve l ref = .ok ⟨.float x, type⟩ →
        (l ∈ below ↔ x.lt y = true) ∧ (l ∈ equal ↔ x.same y = true) ∧ (l ∈ above ↔ y.lt x = true)) ∧
      ∀ w, TypedValue.operand type w = .ok (some y) →
        ∀ op ∈ [Operator.less, .equals, .greater, .notEquals], ∀ h,
        (Segment.ofLeads catalog [{ c with operator := op, value := w }] leads h).1 =
          (Segment.ofLeads catalog [{ c with operator := op }] leads h).1 := by
  have segment (op : Operator) (w : Value) (same : TypedValue.operand type w = .ok (some y))
    (picks : Option Ordering → Bool)
      (compares : op.picks? = some picks) (h : Host) :
      (Segment.ofLeads catalog [{ c with operator := op, value := w }] leads h).1 =
        .ok (leads.filter fun l => picks (catalog.side? ref y l)) :=
    segment_of_side (d := { c with operator := op, value := w }) clear declared numeric asks same
      number compares h
  refine ⟨leads.filter (catalog.side? ref y · = some .lt), leads.filter (catalog.side? ref y · = some .eq),
    leads.filter (catalog.side? ref y · = some .gt), segment .less _ operand _ rfl,
    segment .equals _ operand _ rfl,
    segment .greater _ operand _ rfl, fun h => ?_,
    ⟨List.filter_sublist, List.filter_sublist, List.filter_sublist⟩,
    ⟨disjoint_sides (by decide) leads, disjoint_sides (by decide) leads,
      disjoint_sides (by decide) leads⟩, ?_, ?_, ?_⟩
  · rw [segment .notEquals _ operand _ rfl h]
    refine congrArg Except.ok (List.filter_congr fun l member => ?_)
    simp [member]
  · refine (perm_sides (catalog.side? ref y) leads).trans
      (List.Perm.of_eq (List.filter_congr fun l member => ?_))
    exact isSome_side? (clear l member) declared numeric y
  · intro l member x resolved
    obtain ⟨below, same, above⟩ :=
      Binary64.side_eq (isClear_double (clear l member) resolved) number
    have side : catalog.side? ref y l = some (x.side y) := by rw [side?, resolved]
    simp [member, side, below, same, above]
  · intro w same op listed h
    obtain ⟨picks, compares⟩ : ∃ picks, op.picks? = some picks := by
      simp only [List.mem_cons, List.not_mem_nil, or_false] at listed
      rcases listed with rfl | rfl | rfl | rfl <;> exact ⟨_, rfl⟩
    rw [segment op w same picks compares h, segment op c.value operand picks compares h]

def deals : List Lead := [dealing 1000, dealing 1500, dealing 2000, { id := "L2" }]

def dealOf (amount : Value) (operator : Operator) : Condition :=
  ⟨"deal", .text "dealValue", operator, amount, .and⟩

theorem comparisons_part_deals :
    (Segment.ofLeads .empty [dealOf (.text "1.5e3") .greater] deals .still).1 = .ok [dealing 2000] ∧
    (Segment.ofLeads .empty [dealOf (.int 1500) .notEquals] deals .still).1 =
      .ok [dealing 1000, dealing 2000, { id := "L2" }] := by
  have declared : fieldType .empty "dealValue" = some .number := by decide +kernel
  have operand : TypedValue.operand .number (.int 1500) = .ok (some (.ofNat 1500)) :=
    StateFile.of_toOption (by decide +kernel)
  have clear : ∀ l ∈ deals, isClear .empty "dealValue" l = true := by decide +kernel
  obtain ⟨below, equal, above, -, same, -, other, -, -, -, -, alike⟩ :=
    comparisons_part (c := dealOf (.int 1500) .less) declared rfl rfl operand
      (by decide +kernel) clear
  have equals :
      (Segment.ofLeads .empty [dealOf (.int 1500) .equals] deals .still).1 = .ok [dealing 1500] :=
    StateFile.of_toOption (by decide +kernel)
  have plain :
      (Segment.ofLeads .empty [dealOf (.int 1500) .greater] deals .still).1 = .ok [dealing 2000] :=
    StateFile.of_toOption (by decide +kernel)
  constructor
  · rw [← plain]
    exact alike (.text "1.5e3") (StateFile.of_toOption (by decide +kernel)) .greater
      (by decide) .still
  · obtain rfl := Except.ok.inj (equals.symm.trans (same .still))
    have left :
        deals.filter (· ∉ [dealing 1500]) = [dealing 1000, dealing 2000, { id := "L2" }] := by
        decide +kernel
    exact (other .still).trans (congrArg Except.ok left)

end FieldCatalog
end LeadRules
