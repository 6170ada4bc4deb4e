import LeadRules.Proofs.Fields

/-! What the wire lets through: triggers, actions and conditions that are well-formed, but for two
slips. Idle hours may be no number at all; and the days of a task are cut to whole ones before
they are checked, so that a negative fraction of a day passes as none. -/
namespace LeadRules

namespace Binary64

variable {x : Binary64} {n : Int}

def minusOne : Binary64 :=
  .number true (1023 * blockSize) (Nat.mul_le_mul_right blockSize (by decide))

theorem units_minusOne : units (1023 * blockSize) = unitsPerOne := by
  obtain ⟨k, power, size⟩ := unitsPerOne_eq
  obtain ⟨j, exponent⟩ : ∃ j, j = 1022 := ⟨1022, rfl⟩
  have place : 1023 * blockSize = (j + 1) * blockSize + 0 := by rw [exponent, Nat.add_zero]
  have sum : k = 52 + j := by omega
  rw [place, units_block blockSize_pos, power, sum, Nat.pow_add]
  rfl

/-- What is not below zero is above it, or no number. -/
theorem le_or_isNan (notBelow : x.lt .zero = false) : zero.le x = true ∨ x.isNan = true := by
  cases x with
  | nan origin => exact .inr rfl
  | number negative rank bounded =>
    refine .inl ?_
    simp only [lt, le, zero, compareWith, place?, decide_eq_false_iff_not, decide_eq_true_eq] at *
    simpa using notBelow

section Truncate

variable {negative : Bool} {rank : Nat} {bounded : rank ≤ infinityRank}

theorem truncate?_number (finite : rank < infinityRank) : (number negative rank bounded).truncate? =
    some (if negative then -((units rank / unitsPerOne : Nat) : Int)
      else (units rank / unitsPerOne : Nat)) := by
  rw [truncate?, signedUnits?, if_pos finite, Option.map_some]
  cases negative with
  | true => rw [if_pos rfl, if_pos rfl, Int.neg_tdiv, ← Int.ofNat_tdiv]
  | false => rw [if_neg Bool.false_ne_true, if_neg Bool.false_ne_true, ← Int.ofNat_tdiv]

theorem truncate?_infinite (infinite : ¬rank < infinityRank) :
    (number negative rank bounded).truncate? = none := by
  rw [truncate?, signedUnits?, if_neg infinite, Option.map_none]

theorem finite_of_truncate? (cut : (number negative rank bounded).truncate? = some n) :
    rank < infinityRank := by
  by_contra infinite
  rw [truncate?_infinite infinite] at cut
  cases cut

end Truncate

/-- What is above minus one is cut to a number that is not below zero, and nothing else is. -/
theorem truncate?_nonneg_iff (cut : x.truncate? = some n) : 0 ≤ n ↔ minusOne.lt x = true := by
  cases x with
  | nan origin => cases cut
  | number negative rank bounded =>
    rw [truncate?_number (finite_of_truncate? cut), Option.some.injEq] at cut
    subst cut
    simp only [lt, minusOne, compareWith, place?, decide_eq_true_eq]
    have positive := blockSize_pos
    have small : units rank / unitsPerOne = 0 ↔ rank < 1023 * blockSize := by
      rw [Nat.div_eq_zero_iff_lt unitsPerOne_pos, ← units_minusOne, units_strictMono.lt_iff_lt]
    generalize units rank / unitsPerOne = whole at small
    cases negative <;> simp only [if_true, Bool.false_eq_true, if_false] <;> omega

/-- A negative number is cut to a whole one that is not above zero, unless it is infinite. -/
theorem toWhole_of_negative (below : x.lt .zero = true) :
    (x.isFinite = true ∧ ∃ n ≤ 0, x.truncate? = some n) ∨
      (x.isFinite = false ∧ x.toWhole = .error (.overflow .infinityToWhole)) := by
  cases x with
  | nan origin => cases below
  | number negative rank bounded =>
    by_cases finite : rank < infinityRank
    · refine .inl ⟨decide_eq_true finite, _, ?_, truncate?_number finite⟩
      cases negative with
      | true => exact Int.neg_nonpos_of_nonneg (Int.natCast_nonneg _)
      | false =>
        simp only [lt, zero, compareWith, place?, decide_eq_true_eq, Bool.false_eq_true, if_false] at below
        omega
    · exact .inr ⟨decide_eq_false finite, by rw [toWhole, truncate?_infinite finite]; rfl⟩

end Binary64

theorem Value.toDouble_of_huge {v : Value} (huge : v.IsHuge) :
    v.toDouble = .error (.overflow .wholeToDouble) := by
  fun_cases toDouble v with
  | case1 b =>
    obtain ⟨n, same, -⟩ := huge
    cases same
  | case2 v _ => exact ((toNumber_ending v).error_iff _).2 ⟨rfl, huge⟩

namespace Trigger

structure WellFormed (t : Trigger) : Prop where
  hours : ∀ hours, t = .leadUntouched hours → Binary64.zero.le hours = true ∨ hours.isNan = true
  stage : ∀ stage, t = .stageChanged stage → stage ≠ ""

theorem ofWire_wellFormed (v : Value) : Admits WellFormed (ofWire v) := by
  intro t read
  have checked := ofWire_checked v t read
  constructor
  · rintro hours rfl
    refine Binary64.le_or_isNan (Bool.eq_false_iff.2 fun below => ?_)
    rw [check, if_pos below] at checked
    cases checked
  · rintro stage rfl empty
    rw [check, if_pos empty] at checked
    cases checked

structure Idles (data : List (Value × Value)) (hours : Binary64) : Prop where
  type : Value.member "type" data = .text TriggerKind.leadUntouched.name
  filled : (Value.member "hours" data).isBlank = false
  number : (Value.member "hours" data).toDouble = .ok (some hours)

theorem ofWire_idles {data : List (Value × Value)} {hours : Binary64} (idles : Idles data hours) :
    ofWire (.map data) =
      if hours.lt .zero then .error (.malformed .negativeHours) else .ok (leadUntouched hours) := by
  have filled (type : String) :
      Value.filled type "hours" data = .ok (Value.member "hours" data) := by
    simp [Value.filled, idles.filled]
  have number : (Value.member "hours" data).numeric "hours" = .ok hours := by
    rw [Value.numeric, idles.number]
    rfl
  simp only [ofWire, idles.type, TriggerKind.ofName?_name, filled, number, bind, Except.bind]
  rfl

end Trigger

namespace Action

/-- An action that names something, with an address of the web, and with days above minus one that
were cut to whole ones. -/
structure WellFormed (v : Value) (a : Action) : Prop where
  named : a.target ≠ ""
  address : ∀ url, a = .sendWebhook url → url.startsWith "http://" = true ∨
    url.startsWith "https://" = true
  days : ∀ title days, a = .createTask title days → 0 ≤ days ∧ ∃ data x, v = .map data ∧
    (daysGiven data).toDouble = .ok
    (some x) ∧ Binary64.minusOne.lt x = true ∧ x.truncate? = some days

theorem check_task {title : Text} {days : Int} (named : title ≠ "") :
    check (createTask title days) =
    if days < 0 then .error (.malformed .negativeDueDays) else .ok (createTask title days) :=
      if_neg named

theorem ofWire_wellFormed (v : Value) : Admits (WellFormed v) (ofWire v) := by
  intro a read
  obtain ⟨checked, named, task⟩ := ofWire_read v a read
  refine ⟨named, ?_, ?_⟩
  · rintro url rfl
    by_cases http : isHttp url = true
    · exact Bool.or_eq_true_iff.1 http
    · rw [check, if_neg http] at checked
      cases checked
  · rintro title days rfl
    obtain ⟨data, x, rfl, given, cut⟩ := task title days rfl
    have notBelow : 0 ≤ days := by
      by_contra below
      rw [check_task (show title ≠ "" from named), if_pos (Int.not_le.1 below)] at checked
      cases checked
    exact ⟨notBelow, data, x, rfl, given, (Binary64.truncate?_nonneg_iff cut).1 notBelow, cut⟩

structure Titled (data : List (Value × Value)) (title : Text) : Prop where
  type : Value.member "type" data = .text ActionKind.createTask.name
  filled : (Value.member "title" data).isBlank = false
  title : (Value.member "title" data).toText = title

theorem ofWire_titled {data : List (Value × Value)} {title : Text} (titled : Titled data title) :
    ofWire (.map data) = (do
      let days ← (daysGiven data).numeric "dueDays"
      check (createTask title (← days.toWhole))) := by
  have filled (type : String) :
      Value.filled type "title" data = .ok (Value.member "title" data) := by
    simp [Value.filled, titled.filled]
  simp only [ofWire, titled.type, ActionKind.ofName?_name, filled, bind, Except.bind, pure,
    Except.pure, titled.title]
  rfl

variable {data : List (Value × Value)} {title : Text} {x : Binary64}

/-- Days below zero are cut first, so that only those from minus one on are refused, and
infinitely many overflow. -/
theorem ofWire_negative (titled : Titled data title)
    (given : (daysGiven data).toDouble = .ok (some x))
    (below : x.lt .zero = true) : ofWire (.map data) =
      if x.isFinite then if Binary64.minusOne.lt x then .ok (createTask title 0) else .error
        (.malformed .negativeDueDays)
      else .error (.overflow .infinityToWhole) := by
  have named : title ≠ "" := titled.title ▸ Value.toText_ne_empty titled.filled
  have number : (daysGiven data).numeric "dueDays" = .ok x := by
    rw [Value.numeric, given]
    rfl
  rw [ofWire_titled titled, number]
  rcases Binary64.toWhole_of_negative below with ⟨finite, n, nonpos, cut⟩ | ⟨infinite, uncut⟩
  · have whole : x.toWhole = .ok n := by rw [Binary64.toWhole, cut]
    have sign := Binary64.truncate?_nonneg_iff cut
    show (x.toWhole >>= fun days => check (createTask title days)) = _
    rw [whole, if_pos finite]
    show check (createTask title n) = _
    rw [check_task named]
    by_cases above : Binary64.minusOne.lt x = true
    · obtain rfl : n = 0 := Int.le_antisymm nonpos (sign.2 above)
      rw [if_pos above]
      rfl
    · rw [if_neg above, if_pos (Int.not_le.1 (mt sign.1 above))]
  · show (x.toWhole >>= fun days => check (createTask title days)) = _
    rw [uncut, if_neg (Bool.eq_false_iff.1 infinite)]
    rfl

/-- Days that no double stands for overflow, below zero as above. -/
theorem ofWire_huge (titled : Titled data title) (huge : (daysGiven data).IsHuge) :
    ofWire (.map data) = .error (.overflow .wholeToDouble) := by
  have number : (daysGiven data).numeric "dueDays" = .error (.overflow .wholeToDouble) := by
    rw [Value.numeric, Value.toDouble_of_huge huge]
    rfl
  rw [ofWire_titled titled, number]
  rfl

end Action

namespace Condition

structure WellFormed (c : Condition) : Prop where
  field : c.field.truthy = true
  value : c.operator.takesValue = false → c.value = .null

theorem ofWire_wellFormed (v : Value) : Op.Yields WellFormed (ofWire v) := by
  intro s c read
  obtain ⟨checked, bare⟩ := ofWire_bare v s c read
  refine ⟨((check_iff c).1 checked).1, fun untaken => ?_⟩
  rw [← bare]
  simp [Condition.bare, untaken]

end Condition

/-- What is read is well-formed; idle hours below zero are refused, and so are the days of a task
from minus one down. But hours may be no number, days between minus one and zero make a task for
today, and days beyond all bounds overflow instead of being refused. -/
theorem read_well_formed (v : Value) :
    (∀ t, Trigger.ofWire v = .ok t → t.WellFormed) ∧
    (∀ a, Action.ofWire v = .ok a → a.WellFormed v) ∧
    (∀ ids c later, Condition.ofWire v ids = (.ok c, later) → c.WellFormed) ∧
    (∀ data hours, v = .map data → Trigger.Idles data hours → Trigger.ofWire v =
      if hours.lt .zero then .error (.malformed .negativeHours) else .ok (.leadUntouched hours)) ∧
    (∀ data title x, v = .map data → Action.Titled data title →
      (Action.daysGiven data).toDouble = .ok (some x) →
      x.lt .zero = true → Action.ofWire v =
        if x.isFinite then if Binary64.minusOne.lt x then .ok (.createTask title 0) else .error
          (.malformed .negativeDueDays)
        else .error (.overflow .infinityToWhole)) ∧
    ∀ data title, v = .map data → Action.Titled data title → (Action.daysGiven data).IsHuge →
      Action.ofWire v = .error (.overflow .wholeToDouble) := by
  refine ⟨Trigger.ofWire_wellFormed v, Action.ofWire_wellFormed v, fun ids c later read => ?_, ?_, ?_, ?_⟩
  · exact Condition.ofWire_wellFormed v ids c (by rw [read])
  · rintro data hours rfl idles
    exact Trigger.ofWire_idles idles
  · rintro data title x rfl titled given below
    exact Action.ofWire_negative titled given below
  · rintro data title rfl titled huge
    exact Action.ofWire_huge titled huge

def Binary64.minusHalf : Binary64 :=
  .number true (1022 * blockSize) (Nat.mul_le_mul_right blockSize (by decide))

def halfLate : List (Value × Value) :=
  [(.text "type", .text "CREATE_TASK"), (.text "title", .text "Call"),
    (.text "dueDays", .float .minusHalf)]

def unclear : List (Value × Value) :=
  [(.text "type", .text "LEAD_UNTOUCHED"), (.text "hours", .text "nan")]

theorem read_well_formed_halfLate : Action.ofWire (.map halfLate) = .ok (.createTask "Call" 0) ∧
    Trigger.ofWire (.map unclear) = .ok (.leadUntouched (.nan .computed)) := by
  obtain ⟨-, -, -, -, negative, -⟩ := read_well_formed (.map halfLate)
  obtain ⟨-, -, -, idles, -⟩ := read_well_formed (.map unclear)
  have nan : Numeral.readDouble? "nan" = some (.nan .computed) := by decide +kernel
  constructor
  · rw [negative halfLate "Call" .minusHalf rfl ⟨rfl, rfl, rfl⟩ rfl (by decide +kernel)]
    rfl
  · rw [idles unclear (.nan .computed) rfl ⟨rfl, rfl, congrArg Except.ok nan⟩]
    rfl

end LeadRules
