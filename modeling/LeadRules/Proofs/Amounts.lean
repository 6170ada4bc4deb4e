import LeadRules.EdgeState
import LeadRules.Proofs.Rounding

/-! Equality of values as containers compare them. Numbers of any form are equal when
they have one amount, and from there on equality is transitive. It is not reflexive: a
computed NaN has no amount. -/
namespace LeadRules

/-- What a number comes to: a whole number of units, an infinity, or the named NaN. -/
inductive Amount where
  | units (n : Int)
  | infinite (negative : Bool)
  | nan

def Amount.whole (n : Int) : Amount := .units (n * Binary64.unitsPerOne)

@[simp] theorem Amount.whole_inj {m n : Int} : whole m = whole n ↔ m = n := by
  have positive : (Binary64.unitsPerOne : Int) ≠ 0 :=
    Int.natCast_ne_zero.2 (Nat.ne_of_gt Binary64.unitsPerOne_pos)
  rw [whole, whole, Amount.units.injEq, Int.mul_eq_mul_right_iff positive]

/-- The amount of a double; a computed NaN has none. -/
def Binary64.amount? : Binary64 → Option Amount
  | .nan .named => some .nan
  | .nan .computed => none
  | .number negative rank _ =>
    if rank < infinityRank then some (.units (if negative then -(units rank : Int) else units rank))
    else some (.infinite negative)

namespace Binary64

theorem units_zero : units 0 = 0 := units_of_lt blockSize_pos

theorem amount?_eq_units {x : Binary64} {n : Int} : x.amount? = some (.units n) ↔
    x.signedUnits? = some n := by
  rcases x with (_ | _) | ⟨negative, rank, bounded⟩
  · simp [amount?, signedUnits?]
  · simp [amount?, signedUnits?]
  · by_cases finite : rank < infinityRank <;> simp [amount?, signedUnits?, finite]

theorem sameInt_iff {x : Binary64} {n : Int} : x.sameInt n = true ↔
    x.amount? = some (.whole n) := by
  rw [Amount.whole, amount?_eq_units, sameInt, decide_eq_true_eq]

theorem alike_number {s t : Bool} {r q : Nat} {r_bound : r ≤ infinityRank}
    {q_bound : q ≤ infinityRank} :
    (number s r r_bound).alike (number t q q_bound) = true ↔
      (number s r r_bound).amount? = (number t q q_bound).amount? := by
  have size : 0 < infinityRank := by decide
  have same := units_strictMono.injective.eq_iff (a := r) (b := q)
  have first := units_strictMono.injective.eq_iff (a := r) (b := 0)
  have second := units_strictMono.injective.eq_iff (a := q) (b := 0)
  rw [units_zero] at first second
  simp only [alike, Binary64.same, compareWith, place?, amount?, reduceCtorEq, decide_false,
    Bool.and_false, Bool.or_false, decide_eq_true_eq]
  by_cases finite : r < infinityRank <;> by_cases finite' : q < infinityRank <;>
    cases s <;> cases t <;>
    simp only [finite, finite', if_true, if_false, Bool.false_eq_true, Option.some.injEq,
      Amount.units.injEq, Amount.infinite.injEq, reduceCtorEq, iff_true, iff_false] <;> omega

/-- Doubles are equal when they have one amount. -/
theorem alike_iff_amount {x y : Binary64} : x.alike y = true ↔ ∃ a, x.amount? = some a ∧
    y.amount? = some a := by
  rcases x with (_ | _) | ⟨s, r, r_bound⟩ <;> rcases y with (_ | _) | ⟨t, q, q_bound⟩
  case number.number =>
    obtain ⟨a, amount⟩ : ∃ a, (number s r r_bound).amount? = some a := by
      by_cases finite : r < infinityRank <;> simp [amount?, finite]
    rw [alike_number, amount]
    simp [eq_comm]
  all_goals simp [alike, same, compareWith, place?, amount?]
  all_goals split <;> simp

end Binary64

namespace Value

variable {a b c : Value}

def amount? : Value → Option Amount
  | bool b => some (.whole b.toNat)
  | int n => some (.whole n)
  | float x => x.amount?
  | _ => none

theorem alikeNumber_whole {m : Int} (whole : a.asInt? = some m) :
    alikeNumber a b = true ↔ b.amount? = some (.whole m) := by
  unfold alikeNumber
  rw [whole]
  cases b with
  | bool b =>
    simp only [asInt?, amount?, decide_eq_true_eq, Option.some.injEq, Amount.whole_inj,
      eq_comm (a := m)]
  | int n =>
    simp only [asInt?, amount?, decide_eq_true_eq, Option.some.injEq, Amount.whole_inj,
      eq_comm (a := m)]
  | float y => exact Binary64.sameInt_iff
  | _ => simp [asInt?, amount?]

theorem amount?_of_asInt {n : Int} (whole : a.asInt? = some n) : a.amount? = some (.whole n) := by
  cases a with
  | bool b =>
    cases whole
    rfl
  | int m =>
    cases whole
    rfl
  | _ => cases whole

/-- Scalars are equal as numbers when they have one amount. -/
theorem alikeNumber_iff : alikeNumber a b = true ↔ ∃ n, a.amount? = some n ∧
    b.amount? = some n := by
  cases whole : a.asInt? with
  | some m =>
    rw [alikeNumber_whole whole, amount?_of_asInt whole]
    simp
  | none =>
    unfold alikeNumber
    rw [whole]
    cases a with
    | bool _ => cases whole
    | int _ => cases whole
    | float x =>
      cases b with
      | bool b => simp [asInt?, amount?, Binary64.sameInt_iff]
      | int n => simp [asInt?, amount?, Binary64.sameInt_iff]
      | float y => exact Binary64.alike_iff_amount
      | _ => simp [asInt?, amount?]
    | _ => cases b <;> simp [asInt?, amount?]

/-- What equals a number is one. -/
theorem alike_of_amount {n : Amount} (number : a.amount? = some n) :
    alike a b = alikeNumber a b := by
  cases a with
  | bool _ | int _ | float _ => rw [alike]
  | _ => cases number

theorem alikeNumber_trans (first : alikeNumber a b = true) (second : alike b c = true) :
    alikeNumber a c = true := by
  obtain ⟨n, left, right⟩ := alikeNumber_iff.1 first
  rw [alike_of_amount right] at second
  obtain ⟨m, middle, last⟩ := alikeNumber_iff.1 second
  rw [right] at middle
  obtain rfl := Option.some.inj middle
  exact alikeNumber_iff.2 ⟨n, left, last⟩

theorem alikeEntries_iff {as bs : List (Value × Value)} : alikeEntries as bs = true ↔
    ∀ e ∈ as, ∃ e' ∈ bs, alike e.1 e'.1 = true ∧ alike e.2 e'.2 = true := by
  induction as with
  | nil => simp [alikeEntries]
  | cons e rest ih => simp [alikeEntries, ih]

mutual
/-- Equality is transitive. -/
theorem alike_trans : ∀ {a b c : Value}, alike a b = true → alike b c = true → alike a c = true
  | null, b, c, first, second => by
    obtain rfl : b = .null := by simpa [alike] using first
    exact second
  | text t, b, c, first, second => by
    obtain rfl : b = .text t := by simpa [alike] using first
    exact second
  | bool _, b, c, first, second => alikeNumber_trans first second
  | int _, b, c, first, second => alikeNumber_trans first second
  | float _, b, c, first, second => alikeNumber_trans first second
  | list as, list bs, list cs, first, second => by
    rw [alike] at *
    exact alikeItems_trans first second
  | map as, map bs, map cs, first, second => by
    rw [alike, Bool.and_eq_true, decide_eq_true_eq] at *
    exact ⟨first.1.trans second.1, alikeEntries_trans first.2 second.2⟩
theorem alikeItems_trans : ∀ {as bs cs : List Value}, alikeItems as bs = true →
    alikeItems bs cs = true →
    alikeItems as cs = true
  | [], [], [], _, _ => rfl
  | a :: as, b :: bs, c :: cs, first, second => by
    rw [alikeItems, Bool.and_eq_true] at *
    exact ⟨alike_trans first.1 second.1, alikeItems_trans first.2 second.2⟩
theorem alikeEntries_trans : ∀ {as bs cs : List (Value × Value)}, alikeEntries as bs = true →
    alikeEntries bs cs = true →
    alikeEntries as cs = true
  | [], _, _, _, _ => rfl
  | (k, v) :: as, bs, cs, first, second => by
    rw [alikeEntries, Bool.and_eq_true, List.any_eq_true] at *
    obtain ⟨⟨e, there, like⟩, rest⟩ := first
    obtain ⟨e', there', keys, values⟩ := alikeEntries_iff.1 second e there
    rw [Bool.and_eq_true] at like
    have far : (alike k e'.1 && alike v e'.2) = true :=
      Bool.and_eq_true_iff.2 ⟨alike_trans like.1 keys, alike_trans like.2 values⟩
    exact ⟨⟨e', there', far⟩, alikeEntries_trans rest second⟩
end

end Value
end LeadRules
