import LeadRules.Proofs.Amounts
import LeadRules.Proofs.Digits
import LeadRules.Proofs.ZonedText

/-! Instants as doubles. The seconds of a time without a fraction are a whole number of few bits,
which a double is exactly, so that such timestamps are ordered as the instants are. -/
namespace LeadRules

namespace Binary64

variable {x y : Binary64} {a b m n : Int}

/-- Doubles are ordered as the numbers of units that they are. -/
theorem order_of_units (first : x.signedUnits? = some a) (second : y.signedUnits? = some b) :
    x.lt y = decide (a < b) ∧ x.same y = decide (a = b) := by
  cases x with
  | nan origin => cases first
  | number s r r_bound =>
    cases y with
    | nan origin => cases second
    | number t q q_bound =>
      obtain ⟨-, rfl⟩ := Option.ite_some_none_eq_some.1 first
      obtain ⟨-, rfl⟩ := Option.ite_some_none_eq_some.1 second
      have zero (rank : Nat) : units rank = 0 ↔ rank = 0 := by
        have same := units_strictMono.injective.eq_iff (a := rank) (b := 0)
        rwa [units_zero] at same
      have first := zero r
      have second := zero q
      have below := units_strictMono.lt_iff_lt (a := r) (b := q)
      have above := units_strictMono.lt_iff_lt (a := q) (b := r)
      simp only [lt, same, compareWith, place?, decide_eq_decide]
      cases s <;> cases t <;> simp only [Bool.false_eq_true, if_false, if_true] <;> omega

/-- Doubles that are whole numbers are ordered as those. -/
theorem order_of_sameInt (first : x.sameInt m = true) (second : y.sameInt n = true) :
    x.lt y = decide (m < n) ∧ x.same y = decide (m = n) := by
  have positive : (0 : Int) < unitsPerOne := Int.natCast_pos.2 unitsPerOne_pos
  obtain ⟨below, same⟩ := order_of_units (of_decide_eq_true first) (of_decide_eq_true second)
  rw [below, same]
  exact ⟨decide_eq_decide.2 (Int.mul_lt_mul_right positive),
    decide_eq_decide.2 (Int.mul_eq_mul_right_iff (Int.ne_of_gt positive))⟩

/-- A quotient that is a double is rounded to it. -/
theorem nearestRank_scaled (rank : Nat) {d : Nat} (positive : 0 < d) :
    nearestRank (units rank * d) d = rank := by
  refine nearestRank_eq positive ?_
  have within := Decimal.holds_scaled (.ofRank rank) 1 (2 * units rank) positive
  rw [Nat.one_mul, units_within, Nat.mul_assoc] at within
  exact within

theorem signedUnits?_ofUnits {rank d : Nat} (finite : rank < infinityRank) (positive : 0 < d)
    (negative : Bool) :
    (ofUnits negative (units rank * d) d).signedUnits? = some
    (if negative then -(units rank : Int) else units rank) := by
  simp [ofUnits, signedUnits?, nearestRank_scaled rank positive,
    Nat.min_eq_left (Nat.le_of_lt finite), finite]

/-- A quotient that is a whole number of 53 bits is rounded to just that number. -/
theorem sameInt_ofRatio {k d : Nat} (short : k < 2 * blockSize) (positive : 0 < d)
    (negative : Bool) :
    (ofRatio negative (k * d) d).sameInt (if negative then -(k : Int) else k) = true := by
  obtain ⟨exponent, power, size⟩ := unitsPerOne_eq
  obtain ⟨rank, bound, same⟩ := exists_units short exponent (by omega)
  have room : (exponent + 2) * blockSize < infinityRank :=
    Nat.mul_lt_mul_of_pos_right (by omega) blockSize_pos
  rw [← power] at same
  have scaled : k * d * unitsPerOne = units rank * d := by rw [same, Nat.mul_right_comm]
  have signed : (if negative = true then -(units rank : Int) else units rank) =
      (if negative = true then -(k : Int) else k) * unitsPerOne := by
    rw [same, Int.natCast_mul]
    cases negative with
    | true => simp only [if_true, Int.neg_mul]
    | false => simp only [Bool.false_eq_true, if_false]
  rw [sameInt, ofRatio, scaled, signedUnits?_ofUnits (Nat.lt_of_le_of_lt bound room) positive, signed]
  exact decide_eq_true_iff.2 (Eq.refl _)

/-- A whole number of 53 bits, with a sign. -/
theorem sameInt_ofRatio_int {d : Nat} (short : n.natAbs < 2 * blockSize) (positive : 0 < d) :
    (ofRatio (n < 0) (n.natAbs * d) d).sameInt n = true := by
  have exact := sameInt_ofRatio short positive (n < 0)
  have signed : (if decide (n < 0) = true then -(n.natAbs : Int) else n.natAbs) = n := by
    by_cases below : n < 0
    · rw [if_pos (decide_eq_true below)]
      omega
    · rw [if_neg (by simp [below])]
      omega
  rw [signed] at exact
  exact exact

theorem isFinite_of_sameInt (exact : x.sameInt n = true) : x.isFinite = true := by
  have exact := of_decide_eq_true exact
  cases x with
  | nan origin => cases exact
  | number s r bound => exact decide_eq_true (Option.ite_some_none_eq_some.1 exact).1

theorem ofInt?_short (short : n.natAbs < 2 * blockSize) :
    ∃ x, ofInt? n = some x ∧ x.sameInt n = true := by
  have exact := sameInt_ofRatio_int short Nat.one_pos
  rw [Nat.mul_one] at exact
  refine ⟨ofRatio (n < 0) n.natAbs 1, ?_, exact⟩
  simp only [ofInt?, isFinite_of_sameInt exact, if_true]

/-- Adding zero to a double leaves its amount. -/
theorem signedUnits?_add_zero (first : x.signedUnits? = some a) (zero : y.signedUnits? = some 0) :
    (x.add y).signedUnits? = some a := by
  cases x with
  | nan origin => cases first
  | number s r r_bound =>
    cases y with
    | nan origin => cases zero
    | number t q q_bound =>
      obtain ⟨finite, amount⟩ := Option.ite_some_none_eq_some.1 first
      simp only [add, first, zero, Int.add_zero]
      by_cases none : a = 0
      · have room : 0 < infinityRank := Nat.zero_lt_of_lt finite
        simp [none, signedUnits?, units_zero, room]
      · have magnitude : a.natAbs = units r * 1 := by
          rw [← amount, Nat.mul_one]
          cases s <;> simp
        have sign : decide (a < 0) = s := by
          cases s with
          | true =>
            rw [if_pos rfl] at amount
            exact decide_eq_true (by omega)
          | false =>
            rw [if_neg Bool.false_ne_true] at amount
            exact decide_eq_false (by omega)
        rw [if_neg none, magnitude, sign, signedUnits?_ofUnits finite Nat.one_pos, amount]

end Binary64

/-- The timestamp of a time without a zone and without a fraction. -/
theorem DateTime.sameInt_timestamp {t : DateTime} {x : Binary64} (whole : t.microsecond = 0)
    (short : ((t.seconds : Int) - epoch).natAbs < 2 * Binary64.blockSize)
    (placed : t.timestamp? = some x) :
    x.sameInt (t.seconds - epoch) = true := by
  obtain ⟨y, rounded, exact⟩ := Binary64.ofInt?_short short
  have zero :=
    of_decide_eq_true
      (Binary64.sameInt_ofRatio (k := 0) (d := microsPerSecond) (by decide) (by decide) false)
  rw [if_neg Bool.false_ne_true, Int.natCast_zero, Int.zero_mul] at zero
  have fraction : t.microsecond = 0 * microsPerSecond := by rw [whole, Nat.zero_mul]
  simp only [timestamp?, rounded, fraction, Option.map_some] at placed
  split at placed
  · cases placed
  · obtain rfl := Option.some.inj placed
    exact decide_eq_true (Binary64.signedUnits?_add_zero (of_decide_eq_true exact) zero)

theorem sameInt_secondsOfMicros {n : Int} (short : n.natAbs < 2 * Binary64.blockSize) :
    (secondsOfMicros (n * microsPerSecond)).sameInt n = true := by
  have sign : decide (n * microsPerSecond < 0) = decide (n < 0) := by
    rw [decide_eq_decide]
    unfold microsPerSecond
    omega
  rw [secondsOfMicros, sign, Int.natAbs_mul, Int.natAbs_natCast]
  exact Binary64.sameInt_ofRatio_int short (by decide)

namespace Stamp

variable {s t : Stamp} {x y : Binary64}

def IsWhole (s : Stamp) : Prop := (microsPerSecond : Int) ∣ s.instant

instance (s : Stamp) : Decidable s.IsWhole := inferInstanceAs (Decidable (_ ∣ _))

def secondsSinceEpoch (s : Stamp) : Int := s.instant / microsPerSecond - DateTime.epoch

theorem short_secondsSinceEpoch (isRead : s.IsRead) :
    s.secondsSinceEpoch.natAbs < 2 * Binary64.blockSize := by
  have range := s.wall.inRange
  have limit : DateTime.limit = 315537897600000000 := by decide
  have day : microsPerDay = 86400000000 := rfl
  have epoch : DateTime.epoch = 62135596800 := by decide
  have size : Binary64.blockSize = 4503599627370496 := rfl
  have inside : (s.offset.getD 0).natAbs < microsPerDay := by
    cases offset : s.offset with
    | none => decide
    | some micros => exact (isRead micros offset).1
  unfold secondsSinceEpoch instant microsPerSecond
  omega

theorem instant_sub_epoch (whole : s.IsWhole) :
    s.instant - (DateTime.epoch * microsPerSecond : Nat) =
      s.secondsSinceEpoch * microsPerSecond := by
  rw [secondsSinceEpoch, Int.sub_mul, Int.ediv_mul_cancel whole]
  push_cast
  rfl

/-- The timestamp of a time without a fraction is its number of seconds, exactly. -/
theorem sameInt_timestamp (isRead : s.IsRead) (whole : s.IsWhole) (placed : s.timestamp? = some x) :
    x.sameInt s.secondsSinceEpoch = true := by
  have short := short_secondsSinceEpoch isRead
  obtain ⟨wall, offset⟩ := s
  cases offset with
  | none =>
    have instant : (⟨wall, none⟩ : Stamp).instant = wall.micros := Int.sub_zero _
    have seconds : (⟨wall, none⟩ : Stamp).secondsSinceEpoch = wall.seconds - DateTime.epoch := by
      rw [secondsSinceEpoch, instant]
      rfl
    rw [IsWhole, instant] at whole
    rw [seconds] at short ⊢
    exact DateTime.sameInt_timestamp
      (Nat.mod_eq_zero_of_dvd (Int.natCast_dvd_natCast.1 whole)) short placed
  | some micros =>
    obtain rfl := Option.some.inj placed
    rw [instant_sub_epoch whole]
    exact sameInt_secondsOfMicros short

/-- The timestamps of times without a fraction are ordered as their instants. -/
theorem order_of_timestamps (isRead : s.IsRead) (isRead' : t.IsRead) (whole : s.IsWhole)
    (whole' : t.IsWhole)
    (placed : s.timestamp? = some x) (placed' : t.timestamp? = some y) :
    x.lt y = decide (s.instant < t.instant) ∧ x.same y = decide (s.instant = t.instant) := by
  obtain ⟨below, same⟩ := Binary64.order_of_sameInt (sameInt_timestamp isRead whole placed)
    (sameInt_timestamp isRead' whole' placed')
  have scaled :
      s.instant - t.instant = (s.secondsSinceEpoch - t.secondsSinceEpoch) * microsPerSecond := by
    rw [Int.sub_mul, ← instant_sub_epoch whole, ← instant_sub_epoch whole', sub_sub_sub_cancel_right]
  unfold microsPerSecond at scaled
  rw [below, same, decide_eq_decide, decide_eq_decide]
  omega

end Stamp
end LeadRules
