import LeadRules.Proofs.Rounding
import LeadRules.Text.Numeral

/-! The digits of doubles. Seventeen digits tell any two doubles apart, so the search for the
fewest digits comes to a decimal that lies between the middles to the neighbours of the double,
and such a decimal is read as that double. -/
namespace LeadRules

open Binary64 (unitsPerOne unitsPerOne_pos unitsPerOne_eq units blockSize infinityRank)

namespace Decimal

/-- Powers of two among the powers of ten. -/
theorem two_pow_le (m : Nat) : 2 ^ (23 * m) ≤ 10 ^ (7 * m) := by
  rw [Nat.pow_mul, Nat.pow_mul]
  exact Nat.pow_le_pow_left (by decide) m

theorem unitsPerOne_le {depth : Nat} (deep : 330 ≤ depth) : unitsPerOne ≤ 10 ^ depth := by
  obtain ⟨k, power, size⟩ := unitsPerOne_eq
  obtain ⟨m, wide, low⟩ : ∃ m, k ≤ 23 * m ∧ 7 * m ≤ depth := ⟨47, by omega, by omega⟩
  rw [power]
  exact (Nat.pow_le_pow_right (by decide) wide).trans
    ((two_pow_le m).trans (Nat.pow_le_pow_right (by decide) low))

section Count

variable {n : Nat}

theorem lt_pow_digitCount (n : Nat) : n < 10 ^ digitCount n :=
  (Nat.length_toDigits_le_iff (by decide) Nat.length_toDigits_pos).1 (Nat.le_refl _)

/-- A number has no digit too many. -/
theorem pow_le_of_digitCount (some : n ≠ 0) : ∃ m, digitCount n = m + 1 ∧ 10 ^ m ≤ n := by
  obtain ⟨m, count⟩ : ∃ m, digitCount n = m + 1 :=
    Nat.exists_eq_succ_of_ne_zero (Nat.ne_of_gt Nat.length_toDigits_pos)
  refine ⟨m, count, Nat.not_lt.1 fun short => ?_⟩
  have positive : 0 < m := by
    rcases Nat.eq_zero_or_pos m with rfl | positive
    · exact absurd (Nat.lt_one_iff.1 short) some
    · exact positive
  have fewer : digitCount n ≤ m := (Nat.length_toDigits_le_iff (by decide) positive).2 short
  omega

end Count

def Within (d : Decimal) (i : Interval) : Prop :=
  i.holds (10 ^ (-d.exponent).toNat) (d.digits * (2 * unitsPerOne * 10 ^ d.exponent.toNat)) = true

section Within

variable {i : Interval}

theorem holds_scaled (i : Interval) (scale scaled : Nat) {c : Nat} (positive : 0 < c) :
    i.holds (scale * c) (scaled * c) = i.holds scale scaled := by
  have weak (a b : Nat) : a * (scale * c) ≤ b * c ↔ a * scale ≤ b := by
    rw [← Nat.mul_assoc, Nat.mul_le_mul_right_iff positive]
  have weak' (a b : Nat) : b * c ≤ a * (scale * c) ↔ b ≤ a * scale := by
    rw [← Nat.mul_assoc, Nat.mul_le_mul_right_iff positive]
  have strict (a b : Nat) : a * (scale * c) < b * c ↔ a * scale < b := by
    rw [← Nat.mul_assoc, Nat.mul_lt_mul_right positive]
  have strict' (a b : Nat) : b * c < a * (scale * c) ↔ b < a * scale := by
    rw [← Nat.mul_assoc, Nat.mul_lt_mul_right positive]
  simp only [Interval.holds, weak, weak', strict, strict']

theorem holds_bounds {scale scaled : Nat} (holds : i.holds scale scaled = true) :
    i.low * scale ≤ scaled ∧ scaled ≤ i.high * scale := by
  unfold Interval.holds at holds
  split at holds
  · exact of_decide_eq_true holds
  · have strict := of_decide_eq_true holds
    exact ⟨Nat.le_of_lt strict.1, Nat.le_of_lt strict.2⟩

/-- Zeros at the end of the digits count as much as the exponent. -/
theorem within_shift (digits k : Nat) (e : Int) : Within ⟨digits * 10 ^ k, e⟩ i ↔
    Within ⟨digits, e + k⟩ i := by
  have ten (n : Nat) : 0 < 10 ^ n := Nat.pow_pos (by decide)
  have powers : k + e.toNat + (-(e + k)).toNat = (e + k).toNat + (-e).toNat := by omega
  have same : digits * 10 ^ k * (2 * unitsPerOne * 10 ^ e.toNat) * 10 ^ (-(e + k)).toNat =
      digits * (2 * unitsPerOne * 10 ^ (e + k).toNat) * 10 ^ (-e).toNat := by
    calc digits * 10 ^ k * (2 * unitsPerOne * 10 ^ e.toNat) * 10 ^ (-(e + k)).toNat
      _ = digits * (2 * unitsPerOne) * 10 ^ (k + e.toNat + (-(e + k)).toNat) := by ring
      _ = digits * (2 * unitsPerOne * 10 ^ (e + k).toNat) * 10 ^ (-e).toNat := by
        rw [powers]
        ring
  show i.holds _ _ = true ↔ i.holds _ _ = true
  rw [← holds_scaled i _ _ (ten (-(e + k)).toNat), same, Nat.mul_comm (10 ^ _),
    holds_scaled i _ _ (ten (-e).toNat)]

theorem trim_within {d : Decimal} (within : d.Within i) (tries : Nat) :
    (d.trim tries).Within i := by
  induction tries generalizing d with
  | zero => exact within
  | succ tries ih =>
    rw [trim]
    split
    next zero =>
      refine ih ((within_shift _ 1 _).1 ?_)
      rwa [Nat.pow_one, Nat.div_mul_cancel (Nat.dvd_of_mod_eq_zero zero)]
    · exact within

theorem onGrid?_within {exponent : Int} {digits : Nat} (found : onGrid? i exponent = some digits) :
    Within ⟨digits, exponent⟩ i := by
  unfold onGrid? at found
  dsimp only at found
  split at found
  next below _ => exact Option.some.inj found ▸ below
  next _ above => exact Option.some.inj found ▸ above
  · cases found
  next below above =>
    split at found
    · exact Option.some.inj found ▸ below
    · exact Option.some.inj found ▸ above

/-- The search finds a decimal if one of the grids it walks has one. -/
theorem search_within {leading : Int} {digits tries k : Nat} (walked : k < tries)
    (some : onGrid? i (leading + 1 - (digits + k : Nat)) ≠ none) :
    (search i leading digits tries).Within i := by
  induction tries generalizing digits k with
  | zero => omega
  | succ tries ih =>
    rw [search]
    split
    next found => exact onGrid?_within found
    next none =>
      cases k with
      | zero => exact absurd none some
      | succ k =>
        exact ih (Nat.lt_of_succ_lt_succ walked) (by rwa [Nat.add_right_comm, Nat.add_assoc])

/-- An interval wider than the spacing of a grid holds one of the two points of the
grid next to its value. -/
theorem onGrid?_some {exponent : Int} {parts : Nat} (below : i.low ≤ i.value) (above : i.value < i.high)
    (wide : i.value + i.low * parts < i.high * parts)
    (fine : 2 * unitsPerOne * 10 ^ exponent.toNat * parts ≤ i.value * 10 ^ (-exponent).toNat) :
    onGrid? i exponent ≠ none := by
  have ten (n : Nat) : 0 < 10 ^ n := Nat.pow_pos (by decide)
  have positive : 0 < 2 * unitsPerOne * 10 ^ exponent.toNat :=
    Nat.mul_pos (Nat.mul_pos (by decide) unitsPerOne_pos) (ten _)
  intro none
  obtain ⟨under, beyond⟩ : i.holds (10 ^ (-exponent).toNat)
        (i.value * 10 ^ (-exponent).toNat / (2 * unitsPerOne * 10 ^ exponent.toNat) *
          (2 * unitsPerOne * 10 ^ exponent.toNat)) = false ∧
      i.holds (10 ^ (-exponent).toNat)
        ((i.value * 10 ^ (-exponent).toNat / (2 * unitsPerOne * 10 ^ exponent.toNat) + 1) *
          (2 * unitsPerOne * 10 ^ exponent.toNat)) = false := by
    unfold onGrid? at none
    dsimp only at none
    split at none
    · cases none
    · cases none
    next under beyond => exact ⟨under, beyond⟩
    · split at none <;> cases none
  generalize 2 * unitsPerOne * 10 ^ exponent.toNat = step at *
  generalize scale_eq : 10 ^ (-exponent).toNat = scale at *
  have some : 0 < scale := scale_eq ▸ ten _
  have floor := Nat.div_mul_le_self (i.value * scale) step
  have ceiling := Nat.lt_div_mul_add (a := i.value * scale) positive
  rw [Nat.succ_mul] at beyond
  generalize i.value * scale / step * step = point at *
  -- Both points lie outside, so that the interval is not longer than the step between them.
  have low := Nat.mul_le_mul_right scale below
  have high := Nat.mul_lt_mul_of_pos_right above some
  have long : i.high * scale ≤ i.low * scale + step := by
    unfold Interval.holds at under beyond
    cases closed : i.closed <;>
      simp only [closed, if_true, Bool.false_eq_true, if_false, decide_eq_false_iff_not]
        at under beyond <;> omega
  have wide := Nat.mul_lt_mul_of_pos_right wide some
  have long := Nat.mul_le_mul_right parts long
  rw [Nat.add_mul] at wide long
  rw [Nat.mul_right_comm i.low, Nat.mul_right_comm i.high] at wide
  omega

end Within

section Rank

variable {rank : Nat}

theorem units_pos (positive : 0 < rank) : 0 < units rank :=
  Nat.lt_of_le_of_lt (Nat.zero_le _) (Binary64.units_strictMono positive)

/-- The neighbours of a rank are more than the last of seventeen digits apart. -/
theorem spacing (positive : 0 < rank) :
    2 * units rank + units (rank - 1) * 10 ^ 16 < units (rank + 1) * 10 ^ 16 := by
  have size : blockSize = 4503599627370496 := rfl
  rcases Binary64.rank_cases rank with first | ⟨block, place, inside, rfl⟩
  · rw [Binary64.units_of_lt first, Binary64.units_next_first first, Binary64.units_of_lt (by omega)]
    omega
  · rw [Binary64.units_block inside, Binary64.units_next inside]
    rcases Binary64.units_previous block inside with ⟨-, back⟩ | ⟨rfl, before, rfl, back⟩
    · have room : (blockSize + place) * 2 ^ block < 10 ^ 16 * 2 ^ block :=
        Nat.mul_lt_mul_of_pos_right (by omega) (Nat.two_pow_pos block)
      rw [Nat.succ_mul (blockSize + place)]
      omega
    · have room : blockSize * 2 ^ (before + 1) = 9007199254740992 * 2 ^ before := by
        rw [size, Nat.pow_succ]
        ring
      have space := Nat.two_pow_pos before
      rw [Nat.add_zero, Nat.succ_mul blockSize]
      rw [room] at back ⊢
      rw [Nat.pow_succ]
      omega

/-- The power of ten of the leading digit, counted from far below the least double. -/
theorem leadingExponent_eq (positive : 0 < rank) :
    ∃ m depth : Nat, leadingExponent (units rank) = (m : Int) - depth ∧
      unitsPerOne * 10 ^ m ≤ units rank * 10 ^ depth := by
  obtain ⟨depth, deep, leading⟩ : ∃ depth : Nat, 330 ≤ depth ∧
      leadingExponent (units rank) =
        (digitCount (units rank * Nat.pow 10 depth / unitsPerOne) : Int) - (depth + 1) :=
    ⟨330, Nat.le_refl _, rfl⟩
  have large : unitsPerOne ≤ units rank * 10 ^ depth :=
    (unitsPerOne_le deep).trans (Nat.le_mul_of_pos_left _ (units_pos positive))
  obtain ⟨m, count, low⟩ := pow_le_of_digitCount (Nat.ne_of_gt (Nat.div_pos large unitsPerOne_pos))
  refine ⟨m, depth, ?_, ?_⟩
  · rw [leading, Nat.pow_eq, count]
    omega
  · rw [Nat.mul_comm]
    exact (Nat.mul_le_mul_right _ low).trans (Nat.div_mul_le_self ..)

/-- One of the decimals of seventeen digits next to a double lies in its interval. -/
theorem onGrid?_seventeen (positive : 0 < rank) :
    onGrid? (.ofRank rank) (leadingExponent (units rank) + 1 - (17 : Nat)) ≠ none := by
  obtain ⟨m, depth, leading, low⟩ := leadingExponent_eq positive
  have ten (n : Nat) : 0 < 10 ^ n := Nat.pow_pos (by decide)
  generalize exponent_eq : leadingExponent (units rank) + 1 - (17 : Nat) = exponent
  have powers : m + (-exponent).toNat = exponent.toNat + 16 + depth := by omega
  obtain ⟨scale, scale_eq⟩ : ∃ scale, scale = 10 ^ (-exponent).toNat := ⟨_, rfl⟩
  obtain ⟨step, step_eq⟩ : ∃ step, step = 2 * unitsPerOne * 10 ^ exponent.toNat := ⟨_, rfl⟩
  have fine : step * 10 ^ 16 ≤ 2 * units rank * scale := by
    refine Nat.le_of_mul_le_mul_right ?_ (ten depth)
    calc step * 10 ^ 16 * 10 ^ depth = 2 * (unitsPerOne * 10 ^ (exponent.toNat + 16 + depth)) := by
          rw [step_eq, Nat.pow_add, Nat.pow_add]
          ring
      _ = 2 * (unitsPerOne * 10 ^ m * scale) := by
          rw [← powers, scale_eq, Nat.pow_add, Nat.mul_assoc unitsPerOne]
      _ ≤ 2 * (units rank * 10 ^ depth * scale) :=
        Nat.mul_le_mul_left _ (Nat.mul_le_mul_right _ low)
      _ = 2 * units rank * scale * 10 ^ depth := by ring
  have above := Binary64.units_lt_next rank
  have below : units (rank - 1) ≤ units rank :=
    Binary64.units_strictMono.monotone (Nat.sub_le rank 1)
  have wide := spacing positive
  generalize 10 ^ 16 = parts at fine wide
  refine onGrid?_some ?_ ?_ ?_ (by rwa [← step_eq, ← scale_eq])
  · show units (rank - 1) + units rank ≤ 2 * units rank
    omega
  · show 2 * units rank < units rank + units (rank + 1)
    omega
  · show 2 * units rank + (units (rank - 1) + units rank) * parts <
      (units rank + units (rank + 1)) * parts
    rw [Nat.add_mul, Nat.add_mul]
    omega

/-- The digits of a double are those of a decimal in its interval. -/
theorem shortest_within (positive : 0 < rank) : (shortest rank).Within (.ofRank rank) := by
  rw [shortest, if_neg (Nat.ne_of_gt positive)]
  exact trim_within (search_within (k := 16) (by decide) (onGrid?_seventeen positive)) 17

/-- How large a double is at most. -/
theorem units_le_infinity : ∃ bits, (∀ rank ≤ infinityRank, units rank ≤ 2 ^ bits * unitsPerOne) ∧
    bits = 1024 := by
  obtain ⟨k, power, size⟩ := unitsPerOne_eq
  obtain ⟨bits, bits_eq⟩ : ∃ bits, bits = 1024 := ⟨_, rfl⟩
  obtain ⟨block, last, block_eq⟩ : ∃ block, infinityRank = (block + 1) * blockSize + 0 ∧
      block = 2046 := ⟨2046, rfl, rfl⟩
  have whole : blockSize * 2 ^ block = 2 ^ bits * 2 ^ k := by
    obtain ⟨small, space, fewer⟩ : ∃ small, blockSize = 2 ^ small ∧ small = 52 := ⟨52, rfl, rfl⟩
    rw [space, ← Nat.pow_add, ← Nat.pow_add, show small + block = bits + k by omega]
  refine ⟨bits, fun rank bound => ?_, bits_eq⟩
  have below := Binary64.units_strictMono.monotone bound
  rwa [last, Binary64.units_block Binary64.blockSize_pos, Nat.add_zero, whole, ← power] at below

/-- A decimal in the interval of a double has its leading digit neither far above nor far below
the point. -/
theorem size_within {digits : Nat} {e : Int} (positive : 0 < rank) (finite : rank < infinityRank)
    (within : Within ⟨digits, e⟩ (.ofRank rank)) :
    digits ≠ 0 ∧ -400 ≤ digitCount digits + e ∧ digitCount digits + e ≤ 400 := by
  have ten (n : Nat) : 0 < 10 ^ n := Nat.pow_pos (by decide)
  obtain ⟨low, high⟩ :
    (units (rank - 1) + units rank) * 10 ^ (-e).toNat ≤ digits * (2 * unitsPerOne * 10 ^ e.toNat) ∧
      digits * (2 * unitsPerOne * 10 ^ e.toNat) ≤ (units rank + units (rank + 1)) *
      10 ^ (-e).toNat :=
    holds_bounds within
  have least : 10 ^ (-e).toNat ≤ digits * (2 * unitsPerOne * 10 ^ e.toNat) :=
    (Nat.le_mul_of_pos_left _ (Nat.add_pos_right _ (units_pos positive))).trans low
  have some : digits ≠ 0 := by
    rintro rfl
    rw [Nat.zero_mul] at least
    exact absurd least (Nat.not_le.2 (ten _))
  obtain ⟨m, count, leading⟩ := pow_le_of_digitCount some
  have top := lt_pow_digitCount digits
  refine ⟨some, ?_, ?_⟩
  · by_contra below
    obtain ⟨depth, deep⟩ : ∃ depth, depth = 330 := ⟨_, rfl⟩
    have above : 10 ^ (-e).toNat < 10 ^ (digitCount digits + e.toNat + (depth + 1)) := by
      calc 10 ^ (-e).toNat ≤ digits * (2 * unitsPerOne * 10 ^ e.toNat) := least
        _ < 10 ^ digitCount digits * (2 * unitsPerOne * 10 ^ e.toNat) :=
          Nat.mul_lt_mul_of_pos_right top
          (Nat.mul_pos (Nat.mul_pos (by decide) unitsPerOne_pos) (ten _))
        _ ≤ 10 ^ digitCount digits * (10 * 10 ^ depth * 10 ^ e.toNat) :=
          Nat.mul_le_mul_left _ (Nat.mul_le_mul_right _
            (Nat.mul_le_mul (by decide) (unitsPerOne_le (Nat.le_of_eq deep.symm))))
        _ = 10 ^ (digitCount digits + e.toNat + (depth + 1)) := by ring
    have := (Nat.pow_lt_pow_iff_right (by decide)).1 above
    omega
  · by_contra above
    obtain ⟨bits, bound, size⟩ := units_le_infinity
    obtain ⟨m', wide, narrow⟩ : ∃ m', bits ≤ 23 * m' ∧ 7 * m' ≤ 315 := ⟨45, by omega, by omega⟩
    have large : 2 ^ bits ≤ 10 ^ (7 * m') :=
      (Nat.pow_le_pow_right (by decide) wide).trans (two_pow_le m')
    have below : 10 ^ (m + e.toNat) ≤ 10 ^ (7 * m' + (-e).toNat) := by
      refine Nat.le_of_mul_le_mul_right ?_ (Nat.mul_pos (show 0 < 2 by decide) unitsPerOne_pos)
      calc 10 ^ (m + e.toNat) * (2 * unitsPerOne) = 10 ^ m * (2 * unitsPerOne * 10 ^ e.toNat) := by ring
        _ ≤ digits * (2 * unitsPerOne * 10 ^ e.toNat) := Nat.mul_le_mul_right _ leading
        _ ≤ (units rank + units (rank + 1)) * 10 ^ (-e).toNat := high
        _ ≤ (2 ^ bits * unitsPerOne + 2 ^ bits * unitsPerOne) * 10 ^ (-e).toNat :=
          Nat.mul_le_mul_right _
          (Nat.add_le_add (bound rank (by omega)) (bound (rank + 1) (by omega)))
        _ = 2 ^ bits * (2 * unitsPerOne * 10 ^ (-e).toNat) := by ring
        _ ≤ 10 ^ (7 * m') * (2 * unitsPerOne * 10 ^ (-e).toNat) := Nat.mul_le_mul_right _ large
        _ = 10 ^ (7 * m' + (-e).toNat) * (2 * unitsPerOne) := by ring
    have := (Nat.pow_le_pow_iff_right (by decide)).1 below
    omega

end Rank

end Decimal

namespace Numeral

variable {rank : Nat}

/-- A decimal in the interval of a double is read as that double. -/
theorem nearest_within {digits : Nat} {e : Int} (positive : 0 < rank) (finite : rank < infinityRank)
    (within : Decimal.Within ⟨digits, e⟩ (.ofRank rank)) (negative : Bool) :
    nearest negative digits e = .number negative rank (Nat.le_of_lt finite) := by
  obtain ⟨some, least, most⟩ := Decimal.size_within positive finite within
  have large : ¬(digits = 0 ∨ (Decimal.digitCount digits : Int) + e < -400) := by omega
  have small : ¬(400 < (Decimal.digitCount digits : Int) + e) := by omega
  have double : digits * (2 * unitsPerOne * 10 ^ e.toNat) =
      2 * (digits * 10 ^ e.toNat * unitsPerOne) := by ring
  have rounded :
      Binary64.nearestRank (digits * 10 ^ e.toNat * unitsPerOne) (10 ^ (-e).toNat) = rank :=
    Binary64.nearestRank_eq (Nat.pow_pos (by decide)) (double ▸ within)
  simp only [nearest, large, small, if_false, Nat.pow_eq, Binary64.ofRatio, Binary64.ofUnits, rounded,
    Nat.min_eq_left (Nat.le_of_lt finite)]

/-- The digits of a double are read as that double, wherever the point is put among them. -/
theorem nearest_shortest (finite : rank < infinityRank) (negative : Bool) (k : Nat) :
    nearest negative ((Decimal.shortest rank).digits * 10 ^ k) ((Decimal.shortest rank).exponent - k) =
      .number negative rank (Nat.le_of_lt finite) := by
  rcases Nat.eq_zero_or_pos rank with rfl | positive
  · simp [nearest, Decimal.shortest]
  · refine nearest_within positive finite ((Decimal.within_shift _ _ _).2 ?_) negative
    rw [Int.sub_add_cancel]
    exact Decimal.shortest_within positive

end Numeral
end LeadRules
