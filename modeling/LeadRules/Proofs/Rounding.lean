import LeadRules.Decimal.Shortest
import Mathlib.Tactic.Linarith
import Mathlib.Tactic.Ring

/-! Rounding to doubles. A quotient that lies between the middles to the neighbours of a rank is
rounded to it, so that what is a double already stays as it is. A whole number that a double was
cut to is a double itself; and a whole number is too large for a double just from halfway between
the largest one and the power of two behind it. -/
namespace LeadRules

namespace Binary64

theorem blockSize_pos : 0 < blockSize := by decide

/-- The power of two is kept a variable: nothing is to compute with a number of this size. -/
theorem unitsPerOne_eq : ∃ k, unitsPerOne = 2 ^ k ∧ k = 1074 := ⟨1074, rfl, rfl⟩

theorem unitsPerOne_pos : 0 < unitsPerOne := by
  obtain ⟨k, power, -⟩ := unitsPerOne_eq
  rw [power]
  exact Nat.two_pow_pos k

section Units

variable {rank block place : Nat}

theorem units_of_lt (first : rank < blockSize) : units rank = rank := if_pos first

/-- The ranks of a block are spaced by a power of two. -/
theorem units_block (inside : place < blockSize) :
    units ((block + 1) * blockSize + place) = (blockSize + place) * 2 ^ block := by
  have past : ¬(block + 1) * blockSize + place < blockSize := by
    have := Nat.le_mul_of_pos_left blockSize (show 0 < block + 1 by omega)
    omega
  have number : ((block + 1) * blockSize + place) / blockSize = block + 1 := by
    rw [Nat.add_comm, Nat.add_mul_div_right _ _ blockSize_pos, Nat.div_eq_of_lt inside, Nat.zero_add]
  have rest : ((block + 1) * blockSize + place) % blockSize = place := by
    rw [Nat.add_comm, Nat.add_mul_mod_self_right, Nat.mod_eq_of_lt inside]
  rw [units, if_neg past, number, rest, Nat.add_sub_cancel]
  rfl

theorem rank_cases (rank : Nat) : rank < blockSize ∨
    ∃ block place, place < blockSize ∧ rank = (block + 1) * blockSize + place := by
  by_cases first : rank < blockSize
  · exact .inl first
  · have whole := Nat.div_add_mod' rank blockSize
    have positive : 0 < rank / blockSize := Nat.div_pos (Nat.le_of_not_lt first) blockSize_pos
    refine .inr ⟨rank / blockSize - 1, rank % blockSize, Nat.mod_lt _ blockSize_pos, ?_⟩
    rw [Nat.sub_add_cancel positive, whole]

/-- The next rank is one space further on, also where the spacing doubles. -/
theorem units_next (inside : place < blockSize) :
    units ((block + 1) * blockSize + place + 1) = (blockSize + place + 1) * 2 ^ block := by
  by_cases last : place + 1 = blockSize
  · have start : (block + 1) * blockSize + place + 1 = (block + 1 + 1) * blockSize + 0 := by
      rw [Nat.add_assoc, last, Nat.succ_mul (block + 1)]
      exact (Nat.add_zero _).symm
    rw [start, units_block blockSize_pos, Nat.add_assoc, last, Nat.pow_succ, Nat.add_zero,
      ← Nat.two_mul, Nat.mul_comm 2, Nat.mul_assoc, Nat.mul_comm 2]
  · rw [Nat.add_assoc, units_block (by omega), Nat.add_assoc]

theorem units_next_first (first : rank < blockSize) : units (rank + 1) = rank + 1 := by
  by_cases last : rank + 1 = blockSize
  · have start : rank + 1 = (0 + 1) * blockSize + 0 := by
      rw [Nat.zero_add, Nat.one_mul, last]
      exact (Nat.add_zero _).symm
    rw [start, units_block blockSize_pos, Nat.pow_zero, Nat.mul_one, Nat.zero_add, Nat.one_mul]
  · exact units_of_lt (by omega)

/-- The rank before is one space back, but half of one where the spacing has just doubled. -/
theorem units_previous (block : Nat) (inside : place < blockSize) :
    ((place ≠ 0 ∨ block = 0) ∧
      units ((block + 1) * blockSize + place - 1) + 2 ^ block = (blockSize + place) * 2 ^ block) ∨
    (place = 0 ∧ ∃ before, block = before + 1 ∧
      units ((block + 1) * blockSize + place - 1) + 2 ^ before = blockSize * 2 ^ block) := by
  have positive := blockSize_pos
  cases place with
  | succ place =>
    refine .inl ⟨.inl (Nat.succ_ne_zero place), ?_⟩
    rw [← Nat.add_assoc, Nat.add_sub_cancel, units_block (by omega), ← Nat.succ_mul]
    rfl
  | zero =>
    cases block with
    | zero =>
      refine .inl ⟨.inr rfl, ?_⟩
      rw [Nat.zero_add, Nat.one_mul, Nat.add_zero, Nat.pow_zero, Nat.mul_one, units_of_lt (by omega)]
      omega
    | succ before =>
      refine .inr ⟨rfl, before, rfl, ?_⟩
      have last :
          (before + 1 + 1) * blockSize + 0 - 1 = (before + 1) * blockSize + (blockSize - 1) := by
        rw [Nat.succ_mul (before + 1), Nat.add_zero, Nat.add_sub_assoc positive]
      have whole : blockSize + (blockSize - 1) + 1 = blockSize * 2 := by omega
      rw [last, units_block (by omega), ← Nat.succ_mul, Nat.succ_eq_add_one, whole, Nat.pow_succ,
        Nat.mul_assoc, Nat.mul_comm 2]

end Units

/-- What lies within a half of a whole number is rounded to it, and what lies on the half too
if the number is even. -/
theorem roundHalfEven_eq {n d k : Nat} (low : 2 * k * d ≤ 2 * n + d)
    (high : 2 * n ≤ (2 * k + 1) * d)
    (strict : k % 2 = 1 → 2 * k * d < 2 * n + d ∧ 2 * n < (2 * k + 1) * d) (positive : 0 < d) :
    roundHalfEven n d = k := by
  have parts := Nat.div_add_mod' n d
  have rest := Nat.mod_lt n positive
  unfold roundHalfEven
  generalize n / d = q at *
  generalize n % d = s at *
  subst parts
  -- The floor is the number itself or the one before it.
  have above : q ≤ k := by
    by_contra beyond
    have := Nat.mul_le_mul_right d (Nat.lt_of_not_le beyond)
    nlinarith
  have below : k ≤ q + 1 := by
    by_contra beyond
    have := Nat.mul_le_mul_right d (Nat.lt_of_not_le beyond)
    nlinarith
  obtain rfl | rfl : k = q ∨ k = q + 1 := by omega
  · have short : 2 * s ≤ d := by nlinarith
    have odd : k % 2 = 1 → 2 * s < d := fun odd => by
      have := (strict odd).2
      nlinarith
    refine if_neg ?_
    rintro (past | ⟨half, odd'⟩)
    · omega
    · exact absurd (odd odd') (by omega)
  · have long : d ≤ 2 * s := by nlinarith
    have odd : (q + 1) % 2 = 1 → d < 2 * s := fun odd => by
      have := (strict odd).1
      nlinarith
    refine if_pos ?_
    by_cases half : 2 * s = d
    · refine .inr ⟨half, ?_⟩
      by_contra even
      exact absurd (odd (by omega)) (by omega)
    · exact .inl (by omega)

/-- Rounding in the block that holds a quotient. -/
theorem nearestRank_block {numerator denominator : Nat} (block mantissa : Nat)
    (positive : 0 < denominator)
    (small : numerator < 2 * blockSize * 2 ^ block * denominator)
    (large : block = 0 ∨ blockSize * 2 ^ block * denominator ≤ numerator)
    (low : 2 * mantissa * (denominator * 2 ^ block) ≤ 2 * numerator + denominator * 2 ^ block)
    (high : 2 * numerator ≤ (2 * mantissa + 1) * (denominator * 2 ^ block))
    (strict : mantissa % 2 = 1 →
      2 * mantissa * (denominator * 2 ^ block) < 2 * numerator + denominator * 2 ^ block ∧
      2 * numerator < (2 * mantissa + 1) * (denominator * 2 ^ block)) :
    nearestRank numerator denominator = block * blockSize + mantissa := by
  have spacing : 0 < denominator * 2 ^ block := Nat.mul_pos positive (Nat.two_pow_pos block)
  have rounded := roundHalfEven_eq low high strict spacing
  have number : (numerator / denominator).log2 - 52 = block := by
    have below : numerator / denominator < 2 ^ (53 + block) := by
      rw [Nat.div_lt_iff_lt_mul positive, Nat.pow_add]
      exact small
    have top : (numerator / denominator).log2 < 53 + block := by
      by_cases none : numerator / denominator = 0
      · rw [none]
        simp
      · exact (Nat.log2_lt none).2 below
    rcases large with rfl | large
    · omega
    · have above : 2 ^ (52 + block) ≤ numerator / denominator := by
        rw [Nat.le_div_iff_mul_le positive, Nat.pow_add]
        exact large
      have some : numerator / denominator ≠ 0 := by
        have := Nat.two_pow_pos (52 + block)
        omega
      have bottom := (Nat.le_log2 some).2 above
      omega
  rw [nearestRank, number]
  exact congrArg _ rounded

/-- Rounding where the spacing is the same on both sides. -/
theorem nearestRank_regular {numerator denominator block mantissa previous : Nat}
    (positive : 0 < denominator)
    (top : mantissa < 2 * blockSize) (bottom : block = 0 ∨ blockSize < mantissa)
    (back : mantissa * 2 ^ block ≤ previous + 2 ^ block)
    (low : (previous + mantissa * 2 ^ block) * denominator ≤ 2 * numerator)
    (high : 2 * numerator ≤ (mantissa * 2 ^ block + (mantissa + 1) * 2 ^ block) * denominator)
    (strict : mantissa % 2 = 1 → (previous + mantissa * 2 ^ block) * denominator < 2 * numerator ∧
      2 * numerator < (mantissa * 2 ^ block + (mantissa + 1) * 2 ^ block) * denominator) :
    nearestRank numerator denominator = block * blockSize + mantissa := by
  have upper : (mantissa * 2 ^ block + (mantissa + 1) * 2 ^ block) * denominator =
      (2 * mantissa + 1) * (denominator * 2 ^ block) := by ring
  have lower : 2 * mantissa * (denominator * 2 ^ block) ≤
      (previous + mantissa * 2 ^ block) * denominator + denominator * 2 ^ block := by
    have := Nat.mul_le_mul_right denominator back
    linarith
  have spacing : 0 < denominator * 2 ^ block := Nat.mul_pos positive (Nat.two_pow_pos block)
  rw [upper] at high strict
  refine nearestRank_block _ _ positive ?_
    (bottom.imp_right fun bottom => ?_) (by omega) high fun odd => ?_
  · have room :
        (2 * mantissa + 2) * (denominator * 2 ^ block) ≤ 2 * (2 * blockSize) *
        (denominator * 2 ^ block) :=
      Nat.mul_le_mul_right _ (by omega)
    linarith
  · have room :
        (2 * blockSize + 1) * (denominator * 2 ^ block) ≤ (2 * mantissa - 1) *
        (denominator * 2 ^ block) :=
      Nat.mul_le_mul_right _ (by omega)
    have whole : (2 * mantissa - 1) * (denominator * 2 ^ block) + denominator * 2 ^ block =
        2 * mantissa * (denominator * 2 ^ block) := by
      rw [← Nat.succ_mul]
      congr 1
      omega
    linarith
  · exact ⟨by have := (strict odd).1; omega, (strict odd).2⟩

/-- Rounding to a power of two, below which the spacing is half of that above. -/
theorem nearestRank_turn {numerator denominator before previous : Nat} (positive : 0 < denominator)
    (back : previous + 2 ^ before = blockSize * 2 ^ (before + 1))
    (low : (previous + blockSize * 2 ^ (before + 1)) * denominator ≤ 2 * numerator)
    (high : 2 * numerator ≤ (blockSize * 2 ^ (before + 1) + (blockSize + 1) * 2 ^ (before + 1)) *
      denominator) :
    nearestRank numerator denominator = (before + 1) * blockSize + blockSize := by
  have size : 2 ≤ blockSize := by decide
  have spacing : 0 < denominator * 2 ^ before := Nat.mul_pos positive (Nat.two_pow_pos before)
  have double : denominator * 2 ^ (before + 1) = 2 * (denominator * 2 ^ before) := by ring
  have upper : 2 * numerator ≤ (2 * blockSize + 1) * (2 * (denominator * 2 ^ before)) := by
    have : (blockSize * 2 ^ (before + 1) + (blockSize + 1) * 2 ^ (before + 1)) * denominator =
      (2 * blockSize + 1) * (2 * (denominator * 2 ^ before)) := by ring
    omega
  have lower :
      4 * blockSize * (denominator * 2 ^ before) ≤ 2 * numerator + denominator * 2 ^ before := by
    have : (previous + 2 ^ before + blockSize * 2 ^ (before + 1)) * denominator =
        4 * blockSize * (denominator * 2 ^ before) := by
      rw [back]
      ring
    have : (previous + 2 ^ before + blockSize * 2 ^ (before + 1)) * denominator =
        (previous + blockSize * 2 ^ (before + 1)) * denominator + denominator * 2 ^ before := by
          ring
    omega
  have even : blockSize % 2 ≠ 1 := by decide
  by_cases reached : blockSize * 2 ^ (before + 1) * denominator ≤ numerator
  · have start : blockSize * 2 ^ (before + 1) * denominator =
        blockSize * (denominator * 2 ^ (before + 1)) := by ring
    refine nearestRank_block _ _ positive ?_ (.inr reached) ?_ ?_ fun odd => absurd odd even
    · have room :=
        Nat.mul_le_mul_right (denominator * 2 ^ before)
          (show 2 * blockSize + 2 ≤ 4 * blockSize by omega)
      rw [Nat.mul_assoc, Nat.mul_comm (2 ^ (before + 1)), double]
      linarith
    · linarith
    · rw [double]
      exact upper
  · have short : numerator < 2 * blockSize * (denominator * 2 ^ before) := by
      have : blockSize * 2 ^ (before + 1) * denominator =
          2 * blockSize * (denominator * 2 ^ before) := by ring
      omega
    have rounded := nearestRank_block before (2 * blockSize) positive
      (by rw [Nat.mul_assoc, Nat.mul_comm (2 ^ before)]; exact short)
      (.inr (by
        have room :=
          Nat.mul_le_mul_right (denominator * 2 ^ before)
            (show 2 * blockSize + 1 ≤ 4 * blockSize by omega)
        have : blockSize * 2 ^ before * denominator = blockSize * (denominator * 2 ^ before) := by
          ring
        linarith))
      (by linarith) (by linarith) fun odd => absurd odd (by omega)
    rw [rounded, Nat.two_mul, ← Nat.add_assoc, ← Nat.succ_mul]

/-- A quotient between the middles to the neighbours of a rank is rounded to that rank. -/
theorem nearestRank_eq {rank numerator denominator : Nat} (positive : 0 < denominator)
    (within : (Decimal.Interval.ofRank rank).holds denominator (2 * numerator) = true) :
    nearestRank numerator denominator = rank := by
  obtain ⟨low, high, strict⟩ : (units (rank - 1) + units rank) * denominator ≤ 2 * numerator ∧
      2 * numerator ≤ (units rank + units (rank + 1)) * denominator ∧
      (rank % 2 = 1 → (units (rank - 1) + units rank) * denominator < 2 * numerator ∧
        2 * numerator < (units rank + units (rank + 1)) * denominator) := by
    unfold Decimal.Interval.holds Decimal.Interval.ofRank at within
    by_cases even : rank % 2 = 0
    · simp only [even, decide_true, if_true, decide_eq_true_eq] at within
      exact ⟨within.1, within.2, fun odd => absurd odd (by omega)⟩
    · simp only [even, decide_false, Bool.false_eq_true, if_false, decide_eq_true_eq] at within
      exact ⟨Nat.le_of_lt within.1, Nat.le_of_lt within.2, fun _ => within⟩
  rcases rank_cases rank with first | ⟨block, place, inside, rfl⟩
  · have here : units rank = rank * 2 ^ 0 := by rw [units_of_lt first, Nat.pow_zero, Nat.mul_one]
    have next : units (rank + 1) = (rank + 1) * 2 ^ 0 := by
      rw [units_next_first first, Nat.pow_zero, Nat.mul_one]
    have back : rank * 2 ^ 0 ≤ units (rank - 1) + 2 ^ 0 := by
      rw [units_of_lt (by omega)]
      omega
    rw [here] at low
    rw [here, next] at high strict
    rw [nearestRank_regular positive (by omega) (.inl rfl) back low high strict, Nat.zero_mul, Nat.zero_add]
  · have parity : ((block + 1) * blockSize + place) % 2 = (blockSize + place) % 2 := by
      have even : blockSize = 2 * 2 ^ 51 := rfl
      have : (block + 1) * blockSize = 2 * ((block + 1) * 2 ^ 51) := by
        rw [even]
        ring
      omega
    have whole :
        (block + 1) * blockSize + place = block * blockSize + (blockSize + place) := by ring
    rw [parity] at strict
    rw [units_block inside] at low
    rw [units_block inside, units_next inside] at high strict
    rw [whole]
    rcases units_previous block inside with ⟨bottom, back⟩ | ⟨rfl, before, rfl, back⟩
    · refine nearestRank_regular positive (by omega) ?_ (Nat.le_of_eq back.symm) low high strict
      rcases bottom with past | first
      · exact .inr (by omega)
      · exact .inl first
    · exact nearestRank_turn positive back low high

theorem units_lt_next (rank : Nat) : units rank < units (rank + 1) := by
  rcases rank_cases rank with first | ⟨block, place, inside, rfl⟩
  · rw [units_of_lt first, units_next_first first]
    exact Nat.lt_succ_self rank
  · rw [units_block inside, units_next inside]
    exact Nat.mul_lt_mul_of_pos_right (Nat.lt_succ_self _) (Nat.two_pow_pos block)

theorem units_strictMono : StrictMono units := strictMono_nat_of_lt_succ units_lt_next

/-- A double lies between the middles to its neighbours. -/
theorem units_within (rank : Nat) :
    (Decimal.Interval.ofRank rank).holds 1 (2 * units rank) = true := by
  have above := units_lt_next rank
  have below : units (rank - 1) ≤ units rank := units_strictMono.monotone (Nat.sub_le rank 1)
  unfold Decimal.Interval.holds Decimal.Interval.ofRank
  by_cases even : rank % 2 = 0
  · simp only [even, decide_true, if_true, decide_eq_true_eq]
    omega
  · have below : units (rank - 1) < units rank := units_strictMono (by omega)
    simp only [even, decide_false, Bool.false_eq_true, if_false, decide_eq_true_eq]
    omega

/-- What is a double stays as it is. -/
theorem nearestRank_units (rank : Nat) : nearestRank (units rank) 1 = rank :=
  nearestRank_eq Nat.one_pos (units_within rank)

/-- A whole number of 53 bits is a double, wherever its bits stand. -/
theorem exists_units {n : Nat} (short : n < 2 * blockSize) (exponent : Nat) (wide : 53 ≤ exponent) :
    ∃ rank ≤ (exponent + 2) * blockSize, units rank = n * 2 ^ exponent := by
  rcases Nat.eq_zero_or_pos n with rfl | positive
  · exact ⟨0, Nat.zero_le _, by rw [Nat.zero_mul, units_of_lt blockSize_pos]⟩
  · have some : n ≠ 0 := Nat.ne_of_gt positive
    have bits : n.log2 < 53 := (Nat.log2_lt some).2 short
    have low := Nat.log2_self_le some
    have high := Nat.lt_log2_self (n := n)
    -- Shifted to the left as far as it goes, it is a place in its block.
    have size : 2 ^ n.log2 * 2 ^ (52 - n.log2) = blockSize := by
      rw [← Nat.pow_add, Nat.add_sub_cancel' (by omega)]
      rfl
    have least : blockSize ≤ n * 2 ^ (52 - n.log2) := size ▸ Nat.mul_le_mul_right _ low
    have most : n * 2 ^ (52 - n.log2) < 2 * blockSize := by
      rw [← size, ← Nat.mul_assoc, Nat.mul_comm 2, ← Nat.pow_succ]
      exact Nat.mul_lt_mul_of_pos_right high (Nat.two_pow_pos _)
    refine ⟨(exponent - (52 - n.log2) + 1) * blockSize + (n * 2 ^ (52 - n.log2) - blockSize), ?_, ?_⟩
    · have : (exponent - (52 - n.log2) + 2) * blockSize ≤ (exponent + 2) * blockSize :=
        Nat.mul_le_mul_right _ (by omega)
      rw [Nat.succ_mul] at this
      omega
    · rw [units_block (by omega), Nat.add_sub_cancel' least, Nat.mul_assoc, ← Nat.pow_add,
        Nat.add_sub_cancel' (by omega)]

/-- A finite double without its fraction is a double. -/
theorem exists_whole {rank : Nat} (finite : rank < infinityRank) :
    ∃ whole < infinityRank, units whole = units rank / unitsPerOne * unitsPerOne := by
  obtain ⟨k, power, size⟩ := unitsPerOne_eq
  by_cases short : units rank / unitsPerOne < 2 * blockSize
  · obtain ⟨whole, bound, same⟩ := exists_units short k (by omega)
    have room : (k + 2) * blockSize < infinityRank :=
      Nat.mul_lt_mul_of_pos_right (by omega) blockSize_pos
    exact ⟨whole, Nat.lt_of_le_of_lt bound room, by rw [same, ← power]⟩
  · refine ⟨rank, finite, (Nat.div_mul_cancel ?_).symm⟩
    have large : 2 * blockSize * unitsPerOne ≤ units rank :=
      (Nat.le_div_iff_mul_le unitsPerOne_pos).1 (Nat.le_of_not_lt short)
    rcases rank_cases rank with first | ⟨block, place, inside, rfl⟩
    · rw [units_of_lt first] at large
      have := Nat.le_mul_of_pos_right (2 * blockSize) unitsPerOne_pos
      omega
    · rw [units_block inside] at large ⊢
      have wide : k ≤ block := by
        by_contra narrow
        have shift : 2 ^ block ≤ unitsPerOne := power ▸ Nat.pow_le_pow_right (by decide) (by omega)
        have : (blockSize + place) * 2 ^ block ≤ (blockSize + place) * unitsPerOne :=
          Nat.mul_le_mul_left _ shift
        have : (blockSize + place) * unitsPerOne < 2 * blockSize * unitsPerOne :=
          Nat.mul_lt_mul_of_pos_right (by omega) unitsPerOne_pos
        omega
      exact power ▸ Dvd.dvd.mul_left (Nat.pow_dvd_pow 2 wide) _

/-- The whole number that a double was cut to is a double, which is cut to the same number. -/
theorem ofInt?_truncate? {x : Binary64} {n : Int} (cut : x.truncate? = some n) :
    ∃ y, ofInt? n = some y ∧ y.truncate? = some n := by
  cases x with
  | nan origin => cases cut
  | number negative rank bounded =>
    rw [truncate?, signedUnits?] at cut
    by_cases finite : rank < infinityRank
    · obtain ⟨whole, bound, same⟩ := exists_whole finite
      rw [if_pos finite, Option.map_some, Option.some.injEq] at cut
      have magnitude : n.natAbs = units rank / unitsPerOne := by
        have size :
            (if negative = true then -(units rank : Int) else units rank).natAbs = units rank := by
          cases negative with
          | true => rw [if_pos rfl, Int.natAbs_neg, Int.natAbs_natCast]
          | false => rw [if_neg Bool.false_ne_true, Int.natAbs_natCast]
        rw [← cut, Int.natAbs_tdiv, size, Int.natAbs_natCast]
        rfl
      have rounded : nearestRank (n.natAbs * unitsPerOne) 1 = whole := by
        rw [magnitude, ← same, nearestRank_units]
      refine ⟨.number (n < 0) whole (Nat.le_of_lt bound), ?_, ?_⟩
      · simp [ofInt?, ofRatio, ofUnits, rounded, isFinite, Nat.min_eq_left (Nat.le_of_lt bound), bound]
      · have exact : (units whole : Int).tdiv unitsPerOne = n.natAbs := by
          rw [same, magnitude, ← Int.ofNat_tdiv, Nat.mul_div_cancel _ unitsPerOne_pos]
        by_cases below : n < 0
        · have units : (number (n < 0) whole (Nat.le_of_lt bound)).signedUnits? =
              some (-(units whole : Int)) := by
            simp [signedUnits?, bound, below]
          rw [truncate?, units, Option.map_some, Int.neg_tdiv, exact,
            Int.ofNat_natAbs_of_nonpos (by omega), Int.neg_neg]
        · have units : (number (n < 0) whole (Nat.le_of_lt bound)).signedUnits? =
              some (units whole : Int) := by
            simp [signedUnits?, bound, below]
          rw [truncate?, units, Option.map_some, exact, Int.natAbs_of_nonneg (by omega)]
    · rw [if_neg finite] at cut
      cases cut

theorem roundHalfEven_bounds (n d : Nat) :
    n / d ≤ roundHalfEven n d ∧ roundHalfEven n d ≤ n / d + 1 := by
  unfold roundHalfEven
  dsimp only
  split <;> omega

/-- From an odd whole number it is rounded up just from the half on. -/
theorem lt_roundHalfEven_of_odd {n d : Nat} (odd : n / d % 2 = 1) : n / d < roundHalfEven n d ↔
    d ≤ 2 * (n % d) := by
  unfold roundHalfEven
  dsimp only
  split <;> omega

/-- A number lies within the block that rounding takes for it. -/
theorem block_bounds (n : Nat) : n < 2 * blockSize * 2 ^ (n.log2 - 52) ∧
    (n.log2 - 52 = 0 ∨ blockSize * 2 ^ (n.log2 - 52) ≤ n) := by
  constructor
  · have power : 2 * blockSize * 2 ^ (n.log2 - 52) = 2 ^ (53 + (n.log2 - 52)) :=
      (Nat.pow_add 2 53 _).symm
    rw [power]
    exact Nat.lt_of_lt_of_le Nat.lt_log2_self (Nat.pow_le_pow_right (by decide) (by omega))
  · by_cases small : n.log2 ≤ 52
    · exact .inl (by omega)
    · have some : n ≠ 0 := by
        rintro rfl
        simp at small
      have power : blockSize * 2 ^ (n.log2 - 52) = 2 ^ (52 + (n.log2 - 52)) :=
        (Nat.pow_add 2 52 _).symm
      rw [power, Nat.add_sub_cancel' (by omega)]
      exact .inr (Nat.log2_self_le some)

/-- The end of a block is reached just from the middle of the block's last space on. -/
theorem end_le_nearestRank {n : Nat} (before : Nat) :
    (before + 3) * blockSize ≤ nearestRank n 1 ↔ (4 * blockSize - 1) * 2 ^ before ≤ n := by
  obtain ⟨below, above⟩ := block_bounds n
  have positive := blockSize_pos
  have rank :
      nearestRank n 1 = (n.log2 - 52) * blockSize + roundHalfEven n (2 ^ (n.log2 - 52)) := by
    rw [nearestRank, Nat.div_one, Nat.one_mul]
    rfl
  rw [rank, Nat.add_mul]
  generalize n.log2 - 52 = block at *
  obtain ⟨floor, ceiling⟩ := roundHalfEven_bounds n (2 ^ block)
  have short : n / 2 ^ block < 2 * blockSize :=
    (Nat.div_lt_iff_lt_mul (Nat.two_pow_pos block)).2 below
  rcases Nat.lt_trichotomy block (before + 1) with lower | rfl | higher
  · have blocks := Nat.mul_le_mul_right blockSize (Nat.le_of_lt_succ lower)
    have spacing :=
      Nat.mul_le_mul_left (2 * blockSize)
        (Nat.pow_le_pow_right Nat.two_pos (Nat.le_of_lt_succ lower))
    have room := Nat.mul_le_mul_right (2 ^ before) (show 2 * blockSize ≤ 4 * blockSize - 1 by omega)
    exact iff_of_false (by omega) (by omega)
  · rw [Nat.add_mul before]
    have parts := Nat.div_add_mod' n (2 ^ (before + 1))
    have double : 2 ^ (before + 1) = 2 * 2 ^ before := Nat.pow_succ'
    by_cases last : n / 2 ^ (before + 1) + 1 = 2 * blockSize
    · have odd := lt_roundHalfEven_of_odd (n := n) (d := 2 ^ (before + 1)) (by omega)
      have least : n / 2 ^ (before + 1) * 2 ^ (before + 1) + 2 ^ before =
          (4 * blockSize - 1) * 2 ^ before := by
        rw [double, ← Nat.mul_assoc, ← Nat.succ_mul]
        congr 1
        rw [← double]
        omega
      omega
    · have spacing :=
        Nat.mul_le_mul_right (2 ^ before)
          (show (n / 2 ^ (before + 1) + 1) * 2 ≤ 4 * blockSize - 1 by omega)
      have past := Nat.lt_mul_div_succ n (Nat.two_pow_pos (before + 1))
      rw [Nat.mul_assoc, ← double, Nat.mul_comm] at spacing
      exact iff_of_false (by omega) (by omega)
  · have large := above.resolve_left (by omega)
    have blocks := Nat.mul_le_mul_right blockSize (show before + 2 ≤ block from higher)
    rw [Nat.add_mul] at blocks
    have spacing :=
      Nat.mul_le_mul_left blockSize
        (Nat.pow_le_pow_right Nat.two_pos (show before + 2 ≤ block from higher))
    have full : blockSize ≤ n / 2 ^ block := (Nat.le_div_iff_mul_le (Nat.two_pow_pos block)).2 large
    have room := Nat.mul_le_mul_right (2 ^ before) (show 4 * blockSize - 1 ≤ blockSize * 4 by omega)
    have quadruple : blockSize * 2 ^ (before + 2) = blockSize * 4 * 2 ^ before := by
      rw [Nat.pow_add, Nat.mul_comm (2 ^ before), ← Nat.mul_assoc]
    exact iff_of_true (by omega) (by omega)

/-- The least whole number that no double stands for: halfway from the largest double to the
power of two behind it. -/
def wholeLimit : Nat := (4 * blockSize - 1) * 2 ^ 970

theorem wholeLimit_eq : ∃ k, wholeLimit = (4 * blockSize - 1) * 2 ^ k ∧ k = 970 := ⟨970, rfl, rfl⟩

theorem ofInt?_eq_none {n : Int} : ofInt? n = none ↔ wholeLimit ≤ n.natAbs := by
  obtain ⟨j, limit, place⟩ := wholeLimit_eq
  obtain ⟨k, power, size⟩ := unitsPerOne_eq
  have overflow : ofInt? n = none ↔
      (j + k + 3) * blockSize ≤ nearestRank (n.natAbs * unitsPerOne) 1 := by
    have last : (j + k + 3) * blockSize = infinityRank := by
      rw [place, size]
      rfl
    rw [last]
    simp [ofInt?, ofRatio, ofUnits, isFinite]
  rw [overflow, end_le_nearestRank, Nat.pow_add, ← Nat.mul_assoc, power, limit]
  exact Nat.mul_le_mul_right_iff (Nat.two_pow_pos k)

end Binary64
end LeadRules
