import LeadRules.Proofs.Instants
import LeadRules.Webhook

/-! Pauses between attempts. A double times a power of two is exact as long as it is finite, so
that each pause is just twice as long as the one before. -/
namespace LeadRules

namespace Binary64

variable {x : Binary64} {i : Nat}

/-- Twice a magnitude is a magnitude, if need be one beyond all finite ones. -/
theorem exists_double (rank : Nat) : ∃ twice, units twice = 2 * units rank := by
  rcases rank_cases rank with first | ⟨block, place, inside, rfl⟩
  · rw [units_of_lt first]
    by_cases stays : 2 * rank < blockSize
    · exact ⟨2 * rank, units_of_lt stays⟩
    · refine ⟨(0 + 1) * blockSize + (2 * rank - blockSize), ?_⟩
      rw [units_block (by omega)]
      omega
  · refine ⟨(block + 1 + 1) * blockSize + place, ?_⟩
    rw [units_block inside, units_block inside, Nat.pow_succ', Nat.mul_left_comm]

theorem exists_scaled (rank : Nat) (times : Nat) :
    ∃ scaled, units scaled = units rank * 2 ^ times := by
  induction times with
  | zero => exact ⟨rank, (Nat.mul_one _).symm⟩
  | succ times ih =>
    obtain ⟨scaled, same⟩ := ih
    obtain ⟨twice, double⟩ := exists_double scaled
    refine ⟨twice, ?_⟩
    rw [double, same, Nat.pow_succ', Nat.mul_left_comm]

/-- The powers of two up to the largest one that is a double. -/
theorem ofNat_two_pow (few : i < 1024) : ofInt? (2 ^ i) = some (ofNat (2 ^ i)) ∧
    ∃ rank bounded, ofNat (2 ^ i) = .number false rank bounded ∧ rank < infinityRank ∧
      units rank = 2 ^ i * unitsPerOne := by
  obtain ⟨k, limit, place⟩ := wholeLimit_eq
  obtain ⟨exponent, power, -⟩ := unitsPerOne_eq
  have below : 2 ^ i < wholeLimit := by
    calc 2 ^ i ≤ 2 ^ (53 + k) := Nat.pow_le_pow_right Nat.two_pos (by omega)
      _ = 2 * blockSize * 2 ^ k := Nat.pow_add 2 53 k
      _ < (4 * blockSize - 1) * 2 ^ k := Nat.mul_lt_mul_of_pos_right (by decide) (Nat.two_pow_pos k)
      _ = wholeLimit := limit.symm
  have magnitude : ((2 : Int) ^ i).natAbs = 2 ^ i := by rw [Int.natAbs_pow]; rfl
  have sign : decide ((2 : Int) ^ i < 0) = false :=
    decide_eq_false (Int.not_lt.2 (Int.le_of_lt (Int.pow_pos (by decide))))
  have whole :
      ofInt? (2 ^ i) = if (ofNat (2 ^ i)).isFinite then some (ofNat (2 ^ i)) else none := by
    unfold ofInt?
    rw [magnitude, sign]
    rfl
  have finite : (ofNat (2 ^ i)).isFinite = true := by
    by_contra infinite
    rw [if_neg infinite, ofInt?_eq_none, magnitude] at whole
    exact absurd below (Nat.not_lt.2 whole)
  rw [if_pos finite] at whole
  obtain ⟨rank, same⟩ := exists_scaled 1 (i + exponent)
  rw [units_of_lt (show 1 < blockSize by decide), Nat.one_mul, Nat.pow_add, ← power] at same
  have rounded : nearestRank (2 ^ i * unitsPerOne) 1 = rank := by rw [← same, nearestRank_units]
  have bound : rank < infinityRank := by
    simp only [ofNat, ofRatio, ofUnits, isFinite, rounded, decide_eq_true_eq] at finite
    omega
  refine ⟨whole, rank, Nat.le_of_lt bound, ?_, bound, same⟩
  simp only [ofNat, ofRatio, ofUnits, rounded, Nat.min_eq_left (Nat.le_of_lt bound)]

/-- A double times a power of two is exact unless it is too large. -/
theorem mul_two_pow (few : i < 1024) (finite : (x.mul (ofNat (2 ^ i))).isFinite = true) :
    ∃ n, x.signedUnits? = some n ∧ (x.mul (ofNat (2 ^ i))).signedUnits? = some (n * 2 ^ i) := by
  obtain ⟨-, rank, bounded, factor, bound, same⟩ := ofNat_two_pow few
  rw [factor] at finite ⊢
  cases x with
  | nan origin => cases finite
  | number negative r r_bound =>
    by_cases inside : r < infinityRank
    · obtain ⟨scaled, product⟩ := exists_scaled r i
      have times : units r * units rank = units scaled * unitsPerOne := by
        rw [same, product, Nat.mul_assoc]
      simp only [mul, inside, bound, and_self, if_true, times, Bool.bne_false] at finite ⊢
      have rounded : scaled < infinityRank := by
        simp only [ofUnits, isFinite, nearestRank_scaled scaled unitsPerOne_pos,
          decide_eq_true_eq] at finite
        omega
      refine ⟨_, if_pos inside, ?_⟩
      rw [signedUnits?_ofUnits rounded unitsPerOne_pos, product]
      cases negative <;> simp
    · simp only [mul, inside, false_and, if_false] at finite
      split at finite
      · cases finite
      · simp [infinity, isFinite] at finite

end Binary64

/-- A pause: the backoff doubled so many times. A whole number stays whole. -/
structure Value.Doubled (backoff : Value) (times : Nat) (pause : Value) : Prop where
  amount : ∃ n, backoff.amount? = some (.units n) ∧ pause.amount? = some (.units (n * 2 ^ times))
  whole : pause.asInt? = backoff.asInt?.map (· * 2 ^ times)

def Value.StaysFinite (backoff : Value) (times : Nat) : Prop :=
  backoff.asInt?.isSome = true ∨ ∃ x, backoff = .float x ∧
  (x.mul (.ofNat (2 ^ times))).isFinite = true

/-- Pauses double as long as doubles do not run out. -/
theorem Settings.pauseAfter_doubled {s : Settings} {i : Nat} (few : i < 1024)
    (finite : s.webhookBackoff.StaysFinite i) :
    ∃ time, s.pauseAfter i = .ok time ∧ s.webhookBackoff.Doubled i time := by
  have power : ((Nat.pow 2 i : Nat) : Int) = 2 ^ i := Int.natCast_pow 2 i
  unfold pauseAfter
  rcases finite with whole | ⟨x, number, finite⟩
  · obtain ⟨n, whole⟩ := Option.isSome_iff_exists.1 whole
    have amount := Value.amount?_of_asInt whole
    rw [Amount.whole] at amount
    simp only [whole, power]
    refine ⟨_, rfl, ⟨_, amount, ?_⟩, ?_⟩
    · rw [Value.amount?, Amount.whole, Int.mul_right_comm]
    · rw [whole]
      rfl
  · obtain ⟨n, before, after⟩ := Binary64.mul_two_pow few finite
    have factor : Binary64.ofInt? (Nat.pow 2 i) = some (.ofNat (2 ^ i)) := by
      rw [power]
      exact (Binary64.ofNat_two_pow few).1
    -- The power is hidden, or the kernel would try to compute it.
    generalize Binary64.ofInt? (Nat.pow 2 i) = hidden at *
    rw [number, factor]
    exact ⟨_, rfl, ⟨n, Binary64.amount?_eq_units.2 before, Binary64.amount?_eq_units.2 after⟩, rfl⟩

end LeadRules
