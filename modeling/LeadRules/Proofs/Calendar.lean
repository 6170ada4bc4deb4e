import LeadRules.DateTime.Basic
import Mathlib.Algebra.Ring.Nat

/-! Days and dates. The date of a day is a date of the calendar, and its day is the day
that one started from. -/
namespace LeadRules.Calendar

/-- The days of so many whole years. -/
theorem daysBeforeYear_eq (past : Nat) :
    daysBeforeYear (past + 1) = past * 365 + past / 4 - past / 100 + past / 400 := rfl

theorem sum_monthLengths (year : Nat) :
    (monthLengths year).sum = if year % 4 = 0 ∧ (year % 100 ≠ 0 ∨ year % 400 = 0) then
      366 else 365 := by
  have leap : isLeap year = true ↔
      year % 4 = 0 ∧ (year % 100 ≠ 0 ∨ year % 400 = 0) := by simp [isLeap]
  by_cases h : isLeap year = true
  · rw [if_pos (leap.1 h), monthLengths, if_pos h]
    rfl
  · rw [if_neg (mt leap.2 h), monthLengths, if_neg h]
    rfl

theorem daysBeforeYear_succ (past : Nat) :
    daysBeforeYear (past + 2) = daysBeforeYear (past + 1) + (monthLengths (past + 1)).sum := by
  have start : daysBeforeYear (past + 2) =
      (past + 1) * 365 + (past + 1) / 4 - (past + 1) / 100 + (past + 1) / 400 :=
        daysBeforeYear_eq (past + 1)
  rw [start, daysBeforeYear_eq past, sum_monthLengths]
  -- Each of the three counts of leap years grows just when its number divides the year.
  have four : (past + 1) / 4 = past / 4 + if (past + 1) % 4 = 0 then 1 else 0 := by split <;> omega
  have hundred : (past + 1) / 100 = past / 100 + if (past + 1) % 100 = 0 then 1 else 0 := by
    split <;> omega
  have fourHundred : (past + 1) / 400 = past / 400 + if (past + 1) % 400 = 0 then 1 else 0 := by
    split <;> omega
  have fewer : past / 100 ≤ past / 4 := Nat.div_le_div_left (by decide) (by decide)
  have second : (past + 1) % 400 = 0 → (past + 1) % 100 = 0 := by omega
  have first : (past + 1) % 100 = 0 → (past + 1) % 4 = 0 := by omega
  rw [four, hundred, fourHundred]
  clear start four hundred fourHundred
  generalize past / 4 = a at fewer ⊢
  generalize past / 100 = b at fewer ⊢
  generalize past / 400 = c
  by_cases every : (past + 1) % 4 = 0
  · by_cases century : (past + 1) % 100 = 0
    · by_cases kept : (past + 1) % 400 = 0
      · rw [if_pos every, if_pos century, if_pos kept, if_pos ⟨every, .inr kept⟩]
        omega
      · rw [if_pos every, if_pos century, if_neg kept,
          if_neg fun leap => leap.2.elim (fun other => other century) kept]
        omega
    · rw [if_pos every, if_neg century, if_neg (mt second century), if_pos ⟨every, .inl century⟩]
      omega
  · have century := mt first every
    rw [if_neg every, if_neg century, if_neg (mt second century), if_neg fun leap => every leap.1]
    omega

/-- The year of a day begins before it and ends behind it. -/
theorem yearOfDay_spec (n : Nat) :
    ∃ past, yearOfDay n = past + 1 ∧ daysBeforeYear (past + 1) ≤ n ∧
      n < daysBeforeYear (past + 2) := by
  have low : n * 400 / 146097 * 146097 ≤ n * 400 := Nat.div_mul_le_self ..
  have high : n * 400 < (n * 400 / 146097 + 1) * 146097 := by omega
  unfold yearOfDay
  generalize n * 400 / 146097 = p at low high
  simp only
  split
  next early =>
    rw [daysBeforeYear_eq] at early
    cases p with
    | zero => omega
    | succ p =>
      refine ⟨p, rfl, ?_, ?_⟩
      · rw [daysBeforeYear_eq]
        omega
      · rw [daysBeforeYear_eq]
        omega
  next begun =>
    split
    next late =>
      refine ⟨p + 1, rfl, late, ?_⟩
      rw [daysBeforeYear_eq]
      omega
    next ended => exact ⟨p, rfl, Nat.le_of_not_lt begun, Nat.lt_of_not_le ended⟩

theorem past_lt {past n : Nat} (begun : daysBeforeYear (past + 1) ≤ n) (within : n < dayCount) :
    past < 9999 := by
  have all : dayCount = 3652059 := rfl
  rw [daysBeforeYear_eq] at begun
  omega

/-- The month of a day of the year is the one that the days of the earlier months lead up to. -/
theorem monthOfDay_spec (lengths : List Nat) (month rest : Nat) (within : rest < lengths.sum) :
    ∃ i, ∃ short : i < lengths.length, (lengths.take i).sum ≤ rest ∧
      rest - (lengths.take i).sum < lengths[i] ∧
      monthOfDay month rest lengths = (month + i, rest - (lengths.take i).sum + 1) := by
  induction lengths generalizing month rest with
  | nil => simp at within
  | cons length later ih =>
    unfold monthOfDay
    by_cases here : rest < length
    · exact ⟨0, by simp, by simp, by simpa using here, by simp [here]⟩
    · rw [List.sum_cons] at within
      obtain ⟨i, short, below, bound, found⟩ := ih (month + 1) (rest - length) (by omega)
      refine ⟨i + 1, by simpa using short, ?_, ?_, ?_⟩
      · simp only [List.take_succ_cons, List.sum_cons]
        omega
      · simp only [List.take_succ_cons, List.sum_cons, List.getElem_cons_succ]
        omega
      · rw [if_neg here, found]
        simp only [List.take_succ_cons, List.sum_cons, Prod.mk.injEq]
        omega

structure Date.Valid (d : Date) : Prop where
  year : 0 < d.year ∧ d.year < 10000
  month : 0 < d.month ∧ d.month ≤ 12
  day : 0 < d.day ∧ d.day ≤ daysInMonth d.year d.month

theorem daysBeforeMonth_eq (year i : Nat) :
    daysBeforeMonth year (i + 1) = ((monthLengths year).take i).sum := by
  rw [daysBeforeMonth, List.sum_eq_foldl]
  rfl

theorem ofDayNumber_spec {n : Nat} (within : n < dayCount) :
    (Date.ofDayNumber n).Valid ∧ (Date.ofDayNumber n).dayNumber = n := by
  obtain ⟨past, year, begun, ended⟩ := yearOfDay_spec n
  have early := past_lt begun within
  rw [daysBeforeYear_succ] at ended
  obtain ⟨i, short, below, bound, found⟩ :=
    monthOfDay_spec (monthLengths (past + 1)) 1 (n - daysBeforeYear (past + 1)) (by omega)
  have length : (monthLengths (past + 1)).length = 12 := rfl
  have inMonth : daysInMonth (past + 1) (1 + i) = (monthLengths (past + 1))[i] := by
    rw [daysInMonth, Nat.add_sub_cancel_left, List.getElem?_eq_getElem short]
    rfl
  have date : Date.ofDayNumber n = ⟨past + 1, 1 + i,
      n - daysBeforeYear (past + 1) - ((monthLengths (past + 1)).take i).sum + 1⟩ := by
    simp only [Date.ofDayNumber, year, found]
  rw [date]
  refine ⟨⟨⟨Nat.succ_pos _, Nat.succ_lt_succ early⟩, ⟨?_, ?_⟩, Nat.succ_pos _, ?_⟩, ?_⟩
  · show 0 < 1 + i
    omega
  · show 1 + i ≤ 12
    omega
  · show n - daysBeforeYear (past + 1) - _ + 1 ≤ daysInMonth (past + 1) (1 + i)
    rw [inMonth]
    omega
  · simp only [Date.dayNumber, Nat.add_comm 1 i, daysBeforeMonth_eq]
    omega

end LeadRules.Calendar
