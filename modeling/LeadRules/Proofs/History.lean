import LeadRules.Proofs.Execution
import LeadRules.Proofs.Window

/-! The history of an executor. Of all results that were returned it holds the latest ones, as
many as it has room for, and what it is asked for is the end of those. A limit of zero is none:
it gives all of them. -/
namespace LeadRules.Executor

variable {x₀ x : Executor} {results : List ActionResult} {size limit : Nat} {failedOnly : Bool}

def Remembers (results : List ActionResult) (size : Nat) (s : Executor × Host) : Prop :=
  s.1.history = results ∧ s.1.historySize = size

theorem emit_remembers (r : Request) : Op.Keeps (Remembers results size) (emit r) := by
  rintro ⟨x, h⟩ kept
  obtain ⟨answer, y, k, run, emission⟩ := emit_run r x h
  obtain ⟨handed, -⟩ := emission.frame
  rw [run, handed]
  exact kept

/-- Nothing that comes before the result touches the history. -/
theorem respected_remembers : Respected fun s t => Remembers results size s →
    Remembers results size t where
  refl _ := id
  trans first second := second ∘ first
  turn _ _ _ := id
  emit := emit_remembers
  log _ _ _ := id

/-- Executing an action remembers what it returns, and nothing where it raises. -/
theorem execute_remembers (a : Action) (lead : Lead) (rule : Value) (s : Executor × Host)
    (kept : Remembers results size s) :
    Remembers
      (if (execute a lead rule s).1.isOk then
        (results ++ (execute a lead rule s).1.toOption.toList).rtake size else results)
      size (execute a lead rule s).2 := by
  obtain ⟨x, h⟩ := s
  have performed := respected_remembers.perform a lead (x, h) kept
  rw [execute_run]
  revert performed
  rcases perform a lead (x, h) with ⟨fault | outcome, y, k⟩
  · exact id
  · rintro ⟨rfl, rfl⟩
    exact ⟨rfl, rfl⟩

/-- Actions executed one after the other, each on any host, with the results that were returned.
Whatever else an executor has may change in between. -/
inductive Course (x₀ : Executor) : List ActionResult → Executor → Prop
  | start : Course x₀ [] x₀
  | executed {results : List ActionResult} {x : Executor} (course : Course x₀ results x)
      (a : Action) (lead : Lead) (rule : Value)
      (h : Host) :
      Course x₀ (results ++ (execute a lead rule (x, h)).1.toOption.toList)
        (execute a lead rule (x, h)).2.1
  | elsewhere {results : List ActionResult} {x y : Executor} (course : Course x₀ results x)
      (history : y.history = x.history)
      (size : y.historySize = x.historySize) : Course x₀ results y

/-- A new executor remembers the latest results, as many as it has room for. -/
theorem Course.remembers (course : Course x₀ results x) (new : x₀.history = []) (h : Host) :
    Remembers (results.rtake x₀.historySize) x₀.historySize (x, h) := by
  induction course generalizing h with
  | start => exact ⟨new.trans List.drop_nil.symm, rfl⟩
  | @executed results x _ a lead rule host ih =>
    have step := execute_remembers a lead rule (x, host) (ih host)
    revert step
    rcases execute a lead rule (x, host) with ⟨fault | result, y, k⟩
    · rintro ⟨history, size⟩
      exact ⟨history.trans (congrArg (List.rtake · _) (List.append_nil results).symm), size⟩
    · rintro ⟨history, size⟩
      exact ⟨history.trans (Window.rtake_rtake_append results result _), size⟩
  | elsewhere _ history size ih => exact ⟨history.trans (ih h).1, size.trans (ih h).2⟩

def asked (failedOnly : Bool) (results : List ActionResult) : List ActionResult :=
  results.filter fun r => !failedOnly || !r.ok

theorem recent_eq (x : Executor) (failedOnly : Bool) (limit : Nat) :
    x.recent failedOnly limit =
      if 0 < limit then (asked failedOnly x.history).rtake limit
      else asked failedOnly x.history := by
  have all : (if failedOnly then x.history.filter (!·.ok) else x.history) =
      asked failedOnly x.history := by
    cases failedOnly <;> simp [asked]
  rw [recent, all]
  rcases Nat.eq_zero_or_pos limit with rfl | some
  · rfl
  · rw [if_pos some, if_pos (Int.natCast_pos.2 some), Int.toNat_natCast]
    rfl

/-- Whatever was executed, the latest results are asked for of those that there was room for, and
of these the last ones are given, so many as the limit says or as there are. But a limit of zero
gives them all, so that it is kept to only where there are none. -/
theorem recent_tells (new : x₀.history = []) (course : Course x₀ results x) (failedOnly : Bool)
    (limit : Nat) :
    (0 < limit → x.recent failedOnly limit = (asked failedOnly (results.rtake x₀.historySize)).rtake limit ∧
      (x.recent failedOnly limit).length =
        min limit (asked failedOnly (results.rtake x₀.historySize)).length) ∧
    (limit = 0 → x.recent failedOnly limit = asked failedOnly (results.rtake x₀.historySize)) ∧
    ((x.recent failedOnly limit).length ≤ limit ↔
      0 < limit ∨ asked failedOnly (results.rtake x₀.historySize) = []) := by
  have history : x.history = results.rtake x₀.historySize :=
    (course.remembers new { now := .first }).1
  rw [recent_eq, history]
  generalize asked failedOnly (results.rtake x₀.historySize) = kept
  rcases Nat.eq_zero_or_pos limit with rfl | some
  · simp
  · have length : (kept.rtake limit).length = min limit kept.length := by
      rw [List.rtake, List.length_drop]
      omega
    rw [if_pos some]
    exact ⟨fun _ => ⟨rfl, length⟩, fun none => absurd none (Nat.ne_of_gt some),
      iff_of_true (length ▸ Nat.min_le_left ..) (.inl some)⟩

def diary : Executor where
  directory := {}
  cursors := {}
  historySize := 2

/-- Of three actions, the second of which fails, the last two are remembered. A limit of one gives
the last of them, and a limit of zero both. -/
theorem recent_tells_diary : ∃ results x, Course diary results x ∧ results.length = 3 ∧
    x.recent false 1 = results.rtake 1 ∧ (x.recent true 5).length = 1 ∧
    x.recent false 0 = results.rtake 2 ∧
    ¬(x.recent false 0).length ≤ 0 := by
  let lead : Lead := { id := "L1" }
  have course : Course diary _ _ :=
    .executed
      (.executed (.executed .start (.addTag "new") lead .null .still)
        (.assignToUser "gone") lead .null .still)
      (.addTag "seen") lead .null .still
  have last := (recent_tells rfl course false 1).1 Nat.one_pos
  have failed := (recent_tells rfl course true 5).1 (by decide)
  obtain ⟨-, all, bounded⟩ := recent_tells rfl course false 0
  refine ⟨_, _, course, ?_, last.1.trans ?_, failed.2.trans ?_, (all rfl).trans ?_, mt bounded.1 ?_⟩
  all_goals decide +kernel

end LeadRules.Executor
