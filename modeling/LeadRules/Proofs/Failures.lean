import LeadRules.Proofs.Calls
import LeadRules.Proofs.Changes
import LeadRules.Proofs.Places

/-! What a change of the rules leaves behind when it fails. One that is refused for what it asks
leaves everything as it was. Any other is made in memory before it is saved, and is not taken
back: when it cannot be saved it stays in memory, while the file keeps what it had; and a deletion
that others are told of has been saved by then. -/
namespace LeadRules.Repository

/-- Carries out a change of rules that are part of something larger, where others hear of a
deletion. -/
def carryOutOn {σ : Type} (rules : σ → Repository) (setRules : σ → Repository → σ)
    (forget : Text → StoreOp σ Unit) :
    Change → StoreOp σ Answer
  | .remove id => return .found (← delete rules setRules id (forget id))
  | c => (carryOut c).onPart (fun s => (rules s.1, s.2)) fun s part => (setRules s.1 part.1, part.2)

def Carries (h : Host) (s t : Repository) : Change → Prop
  | .create name trigger action conditions description isEnabled =>
    t = (Edit.put (created h name trigger action conditions description isEnabled)).apply s
  | .importRule v =>
    ∃ r, (Rule.ofWire h.now v h.ids).1 = .ok r ∧ s.get? r.id = none ∧ t = (Edit.put r).apply s
  | .update id u => ∃ r r', s.get? id = some r ∧ Updates u h.now r r' ∧ t = (Edit.put r').apply s
  | .setEnabled id enabled =>
    ∃ r r', s.get? id = some r ∧ Updates { isEnabled := some (.bool enabled) } h.now r r' ∧
    t = (Edit.put r').apply s
  | .remove id => s.get? id ≠ none ∧ t = (Edit.drop id).apply s

section Failed

variable {s t : Repository} {h k : Host} {c : Change} {e : Edit} {a : Answer} {notes : List Text}
  {fault : Fault}

theorem carries_of_planUpdate {id : Text} {u : RuleUpdate} {answer : Option Rule → Answer}
    (planned : planUpdate s h.now id u answer = .edit e a notes) :
    ∃ r r', s.get? id = some r ∧ Updates u h.now r r' ∧ e = .put r' := by
  have ways := planned_planUpdate s h.now id u answer
  rw [planned] at ways
  cases ways with
  | edited found updates => exact ⟨_, _, found, updates, rfl⟩

/-- The edit that a change comes to is the one that it asks for. -/
theorem carries_of_plan (planned : (plan s h c).1 = .edit e a notes) :
    Carries h s (e.apply s) c := by
  cases c with
  | create name trigger action conditions description isEnabled =>
    simp only [plan] at planned
    split at planned <;> cases planned
    rfl
  | importRule v =>
    simp only [plan] at planned
    rcases read : Rule.ofWire h.now v h.ids with ⟨fault | r, ids⟩ <;> rw [read] at planned <;>
      simp only at planned
    · cases planned
    · split at planned <;> cases planned
      next absent => exact ⟨r, congrArg Prod.fst read, Option.not_isSome_iff_eq_none.1 absent, rfl⟩
  | update id u =>
    obtain ⟨r, r', found, updates, rfl⟩ := carries_of_planUpdate planned
    exact ⟨r, r', found, updates, rfl⟩
  | setEnabled id enabled =>
    simp only [plan] at planned
    obtain ⟨r, r', found, updates, rfl⟩ := carries_of_planUpdate planned
    exact ⟨r, r', found, updates, rfl⟩
  | remove id =>
    simp only [plan] at planned
    split at planned <;> cases planned
    next present => exact ⟨Option.isSome_iff_ne_none.1 present, rfl⟩

theorem Edit.apply_path (s : Repository) (e : Edit) : (e.apply s).path = s.path := by
  cases e <;> rfl

theorem plan_files (s : Repository) (h : Host) (c : Change) : (plan s h c).2.files = h.files := by
  cases c with
  | create name trigger action conditions description isEnabled =>
    rw [plan]
    split <;> rfl
  | _ => rfl

/-- Rules that could not be saved are still in memory, and the file has what it had. -/
theorem save_failed (failed : save (s, h) = (.error fault, (t, k))) :
    t = s ∧ ∀ p, s.path = some p → FileTree.Spares p.place h.files k.files := by
  rw [save_run] at failed
  cases wire : s.toWire with
  | error fault' =>
    rw [wire] at failed
    cases failed
    exact ⟨rfl, fun p _ => .refl p.place _⟩
  | ok v =>
    rw [wire] at failed
    simp only at failed
    rcases saved : StateFile.save s.path v h with ⟨x, l⟩
    rw [saved] at failed
    cases failed
    refine ⟨rfl, fun p path => ?_⟩
    rw [path] at saved
    rcases StateFile.save_place p v h with ⟨l, done, -⟩ | ⟨fault', l, refused, spares⟩
    · cases done.symm.trans saved
    · cases refused.symm.trans saved
      exact spares

inductive Failed {σ : Type} (rules : σ → Repository) (setRules : σ → Repository → σ)
    (forget : Text → StoreOp σ Unit) (x : σ)
    (h : Host) (c : Change) (fault : Fault) : σ → Host → Prop
  /-- It is refused for what it asks. -/
  | refused {y : σ} {k : Host} (cause : Refuses h (rules x).rules.values fault c)
      (memory : rules y = rules x)
      (files : k.files = h.files) : Failed rules setRules forget x h c fault y k
  /-- The rules cannot be saved once the change has been made. -/
  | unsaved {y : σ} {k l : Host} (made : Carries h (rules x) (rules y) c)
      (drawn : l.files = h.files)
      (failed : save (rules y, l) = (.error fault, (rules y, k)))
      (spared : ∀ p, (rules x).path = some p → FileTree.Spares p.place h.files k.files) :
      Failed rules setRules forget x h c fault y k
  /-- A rule has been deleted, also in the file, when somebody who hears of it fails. -/
  | untold {y : σ} {k l : Host} {id : Text} {t : Repository} (deletion : c = .remove id)
      (made : Carries h (rules x) t c)
      (saved : remove id (rules x, h) = (.ok true, (t, l)))
        (failed : forget id (setRules x t, l) = (.error fault, (y, k))) :
      Failed rules setRules forget x h c fault y k

/-- A change that nobody else hears of fails as its plan does. -/
theorem failed_of_carryOut {σ : Type} {rules : σ → Repository} {setRules : σ → Repository → σ}
    {forget : Text → StoreOp σ Unit}
    {x : σ} (part : ∀ x t, rules (setRules x t) = t) (keyed : (rules x).Keyed)
    (run : carryOut c (rules x, h) = (.error fault, (t, k))) :
    Failed rules setRules forget x h c fault (setRules x t) k := by
  rw [carryOut_plan] at run
  cases planned : (plan (rules x) h c).1 with
  | answer y =>
    rw [planned, Plan.run, Op.run_ofExcept] at run
    cases run
    exact .refused (refuses_of_plan keyed planned) (part ..) (plan_files ..)
  | edit e a notes =>
    rw [planned, run_edit] at run
    rcases written : save (e.apply (rules x), (plan (rules x) h c).2) with ⟨fault' | _, t', l⟩ <;>
      rw [written] at run <;> cases run
    obtain ⟨rfl, spared⟩ := save_failed written
    rw [plan_files, Edit.apply_path] at spared
    refine .unsaved ?_ (plan_files (rules x) h c) ?_ spared
    · rw [part]
      exact carries_of_plan planned
    · rw [part]
      exact written

theorem remove_run (id : Text) (s : Repository) (h : Host) : remove id (s, h) =
    if s.rules.contains id then
      match save ((Edit.drop id).apply s, h) with
      | (.ok _, t) => (.ok true, t)
      | (.error fault, t) => (.error fault, t)
    else (.ok false, (s, h)) := by
  simp only [remove, Op.run_bind, Op.run_store, Op.run_ite, Op.run_setStore, Op.run_pure]
  cases s.rules.contains id with
  | false => rfl
  | true =>
    simp only [Bool.not_true, Bool.false_eq_true, if_false, if_true, Edit.apply]
    rcases save _ with ⟨fault | _, t⟩ <;> rfl

/-- A change that fails leaves the file of the rules as it was, unless it is a deletion that
somebody else was told of. It leaves the rules in memory as they were, unless they could not be
saved: then just what was asked for is in memory. -/
theorem raised_change {σ : Type} {rules : σ → Repository} {setRules : σ → Repository → σ}
    {forget : Text → StoreOp σ Unit}
    {x y : σ} (part : ∀ x t, rules (setRules x t) = t) (keyed : (rules x).Keyed)
    (run : carryOutOn rules setRules forget c (x, h) = (.error fault, (y, k))) :
    Failed rules setRules forget x h c fault y k := by
  have alone
      (run : ((carryOut c).onPart (fun s => (rules s.1, s.2))
        fun s part => (setRules s.1 part.1, part.2) : StoreOp σ Answer) (x, h) =
          (.error fault, (y, k))) :
      Failed rules setRules forget x h c fault y k := by
    rw [Op.run_onPart] at run
    rcases carried : carryOut c (rules x, h) with ⟨answer, t, l⟩
    rw [carried] at run
    cases run
    exact failed_of_carryOut part keyed carried
  cases c with
  | remove id =>
    rw [carryOutOn, Op.run_bind, delete, Op.run_bind, Op.run_onPart, remove_run] at run
    cases known : (rules x).rules.contains id with
    | false =>
      rw [known] at run
      cases run
    | true =>
      have made : Carries h (rules x) ((Edit.drop id).apply (rules x)) (.remove id) :=
        ⟨Option.isSome_iff_ne_none.1 known, rfl⟩
      have saved := remove_run id (rules x) h
      simp only [known, if_true] at run saved
      rcases written : save ((Edit.drop id).apply (rules x), h) with ⟨fault' | _, t, l⟩ <;>
        rw [written] at run saved
      · obtain ⟨rfl, spared⟩ := save_failed written
        cases run
        refine .unsaved ?_ rfl ?_ spared
        · rw [part]
          exact made
        · rw [part]
          exact written
      · simp only [Bool.not_true, Bool.false_eq_true, if_false, Op.run_bind] at run
        rcases told : forget id (setRules x t, l) with ⟨fault' | _, z⟩ <;>
          rw [told] at run <;> cases run
        obtain rfl : (Edit.drop id).apply (rules x) = t := by
          rw [← save_state ((Edit.drop id).apply (rules x)) h, written]
        exact .untold rfl made saved told
  | _ => exact alone run

end Failed

def greeting : Value :=
  .record [("id", .text "hello"), ("name", .text "Hello"),
    ("trigger", .record [("type", .text "NEW_LEAD")]),
  ("action", .record [("type", .text "ADD_TAG"), ("tag", .text "new")]),
  ("createdAt", .text "2024-01-01T00:00:00")]

def jammed : Repository × Host :=
  ({ path := some (.ofText "rules.json") },
    { Host.still with files := ⟨.ofList [((FilePath.ofText "rules.json.tmp").place, .folder)]⟩ })

/-- The rule is in memory, although the call that was to store it fails and nothing has been
written. -/
theorem import_stays_unsaved :
    load (some (.ofText "rules.json")) jammed.2 = (.ok jammed.1, jammed.2) ∧
    (carryOut (.importRule greeting) jammed).1.isOk = false ∧ jammed.1.get? "hello" = none ∧
    ((carryOut (.importRule greeting) jammed).2.1.get? "hello").isSome = true :=
  ⟨rfl, by decide +kernel, rfl, by decide +kernel⟩

/-- An import that fails for the folder is one that could not be saved. -/
theorem raised_change_jammed : ∃ fault t k,
    carryOutOn (fun s => s) (fun _ s => s) (fun _ => pure ()) (.importRule greeting) jammed =
      (.error fault, (t, k)) ∧
    Carries jammed.2 jammed.1 t (.importRule greeting) ∧
      FileTree.Spares (FilePath.ofText "rules.json").place jammed.2.files k.files := by
  have keyed : jammed.1.Keyed := keyed_ofList jammed.1.path []
  have raised :
      (carryOutOn (fun s => s) (fun _ s => s) (fun _ => pure ())
        (.importRule greeting) jammed).1.isOk = false := by
    decide +kernel
  have grown :
      ((carryOutOn (fun s => s) (fun _ s => s) (fun _ => pure ())
        (.importRule greeting) jammed).2.1.get? "hello").isSome = true := by
    decide +kernel
  rcases run : carryOutOn (fun s => s) (fun _ s => s) (fun _ => pure ()) (.importRule greeting)
    jammed with ⟨fault | a, t, k⟩
  · have failed :
        Failed (fun s => s) (fun _ s => s) (fun _ => pure ()) jammed.1 jammed.2
        (.importRule greeting) fault t k :=
      raised_change (fun _ _ => rfl) keyed run
    cases failed with
    | refused cause memory files =>
      rw [run, memory] at grown
      cases grown
    | unsaved made drawn failed spared => exact ⟨fault, t, k, rfl, made, spared _ rfl⟩
    | untold deletion => cases deletion
  · rw [run] at raised
    cases raised

end LeadRules.Repository
