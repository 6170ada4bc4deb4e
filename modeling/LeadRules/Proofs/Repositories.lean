import LeadRules.Proofs.Operation
import LeadRules.Proofs.OrderedMap
import LeadRules.Repository

/-! What all that is done to a repository keeps. Its rules stand under their own identifiers, and
those that it makes or reads itself have identifiers that are not empty. -/
namespace LeadRules.Repository

/-- A property that stays when a rule with a fit identifier is stored or a rule is dropped. -/
structure Lasting (Fit : Text → Prop) (I : Repository → Prop) : Prop where
  put : ∀ {s r}, I s → Fit r.id → I { s with rules := s.rules.put r.id r }
  erase : ∀ {s id}, I s → I { s with rules := s.rules.erase id }
  held : ∀ {s id r}, I s → s.get? id = some r → Fit r.id

variable {α : Type} {Fit : Text → Prop} {I : Repository → Prop}

abbrev Keeps (I : Repository → Prop) (op : StoreOp Repository α) : Prop :=
  Op.Keeps (fun s => I s.1) op

theorem onHost_keeps (op : Op Host α) : Keeps I (Op.onHost op) := fun _ => id

theorem store_keeps {next : Repository → StoreOp Repository α}
    (later : ∀ s, I s → Keeps I (next s)) :
    Keeps I (Op.store >>= next) := fun s kept => later s.1 kept s kept

theorem save_keeps : Keeps I save :=
  store_keeps fun s _ => .bind (.ofExcept s.toWire) fun _ => onHost_keeps _

theorem drawShort_run (length : Nat) (s : IdSource) :
    IdSource.drawShort length s =
      (.ok ((IdSource.identifier (s.drawn + 1)).take length), ⟨s.drawn + 1⟩) := rfl

namespace Lasting

variable (lasting : Lasting Fit I)
include lasting

theorem put_keeps {r : Rule} (fit : Fit r.id) : Keeps I (Repository.put r) := by
  rintro ⟨s, h⟩ kept
  exact save_keeps ({ s with rules := s.rules.put r.id r }, h) (lasting.put kept fit)

theorem add_keeps {r : Rule} (fit : Fit r.id) : Keeps I (add r) := by
  refine store_keeps fun s _ => .ite (.throw _) ?_
  exact .bind (lasting.put_keeps fit) fun _ => .pure r

theorem importRule_keeps
    (read : ∀ {now v ids r}, (Rule.ofWire now v ids).1 = .ok r → Fit r.id) (v : Value) :
    Keeps I (importRule v) := by
  refine .bind .get fun s => .bind_result (onHost_keeps _) fun t r u run => lasting.add_keeps ?_
  exact read (congrArg Prod.fst run)

theorem create_keeps (drawn : ∀ n, Fit ((IdSource.identifier n).take 12)) (name : Value)
    (trigger : Trigger)
    (action : Action) (conditions : List Condition) (description isEnabled : Value) :
    Keeps I (create name trigger action conditions description isEnabled) := by
  refine .ite (.throw _) (.bind_result (onHost_keeps _) fun s id t run => ?_)
  have fit : Fit id := by
    rw [Op.run_onHost, Op.run_drawing, drawShort_run] at run
    obtain rfl := Except.ok.inj (congrArg Prod.fst run)
    exact drawn _
  refine .bind .get fun _ => .bind (lasting.put_keeps fit) fun _ => ?_
  exact .bind (onHost_keeps _) fun _ => .pure _

theorem update_keeps (id : Text) (u : RuleUpdate) : Keeps I (update id u) := by
  unfold update
  split
  · exact .throw _
  · refine store_keeps fun s kept => ?_
    split
    next r found =>
      have fit : Fit r.id := lasting.held kept found
      refine .bind (.ofExcept _) fun parts => .bind .get fun _ => ?_
      exact .bind (lasting.put_keeps fit) fun _ => .pure _
    next => exact .pure none

theorem remove_keeps (id : Text) : Keeps I (remove id) := by
  rintro ⟨s, h⟩ kept
  have saved : Keeps I (save >>= fun _ => Pure.pure true : StoreOp Repository Bool) :=
    .bind save_keeps fun _ => .pure true
  rw [remove, Op.run_bind, Op.run_store]
  cases known : s.rules.contains id with
  | false => simpa [known] using kept
  | true =>
    simp only [known, Bool.not_true, Bool.false_eq_true, if_false]
    exact saved ({ s with rules := s.rules.erase id }, h) (lasting.erase kept)

end Lasting

/-- Every rule is stored under its own identifier. -/
def Keyed (s : Repository) : Prop := ∀ entry ∈ s.rules.entries, entry.1 = entry.2.id

theorem keyed_lasting : Lasting (fun _ => True) Keyed where
  put {s r} keyed _ := by
    intro entry member
    rcases Entries.mem_put member with old | rfl
    · exact keyed entry old
    · rfl
  erase keyed := fun entry member => keyed entry (List.mem_filter.1 member).1
  held _ _ := trivial

/-- The rules that are stored have identifiers of their own. -/
theorem Keyed.nodup {s : Repository} (keyed : s.Keyed) : (s.rules.values.map (·.id)).Nodup := by
  have same : s.rules.values.map (·.id) = s.rules.keys := by
    simp only [OrderedMap.values, OrderedMap.keys, List.map_map]
    exact List.map_congr_left fun entry member => (keyed entry member).symm
  rw [same]
  exact s.rules.nodup_keys

/-- Rules that were loaded have what each rule stored has. -/
theorem Lasting.ofList (lasting : Lasting Fit I) {path : Option FilePath} (start : I { path })
    {loaded : List Rule}
    (fit : ∀ r ∈ loaded, Fit r.id) :
    I { path, rules := .ofList (loaded.map fun r => (r.id, r)) } := by
  suffices grown : ∀ rules : OrderedMap Text Rule, I { path, rules } →
      I { path, rules := (loaded.map fun r => (r.id, r)).foldl (fun m e => m.put e.1 e.2) rules }
        from
    grown .empty start
  induction loaded with
  | nil => exact fun _ kept => kept
  | cons r rest ih =>
    intro rules kept
    exact ih (fun r member => fit r (List.mem_cons_of_mem _ member)) _
      (lasting.put kept (fit r List.mem_cons_self))

theorem keyed_ofList (path : Option FilePath) (loaded : List Rule) :
    Keyed { path, rules := .ofList (loaded.map fun r => (r.id, r)) } :=
  keyed_lasting.ofList (fun _ member => absurd member List.not_mem_nil) fun _ _ => trivial

end LeadRules.Repository
