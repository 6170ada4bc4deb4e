import LeadRules.Proofs.Codec
import LeadRules.Proofs.CursorFile
import LeadRules.Proofs.Places

/-! Repositories that are opened on a file with entries of any kind. An entry that is called
malformed is skipped and hides no other. A few that are no rules are not called so when they are
read: a time that cannot be read, a number that no double holds, days that are not finite, a
condition that is no object. The first of these keeps the repository from being opened. -/
namespace LeadRules

def Fault.isMalformed : Fault → Bool
  | malformed _ => true
  | _ => false

namespace Value

variable {v : Value} {entries : List (Value × Value)}

def IsHuge (v : Value) : Prop := ∃ n, v = .int n ∧ Binary64.ofInt? n = none

theorem toNumber_raises (v : Value) :
    Raises (fun fault => v.IsHuge ∧ fault = .overflow .wholeToDouble) v.toNumber := by
  fun_cases toNumber v with
  | case1 => exact .ok _
  | case2 n huge => exact .error ⟨⟨n, rfl, huge⟩, rfl⟩
  | _ => exact .ok _

theorem toDouble_raises (v : Value) :
    Raises (fun fault => v.IsHuge ∧ fault = .overflow .wholeToDouble) v.toDouble := by
  fun_cases toDouble v with
  | case1 b =>
    -- Both truth values have a double, so the refusal cannot be one of theirs.
    have small : ∀ b : Bool, (Binary64.ofInt? b.toNat).isSome = true := by decide +kernel
    intro fault failed
    obtain ⟨⟨n, same, huge⟩, -⟩ := toNumber_raises _ fault failed
    obtain rfl := Value.int.inj same
    exact absurd (small b) (by rw [huge]; exact Bool.false_ne_true)
  | case2 v _ => exact toNumber_raises v

theorem numeric_raises (key : String) (v : Value) :
    Raises (fun fault => fault.isMalformed = true ∨ (v.IsHuge ∧ fault = .overflow .wholeToDouble))
      (v.numeric key) := by
  refine .bind ((toDouble_raises v).mono fun _ => .inr) fun x => ?_
  cases x with
  | some x => exact .ok _
  | none => exact .error (.inl rfl)

theorem filled_raises (type key : String) (entries : List (Value × Value)) :
    Raises (fun fault => fault.isMalformed = true) (filled type key entries) :=
      .ite (fun _ => .error rfl) fun _ => .ok _

end Value

namespace Trigger

def IsHuge (v : Value) : Prop :=
  ∃ entries, v = .map entries ∧
    ((Value.member "hours" entries).IsHuge ∨ (Value.member "score" entries).IsHuge)

theorem ofWire_raises (v : Value) :
    Raises (fun fault => fault.isMalformed = true ∨ (IsHuge v ∧ fault = .overflow .wholeToDouble))
      (ofWire v) := by
  have checked (t : Trigger) :
      Raises (fun fault => fault.isMalformed = true ∨ (IsHuge v ∧ fault = .overflow .wholeToDouble))
        t.check := by
    cases t with
    | leadUntouched hours => exact .ite (fun _ => .error (.inl rfl)) fun _ => .ok _
    | stageChanged toStage => exact .ite (fun _ => .error (.inl rfl)) fun _ => .ok _
    | _ => exact .ok _
  unfold ofWire
  split
  next entries =>
    have level {type key : String} {next : Binary64 → Except Fault Trigger}
        (huge : (Value.member key entries).IsHuge → IsHuge (.map entries))
        (later : ∀ x,
          Raises (fun fault => fault.isMalformed = true ∨
            (IsHuge (.map entries) ∧ fault = .overflow .wholeToDouble))
          (next x)) :
        Raises (fun fault => fault.isMalformed = true ∨
          (IsHuge (.map entries) ∧ fault = .overflow .wholeToDouble))
          (Value.filled type key entries >>= fun v => v.numeric key >>= next) := by
      refine .bind_result ((Value.filled_raises _ _ _).mono fun _ => .inl) fun v given =>
        .bind ?_ later
      obtain rfl := (Value.of_filled given).1
      exact (Value.numeric_raises _ _).mono fun fault => Or.imp_right fun ⟨large, same⟩ =>
        ⟨huge large, same⟩
    dsimp only
    split
    · split
      · split
        · exact .ok _
        · exact level (fun huge => ⟨entries, rfl, .inl huge⟩) fun _ => checked _
        · exact .bind ((Value.filled_raises _ _ _).mono fun _ => .inl) fun _ => checked _
        · exact .ok _
        · exact level (fun huge => ⟨entries, rfl, .inr huge⟩) fun _ => .ok _
      · exact .error (.inl rfl)
    · exact .error (.inl rfl)
  · exact .error (.inl rfl)

end Trigger

namespace Action

/-- Why the days of a task are not taken, though they are a number. -/
inductive NoDays : Value → Fault → Prop
  | huge {entries : List (Value × Value)}
      (large : (Value.memberOr "dueDays" (.int 1) entries).IsHuge) :
      NoDays (.map entries) (.overflow .wholeToDouble)
  /-- NaN or an infinity. -/
  | boundless {entries : List (Value × Value)} {x : Binary64} {fault : Fault}
      (number : (Value.memberOr "dueDays" (.int 1) entries).toDouble = .ok (some x))
        (uncut : x.toWhole = .error fault) :
      NoDays (.map entries) fault

theorem ofWire_raises (v : Value) :
    Raises (fun fault => fault.isMalformed = true ∨ NoDays v fault) (ofWire v) := by
  have checked (a : Action) :
      Raises (fun fault => fault.isMalformed = true ∨ NoDays v fault) a.check := by
    cases a with
    | addTag tag => exact .ite (fun _ => .error (.inl rfl)) fun _ => .ok _
    | sendWebhook url => exact .ite (fun _ => .ok _) fun _ => .error (.inl rfl)
    | createTask title dueDays =>
      exact .ite (fun _ => .error (.inl rfl)) fun _ =>
        .ite (fun _ => .error (.inl rfl)) fun _ => .ok _
    | _ => exact .ok _
  have filled {entries : List (Value × Value)} {type key : String}
    {next : Text → Except Fault Action}
      (later : ∀ t, Raises (fun fault => fault.isMalformed = true ∨ NoDays v fault) (next t)) :
      Raises (fun fault => fault.isMalformed = true ∨ NoDays v fault)
        ((do return (← Value.filled type key entries).toText) >>= next) :=
    .bind (.bind ((Value.filled_raises _ _ _).mono fun _ => .inl) fun _ => .ok _) later
  unfold ofWire
  split
  next entries =>
    dsimp only
    split
    · split
      · split
        · exact filled fun _ => checked _
        · exact filled fun _ => .ok _
        · exact filled fun _ => .ok _
        · exact filled fun _ => .ok _
        · exact filled fun _ => checked _
        · refine filled fun title => .bind_result ?_ fun x given =>
            .bind (fun fault uncut => ?_) fun _ => checked _
          · exact (Value.numeric_raises _ _).mono fun fault => Or.imp_right fun ⟨large, same⟩ =>
              same ▸ .huge large
          · exact .inr (.boundless (Value.toDouble_of_numeric given) uncut)
        · exact filled fun _ => .ok _
      · exact .error (.inl rfl)
    · exact .error (.inl rfl)
  · exact .error (.inl rfl)

end Action

namespace Condition

theorem ofWire_raises (v : Value) :
    Op.Raises (fun fault => fault.isMalformed = true ∨ v.members = .error fault) (ofWire v) := by
  refine .bind (.ofExcept fun fault => .inr) fun data => ?_
  refine .bind (.ofExcept ?_) fun operator => .bind (.ofExcept ?_) fun logic =>
    .bind ?_ fun id => .ofExcept ?_
  · unfold operatorOfWire
    split
    · split
      · exact .ok _
      · exact .error (.inl rfl)
    · exact .error (.inl rfl)
  · unfold logicOfWire
    dsimp only
    split
    · exact .ok _
    · exact .error (.inl rfl)
  · unfold idOfWire
    split
    · exact .bind (.bind (fun _ => .ok _) fun _ => .bind (fun _ => .ok _) fun _ => .pure _) fun _ =>
        .pure _
    · exact .pure _
  · exact .ite (fun _ => .error (.inl rfl)) fun _ =>
      .ite (fun _ => .error (.inl rfl)) fun _ => .ok _

end Condition

namespace Rule

/-- Why a value is no rule, other than that it is malformed. -/
inductive Unfit (now : DateTime) : Value → Fault → Prop
  | shapeless {v : Value} {fault : Fault} (memberless : v.members = .error fault) :
      Unfit now v fault
  | trigger {data : List (Value × Value)} (huge : Trigger.IsHuge (Value.member "trigger" data)) :
      Unfit now (.map data) (.overflow .wholeToDouble)
  | condition {data : List (Value × Value)} {items : List Value} {c : Value} {fault : Fault}
      (listed : Value.member "conditions" data = .list items) (there : c ∈ items)
        (memberless : c.members = .error fault) :
      Unfit now (.map data) fault
  | action {data : List (Value × Value)} {fault : Fault}
      (days : Action.NoDays (Value.member "action" data) fault) :
      Unfit now (.map data) fault
  | createdAt {data : List (Value × Value)} {fault : Fault}
      (unread : stampOfWire now (Value.member "createdAt" data) = .error fault) :
      Unfit now (.map data) fault
  | updatedAt {data : List (Value × Value)} {fault : Fault}
      (unread : stampOfWire now (Value.member "updatedAt" data) = .error fault) :
      Unfit now (.map data) fault

theorem conditionsOfWire_raises (items : List Value) :
    Op.Raises (fun fault => fault.isMalformed = true ∨ ∃ c ∈ items, c.members = .error fault)
      (conditionsOfWire items) := by
  induction items with
  | nil => exact .pure _
  | cons c rest ih =>
    refine .bind (fun ids fault failed => ?_) fun x =>
      .bind (fun ids fault failed => ?_) fun xs => .pure _
    · exact (Condition.ofWire_raises c ids fault failed).imp_right fun shapeless =>
        ⟨c, List.mem_cons_self, shapeless⟩
    · exact (ih ids fault failed).imp_right fun ⟨d, there, shapeless⟩ =>
        ⟨d, List.mem_cons_of_mem _ there, shapeless⟩

theorem conditionItems_raises (data : List (Value × Value)) :
    Raises (·.isMalformed = true) (conditionItems data) := by
  unfold conditionItems
  split
  · exact .ok _
  · exact .ite (fun _ => .error rfl) fun _ => .ok _

theorem mem_of_conditionItems {data : List (Value × Value)} {items : List Value} {c : Value}
    (known : conditionItems data = .ok items) (there : c ∈ items) :
    Value.member "conditions" data = .list items := by
  unfold conditionItems at known
  split at known
  next listed =>
    cases known
    exact listed
  · split at known <;> cases known
    cases there

theorem idOf_raises {P : Fault → Prop} (data : List (Value × Value)) : Op.Raises P (idOf data) :=
  .ite (fun _ => .pure _) fun _ =>
    .bind (.bind (fun _ => .ok _) fun _ => .bind (fun _ => .ok _) fun _ => .pure _) fun _ => .pure _

theorem ofMembers_raises (now : DateTime) {data : List (Value × Value)} {items : List Value}
    (known : conditionItems data = .ok items)
    (id : Text) :
    Op.Raises (fun fault => fault.isMalformed = true ∨ Unfit now (.map data) fault)
    (ofMembers now data items id) := by
  refine .bind
    (.ofExcept ((Trigger.ofWire_raises _).mono fun fault => Or.imp_right ?_)) fun trigger => ?_
  · rintro ⟨huge, rfl⟩
    exact .trigger huge
  refine .bind (fun ids fault failed => ?_) fun conditions => ?_
  · refine (conditionsOfWire_raises items ids fault failed).imp_right
      fun ⟨c, there, memberless⟩ => ?_
    exact .condition (mem_of_conditionItems known there) there memberless
  refine .bind (.ofExcept ((Action.ofWire_raises _).mono fun fault => Or.imp_right .action))
    fun action => ?_
  refine .bind (.ofExcept fun fault unread => .inr (.createdAt unread)) fun created => ?_
  exact .bind (.ofExcept fun fault unread => .inr (.updatedAt unread)) fun updated => .pure _

theorem ofWire_raises (now : DateTime) (v : Value) :
    Op.Raises (fun fault => fault.isMalformed = true ∨ Unfit now v fault) (ofWire now v) := by
  rw [ofWire_eq]
  refine .ofExcept_bind (fun fault memberless => .inr (.shapeless memberless)) fun data members =>
    ?_
  obtain rfl : v = .map data := by
    cases v <;> cases members
    rfl
  refine .ite (fun _ => .throw (.inl rfl)) fun _ => ?_
  refine .ofExcept_bind ((conditionItems_raises data).mono fun _ => .inl) fun items known => ?_
  exact .bind (idOf_raises data) fun id => ofMembers_raises now known id

end Rule

namespace Repository

variable {now : DateTime} {items : List Value} {h k l : Host} {path : Option FilePath}

/-- The entries of a file, each with what it is read as once the ones before it have
drawn their identifiers. -/
def readings (now : DateTime) : List Value → IdSource → List (Value × Except Fault Rule)
  | [], _ => []
  | v :: rest, ids => (v, (Rule.ofWire now v ids).1) :: readings now rest (Rule.ofWire now v ids).2

def passes : Except Fault Rule → Bool
  | .ok _ => true
  | .error fault => fault.isMalformed

def parsed (entries : List (Value × Except Fault Rule)) : List Rule :=
  entries.filterMap (·.2.toOption)

/-- The ways that reading the entries of a file ends. -/
inductive Sifting (now : DateTime) (entries : List (Value × Except Fault Rule)) :
    Except Fault (List Rule) → Prop
  | through (fine : ∀ x ∈ entries, passes x.2 = true) : Sifting now entries (.ok (parsed entries))
  | stopped {before later : List (Value × Except Fault Rule)} {v : Value} {fault : Fault}
      (place : entries = before ++ (v, .error fault) :: later)
        (fine : ∀ x ∈ before, passes x.2 = true)
      (other : fault.isMalformed = false) (unfit : Rule.Unfit now v fault) :
      Sifting now entries (.error fault)

/-- What hides no other entry comes before the rest. -/
theorem Sifting.cons {entries : List (Value × Except Fault Rule)} {x : Except Fault (List Rule)}
    (rest : Sifting now entries x)
    (v : Value) {reading : Except Fault Rule} (fine : passes reading = true) :
    Sifting now ((v, reading) :: entries)
      (x.map fun rules => reading.toOption.toList ++ rules) := by
  have all {xs : List (Value × Except Fault Rule)} (others : ∀ x ∈ xs, passes x.2 = true) :
      ∀ x ∈ (v, reading) :: xs, passes x.2 = true := List.forall_mem_cons.2 ⟨fine, others⟩
  cases rest with
  | through others =>
    have rules : parsed ((v, reading) :: entries) = reading.toOption.toList ++ parsed entries := by
      rw [parsed, parsed, List.filterMap_cons]
      cases reading.toOption <;> rfl
    rw [Except.map, ← rules]
    exact .through (all others)
  | stopped place others other unfit => exact .stopped (by rw [place]; rfl) (all others) other unfit

theorem loadRules_sifting (path : Option FilePath) (items : List Value) (h : Host) :
    Sifting h.now (readings h.now items h.ids) (loadRules path items h).1 := by
  induction items generalizing h with
  | nil => exact .through fun _ member => absurd member List.not_mem_nil
  | cons v rest ih =>
    have raises := Rule.ofWire_raises h.now v h.ids
    rw [loadRules, readings]
    simp only [Op.run_bind, Op.run_get, Op.run_attempt, Op.run_drawing]
    rcases read : Rule.ofWire h.now v h.ids with ⟨fault | r, ids⟩
    · rw [read] at raises
      by_cases malformed : fault.isMalformed = true
      · obtain ⟨cause, rfl⟩ : ∃ cause, fault = .malformed cause := by
          cases fault with
          | malformed cause => exact ⟨cause, rfl⟩
          | _ => cases malformed
        have later := (ih (Host.note .error ("Skipping invalid stored rule " ++
          (Value.member "id" (v.members.toOption.getD [])).toText ++ ": " ++ cause.message)
            { h with ids })).cons v
            (show passes (.error (.malformed cause)) = true from rfl)
        simp only [Op.run_bind, Op.run_log]
        revert later
        rcases loadRules path rest _ with ⟨fault | rules, k⟩ <;> exact id
      · have stops :=
          Sifting.stopped (show _ = [] ++ (v, .error fault) :: readings h.now rest ids from rfl)
          (fun _ member => absurd member List.not_mem_nil) (Bool.eq_false_iff.2 malformed)
            ((raises fault rfl).resolve_left malformed)
        cases fault with
        | malformed cause => exact absurd rfl malformed
        | _ => exact stops
    · have later := (ih { h with ids }).cons v (show passes (.ok r) = true from rfl)
      simp only [Op.run_bind, Op.run_pure]
      revert later
      rcases loadRules path rest _ with ⟨fault | rules, k⟩ <;> exact id

/-- Opening a repository on a file leaves out the entries that are malformed, and of
those under one identifier all but the last one. It fails only over an entry that is no
rule for another reason. -/
theorem load_sifts (listed : StateFile.load path (.list []) h = (.ok (.list items), l)) :
    (∃ s k, load path h = (.ok s, k) ∧ (∀ x ∈ readings h.now items h.ids, passes x.2 = true) ∧
      ∀ id, s.get? id = (parsed (readings h.now items h.ids)).reverse.find? (·.id = id)) ∨
    ∃ before v fault later k, readings h.now items h.ids = before ++ (v, .error fault) :: later ∧
      (∀ x ∈ before, passes x.2 = true) ∧ fault.isMalformed = false ∧ Rule.Unfit h.now v fault ∧
      load path h = (.error fault, k) := by
  have noted := StateFile.load_relogged path (.list []) h
  rw [listed] at noted
  have sifting := loadRules_sifting path items l
  rw [noted.now, noted.ids] at sifting
  rw [load, Op.run_bind, listed]
  simp only [Value.iterate, Op.run_bind, Op.run_ofExcept]
  rcases run : loadRules path items l with ⟨fault | loaded, k⟩
  · rw [run] at sifting
    cases sifting with
    | stopped place fine other unfit => exact .inr ⟨_, _, _, _, _, place, fine, other, unfit, rfl⟩
  · rw [run] at sifting
    obtain fine : ∀ x ∈ readings h.now items h.ids, passes x.2 = true := by
      cases sifting with | through fine => exact fine
    obtain rfl : parsed (readings h.now items h.ids) = loaded := by cases sifting; rfl
    have found (id : Text) :
        get? { path, rules := .ofList ((parsed (readings h.now items h.ids)).map fun r => (r.id, r)) } id =
          (parsed (readings h.now items h.ids)).reverse.find? (·.id = id) := by
      rw [get?, OrderedMap.get?_ofList, ← List.map_reverse, List.find?_map, Option.map_map]
      simp [Function.comp_def]
    simp only [Op.run_ite, Op.run_bind, Op.run_log, Op.run_pure]
    split
    · exact .inl ⟨_, _, rfl, fine, found⟩
    · exact .inl ⟨_, _, rfl, fine, found⟩

def stored (id trigger created : Text) : Value :=
  .record [("id", .text id), ("name", .text "Welcome"),
    ("trigger", .record [("type", .text trigger)]),
    ("action", .record [("type", .text "ADD_TAG"), ("tag", .text "new")]),
    ("createdAt", .text created)]

def threeStored : List Value := [stored "good" "NEW_LEAD" "2024-01-01T00:00:00",
  stored "odd" "FULL_MOON" "2024-01-01T00:00:00", stored "dated" "NEW_LEAD" "yesterday"]

def storedFile : FilePath := .ofText "rules.json"

def storing (items : List Value) : Host :=
  { Host.still with files := ⟨.ofList [(storedFile.place, .file (Json.writeIndented (.list items)))]⟩ }

theorem load_storing (items : List Value)
    (same : Json.reread Json.depthLimit (.list items) = .ok (.list items)) :
    StateFile.load (some storedFile) (.list []) (storing items) =
      (.ok (.list items), storing items) :=
  StateFile.load_written
    (show (storing items).files.find storedFile = .ok (storedFile.place, _) from rfl)
    (Json.readsBack_of_reread same) (.list [])

/-- The second entry hides no other, but the third one keeps the repository from being opened;
without it the first one is there. -/
theorem load_sifts_threeStored :
    (∃ s k, load (some storedFile) (storing (threeStored.take 2)) = (.ok s, k) ∧
      (s.get? "good").isSome = true ∧
      s.get? "odd" = none) ∧
    ∃ fault k, load (some storedFile) (storing threeStored) = (.error fault, k) ∧
      fault.isMalformed = false := by
  have two := load_storing (threeStored.take 2) (StateFile.of_toOption (by decide +kernel))
  have three := load_storing threeStored (StateFile.of_toOption (by decide +kernel))
  have fine : ((readings DateTime.first (threeStored.take 2) {}).all (passes ·.2)) = true := by
    decide +kernel
  have hidden : ((readings DateTime.first threeStored {}).all (passes ·.2)) = false := by
    decide +kernel
  constructor
  · rcases load_sifts two with
      ⟨s, k, run, -, found⟩ | ⟨before, v, fault, later, k, place, -, other, -, run⟩
    · refine ⟨s, k, run, ?_, ?_⟩
      · rw [found]
        decide +kernel
      · rw [found]
        decide +kernel
    · have passed :=
        List.all_eq_true.1 fine (v, .error fault)
          (place ▸ List.mem_append_right _ List.mem_cons_self)
      cases other.symm.trans passed
  · rcases load_sifts
      three with ⟨s, k, run, fine, -⟩ | ⟨before, v, fault, later, k, place, -, other, -, run⟩
    · cases hidden.symm.trans (List.all_eq_true.2 fine)
    · exact ⟨fault, k, run, other⟩

end Repository
end LeadRules
