import LeadRules.Proofs.Changes
import LeadRules.Proofs.CursorFile
import LeadRules.Proofs.Places
import LeadRules.Proofs.Settled

/-! Repositories that are opened again. The file lists the rules by their times of creation, so
the rules of a repository that is opened on it stand in another order than they were inserted
in; as long as the rules of each instant stand in the same order, the two answer alike,
whatever is asked of them. -/
namespace LeadRules

namespace Repository

variable {s t : Repository} {h k : Host} {listed : List Rule}

abbrev isOf (i : Int) (r : Rule) : Bool := r.createdAt.instant = i

/-- Rules in order are told by the rules of each instant. -/
theorem eq_of_levels {a b : List Rule}
    (sorted : a.Pairwise fun x y => x.createdAt.instant ≤ y.createdAt.instant)
    (sorted' : b.Pairwise fun x y => x.createdAt.instant ≤ y.createdAt.instant)
    (levels : ∀ i, a.filter (isOf i) = b.filter (isOf i)) : a = b := by
  have within {a b : List Rule} (levels : ∀ i, a.filter (isOf i) = b.filter (isOf i)) {x : Rule}
      (member : x ∈ a) : x ∈ b := by
    have level : x ∈ a.filter (isOf x.createdAt.instant) :=
      List.mem_filter.2 ⟨member, decide_eq_true rfl⟩
    rw [levels] at level
    exact (List.mem_filter.1 level).1
  induction a generalizing b with
  | nil =>
    refine (List.eq_nil_iff_forall_not_mem.2 fun x member => ?_).symm
    exact List.not_mem_nil (within (fun i => (levels i).symm) member)
  | cons x rest ih =>
    cases b with
    | nil => exact absurd (within levels List.mem_cons_self) List.not_mem_nil
    | cons y later =>
      rw [List.pairwise_cons] at sorted sorted'
      -- The first of each is no later than the first of the other.
      have first : x.createdAt.instant ≤ y.createdAt.instant := by
        rcases List.mem_cons.1
          (within (fun i => (levels i).symm) List.mem_cons_self) with rfl | there
        · exact Int.le_refl _
        · exact sorted.1 y there
      have second : y.createdAt.instant ≤ x.createdAt.instant := by
        rcases List.mem_cons.1 (within levels List.mem_cons_self) with rfl | there
        · exact Int.le_refl _
        · exact sorted'.1 x there
      have same : x.createdAt.instant = y.createdAt.instant := Int.le_antisymm first second
      have here : isOf x.createdAt.instant x = true := decide_eq_true rfl
      have there : isOf x.createdAt.instant y = true := decide_eq_true same.symm
      have heads := levels x.createdAt.instant
      rw [List.filter_cons_of_pos here, List.filter_cons_of_pos there] at heads
      obtain ⟨rfl, -⟩ := List.cons.inj heads
      refine congrArg _ (ih sorted.2 sorted'.2 fun i => ?_)
      have level := levels i
      simp only [List.filter_cons] at level
      split at level
      · exact (List.cons.inj level).2
      · exact level

theorem comparable_congr {a b : List Rule} (same : ∀ r, r ∈ a ↔ r ∈ b) :
    comparable a = comparable b := by
  have all (p : Rule → Bool) : a.all p = b.all p := by
    rw [Bool.eq_iff_iff, List.all_eq_true, List.all_eq_true]
    exact forall_congr' fun r => by rw [same r]
  rw [comparable, comparable, all, all]

/-- Rules are ordered by their times of creation alone. -/
theorem inOrder_map {f : Rule → Rule} {rules : List Rule}
    (stamped : ∀ r ∈ rules, (f r).createdAt = r.createdAt) :
    inOrder (rules.map f) = (inOrder rules).map (List.map f) := by
  have all (p : Stamp → Bool) : (rules.map f).all (fun r => p r.createdAt) = rules.all fun r =>
      p r.createdAt := by
    rw [List.all_map, Bool.eq_iff_iff, List.all_eq_true, List.all_eq_true]
    exact forall₂_congr fun r member => by rw [Function.comp_apply, stamped r member]
  have comparable : comparable (rules.map f) = Repository.comparable rules := by
    rw [Repository.comparable, Repository.comparable, all fun s => s.offset.isSome,
      all fun s => s.offset.isNone]
  unfold inOrder
  rw [comparable]
  split
  · refine congrArg Except.ok (List.map_mergeSort fun a first b second => ?_).symm
    rw [stamped a first, stamped b second]
  · rfl

theorem inOrder_ok {rules : List Rule} (comparable : comparable rules = true) :
    ∃ ordered, inOrder rules = .ok ordered ∧ InTurn rules ordered :=
      ⟨_, if_pos comparable, inTurn_mergeSort rules⟩

/-- Rules that have the same rules of each instant in the same order come into the same order. -/
theorem inOrder_levels {a b : List Rule} (levels : ∀ i, a.filter (isOf i) = b.filter (isOf i)) :
    inOrder a = inOrder b := by
  have within {a b : List Rule} (levels : ∀ i, a.filter (isOf i) = b.filter (isOf i)) (x : Rule)
      (member : x ∈ a) : x ∈ b := by
    have level : x ∈ a.filter (isOf x.createdAt.instant) :=
      List.mem_filter.2 ⟨member, decide_eq_true rfl⟩
    rw [levels] at level
    exact (List.mem_filter.1 level).1
  unfold inOrder
  rw [comparable_congr fun r => ⟨within levels r, within (fun i => (levels i).symm) r⟩]
  split
  · have first := inTurn_mergeSort a
    have second := inTurn_mergeSort b
    refine congrArg Except.ok (eq_of_levels first.sorted second.sorted fun i => ?_)
    exact (first.ties i).trans ((levels i).trans (second.ties i).symm)
  · rfl

def shown (s : Repository) : List Rule := s.rules.values.map Rule.settled

theorem shown_get (keyed : s.Keyed) {id : Text} {r : Rule} :
    (s.get? id).map Rule.settled = some r ↔ r ∈ s.shown ∧ r.id = id := by
  rw [Option.map_eq_some_iff, shown]
  constructor
  · rintro ⟨x, found, rfl⟩
    obtain ⟨member, named⟩ := keyed.get?_iff.1 found
    exact ⟨List.mem_map_of_mem member, named⟩
  · rintro ⟨member, named⟩
    obtain ⟨x, there, rfl⟩ := List.mem_map.1 member
    exact ⟨x, keyed.get?_iff.2 ⟨there, named⟩, rfl⟩

theorem list_shown (s : Repository) (enabledOnly : Bool) :
    (s.list enabledOnly).map (List.map Rule.settled) =
    inOrder (if enabledOnly then s.shown.filter Rule.enabled else s.shown) := by
  have enabled :
      s.shown.filter Rule.enabled = (s.rules.values.filter Rule.enabled).map Rule.settled := by
    rw [shown, List.filter_map]
    exact congrArg _ (List.filter_congr fun r _ => r.enabled_settled)
  unfold list
  split
  · exact enabled ▸ (inOrder_map fun r _ => r.settled_createdAt).symm
  · exact (inOrder_map fun r _ => r.settled_createdAt).symm

theorem mapM_settled (rules : List Rule) :
    (rules.map Rule.settled).mapM Rule.toWire = (rules.mapM Rule.toWire).map
    (List.map Value.named) := by
  induction rules with
  | nil => rfl
  | cons r rest ih =>
    rw [List.map_cons, List.mapM_cons, List.mapM_cons, ih, Rule.toWire_settled]
    cases r.toWire with
    | error fault => rfl
    | ok w => cases rest.mapM Rule.toWire <;> rfl

/-- What is written of the rules is told by their order as they are read again. -/
theorem toWire_shown (s : Repository) :
    s.toWire.map Value.named = (do return .list (← (← inOrder s.shown).mapM Rule.toWire)) := by
  have listed := list_shown s false
  simp only [Bool.false_eq_true, if_false] at listed
  rw [← listed, toWire]
  cases s.list false with
  | error fault => rfl
  | ok rules =>
    show Except.map _ (rules.mapM Rule.toWire >>= _) =
      ((rules.map Rule.settled).mapM Rule.toWire >>= _)
    rw [mapM_settled]
    cases rules.mapM Rule.toWire with
    | error fault => rfl
    | ok items => exact congrArg Except.ok (Value.named_list items)

/-- What is asked of two repositories is answered alike: the same rules, but for the names of NaNs
and values that conditions do not take. -/
structure Alike (s t : Repository) : Prop where
  get : ∀ id, (s.get? id).map Rule.settled = (t.get? id).map Rule.settled
  list : ∀ enabledOnly, (s.list enabledOnly).map (List.map Rule.settled) =
    (t.list enabledOnly).map (List.map Rule.settled)
  rulesFor : ∀ kind, (s.rulesFor kind).map (List.map Rule.settled) =
    (t.rulesFor kind).map (List.map Rule.settled)
  wire : s.toWire.map Value.named = t.toWire.map Value.named

/-- Two repositories with the same file and the same rules of each instant, in the same order. -/
structure Level (s t : Repository) : Prop where
  path : t.path = s.path
  keyed : s.Keyed
  keyed' : t.Keyed
  levels : ∀ i, s.shown.filter (isOf i) = t.shown.filter (isOf i)

namespace Level

variable (level : Level s t)
include level

theorem mem (r : Rule) : r ∈ s.shown ↔ r ∈ t.shown := by
  have there (rules : List Rule) : r ∈ rules ↔ r ∈ rules.filter (isOf r.createdAt.instant) := by
    rw [List.mem_filter]
    exact ⟨fun member => ⟨member, decide_eq_true rfl⟩, And.left⟩
  rw [there s.shown, level.levels, ← there]

theorem get (id : Text) : (s.get? id).map Rule.settled = (t.get? id).map Rule.settled := by
  refine Option.ext fun r => ?_
  rw [shown_get level.keyed, shown_get level.keyed', level.mem]

theorem contains (id : Text) : s.rules.contains id = t.rules.contains id := by
  have found := congrArg Option.isSome (level.get id)
  rwa [Option.isSome_map, Option.isSome_map] at found

theorem list (enabledOnly : Bool) :
    (s.list enabledOnly).map (List.map Rule.settled) = (t.list enabledOnly).map
    (List.map Rule.settled) := by
  rw [list_shown, list_shown]
  split
  · refine inOrder_levels fun i => ?_
    rw [List.filter_comm, level.levels, List.filter_comm]
  · exact inOrder_levels level.levels

theorem wire : s.toWire.map Value.named = t.toWire.map Value.named := by
  rw [toWire_shown, toWire_shown, inOrder_levels level.levels]

theorem alike : Alike s t where
  get := level.get
  list := level.list
  rulesFor kind := by
    have chosen (s : Repository) : (s.rulesFor kind).map (List.map Rule.settled) =
        ((s.list true).map (List.map Rule.settled)).map
          (List.filter fun r => r.trigger.kind = kind) := by
      have settled (r : Rule) : r.settled.trigger.kind = r.trigger.kind := by
        show r.trigger.named.kind = _
        cases r.trigger <;> rfl
      unfold rulesFor
      cases s.list true with
      | error fault => rfl
      | ok rules =>
        refine congrArg Except.ok ?_
        rw [List.filter_map]
        exact congrArg _ (List.filter_congr fun r _ => by rw [Function.comp_apply, settled])
    rw [chosen, chosen, level.list]
  wire := level.wire

/-- Both write the same text. -/
theorem save (h : Host) : (Repository.save (s, h)).1 = (Repository.save (t, h)).1 ∧
    (Repository.save (s, h)).2.2 = (Repository.save (t, h)).2.2 ∧
    (Repository.save (s, h)).2.1 = s ∧ (Repository.save (t, h)).2.1 = t := by
  have wire := level.wire
  rw [save_run, save_run]
  cases first : s.toWire with
  | error fault =>
    rw [first] at wire
    cases second : t.toWire with
    | error fault' =>
      rw [second] at wire
      cases wire
      exact ⟨rfl, rfl, rfl, rfl⟩
    | ok w =>
      rw [second] at wire
      cases wire
  | ok v =>
    rw [first] at wire
    cases second : t.toWire with
    | error fault' =>
      rw [second] at wire
      cases wire
    | ok w =>
      rw [second] at wire
      have text : Json.writeIndented v = Json.writeIndented w := by
        rw [Json.writeIndented, ← Json.writeIn_named, Except.ok.inj wire, Json.writeIn_named]
        rfl
      have saved : StateFile.save s.path v = StateFile.save t.path w := by
        unfold StateFile.save
        rw [level.path, text]
      simp only [saved, and_self]

end Level

/-- A rule that is stored anew, or in the place of one with its time of creation. -/
def Sited (s : Repository) (r : Rule) : Prop :=
  ∀ old, s.get? r.id = some old → old.createdAt = r.createdAt

theorem shown_put (keyed : s.Keyed) (r : Rule) : shown { s with rules := s.rules.put r.id r } =
    if s.rules.contains r.id then s.shown.map fun x => if x.id = r.id then r.settled else x
    else s.shown ++ [r.settled] := by
  unfold shown
  split
  next present =>
    rw [values_put_present keyed present, List.map_map, List.map_map]
    refine List.map_congr_left fun x _ => ?_
    simp only [Function.comp_apply, Rule.settled_id]
    by_cases same : x.id = r.id <;> simp only [same, if_true, if_false]
  next absent =>
    rw [values_put_absent (Bool.eq_false_iff.2 absent), List.map_append, List.map_singleton]

theorem shown_erase (keyed : s.Keyed) (id : Text) :
    shown { s with rules := s.rules.erase id } = s.shown.filter fun x => x.id ≠ id := by
  rw [shown, values_erase keyed, shown, List.filter_map]
  rfl

/-- What takes the place of a rule is of its instant. -/
theorem Sited.filter {r : Rule} (keyed : s.Keyed) (sited : s.Sited r) (i : Int) :
    (s.shown.map fun x => if x.id = r.id then r.settled else x).filter (isOf i) =
      (s.shown.filter (isOf i)).map fun x => if x.id = r.id then r.settled else x := by
  rw [List.filter_map]
  refine congrArg _ (List.filter_congr fun x member => ?_)
  rw [Function.comp_apply]
  split
  next same =>
    obtain ⟨old, found, rfl⟩ := Option.map_eq_some_iff.1 ((shown_get keyed).2 ⟨member, same⟩)
    rw [isOf, isOf, Rule.settled_createdAt, Rule.settled_createdAt, sited old found]
  next => rfl

namespace Level

variable (level : Level s t)
include level

theorem put {r r' : Rule} (same : r.settled = r'.settled) (sited : s.Sited r)
    (sited' : t.Sited r') :
    Level { s with rules := s.rules.put r.id r } { t with rules := t.rules.put r'.id r' } where
  path := level.path
  keyed := keyed_lasting.put level.keyed trivial
  keyed' := keyed_lasting.put level.keyed' trivial
  levels i := by
    have id : r.id = r'.id := (congrArg Rule.id same : r.settled.id = r'.settled.id)
    rw [shown_put level.keyed, shown_put level.keyed', level.contains, id]
    split
    · have first := sited.filter level.keyed i
      rw [id] at first
      rw [first, sited'.filter level.keyed' i, level.levels, same]
    · rw [List.filter_append, List.filter_append, level.levels, same]

theorem erase (id : Text) :
    Level { s with rules := s.rules.erase id } { t with rules := t.rules.erase id } where
  path := level.path
  keyed := keyed_lasting.erase level.keyed
  keyed' := keyed_lasting.erase level.keyed'
  levels i := by
    rw [shown_erase level.keyed, shown_erase level.keyed', List.filter_comm, level.levels,
      List.filter_comm]

end Level

def Answer.settled : Answer → Answer
  | stored r => stored r.settled
  | updated r => updated (r.map Rule.settled)
  | found b => found b

inductive PlannedAlike (s t : Repository) : Plan → Plan → Prop
  | answer {x y : Except Fault Answer} (same : x.map Answer.settled = y.map Answer.settled) :
      PlannedAlike s t (.answer x) (.answer y)
  | put {r r' : Rule} {a b : Answer} (same : r.settled = r'.settled) (sited : s.Sited r)
      (sited' : t.Sited r')
      (answers : a.settled = b.settled) (notes : List Text) :
      PlannedAlike s t (.edit (.put r) a notes) (.edit (.put r') b notes)
  | drop (id : Text) (a : Answer) (notes : List Text) :
      PlannedAlike s t (.edit (.drop id) a notes) (.edit (.drop id) a notes)

structure RunAlike (a b : Except Fault Answer × (Repository × Host)) : Prop where
  answer : a.1.map Answer.settled = b.1.map Answer.settled
  level : Level a.2.1 b.2.1
  host : a.2.2 = b.2.2

theorem PlannedAlike.run {plan plan' : Plan} (alike : PlannedAlike s t plan plan')
    (level : Level s t) (h : Host) :
    RunAlike (plan.run (s, h)) (plan'.run (t, h)) := by
  have edited (e e' : Edit) {a b : Answer} (level : Level (e.apply s) (e'.apply t))
    (answers : a.settled = b.settled)
      (notes : List Text) :
      RunAlike ((Plan.edit e a notes).run (s, h)) ((Plan.edit e' b notes).run (t, h)) := by
    obtain ⟨result, hosts, first, second⟩ := level.save h
    rw [run_edit, run_edit]
    revert result hosts first second
    rcases Repository.save (e.apply s, h) with ⟨fault | _, s', k⟩ <;>
      rcases Repository.save (e'.apply t, h) with ⟨fault' | _, t', k'⟩ <;> rintro ⟨⟩ ⟨⟩ ⟨⟩ ⟨⟩
    · exact ⟨rfl, level, rfl⟩
    · exact ⟨congrArg Except.ok answers, level, rfl⟩
  cases alike with
  | answer same =>
    rw [Plan.run, Plan.run, Op.run_ofExcept, Op.run_ofExcept]
    exact ⟨same, level, rfl⟩
  | put same sited sited' answers notes =>
    exact edited (.put _) (.put _) (level.put same sited sited') answers notes
  | drop id a notes => exact edited (.drop id) (.drop id) (level.erase id) rfl notes

theorem updated_alike {r r' : Rule} (same : r.settled = r'.settled) (u : RuleUpdate)
    (now : DateTime)
    {conditions conditions' : List Condition}
    (read : conditions.map Condition.settled = conditions'.map Condition.settled)
    (strays : List Text) : (updated r u now conditions strays).settled =
      (updated r' u now conditions' strays).settled := by
  simp only [Rule.settled, Rule.mk.injEq] at same
  obtain ⟨ids, name, trigger, action, -, -, description, mark, created, -⟩ := same
  simp only [Rule.settled, updated, Rule.mk.injEq, and_true, true_and]
  refine ⟨ids, ?_, trigger, by rw [action], read, ?_, ?_, created⟩
  · cases u.name <;> simp [name]
  · cases u.description <;> simp [description]
  · cases u.isEnabled <;> simp [mark]

/-- The conditions that an update leaves of two rules that are read alike are read alike. -/
theorem replacedConditions_alike {r r' : Rule} (same : r.settled = r'.settled)
    (given : Option (List Condition ⊕ Value)) :
    (∃ fault, replacedConditions r given = .error fault ∧ replacedConditions r' given = .error fault) ∨
    ∃ conditions conditions' strays, replacedConditions r given = .ok (conditions, strays) ∧
      replacedConditions r' given = .ok (conditions', strays) ∧
      conditions.map Condition.settled = conditions'.map Condition.settled := by
  rcases given with _ | conditions | v
  · simp only [Rule.settled, Rule.mk.injEq] at same
    obtain ⟨-, -, -, -, kept, strays, -⟩ := same
    exact .inr ⟨r.conditions, r'.conditions, r.strays, rfl, by rw [strays]; rfl, kept⟩
  · exact .inr ⟨conditions, conditions, [], rfl, rfl, rfl⟩
  · simp only [replacedConditions]
    cases v.itemsOrNone with
    | error fault => exact .inl ⟨fault, rfl, rfl⟩
    | ok items => exact .inr ⟨[], [], items.map Value.toText, rfl, rfl, rfl⟩

theorem planUpdate_alike (level : Level s t) (now : DateTime) (id : Text) (u : RuleUpdate)
    {answer : Option Rule → Answer}
    (settles : ∀ {r r' : Option Rule}, r.map Rule.settled = r'.map Rule.settled →
      (answer r).settled = (answer r').settled) :
    PlannedAlike s t (planUpdate s now id u answer) (planUpdate t now id u answer) := by
  have found := level.get id
  unfold planUpdate
  cases refusal? u with
  | some cause => exact .answer rfl
  | none =>
    simp only
    cases first : s.get? id with
    | none =>
      cases second : t.get? id with
      | none => exact .answer rfl
      | some r' => simp [first, second] at found
    | some r =>
      cases second : t.get? id with
      | none => simp [first, second] at found
      | some r' =>
        rw [first, second, Option.map_some, Option.map_some] at found
        have same : r.settled = r'.settled := Option.some.inj found
        obtain ⟨-, rfl⟩ := level.keyed.get?_iff.1 first
        have id : r'.id = r.id := (congrArg Rule.id same.symm : r'.settled.id = r.settled.id)
        have sited : s.Sited r := fun old there => by rw [Option.some.inj (first.symm.trans there)]
        have sited' : t.Sited r' :=
          fun old there => by rw [Option.some.inj (second.symm.trans (id ▸ there))]
        rcases replacedConditions_alike same
          u.conditions with ⟨fault, parts, parts'⟩ | ⟨_, _, strays, parts, parts', read⟩
        · simp only [parts, parts']
          exact .answer rfl
        · simp only [parts, parts']
          have both := updated_alike same u now read strays
          exact .put both sited sited' (settles (by rw [Option.map_some, Option.map_some, both])) []

/-- What is drawn for a change does not depend on the rules. -/
theorem plan_host (s t : Repository) (h : Host) (c : Change) : (plan s h c).2 = (plan t h c).2 := by
  cases c with
  | create name trigger action conditions description isEnabled =>
    cases truthy : name.truthy <;> simp only [plan, truthy, if_true]
  | _ => rfl

theorem sited_of_absent {r : Rule} (absent : s.rules.contains r.id = false) : s.Sited r := by
  intro old found
  rw [OrderedMap.contains, show s.rules.get? r.id = _ from found] at absent
  cases absent

/-- A rule that one of two level repositories does not have can be put into both. -/
theorem Level.sited {r : Rule} (level : Level s t) (absent : s.rules.contains r.id = false) :
    s.Sited r ∧ t.Sited r :=
  ⟨sited_of_absent absent, sited_of_absent (level.contains r.id ▸ absent)⟩

/-- Repositories that are level plan the same changes. -/
theorem plan_alike (level : Level s t) {c : Change} (fresh : Fresh c (s, h)) :
    PlannedAlike s t (plan s h c).1 (plan t h c).1 := by
  cases c with
  | create name trigger action conditions description isEnabled =>
    simp only [plan]
    split
    · obtain ⟨sited, sited'⟩ :=
        level.sited (r := created h name trigger action conditions description isEnabled) fresh
      exact .put rfl sited sited' rfl _
    · exact .answer rfl
  | importRule v =>
    simp only [plan]
    rcases Rule.ofWire h.now v h.ids with ⟨fault | r, ids⟩
    · exact .answer rfl
    · have both := level.contains r.id
      cases absent : s.rules.contains r.id with
      | true =>
        rw [absent] at both
        simp only [absent, ← both]
        exact .answer rfl
      | false =>
        obtain ⟨sited, sited'⟩ := level.sited absent
        rw [absent] at both
        simp only [absent, ← both]
        exact .put rfl sited sited' rfl []
  | update id u => exact planUpdate_alike level h.now id u fun same => congrArg Answer.updated same
  | setEnabled id enabled =>
    simp only [plan]
    refine planUpdate_alike level h.now id _ fun same => ?_
    have found := congrArg Option.isSome same
    rw [Option.isSome_map, Option.isSome_map] at found
    exact congrArg Answer.found found
  | remove id =>
    simp only [plan]
    rw [← level.contains id]
    split
    · exact .drop id _ _
    · exact .answer rfl

theorem carryOut_alike (level : Level s t) {c : Change} (fresh : Fresh c (s, h)) :
    RunAlike (carryOut c (s, h)) (carryOut c (t, h)) := by
  rw [carryOut_plan, carryOut_plan, ← plan_host s t]
  exact (plan_alike level fresh).run level _

def carryAll : List Change → StoreOp Repository (List (Except Fault Answer))
  | [] => return []
  | c :: rest => return (← (carryOut c).attempt) :: (← carryAll rest)

def AllFresh : List Change → Repository × Host → Prop
  | [], _ => True
  | c :: rest, s => Fresh c s ∧ AllFresh rest (carryOut c s).2

structure Answers (changes : List Change) (s t : Repository) (h : Host) : Prop where
  run : ∃ xs ys s' t' k, carryAll changes (s, h) = (.ok xs, (s', k)) ∧
    carryAll changes (t, h) = (.ok ys, (t', k)) ∧
    xs.map (·.map Answer.settled) = ys.map (·.map Answer.settled) ∧ Alike s' t'

theorem Level.answers {changes : List Change} (level : Level s t)
    (fresh : AllFresh changes (s, h)) : Answers changes s t h := by
  induction changes generalizing s t h with
  | nil => exact ⟨[], [], s, t, h, rfl, rfl, rfl, level.alike⟩
  | cons c rest ih =>
    obtain ⟨answer, levels, hosts⟩ := carryOut_alike level fresh.1
    have later := fresh.2
    revert answer levels hosts later
    rcases first : carryOut c (s, h) with ⟨x, s', k⟩
    rcases second : carryOut c (t, h) with ⟨y, t', k'⟩
    rintro answer levels ⟨⟩ later
    obtain ⟨xs, ys, s'', t'', l, run, run', same, alike⟩ := ih levels later
    refine ⟨x :: xs, y :: ys, s'', t'', l, ?_, ?_, ?_, alike⟩
    · simp only [carryAll, Op.run_bind, Op.run_attempt, first, run, Op.run_pure]
    · simp only [carryAll, Op.run_bind, Op.run_attempt, second, run', Op.run_pure]
    · rw [List.map_cons, List.map_cons, same, show x.map Answer.settled = y.map Answer.settled from answer]

end Repository
end LeadRules
