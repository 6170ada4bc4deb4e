import LeadRules.Proofs.Reopening

/-! The course of a repository whose file takes what is written. Its rules have identifiers of
their own and are listed by their times of creation, those of one instant as they were inserted;
and at any time a repository that is opened on the file stands for it. -/
namespace LeadRules.Repository

variable {p : FilePath} {s t : Repository} {h k : Host} {rules listed : List Rule}
  {items : List Value}

/-- Rules that last are written, each as a value that JSON keeps. -/
theorem mapM_lasting (lasting : ∀ r ∈ rules, r.Lasting) :
    ∃ items, rules.mapM Rule.toWire = .ok items ∧
    Value.keepsItems (Json.depthLimit - 1) items = true ∧
    ∀ (path : Option FilePath) (h : Host), loadRules path (items.map Value.named) h =
      (.ok (rules.map Rule.settled), h) := by
  induction rules with
  | nil => exact ⟨[], rfl, by rw [Value.keepsItems], fun _ _ => rfl⟩
  | cons r rest ih =>
    obtain ⟨w, written, kept, again⟩ := (lasting r List.mem_cons_self).again
    obtain ⟨items, later, keeps, loads⟩ :=
      ih fun r member => lasting r (List.mem_cons_of_mem _ member)
    refine ⟨w :: items, ?_, by rw [Value.keepsItems, kept, keeps]; rfl, fun path h => ?_⟩
    · rw [List.mapM_cons, written, later]
      rfl
    · rw [List.map_cons, loadRules]
      simp only [Op.run_bind, Op.run_get, Op.run_attempt, Op.run_drawing, again, loads, Op.run_pure,
        List.map_cons]

/-- What stands after every step of a course: the rules can be listed and written, and what was
written of them is loaded. -/
structure Stands (p : FilePath) (s : Repository) (h : Host) : Prop where
  path : s.path = some p
  keyed : s.Keyed
  comparable : comparable s.rules.values = true
  lasting : ∀ r ∈ s.rules.values, r.Lasting
  filed : ∃ v, s.toWire = .ok v ∧ (StateFile.load (some p) (.list []) h).1 = .ok v.named

/-- The rules of a repository as they are listed and written. -/
theorem toWire_lasting (comparable : comparable s.rules.values = true)
    (lasting : ∀ r ∈ s.rules.values, r.Lasting) :
    ∃ listed items, s.list false = .ok listed ∧ InTurn s.rules.values listed ∧
      s.toWire = .ok (.list items) ∧
      (Value.list items).keeps Json.depthLimit = true ∧
      ∀ (path : Option FilePath) (h : Host), loadRules path (items.map Value.named) h =
        (.ok (listed.map Rule.settled), h) := by
  obtain ⟨listed, ordered, turn⟩ := inOrder_ok comparable
  obtain ⟨items, written, keeps, loads⟩ :=
    mapM_lasting fun r member => lasting r (turn.all.mem_iff.1 member)
  have list : s.list false = .ok listed := ordered
  refine ⟨listed, items, list, turn, ?_, ?_, loads⟩
  · rw [toWire, list]
    show (listed.mapM Rule.toWire >>= _) = _
    rw [written]
    rfl
  · rw [Value.keeps, keeps]
    rfl

/-- A repository that is opened on the file lists the same rules, and is level with the
one that stands there. -/
theorem Stands.reopened (stands : Stands p s h) (same : k.node p = h.node p) : ∃ listed t l,
    s.list false = .ok listed ∧ InTurn s.rules.values listed ∧
    load (some p) k = (.ok t, l) ∧ t.rules.values = listed.map Rule.settled ∧ Level s t := by
  obtain ⟨listed, items, list, turn, wire, -, loads⟩ :=
    toWire_lasting stands.comparable stands.lasting
  obtain ⟨v, written, loaded⟩ := stands.filed
  obtain rfl : Value.list items = v := Except.ok.inj (wire.symm.trans written)
  rw [← StateFile.load_node same, Value.named_list] at loaded
  have distinct : (((listed.map Rule.settled).map fun r => (r.id, r)).map (·.1)).Nodup := by
    simp only [List.map_map, Function.comp_def, Rule.settled_id]
    exact (turn.all.map _).nodup_iff.2 stands.keyed.nodup
  let t : Repository :=
    { path := some p, rules := .ofList ((listed.map Rule.settled).map fun r => (r.id, r)) }
  have values : t.rules.values = listed.map Rule.settled := by
    rw [OrderedMap.values, OrderedMap.entries_ofList _ distinct, List.map_map]
    exact List.map_id' _
  have level : Level s t := by
    refine ⟨stands.path.symm, stands.keyed, keyed_ofList _ _, fun i => ?_⟩
    have each (rules : List Rule) :
        (rules.map Rule.settled).filter (isOf i) = (rules.filter (isOf i)).map Rule.settled :=
      List.filter_map
    have twice : (listed.map Rule.settled).map Rule.settled = listed.map Rule.settled := by
      rw [List.map_map]
      exact List.map_congr_left fun r _ => r.settled_settled
    rw [shown, shown, values, twice, each, each, ← turn.ties i]
  refine ⟨listed, t, ?_⟩
  rw [load, Op.run_bind]
  revert loaded
  rcases StateFile.load (some p) (.list []) k with ⟨x, k'⟩
  rintro rfl
  simp only [Value.iterate, Op.run_bind, Op.run_ofExcept, loads]
  split
  · exact ⟨_, list, turn, rfl, values, level⟩
  · exact ⟨_, list, turn, rfl, values, level⟩

/-- A change of a repository whose file takes what is written: identifiers that are drawn are
fresh, and the rules that it leaves last and can be ordered. -/
structure Step (p : FilePath) (c : Change) (s : Repository) (h : Host) (x : Except Fault Answer)
    (t : Repository) (k : Host) :
    Prop where
  fresh : Fresh c (s, h)
  takes : ∀ v, (StateFile.save (some p) v h).1 = .ok ()
  run : carryOut c (s, h) = (x, (t, k))
  comparable : comparable t.rules.values = true
  lasting : ∀ r ∈ t.rules.values, r.Lasting

def Outcome (c : Change) (s : Repository) (h : Host) (t : Repository) : Except Fault Answer → Prop
  | .ok a => Makes h s.rules.values t.rules.values c a
  | .error fault => Refuses h s.rules.values fault c ∧ t = s

/-- The courses of a repository from where its file holds no rules: changes one after the other,
and between them whatever leaves the file as it is. -/
inductive Course (p : FilePath) : Repository → Host → Prop
  | opened {s : Repository} {h k : Host}
      (empty : (StateFile.load (some p) (.list []) h).1 = .ok (.list []))
      (run : load (some p) h = (.ok s, k)) : Course p s k
  | changed {s t : Repository} {h k : Host} {c : Change} {x : Except Fault Answer}
      (course : Course p s h)
      (step : Step p c s h x t k) : Course p t k
  | passed {s : Repository} {h k : Host} (course : Course p s h)
      (same : k.node p = h.node p) : Course p s k

namespace Step

variable {c : Change} {x : Except Fault Answer}

/-- The host that a plan is carried out on differs in what was drawn. -/
theorem twin (s : Repository) (h : Host) (c : Change) : h.Twin (plan s h c).2 := by
  cases c with
  | create name trigger action conditions description isEnabled =>
    cases truthy : name.truthy <;> simp only [plan, truthy, if_true] <;> exact ⟨rfl, rfl, rfl⟩
  | _ => exact ⟨rfl, rfl, rfl⟩

/-- The rules stay as they are, or what is written of them stands in the file. -/
theorem cases (step : Step p c s h x t k) (path : s.path = some p) :
    ((plan s h c).1 = .answer x ∧ t = s ∧ k.files = h.files) ∨
    ∃ e a notes v, (plan s h c).1 = .edit e a notes ∧ x = .ok a ∧ t = e.apply s ∧ t.toWire = .ok v ∧
      k.files.find p = .ok (p.place, some (.file (Json.writeIndented v))) := by
  have run := step.run
  have twin := twin s h c
  rw [carryOut_plan] at run
  rcases Plan.run_cases run with ⟨plan, same, rfl⟩ | ⟨e, a, notes, plan, edited, saved⟩
  · exact .inl ⟨plan, same, twin.files⟩
  · refine .inr ⟨e, a, notes, ?_⟩
    obtain ⟨listed, items, -, -, wire, -, -⟩ := toWire_lasting step.comparable step.lasting
    have place : t.path = some p := by
      rw [edited]
      cases e <;> exact path
    rcases saved with ⟨fault, refused, -⟩ | ⟨v, written, saved⟩
    · cases wire.symm.trans refused
    · rw [place] at saved
      have taken := (Op.save_steady (some p) v h _ twin).1.symm.trans (step.takes v)
      rcases StateFile.save_place p v (Repository.plan s h c).2
        with ⟨l, run, -, found⟩ | ⟨fault, l, run, -⟩ <;> rw [run] at saved taken
      · refine ⟨v, plan, saved.1, edited, written, ?_⟩
        rw [saved.2, (Host.Relogged.noteAll .info notes l).files]
        exact found
      · cases taken

end Step

/-- What is written of rules that last is loaded again. -/
theorem load_lasting {v : Value} (comparable : comparable s.rules.values = true)
    (lasting : ∀ r ∈ s.rules.values, r.Lasting)
    (written : s.toWire = .ok v) {d : Place}
    (found : h.files.find p = .ok (d, some (.file (Json.writeIndented v)))) :
    (StateFile.load (some p) (.list []) h).1 = .ok v.named := by
  obtain ⟨listed, items, -, -, wire, keeps, -⟩ := toWire_lasting comparable lasting
  obtain rfl : Value.list items = v := Except.ok.inj (wire.symm.trans written)
  have back := Json.reread_keeps _ keeps
  rcases StateFile.load_reread found (.list []) with ⟨w, again, loaded⟩ | ⟨refusal, fault, again, -⟩
  · rw [loaded, Except.ok.inj (back.symm.trans again)]
  · cases back.symm.trans again

theorem Stands.step {c : Change} {x : Except Fault Answer} (stands : Stands p s h)
    (step : Step p c s h x t k) :
    Stands p t k := by
  rcases step.cases stands.path with ⟨-, rfl, files⟩ | ⟨e, a, notes, v, -, -, rfl, written, found⟩
  · obtain ⟨v, written, loaded⟩ := stands.filed
    have same : k.node p = h.node p := by rw [Host.node, Host.node, files]
    exact { stands with filed := ⟨v, written, (StateFile.load_node same _).trans loaded⟩ }
  · have path : (e.apply s).path = some p := by cases e <;> exact stands.path
    have keyed : (e.apply s).Keyed := by
      cases e with
      | put r => exact keyed_lasting.put stands.keyed trivial
      | drop id => exact keyed_lasting.erase stands.keyed
    exact ⟨path, keyed, step.comparable, step.lasting, v, written,
      load_lasting step.comparable step.lasting written found⟩

/-- With nothing refused to the disk, a change is answered or refused for what it asks. -/
theorem Stands.outcome {c : Change} {x : Except Fault Answer} (stands : Stands p s h)
    (step : Step p c s h x t k) :
    Outcome c s h t x := by
  cases x with
  | ok a => exact makes_of_run stands.keyed step.fresh step.run
  | error fault =>
    rcases step.cases stands.path with ⟨plan, same, -⟩ | ⟨e, a, notes, v, -, answered, -⟩
    · exact ⟨refuses_of_plan stands.keyed plan, same⟩
    · cases answered

theorem Course.stands (course : Course p s h) : Stands p s h := by
  induction course with
  | @opened s h k empty run =>
    rw [load, Op.run_bind] at run
    have noted := StateFile.load_relogged (some p) (.list []) h
    have again :
        ∀ k : Host, h.Relogged k → (StateFile.load (some p) (.list []) k).1 = .ok (.list []) := by
      intro k noted
      have same : k.node p = h.node p := by rw [Host.node, Host.node, noted.files]
      rw [StateFile.load_node same, empty]
    have written : toWire { path := some p, rules := .ofList [] } = .ok (.list []) := by
      simp [toWire, list, inOrder, comparable, OrderedMap.ofList, OrderedMap.empty,
        OrderedMap.values, bind, Except.bind, pure, Except.pure]
    revert run noted empty
    rcases StateFile.load (some p) (.list []) h with ⟨x, k'⟩
    rintro rfl run noted
    cases run
    have none {P : Rule → Prop} :
        ∀ r ∈ OrderedMap.values (.ofList [] : OrderedMap Text Rule), P r := by
      intro r member
      cases member
    refine ⟨rfl, keyed_ofList _ [], rfl, none, .list [], written, ?_⟩
    rw [Value.named_list]
    exact again _ noted
  | changed course step stands => exact stands.step step
  | @passed s h k course same stands => exact { stands with
      filed := by
        obtain ⟨v, written, loaded⟩ := stands.filed
        exact ⟨v, written, (StateFile.load_node same _).trans loaded⟩ }

/-- An update leaves the order of the rules as it is. -/
theorem list_updated (keyed : s.Keyed) {id : Text} {u : RuleUpdate} {r : Rule}
    (list : s.list false = .ok listed)
    (run : update id u (s, h) = (.ok (some r), (t, k))) :
    t.list false = .ok (listed.map fun x => if x.id = id then r else x) := by
  have answered : carryOut (.update id u) (s, h) = (.ok (.updated (some r)), (t, k)) := by
    simp only [carryOut, Op.run_bind, run, Op.run_pure]
  obtain ⟨old, member, rfl, updates, rows⟩ :=
    makes_of_run (c := .update id u) keyed trivial answered
  have stamped :
      ∀ x ∈ s.rules.values, (if x.id = old.id then r else x).createdAt = x.createdAt := by
    intro x there
    split
    next same =>
      have found := keyed.get?_iff.2 ⟨there, same⟩
      rw [keyed.get?_iff.2 ⟨member, rfl⟩] at found
      rw [← Option.some.inj found, updates.createdAt]
    next => rfl
  have list' : t.list false = inOrder t.rules.values := rfl
  rw [list', rows, inOrder_map stamped, show inOrder s.rules.values = _ from list]
  rfl

/-- At any time of its course, a repository has rules with identifiers of their own and lists
them by their times of creation, those of one instant in their order of insertion. A change
that is answered inserts, replaces or drops the rule that it is about, one that is refused
leaves the rules alone, and an update leaves their order as it is. A repository that is opened
on the file lists the same rules with the same wire forms, and answers alike whatever further
changes are asked of both. -/
theorem Course.lasts (course : Course p s h) :
    (s.rules.values.map (·.id)).Nodup ∧ ∃ listed, s.list false = .ok listed ∧
    InTurn s.rules.values listed ∧
    (∀ c x t k, Step p c s h x t k → Outcome c s h t x) ∧
    (∀ id u r t k, update id u (s, h) = (.ok (some r), (t, k)) →
      t.list false = .ok (listed.map fun x => if x.id = id then r else x)) ∧
    ∀ k : Host, k.node p = h.node p → ∃ t l, load (some p) k = (.ok t, l) ∧
      t.list false = .ok (listed.map Rule.settled) ∧ t.toWire = s.toWire.map Value.named ∧
      ∀ changes l, AllFresh changes (s, l) → Answers changes s t l := by
  have stands := course.stands
  obtain ⟨listed, -, -, list, turn, -⟩ := stands.reopened rfl
  refine ⟨stands.keyed.nodup, listed, list, turn, fun c x t k step => stands.outcome step,
    fun id u r t k run => list_updated stands.keyed list run, fun k same => ?_⟩
  obtain ⟨listed', t, l, list', turn', loaded, values, level⟩ := stands.reopened same
  obtain rfl : listed = listed' := Except.ok.inj (list.symm.trans list')
  have again : inOrder listed = .ok listed := (inOrder_levels turn.ties).trans list
  have sorted : t.list false = .ok (listed.map Rule.settled) := by
    rw [show t.list false = inOrder t.rules.values from rfl, values,
      inOrder_map fun r _ => r.settled_createdAt, again]
    rfl
  refine ⟨t, l, loaded, sorted, ?_, fun changes l fresh => level.answers fresh⟩
  rw [toWire, sorted, toWire, list]
  show ((listed.map Rule.settled).mapM Rule.toWire >>= _) =
    Except.map _ (listed.mapM Rule.toWire >>= _)
  rw [mapM_settled]
  cases listed.mapM Rule.toWire with
  | error fault => rfl
  | ok items => exact congrArg Except.ok (Value.named_list items).symm

/-- Where its file can be saved, a repository creates a rule that lasts and can be ordered. -/
theorem create_step {folder : FilePath} {d : Place} {file : Text}
    {name description isEnabled : Value} {trigger : Trigger}
    {action : Action} {conditions : List Condition} {r : Rule}
    (stands : Stands (folder.below file) s h)
    (site : StateFile.Site h.files folder d file) (sound : true ∉ h.refusals)
    (named : name.truthy = true)
    (made : created h name trigger action conditions description isEnabled = r)
    (absent : s.rules.contains r.id = false)
    (ordered : comparable (s.rules.values ++ [r]) = true) (lasting : r.Lasting) :
    ∃ t k, Step (folder.below file) (.create name trigger action conditions description isEnabled) s
      h (.ok (.stored r)) t k ∧
      t.rules.values = s.rules.values ++ [r] ∧ StateFile.Site k.files folder d file ∧
      true ∉ k.refusals := by
  subst made
  let r := created h name trigger action conditions description isEnabled
  let t : Repository := { s with rules := s.rules.put r.id r }
  have values : t.rules.values = s.rules.values ++ [r] := values_put_absent absent
  have all : ∀ x ∈ t.rules.values, x.Lasting := by
    intro x member
    rw [values, List.mem_append, List.mem_singleton] at member
    rcases member with old | rfl
    · exact stands.lasting x old
    · exact lasting
  have comparable : comparable t.rules.values = true := by rw [values]; exact ordered
  obtain ⟨listed, items, -, -, wire, -, -⟩ := toWire_lasting comparable all
  have saved :=
    StateFile.save_run (h := { h with ids := ⟨h.ids.drawn + 1⟩ }) site sound (.list items)
  have written := save_run t { h with ids := ⟨h.ids.drawn + 1⟩ }
  rw [wire, show t.path = some (folder.below file) from stands.path] at written
  simp only [saved] at written
  have run : ∃ k, carryOut (.create name trigger action conditions description isEnabled) (s, h) =
    (.ok (.stored r), (t, k)) ∧
      k.files = StateFile.saved h.files d file (Json.writeIndented (.list items)) ∧
      k.refusals = h.refusals.tail.tail.tail.tail := by
    rw [carryOut_plan, plan, if_pos named]
    dsimp only
    rw [run_edit,
      show Edit.apply s (.put (created h name trigger action conditions description isEnabled)) = t
        from rfl, written]
    exact ⟨_, rfl, (Host.Relogged.noteAll ..).files, (Host.Relogged.noteAll ..).refusals⟩
  obtain ⟨k, run, files, refusals⟩ := run
  refine ⟨t, k,
    ⟨absent, fun v => congrArg Prod.fst (StateFile.save_run site sound v), run, comparable, all⟩,
    values, ?_, ?_⟩
  · rw [files]
    exact site.saved site _
  · rw [refusals]
    exact fun member => sound (List.mem_of_mem_tail (List.mem_of_mem_tail
      (List.mem_of_mem_tail (List.mem_of_mem_tail member))))

def rulesFile : FilePath := FilePath.below {} "rules.json"

/-- Calls back a lead that is idle for no number of hours, unless it has an email: the days are
the last that doubles tell from the next. -/
def calling (h : Host) (name : Text) : Rule :=
  created h (.text name) (.leadUntouched (.nan .computed)) (.createTask "Call" 9007199254740992)
    [⟨"c", .text "email", .isNotSet, .text "", .and⟩] (.text "") (.bool true)

theorem faithful_task : Action.Faithful (.createTask "Call" 9007199254740992) := by
  refine ⟨rfl, by decide, ?_⟩
  rintro _ _ ⟨⟩
  have whole : ((Binary64.ofInt? 9007199254740992).bind Binary64.truncate?) =
      some 9007199254740992 := by decide +kernel
  obtain ⟨x, double, cut⟩ := Option.bind_eq_some_iff.1 whole
  exact ⟨x, double, cut⟩

theorem faithful_calling {name : Text} (some : name ≠ "") (h : Host) :
    (calling h name).Faithful where
  id := IdSource.identifier_ne_empty _
  name := by simpa [calling, created, Value.truthy] using some
  trigger := rfl
  conditions := by
    intro c member
    rw [List.mem_singleton.1 member]
    exact (Condition.check_iff _).2 ⟨by decide, .inr (by decide)⟩
  strays := rfl
  action := faithful_task
  description := .inr rfl
  isEnabled := ⟨true, rfl⟩
  createdAt := nofun
  updatedAt := nofun

theorem lasting_calling {name : Text} {h : Host} (some : name ≠ "")
    (kept : (calling h name).toWire.toOption.all (·.keeps (Json.depthLimit - 1)) = true) :
    (calling h name).Lasting := by
  refine ⟨faithful_calling some h, fun w written => ?_⟩
  rw [written] at kept
  exact kept

def later : Host := { Host.still with now := ⟨1000000, by decide⟩ }

def setBack : Host := { Host.still with ids := ⟨1⟩ }

theorem site_rulesFile : StateFile.Site later.files {} {} "rules.json" where
  stands := rfl
  nameable := ⟨by decide, by decide⟩
  fits := ⟨_, rfl, by decide⟩
  free := nofun
  nameableBeside := ⟨by decide, by decide⟩
  fitsBeside := ⟨_, rfl, by decide⟩
  freeBeside := nofun

/-- Two rules are created, the second one once the clock was set back by a second. The file has it
first, and so has the repository that is opened on it. -/
theorem lasts_backdated : ∃ s h, Course rulesFile s h ∧
    s.rules.values = [calling later "first", calling setBack "second"] ∧
    ∃ t l, load (some rulesFile) h = (.ok t, l) ∧
      t.list false = .ok [(calling setBack "second").settled, (calling later "first").settled] := by
  have opened : load (some rulesFile) later = (.ok { path := some rulesFile }, later) := rfl
  have course : Course rulesFile { path := some rulesFile } later := .opened rfl opened
  have lasting : (calling later "first").Lasting := lasting_calling (by decide) (by decide +kernel)
  obtain ⟨s, h, step, values, site, sound⟩ :=
    create_step course.stands site_rulesFile (by decide) (by decide) rfl
    (by decide +kernel) (by decide +kernel) lasting
  have values : s.rules.values = [calling later "first"] := values
  let back : Host := { h with now := .first, ids := ⟨1⟩ }
  have course : Course rulesFile s back := (course.changed step).passed rfl
  have absent : s.rules.contains (calling setBack "second").id = false := by
    rw [OrderedMap.contains, Option.isSome_eq_false_iff, Option.isNone_iff_eq_none]
    refine course.stands.keyed.get?_none.2 fun r member => ?_
    rw [values, List.mem_singleton] at member
    rw [member]
    decide +kernel
  have ordered : comparable (s.rules.values ++ [calling setBack "second"]) = true := by
    rw [values]
    decide +kernel
  have made : created back (.text "second") (.leadUntouched (.nan .computed))
    (.createTask "Call" 9007199254740992)
    [⟨"c", .text "email", .isNotSet, .text "", .and⟩] (.text "")
    (.bool true) = calling setBack "second" := rfl
  obtain ⟨t, k, step, values', -, -⟩ :=
    create_step course.stands site sound (by decide) made absent ordered
    (lasting_calling (by decide) (by decide +kernel))
  rw [values, List.singleton_append] at values'
  have course := course.changed step
  obtain ⟨-, listed, -, turn, -, -, reopened⟩ := course.lasts
  obtain ⟨u, l, loaded, list, -⟩ := reopened k rfl
  have order : listed = [calling setBack "second", calling later "first"] := by
    have first : (calling later "first").createdAt.instant = 1000000 := by decide +kernel
    have second : (calling setBack "second").createdAt.instant = 0 := by decide +kernel
    refine eq_of_levels turn.sorted (by simp [first, second]) fun i => (turn.ties i).trans ?_
    rw [values']
    by_cases here : (1000000 : Int) = i
    · simp [first, second, ← here]
    · simp [List.filter_cons, first, here]
  rw [order] at list
  exact ⟨t, k, course, values', u, l, loaded, list⟩

def callBack : Change :=
  .create (.text "Call") .newLead (.createTask "Call" 9007199254740993) [] (.text "") (.bool true)

def assignment : Change :=
  .create (.text "Assign") .newLead (.assignToUser "") [] (.text "") (.bool true)

def left (c : Change) : Repository × Host := (carryOut c ({ path := some rulesFile }, later)).2

def loadedAfter (c : Change) : Option (List Rule) :=
  (load (some rulesFile) (left c).2).1.toOption.map (·.rules.values)

def writtenForms (s : Repository) : List Value :=
  ((s.toWire.bind Value.iterate).toOption.getD []).map Value.named

theorem loadedAfter_eq {c : Change}
    (kept : (left c).1.toWire.toOption.any (·.keeps Json.depthLimit) = true)
    (written : (left c).1.toWire.toOption.map Json.writeIndented =
      ((left c).2.files.read rulesFile).toOption) :
    loadedAfter c = (loadItems (some rulesFile) (writtenForms (left c).1) (left c).2).1.toOption.map
      (·.rules.values) := by
  rcases wire : (left c).1.toWire with fault | v <;> rw [wire] at kept written
  · cases kept
  · obtain ⟨items, rfl, -⟩ := toWire_items wire
    have forms : writtenForms (left c).1 = items.map Value.named := by rw [writtenForms, wire]; rfl
    have again : Json.reread Json.depthLimit (.list items) = .ok (.list (items.map Value.named)) :=
      (Json.reread_keeps _ kept).trans (congrArg _ (Value.named_list items))
    rw [FileTree.read] at written
    rcases found : (left c).2.files.find rulesFile with fault | ⟨d, _ | _ | s⟩ <;>
      rw [found] at written <;> cases written
    rcases StateFile.load_reread found
      (.list []) with ⟨w, read, loaded⟩ | ⟨refusal, fault, refused, -⟩
    · obtain rfl := Except.ok.inj (again.symm.trans read)
      simp only [loadedAfter, load, loadItems, Op.run_bind, loaded, Value.iterate, Op.run_ofExcept, forms]
    · cases again.symm.trans refused

/-- The first comes back due a day earlier, and the second not at all. -/
theorem reopened_otherwise :
    ((left callBack).1.rules.values.map (·.action) = [.createTask "Call" 9007199254740993] ∧
      (loadedAfter callBack).map (List.map (·.action)) =
        some [.createTask "Call" 9007199254740992]) ∧
    (left assignment).1.rules.values.map
    (·.action) = [.assignToUser ""] ∧ loadedAfter assignment = some [] := by
  have first := loadedAfter_eq (c := callBack) (by decide +kernel) (by decide +kernel)
  have second := loadedAfter_eq (c := assignment) (by decide +kernel) (by decide +kernel)
  rw [first, second]
  decide +kernel

end LeadRules.Repository
