import LeadRules.Proofs.Audit
import LeadRules.Proofs.CursorFile
import LeadRules.Proofs.Restart
import Mathlib.Data.List.Rotate

/-! Round-robin rotation. The members of a team take turns with no gap and no repeat, over events,
assignments made outside of any rule and cursors opened again from their file, whatever the other
teams and rules do in between. -/
namespace LeadRules

namespace Team

/-- The members of a team are listed once each. -/
theorem nodup_eraseDups (listed : List Text) : listed.eraseDups.Nodup := by
  induction size : listed.length using Nat.strongRecOn generalizing listed with
  | ind n ih =>
    cases listed with
    | nil => exact .nil
    | cons user rest =>
      rw [List.eraseDups_cons, List.nodup_cons]
      refine ⟨by simp, ih _ ?_ _ rfl⟩
      have shorter := List.length_filter_le (fun other => !other == user) rest
      rw [← size, List.length_cons]
      omega

end Team

namespace CursorStore

variable {d : Directory} {team other : Text} {s s' s'' : CursorStore}
  {trace later : List (Text × Text)}

theorem following_lt (filled : d.members team ≠ []) (s : CursorStore) :
    s.following team (d.members team).length < (d.members team).length := by
  have size : 0 < ((d.members team).length : Int) := by
    exact_mod_cast List.length_pos_of_ne_nil filled
  have below := Int.emod_lt_of_pos (s.index team + 1) size
  have least := Int.emod_nonneg (s.index team + 1) (Int.ne_of_gt size)
  unfold following
  omega

theorem index_advance (filled : d.members team ≠ []) (s : CursorStore) (other : Text) :
    (s.advance d team).index other =
      if other = team then (s.index team + 1) % (d.members team).length else s.index other := by
  have size : 0 < ((d.members team).length : Int) := by
    exact_mod_cast List.length_pos_of_ne_nil filled
  unfold advance index following
  rw [OrderedMap.get?_put]
  split
  · simp only [Option.getD_some, index]
    exact Int.toNat_of_nonneg (Int.emod_nonneg _ (Int.ne_of_gt size))
  · rfl

/-- Assignments made one after the other, each to the member whose turn it is, and
the cursors after them. -/
inductive Dealt (d : Directory) : CursorStore → List (Text × Text) → CursorStore → Prop
  | nil {s : CursorStore} : Dealt d s [] s
  | cons {s s' : CursorStore} {team : Text} {later : List (Text × Text)}
      (filled : d.members team ≠ [])
      (rest : Dealt d (s.advance d team) later s') :
      Dealt d s ((team, s.upcoming d team) :: later) s'

theorem Dealt.append (first : Dealt d s trace s') (second : Dealt d s' later s'') :
    Dealt d s (trace ++ later) s'' := by
  induction first with
  | nil => exact second
  | cons filled rest ih => exact .cons filled (ih second)

def turnsOf (team : Text) (trace : List (Text × Text)) : List Text :=
  trace.filterMap fun a => if a.1 = team then some a.2 else none

theorem turnsOf_same (team user : Text) (later : List (Text × Text)) :
    turnsOf team ((team, user) :: later) = user :: turnsOf team later := by
  simp [turnsOf]

theorem turnsOf_other {team other : Text} (differs : other ≠ team) (user : Text)
    (later : List (Text × Text)) :
    turnsOf team ((other, user) :: later) = turnsOf team later := by
  simp [turnsOf, differs]

theorem Dealt.index (dealt : Dealt d s trace s') (filled : d.members team ≠ []) :
    s'.index team = if turnsOf team trace = [] then s.index team
      else (s.index team + (turnsOf team trace).length) % (d.members team).length := by
  induction dealt with
  | nil => rfl
  | @cons s s' other later filled' rest ih =>
    rw [ih, index_advance filled']
    by_cases same : other = team
    · subst same
      rw [turnsOf_same, if_pos rfl, if_neg (List.cons_ne_nil _ _)]
      split
      next none => simp [none]
      next =>
        rw [Int.emod_add_emod, List.length_cons]
        congr 1
        push_cast
        omega
    · rw [turnsOf_other same, if_neg (Ne.symm same)]

/-- The turns of a team go round, starting behind its cursor. -/
theorem Dealt.turn (dealt : Dealt d s trace s') (filled : d.members team ≠ []) {i : Nat}
    (made : i < (turnsOf team trace).length) : (turnsOf team trace)[i]? =
      (d.members team)[((s.index team + 1 + i) % (d.members team).length).toNat]? := by
  induction dealt generalizing i with
  | nil => cases made
  | @cons s s' other later filled' rest ih =>
    by_cases same : other = team
    · subst same
      rw [turnsOf_same] at made ⊢
      cases i with
      | zero =>
        have within := following_lt filled s
        have upcoming :
            s.upcoming d other = (d.members other)[s.following other (d.members other).length] := by
          simp [CursorStore.upcoming, within]
        rw [List.getElem?_cons_zero, upcoming, ← List.getElem?_eq_getElem within]
        simp [following]
      | succ i =>
        rw [List.getElem?_cons_succ, ih (by simpa using made), index_advance filled', if_pos rfl]
        rw [Int.add_assoc, Int.emod_add_emod]
        congr 3
        push_cast
        omega
    · rw [turnsOf_other same] at made ⊢
      rw [ih made, index_advance filled', if_neg (Ne.symm same)]

/-- As many turns in a row as a team has members are the members, in their order from some of them
on. -/
theorem Dealt.round (dealt : Dealt d s trace s') (filled : d.members team ≠ []) {start : Nat}
    (made : start + (d.members team).length ≤ (turnsOf team trace).length) :
    ((turnsOf team trace).drop start).take (d.members team).length =
      (d.members team).rotate ((s.index team + 1 + start) % (d.members team).length).toNat := by
  have size : 0 < ((d.members team).length : Int) := by
    exact_mod_cast List.length_pos_of_ne_nil filled
  refine List.ext_getElem? fun j => ?_
  by_cases within : j < (d.members team).length
  · have least := Int.emod_nonneg (s.index team + 1 + start) (Int.ne_of_gt size)
    have place : ((s.index team + 1 + (start + j : Nat)) % (d.members team).length).toNat =
        (j + ((s.index team + 1 + start) % (d.members team).length).toNat) %
          (d.members team).length := by
      have cast :
        ((j + ((s.index team + 1 + start) % (d.members team).length).toNat) %
          (d.members team).length : Nat) =
          (s.index team + 1 + (start + j : Nat)) % ((d.members team).length : Int) := by
        rw [Int.natCast_emod, Int.natCast_add, Int.toNat_of_nonneg least, Int.add_emod_emod]
        congr 1
        push_cast
        omega
      rw [← cast, Int.toNat_natCast]
    rw [List.getElem?_rotate within, List.getElem?_take_of_lt within, List.getElem?_drop,
      dealt.turn filled (by omega), place]
  · rw [List.getElem?_eq_none (by simp; omega), List.getElem?_eq_none (by simp; omega)]

/-- Turns that go round some members, starting behind a cursor: who has each of them, no
one passed over and no one twice in as many in a row as there are members, and where the
cursor is after them. -/
structure GoesRound (members : List Text) (start : Int) (turns : List Text)
    (stop : Int) : Prop where
  turn : ∀ i < turns.length, turns[i]? = members[((start + 1 + i) % members.length).toNat]?
  once : ∀ i, i + members.length ≤ turns.length → ∀ user ∈ members,
    ((turns.drop i).take members.length).count user = 1
  cursor : stop = if turns = [] then start else (start + turns.length) % members.length

theorem Dealt.goesRound {t : Team} (dealt : Dealt d s trace s') (known : d.teams.get? team = some t)
    (some : t.listedMembers ≠ []) :
    GoesRound t.listedMembers.eraseDups (s.index team) (turnsOf team trace) (s'.index team) := by
  have members : d.members team = t.listedMembers.eraseDups := by rw [Directory.members, known]; rfl
  obtain ⟨user, listed⟩ := List.exists_mem_of_ne_nil _ some
  have filled : d.members team ≠ [] := by
    rw [members]
    exact List.ne_nil_of_mem (List.mem_eraseDups.2 listed)
  rw [← members]
  refine ⟨fun i made => dealt.turn filled made, fun i made user member => ?_, dealt.index filled⟩
  rw [dealt.round filled made, (List.rotate_perm _ _).count_eq]
  exact List.count_eq_one_of_mem (members ▸ Team.nodup_eraseDups _) member

end CursorStore

/-! A folder of state files takes what is saved in it, and tells it. -/
namespace StateFile

variable {p : FilePath} {d : Place} {now : DateTime} {c : Contents} {h k : Host} {name : Text}

theorem below_inj {name other : Text} : p.below name = p.below other ↔ name = other := by
  simp [FilePath.below]

theorem Shelf.node (shelf : Shelf p d now c h) (member : name ∈ written) :
    h.node (p.below name) = .ok (c name) := by
  have site := shelf.sites name member
  rw [Host.node, FileTree.find_below site.stands site.fits site.nameable,
    shelf.nodes name (List.mem_cons_of_mem _ member)]
  rfl

/-- What is saved on a shelf stands there afterwards. -/
theorem Shelf.saveAll {saves : List (Option FilePath × Value)} (shelf : Shelf p d now c h)
    (there : ∀ s ∈ saves, ∃ name ∈ written, s.1 = some (p.below name)) : ∃ c' k,
    StateFile.saveAll saves h = (.ok (), k) ∧ Shelf p d now c' k ∧ ∀ name ∈ written, c' name =
      (Host.latest (some (p.below name)) saves).elim (c name) fun v =>
        some (.file (Json.writeIndented v)) := by
  induction saves generalizing c h with
  | nil => exact ⟨c, h, rfl, shelf, fun _ _ => rfl⟩
  | cons s rest ih =>
    obtain ⟨name, member, place⟩ := there s List.mem_cons_self
    obtain ⟨k, saved, shelf⟩ := shelf.save member s.2
    obtain ⟨c', l, run, shelf, latest⟩ :=
      ih shelf fun s' member => there s' (List.mem_cons_of_mem _ member)
    refine ⟨c', l, ?_, shelf, fun other written => ?_⟩
    · rw [StateFile.saveAll, Op.run_bind, place, saved]
      exact run
    · rw [latest other written, Host.latest, place]
      cases Host.latest (some (p.below other)) rest with
      | some v => rfl
      | none =>
        by_cases same : other = name
        · simp [same]
        · rw [if_neg fun place => same (below_inj.1 (Option.some.inj place)).symm,
            Function.update_of_ne same]
          rfl

def shelved (p : FilePath) : List (Option FilePath) := written.map fun name => some (p.below name)

theorem Shelf.takes (shelf : Shelf p d now c h) : h.Takes (shelved p) := by
  intro saves there
  obtain ⟨c', k, run, -, -⟩ := shelf.saveAll fun s member => by
    obtain ⟨name, written, place⟩ := List.mem_map.1 (there s member)
    exact ⟨name, written, place.symm⟩
  rw [run]

theorem Shelf.tells (shelf : Shelf p d now c h) (member : name ∈ written) :
    h.Tells (shelved p) (p.below name) := by
  rintro saves there k ⟨k', run, twin⟩
  obtain ⟨c', l, run', shelf', latest⟩ := shelf.saveAll fun s member => by
    obtain ⟨name, written, place⟩ := List.mem_map.1 (there s member)
    exact ⟨name, written, place.symm⟩
  cases run.symm.trans run'
  have node := shelf'.node member
  rw [latest name member] at node
  rw [Host.node, twin.files, ← Host.node, node, shelf.node member]
  cases Host.latest (some (p.below name)) saves <;> rfl

end StateFile

namespace Engine

open CursorStore (Dealt)

variable {e : Event} {r : Rule} {rules : List Rule} {outcomes : List RuleOutcome} {g g' : Engine}
  {h h₁ k : Host}
  {result : RuleResult} {team : Text} {p : FilePath}

def asked (r : Rule) (e : Event) : StoreOp Engine (Option (Except ActionFailure Effect)) := do
  if !(← fires r e) then return none
  if !(← meets r e.lead) then return none
  if (← Op.store).ledger.isProcessed (deliveryKey r e) then return none
  let result ← onExecutor (Executor.resolve e.lead r.action)
  return some result

/-- The team and the member that a rule of a round robin assigns a lead to on an event, if it
does. -/
def assignment (r : Rule) (e : Event) (s : Engine × Host) : Option (Text × Text) :=
  match r.action, (asked r e s).1 with
  | .assignRoundRobin _, .ok (some (.ok (.reassign user (some team)))) => some (team, user)
  | _, _ => none

/-- What is asked for depends on whether the rule halts before. -/
theorem asked_run (r : Rule) (e : Event) (g : Engine) (h : Host) : ∃ h₁, h.Relogged h₁ ∧
    ((g.halt r e).isSome = true → ∀ x, (asked r e (g, h)).1 ≠ .ok (some x)) ∧
    (g.halt r e = none →
      (asked r e (g, h)).1 = (Executor.resolve e.lead r.action (g.executor, h₁)).1.map some) := by
  obtain ⟨h₁, noted, firing⟩ := fires_run r e g h
  obtain ⟨h₂, noted', meeting⟩ := meets_run r e.lead (g.seeing r e) h₁
  refine ⟨h₂, noted.trans noted', ?_⟩
  rw [asked, Op.run_bind, firing]
  cases room : (g.sighting r e).exhausted with
  | true => simp [halt, room]
  | false =>
    cases fired : (g.sighting r e).fired with
    | false => simp [halt, room, fired]
    | true =>
      simp only [Bool.false_eq_true, if_false, Bool.not_true, Op.run_bind, meeting]
      rcases met : r.verdict g.catalog e.lead with fault | _ | _
      · simp [halt, room, fired, met, seeing]
      · simp [halt, room, fired, met, seeing]
      · cases known : g.ledger.isProcessed (deliveryKey r e) with
        | true => simp [halt, room, fired, met, seeing, known, Op.run_bind]
        | false =>
          have clear : g.halt r e = none := by simp [halt, room, fired, met, known]
          simp only [seeing, met]
          rw [clear]
          simp only [Bool.not_true, Bool.false_eq_true, if_false, Op.run_bind, Op.run_store, known,
            onExecutor, Op.run_onPart]
          rcases Executor.resolve e.lead r.action (g.executor, h₂) with ⟨fault | result, s⟩ <;>
            simp [Except.map]

theorem assignment_halted (halted : (g.halt r e).isSome = true) (h : Host) :
    assignment r e (g, h) = none := by
  obtain ⟨_, -, none, -⟩ := asked_run r e g h
  unfold assignment
  split
  next user team asked => exact absurd asked (none halted _)
  next => rfl

/-- A rule assigns just what its action would move the cursors for, if the rule does not halt
before it. -/
theorem assignment_eq (takes : h.Takes g.places) (r : Rule) (e : Event) : assignment r e (g, h) =
    if (g.halt r e).isSome then none
    else (Executor.rotated g.executor.directory r.action).map fun team =>
      (team, g.executor.cursors.upcoming g.executor.directory team) := by
  obtain ⟨h₁, noted, -, clear⟩ := asked_run r e g h
  have takes := takes_cursors takes noted
  cases halt : g.halt r e with
  | some result => exact assignment_halted (by rw [halt]; rfl) h
  | none =>
    have clear := clear halt
    unfold assignment
    cases action : r.action with
    | assignRoundRobin name =>
      rw [action] at clear
      cases rotates : Executor.rotated g.executor.directory (.assignRoundRobin name) with
      | none =>
        obtain ⟨failure, run⟩ := Executor.nextOfTeam_empty (Executor.rotated_eq_none rotates)
        have run : Executor.resolve e.lead (.assignRoundRobin name) (g.executor, h₁) =
          (.ok (.error failure), (g.executor, h₁)) := run g.executor rfl h₁
        rw [clear, run]
        rfl
      | some team =>
        obtain ⟨k, saved⟩ := takes.save (List.mem_singleton_self _)
          (g.executor.cursors.advance g.executor.directory team).toWire
        obtain ⟨l, -, run⟩ := Executor.resolve_rotated rotates e.lead saved
        rw [clear, run]
        rfl
    | _ => rfl

def assignmentsOf (e : Event) : List Rule → Engine × Host → List (Text × Text)
  | [], _ => []
  | r :: rest, s => (assignment r e s).toList ++ assignmentsOf e rest (outcomeOf e r s).2

theorem Stage.dealt (stage : Stage e r g h result g' k) (takes : h.Takes g.places) :
    Dealt g.executor.directory g.executor.cursors
      (assignment r e (g, h)).toList g'.executor.cursors := by
  have acted {x : Executor} {h₁ h₂ : Host} {answer : Except Fault ActionResult}
    (clear : g.halt r e = none)
      (before : h.Relogged h₁)
      (executed : Executor.execute r.action e.lead (.text r.id) (g.executor, h₁) = (answer, (x, h₂))) :
      Dealt g.executor.directory g.executor.cursors (assignment r e (g, h)).toList x.cursors := by
    have leaves := Executor.execute_leaves (takes_cursors takes before) executed
    rw [assignment_eq takes, clear, leaves.cursors, Executor.cursorsAfter]
    cases rotates : Executor.rotated g.executor.directory r.action with
    | none => exact .nil
    | some team => exact .cons (Executor.rotated_eq_some rotates).2 .nil
  cases stage with
  | halted halt noted =>
    rw [assignment_eq takes, halt]
    exact .nil
  | faulty clear before executed noted => exact acted clear before executed
  | acted clear before executed noted => exact acted clear before executed

/-- The outcome of a turn carries the assignment that the rule made, unless the ledger cannot hold
any delivery. -/
theorem Stage.assignment? (stage : Stage e r g h result g' k) (takes : h.Takes g.places)
    (bound : 0 ≤ g.ledger.maxEntries) : result.assignment? = assignment r e (g, h) := by
  cases stage with
  | halted halt noted =>
    rw [assignment_eq takes, halt]
    exact (RuleResult.quiet (halt_actionResult? halt)).2.2
  | faulty clear before executed noted =>
    have takes' := takes_cursors takes before
    rw [assignment_eq takes, clear, (Executor.execute_faulty takes' executed).2]
    rfl
  | acted clear before executed noted =>
    have takes' := takes_cursors takes before
    rw [assignment_eq takes, clear, if_neg (Int.not_lt.2 bound)]
    exact (RuleResult.ofAction_acted _).2.2.1.trans (Executor.execute_assignment? takes' executed)

theorem Turns.dealt (turns : Turns e rules g h outcomes g' k) (takes : h.Takes g.places) :
    Dealt g.executor.directory g.executor.cursors
      (assignmentsOf e rules (g, h)) g'.executor.cursors := by
  induction turns with
  | nil => exact .nil
  | cons run first later ih =>
    have frame := first.stage.frame takes
    have rest := ih (frame.takes takes)
    rw [frame.directory] at rest
    rw [assignmentsOf, run]
    exact (first.stage.dealt takes).append rest

/-- An engine whose cursors have a file of their own that is read as it was saved. -/
structure Filed (p : FilePath) (g : Engine) (h : Host) : Prop where
  path : g.executor.cursors.path = some p
  edges : g.edges.path ≠ some p
  ledger : g.ledger.path ≠ some p
  tells : h.Tells g.places p
  opened : (CursorStore.load (some p) h).1 = .ok g.executor.cursors
  held : ∀ e ∈ g.executor.cursors.cursors.entries, Json.Held e
  holds : ∀ team, ∀ i < (g.executor.directory.members team).length, Json.Held (team, (i : Int))

namespace Filed

variable {saves : List (Option FilePath × Value)} {a : Action}

/-- What is saved leaves the file with what its cursors are read from, if they were
opened from it before. -/
theorem framed (filed : Filed p g h) (frame : Frame g h g' k) (after : h.After saves k)
    (there : ∀ s ∈ saves, s.1 ∈ g.places) (path : g'.executor.cursors.path = some p)
    (opened : (CursorStore.load (some p) k).1 = .ok g'.executor.cursors)
    (held : ∀ e ∈ g'.executor.cursors.cursors.entries, Json.Held e) : Filed p g' k := by
  have places := frame.places
  simp only [Engine.places, List.cons.injEq] at places
  exact {
    path, opened, held
    edges := places.2.1 ▸ filed.edges
    ledger := places.2.2.1 ▸ filed.ledger
    tells := frame.places ▸ filed.tells.after there after
    holds := frame.directory ▸ filed.holds }

/-- Cursors that stay as they are stay in their file, whatever is saved in the others. -/
theorem still (filed : Filed p g h) (frame : Frame g h g' k)
    (same : g'.executor.cursors = g.executor.cursors)
    (leads : h.Leads [g.edges.path, g.ledger.path] k) : Filed p g' k := by
  obtain ⟨saves, there, after⟩ := leads
  have inside : ∀ s ∈ saves, s.1 ∈ g.places := fun s member => g.stores_mem_places (there s member)
  have elsewhere : ∀ s ∈ saves, s.1 ≠ some p := by
    intro s member
    have place := there s member
    simp only [List.mem_cons, List.not_mem_nil, or_false] at place
    rcases place with edges | ledger
    · exact edges ▸ filed.edges
    · exact ledger ▸ filed.ledger
  have node : k.node p = h.node p := by
    rw [filed.tells saves inside k after, Host.latest_elsewhere elsewhere]
    rfl
  refine filed.framed frame after inside (same ▸ filed.path) ?_ (same ▸ filed.held)
  rw [same, ← filed.opened]
  exact CursorStore.load_node node

/-- Cursors that moved are in the file as they moved. -/
theorem moved (filed : Filed p g h) (frame : Frame g h g' k)
    (filled : g.executor.directory.members team ≠ [])
    (same : g'.executor.cursors = g.executor.cursors.advance g.executor.directory team)
    (after : h.After [(g.executor.cursors.path,
      (g.executor.cursors.advance g.executor.directory team).toWire)] k) :
    Filed p g' k := by
  have inside : ∀ s ∈ [(g.executor.cursors.path,
      (g.executor.cursors.advance g.executor.directory team).toWire)],
      s.1 ∈ g.places := by simp [Engine.places]
  have path : (g.executor.cursors.advance g.executor.directory team).path = some p := filed.path
  have held : ∀ e ∈ (g.executor.cursors.advance g.executor.directory team).cursors.entries,
      Json.Held e := by
    intro e member
    rcases Entries.mem_put member with old | rfl
    · exact filed.held e old
    · exact filed.holds team _ (CursorStore.following_lt filled _)
  have node : k.node p =
      .ok (some (.file (Json.writeIndented
        (g.executor.cursors.advance g.executor.directory team).toWire))) := by
    rw [filed.tells _ inside k after, filed.path]
    simp [Host.latest]
  refine filed.framed frame after inside ?_ ?_ ?_ <;> rw [same]
  · exact path
  · rw [CursorStore.load_saved path held node]
  · exact held

/-- An action keeps the cursors in their file. -/
theorem acted {a : Action} (filed : Filed p g h) (frame : Frame g h g' k)
    (same : g'.executor.cursors = g.executor.cursorsAfter a)
    (after : h.After (g.executor.saves a) k) : Filed p g' k := by
  unfold Executor.cursorsAfter at same
  unfold Executor.saves at after
  cases rotates : Executor.rotated g.executor.directory a with
  | none =>
    rw [rotates] at same after
    exact filed.still frame same ⟨[], fun _ member => absurd member List.not_mem_nil, after⟩
  | some team =>
    rw [rotates] at same after
    exact filed.moved frame (Executor.rotated_eq_some rotates).2 same after

end Filed

theorem Stage.filed (stage : Stage e r g h result g' k) (takes : h.Takes g.places)
    (filed : Filed p g h) :
    Filed p g' k := by
  have frame := stage.frame takes
  have acted {x : Executor} {h₁ h₂ : Host} {answer : Except Fault ActionResult}
    (before : h.Relogged h₁)
      (executed : Executor.execute r.action e.lead (.text r.id) (g.executor, h₁) = (answer, (x, h₂)))
      (noted : h₂.Relogged k) (same : g'.executor.cursors = x.cursors) : Filed p g' k := by
    have leaves := Executor.execute_leaves (takes_cursors takes before) executed
    refine filed.acted frame (same.trans leaves.cursors) ?_
    exact (Host.After.relogged before).trans (leaves.host.noted noted)
  cases stage with
  | halted halt noted => exact filed.still frame rfl (.relogged noted)
  | faulty clear before executed noted => exact acted before executed noted rfl
  | acted clear before executed noted => exact acted before executed noted rfl

theorem Turns.filed (turns : Turns e rules g h outcomes g' k) (takes : h.Takes g.places)
    (filed : Filed p g h) :
    Filed p g' k := by
  induction turns with
  | nil => exact filed
  | cons run first later ih =>
    exact ih ((first.stage.frame takes).takes takes) (first.stage.filed takes filed)

def assign (team : Text) : StoreOp Engine Text :=
  onExecutor do
    let d := (← Op.store).directory
    Executor.onCursors (CursorStore.next d team)

def reload : StoreOp Engine Unit :=
  onExecutor do
    let x ← Op.store
    let cursors ← Op.onHost (CursorStore.load x.cursors.path)
    Op.setStore { x with cursors }

inductive Activity where
  | event (e : Event)
  | assign (team : Text)
  | reload

namespace Activity

def after : Activity → Engine × Host → Engine × Host
  | event e, s => (onEvent e s).2
  | assign team, s => (Engine.assign team s).2
  | reload, s => (Engine.reload s).2

def assignments : Activity → Engine × Host → List (Text × Text)
  | event e, s =>
    match s.1.rules.rulesFor e.kind.trigger with
    | .ok rules => assignmentsOf e rules s
    | .error _ => []
  | assign team, s =>
    match (Engine.assign team s).1 with
    | .ok user => [(team, user)]
    | .error _ => []
  | reload, _ => []

end Activity

def afterAll (activities : List Activity) (s : Engine × Host) : Engine × Host :=
  activities.foldl (fun s a => a.after s) s

def assignments : List Activity → Engine × Host → List (Text × Text)
  | [], _ => []
  | a :: rest, s => a.assignments s ++ assignments rest (a.after s)

theorem assign_run (takes : h.Takes g.places)
    (filled : g.executor.directory.members team ≠ []) : ∃ k,
    assign team (g, h) = (.ok (g.executor.cursors.upcoming g.executor.directory team),
      ({ g with executor :=
        { g.executor with cursors := g.executor.cursors.advance g.executor.directory team } }, k)) ∧
    h.After [(g.executor.cursors.path,
      (g.executor.cursors.advance g.executor.directory team).toWire)] k := by
  obtain ⟨k, saved⟩ := (takes.mono g.cursors_mem_places).save (List.mem_singleton_self _)
    (g.executor.cursors.advance g.executor.directory team).toWire
  obtain ⟨l, noted, run⟩ := CursorStore.next_run filled saved
  refine ⟨l, ?_, .save saved noted⟩
  simp [assign, onExecutor, Executor.onCursors, Op.run_bind, run]

theorem assign_empty (none : g.executor.directory.members team = []) (h : Host) :
    assign team (g, h) = (.error (.emptyTeam team), (g, h)) := by
  simp [assign, onExecutor, Executor.onCursors, Op.run_bind, CursorStore.next_empty none]

theorem reload_run (filed : Filed p g h) :
    ∃ k, h.Relogged k ∧ reload (g, h) = (.ok (), (g, k)) := by
  have noted := CursorStore.load_relogged (some p) h
  have opened := filed.opened
  rw [← filed.path] at noted opened
  revert noted opened
  rcases run : CursorStore.load g.executor.cursors.path h with ⟨x, k⟩
  rintro noted rfl
  refine ⟨k, noted, ?_⟩
  simp [reload, onExecutor, Op.run_bind, run]

structure Passes (made : List (Text × Text)) (g : Engine) (h : Host) (g' : Engine)
    (k : Host) : Prop where
  frame : Frame g h g' k
  dealt : Dealt g.executor.directory g.executor.cursors made g'.executor.cursors
  filed : ∀ p, Filed p g h → Filed p g' k

theorem onEvent_passes (takes : h.Takes g.places) (e : Event) :
    Passes ((Activity.event e).assignments (g, h)) g h (onEvent e (g, h)).2.1
      (onEvent e (g, h)).2.2 := by
  cases chosen : g.rules.rulesFor e.kind.trigger with
  | error fault =>
    rw [onEvent_unordered chosen]
    refine ⟨.relogged g (.refl h), ?_, fun _ filed => filed⟩
    simp only [Activity.assignments, chosen]
    exact .nil
  | ok rules =>
    obtain ⟨outcomes, g₁, h₁, g', k, run, turns, flushed, leads⟩ := onEvent_passage takes chosen
    have frame := turns.along takes
    have executor := flushed.executor
    rw [run]
    refine ⟨frame.trans (flushed.frame leads), ?_, fun p filed => ?_⟩
    · simp only [Activity.assignments, chosen, executor]
      exact turns.dealt takes
    · exact (turns.filed takes filed).still (flushed.frame leads) (by rw [executor]) leads

theorem assign_passes (takes : h.Takes g.places) (team : Text) :
    Passes ((Activity.assign team).assignments (g, h)) g h (assign team (g, h)).2.1
      (assign team (g, h)).2.2 := by
  rw [Activity.assignments]
  by_cases filled : g.executor.directory.members team = []
  · rw [assign_empty filled h]
    exact ⟨.relogged g (.refl h), .nil, fun _ filed => filed⟩
  · obtain ⟨k, run, after⟩ := assign_run takes filled
    have frame : Frame g h { g with executor := { g.executor with
        cursors := g.executor.cursors.advance g.executor.directory team } } k :=
      ⟨rfl, rfl, rfl, rfl, rfl, rfl, ⟨_, by simp [places], after⟩⟩
    rw [run]
    exact ⟨frame, .cons filled .nil, fun p filed => filed.moved frame filled rfl after⟩

theorem Activity.passes (takes : h.Takes g.places) (a : Activity)
    (kept : a = .reload → ∃ p, Filed p g h) :
    Passes (a.assignments (g, h)) g h (a.after (g, h)).1 (a.after (g, h)).2 := by
  cases a with
  | event e => exact onEvent_passes takes e
  | assign team => exact assign_passes takes team
  | reload =>
    obtain ⟨p, filed⟩ := kept rfl
    obtain ⟨k, noted, run⟩ := reload_run filed
    rw [Activity.after, run]
    have frame := Frame.relogged g noted
    exact ⟨frame, .nil, fun p filed => filed.still frame rfl (.relogged noted)⟩

theorem passes_all (takes : h.Takes g.places) (activities : List Activity)
    (kept : .reload ∈ activities → ∃ p, Filed p g h) :
    Passes (assignments activities (g, h)) g h (afterAll activities (g, h)).1
      (afterAll activities (g, h)).2 := by
  induction activities generalizing g h with
  | nil => exact ⟨.relogged g (.refl h), .nil, fun _ filed => filed⟩
  | cons a rest ih =>
    have first := a.passes takes fun reload => kept (reload ▸ List.mem_cons_self)
    have later := ih (first.frame.takes takes) fun member => by
      obtain ⟨p, filed⟩ := kept (List.mem_cons_of_mem _ member)
      exact ⟨p, first.filed p filed⟩
    have dealt := later.dealt
    rw [first.frame.directory] at dealt
    exact ⟨first.frame.trans later.frame, first.dealt.append dealt,
      fun p filed => later.filed p (first.filed p filed)⟩

theorem Turns.assignments (turns : Turns e rules g h outcomes g' k) (takes : h.Takes g.places)
    (bound : 0 ≤ g.ledger.maxEntries) :
    outcomes.filterMap (·.result.assignment?) = assignmentsOf e rules (g, h) := by
  induction turns with
  | nil => rfl
  | @cons r rest g g₁ g₂ h h₁ h₂ result outcomes run first later ih =>
    have frame := first.stage.frame takes
    rw [assignmentsOf, run, ← first.stage.assignment? takes bound,
      ← ih (frame.takes takes) (frame.ledgerMax ▸ bound)]
    cases assigned : result.assignment? <;> simp [assigned]

/-- An outcome carries what its event assigned, unless the ledger cannot hold any delivery. -/
theorem onEvent_assignments (takes : h.Takes g.places) (bound : 0 ≤ g.ledger.maxEntries)
    {o : EventOutcome}
    (answered : (onEvent e (g, h)).1 = .ok o) :
    o.rules.filterMap (·.result.assignment?) = (Activity.event e).assignments (g, h) := by
  cases chosen : g.rules.rulesFor e.kind.trigger with
  | error fault =>
    rw [onEvent_unordered chosen] at answered
    cases answered
  | ok rules =>
    obtain ⟨outcomes, g₁, h₁, g', k, run, turns, -, -⟩ := onEvent_passage takes chosen
    rw [run] at answered
    obtain rfl := Except.ok.inj answered
    simp only [Activity.assignments, chosen]
    exact turns.assignments takes bound

/-- Whatever happens to an engine, the turns of a team go round its members from its cursor on:
over events whose rules it takes part in or not, assignments outside of any rule, which always
succeed, and reloads of the cursors from their file, if they have one. The outcomes of the events
carry the turns that their rules took, and a rule that does not fire, whose conditions fail or
whose delivery is a duplicate takes none. -/
theorem turns_go_round {t : Team} (activities : List Activity) (takes : h.Takes g.places)
    (known : g.executor.directory.teams.get? team = some t) (some : t.listedMembers ≠ [])
    (kept : .reload ∈ activities → ∃ p, Filed p g h) :
    CursorStore.GoesRound t.listedMembers.eraseDups (g.executor.cursors.index team)
      (CursorStore.turnsOf team (assignments activities (g, h)))
      ((afterAll activities (g, h)).1.executor.cursors.index team) ∧
    (∀ before later, activities = before ++ .assign team :: later →
      ∃ user, (assign team (afterAll before (g, h))).1 = .ok user) ∧
    (0 ≤ g.ledger.maxEntries → ∀ before e later o, activities = before ++ .event e :: later →
      (onEvent e (afterAll before (g, h))).1 = .ok o →
        o.rules.filterMap (·.result.assignment?) =
          (Activity.event e).assignments (afterAll before (g, h))) ∧
    ∀ e r g₁ h₁ result g₂ h₂, outcomeOf e r (g₁, h₁) = (.ok ⟨r.id, r.name, result⟩, (g₂, h₂)) →
      result = .notFired ∨ result = .conditionsNotMet ∨ result = .duplicate →
        assignment r e (g₁, h₁) = none ∧ g₂.executor = g₁.executor := by
  have reached {before later : List Activity} (split : activities = before ++ later) :=
    passes_all takes before fun reload => kept (split ▸ List.mem_append_left _ reload)
  refine ⟨(passes_all takes activities kept).dealt.goesRound known some, ?_, ?_, ?_⟩
  · intro before later split
    have passes := reached split
    have filled : (afterAll before (g, h)).1.executor.directory.members team ≠ [] := by
      rw [passes.frame.directory, Directory.members, known]
      obtain ⟨user, listed⟩ := List.exists_mem_of_ne_nil _ some
      exact List.ne_nil_of_mem (List.mem_eraseDups.2 listed)
    obtain ⟨k, run, -⟩ := assign_run (passes.frame.takes takes) filled
    exact ⟨_, congrArg Prod.fst run⟩
  · intro bound before e later o split answered
    have passes := reached split
    exact onEvent_assignments (passes.frame.takes takes) (passes.frame.ledgerMax ▸ bound) answered
  · intro e r g₁ h₁ result g₂ h₂ run idle
    obtain ⟨result', _, _, run', turn⟩ := outcomeOf_turn e r g₁ h₁
    cases run.symm.trans run'
    obtain ⟨halt, executor⟩ := turn.stage.halt_of_idle idle
    exact ⟨assignment_halted (by rw [halt]; rfl) h₁, executor⟩

open CommandLine (cursorsFile edgesFile ledgerFile)

def pair : Team := ⟨"sales", .text "Sales", none, ["ann", "bob", "ann"]⟩

def rota : Engine where
  rules := { rules := .ofList [("tag", rotating)] }
  executor := {
    directory := { teams := .ofList [("sales", pair)] }
    cursors :=
      { path := some (Setup.desk.folder.below cursorsFile), cursors := .ofList [("sales", -7)] } }
  edges := { path := some (Setup.desk.folder.below edgesFile) }
  ledger := { path := some (Setup.desk.folder.below ledgerFile) }

def shift : List Activity := [.event completion, .reload, .assign "sales", .event completion,
  .event { completion with id := "e2", lead := { id := "L2" } }]

def stocked : Host :=
  (StateFile.save rota.executor.cursors.path rota.executor.cursors.toWire Setup.office).2

theorem rota_filed : stocked.Takes rota.places ∧ ∃ p, Filed p rota stocked := by
  obtain ⟨d, shelf, -⟩ := Setup.desk_ready.shelf
  obtain ⟨k, saved, shelf⟩ := shelf.save StateFile.cursorsFile_mem rota.executor.cursors.toWire
  have stocks : stocked = k := by
    rw [stocked, show rota.executor.cursors.path = some (Setup.desk.folder.below cursorsFile)
      from rfl, saved]
  rw [stocks]
  have apart {name other : Text} (differ : name ≠ other) :
      some (Setup.desk.folder.below name) ≠ some (Setup.desk.folder.below other) :=
    fun same => differ (StateFile.below_inj.1 (Option.some.inj same))
  have unsplit : Text.Unsplit "sales" := by unfold Text.Unsplit; decide +kernel
  have held (n : Int) (small : n.natAbs < 10) : Json.Held ("sales", n) :=
    ⟨unsplit, Nat.lt_of_lt_of_le small (Nat.le_self_pow (by decide) 10)⟩
  have entries : ∀ e ∈ rota.executor.cursors.cursors.entries, Json.Held e := by
    intro e member
    rw [List.mem_singleton.1 member]
    exact held (-7) (by decide)
  have node := shelf.node StateFile.cursorsFile_mem
  rw [Function.update_self] at node
  have takes : k.Takes rota.places := shelf.takes
  refine ⟨takes, Setup.desk.folder.below cursorsFile, ?_⟩
  exact {
    path := rfl
    edges := apart (by decide +kernel)
    ledger := apart (by decide +kernel)
    tells := shelf.tells StateFile.cursorsFile_mem
    opened := by rw [CursorStore.load_saved rfl entries node]
    held := entries
    holds := by
      intro team i place
      rw [Directory.members] at place
      cases known : rota.executor.directory.teams.get? team with
      | none =>
        rw [known] at place
        cases place
      | some t =>
        obtain ⟨rfl, rfl⟩ := Prod.mk.inj (List.mem_singleton.1 (Entries.mem_of_get? known))
        rw [known] at place
        exact held i (Nat.lt_trans place (by decide +kernel)) }

theorem turns_go_round_rota :
    (stocked.Takes rota.places ∧ ∃ p, Filed p rota stocked) ∧
    CursorStore.turnsOf "sales" (assignments shift (rota, stocked)) =
      (["ann", "bob", "ann"] : List Text) ∧
    CursorStore.GoesRound ["ann", "bob"] (-7) ["ann", "bob", "ann"]
      ((afterAll shift (rota, stocked)).1.executor.cursors.index "sales") := by
  have turns : CursorStore.turnsOf "sales" (assignments shift (rota, stocked)) =
      (["ann", "bob", "ann"] : List Text) := by
    decide +kernel
  have round :=
    (turns_go_round shift rota_filed.1
      (show rota.executor.directory.teams.get? "sales" = some pair from rfl)
    (List.cons_ne_nil _ _) fun _ => rota_filed.2).1
  rw [turns] at round
  exact ⟨rota_filed, turns, round⟩

end Engine
end LeadRules
