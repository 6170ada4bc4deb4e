import LeadRules.Proofs.Twins

/-! Disks that take all that is saved at some places. What is saved leads from one host to the
next: the clock stands, the disk goes on taking what is saved, and where files are apart each
holds what it was given last. -/
namespace LeadRules

namespace StateFile

def saveAll : List (Option FilePath × Value) → Op Host Unit
  | [] => return
  | (path, v) :: rest => do
    save path v
    saveAll rest

theorem saveAll_append (xs ys : List (Option FilePath × Value)) :
    saveAll (xs ++ ys) = (do saveAll xs; saveAll ys) := by
  induction xs with
  | nil => rfl
  | cons x rest ih => simp [saveAll, ih]

theorem saveAll_steady (saves : List (Option FilePath × Value)) :
    Op.Steady Host.Twin (saveAll saves) := by
  induction saves with
  | nil => exact .pure ()
  | cons s rest ih => exact .bind (Op.save_steady s.1 s.2) fun _ => ih

end StateFile

namespace Op

def Timeless {α : Type} (op : Op Host α) : Prop := Within (fun h k => k.now = h.now) op

theorem Timeless.bind {α β : Type} {op : Op Host α} {next : α → Op Host β} (first : Timeless op)
    (later : ∀ a, Timeless (next a)) : Timeless (op >>= next) :=
  Within.bind (fun first second => second.trans first) first later

theorem changeFiles_timeless (p : FilePath) (change : FileTree → Except Fault FileTree) :
    Timeless (changeFiles p change) := by
  intro h
  simp only [changeFiles, run_bind, run_get, run_set, run_ite]
  split
  · rfl
  · cases change h.files <;> rfl

theorem makeFoldersTo_timeless (p : FilePath) (depth : Nat) : Timeless (makeFoldersTo p depth) := by
  induction depth generalizing p with
  | zero => exact changeFiles_timeless p _
  | succ depth ih =>
    have here : Timeless (changeFiles p (·.makeFolder p)) := changeFiles_timeless p _
    have attempted : Timeless (changeFiles p (·.makeFolder p)).attempt := here
    refine .bind attempted fun x => ?_
    split
    · exact fun _ => rfl
    · exact .bind (ih p.parent) fun _ => here
    · exact fun _ => rfl

theorem save_timeless (path : Option FilePath) (v : Value) : Timeless (StateFile.save path v) := by
  cases path with
  | none => exact fun _ => rfl
  | some p =>
    refine .bind (makeFoldersTo_timeless _ _) fun _ => .bind ?_ fun q => .bind ?_ fun _ => ?_
    · intro h
      rw [run_ofExcept]
    · exact .bind (changeFiles_timeless q _) fun _ => changeFiles_timeless q _
    · exact changeFiles_timeless q _

theorem saveAll_timeless (saves : List (Option FilePath × Value)) :
    Timeless (StateFile.saveAll saves) := by
  induction saves with
  | nil => exact fun _ => rfl
  | cons s rest ih => exact .bind (save_timeless s.1 s.2) fun _ => ih

end Op

namespace Host

open StateFile (save saveAll)

variable {h k l : Host} {places : List (Option FilePath)} {path : Option FilePath} {v : Value}
  {xs ys : List (Option FilePath × Value)}

theorem Twin.refl (h : Host) : Twin h h := ⟨rfl, rfl, rfl⟩

theorem Twin.trans (first : Twin h k) (second : Twin k l) : Twin h l :=
  ⟨second.now.trans first.now, second.files.trans first.files, second.refusals.trans first.refusals⟩

theorem Relogged.twin (noted : h.Relogged k) : Twin h k := (Twin.refl h).relogged (.refl h) noted

/-- The second host is the first one once these values were saved, but for log,
identifiers and homes. -/
def After (saves : List (Option FilePath × Value)) (h k : Host) : Prop :=
  ∃ k', saveAll saves h = (.ok (), k') ∧ k'.Twin k

namespace After

theorem relogged (noted : h.Relogged k) : After [] h k := ⟨h, rfl, noted.twin⟩

theorem save (saved : save path v h = (.ok (), k)) (noted : k.Relogged l) :
    After [(path, v)] h l := by
  refine ⟨k, ?_, noted.twin⟩
  rw [saveAll, Op.run_bind, saved]
  rfl

theorem trans (first : After xs h k) (second : After ys k l) : After (xs ++ ys) h l := by
  obtain ⟨h', run, twin⟩ := first
  obtain ⟨k', run', twin'⟩ := second
  obtain ⟨result, twin⟩ := StateFile.saveAll_steady ys h' k twin
  rw [run'] at result twin
  rcases after : saveAll ys h' with ⟨x, l'⟩
  rw [after] at result twin
  obtain rfl : x = .ok () := result
  refine ⟨l', ?_, twin.trans twin'⟩
  rw [StateFile.saveAll_append, Op.run_bind, run]
  exact after

theorem noted (after : After xs h k) (noted : k.Relogged l) : After xs h l := by
  simpa using after.trans (.relogged noted)

theorem now (after : After xs h k) : k.now = h.now := by
  obtain ⟨k', run, twin⟩ := after
  have still := Op.saveAll_timeless xs h
  rw [run] at still
  exact twin.now.trans still

end After

/-- A host whose disk takes all that is saved at some places, however often. -/
def Takes (places : List (Option FilePath)) (h : Host) : Prop :=
  ∀ saves : List (Option FilePath × Value), (∀ s ∈ saves, s.1 ∈ places) →
    (saveAll saves h).1 = .ok ()

/-- What is only kept in memory needs no disk. -/
theorem takes_memory (memory : ∀ path ∈ places, path = none) (h : Host) : Takes places h := by
  intro saves
  induction saves with
  | nil => exact fun _ => rfl
  | cons s rest ih =>
    intro there
    obtain ⟨path, v⟩ := s
    obtain rfl : path = none := memory path (there _ List.mem_cons_self)
    exact ih fun s member => there s (List.mem_cons_of_mem _ member)

def Leads (places : List (Option FilePath)) (h k : Host) : Prop :=
  ∃ saves : List (Option FilePath × Value), (∀ s ∈ saves, s.1 ∈ places) ∧ After saves h k

namespace Leads

theorem relogged (noted : h.Relogged k) : Leads places h k :=
  ⟨[], fun _ member => absurd member List.not_mem_nil, .relogged noted⟩

theorem save (there : path ∈ places) (saved : StateFile.save path v h = (.ok (), k))
    (noted : k.Relogged l) :
    Leads places h l := by
  refine ⟨_, ?_, .save saved noted⟩
  intro s member
  rwa [List.mem_singleton.1 member]

theorem trans (first : Leads places h k) (second : Leads places k l) : Leads places h l := by
  obtain ⟨xs, there, first⟩ := first
  obtain ⟨ys, there', second⟩ := second
  exact ⟨xs ++ ys, fun s member => (List.mem_append.1 member).elim (there s) (there' s), first.trans second⟩

theorem mono {more : List (Option FilePath)} (leads : Leads places h k) (within : places ⊆ more) :
    Leads more h k := by
  obtain ⟨saves, there, after⟩ := leads
  exact ⟨saves, fun s member => within (there s member), after⟩

theorem now (leads : Leads places h k) : k.now = h.now := by
  obtain ⟨_, _, after⟩ := leads
  exact after.now

end Leads

namespace Takes

theorem mono {fewer : List (Option FilePath)} (takes : Takes places h) (within : fewer ⊆ places) :
    Takes fewer h :=
  fun saves there => takes saves fun s member => within (there s member)

theorem save (takes : Takes places h) (there : path ∈ places) (v : Value) :
    ∃ k, StateFile.save path v h = (.ok (), k) := by
  have taken := takes [(path, v)] fun s member => by rwa [List.mem_singleton.1 member]
  rw [saveAll, Op.run_bind] at taken
  revert taken
  rcases StateFile.save path v h with ⟨fault | _, k⟩
  · intro taken
    cases taken
  · exact fun _ => ⟨k, rfl⟩

/-- A disk that takes all goes on to. -/
theorem leads (takes : Takes places h) (leads : Leads places h k) : Takes places k := by
  obtain ⟨xs, there, k', run, twin⟩ := leads
  intro ys there'
  have whole :=
    takes (xs ++ ys) fun s member => (List.mem_append.1 member).elim (there s) (there' s)
  rw [StateFile.saveAll_append, Op.run_bind, run] at whole
  exact (StateFile.saveAll_steady ys k' k twin).1.symm.trans whole

theorem relogged (takes : Takes places h) (noted : h.Relogged k) : Takes places k :=
  takes.leads (.relogged noted)

end Takes

def node (h : Host) (p : FilePath) : Except Fault (Option FileNode) := (h.files.find p).map (·.2)

def latest (path : Option FilePath) : List (Option FilePath × Value) → Option Value
  | [] => none
  | (place, v) :: rest => (latest path rest).or (if place = path then some v else none)

theorem latest_append (path : Option FilePath) (xs ys : List (Option FilePath × Value)) :
    latest path (xs ++ ys) = (latest path ys).or (latest path xs) := by
  induction xs with
  | nil => simp [latest]
  | cons s rest ih => rw [List.cons_append, latest, latest, ih, Option.or_assoc]

theorem latest_elsewhere (elsewhere : ∀ s ∈ xs, s.1 ≠ path) : latest path xs = none := by
  induction xs with
  | nil => rfl
  | cons s rest ih =>
    rw [latest, ih fun s' member => elsewhere s' (List.mem_cons_of_mem _ member),
      if_neg (elsewhere s List.mem_cons_self)]
    rfl

/-- A disk on which a path leads to what was saved there last, whatever is saved at other places. -/
def Tells (places : List (Option FilePath)) (p : FilePath) (h : Host) : Prop :=
  ∀ saves : List (Option FilePath × Value), (∀ s ∈ saves, s.1 ∈ places) → ∀ k, After saves h k →
    k.node p = (latest (some p) saves).elim (h.node p) fun v =>
      .ok (some (.file (Json.writeIndented v)))

/-- A disk that tells what was saved goes on to. -/
theorem Tells.after {p : FilePath} (tells : Tells places p h) (there : ∀ s ∈ xs, s.1 ∈ places)
    (after : After xs h k) :
    Tells places p k := by
  intro ys there' l after'
  rw [tells (xs ++ ys) (fun s member => (List.mem_append.1 member).elim (there s) (there' s)) l
    (after.trans after'),
    latest_append]
  cases latest (some p) ys with
  | none => exact (tells xs there k after).symm
  | some v => rfl
end Host
end LeadRules
