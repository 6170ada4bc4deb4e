import LeadRules.Proofs.Delivery
import Mathlib.Data.List.TakeWhile

/-! Where state files can be written. A path whose names all have bytes can only fail as a file
does, and a store at such a path never keeps an event from being answered. -/
namespace LeadRules

def Point.isSafe (p : Point) : Bool := p.isNameable && !p.nameBytes.contains 0

namespace FilePath

structure Clean (p : FilePath) : Prop where
  root : ∀ q ∈ (Text.ofString p.root).points, q.isSafe = true
  parts : ∀ part ∈ p.parts, ∀ q ∈ part.points, q.isSafe = true

theorem bytesOf_safe {t : Text} (safe : ∀ q ∈ t.points, q.isSafe = true) :
    ∃ bytes, bytesOf t = .ok bytes := by
  have nameable : t.points.dropWhile Point.isNameable = [] :=
    List.dropWhile_eq_nil_iff.2 fun q member => (Bool.and_eq_true_iff.1 (safe q member)).1
  have plain : (t.points.flatMap Point.nameBytes).contains 0 = false := by
    rw [List.contains_eq_mem, decide_eq_false_iff_not, List.mem_flatMap]
    rintro ⟨q, member, zero⟩
    simpa [zero] using (Bool.and_eq_true_iff.1 (safe q member)).2
  exact ⟨t.points.flatMap Point.nameBytes, by
    simp only [bytesOf, Text.nameBytes?, Text.unencodable?, nameable, plain, Bool.false_eq_true, if_false]⟩

theorem safe_append {a b : Text} (first : ∀ q ∈ a.points, q.isSafe = true)
    (second : ∀ q ∈ b.points, q.isSafe = true) : ∀ q ∈ (a ++ b).points, q.isSafe = true := by
  intro q member
  rcases List.mem_append.1 member with there | there
  · exact first q there
  · exact second q there

theorem safe_intercalate {separator : Text} (between : ∀ q ∈ separator.points, q.isSafe = true) :
    ∀ {parts : List Text}, (∀ part ∈ parts, ∀ q ∈ part.points, q.isSafe = true) →
      ∀ q ∈ (Text.intercalate separator parts).points, q.isSafe = true
  | [], _ => by simp [Text.intercalate, Text.ofString, Text.ofChars]
  | [t], safe => safe t (List.mem_singleton_self t)
  | t :: u :: rest, safe => by
    have later :=
      safe_intercalate between fun part member => safe part (List.mem_cons_of_mem t member)
    exact safe_append (safe_append (safe t List.mem_cons_self) between) later

namespace Clean

variable {p : FilePath}

theorem toText (clean : p.Clean) : ∀ q ∈ p.toText.points, q.isSafe = true := by
  unfold FilePath.toText
  split
  · split
    · decide
    · exact clean.root
  · exact safe_append clean.root (safe_intercalate (by decide) clean.parts)

theorem parent (clean : p.Clean) : p.parent.Clean :=
  ⟨clean.root, fun part member => clean.parts part (List.dropLast_subset p.parts member)⟩

theorem temporary (clean : p.Clean) (named : p.parts ≠ []) :
    ∃ q, p.temporary = .ok q ∧ q.Clean := by
  unfold FilePath.temporary
  rw [List.getLast?_eq_some_getLast named]
  refine ⟨_, rfl, clean.root, ?_⟩
  intro part member
  rcases List.mem_append.1 member with there | there
  · exact clean.parent.parts part there
  · rw [List.mem_singleton.1 there]
    exact safe_append (clean.parts _ (List.getLast_mem named)) (by decide)

end Clean
end FilePath

/-- What changing files fails with: each failure of a file has a property, and so has each of
finding a path of some kind. Above a path of that kind is another one. -/
structure FailsAs (P : Fault → Prop) (Q : FilePath → Prop) : Prop where
  file (f : FileFault) : P (.file f)
  find {p : FilePath} (kind : Q p) (t : FileTree) : Raises P (t.find p)
  parent {p : FilePath} (kind : Q p) : Q p.parent

namespace FailsAs

variable {P : Fault → Prop} {Q : FilePath → Prop} {p q : FilePath}

/-- At paths of any kind it is also the path that fails. -/
theorem anyPath (file : ∀ f, P (.file f))
    (path : ∀ problem, P (.badValue (.unusablePath problem))) :
    FailsAs P (fun _ => True) where
  file := file
  find _ t := by
    unfold FileTree.find
    split
    · exact .error (path _)
    · refine .ite (fun _ => .error (file _)) fun _ => ?_
      split
      · exact .ok _
      · exact .error (file _)
  parent _ := trivial

theorem refuse (fails : FailsAs P Q) {α : Type} (problem : FileProblem) (p : FilePath) :
    Raises P (FileTree.refuse problem p : Except Fault α) := .error (fails.file _)

theorem read (fails : FailsAs P Q) (kind : Q p) (t : FileTree) : Raises P (t.read p) := by
  refine .bind (fails.find kind t) fun found => ?_
  rcases found with ⟨place, _ | _ | text⟩ <;> first | exact .ok _ | exact fails.refuse _ p

theorem write (fails : FailsAs P Q) (kind : Q p) (text : String) (t : FileTree) :
    Raises P (t.write p text) := by
  refine .bind (fails.find kind t) fun found => ?_
  rcases found with ⟨place, _ | _ | _⟩ <;> first | exact .ok _ | exact fails.refuse _ p

theorem makeFolder (fails : FailsAs P Q) (kind : Q p) (t : FileTree) :
    Raises P (t.makeFolder p) := by
  refine .bind (fails.find kind t) fun found => ?_
  rcases found with ⟨place, _ | _ | _⟩ <;> first | exact .ok _ | exact fails.refuse _ p

theorem replace (fails : FailsAs P Q) (source : Q p) (target : Q q) (t : FileTree) :
    Raises P (t.replace p q) := by
  refine .bind (fails.find source t) fun from_ => .bind (fails.find target t) fun to_ => ?_
  rcases from_ with ⟨place, _ | _ | text⟩
  · exact .error (fails.file _)
  · exact .error (fails.file _)
  · exact .ite (fun _ => .error (fails.file _)) fun _ =>
      .ite (fun _ => .error (fails.file _)) fun _ => .ok _

theorem changeFiles (fails : FailsAs P Q) {change : FileTree → Except Fault FileTree}
    (raises : ∀ t, Raises P (change t)) :
    Op.Raises P (Op.changeFiles p change) := by
  intro h
  simp only [Op.changeFiles, Op.run_bind, Op.run_get, Op.run_set, Op.run_ite, Op.run_throw]
  split
  · exact .error (fails.file _)
  · have changed := raises h.files
    revert changed
    rcases change h.files with fault | files
    · exact fun changed => .error (changed fault rfl)
    · exact fun _ => .ok _

theorem makeFoldersTo (fails : FailsAs P Q) (kind : Q p) (depth : Nat) :
    Op.Raises P (Op.makeFoldersTo p depth) := by
  induction depth generalizing p with
  | zero => exact fails.changeFiles (fails.makeFolder kind)
  | succ depth ih =>
    have here : Op.Raises P (Op.changeFiles p (·.makeFolder p)) :=
      fails.changeFiles (fails.makeFolder kind)
    refine here.attempt_bind fun x refused => ?_
    split
    · exact .pure ()
    · exact (ih (fails.parent kind)).bind fun _ => here
    · exact fun _ => refused

theorem save (fails : FailsAs P Q) (kind : Q p) (named : Raises P p.temporary)
    (beside : ∀ q, p.temporary = .ok q → Q q) (v : Value) :
    Op.Raises P (StateFile.save (some p) v) := by
  refine (fails.makeFoldersTo (fails.parent kind) _).bind fun _ => ?_
  refine (Op.Raises.ofExcept named).bind_result fun h q _ found => ?_
  have kind' : Q q := beside q (by simpa using congrArg Prod.fst found)
  have written : Op.Raises P (Op.writeFile q (Json.writeIndented v)) :=
    (fails.changeFiles (fails.write kind' "")).bind fun _ => fails.changeFiles (fails.write kind' _)
  exact written.bind fun _ => fails.changeFiles (fails.replace kind' kind)

end FailsAs

def RefusesOnly {α : Type} (x : Except Fault α) : Prop :=
  Raises (fun fault => ∃ f, fault = .file f) x

theorem RefusesOnly.ok {α : Type} (a : α) : RefusesOnly (.ok a : Except Fault α) := Raises.ok a

/-- At clean paths nothing but files fails. -/
theorem FilePath.Clean.failsAs : FailsAs (fun fault => ∃ f, fault = .file f) Clean where
  file f := ⟨f, rfl⟩
  find clean t := by
    obtain ⟨bytes, encoded⟩ := bytesOf_safe clean.toText
    unfold FileTree.find
    rw [encoded]
    refine .ite (fun _ => .error ⟨_, rfl⟩) fun _ => ?_
    split
    · exact .ok _
    · exact .error ⟨_, rfl⟩
  parent := Clean.parent

def Savable (path : Option FilePath) : Prop := ∀ p, path = some p → p.Clean ∧ p.parts ≠ []

theorem StateFile.save_refuses {path : Option FilePath} (savable : Savable path)
    (v : Value) (h : Host) :
    RefusesOnly (save path v h).1 := by
  cases path with
  | none => exact .ok ()
  | some p =>
    obtain ⟨clean, named⟩ := savable p rfl
    obtain ⟨q, beside, temporary⟩ := clean.temporary named
    rw [RefusesOnly]
    refine FilePath.Clean.failsAs.save clean (beside ▸ .ok q) (fun q' found => ?_) v h
    rw [beside] at found
    exact Except.ok.inj found ▸ temporary

theorem saving_refuses {σ : Type} {path : Option FilePath} (savable : Savable path) (v : Value)
    (clean stale : σ)
    (s : σ × Host) : RefusesOnly (Op.saving path v clean stale s).1 := by
  obtain ⟨x, -, run⟩ := Op.saving_run path v clean stale s
  rw [run]
  exact StateFile.save_refuses savable v s.2

/-- A store that is saved only when it is dirty is refused as files are. -/
theorem refuses_of_run {σ : Type} {op : StoreOp σ Unit} {s clean : σ} {h : Host}
    {path : Option FilePath} {v : Value} {dirty : Bool}
    (savable : Savable path)
    (run : op (s, h) =
      if path.isNone || !dirty then (.ok (), (s, h)) else Op.saving path v clean s (s, h)) :
    RefusesOnly (op (s, h)).1 := by
  rw [run]
  split
  · exact .ok ()
  · exact saving_refuses savable _ _ _ _

theorem EdgeStore.flush_refuses {s : EdgeStore} (savable : Savable s.path) (h : Host) :
    RefusesOnly (flush (s, h)).1 :=
  refuses_of_run savable (flush_run s h)

theorem Ledger.flush_refuses {l : Ledger} (savable : Savable l.path) (h : Host) :
    RefusesOnly (flush (l, h)).1 :=
  refuses_of_run savable (flush_run l h)

namespace Engine

/-- Both stores of an engine are in memory only, or kept where a file can be written. -/
structure Savable (g : Engine) : Prop where
  edges : LeadRules.Savable g.edges.path
  ledger : LeadRules.Savable g.ledger.path

/-- A store whose write is done or refused as files are: the engine goes on, with a
word in its log at most. -/
theorem flushStore_run (path : Option FilePath) (op : StoreOp Engine Unit) {g g' : Engine}
    {h k : Host} {x : Except Fault Unit}
    (run : op (g, h) = (x, (g', k))) (refuses : RefusesOnly x) :
    ∃ k', k.Relogged k' ∧ flushStore path op (g, h) = (.ok (), (g', k')) := by
  unfold flushStore
  simp only [Op.run_bind, Op.run_attempt, run]
  rcases x with fault | _
  · obtain ⟨f, rfl⟩ := refuses fault rfl
    exact ⟨_, .note .., rfl⟩
  · exact ⟨k, .refl k, rfl⟩

/-- What an engine and its host come to by writing both stores, whatever comes of the first write:
the ledger is written as well, and nothing is raised. -/
def WritesBoth (g : Engine) (h : Host) : Prop := ∃ k l,
  (EdgeStore.flush (g.edges, h)).2.2.Relogged k ∧ (Ledger.flush (g.ledger, k)).2.2.Relogged l ∧
    flush (g, h) = (.ok (), ({ g with
      edges := (EdgeStore.flush (g.edges, h)).2.1
      ledger := (Ledger.flush (g.ledger, k)).2.1 }, l))

theorem writesBoth_of_refuses {g : Engine} {h : Host}
    (edges : RefusesOnly (EdgeStore.flush (g.edges, h)).1)
    (ledger : ∀ k, RefusesOnly (Ledger.flush (g.ledger, k)).1) : WritesBoth g h := by
  obtain ⟨k, noted, first⟩ := flushStore_run g.edges.path (onEdges EdgeStore.flush) rfl edges
  let g₁ : Engine := { g with edges := (EdgeStore.flush (g.edges, h)).2.1 }
  obtain ⟨l, noted', second⟩ :=
    flushStore_run g₁.ledger.path (onLedger Ledger.flush) (g := g₁) rfl (ledger k)
  refine ⟨k, l, noted, noted', ?_⟩
  simp only [flush, Op.run_bind, Op.run_store, first]
  exact second

/-- Writing the stores is answered whatever the disk does: what is not written now is written
later. -/
theorem flush_returns {g : Engine} (savable : g.Savable) (h : Host) :
    ∃ g' k, flush (g, h) = (.ok (), (g', k)) := by
  obtain ⟨_, l, -, -, run⟩ :=
    writesBoth_of_refuses (EdgeStore.flush_refuses savable.edges h)
      (Ledger.flush_refuses savable.ledger)
  exact ⟨_, l, run⟩

end Engine
end LeadRules
