import LeadRules.Proofs.Disk
import LeadRules.Proofs.Files
import LeadRules.Proofs.JsonValues
import LeadRules.Proofs.Stores

/-! The file of the cursors. The cursors of a store are read back from its file, as long as its
teams are texts that JSON keeps and its numbers are not longer than may be read. -/
namespace LeadRules

namespace Json

/-- A value that comes back as it is, is read back from its file. -/
theorem readsBack_of_reread {v : Value} (same : reread depthLimit v = .ok v) :
    StateFile.ReadsBack v := by
  rcases read_writeIndented v with ⟨w, again, read⟩ | ⟨refusal, problem, again, -⟩
  · obtain rfl := Except.ok.inj (same.symm.trans again)
    exact read
  · cases same.symm.trans again

def numbered (entries : List (Text × Int)) : List (Value × Value) :=
  entries.map fun e => (.text e.1, .int e.2)

/-- Whether a file holds an entry as it is: a text that JSON keeps, and a number that is not too
long. -/
structure Held (e : Text × Int) : Prop where
  unsplit : e.1.Unsplit
  short : e.2.natAbs < 10 ^ Numeral.digitLimit

theorem put_numbered {done later : List (Text × Int)} {e : Text × Int}
    (distinct : ((done ++ e :: later).map (·.1)).Nodup) :
    Entries.put (.text e.1) (.int e.2) (numbered done) = numbered (done ++ [e]) := by
  have fresh : Value.text e.1 ∉ (numbered done).map (·.1) := by
    intro member
    simp only [numbered, List.map_map, List.mem_map, Function.comp_apply, Value.text.injEq] at member
    obtain ⟨other, there, same⟩ := member
    rw [List.map_append, List.nodup_append] at distinct
    exact distinct.2.2 _ (List.mem_map_of_mem there) _ List.mem_cons_self same
  rw [Entries.put_of_absent fresh]
  simp [numbered]

theorem rereadMembers_numbered (room : Nat) {later : List (Text × Int)} (held : ∀ e ∈ later, Held e)
    {done : List (Text × Int)} (distinct : ((done ++ later).map (·.1)).Nodup) :
    rereadMembers room (numbered done) (numbered later) = .ok (numbered (done ++ later)) := by
  induction later generalizing done with
  | nil =>
    rw [List.append_nil]
    rfl
  | cons e later ih =>
    obtain ⟨unsplit, short⟩ := held e List.mem_cons_self
    have few : ¬ Numeral.digitLimit < Decimal.digitCount e.2.natAbs :=
      Nat.not_lt.2 ((Nat.length_toDigits_le_iff (by decide) (by decide)).2 short)
    have name : (keyName (.text e.1)).joined = e.1 := Text.joined_of_unsplit unsplit
    have members : numbered (e :: later) = (.text e.1, .int e.2) :: numbered later := rfl
    rw [members, rereadMembers, reread, if_neg few, name]
    show rereadMembers room (Entries.put _ _ _) _ = _
    rw [put_numbered distinct, ih (fun e' member => held e' (List.mem_cons_of_mem _ member))
      (by simpa using distinct)]
    simp

/-- An object of whole numbers is read back from its file. -/
theorem readsBack_numbered {entries : List (Text × Int)} (held : ∀ e ∈ entries, Held e)
    (distinct : (entries.map (·.1)).Nodup) : StateFile.ReadsBack (.map (numbered entries)) := by
  refine readsBack_of_reread ?_
  obtain ⟨room, limit⟩ : ∃ room, depthLimit = room + 1 := ⟨984, rfl⟩
  have members : rereadMembers room (numbered []) (numbered entries) = .ok (numbered entries) :=
    rereadMembers_numbered room held distinct
  rw [reread, limit]
  show (rereadMembers room (numbered []) _ >>= _) = _
  rw [members]
  rfl

end Json

namespace StateFile

variable {h k : Host} {p : FilePath}

theorem node_cases (same : h.node p = k.node p) :
    (∃ fault, h.files.find p = .error fault ∧ k.files.find p = .error fault) ∨
    ∃ place place' node, h.files.find p = .ok (place, node) ∧
      k.files.find p = .ok (place', node) := by
  unfold Host.node at same
  rcases first : h.files.find p with fault | ⟨place, node⟩ <;>
    rcases second : k.files.find p with fault' | ⟨place', node'⟩ <;>
    rw [first, second] at same
  · obtain rfl := Except.error.inj same
    exact .inl ⟨fault, rfl, rfl⟩
  · cases same
  · cases same
  · obtain rfl := Except.ok.inj same
    exact .inr ⟨place, place', node, rfl, rfl⟩

/-- A state file is read as what stands at its path. -/
theorem load_node (same : h.node p = k.node p) (default : Value) :
    (load (some p) default h).1 = (load (some p) default k).1 := by
  have contains : h.files.contains p = k.files.contains p := by
    rcases node_cases same with ⟨fault, first, second⟩ | ⟨_, _, node, first, second⟩ <;>
      simp only [FileTree.contains, first, second]
  have parsed : parse p h.files = parse p k.files := by
    have read : h.files.read p = k.files.read p := by
      rcases node_cases same with ⟨fault, first, second⟩ | ⟨_, _, node, first, second⟩
      · simp only [FileTree.read, first, second, bind, Except.bind]
      · simp only [FileTree.read, first, second]
        rcases node with _ | _ | _ <;> rfl
    rw [parse, parse, text, text, read]
  simp only [load, Op.run_bind, Op.run_get, Op.run_ofExcept, contains, parsed]
  rcases k.files.contains p with fault | _ | _
  · rfl
  · rfl
  · rcases parse p k.files with fault | v
    · simp only [Op.run_bind, Op.run_ite, Op.run_throw, Op.run_log, Op.run_pure]
      cases isUnreadable fault <;> rfl
    · rfl

theorem load_relogged (path : Option FilePath) (default : Value) (h : Host) :
    h.Relogged (load path default h).2 := by
  cases path with
  | none => exact .refl h
  | some p =>
    simp only [load, Op.run_bind, Op.run_get, Op.run_ofExcept]
    rcases h.files.contains p with fault | _ | _
    · rfl
    · rfl
    · rcases parse p h.files with fault | v
      · simp only [Op.run_bind, Op.run_ite, Op.run_throw, Op.run_log, Op.run_pure]
        cases isUnreadable fault
        · rfl
        · exact .note ..
      · rfl

end StateFile

namespace CursorStore

variable {s : CursorStore} {h k : Host} {p : FilePath}

/-- The file of a store is read as the store. -/
theorem readsBack (held : ∀ e ∈ s.cursors.entries, Json.Held e) : StateFile.ReadsBack s.toWire := by
  have wire : s.toWire = .map (Json.numbered s.cursors.entries) := by
    simp [toWire, Value.record, Json.numbered]
  rw [wire]
  exact Json.readsBack_numbered held s.cursors.distinct

theorem load_node (same : h.node p = k.node p) : (load (some p) h).1 = (load (some p) k).1 := by
  have read := StateFile.load_node same (.map [])
  simp only [load, Op.run_bind]
  revert read
  rcases StateFile.load (some p) (.map []) h with ⟨x, h'⟩
  rcases StateFile.load (some p) (.map []) k with ⟨y, k'⟩
  rintro rfl
  rcases x with fault | v
  · rfl
  · cases v with
    | map entries =>
      simp only [Op.run_bind, Op.run_ofExcept]
      cases loadCursors entries <;> rfl
    | _ => rfl

theorem load_relogged (path : Option FilePath) (h : Host) : h.Relogged (load path h).2 := by
  have noted := StateFile.load_relogged path (.map []) h
  simp only [load, Op.run_bind]
  revert noted
  rcases StateFile.load path (.map []) h with ⟨fault | v, k⟩
  · exact id
  · cases v with
    | map entries =>
      simp only [Op.run_bind, Op.run_ofExcept]
      cases loadCursors entries <;> exact id
    | _ => exact id

/-- A store is opened from its file as it was saved. -/
theorem load_saved (place : s.path = some p) (held : ∀ e ∈ s.cursors.entries, Json.Held e)
    (saved : h.node p = .ok (some (.file (Json.writeIndented s.toWire)))) :
    load (some p) h = (.ok s, h) := by
  unfold Host.node at saved
  rcases found : h.files.find p with fault | ⟨place', node⟩
  · rw [found] at saved
    cases saved
  · rw [found] at saved
    obtain rfl : node = _ := Except.ok.inj saved
    rw [← place]
    exact load_toWire (place ▸ StateFile.load_written found (readsBack held) (.map []))

end CursorStore
end LeadRules
