import LeadRules.Proofs.Numerals

/-! How the texts of times start: with a year in four digits and then a hyphen or the letter of a
week, or else with a whole date in eight digits, behind which the time of day stands after any one
character. So only the latter are ever numbers as well. -/
namespace LeadRules

namespace Iso

variable {ds cs rest more : List Char} {ps front tail : List Point} {count value : Nat}

theorem takeDigits?_taken (taken : takeDigits? count cs = some (value, rest)) :
    ∃ ds, ds.length = count ∧ (∀ c ∈ ds, c.isDigit = true) ∧ cs = ds ++ rest := by
  unfold takeDigits? at taken
  dsimp only at taken
  split at taken
  next all =>
    cases taken
    exact ⟨cs.take count, all.1, List.all_eq_true.1 all.2, (List.take_append_drop count cs).symm⟩
  · cases taken

inductive DateOpens : List Char → Prop
  | marked {ds : List Char} {mark : Char} (year : ds.length = 4)
      (digits : ∀ c ∈ ds, c.isDigit = true)
      (known : mark = '-' ∨ mark = 'W') (rest : List Char) : DateOpens (ds ++ mark :: rest)
  | compact {ds : List Char} (date : ds.length = 8) (digits : ∀ c ∈ ds, c.isDigit = true)
      (rest : List Char) : DateOpens (ds ++ rest)

theorem DateOpens.append (opens : DateOpens cs) (more : List Char) : DateOpens (cs ++ more) := by
  cases opens with
  | marked year digits known rest =>
    rw [List.append_assoc]
    exact .marked year digits known (rest ++ more)
  | compact date digits rest =>
    rw [List.append_assoc]
    exact .compact date digits (rest ++ more)

theorem readDate?_opens {d : WrittenDate} (read : readDate? cs = some d) : DateOpens cs := by
  unfold readDate? at read
  obtain ⟨⟨year, rest⟩, first, parts⟩ := Option.bind_eq_some_iff.1 read
  obtain ⟨ys, length, years, rfl⟩ := takeDigits?_taken first
  cases rest with
  | nil => cases parts
  | cons c rest =>
    by_cases mark : c = '-' ∨ c = 'W'
    · exact .marked length years mark rest
    · obtain ⟨hyphen, week⟩ := not_or.1 mark
      simp only [List.head?_cons, Option.some.injEq, hyphen, if_false, Option.bind_eq_bind,
        Option.bind_some] at parts
      split at parts
      next same => exact absurd (List.cons.inj same).1 week
      · obtain ⟨⟨month, rest'⟩, second, parts'⟩ := Option.bind_eq_some_iff.1 parts
        obtain ⟨ms, two, months, same⟩ := takeDigits?_taken second
        obtain ⟨⟨day, rest''⟩, third, -⟩ := Option.bind_eq_some_iff.1 parts'
        obtain ⟨xs, two', days, rfl⟩ := takeDigits?_taken third
        rw [same, ← List.append_assoc, ← List.append_assoc]
        refine .compact (by simp [length, two, two']) ?_ rest''
        simp only [List.mem_append]
        rintro c ((year | month) | day)
        · exact years c year
        · exact months c month
        · exact days c day

/-- A date in eight digits ends behind them. -/
theorem dateLength?_compact (date : ds.length = 8) (digits : ∀ c ∈ ds, c.isDigit = true)
    (rest : List Char) :
    dateLength? (ds ++ rest) = some 8 := by
  have long : ¬(ds ++ rest).length = 7 := by
    rw [List.length_append]
    omega
  have fifth : (ds ++ rest)[4]? = some ds[4] := by simp [List.getElem?_append, date]
  have digit : ds[4].isDigit = true := digits _ (List.getElem_mem _)
  have hyphen : ds[4] ≠ '-' := by
    intro same
    rw [same] at digit
    cases digit
  have week : ds[4] ≠ 'W' := by
    intro same
    rw [same] at digit
    cases digit
  simp only [dateLength?, long, fifth, Option.some.injEq, hyphen, week, if_false]

/-- A time of day starts with a digit. -/
theorem readTime?_digit {time : WrittenClock × Option Int} (read : readTime? cs = some time) :
    ∃ d more, cs = d :: more ∧ d.isDigit = true := by
  unfold readTime? at read
  obtain ⟨clock, read, -⟩ := Option.bind_eq_some_iff.1 read
  unfold readClock? readFields? at read
  obtain ⟨⟨hour, rest⟩, first, -⟩ := Option.bind_eq_some_iff.1 read
  obtain ⟨ds, length, digits, rfl⟩ := takeDigits?_taken first
  obtain ⟨d, d', rfl⟩ := List.length_eq_two.1 length
  exact ⟨d, d' :: rest, rfl, digits d List.mem_cons_self⟩

theorem byBytes_head {d : Char} (bytes : byBytes cs = d :: more) : ∃ rest, cs = d :: rest := by
  cases cs with
  | nil => cases bytes
  | cons c rest =>
    obtain ⟨n, size⟩ := Nat.exists_eq_add_one.2 c.utf8Size_pos
    rw [byBytes, List.flatMap_cons, size, List.replicate_succ] at bytes
    obtain ⟨rfl, -⟩ := List.cons.inj bytes
    exact ⟨rest, rfl⟩

inductive Opens : List Point → Prop
  | marked {ds : List Char} {mark : Char} (year : ds.length = 4)
      (digits : ∀ c ∈ ds, c.isDigit = true)
      (known : mark = '-' ∨ mark = 'W') (rest : List Point) :
      Opens (ds.map .char ++ .char mark :: rest)
  | date {ds : List Char} (date : ds.length = 8) (digits : ∀ c ∈ ds, c.isDigit = true) :
      Opens (ds.map .char)
  | timed {ds : List Char} {d : Char} (date : ds.length = 8)
      (digits : ∀ c ∈ ds, c.isDigit = true) (p : Point)
      (digit : d.isDigit = true) (rest : List Point) : Opens (ds.map .char ++ p :: .char d :: rest)

theorem not_mem_digits {c : Char} (digits : ∀ c ∈ ds, c.isDigit = true)
    (other : c.isDigit = false) :
    Point.char c ∉ ds.map Point.char := by
  intro member
  obtain ⟨c', there, same⟩ := List.mem_map.1 member
  rw [← Point.char.inj same, digits c' there] at other
  cases other

theorem not_mem_marked {c mark : Char} (digits : ∀ c ∈ ds, c.isDigit = true)
    (known : mark = '-' ∨ mark = 'W')
    (other : c.isDigit = false ∧ c ≠ '-' ∧ c ≠ 'W') :
    Point.char c ∉ ds.map Point.char ++ [.char mark] := by
  obtain ⟨other, hyphen, week⟩ := other
  rw [List.mem_append, List.mem_singleton]
  rintro (before | here)
  · exact not_mem_digits digits other before
  · exact known.elim (hyphen <| (Point.char.inj here).trans ·)
      (week <| (Point.char.inj here).trans ·)

/-- Of what is before the mark for the time of day, nothing is replaced. -/
theorem plainSeparator_append (same : plainSeparator ps = front ++ tail)
    (fresh : .char 'T' ∉ front) :
    ps = front ++ tail ∨
      ∃ place ∈ [7, 8, 10], ∃ h, front.length ≤ place ∧
        ps = front ++ tail.set (place - front.length) (.half h) := by
  unfold plainSeparator at same
  split at same
  next place found =>
    have known := List.mem_of_find?_eq_some found
    have half := List.find?_some found
    obtain ⟨p, there, isHalf⟩ : ∃ p, ps[place]? = some p ∧ p.isHalf = true := by
      simpa [Option.any_eq_true] using half
    cases p with
    | char c => cases isHalf
    | half h =>
      obtain ⟨inside, there⟩ := List.getElem?_eq_some_iff.1 there
      have behind : front.length ≤ place := by
        by_contra before
        have mark : (front ++ tail)[place]? = some (.char 'T') := by
          rw [← same, List.getElem?_set_self inside]
        rw [List.getElem?_append_left (Nat.lt_of_not_le before)] at mark
        exact fresh (List.mem_of_getElem? mark)
      refine .inr ⟨place, known, h, behind, ?_⟩
      rw [← List.set_append_right _ _ behind, ← same, List.set_set, ← there, List.set_getElem_self]
  · exact .inl same

/-- The mark for the time of day may have been replaced, but where it is not the way of
starting does not change. -/
theorem Opens.of_plainSeparator (opens : Opens (plainSeparator ps)) : Opens ps := by
  generalize same : plainSeparator ps = plain at opens
  cases opens with
  | @marked ds mark year digits known rest =>
    rw [List.append_cons] at same
    have fresh := not_mem_marked (c := 'T') digits known (by decide)
    rcases plainSeparator_append same fresh with rfl | ⟨place, -, h, -, rfl⟩ <;>
      rw [← List.append_cons] <;>
      exact .marked year digits known _
  | date date digits =>
    rw [← List.append_nil (List.map ..)] at same
    rcases plainSeparator_append same (not_mem_digits digits rfl) with rfl | ⟨place, -, h, -, rfl⟩
    · rw [List.append_nil]
      exact .date date digits
    · rw [List.set_nil, List.append_nil]
      exact .date date digits
  | @timed ds d date digits p digit rest =>
    rcases plainSeparator_append same
      (not_mem_digits digits rfl) with rfl | ⟨place, known, h, behind, rfl⟩
    · exact .timed date digits p digit rest
    · rw [List.length_map, date] at behind ⊢
      simp only [List.mem_cons, List.not_mem_nil, or_false] at known
      rcases known with rfl | rfl | rfl
      · cases Nat.not_succ_le_self 7 behind
      · exact .timed date digits (.half h) digit rest
      · exact .timed date digits p digit (rest.set 0 (.half h))

theorem eq_chars (whole : ps.any Point.isHalf = false) (substitute : Char) :
    ps = (Text.charsOr substitute ⟨ps⟩).map .char := by
  rw [Text.charsOr, List.map_map]
  refine ((List.map_congr_left fun p member => ?_).trans (List.map_id ps)).symm
  have char := List.any_eq_false.1 whole p member
  cases p with
  | char c => rfl
  | half h => exact absurd rfl char

/-- A text that was taken apart starts in one of the ways. -/
theorem readWritten?_opens {t : Text} {w : Written} (written : readWritten? t = some w) :
    Opens t.points := by
  refine .of_plainSeparator ?_
  unfold readWritten? at written
  dsimp only at written
  split at written
  · cases written
  next whole =>
    have noHalf := Bool.eq_false_of_not_eq_true (not_or.1 whole).2
    rw [eq_chars noHalf ' ']
    generalize Text.charsOr ' ' ⟨plainSeparator t.points⟩ = cs at *
    obtain ⟨size, length, parts⟩ := Option.bind_eq_some_iff.1 written
    obtain ⟨date, read, parts⟩ := Option.bind_eq_some_iff.1 parts
    have opens := (readDate?_opens read).append (cs.drop size)
    rw [List.take_append_drop] at opens
    cases opens with
    | marked year digits known rest =>
      rw [List.map_append, List.map_cons]
      exact .marked year digits known _
    | @compact ds date digits rest =>
      rw [dateLength?_compact date digits] at length
      obtain rfl := Option.some.inj length
      rw [← date, List.drop_left] at parts
      split at parts
      · rw [List.append_nil]
        exact .date date digits
      next c rest _ =>
        obtain ⟨time, read, -⟩ := Option.bind_eq_some_iff.1 parts
        obtain ⟨d, more, bytes, digit⟩ := readTime?_digit read
        obtain ⟨rest, rfl⟩ := byBytes_head bytes
        rw [List.map_append]
        exact .timed date digits (.char c) digit _

end Iso

open Iso

theorem points_spellOutZulu (p : Point) (ps : List Point) : (spellOutZulu ⟨p :: ps⟩).points =
    (if p = .char 'Z' then ("+00:00" : Text).points else [p]) ++ (spellOutZulu ⟨ps⟩).points := rfl

/-- What stands before the first plus sign of a text with its zone mark spelled out was written
so. -/
theorem spellOutZulu_append {front rest : List Point} {t : Text}
    (spelled : (spellOutZulu t).points = front ++ rest)
    (plain : .char '+' ∉ front) :
    ∃ more, t.points = front ++ more ∧ (spellOutZulu ⟨more⟩).points = rest := by
  induction front generalizing t with
  | nil => exact ⟨t.points, rfl, spelled⟩
  | cons p front ih =>
    obtain ⟨here, later⟩ := not_or.1 (List.mem_cons.not.1 plain)
    obtain ⟨_ | ⟨q, qs⟩⟩ := t
    · cases spelled
    · rw [points_spellOutZulu] at spelled
      split at spelled
      · exact absurd (List.cons.inj spelled).1 here
      · obtain ⟨rfl, spelled'⟩ := List.cons.inj spelled
        obtain ⟨more, same, rest⟩ := ih (t := ⟨qs⟩) spelled' later
        exact ⟨more, congrArg (q :: ·) same, rest⟩

/-- A text that starts with a date in eight digits and then ends or goes on as a number may. -/
inductive Text.IsCompact : Text → Prop
  | date {ds : List Char} (date : ds.length = 8) (digits : ∀ c ∈ ds, c.isDigit = true) :
      IsCompact ⟨ds.map .char⟩
  | timed {ds : List Char} {c : Char} (date : ds.length = 8) (digits : ∀ c ∈ ds, c.isDigit = true)
      (goesOn : Numeral.continues c = true) (rest : List Point) :
      IsCompact ⟨ds.map .char ++ .char c :: rest⟩

namespace Numeral

variable {t : Text} {ds : List Char} {p : Point} {rest : List Point}

/-- No number goes on with half of a surrogate pair. -/
theorem continues_substitute : continues '\uFFFD' = false := by decide +kernel

/-- Digits and something that ends a number. -/
theorem readDouble?_ended (points : t.points = ds.map .char ++ p :: rest)
    (digits : ∀ c ∈ ds, c.isDigit = true) (some : ds ≠ [])
    (stops : continues (p.charOr '\uFFFD') = false) {visible : Char}
    (shown : isBlank (plainDigit visible) = false)
    (member : .char visible ∈ p :: rest) : readDouble? t = none := by
  have characters :
      t.charsOr '\uFFFD' = ds ++ p.charOr '\uFFFD' :: rest.map (·.charOr '\uFFFD') := by
    rw [Text.charsOr, points, List.map_append, List.map_map, List.map_cons]
    exact congrArg (· ++ _) (List.map_id ds)
  refine readDouble?_stopped characters digits some stops ⟨visible, ?_, shown⟩
  rw [← List.map_cons]
  exact List.mem_map.2 ⟨.char visible, member, rfl⟩

/-- Where a time of day follows any one character, not all is blank: there is a digit, or that
character was the mark of the zone. -/
theorem exists_visible {q : Point} {d : Char} {more : List Point} (digit : d.isDigit = true)
    (time : (spellOutZulu ⟨q :: more⟩).points = p :: .char d :: rest) :
    ∃ visible, isBlank (plainDigit visible) = false ∧ .char visible ∈ q :: more := by
  rw [points_spellOutZulu] at time
  split at time
  next zone => exact ⟨'Z', by decide +kernel, zone ▸ List.mem_cons_self⟩
  next =>
    obtain ⟨-, later⟩ := List.cons.inj time
    have unsigned : Point.char '+' ∉ [d].map Point.char :=
      not_mem_digits (List.forall_mem_singleton.2 digit) rfl
    have spelled : (spellOutZulu ⟨more⟩).points = [d].map .char ++ rest := later
    obtain ⟨others, rfl, -⟩ := spellOutZulu_append spelled unsigned
    refine ⟨d, ?_, by simp⟩
    rw [plainDigit_of_isDigit digit]
    exact isBlank_of_isDigit digit

/-- Of the texts of times only compact ones are numbers. -/
theorem compact_of_numeral {w : Iso.Written} {x : Binary64}
    (written : readWritten? (spellOutZulu t) = some w)
    (number : readDouble? t = some x) : t.IsCompact := by
  have some {ds : List Char} {n : Nat} (length : ds.length = n + 1) : ds ≠ [] := by
    rintro rfl
    cases length
  obtain ⟨points⟩ := t
  generalize spelled : (spellOutZulu ⟨points⟩).points = plain at *
  have opens := readWritten?_opens written
  rw [spelled] at opens
  cases opens with
  | @marked ds mark year digits known rest =>
    rw [List.append_cons] at spelled
    obtain ⟨more, rfl, -⟩ := spellOutZulu_append spelled (not_mem_marked digits known (by decide))
    obtain ⟨stops, shown⟩ : continues mark = false ∧ isBlank (plainDigit mark) = false := by
      rcases known with rfl | rfl <;> decide +kernel
    have none : readDouble? ⟨ds.map .char ++ .char mark :: more⟩ = none :=
      readDouble?_ended rfl digits (some year) stops shown List.mem_cons_self
    rw [← List.append_cons, none] at number
    cases number
  | @date ds date digits =>
    obtain ⟨more, rfl, none⟩ :=
      spellOutZulu_append (spelled.trans (List.append_nil _).symm) (not_mem_digits digits rfl)
    cases more with
    | nil =>
      rw [List.append_nil]
      exact .date date digits
    | cons q more =>
      rw [points_spellOutZulu] at none
      split at none <;> cases none
  | @timed ds d date digits p digit rest =>
    obtain ⟨more, rfl, time⟩ := spellOutZulu_append spelled (not_mem_digits digits rfl)
    cases more with
    | nil => cases time
    | cons q more =>
      by_cases goesOn : continues (q.charOr '\uFFFD') = true
      · cases q with
        | char c => exact .timed date digits goesOn more
        | half h => exact absurd (continues_substitute.symm.trans goesOn) Bool.false_ne_true
      · obtain ⟨visible, shown, member⟩ := exists_visible digit time
        have none : readDouble? ⟨ds.map .char ++ q :: more⟩ = none :=
          readDouble?_ended rfl digits (some date)
            (Bool.eq_false_of_not_eq_true goesOn) shown member
        rw [none] at number
        cases number

end Numeral
end LeadRules
