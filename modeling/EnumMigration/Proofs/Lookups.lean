import EnumMigration.Table
import EnumMigration.Proofs.Slide

/-!
# Every lookup of the slide finds a character

`charAt` answers `none` beside a text, and the slide takes that for a place
without a word character.  A position computed wrongly would therefore pass
unnoticed.  This file shows that there is none.

`Alignment.lookups` lists the positions that an alignment reads: two for every
position of the overlap, and one at each edge where something sticks out.  With
`n` and `m` for the lengths of token and replacement:

```text
               token begins            read before      token ends       read behind
inside         0 < offset              r (offset - 1)   stop < m         r stop
aligned        offset = 0              nothing          stop = m         nothing
sticking out   offset < 0              t (-offset - 1)  m < stop         t (m - offset)
```

All of them belong to their texts exactly if the token overlaps the replacement
or touches it, `-n ≤ offset ≤ m` (`Alignment.forall_inRange_iff`).  The slide
stays one step inside these bounds, and visits exactly the offsets with an
overlap (`Alignment.overlap_ne_nil_iff`).

The checked construction of a table ends without an answer at the first lookup
that misses, and reads both edges whether or not the overlap agrees.  It always
has an answer, the one of `Table.ofEntries`.
-/

namespace EnumMigration

/-- A position of a text that is to be read. -/
structure Lookup where
  text : List Char
  position : Int
deriving DecidableEq

namespace Lookup

/-- The position belongs to the text. -/
def InRange (lookup : Lookup) : Prop :=
  0 ≤ lookup.position ∧ lookup.position < lookup.text.length

instance (lookup : Lookup) : Decidable lookup.InRange := inferInstanceAs (Decidable (_ ∧ _))

/-- The character that is found. -/
def read (lookup : Lookup) : Option Char := charAt lookup.text lookup.position

theorem read_eq_none_iff {lookup : Lookup} : lookup.read = none ↔ ¬ lookup.InRange := by
  simp only [read, charAt, InRange]
  split
  · exact iff_of_true rfl (by omega)
  · rw [List.getElem?_eq_none_iff]
    omega

theorem exists_read_eq_some {lookup : Lookup} (h : lookup.InRange) :
    ∃ c, lookup.read = some c :=
  Option.ne_none_iff_exists'.mp fun hread => read_eq_none_iff.mp hread h

end Lookup

namespace Alignment

/-- What is compared in the overlap: a character of the replacement and one of
the token. -/
def comparisons (alignment : Alignment) : List (Lookup × Lookup) :=
  alignment.overlap.map fun position =>
    (⟨alignment.replacement, position⟩, ⟨alignment.token, position - alignment.offset⟩)

/-- What is read just before the overlap, if anything sticks out there. -/
def opening (alignment : Alignment) : Option Lookup :=
  if 0 < alignment.offset then some ⟨alignment.replacement, alignment.offset - 1⟩
  else if alignment.offset < 0 then some ⟨alignment.token, -alignment.offset - 1⟩
  else none

/-- What is read just behind the overlap, if anything sticks out there. -/
def closing (alignment : Alignment) : Option Lookup :=
  if alignment.stop < alignment.replacement.length then
    some ⟨alignment.replacement, alignment.stop⟩
  else if (alignment.replacement.length : Int) < alignment.stop then
    some ⟨alignment.token, alignment.replacement.length - alignment.offset⟩
  else none

/-- Everything that is read at an alignment. -/
def lookups (alignment : Alignment) : List Lookup :=
  (alignment.comparisons.flatMap fun pair => [pair.1, pair.2]) ++
    alignment.opening.toList ++ alignment.closing.toList

/-- The token overlaps the replacement, or begins or ends where the other ends
or begins. -/
def Touches (alignment : Alignment) : Prop :=
  -(alignment.token.length : Int) ≤ alignment.offset ∧
    alignment.offset ≤ alignment.replacement.length

/-! ## Which lookups are in range -/

section Ranges

variable {alignment : Alignment}

/-- A position of the overlap belongs to both texts, wherever the token lies. -/
theorem inRange_of_mem_comparisons {pair : Lookup × Lookup} (h : pair ∈ alignment.comparisons) :
    pair.1.InRange ∧ pair.2.InRange := by
  obtain ⟨position, hposition, rfl⟩ := List.mem_map.mp h
  rw [overlap, mem_intRange, stop] at hposition
  simp only [Lookup.InRange]
  omega

/-- Either edge reads one text or the other, or nothing. -/
theorem inRange_edge_iff {inside outside : Prop} [Decidable inside] [Decidable outside]
    {first second : Lookup} :
    (∀ lookup ∈ (if inside then some first else if outside then some second else none),
        lookup.InRange) ↔
      (inside → first.InRange) ∧ (¬ inside → outside → second.InRange) := by
  by_cases hinside : inside
  · simp [hinside]
  · by_cases houtside : outside <;> simp [hinside, houtside]

theorem inRange_opening_iff :
    (∀ lookup ∈ alignment.opening, lookup.InRange) ↔ alignment.Touches := by
  rw [opening, inRange_edge_iff]
  simp only [Lookup.InRange, Touches]
  omega

theorem inRange_closing_iff :
    (∀ lookup ∈ alignment.closing, lookup.InRange) ↔ alignment.Touches := by
  rw [closing, inRange_edge_iff]
  simp only [Lookup.InRange, Touches, stop]
  omega

/-- Nothing is read beside a text exactly if the token touches the replacement. -/
theorem forall_inRange_iff :
    (∀ lookup ∈ alignment.lookups, lookup.InRange) ↔ alignment.Touches := by
  constructor
  · intro h
    refine inRange_opening_iff.mp fun lookup hlookup => h lookup ?_
    simp only [lookups, List.mem_append, Option.mem_toList]
    exact Or.inl (Or.inr hlookup)
  · intro htouches lookup hlookup
    simp only [lookups, List.mem_append, List.mem_flatMap, Option.mem_toList] at hlookup
    rcases hlookup with (⟨pair, hpair, hlookup⟩ | hopening) | hclosing
    · obtain ⟨hfirst, hsecond⟩ := inRange_of_mem_comparisons hpair
      rcases List.mem_pair.mp hlookup with rfl | rfl
      · exact hfirst
      · exact hsecond
    · exact inRange_opening_iff.mpr htouches lookup hopening
    · exact inRange_closing_iff.mpr htouches lookup hclosing

variable {token replacement : List Char} {offset : Int}

theorem touches_of_mem_slideOffsets (h : offset ∈ slideOffsets token replacement) :
    (Alignment.mk token replacement offset).Touches := by
  rw [slideOffsets, mem_intRange] at h
  simp only [Touches]
  omega

/-- The token ends behind the start of the replacement, and by less than both
lengths together. -/
theorem stop_of_mem_slideOffsets (h : offset ∈ slideOffsets token replacement) :
    0 < (Alignment.mk token replacement offset).stop ∧
      (Alignment.mk token replacement offset).stop < token.length + replacement.length := by
  rw [slideOffsets, mem_intRange] at h
  simp only [stop]
  omega

/-- The slide visits exactly the offsets at which two texts that are not empty
overlap. -/
theorem overlap_ne_nil_iff (htoken : token ≠ []) (hreplacement : replacement ≠ []) :
    (Alignment.mk token replacement offset).overlap ≠ [] ↔
      offset ∈ slideOffsets token replacement := by
  have hn := List.length_pos_of_ne_nil htoken
  have hm := List.length_pos_of_ne_nil hreplacement
  rw [slideOffsets, mem_intRange]
  constructor
  · intro h
    obtain ⟨position, hposition⟩ := List.exists_mem_of_ne_nil _ h
    rw [overlap, stop, mem_intRange] at hposition
    simp only at hposition
    omega
  · intro h
    refine List.ne_nil_of_mem (a := max offset 0) ?_
    rw [overlap, stop, mem_intRange]
    simp only
    omega

end Ranges

end Alignment

/-! ## The checked slide -/

/-- Whether two lookups find the same character. -/
def sameChecked (pair : Lookup × Lookup) : Option Bool := do
  let first ← pair.1.read
  let second ← pair.2.read
  return first == second

/-- Whether no word character is found at an edge. -/
def edgeChecked (edge : Option Lookup) : Option Bool :=
  edge.elim (some true) fun lookup => do
    let c ← lookup.read
    return !isWord c

/-- `Alignment.completes`, with no answer if a lookup misses.  Both edges are
read even if the overlap disagrees. -/
def Alignment.completesChecked (alignment : Alignment) : Option Bool := do
  let agrees ← alignment.comparisons.allM sameChecked
  let opens ← edgeChecked alignment.opening
  let closes ← edgeChecked alignment.closing
  return agrees && opens && closes

/-- `completesToken`, with no answer if a lookup misses. -/
def completesTokenChecked (token replacement : List Char) : Option Bool :=
  (slideOffsets token replacement).anyM fun offset =>
    (Alignment.mk token replacement offset).completesChecked

theorem allM_eq_some_all {α : Type} {test : α → Option Bool} {answer : α → Bool} {items : List α}
    (h : ∀ item ∈ items, test item = some (answer item)) :
    items.allM test = some (items.all answer) := by
  induction items with
  | nil => rfl
  | cons item items ih =>
      have hrest := ih fun other hother => h other (List.mem_cons_of_mem _ hother)
      rw [List.allM, h item List.mem_cons_self, List.all_cons]
      cases answer item with
      | false => rfl
      | true => exact hrest

theorem anyM_eq_some_any {α : Type} {test : α → Option Bool} {answer : α → Bool} {items : List α}
    (h : ∀ item ∈ items, test item = some (answer item)) :
    items.anyM test = some (items.any answer) := by
  induction items with
  | nil => rfl
  | cons item items ih =>
      have hrest := ih fun other hother => h other (List.mem_cons_of_mem _ hother)
      rw [List.anyM, h item List.mem_cons_self, List.any_cons]
      cases answer item with
      | false => exact hrest
      | true => rfl

theorem edgeChecked_eq_none {edge : Option Lookup} {lookup : Lookup} (hedge : lookup ∈ edge)
    (h : ¬ lookup.InRange) : edgeChecked edge = none := by
  rw [Option.mem_def.mp hedge]
  simp [edgeChecked, Lookup.read_eq_none_iff.mpr h]

theorem edgeChecked_eq {edge : Option Lookup} (h : ∀ lookup ∈ edge, lookup.InRange) :
    edgeChecked edge = some (!isWordAt (edge.bind Lookup.read)) := by
  cases edge with
  | none => rfl
  | some lookup =>
      obtain ⟨c, hread⟩ := Lookup.exists_read_eq_some (h lookup rfl)
      simp [edgeChecked, hread, isWordAt]

namespace Alignment

variable {alignment : Alignment}

theorem before_eq : alignment.before = alignment.opening.bind Lookup.read := by
  simp only [before, opening]
  split
  · rfl
  · split <;> rfl

theorem after_eq : alignment.after = alignment.closing.bind Lookup.read := by
  simp only [after, closing]
  split
  · rfl
  · split <;> rfl

theorem agrees_eq :
    alignment.agrees = alignment.comparisons.all fun pair => pair.1.read == pair.2.read := by
  rw [comparisons, List.all_map]
  rfl

theorem sameChecked_eq {pair : Lookup × Lookup} (h : pair ∈ alignment.comparisons) :
    sameChecked pair = some (pair.1.read == pair.2.read) := by
  obtain ⟨hfirst, hsecond⟩ := inRange_of_mem_comparisons h
  obtain ⟨first, hfirst⟩ := Lookup.exists_read_eq_some hfirst
  obtain ⟨second, hsecond⟩ := Lookup.exists_read_eq_some hsecond
  simp [sameChecked, hfirst, hsecond]

theorem allM_sameChecked :
    alignment.comparisons.allM sameChecked = some alignment.agrees := by
  rw [agrees_eq]
  exact allM_eq_some_all fun pair => sameChecked_eq

theorem completesChecked_eq (htouches : alignment.Touches) :
    alignment.completesChecked = some alignment.completes := by
  have hopens : edgeChecked alignment.opening = some (!isWordAt alignment.before) := by
    rw [before_eq]
    exact edgeChecked_eq (inRange_opening_iff.mpr htouches)
  have hcloses : edgeChecked alignment.closing = some (!isWordAt alignment.after) := by
    rw [after_eq]
    exact edgeChecked_eq (inRange_closing_iff.mpr htouches)
  rw [completesChecked, allM_sameChecked, hopens, hcloses, completes]
  rfl

/-- The checked test has no answer exactly if it reads beside a text. -/
theorem completesChecked_eq_none_iff :
    alignment.completesChecked = none ↔ ∃ lookup ∈ alignment.lookups, ¬ lookup.InRange := by
  by_cases htouches : alignment.Touches
  · have hrange := forall_inRange_iff.mpr htouches
    rw [completesChecked_eq htouches]
    refine iff_of_false (by simp) ?_
    rintro ⟨lookup, hlookup, hmiss⟩
    exact hmiss (hrange lookup hlookup)
  · refine iff_of_true ?_ ?_
    · -- of the two edges that miss, the first one ends the test
      have hmisses := mt inRange_opening_iff.mp htouches
      push Not at hmisses
      obtain ⟨lookup, hlookup, hmiss⟩ := hmisses
      rw [completesChecked, allM_sameChecked, edgeChecked_eq_none hlookup hmiss]
      rfl
    · have hmisses := mt forall_inRange_iff.mp htouches
      push Not at hmisses
      exact hmisses

end Alignment

theorem completesTokenChecked_eq (token replacement : List Char) :
    completesTokenChecked token replacement = some (completesToken token replacement) :=
  anyM_eq_some_any fun _ hoffset =>
    Alignment.completesChecked_eq (Alignment.touches_of_mem_slideOffsets hoffset)

/-! ## The checked construction of a table -/

namespace Pattern

/-- `Pattern.returnsIn` with the checked slide. -/
def returnsInChecked (pattern : Pattern) (replacement : List Char) : Option Bool :=
  if pattern.occursIn replacement then some true
  else completesTokenChecked pattern.token replacement

/-- `Pattern.conflict?` with the checked slide. -/
def conflictChecked (pattern : Pattern) (patterns : List Pattern) (importLine : String) :
    Option (Option TableError) := do
  match ← patterns.findM? fun other => pattern.returnsInChecked other.substitute with
  | some other => return some (.reintroducesLegacy pattern.legacy other.replacement)
  | none =>
    if pattern.occursIn importLine.toList then
      return some (.importLineHoldsLegacy importLine pattern.legacy)
    else return none

theorem returnsInChecked_eq (pattern : Pattern) (replacement : List Char) :
    pattern.returnsInChecked replacement = some (pattern.returnsIn replacement) := by
  rw [returnsInChecked, returnsIn, completesTokenChecked_eq]
  cases pattern.occursIn replacement <;> rfl

theorem conflictChecked_eq (pattern : Pattern) (patterns : List Pattern) (importLine : String) :
    pattern.conflictChecked patterns importLine = some (pattern.conflict? patterns importLine) := by
  have hfind : (patterns.findM? fun other => pattern.returnsInChecked other.substitute) =
      some (patterns.find? fun other => pattern.returnsIn other.substitute) := by
    simp only [returnsInChecked_eq]
    exact List.findM?_pure _ patterns
  rw [conflictChecked, hfind, conflict?]
  cases patterns.find? fun other => pattern.returnsIn other.substitute with
  | some other => rfl
  | none => cases pattern.occursIn importLine.toList <;> rfl

theorem findConflictChecked_eq (patterns : List Pattern) (importLine : String) :
    (patterns.findSomeM? fun pattern => pattern.conflictChecked patterns importLine) =
      some (patterns.findSome? fun pattern => pattern.conflict? patterns importLine) := by
  simp only [conflictChecked_eq]
  exact List.findSomeM?_pure

/-- What the checked search leaves without a conflict has none. -/
theorem forall_conflict?_eq_none {patterns : List Pattern} {importLine : String}
    (h : (patterns.findSomeM? fun pattern => pattern.conflictChecked patterns importLine) =
      some none) :
    ∀ pattern ∈ patterns, pattern.conflict? patterns importLine = none := by
  rw [findConflictChecked_eq, Option.some.injEq] at h
  exact List.findSome?_eq_none_iff.mp h

end Pattern

namespace Table

/-- `Table.ofEntries` with the checked slide: no answer if a lookup misses. -/
def ofEntriesChecked (entries : List PatternEntry) (importLine : String) :
    Option (Except TableError Table) :=
  if importLine_not_blank : isBlankText importLine.toList = false then
    match entries.mapM Pattern.compile with
    | .error e => some (.error e)
    | .ok patterns =>
      if hempty : patterns = [] then some (.error .noEntries)
      else
        match hconflict : patterns.findSomeM? fun pattern =>
            pattern.conflictChecked patterns importLine with
        | none => none
        | some (some conflict) => some (.error conflict)
        | some none => some (.ok
          { importLine, patterns, importLine_not_blank
            patterns_ne_nil := hempty
            no_conflict := Pattern.forall_conflict?_eq_none hconflict })
  else some (.error .blankImportLine)

theorem ofEntriesChecked_eq (entries : List PatternEntry) (importLine : String) :
    ofEntriesChecked entries importLine = some (ofEntries entries importLine) := by
  rw [ofEntriesChecked, ofEntries]
  by_cases hblank : isBlankText importLine.toList = true
  · rw [dif_neg (by simp [hblank]), dif_pos hblank]
  · rw [dif_pos (by simpa using hblank), dif_neg hblank]
    cases entries.mapM Pattern.compile with
    | error e => rfl
    | ok patterns =>
        by_cases hempty : patterns = []
        · simp only [dif_pos hempty]
        · simp only [dif_neg hempty]
          -- both constructions now look at the same search for a conflict
          have hfind := Pattern.findConflictChecked_eq patterns importLine
          split
          · rename_i hchecked
            rw [hfind] at hchecked
            cases hchecked
          · rename_i conflict hchecked
            rw [hfind, Option.some.injEq] at hchecked
            split
            · rename_i other hother
              rw [hchecked] at hother
              cases hother
              rfl
            · rename_i hnone
              rw [hchecked] at hnone
              cases hnone
          · rename_i hchecked
            rw [hfind, Option.some.injEq] at hchecked
            split
            · rename_i other hother
              rw [hchecked] at hother
              cases hother
            · rfl

/-- **No lookup of the table checks misses.**  At every offset of the slide, the
characters compared in the overlap and those read at the two edges belong to
their texts, so the checked test answers as the plain one does; and the token
ends within the two lengths together.  If token and replacement are not empty,
the slide visits exactly the offsets at which they overlap.  The checked test
has no answer wherever a lookup misses; the checked construction of a table has
one for all entries and import lines. -/
theorem lookups_in_range (token replacement : List Char) (entries : List PatternEntry)
    (importLine : String) :
    (∀ offset ∈ slideOffsets token replacement,
        (∀ lookup ∈ (Alignment.mk token replacement offset).lookups, lookup.InRange) ∧
          (Alignment.mk token replacement offset).completesChecked =
            some (Alignment.mk token replacement offset).completes ∧
          0 < (Alignment.mk token replacement offset).stop ∧
          (Alignment.mk token replacement offset).stop < token.length + replacement.length) ∧
      (token ≠ [] → replacement ≠ [] → ∀ offset,
        ((Alignment.mk token replacement offset).overlap ≠ [] ↔
          offset ∈ slideOffsets token replacement)) ∧
      (∀ alignment : Alignment,
        alignment.completesChecked = none ↔ ∃ lookup ∈ alignment.lookups, ¬ lookup.InRange) ∧
      completesTokenChecked token replacement = some (completesToken token replacement) ∧
      ofEntriesChecked entries importLine = some (ofEntries entries importLine) := by
  refine ⟨?_, ?_, ?_, completesTokenChecked_eq token replacement,
    ofEntriesChecked_eq entries importLine⟩
  · intro offset hoffset
    have htouches := Alignment.touches_of_mem_slideOffsets hoffset
    exact ⟨Alignment.forall_inRange_iff.mpr htouches, Alignment.completesChecked_eq htouches,
      Alignment.stop_of_mem_slideOffsets hoffset⟩
  · intro htoken hreplacement offset
    exact Alignment.overlap_ne_nil_iff htoken hreplacement
  · intro alignment
    exact Alignment.completesChecked_eq_none_iff

/-- The token sticks out on both sides: over `B` in `A.B.C`, a dot is read at
either edge.  Two steps before the slide begins, a lookup misses. -/
theorem lookups_in_range_sticking_out :
    (-2 : Int) ∈ slideOffsets "A.B.C".toList "B".toList ∧
      (∀ lookup ∈ (Alignment.mk "A.B.C".toList "B".toList (-2)).lookups, lookup.InRange) ∧
      (Alignment.mk "A.B.C".toList "B".toList (-2)).completesChecked = some true ∧
      (Alignment.mk "A.B.C".toList "B".toList (-2)).overlap ≠ [] ∧
      (Alignment.mk "A.B.C".toList "B".toList (-6)).completesChecked = none ∧
      ofEntriesChecked [⟨"A.B.C", "B"⟩] "import p;" =
        some (.error (.reintroducesLegacy "A.B.C" "B")) := by
  have hoffset : (-2 : Int) ∈ slideOffsets "A.B.C".toList "B".toList := by decide
  obtain ⟨hslide, hoverlap, hmiss, -, htable⟩ :=
    lookups_in_range "A.B.C".toList "B".toList [⟨"A.B.C", "B"⟩] "import p;"
  obtain ⟨hrange, hchecked, -⟩ := hslide (-2) hoffset
  refine ⟨hoffset, hrange, hchecked.trans (by decide), ?_, (hmiss _).mpr ?_, htable.trans rfl⟩
  · exact (hoverlap (by decide) (by decide) (-2)).mpr hoffset
  · exact ⟨⟨"A.B.C".toList, 5⟩, by decide, by decide⟩

end Table

end EnumMigration
