import EnumMigration.Proofs.Passes

/-!
# A table acts on the text at the beginning

Whatever the passes of a table do one after the other amounts to one set of
replacements in the text at the beginning: there are spans of it, apart from
each other, each a whole-token occurrence of an entry, and the result is the
text with these spans replaced (`Table.transform_eq_splice`).  So nothing that
was put in is replaced again.  Nothing is lost either: an occurrence of an entry
that is not chosen overlaps one that is, of this entry or an earlier one.

The spans are read off the fragments that the passes leave.
-/

namespace EnumMigration

/-- A chosen span of a text: an entry with its position in the table, and where
its legacy token begins. -/
structure Choice where
  index : Nat
  entry : PatternEntry
  start : Nat
deriving DecidableEq, Repr

namespace Choice

/-- Where the legacy token ends. -/
def stop (choice : Choice) : Nat := choice.start + choice.entry.legacy.toList.length

end Choice

/-- A text from `position` on, with the chosen spans replaced and all else
kept. -/
def splice (text : List Char) : (position : Nat) → List Choice → List Char
  | position, [] => text.drop position
  | position, choice :: rest =>
    (text.take choice.start).drop position ++ choice.entry.replacement.toList ++
      splice text choice.stop rest

/-- Spans of a text that account for all whole-token occurrences of some
entries: they are apart from each other, each is such an occurrence, and every
such occurrence overlaps one of them that comes no later in the table. -/
structure Selection (entries : List PatternEntry) (text : List Char) (chosen : List Choice) :
    Prop where
  apart : chosen.Pairwise fun choice next => choice.stop ≤ next.start
  entry_eq : ∀ choice ∈ chosen, entries[choice.index]? = some choice.entry
  whole : ∀ choice ∈ chosen, WholeAt choice.entry.legacy.toList text choice.start
  covers : ∀ (index : Nat) (entry : PatternEntry), entries[index]? = some entry →
    ∀ start, WholeAt entry.legacy.toList text start →
      ∃ choice ∈ chosen, choice.index ≤ index ∧
        choice.start < start + entry.legacy.toList.length ∧ start < choice.stop

/-- A chosen span takes a run of word characters as a whole or not at all. -/
theorem Selection.word_run {entries : List PatternEntry} {text : List Char} {chosen : List Choice}
    (selection : Selection entries text chosen) {choice : Choice} (hchoice : choice ∈ chosen)
    (edged : WordEdged choice.entry.legacy.toList) {low high : Nat}
    (hword : ∀ position, low ≤ position → position < high → isWordAt text[position]? = true)
    (hlow : choice.start < high) (hhigh : low < choice.stop) :
    choice.start ≤ low ∧ high ≤ choice.stop := by
  obtain ⟨-, hopens, hcloses⟩ := (wholeAt_iff_getElem? edged).mp (selection.whole choice hchoice)
  constructor
  · by_contra hinside
    have hneighbour := hword (choice.start - 1) (by omega) (by omega)
    rw [hopens (by omega)] at hneighbour
    cases hneighbour
  · by_contra hinside
    have hneighbour := hword choice.stop (by omega) (by omega)
    rw [Choice.stop, hcloses] at hneighbour
    cases hneighbour

namespace Fragment

/-! ## The choices behind fragments -/

/-- The chosen spans behind fragments that begin at `position`. -/
def choices : (position : Nat) → List Fragment → List Choice
  | _, [] => []
  | position, kept _ :: rest => choices (position + 1) rest
  | position, swapped index pattern :: rest =>
    ⟨index, pattern.toPatternEntry, position⟩ :: choices (position + pattern.token.length) rest

theorem length_choices (position : Nat) (fragments : List Fragment) :
    (choices position fragments).length = swapCount fragments := by
  induction fragments generalizing position with
  | nil => rfl
  | cons fragment rest ih => cases fragment <;> simp [choices, swapCount, ih]

theorem choices_map_kept_append (position : Nat) (text : List Char) (rest : List Fragment) :
    choices position (text.map kept ++ rest) = choices (position + text.length) rest := by
  induction text generalizing position with
  | nil => rfl
  | cons c text ih =>
      rw [List.map_cons, List.cons_append, choices, ih, List.length_cons]
      congr 1
      omega

/-- A choice belongs to a swapped fragment, and begins where the text before
that fragment ends. -/
theorem mem_choices_iff {position : Nat} {fragments : List Fragment} {choice : Choice} :
    choice ∈ choices position fragments ↔
      ∃ first index pattern rest, fragments = first ++ swapped index pattern :: rest ∧
        choice = ⟨index, pattern.toPatternEntry, position + (source first).length⟩ := by
  constructor
  · intro hmem
    induction fragments generalizing position with
    | nil => simp [choices] at hmem
    | cons fragment rest ih =>
        cases fragment with
        | kept c =>
            obtain ⟨first, index, pattern, more, rfl, rfl⟩ := ih hmem
            refine ⟨kept c :: first, index, pattern, more, rfl, ?_⟩
            simp only [source, render_kept, List.length_cons, Choice.mk.injEq, true_and]
            omega
        | swapped i p =>
            rcases List.mem_cons.mp hmem with rfl | hmem
            · exact ⟨[], i, p, rest, rfl, rfl⟩
            · obtain ⟨first, index, pattern, more, rfl, rfl⟩ := ih hmem
              refine ⟨swapped i p :: first, index, pattern, more, rfl, ?_⟩
              simp only [source, render_swapped, List.length_append, Choice.mk.injEq, true_and]
              omega
  · rintro ⟨first, index, pattern, rest, rfl, rfl⟩
    induction first generalizing position with
    | nil => exact List.mem_cons_self
    | cons fragment first ih =>
        cases fragment with
        | kept c =>
            rw [source, render_kept, List.length_cons, ← Nat.add_assoc, Nat.add_right_comm]
            exact ih
        | swapped i p =>
            rw [source, render_swapped, List.length_append, ← Nat.add_assoc]
            exact List.mem_cons_of_mem _ ih

theorem position_le_of_mem_choices {position : Nat} {fragments : List Fragment} {choice : Choice}
    (hmem : choice ∈ choices position fragments) : position ≤ choice.start := by
  obtain ⟨first, index, pattern, rest, -, rfl⟩ := mem_choices_iff.mp hmem
  exact Nat.le_add_right ..

theorem pairwise_choices (position : Nat) (fragments : List Fragment) :
    (choices position fragments).Pairwise fun choice next => choice.stop ≤ next.start := by
  induction fragments generalizing position with
  | nil => exact .nil
  | cons fragment rest ih =>
      cases fragment with
      | kept c => exact ih _
      | swapped index pattern =>
          exact List.Pairwise.cons (fun next hnext => position_le_of_mem_choices hnext) (ih _)

/-- A kept character passes through. -/
theorem splice_kept {text : List Char} {position : Nat} {c : Char} {chosen : List Choice}
    (hc : text[position]? = some c) (hstarts : ∀ choice ∈ chosen, position < choice.start) :
    splice text position chosen = c :: splice text (position + 1) chosen := by
  obtain ⟨hlt, rfl⟩ := List.getElem?_eq_some_iff.mp hc
  cases chosen with
  | nil => exact List.drop_eq_getElem_cons hlt
  | cons choice rest =>
      have hstart := hstarts choice List.mem_cons_self
      have htake : position < (text.take choice.start).length := by
        rw [List.length_take]
        omega
      rw [splice, List.drop_eq_getElem_cons htake, List.getElem_take]
      rfl

/-- Replacing the chosen spans of the text at the beginning gives the text so
far. -/
theorem splice_choices (passed : List Char) (fragments : List Fragment) :
    splice (passed ++ source fragments) passed.length (choices passed.length fragments) =
      target fragments := by
  induction fragments generalizing passed with
  | nil => simp [splice, choices]
  | cons fragment rest ih =>
      cases fragment with
      | kept c =>
          have hrest := ih (passed ++ [c])
          rw [List.append_assoc, List.length_append, List.length_singleton] at hrest
          rw [choices, splice_kept (c := c) (by simp) fun choice hchoice =>
            position_le_of_mem_choices hchoice]
          exact congrArg (c :: ·) hrest
      | swapped index pattern =>
          have hrest := ih (passed ++ pattern.token)
          rw [List.append_assoc, List.length_append] at hrest
          rw [choices, splice]
          simp only [List.take_left, List.drop_length, List.nil_append, render_swapped]
          exact congrArg (pattern.substitute ++ ·) hrest

/-! ## The choices after all passes -/

/-- A pass adds choices and takes none back. -/
theorem Pass.choices_subset {index : Nat} {pattern : Pattern} {blocked : Bool}
    {fragments fragments' : List Fragment} (pass : Pass index pattern blocked fragments fragments')
    (position : Nat) : choices position fragments ⊆ choices position fragments' := by
  induction pass generalizing position with
  | nil => exact List.Subset.refl _
  | hit _ _ ih =>
      rw [choices_map_kept_append, choices]
      exact List.subset_cons_of_subset _ (ih _)
  | keep _ _ ih => exact ih _
  | skip _ ih => exact List.cons_subset_cons _ (ih _)

theorem Passes.choices_subset {index : Nat} {patterns : List Pattern}
    {fragments last : List Fragment} (passes : Passes index patterns fragments last)
    (position : Nat) : choices position fragments ⊆ choices position last := by
  induction passes with
  | done => exact List.Subset.refl _
  | next pass _ ih => exact List.Subset.trans (pass.choices_subset position) ih

/-- A choice is a whole-token occurrence in the text at the beginning. -/
theorem Consistent.whole {patterns : List Pattern} {text : List Char} {fragments : List Fragment}
    (consistent : Consistent patterns text fragments) {choice : Choice}
    (hchoice : choice ∈ choices 0 fragments) :
    WholeAt choice.entry.legacy.toList text choice.start := by
  obtain ⟨first, index, pattern, rest, rfl, rfl⟩ := mem_choices_iff.mp hchoice
  obtain ⟨hfirst, hrest⟩ := consistent.separated.edges Pattern.token
  refine (wholeAt_iff_split pattern.wordEdged).mpr
    ⟨source first, source rest, ?_, (Nat.zero_add _).symm, hfirst, hrest⟩
  rw [← consistent.source_eq, source, render_append, render_swapped]

/-- A whole-token occurrence that was not kept overlaps a choice. -/
theorem Consistent.exists_choice {patterns : List Pattern} {text : List Char}
    {fragments : List Fragment} (consistent : Consistent patterns text fragments)
    {token : List Char} (edged : WordEdged token) (hnot : ¬ KeptWhole token fragments)
    {start : Nat} (hwhole : WholeAt token text start) :
    ∃ choice ∈ choices 0 fragments, choice.start < start + token.length ∧ start < choice.stop := by
  obtain ⟨before, after, htext, rfl, hbefore, hafter⟩ := (wholeAt_iff_split edged).mp hwhole
  rw [← consistent.source_eq] at htext
  rcases kept_or_overlap (fun pattern => pattern.wordEdged.ne_nil) edged.ne_nil htext with
    ⟨first, rest, hfragments, rfl, rfl⟩ | ⟨first, index, pattern, rest, hfragments, hlow, hhigh⟩
  · exact absurd ⟨first, rest, hfragments, hbefore, hafter⟩ hnot
  · refine ⟨_, mem_choices_iff.mpr ⟨first, index, pattern, rest, hfragments, rfl⟩, ?_, ?_⟩
    · rw [Nat.zero_add]
      exact hlow
    · rw [Choice.stop, Nat.zero_add]
      exact hhigh

/-- After all passes an occurrence of a pattern overlaps a choice that comes no
later in the table. -/
theorem Passes.exists_choice {all : List Pattern} {text : List Char} {index : Nat}
    {patterns : List Pattern} {fragments last : List Fragment}
    (passes : Passes index patterns fragments last) (hdrop : all.drop index = patterns)
    (consistent : Consistent all text fragments)
    (hearlier : ∀ i p, swapped i p ∈ fragments → i < index) {ahead : Nat} {pattern : Pattern}
    (hpattern : patterns[ahead]? = some pattern) {start : Nat}
    (hwhole : WholeAt pattern.token text start) :
    ∃ choice ∈ choices 0 last, choice.index ≤ index + ahead ∧
      choice.start < start + pattern.token.length ∧ start < choice.stop := by
  induction passes generalizing ahead with
  | done => simp at hpattern
  | @next index first patterns fragments middle last pass passes ih =>
      obtain ⟨hindex, hrest⟩ := drop_eq_cons hdrop
      have hmiddle := consistent.pass hindex pass
      have hnow : ∀ i p, swapped i p ∈ middle → i < index + 1 := by
        intro i p hmem
        rcases pass.swapped_mem hmem with hold | ⟨rfl, -⟩
        · exact Nat.lt_succ_of_lt (hearlier i p hold)
        · exact Nat.lt_succ_self _
      cases ahead with
      | zero =>
          obtain rfl : first = pattern := by simpa using hpattern
          obtain ⟨choice, hchoice, hoverlap⟩ := hmiddle.exists_choice first.wordEdged
            (pass.not_keptWhole consistent.separated) hwhole
          refine ⟨choice, passes.choices_subset 0 hchoice, ?_, hoverlap⟩
          obtain ⟨before, i, p, after, rfl, rfl⟩ := mem_choices_iff.mp hchoice
          exact Nat.le_of_lt_succ (hnow i p (by simp))
      | succ ahead =>
          obtain ⟨choice, hchoice, hle, hoverlap⟩ := ih hrest hmiddle hnow hpattern
          exact ⟨choice, hchoice, by omega, hoverlap⟩

end Fragment

namespace Table

open Fragment

/-- What the patterns of a table make of a text, as fragments of it. -/
theorem exists_fragments (table : Table) (text : List Char) :
    ∃ last, Passes 0 table.patterns (text.map kept) last ∧ Consistent table.patterns text last ∧
      replaceEach table.patterns text = (target last, swapCount last) := by
  have hstart := consistent_map_kept table.patterns text
  obtain ⟨last, hpasses, htarget, hcount⟩ :=
    exists_passes table table.patterns 0 List.drop_zero (text.map kept) hstart
  refine ⟨last, hpasses, hpasses.consistent List.drop_zero hstart, ?_⟩
  have hnone : swapCount (text.map kept) = 0 := by
    simpa [swapCount] using swapCount_map_kept_append text []
  rw [target, render_map_kept] at htarget hcount
  rw [hnone, Nat.add_zero] at hcount
  exact Prod.ext htarget hcount

theorem selection_of_passes (table : Table) {text : List Char} {last : List Fragment}
    (passes : Passes 0 table.patterns (text.map kept) last)
    (consistent : Consistent table.patterns text last) :
    Selection table.entries text (choices 0 last) where
  apart := pairwise_choices 0 last
  entry_eq := by
    intro choice hchoice
    obtain ⟨first, index, pattern, rest, rfl, rfl⟩ := mem_choices_iff.mp hchoice
    rw [entries, List.getElem?_map, consistent.tagged index pattern (by simp)]
    rfl
  whole := fun choice hchoice => consistent.whole hchoice
  covers := by
    intro index entry hentry start hwhole
    rw [entries, List.getElem?_map, Option.map_eq_some_iff] at hentry
    obtain ⟨pattern, hpattern, rfl⟩ := hentry
    obtain ⟨choice, hchoice, hle, hoverlap⟩ := passes.exists_choice List.drop_zero
      (consistent_map_kept table.patterns text) (by simp) hpattern hwhole
    exact ⟨choice, hchoice, by omega, hoverlap⟩

/-- **A table replaces spans of the text at the beginning, once.**  The result
is the text with the spans of a selection replaced by the replacements of their
entries, and counts these spans.  A run of word characters, such as an
identifier that merely contains a legacy token, lies inside a chosen span or
apart from it. -/
theorem transform_eq_splice {entries : List PatternEntry} {importLine : String} {table : Table}
    (h : ofEntries entries importLine = .ok table) (text : String) :
    ∃ chosen : List Choice, Selection entries text.toList chosen ∧
      (table.transform text).text = String.ofList (splice text.toList 0 chosen) ∧
      (table.transform text).replacements = chosen.length ∧
      ∀ choice ∈ chosen, ∀ low high,
        (∀ position, low ≤ position → position < high →
          isWordAt text.toList[position]? = true) →
        choice.start < high → low < choice.stop → choice.start ≤ low ∧ high ≤ choice.stop := by
  obtain ⟨rfl, rfl⟩ := ofEntries_eq_ok_iff.mp h
  obtain ⟨last, passes, consistent, hreplace⟩ := table.exists_fragments text.toList
  have hselection := table.selection_of_passes passes consistent
  refine ⟨choices 0 last, hselection, ?_, ?_, ?_⟩
  · have hsplice := splice_choices [] last
    rw [List.nil_append, consistent.source_eq] at hsplice
    simp only [transform, hreplace]
    exact congrArg String.ofList hsplice.symm
  · simp only [transform, hreplace]
    exact (length_choices 0 last).symm
  · intro choice hchoice low high hword hlow hhigh
    have husable := table.acceptable.usable choice.entry
      (List.mem_of_getElem? (hselection.entry_eq choice hchoice))
    exact hselection.word_run hchoice husable.edged hword hlow hhigh

theorem transform_eq_splice_overlapping :
    ∃ table, ofEntries [⟨"A.A", "X"⟩, ⟨"B.A", "Y"⟩] "import p;" = .ok table ∧
      table.transform "B.A.A.A" = ⟨"B.X.A", true, 1⟩ ∧
      ∃ chosen : List Choice,
        Selection [⟨"A.A", "X"⟩, ⟨"B.A", "Y"⟩] "B.A.A.A".toList chosen ∧
        "B.X.A" = String.ofList (splice "B.A.A.A".toList 0 chosen) ∧ chosen.length = 1 := by
  have htransform : (ofEntries [⟨"A.A", "X"⟩, ⟨"B.A", "Y"⟩] "import p;").toOption.map
      (transform · "B.A.A.A") = some ⟨"B.X.A", true, 1⟩ := by
    decide +kernel
  obtain ⟨table, h, hresult⟩ := exists_ok_of_toOption_map htransform
  obtain ⟨chosen, hselection, htext, hcount, -⟩ := transform_eq_splice h "B.A.A.A"
  rw [hresult] at htext hcount
  exact ⟨table, h, hresult, chosen, hselection, htext, hcount.symm⟩

end Table

end EnumMigration
