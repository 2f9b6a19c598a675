import Mathlib.Data.List.Sort
import EnumMigration.Migration.Catalogue
import EnumMigration.Proofs.Splice

/-!
# When the order of the entries does not matter

The passes of a table replace a selection of its whole-token occurrences, and
which one they select depends on the order of the entries, but only where
occurrences overlap.  In a text without overlapping occurrences the selection
consists of all of them (`selection_occurrences`), so the table replaces them as
if at the same time, in whatever order its entries stand
(`Table.order_independent`).

Whether two tokens can overlap in any text at all is a question about the tokens.
If they do, one of them is completed around the other, as a legacy token is
around a dangerous replacement.  So the slide decides this question as well, with
a token in the place of the replacement (`neverOverlap_iff`).  The built-in
migration passes this test.
-/

namespace EnumMigration

/-! ## Occurrences and their overlaps -/

/-- Whether a token stands whole at a position can be computed. -/
instance (token text : List Char) (start : Nat) : Decidable (WholeAt token text start) :=
  decidable_of_iff
    (token <+: text.drop start ∧ isBoundary text start = true ∧
      isBoundary text (start + token.length) = true)
    ⟨fun h => ⟨h.1, h.2.1, h.2.2⟩, fun h => ⟨h.literal, h.opens, h.closes⟩⟩

namespace Choice

/-- The choice is a whole-token occurrence of the entry at its position in the
table. -/
structure Occurs (choice : Choice) (entries : List PatternEntry) (text : List Char) : Prop where
  entry_eq : entries[choice.index]? = some choice.entry
  whole : WholeAt choice.entry.legacy.toList text choice.start

/-- Two choices have a character of the text in common. -/
def Overlaps (choice other : Choice) : Prop :=
  choice.start < other.stop ∧ other.start < choice.stop

instance (choice other : Choice) : Decidable (choice.Overlaps other) :=
  inferInstanceAs (Decidable (_ ∧ _))

/-- What is replaced by what, without the place of the entry in its table. -/
def site (choice : Choice) : PatternEntry × Nat := (choice.entry, choice.start)

end Choice

/-- No two different occurrences of the entries in the text overlap. -/
def NoOverlap (entries : List PatternEntry) (text : List Char) : Prop :=
  ∀ choice other : Choice, choice.Occurs entries text → other.Occurs entries text →
    choice.Overlaps other → choice = other

/-- The occurrence of the entry at `index` that begins at `start`, if there is
one. -/
def occurrence? (entries : List PatternEntry) (text : List Char) (start index : Nat) :
    Option Choice :=
  entries[index]?.bind fun entry =>
    if WholeAt entry.legacy.toList text start then some ⟨index, entry, start⟩ else none

/-- All whole-token occurrences of the entries in a text, from left to right. -/
def occurrences (entries : List PatternEntry) (text : List Char) : List Choice :=
  (List.range text.length).flatMap fun start =>
    (List.range entries.length).filterMap fun index => occurrence? entries text start index

section Occurrences

variable {entries : List PatternEntry} {text : List Char}

theorem occurrence?_eq_some_iff {start index : Nat} {choice : Choice} :
    occurrence? entries text start index = some choice ↔
      choice.index = index ∧ choice.start = start ∧ choice.Occurs entries text := by
  rw [occurrence?, Option.bind_eq_some_iff]
  constructor
  · rintro ⟨entry, hentry, h⟩
    split at h
    · rename_i hwhole
      cases h
      exact ⟨rfl, rfl, hentry, hwhole⟩
    · cases h
  · rintro ⟨rfl, rfl, hentry, hwhole⟩
    exact ⟨choice.entry, hentry, if_pos hwhole⟩

theorem WholeAt.start_lt {token : List Char} (edged : WordEdged token) {start : Nat}
    (hwhole : WholeAt token text start) : start < text.length := by
  have hlength := hwhole.literal.length_le
  have hpos := edged.length_pos
  rw [List.length_drop] at hlength
  omega

theorem Choice.Occurs.edged {choice : Choice} (occurs : choice.Occurs entries text)
    (husable : ∀ entry ∈ entries, entry.Usable) : WordEdged choice.entry.legacy.toList :=
  (husable _ (List.mem_of_getElem? occurs.entry_eq)).edged

/-- An occurrence is given by the place of its entry and by where it begins. -/
theorem Choice.Occurs.eq_of_index_eq {choice other : Choice} (occurs : choice.Occurs entries text)
    (occurs' : other.Occurs entries text) (hindex : choice.index = other.index)
    (hstart : choice.start = other.start) : choice = other := by
  have hentry : choice.entry = other.entry := by
    apply Option.some.inj
    rw [← occurs.entry_eq, ← occurs'.entry_eq, hindex]
  calc choice = ⟨choice.index, choice.entry, choice.start⟩ := rfl
    _ = other := by rw [hindex, hentry, hstart]

theorem mem_occurrences_iff (husable : ∀ entry ∈ entries, entry.Usable) {choice : Choice} :
    choice ∈ occurrences entries text ↔ choice.Occurs entries text := by
  simp only [occurrences, List.mem_flatMap, List.mem_filterMap, List.mem_range,
    occurrence?_eq_some_iff]
  constructor
  · rintro ⟨start, -, index, -, -, -, occurs⟩
    exact occurs
  · intro occurs
    have hindex := (List.getElem?_eq_some_iff.mp occurs.entry_eq).1
    have hstart := occurs.whole.start_lt (occurs.edged husable)
    exact ⟨choice.start, hstart, choice.index, hindex, rfl, rfl, occurs⟩

/-- They are listed by where they begin, and then by the place of their entry. -/
theorem pairwise_occurrences (entries : List PatternEntry) (text : List Char) :
    (occurrences entries text).Pairwise fun choice next =>
      choice.start ≤ next.start ∧ choice ≠ next := by
  rw [occurrences, List.pairwise_flatMap]
  constructor
  · intro start _
    rw [List.pairwise_filterMap]
    apply List.pairwise_lt_range.imp
    intro index index' hlt choice hchoice next hnext
    obtain ⟨rfl, rfl, -⟩ := occurrence?_eq_some_iff.mp hchoice
    obtain ⟨rfl, hstart, -⟩ := occurrence?_eq_some_iff.mp hnext
    refine ⟨hstart.ge, ?_⟩
    rintro rfl
    exact Nat.lt_irrefl _ hlt
  · apply List.pairwise_lt_range.imp
    intro start start' hlt choice hchoice next hnext
    obtain ⟨index, -, hsome⟩ := List.mem_filterMap.mp hchoice
    obtain ⟨index', -, hsome'⟩ := List.mem_filterMap.mp hnext
    obtain ⟨-, rfl, -⟩ := occurrence?_eq_some_iff.mp hsome
    obtain ⟨-, rfl, -⟩ := occurrence?_eq_some_iff.mp hsome'
    refine ⟨hlt.le, ?_⟩
    rintro rfl
    exact Nat.lt_irrefl _ hlt

theorem Choice.start_lt_stop {choice : Choice} (edged : WordEdged choice.entry.legacy.toList) :
    choice.start < choice.stop :=
  Nat.lt_add_of_pos_right edged.length_pos

/-- Without overlaps, the occurrences are a selection of themselves. -/
theorem selection_occurrences (husable : ∀ entry ∈ entries, entry.Usable)
    (hclear : NoOverlap entries text) : Selection entries text (occurrences entries text) where
  apart := by
    apply (pairwise_occurrences entries text).imp_of_mem
    rintro choice next hchoice hnext ⟨hle, hne⟩
    rw [mem_occurrences_iff husable] at hchoice hnext
    by_contra hlt
    apply hne
    apply hclear choice next hchoice hnext
    have hstop := Choice.start_lt_stop (hnext.edged husable)
    exact ⟨by omega, by omega⟩
  entry_eq := fun choice hchoice => ((mem_occurrences_iff husable).mp hchoice).entry_eq
  whole := fun choice hchoice => ((mem_occurrences_iff husable).mp hchoice).whole
  covers := by
    intro index entry hentry start hwhole
    have occurs : Choice.Occurs ⟨index, entry, start⟩ entries text := ⟨hentry, hwhole⟩
    have hstop := Choice.start_lt_stop (occurs.edged husable)
    exact ⟨_, (mem_occurrences_iff husable).mpr occurs, Nat.le_refl _, hstop, hstop⟩

end Occurrences

/-! ## One selection only -/

/-- Two lists that ascend by the same numbers and have the same elements are
equal. -/
theorem eq_of_ascending {α : Type} {key : α → Nat} {list other : List α}
    (hlist : list.Pairwise fun a b => key a < key b)
    (hother : other.Pairwise fun a b => key a < key b) (hmem : ∀ a, a ∈ list ↔ a ∈ other) :
    list = other := by
  have hantisymm : Std.Antisymm fun a b : α => key a < key b :=
    ⟨fun a b hab hba => absurd hab (Nat.lt_asymm hba)⟩
  have hirrefl : Std.Irrefl fun a b : α => key a < key b := ⟨fun a => Nat.lt_irrefl (key a)⟩
  exact hlist.eq_of_mem_iff hother hmem

/-- Replacing takes from a choice only what is replaced by what. -/
theorem splice_congr {chosen other : List Choice} (h : chosen.map Choice.site = other.map Choice.site)
    (text : List Char) (position : Nat) : splice text position chosen = splice text position other := by
  induction chosen generalizing other position with
  | nil =>
      obtain rfl : other = [] := by simpa using h.symm
      rfl
  | cons choice chosen ih =>
      cases other with
      | nil => cases h
      | cons first other =>
          rw [List.map_cons, List.map_cons, List.cons.injEq] at h
          obtain ⟨hsite, hrest⟩ := h
          obtain ⟨hentry, hstart⟩ : choice.entry = first.entry ∧ choice.start = first.start :=
            Prod.mk.inj hsite
          rw [splice, splice, Choice.stop, Choice.stop, hentry, hstart, ih hrest]

section Selections

variable {entries : List PatternEntry} {text : List Char} {chosen : List Choice}

theorem Selection.occurs (selection : Selection entries text chosen) {choice : Choice}
    (hchoice : choice ∈ chosen) : choice.Occurs entries text :=
  ⟨selection.entry_eq choice hchoice, selection.whole choice hchoice⟩

theorem Selection.ascending (selection : Selection entries text chosen)
    (husable : ∀ entry ∈ entries, entry.Usable) :
    (chosen.map Choice.site).Pairwise fun site next => site.2 < next.2 := by
  rw [List.pairwise_map]
  apply selection.apart.imp_of_mem
  intro choice next hchoice _ hapart
  exact Nat.lt_of_lt_of_le (Choice.start_lt_stop ((selection.occurs hchoice).edged husable)) hapart

/-- Without overlaps, nothing can be left out of a selection. -/
theorem Selection.mem_site_iff (selection : Selection entries text chosen)
    (hclear : NoOverlap entries text) (entry : PatternEntry) (start : Nat) :
    (entry, start) ∈ chosen.map Choice.site ↔
      entry ∈ entries ∧ WholeAt entry.legacy.toList text start := by
  rw [List.mem_map]
  constructor
  · rintro ⟨choice, hchoice, hsite⟩
    obtain ⟨rfl, rfl⟩ := Prod.mk.inj hsite
    have occurs := selection.occurs hchoice
    exact ⟨List.mem_of_getElem? occurs.entry_eq, occurs.whole⟩
  · rintro ⟨hentry, hwhole⟩
    obtain ⟨index, hindex⟩ := List.getElem?_of_mem hentry
    obtain ⟨choice, hchoice, -, hlow, hhigh⟩ := selection.covers index entry hindex start hwhole
    -- the choice that covers the occurrence overlaps it, so it is the occurrence
    have heq : choice = ⟨index, entry, start⟩ :=
      hclear _ _ (selection.occurs hchoice) ⟨hindex, hwhole⟩ ⟨hlow, hhigh⟩
    exact ⟨choice, hchoice, by rw [heq]; rfl⟩

end Selections

/-! ## Permuted entries -/

/-- Wherever two entries occur in the text, the one ends before the other
begins. -/
def KeepsClear (text : List Char) (entry other : PatternEntry) : Prop :=
  ∀ start start', WholeAt entry.legacy.toList text start →
    WholeAt other.legacy.toList text start' →
      start + entry.legacy.toList.length ≤ start' ∨ start' + other.legacy.toList.length ≤ start

theorem KeepsClear.symm {text : List Char} {entry other : PatternEntry}
    (h : KeepsClear text entry other) : KeepsClear text other entry :=
  fun start start' hwhole hwhole' => (h start' start hwhole' hwhole).symm

/-- An entry does not overlap itself in the text, other than at the same place. -/
def ClearOfItself (text : List Char) (entry : PatternEntry) : Prop :=
  ∀ start start', WholeAt entry.legacy.toList text start →
    WholeAt entry.legacy.toList text start' → start < start' →
      start + entry.legacy.toList.length ≤ start'

section Permutations

variable {entries reordered : List PatternEntry} {text : List Char}

/-- Overlaps can be excluded entry by entry and pair by pair, which does not
mention where the entries stand. -/
theorem noOverlap_iff_pairwise :
    NoOverlap entries text ↔
      entries.Pairwise (KeepsClear text) ∧ ∀ entry ∈ entries, ClearOfItself text entry := by
  constructor
  · intro hclear
    constructor
    · rw [List.pairwise_iff_getElem]
      intro i j hi hj hlt start start' hwhole hwhole'
      by_contra hoverlap
      have heq := hclear ⟨i, entries[i], start⟩ ⟨j, entries[j], start'⟩
        ⟨List.getElem?_eq_getElem hi, hwhole⟩ ⟨List.getElem?_eq_getElem hj, hwhole'⟩
        (by simp only [Choice.Overlaps, Choice.stop]; omega)
      exact hlt.ne (congrArg Choice.index heq)
    · intro entry hentry start start' hwhole hwhole' hlt
      obtain ⟨index, hindex⟩ := List.getElem?_of_mem hentry
      by_contra hoverlap
      have heq := hclear ⟨index, entry, start⟩ ⟨index, entry, start'⟩ ⟨hindex, hwhole⟩
        ⟨hindex, hwhole'⟩ (by simp only [Choice.Overlaps, Choice.stop]; omega)
      exact hlt.ne (congrArg Choice.start heq)
  · rintro ⟨hpairs, hself⟩ ⟨i, entry, start⟩ ⟨j, other, start'⟩ ⟨hentry, hwhole⟩ ⟨hother, hwhole'⟩
      hoverlap
    simp only at hentry hother hwhole hwhole'
    simp only [Choice.Overlaps, Choice.stop] at hoverlap
    obtain ⟨hi, rfl⟩ := List.getElem?_eq_some_iff.mp hentry
    obtain ⟨hj, rfl⟩ := List.getElem?_eq_some_iff.mp hother
    rw [List.pairwise_iff_getElem] at hpairs
    rcases Nat.lt_trichotomy i j with hlt | rfl | hlt
    · have hapart := hpairs i j hi hj hlt start start' hwhole hwhole'
      omega
    · -- the same entry, so the two places are the same as well
      have hitself := hself _ (List.getElem_mem hi)
      rcases Nat.lt_trichotomy start start' with hlow | rfl | hhigh
      · have hapart := hitself start start' hwhole hwhole' hlow
        omega
      · rfl
      · have hapart := hitself start' start hwhole' hwhole hhigh
        omega
    · have hapart := hpairs j i hj hi hlt start' start hwhole' hwhole
      omega

theorem NoOverlap.perm (hclear : NoOverlap entries text) (hperm : reordered.Perm entries) :
    NoOverlap reordered text := by
  rw [noOverlap_iff_pairwise] at hclear ⊢
  refine ⟨(hperm.pairwise_iff KeepsClear.symm).mpr hclear.1, ?_⟩
  intro entry hentry
  exact hclear.2 entry (hperm.mem_iff.mp hentry)

/-- Without overlaps, selections for permuted entries replace the same. -/
theorem Selection.map_site_eq {chosen chosen' : List Choice}
    (selection : Selection reordered text chosen) (selection' : Selection entries text chosen')
    (hperm : reordered.Perm entries) (husable : ∀ entry ∈ entries, entry.Usable)
    (hclear : NoOverlap entries text) : chosen.map Choice.site = chosen'.map Choice.site := by
  have husable' : ∀ entry ∈ reordered, entry.Usable :=
    fun entry hentry => husable entry (hperm.mem_iff.mp hentry)
  apply eq_of_ascending (selection.ascending husable') (selection'.ascending husable)
  rintro ⟨entry, start⟩
  rw [selection.mem_site_iff (hclear.perm hperm), selection'.mem_site_iff hclear, hperm.mem_iff]

theorem Acceptable.perm {importLine : String} (acceptable : Acceptable entries importLine)
    (hperm : reordered.Perm entries) : Acceptable reordered importLine where
  import_has_text := acceptable.import_has_text
  entries_ne_nil := by
    rintro rfl
    exact acceptable.entries_ne_nil hperm.nil_eq.symm
  usable := fun entry hentry => acceptable.usable entry (hperm.mem_iff.mp hentry)
  not_completable := fun p hp q hq =>
    acceptable.not_completable p (hperm.mem_iff.mp hp) q (hperm.mem_iff.mp hq)
  import_free := fun p hp => acceptable.import_free p (hperm.mem_iff.mp hp)

end Permutations

/-! ## Tokens that never overlap -/

/-- Whether no two tokens of the entries can overlap in any text: the slide lays
every token over every other one, and completes it only when it lies on itself. -/
def neverOverlap (entries : List PatternEntry) : Bool :=
  entries.zipIdx.all fun lower => entries.zipIdx.all fun upper =>
    (slideOffsets upper.1.legacy.toList lower.1.legacy.toList).all fun offset =>
      (Alignment.mk upper.1.legacy.toList lower.1.legacy.toList offset).completes →
        lower.2 = upper.2 ∧ offset = 0

section Tokens

variable {entries : List PatternEntry} {text : List Char}

/-- A token that overlaps another one is completed around it. -/
theorem completion_of_overlap {token other : List Char} (edged : WordEdged token) {start start' : Nat}
    (hwhole : WholeAt token text start) (hother : WholeAt other text start')
    (hlow : start < start' + other.length) (hhigh : start' < start + token.length) :
    ∃ left right, left.length = start ∧ Completion other token left right start' := by
  obtain ⟨left, right, rfl, rfl, hleft, hright⟩ := (wholeAt_iff_split edged).mp hwhole
  refine ⟨left, right, rfl, hleft, hright, ?_, hhigh, hlow⟩
  rw [List.append_assoc]
  exact hother

/-- Conversely a completion is an overlap of two whole tokens. -/
theorem Completion.wholeAt_lower {token other left right : List Char} {start : Nat}
    (edged : WordEdged other) (completion : Completion token other left right start) :
    WholeAt other (left ++ other ++ right) left.length :=
  (wholeAt_iff_split edged).mpr ⟨left, right, List.append_assoc .., rfl, completion.left_edge,
    completion.right_edge⟩

/-- The slide decides whether tokens can overlap in some text. -/
theorem neverOverlap_iff (husable : ∀ entry ∈ entries, entry.Usable) :
    neverOverlap entries = true ↔ ∀ text, NoOverlap entries text := by
  simp only [neverOverlap, List.all_eq_true, decide_eq_true_eq, Prod.forall,
    List.mem_zipIdx_iff_getElem?]
  constructor
  · intro hnever text choice other occurs occurs' hoverlap
    obtain ⟨left, right, hleft, completion⟩ := completion_of_overlap (occurs.edged husable)
      occurs.whole occurs'.whole hoverlap.1 hoverlap.2
    obtain ⟨hindex, hoffset⟩ := hnever _ _ occurs.entry_eq _ _ occurs'.entry_eq _
      completion.mem_slideOffsets (completion.completes (occurs'.edged husable))
    exact occurs.eq_of_index_eq occurs' hindex (by omega)
  · intro hclear lower i hlower upper j hupper offset hmem hcompletes
    have edged := (husable _ (List.mem_of_getElem? hupper)).edged
    have completion := completion_of_completes edged hmem hcompletes
    have hwhole := completion.wholeAt_lower (husable _ (List.mem_of_getElem? hlower)).edged
    have heq := hclear _ ⟨i, lower, (upper.legacy.toList.take (-offset).toNat).length⟩
      ⟨j, upper, offset.toNat⟩ ⟨hlower, hwhole⟩ ⟨hupper, completion.whole⟩
      ⟨completion.ends_after_start, completion.starts_before_end⟩
    obtain ⟨hindex, -, hstart⟩ := Choice.mk.inj heq
    rw [slideOffsets, mem_intRange] at hmem
    rw [List.length_take_of_le (by omega)] at hstart
    exact ⟨hindex, by omega⟩

end Tokens

/-! ## Tables -/

namespace Table

/-- A table replaces the choices of a selection. -/
theorem exists_selection (table : Table) (text : List Char) :
    ∃ chosen, Selection table.entries text chosen ∧
      replaceEach table.patterns text = (splice text 0 chosen, chosen.length) := by
  obtain ⟨last, passes, consistent, hreplace⟩ := table.exists_fragments text
  refine ⟨Fragment.choices 0 last, table.selection_of_passes passes consistent, ?_⟩
  have hsplice := Fragment.splice_choices [] last
  rw [List.nil_append, consistent.source_eq] at hsplice
  rw [hreplace, ← hsplice, Fragment.length_choices]
  rfl

/-- Without overlaps, it replaces all occurrences at once, in whatever order the
entries are given. -/
theorem replaceEach_eq_splice {table : Table} {entries : List PatternEntry}
    (hperm : table.entries.Perm entries) {text : List Char} (hclear : NoOverlap entries text) :
    replaceEach table.patterns text =
      (splice text 0 (occurrences entries text), (occurrences entries text).length) := by
  have husable : ∀ entry ∈ entries, entry.Usable :=
    fun entry hentry => table.acceptable.usable entry (hperm.mem_iff.mpr hentry)
  obtain ⟨chosen, selection, hreplace⟩ := table.exists_selection text
  have hsites := selection.map_site_eq (selection_occurrences husable hclear) hperm husable hclear
  have hlength := congrArg List.length hsites
  rw [List.length_map, List.length_map] at hlength
  rw [hreplace, splice_congr hsites, hlength]

theorem actions_eq {table other : Table} (himport : other.importLine = table.importLine)
    {text : String}
    (h : replaceEach other.patterns text.toList = replaceEach table.patterns text.toList) :
    other.transform text = table.transform text ∧ other.migrate text = table.migrate text := by
  simp only [transform, migrate, h, himport, and_self]

/-- Permuted entries make a table too, which does the same to every text without
overlaps. -/
theorem exists_permuted (table : Table) {reordered : List PatternEntry}
    (hperm : reordered.Perm table.entries) :
    ∃ other, ofEntries reordered table.importLine = .ok other ∧
      ∀ text : String, NoOverlap table.entries text.toList →
        other.transform text = table.transform text ∧ other.migrate text = table.migrate text := by
  obtain ⟨other, hother⟩ := exists_of_acceptable (table.acceptable.perm hperm)
  refine ⟨other, hother, ?_⟩
  obtain ⟨rfl, himport⟩ := ofEntries_eq_ok_iff.mp hother
  intro text hclear
  apply actions_eq himport
  rw [replaceEach_eq_splice hperm hclear, replaceEach_eq_splice (List.Perm.refl _) hclear]

/-! ## The built-in migration -/

theorem exists_bettingRound : ∃ table, Catalogue.bettingRound.table = .ok table := by
  have hresult : Catalogue.bettingRound.table.toOption.map importLine =
      some Catalogue.bettingRound.importLine := by
    decide +kernel
  obtain ⟨table, htable, -⟩ := exists_ok_of_toOption_map hresult
  exact ⟨table, htable⟩

/-- The constants of the built-in migration begin alike, but laid over each other
each of them fits only on itself. -/
theorem noOverlap_bettingRound (text : List Char) :
    NoOverlap Catalogue.bettingRound.patterns text := by
  obtain ⟨table, htable⟩ := exists_bettingRound
  obtain ⟨hentries, -⟩ := ofEntries_eq_ok_iff.mp htable
  have husable := table.acceptable.usable
  rw [hentries] at husable
  exact (neverOverlap_iff husable).mp (by decide +kernel) text

/-- **Without overlaps, the order of the entries does not matter.**  In a text in
which no two occurrences overlap, an accepted table replaces all occurrences of
all entries at once, and counts them all.  Its entries are accepted in every
order, and do the same to such a text in every order.  The constants of the
built-in migration overlap in no text, so for it this holds of all texts. -/
theorem order_independent :
    (∀ {entries : List PatternEntry} {importLine : String} {table : Table},
      ofEntries entries importLine = .ok table →
        (∀ text : String, NoOverlap entries text.toList →
          (table.transform text).text =
              String.ofList (splice text.toList 0 (occurrences entries text.toList)) ∧
            (table.transform text).replacements = (occurrences entries text.toList).length) ∧
        ∀ reordered : List PatternEntry, reordered.Perm entries →
          ∃ other, ofEntries reordered importLine = .ok other ∧
            ∀ text : String, NoOverlap entries text.toList →
              other.transform text = table.transform text ∧
                other.migrate text = table.migrate text) ∧
      (∀ text : String, NoOverlap Catalogue.bettingRound.patterns text.toList) ∧
      ∃ table, Catalogue.bettingRound.table = .ok table ∧
        ∀ reordered : List PatternEntry, reordered.Perm Catalogue.bettingRound.patterns →
          ∃ other, ofEntries reordered Catalogue.bettingRound.importLine = .ok other ∧
            ∀ text : String, other.transform text = table.transform text ∧
              other.migrate text = table.migrate text := by
  refine ⟨?_, fun text => noOverlap_bettingRound text.toList, ?_⟩
  · intro entries importLine table h
    obtain ⟨rfl, rfl⟩ := ofEntries_eq_ok_iff.mp h
    refine ⟨?_, fun reordered => table.exists_permuted⟩
    intro text hclear
    simp only [transform, replaceEach_eq_splice (List.Perm.refl _) hclear, and_self]
  · obtain ⟨table, htable⟩ := exists_bettingRound
    obtain ⟨hentries, himport⟩ := ofEntries_eq_ok_iff.mp htable
    refine ⟨table, htable, ?_⟩
    intro reordered hperm
    rw [← hentries] at hperm
    obtain ⟨other, hother, hsame⟩ := table.exists_permuted hperm
    rw [himport] at hother
    refine ⟨other, hother, fun text => hsame text ?_⟩
    rw [hentries]
    exact noOverlap_bettingRound text.toList

/-- The two entries can overlap, as in `A.B.C`, but not in this text. -/
theorem order_independent_swapped :
    ∃ table other, ofEntries [⟨"A.B", "X"⟩, ⟨"B.C", "Y"⟩] "import p;" = .ok table ∧
      ofEntries [⟨"B.C", "Y"⟩, ⟨"A.B", "X"⟩] "import p;" = .ok other ∧
      NoOverlap [⟨"A.B", "X"⟩, ⟨"B.C", "Y"⟩] "B.C A.B".toList ∧
      (table.transform "B.C A.B").text = "Y X" ∧ (table.transform "B.C A.B").replacements = 2 ∧
      other.migrate "B.C A.B" = table.migrate "B.C A.B" := by
  have hresult : (ofEntries [⟨"A.B", "X"⟩, ⟨"B.C", "Y"⟩] "import p;").toOption.map importLine =
      some "import p;" := by
    decide +kernel
  obtain ⟨table, h, -⟩ := exists_ok_of_toOption_map hresult
  have husable := table.acceptable.usable
  rw [(ofEntries_eq_ok_iff.mp h).1] at husable
  have hclear : NoOverlap [⟨"A.B", "X"⟩, ⟨"B.C", "Y"⟩] "B.C A.B".toList := by
    have hlisted : ∀ choice ∈ occurrences [⟨"A.B", "X"⟩, ⟨"B.C", "Y"⟩] "B.C A.B".toList,
        ∀ other ∈ occurrences [⟨"A.B", "X"⟩, ⟨"B.C", "Y"⟩] "B.C A.B".toList,
          choice.Overlaps other → choice = other := by
      decide +kernel
    simp only [mem_occurrences_iff husable] at hlisted
    exact fun choice other occurs occurs' => hlisted choice occurs other occurs'
  obtain ⟨hall, hpermuted⟩ := order_independent.1 h
  obtain ⟨other, hother, hsame⟩ := hpermuted _ (List.Perm.swap ..)
  obtain ⟨htext, hcount⟩ := hall "B.C A.B" hclear
  refine ⟨table, other, h, hother, hclear, htext.trans ?_, hcount.trans ?_,
    (hsame "B.C A.B" hclear).2⟩
  · decide +kernel
  · decide +kernel

end Table

end EnumMigration
