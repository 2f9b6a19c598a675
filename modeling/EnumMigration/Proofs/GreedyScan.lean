import Mathlib.Data.List.Pairwise
import Mathlib.Data.String.Basic
import EnumMigration.Proofs.OrderIndependence

/-!
# The matcher is the greedy scan from the left

The spans that a pattern finds in a text are described without any scan.  Each of them
is an occurrence of the whole token (`WholeSpan`), they follow one another without
overlapping, and every occurrence that is not among them is cut off by an earlier one
that is (`Greedy`).  Only one list of spans is like this (`Greedy.unique`), so nothing
about the matcher is left open.

## Strategy

Occurrences are described by bytes, and a scan runs through characters.  A span is
therefore first taken back to a decomposition of the text (`wholeSpan_iff_split`).  A
scan that has reached some byte in the middle of the text sees the decompositions of
the rest (`StandsFrom`).  What it finds there is an occurrence
(`standsFrom_of_mem_spansFrom`), the finds are apart (`pairwise_spansFrom`), and it
misses only what a find cuts off (`covers_spansFrom`).

Behind a find the scan stands right after a word character.  This is why the next find
cannot begin at once, although the token may overlap itself.
-/

namespace EnumMigration

open String (ofList)

/-! ## Bytes and characters -/

theorem byteLength_eq_utf8Len (text : List Char) : byteLength text = String.utf8Len text := by
  induction text with
  | nil => rfl
  | cons c rest ih => rw [byteLength, ih, String.utf8Len_cons, Nat.add_comm]

@[simp] theorem byteLength_append (first second : List Char) :
    byteLength (first ++ second) = byteLength first + byteLength second := by
  simp [byteLength_eq_utf8Len]

theorem byteLength_pos {text : List Char} (hne : text ≠ []) : 0 < byteLength text := by
  rw [byteLength_eq_utf8Len, Nat.pos_iff_ne_zero, ne_eq, String.utf8Len_eq_zero]
  exact hne

theorem byteLength_toList (text : String) : byteLength text.toList = text.utf8ByteSize := by
  rw [byteLength_eq_utf8Len, String.utf8Len_toList]

/-- The bytes from `start` to `stop` of a text, read as a text. -/
def sliceOf (text : String) (start stop : Nat) : String := String.Pos.Raw.extract text ⟨start⟩ ⟨stop⟩

/-- A slice between two characters is what stands there. -/
theorem sliceOf_append (before middle after : List Char) :
    sliceOf (ofList (before ++ (middle ++ after))) (byteLength before)
      (byteLength before + byteLength middle) = ofList middle := by
  simp only [sliceOf, byteLength_eq_utf8Len, ← List.append_assoc]
  exact String.extract_of_valid before middle after

theorem sliceOf_before (before after : List Char) :
    sliceOf (ofList (before ++ after)) 0 (byteLength before) = ofList before := by
  have h := sliceOf_append [] before after
  rwa [byteLength, Nat.zero_add] at h

theorem sliceOf_after (before after : List Char) :
    sliceOf (ofList (before ++ after)) (byteLength before) (ofList (before ++ after)).utf8ByteSize =
      ofList after := by
  have h := sliceOf_append before after []
  rw [List.append_nil] at h
  rwa [String.utf8ByteSize_ofList, ← byteLength_eq_utf8Len, byteLength_append]

/-- A slice that ends where it begins, or earlier, is empty. -/
theorem lt_of_sliceOf_ne_empty {text : String} {start stop : Nat}
    (hne : sliceOf text start stop ≠ "") : start < stop := by
  by_contra hle
  apply hne
  rw [sliceOf, String.Pos.Raw.extract, if_pos (by simpa using hle)]

/-- A position between two characters cuts a text in two. -/
theorem isValid_iff_split {text : List Char} {position : Nat} :
    String.Pos.Raw.IsValid (ofList text) ⟨position⟩ ↔
      ∃ before after, text = before ++ after ∧ position = byteLength before := by
  rw [String.Pos.Raw.isValid_ofList]
  constructor
  · rintro ⟨index, hindex⟩
    refine ⟨text.take index, text.drop index, (List.take_append_drop index text).symm, ?_⟩
    rw [byteLength_eq_utf8Len, ← String.utf8ByteSize_ofList]
    exact hindex
  · rintro ⟨before, after, rfl, rfl⟩
    refine ⟨before.length, ?_⟩
    rw [List.take_left, String.utf8ByteSize_ofList, byteLength_eq_utf8Len]

/-! ## Greedy lists of occurrences -/

/-- The bytes of a span read the token, and no word character touches them. -/
structure WholeSpan (token text : String) (span : Span) : Prop where
  start_valid : String.Pos.Raw.IsValid text ⟨span.start⟩
  stop_valid : String.Pos.Raw.IsValid text ⟨span.stop⟩
  reads : sliceOf text span.start span.stop = token
  opens : isWordAt (sliceOf text 0 span.start).toList.getLast? = false
  closes : isWordAt (sliceOf text span.stop text.utf8ByteSize).toList.head? = false

/-- The spans of a greedy scan from the left. -/
structure Greedy (token text : String) (spans : List Span) : Prop where
  whole : ∀ span ∈ spans, WholeSpan token text span
  apart : spans.Pairwise fun span next => span.stop ≤ next.start
  covers : ∀ span, WholeSpan token text span → span ∈ spans ∨
    ∃ earlier ∈ spans, earlier.start < span.start ∧ span.start < earlier.stop

theorem WholeSpan.start_lt_stop {token text : String} {span : Span}
    (whole : WholeSpan token text span) (hne : token ≠ "") : span.start < span.stop := by
  apply lt_of_sliceOf_ne_empty
  rw [whole.reads]
  exact hne

/-- An occurrence by bytes is an occurrence by characters. -/
theorem wholeSpan_iff_split {token text : List Char} (hne : token ≠ []) {span : Span} :
    WholeSpan (ofList token) (ofList text) span ↔
      ∃ before after, text = before ++ (token ++ after) ∧
        span = ⟨byteLength before, byteLength before + byteLength token⟩ ∧
        isWordAt before.getLast? = false ∧ isWordAt after.head? = false := by
  constructor
  · intro whole
    have hlt := whole.start_lt_stop (by simpa using hne)
    obtain ⟨start, stop⟩ := span
    obtain ⟨hstart, hstop, hreads, hopens, hcloses⟩ := whole
    obtain ⟨before, rest, htext, rfl⟩ := isValid_iff_split.mp hstart
    obtain ⟨through, after, hthrough, rfl⟩ := isValid_iff_split.mp hstop
    obtain ⟨middle, rfl⟩ : ∃ middle, through = before ++ middle := by
      rcases List.append_eq_append_iff.mp (htext.symm.trans hthrough) with
        ⟨middle, hmiddle, -⟩ | ⟨middle, hmiddle, -⟩
      · exact ⟨middle, hmiddle⟩
      · replace hlt : byteLength before < byteLength through := hlt
        rw [hmiddle, byteLength_append] at hlt
        omega
    have htoken : middle = token := by
      rw [hthrough, List.append_assoc, byteLength_append, sliceOf_append] at hreads
      exact String.ofList_injective hreads
    subst htoken
    refine ⟨before, after, by rw [hthrough, List.append_assoc], by rw [byteLength_append], ?_, ?_⟩
    · rwa [hthrough, List.append_assoc, sliceOf_before, String.toList_ofList] at hopens
    · rwa [hthrough, sliceOf_after, String.toList_ofList] at hcloses
  · rintro ⟨before, after, rfl, rfl, hbefore, hafter⟩
    refine ⟨?_, ?_, sliceOf_append before token after, ?_, ?_⟩
    · exact isValid_iff_split.mpr ⟨before, token ++ after, rfl, rfl⟩
    · refine isValid_iff_split.mpr ⟨before ++ token, after, by rw [List.append_assoc], ?_⟩
      rw [byteLength_append]
    · rwa [sliceOf_before, String.toList_ofList]
    · rw [← byteLength_append, ← List.append_assoc, sliceOf_after, String.toList_ofList]
      exact hafter

namespace Greedy

variable {token text : String} {spans other : List Span}

/-- Of two spans in the list, neither begins inside the other. -/
theorem not_inside (greedy : Greedy token text spans) (hne : token ≠ "") {earlier span : Span}
    (hearlier : earlier ∈ spans) (hspan : span ∈ spans) :
    ¬ (earlier.start < span.start ∧ span.start < earlier.stop) := by
  have hsymm : Std.Symm fun a b : Span => a.stop ≤ b.start ∨ b.stop ≤ a.start :=
    ⟨fun _ _ => Or.symm⟩
  have hapart : spans.Pairwise fun a b => a.stop ≤ b.start ∨ b.stop ≤ a.start :=
    greedy.apart.imp Or.inl
  have hlt := (greedy.whole span hspan).start_lt_stop hne
  rintro ⟨hstart, hstop⟩
  have hdistinct : earlier ≠ span := by
    rintro rfl
    exact Nat.lt_irrefl _ hstart
  have hpair := hapart.forall hearlier hspan hdistinct
  omega

/-- What one greedy list has, any other one has, too. -/
theorem mem_of_mem (greedy : Greedy token text spans) (greedy' : Greedy token text other)
    (hne : token ≠ "") {span : Span} (hspan : span ∈ spans) : span ∈ other := by
  -- the induction is on where the span begins, and the two lists change places in it
  induction hstart : span.start using Nat.strongRecOn generalizing span spans other with
  | ind start ih =>
      rcases greedy'.covers span (greedy.whole span hspan) with hmem | ⟨earlier, hearlier, hcut⟩
      · exact hmem
      · have hback : earlier ∈ spans :=
          ih earlier.start (hstart ▸ hcut.1) greedy' greedy hearlier rfl
        exact absurd hcut (greedy.not_inside hne hback hspan)

theorem ascending (greedy : Greedy token text spans) (hne : token ≠ "") :
    spans.Pairwise fun span next => span.start < next.start := by
  apply greedy.apart.imp_of_mem
  intro span next hspan _ hle
  exact Nat.lt_of_lt_of_le ((greedy.whole span hspan).start_lt_stop hne) hle

theorem unique (greedy : Greedy token text spans) (greedy' : Greedy token text other)
    (hne : token ≠ "") : spans = other := by
  apply eq_of_ascending (greedy.ascending hne) (greedy'.ascending hne)
  intro span
  exact ⟨greedy.mem_of_mem greedy' hne, greedy'.mem_of_mem greedy hne⟩

end Greedy

/-! ## What a scan finds -/

theorem inWordAfter_append (inWord : Bool) (first second : List Char) :
    inWordAfter inWord (first ++ second) = inWordAfter (inWordAfter inWord first) second := by
  induction first generalizing inWord with
  | nil => rfl
  | cons c first ih => exact ih (isWord c)

theorem WordEdged.inWordAfter_eq {token : List Char} (edged : WordEdged token) (inWord : Bool) :
    inWordAfter inWord token = true := by
  rw [inWordAfter_of_ne_nil edged.ne_nil, edged.last]

/-- An occurrence in the rest of a text, which begins at byte `start` behind `inWord`. -/
def StandsFrom (token : List Char) (start : Nat) (inWord : Bool) (text : List Char) (span : Span) :
    Prop :=
  ∃ before after, text = before ++ (token ++ after) ∧
    span = ⟨start + byteLength before, start + byteLength before + byteLength token⟩ ∧
    inWordAfter inWord before = false ∧ isWordAt after.head? = false

section Finds

variable {token : List Char}

/-- Right after a word character no occurrence begins. -/
theorem StandsFrom.start_lt {start : Nat} {text : List Char} {span : Span}
    (h : StandsFrom token start true text span) : start < span.start := by
  obtain ⟨before, after, -, rfl, hbefore, -⟩ := h
  have hne : before ≠ [] := by
    rintro rfl
    cases hbefore
  exact Nat.lt_add_of_pos_right (byteLength_pos hne)

/-- An occurrence further on, seen from before a character. -/
theorem StandsFrom.cons {start : Nat} {inWord : Bool} {c : Char} {rest : List Char} {span : Span}
    (h : StandsFrom token (start + c.utf8Size) (isWord c) rest span) :
    StandsFrom token start inWord (c :: rest) span := by
  obtain ⟨before, after, rfl, rfl, hedges⟩ := h
  exact ⟨c :: before, after, rfl, by simp only [byteLength, Nat.add_assoc], hedges⟩

/-- An occurrence further on, seen from before the token. -/
theorem StandsFrom.token_append (edged : WordEdged token) {start : Nat} {after : List Char}
    {span : Span} (h : StandsFrom token (start + byteLength token) true after span) :
    StandsFrom token start false (token ++ after) span := by
  obtain ⟨before, behind, rfl, rfl, hbefore, hbehind⟩ := h
  refine ⟨token ++ before, behind, by simp, by simp [Nat.add_assoc], ?_, hbehind⟩
  rw [inWordAfter_append, edged.inWordAfter_eq]
  exact hbefore

theorem standsFrom_of_mem_spansFrom (edged : WordEdged token) (inWord : Bool) (text : List Char)
    (start : Nat) {span : Span} (hspan : span ∈ spansFrom token start (scan token 0 inWord text)) :
    StandsFrom token start inWord text span := by
  induction inWord, text using scan_induction edged generalizing start with
  | nil inWord => simp [scan, spansFrom] at hspan
  | hit after hafter ih =>
      rw [scan_token edged hafter, spansFrom, List.mem_cons] at hspan
      rcases hspan with rfl | hspan
      · exact ⟨[], after, rfl, rfl, rfl, hafter⟩
      · exact (ih _ hspan).token_append edged
  | keep inWord c rest hnot ih =>
      rw [scan_kept hnot, spansFrom] at hspan
      exact (ih _ hspan).cons

/-- Between two finds there is at least one character. -/
theorem pairwise_spansFrom (edged : WordEdged token) (inWord : Bool) (text : List Char)
    (start : Nat) :
    (spansFrom token start (scan token 0 inWord text)).Pairwise
      fun span next => span.stop < next.start := by
  induction inWord, text using scan_induction edged generalizing start with
  | nil inWord => exact List.Pairwise.nil
  | hit after hafter ih =>
      rw [scan_token edged hafter, spansFrom]
      refine List.pairwise_cons.mpr ⟨?_, ih _⟩
      intro next hnext
      exact (standsFrom_of_mem_spansFrom edged true after _ hnext).start_lt
  | keep inWord c rest hnot ih =>
      rw [scan_kept hnot, spansFrom]
      exact ih _

/-- An occurrence is found, or it begins inside of one that is. -/
theorem covers_spansFrom (edged : WordEdged token) (inWord : Bool) (text : List Char)
    (start : Nat) {span : Span} (hspan : StandsFrom token start inWord text span) :
    span ∈ spansFrom token start (scan token 0 inWord text) ∨
      ∃ earlier ∈ spansFrom token start (scan token 0 inWord text),
        earlier.start < span.start ∧ span.start < earlier.stop := by
  induction inWord, text using scan_induction edged generalizing start with
  | nil inWord =>
      obtain ⟨before, after, htext, -⟩ := hspan
      have hnil : token = [] := by simp_all
      exact absurd hnil edged.ne_nil
  | hit after hafter ih =>
      rw [scan_token edged hafter, spansFrom]
      obtain ⟨before, behind, htext, rfl, hbefore, hbehind⟩ := hspan
      rcases List.append_eq_append_iff.mp htext with ⟨more, hmore, hrest⟩ | ⟨more, hmore, hrest⟩
      · -- the occurrence begins behind the find, so the rest of the scan has it
        have hlater : StandsFrom token (start + byteLength token) true after
            ⟨start + byteLength before, start + byteLength before + byteLength token⟩ := by
          refine ⟨more, behind, hrest, by simp [hmore, Nat.add_assoc], ?_, hbehind⟩
          rwa [hmore, inWordAfter_append, edged.inWordAfter_eq] at hbefore
        rcases ih _ hlater with hmem | ⟨earlier, hearlier, hcut⟩
        · exact Or.inl (List.mem_cons_of_mem _ hmem)
        · exact Or.inr ⟨earlier, List.mem_cons_of_mem _ hearlier, hcut⟩
      · -- it begins inside the find, or it is the find
        have hmore_ne : more ≠ [] := by
          rintro rfl
          rw [List.append_nil] at hmore
          rw [← hmore, edged.inWordAfter_eq] at hbefore
          cases hbefore
        have hlength := congrArg byteLength hmore
        rw [byteLength_append] at hlength
        have hpos := byteLength_pos hmore_ne
        cases before with
        | nil => exact Or.inl List.mem_cons_self
        | cons c before =>
            have hbefore_pos := byteLength_pos (List.cons_ne_nil c before)
            refine Or.inr ⟨_, List.mem_cons_self, ?_, ?_⟩
            · show start < start + byteLength (c :: before)
              omega
            · show start + byteLength (c :: before) < start + byteLength token
              omega
  | keep inWord c rest hnot ih =>
      rw [scan_kept hnot, spansFrom]
      apply ih
      obtain ⟨before, after, htext, rfl, hbefore, hafter⟩ := hspan
      obtain ⟨behind, rfl, hrest⟩ := eq_cons_of_kept hnot htext hbefore hafter
      exact ⟨behind, after, hrest, by simp only [byteLength, Nat.add_assoc], hbefore, hafter⟩

end Finds

namespace Pattern

variable (pattern : Pattern)

/-- By itself a text has its occurrences where a scan from its first byte sees them. -/
theorem wholeSpan_iff_standsFrom (text : String) (span : Span) :
    WholeSpan pattern.legacy text span ↔ StandsFrom pattern.token 0 false text.toList span := by
  calc WholeSpan pattern.legacy text span
      ↔ WholeSpan (ofList pattern.token) (ofList text.toList) span := by
        rw [token, String.ofList_toList, String.ofList_toList]
    _ ↔ StandsFrom pattern.token 0 false text.toList span := by
        rw [wholeSpan_iff_split pattern.wordEdged.ne_nil]
        simp only [StandsFrom, inWordAfter_false, Nat.zero_add]

/-- The same occurrences, said with word boundaries. -/
theorem wholeSpan_iff_wholeAt (text : String) (span : Span) :
    WholeSpan pattern.legacy text span ↔
      ∃ position, WholeAt pattern.token text.toList position ∧
        span.start = byteLength (text.toList.take position) ∧
        span.stop = span.start + byteLength pattern.token := by
  simp only [wholeSpan_iff_standsFrom, StandsFrom, inWordAfter_false, Nat.zero_add,
    wholeAt_iff_split pattern.wordEdged]
  constructor
  · rintro ⟨before, after, htext, rfl, hedges⟩
    refine ⟨before.length, ⟨before, after, htext, rfl, hedges⟩, ?_, rfl⟩
    rw [htext, List.take_left]
  · rintro ⟨position, ⟨before, after, htext, rfl, hedges⟩, hstart, hstop⟩
    rw [htext, List.take_left] at hstart
    refine ⟨before, after, htext, ?_, hedges⟩
    rw [← hstart, ← hstop]

theorem legacy_ne_empty : pattern.legacy ≠ "" := by
  intro h
  exact pattern.wordEdged.ne_nil (by rw [token, h]; rfl)

theorem greedy_spans (text : String) : Greedy pattern.legacy text (pattern.spans text.toList) where
  whole := by
    intro span hspan
    rw [wholeSpan_iff_standsFrom]
    exact standsFrom_of_mem_spansFrom pattern.wordEdged false text.toList 0 hspan
  apart := (pairwise_spansFrom pattern.wordEdged false text.toList 0).imp Nat.le_of_lt
  covers := by
    intro span hwhole
    rw [wholeSpan_iff_standsFrom] at hwhole
    exact covers_spansFrom pattern.wordEdged false text.toList 0 hwhole

end Pattern

/-! ## Substitutions -/

/-- The text from byte `position` on, with one substitute in the place of each span. -/
def substituteSpans (text substitute : String) : (position : Nat) → List Span → String
  | position, [] => sliceOf text position text.utf8ByteSize
  | position, span :: spans =>
    sliceOf text position span.start ++ substitute ++ substituteSpans text substitute span.stop spans

/-- A scan has come behind `before` and has kept `gap` since its last find. -/
theorem substituteSpans_spansFrom {token : List Char} (edged : WordEdged token)
    (substitute : List Char) (inWord : Bool) (text before gap : List Char) :
    substituteSpans (ofList (before ++ (gap ++ text))) (ofList substitute) (byteLength before)
        (spansFrom token (byteLength before + byteLength gap) (scan token 0 inWord text)) =
      ofList (gap ++ (scan token 0 inWord text).flatMap (Piece.replaced substitute)) := by
  induction inWord, text using scan_induction edged generalizing before gap with
  | nil inWord =>
      simpa [scan, spansFrom, substituteSpans] using sliceOf_after before gap
  | hit after hafter ih =>
      have hrest := ih (before ++ (gap ++ token)) []
      simp only [byteLength_append, byteLength, Nat.add_zero, List.append_assoc, List.nil_append,
        ← Nat.add_assoc] at hrest
      rw [scan_token edged hafter, spansFrom, substituteSpans, sliceOf_append, hrest]
      simp [Piece.replaced, String.append_assoc]
  | keep inWord c rest hnot ih =>
      have hrest := ih before (gap ++ [c])
      simp only [byteLength_append, byteLength, Nat.add_zero, List.append_assoc,
        List.singleton_append, ← Nat.add_assoc] at hrest
      rw [scan_kept hnot, spansFrom, hrest]
      simp [Piece.replaced]

theorem Pattern.replaceAll_eq_substituteSpans (pattern : Pattern) (text : String) :
    ofList (pattern.replaceAll text.toList) =
      substituteSpans text pattern.replacement 0 (pattern.spans text.toList) := by
  have h := substituteSpans_spansFrom pattern.wordEdged pattern.substitute false text.toList [] []
  rw [List.nil_append, List.nil_append, String.ofList_toList, substitute, String.ofList_toList] at h
  exact h.symm

/-- The spans that the pattern of an accepted entry finds are the greedy ones, and no other
list is greedy.  A character separates any two of them, and the occurrences they are chosen
from are those between two word boundaries.  Replacing puts one substitute in the place of
each span and counts them. -/
theorem Pattern.spans_determined {entry : PatternEntry} {pattern : Pattern}
    (h : Pattern.compile entry = .ok pattern) (text : String) :
    (∀ spans, Greedy entry.legacy text spans ↔ spans = pattern.spans text.toList) ∧
      ((pattern.spans text.toList).Pairwise fun span next => span.stop < next.start) ∧
      (∀ span, WholeSpan entry.legacy text span ↔
        ∃ position, WholeAt entry.legacy.toList text.toList position ∧
          span.start = byteLength (text.toList.take position) ∧
          span.stop = span.start + entry.legacy.utf8ByteSize) ∧
      (pattern.spans text.toList).length = pattern.hits text.toList ∧
      ofList (pattern.replaceAll text.toList) =
        substituteSpans text entry.replacement 0 (pattern.spans text.toList) := by
  obtain rfl := compile_eq_ok_iff.mp h
  refine ⟨?_, pairwise_spansFrom pattern.wordEdged false text.toList 0, ?_,
    pattern.length_spans text.toList, pattern.replaceAll_eq_substituteSpans text⟩
  · intro spans
    constructor
    · intro greedy
      exact greedy.unique (pattern.greedy_spans text) pattern.legacy_ne_empty
    · rintro rfl
      exact pattern.greedy_spans text
  · intro span
    rw [← byteLength_toList]
    exact pattern.wholeSpan_iff_wholeAt text span

/-- The token overlaps itself, and a character of two bytes comes before it: the occurrence
in the middle is left out. -/
theorem Pattern.spans_determined_self_overlap :
    ∃ pattern, Pattern.compile ⟨"A.A", "B"⟩ = .ok pattern ∧
      WholeSpan "A.A" "é A.A.A.A" ⟨5, 8⟩ ∧
      (∀ spans, Greedy "A.A" "é A.A.A.A" spans ↔ spans = [⟨3, 6⟩, ⟨7, 10⟩]) ∧
      substituteSpans "é A.A.A.A" "B" 0 [⟨3, 6⟩, ⟨7, 10⟩] = "é B.B" := by
  obtain ⟨pattern, hpattern⟩ : ∃ pattern, Pattern.compile ⟨"A.A", "B"⟩ = .ok pattern :=
    ⟨⟨⟨"A.A", "B"⟩, by decide +kernel⟩, compile_eq_ok_iff.mpr rfl⟩
  have hentry := compile_eq_ok_iff.mp hpattern
  have htoken : pattern.token = "A.A".toList := by rw [token, hentry]
  have hspans : pattern.spans "é A.A.A.A".toList = [⟨3, 6⟩, ⟨7, 10⟩] := by
    rw [spans, pieces, htoken]
    decide +kernel
  have hreplaced : ofList (pattern.replaceAll "é A.A.A.A".toList) = "é B.B" := by
    rw [replaceAll, pieces, htoken, substitute, hentry]
    decide +kernel
  obtain ⟨hgreedy, -, hwhole, -, hsubstituted⟩ := Pattern.spans_determined hpattern "é A.A.A.A"
  rw [hspans] at hgreedy
  rw [hspans, hreplaced] at hsubstituted
  refine ⟨pattern, hpattern, (hwhole ⟨5, 8⟩).mpr ⟨4, ?_, by decide +kernel, by decide +kernel⟩,
    hgreedy, hsubstituted.symm⟩
  exact ⟨by decide +kernel, by decide +kernel, by decide +kernel⟩

end EnumMigration
