import Mathlib.Algebra.Ring.Nat
import EnumMigration.Proofs.FixedPoint
import EnumMigration.Proofs.Splitting

/-!
# A table works line by line

A character that is no word character and belongs to no legacy token *separates*
a text for a table: the passes treat what is on its left and what is on its
right as two texts (`replaceEach_append_cons`).  Line feeds and carriage returns
always separate, so a table can be applied to the lines of a text one by one.

The argument is about a single scan.  It comes to the separator either between
two kept characters or right behind an occurrence.  An occurrence that begins on
the left ends there, since it does not have the separator in it, and on either
side the separator is as good as the end of a text (`startsWhole_append_cons`).
So the scan of the whole is the scan of the left, the separator, and the scan of
the right (`scan_append_cons`).  `replaceEach_append_cons` repeats this for every
pattern, each on what the earlier ones left.
-/

namespace EnumMigration

/-! ## One scan -/

section Scans

variable {token : List Char} {separator : Char}

/-- Whether a token begins a text can be told without what is behind a
separator. -/
theorem startsWhole_append_cons (hword : isWord separator = false) (hnot : separator ∉ token)
    (left right : List Char) :
    startsWhole token (left ++ separator :: right) = startsWhole token left := by
  rw [Bool.eq_iff_iff, startsWhole_iff, startsWhole_iff]
  constructor
  · rintro ⟨after, htext, hafter⟩
    rcases List.append_eq_append_iff.mp htext with ⟨more, hmore, hrest⟩ | ⟨more, hmore, hrest⟩
    · cases more with
      | nil => exact ⟨[], by simpa using hmore.symm, rfl⟩
      | cons c more =>
          -- the token would reach over the separator
          injection hrest with hc _
          exact absurd (hc ▸ hmore ▸ by simp) hnot
    · refine ⟨more, hmore, ?_⟩
      cases more with
      | nil => rfl
      | cons c more =>
          rw [hrest] at hafter
          exact hafter
  · rintro ⟨after, rfl, hafter⟩
    refine ⟨after ++ separator :: right, List.append_assoc .., ?_⟩
    cases after with
    | nil => exact hword
    | cons c after => exact hafter

/-- A scan comes apart at a separator, and begins anew behind it. -/
theorem scan_append_cons (edged : WordEdged token) (hword : isWord separator = false)
    (hnot : separator ∉ token) (inWord : Bool) (left right : List Char) :
    scan token 0 inWord (left ++ separator :: right) =
      scan token 0 inWord left ++ .kept separator :: scan token 0 false right := by
  induction inWord, left using scan_induction edged with
  | nil inWord =>
      -- no token begins with the separator
      have hstarts : startsWhole token (separator :: right) = false := by
        have hempty : startsWhole token [] = false := by
          rw [← Bool.not_eq_true, startsWhole_iff]
          rintro ⟨after, hnil, -⟩
          exact edged.ne_nil (List.append_eq_nil_iff.mp hnil.symm).1
        rw [← hempty]
        exact startsWhole_append_cons hword hnot [] right
      rw [List.nil_append, scan_kept fun _ => hstarts, hword]
      rfl
  | hit after hafter ih =>
      -- behind the occurrence the separator is as good as the end
      have hmore : isWordAt (after ++ separator :: right).head? = false := by
        cases after with
        | nil => exact hword
        | cons c after => exact hafter
      rw [List.append_assoc, scan_token edged hmore, scan_token edged hafter, ih]
      rfl
  | keep inWord c rest hkeep ih =>
      have hstarts := startsWhole_append_cons hword hnot (c :: rest) right
      rw [List.cons_append] at hstarts
      rw [List.cons_append, scan_kept fun hfalse => hstarts.trans (hkeep hfalse), scan_kept hkeep, ih]
      rfl

/-- A character that neither the token nor its substitute has occurs after the
replacement as often as before. -/
theorem count_replaced_scan (edged : WordEdged token) {substitute : List Char}
    (hnot : separator ∉ token) (hsubstitute : separator ∉ substitute) (inWord : Bool)
    (text : List Char) :
    ((scan token 0 inWord text).flatMap (Piece.replaced substitute)).count separator =
      text.count separator := by
  induction inWord, text using scan_induction edged with
  | nil inWord => rfl
  | hit after hafter ih =>
      rw [scan_token edged hafter, List.flatMap_cons, List.count_append, List.count_append, ih,
        Piece.replaced, List.count_eq_zero_of_not_mem hnot,
        List.count_eq_zero_of_not_mem hsubstitute]
  | keep inWord c rest hkeep ih =>
      rw [scan_kept hkeep, List.flatMap_cons, List.count_append, ih, Piece.replaced,
        ← List.count_append]
      rfl

end Scans

/-! ## All passes -/

section Passes

variable {patterns : List Pattern} {separator : Char}

theorem Pattern.replaceAll_append_cons (pattern : Pattern) (hword : isWord separator = false)
    (hnot : separator ∉ pattern.token) (left right : List Char) :
    pattern.replaceAll (left ++ separator :: right) =
      pattern.replaceAll left ++ separator :: pattern.replaceAll right := by
  simp only [Pattern.replaceAll, Pattern.pieces,
    scan_append_cons pattern.wordEdged hword hnot, List.flatMap_append, List.flatMap_cons]
  rfl

theorem Pattern.hits_append_cons (pattern : Pattern) (hword : isWord separator = false)
    (hnot : separator ∉ pattern.token) (left right : List Char) :
    pattern.hits (left ++ separator :: right) = pattern.hits left + pattern.hits right := by
  simp only [Pattern.hits, Pattern.pieces, scan_append_cons pattern.wordEdged hword hnot,
    List.countP_append]
  rfl

/-- What every pass does at a separator, all of them do together. -/
theorem replaceEach_append_cons (hword : isWord separator = false)
    (hnot : ∀ pattern ∈ patterns, separator ∉ pattern.token) (left right : List Char) :
    replaceEach patterns (left ++ separator :: right) =
      ((replaceEach patterns left).1 ++ separator :: (replaceEach patterns right).1,
        (replaceEach patterns left).2 + (replaceEach patterns right).2) := by
  induction patterns generalizing left right with
  | nil => rfl
  | cons pattern patterns ih =>
      obtain ⟨hfirst, hrest⟩ := List.forall_mem_cons.mp hnot
      have hpasses := ih hrest (pattern.replaceAll left) (pattern.replaceAll right)
      simp only [replaceEach, pattern.replaceAll_append_cons hword hfirst,
        pattern.hits_append_cons hword hfirst, hpasses]
      refine Prod.ext rfl ?_
      show _ + _ + (_ + _) = _ + _ + (_ + _)
      omega

/-- Pieces between separators are treated one by one. -/
theorem replaceEach_intercalate (hword : isWord separator = false)
    (hnot : ∀ pattern ∈ patterns, separator ∉ pattern.token) (pieces : List (List Char)) :
    replaceEach patterns ([separator].intercalate pieces) =
      ([separator].intercalate (pieces.map fun piece => (replaceEach patterns piece).1),
        (pieces.map fun piece => (replaceEach patterns piece).2).sum) := by
  induction pieces with
  | nil =>
      apply replaceEach_eq_self
      intro pattern _
      rw [← pattern.occursIn_iff]
      exact Bool.false_ne_true
  | cons piece rest ih =>
      cases rest with
      | nil => simp
      | cons next rest =>
          rw [intercalate_cons_cons, replaceEach_append_cons hword hnot, ih]
          simp

theorem count_replaceEach (hnot : ∀ pattern ∈ patterns, separator ∉ pattern.token)
    (hsubstitute : ∀ pattern ∈ patterns, separator ∉ pattern.substitute) (text : List Char) :
    (replaceEach patterns text).1.count separator = text.count separator := by
  induction patterns generalizing text with
  | nil => rfl
  | cons pattern patterns ih =>
      rw [List.forall_mem_cons] at hnot hsubstitute
      calc (replaceEach patterns (pattern.replaceAll text)).1.count separator
          = (pattern.replaceAll text).count separator := ih hnot.2 hsubstitute.2 _
        _ = text.count separator :=
            count_replaced_scan pattern.wordEdged hnot.1 hsubstitute.1 false text

end Passes

/-! ## Tables -/

namespace Table

/-- A character that no legacy token of the table can reach over. -/
structure SeparatedBy (table : Table) (separator : Char) : Prop where
  not_word : isWord separator = false
  not_mem : ∀ entry ∈ table.entries, separator ∉ entry.legacy.toList

theorem SeparatedBy.not_mem_token {table : Table} {separator : Char}
    (separated : table.SeparatedBy separator) :
    ∀ pattern ∈ table.patterns, separator ∉ pattern.token :=
  fun _ hpattern => separated.not_mem _ (List.mem_map_of_mem hpattern)

theorem separatedBy_newline (table : Table) : table.SeparatedBy '\n' :=
  ⟨isWord_newline, fun entry hentry => (table.acceptable.usable entry hentry).no_newline⟩

theorem separatedBy_return (table : Table) : table.SeparatedBy '\r' :=
  ⟨isWord_return, fun entry hentry => (table.acceptable.usable entry hentry).no_return⟩

/-- **A table works line by line.**  What stands on the two sides of a separating
character is transformed as two texts of its own, and the counts add.  Line feeds
and carriage returns separate for every table.  So the lines of a text can be
transformed one by one and joined again, and if no replacement has a line feed
the text keeps its number of lines. -/
theorem transform_line_by_line (table : Table) :
    (∀ separator, table.SeparatedBy separator → ∀ left right : String,
      (table.transform (left ++ String.singleton separator ++ right)).text =
          (table.transform left).text ++ String.singleton separator ++
            (table.transform right).text ∧
        (table.transform (left ++ String.singleton separator ++ right)).replacements =
          (table.transform left).replacements + (table.transform right).replacements) ∧
      table.SeparatedBy '\n' ∧ table.SeparatedBy '\r' ∧
      ∀ text : String,
        (table.transform text).text = String.ofList (unlines ((lines text.toList).map fun line =>
          (table.transform (String.ofList line)).text.toList)) ∧
        (table.transform text).replacements = ((lines text.toList).map fun line =>
          (table.transform (String.ofList line)).replacements).sum ∧
        ((∀ entry ∈ table.entries, '\n' ∉ entry.replacement.toList) →
          (lines (table.transform text).text.toList).length = (lines text.toList).length) := by
  refine ⟨?_, table.separatedBy_newline, table.separatedBy_return, ?_⟩
  · intro separator separated left right
    have hpasses := replaceEach_append_cons separated.not_word separated.not_mem_token
      left.toList right.toList
    have htext : (left ++ String.singleton separator ++ right).toList =
        left.toList ++ separator :: right.toList := by simp
    simp only [transform, htext, hpasses, and_true]
    apply String.toList_injective
    simp
  · intro text
    have newline := table.separatedBy_newline
    have hpasses := replaceEach_intercalate newline.not_word newline.not_mem_token (lines text.toList)
    have htext : ['\n'].intercalate (lines text.toList) = text.toList := unlines_lines _
    rw [htext] at hpasses
    refine ⟨?_, ?_, ?_⟩
    · simp only [transform, hpasses, unlines, String.toList_ofList]
    · simp only [transform, hpasses, String.toList_ofList]
    · intro hreplacement
      simp only [transform, lines, length_splitOn, String.toList_ofList]
      rw [count_replaceEach newline.not_mem_token]
      exact fun pattern hpattern => hreplacement _ (List.mem_map_of_mem hpattern)

theorem transform_line_by_line_two_separators :
    ∃ table, ofEntries [⟨"A.B", "X"⟩, ⟨"B.C", "Y"⟩] "import p;" = .ok table ∧
      table.SeparatedBy ';' ∧ (table.transform "A.B;B.C").text = "X;Y" ∧
      (table.transform "A.B;B.C").replacements = 2 ∧
      (lines (table.transform "A.B;B.C\r\nA.B.C\n").text.toList).length = 3 := by
  have htransform : (ofEntries [⟨"A.B", "X"⟩, ⟨"B.C", "Y"⟩] "import p;").toOption.map
      (fun table => (table.transform "A.B", table.transform "B.C")) =
        some (⟨"X", true, 1⟩, ⟨"Y", true, 1⟩) := by
    decide +kernel
  obtain ⟨table, h, hresult⟩ := exists_ok_of_toOption_map htransform
  obtain ⟨hleft, hright⟩ := Prod.mk.inj hresult
  have hentries := (ofEntries_eq_ok_iff.mp h).1
  have separated : table.SeparatedBy ';' := ⟨by decide, by rw [hentries]; decide⟩
  obtain ⟨hsplit, -, -, hlines⟩ := transform_line_by_line table
  obtain ⟨htext, hcount⟩ := hsplit ';' separated "A.B" "B.C"
  rw [hleft, hright] at htext hcount
  refine ⟨table, h, separated, htext, hcount, ?_⟩
  exact (hlines "A.B;B.C\r\nA.B.C\n").2.2 (by rw [hentries]; decide)

end Table

end EnumMigration
