import EnumMigration.Proofs.PatchText

/-!
# Reading patches and applying them

What a patch means is said by a program of its own that takes the text of a patch
and a text to change.  It is strict.  The lines that name the file and the first
line of each hunk have to be as they should be; a range has to agree with the lines
below it; hunks have to stand in order and apart, at the places that their ranges
name in both texts; and the lines that a hunk shows of the text have to be there.

Reading goes through the lines of a patch from the last one back, so that the body
of a hunk is complete when its first line is met.

## Strategy

The second half of the file shows that reading undoes writing, for hunks whose
ranges agree with their lines (`Hunk.Sound`).  `HunkLine.raw` is the form of a line
between the two: marked, and without the remark on a missing line feed.
-/

namespace EnumMigration

/-! ## Hunks, seen from either side -/

/-- The other one of two texts. -/
def Side.other : Side → Side
  | .before => .after
  | .after => .before

/-- What a line of a hunk shows of one of the texts. -/
def HunkLine.text (side : Side) : HunkLine → List Line
  | .context line => [line]
  | .delete line => if side = .before then [line] else []
  | .insert line => if side = .after then [line] else []

namespace Hunk

/-- The lines that a hunk shows of one of the texts. -/
def text (side : Side) (hunk : Hunk) : List Line := hunk.lines.flatMap (HunkLine.text side)

/-- The number of lines before a hunk. -/
def start (hunk : Hunk) : Side → Nat
  | .before => hunk.oldStart
  | .after => hunk.newStart

/-- The number of lines that a hunk claims to show. -/
def length (hunk : Hunk) : Side → Nat
  | .before => hunk.oldLength
  | .after => hunk.newLength

end Hunk

/-! ## Reading -/

/-- Where a hunk stands in a text, counted from zero, and how many lines it covers. -/
structure LineRange where
  start : Nat
  length : Nat

/-- A range as it is written.  Lines are counted from one, but an empty range names
the line before it. -/
def LineRange.ofWritten? (start length : Nat) : Option LineRange :=
  if length = 0 then some ⟨start, 0⟩
  else if start = 0 then none
  else some ⟨start - 1, length⟩

/-- A number and what follows it. -/
def readNumber? (text : List Char) : Option (Nat × List Char) :=
  let digits := text.takeWhile Char.isDigit
  if digits = [] then none else some (Nat.ofDigitChars 10 digits 0, text.dropWhile Char.isDigit)

/-- A range and what follows it.  A length of one is left out. -/
def readRange? (text : List Char) : Option (LineRange × List Char) := do
  let (start, rest) ← readNumber? text
  match rest with
  | ',' :: rest =>
    let (length, rest) ← readNumber? rest
    let range ← LineRange.ofWritten? start length
    some (range, rest)
  | rest =>
    let range ← LineRange.ofWritten? start 1
    some (range, rest)

/-- The ranges on the first line of a hunk. -/
def readRanges? : Line → Option (LineRange × LineRange)
  | '@' :: '@' :: ' ' :: '-' :: text => do
    let (old, rest) ← readRange? text
    match rest with
    | ' ' :: '+' :: text =>
      let (new, rest) ← readRange? text
      if rest = [' ', '@', '@', '\n'] then some (old, new) else none
    | _ => none
  | _ => none

/-- A marked line.  A line feed alone is an empty line of both texts. -/
def HunkLine.read? : Line → Option HunkLine
  | ['\n'] => some (.context ['\n'])
  | ' ' :: line => some (.context line)
  | '-' :: line => some (.delete line)
  | '+' :: line => some (.insert line)
  | _ => none

/-- The remark that the line before it does not end in a line feed. -/
def remark : Line := "\\ No newline at end of file\n".toList

/-- Lines without the remarks among them.  A remark takes the line feed off the line
before it. -/
def joinRemarks : List Line → List Line
  | line :: next :: rest =>
    if next = remark then line.dropLast :: joinRemarks rest else line :: joinRemarks (next :: rest)
  | lines => lines

/-- The hunks on the given lines, and the lines before the first of them. -/
def readHunks? : List Line → Option (List HunkLine × List Hunk)
  | [] => some ([], [])
  | line :: rest => do
    let (body, hunks) ← readHunks? rest
    match readRanges? line with
    | some (old, new) =>
      let hunk : Hunk := ⟨old.start, old.length, new.start, new.length, body⟩
      if (hunk.text .before).length = old.length ∧ (hunk.text .after).length = new.length then
        some ([], hunk :: hunks)
      else none
    | none =>
      let first ← HunkLine.read? line
      some (first :: body, hunks)

/-- The hunks of the patch of a file: complete lines, of which three name the file and
nothing but hunks stands below them. -/
def readPatch? (path patch : String) : Option (List Hunk) :=
  match cutLines patch.toList with
  | first :: second :: third :: rest =>
    if patch.toList.getLast? = some '\n' ∧ first = s!"diff --git a/{path} b/{path}\n".toList ∧
        second = s!"--- a/{path}\n".toList ∧ third = s!"+++ b/{path}\n".toList then
      match readHunks? (joinRemarks rest) with
      | some ([], hunks) => some hunks
      | _ => none
    else none
  | _ => none

/-! ## Applying -/

/-- Applies hunks to the lines of one of the texts, which gives the lines of the
other.  The numbers say how many lines were taken from the one and given to the
other so far. -/
def applyHunks? (side : Side) : List Hunk → (taken given : Nat) → List Line → Option (List Line)
  | [], _, _, rest => some rest
  | hunk :: hunks, taken, given, rest =>
    let skipped := hunk.start side - taken
    if taken ≤ hunk.start side ∧ hunk.start side.other = given + skipped ∧
        skipped ≤ rest.length ∧ (hunk.text side).isPrefixOf (rest.drop skipped) then
      let more := applyHunks? side hunks (hunk.start side + hunk.length side)
        (hunk.start side.other + hunk.length side.other) (rest.drop (skipped + hunk.length side))
      more.map (rest.take skipped ++ hunk.text side.other ++ ·)
    else none

/-- Applies the patch of a file to one of its texts, which gives the other.  Only the
last line of what is given may lack its line feed. -/
def applyPatch? (side : Side) (path patch text : String) : Option String := do
  let hunks ← readPatch? path patch
  let lines ← applyHunks? side hunks 0 0 (cutLines text.toList)
  if cutLines lines.flatten = lines then some (String.ofList lines.flatten) else none

/-! ## Ranges are read as they were written -/

theorem readNumber?_toDigits (n : Nat) {rest : List Char}
    (hrest : rest.head?.any Char.isDigit = false) :
    readNumber? (Nat.toDigits 10 n ++ rest) = some (n, rest) := by
  have hdigits : ∀ c ∈ Nat.toDigits 10 n, c.isDigit = true := fun c hc =>
    Nat.isDigit_of_mem_toDigits (by decide) (by decide) hc
  have hstop : rest.takeWhile Char.isDigit = [] ∧ rest.dropWhile Char.isDigit = rest := by
    cases rest with
    | nil => exact ⟨rfl, rfl⟩
    | cons c rest =>
        have hc : c.isDigit = false := by simpa using hrest
        simp [hc]
  unfold readNumber?
  rw [List.takeWhile_append_of_pos hdigits, List.dropWhile_append_of_pos hdigits, hstop.1, hstop.2,
    List.append_nil]
  simp [Nat.toDigits_ne_nil, Nat.ofDigitChars_ten_toDigits]

theorem toList_toString (n : Nat) : (toString n).toList = Nat.toDigits 10 n := by
  rw [Nat.toString_eq_ofList_toDigits, String.toList_ofList]

theorem toList_rangeText (start length : Nat) :
    (rangeText start length).toList =
      if length = 0 then Nat.toDigits 10 start ++ [',', '0']
      else if length = 1 then Nat.toDigits 10 (start + 1)
      else Nat.toDigits 10 (start + 1) ++ ',' :: Nat.toDigits 10 length := by
  unfold rangeText
  split
  · rw [String.toList_append, toList_toString]
    rfl
  · split
    · exact toList_toString (start + 1)
    · rw [String.toList_append, String.toList_append, toList_toString, toList_toString,
        List.append_assoc]
      rfl

theorem readRange?_rangeText (start length : Nat) (rest : List Char) :
    readRange? ((rangeText start length).toList ++ ' ' :: rest) =
      some (⟨start, length⟩, ' ' :: rest) := by
  -- a number is followed by a comma or a blank, and neither is a digit
  have hcomma (n : Nat) (text : List Char) :
      readNumber? (Nat.toDigits 10 n ++ ',' :: text) = some (n, ',' :: text) :=
    readNumber?_toDigits n rfl
  have hblank (n : Nat) : readNumber? (Nat.toDigits 10 n ++ ' ' :: rest) = some (n, ' ' :: rest) :=
    readNumber?_toDigits n rfl
  rw [toList_rangeText, readRange?]
  by_cases hzero : length = 0
  · have hnone : readNumber? ('0' :: ' ' :: rest) = some (0, ' ' :: rest) := hblank 0
    rw [if_pos hzero, List.append_assoc, List.cons_append, hcomma]
    simp [hnone, LineRange.ofWritten?, hzero]
  · rw [if_neg hzero]
    by_cases hone : length = 1
    · rw [if_pos hone, hblank]
      simp [LineRange.ofWritten?, hone]
    · rw [if_neg hone, List.append_assoc, List.cons_append, hcomma]
      simp [hblank, LineRange.ofWritten?, hzero]

theorem readRanges?_header (hunk : Hunk) :
    readRanges? hunk.header =
      some (⟨hunk.oldStart, hunk.oldLength⟩, ⟨hunk.newStart, hunk.newLength⟩) := by
  have hheader : hunk.header = '@' :: '@' :: ' ' :: '-' ::
      ((rangeText hunk.oldStart hunk.oldLength).toList ++ ' ' :: '+' ::
        ((rangeText hunk.newStart hunk.newLength).toList ++ [' ', '@', '@', '\n'])) := by
    rw [Hunk.header_eq]
    simp
  rw [hheader, readRanges?, readRange?_rangeText]
  simp [readRange?_rangeText]

/-! ## Lines are read as they were written -/

/-- A line of a hunk with its mark. -/
def HunkLine.raw : HunkLine → Line
  | context line => if line = ['\n'] then line else ' ' :: line
  | delete line => '-' :: line
  | insert line => '+' :: line

/-- The line of a text that a line of a hunk shows. -/
def HunkLine.content : HunkLine → Line
  | context line => line
  | delete line => line
  | insert line => line

theorem HunkLine.read?_raw (line : HunkLine) : read? line.raw = some line := by
  cases line with
  | context line =>
      by_cases hempty : line = ['\n']
      · rw [raw, if_pos hempty, hempty]
        rfl
      · rw [raw, if_neg hempty]
        rfl
  | delete line => rfl
  | insert line => rfl

theorem HunkLine.readRanges?_raw (line : HunkLine) : readRanges? line.raw = none := by
  cases line with
  | context line =>
      by_cases hempty : line = ['\n']
      · rw [raw, if_pos hempty, hempty]
        rfl
      · rw [raw, if_neg hempty]
        rfl
  | delete line => rfl
  | insert line => rfl

/-! ## Remarks -/

theorem joinRemarks_cons (line : Line) {rest : List Line} (hrest : rest.head? ≠ some remark) :
    joinRemarks (line :: rest) = line :: joinRemarks rest := by
  cases rest with
  | nil => rfl
  | cons next rest =>
      have hnext : next ≠ remark := fun heq => hrest (congrArg some heq)
      rw [joinRemarks, if_neg hnext]

theorem joinRemarks_remark (line : Line) (rest : List Line) :
    joinRemarks (line :: remark :: rest) = line.dropLast :: joinRemarks rest := by
  rw [joinRemarks, if_pos rfl]

theorem cutLines_markedLine {mark : Char} (hmark : mark ≠ '\n') {line : Line} (h : IsLine line) :
    cutLines (markedLine [mark] line) =
      if line.getLast? = some '\n' then [mark :: line] else [mark :: line ++ ['\n'], remark] := by
  unfold markedLine
  split
  · exact cutLines_of_isLine (isLine_cons hmark h.2)
  · rename_i hlast
    have hline : IsLine (mark :: line ++ ['\n']) :=
      isLine_concat (by simp [Ne.symm hmark, h.newline_not_mem hlast])
    have hremark : cutLines remark = [remark] := by decide +kernel
    have hsplit : [mark] ++ line ++ "\n\\ No newline at end of file\n".toList =
        (mark :: line ++ ['\n']) ++ remark := by
      rw [List.append_assoc (mark :: line)]
      rfl
    rw [hsplit, cutLines_append (closed_concat _), cutLines_of_isLine hline, hremark]
    rfl

/-- Behind its own lines, a line of a hunk leaves its mark and its text. -/
theorem HunkLine.joinRemarks_render (line : HunkLine) (h : IsLine line.content) {rest : List Line}
    (hrest : rest.head? ≠ some remark) :
    joinRemarks (cutLines line.render ++ rest) = line.raw :: joinRemarks rest := by
  have hmarked {mark : Char} (hmark : mark ≠ '\n') {text : Line} (htext : IsLine text) :
      joinRemarks (cutLines (markedLine [mark] text) ++ rest) =
        (mark :: text) :: joinRemarks rest := by
    rw [cutLines_markedLine hmark htext]
    split
    · exact joinRemarks_cons _ hrest
    · rw [List.cons_append, List.singleton_append, joinRemarks_remark, List.dropLast_concat]
  cases line with
  | context line =>
      by_cases hempty : line = ['\n']
      · have hcut : cutLines ['\n'] = [['\n']] := rfl
        rw [render, raw, if_pos hempty, if_pos hempty, hempty, hcut]
        exact joinRemarks_cons _ hrest
      · rw [render, raw, if_neg hempty, if_neg hempty]
        exact hmarked (by decide) h
  | delete line => exact hmarked (by decide) h
  | insert line => exact hmarked (by decide) h

/-- Only a line that begins with a backslash can be a remark. -/
theorem head?_cutLines_ne_remark {c : Char} (hc : c ≠ '\\') (text : List Char)
    (rest : List Line) : (cutLines (c :: text) ++ rest).head? ≠ some remark := by
  obtain ⟨line, more, hcut⟩ := exists_cutLines_cons c text
  rw [hcut]
  intro hhead
  have hremark : c :: line = remark := Option.some.inj hhead
  have hbackslash : remark.head? = some '\\' := by decide +kernel
  rw [← hremark] at hbackslash
  exact hc (Option.some.inj hbackslash)

theorem HunkLine.exists_render_eq_cons (line : HunkLine) :
    ∃ c text, line.render = c :: text ∧ c ≠ '\\' := by
  have hmarked (mark : Char) (text : Line) :
      ∃ rest, markedLine [mark] text = mark :: rest := by
    unfold markedLine
    split <;> exact ⟨_, rfl⟩
  cases line with
  | context line =>
      by_cases hempty : line = ['\n']
      · exact ⟨'\n', [], by rw [render, if_pos hempty, hempty], by decide⟩
      · obtain ⟨rest, hrest⟩ := hmarked ' ' line
        exact ⟨' ', rest, by rw [render, if_neg hempty, hrest], by decide⟩
  | delete line =>
      obtain ⟨rest, hrest⟩ := hmarked '-' line
      exact ⟨'-', rest, hrest, by decide⟩
  | insert line =>
      obtain ⟨rest, hrest⟩ := hmarked '+' line
      exact ⟨'+', rest, hrest, by decide⟩

/-! ## Hunks are read as they were written -/

/-- A hunk whose ranges agree with its lines. -/
structure Hunk.Sound (hunk : Hunk) : Prop where
  isLine : ∀ line ∈ hunk.lines, IsLine line.content
  length_eq : ∀ side, hunk.length side = (hunk.text side).length

/-- The lines of a hunk in a patch, without remarks. -/
def Hunk.rawLines (hunk : Hunk) : List Line := hunk.header :: hunk.lines.map HunkLine.raw

theorem newline_not_mem_rangeText (start length : Nat) :
    '\n' ∉ (rangeText start length).toList := by
  have hdigits (n : Nat) : '\n' ∉ Nat.toDigits 10 n := by
    intro hmem
    have hdigit := Nat.isDigit_of_mem_toDigits (by decide) (by decide) hmem
    exact absurd hdigit (by decide)
  rw [toList_rangeText]
  split
  · simp [hdigits]
  · split <;> simp [hdigits]

theorem Hunk.isLine_header (hunk : Hunk) : IsLine hunk.header := by
  have hheader : hunk.header = "@@ -".toList ++ (rangeText hunk.oldStart hunk.oldLength).toList ++
      " +".toList ++ (rangeText hunk.newStart hunk.newLength).toList ++ " @@".toList ++
      ['\n'] := by
    rw [header_eq, List.append_assoc _ " @@".toList]
    rfl
  rw [hheader]
  exact isLine_concat (by simp [newline_not_mem_rangeText])

theorem joinRemarks_lines {lines : List HunkLine} (h : ∀ line ∈ lines, IsLine line.content)
    {rest : List Line} (hrest : rest.head? ≠ some remark) :
    joinRemarks (lines.flatMap (fun line => cutLines line.render) ++ rest) =
        lines.map HunkLine.raw ++ joinRemarks rest ∧
      (lines.flatMap (fun line => cutLines line.render) ++ rest).head? ≠ some remark := by
  induction lines with
  | nil => exact ⟨rfl, hrest⟩
  | cons line lines ih =>
      obtain ⟨hline, hlines⟩ := List.forall_mem_cons.mp h
      obtain ⟨hjoin, hhead⟩ := ih hlines
      rw [List.flatMap_cons, List.append_assoc]
      constructor
      · rw [line.joinRemarks_render hline hhead, hjoin]
        rfl
      · obtain ⟨c, text, hrender, hc⟩ := line.exists_render_eq_cons
        rw [hrender]
        exact head?_cutLines_ne_remark hc text _

theorem joinRemarks_hunks {hunks : List Hunk} (h : ∀ hunk ∈ hunks, hunk.Sound) :
    joinRemarks (cutLines (hunks.flatMap Hunk.render)) = hunks.flatMap Hunk.rawLines := by
  rw [cutLines_flatMap fun hunk _ => hunk.closed_render]
  have hstrong : joinRemarks (hunks.flatMap fun hunk => cutLines hunk.render) =
        hunks.flatMap Hunk.rawLines ∧
      (hunks.flatMap fun hunk => cutLines hunk.render).head? ≠ some remark := by
    induction hunks with
    | nil => exact ⟨rfl, by simp⟩
    | cons hunk hunks ih =>
        obtain ⟨hhunk, hhunks⟩ := List.forall_mem_cons.mp h
        obtain ⟨hjoin, hhead⟩ := ih hhunks
        obtain ⟨hbody, hbodyHead⟩ := joinRemarks_lines hhunk.isLine hhead
        have hcut : cutLines hunk.render =
            hunk.header :: hunk.lines.flatMap fun line => cutLines line.render := by
          rw [Hunk.render_eq, cutLines_append hunk.closed_header,
            cutLines_of_isLine hunk.isLine_header,
            cutLines_flatMap fun line _ => line.closed_render]
          rfl
        rw [List.flatMap_cons, List.flatMap_cons, hcut, List.cons_append]
        constructor
        · rw [joinRemarks_cons _ hbodyHead, hbody, hjoin]
          rfl
        · intro hremark
          have hranges := readRanges?_header hunk
          rw [Option.some.inj hremark] at hranges
          cases hranges
  exact hstrong.1

theorem readHunks?_lines (lines : List HunkLine) {rest : List Line} {body : List HunkLine}
    {hunks : List Hunk} (h : readHunks? rest = some (body, hunks)) :
    readHunks? (lines.map HunkLine.raw ++ rest) = some (lines ++ body, hunks) := by
  induction lines with
  | nil => exact h
  | cons line lines ih =>
      rw [List.map_cons, List.cons_append, readHunks?, ih]
      simp [line.readRanges?_raw, line.read?_raw]

theorem readHunks?_rawLines {hunks : List Hunk} (h : ∀ hunk ∈ hunks, hunk.Sound) :
    readHunks? (hunks.flatMap Hunk.rawLines) = some ([], hunks) := by
  induction hunks with
  | nil => rfl
  | cons hunk hunks ih =>
      obtain ⟨hhunk, hhunks⟩ := List.forall_mem_cons.mp h
      have hbody := readHunks?_lines hunk.lines (ih hhunks)
      have hold := hhunk.length_eq .before
      have hnew := hhunk.length_eq .after
      rw [List.flatMap_cons, Hunk.rawLines, List.cons_append, readHunks?, hbody]
      simp [readRanges?_header, ← hold, ← hnew, Hunk.length]

/-! ## A patch is read as it was written -/

theorem cutLines_patchHeader {path : String} (hpath : '\n' ∉ path.toList) :
    cutLines (patchHeader path).toList =
      [s!"diff --git a/{path} b/{path}\n".toList, s!"--- a/{path}\n".toList,
        s!"+++ b/{path}\n".toList] := by
  have hfirst : s!"diff --git a/{path} b/{path}\n".toList =
      "diff --git a/".toList ++ path.toList ++ " b/".toList ++ path.toList ++ ['\n'] := by
    simp only [String.toList_append]
    rfl
  have hsecond : s!"--- a/{path}\n".toList = "--- a/".toList ++ path.toList ++ ['\n'] := by
    simp only [String.toList_append]
    rfl
  have hthird : s!"+++ b/{path}\n".toList = "+++ b/".toList ++ path.toList ++ ['\n'] := by
    simp only [String.toList_append]
    rfl
  have hheader : (patchHeader path).toList = s!"diff --git a/{path} b/{path}\n".toList ++
      (s!"--- a/{path}\n".toList ++ s!"+++ b/{path}\n".toList) := by
    rw [toList_patchHeader, hfirst, hsecond, hthird]
    simp
  rw [hheader, hfirst, hsecond, hthird, cutLines_append (closed_concat _),
    cutLines_append (closed_concat _), cutLines_of_isLine (isLine_concat (by simp [hpath])),
    cutLines_of_isLine (isLine_concat (by simp [hpath])),
    cutLines_of_isLine (isLine_concat (by simp [hpath]))]
  rfl

theorem readPatch?_eq {path : String} (hpath : '\n' ∉ path.toList) {hunks : List Hunk}
    (h : ∀ hunk ∈ hunks, hunk.Sound) :
    readPatch? path (patchHeader path ++ String.ofList (hunks.flatMap Hunk.render)) =
      some hunks := by
  have hheader : Closed (patchHeader path).toList := .inr (getLast?_patchHeader path)
  have hhunks : Closed (hunks.flatMap Hunk.render) :=
    closed_flatMap fun hunk _ => hunk.closed_render
  have hlast := hhunks.getLast?_append (getLast?_patchHeader path)
  rw [readPatch?, String.toList_append, String.toList_ofList, cutLines_append hheader,
    cutLines_patchHeader hpath]
  simp only [List.cons_append, List.nil_append, hlast, and_self, if_true, joinRemarks_hunks h,
    readHunks?_rawLines h]

end EnumMigration
