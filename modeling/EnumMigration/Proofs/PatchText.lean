import EnumMigration.Patch

/-!
# The text of a patch

A patch consists of complete lines, so that it can be cut where its parts meet.
From this follows what `filePatch` comes to: the lines that name the texts of a
difference are taken off and nothing else is, whatever the lines of the texts look
like, and no line feed has to be put at the end.
-/

namespace EnumMigration

/-! ## Complete lines -/

/-- A text of complete lines. -/
def Closed (text : List Char) : Prop := text = [] ∨ text.getLast? = some '\n'

/-- A text with one line feed at most, and that at its end. -/
def IsLine (line : Line) : Prop := line ≠ [] ∧ '\n' ∉ line.dropLast

/-- What ends in a line feed still does with complete lines behind it. -/
theorem Closed.getLast?_append {back : List Char} (hback : Closed back) {front : List Char}
    (hfront : front.getLast? = some '\n') : (front ++ back).getLast? = some '\n' := by
  rw [List.getLast?_append]
  rcases hback with rfl | hback
  · exact hfront
  · rw [hback]
    rfl

theorem Closed.append {front back : List Char} (hfront : Closed front) (hback : Closed back) :
    Closed (front ++ back) := by
  rcases hfront with rfl | hfront
  · exact hback
  · exact .inr (hback.getLast?_append hfront)

theorem closed_flatMap {α : Type} {parts : List α} {text : α → List Char}
    (h : ∀ part ∈ parts, Closed (text part)) : Closed (parts.flatMap text) := by
  induction parts with
  | nil => exact .inl rfl
  | cons part parts ih =>
      obtain ⟨hpart, hparts⟩ := List.forall_mem_cons.mp h
      exact hpart.append (ih hparts)

theorem Closed.of_cons {c : Char} {rest : List Char} (h : Closed (c :: rest)) : Closed rest := by
  rcases h with h | h
  · cases h
  · cases rest with
    | nil => exact .inl rfl
    | cons d rest => exact .inr (by rwa [List.getLast?_cons_cons] at h)

theorem cutLines_eq_nil_iff {text : List Char} : cutLines text = [] ↔ text = [] := by
  constructor
  · intro hcut
    rw [← flatten_cutLines text, hcut]
    rfl
  · rintro rfl
    rfl

theorem cutLines_newline (rest : List Char) :
    cutLines ('\n' :: rest) = ['\n'] :: cutLines rest := by
  rw [cutLines, if_pos rfl]

/-- A character that is no line feed goes to the line behind it. -/
theorem cutLines_cons {c : Char} (hc : c ≠ '\n') {rest : List Char} {line : Line}
    {more : List Line} (hcut : cutLines rest = line :: more) :
    cutLines (c :: rest) = (c :: line) :: more := by
  rw [cutLines, if_neg hc, hcut]

/-- The first line of a text begins as the text does. -/
theorem exists_cutLines_cons (c : Char) (rest : List Char) :
    ∃ line more, cutLines (c :: rest) = (c :: line) :: more := by
  by_cases hc : c = '\n'
  · subst hc
    exact ⟨[], cutLines rest, cutLines_newline rest⟩
  · cases hcut : cutLines rest with
    | nil =>
        refine ⟨[], [], ?_⟩
        rw [cutLines, if_neg hc, hcut]
    | cons line more => exact ⟨line, more, cutLines_cons hc hcut⟩

/-- Behind complete lines, cutting starts afresh. -/
theorem cutLines_append {front : List Char} (hfront : Closed front) (back : List Char) :
    cutLines (front ++ back) = cutLines front ++ cutLines back := by
  induction front with
  | nil => rfl
  | cons c rest ih =>
      have hrest := ih hfront.of_cons
      by_cases hc : c = '\n'
      · subst hc
        rw [List.cons_append, cutLines_newline, cutLines_newline, hrest, List.cons_append]
      · have hne : rest ≠ [] := by
          rintro rfl
          simp [Closed, hc] at hfront
        obtain ⟨line, more, hcut⟩ :=
          List.exists_cons_of_ne_nil (mt cutLines_eq_nil_iff.mp hne)
        rw [hcut, List.cons_append] at hrest
        rw [List.cons_append, cutLines_cons hc hrest, cutLines_cons hc hcut, List.cons_append]

theorem cutLines_flatMap {α : Type} {parts : List α} {text : α → List Char}
    (h : ∀ part ∈ parts, Closed (text part)) :
    cutLines (parts.flatMap text) = parts.flatMap fun part => cutLines (text part) := by
  induction parts with
  | nil => rfl
  | cons part parts ih =>
      obtain ⟨hpart, hparts⟩ := List.forall_mem_cons.mp h
      rw [List.flatMap_cons, cutLines_append hpart, ih hparts, List.flatMap_cons]

theorem isLine_cons {c : Char} (hc : c ≠ '\n') {line : Line} (h : '\n' ∉ line.dropLast) :
    IsLine (c :: line) := by
  refine ⟨List.cons_ne_nil c line, ?_⟩
  cases line with
  | nil => simp
  | cons d line =>
      rw [List.dropLast_cons_cons, List.mem_cons]
      rintro (heq | hmem)
      · exact hc heq.symm
      · exact h hmem

theorem isLine_concat {body : List Char} (h : '\n' ∉ body) : IsLine (body ++ ['\n']) :=
  ⟨List.concat_ne_nil _ _, by rwa [List.dropLast_concat]⟩

theorem closed_concat (body : List Char) : Closed (body ++ ['\n']) := .inr List.getLast?_concat

theorem IsLine.newline_not_mem {line : Line} (h : IsLine line) (hlast : line.getLast? ≠ some '\n') :
    '\n' ∉ line := by
  obtain hnil | ⟨init, last, rfl⟩ := List.eq_nil_or_concat line
  · exact absurd hnil h.1
  · rw [List.concat_eq_append] at h hlast ⊢
    have hinit : '\n' ∉ init := by simpa [List.dropLast_concat] using h.2
    simpa [hinit, eq_comm] using hlast

theorem cutLines_of_isLine {line : Line} (h : IsLine line) : cutLines line = [line] := by
  obtain ⟨hne, hfeed⟩ := h
  induction line with
  | nil => exact absurd rfl hne
  | cons c rest ih =>
      cases rest with
      | nil => simp [cutLines]
      | cons d rest =>
          rw [List.dropLast_cons_cons, List.mem_cons, not_or] at hfeed
          exact cutLines_cons (Ne.symm hfeed.1) (ih (List.cons_ne_nil d rest) hfeed.2)

theorem isLine_of_mem_cutLines {text : List Char} {line : Line} (hmem : line ∈ cutLines text) :
    IsLine line := by
  induction text generalizing line with
  | nil => cases hmem
  | cons c rest ih =>
      by_cases hc : c = '\n'
      · subst hc
        rw [cutLines_newline, List.mem_cons] at hmem
        rcases hmem with rfl | hmem
        · simp [IsLine]
        · exact ih hmem
      · cases hcut : cutLines rest with
        | nil =>
            rw [cutLines, if_neg hc, hcut, List.mem_singleton] at hmem
            subst hmem
            exact isLine_cons hc (by simp)
        | cons first more =>
            rw [cutLines_cons hc hcut, List.mem_cons] at hmem
            rcases hmem with rfl | hmem
            · have hfirst : IsLine first := ih (hcut ▸ List.mem_cons_self)
              exact isLine_cons hc hfirst.2
            · exact ih (hcut ▸ List.mem_cons_of_mem first hmem)

/-! ## Complete lines in patches -/

theorem closed_markedLine (mark line : List Char) : Closed (markedLine mark line) := by
  unfold markedLine
  right
  split
  · rename_i hfeed
    rw [List.getLast?_append, hfeed]
    rfl
  · rw [List.getLast?_append]
    rfl

theorem HunkLine.closed_render (line : HunkLine) : Closed line.render := by
  cases line with
  | context line =>
      rw [render]
      split
      · rename_i hfeed
        exact .inr (by rw [hfeed]; rfl)
      · exact closed_markedLine [' '] line
  | delete line => exact closed_markedLine ['-'] line
  | insert line => exact closed_markedLine ['+'] line

/-- The first line of a hunk. -/
def Hunk.header (hunk : Hunk) : Line :=
  let old := rangeText hunk.oldStart hunk.oldLength
  let new := rangeText hunk.newStart hunk.newLength
  s!"@@ -{old} +{new} @@\n".toList

theorem Hunk.render_eq (hunk : Hunk) :
    hunk.render = hunk.header ++ hunk.lines.flatMap HunkLine.render := rfl

theorem Hunk.header_eq (hunk : Hunk) :
    hunk.header = "@@ -".toList ++ (rangeText hunk.oldStart hunk.oldLength).toList ++
      " +".toList ++ (rangeText hunk.newStart hunk.newLength).toList ++ " @@\n".toList := by
  unfold header
  simp only [String.toList_append]
  rfl

theorem Hunk.closed_header (hunk : Hunk) : Closed hunk.header := by
  right
  rw [header_eq, List.getLast?_append]
  rfl

theorem Hunk.closed_render (hunk : Hunk) : Closed hunk.render := by
  rw [render_eq]
  exact hunk.closed_header.append (closed_flatMap fun line _ => line.closed_render)

theorem toList_patchHeader (path : String) :
    (patchHeader path).toList =
      "diff --git a/".toList ++ path.toList ++ " b/".toList ++ path.toList ++ "\n--- a/".toList ++
        path.toList ++ "\n+++ b/".toList ++ path.toList ++ "\n".toList := by
  unfold patchHeader
  simp only [String.toList_append]
  rfl

theorem getLast?_patchHeader (path : String) :
    (patchHeader path).toList.getLast? = some '\n' := by
  rw [toList_patchHeader]
  exact List.getLast?_concat

/-- The hunks between two texts, as they stand in a patch. -/
def hunkText (before after : String) : List Char :=
  (hunksBetween (cutLines before.toList) (cutLines after.toList)).flatMap Hunk.render

theorem closed_hunkText (before after : String) : Closed (hunkText before after) :=
  closed_flatMap fun hunk _ => hunk.closed_render

/-- The text of hunks begins with a sign that no name line begins with. -/
theorem dropWhile_isNameLine_hunkText (before after : String) :
    (cutLines (hunkText before after)).dropWhile isNameLine = cutLines (hunkText before after) := by
  unfold hunkText
  cases hunksBetween (cutLines before.toList) (cutLines after.toList) with
  | nil => rfl
  | cons hunk hunks =>
      obtain ⟨rest, hrest⟩ : ∃ rest, (hunk :: hunks).flatMap Hunk.render = '@' :: rest := by
        rw [List.flatMap_cons, Hunk.render_eq, Hunk.header_eq]
        exact ⟨_, rfl⟩
      obtain ⟨line, more, hcut⟩ := exists_cutLines_cons '@' rest
      rw [hrest, hcut]
      rfl

theorem cutLines_diffText (before after : String) :
    cutLines (diffText before after).toList =
      "--- original\n".toList :: "+++ modified\n".toList :: cutLines (hunkText before after) := by
  have hclosed : Closed "--- original\n+++ modified\n".toList := .inr (by decide +kernel)
  have hnames : cutLines "--- original\n+++ modified\n".toList =
      ["--- original\n".toList, "+++ modified\n".toList] := by
    decide +kernel
  have hhunks : (String.ofList (hunkText before after)).toList = hunkText before after :=
    String.toList_ofList
  calc cutLines (diffText before after).toList
    _ = cutLines ("--- original\n+++ modified\n".toList ++
          (String.ofList (hunkText before after)).toList) :=
        congrArg cutLines String.toList_append
    _ = cutLines "--- original\n+++ modified\n".toList ++ cutLines (hunkText before after) := by
        rw [cutLines_append hclosed, hhunks]
    _ = _ := by
        rw [hnames]
        rfl

/-- A patch is its header and its hunks. -/
theorem filePatch_eq (path : String) {before after : String} (hne : before ≠ after) :
    filePatch path before after = patchHeader path ++ String.ofList (hunkText before after) := by
  have hhunks : (cutLines (diffText before after).toList).dropWhile isNameLine =
      cutLines (hunkText before after) := by
    rw [cutLines_diffText, List.dropWhile_cons_of_pos (by decide +kernel),
      List.dropWhile_cons_of_pos (by decide +kernel), dropWhile_isNameLine_hunkText]
  have hends : (patchHeader path ++ String.ofList (hunkText before after)).toList.getLast? =
      some '\n' := by
    rw [String.toList_append, String.toList_ofList]
    exact (closed_hunkText before after).getLast?_append (getLast?_patchHeader path)
  rw [filePatch, if_neg hne]
  simp only [hhunks, flatten_cutLines]
  rw [endLine, if_pos hends]

end EnumMigration
