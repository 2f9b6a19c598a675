import EnumMigration.Proofs.HunkLayout

/-!
# The patch of a file leads from either of its texts to the other

A patch that is read and applied by the rules of the format turns the old text into
the new one, and backwards the new one into the old one.  Nothing is assumed of the
texts.  A line of theirs may look like a line of the format, because in a hunk it
stands behind a mark.

The hunks cover the two texts, so what they show are lines of the texts.  This is what
makes them readable again, and that they cover the texts makes them applicable.
-/

namespace EnumMigration

theorem Covers.mem_text {position : Side → Nat} {hunks : List Hunk} {text : Side → List Line}
    (h : Covers position hunks text) {hunk : Hunk} (hhunk : hunk ∈ hunks) {side : Side}
    {line : Line} (hline : line ∈ hunk.text side) : line ∈ text side := by
  induction h with
  | nil => cases hhunk
  | cons skipped hstart hlength hnext htext hrest ih =>
      rw [htext]
      rcases List.mem_cons.mp hhunk with rfl | hlater
      · exact List.mem_append_left _ (List.mem_append_right _ hline)
      · exact List.mem_append_right _ (ih hlater)

theorem HunkLine.exists_content_mem_text (line : HunkLine) :
    ∃ side, line.content ∈ line.text side := by
  cases line with
  | context line => exact ⟨.before, List.mem_singleton_self line⟩
  | delete line => exact ⟨.before, List.mem_singleton_self line⟩
  | insert line => exact ⟨.after, List.mem_singleton_self line⟩

/-- The hunks of the patch of two texts. -/
def hunksOf (content : Side → String) : List Hunk :=
  hunksBetween (cutLines (content .before).toList) (cutLines (content .after).toList)

theorem covers_hunksOf (content : Side → String) :
    Covers (fun _ => 0) (hunksOf content) fun side => cutLines (content side).toList :=
  covers_hunksBetween fun side => cutLines (content side).toList

theorem sound_hunksOf (content : Side → String) : ∀ hunk ∈ hunksOf content, hunk.Sound := by
  intro hunk hhunk
  refine ⟨fun line hline => ?_, (covers_hunksOf content).length_eq hunk hhunk⟩
  obtain ⟨side, hside⟩ := line.exists_content_mem_text
  have hshown : line.content ∈ hunk.text side := List.mem_flatMap.mpr ⟨line, hline, hside⟩
  exact isLine_of_mem_cutLines ((covers_hunksOf content).mem_text hhunk hshown)

theorem readPatch?_filePatch {path : String} (hpath : '\n' ∉ path.toList) {content : Side → String}
    (hne : content .before ≠ content .after) :
    readPatch? path (filePatch path (content .before) (content .after)) =
      some (hunksOf content) := by
  rw [filePatch_eq path hne]
  exact readPatch?_eq hpath (sound_hunksOf content)

theorem applyPatch?_filePatch {path : String} (hpath : '\n' ∉ path.toList)
    {content : Side → String} (hne : content .before ≠ content .after) (side : Side) :
    applyPatch? side path (filePatch path (content .before) (content .after)) (content side) =
      some (content side.other) := by
  have happly := (covers_hunksOf content).applyHunks?_eq side
  rw [applyPatch?, readPatch?_filePatch hpath hne]
  simp only [Option.bind_eq_bind, Option.bind_some, happly, flatten_cutLines, if_true,
    String.ofList_toList]

theorem getLast?_filePatch (path : String) {before after : String} (hne : before ≠ after) :
    (filePatch path before after).toList.getLast? = some '\n' := by
  rw [filePatch_eq path hne, String.toList_append, String.toList_ofList]
  exact (closed_hunkText before after).getLast?_append (getLast?_patchHeader path)

/-- The patch of a file is empty when its texts agree.  Otherwise it is made of complete
lines, and applying it by the rules of the format succeeds in both directions. -/
theorem filePatch_faithful (path before after : String) (hpath : '\n' ∉ path.toList) :
    (filePatch path before after = "" ↔ before = after) ∧
      (before ≠ after →
        (filePatch path before after).toList.getLast? = some '\n' ∧
        applyPatch? .before path (filePatch path before after) before = some after ∧
        applyPatch? .after path (filePatch path before after) after = some before) := by
  refine ⟨⟨fun hempty => ?_, fun hsame => ?_⟩, fun hne => ?_⟩
  · by_contra hne
    have hlast := getLast?_filePatch path hne
    rw [hempty] at hlast
    cases hlast
  · rw [filePatch, if_pos hsame]
  · let content (side : Side) : String := if side = .before then before else after
    have hcontent : content .before ≠ content .after := hne
    exact ⟨getLast?_filePatch path hne, applyPatch?_filePatch hpath hcontent .before,
      applyPatch?_filePatch hpath hcontent .after⟩

/-- Lines that look like lines of the format once they are marked, and a last line without
its line feed. -/
theorem filePatch_faithful_lookalikes :
    let before := "-- x\n\n+ y"
    let after := "\n\\ No newline at end of file\n+ y\n"
    let patch := filePatch "ui/list.cc" before after
    '\n' ∉ "ui/list.cc".toList ∧ patch ≠ "" ∧ patch.toList.getLast? = some '\n' ∧
      applyPatch? .before "ui/list.cc" patch before = some after ∧
      applyPatch? .after "ui/list.cc" patch after = some before := by
  intro before after patch
  have hpath : '\n' ∉ "ui/list.cc".toList := by decide +kernel
  have hne : before ≠ after := by decide +kernel
  obtain ⟨hempty, hfaithful⟩ := filePatch_faithful "ui/list.cc" before after hpath
  exact ⟨hpath, fun heq => hne (hempty.mp heq), hfaithful hne⟩

end EnumMigration
