import Mathlib.Data.List.Chain
import EnumMigration.Proofs.EditScript
import EnumMigration.Proofs.PatchReading

/-!
# Hunks lie where they say

`Covers` says what a list of hunks is to two texts: unchanged lines up to a hunk,
the lines of the hunk in either text, and so on to the end, every hunk at the place
that its ranges name.  Hunks that cover two texts turn each into the other
(`Covers.applyHunks?_eq`), in both directions for one reason.

## Strategy

`Spread` is the same for the changes of a script, before they are grouped.  A hunk
shows the last lines of the gap before its first change and the first lines of the
gap behind its last.  Neighbouring hunks share that gap, so the question is whether
it has room for both.  It does because otherwise the two changes would have been
joined (`trailing_add_contextSize_le`); this is where a gap must not be empty.
-/

namespace EnumMigration

/-! ## Covering two texts -/

/-- Hunks that take one text to the other, from the given positions on. -/
inductive Covers : (Side → Nat) → List Hunk → (Side → List Line) → Prop
  | nil {position : Side → Nat} {text : Side → List Line}
      (hsame : ∀ side, text side = text side.other) : Covers position [] text
  | cons {position next : Side → Nat} {hunk : Hunk} {hunks : List Hunk}
      {text rest : Side → List Line} (skipped : List Line)
      (hstart : ∀ side, hunk.start side = position side + skipped.length)
      (hlength : ∀ side, hunk.length side = (hunk.text side).length)
      (hnext : ∀ side, next side = hunk.start side + hunk.length side)
      (htext : ∀ side, text side = skipped ++ hunk.text side ++ rest side)
      (hrest : Covers next hunks rest) : Covers position (hunk :: hunks) text

variable {position : Side → Nat} {text rest : Side → List Line}

theorem Covers.applyHunks?_eq {hunks : List Hunk} (h : Covers position hunks text) (side : Side) :
    applyHunks? side hunks (position side) (position side.other) (text side) =
      some (text side.other) := by
  induction h with
  | nil hsame => exact congrArg some (hsame side)
  | @cons position next hunk hunks text rest skipped hstart hlength hnext htext hrest ih =>
      have hskipped : hunk.start side - position side = skipped.length := by
        rw [hstart, Nat.add_sub_cancel_left]
      have htake : (text side).take skipped.length = skipped := by
        rw [htext, List.append_assoc, List.take_left]
      have hdrop : (text side).drop skipped.length = hunk.text side ++ rest side := by
        rw [htext, List.append_assoc, List.drop_left]
      have hbehind : (text side).drop (skipped.length + hunk.length side) = rest side := by
        rw [← List.drop_drop, hdrop, hlength, List.drop_left]
      have hfits : position side ≤ hunk.start side ∧
          hunk.start side.other = position side.other + skipped.length ∧
          skipped.length ≤ (text side).length ∧
          (hunk.text side).isPrefixOf (hunk.text side ++ rest side) := by
        refine ⟨?_, hstart side.other, ?_, ?_⟩
        · rw [hstart]
          exact Nat.le_add_right _ _
        · rw [htext, List.append_assoc, List.length_append]
          exact Nat.le_add_right _ _
        · exact List.isPrefixOf_iff_prefix.mpr (List.prefix_append _ _)
      rw [applyHunks?]
      simp only [hskipped, hdrop]
      rw [if_pos hfits, htake, hbehind, ← hnext, ← hnext, ih, Option.map_some, htext]

theorem Covers.length_eq {hunks : List Hunk} (h : Covers position hunks text) :
    ∀ hunk ∈ hunks, ∀ side, hunk.length side = (hunk.text side).length := by
  induction h with
  | nil => simp
  | cons skipped hstart hlength hnext htext hrest ih => exact List.forall_mem_cons.mpr ⟨hlength, ih⟩

/-! ## Changes, seen from either side -/

namespace Change

/-- The lines that only one of the texts has. -/
def part (change : Change) : Side → List Line
  | .before => change.deleted
  | .after => change.inserted

/-- The number of lines before a change. -/
def start (change : Change) : Side → Nat
  | .before => change.oldStart
  | .after => change.newStart

/-- The number of lines up to the end of a change. -/
def stop (change : Change) (side : Side) : Nat := change.start side + (change.part side).length

theorem part_eq_nil {change : Change} (h : change.deleted.isEmpty && change.inserted.isEmpty)
    (side : Side) : change.part side = [] := by
  rw [Bool.and_eq_true, List.isEmpty_iff, List.isEmpty_iff] at h
  cases side with
  | before => exact h.1
  | after => exact h.2

end Change

/-- Changes of two texts from the given positions on, and the lines behind the last
one.  Only the first gap may be empty. -/
inductive Spread : (Side → Nat) → List Change → List Line → (Side → List Line) → Prop
  | nil {position : Side → Nat} {tail : List Line} {text : Side → List Line}
      (htext : ∀ side, text side = tail) : Spread position [] tail text
  | cons {position : Side → Nat} {change : Change} {changes : List Change} {tail : List Line}
      {text rest : Side → List Line}
      (hstart : ∀ side, change.start side = position side + change.gap.length)
      (hgap : ∀ next ∈ changes.head?, next.gap ≠ [])
      (htext : ∀ side, text side = change.gap ++ change.part side ++ rest side)
      (hrest : Spread change.stop changes tail rest) :
      Spread position (change :: changes) tail text

theorem Spread.congr {changes : List Change} {tail : List Line} {text' : Side → List Line}
    (h : Spread position changes tail text) (htext : ∀ side, text' side = text side) :
    Spread position changes tail text' := by
  rwa [funext htext]

/-- What reading a script from an incomplete change on gives. -/
def Change.followedBy (pending : Change) (script : Script) : Changes :=
  changesFrom pending.gap pending.deleted pending.inserted pending.oldStart pending.newStart script

/-- The changes of a script stand where they say, and only the first gap may be empty. -/
theorem spread_followedBy (pending : Change) {script : Script} (hsolid : script.Solid)
    (hstart : ∀ side, pending.start side = position side + pending.gap.length) :
    Spread position (pending.followedBy script).changes (pending.followedBy script).tail
        (fun side => pending.gap ++ pending.part side ++ script.text side) ∧
      (pending.gap ≠ [] →
        ∀ first ∈ (pending.followedBy script).changes.head?, first.gap ≠ []) := by
  induction script generalizing pending position with
  | nil =>
      unfold Change.followedBy
      rw [changesFrom]
      split
      · rename_i hempty
        refine ⟨.nil fun side => ?_, fun _ first hfirst => nomatch hfirst⟩
        simp [Change.part_eq_nil hempty]
      · refine ⟨.cons hstart (fun _ hnext => nomatch hnext) (fun _ => rfl) (.nil fun _ => rfl), ?_⟩
        intro hgap first hfirst
        obtain rfl : pending = first := Option.some.inj hfirst
        exact hgap
  | cons edit script ih =>
      rw [Script.solid_cons] at hsolid
      cases edit with
      | only own run =>
          cases own with
          | before =>
              have hmore := ih { pending with deleted := pending.deleted ++ run } hsolid.2 hstart
              refine ⟨hmore.1.congr fun side => ?_, hmore.2⟩
              cases side <;> simp [Change.part, Edit.text]
          | after =>
              have hmore := ih { pending with inserted := pending.inserted ++ run } hsolid.2 hstart
              refine ⟨hmore.1.congr fun side => ?_, hmore.2⟩
              cases side <;> simp [Change.part, Edit.text]
      | both run =>
          have hrun : run ≠ [] := fun heq => hsolid.1 (congrArg Edit.both heq)
          unfold Change.followedBy
          rw [changesFrom]
          simp only
          split
          · -- nothing has changed since the gap began, and the run makes it longer
            rename_i hempty
            have hpart := Change.part_eq_nil hempty
            let longer : Change := ⟨pending.gap ++ run, [], [], pending.oldStop + run.length,
              pending.newStop + run.length⟩
            have hnone (side : Side) : longer.part side = [] := Change.part_eq_nil rfl side
            have hlonger (side : Side) :
                longer.start side = position side + longer.gap.length := by
              have hstop : longer.start side = pending.stop side + run.length := by
                cases side <;> rfl
              rw [hstop, Change.stop, hpart, hstart]
              simp [longer, Nat.add_assoc]
            have hmore := ih longer hsolid.2 hlonger
            refine ⟨hmore.1.congr fun side => ?_, fun _ => hmore.2 (by simp [longer, hrun])⟩
            simp [hnone, hpart, longer, Edit.text]
          · -- the run ends a change, and is the gap before the next one
            let fresh : Change := ⟨run, [], [], pending.oldStop + run.length,
              pending.newStop + run.length⟩
            have hfresh (side : Side) : fresh.start side = pending.stop side + run.length := by
              cases side <;> rfl
            have hmore := ih fresh hsolid.2 hfresh
            refine ⟨.cons hstart (hmore.2 hrun) (fun side => ?_) hmore.1, ?_⟩
            · cases side <;> simp [fresh, Change.part, Edit.text]
            · intro hgap first hfirst
              obtain rfl : pending = first := Option.some.inj hfirst
              exact hgap

/-! ## Groups of changes -/

namespace Group

/-- The changes of a group. -/
def changes (group : Group) : List Change := group.first :: group.more

/-- What a group covers of one of the texts, from its first change to its last. -/
def body (group : Group) (side : Side) : List Line :=
  group.first.part side ++ group.more.flatMap fun change => change.gap ++ change.part side

/-- The lines that are shown before a group. -/
def leading (group : Group) : List Line :=
  group.first.gap.drop (group.first.gap.length - contextSize)

theorem last_cons (change : Change) (group : Group) :
    Group.last ⟨change, group.first :: group.more⟩ = group.last := by
  unfold Group.last
  rw [List.getLast?_cons, Option.getD_some]

end Group

/-- Neighbouring groups are far enough from each other. -/
def Extent.Apart (extent : Extent) (groups : List Group) : Prop :=
  groups.IsChain fun group next => extent.joins group.last next.first = false

theorem Extent.flatMap_changes_groups (extent : Extent) (changes : List Change) :
    (extent.groups changes).flatMap Group.changes = changes := by
  induction changes with
  | nil => rfl
  | cons change changes ih =>
      rw [Extent.groups]
      split
      · rename_i hgroups
        rw [hgroups] at ih
        rw [← ih]
        rfl
      · rename_i group groups hgroups
        rw [hgroups] at ih
        rw [← ih]
        split <;> rfl

theorem Extent.apart_groups (extent : Extent) (changes : List Change) :
    extent.Apart (extent.groups changes) := by
  induction changes with
  | nil => exact List.IsChain.nil
  | cons change changes ih =>
      rw [Extent.groups]
      split
      · exact List.IsChain.singleton _
      · rename_i group groups hgroups
        rw [hgroups] at ih
        split
        · -- the joined group ends where the old one does
          cases groups with
          | nil => exact List.IsChain.singleton _
          | cons next groups =>
              obtain ⟨hnext, hrest⟩ := List.isChain_cons_cons.mp ih
              refine List.isChain_cons_cons.mpr ⟨?_, hrest⟩
              rw [Group.last_cons]
              exact hnext
        · rename_i hjoins
          exact List.isChain_cons_cons.mpr ⟨Bool.not_eq_true _ |>.mp hjoins, ih⟩

namespace Group

/-- A group in two texts from the given positions on: a gap, the changes, and a rest. -/
structure Placed (group : Group) (position : Side → Nat) (text rest : Side → List Line) : Prop where
  start_eq : ∀ side, group.first.start side = position side + group.first.gap.length
  stop_eq : ∀ side, group.last.stop side = group.first.start side + (group.body side).length
  text_eq : ∀ side, text side = group.first.gap ++ group.body side ++ rest side

/-- Behind the lines used already, the gap before a group has room for those that are
shown of it, unless it begins with the texts. -/
def HasRoom (group : Group) (position : Side → Nat) (used : Nat) : Prop :=
  used + contextSize ≤ group.first.gap.length ∨ used = 0 ∧ ∀ side, position side = 0

end Group

theorem Spread.exists_placed {group : Group} {changes : List Change} {tail : List Line}
    (h : Spread position (group.changes ++ changes) tail text) :
    ∃ rest, group.Placed position text rest ∧ Spread group.last.stop changes tail rest ∧
      ∀ next ∈ changes.head?, next.gap ≠ [] := by
  obtain ⟨first, more⟩ := group
  induction more generalizing first position text with
  | nil =>
      cases h with
      | cons hstart hgap htext hrest =>
          refine ⟨_, ⟨hstart, fun side => ?_, fun side => ?_⟩, hrest, hgap⟩
          · simp [Group.body, Group.last, Change.stop]
          · simp [htext, Group.body]
  | cons second more ih =>
      cases h with
      | cons hstart hgap htext hrest =>
          obtain ⟨rest, hplaced, hspread, hnext⟩ := ih second hrest
          have hbody (side : Side) : (Group.mk first (second :: more)).body side =
              first.part side ++ second.gap ++ (Group.mk second more).body side := by
            simp [Group.body]
          have hlast := Group.last_cons first ⟨second, more⟩
          refine ⟨rest, ⟨hstart, fun side => ?_, fun side => ?_⟩, ?_, hnext⟩
          · rw [hlast, hplaced.stop_eq, hplaced.start_eq, hbody, Change.stop]
            simp [Nat.add_assoc]
          · rw [htext, hplaced.text_eq, hbody]
            simp
          · rw [hlast]
            exact hspread

/-! ## The hunk of a group -/

namespace Extent

/-- The number of lines of one of the texts. -/
def size (extent : Extent) : Side → Nat
  | .before => extent.oldLines
  | .after => extent.newLines

variable {extent : Extent}

theorem trailing_le {change : Change}
    (hsize : ∀ side, extent.size side = change.stop side + (rest side).length) (side : Side) :
    extent.trailing change ≤ (rest side).length := by
  have hbefore : extent.oldLines = change.oldStop + (rest .before).length := hsize .before
  have hafter : extent.newLines = change.newStop + (rest .after).length := hsize .after
  unfold trailing
  cases side <;> omega

/-- The gap between two hunks has room for what either shows of it. -/
theorem trailing_add_contextSize_le {change next : Change}
    (hjoins : extent.joins change next = false) (hgap : next.gap ≠ [])
    (hstart : ∀ side, next.start side = change.stop side + next.gap.length)
    (hsize : ∀ side, extent.size side = next.start side + (rest side).length) :
    extent.trailing change + contextSize ≤ next.gap.length := by
  have hpos : 0 < next.gap.length := List.length_pos_of_ne_nil hgap
  have hold : next.oldStart = change.oldStop + next.gap.length := hstart .before
  have hnew : next.newStart = change.newStop + next.gap.length := hstart .after
  have hbefore : extent.oldLines = next.oldStart + (rest .before).length := hsize .before
  have hafter : extent.newLines = next.newStart + (rest .after).length := hsize .after
  unfold joins at hjoins
  rw [decide_eq_false_iff_not] at hjoins
  -- at least one line is shown, so that the distance in `joins` is not cut off at zero
  have hone : 1 ≤ extent.trailing change := by
    unfold trailing contextSize
    omega
  unfold contextSize at hjoins ⊢
  omega

end Extent

theorem flatMap_text_context (side : Side) (lines : List Line) :
    (lines.map HunkLine.context).flatMap (HunkLine.text side) = lines := by
  induction lines with
  | nil => rfl
  | cons line lines ih => simp [HunkLine.text, ih]

theorem Change.flatMap_text_lines (side : Side) (change : Change) :
    change.lines.flatMap (HunkLine.text side) = change.part side := by
  cases side with
  | before => simp [Change.lines, Change.part, HunkLine.text, List.flatMap_map]
  | after => simp [Change.lines, Change.part, HunkLine.text, List.flatMap_map]

namespace Extent

section Hunk

variable {group : Group} {used : Nat} (hplaced : group.Placed position text rest)
  (hroom : group.HasRoom position used) (extent : Extent) (following : List Line)

theorem text_hunk (side : Side) :
    (extent.hunk group following).text side =
      group.leading ++ group.body side ++ following.take (extent.trailing group.last) := by
  simp only [Hunk.text, hunk, Group.leading, Group.body, List.flatMap_append, List.flatMap_assoc,
    flatMap_text_context, Change.flatMap_text_lines, List.append_assoc]

include hplaced in
theorem stop_hunk (side : Side) :
    (extent.hunk group following).start side + (extent.hunk group following).length side =
      group.last.stop side + extent.trailing group.last := by
  have hlength : (extent.hunk group following).length side =
      group.last.stop side + extent.trailing group.last -
        (extent.hunk group following).start side := by
    cases side <;> rfl
  have hstart : (extent.hunk group following).start side ≤ group.first.start side := by
    cases side <;> exact Nat.sub_le _ _
  have hstop := hplaced.stop_eq side
  omega

include hplaced hroom

theorem start_hunk (side : Side) :
    (extent.hunk group following).start side =
      position side + (group.first.gap.length - contextSize) := by
  have hfirst : (extent.hunk group following).start side =
      group.first.start side - contextSize := by
    cases side <;> rfl
  rw [hfirst, hplaced.start_eq]
  rcases hroom with hlong | ⟨-, hposition⟩
  · omega
  · rw [hposition]
    omega

theorem length_hunk (hshown : extent.trailing group.last ≤ following.length) (side : Side) :
    (extent.hunk group following).length side =
      ((extent.hunk group following).text side).length := by
  have hstart := start_hunk hplaced hroom extent following side
  have hstop := stop_hunk hplaced extent following side
  have hgroup := hplaced.stop_eq side
  have hfirst := hplaced.start_eq side
  rw [text_hunk, Group.leading, List.length_append, List.length_append, List.length_drop,
    List.length_take]
  omega

/-- The hunk of a group goes before the hunks for what it leaves of the gap behind it. -/
theorem covers_hunk_cons (hshown : extent.trailing group.last ≤ following.length)
    (hrest : ∀ side, (rest side).take (extent.trailing group.last) =
      following.take (extent.trailing group.last))
    {hunks : List Hunk}
    (hcovers : Covers (fun side => group.last.stop side + extent.trailing group.last) hunks
      fun side => (rest side).drop (extent.trailing group.last)) :
    Covers (fun side => position side + used) (extent.hunk group following :: hunks)
      fun side => (text side).drop used := by
  let unshown := group.first.gap.length - contextSize
  have hused : used ≤ unshown := by
    rcases hroom with hlong | ⟨rfl, -⟩
    · exact Nat.le_sub_of_add_le hlong
    · exact Nat.zero_le _
  have hunshown : (group.first.gap.take unshown).length = unshown := by
    rw [List.length_take]
    omega
  refine .cons ((group.first.gap.take unshown).drop used) (fun side => ?_)
    (length_hunk hplaced hroom extent following hshown)
    (fun side => (stop_hunk hplaced extent following side).symm) (fun side => ?_) hcovers
  · rw [start_hunk hplaced hroom, List.length_drop, hunshown]
    omega
  · have hgap : group.first.gap.drop used =
        (group.first.gap.take unshown).drop used ++ group.leading := by
      rw [Group.leading, ← List.drop_append_of_le_length (by omega), List.take_append_drop]
    have hbehind : rest side = following.take (extent.trailing group.last) ++
        (rest side).drop (extent.trailing group.last) := by
      rw [← hrest, List.take_append_drop]
    calc (text side).drop used
      _ = group.first.gap.drop used ++ (group.body side ++ rest side) := by
          rw [hplaced.text_eq, List.append_assoc, List.drop_append_of_le_length (by omega)]
      _ = (group.first.gap.take unshown).drop used ++ (extent.hunk group following).text side ++
            (rest side).drop (extent.trailing group.last) := by
          rw [hgap, text_hunk]
          nth_rewrite 1 [hbehind]
          simp only [List.append_assoc]

end Hunk

/-- Hunks cover the texts from the lines on that were used for a hunk before them. -/
theorem covers_hunks {extent : Extent} {groups : List Group} (hapart : extent.Apart groups)
    {tail : List Line} (hspread : Spread position (groups.flatMap Group.changes) tail text)
    (hsize : ∀ side, extent.size side = position side + (text side).length) {used : Nat}
    (hroom : ∀ group ∈ groups.head?, group.HasRoom position used) :
    Covers (fun side => position side + used) (extent.hunks tail groups)
      fun side => (text side).drop used := by
  induction groups generalizing position text used with
  | nil =>
      cases hspread with
      | nil htext =>
          refine .nil fun side => ?_
          rw [htext, htext]
  | cons group groups ih =>
      rw [List.flatMap_cons] at hspread
      obtain ⟨rest, hplaced, hrest, hgap⟩ := hspread.exists_placed
      have hleft (side : Side) :
          extent.size side = group.last.stop side + (rest side).length := by
        rw [hsize, hplaced.text_eq, hplaced.stop_eq, hplaced.start_eq]
        simp [Nat.add_assoc]
      cases groups with
      | nil =>
          cases hrest with
          | nil htail =>
              have hshown : extent.trailing group.last ≤ tail.length := by
                rw [← htail .before]
                exact trailing_le hleft .before
              refine covers_hunk_cons hplaced (hroom group rfl) extent tail hshown
                (fun side => ?_) (.nil fun side => ?_)
              · rw [htail]
              · rw [htail, htail]
      | cons next groups =>
          obtain ⟨hjoins, hapart⟩ := List.isChain_cons_cons.mp hapart
          obtain ⟨behind, hnext, -, -⟩ := Spread.exists_placed hrest
          have hbehind (side : Side) : extent.size side =
              next.first.start side + (next.body side ++ behind side).length := by
            rw [hleft, hnext.text_eq, hnext.start_eq]
            simp [Nat.add_assoc]
          have hshared : extent.trailing group.last + contextSize ≤ next.first.gap.length :=
            trailing_add_contextSize_le hjoins (hgap _ rfl) hnext.start_eq hbehind
          have hshown : extent.trailing group.last ≤ next.first.gap.length := by omega
          refine covers_hunk_cons hplaced (hroom group rfl) extent next.first.gap hshown
            (fun side => ?_) ?_
          · rw [hnext.text_eq, List.append_assoc, List.take_append_of_le_length hshown]
          · apply ih hapart hrest hleft
            intro first hfirst
            obtain rfl : next = first := Option.some.inj hfirst
            exact .inl hshared

end Extent

/-- The hunks between two texts cover them from the first line on. -/
theorem covers_hunksBetween (text : Side → List Line) :
    Covers (fun _ => 0) (hunksBetween (text .before) (text .after)) text := by
  let script := (Script.between (text .before) (text .after)).compact
  let extent : Extent := ⟨(text .before).length, (text .after).length⟩
  have hleads : script.Leads (text .before) (text .after) :=
    Script.leads_compact (Script.leads_between _ _)
  let origin : Change := ⟨[], [], [], 0, 0⟩
  have horigin (side : Side) : origin.start side = 0 + origin.gap.length := by
    cases side <;> rfl
  have htext : Spread (fun _ => 0) script.changes.changes script.changes.tail text := by
    refine (spread_followedBy origin hleads.solid horigin).1.congr fun side => ?_
    cases side with
    | before => exact hleads.before_eq.symm
    | after => exact hleads.after_eq.symm
  rw [← extent.flatMap_changes_groups script.changes.changes] at htext
  have hsize (side : Side) : extent.size side = 0 + (text side).length := by
    cases side <;> exact (Nat.zero_add _).symm
  exact Extent.covers_hunks (extent.apart_groups _) htext hsize fun _ _ => .inr ⟨rfl, fun _ => rfl⟩

end EnumMigration
