import EnumMigration.Patch.Hunk

/-!
# Edit scripts lead from one text to the other

The search for the middle of a shortest script is not looked into: wherever two
texts are cut, the scripts of the parts make a script of the whole.  Compacting
moves runs about, and every move replaces a part of the script by another one with
the same two readings (`Leads.replace`).

Along the way no shared run becomes empty.  The hunks rely on this, because an empty
run would separate two changes that have nothing between them.
-/

namespace EnumMigration.Script

/-! ## Scripts without empty shared runs -/

/-- A script whose shared runs all have lines. -/
def Solid (script : Script) : Prop := ∀ edit ∈ script, edit ≠ .both []

@[simp] theorem solid_nil : Solid [] := by simp [Solid]

@[simp] theorem solid_cons (edit : Edit) (script : Script) :
    Solid (edit :: script) ↔ edit ≠ .both [] ∧ Solid script :=
  List.forall_mem_cons

@[simp] theorem solid_append (front back : Script) :
    Solid (front ++ back) ↔ Solid front ∧ Solid back :=
  List.forall_mem_append

@[simp] theorem solid_reverse (script : Script) : Solid script.reverse ↔ Solid script := by
  simp [Solid]

theorem solid_shared (run : List Line) : Solid (shared run) := by
  cases run <;> simp [shared]

theorem solid_lone (side : Side) (run : List Line) : Solid (lone side run) := by
  cases run <;> simp [lone]

/-- A script that leads from one list of lines to another. -/
structure Leads (script : Script) (left right : List Line) : Prop where
  before_eq : text .before script = left
  after_eq : text .after script = right
  solid : Solid script

/-! ## The script of two texts -/

theorem Leads.append {front back : Script} {left right left' right' : List Line}
    (hfront : Leads front left right) (hback : Leads back left' right') :
    Leads (front ++ back) (left ++ left') (right ++ right') := by
  refine ⟨?_, ?_, (solid_append _ _).mpr ⟨hfront.solid, hback.solid⟩⟩
  · rw [text_append, hfront.before_eq, hback.before_eq]
  · rw [text_append, hfront.after_eq, hback.after_eq]

theorem leads_shared (run : List Line) : Leads (shared run) run run :=
  ⟨text_shared .before run, text_shared .after run, solid_shared run⟩

/-- One text may be taken out as a whole and the other put in. -/
theorem leads_lone (left right : List Line) :
    Leads (lone .before left ++ lone .after right) left right := by
  refine ⟨?_, ?_, (solid_append _ _).mpr ⟨solid_lone _ _, solid_lone _ _⟩⟩
  · simp [text_lone]
  · simp [text_lone]

theorem leads_between (left right : List Line) : Leads (between left right) left right := by
  fun_induction between left right with
  | case1 left right rest inner ihfront ihback =>
      have hinner : Leads inner rest.left rest.right := by
        unfold inner
        split
        · exact leads_lone rest.left rest.right
        · rename_i cut _
          have hparts := (ihfront cut).append (ihback cut)
          rwa [List.take_append_drop, List.take_append_drop] at hparts
      have hwhole := ((leads_shared rest.front).append hinner).append (leads_shared rest.back)
      rwa [trim_left, trim_right] at hwhole

/-! ## Moving runs -/

/-- A part of a script may be replaced by any other with the same readings. -/
theorem Leads.replace {front middle middle' back : Script} {left right : List Line}
    (h : Leads (front ++ middle ++ back) left right)
    (htext : ∀ side, text side middle' = text side middle) (hsolid : Solid middle → Solid middle') :
    Leads (front ++ middle' ++ back) left right := by
  have hreading : ∀ side, text side (front ++ middle' ++ back) =
      text side (front ++ middle ++ back) := by
    intro side
    simp only [text_append, htext]
  refine ⟨(hreading .before).trans h.before_eq, (hreading .after).trans h.after_eq, ?_⟩
  have hparts := h.solid
  simp only [solid_append] at hparts ⊢
  exact ⟨⟨hparts.1.1, hsolid hparts.1.2⟩, hparts.2⟩

/-- The script around a run of one side. -/
def Focus.script (side : Side) (focus : Focus) : Script :=
  focus.above.reverse ++ .only side focus.run :: focus.below

theorem text_growUp (side : Side) (lines : List Line) (script : Script) :
    text side (growUp lines script) = lines ++ text side script := by
  unfold growUp
  split <;> simp [Edit.text]

theorem text_reverse_growDown (side : Side) (lines : List Line) (script : Script) :
    text side (growDown lines script).reverse = text side script.reverse ++ lines := by
  unfold growDown
  split <;> simp [Edit.text]

theorem solid_growUp {lines : List Line} (hlines : lines ≠ []) {script : Script}
    (h : Solid script) : Solid (growUp lines script) := by
  unfold growUp
  split <;> simp_all

theorem solid_growDown {lines : List Line} (hlines : lines ≠ []) {script : Script}
    (h : Solid script) : Solid (growDown lines script) := by
  unfold growDown
  split <;> simp_all

theorem reverse_shared (run : List Line) : (shared run).reverse = shared run := by
  cases run <;> rfl

variable {left right : List Line}

theorem leads_merge {side : Side} {front back : Script} {lines run : List Line}
    (h : Leads (front ++ [.only side lines, .only side run] ++ back) left right) :
    Leads (front ++ [.only side (lines ++ run)] ++ back) left right := by
  apply h.replace
  · intro own
    by_cases hown : side = own <;> simp [Edit.text, hown]
  · simp

theorem leads_swap {side own : Side} (hne : own ≠ side) {front back : Script}
    {lines run : List Line}
    (h : Leads (front ++ [.only own lines, .only side run] ++ back) left right) :
    Leads (front ++ [.only side run, .only own lines] ++ back) left right := by
  apply h.replace
  · intro reading
    by_cases hown : own = reading
    · have hside : side ≠ reading := fun hside => hne (hown.trans hside.symm)
      simp [Edit.text, hown, hside]
    · simp [Edit.text, hown]
  · simp

theorem leads_shiftUp (side : Side) (above : Script) (run : List Line) (below : Script)
    (h : Leads (Focus.script side ⟨above, run, below⟩) left right) :
    Leads ((shiftUp side above run below).script side) left right := by
  fun_induction shiftUp side above run below with
  | case1 run below => exact h
  | case2 run below lines rest ih =>
      have hparts : Leads (rest.reverse ++ [.only side lines, .only side run] ++ below)
          left right := by
        simpa [Focus.script] using h
      apply ih
      simpa [Focus.script] using leads_merge hparts
  | case3 run below own lines rest hown ih =>
      have hparts : Leads (rest.reverse ++ [.only own lines, .only side run] ++ below)
          left right := by
        simpa [Focus.script] using h
      apply ih
      simpa [Focus.script] using leads_swap hown hparts
  | case4 run below lines rest meet hempty => exact h
  | case5 run below lines rest meet hcommon ih =>
      -- what the run shares with the lines above it goes from its end to its front
      have hrun : meet.left ++ meet.common = run := sharedBack_left run lines
      have hlines : meet.right ++ meet.common = lines := sharedBack_right run lines
      have hparts : Leads (rest.reverse ++ (.both lines :: .only side run :: below) ++ [])
          left right := by
        simpa [Focus.script] using h
      have hmoved : Leads (rest.reverse ++ (shared meet.right ++
          .only side (meet.common ++ meet.left) :: growUp meet.common below) ++ []) left right := by
        apply hparts.replace
        · intro reading
          by_cases hside : side = reading <;>
            simp [Edit.text, hside, text_growUp, ← hrun, ← hlines]
        · intro hsolid
          rw [solid_cons, solid_cons] at hsolid
          simp [solid_shared, solid_growUp (by simpa using hcommon) hsolid.2.2]
      apply ih
      simpa [Focus.script, reverse_shared] using hmoved

theorem leads_shiftDown (side : Side) (above : Script) (run : List Line) (below : Script)
    (h : Leads (Focus.script side ⟨above, run, below⟩) left right) :
    Leads ((shiftDown side above run below).script side) left right := by
  fun_induction shiftDown side above run below with
  | case1 above run => exact h
  | case2 above run lines rest ih =>
      have hparts : Leads (above.reverse ++ [.only side run, .only side lines] ++ rest)
          left right := by
        simpa [Focus.script] using h
      apply ih
      simpa [Focus.script] using leads_merge hparts
  | case3 above run own lines rest hown ih =>
      have hparts : Leads (above.reverse ++ [.only side run, .only own lines] ++ rest)
          left right := by
        simpa [Focus.script] using h
      apply ih
      simpa [Focus.script] using leads_swap (Ne.symm hown) hparts
  | case4 above run lines rest meet hempty => exact h
  | case5 above run lines rest meet hcommon ih =>
      have hrun : meet.common ++ meet.left = run := sharedFront_left run lines
      have hlines : meet.common ++ meet.right = lines := sharedFront_right run lines
      have hparts : Leads ([] ++ (above.reverse ++ [.only side run, .both lines]) ++ rest)
          left right := by
        simpa [Focus.script] using h
      have hmoved : Leads ([] ++ ((growDown meet.common above).reverse ++
          .only side (meet.left ++ meet.common) :: shared meet.right) ++ rest) left right := by
        apply hparts.replace
        · intro reading
          by_cases hside : side = reading <;>
            simp [Edit.text, hside, text_reverse_growDown, ← hrun, ← hlines]
        · intro hsolid
          rw [solid_append, solid_reverse] at hsolid
          simp [solid_shared, solid_growDown (by simpa using hcommon) hsolid.1]
      apply ih
      simpa [Focus.script] using hmoved

/-! ## Compacting -/

theorem leads_settle (side : Side) (fuel : Nat) (above below : Script)
    (h : Leads (above.reverse ++ below) left right) :
    Leads (settle side fuel above below) left right := by
  fun_induction settle side fuel above below with
  | case1 above below => exact h
  | case2 fuel above => simpa using h
  | case3 fuel above run below ih =>
      apply ih
      simpa using h
  | case4 fuel above run below up down ih =>
      have hup : Leads (up.script side) left right := leads_shiftUp side above run below h
      have hdown : Leads (down.script side) left right :=
        leads_shiftDown side up.above up.run up.below hup
      apply ih
      simpa [Focus.script] using hdown
  | case5 fuel above own run below hown ih =>
      apply ih
      simpa using h

theorem leads_compact {script : Script} (h : Leads script left right) :
    Leads script.compact left right := by
  unfold compact
  apply leads_settle
  apply leads_settle
  exact h

end EnumMigration.Script
