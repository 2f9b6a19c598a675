import EnumMigration.Table.Action
import EnumMigration.Proofs.Acceptance
import EnumMigration.Proofs.Fragment

/-!
# All passes of a table

A pass leaves no occurrence of its own token that is made of kept characters
(`Pass.not_keptWhole`), and no later pass makes one (`KeptWhole.of_pass`).  So
in the end no token of the table stands whole among the kept characters
(`Passes.not_keptWhole`), and none can reach into a replacement either.

`Consistent` is what every pass preserves: the text at the beginning, the
separation of the swapped fragments, and their places in the table.
`exists_passes` runs through the patterns of a table and relates the result to
`replaceEach`.
-/

namespace EnumMigration.Fragment

/-! ## Tokens that were kept -/

/-- The token stands whole in the text at the beginning, and all of it was
kept. -/
def KeptWhole (token : List Char) (fragments : List Fragment) : Prop :=
  ∃ first rest, fragments = first ++ (token.map kept ++ rest) ∧
    isWordAt (source first).getLast? = false ∧ isWordAt (source rest).head? = false

namespace Pass

variable {index : Nat} {pattern : Pattern} {blocked : Bool} {fragments : List Fragment}

/-- A cut through the result of a pass goes back to a cut through what it
started from. -/
theorem split {first second : List Fragment}
    (pass : Pass index pattern blocked fragments (first ++ second)) :
    ∃ first₀ second₀, fragments = first₀ ++ second₀ ∧ source first₀ = source first ∧
      Pass index pattern (blockedAfter blocked first) second₀ second := by
  induction first generalizing blocked fragments with
  | nil => exact ⟨[], fragments, rfl, rfl, pass⟩
  | cons fragment first ih =>
      cases pass with
      | hit _ pass =>
          obtain ⟨first₀, second₀, rfl, hsource, hpass⟩ := ih pass
          exact ⟨pattern.token.map kept ++ first₀, second₀, by simp, by simp [source, hsource], hpass⟩
      | keep _ pass =>
          obtain ⟨first₀, second₀, rfl, hsource, hpass⟩ := ih pass
          exact ⟨_ :: first₀, second₀, rfl, by simp [source, hsource], hpass⟩
      | skip pass =>
          obtain ⟨first₀, second₀, rfl, hsource, hpass⟩ := ih pass
          exact ⟨_ :: first₀, second₀, rfl, by simp [source, hsource], hpass⟩

/-- What was kept by a pass was kept before it. -/
theorem kept_run {run : List Char} {rest : List Fragment}
    (pass : Pass index pattern blocked fragments (run.map kept ++ rest)) :
    ∃ rest₀, fragments = run.map kept ++ rest₀ ∧ source rest₀ = source rest := by
  induction run generalizing blocked fragments with
  | nil => exact ⟨fragments, rfl, pass.source_eq.symm⟩
  | cons c run ih =>
      cases pass with
      | keep _ pass =>
          obtain ⟨rest₀, rfl, hsource⟩ := ih pass
          exact ⟨rest₀, rfl, hsource⟩

/-- Where a pass keeps a character, its token cannot begin. -/
theorem startsWhole_eq_false {c : Char} {rest : List Fragment}
    (pass : Pass index pattern false fragments (kept c :: rest)) :
    startsWhole pattern.token (target fragments) = false := by
  cases pass with
  | keep hnot _ => exact hnot rfl

/-- A pass leaves no occurrence of its token among the kept characters. -/
theorem not_keptWhole {fragments' : List Fragment}
    (pass : Pass index pattern false fragments fragments') (hseparated : Separated false fragments) :
    ¬ KeptWhole pattern.token fragments' := by
  rintro ⟨first, rest, rfl, hfirst, hrest⟩
  obtain ⟨first₀, second₀, rfl, hsource, hpass⟩ := pass.split
  rw [not_blocked_of_getLast?_source hfirst] at hpass
  have hnot : startsWhole pattern.token (target second₀) = false := by
    obtain ⟨c, tail, htoken⟩ := List.exists_cons_of_ne_nil pattern.wordEdged.ne_nil
    rw [htoken, List.map_cons, List.cons_append] at hpass
    exact hpass.startsWhole_eq_false
  obtain ⟨rest₀, rfl, hrest₀⟩ := hpass.kept_run
  have hblocked := hseparated.append.append
  rw [blockedAfter_map_kept_token pattern.wordEdged] at hblocked
  rw [← Bool.not_eq_true, startsWhole_iff] at hnot
  refine hnot ⟨target rest₀, by simp, ?_⟩
  rw [hblocked.head?_render, hrest₀]
  exact hrest

end Pass

/-- No pass makes a kept occurrence of any token. -/
theorem KeptWhole.of_pass {token : List Char} {index : Nat} {pattern : Pattern}
    {fragments fragments' : List Fragment} (pass : Pass index pattern false fragments fragments')
    (h : KeptWhole token fragments') : KeptWhole token fragments := by
  obtain ⟨first, rest, rfl, hfirst, hrest⟩ := h
  obtain ⟨first₀, second₀, rfl, hsource, hpass⟩ := pass.split
  obtain ⟨rest₀, rfl, hrest₀⟩ := hpass.kept_run
  exact ⟨first₀, rest₀, rfl, by rw [hsource]; exact hfirst, by rw [hrest₀]; exact hrest⟩

/-! ## The invariant of all passes -/

/-- Fragments of `text` that come from the patterns of a table. -/
structure Consistent (patterns : List Pattern) (text : List Char) (fragments : List Fragment) :
    Prop where
  source_eq : source fragments = text
  separated : Separated false fragments
  tagged : ∀ i p, swapped i p ∈ fragments → patterns[i]? = some p

/-- A text of which nothing was swapped yet. -/
theorem consistent_map_kept (patterns : List Pattern) (text : List Char) :
    Consistent patterns text (text.map kept) where
  source_eq := render_map_kept text
  separated := by
    have key : ∀ (text : List Char) (blocked : Bool), Separated blocked (text.map kept) := by
      intro text
      induction text with
      | nil => intro blocked; trivial
      | cons c text ih => intro blocked; exact ih (isWord c)
    exact key text false
  tagged := by
    intro i p hmem
    simp at hmem

theorem Consistent.pass {patterns : List Pattern} {text : List Char}
    {fragments fragments' : List Fragment} (consistent : Consistent patterns text fragments)
    {index : Nat} {pattern : Pattern} (hindex : patterns[index]? = some pattern)
    (pass : Pass index pattern false fragments fragments') :
    Consistent patterns text fragments' where
  source_eq := by rw [pass.source_eq, consistent.source_eq]
  separated := pass.separated consistent.separated
  tagged := by
    intro i p hmem
    rcases pass.swapped_mem hmem with hold | ⟨rfl, rfl⟩
    · exact consistent.tagged i p hold
    · exact hindex

/-- In fragments of a table, no pattern of the table can come back in what was
swapped. -/
theorem Consistent.not_completable {table : Table} {text : List Char} {fragments : List Fragment}
    (consistent : Consistent table.patterns text fragments) {pattern : Pattern}
    (hpattern : pattern ∈ table.patterns) (i : Nat) (p : Pattern) (hmem : swapped i p ∈ fragments) :
    ¬ Completable pattern.token p.substitute :=
  table.not_completable hpattern (List.mem_of_getElem? (consistent.tagged i p hmem))

/-- What comes next among the patterns of a table, from `index` on. -/
theorem drop_eq_cons {all patterns : List Pattern} {index : Nat} {pattern : Pattern}
    (h : all.drop index = pattern :: patterns) :
    all[index]? = some pattern ∧ all.drop (index + 1) = patterns := by
  constructor
  · rw [← List.head?_drop, h, List.head?_cons]
  · rw [← List.tail_drop, h, List.tail_cons]

/-- The passes of successive patterns, the first of which stands at `index`. -/
inductive Passes : (index : Nat) → List Pattern → List Fragment → List Fragment → Prop
  | done (index : Nat) (fragments : List Fragment) : Passes index [] fragments fragments
  | next {index : Nat} {pattern : Pattern} {patterns : List Pattern}
      {fragments middle last : List Fragment} :
      Pass index pattern false fragments middle → Passes (index + 1) patterns middle last →
      Passes index (pattern :: patterns) fragments last

theorem Passes.consistent {all : List Pattern} {text : List Char} {index : Nat}
    {patterns : List Pattern} {fragments last : List Fragment}
    (passes : Passes index patterns fragments last) (hdrop : all.drop index = patterns)
    (consistent : Consistent all text fragments) : Consistent all text last := by
  induction passes with
  | done => exact consistent
  | next pass _ ih =>
      obtain ⟨hindex, hrest⟩ := drop_eq_cons hdrop
      exact ih hrest (consistent.pass hindex pass)

/-- The patterns of a table, from `index` on, make their passes, and
`replaceEach` reads off the result. -/
theorem exists_passes (table : Table) {text : List Char} (patterns : List Pattern) (index : Nat)
    (hdrop : table.patterns.drop index = patterns) (fragments : List Fragment)
    (consistent : Consistent table.patterns text fragments) :
    ∃ last, Passes index patterns fragments last ∧
      (replaceEach patterns (target fragments)).1 = target last ∧
      (replaceEach patterns (target fragments)).2 + swapCount fragments = swapCount last := by
  induction patterns generalizing index fragments with
  | nil => exact ⟨fragments, .done index fragments, rfl, by simp [replaceEach]⟩
  | cons pattern patterns ih =>
      obtain ⟨hindex, hrest⟩ := drop_eq_cons hdrop
      have hsafe := consistent.not_completable (List.mem_of_getElem? hindex)
      obtain ⟨middle, hpass⟩ := exists_pass index pattern false fragments consistent.separated hsafe
      obtain ⟨hreplaced, hcount⟩ := hpass.scan_eq consistent.separated hsafe
      obtain ⟨last, hpasses, htarget, hswaps⟩ :=
        ih (index + 1) hrest middle (consistent.pass hindex hpass)
      refine ⟨last, .next hpass hpasses, ?_, ?_⟩
      · rw [← htarget, ← hreplaced]
        rfl
      · rw [← hreplaced] at hswaps
        rw [← hswaps, ← hcount]
        simp only [replaceEach, Pattern.hits, Pattern.replaceAll, Pattern.pieces]
        omega

/-- No pass among them makes a kept occurrence of any token. -/
theorem KeptWhole.of_passes {token : List Char} {index : Nat} {patterns : List Pattern}
    {fragments last : List Fragment} (passes : Passes index patterns fragments last)
    (h : KeptWhole token last) : KeptWhole token fragments := by
  induction passes with
  | done => exact h
  | next pass _ ih => exact (ih h).of_pass pass

/-- After all passes no token of theirs stands whole among the kept characters. -/
theorem Passes.not_keptWhole {all : List Pattern} {text : List Char} {index : Nat}
    {patterns : List Pattern} {fragments last : List Fragment}
    (passes : Passes index patterns fragments last) (hdrop : all.drop index = patterns)
    (consistent : Consistent all text fragments) {pattern : Pattern} (hmem : pattern ∈ patterns) :
    ¬ KeptWhole pattern.token last := by
  induction passes with
  | done => exact absurd hmem (by simp)
  | next pass passes ih =>
      rcases List.mem_cons.mp hmem with rfl | hmem
      · exact fun h => pass.not_keptWhole consistent.separated (h.of_passes passes)
      · obtain ⟨hindex, hrest⟩ := drop_eq_cons hdrop
        exact ih hrest (consistent.pass hindex pass) hmem

end EnumMigration.Fragment
