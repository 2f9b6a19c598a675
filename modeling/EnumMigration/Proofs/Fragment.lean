import EnumMigration.Proofs.Slide

/-!
# One pass over a text that is already partly replaced

The patterns of a table act one after the other, each on what the earlier ones
left.  To relate every pass to the text at the beginning, a text is kept here
as *fragments*: characters that were kept, and occurrences that were swapped,
each with its pattern.  Fragments can be read in two ways, as the text at the
beginning (`source`) and as the text so far (`target`).

The invariant is `Separated`: a swapped fragment has no word character, and no
other swapped fragment, beside it.  From it and from the checks of a table it
follows that a pass never takes a token that reaches into a swapped fragment:
such a token would be completed by the text around a replacement.  So a pass
only turns kept characters into swapped fragments.  `Pass` is this relation,
`exists_pass` says that there is always such a pass, and `Pass.scan_eq` that it is
what the scan does.
-/

namespace EnumMigration

/-- A part of a text: a kept character, or an occurrence that was swapped, with
its pattern and the position of that pattern in its table. -/
inductive Fragment where
  | kept (c : Char)
  | swapped (index : Nat) (pattern : Pattern)

namespace Fragment

/-- Fragments as text, with a choice of what a swapped fragment stands for. -/
def render (part : Pattern → List Char) : List Fragment → List Char
  | [] => []
  | kept c :: rest => c :: render part rest
  | swapped _ pattern :: rest => part pattern ++ render part rest

/-- The text at the beginning. -/
abbrev source (fragments : List Fragment) : List Char := render Pattern.token fragments

/-- The text so far. -/
abbrev target (fragments : List Fragment) : List Char := render Pattern.substitute fragments

/-- The number of occurrences that were swapped. -/
def swapCount : List Fragment → Nat
  | [] => 0
  | kept _ :: rest => swapCount rest
  | swapped _ _ :: rest => swapCount rest + 1

/-- Whether no token can begin behind some fragments, because they end in a word
character or in a swapped fragment. -/
def blockedAfter : (blocked : Bool) → List Fragment → Bool
  | blocked, [] => blocked
  | _, kept c :: rest => blockedAfter (isWord c) rest
  | _, swapped _ _ :: rest => blockedAfter true rest

/-- No swapped fragment has a word character or another swapped fragment beside
it. -/
def Separated : (blocked : Bool) → List Fragment → Prop
  | _, [] => True
  | _, kept c :: rest => Separated (isWord c) rest
  | blocked, swapped _ _ :: rest =>
    blocked = false ∧ isWordAt (source rest).head? = false ∧ Separated true rest

/-! ## Reading fragments -/

section Reading

variable {part : Pattern → List Char}

@[simp] theorem render_nil : render part [] = [] := rfl

@[simp] theorem render_kept (c : Char) (rest : List Fragment) :
    render part (kept c :: rest) = c :: render part rest := rfl

@[simp] theorem render_swapped (index : Nat) (pattern : Pattern) (rest : List Fragment) :
    render part (swapped index pattern :: rest) = part pattern ++ render part rest := rfl

@[simp] theorem render_append (first second : List Fragment) :
    render part (first ++ second) = render part first ++ render part second := by
  induction first with
  | nil => rfl
  | cons fragment first ih => cases fragment <;> simp [ih]

@[simp] theorem render_map_kept (text : List Char) : render part (text.map kept) = text := by
  induction text with
  | nil => rfl
  | cons c text ih => simp [ih]

@[simp] theorem swapCount_map_kept_append (text : List Char) (rest : List Fragment) :
    swapCount (text.map kept ++ rest) = swapCount rest := by
  induction text with
  | nil => rfl
  | cons c text ih => exact ih

theorem blockedAfter_append (blocked : Bool) (first second : List Fragment) :
    blockedAfter blocked (first ++ second) = blockedAfter (blockedAfter blocked first) second := by
  induction first generalizing blocked with
  | nil => rfl
  | cons fragment first ih => cases fragment <;> exact ih _

/-- Kept characters block exactly as a scan of them ends in a word. -/
theorem blockedAfter_map_kept (blocked : Bool) (text : List Char) :
    blockedAfter blocked (text.map kept) = inWordAfter blocked text := by
  induction text generalizing blocked with
  | nil => rfl
  | cons c text ih => exact ih _

/-- A text that begins with `run` either keeps all of it, or has a swapped
fragment that begins within it. -/
theorem kept_run_or_swapped {fragments : List Fragment} {run after : List Char}
    (h : render part fragments = run ++ after) :
    (∃ rest, fragments = run.map kept ++ rest ∧ render part rest = after) ∨
      ∃ (shorter : List Char) (index : Nat) (pattern : Pattern) (rest : List Fragment),
        fragments = shorter.map kept ++ swapped index pattern :: rest ∧
          shorter.length < run.length := by
  induction run generalizing fragments with
  | nil => exact Or.inl ⟨fragments, rfl, h⟩
  | cons c run ih =>
      cases fragments with
      | nil => simp at h
      | cons fragment rest =>
          cases fragment with
          | swapped index pattern => exact Or.inr ⟨[], index, pattern, rest, rfl, by simp⟩
          | kept d =>
              injection h with hc hrest
              subst hc
              rcases ih hrest with ⟨more, rfl, hmore⟩ | ⟨shorter, index, pattern, more, rfl, hlt⟩
              · exact Or.inl ⟨more, rfl, hmore⟩
              · exact Or.inr ⟨d :: shorter, index, pattern, more, rfl, by simpa using hlt⟩

/-- A part of a text either is kept as a whole, or overlaps a swapped fragment. -/
theorem kept_or_overlap (hpart : ∀ pattern, part pattern ≠ []) {fragments : List Fragment}
    {before run after : List Char} (hrun : run ≠ [])
    (h : render part fragments = before ++ (run ++ after)) :
    (∃ first rest, fragments = first ++ (run.map kept ++ rest) ∧
        render part first = before ∧ render part rest = after) ∨
      ∃ first index pattern rest, fragments = first ++ swapped index pattern :: rest ∧
        (render part first).length < before.length + run.length ∧
        before.length < (render part first).length + (part pattern).length := by
  have hrunpos : 0 < run.length := List.length_pos_iff.mpr hrun
  induction fragments generalizing before with
  | nil =>
      have hnil : run = [] := by simp_all
      exact absurd hnil hrun
  | cons fragment rest ih =>
      cases fragment with
      | kept c =>
          cases before with
          | nil =>
              have hbegins : render part (kept c :: rest) = run ++ after := h
              rcases kept_run_or_swapped hbegins with
                ⟨more, hmore, hafter⟩ | ⟨shorter, i, p, more, hmore, hlt⟩
              · exact Or.inl ⟨[], more, hmore, rfl, hafter⟩
              · refine Or.inr ⟨shorter.map kept, i, p, more, hmore, ?_, ?_⟩
                · simpa using hlt
                · have hpos := List.length_pos_iff.mpr (hpart p)
                  simp only [List.length_nil]
                  omega
          | cons d before =>
              injection h with hc hrest
              subst hc
              rcases ih hrest with ⟨first, more, rfl, rfl, hafter⟩ | ⟨first, i, p, more, rfl, hlow, hhigh⟩
              · exact Or.inl ⟨kept c :: first, more, rfl, rfl, hafter⟩
              · refine Or.inr ⟨kept c :: first, i, p, more, rfl, ?_, ?_⟩
                · simp only [render_kept, List.length_cons]
                  omega
                · simp only [render_kept, List.length_cons]
                  omega
      | swapped i p =>
          rcases Nat.lt_or_ge before.length (part p).length with hlt | hge
          · exact Or.inr ⟨[], i, p, rest, rfl, by simp only [render_nil, List.length_nil]; omega,
              by simpa using hlt⟩
          · -- the swapped fragment lies before the run
            obtain ⟨more, rfl⟩ : part p <+: before :=
              List.prefix_of_prefix_length_le ⟨_, h⟩ (List.prefix_append _ _) hge
            rw [render_swapped, List.append_assoc, List.append_cancel_left_eq] at h
            rcases ih h with ⟨first, tail, rfl, rfl, hafter⟩ | ⟨first, j, q, tail, rfl, hlow, hhigh⟩
            · exact Or.inl ⟨swapped i p :: first, tail, rfl, rfl, hafter⟩
            · refine Or.inr ⟨swapped i p :: first, j, q, tail, rfl, ?_, ?_⟩
              · simp only [render_swapped, List.length_append]
                omega
              · simp only [render_swapped, List.length_append]
                omega

end Reading

/-! ## Separated fragments -/

theorem Separated.append {blocked : Bool} {first second : List Fragment}
    (h : Separated blocked (first ++ second)) : Separated (blockedAfter blocked first) second := by
  induction first generalizing blocked with
  | nil => exact h
  | cons fragment first ih =>
      cases fragment with
      | kept c => exact ih h
      | swapped index pattern => exact ih h.2.2

/-- Behind a word character or a swapped fragment comes a kept character, if
anything, and it reads the same in every way. -/
theorem Separated.head?_render {rest : List Fragment} (h : Separated true rest)
    (part : Pattern → List Char) : (render part rest).head? = (source rest).head? := by
  cases rest with
  | nil => rfl
  | cons fragment rest =>
      cases fragment with
      | kept c => rfl
      | swapped index pattern => exact absurd h.1 (by simp)

/-- Where a token can begin, the fragments before it end in a character that is
no word character, in whatever way they are read. -/
theorem getLast?_render_of_not_blocked {fragments : List Fragment}
    (h : blockedAfter false fragments = false) (part : Pattern → List Char) :
    isWordAt (render part fragments).getLast? = false := by
  rcases List.eq_nil_or_concat' fragments with rfl | ⟨first, last, rfl⟩
  · rfl
  · rw [blockedAfter_append] at h
    cases last with
    | swapped index pattern => exact absurd h (by simp [blockedAfter])
    | kept c =>
        rw [render_append, render_kept, render_nil, List.getLast?_append_of_ne_nil _ (by simp)]
        exact h

/-- Conversely, a swapped fragment ends in a word character of its source. -/
theorem not_blocked_of_getLast?_source {fragments : List Fragment}
    (h : isWordAt (source fragments).getLast? = false) : blockedAfter false fragments = false := by
  rcases List.eq_nil_or_concat' fragments with rfl | ⟨first, last, rfl⟩
  · rfl
  · rw [blockedAfter_append]
    cases last with
    | kept c =>
        rw [source, render_append, render_kept, render_nil,
          List.getLast?_append_of_ne_nil _ (by simp)] at h
        exact h
    | swapped index pattern =>
        rw [source, render_append, render_swapped, render_nil, List.append_nil,
          List.getLast?_append_of_ne_nil _ pattern.wordEdged.ne_nil, pattern.wordEdged.last] at h
        exact absurd h (by simp)

/-- The fragments around a swapped one touch it with no word character, in
whatever way they are read. -/
theorem Separated.edges {first rest : List Fragment} {index : Nat} {pattern : Pattern}
    (h : Separated false (first ++ swapped index pattern :: rest)) (part : Pattern → List Char) :
    isWordAt (render part first).getLast? = false ∧ isWordAt (render part rest).head? = false := by
  obtain ⟨hblocked, hhead, hrest⟩ := h.append
  refine ⟨getLast?_render_of_not_blocked hblocked part, ?_⟩
  rw [hrest.head?_render part]
  exact hhead

/-- Behind a kept token no token can begin. -/
theorem blockedAfter_map_kept_token {token : List Char} (edged : WordEdged token)
    (blocked : Bool) : blockedAfter blocked (token.map kept) = true := by
  rw [blockedAfter_map_kept, inWordAfter_of_ne_nil edged.ne_nil, edged.last]

/-! ## A pass -/

/-- A pass of one pattern: it takes a kept occurrence wherever one can begin,
and leaves everything else as it is. -/
inductive Pass (index : Nat) (pattern : Pattern) :
    (blocked : Bool) → List Fragment → List Fragment → Prop
  | nil (blocked : Bool) : Pass index pattern blocked [] []
  | hit {rest rest' : List Fragment} :
      isWordAt (source rest).head? = false → Pass index pattern true rest rest' →
      Pass index pattern false (pattern.token.map kept ++ rest) (swapped index pattern :: rest')
  | keep {blocked : Bool} {c : Char} {rest rest' : List Fragment} :
      (blocked = false → startsWhole pattern.token (target (kept c :: rest)) = false) →
      Pass index pattern (isWord c) rest rest' →
      Pass index pattern blocked (kept c :: rest) (kept c :: rest')
  | skip {blocked : Bool} {i : Nat} {p : Pattern} {rest rest' : List Fragment} :
      Pass index pattern true rest rest' →
      Pass index pattern blocked (swapped i p :: rest) (swapped i p :: rest')

namespace Pass

variable {index : Nat} {pattern : Pattern} {blocked : Bool} {fragments fragments' : List Fragment}

/-- A pass leaves the text at the beginning as it is. -/
theorem source_eq (pass : Pass index pattern blocked fragments fragments') :
    source fragments' = source fragments := by
  induction pass with
  | nil => rfl
  | hit _ _ ih => simp [source, ih]
  | keep _ _ ih => simp [source, ih]
  | skip _ ih => simp [source, ih]

/-- A pass keeps swapped fragments apart. -/
theorem separated (pass : Pass index pattern blocked fragments fragments')
    (h : Separated blocked fragments) : Separated blocked fragments' := by
  induction pass with
  | nil => trivial
  | hit hhead pass ih =>
      have hrest := h.append
      rw [blockedAfter_map_kept_token pattern.wordEdged] at hrest
      refine ⟨rfl, ?_, ih hrest⟩
      rw [pass.source_eq]
      exact hhead
  | keep _ _ ih => exact ih h
  | skip pass ih =>
      obtain ⟨hblocked, hhead, hrest⟩ := h
      refine ⟨hblocked, ?_, ih hrest⟩
      rw [pass.source_eq]
      exact hhead

/-- A swapped fragment was there before, or comes from the pattern of the pass. -/
theorem swapped_mem (pass : Pass index pattern blocked fragments fragments') {i : Nat} {p : Pattern}
    (hmem : swapped i p ∈ fragments') :
    swapped i p ∈ fragments ∨ i = index ∧ p = pattern := by
  induction pass with
  | nil => exact absurd hmem (by simp)
  | hit _ _ ih =>
      rcases List.mem_cons.mp hmem with heq | hmem
      · injection heq with hi hp
        exact Or.inr ⟨hi, hp⟩
      · exact (ih hmem).imp_left (List.mem_append_right _)
  | keep _ _ ih =>
      rcases List.mem_cons.mp hmem with heq | hmem
      · cases heq
      · exact (ih hmem).imp_left (List.mem_cons_of_mem _)
  | skip _ ih =>
      rcases List.mem_cons.mp hmem with heq | hmem
      · exact Or.inl (heq ▸ List.mem_cons_self)
      · exact (ih hmem).imp_left (List.mem_cons_of_mem _)

end Pass

/-! ## There is always a pass, and the scan makes it -/

/-- No token begins at a character that is no word character, so it does not
matter what comes before one. -/
theorem scan_of_head?_not_word {token : List Char} (edged : WordEdged token) {rest : List Char}
    (hhead : isWordAt rest.head? = false) (inWord : Bool) :
    scan token 0 inWord rest = scan token 0 true rest := by
  cases rest with
  | nil => rfl
  | cons c rest =>
      have hnot : startsWhole token (c :: rest) = false := by
        rw [← Bool.not_eq_true, startsWhole_iff]
        rintro ⟨after, htext, -⟩
        have hfirst := edged.first
        rw [← @List.head?_append_of_ne_nil _ token after edged.ne_nil, ← htext, hhead] at hfirst
        exact absurd hfirst (by simp)
      rw [scan_kept fun _ => hnot, scan_kept fun _ => hnot]

/-- A scan passes a replacement that the token cannot come back in, and takes
nothing of it. -/
theorem scan_replacement {token replacement rest : List Char} (edged : WordEdged token)
    (hsafe : ¬ Completable token replacement) (hhead : isWordAt rest.head? = false)
    (inWord : Bool) :
    scan token 0 inWord (replacement ++ rest) =
      replacement.map Piece.kept ++ scan token 0 true rest := by
  -- what was passed so far is `passed`; the scan stands behind it
  have key : ∀ (todo passed : List Char) (inWord : Bool), replacement = passed ++ todo →
      (passed ≠ [] → inWord = isWordAt passed.getLast?) →
      scan token 0 inWord (todo ++ rest) = todo.map Piece.kept ++ scan token 0 true rest := by
    intro todo
    induction todo with
    | nil => intro passed inWord _ _; exact scan_of_head?_not_word edged hhead inWord
    | cons c todo ih =>
        intro passed inWord hreplacement hinWord
        have hnot : inWord = false → startsWhole token (c :: (todo ++ rest)) = false := by
          intro hfalse
          rw [← Bool.not_eq_true, startsWhole_iff]
          rintro ⟨after, htext, hafter⟩
          have hpassed : isWordAt passed.getLast? = false := by
            rcases eq_or_ne passed [] with rfl | hne
            · rfl
            · rw [← hinWord hne, hfalse]
          have hpos := edged.length_pos
          refine hsafe ⟨[], rest, passed.length, rfl, hhead,
            (wholeAt_iff_split edged).mpr ⟨passed, after, ?_, rfl, hpassed, hafter⟩, ?_, ?_⟩
          · simp [hreplacement, htext]
          · simp [hreplacement]
          · simp only [List.length_nil]
            omega
        rw [List.cons_append, scan_kept hnot,
          ih (passed ++ [c]) (isWord c) (by simp [hreplacement]) (by simp)]
        rfl
  exact key replacement [] inWord rfl (by simp)

/-- If no replacement so far can bring the token back, an occurrence that the
scan would take consists of kept characters. -/
theorem exists_kept_run {token : List Char} (edged : WordEdged token) {blocked : Bool} {c : Char}
    {rest : List Fragment} (hseparated : Separated blocked (kept c :: rest))
    (hsafe : ∀ i p, swapped i p ∈ kept c :: rest → ¬ Completable token p.substitute)
    (hstarts : startsWhole token (target (kept c :: rest)) = true) :
    ∃ rest', kept c :: rest = token.map kept ++ rest' ∧ isWordAt (source rest').head? = false := by
  obtain ⟨after, htarget, hafter⟩ := startsWhole_iff.mp hstarts
  rcases kept_run_or_swapped htarget with ⟨rest', hrest, hmore⟩ | ⟨shorter, i, p, more, hrest, hlt⟩
  · refine ⟨rest', hrest, ?_⟩
    rw [hrest] at hseparated
    have hblocked := hseparated.append
    rw [blockedAfter_map_kept_token edged] at hblocked
    rw [← hblocked.head?_render Pattern.substitute, hmore]
    exact hafter
  · -- the occurrence would reach into a swapped fragment
    exfalso
    have hne : shorter ≠ [] := by
      rintro rfl
      cases hrest
    have hedges := hseparated
    rw [hrest] at hedges
    obtain ⟨hblocked, hhead, hmore⟩ := hedges.append
    rw [blockedAfter_map_kept, inWordAfter_of_ne_nil hne] at hblocked
    have htext : target (kept c :: rest) = shorter ++ p.substitute ++ target more := by
      simp [hrest]
    refine hsafe i p (by simp [hrest]) ⟨shorter, target more, 0, hblocked, ?_,
      (wholeAt_iff_split edged).mpr ⟨[], after, ?_, rfl, rfl, hafter⟩, ?_, by simpa using hlt⟩
    · rw [hmore.head?_render]
      exact hhead
    · rw [← htext, htarget]
      rfl
    · have hpos := List.length_pos_iff.mpr hne
      omega

theorem exists_pass (index : Nat) (pattern : Pattern) (blocked : Bool)
    (fragments : List Fragment) (hseparated : Separated blocked fragments)
    (hsafe : ∀ i p, swapped i p ∈ fragments → ¬ Completable pattern.token p.substitute) :
    ∃ fragments', Pass index pattern blocked fragments fragments' := by
  induction hlength : fragments.length using Nat.strongRecOn generalizing blocked fragments with
  | ind length ih =>
      subst hlength
      match fragments with
      | [] => exact ⟨[], .nil blocked⟩
      | swapped i p :: rest =>
          obtain ⟨rest', hpass⟩ := ih _ (by simp) true rest hseparated.2.2
            (fun j q hmem => hsafe j q (List.mem_cons_of_mem _ hmem)) rfl
          exact ⟨_, .skip hpass⟩
      | kept c :: rest =>
          by_cases hnot : blocked = false → startsWhole pattern.token (target (kept c :: rest)) = false
          · obtain ⟨rest', hpass⟩ := ih _ (by simp) (isWord c) rest hseparated
              (fun j q hmem => hsafe j q (List.mem_cons_of_mem _ hmem)) rfl
            exact ⟨_, .keep hnot hpass⟩
          · obtain ⟨rfl, hstarts⟩ : blocked = false ∧
                startsWhole pattern.token (target (kept c :: rest)) = true := by simpa using hnot
            obtain ⟨more, hmore, hhead⟩ :=
              exists_kept_run pattern.wordEdged hseparated hsafe hstarts
            rw [hmore] at hseparated hsafe ih ⊢
            have hrest := hseparated.append
            rw [blockedAfter_map_kept_token pattern.wordEdged] at hrest
            have hpos := pattern.wordEdged.length_pos
            obtain ⟨rest', hpass⟩ := ih _ (by simp; omega) true more hrest
              (fun j q hmem => hsafe j q (List.mem_append_right _ hmem)) rfl
            exact ⟨_, .hit hhead hpass⟩

/-- A pass is what the scan of the text so far makes of it. -/
theorem Pass.scan_eq {index : Nat} {pattern : Pattern} {blocked : Bool}
    {fragments fragments' : List Fragment} (pass : Pass index pattern blocked fragments fragments')
    (hseparated : Separated blocked fragments)
    (hsafe : ∀ i p, swapped i p ∈ fragments → ¬ Completable pattern.token p.substitute) :
    (scan pattern.token 0 blocked (target fragments)).flatMap
        (Piece.replaced pattern.substitute) = target fragments' ∧
      (scan pattern.token 0 blocked (target fragments)).countP Piece.isToken +
        swapCount fragments = swapCount fragments' := by
  induction pass with
  | nil => exact ⟨rfl, rfl⟩
  | @hit rest rest' hhead pass ih =>
      have hrest := hseparated.append
      rw [blockedAfter_map_kept_token pattern.wordEdged] at hrest
      obtain ⟨hreplaced, hcount⟩ := ih hrest fun j q hmem => hsafe j q (List.mem_append_right _ hmem)
      have hafter : isWordAt (target rest).head? = false := by
        rw [hrest.head?_render]
        exact hhead
      rw [target, render_append, render_map_kept, scan_token pattern.wordEdged hafter]
      constructor
      · simp [Piece.replaced, hreplaced]
      · simp only [List.countP_cons, Piece.isToken, if_true, swapCount_map_kept_append, swapCount]
        omega
  | @keep blocked c rest rest' hnot pass ih =>
      obtain ⟨hreplaced, hcount⟩ := ih hseparated fun j q hmem =>
        hsafe j q (List.mem_cons_of_mem _ hmem)
      rw [target, render_kept, scan_kept hnot]
      constructor
      · simp [Piece.replaced, hreplaced]
      · simpa [Piece.isToken, swapCount] using hcount
  | @skip blocked i p rest rest' pass ih =>
      obtain ⟨hreplaced, hcount⟩ := ih hseparated.2.2 fun j q hmem =>
        hsafe j q (List.mem_cons_of_mem _ hmem)
      have hafter : isWordAt (target rest).head? = false := by
        rw [hseparated.2.2.head?_render]
        exact hseparated.2.1
      rw [target, render_swapped,
        scan_replacement pattern.wordEdged (hsafe i p List.mem_cons_self) hafter]
      constructor
      · simp [List.flatMap_map, Piece.replaced, hreplaced]
      · have hnone : (p.substitute.map Piece.kept).countP Piece.isToken = 0 := by
          simp [List.countP_eq_zero, Piece.isToken]
        rw [List.countP_append, hnone]
        simp only [swapCount]
        omega

end Fragment

end EnumMigration
