import Mathlib.Data.List.Basic
import EnumMigration.Pattern.Scan

/-!
# Whole tokens

A whole-token occurrence is said here without any scan: the token stands
literally at a position, and a word begins or ends on either side of it
(`WholeAt`).  A legacy token has word characters at both edges, so this means
that neither neighbour is a word character.  `wholeAt_iff_split` and
`wholeAt_iff_getElem?` say so for the two views of a text, as a concatenation
and by position.

The scan of a pattern takes an occurrence exactly where there is one:

* `scan_token` and `scan_kept` are the only two steps of a scan, and
  `scan_induction` is the induction that they give;
* `Pattern.occursIn_iff` says that a scan finds an occurrence if there is any;
* `Pattern.replaceAll_eq_self` and `Pattern.hits_eq_zero_iff` say that a text
  without an occurrence passes through.
-/

namespace EnumMigration

/-! ## Boundaries and occurrences -/

/-- Whether a word begins or ends at a position: exactly one of the two
characters that meet there is a word character. -/
def isBoundary (text : List Char) (position : Nat) : Bool :=
  isWordAt (text.take position).getLast? != isWordAt (text.drop position).head?

/-- The token stands at position `start` of the text, with a boundary at
either end. -/
structure WholeAt (token text : List Char) (start : Nat) : Prop where
  literal : token <+: text.drop start
  opens : isBoundary text start = true
  closes : isBoundary text (start + token.length) = true

/-- The text has a whole-token occurrence somewhere. -/
def HoldsWhole (token text : List Char) : Prop := ∃ start, WholeAt token text start

/-- The first and the last character of a token are word characters. -/
structure WordEdged (token : List Char) : Prop where
  first : isWordAt token.head? = true
  last : isWordAt token.getLast? = true

section Occurrences

variable {token text : List Char}

theorem WordEdged.ne_nil (edged : WordEdged token) : token ≠ [] := by
  rintro rfl
  exact absurd edged.first (by simp)

theorem WordEdged.length_pos (edged : WordEdged token) : 0 < token.length :=
  List.length_pos_iff.mpr edged.ne_nil

/-- A boundary between two texts is decided by the characters that meet. -/
theorem isBoundary_append (before after : List Char) :
    isBoundary (before ++ after) before.length =
      (isWordAt before.getLast? != isWordAt after.head?) := by
  simp [isBoundary]

/-- An occurrence of a word-edged token, taken out of the text: neither
neighbour is a word character. -/
theorem wholeAt_iff_split (edged : WordEdged token) {start : Nat} :
    WholeAt token text start ↔
      ∃ before after, text = before ++ (token ++ after) ∧ before.length = start ∧
        isWordAt before.getLast? = false ∧ isWordAt after.head? = false := by
  -- both boundaries of a decomposed text, with the word edges put in
  have hopens : ∀ before after : List Char,
      isBoundary (before ++ (token ++ after)) before.length = !isWordAt before.getLast? := by
    intro before after
    rw [isBoundary_append, List.head?_append_of_ne_nil _ edged.ne_nil, edged.first]
    simp
  have hcloses : ∀ before after : List Char,
      isBoundary (before ++ (token ++ after)) (before.length + token.length) =
        !isWordAt after.head? := by
    intro before after
    have h := isBoundary_append (before ++ token) after
    rw [List.append_assoc, List.length_append] at h
    rw [h, List.getLast?_append_of_ne_nil before edged.ne_nil, edged.last]
    simp
  constructor
  · rintro ⟨⟨after, hafter⟩, hopen, hclose⟩
    have hlt : start < text.length := by
      have hlength := congrArg List.length hafter
      have hpos := edged.length_pos
      simp only [List.length_append, List.length_drop] at hlength
      omega
    have htake : (text.take start).length = start := List.length_take_of_le (Nat.le_of_lt hlt)
    have htext : text = text.take start ++ (token ++ after) := by
      rw [hafter, List.take_append_drop]
    refine ⟨text.take start, after, htext, htake, ?_, ?_⟩
    · have h := hopens (text.take start) after
      rw [← htext, htake, hopen] at h
      simpa using h.symm
    · have h := hcloses (text.take start) after
      rw [← htext, htake, hclose] at h
      simpa using h.symm
  · rintro ⟨before, after, rfl, rfl, hbefore, hafter⟩
    refine ⟨⟨after, by simp⟩, ?_, ?_⟩
    · rw [hopens, hbefore]
      rfl
    · rw [hcloses, hafter]
      rfl

theorem holdsWhole_iff_split (edged : WordEdged token) :
    HoldsWhole token text ↔
      ∃ before after, text = before ++ (token ++ after) ∧
        isWordAt before.getLast? = false ∧ isWordAt after.head? = false := by
  constructor
  · rintro ⟨start, hwhole⟩
    obtain ⟨before, after, htext, -, hedges⟩ := (wholeAt_iff_split edged).mp hwhole
    exact ⟨before, after, htext, hedges⟩
  · rintro ⟨before, after, htext, hedges⟩
    exact ⟨before.length, (wholeAt_iff_split edged).mpr ⟨before, after, htext, rfl, hedges⟩⟩

/-- The same occurrence by position: the token is read off from `start` on, and
neither neighbour is a word character. -/
theorem wholeAt_iff_getElem? (edged : WordEdged token) {start : Nat} :
    WholeAt token text start ↔
      (∀ index < token.length, text[start + index]? = token[index]?) ∧
        (0 < start → isWordAt text[start - 1]? = false) ∧
        isWordAt text[start + token.length]? = false := by
  rw [wholeAt_iff_split edged]
  constructor
  · rintro ⟨before, after, rfl, rfl, hbefore, hafter⟩
    refine ⟨?_, ?_, ?_⟩
    · intro index hindex
      rw [List.getElem?_append_right (by omega), List.getElem?_append_left (by omega)]
      simp
    · intro hpos
      rw [List.getElem?_append_left (by omega), ← List.getLast?_eq_getElem?]
      exact hbefore
    · rw [List.getElem?_append_right (by omega), List.getElem?_append_right (by omega)]
      simpa [List.head?_eq_getElem?] using hafter
  · rintro ⟨hliteral, hopens, hcloses⟩
    have hdrop : token <+: text.drop start := by
      rw [List.prefix_iff_getElem?]
      intro index hindex
      rw [List.getElem?_drop, hliteral index hindex, List.getElem?_eq_getElem hindex]
    obtain ⟨after, hafter⟩ := hdrop
    have hlength := congrArg List.length hafter
    have hpos := edged.length_pos
    simp only [List.length_append, List.length_drop] at hlength
    have htake : (text.take start).length = start := List.length_take_of_le (by omega)
    refine ⟨text.take start, after, by rw [hafter, List.take_append_drop], htake, ?_, ?_⟩
    · rw [List.getLast?_eq_getElem?, htake]
      rcases Nat.eq_zero_or_pos start with rfl | hstart
      · simp
      · rw [List.getElem?_take_of_lt (by omega)]
        exact hopens hstart
    · have hhead : after.head? = text[start + token.length]? := by
        rw [← List.getElem?_drop, ← hafter, List.getElem?_append_right (by omega)]
        simp [List.head?_eq_getElem?]
      rw [hhead]
      exact hcloses

/-- An occurrence never reaches over a character that the token does not have:
if that character is no word character, the texts on either side of it can be
searched one by one. -/
theorem holdsWhole_append_cons (edged : WordEdged token) {separator : Char}
    (hword : isWord separator = false) (hnot : separator ∉ token) (left right : List Char) :
    HoldsWhole token (left ++ separator :: right) ↔
      HoldsWhole token left ∨ HoldsWhole token right := by
  simp only [holdsWhole_iff_split edged]
  constructor
  · rintro ⟨before, after, htext, hbefore, hafter⟩
    rcases List.append_eq_append_iff.mp htext with ⟨more, hmore, hrest⟩ | ⟨more, hmore, hrest⟩
    · -- the separator comes before the token, so the occurrence lies on the right
      cases more with
      | nil =>
          obtain ⟨c, tail, htoken⟩ := List.exists_cons_of_ne_nil edged.ne_nil
          rw [htoken] at hrest
          injection hrest with hc _
          exact absurd (hc ▸ htoken ▸ List.mem_cons_self ..) hnot
      | cons c more =>
          injection hrest with hc hright
          refine Or.inr ⟨more, after, hright, ?_, hafter⟩
          cases hempty : more.getLast? with
          | none => rfl
          | some d =>
              rw [hmore, List.getLast?_append, List.getLast?_cons, hempty] at hbefore
              simpa using hbefore
    · -- the token begins before the separator, so it also ends there
      rcases List.append_eq_append_iff.mp hrest with ⟨gap, hgap, hright⟩ | ⟨gap, hgap, hright⟩
      · refine Or.inl ⟨before, gap, by rw [hmore, hgap], hbefore, ?_⟩
        cases gap with
        | nil => rfl
        | cons c gap =>
            rw [hright] at hafter
            exact hafter
      · cases gap with
        | nil =>
            refine Or.inl ⟨before, [], by rw [hmore, hgap]; simp, hbefore, rfl⟩
        | cons c gap =>
            injection hright with hc _
            exact absurd (hc ▸ hgap ▸ by simp) hnot
  · rintro (⟨before, after, rfl, hbefore, hafter⟩ | ⟨before, after, rfl, hbefore, hafter⟩)
    · refine ⟨before, after ++ separator :: right, by simp, hbefore, ?_⟩
      cases after with
      | nil => exact hword
      | cons c after => exact hafter
    · refine ⟨left ++ separator :: before, after, by simp, ?_, hafter⟩
      cases hempty : before.getLast? with
      | none => simpa [List.getLast?_cons, hempty] using hword
      | some d => simpa [List.getLast?_cons, hempty] using hbefore

end Occurrences

/-! ## The two steps of a scan -/

/-- Whether a text that follows `inWord` leaves a scan right after a word
character. -/
def inWordAfter : (inWord : Bool) → List Char → Bool
  | inWord, [] => inWord
  | _, c :: rest => inWordAfter (isWord c) rest

@[simp] theorem inWordAfter_nil (inWord : Bool) : inWordAfter inWord [] = inWord := rfl

@[simp] theorem inWordAfter_cons (inWord : Bool) (c : Char) (rest : List Char) :
    inWordAfter inWord (c :: rest) = inWordAfter (isWord c) rest := rfl

/-- Behind a text that is not empty, only its last character counts. -/
theorem inWordAfter_of_ne_nil {text : List Char} (hne : text ≠ []) (inWord : Bool) :
    inWordAfter inWord text = isWordAt text.getLast? := by
  induction text generalizing inWord with
  | nil => exact absurd rfl hne
  | cons c rest ih =>
      cases rest with
      | nil => rfl
      | cons d rest =>
          rw [inWordAfter_cons, ih (by simp), List.getLast?_cons_cons]

/-- A text by itself begins outside of any word. -/
theorem inWordAfter_false (text : List Char) :
    inWordAfter false text = isWordAt text.getLast? := by
  cases text with
  | nil => rfl
  | cons c rest => exact inWordAfter_of_ne_nil (by simp) false

section Scans

variable {token : List Char}

theorem startsWhole_iff {text : List Char} :
    startsWhole token text = true ↔ ∃ after, text = token ++ after ∧ isWordAt after.head? = false := by
  rw [startsWhole, Bool.and_eq_true, List.isPrefixOf_iff_prefix, Bool.not_eq_true']
  constructor
  · rintro ⟨⟨after, rfl⟩, hafter⟩
    rw [List.drop_left] at hafter
    exact ⟨after, rfl, hafter⟩
  · rintro ⟨after, rfl, hafter⟩
    rw [List.drop_left]
    exact ⟨List.prefix_append token after, hafter⟩

/-- The characters of an occurrence that is already taken leave no piece. -/
theorem scan_skip (taken rest : List Char) (inWord : Bool) :
    scan token taken.length inWord (taken ++ rest) =
      scan token 0 (inWordAfter inWord taken) rest := by
  induction taken generalizing inWord with
  | nil => rfl
  | cons c taken ih =>
      rw [List.length_cons, List.cons_append, scan, ih]
      rfl

/-- An occurrence outside of a word is taken as one piece. -/
theorem scan_token (edged : WordEdged token) {after : List Char}
    (hafter : isWordAt after.head? = false) :
    scan token 0 false (token ++ after) = .token :: scan token 0 true after := by
  have hstarts : startsWhole token (token ++ after) = true :=
    startsWhole_iff.mpr ⟨after, rfl, hafter⟩
  obtain ⟨c, tail, htoken⟩ := List.exists_cons_of_ne_nil edged.ne_nil
  have hlength : token.length - 1 = tail.length := by rw [htoken]; rfl
  have hlast : inWordAfter (isWord c) tail = true := by
    have h := inWordAfter_of_ne_nil edged.ne_nil false
    rw [edged.last, htoken] at h
    exact h
  have htext : token ++ after = c :: (tail ++ after) := by rw [htoken]; rfl
  rw [htext] at hstarts ⊢
  rw [scan, hstarts, hlength, scan_skip, hlast]
  rfl

/-- Any other character is kept. -/
theorem scan_kept {inWord : Bool} {c : Char} {rest : List Char}
    (hnot : inWord = false → startsWhole token (c :: rest) = false) :
    scan token 0 inWord (c :: rest) = .kept c :: scan token 0 (isWord c) rest := by
  rw [scan]
  split
  · rename_i htake
    rw [Bool.and_eq_true, Bool.not_eq_true'] at htake
    rw [hnot htake.1] at htake
    exact absurd htake.2 Bool.false_ne_true
  · rfl

/-- Where a character is kept, an occurrence can only begin behind it. -/
theorem eq_cons_of_kept {inWord : Bool} {c : Char} {rest before after : List Char}
    (hnot : inWord = false → startsWhole token (c :: rest) = false)
    (htext : c :: rest = before ++ (token ++ after)) (hbefore : inWordAfter inWord before = false)
    (hafter : isWordAt after.head? = false) :
    ∃ behind, before = c :: behind ∧ rest = behind ++ (token ++ after) := by
  cases before with
  | nil =>
      have hstarts := startsWhole_iff.mpr ⟨after, htext, hafter⟩
      rw [hnot hbefore] at hstarts
      cases hstarts
  | cons d behind =>
      injection htext with hc hrest
      exact ⟨behind, by rw [hc], hrest⟩

/-- The induction that follows a scan: an occurrence is passed in one step, any
other character by itself. -/
theorem scan_induction (edged : WordEdged token) {motive : Bool → List Char → Prop}
    (nil : ∀ inWord, motive inWord [])
    (hit : ∀ after, isWordAt after.head? = false → motive true after →
      motive false (token ++ after))
    (keep : ∀ inWord c rest, (inWord = false → startsWhole token (c :: rest) = false) →
      motive (isWord c) rest → motive inWord (c :: rest)) :
    ∀ inWord text, motive inWord text := by
  intro inWord text
  induction hlength : text.length using Nat.strongRecOn generalizing inWord text with
  | ind length ih =>
      subst hlength
      cases text with
      | nil => exact nil inWord
      | cons c rest =>
          by_cases hnot : inWord = false → startsWhole token (c :: rest) = false
          · exact keep inWord c rest hnot (ih _ (by simp) _ _ rfl)
          · obtain ⟨rfl, hstarts⟩ : inWord = false ∧ startsWhole token (c :: rest) = true := by
              simpa using hnot
            obtain ⟨after, htext, hafter⟩ := startsWhole_iff.mp hstarts
            rw [htext]
            have hshort : after.length < (c :: rest).length := by
              have hpos := edged.length_pos
              rw [htext, List.length_append]
              omega
            exact hit after hafter (ih _ hshort _ _ rfl)

/-- A scan that begins behind `inWord` takes an occurrence if and only if there
is one to take. -/
theorem any_isToken_scan_iff (edged : WordEdged token) (inWord : Bool) (text : List Char) :
    (scan token 0 inWord text).any Piece.isToken = true ↔
      ∃ before after, text = before ++ (token ++ after) ∧ inWordAfter inWord before = false ∧
        isWordAt after.head? = false := by
  induction inWord, text using scan_induction edged with
  | nil inWord =>
      constructor
      · intro h
        exact absurd h (by simp [scan])
      · rintro ⟨before, after, htext, -⟩
        have hnil : token = [] := by simp_all
        exact absurd hnil edged.ne_nil
  | hit after hafter _ =>
      rw [scan_token edged hafter]
      exact iff_of_true rfl ⟨[], after, rfl, rfl, hafter⟩
  | keep inWord c rest hnot ih =>
      rw [scan_kept hnot, List.any_cons]
      simp only [Piece.isToken, Bool.false_or, ih]
      constructor
      · rintro ⟨before, after, rfl, hedges⟩
        exact ⟨c :: before, after, rfl, hedges⟩
      · rintro ⟨before, after, htext, hbefore, hafter⟩
        obtain ⟨behind, rfl, hrest⟩ := eq_cons_of_kept hnot htext hbefore hafter
        exact ⟨behind, after, hrest, hbefore, hafter⟩

/-- A scan that takes nothing keeps everything. -/
theorem scan_eq_map_kept {inWord : Bool} {text : List Char}
    (hnone : (scan token 0 inWord text).any Piece.isToken = false) :
    scan token 0 inWord text = text.map .kept := by
  induction text generalizing inWord with
  | nil => rfl
  | cons c rest ih =>
      rw [scan] at hnone ⊢
      split at hnone
      · simp [Piece.isToken] at hnone
      · rename_i hnot
        rw [if_neg hnot, ih (by simpa [Piece.isToken] using hnone)]
        rfl

end Scans

/-! ## Usable entries -/

/-- The code points of the blanks. -/
def blankCodes : List Nat :=
  List.range' 0x09 5 ++ [0x20, 0x85, 0xA0, 0x1680] ++ List.range' 0x2000 11 ++
    [0x2028, 0x2029, 0x202F, 0x205F, 0x3000]

theorem toNat_mem_blankCodes {c : Char} (h : isBlank c = true) : c.toNat ∈ blankCodes := by
  simp only [isBlank, Bool.or_eq_true, Bool.and_eq_true, decide_eq_true_eq, beq_iff_eq] at h
  simp only [blankCodes, List.mem_append, List.mem_range'_1, List.mem_cons, List.not_mem_nil]
  omega

/-- No blank is a word character. -/
theorem isWord_of_isBlank {c : Char} (h : isBlank c = true) : isWord c = false := by
  have hcodes : ∀ code ∈ blankCodes, isWord (Char.ofNat code) = false := by decide +kernel
  have hc := hcodes c.toNat (toNat_mem_blankCodes h)
  rwa [Char.ofNat_toNat] at hc

/-- What an entry needs to serve as a pattern. -/
structure PatternEntry.Usable (entry : PatternEntry) : Prop where
  edged : WordEdged entry.legacy.toList
  no_newline : '\n' ∉ entry.legacy.toList
  no_return : '\r' ∉ entry.legacy.toList
  replacement_ne : entry.replacement ≠ ""

/-- The checks of an entry ask for exactly this.  The check for a blank token
is implied: a blank is no word character. -/
theorem PatternEntry.fault?_eq_none_iff (entry : PatternEntry) :
    entry.fault? = none ↔ entry.Usable := by
  constructor
  · intro h
    simp only [PatternEntry.fault?] at h
    split at h <;> try contradiction
    split at h <;> try contradiction
    rename_i hedges
    split at h <;> try contradiction
    rename_i hbreak
    split at h <;> try contradiction
    rename_i hempty
    simp only [Bool.not_eq_true', Bool.not_eq_false, Bool.and_eq_true] at hedges
    simp only [Bool.or_eq_true, List.contains_iff_mem, not_or] at hbreak
    exact ⟨⟨hedges.1, hedges.2⟩, hbreak.1, hbreak.2, by simpa using hempty⟩
  · rintro ⟨edged, hnewline, hreturn, hreplacement⟩
    have hblank : isBlankText entry.legacy.toList = false := by
      cases htoken : entry.legacy.toList with
      | nil => exact absurd htoken edged.ne_nil
      | cons c rest =>
          have hfirst : isWord c = true := by simpa [htoken] using edged.first
          have hc : isBlank c = false := by
            cases hc : isBlank c with
            | false => rfl
            | true => rw [isWord_of_isBlank hc] at hfirst; cases hfirst
          simp [isBlankText, hc]
    simp [PatternEntry.fault?, hblank, edged.first, edged.last, hnewline, hreturn, hreplacement]

/-! ## What a pattern does to a text without an occurrence -/

namespace Pattern

theorem isUsable (pattern : Pattern) : pattern.toPatternEntry.Usable :=
  (PatternEntry.fault?_eq_none_iff _).mp pattern.usable

theorem wordEdged (pattern : Pattern) : WordEdged pattern.token := pattern.isUsable.edged

theorem substitute_ne_nil (pattern : Pattern) : pattern.substitute ≠ [] := by
  simpa [substitute] using pattern.isUsable.replacement_ne

theorem occursIn_iff (pattern : Pattern) (text : List Char) :
    pattern.occursIn text = true ↔ HoldsWhole pattern.token text := by
  rw [occursIn, pieces, any_isToken_scan_iff pattern.wordEdged,
    holdsWhole_iff_split pattern.wordEdged]
  simp only [inWordAfter_false]

theorem hits_eq_zero_iff (pattern : Pattern) (text : List Char) :
    pattern.hits text = 0 ↔ ¬ HoldsWhole pattern.token text := by
  rw [← occursIn_iff, hits, occursIn, List.countP_eq_zero, List.any_eq_true]
  simp

/-- Without an occurrence nothing is replaced. -/
theorem replaceAll_eq_self {pattern : Pattern} {text : List Char}
    (hnone : ¬ HoldsWhole pattern.token text) : pattern.replaceAll text = text := by
  rw [← occursIn_iff, Bool.not_eq_true] at hnone
  rw [replaceAll, pieces, scan_eq_map_kept hnone, List.flatMap_map]
  simp [Piece.replaced]

end Pattern

end EnumMigration
