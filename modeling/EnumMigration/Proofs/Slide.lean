import EnumMigration.Table.Slide
import EnumMigration.Proofs.WholeToken

/-!
# What the slide decides

A replacement is dangerous for a token when some text around it makes the token
come back: the surrounding text touches the replacement with no word character,
and the token stands whole in the concatenation, over at least one character of
the replacement (`Completion`).  That quantifies over all texts.  The slide
quantifies over finitely many offsets, and `completesToken_iff` says that the
two agree for every word-edged token.

The offset of an occurrence at `start` behind a left context is
`start - left.length`.  Conversely an offset that completes the token names its
own context: the part of the token that sticks out to the left, and the part
that sticks out to the right.
-/

namespace EnumMigration

/-- The token stands whole at `start` of a text that surrounds the replacement,
and has a character in common with it. -/
structure Completion (token replacement left right : List Char) (start : Nat) : Prop where
  left_edge : isWordAt left.getLast? = false
  right_edge : isWordAt right.head? = false
  whole : WholeAt token (left ++ replacement ++ right) start
  starts_before_end : start < left.length + replacement.length
  ends_after_start : left.length < start + token.length

/-- Some surrounding text makes the token come back around the replacement. -/
def Completable (token replacement : List Char) : Prop :=
  ∃ left right start, Completion token replacement left right start

/-! ## Positions of the slide -/

theorem mem_intRange {low high position : Int} :
    position ∈ intRange low high ↔ low ≤ position ∧ position < high := by
  simp only [intRange, List.mem_map, List.mem_range]
  constructor
  · rintro ⟨step, hstep, rfl⟩
    omega
  · rintro ⟨hlow, hhigh⟩
    exact ⟨(position - low).toNat, by omega, by omega⟩

theorem charAt_eq_getElem? {text : List Char} {position : Int} (index : Nat)
    (h : position = index) : charAt text position = text[index]? := by
  subst h
  rw [charAt, if_neg (by omega), Int.toNat_natCast]

/-- Token and replacement agree when every position of the replacement that the
token covers holds the token's character. -/
theorem Alignment.agrees_iff (alignment : Alignment) :
    alignment.agrees = true ↔
      ∀ position index : Nat, position < alignment.replacement.length →
        index < alignment.token.length → (position : Int) = alignment.offset + index →
        alignment.replacement[position]? = alignment.token[index]? := by
  simp only [Alignment.agrees, Alignment.overlap, Alignment.stop, List.all_eq_true, mem_intRange,
    beq_iff_eq]
  constructor
  · intro h position index hposition hindex hoffset
    have hagree := h position (by omega)
    rw [charAt_eq_getElem? position rfl, charAt_eq_getElem? index (by omega)] at hagree
    exact hagree
  · intro h position hposition
    have hagree := h position.toNat (position - alignment.offset).toNat (by omega) (by omega)
      (by omega)
    rw [charAt_eq_getElem? position.toNat (by omega),
      charAt_eq_getElem? ((position - alignment.offset).toNat) (by omega)]
    exact hagree

theorem Alignment.before_mk (token replacement : List Char) (offset : Int) :
    (Alignment.mk token replacement offset).before =
      if 0 < offset then charAt replacement (offset - 1)
      else if offset < 0 then charAt token (-offset - 1)
      else none := rfl

theorem Alignment.after_mk (token replacement : List Char) (offset : Int) :
    (Alignment.mk token replacement offset).after =
      if offset + token.length < replacement.length then
        charAt replacement (offset + token.length)
      else if (replacement.length : Int) < offset + token.length then
        charAt token (replacement.length - offset)
      else none := rfl

/-! ## From a context to an offset -/

section Context

theorem getElem?_left {left : List Char} (replacement right : List Char) {index : Nat}
    (h : index < left.length) :
    (left ++ replacement ++ right)[index]? = left[index]? := by
  rw [List.append_assoc, List.getElem?_append_left h]

theorem getElem?_middle (left : List Char) {replacement : List Char} (right : List Char)
    {index : Nat} (h : index < replacement.length) :
    (left ++ replacement ++ right)[left.length + index]? = replacement[index]? := by
  rw [List.append_assoc, List.getElem?_append_right (by omega), Nat.add_sub_cancel_left,
    List.getElem?_append_left h]

theorem getElem?_right (left replacement right : List Char) (index : Nat) :
    (left ++ replacement ++ right)[left.length + replacement.length + index]? = right[index]? := by
  rw [← List.length_append, List.getElem?_append_right (by omega), Nat.add_sub_cancel_left]

variable {token replacement left right : List Char} {start : Nat}

/-- An occurrence around the replacement is found at its own offset. -/
theorem Completion.completes (edged : WordEdged token)
    (completion : Completion token replacement left right start) :
    (Alignment.mk token replacement (start - left.length)).completes = true := by
  obtain ⟨hliteral, hopens, hcloses⟩ := (wholeAt_iff_getElem? edged).mp completion.whole
  have hlow := completion.starts_before_end
  have hhigh := completion.ends_after_start
  simp only [Alignment.completes, Bool.and_eq_true, Bool.not_eq_true']
  refine ⟨⟨(Alignment.agrees_iff _).mpr ?_, ?_⟩, ?_⟩
  · intro position index hposition hindex hoffset
    simp only at hposition hindex hoffset ⊢
    rw [← getElem?_middle left right hposition, ← hliteral index hindex]
    congr 1
    omega
  · rw [Alignment.before_mk]
    split
    · -- the token begins inside the replacement
      rw [charAt_eq_getElem? (start - left.length - 1) (by omega),
        ← getElem?_middle left right (by omega),
        show left.length + (start - left.length - 1) = start - 1 by omega]
      exact hopens (by omega)
    · split
      · -- the token begins in the left context, which ends in no word character
        rw [charAt_eq_getElem? (left.length - start - 1) (by omega),
          ← hliteral _ (by omega), show start + (left.length - start - 1) = left.length - 1 by omega,
          getElem?_left _ _ (by omega), ← List.getLast?_eq_getElem?]
        exact completion.left_edge
      · rfl
  · rw [Alignment.after_mk]
    split
    · -- the token ends inside the replacement
      rw [charAt_eq_getElem? (start + token.length - left.length) (by omega),
        ← getElem?_middle left right (by omega),
        show left.length + (start + token.length - left.length) = start + token.length by omega]
      exact hcloses
    · split
      · -- the token ends in the right context, which begins with no word character
        rw [charAt_eq_getElem? (left.length + replacement.length - start) (by omega),
          ← hliteral _ (by omega),
          show start + (left.length + replacement.length - start) =
            left.length + replacement.length + 0 by omega,
          getElem?_right, ← List.head?_eq_getElem?]
        exact completion.right_edge
      · rfl

/-- The slide comes by that offset. -/
theorem Completion.mem_slideOffsets (completion : Completion token replacement left right start) :
    (start - left.length : Int) ∈ slideOffsets token replacement := by
  have hlow := completion.starts_before_end
  have hhigh := completion.ends_after_start
  rw [slideOffsets, mem_intRange]
  omega

end Context

/-! ## From an offset to a context -/

section Offset

variable {token replacement : List Char} {offset : Int}

/-- Where the token agrees with the replacement, it can be read off between what
sticks out on either side. -/
theorem getElem?_of_agrees (hmem : offset ∈ slideOffsets token replacement)
    (hagrees : (Alignment.mk token replacement offset).agrees = true) {index : Nat}
    (hindex : index < token.length) :
    (token.take (-offset).toNat ++ replacement ++
      token.drop (replacement.length - offset).toNat)[offset.toNat + index]? = token[index]? := by
  rw [slideOffsets, mem_intRange] at hmem
  have hleft : (token.take (-offset).toNat).length = (-offset).toNat :=
    List.length_take_of_le (by omega)
  -- left of the replacement, in it, and right of it
  rcases Nat.lt_or_ge (offset.toNat + index) (-offset).toNat with hin | hin
  · rw [getElem?_left _ _ (by omega), List.getElem?_take_of_lt hin]
    congr 1
    omega
  · rcases Nat.lt_or_ge (offset.toNat + index) ((-offset).toNat + replacement.length) with
      hmid | hmid
    · have hposition : offset.toNat + index =
          (token.take (-offset).toNat).length + (offset + index).toNat := by omega
      rw [hposition, getElem?_middle _ _ (by omega)]
      exact (Alignment.agrees_iff _).mp hagrees _ _ (show _ < replacement.length by omega) hindex
        (show _ = offset + (index : Int) by omega)
    · have hposition : offset.toNat + index = (token.take (-offset).toNat).length +
          replacement.length + (index - (replacement.length - offset).toNat) := by omega
      rw [hposition, getElem?_right, List.getElem?_drop]
      congr 1
      omega

/-- An offset that completes the token is completed by what sticks out of the
replacement on either side. -/
theorem completion_of_completes (edged : WordEdged token)
    (hmem : offset ∈ slideOffsets token replacement)
    (hcompletes : (Alignment.mk token replacement offset).completes = true) :
    Completion token replacement (token.take (-offset).toNat)
      (token.drop (replacement.length - offset).toNat) offset.toNat := by
  simp only [Alignment.completes, Bool.and_eq_true, Bool.not_eq_true', Alignment.before_mk,
    Alignment.after_mk] at hcompletes
  obtain ⟨⟨hagrees, hbefore⟩, hafter⟩ := hcompletes
  have hread := fun index => @getElem?_of_agrees token replacement offset hmem hagrees index
  rw [slideOffsets, mem_intRange] at hmem
  have hleft : (token.take (-offset).toNat).length = (-offset).toNat :=
    List.length_take_of_le (by omega)
  refine ⟨?_, ?_, (wholeAt_iff_getElem? edged).mpr ⟨?_, ?_, ?_⟩, by omega, by omega⟩
  · -- the last character that sticks out on the left
    rw [List.getLast?_eq_getElem?, hleft]
    by_cases hneg : offset < 0
    · rw [if_neg (by omega), if_pos hneg,
        charAt_eq_getElem? ((-offset).toNat - 1) (by omega)] at hbefore
      rw [List.getElem?_take_of_lt (by omega)]
      exact hbefore
    · rw [show (-offset).toNat = 0 by omega]
      rfl
  · -- the first character that sticks out on the right
    rw [List.head?_drop]
    by_cases hlong : (replacement.length : Int) < offset + token.length
    · rw [if_neg (by omega), if_pos hlong,
        charAt_eq_getElem? ((replacement.length - offset).toNat) (by omega)] at hafter
      exact hafter
    · rw [List.getElem?_eq_none (by omega)]
      rfl
  · exact hread
  · intro hpos
    rw [if_pos (by omega), charAt_eq_getElem? (offset.toNat - 1) (by omega)] at hbefore
    rw [show offset.toNat - 1 = (token.take (-offset).toNat).length + (offset.toNat - 1) by omega,
      getElem?_middle _ _ (by omega)]
    exact hbefore
  · by_cases hshort : offset + token.length < replacement.length
    · rw [if_pos hshort,
        charAt_eq_getElem? ((offset + token.length).toNat) (by omega)] at hafter
      rw [show offset.toNat + token.length =
          (token.take (-offset).toNat).length + (offset + token.length).toNat by omega,
        getElem?_middle _ _ (by omega)]
      exact hafter
    · rw [List.getElem?_eq_none (by simp only [List.length_append, List.length_drop]; omega)]
      rfl

end Offset

/-- The slide decides whether some surrounding text completes the token. -/
theorem completesToken_iff {token : List Char} (edged : WordEdged token)
    (replacement : List Char) :
    completesToken token replacement = true ↔ Completable token replacement := by
  rw [completesToken, List.any_eq_true]
  constructor
  · rintro ⟨offset, hmem, hcompletes⟩
    exact ⟨_, _, _, completion_of_completes edged hmem hcompletes⟩
  · rintro ⟨left, right, start, completion⟩
    exact ⟨start - left.length, completion.mem_slideOffsets, completion.completes edged⟩

/-- A replacement that holds the token by itself completes it without any
context. -/
theorem Completable.of_holdsWhole {token replacement : List Char} (edged : WordEdged token)
    (h : HoldsWhole token replacement) : Completable token replacement := by
  obtain ⟨start, hwhole⟩ := h
  obtain ⟨before, after, htext, hstart, -⟩ := (wholeAt_iff_split edged).mp hwhole
  have hlength := congrArg List.length htext
  have hpos := edged.length_pos
  simp only [List.length_append] at hlength
  exact ⟨[], [], start, rfl, rfl, by simpa using hwhole, by simp; omega, by simp; omega⟩

end EnumMigration
