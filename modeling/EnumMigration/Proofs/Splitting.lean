import Mathlib.Data.List.Basic

/-!
# Splitting and joining

What the library does not say about splitting a list at a separator and joining
pieces with it.  No piece contains the separator, and there is one piece more
than there are separators.  Every piece stands in what they are joined to, and
joining can be done in two parts.
-/

namespace EnumMigration

variable {separator : Char}

theorem not_mem_of_mem_splitOn {text piece : List Char}
    (h : piece ∈ text.splitOn separator) : separator ∉ piece := by
  induction text generalizing piece with
  | nil => simp_all [List.splitOn_nil]
  | cons c text ih =>
      obtain ⟨first, pieces, hsplit⟩ :=
        List.exists_cons_of_ne_nil (List.splitOn_ne_nil separator text)
      rw [hsplit] at ih
      rw [List.splitOn_cons_eq_if_modifyHead, hsplit] at h
      by_cases hc : c = separator
      · rw [if_pos (by simpa using hc), List.mem_cons] at h
        rcases h with rfl | h
        · exact List.not_mem_nil
        · exact ih h
      · rw [if_neg (by simpa using hc), List.modifyHead_cons, List.mem_cons] at h
        rcases h with rfl | h
        · rw [List.mem_cons, not_or]
          exact ⟨Ne.symm hc, ih List.mem_cons_self⟩
        · exact ih (List.mem_cons_of_mem _ h)

theorem length_splitOn (separator : Char) (text : List Char) :
    (text.splitOn separator).length = text.count separator + 1 := by
  induction text with
  | nil => rfl
  | cons c text ih =>
      rw [List.splitOn_cons_eq_if_modifyHead, List.count_cons]
      split
      · rw [List.length_cons, ih]
      · rw [List.length_modifyHead, ih]

/-- Joining with a single character puts it between the pieces. -/
theorem intercalate_cons_cons (separator : Char) (piece next : List Char)
    (rest : List (List Char)) : [separator].intercalate (piece :: next :: rest) =
      piece ++ separator :: [separator].intercalate (next :: rest) := by
  rw [List.intercalate_cons_cons, List.append_assoc, List.singleton_append]

theorem intercalate_append_cons (separator : Char) {first : List (List Char)} (hne : first ≠ [])
    (piece : List Char) (rest : List (List Char)) :
    [separator].intercalate (first ++ piece :: rest) =
      [separator].intercalate first ++ separator :: [separator].intercalate (piece :: rest) := by
  induction first with
  | nil => exact absurd rfl hne
  | cons head first ih =>
      cases first with
      | nil => rw [List.singleton_append, intercalate_cons_cons, List.intercalate_singleton]
      | cons next first =>
          have hrest := ih (by simp)
          rw [List.cons_append] at hrest
          rw [List.cons_append, List.cons_append, intercalate_cons_cons, hrest,
            intercalate_cons_cons, List.append_assoc, List.cons_append]

/-- Every piece stands in what they are joined to. -/
theorem infix_intercalate_of_mem {pieces : List (List Char)} {piece : List Char}
    (h : piece ∈ pieces) : piece <:+: [separator].intercalate pieces := by
  obtain ⟨before, after, rfl⟩ := List.append_of_mem h
  have hpiece : piece <:+: [separator].intercalate (piece :: after) := by
    cases after with
    | nil => simp
    | cons next after =>
        rw [intercalate_cons_cons]
        exact (List.prefix_append piece _).isInfix
  by_cases hbefore : before = []
  · rw [hbefore]
    exact hpiece
  · rw [intercalate_append_cons separator hbefore]
    exact hpiece.trans ((List.suffix_cons separator _).trans (List.suffix_append _ _)).isInfix

end EnumMigration
