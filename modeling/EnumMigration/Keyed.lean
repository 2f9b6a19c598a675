/-!
# Lists of pairs

A list of pairs serves as a finite map: a key stands for the value in its first pair.  Setting a key
changes what this key stands for, and nothing else.
-/

namespace EnumMigration

variable {α β : Type} [BEq α]

/-- Pairs with one key set. -/
def setKey (pairs : List (α × β)) (key : α) (value : β) : List (α × β) :=
  (key, value) :: pairs.filter fun pair => pair.1 != key

/-- Without the pairs of one key, every other key stands for the same value. -/
theorem lookup_filter_ne [LawfulBEq α] {key other : α} (hne : other ≠ key) (pairs : List (α × β)) :
    (pairs.filter fun pair => pair.1 != key).lookup other = pairs.lookup other := by
  induction pairs with
  | nil => rfl
  | cons pair rest ih =>
    obtain ⟨first, value⟩ := pair
    by_cases hkey : first = key
    · subst hkey
      have hfirst : (other == first) = false := by simpa using hne
      simp [List.lookup_cons, hfirst, ih]
    · simp [List.lookup_cons, hkey, ih]

/-- Setting a key changes exactly this key. -/
theorem lookup_setKey [LawfulBEq α] (pairs : List (α × β)) (key other : α) (value : β) :
    (setKey pairs key value).lookup other = if other == key then some value else pairs.lookup other := by
  unfold setKey
  split
  · rename_i heq
    simp [List.lookup_cons, heq]
  · rename_i hne
    have hother : other ≠ key := by simpa using hne
    simp [List.lookup_cons, hne, lookup_filter_ne hother]

end EnumMigration
