import EnumMigration.Json.Token

/-!
# Tokens are read as they were written

Tokens are written in two layouts, and the reader passes over the blanks of either.
What the reader needs is said by `Spells`: the texts of the tokens stand one behind
the other, blanks stand anywhere between them, and what follows a number does not go
on with it.

## Strategy

`tokens_of_spells` is the reading half, by induction on `Spells`; the cases of one token
are strings, whose escapes are undone character by character, and numbers, which end
where their digits end.  The writing half asks of a list of tokens that no two numbers
stand next to each other (`Legible`).  Then both layouts spell the list.
-/

namespace EnumMigration.Json

/-! ## Numbers -/

/-- Whether a text goes on with a number that ends before it. -/
def goesOn (text : List Char) : Bool :=
  text.head?.any fun c => c.isDigit || c == '.' || c == 'e' || c == 'E'

theorem digitsValue_eq (digits : List Char) : digitsValue digits = Nat.ofDigitChars 10 digits 0 :=
  Nat.ofDigitChars_eq_foldl.symm

theorem digitsValue_toDigits (n : Nat) : digitsValue (Nat.toDigits 10 n) = n := by
  rw [digitsValue_eq]
  exact Nat.ofDigitChars_ten_toDigits

/-- Only zero is written with a zero in front. -/
theorem head?_toDigits_ne (n : Nat) (hpos : 0 < n) : (Nat.toDigits 10 n).head? ≠ some '0' := by
  induction n using Nat.strongRecOn with
  | ind n ih =>
      rw [Nat.toDigits_eq_if (by decide)]
      split
      · intro hhead
        have hdigit : n.digitChar = '0' := Option.some.inj hhead
        exact absurd (Nat.digitChar_eq_zero.mp hdigit) (Nat.ne_of_gt hpos)
      · rename_i hlarge
        have hfirst := ih (n / 10) (by omega) (by omega)
        rw [List.head?_append]
        cases hhead : (Nat.toDigits 10 (n / 10)).head? with
        | none => exact absurd (List.head?_eq_none_iff.mp hhead) Nat.toDigits_ne_nil
        | some c => rwa [hhead] at hfirst

theorem digitRun?_append {digits rest : List Char} (hne : digits ≠ [])
    (hdigits : ∀ c ∈ digits, c.isDigit = true) (hrest : rest.head?.any Char.isDigit = false) :
    Numeral.digitRun? (digits ++ rest) = some (digits, rest) := by
  have hstop : rest.takeWhile Char.isDigit = [] ∧ rest.dropWhile Char.isDigit = rest := by
    cases rest with
    | nil => exact ⟨rfl, rfl⟩
    | cons c rest =>
        have hc : c.isDigit = false := by simpa using hrest
        simp [hc]
  unfold Numeral.digitRun?
  rw [List.takeWhile_append_of_pos hdigits, List.dropWhile_append_of_pos hdigits, hstop.1, hstop.2,
    List.append_nil]
  simp [hne]

theorem readFraction?_of_not_goesOn {rest : List Char} (h : goesOn rest = false) :
    Numeral.readFraction? rest = some (none, rest) := by
  unfold Numeral.readFraction?
  split
  · simp [goesOn] at h
  · rfl

theorem readExponent?_of_not_goesOn {rest : List Char} (h : goesOn rest = false) :
    Numeral.readExponent? rest = some (none, rest) := by
  unfold Numeral.readExponent?
  split
  · rfl
  · rw [if_neg]
    rintro (rfl | rfl) <;> simp [goesOn] at h

theorem read?_toDigits (n : Nat) {rest : List Char} (h : goesOn rest = false) :
    Numeral.read? (Nat.toDigits 10 n ++ rest) = some (.ofNat n, rest) := by
  have hdigits : ∀ c ∈ Nat.toDigits 10 n, c.isDigit = true := fun c hc =>
    Nat.isDigit_of_mem_toDigits (by decide) (by decide) hc
  have hstop : rest.head?.any Char.isDigit = false := by
    cases rest with
    | nil => rfl
    | cons c rest => simp_all [goesOn]
  have hrun := digitRun?_append Nat.toDigits_ne_nil hdigits hstop
  -- zero is a single digit, and no other number begins with one
  have hzero : ¬ ((Nat.toDigits 10 n).head? = some '0' ∧ 1 < (Nat.toDigits 10 n).length) := by
    rintro ⟨hhead, hlong⟩
    rcases Nat.eq_zero_or_pos n with rfl | hpos
    · simp at hlong
    · exact head?_toDigits_ne n hpos hhead
  have hsign : ∀ tail, Nat.toDigits 10 n ++ rest ≠ '-' :: tail := by
    intro tail heq
    cases htext : Nat.toDigits 10 n with
    | nil => exact Nat.toDigits_ne_nil htext
    | cons c digits =>
        rw [htext] at heq hdigits
        obtain rfl : c = '-' := (List.cons.inj heq).1
        exact absurd (hdigits '-' (List.mem_cons_self ..)) (by decide)
  unfold Numeral.read?
  split
  rename_i sign text hsplit
  split at hsplit
  · exact absurd ‹_› (hsign _)
  · cases hsplit
    simp [hrun, hzero, readFraction?_of_not_goesOn h, readExponent?_of_not_goesOn h, Numeral.ofNat]

/-! ## Strings -/

theorem hexValue?_digitChar : ∀ n < 16, hexValue? (Nat.digitChar n) = some n := by
  decide

/-- A control character is written by its code. -/
theorem hexUnit?_control {c : Char} (h : c.toNat < 0x20) :
    hexUnit? '0' '0' (Nat.digitChar (c.toNat / 16)) (Nat.digitChar (c.toNat % 16)) =
      some (.char c) := by
  have hzero : hexValue? '0' = some 0 := rfl
  have hhigh := hexValue?_digitChar (c.toNat / 16) (by omega)
  have hlow := hexValue?_digitChar (c.toNat % 16) (by omega)
  have hcode : 16 * (c.toNat / 16) + c.toNat % 16 = c.toNat := Nat.div_add_mod c.toNat 16
  have hplain : ¬ (0xD800 ≤ c.toNat ∧ c.toNat < 0xE000) := by omega
  simp [hexUnit?, hzero, hhigh, hlow, hcode, hplain]

theorem stringUnits?_escaped (c : Char) (rest : List Char) :
    stringUnits? (escaped c ++ rest) =
      (stringUnits? rest).map fun read => (.char c :: read.1, read.2) := by
  unfold escaped
  split
  -- the letters of the short escapes are looked up
  iterate 7
    cases hrest : stringUnits? rest <;> simp [stringUnits?, letterEscapes, List.lookup_cons, hrest]
  · split
    · rename_i hcontrol
      simp only [List.cons_append, List.nil_append]
      rw [stringUnits?, hexUnit?_control hcontrol]
      cases stringUnits? rest <;> rfl
    · rename_i hcontrol
      simp only [List.cons_append, List.nil_append]
      rw [stringUnits?]
      · rw [if_neg hcontrol]
        cases stringUnits? rest <;> rfl
      all_goals simp_all

theorem stringUnits?_flatMap_escaped (text rest : List Char) :
    stringUnits? (text.flatMap escaped ++ '"' :: rest) = some (text.map .char, rest) := by
  induction text with
  | nil => rfl
  | cons c text ih => rw [List.flatMap_cons, List.append_assoc, stringUnits?_escaped, ih]; rfl

theorem pairHalves?_map_char (text : List Char) : pairHalves? (text.map .char) = some text := by
  induction text with
  | nil => rfl
  | cons c text ih => rw [List.map_cons, pairHalves?, ih]; rfl

/-! ## Tokens -/

namespace Token

/-- Whether a token is a number. -/
def isNumber : Token → Bool
  | number _ => true
  | _ => false

/-- A token with a text that it can be read from. -/
def Plain : Token → Prop
  | number numeral => ∃ n, numeral = .ofNat n
  | string content => ∃ text, content = some text
  | invalid => False
  | _ => True

end Token

theorem nextToken_digit {c : Char} (hc : c.isDigit = true) (rest : List Char) :
    nextToken c rest =
      match Numeral.read? (c :: rest) with
      | some (numeral, rest) => (.number numeral, rest)
      | none => (.invalid, []) := by
  unfold nextToken
  split
  iterate 10 exact absurd hc (by decide)
  rfl

/-- The text of a token is read as this token, up to what follows it. -/
theorem nextToken_text {token : Token} (hplain : token.Plain) {rest : List Char}
    (hrest : token.isNumber = true → goesOn rest = false) :
    ∃ c text, token.text = c :: text ∧ isSpace c = false ∧
      nextToken c (text ++ rest) = (token, rest) := by
  cases token with
  | openObject | closeObject | openList | closeList | colon | comma =>
      exact ⟨_, [], rfl, by decide, rfl⟩
  | null => exact ⟨'n', "ull".toList, rfl, by decide, rfl⟩
  | bool value =>
      cases value with
      | true => exact ⟨'t', "rue".toList, rfl, by decide, rfl⟩
      | false => exact ⟨'f', "alse".toList, rfl, by decide, rfl⟩
  | number numeral =>
      obtain ⟨n, rfl⟩ := hplain
      have hread := read?_toDigits n (hrest rfl)
      cases hdigits : Nat.toDigits 10 n with
      | nil => exact absurd hdigits Nat.toDigits_ne_nil
      | cons c digits =>
          have hc : c.isDigit = true :=
            Nat.isDigit_of_mem_toDigits (by decide) (by decide) (hdigits ▸ List.mem_cons_self ..)
          have hspace : isSpace c = false := by
            unfold isSpace
            simp only [Bool.or_eq_false_iff, beq_eq_false_iff_ne]
            refine ⟨⟨⟨?_, ?_⟩, ?_⟩, ?_⟩ <;> rintro rfl <;> exact absurd hc (by decide)
          refine ⟨c, digits, ?_, hspace, ?_⟩
          · simp [Token.text, Numeral.text, Numeral.ofNat, hdigits]
          · rw [hdigits, List.cons_append] at hread
            rw [nextToken_digit hc, hread]
  | string content =>
      obtain ⟨text, rfl⟩ := hplain
      refine ⟨'"', text.toList.flatMap escaped ++ ['"'], rfl, by decide, ?_⟩
      rw [List.append_assoc, nextToken]
      simp [stringUnits?_flatMap_escaped, pairHalves?_map_char]
  | invalid => exact hplain.elim

/-- A text that spells tokens, with blanks anywhere between them.  Nothing goes on with
a number. -/
inductive Spells : List Char → List Token → Prop
  | nil : Spells [] []
  | blank {c : Char} {text : List Char} {document : List Token} (hblank : isSpace c = true)
      (hrest : Spells text document) : Spells (c :: text) document
  | token {token : Token} {text : List Char} {document : List Token} (hplain : token.Plain)
      (hstop : token.isNumber = true → goesOn text = false) (hrest : Spells text document) :
      Spells (token.text ++ text) (token :: document)

theorem tokens_of_spells {text : List Char} {document : List Token} (h : Spells text document) :
    tokens text = document := by
  induction h with
  | nil => rw [tokens]
  | blank hblank _ ih => rw [tokens, if_pos hblank, ih]
  | token hplain hstop _ ih =>
      obtain ⟨c, tail, htext, hspace, hnext⟩ := nextToken_text hplain hstop
      rw [htext, List.cons_append, tokens, if_neg (by simp [hspace]), hnext, ih]

/-! ## Both layouts spell their tokens -/

/-- Whether a number comes first. -/
def startsWithNumber (document : List Token) : Bool := document.head?.any Token.isNumber

/-- Tokens that can be told apart when they are written behind each other. -/
def Legible : List Token → Prop
  | [] => True
  | token :: rest =>
    token.Plain ∧ (token.isNumber = true → startsWithNumber rest = false) ∧ Legible rest

/-- What begins with a blank or with another token than a number does not go on with a
number. -/
theorem Spells.not_goesOn {text : List Char} {document : List Token} (h : Spells text document)
    (hstart : startsWithNumber document = false) : goesOn text = false := by
  cases h with
  | nil => rfl
  | @blank c text _ hblank _ =>
      simp only [isSpace, Bool.or_eq_true, beq_iff_eq] at hblank
      rcases hblank with ((rfl | rfl) | rfl) | rfl <;> rfl
  | @token token text document hplain _ _ =>
      cases token with
      | number numeral => cases hstart
      | bool value => cases value <;> rfl
      | invalid => exact hplain.elim
      | _ => rfl

/-- One more token in front. -/
theorem Spells.cons {token : Token} {text : List Char} {document : List Token}
    (hlegible : Legible (token :: document)) (h : Spells text document) :
    Spells (token.text ++ text) (token :: document) :=
  .token hlegible.1 (fun hnumber => h.not_goesOn (hlegible.2.1 hnumber)) h

theorem Spells.gap {gap text : List Char} {document : List Token} (hgap : gap.all isSpace = true)
    (h : Spells text document) : Spells (gap ++ text) document := by
  induction gap with
  | nil => exact h
  | cons c gap ih =>
      obtain ⟨hc, hgap⟩ := Bool.and_eq_true_iff.mp hgap
      exact .blank hc (ih hgap)

theorem all_isSpace_lineBreak (depth : Nat) : (lineBreak depth).all isSpace = true := by
  have hblanks : (List.replicate (2 * depth) ' ').all isSpace = true :=
    List.all_eq_true.mpr fun c hc => List.eq_of_mem_replicate hc ▸ rfl
  exact Bool.and_eq_true_iff.mpr ⟨rfl, hblanks⟩

theorem spells_flatMap_text {document : List Token} (h : Legible document) :
    Spells (document.flatMap Token.text) document := by
  induction document with
  | nil => exact .nil
  | cons token document ih => exact .cons h (ih h.2.2)

theorem spells_prettyFrom {document : List Token} (h : Legible document) (depth : Nat)
    (opened : Bool) : Spells (prettyFrom depth opened document) document := by
  induction document generalizing depth opened with
  | nil => exact .nil
  | cons token document ih =>
      have hrest (depth : Nat) (opened : Bool) := ih h.2.2 depth opened
      -- a line break or nothing stands before a token, and before a closing bracket
      have hbefore : (if opened then lineBreak depth else []).all isSpace = true := by
        split
        · exact all_isSpace_lineBreak depth
        · rfl
      have hclosing : (if opened then [] else lineBreak (depth - 1)).all isSpace = true := by
        split
        · rfl
        · exact all_isSpace_lineBreak (depth - 1)
      cases token with
      | closeObject | closeList =>
          rw [prettyFrom, List.append_assoc]
          exact .gap hclosing (.cons h (hrest _ _))
      | comma =>
          rw [prettyFrom, List.append_assoc]
          exact .token trivial nofun (.gap (all_isSpace_lineBreak depth) (hrest _ _))
      | colon =>
          rw [prettyFrom]
          exact .token trivial nofun (.blank rfl (hrest _ _))
      | openObject | openList =>
          rw [prettyFrom, List.append_assoc]
          exact .gap hbefore (.cons h (hrest _ _))
      | null | bool _ | number _ | string _ | invalid =>
          rw [prettyFrom, List.append_assoc]
          · exact .gap hbefore (.cons h (hrest _ _))
          all_goals nofun

theorem tokens_compact {document : List Token} (h : Legible document) :
    tokens (compact document).toList = document := by
  rw [compact, String.toList_ofList]
  exact tokens_of_spells (spells_flatMap_text h)

theorem tokens_pretty {document : List Token} (h : Legible document) :
    tokens (pretty document).toList = document := by
  rw [pretty, String.toList_ofList]
  exact tokens_of_spells (spells_prettyFrom h 0 false)

end EnumMigration.Json
