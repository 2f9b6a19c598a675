/-!
# Blank characters

The blanks are the characters with the Unicode White_Space property: the separators that may stand
between the word `import` and the name it imports, and the characters that trimming removes.
-/

namespace EnumMigration

/-- Whether a character has the White_Space property. -/
def isBlank (c : Char) : Bool :=
  let code := c.toNat
  (0x09 ≤ code && code ≤ 0x0D) || code == 0x20 || code == 0x85 || code == 0xA0 || code == 0x1680 ||
    (0x2000 ≤ code && code ≤ 0x200A) || code == 0x2028 || code == 0x2029 || code == 0x202F ||
    code == 0x205F || code == 0x3000

/-- Whether a text holds nothing but blanks, so that trimming leaves nothing of it. -/
def isBlankText (text : List Char) : Bool := text.all isBlank

/-- A text without its leading blanks. -/
def trimStart (text : List Char) : List Char := text.dropWhile isBlank

end EnumMigration
