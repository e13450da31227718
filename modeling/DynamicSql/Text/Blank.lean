/-!
# Blank characters

Blanks are the characters of the Unicode property White_Space. They are what is
dropped around names, attribute values and paths, and text that holds nothing
else has no content. The blanks between the tokens of a statement are fewer and
are defined with the tokens.
-/

namespace DynamicSql.Text

/-- One of the twenty-five characters of the property White_Space. -/
def isBlank (c : Char) : Bool :=
  let n := c.toNat
  (9 ≤ n && n ≤ 13) || n == 0x20 || n == 0x85 || n == 0xA0 || n == 0x1680 ||
    (0x2000 ≤ n && n ≤ 0x200A) || n == 0x2028 || n == 0x2029 || n == 0x202F ||
    n == 0x205F || n == 0x3000

/-- The characters without the blanks at their end. -/
def dropTrailingBlanks (cs : List Char) : List Char :=
  (cs.reverse.dropWhile isBlank).reverse

/-- The characters without the blanks around them. -/
def trimChars (cs : List Char) : List Char :=
  dropTrailingBlanks (cs.dropWhile isBlank)

/-- The text without the blanks around it. -/
def trim (s : String) : String :=
  String.ofList (trimChars s.toList)

/-- The text without the blanks at its end. -/
def trimEnd (s : String) : String :=
  String.ofList (dropTrailingBlanks s.toList)

/-- Some character is no blank. -/
def hasContent (s : String) : Bool :=
  s.toList.any (! isBlank ·)

/-- The trimmed text, if anything is left of it. -/
def nonEmpty? (s : String) : Option String :=
  let trimmed := trim s
  if trimmed.isEmpty then none else some trimmed

end DynamicSql.Text
