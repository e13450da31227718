import DynamicSql.Text.Alphanumeric

/-!
# Replacing whole names

An occurrence of a pattern counts only where a name may begin: not directly
after a character that continues a name. Occurrences are taken from the left
and do not overlap, and a name may begin directly after any of them.
-/

namespace DynamicSql.Text

/-- Replaces the occurrences of a pattern. The first number counts characters
    that an occurrence still covers; the truth value says whether a name may
    begin here. -/
def replaceFrom (pattern replacement : List Char) : Nat → Bool → List Char → List Char
  | _, _, [] => []
  | covered + 1, _, _ :: rest => replaceFrom pattern replacement covered true rest
  | 0, mayBegin, c :: rest =>
    if pattern.isPrefixOf (c :: rest) then
      (if mayBegin then replacement else pattern) ++
        replaceFrom pattern replacement (pattern.length - 1) true rest
    else c :: replaceFrom pattern replacement 0 (! isNameChar c) rest

/-- Replaces the occurrences of a pattern that begin a name. -/
def replaceWhole (pattern replacement text : List Char) : List Char :=
  replaceFrom pattern replacement 0 true text

end DynamicSql.Text
