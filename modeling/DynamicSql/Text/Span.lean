/-!
# Delimited spans

Placeholders are written between two equal delimiters. Read from the left, the
delimiters of a text pair up: what stands before an opening one is plain, what
stands between the two of a pair is enclosed, and after an opening delimiter
without a partner the rest of the text is unclosed.
-/

namespace DynamicSql.Text

/-- A stretch of text as its delimiters divide it. -/
inductive Span where
  | plain (text : List Char)
  | enclosed (body : List Char)
  | unclosed (tail : List Char)
  deriving DecidableEq, Repr

namespace Span

/-- A stretch as it stands in the text. -/
def source (delimiter : Char) : Span → List Char
  | plain text => text
  | enclosed body => delimiter :: (body ++ [delimiter])
  | unclosed tail => delimiter :: tail

/-- Changes what is enclosed and nothing else. -/
def mapEnclosed (f : List Char → List Char) : Span → Span
  | enclosed body => enclosed (f body)
  | other => other

end Span

/-- Pairs up the parts between delimiters: parts at even positions are plain,
    parts at odd positions are enclosed unless they are the last. -/
def pairParts : List (List Char) → List Span
  | [] => []
  | [text] => [.plain text]
  | [text, tail] => [.plain text, .unclosed tail]
  | text :: body :: rest => .plain text :: .enclosed body :: pairParts rest

/-- The spans of a text for one delimiter. -/
def spans (delimiter : Char) (text : List Char) : List Span :=
  pairParts (text.splitOn delimiter)

/-- Pairing up parts loses nothing: the stretches in a row are the parts with the
    delimiter between them. -/
theorem flatMap_source_pairParts (delimiter : Char) (parts : List (List Char)) :
    (pairParts parts).flatMap (Span.source delimiter) = [delimiter].intercalate parts := by
  fun_induction pairParts parts with
  | case1 => rfl
  | case2 text => simp [Span.source]
  | case3 text tail => simp [Span.source]
  | case4 text body rest nonempty ih =>
    cases rest with
    | nil => simp at nonempty
    | cons next more => simp [Span.source, ih]

/-- The spans of a text in a row are the text. -/
theorem flatMap_source_spans (delimiter : Char) (text : List Char) :
    (spans delimiter text).flatMap (Span.source delimiter) = text := by
  rw [spans, flatMap_source_pairParts, List.intercalate_splitOn]

/-- The part before the first separator and the part after it. -/
def splitFirst? (separator : Char) (text : List Char) : Option (List Char × List Char) :=
  match text.dropWhile (· != separator) with
  | [] => none
  | _ :: rest => some (text.takeWhile (· != separator), rest)

end DynamicSql.Text
