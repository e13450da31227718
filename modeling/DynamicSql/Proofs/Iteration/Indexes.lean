import DynamicSql.Template.Frames

/-!
# Indexes in paths

Putting the indexes of the loops into a text writes brackets and digits. All
other characters of the result stand in the text already, also those of the
path to the array: it is written again only where it was found.
-/

namespace DynamicSql

namespace Text

/-- Replacing keeps to the characters of the text and of the replacement. -/
theorem forall_mem_replaceFrom {P : Char → Prop} {pattern replacement : List Char}
    (replaced : (∀ c ∈ pattern, P c) → ∀ c ∈ replacement, P c)
    {covered : Nat} {mayBegin : Bool} {text : List Char} (all : ∀ c ∈ text, P c) :
    ∀ c ∈ replaceFrom pattern replacement covered mayBegin text, P c := by
  fun_induction replaceFrom pattern replacement covered mayBegin text with
  | case1 => exact all
  | case2 _ _ _ _ ih => exact ih fun c member => all c (List.mem_cons_of_mem _ member)
  | case3 mayBegin first rest found ih =>
    have inPattern : ∀ c ∈ pattern, P c := by
      intro c member
      exact all c ((List.isPrefixOf_iff_prefix.mp found).subset member)
    intro c member
    rcases List.mem_append.mp member with here | later
    · revert here
      split
      · exact replaced inPattern c
      · exact inPattern c
    · exact ih (fun c member => all c (List.mem_cons_of_mem _ member)) c later
  | case4 mayBegin first rest missed ih =>
    intro c member
    rcases List.mem_cons.mp member with rfl | later
    · exact all c List.mem_cons_self
    · exact ih (fun c member => all c (List.mem_cons_of_mem _ member)) c later

/-- What stands between two delimiters of a text stands in the text. -/
theorem mem_of_mem_spans {delimiter c : Char} {text : List Char} {span : Span}
    (among : span ∈ spans delimiter text) (member : c ∈ span.source delimiter) : c ∈ text := by
  rw [← flatMap_source_spans delimiter text]
  exact List.mem_flatMap.mpr ⟨span, among, member⟩

end Text

section Characters

variable {P : Char → Prop}

theorem Loop.forall_mem_qualify (opening : P '[') (closing : P ']')
    (digit : ∀ c, c.isDigit → P c) (loop : Loop) {path : List Char} (all : ∀ c ∈ path, P c) :
    ∀ c ∈ loop.qualify path, P c := by
  have numeral (index : Nat) :
      ∀ c ∈ '[' :: (Nat.toDigits 10 index ++ [']']), P c := by
    intro c member
    simp only [List.mem_cons, List.mem_append, List.not_mem_nil, or_false] at member
    rcases member with rfl | inside | rfl
    · exact opening
    · exact digit c (Nat.isDigit_of_mem_toDigits (by decide) (by decide) inside)
    · exact closing
  unfold qualify
  split
  · exact all
  · next index _ =>
    dsimp only
    split
    · split
      · next rest =>
        intro c member
        rcases List.mem_append.mp member with inside | later
        · exact numeral index c inside
        · exact all c (List.mem_cons_of_mem _ (List.mem_cons_of_mem _ later))
      · exact all
    · refine Text.forall_mem_replaceFrom (fun inPattern c member => ?_) all
      rcases List.mem_append.mp member with inArray | inside
      · exact inPattern c (List.mem_append_left _ inArray)
      · exact numeral index c inside

/-- What holds of brackets, of digits and of the characters of a path holds of the
    characters of the path with the indexes. -/
theorem Frames.forall_mem_qualify (opening : P '[') (closing : P ']')
    (digit : ∀ c, c.isDigit → P c) (frames : Frames) {path : List Char}
    (all : ∀ c ∈ path, P c) : ∀ c ∈ frames.qualify path, P c := by
  unfold qualify
  induction frames.loops with
  | nil => exact all
  | cons loop outer ih => exact loop.forall_mem_qualify opening closing digit ih

theorem Frames.forall_mem_qualifyEnclosed (opening : P '[') (closing : P ']')
    (digit : ∀ c, c.isDigit → P c) (frames : Frames) (delimiter : Char) {text : List Char}
    (all : ∀ c ∈ text, P c) : ∀ c ∈ frames.qualifyEnclosed delimiter text, P c := by
  intro c member
  obtain ⟨span, among, inside⟩ := List.mem_flatMap.mp member
  have source : ∀ c ∈ span.source delimiter, P c := by
    intro c member
    exact all c (Text.mem_of_mem_spans among member)
  cases span with
  | plain text => exact source c inside
  | unclosed tail => exact source c inside
  | enclosed body =>
    have inBody : ∀ c ∈ body, P c := by
      intro c member
      exact source c (List.mem_cons_of_mem _ (List.mem_append_left _ member))
    rcases List.mem_cons.mp inside with rfl | inside
    · exact source c List.mem_cons_self
    · rcases List.mem_append.mp inside with within | last
      · exact frames.forall_mem_qualify opening closing digit inBody c within
      · rw [List.mem_singleton.mp last]
        exact source delimiter List.mem_cons_self

/-- What holds of brackets, of digits and of the characters of a text holds of the
    characters of the text with the indexes in its placeholders. -/
theorem Frames.forall_mem_qualifyPlaceholders (opening : P '[') (closing : P ']')
    (digit : ∀ c, c.isDigit → P c) (frames : Frames) {text : String}
    (all : ∀ c ∈ text.toList, P c) :
    ∀ c ∈ (frames.qualifyPlaceholders text).toList, P c := by
  rw [qualifyPlaceholders, String.toList_ofList]
  exact frames.forall_mem_qualifyEnclosed opening closing digit '$'
    (frames.forall_mem_qualifyEnclosed opening closing digit '#' all)

end Characters

end DynamicSql
