import DynamicSql.Proofs.Lexing.Partition
import DynamicSql.Proofs.Lexing.Quotes

/-!
# The text of tokens

The texts of the tokens in a row are the statement with each run of blanks outside literals
collapsed into one space. A collapsed run is a run still, and its neighbours stay apart, so
the collapsed statement is read as the same tokens, and there is nothing left to collapse.
-/

namespace DynamicSql.Sql

namespace Quoting

/-- A text in which each run of blanks outside literals is one space, given where the text stands at
    its beginning and whether a blank of such a run is in front of it. -/
def collapseFrom : Quoting → Bool → List Char → List Char
  | _, _, [] => []
  | state, inRun, c :: rest =>
    if state = outside ∧ isTokenSpace c = true then
      if inRun then collapseFrom outside true rest else ' ' :: collapseFrom outside true rest
    else c :: collapseFrom (state.step c) false rest

/-- A statement in which each run of blanks outside literals is one space. -/
def collapse (sql : String) : String :=
  String.ofList (collapseFrom outside false sql.toList)

theorem collapseFrom_blank {c : Char} (space : isTokenSpace c = true) (inRun : Bool)
    (rest : List Char) :
    collapseFrom outside inRun (c :: rest) =
      if inRun then collapseFrom outside true rest else ' ' :: collapseFrom outside true rest := by
  rw [collapseFrom, if_pos ⟨rfl, space⟩]

theorem collapseFrom_kept {state : Quoting} {c : Char}
    (kept : ¬ (state = outside ∧ isTokenSpace c = true)) (inRun : Bool) (rest : List Char) :
    collapseFrom state inRun (c :: rest) = c :: collapseFrom (state.step c) false rest := by
  rw [collapseFrom, if_neg kept]

/-- What is collapsed once is collapsed. -/
theorem collapseFrom_collapseFrom (state : Quoting) (inRun : Bool) (text : List Char) :
    collapseFrom state inRun (collapseFrom state inRun text) = collapseFrom state inRun text := by
  fun_induction collapseFrom state inRun text with
  | case1 => rfl
  | case2 state c rest blank ih => exact blank.1 ▸ ih
  | case3 state inRun c rest blank first ih =>
    rw [blank.1, collapseFrom_blank rfl, if_neg first, ih]
  | case4 state inRun c rest kept ih => rw [collapseFrom_kept kept, ih]

theorem collapse_collapse (sql : String) : collapse (collapse sql) = collapse sql := by
  rw [collapse, collapse, String.toList_ofList, collapseFrom_collapseFrom]

theorem collapseFrom_blanks {blanks : List Char} (spaces : ∀ c ∈ blanks, isTokenSpace c = true)
    (rest : List Char) :
    collapseFrom outside true (blanks ++ rest) = collapseFrom outside true rest := by
  induction blanks with
  | nil => rfl
  | cons c blanks ih =>
    obtain ⟨space, others⟩ := List.forall_mem_cons.mp spaces
    rw [List.cons_append, collapseFrom_blank space, if_pos rfl, ih others]

/-- Characters outside literals that are no blanks stay. -/
theorem collapseFrom_plain {c : Char} {cs : List Char}
    (plain : ∀ d ∈ c :: cs, isQuote d = false ∧ isTokenSpace d = false) (inRun : Bool)
    (rest : List Char) :
    collapseFrom outside inRun (c :: cs ++ rest) = c :: cs ++ collapseFrom outside false rest := by
  induction cs generalizing c inRun with
  | nil =>
    obtain ⟨noQuote, noSpace⟩ := plain c List.mem_cons_self
    rw [List.singleton_append, collapseFrom_kept (by simp [noSpace]), step_outside noQuote,
      List.singleton_append]
  | cons d ds ih =>
    obtain ⟨⟨noQuote, noSpace⟩, others⟩ := List.forall_mem_cons.mp plain
    rw [List.cons_append, collapseFrom_kept (by simp [noSpace]), step_outside noQuote, ih others,
      ← List.cons_append]

/-- Inside a literal every character stays. -/
theorem collapseFrom_literal {quote : Char} {body : List Char} (quotes : isQuote quote = true)
    (inside : quote ∉ body) (inRun : Bool) (rest : List Char) :
    collapseFrom (step outside quote) inRun (body ++ quote :: rest) =
      body ++ quote :: collapseFrom outside false rest := by
  have open_ (c : Char) : ¬ (step outside quote = outside ∧ isTokenSpace c = true) :=
    fun ⟨closed, _⟩ => step_outside_ne quotes closed
  induction body generalizing inRun with
  | nil =>
    rw [List.nil_append, collapseFrom_kept (open_ quote), step_inside quotes, if_pos rfl,
      List.nil_append]
  | cons c body ih =>
    obtain ⟨differs, later⟩ := not_or.mp (List.mem_cons.not.mp inside)
    rw [List.cons_append, collapseFrom_kept (open_ c), step_inside quotes,
      if_neg fun same => differs same.symm, ih later, List.cons_append]

end Quoting

/-- Apart from literals, no character of a lexeme is a quote, nor a blank unless it is blank. -/
theorem TokenKind.Shape.plain {kind : TokenKind} {source : List Char} (shape : kind.Shape source)
    (noSpace : kind ≠ .space) (noLiteral : kind ≠ .literal) :
    ∀ c ∈ source, isQuote c = false ∧ isTokenSpace c = false := by
  cases shape with
  | literal => exact absurd rfl noLiteral
  | space => exact absurd rfl noSpace
  | punctuation mark =>
    obtain ⟨noQuote, noBlank, -⟩ := punctuation?_disjoint mark
    simpa using ⟨noQuote, noBlank⟩
  | operator chars =>
    intro c member
    obtain ⟨noQuote, noBlank, -⟩ := isOperator_disjoint (chars c member)
    exact ⟨noQuote, noBlank⟩
  | word _ chars =>
    intro c member
    obtain ⟨noQuote, noBlank, -⟩ := chars c member
    exact ⟨noQuote, noBlank⟩

/-- The text of some tokens is known from what they are apart from their places. -/
theorem Token.textOf_congr {tokens others : List Token}
    (faces : tokens.map face = others.map face) : textOf tokens = textOf others := by
  induction tokens generalizing others with
  | nil =>
    rw [List.map_eq_nil_iff.mp faces.symm]
  | cons t rest ih =>
    obtain ⟨other, behind, rfl, same, faces⟩ := List.map_eq_cons_iff.mp faces.symm
    rw [textOf, textOf, ih faces.symm, (Prod.mk.inj same).2]

namespace Lexeme

variable {keywords : List Keyword}

/-- The lexeme with its text as its source: a run of blanks becomes one space. -/
def collapsed (lexeme : Lexeme) : Lexeme :=
  if lexeme.kind = .space then ⟨.space, [' ']⟩ else lexeme

theorem collapsed_of_space {lexeme : Lexeme} (space : lexeme.kind = .space) :
    lexeme.collapsed = ⟨.space, [' ']⟩ := if_pos space

theorem collapsed_of_ne {lexeme : Lexeme} (other : lexeme.kind ≠ .space) :
    lexeme.collapsed = lexeme := if_neg other

@[simp]
theorem kind_collapsed (lexeme : Lexeme) : lexeme.collapsed.kind = lexeme.kind := by
  unfold collapsed
  split
  · next space => exact space.symm
  · rfl

theorem WellFormed.collapsed {lexeme : Lexeme} (formed : lexeme.WellFormed) :
    lexeme.collapsed.WellFormed := by
  unfold Lexeme.collapsed
  split
  · exact .run rfl (List.forall_mem_singleton.mpr ⟨rfl, rfl⟩)
  · exact formed

theorem Cut.collapsed {lexemes : List Lexeme} (cut : Cut lexemes) :
    Cut (lexemes.map Lexeme.collapsed) := by
  constructor
  · intro lexeme member
    obtain ⟨original, inCut, rfl⟩ := List.mem_map.mp member
    exact (cut.wellFormed original inCut).collapsed
  · rw [List.isChain_map]
    exact cut.apart.imp fun first next apart joins => by simpa using apart (by simpa using joins)

/-- Nothing but the source changes, and that changes to the text. -/
theorem face_collapsed (lexeme : Lexeme) :
    face keywords lexeme.collapsed = face keywords lexeme := by
  by_cases space : lexeme.kind = .space
  · have read : lexeme.kindFor keywords = .space := (kindFor_eq_iff rfl).mpr space
    rw [collapsed_of_space space, face, face, Token.face, Token.face, text_kindFor, text_kindFor,
      if_pos space, read]
    rfl
  · rw [collapsed_of_ne space]

theorem toList_textOf_place (start : Nat) (lexemes : List Lexeme) :
    (Token.textOf (place keywords start lexemes)).toList = sources (lexemes.map collapsed) := by
  induction lexemes generalizing start with
  | nil => rfl
  | cons lexeme rest ih =>
    have first : (Token.text ⟨lexeme.kindFor keywords, start, String.ofList lexeme.source⟩).toList =
        lexeme.collapsed.source := by
      rw [text_kindFor, collapsed]
      split
      · rfl
      · exact String.toList_ofList
    rw [place, Token.textOf, String.toList_append, first, ih, List.map_cons, sources, sources,
      List.flatMap_cons]

/-- A lexeme that is no blank stays as it is. -/
theorem WellFormed.collapseFrom_source {lexeme : Lexeme} (formed : lexeme.WellFormed)
    (noSpace : lexeme.kind ≠ .space) (inRun : Bool) (rest : List Char) :
    Quoting.collapseFrom .outside inRun (lexeme.source ++ rest) =
      lexeme.source ++ Quoting.collapseFrom .outside false rest := by
  by_cases isLiteral : lexeme.kind = .literal
  · obtain ⟨kind, source⟩ := lexeme
    have shape := formed.shape
    subst isLiteral
    cases shape with
    | @literal quote body quotes inside =>
      have noBlank : isTokenSpace quote = false := by
        simp only [isQuote, Bool.or_eq_true, beq_iff_eq] at quotes
        rcases quotes with rfl | rfl <;> rfl
      rw [List.cons_append, Quoting.collapseFrom_kept (by simp [noBlank]), List.append_assoc,
        List.singleton_append, Quoting.collapseFrom_literal quotes inside, List.cons_append,
        List.append_assoc, List.singleton_append]
    | word isWord => cases isWord
    | punctuation mark => cases (punctuation?_disjoint mark).2.2
  · have plain := formed.shape.plain noSpace isLiteral
    obtain ⟨c, cs, source⟩ := List.exists_cons_of_ne_nil formed.source_ne_nil
    rw [source] at plain ⊢
    exact Quoting.collapseFrom_plain plain inRun rest

/-- A run of blanks becomes one space. -/
theorem WellFormed.collapseFrom_blank {lexeme : Lexeme} (formed : lexeme.WellFormed)
    (space : lexeme.kind = .space) (rest : List Char) :
    Quoting.collapseFrom .outside false (lexeme.source ++ rest) =
      ' ' :: Quoting.collapseFrom .outside true rest := by
  obtain ⟨kind, source⟩ := lexeme
  have shape := formed.shape
  subst space
  cases shape with
  | space blanks =>
    obtain ⟨first, others⟩ := List.forall_mem_cons.mp blanks
    rw [List.cons_append, Quoting.collapseFrom_blank first, Quoting.collapseFrom_blanks others]
    rfl
  | word isWord => cases isWord
  | punctuation mark => cases (punctuation?_disjoint mark).2.2

/-- The collapsed text of a cut is the text of the collapsed lexemes. -/
theorem Cut.collapseFrom_sources {lexemes : List Lexeme} (cut : Cut lexemes) {inRun : Bool}
    (apart : inRun = true → ∀ first ∈ lexemes.head?, first.kind ≠ .space) :
    Quoting.collapseFrom .outside inRun (sources lexemes) =
      sources (lexemes.map Lexeme.collapsed) := by
  induction lexemes generalizing inRun with
  | nil => rfl
  | cons lexeme rest ih =>
    obtain ⟨formed, stays, cut⟩ := cut_cons.mp cut
    rw [sources, List.flatMap_cons, List.map_cons, sources, List.flatMap_cons]
    by_cases space : lexeme.kind = .space
    · have first : inRun = false := by
        by_contra running
        exact apart (by simpa using running) lexeme rfl space
      have next : Quoting.collapseFrom .outside true (sources rest) = _ :=
        ih cut fun _ other head same => stays other head (by rw [space]; rfl)
          (space.trans same.symm)
      rw [first, formed.collapseFrom_blank space, collapsed_of_space space]
      exact congrArg (' ' :: ·) next
    · have next : Quoting.collapseFrom .outside false (sources rest) = _ := ih cut (by simp)
      rw [formed.collapseFrom_source space, collapsed_of_ne space]
      exact congrArg (lexeme.source ++ ·) next

end Lexeme

variable {sql : String} {keywords : List Keyword} {tokens : List Token}

/-- The texts of the tokens in a row are a normal form of the statement: it is read as tokens of the
    same kinds and texts, and it is the statement with each run of blanks outside literals collapsed
    into one space. So there is nothing left to collapse in it, and its tokens have it as their text
    again. -/
theorem textOf_tokens_normal (read : tokenize sql keywords = .ok tokens) :
    (∃ again, tokenize (Token.textOf tokens) keywords = .ok again ∧
      again.map Token.face = tokens.map Token.face ∧ Token.textOf again = Token.textOf tokens) ∧
    Token.textOf tokens = Quoting.collapse sql ∧
    Quoting.collapse (Quoting.collapse sql) = Quoting.collapse sql := by
  obtain ⟨lexemes, cut, covered, rfl⟩ := tokenize_eq_ok_iff.mp read
  have texts := @Lexeme.toList_textOf_place keywords 0 lexemes
  have normal : Token.textOf (Lexeme.place keywords 0 lexemes) = Quoting.collapse sql := by
    rw [Quoting.collapse, ← covered, cut.collapseFrom_sources (by simp), ← texts,
      String.ofList_toList]
  have faces : (Lexeme.place keywords 0 (lexemes.map Lexeme.collapsed)).map Token.face =
      (Lexeme.place keywords 0 lexemes).map Token.face := by
    rw [Lexeme.map_face_place, Lexeme.map_face_place, List.map_map]
    exact List.map_congr_left fun lexeme _ => Lexeme.face_collapsed lexeme
  exact ⟨⟨_, tokenize_eq_ok_iff.mpr ⟨_, cut.collapsed, texts.symm, rfl⟩, faces,
    Token.textOf_congr faces⟩, normal, Quoting.collapse_collapse sql⟩

/-- Blanks at both ends, between words and in literals of both sorts, the one with the quote of the
    other in it. -/
theorem textOf_tokens_normal_of_blanks :
    let sql := "\t é  'a \"\tb'\r\n\"  '\" \x0c "
    let normal := " é 'a \"\tb' \"  '\" "
    let tokens : List Token := [⟨.space, 0, "\t "⟩, ⟨.word, 2, "é"⟩, ⟨.space, 4, "  "⟩,
      ⟨.literal, 6, "'a \"\tb'"⟩, ⟨.space, 13, "\r\n"⟩, ⟨.literal, 15, "\"  '\""⟩,
      ⟨.space, 20, " \x0c "⟩]
    tokenize sql [] = .ok tokens ∧ Token.textOf tokens = normal ∧ Quoting.collapse sql = normal ∧
      Quoting.collapse normal = normal ∧
      ∃ again, tokenize normal [] = .ok again ∧ again.map Token.face = tokens.map Token.face := by
  intro sql normal tokens
  have read : tokenize sql [] = .ok tokens := by
    apply eq_ok_of_toOption
    decide +kernel
  obtain ⟨⟨again, readAgain, faces, -⟩, texts, twice⟩ := textOf_tokens_normal read
  have written : Token.textOf tokens = normal := rfl
  rw [written] at texts readAgain
  rw [← texts] at twice
  exact ⟨read, written, texts.symm, twice, again, readAgain, faces⟩

end DynamicSql.Sql
