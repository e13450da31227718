import DynamicSql.Proofs.Lexing.Cut
import DynamicSql.Text.Blank

/-!
# Blanks at the end of a text

There are more blanks than those between tokens: some of them are characters of
words. So dropping the blanks at the end of a text can take the last characters
of a word, or a word that has no others, and what is left of a word may be
another one. The punctuation and the literals stay.
-/

namespace DynamicSql.Sql

namespace Lexeme

/-- The punctuation among some lexemes. -/
def marks (lexemes : List Lexeme) : List TokenKind :=
  (lexemes.map kind).filter TokenKind.isPunctuation

theorem marks_append (before after : List Lexeme) :
    marks (before ++ after) = marks before ++ marks after := by
  simp [marks]

theorem marks_of_run {lexeme : Lexeme} (joins : lexeme.kind.isRun = true) :
    marks [lexeme] = [] := by
  cases kind : lexeme.kind <;> simp_all [marks, TokenKind.isPunctuation, TokenKind.isRun]

/-- A blank is no quote and no punctuation, so it belongs to a run. -/
theorem isRun_of_isBlank {c : Char} (blank : Text.isBlank c = true) :
    isQuote c = false ∧ (charKind c).isRun = true := by
  have other : ∀ d : Char, Text.isBlank d = false → c ≠ d := by
    rintro d noBlank rfl
    rw [blank] at noBlank
    cases noBlank
  have noMark : punctuation? c = none := by
    unfold punctuation?
    split <;> first | rfl | exact absurd blank (by decide)
  constructor
  · simp [isQuote, other '\'' (by decide), other '"' (by decide)]
  · rw [charKind, noMark]
    split
    · rfl
    · dsimp only
      split <;> rfl

/-- Without the blank at its end a text has the same punctuation. -/
theorem exists_cut_of_concat {lexemes : List Lexeme} {text : List Char} {c : Char}
    (cut : Cut lexemes) (covers : sources lexemes = text ++ [c])
    (blank : Text.isBlank c = true) :
    ∃ shorter, Cut shorter ∧ sources shorter = text ∧ marks shorter = marks lexemes := by
  rcases List.eq_nil_or_concat' lexemes with rfl | ⟨init, last, rfl⟩
  · simp [sources] at covers
  obtain ⟨initCut, lastCut, between⟩ := cut_append.mp cut
  obtain ⟨formed, -, -⟩ := cut_cons.mp lastCut
  obtain ⟨plain, joins⟩ := isRun_of_isBlank blank
  have ends : sources (init ++ [last]) = sources init ++ last.source := by
    simp [sources]
  rw [ends] at covers
  cases formed with
  | @literal quote body quotes inside =>
    have split : (sources init ++ quote :: body) ++ [quote] = text ++ [c] := by
      simpa using covers
    have same : quote = c := by
      simpa using (List.append_inj' split rfl).2
    rw [same, plain] at quotes
    cases quotes
  | @mark d _ alone =>
    have same : d = c := by
      simpa using congrArg List.getLast? covers
    rw [same, joins] at alone
    cases alone
  | @run kind d ds kindJoins chars =>
    have noMarks : marks (init ++ [⟨kind, d :: ds⟩]) = marks init := by
      rw [marks_append, marks_of_run kindJoins, List.append_nil]
    rcases List.eq_nil_or_concat' ds with rfl | ⟨body, e, rfl⟩
    · refine ⟨init, initCut, ?_, noMarks.symm⟩
      exact (List.append_inj' covers rfl).1
    · refine ⟨init ++ [⟨kind, d :: body⟩], ?_, ?_, ?_⟩
      · refine cut_append.mpr ⟨initCut, cut_cons.mpr ⟨.run kindJoins ?_, by simp, cut_nil⟩, ?_⟩
        · intro f member
          exact chars f (by rw [← List.cons_append]; exact List.mem_append_left _ member)
        · intro first final next head
          cases head
          exact between first final ⟨kind, d :: (body ++ [e])⟩ rfl
      · rw [← List.cons_append, ← List.append_assoc] at covers
        rw [← (List.append_inj' covers rfl).1]
        simp [sources]
      · have noneLeft : marks [⟨kind, d :: body⟩] = [] := marks_of_run kindJoins
        rw [noMarks, marks_append, noneLeft, List.append_nil]

/-- Without the blanks at its end a text has the same punctuation. -/
theorem exists_cut_dropTrailingBlanks {lexemes : List Lexeme} (cut : Cut lexemes) :
    ∃ shorter, Cut shorter ∧ sources shorter = Text.dropTrailingBlanks (sources lexemes) ∧
      marks shorter = marks lexemes := by
  have backwards : ∀ (reversed : List Char) {lexemes : List Lexeme}, Cut lexemes →
      sources lexemes = reversed.reverse → ∃ shorter, Cut shorter ∧
        sources shorter = (reversed.dropWhile Text.isBlank).reverse ∧
        marks shorter = marks lexemes := by
    intro reversed
    induction reversed with
    | nil =>
      intro lexemes cut covers
      exact ⟨lexemes, cut, covers, rfl⟩
    | cons c rest ih =>
      intro lexemes cut covers
      cases blank : Text.isBlank c with
      | false =>
        rw [List.dropWhile_cons_of_neg (by simp [blank])]
        exact ⟨lexemes, cut, covers, rfl⟩
      | true =>
        rw [List.reverse_cons] at covers
        obtain ⟨shorter, shorterCut, shorterCovers, sameMarks⟩ :=
          exists_cut_of_concat cut covers blank
        obtain ⟨shortest, shortestCut, shortestCovers, marks⟩ := ih shorterCut shorterCovers
        rw [List.dropWhile_cons_of_pos blank]
        exact ⟨shortest, shortestCut, shortestCovers, marks.trans sameMarks⟩
  exact backwards (sources lexemes).reverse cut (List.reverse_reverse _).symm

end Lexeme

end DynamicSql.Sql
