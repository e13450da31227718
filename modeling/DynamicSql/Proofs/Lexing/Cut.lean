import DynamicSql.Proofs.Outcome
import DynamicSql.Sql.Lexeme
import Mathlib.Data.List.Chain

/-!
# The cut of a text

What the lexemes of a text are, said without the scan: each one is a literal, a
mark of one character or a run of characters of one kind, and no two runs of
one kind meet. A text has exactly one such cut, and the scan finds it. So any
lexemes in a row that come out of a scan are again the cut of what they cover.
-/

namespace DynamicSql.Sql

namespace Lexeme

/-- What one lexeme can be. -/
inductive WellFormed : Lexeme → Prop
  /-- A quoted text, closed by the next occurrence of its quote. -/
  | literal {quote : Char} {body : List Char} (quotes : isQuote quote = true)
      (inside : quote ∉ body) : WellFormed ⟨.literal, quote :: (body ++ [quote])⟩
  /-- A character that stands alone. -/
  | mark {c : Char} (plain : isQuote c = false) (alone : (charKind c).isRun = false) :
      WellFormed ⟨charKind c, [c]⟩
  /-- Characters of a kind whose characters join. -/
  | run {kind : TokenKind} {c : Char} {cs : List Char} (joins : kind.isRun = true)
      (chars : ∀ d ∈ c :: cs, isQuote d = false ∧ charKind d = kind) :
      WellFormed ⟨kind, c :: cs⟩

/-- Two lexemes that stay two when they meet. -/
def Apart (first next : Lexeme) : Prop := first.kind.isRun = true → first.kind ≠ next.kind

instance : DecidableRel Apart := fun first next =>
  inferInstanceAs (Decidable (first.kind.isRun = true → first.kind ≠ next.kind))

/-- Lexemes of which none could be longer. -/
structure Cut (lexemes : List Lexeme) : Prop where
  wellFormed : ∀ lexeme ∈ lexemes, lexeme.WellFormed
  apart : lexemes.IsChain Apart

theorem WellFormed.source_ne_nil {lexeme : Lexeme} (formed : lexeme.WellFormed) :
    lexeme.source ≠ [] := by
  cases formed <;> simp

theorem cut_nil : Cut [] := ⟨by simp, .nil⟩

theorem cut_cons {lexeme : Lexeme} {rest : List Lexeme} :
    Cut (lexeme :: rest) ↔
      lexeme.WellFormed ∧ (∀ next ∈ rest.head?, lexeme.Apart next) ∧ Cut rest := by
  constructor
  · rintro ⟨formed, chain⟩
    obtain ⟨first, tail⟩ := List.isChain_cons.mp chain
    exact ⟨formed _ List.mem_cons_self, first,
      ⟨fun other member => formed other (List.mem_cons_of_mem _ member), tail⟩⟩
  · rintro ⟨formed, first, rest⟩
    exact ⟨List.forall_mem_cons.mpr ⟨formed, rest.wellFormed⟩,
      List.isChain_cons.mpr ⟨first, rest.apart⟩⟩

/-- Two cuts in a row are a cut if their neighbours stay apart. -/
theorem cut_append {before after : List Lexeme} :
    Cut (before ++ after) ↔ Cut before ∧ Cut after ∧
      ∀ last ∈ before.getLast?, ∀ first ∈ after.head?, Apart last first := by
  constructor
  · rintro ⟨formed, chain⟩
    obtain ⟨left, right, between⟩ := List.isChain_append.mp chain
    exact ⟨⟨fun lexeme member => formed lexeme (List.mem_append_left _ member), left⟩,
      ⟨fun lexeme member => formed lexeme (List.mem_append_right _ member), right⟩, between⟩
  · rintro ⟨left, right, between⟩
    refine ⟨fun lexeme member => ?_, List.isChain_append.mpr ⟨left.apart, right.apart, between⟩⟩
    rcases List.mem_append.mp member with inLeft | inRight
    · exact left.wellFormed lexeme inLeft
    · exact right.wellFormed lexeme inRight

theorem sources_append (before after : List Lexeme) :
    sources (before ++ after) = sources before ++ sources after := by
  simp [sources]

/-- A character outside every literal leaves a cut a cut. -/
theorem cut_attach {c : Char} {lexemes : List Lexeme} (plain : isQuote c = false)
    (cut : Cut lexemes) : Cut (attach c lexemes) := by
  have alone : ∀ rest : List Lexeme, Cut rest → (∀ next ∈ rest.head?,
      Apart ⟨charKind c, [c]⟩ next) → Cut (⟨charKind c, [c]⟩ :: rest) := by
    intro rest cut apart
    refine cut_cons.mpr ⟨?_, apart, cut⟩
    cases joins : (charKind c).isRun with
    | false => exact .mark plain joins
    | true => exact .run joins (by simp [plain])
  cases lexemes with
  | nil => exact alone [] cut_nil (by simp)
  | cons first rest =>
    simp only [attach]
    split
    · next same =>
      simp only [Bool.and_eq_true, beq_iff_eq] at same
      obtain ⟨formed, apart, cut⟩ := cut_cons.mp cut
      refine cut_cons.mpr ⟨?_, fun next member => apart next member, cut⟩
      cases formed with
      | literal quotes inside =>
        have joins := same.1
        rw [← same.2] at joins
        cases joins
      | mark plain' single =>
        have joins := same.1
        rw [← same.2, single] at joins
        cases joins
      | run joins chars =>
        refine .run joins (List.forall_mem_cons.mpr ⟨⟨plain, same.2.symm⟩, chars⟩)
    · next differs =>
      refine alone _ cut fun next member joins equal => differs ?_
      cases member
      simp only [Bool.and_eq_true, beq_iff_eq]
      exact ⟨joins, equal.symm⟩

/-- The scan cuts; inside a literal it does so if the literal so far is one quote and
    characters other than that. -/
theorem cut_of_scan {state : Option (Char × List Char)} {text : List Char}
    {lexemes : List Lexeme} (scanned : scan state text = .ok lexemes)
    (opened : ∀ quote literal, state = some (quote, literal) →
      isQuote quote = true ∧ ∃ body, literal.reverse = quote :: body ∧ quote ∉ body) :
    Cut lexemes := by
  fun_induction scan state text generalizing lexemes with
  | case1 =>
    cases scanned
    exact cut_nil
  | case2 => cases scanned
  | case3 c rest opens ih =>
    refine ih scanned fun quote literal same => ?_
    cases same
    exact ⟨opens, [], rfl, by simp⟩
  | case4 c rest plain ih =>
    obtain ⟨tail, inner, last⟩ := bind_eq_ok_iff.mp scanned
    cases last
    exact cut_attach (by simpa using plain) (ih inner (by simp))
  | case5 literal quote rest ih =>
    obtain ⟨tail, inner, last⟩ := bind_eq_ok_iff.mp scanned
    cases last
    obtain ⟨quotes, body, written, inside⟩ := opened quote literal rfl
    have whole : (quote :: literal).reverse = quote :: (body ++ [quote]) := by
      rw [List.reverse_cons, written, List.cons_append]
    rw [whole]
    refine cut_cons.mpr ⟨.literal quotes inside, fun next _ joins => ?_, ih inner (by simp)⟩
    cases joins
  | case6 quote literal c rest differs ih =>
    refine ih scanned fun quote' literal' same => ?_
    cases same
    obtain ⟨quotes, body, written, inside⟩ := opened quote literal rfl
    refine ⟨quotes, body ++ [c], by rw [List.reverse_cons, written, List.cons_append], ?_⟩
    simp only [List.mem_append, List.mem_singleton, not_or]
    exact ⟨inside, fun same => differs same.symm⟩

/-- The scan of a literal from behind its first characters to its end. -/
theorem scan_literal {quote : Char} {literal body text : List Char} (inside : quote ∉ body) :
    scan (some (quote, literal)) (body ++ quote :: text) =
      do return ⟨.literal, literal.reverse ++ (body ++ [quote])⟩ :: (← scan none text) := by
  induction body generalizing literal with
  | nil => simp [scan]
  | cons c rest ih =>
    have differs : c ≠ quote := by
      rintro rfl
      exact inside List.mem_cons_self
    rw [List.cons_append, scan, if_neg differs,
      ih fun member => inside (List.mem_cons_of_mem _ member)]
    simp

/-- The scan finds a lexeme in front of lexemes from which it stays apart. -/
theorem scan_cons {lexeme : Lexeme} {text : List Char} {rest : List Lexeme}
    (formed : lexeme.WellFormed) (apart : ∀ next ∈ rest.head?, lexeme.Apart next)
    (scanned : scan none text = .ok rest) :
    scan none (lexeme.source ++ text) = .ok (lexeme :: rest) := by
  cases formed with
  | @literal quote body quotes inside =>
    rw [List.cons_append, List.append_assoc, scan, if_pos quotes, List.singleton_append,
      scan_literal inside, scanned]
    rfl
  | @mark c plain alone =>
    have single : attach c rest = ⟨charKind c, [c]⟩ :: rest := by
      cases rest <;> simp [attach, alone]
    rw [List.singleton_append, scan, if_neg (by simp [plain]), scanned, ← single]
    rfl
  | @run kind c cs joins chars =>
    -- A run grows from its last character on, so only that one meets the next lexeme.
    induction cs generalizing c with
    | nil =>
      obtain ⟨plain, same⟩ := chars c List.mem_cons_self
      subst same
      have single : attach c rest = ⟨charKind c, [c]⟩ :: rest := by
        cases rest with
        | nil => rfl
        | cons next more =>
          have differs : next.kind ≠ charKind c := (apart next rfl joins).symm
          simp [attach, differs]
      rw [List.singleton_append, scan, if_neg (by simp [plain]), scanned, ← single]
      rfl
    | cons d ds ih =>
      obtain ⟨plain, same⟩ := chars c List.mem_cons_self
      have later := ih (fun e member => chars e (List.mem_cons_of_mem _ member)) apart
      have joined : attach c (⟨kind, d :: ds⟩ :: rest) = ⟨kind, c :: d :: ds⟩ :: rest := by
        simp [attach, same, joins]
      rw [List.cons_append, scan, if_neg (by simp [plain]), later, ← joined]
      rfl

/-- Every text with a cut has one only, which the scan finds. -/
theorem scan_eq_ok_iff {text : List Char} {lexemes : List Lexeme} :
    scan none text = .ok lexemes ↔ Cut lexemes ∧ sources lexemes = text := by
  constructor
  · intro scanned
    exact ⟨cut_of_scan scanned (by simp), by simpa using sources_scan none text lexemes scanned⟩
  · rintro ⟨cut, rfl⟩
    induction lexemes with
    | nil => rfl
    | cons lexeme rest ih =>
      obtain ⟨formed, apart, cut⟩ := cut_cons.mp cut
      exact scan_cons formed apart (ih cut)

end Lexeme

end DynamicSql.Sql
