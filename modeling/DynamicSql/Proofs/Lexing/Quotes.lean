import DynamicSql.Proofs.Lexing.Tokens

/-!
# Open quotes

Where a text stands with respect to its literals is known from its quotes alone: one that
stands outside opens a literal, and the next one of its kind closes it. A statement can be
read just if it ends outside, for no run of characters ever holds a quote. Otherwise the
last quote that was met outside is where reading fails, and what stands in front of it can
be read.
-/

namespace DynamicSql.Sql

/-- Where a text stands: outside every literal, or inside one between quotes of a kind. -/
inductive Quoting where
  | outside
  | single
  | double
  deriving DecidableEq, Repr

namespace Quoting

/-- A quote outside opens a literal, and inside it only the same quote matters, which closes it. -/
def step : Quoting → Char → Quoting
  | outside, '\'' => single
  | outside, '"' => double
  | single, '\'' => outside
  | double, '"' => outside
  | state, _ => state

/-- Where a text stands at its end, given where it stands at its beginning. -/
def after (state : Quoting) (text : List Char) : Quoting := text.foldl step state

/-- A text that ends inside a literal: what stands in front of the quote that opened this literal,
    and what stands from that quote on. -/
structure OpenLiteral (front tail : List Char) : Prop where
  opens : tail ≠ []
  outside : after outside front = outside
  inside : ∀ begun, begun <+: tail → begun ≠ [] → after .outside (front ++ begun) ≠ .outside

theorem after_append (state : Quoting) (front back : List Char) :
    after state (front ++ back) = after (after state front) back :=
  List.foldl_append

theorem after_cons (state : Quoting) (c : Char) (rest : List Char) :
    after state (c :: rest) = after (state.step c) rest := rfl

theorem step_outside {c : Char} (plain : isQuote c = false) : step outside c = outside := by
  simp only [isQuote, Bool.or_eq_false_iff, beq_eq_false_iff_ne] at plain
  unfold step
  split <;> simp_all

theorem step_outside_ne {quote : Char} (quotes : isQuote quote = true) :
    step outside quote ≠ outside := by
  simp only [isQuote, Bool.or_eq_true, beq_iff_eq] at quotes
  rcases quotes with rfl | rfl <;> decide

/-- Inside a literal only its own quote matters. -/
theorem step_inside {quote : Char} (quotes : isQuote quote = true) (c : Char) :
    (step outside quote).step c = if c = quote then outside else step outside quote := by
  simp only [isQuote, Bool.or_eq_true, beq_iff_eq] at quotes
  rcases quotes with rfl | rfl
  · show step single c = if c = '\'' then outside else single
    unfold step
    split <;> simp_all
  · show step double c = if c = '"' then outside else double
    unfold step
    split <;> simp_all

theorem after_of_plain {text : List Char} (plain : ∀ c ∈ text, isQuote c = false) :
    after outside text = outside := by
  induction text with
  | nil => rfl
  | cons c rest ih =>
    obtain ⟨first, others⟩ := List.forall_mem_cons.mp plain
    rw [after_cons, step_outside first, ih others]

/-- A literal stays open up to its quote. -/
theorem after_inside {quote : Char} {body : List Char} (quotes : isQuote quote = true)
    (inside : quote ∉ body) : after (step outside quote) body = step outside quote := by
  induction body with
  | nil => rfl
  | cons c rest ih =>
    obtain ⟨differs, later⟩ := not_or.mp (List.mem_cons.not.mp inside)
    rw [after_cons, step_inside quotes, if_neg fun same => differs same.symm, ih later]

/-- The quote that opened the last literal is the only one that it could be. -/
theorem OpenLiteral.unique {front tail front' tail' : List Char}
    (literal : OpenLiteral front tail) (literal' : OpenLiteral front' tail')
    (same : front ++ tail = front' ++ tail') : front = front' ∧ tail = tail' := by
  rcases List.append_eq_append_iff.mp same with ⟨between, split, rest⟩ | ⟨between, split, rest⟩
  · cases between with
    | nil => exact ⟨by rw [split, List.append_nil], rest⟩
    | cons c between =>
      have inside := literal.inside (c :: between) ⟨tail', rest.symm⟩ (List.cons_ne_nil c between)
      rw [← split] at inside
      exact absurd literal'.outside inside
  · cases between with
    | nil => exact ⟨by rw [split, List.append_nil], rest.symm⟩
    | cons c between =>
      have inside := literal'.inside (c :: between) ⟨tail, rest.symm⟩ (List.cons_ne_nil c between)
      rw [← split] at inside
      exact absurd literal.outside inside

/-- A quote behind what is closed opens the last literal if it does not come again. -/
theorem openLiteral_of_quote {front body : List Char} {quote : Char}
    (outside : after .outside front = .outside) (quotes : isQuote quote = true)
    (inside : quote ∉ body) : OpenLiteral front (quote :: body) := by
  refine ⟨List.cons_ne_nil quote body, outside, fun begun beginning some => ?_⟩
  cases begun with
  | nil => exact absurd rfl some
  | cons c rest =>
    obtain ⟨rfl, further⟩ := List.cons_prefix_cons.mp beginning
    rw [after_append, outside, after_cons,
      after_inside quotes fun member => inside (further.subset member)]
    exact step_outside_ne quotes

/-- Whatever ends inside a literal does not end outside. -/
theorem OpenLiteral.after_ne {front tail : List Char} (literal : OpenLiteral front tail) :
    after .outside (front ++ tail) ≠ .outside :=
  literal.inside tail (List.prefix_refl tail) literal.opens

end Quoting

namespace Lexeme

/-- A lexeme closes what it opens. -/
theorem WellFormed.after_source {lexeme : Lexeme} (formed : lexeme.WellFormed) :
    Quoting.after .outside lexeme.source = .outside := by
  cases formed with
  | literal quotes inside =>
    rw [Quoting.after_cons, Quoting.after_append, Quoting.after_inside quotes inside,
      Quoting.after_cons, Quoting.step_inside quotes, if_pos rfl]
    rfl
  | mark plain _ => exact Quoting.after_of_plain (by simpa using plain)
  | run _ chars => exact Quoting.after_of_plain fun d member => (chars d member).1

theorem Cut.after_sources {lexemes : List Lexeme} (cut : Cut lexemes) :
    Quoting.after .outside (sources lexemes) = .outside := by
  induction lexemes with
  | nil => rfl
  | cons lexeme rest ih =>
    obtain ⟨formed, -, cut⟩ := cut_cons.mp cut
    rw [sources, List.flatMap_cons, Quoting.after_append, formed.after_source]
    exact ih cut

/-- A literal whose quote does not come again stays open to the end. -/
theorem scan_open {quote : Char} {literal text : List Char} (inside : quote ∉ text) :
    scan (some (quote, literal)) text = .error (literal.reverse ++ text) := by
  induction text generalizing literal with
  | nil => simp [scan]
  | cons c rest ih =>
    obtain ⟨differs, later⟩ := not_or.mp (List.mem_cons.not.mp inside)
    rw [scan, if_neg fun same => differs same.symm, ih later]
    simp

/-- A scan that fails does so at a quote that does not come again, behind a text with a cut. -/
theorem scan_eq_error {text tail : List Char} (failed : scan none text = .error tail) :
    ∃ lexemes quote body, Cut lexemes ∧ text = sources lexemes ++ tail ∧
      tail = quote :: body ∧ isQuote quote = true ∧ quote ∉ body := by
  induction size : text.length using Nat.strongRecOn generalizing text with
  | ind n ih =>
    cases text with
    | nil => cases failed
    | cons c rest =>
      rw [scan] at failed
      split at failed
      · next quotes =>
        by_cases again : c ∈ rest
        · obtain ⟨body, behind, rfl, inside⟩ := List.eq_append_cons_of_mem again
          rw [scan_literal inside] at failed
          have fails := (bind_eq_error_iff.mp failed).resolve_right (by simp [pure, Except.pure])
          have shorter : behind.length < n := by
            rw [← size, List.length_cons, List.length_append, List.length_cons]
            omega
          obtain ⟨lexemes, quote, last, cut, rfl, opened⟩ := ih _ shorter fails rfl
          refine ⟨⟨.literal, c :: (body ++ [c])⟩ :: lexemes, quote, last,
            cut_cons.mpr ⟨.literal quotes inside, ?_, cut⟩, by simp [sources], opened⟩
          intro next _ joins
          cases joins
        · rw [scan_open again] at failed
          cases failed
          exact ⟨[], c, rest, cut_nil, rfl, rfl, quotes, again⟩
      · next plain =>
        have fails := (bind_eq_error_iff.mp failed).resolve_right (by simp [pure, Except.pure])
        obtain ⟨lexemes, quote, last, cut, rfl, opened⟩ :=
          ih _ (by rw [← size]; exact Nat.lt_succ_self _) fails rfl
        exact ⟨attach c lexemes, quote, last, cut_attach (by simpa using plain) cut,
          by rw [sources_attach, List.cons_append], opened⟩

end Lexeme

/-- A statement can be read and ends outside every literal, or it fails at the quote that opened the
    literal in which it ends. -/
theorem tokenize_cases (sql : String) (keywords : List Keyword) :
    ((∃ tokens, tokenize sql keywords = .ok tokens) ∧
      Quoting.after .outside sql.toList = .outside) ∨
    ∃ front tail, sql = front ++ tail ∧ Quoting.OpenLiteral front.toList tail.toList ∧
      tokenize sql keywords = .error (.unterminatedLiteral front.utf8ByteSize tail) ∧
      ∃ tokens, tokenize front keywords = .ok tokens := by
  cases scanned : Lexeme.scan none sql.toList with
  | ok lexemes =>
    obtain ⟨cut, covered⟩ := Lexeme.scan_eq_ok_iff.mp scanned
    exact .inl ⟨⟨_, tokenize_eq_ok_iff.mpr ⟨lexemes, cut, covered, rfl⟩⟩,
      covered ▸ cut.after_sources⟩
  | error tail =>
    obtain ⟨lexemes, quote, body, cut, covered, opened, quotes, inside⟩ :=
      Lexeme.scan_eq_error scanned
    have split : sql = String.ofList (Lexeme.sources lexemes) ++ String.ofList tail := by
      rw [← String.ofList_append, ← covered, String.ofList_toList]
    refine .inr ⟨String.ofList (Lexeme.sources lexemes), String.ofList tail, split, ?_, ?_, _,
      tokenize_eq_ok_iff.mpr ⟨lexemes, cut, String.toList_ofList.symm, rfl⟩⟩
    · rw [String.toList_ofList, String.toList_ofList, opened]
      exact Quoting.openLiteral_of_quote cut.after_sources quotes inside
    · rw [tokenize, scanned]
      dsimp only
      rw [split, String.utf8ByteSize_append, Nat.add_sub_cancel]

/-- Reading fails just if the statement ends inside a literal. The error gives the place of the
    quote that opened this literal and the text from it on, and what stands in front of the quote
    can be read. -/
theorem tokenize_fails_in_literal (sql : String) (keywords : List Keyword) :
    ((∃ error, tokenize sql keywords = .error error) ↔
      Quoting.after .outside sql.toList ≠ .outside) ∧
    ∀ error, tokenize sql keywords = .error error ↔
      ∃ front tail, sql = front ++ tail ∧ Quoting.OpenLiteral front.toList tail.toList ∧
        error = .unterminatedLiteral front.utf8ByteSize tail ∧
        ∃ tokens, tokenize front keywords = .ok tokens := by
  rcases tokenize_cases sql keywords with ⟨⟨tokens, read⟩, outside⟩ |
    ⟨front, tail, split, literal, failed, readFront⟩
  · refine ⟨⟨fun ⟨error, failed⟩ => ?_, fun inside => absurd outside inside⟩,
      fun error => ⟨fun failed => ?_, ?_⟩⟩
    · cases read.symm.trans failed
    · cases read.symm.trans failed
    · rintro ⟨front, tail, rfl, literal, -⟩
      rw [String.toList_append] at outside
      exact absurd outside literal.after_ne
  · have inside : Quoting.after .outside sql.toList ≠ .outside := by
      rw [split, String.toList_append]
      exact literal.after_ne
    refine ⟨⟨fun _ => inside, fun _ => ⟨_, failed⟩⟩, fun error => ⟨fun failed' => ?_, ?_⟩⟩
    · cases failed.symm.trans failed'
      exact ⟨front, tail, split, literal, rfl, readFront⟩
    · rintro ⟨front', tail', split', literal', rfl, -⟩
      have same := congrArg String.toList (split.symm.trans split')
      rw [String.toList_append, String.toList_append] at same
      obtain ⟨sameFront, sameTail⟩ := literal.unique literal' same
      rw [failed, String.toList_inj.mp sameFront, String.toList_inj.mp sameTail]

/-- The apostrophe in the text between double quotes opens nothing, and the one behind it does. -/
example : tokenize "é \"it's\" 'no" [] = .error (.unterminatedLiteral 10 "'no") := by rfl

end DynamicSql.Sql
