import DynamicSql.Error
import DynamicSql.Sql.Token

/-!
# From text to tokens

A statement is cut into lexemes first: quoted literals, single punctuation
characters, and runs of blanks, of operator characters and of all other
characters. The cut depends on the text alone. Tokens are lexemes at their
places, in which those words count as keywords that the reader asked for.
-/

namespace DynamicSql.Sql

/-- A quote opens a literal and closes it again. -/
def isQuote (c : Char) : Bool := c == '\'' || c == '"'

/-- The blanks between tokens: space, tab, line feed, form feed and carriage return. -/
def isTokenSpace (c : Char) : Bool :=
  c == ' ' || c == '\t' || c == '\r' || c == '\n' || c == '\x0c'

/-- The characters of operators. -/
def isOperator (c : Char) : Bool :=
  c ∈ ['=', '+', '-', '/', '%', '^', '>', '<', '!', '&', '|', ':', '~']

/-- The kind of a punctuation character. -/
def punctuation? (c : Char) : Option TokenKind :=
  match c with
  | '*' => some .asterisk
  | '.' => some .dot
  | '(' => some .leftParen
  | ')' => some .rightParen
  | ',' => some .comma
  | ';' => some .semicolon
  | '?' => some .question
  | _ => none

/-- The kind of the lexeme to which a character outside literals belongs. -/
def charKind (c : Char) : TokenKind :=
  if isTokenSpace c then .space
  else match punctuation? c with
    | some kind => kind
    | none => if isOperator c then .operator else .word

/-- Adjacent characters of the kind belong to one lexeme. -/
def TokenKind.isRun : TokenKind → Bool
  | space => true
  | operator => true
  | word => true
  | _ => false

/-- A stretch of text with its kind, before keywords are told from words. -/
structure Lexeme where
  kind : TokenKind
  source : List Char
  deriving DecidableEq, Repr

namespace Lexeme

/-- Puts a character in front of lexemes, into the first of them if both belong
    to one run. -/
def attach (c : Char) : List Lexeme → List Lexeme
  | [] => [⟨charKind c, [c]⟩]
  | first :: rest =>
    if (charKind c).isRun && first.kind == charKind c then
      ⟨first.kind, c :: first.source⟩ :: rest
    else ⟨charKind c, [c]⟩ :: first :: rest

/-- Cuts a text into lexemes. The first argument is the quote of an open literal
    with the literal so far, the last character first. A literal that stays open
    is the error, given from its quote to the end of the text. -/
def scan : Option (Char × List Char) → List Char → Except (List Char) (List Lexeme)
  | none, [] => .ok []
  | some (_, literal), [] => .error literal.reverse
  | none, c :: rest =>
    if isQuote c then scan (some (c, [c])) rest
    else do return attach c (← scan none rest)
  | some (quote, literal), c :: rest =>
    if c = quote then
      do return ⟨.literal, (c :: literal).reverse⟩ :: (← scan none rest)
    else scan (some (quote, c :: literal)) rest

/-- The characters of some lexemes in a row. -/
def sources (lexemes : List Lexeme) : List Char :=
  lexemes.flatMap source

theorem sources_attach (c : Char) (lexemes : List Lexeme) :
    sources (attach c lexemes) = c :: sources lexemes := by
  cases lexemes with
  | nil => rfl
  | cons first rest =>
    simp only [attach]
    split <;> rfl

/-- Lexemes lose no character, and neither does the literal that was open. -/
theorem sources_scan (state : Option (Char × List Char)) (text : List Char)
    (lexemes : List Lexeme) (scanned : scan state text = .ok lexemes) :
    sources lexemes = ((state.map Prod.snd).getD []).reverse ++ text := by
  fun_induction scan state text generalizing lexemes with
  | case1 =>
    cases scanned
    rfl
  | case2 => cases scanned
  | case3 c rest opens ih => simpa using ih lexemes scanned
  | case4 c rest opens ih =>
    cases inner : scan none rest with
    | error tail => simp [inner, bind, Except.bind] at scanned
    | ok tail =>
      simp only [inner, bind, Except.bind, pure, Except.pure, Except.ok.injEq] at scanned
      subst scanned
      simp [sources_attach, ih tail inner]
  | case5 quote literal rest ih =>
    cases inner : scan none rest with
    | error tail => simp [inner, bind, Except.bind] at scanned
    | ok tail =>
      simp only [inner, bind, Except.bind, pure, Except.pure, Except.ok.injEq] at scanned
      subst scanned
      have later := ih tail inner
      simp only [sources, List.flatMap_cons] at later ⊢
      simp [later]
  | case6 quote literal c rest differs ih => simpa using ih lexemes scanned

/-- The kind of a lexeme for a reader of some keywords. -/
def kindFor (keywords : List Keyword) (lexeme : Lexeme) : TokenKind :=
  if lexeme.kind = .word then
    match Keyword.classify (String.ofList lexeme.source) keywords with
    | some keyword => .keyword keyword
    | none => .word
  else lexeme.kind

/-- Lexemes as tokens, one after the other from a place on. -/
def place (keywords : List Keyword) : Nat → List Lexeme → List Token
  | _, [] => []
  | start, lexeme :: rest =>
    let token : Token := ⟨lexeme.kindFor keywords, start, String.ofList lexeme.source⟩
    token :: place keywords token.stop rest

theorem sourceOf_place (keywords : List Keyword) (start : Nat) (lexemes : List Lexeme) :
    Token.sourceOf (place keywords start lexemes) = String.ofList (sources lexemes) := by
  induction lexemes generalizing start with
  | nil => rfl
  | cons lexeme rest ih => simp [place, Token.sourceOf, ih, sources]

end Lexeme

/-- The tokens of a statement for a reader of some keywords. -/
def tokenize (sql : String) (keywords : List Keyword) : Except Error (List Token) :=
  match Lexeme.scan none sql.toList with
  | .ok lexemes => .ok (Lexeme.place keywords 0 lexemes)
  | .error openLiteral =>
    let tail := String.ofList openLiteral
    .error (.unterminatedLiteral (sql.utf8ByteSize - tail.utf8ByteSize) tail)

/-- The tokens of a statement cover all of it. -/
theorem sourceOf_tokenize {sql : String} {keywords : List Keyword} {tokens : List Token}
    (cut : tokenize sql keywords = .ok tokens) : Token.sourceOf tokens = sql := by
  unfold tokenize at cut
  cases scanned : Lexeme.scan none sql.toList with
  | error tail => simp [scanned] at cut
  | ok lexemes =>
    simp only [scanned, Except.ok.injEq] at cut
    subst cut
    simp [Lexeme.sourceOf_place, Lexeme.sources_scan _ _ _ scanned]

end DynamicSql.Sql
