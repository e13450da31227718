import DynamicSql.Proofs.Lexing.Partition

/-!
# Texts side by side

What a token is depends on its own characters and on nothing around it. Two texts in a
row have the tokens of the one and then those of the other, unless the tokens that meet
at the seam belong to one run; and tokens side by side are all the tokens of the stretch
that they cover. Only the counts of bytes in front of the tokens change.
-/

namespace DynamicSql.Sql

/-- The stretch of a text from one count of bytes to another one. -/
def Stretch (text : String) (start stop : Nat) (slice : String) : Prop :=
  ∃ before after, text = before ++ slice ++ after ∧ before.utf8ByteSize = start ∧
    (before ++ slice).utf8ByteSize = stop

/-- A text has at most one stretch between two counts of bytes. -/
theorem Stretch.unique {text : String} {start stop : Nat} {slice other : String}
    (stretch : Stretch text start stop slice) (stretch' : Stretch text start stop other) :
    slice = other := by
  obtain ⟨before, after, split, starts, stops⟩ := stretch
  obtain ⟨before', after', split', starts', stops'⟩ := stretch'
  obtain ⟨front, -⟩ := append_inj_of_utf8ByteSize (split.symm.trans split')
    (stops.trans stops'.symm)
  exact (append_inj_of_utf8ByteSize front (starts.trans starts'.symm)).2

namespace Token

/-- A token behind some more bytes. -/
def shift (offset : Nat) (t : Token) : Token := { t with start := offset + t.start }

/-- The tokens that meet where two texts do stay two. -/
def Parted (front back : List Token) : Prop :=
  ∀ t ∈ front.getLast?, ∀ next ∈ back.head?, t.kind.Distinct next.kind

instance (front back : List Token) : Decidable (Parted front back) :=
  inferInstanceAs (Decidable (∀ _ ∈ _, ∀ _ ∈ _, ¬ (_ = _ ∧ _ = _) ∧ ¬ (_ = _ ∧ _ = _) ∧
    ¬ (_ = true ∧ _ = true)))

end Token

namespace Lexeme

variable {keywords : List Keyword}

theorem place_shift (offset start : Nat) (lexemes : List Lexeme) :
    place keywords (offset + start) lexemes =
      (place keywords start lexemes).map (Token.shift offset) := by
  induction lexemes generalizing start with
  | nil => rfl
  | cons lexeme rest ih =>
    simp only [place, List.map_cons, Token.stop, Nat.add_assoc, ih]
    rfl

/-- Lexemes whose kinds are of different runs stay apart. -/
theorem apart_of_distinct {first next : Lexeme}
    (distinct : (first.kindFor keywords).Distinct (next.kindFor keywords)) :
    first.Apart next := by
  obtain ⟨spaces, operators, words⟩ := distinct
  rw [kindFor_eq_iff rfl, kindFor_eq_iff rfl] at spaces operators
  rw [isWord_kindFor, isWord_kindFor] at words
  intro joins same
  cases kind : first.kind <;> rw [kind] at joins same spaces operators words
  case space => exact spaces ⟨rfl, same.symm⟩
  case operator => exact operators ⟨rfl, same.symm⟩
  case word => exact words ⟨rfl, by rw [← same]; rfl⟩
  all_goals cases joins

/-- Two cuts in a row are a cut if their tokens at the seam stay two. -/
theorem cut_append_of_parted {before after : List Lexeme} (cut : Cut before) (cut' : Cut after)
    {start start' : Nat}
    (parted : Token.Parted (place keywords start before) (place keywords start' after)) :
    Cut (before ++ after) := by
  refine cut_append.mpr ⟨cut, cut', fun last final first opening => ?_⟩
  have ends : (before.map (kindFor keywords)).getLast? = some (last.kindFor keywords) := by
    rw [List.getLast?_map, final, Option.map_some]
  have begins : (after.map (kindFor keywords)).head? = some (first.kindFor keywords) := by
    rw [List.head?_map, opening, Option.map_some]
  rw [← map_kind_place start, List.getLast?_map, Option.map_eq_some_iff] at ends
  rw [← map_kind_place start', List.head?_map, Option.map_eq_some_iff] at begins
  obtain ⟨t, inFront, kind⟩ := ends
  obtain ⟨next, inBack, kind'⟩ := begins
  have distinct := parted t inFront next inBack
  rw [kind, kind'] at distinct
  exact apart_of_distinct distinct

/-- Some lexemes among others cover a stretch of the text that all of them cover. -/
theorem stretch_sources (before middle after : List Lexeme) :
    Stretch (String.ofList (sources (before ++ (middle ++ after)))) (size before)
      (size before + size middle) (String.ofList (sources middle)) := by
  refine ⟨String.ofList (sources before), String.ofList (sources after), ?_, rfl, ?_⟩
  · simp [sources, String.append_assoc]
  · rw [String.utf8ByteSize_append]
    rfl

end Lexeme

variable {keywords : List Keyword}

/-- Two texts in a row have the tokens of both just if the tokens at the seam stay two. -/
theorem tokenize_append_iff {first second : String} {front back : List Token}
    (read : tokenize first keywords = .ok front) (read' : tokenize second keywords = .ok back) :
    tokenize (first ++ second) keywords =
        .ok (front ++ back.map (Token.shift first.utf8ByteSize)) ↔
      Token.Parted front back := by
  constructor
  · intro whole
    have maximal := ((tokenize_eq_ok_iff_partition _ _ _).mp whole).maximal
    intro t final next opening
    have moved : next.shift first.utf8ByteSize ∈
        (back.map (Token.shift first.utf8ByteSize)).head? := by
      rw [List.head?_map, opening]
      rfl
    exact (List.isChain_append.mp maximal).2.2 t final (next.shift _) moved
  · intro parted
    obtain ⟨before, cut, covered, rfl⟩ := tokenize_eq_ok_iff.mp read
    obtain ⟨after, cut', covered', rfl⟩ := tokenize_eq_ok_iff.mp read'
    refine tokenize_eq_ok_iff.mpr
      ⟨before ++ after, Lexeme.cut_append_of_parted cut cut' parted, ?_, ?_⟩
    · rw [Lexeme.sources_append, covered, covered', String.toList_append]
    · have bytes : Lexeme.size before = first.utf8ByteSize := by
        rw [Lexeme.size, covered, String.ofList_toList]
      rw [Lexeme.place_append, Nat.zero_add, bytes, ← Lexeme.place_shift, Nat.add_zero]

/-- Tokens side by side are all the tokens of the stretch that they cover. -/
theorem tokenize_stretch {sql : String} {before range after : List Token}
    (read : tokenize sql keywords = .ok (before ++ (range ++ after))) {opening closing : Token}
    (opens : range.head? = some opening) (closes : range.getLast? = some closing) :
    ∃ slice tokens, Stretch sql opening.start closing.stop slice ∧
      tokenize slice keywords = .ok tokens ∧ tokens.map (Token.shift opening.start) = range := by
  obtain ⟨lexemes, cut, covered, placed⟩ := tokenize_eq_ok_iff.mp read
  obtain ⟨front, rest, rfl, -, placed⟩ := Lexeme.place_eq_append placed
  obtain ⟨middle, back, rfl, rfl, -⟩ := Lexeme.place_eq_append placed
  have starts : opening.start = Lexeme.size front := by
    rw [Lexeme.head?_place (Option.mem_def.mpr opens), Nat.zero_add]
  have stops : closing.stop = Lexeme.size front + Lexeme.size middle := by
    have last := (Lexeme.place_contiguous keywords (0 + Lexeme.size front) middle).2
    rwa [closes, Option.map_some, Option.getD_some, Nat.zero_add] at last
  have middleCut : Lexeme.Cut middle :=
    (Lexeme.cut_append.mp (Lexeme.cut_append.mp cut).2.1).1
  refine ⟨String.ofList (Lexeme.sources middle), Lexeme.place keywords 0 middle, ?_, ?_, ?_⟩
  · rw [starts, stops, ← String.ofList_toList (s := sql), ← covered]
    exact Lexeme.stretch_sources front middle back
  · exact tokenize_eq_ok_iff.mpr ⟨middle, middleCut, String.toList_ofList.symm, rfl⟩
  · rw [← Lexeme.place_shift, starts, Nat.add_comm]

/-- Reading is compositional. Two texts in a row have the tokens of the first one and then those
    of the second one behind its bytes, just if the tokens at the seam stay two. And tokens side
    by side are what the stretch from the first to the last of them is read as, apart from the
    count of bytes in front of it. -/
theorem tokenize_side_by_side (keywords : List Keyword) :
    (∀ {first second : String} {front back : List Token},
      tokenize first keywords = .ok front → tokenize second keywords = .ok back →
      (tokenize (first ++ second) keywords =
          .ok (front ++ back.map (Token.shift first.utf8ByteSize)) ↔
        Token.Parted front back)) ∧
    ∀ {sql : String} {before range after : List Token} {opening closing : Token},
      tokenize sql keywords = .ok (before ++ range ++ after) →
      range.head? = some opening → range.getLast? = some closing →
      (∃ slice, Stretch sql opening.start closing.stop slice) ∧
      ∀ slice, Stretch sql opening.start closing.stop slice →
        ∃ tokens, tokenize slice keywords = .ok tokens ∧
          tokens.map (Token.shift opening.start) = range := by
  refine ⟨fun read read' => tokenize_append_iff read read', fun read opens closes => ?_⟩
  rw [List.append_assoc] at read
  obtain ⟨covered, tokens, stretch, readSlice, moved⟩ := tokenize_stretch read opens closes
  refine ⟨⟨covered, stretch⟩, fun slice stretch' => ⟨tokens, ?_, moved⟩⟩
  rw [stretch'.unique stretch]
  exact readSlice

/-- Two literals meet where the texts do, behind a character of two bytes; and of the three tokens
    of the first text the last two are read alone. -/
theorem tokenize_side_by_side_of_literals :
    let front : List Token := [⟨.word, 0, "x"⟩, ⟨.operator, 1, "="⟩, ⟨.literal, 2, "'é'"⟩]
    let back : List Token := [⟨.literal, 0, "\"?\""⟩, ⟨.space, 3, "\t"⟩, ⟨.question, 4, "?"⟩]
    (tokenize "x='é'" [] = .ok front ∧ tokenize "\"?\"\t?" [] = .ok back ∧
      Token.Parted front back ∧
      tokenize "x='é'\"?\"\t?" [] = .ok (front ++ back.map (Token.shift 6))) ∧
    Stretch "x='é'" 1 6 "='é'" ∧
      ∃ tokens, tokenize "='é'" [] = .ok tokens ∧ tokens.map (Token.shift 1) = front.drop 1 := by
  intro front back
  have read : tokenize "x='é'" [] = .ok front := by
    apply eq_ok_of_toOption
    decide +kernel
  have read' : tokenize "\"?\"\t?" [] = .ok back := by
    apply eq_ok_of_toOption
    decide +kernel
  have parted : Token.Parted front back := by decide
  have stretch : Stretch "x='é'" 1 6 "='é'" := ⟨"x", "", rfl, by decide, by decide⟩
  obtain ⟨both, inside⟩ := tokenize_side_by_side []
  have divided : tokenize "x='é'" [] = .ok (front.take 1 ++ front.drop 1 ++ []) := read
  have alone := (inside divided rfl rfl).2 "='é'" stretch
  exact ⟨⟨read, read', parted, (both read read').mpr parted⟩, stretch, alone⟩

end DynamicSql.Sql
