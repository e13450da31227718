import DynamicSql.Parameter.Fragment
import DynamicSql.Proofs.Outcome
import Mathlib.Data.List.Basic

/-!
# Text divided by number signs

The number signs of a text divide it into parts. Counted from zero, the parts at
even positions are plain, and each part at an odd position is enclosed by the sign
in front of it and the one behind it: it is an escaped sign if it is empty and
declares a parameter otherwise. So the fragment of a text can be told from its
parts, and so can the error: the first declaration that cannot be read or bound,
or else the last part if no sign closes it.
-/

namespace DynamicSql

/-- One placeholder and nothing around it. -/
theorem Text.spans_placeholder {body : List Char} (noSign : '#' ∉ body) :
    spans '#' ('#' :: (body ++ ['#'])) = [.plain [], .enclosed body, .plain []] := by
  have joined : '#' :: (body ++ ['#']) = ['#'].intercalate [[], body, []] := by
    simp
  rw [spans, joined, List.splitOn_intercalate '#' (by simp [noSign]) (by simp)]
  rfl

namespace Fragment

variable {cls : ParameterClass} {converters : Converters}

/-- The parameter that the text between two number signs declares. -/
def declared (cls : ParameterClass) (converters : Converters) (body : List Char) :
    Except Error Binding := do
  (← Declaration.parse (String.ofList body)).bind cls converters

/-- A placeholder with nothing around it is a marker, with the binding that it declares. -/
theorem parse_placeholder {body : List Char} (nonempty : body ≠ []) (noSign : '#' ∉ body) :
    parse cls converters (String.ofList ('#' :: (body ++ ['#']))) =
      (declared cls converters body).map marker := by
  have alone (binding : Binding) :
      ofText (String.ofList []) ++ (marker binding ++ (ofText (String.ofList []) ++ {})) =
        marker binding := by
    ext1 <;> simp [ofText]
  rw [parse, String.toList_ofList, Text.spans_placeholder noSign, declared]
  cases body with
  | nil => exact absurd rfl nonempty
  | cons c rest =>
    simp only [ofSpans]
    cases Declaration.parse (String.ofList (c :: rest)) with
    | error e => rfl
    | ok declaration =>
      simp only [bind, Except.bind]
      cases declaration.bind cls converters with
      | error e => rfl
      | ok binding => exact congrArg Except.ok (alone binding)

/-- A placeholder that can be read gives a marker if what it declares has a converter. -/
theorem parse_placeholder_eq_ok {body : List Char} (nonempty : body ≠ []) (noSign : '#' ∉ body)
    {d : Declaration} (read : Declaration.parse (String.ofList body) = .ok d)
    {fragment : Fragment} :
    parse cls converters (String.ofList ('#' :: (body ++ ['#']))) = .ok fragment ↔
      ∃ converter, d.converter cls converters = .ok converter ∧
        fragment = .marker ⟨d, converter⟩ := by
  rw [parse_placeholder nonempty noSign, declared, read]
  show (d.bind cls converters).map marker = _ ↔ _
  rw [Declaration.bind]
  cases d.converter cls converters with
  | error e => simp [bind, Except.bind, Except.map]
  | ok converter => simp [bind, Except.bind, Except.map, pure, Except.pure, eq_comm]

/-- What the part at a position leaves in the statement. -/
def partText (position : Nat) (part : List Char) : String :=
  if position % 2 = 0 then String.ofList part else if part = [] then "#" else "?"

/-- The part at a position, if it declares a parameter. -/
def declaration? (position : Nat) (part : List Char) : Option (List Char) :=
  if position % 2 = 1 ∧ part ≠ [] then some part else none

/-- The parts that declare parameters. -/
def declarations (parts : List (List Char)) : List (List Char) :=
  (parts.mapIdx declaration?).filterMap id

/-- Two positions further a part has the same meaning. -/
theorem partText_add_two (position : Nat) : partText (position + 1 + 1) = partText position := by
  funext part
  have parity : (position + 1 + 1) % 2 = position % 2 := by omega
  rw [partText, partText, parity]

theorem declaration?_add_two (position : Nat) :
    declaration? (position + 1 + 1) = declaration? position := by
  funext part
  have parity : (position + 1 + 1) % 2 = position % 2 := by omega
  rw [declaration?, declaration?, parity]

theorem mapIdx_partText (text body : List Char) (rest : List (List Char)) :
    (text :: body :: rest).mapIdx partText =
      String.ofList text :: (if body = [] then "#" else "?") :: rest.mapIdx partText := by
  simp only [List.mapIdx_cons, partText_add_two]
  rfl

theorem declarations_cons (text body : List Char) (rest : List (List Char)) :
    declarations (text :: body :: rest) =
      if body = [] then declarations rest else body :: declarations rest := by
  simp only [declarations, List.mapIdx_cons, declaration?_add_two]
  by_cases empty : body = []
  · simp [declaration?, empty]
  · simp [declaration?, empty]

/-- The declarations in front of a part, the part itself and the declarations behind it. -/
theorem declarations_append {front : List (List Char)} (behind : List (List Char))
    {body : List Char} (odd : front.length % 2 = 1) (nonempty : body ≠ []) :
    ∃ rest, declarations (front ++ body :: behind) = declarations front ++ body :: rest := by
  refine ⟨(behind.mapIdx fun i => declaration? (i + 1 + front.length)).filterMap id, ?_⟩
  have declares : declaration? (0 + front.length) body = some body := by
    rw [Nat.zero_add, declaration?, if_pos ⟨odd, nonempty⟩]
  rw [declarations, List.mapIdx_append, List.filterMap_append, List.mapIdx_cons, declares]
  rfl

/-- The last part of an odd number of parts declares nothing. -/
theorem declarations_dropLast {parts : List (List Char)} (odd : parts.length % 2 = 1) :
    declarations parts.dropLast = declarations parts := by
  rcases List.eq_nil_or_concat' parts with rfl | ⟨front, last, rfl⟩
  · rfl
  · rw [List.length_append, List.length_singleton] at odd
    have even : ¬ front.length % 2 = 1 := by omega
    rw [List.dropLast_concat, declarations, declarations, List.mapIdx_append]
    simp [declaration?, even]

/-- What the paired parts give: the bindings of the declarations that are closed, and then the
    statement or the error of the part that is not closed. -/
theorem ofSpans_pairParts {parts : List (List Char)} (nonempty : parts ≠ []) :
    ofSpans cls converters (Text.pairParts parts) = (do
      let bindings ← (declarations parts.dropLast).mapM (declared cls converters)
      if parts.length % 2 = 1 then
        return ⟨String.join (parts.mapIdx partText), bindings⟩
      else
        throw (.template .unterminatedParameter
          (String.ofList ('#' :: parts.getLast?.getD [])))) := by
  fun_induction Text.pairParts parts with
  | case1 => exact absurd rfl nonempty
  | case2 text =>
    have alone : ofText (String.ofList text) ++ {} =
        ⟨String.join ([text].mapIdx partText), []⟩ := by
      ext1 <;> simp [ofText, partText]
    exact congrArg Except.ok alone
  | case3 text tail =>
    have even : ¬ [text, tail].length % 2 = 1 := by simp
    simp only [ofSpans, if_neg even]
    rfl
  | case4 text body rest more ih =>
    have parity : (text :: body :: rest).length % 2 = rest.length % 2 := by
      simp only [List.length_cons]
      omega
    have last : (text :: body :: rest).getLast? = rest.getLast? := by
      rw [List.getLast?_cons_of_ne_nil (by simp), List.getLast?_cons_of_ne_nil more]
    have front : (text :: body :: rest).dropLast = text :: body :: rest.dropLast := by
      rw [List.dropLast_cons_of_ne_nil (by simp), List.dropLast_cons_of_ne_nil more]
    rw [parity, last, front, declarations_cons, mapIdx_partText]
    cases body with
    | nil =>
      simp only [ofSpans, ih more, bind_assoc, if_true]
      refine congrArg (bind _) (funext fun bindings => ?_)
      split
      · refine congrArg Except.ok ?_
        ext1 <;> simp [ofText]
      · rfl
    | cons c cs =>
      simp only [ofSpans, ih more, if_neg (List.cons_ne_nil c cs), List.mapM_cons, declared,
        bind_assoc]
      refine congrArg (bind _) (funext fun declaration => ?_)
      refine congrArg (bind _) (funext fun binding => ?_)
      refine congrArg (bind _) (funext fun bindings => ?_)
      split
      · refine congrArg Except.ok ?_
        ext1 <;> simp [ofText, marker]
      · rfl

/-- The fragment of a text by the parts between its number signs. The first closed declaration
    that cannot be read or bound is the error. If there is none, a text whose last part is plain
    becomes its parts with a marker for each declaration, and otherwise the last part is the
    error with the sign in front of it. -/
theorem parse_of_parts (cls : ParameterClass) (converters : Converters) {text : String}
    {parts : List (List Char)} (nonempty : parts ≠ []) (unsigned : ∀ part ∈ parts, '#' ∉ part)
    (joined : ['#'].intercalate parts = text.toList) :
    (∀ front body behind e, parts = front ++ body :: behind → front.length % 2 = 1 →
      behind ≠ [] → body ≠ [] →
      (∀ earlier ∈ declarations front, ∃ binding,
        declared cls converters earlier = .ok binding) →
      declared cls converters body = .error e → parse cls converters text = .error e) ∧
    ((∀ body ∈ declarations parts.dropLast, ∃ binding,
        declared cls converters body = .ok binding) →
      (parts.length % 2 = 1 → ∃ bindings,
        List.Forall₂ (fun body binding => declared cls converters body = .ok binding)
          (declarations parts) bindings ∧
        parse cls converters text = .ok ⟨String.join (parts.mapIdx partText), bindings⟩) ∧
      (parts.length % 2 = 0 → ∃ tail, parts.getLast? = some tail ∧
        parse cls converters text =
          .error (.template .unterminatedParameter (String.ofList ('#' :: tail))))) := by
  have divided : parse cls converters text = ofSpans cls converters (Text.pairParts parts) := by
    rw [parse, Text.spans, ← joined, List.splitOn_intercalate '#' unsigned nonempty]
  rw [divided, ofSpans_pairParts nonempty]
  constructor
  · intro front body behind e split odd closed some each fails
    have dropped : parts.dropLast = front ++ body :: behind.dropLast := by
      rw [split, List.dropLast_append_of_ne_nil (by simp), List.dropLast_cons_of_ne_nil closed]
    obtain ⟨rest, declares⟩ := declarations_append behind.dropLast odd some
    rw [dropped, declares, mapM_eq_error each fails]
    rfl
  · intro each
    obtain ⟨bindings, bound, all⟩ := exists_mapM_eq_ok each
    rw [bound]
    constructor
    · intro odd
      rw [declarations_dropLast odd] at all
      exact ⟨bindings, all, if_pos odd⟩
    · intro even
      have noText : ¬ parts.length % 2 = 1 := by omega
      have last := List.getLast?_eq_some_getLast nonempty
      refine ⟨parts.getLast nonempty, last, ?_⟩
      rw [last]
      exact if_neg noText

/-- Characters of more than one byte, an escaped sign and two declarations. In the second text
    a declaration without a name stands in front of a sign that nothing closes. -/
theorem parse_of_parts_with_escape :
    parse .unknown ({} : Registry) "é## = #a# ∧ #b.c:DATE#" =
      .ok ⟨"é# = ? ∧ ?",
        [⟨{ property := "a" }, Registry.usual .unknown none⟩,
          ⟨{ property := "b.c", jdbcType := some "DATE" },
            Registry.usual .unknown (some "DATE")⟩]⟩ ∧
    parse .unknown ({} : Registry) "#a# ∧ #,# ∧ #b" =
      .error (.template .missingPropertyName ",") := by
  constructor
  · have joined : ['#'].intercalate ["é".toList, [], " = ".toList, ['a'], " ∧ ".toList,
        "b.c:DATE".toList, []] = "é## = #a# ∧ #b.c:DATE#".toList := by decide
    have declares : declarations ["é".toList, [], " = ".toList, ['a'], " ∧ ".toList,
        "b.c:DATE".toList, []] = [['a'], "b.c:DATE".toList] := by decide
    have first : declared .unknown ({} : Registry) ['a'] =
        .ok ⟨{ property := "a" }, Registry.usual .unknown none⟩ := by decide +kernel
    have second : declared .unknown ({} : Registry) "b.c:DATE".toList =
        .ok ⟨{ property := "b.c", jdbcType := some "DATE" },
          Registry.usual .unknown (some "DATE")⟩ := by decide +kernel
    have parts := (parse_of_parts .unknown ({} : Registry) (by decide) (by decide) joined).2
    rw [declarations_dropLast (by decide), declares] at parts
    have each : ∀ body ∈ [['a'], "b.c:DATE".toList], ∃ binding,
        declared .unknown ({} : Registry) body = .ok binding :=
      List.forall_mem_cons.2 ⟨⟨_, first⟩, List.forall_mem_singleton.2 ⟨_, second⟩⟩
    obtain ⟨bindings, bound, parsed⟩ := (parts each).1 (by decide)
    simp only [List.forall₂_cons_left_iff, List.forall₂_nil_left_iff, first, second] at bound
    obtain ⟨_, _, eq₁, ⟨_, _, eq₂, rfl, rfl⟩, rfl⟩ := bound
    cases eq₁
    cases eq₂
    exact parsed.trans (by decide +kernel)
  · have joined : ['#'].intercalate [[], ['a'], " ∧ ".toList, [','], " ∧ ".toList, ['b']] =
        "#a# ∧ #,# ∧ #b".toList := by decide
    refine (parse_of_parts .unknown ({} : Registry) (by decide) (by decide) joined).1
      [[], ['a'], " ∧ ".toList] [','] _ _ rfl rfl (by simp) (by simp) ?_ (by decide +kernel)
    intro earlier mem
    have only : earlier = ['a'] := by simpa [declarations, declaration?] using mem
    subst only
    exact ⟨⟨{ property := "a" }, Registry.usual .unknown none⟩, by decide +kernel⟩

end Fragment

end DynamicSql
