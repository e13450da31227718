import DynamicSql.Proofs.Outcome
import DynamicSql.Template.Substitution
import Mathlib.Data.List.Basic

/-!
# Text divided by dollar signs

The dollar signs of a text divide it into parts. Counted from zero, the parts at even
positions stay, and so does the last part with the sign in front of it if it is at an
odd position. Every other part is enclosed by two signs: it is an escaped sign if it
is empty, and otherwise it names a value. Substitution puts the texts of these values
in the place of the parts and reads none of them again, so what a value is written
with does not matter, unless it is a marker. It fails if some name means no value or
one with a marker in its text, and the first such name is the error.
-/

namespace DynamicSql

/-- The value that a path names in a parameter: one without parts is named by every path, and
    into another one the path leads. -/
inductive Value.Named (param : Value) (path : String) : Value → Prop
  | whole (single : param.isComposite = false) : Named param path param
  | part {steps : Path} {value : Value} (composite : param.isComposite = true)
      (spelled : Path.parse path = .ok steps) (leads : param.at? steps = some value) :
      Named param path value

/-- Why nothing is put in for a path. -/
inductive Refused (param : Value) (cls : ParameterClass) (path : String) : Error → Prop
  | malformed {e : Error} (composite : param.isComposite = true)
      (misspelled : Path.parse path = .error e) : Refused param cls path e
  | missing {steps : Path} (composite : param.isComposite = true)
      (spelled : Path.parse path = .ok steps) (nowhere : param.at? steps = none) :
      Refused param cls path (.binding path cls.name .noSuchProperty)
  | marker {value : Value} (named : param.Named path value) (marked : '?' ∈ value.text.toList) :
      Refused param cls path (.binding path cls.name .markerInText)

/-- A part names a value: it is at an odd position, closed by a sign and not empty. -/
def IsReference (count position : Nat) (part : List Char) : Prop :=
  position % 2 = 1 ∧ position + 1 ≠ count ∧ part ≠ []

/-- What stands for a part in the text with the values. -/
inductive Replaces (param : Value) (count position : Nat) (part : List Char) : String → Prop
  | plain (even : position % 2 = 0) : Replaces param count position part (String.ofList part)
  | unclosed (odd : position % 2 = 1) (last : position + 1 = count) :
      Replaces param count position part (String.ofList ('$' :: part))
  | escaped (odd : position % 2 = 1) (closed : position + 1 ≠ count) (empty : part = []) :
      Replaces param count position part "$"
  | value {value : Value} (reference : IsReference count position part)
      (named : param.Named (String.ofList part) value) (unmarked : '?' ∉ value.text.toList) :
      Replaces param count position part value.text

section Inserted

variable {param : Value} {cls : ParameterClass} {path text : String} {e : Error}

theorem namedBy_eq_ok_some {value : Value} :
    param.namedBy path = .ok (some value) ↔ param.Named path value := by
  unfold Value.namedBy
  split
  · next composite =>
    constructor
    · intro found
      obtain ⟨steps, spelled, leads⟩ := bind_eq_ok_iff.mp found
      exact .part composite spelled (Except.ok.inj leads)
    · intro named
      cases named with
      | whole single => exact absurd composite (by simp [single])
      | part _ spelled leads =>
        exact bind_eq_ok_iff.mpr ⟨_, spelled, congrArg Except.ok leads⟩
  · next single =>
    constructor
    · intro same
      cases same
      exact .whole (by simpa using single)
    · intro named
      cases named with
      | whole => rfl
      | part composite => exact absurd composite single

theorem insertedText_eq_ok_iff :
    insertedText param cls path = .ok text ↔
      ∃ value, param.Named path value ∧ '?' ∉ value.text.toList ∧ text = value.text := by
  rw [insertedText, bind_eq_ok_iff]
  constructor
  · intro ⟨found, named, inserted⟩
    cases found with
    | none => cases inserted
    | some value =>
      dsimp only at inserted
      split at inserted
      · cases inserted
      · next unmarked =>
        cases inserted
        exact ⟨value, namedBy_eq_ok_some.mp named, unmarked, rfl⟩
  · intro ⟨value, named, unmarked, same⟩
    refine ⟨some value, namedBy_eq_ok_some.mpr named, ?_⟩
    rw [same]
    exact if_neg unmarked

theorem namedBy_eq_error :
    param.namedBy path = .error e ↔
      param.isComposite = true ∧ Path.parse path = .error e := by
  unfold Value.namedBy
  cases param.isComposite with
  | false => exact ⟨nofun, nofun⟩
  | true =>
    rw [if_pos rfl, Value.get, eq_self, true_and]
    cases Path.parse path with
    | error e' =>
      constructor <;>
        · intro same
          cases same
          rfl
    | ok steps => exact ⟨nofun, nofun⟩

theorem namedBy_eq_ok_none :
    param.namedBy path = .ok none ↔
      param.isComposite = true ∧ ∃ steps, Path.parse path = .ok steps ∧
        param.at? steps = none := by
  unfold Value.namedBy
  cases param.isComposite with
  | false => exact ⟨nofun, nofun⟩
  | true =>
    rw [if_pos rfl, Value.get, bind_eq_ok_iff, eq_self, true_and]
    exact exists_congr fun steps => and_congr_right' ⟨Except.ok.inj, congrArg Except.ok⟩

/-- A path for which nothing is put in is refused for just the reason that is the error. -/
theorem insertedText_eq_error_iff :
    insertedText param cls path = .error e ↔ Refused param cls path e := by
  unfold insertedText
  cases found : param.namedBy path with
  | error e' =>
    obtain ⟨composite, misspelled⟩ := namedBy_eq_error.mp found
    constructor
    · intro fails
      cases fails
      exact .malformed composite misspelled
    · intro refused
      cases refused with
      | malformed _ again =>
        cases misspelled.symm.trans again
        rfl
      | missing _ spelled => cases misspelled.symm.trans spelled
      | marker named => cases found.symm.trans (namedBy_eq_ok_some.mpr named)
  | ok outcome =>
    cases outcome with
    | none =>
      obtain ⟨composite, steps, spelled, nowhere⟩ := namedBy_eq_ok_none.mp found
      constructor
      · intro fails
        cases fails
        exact .missing composite spelled nowhere
      · intro refused
        cases refused with
        | malformed _ misspelled => cases spelled.symm.trans misspelled
        | missing => rfl
        | marker named => cases found.symm.trans (namedBy_eq_ok_some.mpr named)
    | some value =>
      show (if _ then Except.error _ else Except.ok _) = Except.error e ↔ _
      constructor
      · intro fails
        split at fails
        · next marked =>
          cases fails
          exact .marker (namedBy_eq_ok_some.mp found) marked
        · cases fails
      · intro refused
        cases refused with
        | malformed composite misspelled =>
          cases found.symm.trans (namedBy_eq_error.mpr ⟨composite, misspelled⟩)
        | missing composite spelled nowhere =>
          cases found.symm.trans (namedBy_eq_ok_none.mpr ⟨composite, _, spelled, nowhere⟩)
        | marker named marked =>
          cases found.symm.trans (namedBy_eq_ok_some.mpr named)
          exact if_pos marked

end Inserted

/-- What is put in for the part at a position. -/
def replacement (param : Value) (cls : ParameterClass) (count position : Nat)
    (part : List Char) : Except Error String :=
  if position % 2 = 0 then .ok (String.ofList part)
  else if position + 1 = count then .ok (String.ofList ('$' :: part))
  else if part = [] then .ok "$"
  else insertedText param cls (String.ofList part)

theorem replacement_eq_ok_iff {param : Value} {cls : ParameterClass} {count position : Nat}
    {part : List Char} {text : String} :
    replacement param cls count position part = .ok text ↔
      Replaces param count position part text := by
  unfold replacement
  constructor
  · intro replaced
    split at replaced
    · next even =>
      cases replaced
      exact .plain even
    · next notEven =>
      have odd : position % 2 = 1 := by omega
      split at replaced
      · next last =>
        cases replaced
        exact .unclosed odd last
      · next closed =>
        split at replaced
        · next empty =>
          cases replaced
          exact .escaped odd closed empty
        · next nonempty =>
          obtain ⟨value, named, unmarked, same⟩ := insertedText_eq_ok_iff.mp replaced
          rw [same]
          exact .value ⟨odd, closed, nonempty⟩ named unmarked
  · intro replaces
    cases replaces with
    | plain even => exact if_pos even
    | unclosed odd last =>
      rw [if_neg (by omega)]
      exact if_pos last
    | escaped odd closed empty =>
      rw [if_neg (by omega), if_neg closed]
      exact if_pos empty
    | value reference named unmarked =>
      obtain ⟨odd, closed, nonempty⟩ := reference
      rw [if_neg (by omega), if_neg closed, if_neg nonempty]
      exact insertedText_eq_ok_iff.mpr ⟨_, named, unmarked, rfl⟩

theorem replacement_eq_error_iff {param : Value} {cls : ParameterClass} {count position : Nat}
    {part : List Char} {e : Error} :
    replacement param cls count position part = .error e ↔
      IsReference count position part ∧ Refused param cls (String.ofList part) e := by
  unfold replacement
  constructor
  · intro fails
    split at fails
    · cases fails
    · split at fails
      · cases fails
      · next closed =>
        split at fails
        · cases fails
        · next nonempty =>
          have odd : position % 2 = 1 := by omega
          exact ⟨⟨odd, closed, nonempty⟩, insertedText_eq_error_iff.mp fails⟩
  · intro ⟨⟨odd, closed, nonempty⟩, refused⟩
    rw [if_neg (by omega), if_neg closed, if_neg nonempty]
    exact insertedText_eq_error_iff.mpr refused

/-- Paired parts give what the parts give one after the other. -/
theorem substituteSpans_pairParts (param : Value) (cls : ParameterClass)
    (parts : List (List Char)) {start : Nat} (even : start % 2 = 0) :
    substituteSpans param cls (Text.pairParts parts) = (do
      let texts ← (parts.zipIdx start).mapM fun part =>
        replacement param cls (start + parts.length) part.2 part.1
      return String.join texts) := by
  fun_induction Text.pairParts parts generalizing start with
  | case1 => rfl
  | case2 text => simp [substituteSpans, replacement, even]
  | case3 text tail =>
    have odd : ¬ (start + 1) % 2 = 0 := by omega
    simp [substituteSpans, replacement, even, odd]
    rfl
  | case4 text body rest more ih =>
    have later : (start + 2) % 2 = 0 := by omega
    have count : start + (text :: body :: rest).length = start + 2 + rest.length := by
      simp only [List.length_cons]
      omega
    have plain : replacement param cls (start + 2 + rest.length) start text =
        .ok (String.ofList text) := if_pos even
    have enclosed : replacement param cls (start + 2 + rest.length) (start + 1) body =
        if body = [] then .ok "$" else insertedText param cls (String.ofList body) := by
      have closed := List.length_pos_of_ne_nil more
      rw [replacement, if_neg (by omega), if_neg (by omega)]
    rw [count, List.zipIdx_cons, List.zipIdx_cons, List.mapM_cons, List.mapM_cons]
    simp only [plain, enclosed]
    cases body with
    | nil =>
      simp only [substituteSpans, ih later, if_true, bind_assoc, pure_bind]
      refine congrArg (bind _) (funext fun texts => ?_)
      exact congrArg Except.ok (by simp)
    | cons c cs =>
      simp only [substituteSpans, ih later, if_neg (List.cons_ne_nil c cs), bind_assoc, pure_bind]
      refine congrArg (bind _) (funext fun inserted => ?_)
      refine congrArg (bind _) (funext fun texts => ?_)
      exact congrArg Except.ok (by simp)

/-- A text is what is put in for its parts, one after the other. -/
theorem substitute_eq_join (param : Value) (cls : ParameterClass) {sql : String}
    {parts : List (List Char)} (nonempty : parts ≠ []) (undivided : ∀ part ∈ parts, '$' ∉ part)
    (joined : ['$'].intercalate parts = sql.toList) :
    substitute param cls sql = (do
      let texts ← parts.zipIdx.mapM fun part =>
        replacement param cls parts.length part.2 part.1
      return String.join texts) := by
  rw [substitute, Text.spans, ← joined, List.splitOn_intercalate '$' undivided nonempty,
    substituteSpans_pairParts param cls parts (Nat.zero_mod 2), Nat.zero_add]

theorem join_eq_error_iff {texts : Except Error (List String)} {e : Error} :
    (do return String.join (← texts)) = Except.error e ↔ texts = .error e := by
  cases texts with
  | error e' =>
    constructor <;>
      · intro same
        cases same
        rfl
  | ok texts => exact ⟨nofun, nofun⟩

/-- Substitution by the parts between the dollar signs of a text: it puts together what stands
    for each of them, unless a name is refused; then the first such name is the error. -/
theorem substitute_of_parts (param : Value) (cls : ParameterClass) {sql : String}
    {parts : List (List Char)} (nonempty : parts ≠ []) (undivided : ∀ part ∈ parts, '$' ∉ part)
    (joined : ['$'].intercalate parts = sql.toList) :
    (∀ out, substitute param cls sql = .ok out ↔
      ∃ texts, List.Forall₂ (fun part text => Replaces param parts.length part.2 part.1 text)
        parts.zipIdx texts ∧ out = String.join texts) ∧
    ∀ e, substitute param cls sql = .error e ↔
      ∃ (position : Nat) (path : List Char), parts[position]? = some path ∧
        IsReference parts.length position path ∧ Refused param cls (String.ofList path) e ∧
        ∀ before < position, ∀ other, parts[before]? = some other →
          IsReference parts.length before other →
            ∀ e', ¬ Refused param cls (String.ofList other) e' := by
  rw [substitute_eq_join param cls nonempty undivided joined]
  constructor
  · intro out
    rw [bind_eq_ok_iff]
    apply exists_congr
    intro texts
    rw [mapM_eq_ok_iff]
    simp only [replacement_eq_ok_iff]
    exact and_congr_right' ⟨fun same => (Except.ok.inj same).symm,
      fun same => congrArg Except.ok same.symm⟩
  · intro e
    rw [join_eq_error_iff, mapM_zipIdx_eq_error_iff]
    apply exists_congr
    intro position
    apply exists_congr
    intro path
    rw [replacement_eq_error_iff, and_assoc]
    apply and_congr_right'
    apply and_congr_right'
    apply and_congr_right'
    have succeeds (before : Nat) (other : List Char) :
        (∃ text, replacement param cls parts.length before other = .ok text) ↔
          (IsReference parts.length before other →
            ∀ e', ¬ Refused param cls (String.ofList other) e') := by
      constructor
      · intro ⟨text, replaced⟩ reference e' refused
        cases replaced.symm.trans (replacement_eq_error_iff.mpr ⟨reference, refused⟩)
      · intro accepted
        cases outcome : replacement param cls parts.length before other with
        | ok text => exact ⟨text, rfl⟩
        | error e' =>
          obtain ⟨reference, refused⟩ := replacement_eq_error_iff.mp outcome
          exact absurd refused (accepted reference e')
    simp only [succeeds]

/-- An escaped sign, a value with a dollar sign and a number sign in its text, and a sign that
    nothing closes. In the second text two names mean nothing, and the first one is the error. -/
theorem substitute_of_parts_with_signs :
    let param : Value := .object [("t", .string "a$b#")]
    substitute param .unknown "é$$ = $t$, $t" = .ok "é$ = a$b#, $t" ∧
      substitute param .unknown "$t$ $u$ $.$" =
        .error (.binding "u" "unknown" .noSuchProperty) := by
  intro param
  have named : param.Named "t" (.string "a$b#") := .part rfl rfl rfl
  constructor
  · let parts : List (List Char) := [['é'], [], " = ".toList, ['t'], ", ".toList, ['t']]
    have some : parts ≠ [] := by decide
    have undivided : ∀ part ∈ parts, '$' ∉ part := by decide
    have joined : ['$'].intercalate parts = "é$$ = $t$, $t".toList := by decide
    refine ((substitute_of_parts param .unknown some undivided joined).1 _).mpr
      ⟨["é", "$", " = ", "a$b#", ", ", "$t"], ?_, ?_⟩
    · have unmarked : '?' ∉ (Value.string "a$b#").text.toList := by decide
      exact .cons (.plain rfl) (.cons (.escaped rfl (by decide) rfl) (.cons (.plain rfl)
        (.cons (.value ⟨rfl, by decide, by decide⟩ named unmarked)
          (.cons (.plain rfl) (.cons (.unclosed rfl rfl) .nil)))))
    · decide
  · let parts : List (List Char) := [[], ['t'], [' '], ['u'], [' '], ['.'], []]
    have some : parts ≠ [] := by decide
    have undivided : ∀ part ∈ parts, '$' ∉ part := by decide
    have joined : ['$'].intercalate parts = "$t$ $u$ $.$".toList := by decide
    refine ((substitute_of_parts param .unknown some undivided joined).2 _).mpr
      ⟨3, ['u'], rfl, ⟨rfl, by decide, by decide⟩, .missing rfl rfl rfl, ?_⟩
    intro before less other there reference e' refused
    have first : before = 1 := by
      have odd := reference.1
      omega
    subst first
    cases there
    have inserted : insertedText param .unknown "t" = .ok "a$b#" :=
      insertedText_eq_ok_iff.mpr ⟨_, named, by decide, rfl⟩
    cases inserted.symm.trans (insertedText_eq_error_iff.mpr refused)

end DynamicSql
