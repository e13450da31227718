import DynamicSql.Proofs.Independence.Agreement
import DynamicSql.Proofs.Markers.Substitution
import DynamicSql.Proofs.Rendering.Invariants

/-!
# Statements without bound values

A value gets into the text of a statement only where a dollar sign asks for it.
Without any, a parameter acts on the statement through the outcomes of conditions
and through the lengths of arrays alone: for two parameters that agree in these,
the statement and its bindings are the same.
-/

namespace DynamicSql

/-- A text has no dollar sign. -/
def Text.NoDollar (text : String) : Prop := '$' ∉ text.toList

/-- Putting fragments together adds no dollar sign. -/
theorem Fragment.noDollar_invariant :
    Invariant (· ≠ '$') Text.NoDollar fun fragment => Text.NoDollar fragment.sql where
  chars := by
    intro text
    constructor
    · rintro noDollar _ member rfl
      exact noDollar member
    · exact fun all member => all _ member rfl
  text noDollar := noDollar
  marker binding := by simp [marker, Text.NoDollar]
  append := by
    intro first second left right
    rw [Text.NoDollar, sql_append, String.toList_append, List.mem_append, not_or]
    exact ⟨left, right⟩
  sign := by decide
  opening := by decide
  closing := by decide
  digit c digit := by
    rintro rfl
    exact absurd digit (by decide)

/-- A path leads in a parameter with a name alone nowhere, to the parameter or to the name. -/
theorem Value.get_named (path : String) :
    let param (text : String) : Value := .object [("name", .string text)]
    (∃ e, ∀ text, (param text).get path = .error e) ∨
      (∀ text, (param text).get path = .ok none) ∨
      (∀ text, (param text).get path = .ok (some (param text))) ∨
      ∀ text, (param text).get path = .ok (some (.string text)) := by
  intro param
  unfold Value.get
  cases Path.parse path with
  | error e => exact .inl ⟨e, fun _ => rfl⟩
  | ok steps =>
    match steps with
    | [] => exact .inr (.inr (.inl fun _ => rfl))
    | .index _ :: _ => exact .inr (.inl fun _ => rfl)
    | .field name :: rest =>
      by_cases same : name = "name"
      · subst same
        cases rest with
        | nil => exact .inr (.inr (.inr fun _ => rfl))
        | cons step rest => exact .inr (.inl fun _ => rfl)
      · have missing (text : String) : [("name", Value.string text)].lookup name = none := by
          simp [same]
        refine .inr (.inl fun text => ?_)
        simp [param, Value.at?, Value.step?, missing, bind, Except.bind, pure, Except.pure]

namespace Template

variable {draft : Draft} {building converters : Converters} {template : Template}

/-- Without dollar signs the statement is what the parts of the template render to. -/
theorem render_eq_ok_of_noDollar (built : draft.build building = .ok template)
    (noDollar : Node.EachOf Text.NoDollar (Tag.CleanGlue Text.NoDollar) draft.nodes)
    {param : Value} {statement : Fragment} :
    template.render converters param = .ok statement ↔
      ∃ after, (Part.renderAll (template.occasion converters param) none template.parts).run {} =
        .ok (statement, after) := by
  obtain ⟨parts, builtParts, last⟩ := bind_eq_ok_iff.mp built
  cases last
  have clean := Node.eachOf_of_buildAll (Node.clean_of_buildText Fragment.noDollar_invariant) _
    noDollar builtParts
  have numbered := Node.numberedAll_of_buildAll _ builtParts
  have keeps {assembled : Fragment} {after : Frames}
      (ran : (Part.renderAll (occasion ⟨draft.id, draft.cls, parts⟩ converters param) none
        parts).run {} = .ok (assembled, after)) :
      substitute param draft.cls assembled.sql = .ok assembled.sql :=
    substitute_of_noDollar
      (Part.holds_of_renderAll Fragment.noDollar_invariant numbered clean ran)
  rw [render_eq_ok]
  constructor
  · rintro ⟨assembled, after, ran, replaced, bindings⟩
    rw [keeps ran] at replaced
    have same : statement = assembled := Fragment.ext (Except.ok.inj replaced).symm bindings
    exact ⟨after, by rw [same, ran]⟩
  · rintro ⟨after, ran⟩
    exact ⟨statement, after, ran, keeps ran, rfl⟩

/-- Bound values never reach a statement: for two parameters that no condition and no
    length tells apart the rendering succeeds alike, with the same text and the same
    bindings. -/
theorem render_of_same_outcomes (built : draft.build building = .ok template)
    (noDollar : Node.EachOf Text.NoDollar (Tag.CleanGlue Text.NoDollar) draft.nodes)
    {param other : Value} (lengths : ∀ path, param.lengthAt? path = other.lengthAt? path)
    (outcomes : Node.EachOf (fun _ => True)
      (Tag.SameOutcomes (template.occasion converters param) (template.occasion converters other))
      draft.nodes) (statement : Fragment) :
    template.render converters param = .ok statement ↔
      template.render converters other = .ok statement := by
  rw [render_eq_ok_of_noDollar built noDollar, render_eq_ok_of_noDollar built noDollar]
  obtain ⟨parts, builtParts, last⟩ := bind_eq_ok_iff.mp built
  cases last
  have alike : (occasion ⟨draft.id, draft.cls, parts⟩ converters param).Alike
      (occasion ⟨draft.id, draft.cls, parts⟩ converters other) := ⟨rfl, rfl, lengths⟩
  have same := Node.eachOf_of_buildAll (fun _ _ => trivial) _ outcomes builtParts
  exact exists_congr fun after => @Part.renderAll_agree _ _ alike none parts same {} statement after

/-- Two names, and a condition on the name. -/
theorem render_of_same_outcomes_of_names :
    let condition : Tag :=
      { handler := .conditional .isNotNull, property := some "name", prepend := some " WHERE " }
    let draft : Draft :=
      { id := "q", nodes := [.text "SELECT id FROM t", .tag condition [.text "name = #name#"]] }
    let param (text : String) : Value := .object [("name", .string text)]
    ∃ template statement, draft.build ({} : Registry) = .ok template ∧
      template.render ({} : Registry) (param "Ann") = .ok statement ∧
      template.render ({} : Registry) (param "Ann; DROP TABLE t") = .ok statement ∧
      statement.sql = "SELECT id FROM t WHERE name = ?" := by
  intro condition draft param
  let binding : Binding := { property := "name", converter := ⟨"unknown", .unknown, none⟩ }
  let template : Template :=
    { id := "q", cls := .unknown,
      parts := [.text 0 ⟨"SELECT id FROM t", false, some ⟨"SELECT id FROM t", []⟩⟩,
        .tag 1 condition [.text 2 ⟨"name = #name#", false, some ⟨"name = ?", [binding]⟩⟩]] }
  have built : draft.build ({} : Registry) = .ok template := by rfl
  have noDollar : Node.EachOf Text.NoDollar (Tag.CleanGlue Text.NoDollar) draft.nodes := by
    simp [draft, condition, Node.EachOf, Node.Each, Text.NoDollar, Tag.CleanGlue, Tag.glue]
  have lengths (path : String) : (param "Ann").lengthAt? path =
      (param "Ann; DROP TABLE t").lengthAt? path := by
    rcases Value.get_named path with ⟨e, found⟩ | found | found | found <;>
      simp only [Value.lengthAt?, param, found]
  have outcomes : Node.EachOf (fun _ => True)
      (Tag.SameOutcomes (template.occasion ({} : Registry) (param "Ann"))
        (template.occasion ({} : Registry) (param "Ann; DROP TABLE t"))) draft.nodes := by
    refine ⟨trivial, ⟨?_, trivial, trivial⟩, trivial⟩
    rintro _ ⟨⟩ path operand
    have named : (condition.withPaths path operand).property = some path := rfl
    rw [Occasion.outcome?_of_property named rfl, Occasion.outcome?_of_property named rfl]
    rcases Value.get_named path with ⟨e, found⟩ | found | found | found <;>
      (simp only [occasion, param, found]; rfl)
  have rendered : template.render ({} : Registry) (param "Ann") =
      .ok ⟨"SELECT id FROM t WHERE name = ?", [binding]⟩ := by
    apply eq_ok_of_toOption
    dsimp only [template, param, condition, binding]
    decide +kernel
  exact ⟨template, _, built, rendered,
    (render_of_same_outcomes built noDollar lengths outcomes _).mp rendered, rfl⟩

end Template

end DynamicSql
