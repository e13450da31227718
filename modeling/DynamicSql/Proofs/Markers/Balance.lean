import DynamicSql.Proofs.Markers.Substitution
import DynamicSql.Proofs.Rendering.Invariants
import DynamicSql.Template.Execution

/-!
# Markers and bindings

Where neither the texts of a template nor what its tags put around them hold a
marker or a dollar sign, all markers of a statement come from placeholders, and
every placeholder gives one marker and one binding. So each rendered part has as
many markers as bindings, and so has the statement.
-/

namespace DynamicSql

namespace Text

/-- A text has neither a marker nor a dollar sign. -/
def Unmarked (text : String) : Prop := '?' ∉ text.toList ∧ '$' ∉ text.toList

theorem Unmarked.markers {text : String} (unmarked : Unmarked text) : markers text = 0 :=
  List.count_eq_zero.mpr unmarked.1

theorem unmarked_iff {text : String} :
    Unmarked text ↔ ∀ c ∈ text.toList, c ≠ '?' ∧ c ≠ '$' := by
  constructor
  · rintro ⟨noMarker, noDollar⟩ c member
    exact ⟨fun marker => noMarker (marker ▸ member), fun dollar => noDollar (dollar ▸ member)⟩
  · exact fun neither =>
      ⟨fun member => (neither _ member).1 rfl, fun member => (neither _ member).2 rfl⟩

end Text

/-- A tag puts no marker and no dollar sign anywhere. -/
def Tag.Unmarked (tag : Tag) : Prop := ∀ text ∈ tag.glue, Text.Unmarked text

namespace Fragment

/-- A fragment has as many markers as bindings, and no dollar sign is left in it. -/
structure Balanced (fragment : Fragment) : Prop where
  markers : Text.markers fragment.sql = fragment.bindings.length
  noDollar : '$' ∉ fragment.sql.toList

theorem Balanced.append {first second : Fragment} (left : first.Balanced)
    (right : second.Balanced) : (first ++ second).Balanced := by
  constructor
  · rw [sql_append, bindings_append, Text.markers_append, left.markers, right.markers,
      List.length_append]
  · rw [sql_append, String.toList_append, List.mem_append, not_or]
    exact ⟨left.noDollar, right.noDollar⟩

theorem balanced_ofText {text : String} (unmarked : Text.Unmarked text) :
    (ofText text).Balanced :=
  ⟨unmarked.markers, unmarked.2⟩

theorem balanced_marker (binding : Binding) : (marker binding).Balanced :=
  ⟨by simp [marker, Text.markers], by simp [marker]⟩

/-- Putting fragments together adds no marker without a binding. -/
theorem balanced_invariant :
    Invariant (fun c => c ≠ '?' ∧ c ≠ '$') Text.Unmarked Balanced where
  chars := Text.unmarked_iff
  text := balanced_ofText
  marker := balanced_marker
  append := Balanced.append
  sign := by decide
  opening := by decide
  closing := by decide
  digit c digit := by
    constructor
    · rintro rfl
      exact absurd digit (by decide)
    · rintro rfl
      exact absurd digit (by decide)

end Fragment

open Fragment

/-- Text without markers that was built; what was read in advance is balanced. -/
def TextPart.Unmarked (text : TextPart) : Prop :=
  Text.Unmarked text.source ∧ ∀ fragment ∈ text.ready, fragment.Balanced

theorem Node.unmarked_of_buildText {cls : ParameterClass} {converters : Converters}
    {inIteration : Bool} {source : String} {content : TextPart}
    (unmarked : Text.Unmarked source)
    (built : buildText cls converters inIteration source = .ok content) :
    content.Unmarked :=
  clean_of_buildText balanced_invariant unmarked built

namespace Part

variable {occasion : Occasion} {parent : Option Tag} {frames after : Frames}
  {fragment : Fragment}

/-- Parts without markers of their own render to a balanced fragment. -/
theorem balanced_of_renderAll {least : Nat} {parts : List Part}
    (numbered : NumberedAll least parts) (unmarked : EachOf TextPart.Unmarked Tag.Unmarked parts)
    (ran : (renderAll occasion parent parts).run frames = .ok (fragment, after)) :
    fragment.Balanced :=
  holds_of_renderAll balanced_invariant numbered unmarked ran

theorem balanced_of_render {least : Nat} {part : Part} (numbered : part.Numbered least)
    (unmarked : part.Each TextPart.Unmarked Tag.Unmarked)
    (ran : (part.render occasion parent).run frames = .ok (fragment, after)) :
    fragment.Balanced := by
  have row : NumberedAll least [part] := ⟨numbered, trivial⟩
  exact balanced_of_renderAll row ⟨unmarked, trivial⟩ (renderAll_singleton_eq_ok.mpr ran)

end Part

namespace Template

/-- Every part of a template, and the statement as a whole, has as many markers as
    bindings, if neither the texts nor what tags put around them hold a marker or a
    dollar sign. -/
theorem markers_eq_bindings {draft : Draft} {building : Converters} {template : Template}
    (built : draft.build building = .ok template)
    (unmarked : Node.EachOf Text.Unmarked Tag.Unmarked draft.nodes) (occasion : Occasion) :
    (∀ part : Part, part.Inside template.parts → ∀ parent frames fragment after,
      (part.render occasion parent).run frames = .ok (fragment, after) →
        Text.markers fragment.sql = fragment.bindings.length) ∧
    ∀ fragment, template.render occasion.converters occasion.param = .ok fragment →
      Text.markers fragment.sql = fragment.bindings.length := by
  obtain ⟨parts, builtParts, last⟩ := bind_eq_ok_iff.mp built
  cases last
  have numbered := Node.numberedAll_of_buildAll _ builtParts
  have ready : Part.EachOf TextPart.Unmarked Tag.Unmarked parts :=
    Node.eachOf_of_buildAll Node.unmarked_of_buildText _ unmarked builtParts
  constructor
  · intro part inside parent frames fragment after ran
    obtain ⟨_, numbered⟩ := numbered.inside inside
    exact (Part.balanced_of_render numbered (ready.inside inside) ran).markers
  · intro fragment rendered
    obtain ⟨⟨assembled, _⟩, ran, rest⟩ := bind_eq_ok_iff.mp rendered
    obtain ⟨sql, replaced, last⟩ := bind_eq_ok_iff.mp rest
    cases last
    have balanced := Part.balanced_of_renderAll numbered ready ran
    rw [substitute_of_noDollar balanced.noDollar] at replaced
    cases replaced
    exact balanced.markers

/-- Two passes, each with a marker. -/
theorem markers_eq_bindings_of_list :
    ∃ fragment : Fragment, fragment.sql = "id in (?, ?)" ∧
      Text.markers fragment.sql = fragment.bindings.length := by
  let list : Tag := { Tag.iterate "ids" with opening := some "(", conjunction := some ", ",
                                             closing := some ")" }
  let draft : Draft := { id := "q", nodes := [.text "id in ", .tag list [.text "#ids[]#"]] }
  let occasion : Occasion :=
    ⟨.unknown, ({} : Registry), .object [("ids", .array [.null, .null])]⟩
  let lead : TextPart := ⟨"id in ", false, some ⟨"id in ", []⟩⟩
  let template : Template :=
    { id := "q", cls := .unknown,
      parts := [.text 0 lead, .tag 1 list [.text 2 ⟨"#ids[]#", true, none⟩]] }
  let binding (property : String) : Binding :=
    { property, converter := ⟨"unknown", .unknown, none⟩ }
  have built : draft.build ({} : Registry) = .ok template := by rfl
  have unmarked : Node.EachOf Text.Unmarked Tag.Unmarked draft.nodes := by
    simp [draft, list, Node.EachOf, Node.Each, Text.Unmarked, Tag.Unmarked, Tag.glue,
      Tag.iterate]
  have rendered : template.render occasion.converters occasion.param =
      .ok ⟨"id in (?, ?)", [binding "ids[0]", binding "ids[1]"]⟩ := by
    apply eq_ok_of_toOption
    dsimp only [template, occasion, lead, list, binding]
    decide +kernel
  exact ⟨_, rfl, (markers_eq_bindings built unmarked occasion).2 _ rendered⟩

end Template

end DynamicSql
