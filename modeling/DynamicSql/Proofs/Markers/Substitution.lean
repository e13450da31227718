import DynamicSql.Proofs.Rendering.Run
import DynamicSql.Template.Substitution

/-!
# Markers under substitution

What substitution puts in has no marker. What it takes out may have some: the
text between two dollar signs goes, and a marker in it with it. So substitution
keeps the count of markers just when no two dollar signs enclose one.
-/

namespace DynamicSql

namespace Text

/-- The count of markers in a text. -/
def markers (text : String) : Nat := text.toList.count '?'

@[simp]
theorem markers_append (first second : String) :
    markers (first ++ second) = markers first + markers second := by
  simp [markers, String.toList_append]

@[simp]
theorem markers_ofList (text : List Char) : markers (String.ofList text) = text.count '?' := by
  rw [markers, String.toList_ofList]

/-- The count of markers in the stretches between two delimiters. -/
def enclosedMarkers : List Span → Nat
  | [] => 0
  | .enclosed body :: rest => body.count '?' + enclosedMarkers rest
  | .plain _ :: rest => enclosedMarkers rest
  | .unclosed _ :: rest => enclosedMarkers rest

theorem enclosedMarkers_eq_zero {spans : List Span} :
    enclosedMarkers spans = 0 ↔ ∀ body, .enclosed body ∈ spans → '?' ∉ body := by
  fun_induction enclosedMarkers spans with
  | case1 => simp
  | case2 body rest ih => simp [ih, List.count_eq_zero]
  | case3 text rest ih => simp [ih]
  | case4 tail rest ih => simp [ih]

/-- The delimiters around a stretch are no markers. -/
theorem count_source (span : Span) :
    (span.source '$').count '?' =
      match span with
      | .plain text => text.count '?'
      | .enclosed body => body.count '?'
      | .unclosed tail => tail.count '?' := by
  cases span <;> simp [Span.source]

end Text

/-- What is put in for a path has no marker. -/
theorem markers_insertedText {param : Value} {cls : ParameterClass} {path text : String}
    (inserted : insertedText param cls path = .ok text) : Text.markers text = 0 := by
  obtain ⟨value, -, rest⟩ := bind_eq_ok_iff.mp inserted
  cases value with
  | none => cases rest
  | some value =>
    dsimp only at rest
    split at rest
    · cases rest
    · next none =>
      cases rest
      exact List.count_eq_zero.mpr none

/-- Substitution takes out the markers between two dollar signs, and no others. -/
theorem markers_substituteSpans {param : Value} {cls : ParameterClass} :
    ∀ {spans : List Text.Span} {out : String}, substituteSpans param cls spans = .ok out →
      Text.markers out + Text.enclosedMarkers spans =
        (spans.flatMap (Text.Span.source '$')).count '?'
  | [], _, replaced => by
    cases replaced
    rfl
  | .plain text :: _, _, replaced => by
    obtain ⟨_, others, last⟩ := bind_eq_ok_iff.mp replaced
    cases last
    have rest := markers_substituteSpans others
    simp only [Text.enclosedMarkers, Text.markers_append, Text.markers_ofList,
      List.flatMap_cons, List.count_append, Text.count_source]
    omega
  | .enclosed [] :: _, _, replaced => by
    obtain ⟨_, others, last⟩ := bind_eq_ok_iff.mp replaced
    cases last
    have rest := markers_substituteSpans others
    have sign : Text.markers "$" = 0 := by simp [Text.markers]
    simp only [Text.enclosedMarkers, Text.markers_append, List.flatMap_cons,
      List.count_append, Text.count_source]
    omega
  | .enclosed (_ :: _) :: _, _, replaced => by
    obtain ⟨_, inserted, rest⟩ := bind_eq_ok_iff.mp replaced
    obtain ⟨_, others, last⟩ := bind_eq_ok_iff.mp rest
    cases last
    have rest := markers_substituteSpans others
    have nothing := markers_insertedText inserted
    simp only [Text.enclosedMarkers, Text.markers_append, List.flatMap_cons,
      List.count_append, Text.count_source]
    omega
  | .unclosed tail :: _, _, replaced => by
    obtain ⟨_, others, last⟩ := bind_eq_ok_iff.mp replaced
    cases last
    have rest := markers_substituteSpans others
    have tailMarkers : ('$' :: tail).count '?' = tail.count '?' := by simp
    simp only [Text.enclosedMarkers, Text.markers_append, Text.markers_ofList,
      List.flatMap_cons, List.count_append, Text.count_source, tailMarkers]
    omega

/-- Substitution keeps the count of markers just when no two dollar signs enclose a
    marker. -/
theorem markers_substitute_iff {param : Value} {cls : ParameterClass} {sql out : String}
    (replaced : substitute param cls sql = .ok out) :
    Text.markers out = Text.markers sql ↔
      ∀ path, .enclosed path ∈ Text.spans '$' sql.toList → '?' ∉ path := by
  have sum := markers_substituteSpans replaced
  rw [Text.flatMap_source_spans] at sum
  rw [← Text.enclosedMarkers_eq_zero, Text.markers, Text.markers] at *
  omega

theorem markers_substitute_iff_between_plain :
    Text.markers "a = b and c = ?" = Text.markers "a = $x$ and c = ?" ↔
      ∀ path, .enclosed path ∈ Text.spans '$' "a = $x$ and c = ?".toList → '?' ∉ path := by
  have replaced : substitute (.string "b") .unknown "a = $x$ and c = ?" =
      .ok "a = b and c = ?" := by rfl
  exact markers_substitute_iff replaced

/-- A scalar stands for every path, so a placeholder between two dollar signs leaves a
    binding without a marker. -/
theorem substitute_loses_marker :
    ¬ ∀ (param : Value) (cls : ParameterClass) (sql out : String),
      substitute param cls sql = .ok out → Text.markers out = Text.markers sql := by
  intro keeps
  have replaced : substitute (.bool true) .unknown "x = $p?q$" = .ok "x = true" := by rfl
  exact absurd (keeps _ _ _ _ replaced) (by decide)

/-- Text without a dollar sign stays as it is. -/
theorem substitute_of_noDollar {param : Value} {cls : ParameterClass} {sql : String}
    (noDollar : '$' ∉ sql.toList) : substitute param cls sql = .ok sql := by
  have single : Text.spans '$' sql.toList = [.plain sql.toList] := by
    rw [Text.spans, List.splitOn_eq_singleton noDollar]
    rfl
  rw [substitute, single]
  show Except.ok (String.ofList sql.toList ++ "") = .ok sql
  rw [String.ofList_toList, String.append_empty]

end DynamicSql
