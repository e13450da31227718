import DynamicSql.Parameter.Registry
import DynamicSql.Proofs.Lexing.Spelling

/-!
# Replaced converters

A registry is told one thing after the other: names of Java types, replaced converters,
converters with a name. A converter that replaces the usual one for a kind and a JDBC type is
found under every spelling of that type until another one replaces it, whatever is registered
in between, and no other look-up is changed. This is so for the JDBC types that a template may
declare; under any other name there is no converter, also if one was registered for it.
-/

namespace DynamicSql

namespace Text

/-- Two names that differ in the case of ASCII letters at most. -/
def SameLetters (name other : String) : Prop := name.toLower = other.toLower

theorem toUpper_eq (text : String) :
    text.toUpper = String.ofList (text.toList.map Char.toUpper) := by
  rw [← String.toList_inj, String.toList_ofList]
  exact String.toList_map

/-- Such names are the same in capital letters, and only they are. -/
theorem toUpper_eq_iff {name other : String} :
    name.toUpper = other.toUpper ↔ SameLetters name other := by
  have lower (text : String) : text.toLower.toList = text.toList.map Char.toLower :=
    String.toList_map
  have upper (text : String) : text.toUpper.toList = text.toList.map Char.toUpper :=
    String.toList_map
  have lowered : Char.toLower ∘ Char.toUpper = Char.toLower := funext Sql.Keyword.toLower_toUpper
  have raised : Char.toUpper ∘ Char.toLower = Char.toUpper := funext Sql.Keyword.toUpper_toLower
  rw [SameLetters, ← String.toList_inj, ← String.toList_inj, upper, upper, lower, lower]
  constructor
  · intro same
    have again := congrArg (List.map Char.toLower) same
    rwa [List.map_map, List.map_map, lowered] at again
  · intro same
    have again := congrArg (List.map Char.toUpper) same
    rwa [List.map_map, List.map_map, raised] at again

end Text

/-- Something that a registry is told. -/
inductive Registration where
  | javaType (name : String) (kind : ValueKind)
  | override (kind : ValueKind) (jdbcType : String) (converter : Converter)
  | handler (name : String) (converter : Converter)

/-- A registration replaces the converter of the given kind and JDBC type. -/
inductive Registration.Replaces (kind : ValueKind) (jdbcType : String) : Registration → Prop
  | override {name : String} {converter : Converter} (same : Text.SameLetters name jdbcType) :
      Replaces kind jdbcType (.override kind name converter)

namespace Registry

/-- Tells a registry one thing. -/
def enter (registry : Registry) : Registration → Registry
  | .javaType name kind => registry.registerAlias name kind
  | .override kind jdbcType converter => registry.register kind jdbcType converter
  | .handler name converter => registry.registerHandler name converter

/-- Tells a registry one thing after the other. -/
def enterAll (registry : Registry) (registrations : List Registration) : Registry :=
  registrations.foldl enter registry

/-- A template may declare the JDBC type, in any case. -/
def Declarable (jdbcType : String) : Prop := jdbcType.toUpper ∈ jdbcTypes

instance (jdbcType : String) : Decidable (Declarable jdbcType) :=
  inferInstanceAs (Decidable (jdbcType.toUpper ∈ jdbcTypes))

variable {kind : ValueKind} {jdbcType name : String} {converter : Converter}

theorem declarable_congr (same : Text.SameLetters name jdbcType) :
    Declarable name ↔ Declarable jdbcType := by
  rw [Declarable, Declarable, Text.toUpper_eq_iff.mpr same]

/-- What a registry answers for a kind and a JDBC type depends on the converter that is kept for
    them, and on nothing else that is kept. -/
theorem lookup_some (registry : Registry) (kind : ValueKind) (name : String) :
    registry.lookup kind (some name) =
      if Declarable name then
        some ((registry.overrides.lookup (kind, name.toUpper)).getD
          (usual kind (some name.toUpper)))
      else none := rfl

/-- A registration that does not replace the converter of a kind and a JDBC type leaves what is
    kept for them. -/
theorem overrides_lookup_enter {registration : Registration}
    (other : ¬ registration.Replaces kind name) (registry : Registry) :
    (registry.enter registration).overrides.lookup (kind, name.toUpper) =
      registry.overrides.lookup (kind, name.toUpper) := by
  cases registration with
  | javaType | handler => rfl
  | override kind' name' converter =>
    have differs : (kind, name.toUpper) ≠ (kind', name'.toUpper) := by
      intro same
      obtain ⟨rfl, upper⟩ := Prod.mk.inj same
      exact other (.override (Text.toUpper_eq_iff.mp upper.symm))
    show List.lookup (kind, name.toUpper) (((kind', name'.toUpper), converter) :: _) = _
    rw [List.lookup_cons, beq_eq_false_iff_ne.mpr differs]

/-- Nor do any number of such registrations. -/
theorem overrides_lookup_enterAll {registrations : List Registration}
    (others : ∀ registration ∈ registrations, ¬ registration.Replaces kind name)
    (registry : Registry) :
    (registry.enterAll registrations).overrides.lookup (kind, name.toUpper) =
      registry.overrides.lookup (kind, name.toUpper) := by
  induction registrations generalizing registry with
  | nil => rfl
  | cons registration rest ih =>
    obtain ⟨first, later⟩ := List.forall_mem_cons.mp others
    have step := overrides_lookup_enter first registry
    rw [← step]
    exact ih later (registry.enter registration)

/-- A converter is kept under every spelling of the JDBC type that it was registered for. -/
theorem overrides_lookup_register (same : Text.SameLetters name jdbcType) (registry : Registry)
    (converter : Converter) :
    (registry.register kind jdbcType converter).overrides.lookup (kind, name.toUpper) =
      some converter := by
  rw [Text.toUpper_eq_iff.mpr same]
  show List.lookup (kind, jdbcType.toUpper) (((kind, jdbcType.toUpper), converter) :: _) = _
  rw [List.lookup_cons, beq_self_eq_true]

/-- A converter that was registered for a kind and a JDBC type, in whatever registry, is the
    answer for every spelling of the type if a template may declare it, and there is no answer
    otherwise; so it stays whatever is registered afterwards, until another converter replaces it.
    All other answers are those from before. -/
theorem lookup_of_registered (registry : Registry) (kind : ValueKind) (jdbcType : String)
    (converter : Converter) :
    (∀ (name : String) (further : List Registration), Text.SameLetters name jdbcType →
      (∀ registration ∈ further, ¬ registration.Replaces kind jdbcType) →
      ((registry.register kind jdbcType converter).enterAll further).lookup kind (some name) =
        if Declarable jdbcType then some converter else none) ∧
    (∀ (other : ValueKind) (name : String), ¬ (other = kind ∧ Text.SameLetters name jdbcType) →
      (registry.register kind jdbcType converter).lookup other (some name) =
        registry.lookup other (some name)) ∧
    ∀ other : ValueKind,
      (registry.register kind jdbcType converter).lookup other none =
        registry.lookup other none := by
  refine ⟨?_, ?_, fun _ => rfl⟩
  · intro name further same others
    have untouched : ∀ registration ∈ further, ¬ registration.Replaces kind name := by
      intro registration member replaces
      cases replaces with
      | override spelled => exact others _ member (.override (spelled.trans same))
    rw [lookup_some, overrides_lookup_enterAll untouched, overrides_lookup_register same,
      Option.getD_some]
    by_cases declarable : Declarable jdbcType
    · rw [if_pos declarable, if_pos ((declarable_congr same).mpr declarable)]
    · rw [if_neg declarable, if_neg (mt (declarable_congr same).mp declarable)]
  · intro other name differs
    have untouched : ¬ (Registration.override kind jdbcType converter).Replaces other name := by
      intro replaces
      cases replaces with
      | override spelled => exact differs ⟨rfl, spelled.symm⟩
    have kept := overrides_lookup_enter untouched registry
    rw [lookup_some, lookup_some, ← kept]
    rfl

/-- A converter for texts, in a registry that has another one for the same type, with a name of a
    type, a converter with a name and a converter for another kind registered afterwards. -/
theorem lookup_of_registered_behind_another :
    let long := Converter.make "long-text" .string (some "clob")
    let plain := Converter.make "plain" .object none
    let registry := ({} : Registry).register .string "CLOB" plain
    let further : List Registration :=
      [.javaType "Text" .string, .handler "clob" plain, .override .object "clob" plain]
    ((registry.register .string "Clob" long).enterAll further).lookup .string (some "cLOB") =
        some long ∧
      (registry.register .string "Clob" long).lookup .bytes (some "clob") =
        some ⟨"bytes", .bytes, some "CLOB"⟩ := by
  intro long plain registry further
  obtain ⟨replaced, other, -⟩ := lookup_of_registered registry .string "Clob" long
  have spelled : "cLOB".toUpper = "Clob".toUpper := by
    rw [Text.toUpper_eq, Text.toUpper_eq]
    rfl
  have declarable : Declarable "Clob" := by
    rw [Declarable, Text.toUpper_eq]
    decide
  have others : ∀ registration ∈ further, ¬ registration.Replaces .string "Clob" := by
    intro registration member replaces
    cases replaces
    simp [further] at member
  refine ⟨?_, ?_⟩
  · rw [replaced "cLOB" further (Text.toUpper_eq_iff.mp spelled) others, if_pos declarable]
  · rw [other .bytes "clob" (by simp), lookup_some]
    simp only [registry, register, Declarable, Text.toUpper_eq]
    decide +kernel

/-- A converter that is registered for a JDBC type that no template may declare is never the
    answer. -/
theorem lookup_misses_undeclarable :
    let long := Converter.make "long-text" .string (some "VARCHAR2")
    (({} : Registry).register .string "VARCHAR2" long).lookup .string (some "VARCHAR2") = none := by
  intro long
  have undeclarable : ¬ Declarable "VARCHAR2" := by
    rw [Declarable, Text.toUpper_eq]
    decide
  rw [lookup_some, if_neg undeclarable]

end Registry

end DynamicSql
