import DynamicSql.Proofs.Declarations.Styles
import DynamicSql.Proofs.Nesting.Address
import DynamicSql.Proofs.Tables.Stretches

/-!
# Printed declarations

A declaration is printed as its property with the attributes that it has, in any
order, or as its property with a JDBC type and a text for null at their places. Both
are read back as they were printed.
-/

namespace DynamicSql

/-- The name of a mode is read as this mode. -/
theorem ParameterMode.parse_name (mode : ParameterMode) :
    ParameterMode.parse (Text.trim mode.name) = .ok mode := by
  cases mode <;> decide +kernel

namespace Declaration

/-- Text that stands for itself in a declaration. -/
structure PlainText where
  text : String
  filled : text ≠ ""
  trimmed : Text.trim text = text
  undivided : Undivided text

namespace PlainText

theorem filled_trim (plain : PlainText) : Text.trim plain.text ≠ "" := by
  rw [plain.trimmed]
  exact plain.filled

theorem nonEmpty?_text (plain : PlainText) : Text.nonEmpty? plain.text = some plain.text := by
  rw [Text.nonEmpty?, plain.trimmed]
  simp [plain.filled]

end PlainText

namespace Attribute

/-- The value of an attribute as it is printed. -/
def value : Attribute → String
  | .javaType text | .jdbcType text | .handler text => text.getD ""
  | .mode direction => direction.name
  | .nullValue text => text
  | .numericScale scale => String.ofList (Nat.toDigits 10 scale)

/-- The segment that sets an attribute. -/
def print (given : Attribute) : String := given.key ++ "=" ++ given.value

/-- The attributes that are printed: types, handlers and texts for null are plain, and a
    scale has 32 bits. -/
def Legible : Attribute → Prop
  | .javaType text | .jdbcType text | .handler text => ∃ plain : PlainText, text = some plain.text
  | .mode _ => True
  | .nullValue text => ∃ plain : PlainText, text = plain.text
  | .numericScale scale => scale < UInt32.size

variable {given : Attribute}

theorem toList_print : given.print.toList =
    given.key.toList ++ '=' :: given.value.toList := by
  simp [print]

/-- No key has a sign in it, or a blank around it. -/
theorem key_plain (given : Attribute) : '=' ∉ given.key.toList ∧ Text.trim given.key = given.key ∧
    Undivided given.key := by
  cases given <;> simp only [key] <;> decide

theorem trim_digits (scale : Nat) :
    Text.trim (String.ofList (Nat.toDigits 10 scale)) = String.ofList (Nat.toDigits 10 scale) := by
  refine Text.trim_of_not_isBlank fun c member => ?_
  rw [String.toList_ofList] at member
  exact Text.not_isBlank_of_isWordChar (Text.isWordChar_of_mem_toDigits member)

theorem undivided_value (legible : given.Legible) : Undivided given.value := by
  cases given with
  | javaType text | jdbcType text | handler text | nullValue text =>
    obtain ⟨plain, rfl⟩ := legible
    exact plain.undivided
  | mode direction => cases direction <;> decide
  | numericScale scale =>
    have without {sign : Char} (special : Text.isWordChar sign = false) :
        sign ∉ (value (numericScale scale)).toList := by
      rw [value, String.toList_ofList]
      exact Text.not_mem_toDigits special scale
    exact ⟨without (by decide), without (by decide), without (by decide)⟩

theorem undivided_print (legible : given.Legible) : Undivided given.print := by
  obtain ⟨-, -, key⟩ := key_plain given
  have value := undivided_value legible
  constructor
  · simp [toList_print, key.noSign, value.noSign]
  · simp [toList_print, key.noComma, value.noComma]
  · simp [toList_print, key.noColon, value.noColon]

theorem keyOf_print : keyOf given.print = given.key := by
  obtain ⟨noPair, trimmed, -⟩ := key_plain given
  have all : ∀ c ∈ given.key.toList, (c != '=') = true := by
    intro c member
    rw [bne_iff_ne]
    rintro rfl
    exact noPair member
  rw [keyOf, toList_print, List.takeWhile_append_of_pos all]
  simp [trimmed]

/-- A printed attribute is read as it was. -/
theorem ofSegment_print (legible : given.Legible) :
    ofSegment given.print.toList = .ok given := by
  rw [ofSegment, toList_print, Text.splitFirst?_append (key_plain given).1]
  show read _ _ = _
  rw [String.ofList_toList, String.ofList_toList, read, (key_plain given).2.1]
  cases given with
  | javaType text | jdbcType text | handler text =>
    obtain ⟨plain, rfl⟩ := legible
    simp only [key, value, Option.getD_some, plain.trimmed, plain.nonEmpty?_text]
  | mode direction =>
    simp only [key, value, ParameterMode.parse_name]
    rfl
  | nullValue text =>
    obtain ⟨plain, rfl⟩ := legible
    simp only [key, value, plain.trimmed]
  | numericScale scale =>
    simp only [key, value, trim_digits, String.toList_ofList, Text.numeral?_toDigits legible]

end Attribute

/-- What a declaration can say: the property, and attributes where they are given. -/
structure Fields where
  property : PlainText
  javaType : Option PlainText := none
  jdbcType : Option PlainText := none
  mode : Option ParameterMode := none
  nullValue : Option PlainText := none
  handler : Option PlainText := none
  numericScale : Option UInt32 := none

namespace Fields

/-- The declaration that has these fields. -/
def declaration (fields : Fields) : Declaration where
  property := fields.property.text
  javaType := fields.javaType.map PlainText.text
  jdbcType := fields.jdbcType.map PlainText.text
  mode := fields.mode.getD .input
  nullValue := fields.nullValue.map PlainText.text
  handler := fields.handler.map PlainText.text
  numericScale := fields.numericScale.map UInt32.toNat

/-- The attributes that are given. -/
def attributes (fields : Fields) : List Attribute :=
  (fields.javaType.map fun plain => .javaType (some plain.text)).toList ++
    (fields.jdbcType.map fun plain => .jdbcType (some plain.text)).toList ++
    (fields.mode.map .mode).toList ++
    (fields.nullValue.map fun plain => .nullValue plain.text).toList ++
    (fields.handler.map fun plain => .handler (some plain.text)).toList ++
    (fields.numericScale.map fun scale => .numericScale scale.toNat).toList

/-- The segments with the attributes that are given. -/
def segments (fields : Fields) : List String := fields.attributes.map Attribute.print

theorem legible_of_mem (fields : Fields) {given : Attribute} (member : given ∈ fields.attributes) :
    given.Legible := by
  simp only [attributes, List.mem_append, Option.mem_toList, Option.map_eq_some_iff] at member
  rcases member with (((((⟨plain, -, rfl⟩ | ⟨plain, -, rfl⟩) | ⟨mode, -, rfl⟩) | ⟨plain, -, rfl⟩) |
    ⟨plain, -, rfl⟩) | ⟨scale, -, rfl⟩)
  · exact ⟨plain, rfl⟩
  · exact ⟨plain, rfl⟩
  · trivial
  · exact ⟨plain, rfl⟩
  · exact ⟨plain, rfl⟩
  · exact scale.toNat_lt

theorem keys_sublist {α : Type} {f : α → Attribute} {key : String}
    (all : ∀ content, (f content).key = key) (given : Option α) :
    List.Sublist ((given.map f).toList.map Attribute.key) [key] := by
  cases given with
  | none => exact List.nil_sublist [key]
  | some content => simp [all]

/-- The attributes that are given are set independently of each other. -/
theorem nodup_keys (fields : Fields) : (fields.segments.map keyOf).Nodup := by
  have keys : List.Sublist (fields.attributes.map Attribute.key)
      (["javaType"] ++ ["jdbcType"] ++ ["mode"] ++ ["nullValue"] ++ ["handler"] ++
        ["numericScale"]) := by
    simp only [attributes, List.map_append]
    repeat' apply List.Sublist.append
    all_goals exact keys_sublist (by intro content; rfl) _
  have printed : fields.segments.map keyOf = fields.attributes.map Attribute.key := by
    rw [segments, List.map_map]
    exact List.map_congr_left fun given _ => Attribute.keyOf_print
  rw [printed]
  exact keys.nodup (by decide)

theorem foldl_attributes (fields : Fields) :
    fields.attributes.foldl set { property := fields.property.text } = fields.declaration := by
  obtain ⟨_, javaType, jdbcType, mode, nullValue, handler, numericScale⟩ := fields
  cases javaType <;> cases jdbcType <;> cases mode <;> cases nullValue <;> cases handler <;>
    cases numericScale <;> rfl

/-- The segments are read as the attributes that were printed. -/
theorem foldlM_segments (fields : Fields) {segments : List String}
    (perm : segments.Perm fields.segments) :
    (segments.map String.toList).foldlM addPair { property := fields.property.text } =
      .ok fields.declaration := by
  have read : (fields.segments.map String.toList).mapM Attribute.ofSegment =
      .ok fields.attributes := by
    rw [Fields.segments, List.map_map, List.mapM_map]
    have each : ∀ given ∈ fields.attributes,
        (Attribute.ofSegment ∘ (String.toList ∘ Attribute.print)) given = .ok (id given) :=
      fun given member => Attribute.ofSegment_print (fields.legible_of_mem member)
    rw [mapM_eq_ok_map each, List.map_id]
  refine foldlM_addPair_of_lastWith ?_ perm.subset (lastWith_of_perm fields.nodup_keys perm)
  rw [foldlM_addPair, read, ← fields.foldl_attributes]
  rfl

theorem undivided_of_mem (fields : Fields) {segments : List String}
    (perm : segments.Perm fields.segments) :
    ∀ part ∈ fields.property.text :: segments, Undivided part := by
  intro part member
  rcases List.mem_cons.mp member with rfl | later
  · exact fields.property.undivided
  · obtain ⟨given, among, rfl⟩ := List.mem_map.mp (perm.subset later)
    exact Attribute.undivided_print (fields.legible_of_mem among)

/-- What is printed in any order is read as the declaration that has these fields. -/
theorem parse_placeholder (fields : Fields) {segments : List String}
    (perm : segments.Perm fields.segments) {cls : ParameterClass} {converters : Converters}
    {fragment : Fragment} :
    Fragment.parse cls converters (placeholder ',' fields.property.text segments) = .ok fragment ↔
      ∃ converter, fields.declaration.converter cls converters = .ok converter ∧
        fragment = .marker ⟨fields.declaration, converter⟩ := by
  have undivided := fields.undivided_of_mem perm
  have content := fields.property.filled_trim
  have read : parse (String.ofList (body ',' fields.property.text segments)) =
      .ok fields.declaration := by
    rw [parse_body_commas undivided content, fields.property.trimmed, fields.foldlM_segments perm]
  rw [placeholder_eq]
  exact Fragment.parse_placeholder_eq_ok (body_ne_nil content ',')
    (sign_not_mem_body undivided (by decide)) read

end Fields

/-- The declaration of a property with a JDBC type and a text for null. -/
def ofPlaces (property jdbcType : PlainText) (sentinel : String) : Declaration where
  property := property.text
  jdbcType := some jdbcType.text
  nullValue := some sentinel

/-- A property, a JDBC type and a text for null, which may have colons in it and blanks
    around it, are read from their places. -/
theorem parse_places (property jdbcType : PlainText) {sentinel : List Char}
    (noPair : '=' ∉ jdbcType.text.toList) (noComma : ',' ∉ sentinel) (noValue : '=' ∉ sentinel) :
    parse (String.ofList
      (property.text.toList ++ ':' :: (jdbcType.text.toList ++ ':' :: sentinel))) =
      .ok (ofPlaces property jdbcType (String.ofList sentinel)) := by
  have joined : [':'].intercalate (sentinel.splitOn ':') = sentinel := List.intercalate_splitOn ':'
  have within : ∀ part ∈ sentinel.splitOn ':', ':' ∉ part ∧ part ⊆ sentinel := by
    intro part member
    obtain ⟨before, after, whole, -, inside, -⟩ := mem_splitOnP_iff.mp member
    refine ⟨fun among => by simpa using inside ':' among, ?_⟩
    rw [whole]
    simp
  cases parts : sentinel.splitOn ':' with
  | nil => exact absurd parts (List.splitOn_ne_nil ':' sentinel)
  | cons first more =>
    rw [parts] at joined within
    have text : property.text.toList ++ ':' :: (jdbcType.text.toList ++ ':' :: sentinel) =
        [':'].intercalate (property.text.toList :: jdbcType.text.toList :: first :: more) := by
      rw [List.intercalate_cons_cons, List.intercalate_cons_cons, joined]
      simp
    have each {sign : Char} (one : sign ∉ property.text.toList) (two : sign ∉ jdbcType.text.toList)
        (rest : ∀ part ∈ first :: more, sign ∉ part) :
        ∀ part ∈ property.text.toList :: jdbcType.text.toList :: first :: more, sign ∉ part :=
      List.forall_mem_cons.mpr ⟨one, List.forall_mem_cons.mpr ⟨two, rest⟩⟩
    have noPairs : ∀ part ∈ jdbcType.text.toList :: first :: more, '=' ∉ part :=
      List.forall_mem_cons.mpr ⟨noPair, fun part member among =>
        noValue ((within part member).2 among)⟩
    have kept : (jdbcType.text.toList :: first :: more).filter ('=' ∉ ·) =
        jdbcType.text.toList :: first :: more := by
      simpa [List.filter_eq_self] using noPairs
    rw [text, parse_colons (by rw [String.ofList_toList]; exact property.filled_trim)
      (List.cons_ne_nil _ _)
      (each property.undivided.noColon jdbcType.undivided.noColon fun part member =>
        (within part member).1)
      (each property.undivided.noComma jdbcType.undivided.noComma fun part member among =>
        noComma ((within part member).2 among)),
      foldlM_addIfPair_of_not_mem noPairs, kept]
    show Except.ok _ = _
    rw [setPositional, joined, String.ofList_toList, String.ofList_toList, property.trimmed,
      jdbcType.nonEmpty?_text]
    · rfl
    · exact List.cons_ne_nil first more

/-- What a declaration prints is what its placeholder declares: its fields as attributes in any
    order, or a property with a JDBC type and a text for null at their places. -/
theorem print_declares (cls : ParameterClass) (converters : Converters) :
    (∀ (fields : Fields) (segments : List String), segments.Perm fields.segments → ∀ fragment,
      Fragment.parse cls converters (placeholder ',' fields.property.text segments) = .ok fragment ↔
        ∃ converter, fields.declaration.converter cls converters = .ok converter ∧
          fragment = .marker ⟨fields.declaration, converter⟩) ∧
    ∀ (property jdbcType : PlainText) (sentinel : String), '=' ∉ jdbcType.text.toList →
      '#' ∉ sentinel.toList → ',' ∉ sentinel.toList → '=' ∉ sentinel.toList → ∀ fragment,
        Fragment.parse cls converters
            ("#" ++ property.text ++ ":" ++ jdbcType.text ++ ":" ++ sentinel ++ "#") =
          .ok fragment ↔
        ∃ converter,
          (ofPlaces property jdbcType sentinel).converter cls converters = .ok converter ∧
          fragment = .marker ⟨ofPlaces property jdbcType sentinel, converter⟩ := by
  refine ⟨fun fields segments perm fragment => fields.parse_placeholder perm, ?_⟩
  intro property jdbcType sentinel noPair noSign noComma noValue fragment
  have printed : "#" ++ property.text ++ ":" ++ jdbcType.text ++ ":" ++ sentinel ++ "#" =
      String.ofList ('#' :: ((property.text.toList ++
        ':' :: (jdbcType.text.toList ++ ':' :: sentinel.toList)) ++ ['#'])) := by
    rw [← String.toList_inj, String.toList_ofList]
    simp
  have unsigned : '#' ∉ property.text.toList ++
      ':' :: (jdbcType.text.toList ++ ':' :: sentinel.toList) := by
    simp [property.undivided.noSign, jdbcType.undivided.noSign, noSign]
  have read := parse_places property jdbcType noPair noComma noValue
  rw [String.ofList_toList] at read
  rw [printed]
  exact Fragment.parse_placeholder_eq_ok (by simp) unsigned read

/-- An amount whose attributes are printed in another order than they are listed in, and a
    time whose text for null has colons in it and blanks around it. -/
theorem print_declares_in_order :
    Fragment.parse .unknown ({} : Registry)
        (placeholder ',' "amount" ["numericScale=2", "mode=INOUT", "nullValue=-1",
          "javaType=decimal"]) =
      .ok (.marker ⟨{ property := "amount", javaType := some "decimal", mode := .inputOutput,
                      nullValue := some "-1", numericScale := some 2 },
        Registry.usual .decimal none⟩) ∧
    Fragment.parse .unknown ({} : Registry)
        ("#" ++ "at" ++ ":" ++ "TIMESTAMP" ++ ":" ++ " 00:00:00 " ++ "#") =
      .ok (.marker ⟨{ property := "at", jdbcType := some "TIMESTAMP",
                      nullValue := some " 00:00:00 " },
        Registry.usual .unknown (some "TIMESTAMP")⟩) := by
  let amount : Fields :=
    { property := ⟨"amount", by decide, by decide, by decide⟩
      javaType := some ⟨"decimal", by decide, by decide, by decide⟩
      mode := some .inputOutput
      nullValue := some ⟨"-1", by decide, by decide, by decide⟩
      numericScale := some 2 }
  obtain ⟨attributes, places⟩ := print_declares .unknown ({} : Registry)
  constructor
  · exact (attributes amount _ (by decide +kernel) _).mpr ⟨_, by decide +kernel, rfl⟩
  · exact (places ⟨"at", by decide, by decide, by decide⟩
      ⟨"TIMESTAMP", by decide, by decide, by decide⟩ " 00:00:00 " (by decide) (by decide)
      (by decide) (by decide) _).mpr ⟨_, by decide +kernel, rfl⟩

end Declaration

end DynamicSql
