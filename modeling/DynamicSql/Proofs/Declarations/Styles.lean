import DynamicSql.Proofs.Declarations.Attributes
import DynamicSql.Proofs.Placeholders.Division

/-!
# The two styles of declarations

A name and segments behind it are written with commas or with colons between them.
With commas every segment is an attribute. With colons a segment without an equals
sign has its meaning by its place, and if there are none of these the two styles say
the same.
-/

namespace DynamicSql

/-- A sign that stands neither in the parts of a row nor between them does not stand in it. -/
theorem Text.not_mem_intercalate {sign separator : Char} {parts : List (List Char)}
    (differs : sign ≠ separator) (without : ∀ part ∈ parts, sign ∉ part) :
    sign ∉ [separator].intercalate parts := by
  induction parts with
  | nil => simp
  | cons first rest ih =>
    obtain ⟨here, later⟩ := List.forall_mem_cons.mp without
    cases rest with
    | nil => simpa using here
    | cons next more =>
      rw [List.intercalate_cons_cons]
      simp [here, differs, ih later]

namespace Declaration

theorem named_eq_ok {name : List Char} (content : Text.trim (String.ofList name) ≠ "")
    (body : String) : named name body = .ok { property := Text.trim (String.ofList name) } := by
  have filled : (Text.trim (String.ofList name)).isEmpty = false := by simpa using content
  rw [named]
  simp [filled]

section Bodies

variable {name : List Char} {segments : List (List Char)}

/-- Behind a name, what is divided by commas is attributes. -/
theorem parse_commas (content : Text.trim (String.ofList name) ≠ "")
    (noColon : ∀ part ∈ name :: segments, ':' ∉ part)
    (noComma : ∀ part ∈ name :: segments, ',' ∉ part) :
    parse (String.ofList ([','].intercalate (name :: segments))) =
      segments.foldlM addPair { property := Text.trim (String.ofList name) } := by
  have single := Text.not_mem_intercalate (by decide : ':' ≠ ',') noColon
  rw [parse, String.toList_ofList, if_neg single, ofAttributes, String.toList_ofList,
    List.splitOn_intercalate ',' noComma (List.cons_ne_nil name segments)]
  simp only [named_eq_ok content]
  rfl

/-- Behind a name, what is divided by colons is attributes and what stands at a place. -/
theorem parse_colons (content : Text.trim (String.ofList name) ≠ "") (some : segments ≠ [])
    (noColon : ∀ part ∈ name :: segments, ':' ∉ part)
    (noComma : ∀ part ∈ name :: segments, ',' ∉ part) :
    parse (String.ofList ([':'].intercalate (name :: segments))) = (do
      let d ← segments.foldlM addIfPair { property := Text.trim (String.ofList name) }
      return d.setPositional (segments.filter ('=' ∉ ·))) := by
  have divided : ':' ∈ [':'].intercalate (name :: segments) := by
    obtain ⟨next, more, rfl⟩ := List.exists_cons_of_ne_nil some
    simp [List.intercalate_cons_cons]
  have single := Text.not_mem_intercalate (by decide : ',' ≠ ':') noComma
  rw [parse, String.toList_ofList, if_pos divided, if_neg single, ofColons, String.toList_ofList,
    List.splitOn_intercalate ':' noColon (List.cons_ne_nil name segments)]
  simp only [named_eq_ok content]
  rfl

theorem addIfPair_of_mem (d : Declaration) {segment : List Char} (pair : '=' ∈ segment) :
    d.addIfPair segment = d.addPair segment := by
  obtain ⟨behind, split⟩ := Text.exists_splitFirst? pair
  rw [addIfPair, addPair, split]

theorem addIfPair_of_not_mem (d : Declaration) {segment : List Char} (noPair : '=' ∉ segment) :
    d.addIfPair segment = .ok d := by
  rw [addIfPair, Text.splitFirst?_of_not_mem noPair]

theorem foldlM_addIfPair_of_mem (pairs : ∀ segment ∈ segments, '=' ∈ segment) (d : Declaration) :
    segments.foldlM addIfPair d = segments.foldlM addPair d := by
  induction segments generalizing d with
  | nil => rfl
  | cons segment rest ih =>
    obtain ⟨here, later⟩ := List.forall_mem_cons.mp pairs
    rw [List.foldlM_cons, List.foldlM_cons, addIfPair_of_mem d here]
    exact congrArg (d.addPair segment >>= ·) (funext (ih later))

theorem foldlM_addIfPair_of_not_mem (noPairs : ∀ segment ∈ segments, '=' ∉ segment)
    (d : Declaration) : segments.foldlM addIfPair d = .ok d := by
  induction segments with
  | nil => rfl
  | cons segment rest ih =>
    obtain ⟨here, later⟩ := List.forall_mem_cons.mp noPairs
    rw [List.foldlM_cons, addIfPair_of_not_mem d here]
    exact ih later

/-- If all segments are attributes, it does not matter what divides them. -/
theorem parse_colons_of_pairs (content : Text.trim (String.ofList name) ≠ "")
    (some : segments ≠ []) (noColon : ∀ part ∈ name :: segments, ':' ∉ part)
    (noComma : ∀ part ∈ name :: segments, ',' ∉ part)
    (pairs : ∀ segment ∈ segments, '=' ∈ segment) :
    parse (String.ofList ([':'].intercalate (name :: segments))) =
      segments.foldlM addPair { property := Text.trim (String.ofList name) } := by
  have none : segments.filter ('=' ∉ ·) = [] := by simpa using pairs
  rw [parse_colons content some noColon noComma, foldlM_addIfPair_of_mem pairs, none]
  cases segments.foldlM addPair { property := Text.trim (String.ofList name) } <;> rfl

end Bodies

/-- A part of a declaration in which nothing ends or divides one. -/
structure Undivided (part : String) : Prop where
  noSign : '#' ∉ part.toList
  noComma : ',' ∉ part.toList
  noColon : ':' ∉ part.toList

instance (part : String) : Decidable (Undivided part) :=
  decidable_of_iff ('#' ∉ part.toList ∧ ',' ∉ part.toList ∧ ':' ∉ part.toList)
    ⟨fun ⟨noSign, noComma, noColon⟩ => ⟨noSign, noComma, noColon⟩,
      fun ⟨noSign, noComma, noColon⟩ => ⟨noSign, noComma, noColon⟩⟩

/-- A placeholder with a name and segments behind it. -/
def placeholder (separator : Char) (name : String) (segments : List String) : String :=
  "#" ++ (String.singleton separator).intercalate (name :: segments) ++ "#"

/-- What stands in front of the first equals sign of a segment, without blanks around it. -/
def keyOf (segment : String) : String :=
  Text.trim (String.ofList (segment.toList.takeWhile (· != '=')))

section Segments

variable {cls : ParameterClass} {converters : Converters} {name : String} {segments : List String}

/-- What stands in a placeholder. -/
def body (separator : Char) (name : String) (segments : List String) : List Char :=
  [separator].intercalate (name.toList :: segments.map String.toList)

theorem placeholder_eq (separator : Char) :
    placeholder separator name segments =
      String.ofList ('#' :: (body separator name segments ++ ['#'])) := by
  rw [← String.toList_inj, String.toList_ofList, placeholder]
  simp [String.toList_intercalate, body]

theorem body_ne_nil (content : Text.trim name ≠ "") (separator : Char) :
    body separator name segments ≠ [] := by
  have filled : name.toList ≠ [] := by
    intro none
    rw [String.toList_eq_nil_iff] at none
    subst none
    exact content (by decide)
  cases segments with
  | nil => simpa [body] using filled
  | cons next more => simp [body, List.intercalate_cons_cons]

section Undivided

variable (undivided : ∀ part ∈ name :: segments, Undivided part)

include undivided

/-- Neither a sign nor what divides a declaration stands in its parts. -/
theorem not_mem_parts :
    (∀ part ∈ name.toList :: segments.map String.toList, '#' ∉ part) ∧
      (∀ part ∈ name.toList :: segments.map String.toList, ',' ∉ part) ∧
      ∀ part ∈ name.toList :: segments.map String.toList, ':' ∉ part := by
  rw [← List.map_cons]
  exact ⟨List.forall_mem_map.mpr fun part member => (undivided part member).noSign,
    List.forall_mem_map.mpr fun part member => (undivided part member).noComma,
    List.forall_mem_map.mpr fun part member => (undivided part member).noColon⟩

theorem sign_not_mem_body {separator : Char} (differs : '#' ≠ separator) :
    '#' ∉ body separator name segments :=
  Text.not_mem_intercalate differs (not_mem_parts undivided).1

theorem parse_body_commas (content : Text.trim name ≠ "") :
    parse (String.ofList (body ',' name segments)) =
      (segments.map String.toList).foldlM addPair { property := Text.trim name } := by
  obtain ⟨-, noComma, noColon⟩ := not_mem_parts undivided
  rw [body, parse_commas (by rwa [String.ofList_toList]) noColon noComma, String.ofList_toList]

/-- A placeholder in which all segments are attributes, with commas or with colons. -/
theorem parse_placeholder_of_pairs (cls : ParameterClass) (converters : Converters)
    (content : Text.trim name ≠ "") (some : segments ≠ [])
    (pairs : ∀ segment ∈ segments, '=' ∈ segment.toList) {separator : Char}
    (style : separator = ',' ∨ separator = ':') :
    Fragment.parse cls converters (placeholder separator name segments) =
      ((segments.map String.toList).foldlM addPair { property := Text.trim name } >>=
        (bind · cls converters)).map Fragment.marker := by
  have differs : '#' ≠ separator := by rcases style with rfl | rfl <;> decide
  rw [placeholder_eq, Fragment.parse_placeholder (body_ne_nil content separator)
    (sign_not_mem_body undivided differs), Fragment.declared]
  rcases style with rfl | rfl
  · rw [parse_body_commas undivided content]
  · obtain ⟨-, noComma, noColon⟩ := not_mem_parts undivided
    rw [body, parse_colons_of_pairs (by rwa [String.ofList_toList]) (by simpa using some) noColon
      noComma (List.forall_mem_map.mpr pairs), String.ofList_toList]

end Undivided

/-- Of segments that are attributes the last one with each key decides. -/
theorem foldlM_addPair_of_lastWith {others : List String} {d set : Declaration}
    (read : (segments.map String.toList).foldlM addPair d = .ok set) (among : others ⊆ segments)
    (same : ∀ key, lastWith keyOf others key = lastWith keyOf segments key) :
    (others.map String.toList).foldlM addPair d = .ok set := by
  have reading {row : List String} : (row.map String.toList).mapM Attribute.ofSegment =
      row.mapM (Attribute.ofSegment ∘ String.toList) := List.mapM_map
  rw [foldlM_addPair, reading] at read ⊢
  cases all : segments.mapM (Attribute.ofSegment ∘ String.toList) with
  | error e =>
    rw [all] at read
    cases read
  | ok attributes =>
    choose! given reads using exists_of_mapM_eq_ok all
    have keys {row : List String} (inside : row ⊆ segments) :
        lastWith (Attribute.key ∘ given) row = lastWith keyOf row :=
      lastWith_congr fun segment member =>
        Attribute.key_of_ofSegment (reads segment (inside member))
    have last : lastWith Attribute.key (others.map given) =
        lastWith Attribute.key (segments.map given) := by
      funext key
      rw [lastWith_map, lastWith_map, keys among, keys (List.Subset.refl segments), same]
    rw [mapM_eq_ok_map reads] at read
    rw [mapM_eq_ok_map fun segment member => reads segment (among member)]
    rw [← read]
    exact congrArg Except.ok (foldl_of_lastWith set_comm set_override last d)

/-- If no two attributes have the same key, their order does not matter. -/
theorem lastWith_of_perm {others : List String} (distinct : (segments.map keyOf).Nodup)
    (perm : others.Perm segments) (key : String) :
    lastWith keyOf others key = lastWith keyOf segments key := by
  ext segment
  rw [lastWith_of_nodup distinct, lastWith_of_nodup ((perm.map keyOf).nodup_iff.mpr distinct),
    perm.mem_iff]

/-- If attributes declare a parameter, those of them that are the last ones with their keys
    declare the same, in any order and with commas or with colons. -/
theorem parse_placeholder_of_lastWith (content : Text.trim name ≠ "") (some : segments ≠ [])
    (undivided : ∀ part ∈ name :: segments, Undivided part)
    (pairs : ∀ segment ∈ segments, '=' ∈ segment.toList) {fragment : Fragment}
    (ok : Fragment.parse cls converters (placeholder ',' name segments) = .ok fragment)
    {others : List String} (among : others ⊆ segments)
    (same : ∀ key, lastWith keyOf others key = lastWith keyOf segments key) {separator : Char}
    (style : separator = ',' ∨ separator = ':') :
    Fragment.parse cls converters (placeholder separator name others) = .ok fragment := by
  have more : others ≠ [] := by
    rintro rfl
    obtain ⟨segment, member⟩ := List.exists_mem_of_ne_nil segments some
    exact lastWith_eq_none_iff.mp (same (keyOf segment)).symm segment member rfl
  have parts : ∀ part ∈ name :: others, Undivided part := fun part member =>
    undivided part (List.cons_subset_cons name among member)
  have attributes : ∀ segment ∈ others, '=' ∈ segment.toList := fun segment member =>
    pairs segment (among member)
  have commas := parse_placeholder_of_pairs undivided cls converters content some pairs (.inl rfl)
  rw [parse_placeholder_of_pairs parts cls converters content more attributes style]
  cases read : (segments.map String.toList).foldlM addPair { property := Text.trim name } with
  | error e =>
    rw [commas, read] at ok
    cases ok
  | ok set => rw [foldlM_addPair_of_lastWith read among same, ← ok, commas, read]

/-- A name and attributes declare the same with commas and with colons. If they declare
    a parameter, the last attribute with each key decides, and so if no two of them have
    the same key their order does not matter. -/
theorem styles_agree (content : Text.trim name ≠ "") (some : segments ≠ [])
    (undivided : ∀ part ∈ name :: segments, Undivided part)
    (pairs : ∀ segment ∈ segments, '=' ∈ segment.toList) :
    Fragment.parse cls converters (placeholder ':' name segments) =
      Fragment.parse cls converters (placeholder ',' name segments) ∧
    ∀ fragment, Fragment.parse cls converters (placeholder ',' name segments) = .ok fragment →
      ((segments.map keyOf).Nodup → ∀ others, others.Perm segments → ∀ separator ∈ [',', ':'],
        Fragment.parse cls converters (placeholder separator name others) = .ok fragment) ∧
      ∀ others ⊆ segments, (∀ key, lastWith keyOf others key = lastWith keyOf segments key) →
        ∀ separator ∈ [',', ':'],
          Fragment.parse cls converters (placeholder separator name others) = .ok fragment := by
  have commas := parse_placeholder_of_pairs undivided cls converters content some pairs (.inl rfl)
  have colons := parse_placeholder_of_pairs undivided cls converters content some pairs (.inr rfl)
  refine ⟨colons.trans commas.symm, fun fragment ok => ⟨?_, ?_⟩⟩
  · intro distinct others perm separator style
    exact parse_placeholder_of_lastWith content some undivided pairs ok perm.subset
      (lastWith_of_perm distinct perm) (List.mem_pair.mp style)
  · intro others among same separator style
    exact parse_placeholder_of_lastWith content some undivided pairs ok among same
      (List.mem_pair.mp style)

/-- An attribute that is set twice, a value with equals signs and one without anything
    in it, in two orders. -/
theorem styles_agree_on_repeated_attribute :
    Fragment.parse .unknown ({} : Registry)
        (placeholder ',' "id" [" mode = in", "jdbcType=", "nullValue=a=b", "mode=inout "]) =
      .ok (.marker ⟨{ property := "id", mode := .inputOutput, nullValue := some "a=b" },
        Registry.usual .unknown none⟩) ∧
    ∀ separator ∈ [',', ':'], Fragment.parse .unknown ({} : Registry)
        (placeholder separator "id" ["mode=inout ", "nullValue=a=b", "jdbcType="]) =
      .ok (.marker ⟨{ property := "id", mode := .inputOutput, nullValue := some "a=b" },
        Registry.usual .unknown none⟩) := by
  have read : Fragment.parse .unknown ({} : Registry)
      (placeholder ',' "id" [" mode = in", "jdbcType=", "nullValue=a=b", "mode=inout "]) =
        .ok (.marker ⟨{ property := "id", mode := .inputOutput, nullValue := some "a=b" },
          Registry.usual .unknown none⟩) := by
    decide +kernel
  have first : keyOf " mode = in" = "mode" := by decide
  have second : keyOf "jdbcType=" = "jdbcType" := by decide
  have third : keyOf "nullValue=a=b" = "nullValue" := by decide
  have fourth : keyOf "mode=inout " = "mode" := by decide
  refine ⟨read, ((styles_agree (by decide) (by decide) (by decide) (by decide)).2 _ read).2 _
    (by decide) fun key => ?_⟩
  by_cases mode : "mode" = key
  · subst mode
    simp [lastWith, second, third, fourth]
  · by_cases null : "nullValue" = key
    · subst null
      simp [lastWith, second, third, fourth]
    · simp [lastWith, List.find?_cons, first, third, fourth, mode, null]

end Segments

end Declaration

end DynamicSql
