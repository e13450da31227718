import DynamicSql.Proofs.Markers.Balance
import DynamicSql.Proofs.Nesting.Rendering

/-!
# What nested iterations bind

The statement of nested iterations binds the innermost items, each at its own
address and in the order of the indexes, and the values that are bound are these
items, if the first field does not recur among the others.
-/

namespace DynamicSql

namespace Value

/-- The steps to an item of an array in a field. -/
theorem at?_way_cons {fields : List (String × Value)} {items : List Value} {name : String}
    (field : fields.lookup name = some (.array items)) (index : Nat)
    (places : List (String × Nat)) :
    (Value.object fields).at? (Nest.way ((name, index) :: places)) =
      items[index]?.bind (·.at? (Nest.way places)) := by
  simp [Nest.way, Segment.items, Segment.steps, at?, step?, field]

/-- The leaves are the innermost items, each with the indexes that lead to it. -/
theorem mem_leaves_iff {names : List String} {value : Value} (arrays : value.HasArrays names)
    {indexes : List Nat} {item : Value} :
    (indexes, item) ∈ value.leaves names ↔
      indexes.length = names.length ∧ value.at? (Nest.way (names.zip indexes)) = some item := by
  induction names generalizing value indexes with
  | nil =>
    simp only [leaves, List.mem_singleton, Prod.mk.injEq, List.length_nil,
      List.length_eq_zero_iff]
    constructor
    · rintro ⟨rfl, rfl⟩
      exact ⟨rfl, rfl⟩
    · rintro ⟨rfl, same⟩
      exact ⟨rfl, (Option.some.inj same).symm⟩
  | cons name rest ih =>
    obtain ⟨fields, items, rfl, field, -, arrays⟩ := arrays
    simp only [leaves, step?, field, List.mem_flatMap, List.mem_map, Prod.exists,
      Prod.mk.injEq]
    constructor
    · rintro ⟨first, index, among, inner, leaf, member, rfl, rfl⟩
      have found : items[index]? = some first := List.mk_mem_zipIdx_iff_getElem?.mp among
      obtain ⟨length, there⟩ := (ih (arrays first (List.mem_of_getElem? found))).mp member
      refine ⟨by simp [length], ?_⟩
      rw [List.zip_cons_cons, at?_way_cons field, found]
      exact there
    · rintro ⟨length, there⟩
      cases indexes with
      | nil => cases length
      | cons index inner =>
        rw [List.zip_cons_cons, at?_way_cons field] at there
        obtain ⟨first, found, there⟩ := Option.bind_eq_some_iff.mp there
        have member := (ih (arrays first (List.mem_of_getElem? found))).mpr
          ⟨Nat.succ.inj length, there⟩
        exact ⟨first, index, List.mk_mem_zipIdx_iff_getElem?.mpr found, inner, item, member, rfl,
          rfl⟩

/-- The leaves stand in the lexicographic order of their indexes, each once. -/
theorem leaves_sorted (names : List String) (value : Value) :
    (value.leaves names).Pairwise fun leaf other => leaf.1 < other.1 := by
  induction names generalizing value with
  | nil => simp [leaves]
  | cons name rest ih =>
    unfold leaves
    split
    · next items _ =>
      have ascending : items.zipIdx.Pairwise fun item other => item.2 < other.2 := by
        rw [← List.pairwise_map, List.zipIdx_map_snd]
        exact List.pairwise_lt_range'
      refine List.pairwise_flatMap.mpr ⟨fun item _ => ?_, ascending.imp fun less => ?_⟩
      · refine List.pairwise_map.mpr ((ih item.1).imp fun less => ?_)
        exact List.cons_lt_cons_iff.mpr (.inr ⟨rfl, less⟩)
      · intro leaf member other otherMember
        obtain ⟨_, -, rfl⟩ := List.mem_map.mp member
        obtain ⟨_, -, rfl⟩ := List.mem_map.mp otherMember
        exact List.cons_lt_cons_iff.mpr (.inl less)
    · exact .nil

/-- The indexes of arrays are numbers of sixty-four bits. -/
theorem bounded_of_mem_leaves {names : List String} {value : Value}
    (arrays : value.HasArrays names) {indexes : List Nat} {item : Value}
    (member : (indexes, item) ∈ value.leaves names) : ∀ index ∈ indexes, index < UInt64.size := by
  induction names generalizing value indexes with
  | nil =>
    rw [leaves, List.mem_singleton] at member
    cases member
    simp
  | cons name rest ih =>
    obtain ⟨fields, items, rfl, field, bound, arrays⟩ := arrays
    simp only [leaves, step?, field, List.mem_flatMap, List.mem_map, Prod.exists,
      Prod.mk.injEq] at member
    obtain ⟨first, index, among, inner, leaf, member, rfl, rfl⟩ := member
    have found : items[index]? = some first := List.mk_mem_zipIdx_iff_getElem?.mp among
    refine List.forall_mem_cons.mpr ⟨?_, ih (arrays first (List.mem_of_getElem? found)) member⟩
    exact Nat.lt_of_lt_of_le (List.getElem?_eq_some_iff.mp found).1 bound

end Value

namespace Nest

/-- The template of nested iterations can be built and rendered, its statement binds the
    addresses of the innermost items in the order of their indexes and nothing else, and
    the values that are bound are these items. -/
def BindsLeaves (id : String) (cls : ParameterClass) (converters : Converters)
    (names : List String) (param : Value) : Prop :=
  ∃ template fragment, (draft id cls names).build converters = .ok template ∧
    template.render converters param = .ok fragment ∧
    fragment.bindings.map Binding.toDeclaration =
      (param.leaves names).map (fun leaf => { property := address (names.zip leaf.1) }) ∧
    fragment.values param = .ok ((param.leaves names).map Prod.snd)

/-- Bindings of addresses with an item at each have these items as values. -/
theorem values_of_addresses {param : Value} (composite : param.isComposite = true)
    {leaves : List (String × Value)} {bindings : List Binding}
    (declared : bindings.map Binding.toDeclaration =
      leaves.map fun leaf => { property := leaf.1 })
    (there : ∀ leaf ∈ leaves, param.get leaf.1 = .ok (some leaf.2)) :
    bindings.mapM (·.value param) = .ok (leaves.map Prod.snd) := by
  induction leaves generalizing bindings with
  | nil =>
    have none : bindings = [] := by simpa using declared
    rw [none]
    rfl
  | cons leaf rest ih =>
    cases bindings with
    | nil => simp at declared
    | cons binding others =>
      simp only [List.map_cons, List.cons.injEq] at declared
      obtain ⟨here, later⟩ := List.forall_mem_cons.mp there
      have value : binding.value param = .ok leaf.2 := by
        simp only [Binding.value, declared.1, Value.namedBy, composite, if_pos, here]
        rfl
      rw [List.mapM_cons, value, ih declared.2 later]
      rfl

/-- Bindings of the addresses of the innermost items have these items as values. -/
theorem values_of_leaves {names : List String} {param : Value} {bindings : List Binding}
    (words : ∀ name ∈ names, Text.Word name) (some : names ≠ []) (arrays : param.HasArrays names)
    (declared : bindings.map Binding.toDeclaration =
      (param.leaves names).map fun leaf => { property := address (names.zip leaf.1) }) :
    bindings.mapM (·.value param) = .ok ((param.leaves names).map Prod.snd) := by
  have composite : param.isComposite = true := by
    cases names with
    | nil => exact absurd rfl some
    | cons name rest =>
      obtain ⟨fields, items, rfl, -⟩ := arrays
      rfl
  let addressed := (param.leaves names).map fun leaf => (address (names.zip leaf.1), leaf.2)
  have there : ∀ leaf ∈ addressed, param.get leaf.1 = .ok (Option.some leaf.2) := by
    intro leaf member
    obtain ⟨⟨indexes, item⟩, among, rfl⟩ := List.mem_map.mp member
    obtain ⟨length, found⟩ := (Value.mem_leaves_iff arrays).mp among
    have fields : (names.zip indexes).map Prod.fst = names :=
      List.map_fst_zip (Nat.le_of_eq length.symm)
    have bounded : ∀ place ∈ names.zip indexes, place.2 < UInt64.size := by
      intro place member
      exact Value.bounded_of_mem_leaves arrays among place.2 (List.of_mem_zip member).2
    have some : names.zip indexes ≠ [] := by
      rintro empty
      rw [empty] at fields
      exact some fields.symm
    rw [get_address some (by rw [fields]; exact words) bounded, found]
  have sameDeclared : bindings.map Binding.toDeclaration =
      addressed.map fun leaf => { property := leaf.1 } := by
    rw [declared]
    simp [addressed]
  have values := values_of_addresses composite sameDeclared there
  simpa [addressed, List.map_map, Function.comp_def] using values

/-- Nested iterations write no marker and no dollar sign. -/
theorem unmarked_nodes {outer names : List String}
    (words : ∀ name ∈ outer ++ names, Text.Word name) :
    Node.EachOf Text.Unmarked Tag.Unmarked (nodes outer names) := by
  induction names generalizing outer with
  | nil =>
    rw [List.append_nil] at words
    have chars := Text.isAddressChar_of_mem_spell (Segment.words_blanks words)
    have noMarker := Text.not_mem_of_isAddressChar (c := '?') chars (by decide)
    have noDollar := Text.not_mem_of_isAddressChar (c := '$') chars (by decide)
    have unmarked : Text.Unmarked (placeholder outer) := by
      rw [Text.Unmarked, placeholder, String.toList_ofList]
      simp [noMarker, noDollar]
    exact ⟨unmarked, trivial⟩
  | cons name rest ih =>
    refine ⟨⟨by simp [Tag.Unmarked, Tag.glue, Tag.iterate], ih ?_⟩, trivial⟩
    simpa using words

/-- If the first field does not recur, nested iterations bind the innermost items. -/
theorem bindsLeaves_of_firstOnce {id : String} {cls : ParameterClass} {converters : Converters}
    {names : List String} {param : Value}
    (answered : Answered cls converters names)
    (words : ∀ name ∈ names, Text.Word name) (some : names ≠ []) (once : FirstOnce names)
    (arrays : param.HasArrays names) : BindsLeaves id cls converters names param := by
  let occasion : Occasion := { cls, converters, param }
  have built : Node.buildAll cls converters false 0 (nodes [] names) = .ok (parts 0 [] names) :=
    buildAll_nodes (.inr some)
  have outside : Reaches occasion {} [] param := ⟨by simp, by simp, .outside, rfl⟩
  obtain ⟨fragment, after, ran, -, declared⟩ :
      ∃ fragment after, (Part.renderAll occasion none
          (parts 0 (([] : List (String × Nat)).map Prod.fst) names)).run {} =
          .ok (fragment, after) ∧
        after.loops = ({} : Frames).advance.loops ∧
        fragment.bindings.map Binding.toDeclaration =
          (param.leaves names).map fun leaf => { property := address ([] ++ names.zip leaf.1) } :=
    renderAll_parts answered once words some outside arrays
  have balanced : fragment.Balanced :=
    Part.balanced_of_renderAll (Node.numberedAll_of_buildAll _ built)
      (Node.eachOf_of_buildAll Node.unmarked_of_buildText _ (unmarked_nodes words) built) ran
  refine ⟨_, fragment, build_draft id cls converters some, ?_, declared, ?_⟩
  · exact bind_eq_ok_iff.mpr ⟨(fragment, after), ran,
      bind_eq_ok_iff.mpr ⟨fragment.sql, substitute_of_noDollar balanced.noDollar, rfl⟩⟩
  · exact values_of_leaves words some arrays declared

end Nest

end DynamicSql
