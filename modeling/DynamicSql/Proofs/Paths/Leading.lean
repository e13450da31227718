import DynamicSql.Proofs.Paths.Grammar
import DynamicSql.Value.Store

/-!
# Where paths lead

A step leads from a value to one of its parts: from an object to the value of a
field, from an array to an item. A path leads through parts of parts, and it
leads nowhere if one of its steps does. A store of parsed paths changes nothing
about this, whatever it has read and forgotten before.
-/

namespace DynamicSql

namespace Value

/-- A step from a value to a part of it. Of fields with one name the first counts. -/
inductive Has : Value → Step → Value → Prop
  | field {name : String} {part : Value} {front behind : List (String × Value)}
      (first : ∀ entry ∈ front, entry.1 ≠ name) :
      Has (.object (front ++ (name, part) :: behind)) (.field name) part
  | item {items : List Value} {position : Nat} {part : Value}
      (there : items[position]? = some part) : Has (.array items) (.index position) part

/-- A value in which a step leads nowhere: an object without the field, an array with too few
    items, or a value that has no fields or no items at all. -/
inductive Lacks : Value → Step → Prop
  | field {name : String} {fields : List (String × Value)}
      (absent : ∀ entry ∈ fields, entry.1 ≠ name) : Lacks (.object fields) (.field name)
  | item {items : List Value} {position : Nat} (short : items.length ≤ position) :
      Lacks (.array items) (.index position)
  | noObject {value : Value} {name : String} (other : ∀ fields, value ≠ .object fields) :
      Lacks value (.field name)
  | noArray {value : Value} {position : Nat} (other : ∀ items, value ≠ .array items) :
      Lacks value (.index position)

/-- The steps of a path one after the other, from a value to a part of it. -/
inductive Leads : Value → Path → Value → Prop
  | here {value : Value} : Leads value [] value
  | step {value part target : Value} {step : Step} {path : Path} (has : value.Has step part)
      (rest : Leads part path target) : Leads value (step :: path) target

/-- A path with a step that leads nowhere: the steps in front of it lead to a value that lacks
    what it names. -/
def Misses (value : Value) (path : Path) : Prop :=
  ∃ front step behind reached, path = front ++ step :: behind ∧ value.Leads front reached ∧
    reached.Lacks step

theorem step?_eq_some_iff {value part : Value} {step : Step} :
    value.step? step = some part ↔ value.Has step part := by
  constructor
  · intro found
    unfold step? at found
    split at found
    · obtain ⟨front, behind, rfl, first⟩ := List.lookup_eq_some_iff.mp found
      exact .field fun entry member => (bne_iff_ne.mp (first entry member)).symm
    · exact .item found
    · cases found
  · intro has
    cases has with
    | field first =>
      exact List.lookup_eq_some_iff.mpr
        ⟨_, _, rfl, fun entry member => bne_iff_ne.mpr (first entry member).symm⟩
    | item there => exact there

theorem step?_eq_none_iff {value : Value} {step : Step} :
    value.step? step = none ↔ value.Lacks step := by
  constructor
  · intro missing
    unfold step? at missing
    split at missing
    · have absent := List.lookup_eq_none_iff.mp missing
      exact .field fun entry member => (bne_iff_ne.mp (absent entry member)).symm
    · exact .item (List.getElem?_eq_none_iff.mp missing)
    · next noField noItem =>
      cases step with
      | field name => exact .noObject fun fields same => noField fields name same rfl
      | index position => exact .noArray fun items same => noItem items position same rfl
  · intro lacks
    cases lacks with
    | field absent =>
      exact List.lookup_eq_none_iff.mpr
        fun entry member => bne_iff_ne.mpr (absent entry member).symm
    | item short => exact List.getElem?_eq_none_iff.mpr short
    | noObject other =>
      cases value with
      | object fields => exact absurd rfl (other fields)
      | null | bool | number | string | array => rfl
    | noArray other =>
      cases value with
      | array items => exact absurd rfl (other items)
      | null | bool | number | string | object => rfl

theorem at?_cons (value : Value) (step : Step) (path : Path) :
    value.at? (step :: path) = (value.step? step).bind (·.at? path) := rfl

/-- The part that is found at a path is the one that the path leads to. -/
theorem at?_eq_some_iff {value part : Value} {path : Path} :
    value.at? path = some part ↔ value.Leads path part := by
  induction path generalizing value with
  | nil =>
    rw [at?_nil, Option.some.injEq]
    constructor
    · rintro rfl
      exact .here
    · intro leads
      cases leads
      rfl
  | cons step path ih =>
    rw [at?_cons, Option.bind_eq_some_iff]
    constructor
    · rintro ⟨next, found, rest⟩
      exact .step (step?_eq_some_iff.mp found) (ih.mp rest)
    · intro leads
      cases leads with
      | step has rest => exact ⟨_, step?_eq_some_iff.mpr has, ih.mpr rest⟩

/-- Nothing is found at a path with a step that leads nowhere, and only there. -/
theorem at?_eq_none_iff {value : Value} {path : Path} :
    value.at? path = none ↔ value.Misses path := by
  constructor
  · intro missing
    induction path generalizing value with
    | nil => cases missing
    | cons step path ih =>
      rw [at?_cons] at missing
      cases found : value.step? step with
      | none => exact ⟨[], step, path, value, rfl, .here, step?_eq_none_iff.mp found⟩
      | some next =>
        rw [found] at missing
        obtain ⟨front, last, behind, reached, rfl, leads, lacks⟩ := ih missing
        exact ⟨step :: front, last, behind, reached, rfl,
          .step (step?_eq_some_iff.mp found) leads, lacks⟩
  · rintro ⟨front, step, behind, reached, rfl, leads, lacks⟩
    rw [at?_append, at?_eq_some_iff.mpr leads, Option.bind_some, at?_cons,
      step?_eq_none_iff.mpr lacks]
    rfl

end Value

namespace PathStore

/-- The stores that come about: the empty one, one that has read a text, and one that has given
    up some of what it knew. -/
inductive Reached : PathStore → Prop
  | empty : Reached {}
  | read {store later : PathStore} {source : String} {path : Path} (reached : Reached store)
      (parsed : store.parse source = .ok (path, later)) : Reached later
  | forgotten {store later : PathStore} (reached : Reached store)
      (fewer : later.known ⊆ store.known) : Reached later

/-- A store knows texts by the paths that they spell. -/
def Faithful (store : PathStore) : Prop :=
  ∀ entry ∈ store.known, Path.parse entry.1 = .ok entry.2

/-- Reading a text with a faithful store gives what reading it without one gives, and leaves a
    faithful store. -/
theorem Faithful.parse {store : PathStore} (faithful : store.Faithful) (source : String) :
    (∀ e, Path.parse source = .error e → store.parse source = .error e) ∧
      ∀ path, Path.parse source = .ok path →
        ∃ later, store.parse source = .ok (path, later) ∧ later.Faithful := by
  unfold PathStore.parse
  split
  · next known found =>
    obtain ⟨front, behind, whole, -⟩ := List.lookup_eq_some_iff.mp found
    have parsed : Path.parse source = .ok known := faithful (source, known) (by simp [whole])
    rw [parsed]
    refine ⟨nofun, fun path same => ?_⟩
    cases same
    exact ⟨store, rfl, faithful⟩
  · cases parsed : Path.parse source with
    | error e =>
      refine ⟨fun other same => ?_, nofun⟩
      cases same
      rfl
    | ok path =>
      refine ⟨nofun, fun _ same => ?_⟩
      cases same
      exact ⟨_, rfl, List.forall_mem_cons.mpr ⟨parsed, faithful⟩⟩

/-- What a store knows was parsed, whatever happened to the store. -/
theorem Reached.faithful {store : PathStore} (reached : store.Reached) : store.Faithful := by
  induction reached with
  | empty => exact List.forall_mem_nil _
  | @read store later source path _ parsed ih =>
    obtain ⟨fails, succeeds⟩ := ih.parse source
    cases spelled : Path.parse source with
    | error e => cases parsed.symm.trans (fails e spelled)
    | ok other =>
      obtain ⟨after, same, faithful⟩ := succeeds other spelled
      cases parsed.symm.trans same
      exact faithful
  | forgotten _ fewer ih => exact fun entry member => ih entry (fewer member)

/-- Where the text of a path leads does not depend on the store. -/
theorem Reached.get {store : PathStore} (reached : store.Reached) {source : String} {path : Path}
    (spelled : Path.parse source = .ok path) (value : Value) :
    ∃ later, store.get value source = .ok (value.at? path, later) := by
  obtain ⟨later, parsed, -⟩ := (reached.faithful.parse source).2 path spelled
  refine ⟨later, ?_⟩
  rw [PathStore.get, parsed]
  rfl

end PathStore

end DynamicSql
