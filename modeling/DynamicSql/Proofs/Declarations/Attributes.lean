import DynamicSql.Parameter.Declaration
import Mathlib.Data.List.Nodup
import Mathlib.Data.List.Perm.Basic
import Mathlib.Data.List.TakeWhile

/-!
# The attributes of a declaration

A segment of a declaration sets one attribute, and which one it sets and to what
does not depend on the attributes set before. Attributes with different keys are
set independently, and of two with one key the later one counts. So of all segments
of a declaration those decide behind which none has the same key, and their order
does not matter.
-/

namespace DynamicSql

section LastWith

variable {α κ δ : Type} [DecidableEq κ] (key : α → κ)

/-- The last entry with a key. -/
def lastWith (entries : List α) (k : κ) : Option α := entries.reverse.find? (key · = k)

/-- The entries behind which none has the same key. -/
def deciding : List α → List α
  | [] => []
  | entry :: rest =>
    if ∃ other ∈ rest, key other = key entry then deciding rest else entry :: deciding rest

variable {key}

theorem lastWith_cons (entry : α) (rest : List α) (k : κ) :
    lastWith key (entry :: rest) k =
      (lastWith key rest k).or (if key entry = k then some entry else none) := by
  rw [lastWith, List.reverse_cons, List.find?_append, lastWith]
  by_cases same : key entry = k
  · simp [same]
  · simp [same]

theorem lastWith_eq_none_iff {entries : List α} {k : κ} :
    lastWith key entries k = none ↔ ∀ entry ∈ entries, key entry ≠ k := by
  simp [lastWith]

theorem of_lastWith {entries : List α} {k : κ} {entry : α}
    (last : lastWith key entries k = some entry) : entry ∈ entries ∧ key entry = k :=
  ⟨List.mem_reverse.mp (List.mem_of_find?_eq_some last), by simpa using List.find?_some last⟩

theorem lastWith_map {β : Type} (f : β → α) (entries : List β) (k : κ) :
    lastWith key (entries.map f) k = (lastWith (key ∘ f) entries k).map f := by
  rw [lastWith, ← List.map_reverse, List.find?_map]
  rfl

theorem lastWith_congr {other : α → κ} {entries : List α}
    (same : ∀ entry ∈ entries, key entry = other entry) :
    lastWith key entries = lastWith other entries := by
  funext k
  induction entries with
  | nil => rfl
  | cons entry rest ih =>
    obtain ⟨here, later⟩ := List.forall_mem_cons.mp same
    rw [lastWith_cons, lastWith_cons, ih later, here]

/-- If no two entries have the same key, every entry is the last one with its key. -/
theorem lastWith_of_nodup {entries : List α} (distinct : (entries.map key).Nodup) {k : κ}
    {entry : α} : lastWith key entries k = some entry ↔ entry ∈ entries ∧ key entry = k := by
  refine ⟨of_lastWith, fun ⟨member, same⟩ => ?_⟩
  cases last : lastWith key entries k with
  | none => exact absurd same (lastWith_eq_none_iff.mp last entry member)
  | some other =>
    obtain ⟨among, sameKey⟩ := of_lastWith last
    rw [List.inj_on_of_nodup_map distinct among member (sameKey.trans same.symm)]

theorem mem_of_mem_deciding {entries : List α} {entry : α} (member : entry ∈ deciding key entries) :
    entry ∈ entries := by
  induction entries with
  | nil => cases member
  | cons first rest ih =>
    rw [deciding] at member
    split at member
    · exact List.mem_cons_of_mem first (ih member)
    · rcases List.mem_cons.mp member with rfl | later
      · exact List.mem_cons_self
      · exact List.mem_cons_of_mem first (ih later)

theorem nodup_map_deciding (entries : List α) : ((deciding key entries).map key).Nodup := by
  induction entries with
  | nil => exact List.nodup_nil
  | cons first rest ih =>
    rw [deciding]
    split
    · exact ih
    · next none =>
      refine List.nodup_cons.mpr ⟨fun member => none ?_, ih⟩
      obtain ⟨other, decides, same⟩ := List.mem_map.mp member
      exact ⟨other, mem_of_mem_deciding decides, same⟩

/-- The entries that decide are the last ones with their keys. -/
theorem mem_deciding_iff {entries : List α} {entry : α} :
    entry ∈ deciding key entries ↔ lastWith key entries (key entry) = some entry := by
  induction entries with
  | nil => simp [deciding, lastWith]
  | cons first rest ih =>
    rw [deciding, lastWith_cons]
    split
    · next again =>
      rw [ih]
      cases last : lastWith key rest (key entry) with
      | some other => simp
      | none =>
        have differs : key first ≠ key entry := by
          obtain ⟨other, member, same⟩ := again
          rw [← same]
          exact lastWith_eq_none_iff.mp last other member
        simp [differs]
    · next never =>
      rw [List.mem_cons, ih]
      cases last : lastWith key rest (key entry) with
      | some other =>
        obtain ⟨member, same⟩ := of_lastWith last
        have differs : entry ≠ first := by
          rintro rfl
          exact never ⟨other, member, same⟩
        simp [differs]
      | none =>
        by_cases same : key first = key entry
        · simp [same, eq_comm]
        · have differs : entry ≠ first := by
            rintro rfl
            exact same rfl
          simp [same, differs]

variable {set : δ → α → δ} (comm : ∀ d a b, key a ≠ key b → set (set d a) b = set (set d b) a)
  (override : ∀ d a b, key a = key b → set (set d a) b = set d b)

include comm override

/-- An entry changes nothing if an entry with the same key comes later. -/
theorem foldl_of_later {rest : List α} {entry : α} (later : ∃ other ∈ rest, key other = key entry)
    (d : δ) : rest.foldl set (set d entry) = rest.foldl set d := by
  induction rest generalizing d with
  | nil => simp at later
  | cons first rest ih =>
    rw [List.foldl_cons, List.foldl_cons]
    by_cases same : key first = key entry
    · rw [override d entry first same.symm]
    · rw [comm d entry first (Ne.symm same)]
      obtain ⟨other, member, again⟩ := later
      rcases List.mem_cons.mp member with rfl | behind
      · exact absurd again same
      · exact ih ⟨other, behind, again⟩ (set d first)

theorem foldl_deciding (entries : List α) (d : δ) :
    (deciding key entries).foldl set d = entries.foldl set d := by
  induction entries generalizing d with
  | nil => rfl
  | cons first rest ih =>
    rw [deciding, List.foldl_cons]
    split
    · next later => rw [ih, foldl_of_later comm override later]
    · rw [List.foldl_cons, ih]

/-- What entries set is known from the last one with each key. -/
theorem foldl_of_lastWith {entries others : List α}
    (same : lastWith key entries = lastWith key others) (d : δ) :
    entries.foldl set d = others.foldl set d := by
  have perm : (deciding key entries).Perm (deciding key others) := by
    refine (List.perm_ext_iff_of_nodup (nodup_map_deciding entries).of_map
      (nodup_map_deciding others).of_map).mpr fun entry => ?_
    rw [mem_deciding_iff, mem_deciding_iff, same]
  rw [← foldl_deciding comm override entries, ← foldl_deciding comm override others]
  refine perm.foldl_eq' (fun a left b right z => ?_) d
  by_cases equal : key a = key b
  · rw [List.inj_on_of_nodup_map (nodup_map_deciding entries) left right equal]
  · exact comm z a b equal

end LastWith

namespace Text

theorem splitFirst?_of_not_mem {separator : Char} {text : List Char} (without : separator ∉ text) :
    splitFirst? separator text = none := by
  have all : text.dropWhile (· != separator) = [] := by
    rw [List.dropWhile_eq_nil_iff]
    intro c member
    rw [bne_iff_ne]
    rintro rfl
    exact without member
  rw [splitFirst?, all]

/-- A text is split at the first separator. -/
theorem splitFirst?_append {separator : Char} {front : List Char} (without : separator ∉ front)
    (behind : List Char) :
    splitFirst? separator (front ++ separator :: behind) = some (front, behind) := by
  have differs : ∀ c ∈ front, (c != separator) = true := by
    intro c member
    rw [bne_iff_ne]
    rintro rfl
    exact without member
  rw [splitFirst?, List.dropWhile_append_of_pos differs, List.takeWhile_append_of_pos differs]
  simp

theorem exists_splitFirst? {separator : Char} {text : List Char} (among : separator ∈ text) :
    ∃ behind, splitFirst? separator text = some (text.takeWhile (· != separator), behind) := by
  obtain ⟨front, behind, rfl, without⟩ := List.eq_append_cons_of_mem among
  refine ⟨behind, ?_⟩
  have differs : ∀ c ∈ front, (c != separator) = true := by
    intro c member
    rw [bne_iff_ne]
    rintro rfl
    exact without member
  rw [splitFirst?_append without, List.takeWhile_append_of_pos differs]
  simp

end Text

namespace Declaration

/-- An attribute with what it is set to. -/
inductive Attribute where
  | javaType (type : Option String)
  | jdbcType (type : Option String)
  | mode (mode : ParameterMode)
  | nullValue (text : String)
  | handler (name : Option String)
  | numericScale (scale : Nat)
  deriving DecidableEq, Inhabited, Repr

namespace Attribute

/-- The key under which an attribute is set. -/
def key : Attribute → String
  | javaType _ => "javaType"
  | jdbcType _ => "jdbcType"
  | mode _ => "mode"
  | nullValue _ => "nullValue"
  | handler _ => "handler"
  | numericScale _ => "numericScale"

/-- The attribute of a key and a value. Blanks around them do not count. -/
def read (key value : String) : Except Error Attribute :=
  let value := Text.trim value
  match Text.trim key with
  | "javaType" => .ok (.javaType (Text.nonEmpty? value))
  | "jdbcType" => .ok (.jdbcType (Text.nonEmpty? value))
  | "mode" => (ParameterMode.parse value).map .mode
  | "nullValue" => .ok (.nullValue value)
  | "handler" => .ok (.handler (Text.nonEmpty? value))
  | "numericScale" =>
    match Text.numeral? UInt32.size value.toList with
    | some scale => .ok (.numericScale scale)
    | none => .error (.template .invalidScale value)
  | other => .error (.template .unknownParameterAttribute other)

/-- The attribute that a segment sets. -/
def ofSegment (segment : List Char) : Except Error Attribute :=
  match Text.splitFirst? '=' segment with
  | some (key, value) => read (String.ofList key) (String.ofList value)
  | none => .error (.template .malformedAttribute (String.ofList segment))

theorem key_of_read {key value : String} {given : Attribute} (ok : read key value = .ok given) :
    given.key = Text.trim key := by
  unfold read at ok
  dsimp only at ok
  generalize Text.trim key = word at ok
  split at ok
  case h_3 =>
    cases parsed : ParameterMode.parse (Text.trim value) with
    | error e =>
      rw [parsed] at ok
      cases ok
    | ok mode =>
      rw [parsed] at ok
      cases ok
      rfl
  case h_6 =>
    split at ok
    · cases ok
      rfl
    · cases ok
  case h_7 => cases ok
  all_goals
    cases ok
    rfl

/-- A segment sets what its key says, which is what stands in front of its first equals sign. -/
theorem key_of_ofSegment {segment : List Char} {given : Attribute}
    (ok : ofSegment segment = .ok given) :
    given.key = Text.trim (String.ofList (segment.takeWhile (· != '='))) := by
  unfold ofSegment at ok
  by_cases pair : '=' ∈ segment
  · obtain ⟨behind, split⟩ := Text.exists_splitFirst? pair
    rw [split] at ok
    exact key_of_read ok
  · rw [Text.splitFirst?_of_not_mem pair] at ok
    cases ok

end Attribute

/-- A declaration with an attribute set. -/
def set (d : Declaration) : Attribute → Declaration
  | .javaType type => { d with javaType := type }
  | .jdbcType type => { d with jdbcType := type }
  | .mode mode => { d with mode }
  | .nullValue text => { d with nullValue := some text }
  | .handler name => { d with handler := name }
  | .numericScale scale => { d with numericScale := some scale }

theorem set_comm (d : Declaration) (a b : Attribute) (differs : a.key ≠ b.key) :
    (d.set a).set b = (d.set b).set a := by
  cases a <;> cases b <;> first
    | rfl
    | exact absurd rfl differs

theorem set_override (d : Declaration) (a b : Attribute) (same : a.key = b.key) :
    (d.set a).set b = d.set b := by
  cases a <;> cases b <;> first
    | rfl
    | exact absurd same (by simp [Attribute.key])

theorem setAttribute_eq (d : Declaration) (key value : String) :
    d.setAttribute key value = (Attribute.read key value).map d.set := by
  unfold setAttribute Attribute.read
  dsimp only
  generalize Text.trim key = word
  split
  case h_3 => cases ParameterMode.parse (Text.trim value) <;> rfl
  case h_6 => cases Text.numeral? UInt32.size (Text.trim value).toList <;> rfl
  case h_7 => simp [*, Except.map]
  all_goals rfl

theorem addPair_eq (d : Declaration) (segment : List Char) :
    d.addPair segment = (Attribute.ofSegment segment).map d.set := by
  unfold addPair Attribute.ofSegment
  cases Text.splitFirst? '=' segment with
  | none => rfl
  | some pair => exact setAttribute_eq d _ _

/-- Segments are read as attributes, and these are set one after the other. -/
theorem foldlM_addPair (segments : List (List Char)) (d : Declaration) :
    segments.foldlM addPair d = (segments.mapM Attribute.ofSegment).map (·.foldl set d) := by
  induction segments generalizing d with
  | nil => rfl
  | cons segment rest ih =>
    rw [List.foldlM_cons, List.mapM_cons, addPair_eq]
    cases Attribute.ofSegment segment with
    | error e => rfl
    | ok given =>
      show rest.foldlM addPair (d.set given) = _
      rw [ih]
      cases rest.mapM Attribute.ofSegment <;> rfl

end Declaration

end DynamicSql
