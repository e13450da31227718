import DynamicSql.Sql.Keyword

/-!
# Spelling

A keyword is spelled in any mixture of small and capital letters, of which only
the ASCII ones count.
-/

namespace DynamicSql.Sql

namespace Keyword

theorem toNat_toLower (c : Char) :
    c.toLower.toNat = if 65 ≤ c.toNat ∧ c.toNat ≤ 90 then c.toNat + 32 else c.toNat := by
  by_cases capital : 'A'.val ≤ c.val ∧ c.val ≤ 'Z'.val
  · have bounds : 65 ≤ c.toNat ∧ c.toNat ≤ 90 := capital
    have shifted : c.toLower.val = c.val + ('a'.val - 'A'.val) := by
      have lowered : c.toLower = _ := dif_pos capital
      rw [lowered]
    have offset : ('a'.val - 'A'.val).toNat = 32 := by decide
    rw [if_pos bounds, ← Char.toNat_val, ← Char.toNat_val, shifted, UInt32.toNat_add, offset]
    rw [← Char.toNat_val] at bounds
    omega
  · have bounds : ¬ (65 ≤ c.toNat ∧ c.toNat ≤ 90) := capital
    rw [if_neg bounds]
    exact congrArg Char.toNat (dif_neg capital)

theorem toNat_toUpper (c : Char) :
    c.toUpper.toNat = if 97 ≤ c.toNat ∧ c.toNat ≤ 122 then c.toNat - 32 else c.toNat := by
  by_cases small : 'a'.val ≤ c.val ∧ c.val ≤ 'z'.val
  · have bounds : 97 ≤ c.toNat ∧ c.toNat ≤ 122 := small
    have shifted : c.toUpper.val = c.val + ('A'.val - 'a'.val) := by
      have raised : c.toUpper = _ := dif_pos small
      rw [raised]
    have offset : ('A'.val - 'a'.val).toNat = 2 ^ 32 - 32 := by decide
    rw [if_pos bounds, ← Char.toNat_val, ← Char.toNat_val, shifted, UInt32.toNat_add, offset]
    rw [← Char.toNat_val] at bounds
    omega
  · have bounds : ¬ (97 ≤ c.toNat ∧ c.toNat ≤ 122) := small
    rw [if_neg bounds]
    exact congrArg Char.toNat (dif_neg small)

theorem toUpper_toLower (c : Char) : c.toLower.toUpper = c.toUpper := by
  apply Char.toNat_inj.mp
  rw [toNat_toUpper, toNat_toUpper, toNat_toLower]
  grind

theorem toLower_toUpper (c : Char) : c.toUpper.toLower = c.toLower := by
  apply Char.toNat_inj.mp
  rw [toNat_toLower, toNat_toLower, toNat_toUpper]
  grind

/-- The spellings of keywords have no small letters. -/
theorem map_toUpper_text (keyword : Keyword) :
    keyword.text.toList.map Char.toUpper = keyword.text.toList := by
  cases keyword <;> decide

/-- A word spells a keyword if it differs in the case of ASCII letters at most. -/
theorem spelledBy_iff {keyword : Keyword} {word : String} :
    keyword.spelledBy word = true ↔ keyword.text.toLower = word.toLower := by
  have lower (text : String) : text.toLower.toList = text.toList.map Char.toLower :=
    String.toList_map
  have upper : word.toUpper.toList = word.toList.map Char.toUpper := String.toList_map
  rw [spelledBy, beq_iff_eq, ← String.toList_inj, ← String.toList_inj, lower, lower, upper]
  constructor
  · intro same
    rw [same, List.map_map]
    exact List.map_congr_left fun c _ => toLower_toUpper c
  · intro same
    have raised := congrArg (List.map Char.toUpper) same
    rw [List.map_map, List.map_map] at raised
    rw [← map_toUpper_text]
    simpa [Function.comp_def, toUpper_toLower] using raised

/-- The keyword is the first of some keywords that a word spells, whatever the case of its
    ASCII letters. -/
def FirstSpelled (keywords : List Keyword) (word : String) (keyword : Keyword) : Prop :=
  ∃ before after, keywords = before ++ keyword :: after ∧
    keyword.text.toLower = word.toLower ∧
    ∀ earlier ∈ before, earlier.text.toLower ≠ word.toLower

theorem classify_eq_some_iff {word : String} {keywords : List Keyword} {keyword : Keyword} :
    classify word keywords = some keyword ↔ FirstSpelled keywords word keyword := by
  rw [classify, List.find?_eq_some_iff_append, spelledBy_iff]
  simp only [Bool.not_eq_true', ← Bool.not_eq_true, spelledBy_iff]
  constructor
  · rintro ⟨spelled, before, after, split, earlier⟩
    exact ⟨before, after, split, spelled, earlier⟩
  · rintro ⟨before, after, split, spelled, earlier⟩
    exact ⟨spelled, before, after, split, earlier⟩

theorem classify_eq_none_iff {word : String} {keywords : List Keyword} :
    classify word keywords = none ↔
      ∀ keyword ∈ keywords, keyword.text.toLower ≠ word.toLower := by
  rw [classify, List.find?_eq_none]
  simp only [spelledBy_iff, ne_eq]

theorem ofText?_text (keyword : Keyword) : ofText? keyword.text = some keyword := by
  cases keyword <;> rfl

/-- No word spells two keywords. -/
theorem eq_of_toLower_text {keyword other : Keyword}
    (same : keyword.text.toLower = other.text.toLower) : keyword = other := by
  have spelled := spelledBy_iff.mpr same
  have capital : other.text.toUpper = other.text :=
    String.toList_inj.mp (String.toList_map.trans other.map_toUpper_text)
  rw [spelledBy, beq_iff_eq, capital] at spelled
  exact Option.some.inj (by rw [← ofText?_text, spelled, ofText?_text])

/-- A word is a keyword just for those who ask for the keyword that it spells, wherever it stands
    among the others. -/
theorem classify_eq_some_iff_mem {word : String} {keywords : List Keyword} {keyword : Keyword} :
    classify word keywords = some keyword ↔
      keyword ∈ keywords ∧ keyword.text.toLower = word.toLower := by
  constructor
  · intro found
    obtain ⟨before, after, rfl, spelled, -⟩ := classify_eq_some_iff.mp found
    exact ⟨by simp, spelled⟩
  · rintro ⟨member, spelled⟩
    cases found : classify word keywords with
    | none => exact absurd spelled (classify_eq_none_iff.mp found keyword member)
    | some first =>
      obtain ⟨-, -, -, spelled', -⟩ := classify_eq_some_iff.mp found
      rw [eq_of_toLower_text (spelled'.trans spelled.symm)]

/-- Only the members of a set of keywords matter, neither their order nor their number. -/
theorem classify_congr {keywords keywords' : List Keyword}
    (same : ∀ keyword, keyword ∈ keywords ↔ keyword ∈ keywords') (word : String) :
    classify word keywords = classify word keywords' := by
  ext keyword
  rw [classify_eq_some_iff_mem, classify_eq_some_iff_mem, same]

end Keyword

end DynamicSql.Sql
