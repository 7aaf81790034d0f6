/-
Module: FunctionBundler.Proofs.Value.Normal
Purpose: What merging does to a list of entries, and what normalizing does to a value.
Trusted boundary: none
Main exports:
  Value.recOnMembers, Value.Merges, Value.merges_mergeEntries, Value.distinct_normalize,
  Value.normalize_eq_self_iff, Value.nesting_normalize_le
-/
import FunctionBundler.Value
import Mathlib.Data.List.Induction

namespace FunctionBundler.Value

/-!
Merging is described without the loop that performs it: the keys are those listed,
each at its first position, and each key has the value listed last for it.  A
normal value repeats no key in any of its maps, and normalizing changes nothing
else, so the values that it leaves alone are exactly the ones without repeated
keys.
-/

/-! ### Member by member -/

/-- A property of values holds of all of them if it passes from the members of arrays
and maps, keys included, to the whole. -/
@[elab_as_elim]
theorem recOnMembers {motive : Value → Prop} (value : Value)
    (word32 : ∀ number, motive (.word32 number))
    (word64 : ∀ number, motive (.word64 number))
    (text : ∀ content, motive (.text content))
    (array : ∀ items, (∀ item ∈ items, motive item) → motive (.array items))
    (map : ∀ entries, (∀ entry ∈ entries, motive entry.1 ∧ motive entry.2) →
      motive (.map entries)) :
    motive value := by
  refine @Value.rec motive (fun items => ∀ item ∈ items, motive item)
    (fun entries => ∀ entry ∈ entries, motive entry.1 ∧ motive entry.2)
    (fun entry => motive entry.1 ∧ motive entry.2)
    word32 word64 text array map ?_ ?_ ?_ ?_ ?_ value
  · simp
  · intro item items ofItem ofItems
    simpa using ⟨ofItem, ofItems⟩
  · simp
  · intro entry entries ofEntry ofEntries other member
    rcases List.mem_cons.mp member with rfl | member
    · exact ofEntry
    · exact ofEntries other member
  · intro key value ofKey ofValue
    exact ⟨ofKey, ofValue⟩

private theorem normalizeItems_eq_map (items : List Value) :
    normalize.normalizeItems items = items.map normalize := by
  induction items with
  | nil => rfl
  | cons item items ih => simp [normalize.normalizeItems, ih]

/-- The entries of a map before merging: each key and each value normalized. -/
def normalizeEntry (entry : Value × Value) : Value × Value :=
  (entry.1.normalize, entry.2.normalize)

private theorem normalizeEntries_eq_map (entries : List (Value × Value)) :
    normalize.normalizeEntries entries = entries.map normalizeEntry := by
  induction entries with
  | nil => rfl
  | cons entry entries ih => simp [normalize.normalizeEntries, normalizeEntry, ih]

@[simp] theorem normalize_array (items : List Value) :
    normalize (.array items) = .array (items.map normalize) := by
  rw [normalize, normalizeItems_eq_map]

@[simp] theorem normalize_map (entries : List (Value × Value)) :
    normalize (.map entries) = .map (mergeEntries (entries.map normalizeEntry)) := by
  rw [normalize, normalizeEntries_eq_map]

private theorem distinctItems_iff {items : List Value} :
    Distinct.DistinctItems items ↔ ∀ item ∈ items, item.Distinct := by
  induction items with
  | nil => simp [Distinct.DistinctItems]
  | cons item items ih => simp [Distinct.DistinctItems, ih]

private theorem distinctEntries_iff {entries : List (Value × Value)} :
    Distinct.DistinctEntries entries ↔
      ∀ entry ∈ entries, entry.1.Distinct ∧ entry.2.Distinct := by
  induction entries with
  | nil => simp [Distinct.DistinctEntries]
  | cons entry entries ih =>
      rw [Distinct.DistinctEntries, List.forall_mem_cons, ih, and_assoc]

/-- Items nest no deeper than each of them does. -/
theorem nestingItems_le_iff {items : List Value} {levels : Nat} :
    nesting.nestingItems items ≤ levels ↔ ∀ item ∈ items, item.nesting ≤ levels := by
  induction items with
  | nil => simp [nesting.nestingItems]
  | cons item items ih =>
      rw [nesting.nestingItems, List.forall_mem_cons, Nat.max_le, ih]

/-- Entries nest no deeper than each key and each value does. -/
theorem nestingEntries_le_iff {entries : List (Value × Value)} {levels : Nat} :
    nesting.nestingEntries entries ≤ levels ↔
      ∀ entry ∈ entries, entry.1.nesting ≤ levels ∧ entry.2.nesting ≤ levels := by
  induction entries with
  | nil => simp [nesting.nestingEntries]
  | cons entry entries ih =>
      rw [nesting.nestingEntries, List.forall_mem_cons, Nat.max_le, Nat.max_le, ih]

/-! ### Merging -/

private theorem mem_of_mem_mergeEntry {entries : List (Value × Value)} {entry known : Value × Value}
    (member : known ∈ mergeEntry entries entry) : known = entry ∨ known ∈ entries := by
  induction entries with
  | nil => simpa [mergeEntry] using member
  | cons first rest ih =>
      rw [mergeEntry] at member
      split at member
      case isTrue same =>
          rcases List.mem_cons.mp member with rfl | member
          · exact Or.inl (by rw [same])
          · exact Or.inr (List.mem_cons_of_mem first member)
      case isFalse =>
          rcases List.mem_cons.mp member with rfl | member
          · exact Or.inr List.mem_cons_self
          · exact (ih member).imp_right (List.mem_cons_of_mem first)

private theorem keys_mergeEntry (entries : List (Value × Value)) (entry : Value × Value) :
    (mergeEntry entries entry).map (·.1) =
      if entry.1 ∈ entries.map (·.1) then entries.map (·.1)
      else entries.map (·.1) ++ [entry.1] := by
  induction entries with
  | nil => simp [mergeEntry]
  | cons first rest ih =>
      rw [mergeEntry]
      by_cases same : first.1 = entry.1
      · simp [same]
      · have other : entry.1 ≠ first.1 := fun equal => same equal.symm
        rw [if_neg same, List.map_cons, ih]
        simp only [List.map_cons, List.mem_cons, other, false_or]
        split <;> rfl

private theorem lookup_cons_entry (first : Value × Value) (rest : List (Value × Value))
    (key : Value) :
    (first :: rest).lookup key = if key = first.1 then some first.2 else rest.lookup key := by
  rw [List.lookup_cons]
  by_cases asked : key = first.1
  · simp [asked]
  · simp [beq_false_of_ne asked, asked]

private theorem lookup_mergeEntry (entries : List (Value × Value)) (entry : Value × Value)
    (key : Value) :
    (mergeEntry entries entry).lookup key =
      if key = entry.1 then some entry.2 else entries.lookup key := by
  induction entries with
  | nil => rw [mergeEntry, lookup_cons_entry]
  | cons first rest ih =>
      rw [mergeEntry, lookup_cons_entry]
      by_cases same : first.1 = entry.1
      · rw [if_pos same, lookup_cons_entry, same]
        split <;> rfl
      · rw [if_neg same, lookup_cons_entry, ih]
        by_cases asked : key = first.1
        · simp [asked, same]
        · simp [asked]

/-- A key under which only one value is listed has this value. -/
theorem lookup_eq_some_of_sole {entries : List (Value × Value)} {key value : Value}
    (member : (key, value) ∈ entries) (sole : ∀ entry ∈ entries, entry.1 = key → entry.2 = value) :
    entries.lookup key = some value := by
  induction entries with
  | nil => cases member
  | cons first rest ih =>
      rw [lookup_cons_entry]
      by_cases asked : key = first.1
      · rw [if_pos asked, sole first List.mem_cons_self asked.symm]
      · rw [if_neg asked]
        rcases List.mem_cons.mp member with same | later
        · exact absurd (congrArg Prod.fst same) asked
        · exact ih later fun entry inRest => sole entry (List.mem_cons_of_mem first inRest)

/-- A field of a map is the value under its text. -/
theorem get?_map (entries : List (Value × Value)) (key : String) :
    (Value.map entries).get? key = entries.lookup (.text key) := by
  induction entries with
  | nil => rfl
  | cons first rest ih =>
      rw [get?] at ih ⊢
      rw [lookup_cons_entry, ← ih, List.find?_cons]
      by_cases asked : Value.text key = first.1
      · simp [asked]
      · simp [asked, Ne.symm asked]

/-- An entry with a new key comes last. -/
theorem mergeEntry_of_fresh {entries : List (Value × Value)} {entry : Value × Value}
    (fresh : entry.1 ∉ entries.map (·.1)) : mergeEntry entries entry = entries ++ [entry] := by
  induction entries with
  | nil => rfl
  | cons first rest ih =>
      rw [List.map_cons, List.mem_cons, not_or] at fresh
      rw [mergeEntry, if_neg fun same => fresh.1 same.symm, ih fresh.2, List.cons_append]

private theorem length_mergeEntry_le (entries : List (Value × Value)) (entry : Value × Value) :
    (mergeEntry entries entry).length ≤ entries.length + 1 := by
  induction entries with
  | nil => exact Nat.le_refl 1
  | cons first rest ih =>
      rw [mergeEntry]
      split
      · simp
      · simpa using ih

/-- The last entry is merged last. -/
theorem mergeEntries_concat (entries : List (Value × Value)) (entry : Value × Value) :
    mergeEntries (entries ++ [entry]) = mergeEntry (mergeEntries entries) entry := by
  simp [mergeEntries]

/-- Merging invents no entry. -/
theorem mem_of_mem_mergeEntries {entries : List (Value × Value)} {known : Value × Value}
    (member : known ∈ mergeEntries entries) : known ∈ entries := by
  induction entries using List.reverseRecOn with
  | nil => simp [mergeEntries] at member
  | append_singleton entries entry ih =>
      rw [mergeEntries_concat] at member
      rcases mem_of_mem_mergeEntry member with rfl | member
      · simp
      · exact List.mem_append_left _ (ih member)

/-- The merged entries of a list: its keys at their first positions, with the values
listed last. -/
structure Merges (listed merged : List (Value × Value)) : Prop where
  keys : merged.map (·.1) = (listed.map (·.1)).eraseDups
  values : ∀ key, merged.lookup key = listed.reverse.lookup key

private theorem keys_mergeEntries (entries : List (Value × Value)) :
    (mergeEntries entries).map (·.1) = (entries.map (·.1)).eraseDups := by
  induction entries using List.reverseRecOn with
  | nil => rfl
  | append_singleton entries entry ih =>
      rw [mergeEntries_concat, keys_mergeEntry, ih, List.map_append, List.eraseDups_append]
      by_cases known : entry.1 ∈ entries.map (·.1)
      · simp [List.mem_eraseDups, List.removeAll, known]
      · simp [List.mem_eraseDups, List.removeAll, known, List.eraseDups_cons]

/-- What is found under a key in the end is what was given for it last. -/
theorem lookup_mergeEntries (entries : List (Value × Value)) (key : Value) :
    (mergeEntries entries).lookup key = entries.reverse.lookup key := by
  induction entries using List.reverseRecOn with
  | nil => rfl
  | append_singleton entries entry ih =>
      rw [mergeEntries_concat, lookup_mergeEntry, ih, List.reverse_concat, lookup_cons_entry]

/-- Merging keeps first places and last values. -/
theorem merges_mergeEntries (entries : List (Value × Value)) :
    Merges entries (mergeEntries entries) :=
  ⟨keys_mergeEntries entries, lookup_mergeEntries entries⟩

private theorem nodup_keys_mergeEntries (entries : List (Value × Value)) :
    ((mergeEntries entries).map (·.1)).Nodup := by
  induction entries using List.reverseRecOn with
  | nil => exact List.nodup_nil
  | append_singleton entries entry ih =>
      rw [mergeEntries_concat, keys_mergeEntry]
      split
      case isTrue => exact ih
      case isFalse fresh =>
          exact (List.perm_append_singleton _ _).nodup_iff.mpr (List.nodup_cons.mpr ⟨fresh, ih⟩)

/-- Entries without repeated keys are merged already. -/
theorem mergeEntries_of_nodup {entries : List (Value × Value)}
    (nodup : (entries.map (·.1)).Nodup) : mergeEntries entries = entries := by
  induction entries using List.reverseRecOn with
  | nil => rfl
  | append_singleton entries entry ih =>
      rw [List.map_append, List.nodup_append] at nodup
      obtain ⟨before, _, apart⟩ := nodup
      have fresh : entry.1 ∉ entries.map (·.1) :=
        fun member => apart entry.1 member entry.1 (by simp) rfl
      rw [mergeEntries_concat, ih before, mergeEntry_of_fresh fresh]

/-- Merging never adds entries. -/
theorem length_mergeEntries_le (entries : List (Value × Value)) :
    (mergeEntries entries).length ≤ entries.length := by
  induction entries using List.reverseRecOn with
  | nil => exact Nat.le_refl 0
  | append_singleton entries entry ih =>
      have added := length_mergeEntry_le (mergeEntries entries) entry
      rw [mergeEntries_concat, List.length_append, List.length_singleton]
      omega

/-! ### Normal values -/

/-- A normalized value repeats no key. -/
theorem distinct_normalize (value : Value) : value.normalize.Distinct := by
  induction value using recOnMembers with
  | word32 | word64 | text => exact trivial
  | array items ofItems =>
      rw [normalize_array, Distinct, distinctItems_iff]
      simpa using ofItems
  | map entries ofEntries =>
      rw [normalize_map, Distinct, distinctEntries_iff]
      refine ⟨nodup_keys_mergeEntries _, fun entry member => ?_⟩
      obtain ⟨listed, listedMember, rfl⟩ := List.mem_map.mp (mem_of_mem_mergeEntries member)
      exact ofEntries listed listedMember

/-- A value that repeats no key is normal. -/
theorem normalize_of_distinct {value : Value} (distinct : value.Distinct) :
    value.normalize = value := by
  induction value using recOnMembers with
  | word32 | word64 | text => rfl
  | array items ofItems =>
      rw [Distinct, distinctItems_iff] at distinct
      rw [normalize_array, List.map_congr_left fun item member =>
        ofItems item member (distinct item member), List.map_id']
  | map entries ofEntries =>
      rw [Distinct, distinctEntries_iff] at distinct
      obtain ⟨nodup, members⟩ := distinct
      have same : entries.map normalizeEntry = entries.map id :=
        List.map_congr_left fun entry member =>
          Prod.ext ((ofEntries entry member).1 (members entry member).1)
            ((ofEntries entry member).2 (members entry member).2)
      rw [normalize_map, same, List.map_id, mergeEntries_of_nodup nodup]

/-- Normalizing changes nothing exactly where no key is repeated. -/
theorem normalize_eq_self_iff {value : Value} : value.normalize = value ↔ value.Distinct :=
  ⟨fun same => same ▸ distinct_normalize value, normalize_of_distinct⟩

/-- Only a text has a text as its normal form. -/
theorem normalize_eq_text_iff {value : Value} {content : String} :
    value.normalize = .text content ↔ value = .text content := by
  cases value with
  | word32 | word64 | text => rfl
  | array items => simp
  | map entries => simp

/-- Merging opens no array or map that was not open before. -/
theorem nesting_normalize_le (value : Value) : value.normalize.nesting ≤ value.nesting := by
  induction value using recOnMembers with
  | word32 | word64 | text => exact Nat.le_refl 0
  | array items ofItems =>
      rw [normalize_array, nesting, nesting, Nat.add_le_add_iff_right, nestingItems_le_iff]
      have bounds := nestingItems_le_iff.mp (Nat.le_refl (nesting.nestingItems items))
      intro normal member
      obtain ⟨item, itemMember, rfl⟩ := List.mem_map.mp member
      exact Nat.le_trans (ofItems item itemMember) (bounds item itemMember)
  | map entries ofEntries =>
      rw [normalize_map, nesting, nesting, Nat.add_le_add_iff_right, nestingEntries_le_iff]
      have bounds := nestingEntries_le_iff.mp (Nat.le_refl (nesting.nestingEntries entries))
      intro normal member
      obtain ⟨entry, entryMember, rfl⟩ := List.mem_map.mp (mem_of_mem_mergeEntries member)
      exact ⟨Nat.le_trans (ofEntries entry entryMember).1 (bounds entry entryMember).1,
        Nat.le_trans (ofEntries entry entryMember).2 (bounds entry entryMember).2⟩

end FunctionBundler.Value
