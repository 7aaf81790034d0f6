/-
Module: FunctionBundler.Proofs.Codec.Grammar
Purpose: Which byte strings start with a value, and how the value read relates to the bytes.
Trusted boundary: none
Main exports:
  Codec.encode_append_inj, Codec.five_mul_nodes_le, Codec.length_encode_normalize_le,
  Codec.StartsWith, Codec.decode_eq_ok_iff_startsWith
-/
import FunctionBundler.Proofs.Codec.RoundTrip

namespace FunctionBundler.Codec

/-!
A raw value is what the bytes list, repeated keys included.  Written forms are
prefix-free, so a byte string starts with at most one of them, and what is read is
the normal form of that one.  Merging only ever drops bytes: the normal form is
written in no more space, and in the same bytes only if there was nothing to merge.
-/

/-! ### Written forms determine raw values -/

/-- Things with prefix-free written forms can be told apart in a row of known length. -/
theorem flatMap_append_inj {ρ : Type} {spell : ρ → Bytes} {Form : ρ → Prop} {first second : List ρ}
    {rest other : Bytes}
    (tells : ∀ raw ∈ first, ∀ {raw' rest other}, Form raw' →
      spell raw ++ rest = spell raw' ++ other → raw = raw' ∧ rest = other)
    (lengths : first.length = second.length) (forms : ∀ raw ∈ second, Form raw)
    (same : first.flatMap spell ++ rest = second.flatMap spell ++ other) :
    first = second ∧ rest = other := by
  induction first generalizing second rest other with
  | nil =>
      have empty := List.length_eq_zero_iff.mp lengths.symm
      subst empty
      exact ⟨rfl, same⟩
  | cons raw first ih =>
      obtain ⟨raw', second, rfl⟩ := List.exists_cons_of_length_eq_add_one lengths.symm
      rw [List.flatMap_cons, List.flatMap_cons, List.append_assoc, List.append_assoc] at same
      obtain ⟨rfl, others⟩ := tells raw List.mem_cons_self (forms raw' List.mem_cons_self) same
      obtain ⟨rfl, after⟩ := ih
        (fun member inFirst => tells member (List.mem_cons_of_mem _ inFirst))
        (Nat.succ.inj lengths)
        (fun member inSecond => forms member (List.mem_cons_of_mem _ inSecond)) others
      exact ⟨rfl, after⟩

private theorem spellText_append_inj {first second : String} {rest other : Bytes}
    (firstFits : (Bytes.ofText first).length < 2 ^ 32)
    (secondFits : (Bytes.ofText second).length < 2 ^ 32)
    (same : spellText first ++ rest = spellText second ++ other) :
    first = second ∧ rest = other := by
  rw [spellText, spellText, List.append_assoc, List.append_assoc] at same
  obtain ⟨lengths, same⟩ := List.append_inj same (by simp)
  obtain ⟨texts, same⟩ := List.append_inj same (Bytes.bigEndian_inj firstFits secondFits lengths)
  have read := congrArg Bytes.text? texts
  rw [Bytes.text?_ofText, Bytes.text?_ofText] at read
  exact ⟨Option.some.inj read, same⟩

private theorem spellRow_append_inj {ρ : Type} {spell : ρ → Bytes} {Form : ρ → Prop}
    {first second : List ρ} {rest other : Bytes}
    (tells : ∀ raw ∈ first, ∀ {raw' rest other}, Form raw' →
      spell raw ++ rest = spell raw' ++ other → raw = raw' ∧ rest = other)
    (firstFits : first.length < 2 ^ 32) (secondFits : second.length < 2 ^ 32)
    (forms : ∀ raw ∈ second, Form raw)
    (same : Bytes.bigEndian 4 first.length ++ first.flatMap spell ++ rest =
      Bytes.bigEndian 4 second.length ++ second.flatMap spell ++ other) :
    first = second ∧ rest = other := by
  rw [List.append_assoc, List.append_assoc] at same
  obtain ⟨counts, rows⟩ := List.append_inj same (by simp)
  exact flatMap_append_inj tells (Bytes.bigEndian_inj firstFits secondFits counts) forms rows

private theorem tag_body_of_encode_append {first second : Value} {rest other : Bytes}
    (same : encode first ++ rest = encode second ++ other) :
    tag first = tag second ∧ body first ++ rest = body second ++ other := by
  rw [encode_eq, encode_eq, List.append_assoc, List.append_assoc] at same
  exact List.cons.inj same

/-- No written form is a beginning of another one. -/
theorem encode_append_inj {first : Value} : ∀ {second : Value} {rest other : Bytes},
    Encodable first → Encodable second → encode first ++ rest = encode second ++ other →
      first = second ∧ rest = other := by
  induction first using Value.recOnMembers with
  | word32 number =>
      intro second rest other _ _ same
      obtain ⟨tags, bodies⟩ := tag_body_of_encode_append same
      cases second with
      | word32 number' =>
          obtain ⟨numbers, others⟩ := List.append_inj bodies (by simp [body])
          have equal := Bytes.bigEndian_inj number.toNat_lt number'.toNat_lt numbers
          exact ⟨congrArg Value.word32 (UInt32.toNat_inj.mp equal), others⟩
      | word64 | text | array | map => cases tags
  | word64 number =>
      intro second rest other _ _ same
      obtain ⟨tags, bodies⟩ := tag_body_of_encode_append same
      cases second with
      | word64 number' =>
          obtain ⟨numbers, others⟩ := List.append_inj bodies (by simp [body])
          have equal := Bytes.bigEndian_inj number.toNat_lt number'.toNat_lt numbers
          exact ⟨congrArg Value.word64 (UInt64.toNat_inj.mp equal), others⟩
      | word32 | text | array | map => cases tags
  | text content =>
      intro second rest other firstFits secondFits same
      obtain ⟨tags, bodies⟩ := tag_body_of_encode_append same
      cases second with
      | text content' =>
          obtain ⟨rfl, others⟩ := spellText_append_inj firstFits secondFits bodies
          exact ⟨rfl, others⟩
      | word32 | word64 | array | map => cases tags
  | array items ofItems =>
      intro second rest other firstFits secondFits same
      obtain ⟨tags, bodies⟩ := tag_body_of_encode_append same
      cases second with
      | array items' =>
          have members := encodableItems_iff.mp firstFits.2
          have members' := encodableItems_iff.mp secondFits.2
          obtain ⟨rfl, others⟩ := spellRow_append_inj
            (fun item member _ _ _ => ofItems item member (members item member))
            firstFits.1 secondFits.1 members' bodies
          exact ⟨rfl, others⟩
      | word32 | word64 | text | map => cases tags
  | map entries ofEntries =>
      intro second rest other firstFits secondFits same
      obtain ⟨tags, bodies⟩ := tag_body_of_encode_append same
      cases second with
      | map entries' =>
          have members := encodableEntries_iff.mp firstFits.2
          have members' := encodableEntries_iff.mp secondFits.2
          have tells : ∀ entry ∈ entries, ∀ {entry' : Value × Value} {rest other : Bytes},
              (Encodable entry'.1 ∧ Encodable entry'.2) →
              spellEntry entry ++ rest = spellEntry entry' ++ other →
                entry = entry' ∧ rest = other := by
            intro entry member entry' rest other fits same
            rw [spellEntry, spellEntry, List.append_assoc, List.append_assoc] at same
            obtain ⟨keys, values⟩ :=
              (ofEntries entry member).1 (members entry member).1 fits.1 same
            obtain ⟨results, others⟩ :=
              (ofEntries entry member).2 (members entry member).2 fits.2 values
            exact ⟨Prod.ext keys results, others⟩
          obtain ⟨rfl, others⟩ :=
            spellRow_append_inj tells firstFits.1 secondFits.1 members' bodies
          exact ⟨rfl, others⟩
      | word32 | word64 | text | array => cases tags

/-! ### Sizes -/

mutual

/-- Every value takes at least its tag and four bytes. -/
theorem five_mul_nodes_le : (value : Value) → 5 * value.nodes ≤ (encode value).length
  | .word32 number => by simp [Value.nodes, encode]
  | .word64 number => by simp [Value.nodes, encode]
  | .text content => by simp [Value.nodes, encode]
  | .array items => by
      have members := five_mul_nodesItems_le items
      simp [Value.nodes, encode]
      omega
  | .map entries => by
      have members := five_mul_nodesEntries_le entries
      simp [Value.nodes, encode]
      omega

private theorem five_mul_nodesItems_le : (items : List Value) →
    5 * Value.nodes.nodesItems items ≤ (encode.encodeItems items).length
  | [] => Nat.le_refl 0
  | item :: items => by
      have first := five_mul_nodes_le item
      have others := five_mul_nodesItems_le items
      simp [Value.nodes.nodesItems, encode.encodeItems]
      omega

private theorem five_mul_nodesEntries_le : (entries : List (Value × Value)) →
    5 * Value.nodes.nodesEntries entries ≤ (encode.encodeEntries entries).length
  | [] => Nat.le_refl 0
  | (key, value) :: entries => by
      have keyNodes := five_mul_nodes_le key
      have valueNodes := five_mul_nodes_le value
      have others := five_mul_nodesEntries_le entries
      simp [Value.nodes.nodesEntries, encode.encodeEntries]
      omega

end

private theorem length_flatMap_le {ρ σ : Type} {items : List ρ} {first second : ρ → List σ}
    (each : ∀ item ∈ items, (first item).length ≤ (second item).length) :
    (items.flatMap first).length ≤ (items.flatMap second).length := by
  induction items with
  | nil => exact Nat.le_refl 0
  | cons item items ih =>
      rw [List.flatMap_cons, List.flatMap_cons, List.length_append, List.length_append]
      exact Nat.add_le_add (each item List.mem_cons_self)
        (ih fun other member => each other (List.mem_cons_of_mem _ member))

private theorem length_spell_mergeEntry_le (entries : List (Value × Value))
    (entry : Value × Value) :
    ((Value.mergeEntry entries entry).flatMap spellEntry).length ≤
      (entries.flatMap spellEntry).length + (spellEntry entry).length := by
  induction entries with
  | nil => simp [Value.mergeEntry]
  | cons known rest ih =>
      rw [Value.mergeEntry]
      split
      case isTrue same =>
          simp only [List.flatMap_cons, List.length_append, spellEntry, same]
          omega
      case isFalse =>
          simp only [List.flatMap_cons, List.length_append] at ih ⊢
          omega

private theorem length_spell_mergeEntries_le (entries : List (Value × Value)) :
    ((Value.mergeEntries entries).flatMap spellEntry).length ≤
      (entries.flatMap spellEntry).length := by
  induction entries using List.reverseRecOn with
  | nil => exact Nat.le_refl 0
  | append_singleton entries entry ih =>
      have added := length_spell_mergeEntry_le (Value.mergeEntries entries) entry
      rw [Value.mergeEntries_concat, List.flatMap_append, List.length_append,
        List.flatMap_singleton]
      omega

/-- Merging only shrinks the written form. -/
theorem length_encode_normalize_le (value : Value) :
    (encode value.normalize).length ≤ (encode value).length := by
  induction value using Value.recOnMembers with
  | word32 | word64 | text => exact Nat.le_refl _
  | array items ofItems =>
      have members : ((items.map Value.normalize).flatMap encode).length ≤
          (items.flatMap encode).length := by
        rw [List.flatMap_map]
        exact length_flatMap_le ofItems
      rw [Value.normalize_array, encode_eq, encode_eq]
      simp only [body, List.length_append, Bytes.length_bigEndian, List.length_singleton]
      omega
  | map entries ofEntries =>
      have members : ((entries.map Value.normalizeEntry).flatMap spellEntry).length ≤
          (entries.flatMap spellEntry).length := by
        rw [List.flatMap_map]
        apply length_flatMap_le
        intro entry member
        obtain ⟨key, value⟩ := ofEntries entry member
        rw [spellEntry, spellEntry, List.length_append, List.length_append]
        exact Nat.add_le_add key value
      have merged := length_spell_mergeEntries_le (entries.map Value.normalizeEntry)
      rw [Value.normalize_map, encode_eq, encode_eq]
      simp only [body, List.length_append, Bytes.length_bigEndian, List.length_singleton]
      omega

private theorem encodable_normalize {value : Value} :
    Encodable value → Encodable value.normalize := by
  induction value using Value.recOnMembers with
  | word32 | word64 | text => exact id
  | array items ofItems =>
      intro fits
      rcases fits with ⟨counted, members⟩
      rw [encodableItems_iff] at members
      rw [Value.normalize_array]
      refine ⟨by rwa [List.length_map], encodableItems_iff.mpr fun normal member => ?_⟩
      obtain ⟨item, itemMember, rfl⟩ := List.mem_map.mp member
      exact ofItems item itemMember (members item itemMember)
  | map entries ofEntries =>
      intro fits
      rcases fits with ⟨counted, members⟩
      rw [encodableEntries_iff] at members
      rw [Value.normalize_map]
      have shorter := Value.length_mergeEntries_le (entries.map Value.normalizeEntry)
      rw [List.length_map] at shorter
      refine ⟨Nat.lt_of_le_of_lt shorter counted,
        encodableEntries_iff.mpr fun normal member => ?_⟩
      obtain ⟨entry, entryMember, rfl⟩ :=
        List.mem_map.mp (Value.mem_of_mem_mergeEntries member)
      exact ⟨(ofEntries entry entryMember).1 (members entry entryMember).1,
        (ofEntries entry entryMember).2 (members entry entryMember).2⟩

/-- A value that fits still does when its keys have been merged. -/
theorem Fits.normalize {levels : Nat} {value : Value} (fits : Fits levels value) :
    Fits levels value.normalize :=
  ⟨Nat.le_trans (Value.nesting_normalize_le value) fits.shallow,
    encodable_normalize fits.encodable⟩

/-! ### What is accepted -/

/-- The first `size` bytes are the written form of a raw value that may be read. -/
structure StartsWith (bytes : Bytes) (size : Nat) (raw : Value) : Prop where
  size_le : size ≤ bytes.length
  fits : Fits maxNesting raw
  spelled : encode raw = bytes.take size

/-- The form of a value starts every input that continues it. -/
theorem startsWith_encode {raw : Value} (fits : Fits maxNesting raw) (rest : Bytes) :
    StartsWith (encode raw ++ rest) (encode raw).length raw where
  size_le := by simp
  fits := fits
  spelled := by simp

private theorem StartsWith.length_encode {bytes : Bytes} {size : Nat} {raw : Value}
    (starts : StartsWith bytes size raw) : (encode raw).length = size := by
  rw [starts.spelled, List.length_take, Nat.min_eq_left starts.size_le]

/-- An input is the form of its first value and what follows. -/
theorem StartsWith.append_eq {bytes : Bytes} {size : Nat} {raw : Value}
    (starts : StartsWith bytes size raw) : encode raw ++ bytes.drop size = bytes := by
  rw [starts.spelled, List.take_append_drop]

/-- A byte string starts with at most one raw value. -/
theorem StartsWith.unique {bytes : Bytes} {size otherSize : Nat} {raw other : Value}
    (starts : StartsWith bytes size raw) (otherStarts : StartsWith bytes otherSize other) :
    otherSize = size ∧ other = raw := by
  have same : encode other ++ bytes.drop otherSize = encode raw ++ bytes.drop size := by
    rw [starts.append_eq, otherStarts.append_eq]
  obtain ⟨rfl, -⟩ := encode_append_inj otherStarts.fits.encodable starts.fits.encodable same
  exact ⟨otherStarts.length_encode.symm.trans starts.length_encode, rfl⟩

/-- A value is read exactly if the bytes start with a raw value of which it is the
normal form.  There is only one such raw value, of one size, and it has at most a fifth
as many nodes as bytes, whatever counts and lengths are written in them.  The value read
repeats no key, is written in at most as many bytes as it was read from, in the same
bytes only if there was nothing to merge, and is read back from its written form. -/
theorem decode_eq_ok_iff_startsWith (bytes : Bytes) (value : Value) :
    decode bytes = .ok value ↔
      ∃ size raw, StartsWith bytes size raw ∧ raw.normalize = value ∧
        (∀ otherSize other, StartsWith bytes otherSize other → otherSize = size ∧ other = raw) ∧
        value.Distinct ∧ 5 * raw.nodes ≤ size ∧ (encode value).length ≤ size ∧
        (encode value = bytes.take size ↔ raw.normalize = raw) ∧
        decode (encode value) = .ok value := by
  constructor
  · intro read
    obtain ⟨raw, rest, fits, rfl, rfl⟩ := decode_eq_ok_iff.mp read
    have starts := startsWith_encode fits rest
    have normal := Value.distinct_normalize raw
    refine ⟨_, raw, starts, rfl, fun _ _ otherStarts => starts.unique otherStarts, normal,
      five_mul_nodes_le raw, length_encode_normalize_le raw, ?_, ?_⟩
    · rw [← starts.spelled]
      constructor
      · intro same
        have alone : encode raw.normalize ++ [] = encode raw ++ [] := by rw [same]
        exact (encode_append_inj fits.normalize.encodable fits.encodable alone).1
      · intro same
        rw [same]
    · have again := decode_encode_of_fits fits.normalize []
      rwa [List.append_nil, Value.normalize_of_distinct normal] at again
  · intro written
    rcases written with ⟨size, raw, starts, rfl, -⟩
    exact decode_eq_ok_iff.mpr ⟨raw, bytes.drop size, starts.fits, rfl, starts.append_eq.symm⟩

end FunctionBundler.Codec
