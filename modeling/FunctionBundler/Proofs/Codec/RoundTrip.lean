/-
Module: FunctionBundler.Proofs.Codec.RoundTrip
Purpose: What the value reader accepts, and what it makes of the written form of a value.
Trusted boundary: none
Main exports:
  Codec.recognizes_takeValue, Codec.takeValue_tooDeep, Codec.decode_eq_ok_iff,
  Codec.decode_encode_append
-/
import FunctionBundler.Proofs.Codec.Fields
import FunctionBundler.Proofs.Value.Normal

namespace FunctionBundler.Codec

/-!
The reader of values recognizes the encodable values that nest no deeper than it
has levels, and gives their normal forms.  The induction is on the levels; each
level is a tag in front of fields that are recognized already.  Values that nest
deeper fail at the first array or map for which no level is left, because
everything written before it is read without complaint.
-/

/-! ### The written form, by parts -/

/-- The tag of a value. -/
def tag : Value → UInt8
  | .word32 _ => 0
  | .word64 _ => 1
  | .text _ => 2
  | .array _ => 3
  | .map _ => 4

/-- The written form of the key and the value of an entry. -/
def spellEntry (entry : Value × Value) : Bytes :=
  encode entry.1 ++ encode entry.2

/-- The tags of arrays and maps are those that open a level. -/
theorem tag_opens_iff {value : Value} : tag value = 3 ∨ tag value = 4 ↔ 0 < value.nesting := by
  cases value <;> simp [tag, Value.nesting]

/-- What is written behind the tag of a value. -/
def body : Value → Bytes
  | .word32 number => Bytes.bigEndian 4 number.toNat
  | .word64 number => Bytes.bigEndian 8 number.toNat
  | .text content => spellText content
  | .array items => Bytes.bigEndian 4 items.length ++ items.flatMap encode
  | .map entries => Bytes.bigEndian 4 entries.length ++ entries.flatMap spellEntry

private theorem encodeItems_eq_flatMap (items : List Value) :
    encode.encodeItems items = items.flatMap encode := by
  induction items with
  | nil => rfl
  | cons item items ih => rw [encode.encodeItems, ih, List.flatMap_cons]

private theorem encodeEntries_eq_flatMap (entries : List (Value × Value)) :
    encode.encodeEntries entries = entries.flatMap spellEntry := by
  induction entries with
  | nil => rfl
  | cons entry entries ih => rw [encode.encodeEntries, ih, List.flatMap_cons, spellEntry]

/-- The form of a value is its tag and what follows it. -/
theorem encode_eq (value : Value) : encode value = [tag value] ++ body value := by
  cases value with
  | word32 | word64 | text => rfl
  | array items => rw [encode, encodeItems_eq_flatMap]; rfl
  | map entries => rw [encode, encodeEntries_eq_flatMap]; rfl

private theorem spans_encode_iff {start stop : Cursor} {value : Value} :
    start.Spans (encode value) stop ↔
      ∃ fields, start.Spans [tag value] fields ∧ Cursor.Spans fields (body value) stop := by
  rw [encode_eq, Cursor.spans_append_iff]

/-- Items are encodable if each of them is. -/
theorem encodableItems_iff {items : List Value} :
    Encodable.EncodableItems items ↔ ∀ item ∈ items, Encodable item := by
  induction items with
  | nil => simp [Encodable.EncodableItems]
  | cons item items ih => rw [Encodable.EncodableItems, List.forall_mem_cons, ih]

/-- Entries are encodable if each key and each value is. -/
theorem encodableEntries_iff {entries : List (Value × Value)} :
    Encodable.EncodableEntries entries ↔
      ∀ entry ∈ entries, Encodable entry.1 ∧ Encodable entry.2 := by
  induction entries with
  | nil => simp [Encodable.EncodableEntries]
  | cons entry entries ih =>
      rw [Encodable.EncodableEntries, List.forall_mem_cons, ih, and_assoc]

/-! ### What is recognized -/

/-- The values that can be written and that open at most so many arrays and maps at once. -/
structure Fits (levels : Nat) (value : Value) : Prop where
  shallow : value.nesting ≤ levels
  encodable : Encodable value

/-- A value that fits some levels fits more of them. -/
theorem Fits.mono {first second : Nat} {value : Value} (fits : Fits first value)
    (more : first ≤ second) : Fits second value :=
  ⟨Nat.le_trans fits.shallow more, fits.encodable⟩

private theorem fits_array_iff {levels : Nat} {items : List Value} :
    Fits (levels + 1) (.array items) ↔
      items.length < 2 ^ 32 ∧ ∀ item ∈ items, Fits levels item := by
  constructor
  · intro fits
    rcases fits with ⟨shallow, counted, encodable⟩
    rw [Value.nesting, Nat.add_le_add_iff_right, Value.nestingItems_le_iff] at shallow
    rw [encodableItems_iff] at encodable
    exact ⟨counted, fun item member => ⟨shallow item member, encodable item member⟩⟩
  · intro fits
    rcases fits with ⟨counted, members⟩
    refine ⟨?_, counted, encodableItems_iff.mpr fun item member => (members item member).encodable⟩
    rw [Value.nesting, Nat.add_le_add_iff_right, Value.nestingItems_le_iff]
    exact fun item member => (members item member).shallow

private theorem fits_map_iff {levels : Nat} {entries : List (Value × Value)} :
    Fits (levels + 1) (.map entries) ↔
      entries.length < 2 ^ 32 ∧ ∀ entry ∈ entries, Fits levels entry.1 ∧ Fits levels entry.2 := by
  constructor
  · intro fits
    rcases fits with ⟨shallow, counted, encodable⟩
    rw [Value.nesting, Nat.add_le_add_iff_right, Value.nestingEntries_le_iff] at shallow
    rw [encodableEntries_iff] at encodable
    exact ⟨counted, fun entry member =>
      ⟨⟨(shallow entry member).1, (encodable entry member).1⟩,
        ⟨(shallow entry member).2, (encodable entry member).2⟩⟩⟩
  · intro fits
    rcases fits with ⟨counted, members⟩
    refine ⟨?_, counted, encodableEntries_iff.mpr fun entry member =>
      ⟨(members entry member).1.encodable, (members entry member).2.encodable⟩⟩
    rw [Value.nesting, Nat.add_le_add_iff_right, Value.nestingEntries_le_iff]
    exact fun entry member => ⟨(members entry member).1.shallow, (members entry member).2.shallow⟩

private theorem takeScalar_eq_ok_iff {leading : UInt8} {offset : Nat} {start stop : Cursor}
    {result : Value} :
    takeScalar leading offset start = .ok (result, stop) ↔
      ∃ raw, Fits 0 raw ∧ tag raw = leading ∧ raw.normalize = result ∧
        start.Spans (body raw) stop := by
  rw [takeScalar]
  constructor
  · intro read
    split at read
    case isTrue isWord32 =>
        obtain ⟨number, small, rfl, spans⟩ :=
          ((recognizes_takeNat 4).map (fun n => Value.word32 (UInt32.ofNat n)) _ _ _).mp read
        refine ⟨.word32 (UInt32.ofNat number), ⟨Nat.le_refl 0, trivial⟩, isWord32.symm, rfl, ?_⟩
        rwa [body, UInt32.toNat_ofNat_of_lt' small]
    case isFalse =>
        split at read
        case isTrue isWord64 =>
            obtain ⟨number, small, rfl, spans⟩ :=
              ((recognizes_takeNat 8).map (fun n => Value.word64 (UInt64.ofNat n)) _ _ _).mp read
            refine ⟨.word64 (UInt64.ofNat number), ⟨Nat.le_refl 0, trivial⟩, isWord64.symm, rfl, ?_⟩
            rwa [body, UInt64.toNat_ofNat_of_lt' small]
        case isFalse =>
            split at read
            case isTrue isText =>
                obtain ⟨content, small, rfl, spans⟩ :=
                  (recognizes_takeText.map Value.text _ _ _).mp read
                exact ⟨.text content, ⟨Nat.le_refl 0, small⟩, isText.symm, rfl, spans⟩
            case isFalse => cases read
  · intro written
    rcases written with ⟨raw, fits, rfl, rfl, spans⟩
    cases raw with
    | word32 number =>
        have read := ((recognizes_takeNat 4).map (fun n => Value.word32 (UInt32.ofNat n)) start _
          stop).mpr ⟨number.toNat, number.toNat_lt, rfl, spans⟩
        simpa [tag, Value.normalize] using read
    | word64 number =>
        have read := ((recognizes_takeNat 8).map (fun n => Value.word64 (UInt64.ofNat n)) start _
          stop).mpr ⟨number.toNat, number.toNat_lt, rfl, spans⟩
        simpa [tag, Value.normalize] using read
    | text content =>
        exact (recognizes_takeText.map Value.text start _ stop).mpr
          ⟨content, fits.encodable, rfl, spans⟩
    | array items => exact absurd fits.shallow (Nat.not_succ_le_zero _)
    | map entries => exact absurd fits.shallow (Nat.not_succ_le_zero _)

/-- With no level left only scalars are read. -/
theorem recognizes_takeValue_zero :
    Recognizes (takeValue 0) (Fits 0) encode Value.normalize := by
  intro start result stop
  rw [takeValue, bind_eq_ok_iff]
  constructor
  · intro steps
    rcases steps with ⟨leading, fields, tagRead, read⟩
    have tagSpans := takeByte_eq_ok_iff.mp tagRead
    simp only at read
    split at read
    case isTrue => cases read
    case isFalse =>
        obtain ⟨raw, fits, rfl, normal, spans⟩ := takeScalar_eq_ok_iff.mp read
        exact ⟨raw, fits, normal, spans_encode_iff.mpr ⟨fields, tagSpans, spans⟩⟩
  · intro written
    rcases written with ⟨raw, fits, normal, spans⟩
    obtain ⟨fields, tagSpans, bodySpans⟩ := spans_encode_iff.mp spans
    refine ⟨tag raw, fields, takeByte_eq_ok_iff.mpr tagSpans, ?_⟩
    have opens : ¬(tag raw = 3 ∨ tag raw = 4) :=
      fun opens => Nat.not_lt_of_le fits.shallow (tag_opens_iff.mp opens)
    simp only [if_neg opens]
    exact takeScalar_eq_ok_iff.mpr ⟨raw, fits, rfl, normal, bodySpans⟩

/-- With a level left the members of arrays and maps are read with one level less. -/
theorem recognizes_takeValue_succ {levels : Nat}
    (members : Recognizes (takeValue levels) (Fits levels) encode Value.normalize) :
    Recognizes (takeValue (levels + 1)) (Fits (levels + 1)) encode Value.normalize := by
  intro start result stop
  have array := members.counted Value.array
  have map := members.takePair.counted fun entries => Value.map (Value.mergeEntries entries)
  rw [takeValue, bind_eq_ok_iff]
  constructor
  · intro steps
    rcases steps with ⟨leading, fields, tagRead, read⟩
    have tagSpans := takeByte_eq_ok_iff.mp tagRead
    simp only at read
    split at read
    case isTrue isArray =>
        subst isArray
        obtain ⟨items, fits, rfl, spans⟩ := (array _ _ _).mp read
        exact ⟨.array items, fits_array_iff.mpr fits, Value.normalize_array items,
          spans_encode_iff.mpr ⟨fields, tagSpans, spans⟩⟩
    case isFalse =>
        split at read
        case isTrue isMap =>
            subst isMap
            obtain ⟨entries, fits, rfl, spans⟩ := (map _ _ _).mp read
            exact ⟨.map entries, fits_map_iff.mpr fits, Value.normalize_map entries,
              spans_encode_iff.mpr ⟨fields, tagSpans, spans⟩⟩
        case isFalse =>
            obtain ⟨raw, fits, rfl, normal, spans⟩ := takeScalar_eq_ok_iff.mp read
            exact ⟨raw, fits.mono (Nat.zero_le _), normal,
              spans_encode_iff.mpr ⟨fields, tagSpans, spans⟩⟩
  · intro written
    rcases written with ⟨raw, fits, rfl, spans⟩
    obtain ⟨fields, tagSpans, bodySpans⟩ := spans_encode_iff.mp spans
    refine ⟨tag raw, fields, takeByte_eq_ok_iff.mpr tagSpans, ?_⟩
    by_cases opens : tag raw = 3 ∨ tag raw = 4
    · cases raw with
      | array items =>
          exact (array _ _ _).mpr
            ⟨items, fits_array_iff.mp fits, (Value.normalize_array items).symm, bodySpans⟩
      | map entries =>
          exact (map _ _ _).mpr
            ⟨entries, fits_map_iff.mp fits, (Value.normalize_map entries).symm, bodySpans⟩
      | word32 | word64 | text => simp [tag] at opens
    · have scalar : Fits 0 raw := ⟨Nat.not_lt.mp (mt tag_opens_iff.mpr opens), fits.encodable⟩
      rw [not_or] at opens
      simp only [if_neg opens.1, if_neg opens.2]
      exact takeScalar_eq_ok_iff.mpr ⟨raw, scalar, rfl, rfl, bodySpans⟩

/-- Reading values recognizes those that fit into the levels, and gives their normal forms. -/
theorem recognizes_takeValue (levels : Nat) :
    Recognizes (takeValue levels) (Fits levels) encode Value.normalize := by
  induction levels with
  | zero => exact recognizes_takeValue_zero
  | succ levels ih => exact recognizes_takeValue_succ ih

/-- A byte string starts with a value exactly if it starts with the written form of an
encodable one that nests no deeper than allowed; what is read is the normal form of that
one. -/
theorem decode_eq_ok_iff {bytes : Bytes} {value : Value} :
    decode bytes = .ok value ↔
      ∃ raw rest, Fits maxNesting raw ∧ raw.normalize = value ∧ bytes = encode raw ++ rest := by
  rw [decode, bind_eq_ok_iff]
  constructor
  · intro steps
    rcases steps with ⟨_, stop, read, ⟨⟩⟩
    obtain ⟨raw, fits, normal, spans⟩ := (recognizes_takeValue maxNesting _ _ _).mp read
    exact ⟨raw, stop.rest, fits, normal, spans.rest⟩
  · intro written
    rcases written with ⟨raw, rest, fits, rfl, rfl⟩
    exact ⟨_, _, (recognizes_takeValue maxNesting _ _ _).mpr
      ⟨raw, fits, rfl, Cursor.spans_append 0 (encode raw) rest⟩, rfl⟩

/-! ### Values that nest too deeply -/

mutual

/-- Reading fails at the first array or map for which no level is left. -/
theorem takeValue_tooDeep : ∀ {value : Value} {levels : Nat} {start stop : Cursor},
    Encodable value → levels < value.nesting → start.Spans (encode value) stop →
      takeValue levels start = .error .tooDeep
  | value, 0, start, stop, _, deep, spans => by
      obtain ⟨fields, tagSpans, _⟩ := spans_encode_iff.mp spans
      rw [takeValue, takeByte_eq_ok_iff.mpr tagSpans]
      exact if_pos (tag_opens_iff.mpr deep)
  | .array items, levels + 1, start, stop, ⟨counted, encodable⟩, deep, spans => by
      obtain ⟨fields, tagSpans, bodySpans⟩ := spans_encode_iff.mp spans
      obtain ⟨members, countSpans, memberSpans⟩ := Cursor.spans_append_iff.mp bodySpans
      have countRead := (recognizes_takeNat 4 _ _ _).mpr ⟨_, counted, rfl, countSpans⟩
      have membersRead := takeItems_tooDeep encodable (Nat.lt_of_succ_lt_succ deep) memberSpans
      rw [takeValue, takeByte_eq_ok_iff.mpr tagSpans]
      show (takeNat 4 fields >>= _) = _
      rw [countRead]
      show (takeMany (takeValue levels) items.length members >>= _) = _
      rw [membersRead]
      rfl
  | .map entries, levels + 1, start, stop, ⟨counted, encodable⟩, deep, spans => by
      obtain ⟨fields, tagSpans, bodySpans⟩ := spans_encode_iff.mp spans
      obtain ⟨members, countSpans, memberSpans⟩ := Cursor.spans_append_iff.mp bodySpans
      have countRead := (recognizes_takeNat 4 _ _ _).mpr ⟨_, counted, rfl, countSpans⟩
      have membersRead := takeEntries_tooDeep encodable (Nat.lt_of_succ_lt_succ deep) memberSpans
      rw [takeValue, takeByte_eq_ok_iff.mpr tagSpans]
      show (takeNat 4 fields >>= _) = _
      rw [countRead]
      show (takeMany (takePair (takeValue levels)) entries.length members >>= _) = _
      rw [membersRead]
      rfl
  | .word32 _, _ + 1, _, _, _, deep, _ => absurd deep (Nat.not_lt_zero _)
  | .word64 _, _ + 1, _, _, _, deep, _ => absurd deep (Nat.not_lt_zero _)
  | .text _, _ + 1, _, _, _, deep, _ => absurd deep (Nat.not_lt_zero _)

private theorem takeItems_tooDeep : ∀ {items : List Value} {levels : Nat} {start stop : Cursor},
    Encodable.EncodableItems items → levels < Value.nesting.nestingItems items →
      start.Spans (items.flatMap encode) stop →
        takeMany (takeValue levels) items.length start = .error .tooDeep
  | [], _, _, _, _, deep, _ => absurd deep (Nat.not_lt_zero _)
  | item :: items, levels, start, stop, ⟨first, others⟩, deep, spans => by
      obtain ⟨middle, firstSpans, otherSpans⟩ := Cursor.spans_append_iff.mp spans
      rw [List.length_cons, takeMany]
      -- What comes before the first item that is too deep is read without complaint.
      by_cases shallow : item.nesting ≤ levels
      · have othersDeep : levels < Value.nesting.nestingItems items := by
          rw [Value.nesting.nestingItems] at deep
          omega
        rw [(recognizes_takeValue levels _ _ _).mpr ⟨item, ⟨shallow, first⟩, rfl, firstSpans⟩]
        show (takeMany (takeValue levels) items.length middle >>= _) = _
        rw [takeItems_tooDeep others othersDeep otherSpans]
        rfl
      · rw [takeValue_tooDeep first (Nat.lt_of_not_le shallow) firstSpans]
        rfl

private theorem takeEntries_tooDeep :
    ∀ {entries : List (Value × Value)} {levels : Nat} {start stop : Cursor},
      Encodable.EncodableEntries entries → levels < Value.nesting.nestingEntries entries →
        start.Spans (entries.flatMap spellEntry) stop →
          takeMany (takePair (takeValue levels)) entries.length start = .error .tooDeep
  | [], _, _, _, _, deep, _ => absurd deep (Nat.not_lt_zero _)
  | (key, value) :: entries, levels, start, stop, ⟨keyFits, valueFits, others⟩, deep, spans => by
      obtain ⟨middle, entrySpans, otherSpans⟩ := Cursor.spans_append_iff.mp spans
      obtain ⟨between, keySpans, valueSpans⟩ := Cursor.spans_append_iff.mp entrySpans
      rw [List.length_cons, takeMany]
      by_cases keyShallow : key.nesting ≤ levels
      · have keyRead := (recognizes_takeValue levels _ _ _).mpr
          ⟨key, ⟨keyShallow, keyFits⟩, rfl, keySpans⟩
        by_cases valueShallow : value.nesting ≤ levels
        · have othersDeep : levels < Value.nesting.nestingEntries entries := by
            rw [Value.nesting.nestingEntries] at deep
            omega
          have entryRead := ((recognizes_takeValue levels).takePair _ _ _).mpr
            ⟨(key, value), ⟨⟨keyShallow, keyFits⟩, ⟨valueShallow, valueFits⟩⟩, rfl, entrySpans⟩
          rw [entryRead]
          show (takeMany (takePair (takeValue levels)) entries.length middle >>= _) = _
          rw [takeEntries_tooDeep others othersDeep otherSpans]
          rfl
        · rw [takePair, keyRead]
          show ((takeValue levels between >>= _) >>= _) = _
          rw [takeValue_tooDeep valueFits (Nat.lt_of_not_le valueShallow) valueSpans]
          rfl
      · rw [takePair, takeValue_tooDeep keyFits (Nat.lt_of_not_le keyShallow) keySpans]
        rfl

end

/-- A value that fits is read back with its keys merged, whatever follows it. -/
theorem decode_encode_of_fits {value : Value} (fits : Fits maxNesting value) (rest : Bytes) :
    decode (encode value ++ rest) = .ok value.normalize :=
  decode_eq_ok_iff.mpr ⟨value, rest, fits, rfl, rfl⟩

private theorem decode_encode_of_deep {value : Value} (encodable : Encodable value)
    (deep : maxNesting < value.nesting) (rest : Bytes) :
    decode (encode value ++ rest) = .error .tooDeep := by
  rw [decode, takeValue_tooDeep encodable deep (Cursor.spans_append 0 (encode value) rest)]
  rfl

/-- Reading back what was written: an encodable value that nests at most 64 arrays and
maps gives its normal form, whatever follows it, and a deeper one is refused.  So a
value comes back unchanged exactly if it is not too deep and no map in it repeats a key.
In the normal form of a map the repeated keys of its normalized entries are merged. -/
theorem decode_encode_append (value : Value) (encodable : Encodable value) (rest : Bytes) :
    (value.nesting ≤ 64 → decode (encode value ++ rest) = .ok value.normalize) ∧
      (64 < value.nesting → decode (encode value ++ rest) = .error .tooDeep) ∧
      (decode (encode value) = .ok value ↔ value.nesting ≤ 64 ∧ value.Distinct) ∧
      ∀ entries, ∃ merged, (Value.map entries).normalize = .map merged ∧
        Value.Merges (entries.map fun entry => (entry.1.normalize, entry.2.normalize)) merged := by
  refine ⟨fun shallow => decode_encode_of_fits ⟨shallow, encodable⟩ rest,
    fun deep => decode_encode_of_deep encodable deep rest, ?_, fun entries => ?_⟩
  · by_cases shallow : value.nesting ≤ 64
    · have read := decode_encode_of_fits ⟨shallow, encodable⟩ []
      rw [List.append_nil] at read
      simp [read, shallow, Value.normalize_eq_self_iff]
    · have read := decode_encode_of_deep encodable (Nat.lt_of_not_le shallow) []
      rw [List.append_nil] at read
      simp [read, shallow]
  · exact ⟨_, Value.normalize_map entries, Value.merges_mergeEntries _⟩

/-- Of a key listed twice the second value is read, and the byte after the map is left alone. -/
theorem decode_encode_append_repeated :
    let repeated : Value := .map [(.text "a", .word32 1), (.text "a", .word32 2)]
    Encodable repeated ∧
      decode (encode repeated ++ [255]) = .ok (.map [(.text "a", .word32 2)]) ∧
      decode (encode repeated) ≠ .ok repeated := by
  intro repeated
  have encodable : Encodable repeated := by
    simp [repeated, Encodable, Encodable.EncodableEntries]
    decide
  obtain ⟨read, -, unchanged, -⟩ := decode_encode_append repeated encodable [255]
  refine ⟨encodable, read (by decide), fun same => ?_⟩
  obtain ⟨-, nodup, -⟩ := unchanged.mp same
  simp at nodup

end FunctionBundler.Codec
