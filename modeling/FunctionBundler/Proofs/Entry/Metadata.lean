/-
Module: FunctionBundler.Proofs.Entry.Metadata
Purpose: Metadata that was written for some parameters is read as these parameters.
Trusted boundary: none
Main exports:
  Width, Parameters.fieldValue, Parameters.entries, Parameters.ofValue_of_fields,
  Parameters.Written, EntryPoint.parameters_padded, EntryPoint.parameters_of_written,
  Parameters.toValue, EntryPoint.parameters_toValue
-/
import FunctionBundler.Manifest
import FunctionBundler.Proofs.Base64.RoundTrip
import FunctionBundler.Proofs.Codec.RoundTrip

namespace FunctionBundler

/-!
The metadata of an entry point is a value, written in the binary format and then in
base64.  Both are undone when it is read, so what the parameters are depends only on
the normal form of the value.  Of the normal form of a map only the fields count:
their order, the width of their integers and the entries under other keys do not
matter, whatever merging does to those.
-/

/-- How wide an integer is written. -/
inductive Width where
  | word32
  | word64
deriving DecidableEq

/-- An integer of a width. -/
def Width.write : Width → Nat → Value
  | .word32, number => .word32 (.ofNat number)
  | .word64, number => .word64 (.ofNat number)

namespace Parameter

/-- All fields, in the order in which they are examined. -/
def all : List Parameter :=
  [.identifier, .memory, .timeout, .ephemeralStorage]

private theorem mem_all (parameter : Parameter) : parameter ∈ all := by
  cases parameter <;> decide

private theorem key_inj {parameter other : Parameter} (same : parameter.key = other.key) :
    parameter = other := by
  revert same
  cases parameter <;> cases other <;> decide

end Parameter

namespace Parameters

/-- Parameters whose numbers the platform accepts. -/
structure Accepted (parameters : Parameters) : Prop where
  memory : parameters.memory ≤ largest
  timeout : parameters.timeout ≤ largest
  ephemeralStorage : parameters.ephemeralStorage ≤ largest

/-! ### Fields -/

/-- The value that describes a field. -/
def fieldValue (parameters : Parameters) (width : Parameter → Width) (parameter : Parameter) :
    Value :=
  match parameter with
  | .identifier => .text parameters.identifier
  | .memory => (width .memory).write parameters.memory
  | .timeout => (width .timeout).write parameters.timeout
  | .ephemeralStorage => (width .ephemeralStorage).write parameters.ephemeralStorage

/-- The entry that describes a field. -/
def fieldEntry (parameters : Parameters) (width : Parameter → Width) (parameter : Parameter) :
    Value × Value :=
  (.text parameter.key, parameters.fieldValue width parameter)

/-- The entries that describe parameters, with integers of these widths. -/
def entries (parameters : Parameters) (width : Parameter → Width) : List (Value × Value) :=
  Parameter.all.map (parameters.fieldEntry width)

variable {parameters : Parameters} {width : Parameter → Width}

/-- An integer is read whatever its width. -/
theorem platformInteger?_write {number : Nat} (small : number ≤ largest) (wide : Width) :
    platformInteger? (wide.write number) = some number := by
  have fits {size : Nat} (room : largest < size) : number < size := Nat.lt_of_le_of_lt small room
  have read : (wide.write number).asNat? = some number := by
    cases wide with
    | word32 => exact congrArg some (UInt32.toNat_ofNat_of_lt' (fits (by decide)))
    | word64 => exact congrArg some (UInt64.toNat_ofNat_of_lt' (fits (by decide)))
  rw [platformInteger?, read, Option.filter_some, if_pos (decide_eq_true small)]

private theorem field_of_lookup {α : Type} {listed : List (Value × Value)} {parameter : Parameter}
    {value : Value} {result : α} {view : Value → Option α}
    (found : listed.lookup (.text parameter.key) = some value) (viewed : view value = some result) :
    field (.map listed) parameter view = .ok result := by
  rw [field, Value.get?_map, found]
  dsimp only
  rw [viewed]

/-- A map that has the fields of parameters is read as these, whatever else is in it. -/
theorem ofValue_of_fields {listed : List (Value × Value)} (accepted : parameters.Accepted)
    (found : ∀ parameter : Parameter,
      listed.lookup (.text parameter.key) = some (parameters.fieldValue width parameter)) :
    ofValue (.map listed) = .ok parameters := by
  have identifier := field_of_lookup (found .identifier)
    (show Value.asText? (.text parameters.identifier) = some parameters.identifier from rfl)
  have memory := field_of_lookup (found .memory)
    (platformInteger?_write accepted.memory (width .memory))
  have timeout := field_of_lookup (found .timeout)
    (platformInteger?_write accepted.timeout (width .timeout))
  have ephemeralStorage := field_of_lookup (found .ephemeralStorage)
    (platformInteger?_write accepted.ephemeralStorage (width .ephemeralStorage))
  rw [ofValue, identifier, memory, timeout, ephemeralStorage]
  rfl

/-! ### Maps that describe parameters -/

/-- Entries that describe parameters: the fields, in any order, and further entries between them,
all of which can be written. -/
structure Written (parameters : Parameters) (width : Parameter → Width)
    (further listed : List (Value × Value)) : Prop where
  order : listed.Perm (parameters.entries width ++ further)
  others : ∀ entry ∈ further, ∀ parameter : Parameter, entry.1 ≠ .text parameter.key
  encodable : ∀ entry ∈ further, Codec.Encodable entry.1 ∧ Codec.Encodable entry.2
  counted : listed.length < 2 ^ 32

namespace Written

variable {further listed : List (Value × Value)}

private theorem mem_cases (written : parameters.Written width further listed)
    {entry : Value × Value} (member : entry ∈ listed) :
    (∃ parameter, entry = parameters.fieldEntry width parameter) ∨ entry ∈ further := by
  rcases List.mem_append.mp (written.order.subset member) with field | other
  · obtain ⟨parameter, -, same⟩ := List.mem_map.mp field
    exact Or.inl ⟨parameter, same.symm⟩
  · exact Or.inr other

private theorem mem_listed (written : parameters.Written width further listed)
    (parameter : Parameter) :
    parameters.fieldEntry width parameter ∈ listed :=
  written.order.symm.subset
    (List.mem_append_left further (List.mem_map_of_mem parameter.mem_all))

private theorem normalize_fieldEntry (parameters : Parameters) (width : Parameter → Width)
    (parameter : Parameter) :
    Value.normalizeEntry (parameters.fieldEntry width parameter) =
      parameters.fieldEntry width parameter := by
  have written (wide : Width) (number : Nat) :
      (wide.write number).normalize = wide.write number := by cases wide <;> rfl
  cases parameter with
  | identifier => rfl
  | memory | timeout | ephemeralStorage => exact Prod.ext rfl (written _ _)

/-- Merging leaves every field what it is: no other key turns into a text when it is normalized. -/
theorem lookup_merged (written : parameters.Written width further listed) (parameter : Parameter) :
    (Value.mergeEntries (listed.map Value.normalizeEntry)).lookup (.text parameter.key) =
      some (parameters.fieldValue width parameter) := by
  rw [Value.lookup_mergeEntries]
  apply Value.lookup_eq_some_of_sole
  · rw [List.mem_reverse]
    have listed := List.mem_map_of_mem (f := Value.normalizeEntry) (written.mem_listed parameter)
    rwa [normalize_fieldEntry] at listed
  · intro normal member same
    obtain ⟨entry, listed, rfl⟩ := List.mem_map.mp (List.mem_reverse.mp member)
    have key : entry.1 = .text parameter.key := Value.normalize_eq_text_iff.mp same
    rcases written.mem_cases listed with ⟨other, rfl⟩ | other
    · have same := Parameter.key_inj (Value.text.inj key)
      rw [normalize_fieldEntry, same]
      rfl
    · exact absurd key (written.others entry other parameter)

/-- What was written for parameters is read as these. -/
theorem ofValue_normalize (written : parameters.Written width further listed)
    (accepted : parameters.Accepted) :
    ofValue (Value.map listed).normalize = .ok parameters := by
  rw [Value.normalize_map]
  exact ofValue_of_fields accepted written.lookup_merged

private theorem encodable_fieldEntry (short : (Bytes.ofText parameters.identifier).length < 2 ^ 32)
    (width : Parameter → Width) (parameter : Parameter) :
    Codec.Encodable (parameters.fieldEntry width parameter).1 ∧
      Codec.Encodable (parameters.fieldEntry width parameter).2 := by
  have integer (wide : Width) (number : Nat) : Codec.Encodable (wide.write number) := by
    cases wide <;> exact trivial
  constructor
  · change (Bytes.ofText parameter.key).length < 2 ^ 32
    cases parameter <;> decide
  · cases parameter with
    | identifier => exact short
    | memory | timeout | ephemeralStorage => exact integer _ _

private theorem encodable_map (written : parameters.Written width further listed)
    (short : (Bytes.ofText parameters.identifier).length < 2 ^ 32) :
    Codec.Encodable (.map listed) := by
  refine ⟨written.counted, Codec.encodableEntries_iff.mpr fun entry member => ?_⟩
  rcases written.mem_cases member with ⟨parameter, rfl⟩ | other
  · exact encodable_fieldEntry short width parameter
  · exact written.encodable entry other

end Written

/-! ### One way to write parameters -/

/-- A value that describes parameters. -/
def toValue (parameters : Parameters) : Value :=
  .map [(.text Parameter.identifier.key, .text parameters.identifier),
    (.text Parameter.memory.key, .word64 (.ofNat parameters.memory)),
    (.text Parameter.timeout.key, .word64 (.ofNat parameters.timeout)),
    (.text Parameter.ephemeralStorage.key, .word64 (.ofNat parameters.ephemeralStorage))]

private theorem toValue_eq_map (parameters : Parameters) :
    parameters.toValue = .map (parameters.entries fun _ => .word64) :=
  rfl

private theorem written_entries (parameters : Parameters) (width : Parameter → Width) :
    parameters.Written width [] (parameters.entries width) where
  order := by rw [List.append_nil]
  others := List.forall_mem_nil _
  encodable := List.forall_mem_nil _
  counted := show 4 < 2 ^ 32 by decide

end Parameters

namespace EntryPoint

/-- What the parameters of an entry point are depends on the value in its metadata, and not on the
blanks around its text. -/
theorem parameters_padded (fileName : String) (sourceName : Option String) {value : Value}
    (fits : Codec.Fits Codec.maxNesting value) {before after : List Char}
    (blankBefore : ∀ c ∈ before, Text.isBlank c = true)
    (blankAfter : ∀ c ∈ after, Text.isBlank c = true) :
    (⟨fileName, String.ofList (before ++ ((Base64.encode (Codec.encode value)).toList ++ after)),
      sourceName⟩ : EntryPoint).parameters = Parameters.ofValue value.normalize := by
  have written : (⟨fileName,
      String.ofList (before ++ ((Base64.encode (Codec.encode value)).toList ++ after)),
      sourceName⟩ : EntryPoint).blob = .ok (Codec.encode value) := by
    rw [blob, String.toList_ofList, Base64.trimBlank_padded _ blankBefore blankAfter,
      String.ofList_toList, Base64.decode_encode]
  have read := Codec.decode_encode_of_fits fits []
  rw [List.append_nil] at read
  rw [parameters, written]
  dsimp only
  rw [Parameters.ofBytes, read]

private theorem parameters_encode (fileName : String) (sourceName : Option String) {value : Value}
    (fits : Codec.Fits Codec.maxNesting value) :
    (⟨fileName, Base64.encode (Codec.encode value), sourceName⟩ : EntryPoint).parameters =
      Parameters.ofValue value.normalize := by
  have padded := parameters_padded fileName sourceName fits (List.forall_mem_nil _)
    (List.forall_mem_nil _)
  rwa [List.nil_append, List.append_nil, String.ofList_toList] at padded

/-- Parameters that were written are the parameters of the entry point. -/
theorem parameters_toValue (fileName : String) (sourceName : Option String)
    {parameters : Parameters} (accepted : parameters.Accepted)
    (short : (Bytes.ofText parameters.identifier).length < 2 ^ 32) :
    (⟨fileName, Base64.encode (Codec.encode parameters.toValue), sourceName⟩ :
      EntryPoint).parameters = .ok parameters := by
  have written := parameters.written_entries fun _ => .word64
  have shallow : parameters.toValue.nesting ≤ Codec.maxNesting := show 1 ≤ 64 by decide
  rw [parameters_encode fileName sourceName ⟨shallow, written.encodable_map short⟩,
    Parameters.toValue_eq_map, written.ofValue_normalize accepted]

/-- Parameters survive all layers of the metadata: any identifier that can be written and any
numbers that the platform accepts, with integers of either width, fields in any order and further
entries under other keys between them, and any blanks around the base64 text. -/
theorem parameters_of_written {parameters : Parameters} (accepted : parameters.Accepted)
    (short : (Bytes.ofText parameters.identifier).length < 2 ^ 32) {width : Parameter → Width}
    {further listed : List (Value × Value)} (written : parameters.Written width further listed)
    (shallow : (Value.map listed).nesting ≤ 64) {before after : List Char}
    (blankBefore : ∀ c ∈ before, Text.isBlank c = true)
    (blankAfter : ∀ c ∈ after, Text.isBlank c = true)
    (fileName : String) (sourceName : Option String) :
    (⟨fileName,
      String.ofList (before ++ ((Base64.encode (Codec.encode (.map listed))).toList ++ after)),
      sourceName⟩ : EntryPoint).parameters = .ok parameters := by
  have fits : Codec.Fits Codec.maxNesting (.map listed) := ⟨shallow, written.encodable_map short⟩
  rw [parameters_padded fileName sourceName fits blankBefore blankAfter]
  exact written.ofValue_normalize accepted

/-- Fields in reverse order, with integers of both widths, the greatest number among them, and
behind a key that is a map with a repeated key of its own, in a text with blanks around it. -/
theorem parameters_of_written_reversed :
    let parameters : Parameters := ⟨"tâche", 128, 2147483647, 0⟩
    let width : Parameter → Width := fun parameter =>
      if parameter = .timeout then .word64 else .word32
    let nested : Value := .map [(.word32 1, .array []), (.word32 1, .text "memory")]
    let listed := (parameters.entries width ++ [(nested, nested)]).reverse
    (⟨"handler", String.ofList ([' ', '\n'] ++
      ((Base64.encode (Codec.encode (.map listed))).toList ++ [Char.ofNat 0xA0])),
      none⟩ : EntryPoint).parameters = .ok parameters := by
  intro parameters width nested listed
  have nestedEncodable : Codec.Encodable nested := by
    simp [nested, Codec.Encodable, Codec.Encodable.EncodableEntries, Codec.Encodable.EncodableItems]
    decide
  have written : parameters.Written width [(nested, nested)] listed :=
    { order := List.reverse_perm _
      others := by
        rintro entry member parameter
        rw [List.mem_singleton.mp member]
        intro same
        cases same
      encodable := by
        rintro entry member
        rw [List.mem_singleton.mp member]
        exact ⟨nestedEncodable, nestedEncodable⟩
      counted := by decide }
  have blanks : ∀ c ∈ [' ', '\n'], Text.isBlank c = true :=
    List.forall_mem_cons.mpr ⟨by decide, List.forall_mem_singleton.mpr (by decide)⟩
  have blank : ∀ c ∈ [Char.ofNat 0xA0], Text.isBlank c = true :=
    List.forall_mem_singleton.mpr (by decide)
  exact parameters_of_written ⟨by decide, by decide, by decide⟩ (by decide) written (by decide)
    blanks blank "handler" none

end EntryPoint

end FunctionBundler
