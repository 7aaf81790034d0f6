/-
Module: FunctionBundler.Proofs.Parameters.Fields
Purpose: Which values describe parameters, what is wrong with the others, and what does not matter.
Trusted boundary: none
Main exports:
  Value.FirstUnder, Value.LastUnder, Parameters.Describes, Parameters.FirstFault,
  Parameters.Varies, Parameters.ofValue_map_eq_error_iff, Parameters.ofValue_of_varies,
  Parameters.ofBytes_eq_ofValue_reverse, Parameters.ofValue_ofBytes_exact
-/
import FunctionBundler.Proofs.Codec.Grammar
import FunctionBundler.Proofs.Entry.Metadata
import FunctionBundler.Proofs.Fallible
import Mathlib.Logic.Relation

namespace FunctionBundler

/-!
Parameters are described by what stands under four texts, and by nothing else.  Which
entry stands under a repeated text depends on the way: a value is asked for the first
one, but reading bytes merges repeated keys into the last one before it asks.  So what
parameters are and what is wrong with them is said once, for any way of finding a value
under a text.  Of such a value only its text and its number are looked at, and from that
follows what may change without a difference.
-/

namespace Value

/-! ### Entries under a text -/

/-- The first entry under a text has this value. -/
def FirstUnder (entries : List (Value × Value)) (key : String) (value : Value) : Prop :=
  ∃ before after, entries = before ++ (.text key, value) :: after ∧
    ∀ entry ∈ before, entry.1 ≠ .text key

/-- The last entry under a text has this value. -/
def LastUnder (entries : List (Value × Value)) (key : String) (value : Value) : Prop :=
  ∃ before after, entries = before ++ (.text key, value) :: after ∧
    ∀ entry ∈ after, entry.1 ≠ .text key

private theorem firstUnder_iff {entries : List (Value × Value)} {key : String} {value : Value} :
    FirstUnder entries key value ↔ entries.lookup (.text key) = some value := by
  rw [List.lookup_eq_some_iff]
  simp only [FirstUnder, bne_iff_ne, ne_comm]

private theorem firstUnder_reverse_iff {entries : List (Value × Value)} {key : String}
    {value : Value} :
    FirstUnder entries.reverse key value ↔ LastUnder entries key value := by
  constructor
  · intro found
    obtain ⟨before, after, split, fresh⟩ := found
    refine ⟨after.reverse, before.reverse, ?_, fun entry member => ?_⟩
    · rw [← List.reverse_reverse entries, split]
      simp
    · exact fresh entry (List.mem_reverse.mp member)
  · intro found
    obtain ⟨before, after, rfl, fresh⟩ := found
    refine ⟨after.reverse, before.reverse, by simp, fun entry member => ?_⟩
    exact fresh entry (List.mem_reverse.mp member)

/-! ### Texts and numbers -/

/-- An integer of either width has this number. -/
inductive Number : Value → Nat → Prop where
  | word32 (number : UInt32) : Number (.word32 number) number.toNat
  | word64 (number : UInt64) : Number (.word64 number) number.toNat

private theorem asNat?_eq_some_iff {value : Value} {number : Nat} :
    value.asNat? = some number ↔ value.Number number := by
  constructor
  · intro read
    cases value with
    | word32 | word64 =>
        cases read
        constructor
    | text | array | map => cases read
  · intro carries
    cases carries <;> rfl

private theorem asText?_eq_some_iff {value : Value} {content : String} :
    value.asText? = some content ↔ value = .text content := by
  cases value <;> simp [asText?]

/-- What a field is read from: the text and the number of a value, if it has them. -/
def seen (value : Value) : Option String × Option Nat :=
  (value.asText?, value.asNat?)

private theorem seen_normalize (value : Value) : value.normalize.seen = value.seen := by
  cases value with
  | word32 | word64 | text => rfl
  | array items =>
      rw [normalize_array]
      rfl
  | map entries =>
      rw [normalize_map]
      rfl

/-- What is seen of the entries under a text. -/
def seenUnder (entries : List (Value × Value)) (key : String) :
    List (Option String × Option Nat) :=
  (entries.filter fun entry => entry.1 = .text key).map fun entry => entry.2.seen

section seenUnder

variable {entries : List (Value × Value)} {key : String}

private theorem seenUnder_append (before after : List (Value × Value)) (key : String) :
    seenUnder (before ++ after) key = seenUnder before key ++ seenUnder after key := by
  rw [seenUnder, List.filter_append, List.map_append]
  rfl

private theorem seenUnder_cons_of_ne {entry : Value × Value} (other : entry.1 ≠ .text key)
    (entries : List (Value × Value)) :
    seenUnder (entry :: entries) key = seenUnder entries key := by
  rw [seenUnder, List.filter_cons_of_neg (by simpa using other)]
  rfl

private theorem seenUnder_cons_congr {name value other : Value} (same : value.seen = other.seen)
    (entries : List (Value × Value)) (key : String) :
    seenUnder ((name, value) :: entries) key = seenUnder ((name, other) :: entries) key := by
  simp only [seenUnder, List.filter_cons]
  split
  · simp [same]
  · rfl

private theorem head?_seenUnder (entries : List (Value × Value)) (key : String) :
    (seenUnder entries key).head? = (entries.lookup (.text key)).map seen := by
  rw [← get?_map, get?, seenUnder, List.head?_map, List.head?_filter, Option.map_map]
  rfl

private theorem seenUnder_map_normalizeEntry (entries : List (Value × Value)) (key : String) :
    seenUnder (entries.map normalizeEntry) key = seenUnder entries key := by
  induction entries with
  | nil => rfl
  | cons entry entries ih =>
      rw [List.map_cons]
      by_cases under : entry.1 = .text key
      · obtain ⟨name, value⟩ := entry
        cases under
        have first : seenUnder ((.text key, value.normalize) :: entries.map normalizeEntry) key =
            seenUnder ((.text key, value) :: entries.map normalizeEntry) key :=
          seenUnder_cons_congr (seen_normalize value) _ key
        refine first.trans ?_
        rw [← List.singleton_append, seenUnder_append, ih, ← seenUnder_append]
        rfl
      · have other : (normalizeEntry entry).1 ≠ .text key :=
          fun same => under (normalize_eq_text_iff.mp same)
        rw [seenUnder_cons_of_ne other, seenUnder_cons_of_ne under, ih]

/-- Under a key that is not repeated there is at most one entry to see. -/
theorem length_seenUnder_le (unique : (entries.map (·.1)).Nodup) (key : String) :
    (seenUnder entries key).length ≤ 1 := by
  let under := entries.filter fun entry => entry.1 = .text key
  have nodup : (under.map (·.1)).Nodup :=
    (List.filter_sublist.map _).nodup unique
  have alike : ∀ name ∈ under.map (·.1), name = .text key := by
    intro name member
    obtain ⟨entry, listed, rfl⟩ := List.mem_map.mp member
    exact of_decide_eq_true (List.mem_filter.mp listed).2
  rw [List.eq_replicate_of_mem alike, List.nodup_replicate, List.length_map] at nodup
  rwa [seenUnder, List.length_map]

end seenUnder

/-! ### Widths -/

/-- One integer somewhere in a value is written in the other width. -/
inductive Switches : Value → Value → Prop where
  | widen (number : UInt32) : Switches (.word32 number) (.word64 number.toUInt64)
  | narrow (number : UInt32) : Switches (.word64 number.toUInt64) (.word32 number)
  | item {value other : Value} (before after : List Value) (switches : Switches value other) :
      Switches (.array (before ++ value :: after)) (.array (before ++ other :: after))
  | key {key other : Value} (before after : List (Value × Value)) (value : Value)
      (switches : Switches key other) :
      Switches (.map (before ++ (key, value) :: after)) (.map (before ++ (other, value) :: after))
  | content {value other : Value} (before after : List (Value × Value)) (key : Value)
      (switches : Switches value other) :
      Switches (.map (before ++ (key, value) :: after)) (.map (before ++ (key, other) :: after))

private theorem Switches.seen_eq {value other : Value} (switches : Switches value other) :
    value.seen = other.seen := by
  cases switches with
  | widen number | narrow number => simp [seen, asText?, asNat?]
  | item | key | content => rfl

private theorem Switches.ne_text {value other : Value} (switches : Switches value other)
    (content : String) : value ≠ .text content ∧ other ≠ .text content := by
  cases switches <;> exact ⟨nofun, nofun⟩

end Value

namespace Parameters

open Value

/-! ### What values say -/

/-- A value is what a field of parameters says: a text, or a number that the platform accepts. -/
def Tells (parameters : Parameters) (value : Value) : Parameter → Prop
  | .identifier => value = .text parameters.identifier
  | .memory => value.Number parameters.memory ∧ parameters.memory ≤ 2147483647
  | .timeout => value.Number parameters.timeout ∧ parameters.timeout ≤ 2147483647
  | .ephemeralStorage =>
      value.Number parameters.ephemeralStorage ∧ parameters.ephemeralStorage ≤ 2147483647

/-- A value is of the kind that a field asks for. -/
def Fitting (value : Value) : Parameter → Prop
  | .identifier => ∃ content, value = .text content
  | .memory | .timeout | .ephemeralStorage => ∃ number, value.Number number ∧ number ≤ 2147483647

/-- The values found under the texts of all fields are those of parameters. -/
def Describes (finds : String → Value → Prop) (parameters : Parameters) : Prop :=
  ∀ parameter : Parameter, ∃ value, finds parameter.key value ∧ parameters.Tells value parameter

/-- What is wrong with a field, given how values are found. -/
inductive Faulty (finds : String → Value → Prop) (parameter : Parameter) : Fault → Prop where
  | missing (absent : ∀ value, ¬finds parameter.key value) :
      Faulty finds parameter (.missing parameter)
  | wrongKind {value : Value} (found : finds parameter.key value)
      (unfit : ¬Fitting value parameter) : Faulty finds parameter (.wrongKind parameter)

/-- What is wrong with the first of these fields that is not as it should be. -/
def FirstFault (finds : String → Value → Prop) (fields : List Parameter) (fault : Fault) : Prop :=
  ∃ before parameter after, fields = before ++ parameter :: after ∧
    (∀ earlier ∈ before, ∃ value, finds earlier.key value ∧ Fitting value earlier) ∧
    Faulty finds parameter fault

variable {finds : String → Value → Prop} {entries : List (Value × Value)} {fault : Fault}
  {parameter : Parameter}

private theorem not_firstFault_nil : ¬FirstFault finds [] fault := by
  intro faulty
  obtain ⟨before, field, after, split, -⟩ := faulty
  simp at split

private theorem firstFault_cons_iff {later : List Parameter} :
    FirstFault finds (parameter :: later) fault ↔
      Faulty finds parameter fault ∨
        (∃ value, finds parameter.key value ∧ Fitting value parameter) ∧
          FirstFault finds later fault := by
  constructor
  · intro first
    obtain ⟨before, field, after, split, sound, faulty⟩ := first
    cases before with
    | nil =>
        cases split
        exact Or.inl faulty
    | cons earlier before =>
        cases split
        rw [List.forall_mem_cons] at sound
        exact Or.inr ⟨sound.1, before, field, after, rfl, sound.2, faulty⟩
  · intro cases
    rcases cases with faulty | ⟨sound, before, field, after, rfl, earlier, faulty⟩
    · exact ⟨[], parameter, later, rfl, List.forall_mem_nil _, faulty⟩
    · exact ⟨parameter :: before, field, after, rfl, List.forall_mem_cons.mpr ⟨sound, earlier⟩,
        faulty⟩

/-! ### Reading one field -/

private theorem platformInteger?_eq_some_iff {value : Value} {number : Nat} :
    platformInteger? value = some number ↔ value.Number number ∧ number ≤ 2147483647 := by
  rw [platformInteger?, Option.filter_eq_some_iff, asNat?_eq_some_iff, decide_eq_true_iff]
  rfl

section field

variable {α : Type} {view : Value → Option α}

private theorem field_eq_ok_iff {result : α} :
    field (.map entries) parameter view = .ok result ↔
      ∃ value, FirstUnder entries parameter.key value ∧ view value = some result := by
  simp only [firstUnder_iff]
  rw [field, get?_map]
  cases entries.lookup (.text parameter.key) with
  | none => simp
  | some value => cases viewed : view value <;> simp [viewed]

private theorem field_eq_error_iff
    (fits : ∀ value, (∃ result, view value = some result) ↔ Fitting value parameter) :
    field (.map entries) parameter view = .error fault ↔
      Faulty (FirstUnder entries) parameter fault := by
  rw [field, get?_map]
  cases found : entries.lookup (.text parameter.key) with
  | none =>
      have absent (value : Value) : ¬FirstUnder entries parameter.key value := by
        rw [firstUnder_iff, found]
        intro same
        cases same
      constructor
      · intro failed
        cases failed
        exact .missing absent
      · intro faulty
        cases faulty with
        | missing => rfl
        | wrongKind present => exact absurd present (absent _)
  | some value =>
      have present : FirstUnder entries parameter.key value := firstUnder_iff.mpr found
      dsimp only
      cases viewed : view value with
      | none =>
          have unfit : ¬Fitting value parameter := by
            rw [← fits, viewed]
            simp
          constructor
          · intro failed
            cases failed
            exact .wrongKind present unfit
          · intro faulty
            cases faulty with
            | missing absent => exact absurd present (absent value)
            | wrongKind => rfl
      | some result =>
          have fitting : Fitting value parameter := (fits value).mp ⟨result, viewed⟩
          constructor
          · intro failed
            cases failed
          · intro faulty
            cases faulty with
            | missing absent => exact absurd present (absent value)
            | wrongKind other unfit =>
                have same := Option.some.inj (found.symm.trans (firstUnder_iff.mp other))
                exact absurd (same ▸ fitting) unfit

/-- Reading fails at a field, or reads it and fails later. -/
theorem field_bind_eq_error_iff {β : Type} {next : α → Except Fault β} {later : List Parameter}
    (fits : ∀ value, (∃ result, view value = some result) ↔ Fitting value parameter)
    (rest : ∀ result, next result = .error fault ↔ FirstFault (FirstUnder entries) later fault) :
    field (.map entries) parameter view >>= next = .error fault ↔
      FirstFault (FirstUnder entries) (parameter :: later) fault := by
  rw [bind_eq_error_iff, field_eq_error_iff fits, firstFault_cons_iff]
  refine or_congr_right ?_
  constructor
  · intro read
    obtain ⟨result, first, failed⟩ := read
    obtain ⟨value, found, viewed⟩ := field_eq_ok_iff.mp first
    exact ⟨⟨value, found, (fits value).mp ⟨result, viewed⟩⟩, (rest result).mp failed⟩
  · intro sound
    obtain ⟨⟨value, found, fitting⟩, failed⟩ := sound
    obtain ⟨result, viewed⟩ := (fits value).mpr fitting
    exact ⟨result, field_eq_ok_iff.mpr ⟨value, found, viewed⟩, (rest result).mpr failed⟩

end field

/-! ### Reading all fields -/

private theorem ofValue_map_eq_ok_iff {parameters : Parameters} :
    ofValue (.map entries) = .ok parameters ↔ Describes (FirstUnder entries) parameters := by
  simp only [ofValue, bind_eq_ok_iff, field_eq_ok_iff, asText?_eq_some_iff,
    platformInteger?_eq_some_iff]
  constructor
  · intro read
    obtain ⟨_, identifier, _, memory, _, timeout, _, ephemeralStorage, ⟨⟩⟩ := read
    intro parameter
    cases parameter with
    | identifier => exact identifier
    | memory => exact memory
    | timeout => exact timeout
    | ephemeralStorage => exact ephemeralStorage
  · intro described
    exact ⟨_, described .identifier, _, described .memory, _, described .timeout, _,
      described .ephemeralStorage, rfl⟩

/-- The first fault in the order of the parameters decides. -/
theorem ofValue_map_eq_error_iff :
    ofValue (.map entries) = .error fault ↔
      FirstFault (FirstUnder entries) Parameter.all fault := by
  have text (value : Value) :
      (∃ content, value.asText? = some content) ↔ Fitting value .identifier :=
    exists_congr fun _ => asText?_eq_some_iff
  have integer (value : Value) : (∃ number, platformInteger? value = some number) ↔
      ∃ number, value.Number number ∧ number ≤ 2147483647 :=
    exists_congr fun _ => platformInteger?_eq_some_iff
  refine field_bind_eq_error_iff text fun identifier => ?_
  refine field_bind_eq_error_iff integer fun memory => ?_
  refine field_bind_eq_error_iff integer fun timeout => ?_
  refine field_bind_eq_error_iff integer fun ephemeralStorage => ?_
  exact ⟨nofun, fun first => absurd first not_firstFault_nil⟩

/-! ### What does not matter -/

/-- What a field comes to by what is seen of the value that it is read from, if there is one. -/
def fieldOfSeen {α : Type} (parameter : Parameter) (pick : Option String × Option Nat → Option α) :
    Option (Option String × Option Nat) → Except Fault α
  | none => .error (.missing parameter)
  | some seen => (pick seen).elim (.error (.wrongKind parameter)) .ok

private theorem field_eq_of_seen {α : Type} (pick : Option String × Option Nat → Option α)
    {varied : List (Value × Value)}
    (same : (seenUnder entries parameter.key).head? = (seenUnder varied parameter.key).head?) :
    field (.map entries) parameter (fun value => pick value.seen) =
      field (.map varied) parameter (fun value => pick value.seen) := by
  have read (listed : List (Value × Value)) :
      field (.map listed) parameter (fun value => pick value.seen) =
        fieldOfSeen parameter pick (seenUnder listed parameter.key).head? := by
    rw [field, get?_map, head?_seenUnder]
    cases listed.lookup (.text parameter.key) with
    | none => rfl
    | some value =>
        dsimp only [Option.map_some, fieldOfSeen]
        cases pick value.seen <;> rfl
  rw [read, read, same]

/-- Maps of which the same is seen describe the same. -/
theorem ofValue_eq_of_seen {varied : List (Value × Value)}
    (same : ∀ parameter : Parameter,
      (seenUnder entries parameter.key).head? = (seenUnder varied parameter.key).head?) :
    ofValue (.map entries) = ofValue (.map varied) := by
  have text : Value.asText? = fun value => value.seen.1 := rfl
  have integer : platformInteger? = fun value => value.seen.2.filter (· ≤ largest) := rfl
  simp only [ofValue]
  rw [text, integer, field_eq_of_seen Prod.fst (same .identifier)]
  simp only [field_eq_of_seen (fun seen => seen.2.filter (· ≤ largest)) (same _)]

/-- One change to a list of entries that leaves alone what the four texts lead to, if no key is
repeated: reordering, an entry under any other key added or removed, or the width of one integer. -/
inductive Varies : List (Value × Value) → List (Value × Value) → Prop where
  | reordered {entries varied : List (Value × Value)} (order : entries.Perm varied) :
      Varies entries varied
  | added (before after : List (Value × Value)) {entry : Value × Value}
      (other : ∀ parameter : Parameter, entry.1 ≠ .text parameter.key) :
      Varies (before ++ after) (before ++ entry :: after)
  | removed (before after : List (Value × Value)) {entry : Value × Value}
      (other : ∀ parameter : Parameter, entry.1 ≠ .text parameter.key) :
      Varies (before ++ entry :: after) (before ++ after)
  | switchedKey (before after : List (Value × Value)) {key other : Value} (value : Value)
      (switches : Switches key other) :
      Varies (before ++ (key, value) :: after) (before ++ (other, value) :: after)
  | switched (before after : List (Value × Value)) (key : Value) {value other : Value}
      (switches : Switches value other) :
      Varies (before ++ (key, value) :: after) (before ++ (key, other) :: after)

/-- A change leaves what is seen under the four texts as it is, up to the order. -/
theorem Varies.seenUnder_perm {varied : List (Value × Value)} (varies : Varies entries varied)
    (parameter : Parameter) :
    (seenUnder entries parameter.key).Perm (seenUnder varied parameter.key) := by
  cases varies with
  | reordered order => exact (order.filter _).map _
  | added before after other | removed before after other =>
      rw [seenUnder_append, seenUnder_append, seenUnder_cons_of_ne (other parameter)]
  | switchedKey before after value switches =>
      have apart := switches.ne_text parameter.key
      rw [seenUnder_append, seenUnder_append, seenUnder_cons_of_ne apart.1,
        seenUnder_cons_of_ne apart.2]
  | switched before after key switches =>
      rw [seenUnder_append, seenUnder_append, seenUnder_cons_congr switches.seen_eq]

/-- However often a map without repeated keys is changed, it describes the same. -/
theorem ofValue_of_varies {varied : List (Value × Value)} (unique : (entries.map (·.1)).Nodup)
    (varies : Relation.ReflTransGen Varies entries varied) :
    ofValue (.map varied) = ofValue (.map entries) := by
  refine ofValue_eq_of_seen fun parameter => ?_
  have perm : (seenUnder varied parameter.key).Perm (seenUnder entries parameter.key) := by
    induction varies with
    | refl => exact .refl _
    | tail _ step ih => exact (step.seenUnder_perm parameter).symm.trans ih
  have alone := length_seenUnder_le unique parameter.key
  -- Of at most one entry there is only one order.
  match single : seenUnder entries parameter.key with
  | [] => rw [single] at perm; rw [perm.eq_nil]
  | [seen] => rw [single] at perm; rw [List.perm_singleton.mp perm]
  | _ :: _ :: _ => rw [single] at alone; simp at alone

/-! ### Bytes -/

/-- Bytes are read as the map that they start with, asked from its end. -/
theorem ofBytes_eq_ofValue_reverse {blob : Bytes} {size : Nat}
    (starts : Codec.StartsWith blob size (.map entries)) :
    ofBytes blob = ofValue (.map entries.reverse) := by
  have read : Codec.decode blob = .ok (Value.map entries).normalize :=
    Codec.decode_eq_ok_iff.mpr ⟨_, _, starts.fits, rfl, starts.append_eq.symm⟩
  rw [ofBytes, read]
  change ofValue (Value.map entries).normalize = _
  rw [normalize_map]
  refine ofValue_eq_of_seen fun parameter => ?_
  rw [head?_seenUnder, lookup_mergeEntries, ← head?_seenUnder, ← List.map_reverse,
    seenUnder_map_normalizeEntry]

private theorem finds_reverse_eq : FirstUnder entries.reverse = LastUnder entries := by
  funext key value
  exact propext firstUnder_reverse_iff

/-- A value describes parameters exactly if it is a map and the first entries under the four
texts are those of the parameters, in numbers of either width that the platform accepts; what is
wrong with any other value is that it is no map, or what is wrong with the first faulty field.
A map without repeated keys can be reordered, be given other entries or deprived of them, and
have the widths of its integers changed, any number of times, and is read in the same way.
Bytes that start with a map are read by its last entries under the four texts instead. -/
theorem ofValue_ofBytes_exact :
    (∀ value parameters, ofValue value = .ok parameters ↔
      ∃ entries, value = .map entries ∧ Describes (FirstUnder entries) parameters) ∧
    (∀ value fault, ofValue value = .error fault ↔
      ((∀ entries, value ≠ .map entries) ∧ fault = .notMap) ∨
        ∃ entries, value = .map entries ∧
          FirstFault (FirstUnder entries)
            [.identifier, .memory, .timeout, .ephemeralStorage] fault) ∧
    (∀ entries varied, (entries.map (·.1)).Nodup → Relation.ReflTransGen Varies entries varied →
      ofValue (.map varied) = ofValue (.map entries)) ∧
    ∀ blob size entries, Codec.StartsWith blob size (.map entries) →
      (∀ parameters, ofBytes blob = .ok parameters ↔ Describes (LastUnder entries) parameters) ∧
      ∀ fault, ofBytes blob = .error fault ↔
        FirstFault (LastUnder entries)
          [.identifier, .memory, .timeout, .ephemeralStorage] fault := by
  refine ⟨fun value parameters => ?_, fun value fault => ?_,
    fun entries varied unique varies => ofValue_of_varies unique varies,
    fun blob size entries starts => ?_⟩
  · cases value with
    | map entries => simpa using ofValue_map_eq_ok_iff
    | word32 | word64 | text | array => simp [ofValue]
  · cases value with
    | map entries =>
        have failed : ofValue (.map entries) = .error fault ↔
            FirstFault (FirstUnder entries) Parameter.all fault := ofValue_map_eq_error_iff
        simpa [Parameter.all] using failed
    | word32 | word64 | text | array => simp [ofValue, eq_comm]
  · rw [ofBytes_eq_ofValue_reverse starts, ← finds_reverse_eq]
    exact ⟨fun _ => ofValue_map_eq_ok_iff, fun _ => ofValue_map_eq_error_iff⟩

/-- A map that repeats `memory`, with a key that is no text between: as bytes it is read by the
last number, and without the repetition the order and the width of the number do not matter. -/
theorem ofValue_ofBytes_exact_repeated :
    let memory : List (Value × Value) := [(.text "memory", .word32 128)]
    let fields : List (Value × Value) :=
      [(.text "identifier", .text "handler"), (.text "timeout", .word64 30), (.map [], .array []),
        (.text "ephemeral_storage", .word32 512)]
    let repeated := memory ++ fields ++ [(.text "memory", .word64 256)]
    ofBytes (Codec.encode (.map repeated)) = .ok ⟨"handler", 256, 30, 512⟩ ∧
      ofValue (.map (fields ++ [(.text "memory", .word64 128)])) =
        ofValue (.map (memory ++ fields)) := by
  intro memory fields repeated
  constructor
  · have encodable : Codec.Encodable (.map repeated) := by
      simp [repeated, fields, memory, Codec.Encodable, Codec.Encodable.EncodableEntries,
        Codec.Encodable.EncodableItems]
      decide
    have starts := Codec.startsWith_encode ⟨by decide, encodable⟩ []
    rw [List.append_nil] at starts
    refine ((ofValue_ofBytes_exact.2.2.2 _ _ _ starts).1 _).mpr fun parameter => ?_
    cases parameter with
    | identifier => exact ⟨_, ⟨memory, _, rfl, by simp [Parameter.key]⟩, rfl⟩
    | memory => exact ⟨_, ⟨memory ++ fields, [], rfl, by simp⟩, .word64 256, by decide⟩
    | timeout =>
        exact ⟨_, ⟨memory ++ fields.take 1, _, rfl, by simp [Parameter.key]⟩, .word64 30, by decide⟩
    | ephemeralStorage =>
        exact ⟨_, ⟨memory ++ fields.take 3, _, rfl, by simp [Parameter.key]⟩, .word32 512,
          by decide⟩
  · have unique : ((memory ++ fields).map (·.1)).Nodup := by simp [memory, fields]
    have widened : Varies (memory ++ fields) ([(.text "memory", .word64 128)] ++ fields) :=
      .switched [] fields (.text "memory") (.widen 128)
    exact ofValue_ofBytes_exact.2.2.1 _ _ unique
      (.tail (.single widened) (.reordered List.perm_append_comm))

end Parameters

end FunctionBundler
