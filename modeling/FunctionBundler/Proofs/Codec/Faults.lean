/-
Module: FunctionBundler.Proofs.Codec.Faults
Purpose: Where the reader of values fails, and why, as a statement about the bytes.
Trusted boundary: none
Main exports:
  Codec.Enters, Codec.Opens, Codec.Fails, Codec.takeValue_eq_error_iff, Codec.decode_eq_error_iff
-/
import FunctionBundler.Proofs.Codec.RoundTrip

namespace FunctionBundler.Codec

/-!
A reading that fails has read everything before the place of the fault: a row of arrays
and maps that are still open, each with the members before the one in which the next
is opened.  `Opens` is the grammar of such beginnings, and `Fails` says what may be wrong
with the value that is due behind one.  The equivalence is put together from the members
to the arrays and maps around them, as the reader is.
-/

/-! ### Fields and rows -/

section

variable {start : Cursor} {fault : Fault}

/-- A failing chain of readings fails in its first reading or behind it. -/
theorem bind_eq_error_iff {α β : Type} {first : Except Fault (α × Cursor)}
    {next : α × Cursor → Except Fault β} :
    (first >>= next) = .error fault ↔ first = .error fault ∨
      ∃ middle after, first = .ok (middle, after) ∧ next (middle, after) = .error fault := by
  rw [FunctionBundler.bind_eq_error_iff, Prod.exists]

/-- A last step that always gives a result does not fail. -/
theorem closing_eq_error_iff {α β : Type} {first : Except Fault α} {close : α → Except Fault β}
    (total : ∀ result, ∃ closed, close result = .ok closed) :
    (first >>= close) = .error fault ↔ first = .error fault := by
  rw [FunctionBundler.bind_eq_error_iff]
  refine or_iff_left ?_
  rintro ⟨result, -, failed⟩
  obtain ⟨closed, same⟩ := total result
  cases same.symm.trans failed

/-- Bytes cannot be taken exactly if fewer of them are left. -/
theorem take_eq_error_iff {count : Nat} :
    take count start = .error fault ↔
      start.rest.length < count ∧ fault = .truncated count start.offset start.rest.length := by
  have short : (start.rest.take count).length < count ↔ start.rest.length < count := by
    rw [List.length_take]
    omega
  simp only [take, short]
  split
  case isTrue missing => simp [missing, eq_comm]
  case isFalse enough => simp [enough]

private theorem takeNat_eq_error_iff {width : Nat} :
    takeNat width start = .error fault ↔
      start.rest.length < width ∧ fault = .truncated width start.offset start.rest.length := by
  rw [takeNat]
  exact (closing_eq_error_iff fun _ => ⟨_, rfl⟩).trans take_eq_error_iff

section

variable {ρ α : Type} {one : Cursor → Except Fault (α × Cursor)} {Form : ρ → Prop}
  {spell : ρ → Bytes} {meaning : ρ → α}

/-- A repetition fails at a member, behind those before it. -/
theorem takeMany_eq_error_iff (recognizes : Recognizes one Form spell meaning) {count : Nat} :
    takeMany one count start = .error fault ↔
      ∃ (raws : List ρ) (place : Cursor), raws.length < count ∧ (∀ raw ∈ raws, Form raw) ∧
        start.Spans (raws.flatMap spell) place ∧ one place = .error fault := by
  induction count generalizing start with
  | zero => simp [takeMany]
  | succ count ih =>
      rw [takeMany, bind_eq_error_iff]
      constructor
      · rintro (failed | ⟨_, middle, read, failed⟩)
        · exact ⟨[], start, Nat.succ_pos count, List.forall_mem_nil _,
            Cursor.spans_nil_iff.mpr rfl, failed⟩
        · obtain ⟨raw, form, rfl, first⟩ := (recognizes _ _ _).mp read
          obtain ⟨raws, place, fewer, forms, spans, failed⟩ :=
            ih.mp ((closing_eq_error_iff fun _ => ⟨_, rfl⟩).mp failed)
          exact ⟨raw :: raws, place, Nat.succ_lt_succ fewer,
            List.forall_mem_cons.mpr ⟨form, forms⟩,
            Cursor.spans_append_iff.mpr ⟨middle, first, spans⟩, failed⟩
      · rintro ⟨raws, place, fewer, forms, spans, failed⟩
        cases raws with
        | nil =>
            cases Cursor.spans_nil_iff.mp spans
            exact Or.inl failed
        | cons raw raws =>
            obtain ⟨form, forms⟩ := List.forall_mem_cons.mp forms
            obtain ⟨middle, first, spans⟩ := Cursor.spans_append_iff.mp spans
            refine Or.inr ⟨_, middle, (recognizes _ _ _).mpr ⟨raw, form, rfl, first⟩, ?_⟩
            exact (closing_eq_error_iff fun _ => ⟨_, rfl⟩).mpr
              (ih.mpr ⟨raws, place, Nat.lt_of_succ_lt_succ fewer, forms, spans, failed⟩)

/-- A pair fails in its first part, or in its second behind the first. -/
theorem takePair_eq_error_iff (recognizes : Recognizes one Form spell meaning) :
    takePair one start = .error fault ↔ one start = .error fault ∨
      ∃ raw place, Form raw ∧ start.Spans (spell raw) place ∧ one place = .error fault := by
  rw [takePair, bind_eq_error_iff]
  refine or_congr_right ⟨?_, ?_⟩
  · rintro ⟨_, place, read, failed⟩
    obtain ⟨raw, form, rfl, spans⟩ := (recognizes _ _ _).mp read
    exact ⟨raw, place, form, spans, (closing_eq_error_iff fun _ => ⟨_, rfl⟩).mp failed⟩
  · rintro ⟨raw, place, form, spans, failed⟩
    exact ⟨_, place, (recognizes _ _ _).mpr ⟨raw, form, rfl, spans⟩,
      (closing_eq_error_iff fun _ => ⟨_, rfl⟩).mpr failed⟩

/-- A counted row fails at its count, or at a member of a row that has it. -/
theorem counted_eq_error_iff {β : Type} (recognizes : Recognizes one Form spell meaning)
    (close : List α → β) :
    (do
      let (count, members) ← takeNat 4 start
      let (results, rest) ← Codec.takeMany one count members
      return (close results, rest)) = .error fault ↔
      takeNat 4 start = .error fault ∨
        ∃ (raws : List ρ) (count : Nat) (place : Cursor), count < 2 ^ 32 ∧ raws.length < count ∧
          (∀ raw ∈ raws, Form raw) ∧
          start.Spans (Bytes.bigEndian 4 count ++ raws.flatMap spell) place ∧
          one place = .error fault := by
  rw [bind_eq_error_iff]
  refine or_congr_right ⟨?_, ?_⟩
  · rintro ⟨_, members, countRead, failed⟩
    obtain ⟨count, fits, rfl, countSpans⟩ := (recognizes_takeNat 4 _ _ _).mp countRead
    obtain ⟨raws, place, fewer, forms, spans, failed⟩ := (takeMany_eq_error_iff recognizes).mp
      ((closing_eq_error_iff fun _ => ⟨_, rfl⟩).mp failed)
    exact ⟨raws, count, place, fits, fewer, forms,
      Cursor.spans_append_iff.mpr ⟨members, countSpans, spans⟩, failed⟩
  · rintro ⟨raws, count, place, fits, fewer, forms, spans, failed⟩
    obtain ⟨members, countSpans, spans⟩ := Cursor.spans_append_iff.mp spans
    exact ⟨count, members, (recognizes_takeNat 4 _ _ _).mpr ⟨count, fits, rfl, countSpans⟩,
      (closing_eq_error_iff fun _ => ⟨_, rfl⟩).mpr
        ((takeMany_eq_error_iff recognizes).mpr ⟨raws, place, fewer, forms, spans, failed⟩)⟩

end

/-! ### What may be wrong with a value that is due -/

/-- How many bytes the number behind a tag takes: a 64-bit integer eight, and any other integer,
length or count four. -/
def width (tag : UInt8) : Nat :=
  if tag = 1 then 8 else 4

/-- What is wrong with the value that is due at a cursor, its members aside, where so many arrays
and maps may still be opened. -/
inductive Fails (left : Nat) (place : Cursor) : Fault → Prop where
  | untagged (ended : place.rest = []) : Fails left place (.truncated 1 place.offset 0)
  | unknown {tag : UInt8} {fields : Bytes} (tagged : place.rest = tag :: fields)
      (strange : 4 < tag) : Fails left place (.unknownTag tag place.offset)
  | deep {tag : UInt8} {fields : Bytes} (tagged : place.rest = tag :: fields)
      (opens : tag = 3 ∨ tag = 4) (full : left = 0) : Fails left place .tooDeep
  | shortNumber {tag : UInt8} {fields : Bytes} (tagged : place.rest = tag :: fields)
      (known : tag ≤ 4) (room : tag = 3 ∨ tag = 4 → 0 < left) (short : fields.length < width tag) :
      Fails left place (.truncated (width tag) (place.offset + 1) fields.length)
  | shortText {length : Nat} {payload : Bytes} (fits : length < 2 ^ 32)
      (tagged : place.rest = 2 :: (Bytes.bigEndian 4 length ++ payload))
      (short : payload.length < length) :
      Fails left place (.truncated length (place.offset + 5) payload.length)
  | invalid {field behind : Bytes} (fits : field.length < 2 ^ 32)
      (tagged : place.rest = 2 :: (Bytes.bigEndian 4 field.length ++ (field ++ behind)))
      (unreadable : Bytes.text? field = none) :
      Fails left place (.invalidText (place.offset + 5))

private theorem takeText_eq_error_iff :
    takeText start = .error fault ↔
      takeNat 4 start = .error fault ∨
      (∃ length payload, length < 2 ^ 32 ∧ start.rest = Bytes.bigEndian 4 length ++ payload ∧
        payload.length < length ∧ fault = .truncated length (start.offset + 4) payload.length) ∨
      ∃ field behind, field.length < 2 ^ 32 ∧
        start.rest = Bytes.bigEndian 4 field.length ++ (field ++ behind) ∧
        Bytes.text? field = none ∧ fault = .invalidText (start.offset + 4) := by
  rw [takeText, bind_eq_error_iff]
  refine or_congr_right ⟨?_, ?_⟩
  · rintro ⟨_, payload, lengthRead, failed⟩
    obtain ⟨length, fits, rfl, lengthSpans⟩ := (recognizes_takeNat 4 _ _ _).mp lengthRead
    have offset : payload.offset = start.offset + 4 := by
      rw [lengthSpans.offset, Bytes.length_bigEndian]
    rcases bind_eq_error_iff.mp failed with missing | ⟨field, after, taken, failed⟩
    · obtain ⟨short, rfl⟩ := take_eq_error_iff.mp missing
      exact Or.inl ⟨length, payload.rest, fits, lengthSpans.rest, short, by rw [offset]; rfl⟩
    · obtain ⟨sized, fieldSpans⟩ := take_eq_ok_iff.mp taken
      cases valid : Bytes.text? field with
      | some content => simp [valid, pure, Except.pure] at failed
      | none =>
          simp only [valid, Except.error.injEq] at failed
          subst failed
          refine Or.inr ⟨field, after.rest, sized ▸ fits, ?_, valid, by rw [offset]⟩
          rw [lengthSpans.rest, fieldSpans.rest, sized]
          rfl
  · rintro (⟨length, payload, fits, written, short, rfl⟩ |
      ⟨field, behind, fits, written, unreadable, rfl⟩)
    · have lengthSpans : start.Spans (Bytes.bigEndian 4 length) ⟨start.offset + 4, payload⟩ :=
        ⟨written, by rw [Bytes.length_bigEndian]⟩
      refine ⟨length, _, (recognizes_takeNat 4 _ _ _).mpr ⟨length, fits, rfl, lengthSpans⟩, ?_⟩
      exact bind_eq_error_iff.mpr (Or.inl (take_eq_error_iff.mpr ⟨short, rfl⟩))
    · have lengthSpans : start.Spans (Bytes.bigEndian 4 field.length)
          ⟨start.offset + 4, field ++ behind⟩ := ⟨written, by rw [Bytes.length_bigEndian]⟩
      refine ⟨_, _, (recognizes_takeNat 4 _ _ _).mpr ⟨_, fits, rfl, lengthSpans⟩, ?_⟩
      refine bind_eq_error_iff.mpr (Or.inr ⟨field, _,
        take_eq_ok_iff.mpr ⟨rfl, Cursor.spans_append _ field behind⟩, ?_⟩)
      simp only [unreadable]

private theorem known_cases {tag : UInt8} (known : tag ≤ 4) :
    tag = 0 ∨ tag = 1 ∨ tag = 2 ∨ tag = 3 ∨ tag = 4 := by
  have small : tag.toNat ≤ 4 := UInt8.le_iff_toNat_le.mp known
  simp only [← UInt8.toNat_inj, UInt8.toNat_ofNat]
  omega

private theorem strange_iff {tag : UInt8} :
    4 < tag ↔ tag ≠ 0 ∧ tag ≠ 1 ∧ tag ≠ 2 ∧ tag ≠ 3 ∧ tag ≠ 4 := by
  simp only [UInt8.lt_iff_toNat_lt, ne_eq, ← UInt8.toNat_inj, UInt8.toNat_ofNat]
  omega

/-- The value behind a tag that opens nothing fails as such a value may. -/
theorem takeScalar_eq_error_iff {left : Nat} {tag : UInt8} {place fields : Cursor}
    (spans : place.Spans [tag] fields) (scalar : ¬(tag = 3 ∨ tag = 4)) :
    takeScalar tag place.offset fields = .error fault ↔ Fails left place fault := by
  have tagged : place.rest = tag :: fields.rest := spans.rest
  have offset : fields.offset = place.offset + 1 := spans.offset
  have short {count : Nat} (missing : takeNat count fields = .error fault) (known : tag ≤ 4)
      (sized : width tag = count) : Fails left place fault := by
    obtain ⟨short, rfl⟩ := takeNat_eq_error_iff.mp missing
    subst sized
    rw [offset]
    exact .shortNumber tagged known (fun opens => absurd opens scalar) short
  rw [takeScalar]
  constructor
  · intro failed
    split at failed
    case isTrue isWord32 =>
        subst isWord32
        exact short ((closing_eq_error_iff fun _ => ⟨_, rfl⟩).mp failed) (by decide) rfl
    case isFalse notWord32 =>
        split at failed
        case isTrue isWord64 =>
            subst isWord64
            exact short ((closing_eq_error_iff fun _ => ⟨_, rfl⟩).mp failed) (by decide) rfl
        case isFalse notWord64 =>
            split at failed
            case isTrue isText =>
                subst isText
                rcases takeText_eq_error_iff.mp ((closing_eq_error_iff fun _ => ⟨_, rfl⟩).mp failed)
                  with missing | ⟨length, payload, fits, written, few, rfl⟩ |
                    ⟨field, behind, fits, written, unreadable, rfl⟩
                · exact short missing (by decide) rfl
                · rw [offset]
                  exact .shortText fits (by rw [tagged, written]) few
                · rw [offset]
                  exact .invalid fits (by rw [tagged, written]) unreadable
            case isFalse notText =>
                cases failed
                rw [not_or] at scalar
                exact .unknown tagged
                  (strange_iff.mpr ⟨notWord32, notWord64, notText, scalar.1, scalar.2⟩)
  · intro fails
    cases fails with
    | untagged ended => cases ended.symm.trans tagged
    | unknown other strange =>
        cases tagged.symm.trans other
        obtain ⟨notWord32, notWord64, notText, -⟩ := strange_iff.mp strange
        rw [if_neg notWord32, if_neg notWord64, if_neg notText]
    | deep other opens full =>
        cases tagged.symm.trans other
        exact absurd opens scalar
    | shortNumber other known room few =>
        cases tagged.symm.trans other
        rw [← offset]
        have missing : takeNat (width tag) fields =
            .error (.truncated (width tag) fields.offset fields.rest.length) :=
          takeNat_eq_error_iff.mpr ⟨few, rfl⟩
        rcases known_cases known with rfl | rfl | rfl | opens
        · exact (closing_eq_error_iff fun _ => ⟨_, rfl⟩).mpr missing
        · exact (closing_eq_error_iff fun _ => ⟨_, rfl⟩).mpr missing
        · exact (closing_eq_error_iff fun _ => ⟨_, rfl⟩).mpr
            (takeText_eq_error_iff.mpr (Or.inl missing))
        · exact absurd opens scalar
    | @shortText length payload fits other few =>
        obtain ⟨rfl, written⟩ := List.cons.inj (tagged.symm.trans other)
        refine (closing_eq_error_iff fun _ => ⟨_, rfl⟩).mpr (takeText_eq_error_iff.mpr ?_)
        exact Or.inr (Or.inl ⟨length, payload, fits, written, few, by rw [offset]⟩)
    | @invalid field behind fits other unreadable =>
        obtain ⟨rfl, written⟩ := List.cons.inj (tagged.symm.trans other)
        refine (closing_eq_error_iff fun _ => ⟨_, rfl⟩).mpr (takeText_eq_error_iff.mpr ?_)
        exact Or.inr (Or.inr ⟨field, behind, fits, written, unreadable, by rw [offset]⟩)

end

/-! ### Where a value is due -/

/-- The beginning of an array or map up to one of its members: of a map's entry, its key or its
value.  The members before it are written in full and leave so many levels. -/
inductive Enters (levels : Nat) : Bytes → Prop where
  | item {count : Nat} {items : List Value} (fits : count < 2 ^ 32) (more : items.length < count)
      (read : ∀ item ∈ items, Fits levels item) :
      Enters levels (3 :: (Bytes.bigEndian 4 count ++ items.flatMap encode))
  | key {count : Nat} {entries : List (Value × Value)} (fits : count < 2 ^ 32)
      (more : entries.length < count)
      (read : ∀ entry ∈ entries, Fits levels entry.1 ∧ Fits levels entry.2) :
      Enters levels (4 :: (Bytes.bigEndian 4 count ++ entries.flatMap spellEntry))
  | value {count : Nat} {entries : List (Value × Value)} {key : Value} (fits : count < 2 ^ 32)
      (more : entries.length < count)
      (read : ∀ entry ∈ entries, Fits levels entry.1 ∧ Fits levels entry.2)
      (keyRead : Fits levels key) :
      Enters levels (4 :: (Bytes.bigEndian 4 count ++ entries.flatMap spellEntry ++ encode key))

/-- The beginning of a value up to a place where a value is due, with `depth` arrays and maps open
there of at most `levels`. -/
inductive Opens : (levels depth : Nat) → Bytes → Prop where
  | here (levels : Nat) : Opens levels 0 []
  | inside {levels depth : Nat} {head inner : Bytes} (enters : Enters levels head)
      (opens : Opens levels depth inner) : Opens (levels + 1) (depth + 1) (head ++ inner)

/-- An opening goes no deeper than there are levels. -/
theorem Opens.depth_le {levels depth : Nat} {before : Bytes} (opens : Opens levels depth before) :
    depth ≤ levels := by
  induction opens with
  | here levels => exact Nat.zero_le levels
  | inside _ _ ih => exact Nat.succ_le_succ ih

section

variable {left offset : Nat} {tag : UInt8} {fields : Bytes} {fault : Fault}

private theorem fails_ended_iff :
    Fails left ⟨offset, []⟩ fault ↔ fault = .truncated 1 offset 0 := by
  constructor
  · intro fails
    cases fails with
    | untagged => rfl
    | unknown tagged | deep tagged | shortNumber tagged | shortText _ tagged | invalid _ tagged =>
        cases tagged
  · rintro rfl
    exact .untagged rfl

/-- An array or map fails by itself if none may be opened, and else for want of its count. -/
theorem fails_opening_iff (opens : tag = 3 ∨ tag = 4) :
    Fails left ⟨offset, tag :: fields⟩ fault ↔
      (left = 0 ∧ fault = .tooDeep) ∨
        (0 < left ∧ takeNat 4 ⟨offset + 1, fields⟩ = .error fault) := by
  have sized : width tag = 4 := by rcases opens with rfl | rfl <;> rfl
  have known : tag ≤ 4 := by rcases opens with rfl | rfl <;> decide
  rw [takeNat_eq_error_iff]
  constructor
  · intro fails
    cases fails with
    | untagged ended => cases ended
    | unknown tagged strange =>
        cases tagged
        exact absurd (UInt8.lt_of_lt_of_le strange known) (UInt8.lt_irrefl 4)
    | deep _ _ full => exact Or.inl ⟨full, rfl⟩
    | shortNumber tagged _ room short =>
        cases tagged
        rw [sized] at short ⊢
        exact Or.inr ⟨room opens, short, rfl⟩
    | shortText _ tagged | invalid _ tagged =>
        cases tagged
        rcases opens with opens | opens <;> cases opens
  · rintro (⟨full, rfl⟩ | ⟨room, short, rfl⟩)
    · exact .deep rfl opens full
    · rw [← sized] at short ⊢
      exact .shortNumber rfl known (fun _ => room) short

private theorem spans_cons_iff {byte : UInt8} {bytes : Bytes} {stop : Cursor} :
    Cursor.Spans ⟨offset, tag :: fields⟩ (byte :: bytes) stop ↔
      tag = byte ∧ Cursor.Spans ⟨offset + 1, fields⟩ bytes stop := by
  constructor
  · rintro ⟨written, reached⟩
    obtain ⟨same, others⟩ := List.cons.inj written
    exact ⟨same, others, reached.trans (Nat.add_right_comm offset bytes.length 1)⟩
  · rintro ⟨rfl, written, reached⟩
    exact ⟨congrArg (tag :: ·) written,
      reached.trans (Nat.add_right_comm offset 1 bytes.length)⟩

private theorem takeValue_zero_eq_error_iff {start : Cursor} :
    takeValue 0 start = .error fault ↔ Fails 0 start fault := by
  obtain ⟨offset, rest⟩ := start
  cases rest with
  | nil =>
      change Except.error (Fault.truncated 1 offset 0) = .error fault ↔ _
      rw [fails_ended_iff, Except.error.injEq, eq_comm]
  | cons tag fields =>
      change (if tag = 3 ∨ tag = 4 then Except.error Fault.tooDeep
        else takeScalar tag offset ⟨offset + 1, fields⟩) = .error fault ↔ _
      split
      case isTrue opens => simp [fails_opening_iff opens, eq_comm]
      case isFalse scalar =>
          have spans : Cursor.Spans ⟨offset, tag :: fields⟩ [tag] ⟨offset + 1, fields⟩ :=
            ⟨rfl, rfl⟩
          exact takeScalar_eq_error_iff spans scalar

/-- Where a level is left, an array fails for want of its count or at one of its items. -/
theorem takeArray_eq_error_iff {levels : Nat} :
    takeValue (levels + 1) ⟨offset, 3 :: fields⟩ = .error fault ↔
      Fails (levels + 1) ⟨offset, 3 :: fields⟩ fault ∨
      ∃ head place, Enters levels head ∧ Cursor.Spans ⟨offset, 3 :: fields⟩ head place ∧
        takeValue levels place = .error fault := by
  rw [fails_opening_iff (Or.inl rfl)]
  refine (counted_eq_error_iff (recognizes_takeValue levels) Value.array).trans ?_
  constructor
  · rintro (short | ⟨items, count, place, fits, more, read, spans, failed⟩)
    · exact Or.inl (Or.inr ⟨Nat.succ_pos levels, short⟩)
    · exact Or.inr ⟨_, place, .item fits more read, spans_cons_iff.mpr ⟨rfl, spans⟩, failed⟩
  · rintro ((⟨full, -⟩ | ⟨-, short⟩) | ⟨head, place, enters, spans, failed⟩)
    · exact absurd full (Nat.succ_ne_zero levels)
    · exact Or.inl short
    · cases enters with
      | item fits more read =>
          exact Or.inr ⟨_, _, place, fits, more, read, (spans_cons_iff.mp spans).2, failed⟩
      | key | value => cases (spans_cons_iff.mp spans).1

/-- Where a level is left, a map fails for want of its count or at a key or value of its entries. -/
theorem takeMap_eq_error_iff {levels : Nat} :
    takeValue (levels + 1) ⟨offset, 4 :: fields⟩ = .error fault ↔
      Fails (levels + 1) ⟨offset, 4 :: fields⟩ fault ∨
      ∃ head place, Enters levels head ∧ Cursor.Spans ⟨offset, 4 :: fields⟩ head place ∧
        takeValue levels place = .error fault := by
  have members := recognizes_takeValue levels
  rw [fails_opening_iff (Or.inr rfl)]
  refine (counted_eq_error_iff members.takePair
    fun entries => Value.map (Value.mergeEntries entries)).trans ?_
  constructor
  · rintro (short | ⟨entries, count, place, fits, more, read, spans, failed⟩)
    · exact Or.inl (Or.inr ⟨Nat.succ_pos levels, short⟩)
    · rcases (takePair_eq_error_iff members).mp failed with
        failed | ⟨key, behind, keyRead, keySpans, failed⟩
      · exact Or.inr ⟨_, place, .key fits more read, spans_cons_iff.mpr ⟨rfl, spans⟩, failed⟩
      · have enters := Cursor.spans_append_iff.mpr ⟨place, spans, keySpans⟩
        exact Or.inr ⟨_, behind, .value fits more read keyRead,
          spans_cons_iff.mpr ⟨rfl, enters⟩, failed⟩
  · rintro ((⟨full, -⟩ | ⟨-, short⟩) | ⟨head, place, enters, spans, failed⟩)
    · exact absurd full (Nat.succ_ne_zero levels)
    · exact Or.inl short
    · cases enters with
      | item => cases (spans_cons_iff.mp spans).1
      | key fits more read =>
          exact Or.inr ⟨_, _, place, fits, more, read, (spans_cons_iff.mp spans).2,
            (takePair_eq_error_iff members).mpr (Or.inl failed)⟩
      | value fits more read keyRead =>
          obtain ⟨middle, rowSpans, keySpans⟩ :=
            Cursor.spans_append_iff.mp (spans_cons_iff.mp spans).2
          exact Or.inr ⟨_, _, middle, fits, more, read, rowSpans,
            (takePair_eq_error_iff members).mpr (Or.inr ⟨_, place, keyRead, keySpans, failed⟩)⟩

/-- Where a level is left, a value fails before its members, or at one of them. -/
theorem takeValue_succ_eq_error_iff {levels : Nat} {start : Cursor} :
    takeValue (levels + 1) start = .error fault ↔ Fails (levels + 1) start fault ∨
      ∃ head place, Enters levels head ∧ start.Spans head place ∧
        takeValue levels place = .error fault := by
  obtain ⟨offset, rest⟩ := start
  cases rest with
  | nil =>
      change Except.error (Fault.truncated 1 offset 0) = .error fault ↔ _
      rw [fails_ended_iff, Except.error.injEq, eq_comm]
      refine (or_iff_left ?_).symm
      rintro ⟨head, place, enters, ⟨written, -⟩, -⟩
      cases enters <;> cases written
  | cons tag fields =>
      by_cases isArray : tag = 3
      · subst isArray
        exact takeArray_eq_error_iff
      by_cases isMap : tag = 4
      · subst isMap
        exact takeMap_eq_error_iff
      · have spans : Cursor.Spans ⟨offset, tag :: fields⟩ [tag] ⟨offset + 1, fields⟩ := ⟨rfl, rfl⟩
        change (if tag = 3 then _ else if tag = 4 then _ else
          takeScalar tag offset ⟨offset + 1, fields⟩) = .error fault ↔ _
        rw [if_neg isArray, if_neg isMap,
          takeScalar_eq_error_iff spans (not_or.mpr ⟨isArray, isMap⟩)]
        refine (or_iff_left ?_).symm
        rintro ⟨head, place, enters, written, -⟩
        cases enters with
        | item => exact isArray (spans_cons_iff.mp written).1
        | key | value => exact isMap (spans_cons_iff.mp written).1

end

variable {fault : Fault}

/-- Reading a value fails exactly at a place where a value is due and may not be as it is there. -/
theorem takeValue_eq_error_iff {levels : Nat} {start : Cursor} :
    takeValue levels start = .error fault ↔
      ∃ depth before place, Opens levels depth before ∧ start.Spans before place ∧
        Fails (levels - depth) place fault := by
  induction levels generalizing start with
  | zero =>
      rw [takeValue_zero_eq_error_iff]
      constructor
      · intro fails
        exact ⟨0, [], start, .here 0, Cursor.spans_nil_iff.mpr rfl, fails⟩
      · rintro ⟨depth, before, place, opens, spans, fails⟩
        cases opens
        cases Cursor.spans_nil_iff.mp spans
        exact fails
  | succ levels ih =>
      rw [takeValue_succ_eq_error_iff]
      constructor
      · rintro (fails | ⟨head, middle, enters, spans, failed⟩)
        · exact ⟨0, [], start, .here _, Cursor.spans_nil_iff.mpr rfl, fails⟩
        · obtain ⟨depth, inner, place, opens, inside, fails⟩ := ih.mp failed
          refine ⟨depth + 1, head ++ inner, place, .inside enters opens,
            Cursor.spans_append_iff.mpr ⟨middle, spans, inside⟩, ?_⟩
          rwa [Nat.add_sub_add_right]
      · rintro ⟨depth, before, place, opens, spans, fails⟩
        cases opens with
        | here =>
            cases Cursor.spans_nil_iff.mp spans
            exact Or.inl fails
        | @inside _ depth head inner enters opens =>
            rw [Nat.add_sub_add_right] at fails
            obtain ⟨middle, spans, inside⟩ := Cursor.spans_append_iff.mp spans
            exact Or.inr ⟨head, middle, enters, spans,
              ih.mpr ⟨depth, inner, place, opens, inside, fails⟩⟩

/-- A byte string is refused exactly for what is wrong where a value is due in it. -/
theorem decode_eq_error_iff {bytes : Bytes} :
    decode bytes = .error fault ↔
      ∃ depth before rest, bytes = before ++ rest ∧ Opens maxNesting depth before ∧
        Fails (maxNesting - depth) ⟨before.length, rest⟩ fault := by
  rw [decode]
  refine (closing_eq_error_iff fun _ => ⟨_, rfl⟩).trans (takeValue_eq_error_iff.trans ?_)
  constructor
  · rintro ⟨depth, before, ⟨offset, rest⟩, opens, ⟨written, reached⟩, fails⟩
    rw [show offset = before.length from reached.trans (Nat.zero_add _)] at fails
    exact ⟨depth, before, rest, written, opens, fails⟩
  · rintro ⟨depth, before, rest, rfl, opens, fails⟩
    exact ⟨depth, before, _, opens, ⟨rfl, (Nat.zero_add _).symm⟩, fails⟩

end FunctionBundler.Codec
