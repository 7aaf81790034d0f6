/-
Module: FunctionBundler.Proofs.Codec.Positions
Purpose: Reading values by positions in the bytes, which never leaves them, and where its faults
  lie.
Trusted boundary: none
Main exports:
  Codec.Indexed.decode, Codec.Indexed.decode_eq, Codec.faults_located
-/
import FunctionBundler.Proofs.Codec.Faults

namespace FunctionBundler.Codec

/-!
A cursor that holds what is left of the bytes cannot leave them.  One that is a position
could: counting the bytes behind it, cutting a field out of them and taking the first byte
of a field are defined only inside.  Here the reader is written with positions, and each
of these steps stops where it is not defined.  It agrees with the reader of cursors at
every position inside the bytes and leads to such positions only, so it never stops for
that reason.
-/

/-! ### Reading by positions -/

namespace Indexed

/-- Why a reading by positions stops: for a fault of the bytes, or outside of them. -/
inductive Stop where
  | fault (fault : Fault)
  | outside (position : Nat)
deriving DecidableEq

section

variable (bytes : Bytes)

/-- How many bytes lie behind a position. -/
def remaining (position : Nat) : Except Stop Nat :=
  if position ≤ bytes.length then
    .ok (bytes.length - position)
  else
    .error (.outside position)

/-- The bytes between two positions. -/
def slice (first last : Nat) : Except Stop Bytes :=
  if first ≤ last ∧ last ≤ bytes.length then
    .ok ((bytes.take last).drop first)
  else
    .error (.outside last)

/-- The next `count` bytes. -/
def take (count position : Nat) : Except Stop (Bytes × Nat) := do
  let available ← remaining bytes position
  if available < count then
    .error (.fault (.truncated count position available))
  else
    let field ← slice bytes position (position + count)
    return (field, position + count)

/-- The next byte, the first one of a field. -/
def takeByte (position : Nat) : Except Stop (UInt8 × Nat) := do
  let (field, behind) ← take bytes 1 position
  match field[0]? with
  | some byte => return (byte, behind)
  | none => .error (.outside position)

/-- The next integer of `width` bytes, which are copied into a buffer of that width. -/
def takeNat (width position : Nat) : Except Stop (Nat × Nat) := do
  let (field, behind) ← take bytes width position
  if field.length = width then
    return (Bytes.natOfBigEndian field, behind)
  else
    .error (.outside position)

/-- The next text: its length and its bytes. -/
def takeText (position : Nat) : Except Stop (String × Nat) := do
  let (length, payload) ← takeNat bytes 4 position
  let (field, behind) ← take bytes length payload
  match Bytes.text? field with
  | some content => return (content, behind)
  | none => .error (.fault (.invalidText payload))

end

/-- Read `count` things one after the other. -/
def takeMany {α : Type} (one : Nat → Except Stop (α × Nat)) :
    (count position : Nat) → Except Stop (List α × Nat)
  | 0, position => .ok ([], position)
  | count + 1, position => do
    let (item, middle) ← one position
    let (items, behind) ← takeMany one count middle
    return (item :: items, behind)

/-- Read two things one after the other. -/
def takePair {α : Type} (one : Nat → Except Stop (α × Nat)) (position : Nat) :
    Except Stop ((α × α) × Nat) := do
  let (first, middle) ← one position
  let (second, behind) ← one middle
  return ((first, second), behind)

section

variable (bytes : Bytes)

/-- Read the value after a tag that opens neither array nor map; `offset` is that of the tag. -/
def takeScalar (tag : UInt8) (offset position : Nat) : Except Stop (Value × Nat) := do
  if tag = 0 then
    let (number, behind) ← takeNat bytes 4 position
    return (.word32 (UInt32.ofNat number), behind)
  else if tag = 1 then
    let (number, behind) ← takeNat bytes 8 position
    return (.word64 (UInt64.ofNat number), behind)
  else if tag = 2 then
    let (content, behind) ← takeText bytes position
    return (.text content, behind)
  else
    .error (.fault (.unknownTag tag offset))

/-- Read one value.  Before the members of an array or map are read, room for them is reserved
according to what is left. -/
def takeValue : (levels position : Nat) → Except Stop (Value × Nat)
  | 0, position => do
    let (tag, fields) ← takeByte bytes position
    if tag = 3 ∨ tag = 4 then
      .error (.fault .tooDeep)
    else
      takeScalar bytes tag position fields
  | levels + 1, position => do
    let (tag, fields) ← takeByte bytes position
    if tag = 3 then
      let (count, members) ← takeNat bytes 4 fields
      let _room ← remaining bytes members
      let (items, behind) ← takeMany (takeValue levels) count members
      return (.array items, behind)
    else if tag = 4 then
      let (count, members) ← takeNat bytes 4 fields
      let _room ← remaining bytes members
      let (entries, behind) ← takeMany (takePair (takeValue levels)) count members
      return (.map (Value.mergeEntries entries), behind)
    else
      takeScalar bytes tag position fields

/-- The value at the front of the bytes. -/
def decode : Except Stop Value := do
  let (value, _) ← takeValue bytes maxNesting 0
  return value

end

end Indexed

/-! ### Agreement with the reader of cursors -/

/-- The cursor at a position of the bytes. -/
def Cursor.at (bytes : Bytes) (position : Nat) : Cursor :=
  ⟨position, bytes.drop position⟩

/-- A reading by cursors and one by positions give the same, and stay inside the bytes. -/
inductive Agrees {α : Type} (bytes : Bytes) :
    Except Fault (α × Cursor) → Except Indexed.Stop (α × Nat) → Prop where
  | read (result : α) {position : Nat} (inside : position ≤ bytes.length) :
      Agrees bytes (.ok (result, Cursor.at bytes position)) (.ok (result, position))
  | refused (fault : Fault) : Agrees bytes (.error fault) (.error (.fault fault))

/-- The two readers agree wherever they start inside the bytes. -/
def Mirrors {α : Type} (bytes : Bytes) (indexed : Nat → Except Indexed.Stop (α × Nat))
    (one : Cursor → Except Fault (α × Cursor)) : Prop :=
  ∀ position ≤ bytes.length, Agrees bytes (one (Cursor.at bytes position)) (indexed position)

section

variable {α β : Type} {bytes : Bytes} {position : Nat}

/-- What follows two readings that agree starts at a position inside the bytes. -/
theorem Agrees.bind {first : Except Fault (α × Cursor)} {indexed : Except Indexed.Stop (α × Nat)}
    {next : α × Cursor → Except Fault (β × Cursor)}
    {nextIndexed : α × Nat → Except Indexed.Stop (β × Nat)} (agrees : Agrees bytes first indexed)
    (follows : ∀ result, ∀ position ≤ bytes.length,
      Agrees bytes (next (result, Cursor.at bytes position)) (nextIndexed (result, position))) :
    Agrees bytes (first >>= next) (indexed >>= nextIndexed) := by
  cases agrees with
  | read result inside => exact follows result _ inside
  | refused fault => exact .refused fault

namespace Indexed

private theorem remaining_of_le (inside : position ≤ bytes.length) :
    remaining bytes position = .ok (bytes.length - position) :=
  if_pos inside

private theorem take_of_le {count : Nat} (enough : position + count ≤ bytes.length) :
    take bytes count position = .ok ((bytes.drop position).take count, position + count) := by
  have inside : position ≤ bytes.length := Nat.le_of_add_right_le enough
  have room : ¬bytes.length - position < count := by omega
  have cut : slice bytes position (position + count) = .ok ((bytes.drop position).take count) := by
    rw [slice, if_pos ⟨Nat.le_add_right position count, enough⟩, List.drop_take,
      Nat.add_sub_cancel_left]
  rw [take, remaining_of_le inside]
  change (if bytes.length - position < count then _ else _) = _
  rw [if_neg room, cut]
  rfl

private theorem take_of_lt {count : Nat} (inside : position ≤ bytes.length)
    (short : bytes.length < position + count) :
    take bytes count position =
      .error (.fault (.truncated count position (bytes.length - position))) := by
  have missing : bytes.length - position < count := by omega
  rw [take, remaining_of_le inside]
  exact if_pos missing

end Indexed

private theorem take_at_of_le {count : Nat} (enough : position + count ≤ bytes.length) :
    take count (Cursor.at bytes position) =
      .ok ((bytes.drop position).take count, Cursor.at bytes (position + count)) := by
  have sized : ((bytes.drop position).take count).length = count := by
    rw [List.length_take, List.length_drop]
    omega
  refine take_eq_ok_iff.mpr ⟨sized, ?_, ?_⟩
  · rw [Cursor.at, Cursor.at, ← List.drop_drop, List.take_append_drop]
  · rw [Cursor.at, Cursor.at, sized]

private theorem take_at_of_lt {count : Nat} (inside : position ≤ bytes.length)
    (short : bytes.length < position + count) :
    take count (Cursor.at bytes position) =
      .error (.truncated count position (bytes.length - position)) := by
  rw [take_eq_error_iff, Cursor.at, List.length_drop]
  exact ⟨by omega, rfl⟩

private theorem mirrors_take (count : Nat) :
    Mirrors bytes (Indexed.take bytes count) (take count) := by
  intro position inside
  by_cases enough : position + count ≤ bytes.length
  · rw [Indexed.take_of_le enough, take_at_of_le enough]
    exact .read _ enough
  · rw [Indexed.take_of_lt inside (Nat.lt_of_not_le enough),
      take_at_of_lt inside (Nat.lt_of_not_le enough)]
    exact .refused _

private theorem mirrors_takeByte : Mirrors bytes (Indexed.takeByte bytes) takeByte := by
  intro position inside
  rw [Indexed.takeByte, takeByte, Cursor.at]
  by_cases enough : position + 1 ≤ bytes.length
  · rw [Indexed.take_of_le enough, List.drop_eq_getElem_cons enough]
    exact .read _ enough
  · have ended : bytes.length - position = 0 := by omega
    rw [Indexed.take_of_lt inside (Nat.lt_of_not_le enough), ended,
      List.drop_eq_nil_of_le (Nat.sub_eq_zero_iff_le.mp ended)]
    exact .refused _

private theorem mirrors_takeNat (width : Nat) :
    Mirrors bytes (Indexed.takeNat bytes width) (takeNat width) := by
  intro position inside
  rw [Indexed.takeNat, takeNat]
  by_cases enough : position + width ≤ bytes.length
  · have sized : ((bytes.drop position).take width).length = width := by
      rw [List.length_take, List.length_drop]
      omega
    rw [Indexed.take_of_le enough, take_at_of_le enough]
    change Agrees bytes _ (if _ = width then _ else _)
    rw [if_pos sized]
    exact .read _ enough
  · rw [Indexed.take_of_lt inside (Nat.lt_of_not_le enough),
      take_at_of_lt inside (Nat.lt_of_not_le enough)]
    exact .refused _

private theorem mirrors_takeText : Mirrors bytes (Indexed.takeText bytes) takeText := by
  intro position inside
  rw [Indexed.takeText, takeText]
  refine (mirrors_takeNat 4 position inside).bind fun length payload payloadInside => ?_
  refine (mirrors_take length payload payloadInside).bind fun field behind behindInside => ?_
  dsimp only
  cases Bytes.text? field with
  | none => exact .refused _
  | some content => exact .read content behindInside

section

variable {indexed : Nat → Except Indexed.Stop (α × Nat)} {one : Cursor → Except Fault (α × Cursor)}

/-- Reading many things by positions mirrors reading them from the front. -/
theorem Mirrors.takeMany (mirrors : Mirrors bytes indexed one) (count : Nat) :
    Mirrors bytes (Indexed.takeMany indexed count) (takeMany one count) := by
  induction count with
  | zero => exact fun position inside => .read [] inside
  | succ count ih =>
      intro position inside
      rw [Indexed.takeMany, Codec.takeMany]
      refine (mirrors position inside).bind fun item middle middleInside => ?_
      exact (ih middle middleInside).bind fun items behind behindInside => .read _ behindInside

/-- Reading a pair by positions mirrors reading it from the front. -/
theorem Mirrors.takePair (mirrors : Mirrors bytes indexed one) :
    Mirrors bytes (Indexed.takePair indexed) (takePair one) := by
  intro position inside
  rw [Indexed.takePair, Codec.takePair]
  refine (mirrors position inside).bind fun first middle middleInside => ?_
  exact (mirrors middle middleInside).bind fun second behind behindInside => .read _ behindInside

/-- Reserving room for a row changes nothing. -/
theorem Mirrors.counted (mirrors : Mirrors bytes indexed one) (close : List α → β) :
    Mirrors bytes
      (fun position => do
        let (count, members) ← Indexed.takeNat bytes 4 position
        let _room ← Indexed.remaining bytes members
        let (results, behind) ← Indexed.takeMany indexed count members
        return (close results, behind))
      (fun start => do
        let (count, members) ← takeNat 4 start
        let (results, rest) ← Codec.takeMany one count members
        return (close results, rest)) := by
  intro position inside
  refine (mirrors_takeNat 4 position inside).bind fun count members membersInside => ?_
  dsimp only
  rw [Indexed.remaining_of_le membersInside]
  exact (mirrors.takeMany count members membersInside).bind
    fun results behind behindInside => .read _ behindInside

end

private theorem mirrors_takeScalar (tag : UInt8) (offset : Nat) :
    Mirrors bytes (Indexed.takeScalar bytes tag offset) (takeScalar tag offset) := by
  intro position inside
  rw [Indexed.takeScalar, takeScalar]
  split
  case isTrue =>
      exact (mirrors_takeNat 4 position inside).bind fun _ _ behindInside => .read _ behindInside
  case isFalse =>
      split
      case isTrue =>
          exact (mirrors_takeNat 8 position inside).bind fun _ _ behindInside =>
            .read _ behindInside
      case isFalse =>
          split
          case isTrue =>
              exact (mirrors_takeText position inside).bind fun _ _ behindInside =>
                .read _ behindInside
          case isFalse => exact .refused _

/-- Reading values by positions agrees with reading them by cursors, level by level. -/
theorem mirrors_takeValue (levels : Nat) :
    Mirrors bytes (Indexed.takeValue bytes levels) (takeValue levels) := by
  induction levels with
  | zero =>
      intro position inside
      rw [Indexed.takeValue, takeValue]
      refine (mirrors_takeByte position inside).bind fun tag fields fieldsInside => ?_
      dsimp only
      split
      case isTrue => exact .refused .tooDeep
      case isFalse => exact mirrors_takeScalar tag position fields fieldsInside
  | succ levels ih =>
      intro position inside
      rw [Indexed.takeValue, takeValue]
      refine (mirrors_takeByte position inside).bind fun tag fields fieldsInside => ?_
      dsimp only
      split
      case isTrue => exact ih.counted Value.array fields fieldsInside
      case isFalse =>
          split
          case isTrue =>
              exact ih.takePair.counted (fun entries => Value.map (Value.mergeEntries entries))
                fields fieldsInside
          case isFalse => exact mirrors_takeScalar tag position fields fieldsInside

private theorem Agrees.eq_mapError {first : Except Fault (Value × Cursor)}
    {indexed : Except Indexed.Stop (Value × Nat)} (agrees : Agrees bytes first indexed) :
    (do
      let (value, _) ← indexed
      return value) =
      (do
        let (value, _) ← first
        return value : Except Fault Value).mapError Indexed.Stop.fault := by
  cases agrees with
  | read | refused => rfl

end

/-- Reading by positions never leaves the bytes: it gives what the reader of cursors gives. -/
theorem Indexed.decode_eq (bytes : Bytes) :
    Indexed.decode bytes = (Codec.decode bytes).mapError Stop.fault :=
  (mirrors_takeValue maxNesting 0 (Nat.zero_le bytes.length)).eq_mapError

/-! ### Where faults lie -/

/-- What a fault says of the bytes in which it was found. -/
def PointsAt (bytes : Bytes) : Fault → Prop
  | .unknownTag tag offset => offset < bytes.length ∧ bytes[offset]? = some tag ∧ 4 < tag
  | .truncated needed offset available =>
    offset ≤ bytes.length ∧ available = bytes.length - offset ∧ available < needed
  | .invalidText offset =>
    let length := Bytes.natOfBigEndian ((bytes.drop (offset - 4)).take 4)
    5 ≤ offset ∧ bytes[offset - 5]? = some 2 ∧ offset + length ≤ bytes.length ∧
      Bytes.text? ((bytes.drop offset).take length) = none
  | .tooDeep =>
    ∃ before tag fields, bytes = before ++ tag :: fields ∧ Opens maxNesting 64 before ∧
      (tag = 3 ∨ tag = 4)

private theorem pointsAt_invalidText {before field behind : Bytes} (fits : field.length < 2 ^ 32)
    (unreadable : Bytes.text? field = none) :
    PointsAt (before ++ 2 :: (Bytes.bigEndian 4 field.length ++ (field ++ behind)))
      (.invalidText (before.length + 5)) := by
  have numberCut : (before ++ 2 :: (Bytes.bigEndian 4 field.length ++ (field ++ behind))).drop
      (before.length + 5 - 4) = Bytes.bigEndian 4 field.length ++ (field ++ behind) := by
    rw [List.append_cons]
    exact List.drop_left' (by rw [List.length_append]; rfl)
  have payloadCut : (before ++ 2 :: (Bytes.bigEndian 4 field.length ++ (field ++ behind))).drop
      (before.length + 5) = field ++ behind := by
    rw [List.append_cons, ← List.append_assoc]
    refine List.drop_left' ?_
    rw [List.length_append, List.length_append, Bytes.length_bigEndian]
    rfl
  have counted :
      Bytes.natOfBigEndian ((Bytes.bigEndian 4 field.length ++ (field ++ behind)).take 4) =
        field.length := by
    rw [List.take_left' (Bytes.length_bigEndian 4 field.length), Bytes.natOfBigEndian_bigEndian]
    exact Nat.mod_eq_of_lt fits
  rw [PointsAt, numberCut, payloadCut, counted]
  refine ⟨Nat.le_add_left 5 _, ?_, ?_, ?_⟩
  · rw [Nat.add_sub_cancel, List.getElem?_append_right (Nat.le_refl _), Nat.sub_self]
    rfl
  · simp only [List.length_append, List.length_cons, Bytes.length_bigEndian]
    omega
  · rwa [List.take_left' rfl]

private theorem pointsAt_of_fails {depth : Nat} {before rest : Bytes} {fault : Fault}
    (opens : Opens maxNesting depth before)
    (fails : Fails (maxNesting - depth) ⟨before.length, rest⟩ fault) :
    PointsAt (before ++ rest) fault := by
  cases fails with
  | untagged ended =>
      cases ended
      simp [PointsAt]
  | unknown tagged strange =>
      cases tagged
      simp [PointsAt, strange]
  | @deep tag fields tagged opening full =>
      cases tagged
      have all : depth = 64 := Nat.le_antisymm opens.depth_le (Nat.sub_eq_zero_iff_le.mp full)
      exact ⟨before, tag, fields, rfl, all ▸ opens, opening⟩
  | shortNumber tagged _ _ short =>
      cases tagged
      simp only [PointsAt, List.length_append, List.length_cons]
      exact ⟨by omega, by omega, short⟩
  | shortText _ tagged short =>
      cases tagged
      simp only [PointsAt, List.length_append, List.length_cons, Bytes.length_bigEndian]
      exact ⟨by omega, by omega, short⟩
  | invalid fits tagged unreadable =>
      cases tagged
      exact pointsAt_invalidText fits unreadable

/-- Reading by positions never leaves the bytes, whatever they are: it gives what the reader of
cursors gives, after each value it stands inside, and a fault says of the bytes what is the case. -/
theorem faults_located (bytes : Bytes) :
    Indexed.decode bytes = (decode bytes).mapError Indexed.Stop.fault ∧
      (∀ position, Indexed.decode bytes ≠ .error (.outside position)) ∧
      (∀ levels, ∀ position ≤ bytes.length, ∀ value behind,
        Indexed.takeValue bytes levels position = .ok (value, behind) → behind ≤ bytes.length) ∧
      ∀ fault, decode bytes = .error fault → PointsAt bytes fault := by
  refine ⟨Indexed.decode_eq bytes, fun position left => ?_, ?_, fun fault failed => ?_⟩
  · rw [Indexed.decode_eq] at left
    cases decoded : decode bytes with
    | ok | error => simp [decoded, Except.mapError] at left
  · intro levels position inside value behind read
    have agrees := mirrors_takeValue levels position inside
    rw [read] at agrees
    generalize takeValue levels (Cursor.at bytes position) = reading at agrees
    cases agrees with
    | read _ behindInside => exact behindInside
  · obtain ⟨depth, before, rest, rfl, opens, fails⟩ := decode_eq_error_iff.mp failed
    exact pointsAt_of_fails opens fails

/-- The second item of an array is a text that is not valid; the first one ends behind its number.
-/
theorem faults_located_second_item :
    let bytes : Bytes := [3, 0, 0, 0, 2, 0, 0, 0, 0, 7, 2, 0, 0, 0, 1, 0xFF]
    5 ≤ bytes.length ∧ Indexed.takeValue bytes 63 5 = .ok (.word32 7, 10) ∧ 10 ≤ bytes.length ∧
      decode bytes = .error (.invalidText 15) ∧ PointsAt bytes (.invalidText 15) := by
  intro bytes
  obtain ⟨-, -, inside, points⟩ := faults_located bytes
  have start : 5 ≤ bytes.length := by decide
  have read : Indexed.takeValue bytes 63 5 = .ok (.word32 7, 10) := by decide +kernel
  have failed : decode bytes = .error (.invalidText 15) := by decide +kernel
  exact ⟨start, read, inside 63 5 start _ 10 read, failed, points _ failed⟩

end FunctionBundler.Codec
