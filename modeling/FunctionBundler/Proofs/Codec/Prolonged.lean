/-
Module: FunctionBundler.Proofs.Codec.Prolonged
Purpose: What reading a value gives when bytes are added behind it or cut off at the end.
Trusted boundary: none
Main exports:
  Codec.Prolonged, Codec.Steady, Codec.steady_takeValue, Codec.decode_append,
  Codec.truncated_of_take, Codec.decode_append_and_take
-/
import FunctionBundler.Proofs.Codec.RoundTrip

namespace FunctionBundler.Codec

/-!
A reader sees the end of the bytes only when it asks for more than are left.  So
whatever it finds before that, a value or a fault, it finds as well when more bytes
follow, and only a truncation can turn into something else.  A beginning of a value
can therefore be nothing but truncated: if it were read or refused for another
reason, so would be the whole.
-/

/-- The cursor with more bytes behind those that are left. -/
def Cursor.prolong (cursor : Cursor) (more : Bytes) : Cursor :=
  ⟨cursor.offset, cursor.rest ++ more⟩

/-- What a reading becomes when more bytes follow: what was read stays, with more left behind it;
a fault stays; but where bytes were missing, anything may come out. -/
inductive Prolonged {α : Type} (more : Bytes) :
    Except Fault (α × Cursor) → Except Fault (α × Cursor) → Prop where
  | read (result : α) (stop : Cursor) :
      Prolonged more (.ok (result, stop)) (.ok (result, stop.prolong more))
  | refused (fault : Fault) : Prolonged more (.error fault) (.error fault)
  | short (needed offset available : Nat) (reading : Except Fault (α × Cursor)) :
      Prolonged more (.error (.truncated needed offset available)) reading

/-- A reader whose readings are only prolonged when more bytes follow. -/
def Steady {α : Type} (one : Cursor → Except Fault (α × Cursor)) : Prop :=
  ∀ start more, Prolonged more (one start) (one (start.prolong more))

section

variable {α β : Type} {more : Bytes}

/-- What follows a reading is prolonged with it. -/
theorem Prolonged.bind {first whole : Except Fault (α × Cursor)}
    {next : α × Cursor → Except Fault (β × Cursor)} (prolonged : Prolonged more first whole)
    (steady : ∀ result stop,
      Prolonged more (next (result, stop)) (next (result, stop.prolong more))) :
    Prolonged more (first >>= next) (whole >>= next) := by
  cases prolonged with
  | read result stop => exact steady result stop
  | refused fault => exact .refused fault
  | short needed offset available => exact .short needed offset available _

private theorem steady_take (count : Nat) : Steady (take count) := by
  intro start more
  obtain ⟨offset, rest⟩ := start
  rw [Cursor.prolong, take, take]
  dsimp only
  by_cases short : (rest.take count).length < count
  · rw [if_pos short]
    exact .short count offset rest.length _
  · have enough : count ≤ rest.length := by
      rw [List.length_take] at short
      omega
    rw [List.take_append_of_le_length enough, List.drop_append_of_le_length enough, if_neg short,
      if_neg short]
    exact .read _ _

private theorem steady_takeByte : Steady takeByte := by
  intro start more
  obtain ⟨offset, rest⟩ := start
  cases rest with
  | nil => exact .short 1 offset 0 _
  | cons byte rest => exact .read byte ⟨offset + 1, rest⟩

private theorem steady_takeNat (width : Nat) : Steady (takeNat width) := by
  intro start more
  rw [takeNat, takeNat]
  exact (steady_take width start more).bind fun field stop => .read _ stop

/-- The fault of a text that is not valid lies at an offset that does not move. -/
theorem steady_takeText : Steady takeText := by
  intro start more
  rw [takeText, takeText]
  refine (steady_takeNat 4 start more).bind fun length payload => ?_
  refine Prolonged.bind (steady_take length payload more) fun field stop => ?_
  dsimp only
  cases Bytes.text? field with
  | none => exact .refused _
  | some content => exact .read content stop

private theorem steady_takeMany {one : Cursor → Except Fault (α × Cursor)} (steady : Steady one)
    (count : Nat) : Steady (takeMany one count) := by
  induction count with
  | zero => exact fun start more => .read [] start
  | succ count ih =>
      intro start more
      rw [takeMany, takeMany]
      refine (steady start more).bind fun item middle => ?_
      exact (ih middle more).bind fun items stop => .read _ stop

private theorem steady_takePair {one : Cursor → Except Fault (α × Cursor)} (steady : Steady one) :
    Steady (takePair one) := by
  intro start more
  rw [takePair, takePair]
  refine (steady start more).bind fun first middle => ?_
  exact (steady middle more).bind fun second stop => .read _ stop

/-- A counted row stays what it is: its count is read before its members. -/
theorem steady_counted {one : Cursor → Except Fault (α × Cursor)} (steady : Steady one)
    (close : List α → β) :
    Steady fun start => do
      let (count, members) ← takeNat 4 start
      let (results, rest) ← takeMany one count members
      return (close results, rest) := by
  intro start more
  refine (steady_takeNat 4 start more).bind fun count members => ?_
  exact (steady_takeMany steady count members more).bind fun results stop => .read _ stop

private theorem steady_takeScalar (tag : UInt8) (offset : Nat) :
    Steady (takeScalar tag offset) := by
  intro start more
  rw [takeScalar, takeScalar]
  split
  case isTrue => exact (steady_takeNat 4 start more).bind fun number stop => .read _ stop
  case isFalse =>
      split
      case isTrue => exact (steady_takeNat 8 start more).bind fun number stop => .read _ stop
      case isFalse =>
          split
          case isTrue => exact (steady_takeText start more).bind fun content stop => .read _ stop
          case isFalse => exact .refused _

/-- Reading a value depends on no byte behind those that it looks at. -/
theorem steady_takeValue (levels : Nat) : Steady (takeValue levels) := by
  induction levels with
  | zero =>
      intro start more
      rw [takeValue, takeValue]
      refine (steady_takeByte start more).bind fun tag fields => ?_
      dsimp only
      split
      case isTrue => exact .refused .tooDeep
      case isFalse => exact steady_takeScalar tag start.offset fields more
  | succ levels ih =>
      intro start more
      rw [takeValue, takeValue]
      refine (steady_takeByte start more).bind fun tag fields => ?_
      dsimp only
      split
      case isTrue => exact steady_counted ih Value.array fields more
      case isFalse =>
          split
          case isTrue =>
              exact steady_counted (steady_takePair ih)
                (fun entries => Value.map (Value.mergeEntries entries)) fields more
          case isFalse => exact steady_takeScalar tag start.offset fields more

end

/-! ### Whole byte strings -/

variable {bytes : Bytes} {value : Value} {size : Nat} {rest : Bytes}

private theorem prolonged_takeValue (bytes more : Bytes) :
    Prolonged more (takeValue maxNesting ⟨0, bytes⟩) (takeValue maxNesting ⟨0, bytes ++ more⟩) :=
  steady_takeValue maxNesting ⟨0, bytes⟩ more

private theorem size_le_of_takeValue
    (read : takeValue maxNesting ⟨0, bytes⟩ = .ok (value, ⟨size, rest⟩)) :
    size ≤ bytes.length := by
  obtain ⟨raw, -, -, spans⟩ := (recognizes_takeValue maxNesting _ _ _).mp read
  have written : bytes = encode raw ++ rest := spans.rest
  have reached : size = 0 + (encode raw).length := spans.offset
  rw [written, List.length_append]
  omega

/-- What is found without missing a byte is found as well when more bytes follow. -/
theorem decode_append (more : Bytes)
    (complete : ∀ needed offset available,
      decode bytes ≠ .error (.truncated needed offset available)) :
    decode (bytes ++ more) = decode bytes := by
  have prolonged := prolonged_takeValue bytes more
  rw [decode, decode]
  rw [decode] at complete
  generalize takeValue maxNesting ⟨0, bytes⟩ = reading at prolonged complete ⊢
  generalize takeValue maxNesting ⟨0, bytes ++ more⟩ = whole at prolonged ⊢
  cases prolonged with
  | read result stop => rfl
  | refused fault => rfl
  | short needed offset available => exact absurd rfl (complete needed offset available)

/-- Of a value that takes `size` bytes, fewer bytes are only ever missing the others. -/
theorem truncated_of_take (read : takeValue maxNesting ⟨0, bytes⟩ = .ok (value, ⟨size, rest⟩))
    {kept : Nat} (fewer : kept < size) :
    ∃ needed offset available,
      decode (bytes.take kept) = .error (.truncated needed offset available) := by
  have prolonged := prolonged_takeValue (bytes.take kept) (bytes.drop kept)
  rw [List.take_append_drop, read] at prolonged
  rw [decode]
  generalize reading : takeValue maxNesting ⟨0, bytes.take kept⟩ = early at prolonged
  -- Had the reader stopped, it would have stopped at the same place in all the bytes.
  cases prolonged with
  | read result stop =>
      have inside : stop.offset ≤ (bytes.take kept).length := size_le_of_takeValue reading
      have short : (bytes.take kept).length ≤ kept := List.length_take_le kept bytes
      change kept < stop.offset at fewer
      omega
  | short needed offset available => exact ⟨needed, offset, available, rfl⟩

/-- More bytes behind what was read, or refused for another reason than missing bytes, change
nothing; and a value that was read from the first `size` bytes is truncated, and nothing else, in
every shorter beginning of them. -/
theorem decode_append_and_take (bytes more : Bytes) :
    ((∀ needed offset available, decode bytes ≠ .error (.truncated needed offset available)) →
      decode (bytes ++ more) = decode bytes) ∧
    ∀ value, decode bytes = .ok value →
      ∃ size rest, takeValue maxNesting ⟨0, bytes⟩ = .ok (value, ⟨size, rest⟩) ∧
        size ≤ bytes.length ∧
        ∀ kept < size, ∃ needed offset available,
          decode (bytes.take kept) = .error (.truncated needed offset available) := by
  refine ⟨decode_append more, fun value decoded => ?_⟩
  rw [decode, bind_eq_ok_iff] at decoded
  obtain ⟨_, ⟨size, rest⟩, read, ⟨⟩⟩ := decoded
  exact ⟨size, rest, read, size_le_of_takeValue read,
    fun kept fewer => truncated_of_take read fewer⟩

/-- The text of one letter of two bytes: what follows it does not matter, and without its last byte
it is truncated in the middle of the letter, though the bytes left are no valid text. -/
theorem decode_append_and_take_letter :
    decode ([2, 0, 0, 0, 2, 0xC3, 0xA9] ++ [9]) = .ok (.text "é") ∧
      ∃ needed offset available,
        decode [2, 0, 0, 0, 2, 0xC3] = .error (.truncated needed offset available) := by
  have read : decode [2, 0, 0, 0, 2, 0xC3, 0xA9] = .ok (.text "é") := by decide +kernel
  have complete (needed offset available : Nat) :
      decode [2, 0, 0, 0, 2, 0xC3, 0xA9] ≠ .error (.truncated needed offset available) := by
    rw [read]
    intro same
    cases same
  obtain ⟨prolonged, shortened⟩ := decode_append_and_take [2, 0, 0, 0, 2, 0xC3, 0xA9] [9]
  constructor
  · exact (prolonged complete).trans read
  · obtain ⟨size, rest, stops, -, missing⟩ := shortened _ read
    have whole : takeValue maxNesting ⟨0, [2, 0, 0, 0, 2, 0xC3, 0xA9]⟩ =
        .ok (.text "é", ⟨7, []⟩) := by decide +kernel
    rw [whole] at stops
    cases stops
    exact missing 6 (by decide)

end FunctionBundler.Codec
