/-
Module: FunctionBundler.Proofs.Codec.Fields
Purpose: Readers characterized by what they read: fields, repetitions and pairs.
Trusted boundary: none
Main exports:
  Codec.Cursor.Spans, Codec.Recognizes, Codec.recognizes_takeNat, Codec.recognizes_takeText,
  Codec.Recognizes.takeMany, Codec.Recognizes.counted, Codec.Recognizes.takePair
-/
import FunctionBundler.Proofs.Fallible
import FunctionBundler.Value.Codec
import Mathlib.Algebra.Group.Nat.Defs

namespace FunctionBundler

/-!
A reader recognizes a form of things when it succeeds on exactly the written
forms of well-formed things, and then gives their meanings and stops right behind
them.  The equivalence serves both directions at once: what is written is read,
and what is read was written.
-/

/-! ### Numbers in big-endian bytes -/

namespace Bytes

private theorem foldl_natOfBigEndian (bytes : Bytes) (start : Nat) :
    bytes.foldl (fun number byte => number * 256 + byte.toNat) start =
      start * 256 ^ bytes.length + natOfBigEndian bytes := by
  induction bytes generalizing start with
  | nil => simp [natOfBigEndian]
  | cons byte rest ih =>
      rw [natOfBigEndian, List.foldl_cons, List.foldl_cons, ih, ih, List.length_cons,
        Nat.pow_succ']
      simp only [Nat.add_mul, Nat.zero_mul, Nat.zero_add, Nat.mul_assoc, Nat.add_assoc]

/-- The first byte of a number counts most. -/
theorem natOfBigEndian_cons (byte : UInt8) (rest : Bytes) :
    natOfBigEndian (byte :: rest) = byte.toNat * 256 ^ rest.length + natOfBigEndian rest := by
  rw [natOfBigEndian, List.foldl_cons, foldl_natOfBigEndian, Nat.zero_mul, Nat.zero_add]

/-- A number of some bytes is below what one byte more can tell. -/
theorem natOfBigEndian_lt (bytes : Bytes) : natOfBigEndian bytes < 256 ^ bytes.length := by
  induction bytes with
  | nil => simp [natOfBigEndian]
  | cons byte rest ih =>
      have small : byte.toNat + 1 ≤ 256 := byte.toNat_lt_size
      have room := Nat.mul_le_mul_right (256 ^ rest.length) small
      rw [natOfBigEndian_cons, List.length_cons, Nat.pow_succ']
      rw [Nat.succ_mul] at room
      omega

/-- Writing keeps the low bytes of a number. -/
theorem natOfBigEndian_bigEndian (width number : Nat) :
    natOfBigEndian (bigEndian width number) = number % 256 ^ width := by
  induction width with
  | zero => simp [bigEndian, natOfBigEndian, Nat.mod_one]
  | succ width ih =>
      have byte : (UInt8.ofNat (number / 256 ^ width)).toNat = number / 256 ^ width % 256 := by simp
      rw [bigEndian, Nat.pow_eq, natOfBigEndian_cons, byte, length_bigEndian, ih, Nat.pow_succ,
        Nat.mod_mul, Nat.mul_comm (256 ^ width), Nat.add_comm]

private theorem natOfBigEndian_inj {first second : Bytes} (lengths : first.length = second.length)
    (numbers : natOfBigEndian first = natOfBigEndian second) : first = second := by
  induction first generalizing second with
  | nil => exact (List.length_eq_zero_iff.mp lengths.symm).symm
  | cons byte rest ih =>
      cases second with
      | nil => simp at lengths
      | cons otherByte otherRest =>
          have restLengths : rest.length = otherRest.length := by simpa using lengths
          have small := natOfBigEndian_lt rest
          have otherSmall := natOfBigEndian_lt otherRest
          rw [natOfBigEndian_cons, natOfBigEndian_cons, restLengths] at numbers
          rw [restLengths] at small
          have bytes : byte.toNat = otherByte.toNat := by
            have quotients := congrArg (· / 256 ^ otherRest.length) numbers
            simpa [Nat.add_comm _ (natOfBigEndian _), Nat.add_mul_div_right _ _ (Nat.pow_pos _),
              Nat.div_eq_of_lt small, Nat.div_eq_of_lt otherSmall] using quotients
          rw [bytes, Nat.add_left_cancel_iff] at numbers
          rw [UInt8.toNat_inj.mp bytes, ih restLengths numbers]

/-- Every byte string is the written form of its number. -/
theorem bigEndian_natOfBigEndian (bytes : Bytes) :
    bigEndian bytes.length (natOfBigEndian bytes) = bytes := by
  apply natOfBigEndian_inj
  · exact length_bigEndian _ _
  · rw [natOfBigEndian_bigEndian, Nat.mod_eq_of_lt (natOfBigEndian_lt bytes)]

/-- Numbers that fit are told apart by their bytes. -/
theorem bigEndian_inj {width first second : Nat} (firstFits : first < 256 ^ width)
    (secondFits : second < 256 ^ width) (same : bigEndian width first = bigEndian width second) :
    first = second := by
  have numbers := congrArg natOfBigEndian same
  rwa [natOfBigEndian_bigEndian, natOfBigEndian_bigEndian, Nat.mod_eq_of_lt firstFits,
    Nat.mod_eq_of_lt secondFits] at numbers

end Bytes

namespace Codec

/-- A reading in two steps succeeds when both do. -/
theorem bind_eq_ok_iff {α β : Type} {first : Except Fault (α × Cursor)}
    {next : α × Cursor → Except Fault β} {result : β} :
    (first >>= next) = .ok result ↔
      ∃ middle after, first = .ok (middle, after) ∧ next (middle, after) = .ok result := by
  rw [FunctionBundler.bind_eq_ok_iff, Prod.exists]

/-! ### Cursors -/

/-- The bytes of a field lie between two cursors. -/
structure Cursor.Spans (start : Cursor) (field : Bytes) (stop : Cursor) : Prop where
  rest : start.rest = field ++ stop.rest
  offset : stop.offset = start.offset + field.length

theorem Cursor.spans_nil_iff {start stop : Cursor} : start.Spans [] stop ↔ start = stop := by
  constructor
  · intro spans
    rcases spans with ⟨rest, offset⟩
    cases start
    cases stop
    simp_all
  · rintro rfl
    exact ⟨rfl, rfl⟩

/-- Two spans that follow each other are one, and one span can be cut anywhere. -/
theorem Cursor.spans_append_iff {start stop : Cursor} {first second : Bytes} :
    start.Spans (first ++ second) stop ↔
      ∃ middle, start.Spans first middle ∧ Cursor.Spans middle second stop := by
  constructor
  · intro spans
    rcases spans with ⟨rest, offset⟩
    refine ⟨⟨start.offset + first.length, second ++ stop.rest⟩, ⟨?_, rfl⟩, ⟨rfl, ?_⟩⟩
    · rw [rest, List.append_assoc]
    · rw [offset, List.length_append, Nat.add_assoc]
  · intro spans
    rcases spans with ⟨middle, ⟨firstRest, firstOffset⟩, ⟨secondRest, secondOffset⟩⟩
    refine ⟨?_, ?_⟩
    · rw [firstRest, secondRest, List.append_assoc]
    · rw [secondOffset, firstOffset, List.length_append, Nat.add_assoc]

/-- What the input begins with is spanned. -/
theorem Cursor.spans_append (offset : Nat) (field rest : Bytes) :
    Cursor.Spans ⟨offset, field ++ rest⟩ field ⟨offset + field.length, rest⟩ :=
  ⟨rfl, rfl⟩

/-! ### Readers -/

/-- A reader takes exactly the written forms of well-formed things, and gives their meanings. -/
def Recognizes {ρ α : Type} (one : Cursor → Except Fault (α × Cursor)) (Form : ρ → Prop)
    (spell : ρ → Bytes) (meaning : ρ → α) : Prop :=
  ∀ start result stop, one start = .ok (result, stop) ↔
    ∃ raw, Form raw ∧ meaning raw = result ∧ start.Spans (spell raw) stop

/-- Taking bytes spans as many of them as are asked for. -/
theorem take_eq_ok_iff {count : Nat} {start stop : Cursor} {field : Bytes} :
    take count start = .ok (field, stop) ↔ field.length = count ∧ start.Spans field stop := by
  obtain ⟨offset, rest⟩ := start
  simp only [take]
  split
  case isTrue short =>
      simp only [reduceCtorEq, false_iff, not_and]
      rintro rfl ⟨restEq, _⟩
      simp [show rest = field ++ stop.rest from restEq] at short
  case isFalse enough =>
      have length : (rest.take count).length = count := by
        simp only [List.length_take] at enough ⊢
        omega
      constructor
      · intro read
        cases read
        exact ⟨length, (List.take_append_drop count rest).symm, by rw [length]⟩
      · intro written
        rcases written with ⟨rfl, restEq, offsetEq⟩
        obtain ⟨stopOffset, stopRest⟩ := stop
        simp only at restEq offsetEq
        simp [restEq, offsetEq]

/-- Taking a byte spans it. -/
theorem takeByte_eq_ok_iff {byte : UInt8} {start stop : Cursor} :
    takeByte start = .ok (byte, stop) ↔ start.Spans [byte] stop := by
  obtain ⟨offset, rest⟩ := start
  obtain ⟨stopOffset, stopRest⟩ := stop
  cases rest with
  | nil =>
      simp only [takeByte, reduceCtorEq, false_iff]
      intro spans
      rcases spans with ⟨restEq, _⟩
      simp at restEq
  | cons first rest =>
      simp only [takeByte, Except.ok.injEq, Prod.mk.injEq, Cursor.mk.injEq]
      constructor
      · intro written
        rcases written with ⟨rfl, rfl, rfl⟩
        exact ⟨rfl, rfl⟩
      · intro spans
        rcases spans with ⟨restEq, offsetEq⟩
        simp_all

/-- A number is recognized by its bytes. -/
theorem recognizes_takeNat (width : Nat) :
    Recognizes (takeNat width) (· < 256 ^ width) (Bytes.bigEndian width) id := by
  intro start number stop
  rw [takeNat, bind_eq_ok_iff]
  constructor
  · intro steps
    rcases steps with ⟨field, after, taken, read⟩
    obtain ⟨rfl, spans⟩ := take_eq_ok_iff.mp taken
    cases read
    refine ⟨Bytes.natOfBigEndian field, Bytes.natOfBigEndian_lt field, rfl, ?_⟩
    rwa [Bytes.bigEndian_natOfBigEndian]
  · intro written
    rcases written with ⟨_, small, rfl, spans⟩
    refine ⟨_, stop, take_eq_ok_iff.mpr ⟨Bytes.length_bigEndian _ _, spans⟩, ?_⟩
    show Except.ok (Bytes.natOfBigEndian _, stop) = _
    rw [Bytes.natOfBigEndian_bigEndian, Nat.mod_eq_of_lt small]
    rfl

/-- The written form of a text. -/
def spellText (content : String) : Bytes :=
  Bytes.bigEndian 4 (Bytes.ofText content).length ++ Bytes.ofText content

/-- A text is recognized by the number of its bytes and the bytes. -/
theorem recognizes_takeText :
    Recognizes takeText (fun content => (Bytes.ofText content).length < 2 ^ 32) spellText id := by
  intro start content stop
  rw [takeText, bind_eq_ok_iff]
  constructor
  · intro steps
    rcases steps with ⟨_, payload, lengthRead, read⟩
    obtain ⟨_, fits, rfl, lengthSpans⟩ := (recognizes_takeNat 4 _ _ _).mp lengthRead
    obtain ⟨field, after, taken, textRead⟩ := bind_eq_ok_iff.mp read
    obtain ⟨rfl, fieldSpans⟩ := take_eq_ok_iff.mp taken
    cases valid : Bytes.text? field with
    | none => simp [valid] at textRead
    | some text =>
        simp only [valid] at textRead
        cases textRead
        rw [Bytes.text?_eq_some_iff] at valid
        subst valid
        exact ⟨content, fits, rfl, Cursor.spans_append_iff.mpr ⟨payload, lengthSpans, fieldSpans⟩⟩
  · intro written
    rcases written with ⟨_, fits, rfl, spans⟩
    obtain ⟨payload, lengthSpans, fieldSpans⟩ := Cursor.spans_append_iff.mp spans
    refine ⟨_, payload, (recognizes_takeNat 4 _ _ _).mpr ⟨_, fits, rfl, lengthSpans⟩, ?_⟩
    refine bind_eq_ok_iff.mpr ⟨_, stop, take_eq_ok_iff.mpr ⟨rfl, fieldSpans⟩, ?_⟩
    simp only [Bytes.text?_ofText]
    rfl

section

variable {ρ α : Type} {one : Cursor → Except Fault (α × Cursor)} {Form : ρ → Prop}
  {spell : ρ → Bytes} {meaning : ρ → α}

/-- Things read one after the other were written one after the other. -/
theorem Recognizes.takeMany (recognizes : Recognizes one Form spell meaning) (count : Nat) :
    Recognizes (takeMany one count)
      (fun raws : List ρ => raws.length = count ∧ ∀ raw ∈ raws, Form raw)
      (fun raws => raws.flatMap spell) (fun raws => raws.map meaning) := by
  induction count with
  | zero =>
      intro start results stop
      simp only [Codec.takeMany, Except.ok.injEq, Prod.mk.injEq, List.length_eq_zero_iff]
      constructor
      · intro finished
        rcases finished with ⟨rfl, rfl⟩
        exact ⟨[], by simp, rfl, Cursor.spans_nil_iff.mpr rfl⟩
      · intro written
        rcases written with ⟨_, ⟨rfl, _⟩, rfl, spans⟩
        exact ⟨rfl, Cursor.spans_nil_iff.mp spans⟩
  | succ count ih =>
      intro start results stop
      rw [Codec.takeMany, bind_eq_ok_iff]
      constructor
      · intro steps
        rcases steps with ⟨_, middle, first, others⟩
        obtain ⟨raw, form, rfl, spans⟩ := (recognizes _ _ _).mp first
        obtain ⟨_, after, others, read⟩ := bind_eq_ok_iff.mp others
        obtain ⟨raws, ⟨length, forms⟩, rfl, moreSpans⟩ := (ih _ _ _).mp others
        cases read
        exact ⟨raw :: raws, ⟨congrArg (· + 1) length, List.forall_mem_cons.mpr ⟨form, forms⟩⟩, rfl,
          Cursor.spans_append_iff.mpr ⟨middle, spans, moreSpans⟩⟩
      · intro written
        rcases written with ⟨raws, ⟨length, forms⟩, rfl, spans⟩
        obtain ⟨raw, more, rfl⟩ := List.exists_cons_of_length_eq_add_one length
        obtain ⟨middle, spans, moreSpans⟩ := Cursor.spans_append_iff.mp spans
        obtain ⟨form, forms⟩ := List.forall_mem_cons.mp forms
        have others := (ih middle _ stop).mpr ⟨more, ⟨Nat.succ.inj length, forms⟩, rfl, moreSpans⟩
        exact ⟨_, middle, (recognizes _ _ _).mpr ⟨raw, form, rfl, spans⟩,
          bind_eq_ok_iff.mpr ⟨_, stop, others, rfl⟩⟩

/-- What is made of a result leaves the written forms as they are. -/
theorem Recognizes.map {β : Type} (recognizes : Recognizes one Form spell meaning) (close : α → β) :
    Recognizes
      (fun start => do
        let (result, rest) ← one start
        return (close result, rest))
      Form spell (fun raw => close (meaning raw)) := by
  intro start result stop
  rw [bind_eq_ok_iff]
  constructor
  · intro steps
    rcases steps with ⟨_, after, read, closed⟩
    obtain ⟨raw, form, rfl, spans⟩ := (recognizes _ _ _).mp read
    cases closed
    exact ⟨raw, form, rfl, spans⟩
  · intro written
    rcases written with ⟨raw, form, rfl, spans⟩
    exact ⟨_, stop, (recognizes _ _ _).mpr ⟨raw, form, rfl, spans⟩, rfl⟩

/-- A count in front of things says how many there are. -/
theorem Recognizes.counted {β : Type} (recognizes : Recognizes one Form spell meaning)
    (close : List α → β) :
    Recognizes
      (fun start => do
        let (count, members) ← takeNat 4 start
        let (results, rest) ← Codec.takeMany one count members
        return (close results, rest))
      (fun raws : List ρ => raws.length < 2 ^ 32 ∧ ∀ raw ∈ raws, Form raw)
      (fun raws => Bytes.bigEndian 4 raws.length ++ raws.flatMap spell)
      (fun raws => close (raws.map meaning)) := by
  intro start result stop
  rw [bind_eq_ok_iff]
  constructor
  · intro steps
    rcases steps with ⟨_, members, countRead, read⟩
    obtain ⟨count, fits, rfl, countSpans⟩ := (recognizes_takeNat 4 _ _ _).mp countRead
    obtain ⟨raws, ⟨rfl, forms⟩, rfl, spans⟩ :=
      ((recognizes.takeMany count).map close _ _ _).mp read
    exact ⟨raws, ⟨fits, forms⟩, rfl, Cursor.spans_append_iff.mpr ⟨members, countSpans, spans⟩⟩
  · intro written
    rcases written with ⟨raws, ⟨fits, forms⟩, rfl, spans⟩
    obtain ⟨members, countSpans, memberSpans⟩ := Cursor.spans_append_iff.mp spans
    exact ⟨_, members, (recognizes_takeNat 4 _ _ _).mpr ⟨_, fits, rfl, countSpans⟩,
      ((recognizes.takeMany raws.length).map close _ _ _).mpr
        ⟨raws, ⟨rfl, forms⟩, rfl, memberSpans⟩⟩

/-- Two fields are recognized if each of them is. -/
theorem Recognizes.takePair (recognizes : Recognizes one Form spell meaning) :
    Recognizes (takePair one) (fun raw : ρ × ρ => Form raw.1 ∧ Form raw.2)
      (fun raw => spell raw.1 ++ spell raw.2) (fun raw => (meaning raw.1, meaning raw.2)) := by
  intro start result stop
  rw [Codec.takePair, bind_eq_ok_iff]
  constructor
  · intro steps
    rcases steps with ⟨_, middle, firstRead, read⟩
    obtain ⟨first, firstForm, rfl, firstSpans⟩ := (recognizes _ _ _).mp firstRead
    obtain ⟨_, after, secondRead, read⟩ := bind_eq_ok_iff.mp read
    obtain ⟨second, secondForm, rfl, secondSpans⟩ := (recognizes _ _ _).mp secondRead
    cases read
    exact ⟨(first, second), ⟨firstForm, secondForm⟩, rfl,
      Cursor.spans_append_iff.mpr ⟨middle, firstSpans, secondSpans⟩⟩
  · intro written
    rcases written with ⟨⟨first, second⟩, ⟨firstForm, secondForm⟩, rfl, spans⟩
    obtain ⟨middle, firstSpans, secondSpans⟩ := Cursor.spans_append_iff.mp spans
    have secondRead := (recognizes middle _ stop).mpr ⟨second, secondForm, rfl, secondSpans⟩
    exact ⟨_, middle, (recognizes _ _ _).mpr ⟨first, firstForm, rfl, firstSpans⟩,
      bind_eq_ok_iff.mpr ⟨_, stop, secondRead, rfl⟩⟩

end

end Codec

end FunctionBundler
