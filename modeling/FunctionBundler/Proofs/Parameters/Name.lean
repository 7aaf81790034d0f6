/-
Module: FunctionBundler.Proofs.Parameters.Name
Purpose: When two entry points have one function name.
Trusted boundary: none
Main exports:
  Parameters.eq_of_append_separator, Parameters.fingerprint_inj, FunctionName.nameBy,
  FunctionName.nameBy_inj, FunctionName.forall_nameBy_eq_iff, FunctionName.compute_eq_iff
-/
import FunctionBundler.Parameters
import FunctionBundler.Proofs.Digest.Hex

namespace FunctionBundler

/-!
A fingerprint joins a free text and three numbers, and the text may contain the
separator and digits as well.  But a decimal number has no separator in it, so the last
separator of a fingerprint is always the one before its last number: fingerprints are
taken apart from their ends.  A name ends in a fixed number of digits after the target,
so it is taken apart from its end as well, whatever the target contains.  Hence a name
tells targets, and parameters as far as the digest does.
-/

namespace Parameters

/-! ### Fingerprints -/

private theorem separator_notMem_toDigits (number : Nat) : '#' ∉ Nat.toDigits 10 number := by
  intro member
  have isDigit : '#'.isDigit = true := Nat.isDigit_of_mem_toDigits (by decide) (by decide) member
  exact absurd isDigit (by decide)

private theorem eq_of_toDigits_eq {number other : Nat}
    (same : Nat.toDigits 10 number = Nat.toDigits 10 other) : number = other :=
  calc number
      = Nat.ofDigitChars 10 (Nat.toDigits 10 number) 0 := Nat.ofDigitChars_ten_toDigits.symm
    _ = Nat.ofDigitChars 10 (Nat.toDigits 10 other) 0 := by rw [same]
    _ = other := Nat.ofDigitChars_ten_toDigits

/-- A text is cut at its last separator in one way. -/
theorem eq_of_append_separator {separator : Char} {front other back last : List Char}
    (fresh : separator ∉ back) (otherFresh : separator ∉ last)
    (same : front ++ separator :: back = other ++ separator :: last) :
    front = other ∧ back = last := by
  rcases List.append_eq_append_iff.mp same with ⟨between, rfl, rest⟩ | ⟨between, rfl, rest⟩
  · cases between with
    | nil =>
        cases rest
        exact ⟨(List.append_nil front).symm, rfl⟩
    | cons first later =>
        cases rest
        exact absurd (List.mem_append_right later List.mem_cons_self) fresh
  · cases between with
    | nil =>
        cases rest
        exact ⟨List.append_nil other, rfl⟩
    | cons first later =>
        cases rest
        exact absurd (List.mem_append_right later List.mem_cons_self) otherFresh

private theorem eq_of_append_number {front other : List Char} {number last : Nat}
    (same : front ++ '#' :: Nat.toDigits 10 number = other ++ '#' :: Nat.toDigits 10 last) :
    front = other ∧ number = last := by
  obtain ⟨fronts, digits⟩ := eq_of_append_separator (separator_notMem_toDigits number)
    (separator_notMem_toDigits last) same
  exact ⟨fronts, eq_of_toDigits_eq digits⟩

private theorem toList_fingerprint (parameters : Parameters) :
    parameters.fingerprint.toList =
      ((parameters.identifier.toList ++ '#' :: Nat.toDigits 10 parameters.ephemeralStorage) ++
        '#' :: Nat.toDigits 10 parameters.memory) ++ '#' :: Nat.toDigits 10 parameters.timeout := by
  simp [fingerprint, toString]

/-- Parameters are told apart by their fingerprints. -/
theorem fingerprint_inj {parameters other : Parameters} :
    parameters.fingerprint = other.fingerprint ↔ parameters = other := by
  refine ⟨fun same => ?_, congrArg fingerprint⟩
  have texts := congrArg String.toList same
  rw [toList_fingerprint, toList_fingerprint] at texts
  obtain ⟨texts, timeouts⟩ := eq_of_append_number texts
  obtain ⟨texts, memories⟩ := eq_of_append_number texts
  obtain ⟨identifiers, storages⟩ := eq_of_append_number texts
  cases parameters
  cases other
  cases String.toList_inj.mp identifiers
  cases storages
  cases memories
  cases timeouts
  rfl

private theorem ofText_fingerprint_inj {parameters other : Parameters} :
    Bytes.ofText parameters.fingerprint = Bytes.ofText other.fingerprint ↔ parameters = other := by
  rw [← fingerprint_inj]
  refine ⟨fun same => Option.some.inj ?_, congrArg Bytes.ofText⟩
  rw [← Bytes.text?_ofText, same, Bytes.text?_ofText]

end Parameters

namespace FunctionName

/-! ### Names by any digest -/

/-- The digits that a name keeps of the digest of a fingerprint. -/
def digitsBy (digest : Bytes → Digest) (parameters : Parameters) : List Char :=
  (digest (Bytes.ofText parameters.fingerprint)).hex.toList.take digestDigits

/-- The name that a target's entry point would have if fingerprints were digested by `digest`. -/
def nameBy (digest : Bytes → Digest) (target : String) (parameters : Parameters) : FunctionName :=
  ⟨target ++ "-" ++ String.ofList (digitsBy digest parameters)⟩

variable {digest : Bytes → Digest} {target other : String} {parameters others : Parameters}

private theorem compute_eq_nameBy (target : String) (parameters : Parameters) :
    compute target parameters = nameBy Sha256.digest target parameters := by
  simp [compute, nameBy, digitsBy, toString]

private theorem length_digitsBy (digest : Bytes → Digest) (parameters : Parameters) :
    (digitsBy digest parameters).length = digestDigits := by
  rw [digitsBy, List.length_take, Digest.length_hex]
  rfl

/-- Function names are equal exactly if both of their parts are. -/
theorem nameBy_inj : nameBy digest target parameters = nameBy digest other others ↔
    target = other ∧ digitsBy digest parameters = digitsBy digest others := by
  constructor
  · intro same
    have texts := congrArg (fun name => name.text.toList) same
    simp only [nameBy, String.toList_append, String.toList_ofList] at texts
    obtain ⟨fronts, digits⟩ := List.append_inj' texts (by rw [length_digitsBy, length_digitsBy])
    exact ⟨String.toList_inj.mp (List.append_cancel_right fronts), digits⟩
  · rintro ⟨rfl, digits⟩
    rw [nameBy, nameBy, digits]

/-- A digest that tells one byte string from all others. -/
def pointing (marked : Bytes) (bytes : Bytes) : Digest :=
  if bytes = marked then ⟨List.replicate 32 0, rfl⟩ else ⟨List.replicate 32 255, rfl⟩

private theorem digitsBy_pointing_ne (distinct : parameters ≠ others) :
    digitsBy (pointing (Bytes.ofText parameters.fingerprint)) parameters ≠
      digitsBy (pointing (Bytes.ofText parameters.fingerprint)) others := by
  have other : Bytes.ofText others.fingerprint ≠ Bytes.ofText parameters.fingerprint := by
    rw [Ne, Parameters.ofText_fingerprint_inj]
    exact Ne.symm distinct
  rw [digitsBy, digitsBy, pointing, pointing, if_pos rfl, if_neg other]
  decide +kernel

/-- Names that agree whatever the digest belong to one target and to the same parameters. -/
theorem forall_nameBy_eq_iff :
    (∀ digest, nameBy digest target parameters = nameBy digest other others) ↔
      target = other ∧ parameters = others := by
  constructor
  · intro same
    refine ⟨(nameBy_inj.mp (same Sha256.digest)).1, Decidable.byContradiction fun distinct => ?_⟩
    exact digitsBy_pointing_ne distinct (nameBy_inj.mp (same _)).2
  · rintro ⟨rfl, rfl⟩ digest
    rfl

/-- A name tells its target, and it tells parameters as far as the digits that it keeps of their
fingerprint's digest do: this holds of every digest, that of names included.  Fingerprints tell
parameters in full, so nothing but the digest can give one name to different parameters. -/
theorem compute_eq_iff (target other : String) (parameters others : Parameters) :
    (compute target parameters = compute other others ↔
      target = other ∧ digitsBy Sha256.digest parameters = digitsBy Sha256.digest others) ∧
    (∀ digest, nameBy digest target parameters = nameBy digest other others ↔
      target = other ∧ digitsBy digest parameters = digitsBy digest others) ∧
    ((∀ digest, nameBy digest target parameters = nameBy digest other others) ↔
      target = other ∧ parameters = others) ∧
    (Bytes.ofText parameters.fingerprint = Bytes.ofText others.fingerprint ↔
      parameters = others) := by
  refine ⟨?_, fun digest => nameBy_inj, forall_nameBy_eq_iff, Parameters.ofText_fingerprint_inj⟩
  rw [compute_eq_nameBy, compute_eq_nameBy]
  exact nameBy_inj

end FunctionName

end FunctionBundler
