/-
Module: FunctionBundler.Proofs.Archive.Writing
Purpose: What becomes of the entries of an archive at its writer.
Trusted boundary: none
Main exports:
  Zip.Writer.putAll_append_iff, Zip.Writer.Takes, Zip.Writer.standard_takes, Archive.Closes,
  Archive.close_eq_ok_iff, Archive.exists_close_of_takes
-/
import FunctionBundler.Archive
import FunctionBundler.Proofs.Fallible

namespace FunctionBundler

/-!
A writer may refuse an entry, and it may fail to finish an archive; both are told as they
are, and nothing else keeps entries from becoming an archive.  That a build succeeds can
only be said of a writer that takes what it is given, so this is the one thing that is asked
of a writer: that it takes entries of different names if their contents are such as it takes.
-/

namespace Zip.Writer

variable {writer : Writer} {contents : Bytes → Prop} {taken entries later : List ArchiveEntry}
  {entry : ArchiveEntry}

/-- Entries are taken one part after the other. -/
theorem putAll_append_iff :
    writer.putAll taken (entries ++ later) = .ok () ↔
      writer.putAll taken entries = .ok () ∧ writer.putAll (taken ++ entries) later = .ok () := by
  induction entries generalizing taken with
  | nil =>
      rw [List.nil_append, List.append_nil]
      exact ⟨fun put => ⟨rfl, put⟩, And.right⟩
  | cons entry rest ih =>
      have whole : taken ++ entry :: rest = taken ++ [entry] ++ rest := List.append_cons ..
      rw [List.cons_append, putAll, putAll, bind_eq_ok_iff, bind_eq_ok_iff, whole]
      constructor
      · intro steps
        obtain ⟨_, takes, put⟩ := steps
        obtain ⟨first, second⟩ := ih.mp put
        exact ⟨⟨(), takes, first⟩, second⟩
      · intro parts
        obtain ⟨⟨_, takes, first⟩, second⟩ := parts
        exact ⟨(), takes, ih.mpr ⟨first, second⟩⟩

/-- A writer takes entries of different names whose contents are of a kind, and finishes the archive
of them. -/
def Takes (writer : Writer) (contents : Bytes → Prop) : Prop :=
  ∀ entries : List ArchiveEntry, (entries.map (·.name)).Nodup →
    (∀ entry ∈ entries, contents entry.data) →
    writer.putAll [] entries = .ok () ∧ ∃ bytes, writer.finish entries = .ok bytes

/-- A writer that takes contents of a kind takes those of any narrower kind. -/
theorem Takes.mono {others : Bytes → Prop} (takes : writer.Takes contents)
    (covers : ∀ content, others content → contents content) : writer.Takes others :=
  fun entries distinct known =>
    takes entries distinct fun entry member => covers _ (known entry member)

/-- A writer that takes an entry behind others says so. -/
theorem Takes.put (takes : writer.Takes contents)
    (distinct : ((entries ++ [entry]).map (·.name)).Nodup)
    (known : ∀ other ∈ entries ++ [entry], contents other.data) :
    writer.put entries entry = .ok () := by
  obtain ⟨-, put⟩ := putAll_append_iff.mp (takes _ distinct known).1
  rw [List.nil_append] at put
  obtain ⟨_, put, -⟩ := bind_eq_ok_iff.mp put
  exact put

/-- The writer that is used takes whatever its fields have room for. -/
theorem standard_takes : standard.Takes fun content => content.length ≤ largest := by
  have put {entries : List ArchiveEntry} (fit : ∀ entry ∈ entries, entry.data.length ≤ largest)
      (taken : List ArchiveEntry) : standard.putAll taken entries = .ok () := by
    induction entries generalizing taken with
    | nil => rfl
    | cons entry rest ih =>
        obtain ⟨small, others⟩ := List.forall_mem_cons.mp fit
        have first : standard.put taken entry = .ok () := if_pos small
        rw [putAll, first]
        exact ih others _
  exact fun entries _ fit => ⟨put fit [], _, rfl⟩

end Zip.Writer

namespace Archive

/-- An archive is what a writer makes of entries. -/
structure Closes (writer : Zip.Writer) (entries : List ArchiveEntry) (archive : Archive) :
    Prop where
  entries : archive.entries = entries
  bytes : writer.finish archive.entries = .ok archive.bytes
  digest : archive.digest = Sha256.digest archive.bytes

variable {writer : Zip.Writer} {contents : Bytes → Prop} {taken last : List ArchiveEntry}

/-- An archive is closed exactly if the last entries are taken and the writer ends well. -/
theorem close_eq_ok_iff {archive : Archive} :
    close writer taken last = .ok archive ↔
      writer.putAll taken last = .ok () ∧ Closes writer (taken ++ last) archive := by
  rw [close, mapError_eq_ok_iff, bind_eq_ok_iff]
  simp only [bind_eq_ok_iff]
  constructor
  · intro steps
    obtain ⟨_, put, bytes, finished, closed⟩ := steps
    cases closed
    exact ⟨put, rfl, finished, rfl⟩
  · intro parts
    obtain ⟨entries, bytes, digest⟩ := archive
    obtain ⟨put, same, finished, digested⟩ := parts
    cases same
    refine ⟨(), put, bytes, finished, ?_⟩
    rw [show digest = Sha256.digest bytes from digested]
    rfl

/-- Only the writer keeps an archive from being finished. -/
theorem exists_fault_of_close {failure : Failure}
    (refused : close writer taken last = .error failure) : ∃ fault, failure = .archive fault := by
  rw [close, mapError_eq_error_iff] at refused
  obtain ⟨fault, -, rfl⟩ := refused
  exact ⟨fault, rfl⟩

/-- A writer that takes all entries makes an archive of them. -/
theorem exists_close_of_takes (takes : writer.Takes contents)
    (distinct : ((taken ++ last).map (·.name)).Nodup)
    (known : ∀ entry ∈ taken ++ last, contents entry.data) :
    ∃ archive, close writer taken last = .ok archive := by
  obtain ⟨put, bytes, finished⟩ := takes _ distinct known
  exact ⟨⟨taken ++ last, bytes, Sha256.digest bytes⟩,
    close_eq_ok_iff.mpr ⟨(Zip.Writer.putAll_append_iff.mp put).2, rfl, finished, rfl⟩⟩

end Archive

end FunctionBundler
