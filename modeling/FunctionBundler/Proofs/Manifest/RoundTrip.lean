/-
Module: FunctionBundler.Proofs.Manifest.RoundTrip
Purpose: A manifest that is written is read back, and so is whatever was read from any spelling.
Trusted boundary: none
Main exports:
  Manifest.spells_write, Manifest.read_write
-/
import FunctionBundler.Proofs.Manifest.Spelling
import FunctionBundler.Proofs.Text.Lines

namespace FunctionBundler.Manifest

/-!
The written form is one spelling among many: without white space, the members in their
order, a source name only where there is one, and in texts only the escapes that are needed.
Reading it back is therefore a case of reading a spelling.
-/

open JsonText

private theorem isText_quote (text : String) : IsText (quote text) text :=
  ⟨_, spellsChars_flatMap_escape text.toList, rfl⟩

private theorem after_quote {α : Type} {Form : List Char → α → Prop} {text : String} {value : α}
    (isValue : Form (quote text) value) : After Form (':' :: quote text) value :=
  ⟨[], [], quote text, spaces_nil, spaces_nil, isValue, rfl⟩

private theorem isMember_quote {σ : Type} {Member : σ → List Char → List Char → σ → Prop}
    {state result : σ} {name : String} {after : List Char}
    (member : Member state name.toList after result) :
    IsMember Member state (quote name ++ after) result := by
  have named := IsMember.named (spellsChars_flatMap_escape name.toList) member
  rw [quote]
  simpa using named

/-- The members of a written entry point, in their order. -/
theorem spellsEntry_writeEntry (entry : EntryPoint) : SpellsEntry (writeEntry entry) entry := by
  obtain ⟨fileName, metadata, sourceName⟩ := entry
  have first := IsSeparator.first spaces_nil
  have comma := IsSeparator.comma spaces_nil spaces_nil
  have file : IsMember IsEntryMember ⟨none, none, none⟩ (writeMember "filename" fileName)
      ⟨some fileName, none, none⟩ :=
    isMember_quote (.fileName rfl (after_quote (isText_quote fileName)))
  have blob : IsMember IsEntryMember ⟨some fileName, none, none⟩ (writeMember "user_meta" metadata)
      ⟨some fileName, some metadata, none⟩ :=
    isMember_quote (.metadata rfl (after_quote (isText_quote metadata)))
  cases sourceName with
  | none =>
      have series := Series.piece first file (.piece comma blob (.done spaces_nil))
      simpa [writeEntry] using SpellsEntry.object series rfl
  | some name =>
      have source : IsMember IsEntryMember ⟨some fileName, some metadata, none⟩
          (writeMember "original_function_name" name)
          ⟨some fileName, some metadata, some (some name)⟩ :=
        isMember_quote (.sourceName rfl (after_quote (.text (isText_quote name))))
      have series := Series.piece first file (.piece comma blob
        (.piece comma source (.done spaces_nil)))
      simpa [writeEntry] using SpellsEntry.object series rfl

private theorem isItem_writeEntry (known : List EntryPoint) (entry : EntryPoint) :
    IsItem SpellsEntry addEntry known (writeEntry entry) (known ++ [entry]) :=
  .value (spellsEntry_writeEntry entry)

/-- Entry points that are written after others. -/
theorem series_writeEntry (known entries : List EntryPoint) :
    Series (IsItem SpellsEntry addEntry) false known
      (entries.flatMap fun entry => ',' :: writeEntry entry) (known ++ entries) := by
  induction entries generalizing known with
  | nil =>
      rw [List.append_nil]
      exact .done spaces_nil
  | cons entry entries ih =>
      have series := Series.piece (.comma spaces_nil spaces_nil) (isItem_writeEntry known entry)
        (ih (known ++ [entry]))
      simpa using series

private theorem spellsEntries_write (entries : List EntryPoint) :
    SpellsEntries ('[' :: (List.intercalate [','] (entries.map writeEntry) ++ [']'])) entries := by
  refine ⟨_, ?_, rfl⟩
  cases entries with
  | nil => exact .done spaces_nil
  | cons entry entries =>
      rw [List.map_cons, Text.intercalate_cons, List.flatMap_map]
      exact .piece (.first spaces_nil) (isItem_writeEntry [] entry)
        (series_writeEntry [entry] entries)

/-- The written form spells the manifest. -/
theorem spells_write (manifest : Manifest) : Spells (write manifest).toList manifest := by
  obtain ⟨entries⟩ := manifest
  have after : After SpellsEntries
      (':' :: '[' :: (List.intercalate [','] (entries.map writeEntry) ++ [']'])) entries :=
    ⟨[], [], _, spaces_nil, spaces_nil, spellsEntries_write entries, rfl⟩
  have member := isMember_quote (IsManifestMember.entries after)
  have series := Series.piece (.first spaces_nil) member (.done spaces_nil)
  refine ⟨[], _, [], spaces_nil, .object series, spaces_nil, ?_⟩
  simp [write]

/-- A manifest survives being written and read.  So does whatever is read from another text,
which is read exactly if it spells the manifest: white space, the order of members, escapes,
members of other names, a null source name and arrays for objects make no difference. -/
theorem read_write :
    (∀ manifest, read (write manifest) = .ok manifest) ∧
      (∀ text manifest, read text = .ok manifest ↔ Spells text.toList manifest) ∧
      ∀ text manifest, read text = .ok manifest → read (write manifest) = .ok manifest := by
  have back (manifest : Manifest) : read (write manifest) = .ok manifest :=
    read_eq_ok_iff_spells.mpr (spells_write manifest)
  exact ⟨back, fun _ _ => read_eq_ok_iff_spells, fun _ manifest _ => back manifest⟩

/-- A spelling with white space, members of other names, members in another order, escapes, a null
source name and an array for an entry point. -/
def unusual : String :=
  " \x7b \"made\": [1.5e3, \x7b\"by\": null\x7d],\n \"entry_points\": [ " ++
    "\x7b\"original_function_name\": null, \"user_meta\": \"QQ==\", " ++
    "\"filename\": \"a\\u0022\\/\\uD83D\\uDE00\"\x7d, [\"b\", \"\", \"c\"] ] \x7d "

/-- What the spelling stands for. -/
def spelled : Manifest :=
  ⟨[⟨"a\"/😀", "QQ==", none⟩, ⟨"b", "", some "c"⟩]⟩

private theorem read_write_unusual : read unusual = .ok spelled ∧ Spells unusual.toList spelled ∧
    read (write spelled) = .ok spelled := by
  have reads : read unusual = .ok spelled := by decide +kernel
  exact ⟨reads, (read_write.2.1 unusual spelled).mp reads, read_write.2.2 unusual spelled reads⟩

end FunctionBundler.Manifest
