import LedgerSandbox.Proofs.Archive.Entries
import LedgerSandbox.Proofs.Submission.Forms

/-!
# What submissions hold

Bytecode can be submitted in three forms, and what a submission holds does not depend on how it
was submitted. `Form.Holds` says for each form, without decoding anything, which bytecode a
submission holds: a text is the digits of the bytecode in either case, with white space around,
and an archive shows one entry with the bytecode as its content. Decoding gives a bytecode
iff the submission holds it in one of the forms (`decode_eq_ok_iff`).

An archive that shows another number of entries than one is reported with this number
(`extractSingle_eq_multipleEntries_iff`). Since no submission is taken to be of two forms, it
does not matter in which order the forms are tried (`decodeIn_eq_decode`).
-/

namespace LedgerSandbox.Submission

open Archive

/-! ## Archives -/

section Extract

variable {raw : Bytes} {entries : List Entry}

theorem extractSingle_ne_ok {bytes : Bytes} (hopen : entries? raw.toByteArray = none) :
    extractSingle raw ≠ .ok bytes := by
  unfold extractSingle
  simp only [hopen]
  exact fun h => nomatch h

theorem extractSingle_of_entryCount_ne (hopen : entries? raw.toByteArray = some entries)
    (hcount : entryCount entries ≠ 1) :
    extractSingle raw = .error (.multipleEntries (entryCount entries)) := by
  unfold extractSingle
  simp only [hopen, if_neg hcount]
  rfl

/-- An archive that shows one entry gives what this entry holds. -/
theorem extractSingle_of_shown {entry : Entry} (hopen : entries? raw.toByteArray = some entries)
    (hshown : shown entries = [entry]) {bytes : Bytes} :
    extractSingle raw = .ok bytes ↔ ∃ content : ByteArray,
      entry.Holds raw.toByteArray content ∧ content.size ≤ 16 * 2 ^ 20 ∧
        Bytes.ofByteArray content = bytes := by
  obtain ⟨hcount, hlast⟩ := shown_eq_singleton_iff.mp hshown
  have hmax : maxContent = 16 * 2 ^ 20 := rfl
  unfold extractSingle
  simp only [hopen, if_pos hcount, hlast, ← hmax]
  cases hread : entry.read? raw.toByteArray maxContent with
  | none =>
    refine iff_of_false (fun h => nomatch h) ?_
    rintro ⟨content, hholds, hsize, -⟩
    cases hread.symm.trans ((Entry.read?_eq_some_iff hsize).mpr hholds)
  | some content =>
    dsimp only
    split
    case isTrue hexceeded =>
      refine iff_of_false (fun h => nomatch h) ?_
      rintro ⟨content', hholds, hsize, -⟩
      cases hread.symm.trans ((Entry.read?_eq_some_iff hsize).mpr hholds)
      exact Nat.not_lt.mpr hsize hexceeded
    case isFalse hsize =>
      have hsize : content.size ≤ maxContent := Nat.not_lt.mp hsize
      constructor
      · intro h
        exact ⟨content, (Entry.read?_eq_some_iff hsize).mp hread, hsize, Except.ok.inj h⟩
      · rintro ⟨content', hholds, hsize', rfl⟩
        cases hread.symm.trans ((Entry.read?_eq_some_iff hsize').mpr hholds)
        rfl

/-- **An opened archive gives the content of its one entry**, and nothing if it has not just one. -/
theorem extractSingle_eq_ok_iff {bytes : Bytes} (hopen : entries? raw.toByteArray = some entries) :
    extractSingle raw = .ok bytes ↔ ∃ (entry : Entry) (content : ByteArray),
      shown entries = [entry] ∧ entry.Holds raw.toByteArray content ∧
        content.size ≤ 16 * 2 ^ 20 ∧ Bytes.ofByteArray content = bytes := by
  by_cases hcount : entryCount entries = 1
  · obtain ⟨entry, hshown⟩ : ∃ entry, shown entries = [entry] :=
      List.length_eq_one_iff.mp (entryCount_eq_length_shown entries ▸ hcount)
    rw [extractSingle_of_shown hopen hshown]
    constructor
    · rintro ⟨content, h⟩
      exact ⟨entry, content, hshown, h⟩
    · rintro ⟨entry', content, hshown', h⟩
      cases hshown.symm.trans hshown'
      exact ⟨content, h⟩
  · rw [extractSingle_of_entryCount_ne hopen hcount]
    refine iff_of_false (fun h => nomatch h) ?_
    rintro ⟨entry, content, hshown, -⟩
    exact hcount (shown_eq_singleton_iff.mp hshown).1

theorem extractSingle_ne_multipleEntries {n : Nat}
    (hopen : entries? raw.toByteArray = some entries) (hcount : entryCount entries = 1) :
    extractSingle raw ≠ .error (.multipleEntries n) := by
  obtain ⟨entry, hshown⟩ : ∃ entry, shown entries = [entry] :=
    List.length_eq_one_iff.mp (entryCount_eq_length_shown entries ▸ hcount)
  unfold extractSingle
  simp only [hopen, if_pos hcount, (shown_eq_singleton_iff.mp hshown).2]
  cases entry.read? raw.toByteArray maxContent with
  | none => exact fun h => nomatch h
  | some content =>
    dsimp only
    split
    case isTrue => exact fun h => nomatch h
    case isFalse => exact fun h => nomatch h

/-- **The number of entries that is reported** is the number of those that the archive shows. -/
theorem extractSingle_eq_multipleEntries_iff {n : Nat}
    (hopen : entries? raw.toByteArray = some entries) :
    extractSingle raw = .error (.multipleEntries n) ↔ (shown entries).length = n ∧ n ≠ 1 := by
  rw [← entryCount_eq_length_shown]
  by_cases hcount : entryCount entries = 1
  · refine iff_of_false (extractSingle_ne_multipleEntries hopen hcount) ?_
    rintro ⟨rfl, hne⟩
    exact hne hcount
  · rw [extractSingle_of_entryCount_ne hopen hcount, Except.error.injEq, Failure.multipleEntries.injEq]
    constructor
    · rintro rfl
      exact ⟨rfl, hcount⟩
    · exact fun h => h.1

end Extract

/-! ## Forms -/

/-- Which bytecode a submission of a form holds. -/
inductive Form.Holds : Form → Bytes → Bytes → Prop
  /-- Text holds the bytes that it writes down in either case, with white space around. -/
  | hex {front text back bytecode : Bytes} : (∀ b ∈ front, isBlank b) → (∀ b ∈ back, isBlank b) →
    text.map lowerAscii = Hex.encode bytecode → bytecodeStart <+: bytecode →
    Holds .hex (front ++ text ++ back) bytecode
  /-- Bytecode holds itself. -/
  | plain {bytecode : Bytes} : bytecodeStart <+: bytecode → Holds .plain bytecode bytecode
  /-- An archive holds the content of the one entry that it shows, up to 16 MiB. -/
  | archive {raw : Bytes} {entries : List Entry} {entry : Entry} {content : ByteArray} :
    isArchive raw → entries? raw.toByteArray = some entries → shown entries = [entry] →
    entry.Holds raw.toByteArray content → content.size ≤ 16 * 2 ^ 20 →
    Holds .archive raw (Bytes.ofByteArray content)

namespace Form

/-- Reads a submission that is taken to be of a form. -/
def read (form : Form) (raw : Bytes) : Except Failure Bytes :=
  match form with
  | hex =>
    match Hex.decode (trim raw) with
    | .ok bytes => return bytes
    | .error fault => throw (.unsupportedFormat s!"invalid hex: {fault.message}")
  | plain => return raw
  | archive => extractSingle raw

variable {form : Form} {raw bytecode : Bytes}

theorem Holds.recognises (h : form.Holds raw bytecode) : form.recognises raw := by
  cases h with
  | @hex front text back _ hfront hback htext hstart =>
    have htrim : trim (front ++ text ++ back) = text :=
      trim_blanks_around hfront hback (Hex.not_isBlank_of_map_eq_encode htext)
    refine isHex_iff.mpr ?_
    rw [htrim, htext]
    exact Hex.encode_prefix_iff.mpr hstart
  | plain hstart => exact isBytecode_iff.mpr hstart
  | archive harchive => exact harchive

theorem read_hex_eq_ok_iff (h : isHex raw) : hex.read raw = .ok bytecode ↔ hex.Holds raw bytecode := by
  have hread : hex.read raw = .ok bytecode ↔ (trim raw).map lowerAscii = Hex.encode bytecode := by
    rw [← Hex.decode_eq_ok_iff]
    unfold read
    cases Hex.decode (trim raw) with
    | ok bytes => exact ⟨fun h => congrArg _ (Except.ok.inj h), fun h => congrArg _ (Except.ok.inj h)⟩
    | error fault => exact iff_of_false (fun h => nomatch h) fun h => nomatch h
  rw [hread]
  constructor
  · intro htext
    obtain ⟨front, back, hfront, hback, hraw⟩ := exists_blanks_around_trim raw
    have hstart : bytecodeStart <+: bytecode := Hex.encode_prefix_iff.mp (htext ▸ isHex_iff.mp h)
    rw [hraw]
    exact .hex hfront hback htext hstart
  · intro hholds
    cases hholds with
    | hex hfront hback htext =>
      rw [trim_blanks_around hfront hback (Hex.not_isBlank_of_map_eq_encode htext), htext]

theorem read_archive_eq_ok_iff (h : isArchive raw) :
    archive.read raw = .ok bytecode ↔ archive.Holds raw bytecode := by
  constructor
  · intro hread
    cases hopen : entries? raw.toByteArray with
    | none => exact absurd hread (extractSingle_ne_ok hopen)
    | some entries =>
      obtain ⟨entry, content, hshown, hholds, hsize, rfl⟩ := (extractSingle_eq_ok_iff hopen).mp hread
      exact .archive h hopen hshown hholds hsize
  · intro hholds
    cases hholds with
    | archive _ hopen hshown hholds hsize =>
      exact (extractSingle_eq_ok_iff hopen).mpr ⟨_, _, hshown, hholds, hsize, rfl⟩

/-- **Reading gives what a submission of the form holds.** -/
theorem read_eq_ok_iff (h : form.recognises raw) :
    form.read raw = .ok bytecode ↔ form.Holds raw bytecode := by
  cases form with
  | hex => exact read_hex_eq_ok_iff h
  | archive => exact read_archive_eq_ok_iff h
  | plain =>
    constructor
    · intro hread
      cases hread
      exact .plain (isBytecode_iff.mp h)
    · rintro ⟨⟩
      rfl

end Form

/-! ## Decoding -/

/-- Decodes a submission as being of the first form, of the given ones in their order, that it
is taken to be of. -/
def decodeIn (order : List Form) (raw : Bytes) : Except Failure Bytes :=
  match order.find? (·.recognises raw) with
  | some form => form.read raw
  | none => throw (.unsupportedFormat ((fileType? raw).getD "unknown file type"))

theorem decode_eq_decodeIn (raw : Bytes) : decode raw = decodeIn [.hex, .plain, .archive] raw := by
  unfold decode decodeIn
  simp only [List.find?_cons, Form.recognises]
  cases isHex raw <;> cases isBytecode raw <;> cases isArchive raw <;> rfl

theorem decodeIn_of_recognises {order : List Form} (hall : ∀ form, form ∈ order) {form : Form}
    {raw : Bytes} (h : form.recognises raw) : decodeIn order raw = form.read raw := by
  have hfind : order.find? (·.recognises raw) = some form := by
    cases hfound : order.find? (·.recognises raw) with
    | none => exact absurd h (List.find?_eq_none.mp hfound form (hall form))
    | some other =>
      have hother : other.recognises raw := by simpa using List.find?_some hfound
      rw [Form.eq_of_recognises hother h]
  unfold decodeIn
  rw [hfind]

theorem decodeIn_of_not_recognises {order : List Form} {raw : Bytes}
    (h : ∀ form : Form, ¬ form.recognises raw) :
    decodeIn order raw = .error (.unsupportedFormat ((fileType? raw).getD "unknown file type")) := by
  unfold decodeIn
  rw [List.find?_eq_none.mpr fun form _ => h form]
  rfl

/-- All forms, in the order in which they are tried. -/
theorem mem_tried (form : Form) : form ∈ [Form.hex, .plain, .archive] := by
  cases form <;> decide

variable {raw bytecode : Bytes}

theorem decode_of_recognises {form : Form} (h : form.recognises raw) : decode raw = form.read raw := by
  rw [decode_eq_decodeIn, decodeIn_of_recognises mem_tried h]

/-- **The order in which the forms are tried does not matter.** -/
theorem decodeIn_eq_decode {order : List Form} (hall : ∀ form, form ∈ order) (raw : Bytes) :
    decodeIn order raw = decode raw := by
  by_cases h : ∃ form : Form, form.recognises raw
  · obtain ⟨form, hform⟩ := h
    rw [decodeIn_of_recognises hall hform, decode_of_recognises hform]
  · have hnone : ∀ form : Form, ¬ form.recognises raw := fun form hform => h ⟨form, hform⟩
    rw [decode_eq_decodeIn, decodeIn_of_not_recognises hnone, decodeIn_of_not_recognises hnone]

/-- **Decoding gives what the submission holds**, in whichever form. -/
theorem decode_eq_ok_iff : decode raw = .ok bytecode ↔ ∃ form : Form, form.Holds raw bytecode := by
  constructor
  · intro h
    by_cases hform : ∃ form : Form, form.recognises raw
    · obtain ⟨form, hform⟩ := hform
      rw [decode_of_recognises hform] at h
      exact ⟨form, (Form.read_eq_ok_iff hform).mp h⟩
    · rw [decode_eq_decodeIn, decodeIn_of_not_recognises fun form h => hform ⟨form, h⟩] at h
      cases h
  · rintro ⟨form, hholds⟩
    rw [decode_of_recognises hholds.recognises]
    exact (Form.read_eq_ok_iff hholds.recognises).mpr hholds

/-- Text and bytecode hold what starts like bytecode. -/
theorem Form.Holds.bytecodeStart_prefix {form : Form} (h : form.Holds raw bytecode)
    (hform : form ≠ .archive) : bytecodeStart <+: bytecode := by
  cases h with
  | hex _ _ _ hstart => exact hstart
  | plain hstart => exact hstart
  | archive => exact absurd rfl hform

/-- What is promised of a submission. -/
structure Unambiguous (raw : Bytes) : Prop where
  /-- It is decoded to what it holds as text, as bytecode or as an archive, and to nothing else. -/
  ok_iff : ∀ bytecode, decode raw = .ok bytecode ↔ ∃ form : Form, form.Holds raw bytecode
  /-- An archive that opens gives the content of its only entry, if that can be unpacked and
  takes at most 16 MiB. -/
  archive_ok_iff : isArchive raw → ∀ entries, entries? raw.toByteArray = some entries →
    ∀ bytecode, decode raw = .ok bytecode ↔ ∃ (entry : Entry) (content : ByteArray),
      shown entries = [entry] ∧ entry.Holds raw.toByteArray content ∧
        content.size ≤ 16 * 2 ^ 20 ∧ Bytes.ofByteArray content = bytecode
  /-- If it has any other number of entries, it is refused with this number. -/
  archive_count_iff : isArchive raw → ∀ entries, entries? raw.toByteArray = some entries →
    ∀ n, decode raw = .error (.multipleEntries n) ↔ (shown entries).length = n ∧ n ≠ 1
  /-- It is not taken to be of two forms. -/
  form_unique : ∀ form other : Form, form.recognises raw → other.recognises raw → form = other
  /-- So the forms may be tried in any order. -/
  order_irrelevant : ∀ order : List Form, (∀ form, form ∈ order) → decodeIn order raw = decode raw
  /-- What text or bytecode holds is bytecode that stands for itself. -/
  decoded_again : ∀ (form : Form) (bytecode : Bytes), form ≠ .archive → form.Holds raw bytecode →
    decode bytecode = .ok bytecode

/-- **The forms of a submission agree, and none is taken for another.** -/
theorem decode_unambiguous (raw : Bytes) : Unambiguous raw where
  ok_iff _ := decode_eq_ok_iff
  archive_ok_iff harchive entries hopen bytecode := by
    have hform : Form.archive.recognises raw := harchive
    rw [decode_of_recognises hform]
    exact extractSingle_eq_ok_iff hopen
  archive_count_iff harchive entries hopen n := by
    have hform : Form.archive.recognises raw := harchive
    rw [decode_of_recognises hform]
    exact extractSingle_eq_multipleEntries_iff hopen
  form_unique _ _ h hother := Form.eq_of_recognises h hother
  order_irrelevant order hall := decodeIn_eq_decode hall raw
  decoded_again form bytecode hform hholds :=
    decode_eq_ok_iff.mpr ⟨.plain, .plain (hholds.bytecodeStart_prefix hform)⟩

end LedgerSandbox.Submission
