import LedgerSandbox.Proofs.Submission.Hex
import LedgerSandbox.Submission.Decode
import Mathlib.Data.List.DropRight

/-!
# The forms of a submission

A submission is recognised by how it starts, once the white space around a text is taken away
(`isHex_iff`). No submission is recognised as two forms (`Form.eq_of_recognises`): text starts
with white space or the digit 0, bytecode with a zero byte, and an archive with the letter P.
-/

namespace LedgerSandbox.Submission

/-! ## White space -/

theorem trim_eq_rdropWhile (text : Bytes) :
    trim text = (text.dropWhile isBlank).rdropWhile isBlank := rfl

/-- A text is what trimming leaves of it, with white space around. -/
theorem exists_blanks_around_trim (text : Bytes) : ∃ front back : Bytes,
    (∀ b ∈ front, isBlank b) ∧ (∀ b ∈ back, isBlank b) ∧ text = front ++ trim text ++ back := by
  refine ⟨text.takeWhile isBlank, (text.dropWhile isBlank).rtakeWhile isBlank,
    fun b hb => List.mem_takeWhile_imp hb, fun b hb => List.mem_rtakeWhile_imp hb, ?_⟩
  rw [trim_eq_rdropWhile, List.append_assoc, List.rdropWhile_append_rtakeWhile,
    List.takeWhile_append_dropWhile]

theorem dropWhile_blanks_append {front rest : Bytes} (hfront : ∀ b ∈ front, isBlank b)
    (hrest : ∀ hne : rest ≠ [], ¬ isBlank (rest.head hne)) :
    (front ++ rest).dropWhile isBlank = rest := by
  rw [List.dropWhile_append_of_pos hfront]
  cases rest with
  | nil => rfl
  | cons b rest => exact List.dropWhile_cons_of_neg (hrest (List.cons_ne_nil b rest))

/-- Trimming takes away the white space around a text without any. -/
theorem trim_blanks_around {front text back : Bytes} (hfront : ∀ b ∈ front, isBlank b)
    (hback : ∀ b ∈ back, isBlank b) (htext : ∀ b ∈ text, ¬ isBlank b) :
    trim (front ++ text ++ back) = text := by
  unfold trim
  by_cases hempty : text = []
  · subst hempty
    have hall : ∀ b ∈ front ++ back, isBlank b := by
      intro b hb
      rcases List.mem_append.mp hb with hb | hb
      · exact hfront b hb
      · exact hback b hb
    rw [List.append_nil, List.dropWhile_eq_nil_iff.mpr hall]
    rfl
  · have hdrop : (front ++ text ++ back).dropWhile isBlank = text ++ back := by
      rw [List.append_assoc]
      refine dropWhile_blanks_append hfront fun hne => ?_
      rw [List.head_append_of_ne_nil hempty]
      exact htext _ (List.head_mem hempty)
    have hreverse : (back.reverse ++ text.reverse).dropWhile isBlank = text.reverse := by
      refine dropWhile_blanks_append (fun b hb => hback b (List.mem_reverse.mp hb)) fun hne => ?_
      exact htext _ (List.mem_reverse.mp (List.head_mem hne))
    rw [hdrop, List.reverse_append, hreverse, List.reverse_reverse]

/-! ## Recognition -/

/-- **Text is recognised** by the digits of the bytes that bytecode starts with. -/
theorem isHex_iff {raw : Bytes} :
    isHex raw ↔ Hex.encode bytecodeStart <+: (trim raw).map lowerAscii := by
  have hstart : hexStart.map lowerAscii = Hex.encode bytecodeStart := by decide
  have hlength : (Hex.encode bytecodeStart).length ≤ hexStart.length := by decide
  unfold isHex startsLike
  rw [List.isPrefixOf_iff_prefix, hstart, List.map_take, List.prefix_take_iff]
  exact and_iff_left hlength

theorem isBytecode_iff {raw : Bytes} : isBytecode raw ↔ bytecodeStart <+: raw :=
  List.isPrefixOf_iff_prefix

/-- A form in which bytecode can be submitted. -/
inductive Form where
  | hex
  | plain
  | archive
deriving DecidableEq

namespace Form

/-- Whether a submission is taken to be of a form. -/
def recognises : Form → Bytes → Bool
  | hex => isHex
  | plain => isBytecode
  | archive => isArchive

/-- With which bytes submissions of a form start. -/
def startsWith : Form → UInt8 → Bool
  | hex, b => isBlank b || b = 0x30
  | plain, b => b = 0x00
  | archive, b => b = 0x50

theorem startsWith_of_isHex {raw : Bytes} (h : isHex raw) :
    ∃ b rest, raw = b :: rest ∧ hex.startsWith b := by
  obtain ⟨front, back, hfront, -, hraw⟩ := exists_blanks_around_trim raw
  obtain ⟨digits, hdigits⟩ := isHex_iff.mp h
  cases front with
  | cons b front =>
    have hblank : isBlank b := hfront b List.mem_cons_self
    exact ⟨b, front ++ trim raw ++ back, hraw, Bool.or_eq_true_iff.mpr (.inl hblank)⟩
  | nil =>
    obtain ⟨b, text, htrim, hb, -⟩ := List.map_eq_cons_iff.mp hdigits.symm
    -- The digit 0 is its own lower case, and of no other byte.
    have hzero : b = 0x30 := by
      have hdigit : lowerAscii b = 0x30 := hb
      unfold lowerAscii at hdigit
      grind
    refine ⟨b, text ++ back, ?_, Bool.or_eq_true_iff.mpr (.inr (decide_eq_true hzero))⟩
    rw [htrim] at hraw
    exact hraw

theorem exists_startsWith {form : Form} {raw : Bytes} (h : form.recognises raw) :
    ∃ b rest, raw = b :: rest ∧ form.startsWith b := by
  cases form with
  | hex => exact startsWith_of_isHex h
  | plain =>
    obtain ⟨rest, rfl⟩ := isBytecode_iff.mp h
    exact ⟨0x00, _, rfl, rfl⟩
  | archive =>
    obtain ⟨start, hstart, hprefix⟩ := List.any_eq_true.mp h
    obtain ⟨rest, rfl⟩ := List.isPrefixOf_iff_prefix.mp hprefix
    have hfirst : ∀ start ∈ archiveStarts, start.head? = some 0x50 := by decide
    obtain ⟨tail, rfl⟩ := List.head?_eq_some_iff.mp (hfirst start hstart)
    exact ⟨0x50, tail ++ rest, rfl, rfl⟩

theorem eq_of_startsWith {form other : Form} {b : UInt8} (h : form.startsWith b)
    (hother : other.startsWith b) : form = other := by
  unfold startsWith isBlank at h hother
  cases form <;> cases other <;> grind

/-- **The forms exclude each other.** -/
theorem eq_of_recognises {form other : Form} {raw : Bytes} (h : form.recognises raw)
    (hother : other.recognises raw) : form = other := by
  obtain ⟨b, rest, rfl, hb⟩ := exists_startsWith h
  obtain ⟨b', rest', hraw, hb'⟩ := exists_startsWith hother
  cases hraw
  exact eq_of_startsWith hb hb'

end Form

end LedgerSandbox.Submission
