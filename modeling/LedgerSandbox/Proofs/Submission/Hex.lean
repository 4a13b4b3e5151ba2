import LedgerSandbox.Proofs.Except
import LedgerSandbox.Submission.FileType
import LedgerSandbox.Submission.Hex
import Mathlib.Data.List.Basic

/-!
# Hexadecimal text and back

`Hex.encode` writes bytes as lower-case digits. A text is decoded to some bytes iff it is what
the bytes are written as, up to the case of each letter (`Hex.decode_eq_ok_iff`). So all texts
of some bytes decode to them, and no text decodes to the bytes of another one.
-/

namespace LedgerSandbox.Submission.Hex

/-- The digit of a value below 16. -/
def digit (value : UInt8) : UInt8 := if value < 10 then value + 0x30 else value + 0x57

/-- Bytes as hexadecimal text in lower case. -/
def encode : Bytes → Bytes
  | [] => []
  | b :: rest => digit (b / 16) :: digit (b % 16) :: encode rest

/-! ## Digits -/

/-- A byte is read as a digit iff it is one, in either case. -/
theorem digit?_eq_some_iff {b value : UInt8} :
    digit? b = some value ↔ value < 16 ∧ lowerAscii b = digit value := by
  unfold digit? lowerAscii digit
  grind

theorem digit_injective {a b : UInt8} (ha : a < 16) (hb : b < 16) (h : digit a = digit b) :
    a = b := by
  unfold digit at h
  grind

theorem div_lt (b : UInt8) : b / 16 < 16 := by
  have hb := b.toNat_lt
  rw [UInt8.lt_iff_toNat_lt, UInt8.toNat_div]
  exact Nat.div_lt_of_lt_mul hb

theorem mod_lt (b : UInt8) : b % 16 < 16 := by
  rw [UInt8.lt_iff_toNat_lt, UInt8.toNat_mod]
  exact Nat.mod_lt _ (by decide)

/-- A byte is made up of its two halves in one way only. -/
theorem eq_of_halves_iff {b high low : UInt8} (hhigh : high < 16) (hlow : low < 16) :
    16 * high + low = b ↔ high = b / 16 ∧ low = b % 16 := by
  simp only [UInt8.lt_iff_toNat_lt, UInt8.toNat_ofNat, Nat.reducePow, Nat.reduceMod] at hhigh hlow
  simp only [← UInt8.toNat_inj, UInt8.toNat_add, UInt8.toNat_mul, UInt8.toNat_div, UInt8.toNat_mod,
    UInt8.toNat_ofNat, Nat.reducePow, Nat.reduceMod]
  have hb := b.toNat_lt
  omega

/-! ## Texts -/

@[simp] theorem length_encode (bytes : Bytes) : (encode bytes).length = 2 * bytes.length := by
  induction bytes with
  | nil => rfl
  | cons b rest ih =>
    rw [encode, List.length_cons, List.length_cons, List.length_cons, ih]
    omega

theorem encode_append (bytes more : Bytes) : encode (bytes ++ more) = encode bytes ++ encode more := by
  induction bytes with
  | nil => rfl
  | cons b rest ih => rw [List.cons_append, encode, encode, ih, List.cons_append, List.cons_append]

/-- A text tells the bytes that it starts with. -/
theorem encode_prefix_iff {start bytes : Bytes} :
    encode start <+: encode bytes ↔ start <+: bytes := by
  constructor
  · intro h
    induction start generalizing bytes with
    | nil => exact List.nil_prefix
    | cons a start ih =>
      cases bytes with
      | nil => simp [encode] at h
      | cons b rest =>
        simp only [encode, List.cons_prefix_cons] at h ⊢
        obtain ⟨hhigh, hlow, hrest⟩ := h
        have hb : 16 * (a / 16) + a % 16 = b := (eq_of_halves_iff (div_lt a) (mod_lt a)).mpr
          ⟨digit_injective (div_lt a) (div_lt b) hhigh, digit_injective (mod_lt a) (mod_lt b) hlow⟩
        have ha : 16 * (a / 16) + a % 16 = a :=
          (eq_of_halves_iff (div_lt a) (mod_lt a)).mpr ⟨rfl, rfl⟩
        exact ⟨ha.symm.trans hb, ih hrest⟩
  · rintro ⟨rest, rfl⟩
    exact ⟨encode rest, (encode_append start rest).symm⟩

/-- Whether two digits and what follows them are read as some bytes. -/
theorem decodeFrom_cons_eq_ok_iff {index : Nat} {a b : UInt8} {rest bytes : Bytes} :
    decodeFrom index (a :: b :: rest) = .ok bytes ↔
      ∃ high low more, digit? a = some high ∧ digit? b = some low ∧
        decodeFrom (index + 2) rest = .ok more ∧ (16 * high + low) :: more = bytes := by
  rw [decodeFrom]
  cases digit? a with
  | none => simp [throw, throwThe, MonadExceptOf.throw]
  | some high =>
    cases digit? b with
    | none => simp [throw, throwThe, MonadExceptOf.throw]
    | some low =>
      dsimp only
      rw [Except.bind_eq_ok_iff]
      constructor
      · rintro ⟨more, hmore, h⟩
        exact ⟨high, low, more, rfl, rfl, hmore, Except.ok.inj h⟩
      · rintro ⟨_, _, more, hhigh, hlow, hmore, h⟩
        cases hhigh
        cases hlow
        exact ⟨more, hmore, congrArg Except.ok h⟩

/-- Whether two digits and what follows them are what some bytes are written as. -/
theorem map_lowerAscii_cons_eq_encode_iff {a b : UInt8} {rest bytes : Bytes} :
    (a :: b :: rest).map lowerAscii = encode bytes ↔
      ∃ high low more, digit? a = some high ∧ digit? b = some low ∧
        rest.map lowerAscii = encode more ∧ (16 * high + low) :: more = bytes := by
  simp only [digit?_eq_some_iff, List.map_cons]
  constructor
  · intro h
    cases bytes with
    | nil => exact absurd h (List.cons_ne_nil _ _)
    | cons c more =>
      obtain ⟨ha, h⟩ := List.cons_eq_cons.mp h
      obtain ⟨hb, hrest⟩ := List.cons_eq_cons.mp h
      have hc : 16 * (c / 16) + c % 16 = c := (eq_of_halves_iff (div_lt c) (mod_lt c)).mpr ⟨rfl, rfl⟩
      exact ⟨c / 16, c % 16, more, ⟨div_lt c, ha⟩, ⟨mod_lt c, hb⟩, hrest, by rw [hc]⟩
  · rintro ⟨high, low, more, ⟨hhigh, ha⟩, ⟨hlow, hb⟩, hrest, rfl⟩
    obtain ⟨hdiv, hmod⟩ := (eq_of_halves_iff hhigh hlow).mp rfl
    rw [encode, ← hdiv, ← hmod, ha, hb, hrest]

theorem exists_digit_of_mem_encode {b : UInt8} {bytes : Bytes} (h : b ∈ encode bytes) :
    ∃ value, value < 16 ∧ b = digit value := by
  induction bytes with
  | nil => cases h
  | cons c rest ih =>
    rcases List.mem_cons.mp h with rfl | h
    · exact ⟨c / 16, div_lt c, rfl⟩
    · rcases List.mem_cons.mp h with rfl | h
      · exact ⟨c % 16, mod_lt c, rfl⟩
      · exact ih h

/-- There is no white space in what bytes are written as. -/
theorem not_isBlank_of_map_eq_encode {text bytes : Bytes} (h : text.map lowerAscii = encode bytes) :
    ∀ b ∈ text, ¬ isBlank b := by
  intro b hb
  have hmem : lowerAscii b ∈ encode bytes := h ▸ List.mem_map_of_mem hb
  obtain ⟨value, hvalue, hdigit⟩ := exists_digit_of_mem_encode hmem
  have hread : digit? b = some value := digit?_eq_some_iff.mpr ⟨hvalue, hdigit⟩
  unfold digit? at hread
  unfold isBlank
  grind

theorem decodeFrom_eq_ok_iff {index : Nat} {text bytes : Bytes} :
    decodeFrom index text = .ok bytes ↔ text.map lowerAscii = encode bytes := by
  match text with
  | [] =>
    cases bytes with
    | nil => exact iff_of_true rfl rfl
    | cons b rest => exact iff_of_false (fun h => nomatch h) fun h => nomatch h
  | [a] =>
    refine iff_of_false (fun h => nomatch h) fun h => ?_
    have hlength := congrArg List.length h
    rw [List.length_map, length_encode, List.length_singleton] at hlength
    omega
  | a :: b :: rest =>
    rw [decodeFrom_cons_eq_ok_iff, map_lowerAscii_cons_eq_encode_iff]
    have hrest : ∀ more, decodeFrom (index + 2) rest = .ok more ↔ rest.map lowerAscii = encode more :=
      fun _ => decodeFrom_eq_ok_iff
    simp only [hrest]

/-- **A text is decoded to some bytes iff it is what they are written as**, up to the case of
each letter. -/
theorem decode_eq_ok_iff {text bytes : Bytes} :
    decode text = .ok bytes ↔ text.map lowerAscii = encode bytes := by
  unfold decode
  split
  case isTrue hodd =>
    refine iff_of_false (fun h => nomatch h) fun h => ?_
    have hlength := congrArg List.length h
    rw [List.length_map, length_encode] at hlength
    omega
  case isFalse => exact decodeFrom_eq_ok_iff

end LedgerSandbox.Submission.Hex
