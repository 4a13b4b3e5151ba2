import LedgerSandbox.Proofs.Text.Json

/-!
# Reading JSON objects

A reader of JSON objects whose members are texts and natural numbers. It reads just what the
grammar says (`Json.read?_eq_some_iff`). So the grammar leaves no choice: no text is an object of
some members and of other ones as well.

A number could end before its last digit by its own rule. What has to follow it rules this out
(`Json.EndsNumber`).
-/

namespace LedgerSandbox.Text.Json

/-! ## The reader -/

def skipBlanks (text : List Char) : List Char := text.dropWhile isBlank

/-- What follows a character that has to come first. -/
def expect? (c : Char) (text : List Char) : Option (List Char) :=
  if text.head? = some c then some text.tail else none

/-- Reads a text up to the quote that ends it: its characters, and what follows the quote. -/
def readText : List Char → Option (List Char × List Char)
  | [] => none
  | '"' :: rest => some ([], rest)
  | '\\' :: 'u' :: h₁ :: h₂ :: h₃ :: h₄ :: rest => do
    let c ← coded? [h₁, h₂, h₃, h₄]
    (readText rest).map (Prod.map (List.cons c) id)
  | '\\' :: kind :: rest => do
    let c ← escaped? kind
    (readText rest).map (Prod.map (List.cons c) id)
  | c :: rest =>
    if c = '\\' ∨ c.toNat < 0x20 then none else (readText rest).map (Prod.map (List.cons c) id)

/-- Reads as many digits as there are. -/
def readNumber (text : List Char) : Option (Nat × List Char) :=
  match text.takeWhile Char.isDigit with
  | [] => none
  | d :: ds =>
    if d = '0' → ds = [] then
      some (Nat.ofDigitChars 10 (d :: ds) 0, text.dropWhile Char.isDigit)
    else none

def readValue (text : List Char) : Option (Value × List Char) :=
  match expect? '"' text with
  | some text => (readText text).map (Prod.map (.text ∘ String.ofList) id)
  | none => (readNumber text).map (Prod.map .number id)

def readMember (text : List Char) : Option (Member × List Char) := do
  let text ← expect? '"' text
  let (name, rest) ← readText text
  let rest ← expect? ':' (skipBlanks rest)
  let (value, rest) ← readValue (skipBlanks rest)
  return ((String.ofList name, value), rest)

/-- Reads members up to the brace that ends the object, but not more than a given number. -/
def readMembers : Nat → List Char → Option (List Member × List Char)
  | 0, _ => none
  | limit + 1, text => do
    let (member, rest) ← readMember text
    match expect? ',' (skipBlanks rest) with
    | some rest => (readMembers limit (skipBlanks rest)).map (Prod.map (List.cons member) id)
    | none => (expect? '\x7d' (skipBlanks rest)).map fun rest => ([member], rest)

/-- Reads a JSON object. -/
def read? (text : List Char) : Option (List Member) := do
  let rest ← expect? '\x7b' (skipBlanks text)
  -- There are not more members than characters.
  let (members, rest) ← readMembers rest.length (skipBlanks rest)
  if skipBlanks rest = [] then some members else none

/-! ## Blanks -/

variable {c : Char} {text rest : List Char}

theorem expect?_eq_some_iff : expect? c text = some rest ↔ text = c :: rest := by
  cases text with
  | nil => simp [expect?]
  | cons d text => simp [expect?, eq_comm]

theorem blanks_skipBlanks (text : List Char) : Blanks text (skipBlanks text) := by
  induction text with
  | nil => exact .none
  | cons c text ih =>
    unfold skipBlanks
    cases hc : isBlank c with
    | false =>
      rw [List.dropWhile_cons_of_neg (by simp [hc])]
      exact .none
    | true =>
      rw [List.dropWhile_cons_of_pos hc]
      exact .more hc ih

theorem skipBlanks_cons (h : isBlank c = false) : skipBlanks (c :: rest) = c :: rest :=
  List.dropWhile_cons_of_neg (by simp [h])

theorem Blanks.skip (h : Blanks text rest) : skipBlanks text = skipBlanks rest := by
  induction h with
  | none => rfl
  | more hc _ ih => exact (List.dropWhile_cons_of_pos hc).trans ih

/-- Blanks are skipped up to a character that is none. -/
theorem Blanks.skip_cons (h : Blanks text (c :: rest)) (hc : isBlank c = false) :
    skipBlanks text = c :: rest := h.skip.trans (skipBlanks_cons hc)

theorem isBlank_of_isDigit (h : c.isDigit = true) : isBlank c = false := by
  cases hblank : isBlank c with
  | false => rfl
  | true =>
    have hcases : c = ' ' ∨ c = '\t' ∨ c = '\n' ∨ c = '\r' := by
      simpa [isBlank, or_assoc] using hblank
    rcases hcases with rfl | rfl | rfl | rfl
    all_goals exact absurd h (by decide)

/-- Whether a text does not go on with a digit. -/
def EndsNumber (rest : List Char) : Prop := ∀ c ∈ rest.head?, c.isDigit = false

/-- A number ends where blanks begin, or what follows them. -/
theorem Blanks.endsNumber (h : Blanks text (c :: rest)) (hc : c.isDigit = false) :
    EndsNumber text := by
  intro d hd
  cases h with
  | none =>
    obtain rfl : c = d := Option.some.inj hd
    exact hc
  | @more blank _ _ hblank _ =>
    obtain rfl : blank = d := Option.some.inj hd
    cases hdigit : blank.isDigit with
    | false => rfl
    | true => cases hblank.symm.trans (isBlank_of_isDigit hdigit)

/-! ## Texts -/

/-- A character that has been read goes before the text that is read after it. -/
theorem CharAt.textAt_of_map {more cs : List Char} (hc : CharAt text c more)
    (hmore : ∀ {cs rest}, readText more = some (cs, rest) → TextAt more cs rest)
    (h : (readText more).map (Prod.map (List.cons c) id) = some (cs, rest)) : TextAt text cs rest := by
  obtain ⟨⟨cs', rest'⟩, hread, heq⟩ := Option.map_eq_some_iff.mp h
  cases heq
  exact .char hc (hmore hread)

theorem textAt_of_readText {cs : List Char} (h : readText text = some (cs, rest)) :
    TextAt text cs rest := by
  fun_induction readText text generalizing cs rest with
  | case1 => cases h
  | case2 text =>
    cases h
    exact .done
  | case3 h₁ h₂ h₃ h₄ text ih =>
    obtain ⟨c, hcoded, hread⟩ := Option.bind_eq_some_iff.mp h
    exact (CharAt.coded hcoded).textAt_of_map ih hread
  | case4 kind text _ ih =>
    obtain ⟨c, hescaped, hread⟩ := Option.bind_eq_some_iff.mp h
    exact (CharAt.escaped hescaped).textAt_of_map ih hread
  | case5 => cases h
  | case6 c text hquote _ _ hplain ih =>
    obtain ⟨hbackslash, hcontrol⟩ := not_or.mp hplain
    exact (CharAt.plain hquote hbackslash (Nat.le_of_not_lt hcontrol)).textAt_of_map ih h

theorem CharAt.readText_eq {more : List Char} (h : CharAt text c more) :
    readText text = (readText more).map (Prod.map (List.cons c) id) := by
  cases h with
  | plain hquote hbackslash hcontrol =>
    rw [readText, if_neg (not_or.mpr ⟨hbackslash, Nat.not_lt.mpr hcontrol⟩)]
    · exact hquote
    · exact fun _ _ _ _ _ heq _ => hbackslash heq
    · exact fun _ _ heq _ => hbackslash heq
  | @escaped kind _ _ hescaped =>
    rw [readText, hescaped]
    · rfl
    · rintro h₁ h₂ h₃ h₄ rest rfl -
      cases hescaped
  | coded hcoded =>
    rw [readText, hcoded]
    rfl

theorem TextAt.readText_eq {cs : List Char} (h : TextAt text cs rest) :
    readText text = some (cs, rest) := by
  induction h with
  | done => rw [readText]
  | char hc _ ih =>
    rw [hc.readText_eq, ih]
    rfl

/-! ## Numbers -/

theorem numberAt_of_readNumber {n : Nat} (h : readNumber text = some (n, rest)) :
    NumberAt text n rest := by
  unfold readNumber at h
  split at h
  case h_1 => cases h
  case h_2 d ds heq =>
    split_ifs at h with halone
    cases h
    have hdigits : ∀ c ∈ d :: ds, c.isDigit = true := by
      rw [← heq]
      exact List.all_eq_true.mp List.all_takeWhile
    have hnumber : NumberAt (d :: ds ++ text.dropWhile Char.isDigit) _ _ := .mk halone hdigits
    rwa [← heq, List.takeWhile_append_dropWhile, heq] at hnumber

theorem NumberAt.readNumber_eq {n : Nat} (h : NumberAt text n rest) (hrest : EndsNumber rest) :
    readNumber text = some (n, rest) := by
  cases h with
  | @mk d ds _ halone hdigits =>
    have hends : rest.takeWhile Char.isDigit = [] ∧ rest.dropWhile Char.isDigit = rest := by
      cases rest with
      | nil => exact ⟨rfl, rfl⟩
      | cons c rest =>
        have hc : ¬ c.isDigit = true := by simp [hrest c rfl]
        exact ⟨List.takeWhile_cons_of_neg hc, List.dropWhile_cons_of_neg hc⟩
    have htake : (d :: ds ++ rest).takeWhile Char.isDigit = d :: ds := by
      rw [List.takeWhile_append_of_pos hdigits, hends.1, List.append_nil]
    have hdrop : (d :: ds ++ rest).dropWhile Char.isDigit = rest := by
      rw [List.dropWhile_append_of_pos hdigits, hends.2]
    unfold readNumber
    rw [htake, hdrop]
    exact if_pos halone

theorem NumberAt.isDigit {n : Nat} (h : NumberAt (c :: text) n rest) : c.isDigit = true := by
  generalize hall : c :: text = all at h
  cases h with
  | mk _ hdigits =>
    obtain ⟨rfl, -⟩ := List.cons.inj hall
    exact hdigits c List.mem_cons_self

/-! ## Values and members -/

theorem valueAt_of_readValue {v : Value} (h : readValue text = some (v, rest)) :
    ValueAt text v rest := by
  unfold readValue at h
  split at h
  case h_1 inside hquote =>
    obtain ⟨⟨cs, rest'⟩, hread, heq⟩ := Option.map_eq_some_iff.mp h
    cases heq
    rw [expect?_eq_some_iff.mp hquote]
    exact .text (textAt_of_readText hread)
  case h_2 =>
    obtain ⟨⟨n, rest'⟩, hread, heq⟩ := Option.map_eq_some_iff.mp h
    cases heq
    exact .number (numberAt_of_readNumber hread)

theorem ValueAt.readValue_eq {v : Value} (h : ValueAt text v rest) (hrest : EndsNumber rest) :
    readValue text = some (v, rest) := by
  unfold readValue
  cases h with
  | number hnumber =>
    have hquote : expect? '"' text = none := by
      rw [Option.eq_none_iff_forall_ne_some]
      intro inside heq
      rw [expect?_eq_some_iff.mp heq] at hnumber
      exact absurd hnumber.isDigit (by decide)
    rw [hquote, hnumber.readNumber_eq hrest]
    rfl
  | text htext =>
    rw [expect?_eq_some_iff.mpr rfl]
    dsimp only
    rw [htext.readText_eq]
    rfl

theorem ValueAt.exists_cons {v : Value} (h : ValueAt text v rest) :
    ∃ c more, text = c :: more ∧ isBlank c = false := by
  cases h with
  | number hnumber =>
    cases hnumber with
    | @mk d ds _ _ hdigits =>
      exact ⟨d, ds ++ rest, rfl, isBlank_of_isDigit (hdigits d List.mem_cons_self)⟩
  | text _ => exact ⟨'"', _, rfl, by decide⟩

theorem memberAt_of_readMember {m : Member} (h : readMember text = some (m, rest)) :
    MemberAt text m rest := by
  unfold readMember at h
  obtain ⟨inside, hquote, h⟩ := Option.bind_eq_some_iff.mp h
  obtain ⟨⟨name, afterName⟩, hname, h⟩ := Option.bind_eq_some_iff.mp h
  obtain ⟨afterColon, hcolon, h⟩ := Option.bind_eq_some_iff.mp h
  obtain ⟨⟨value, rest'⟩, hvalue, h⟩ := Option.bind_eq_some_iff.mp h
  cases h
  rw [expect?_eq_some_iff.mp hquote]
  have hblanks := blanks_skipBlanks afterName
  rw [expect?_eq_some_iff.mp hcolon] at hblanks
  exact .mk (textAt_of_readText hname) hblanks (blanks_skipBlanks afterColon)
    (valueAt_of_readValue hvalue)

theorem MemberAt.readMember_eq {m : Member} (h : MemberAt text m rest) (hrest : EndsNumber rest) :
    readMember text = some (m, rest) := by
  cases h with
  | @mk name inside afterName afterColon atValue _ value hname hcolon hblanks hvalue =>
    obtain ⟨c, more, rfl, hc⟩ := hvalue.exists_cons
    have hquote : expect? '"' ('"' :: inside) = some inside := expect?_eq_some_iff.mpr rfl
    have hafter : expect? ':' (skipBlanks afterName) = some afterColon :=
      expect?_eq_some_iff.mpr (hcolon.skip_cons (by decide))
    simp [readMember, hquote, hname.readText_eq, hafter, hblanks.skip_cons hc,
      hvalue.readValue_eq hrest]

/-! ## Lengths -/

theorem Blanks.length_le (h : Blanks text rest) : rest.length ≤ text.length := by
  induction h with
  | none => exact Nat.le_refl _
  | more _ _ ih => exact Nat.le_succ_of_le ih

theorem CharAt.length_lt (h : CharAt text c rest) : rest.length < text.length := by
  cases h
  all_goals
    simp only [List.length_cons]
    omega

theorem TextAt.length_lt {cs : List Char} (h : TextAt text cs rest) : rest.length < text.length := by
  induction h with
  | done => simp
  | char hc _ ih => exact Nat.lt_trans ih hc.length_lt

theorem ValueAt.length_lt {v : Value} (h : ValueAt text v rest) : rest.length < text.length := by
  cases h with
  | number hnumber =>
    cases hnumber with
    | mk =>
      simp only [List.length_append, List.length_cons]
      omega
  | text htext => exact Nat.lt_succ_of_lt htext.length_lt

theorem MemberAt.length_lt {m : Member} (h : MemberAt text m rest) : rest.length < text.length := by
  cases h with
  | mk hname hcolon hblanks hvalue =>
    have hafter := hcolon.length_le
    have := hname.length_lt
    have := hblanks.length_le
    have := hvalue.length_lt
    rw [List.length_cons] at hafter ⊢
    omega

/-- There are not more members than characters. -/
theorem MembersAt.length_le {ms : List Member} (h : MembersAt text ms rest) :
    ms.length ≤ text.length := by
  induction h with
  | last hmember _ => exact Nat.lt_of_le_of_lt (Nat.zero_le _) hmember.length_lt
  | more hmember hcomma hblanks _ ih =>
    have hafter := hcomma.length_le
    have := hmember.length_lt
    have := hblanks.length_le
    rw [List.length_cons] at hafter ⊢
    omega

/-! ## Objects -/

theorem MembersAt.exists_cons {ms : List Member} (h : MembersAt text ms rest) :
    ∃ more, text = '"' :: more := by
  have hmember : ∀ {text rest m}, MemberAt text m rest → ∃ more, text = '"' :: more := by
    rintro _ _ _ ⟨⟩
    exact ⟨_, rfl⟩
  cases h with
  | last h _ => exact hmember h
  | more h _ _ _ => exact hmember h

theorem membersAt_of_readMembers {limit : Nat} {ms : List Member}
    (h : readMembers limit text = some (ms, rest)) : MembersAt text ms rest := by
  induction limit generalizing text ms rest with
  | zero => cases h
  | succ limit ih =>
    obtain ⟨⟨m, afterMember⟩, hmember, h⟩ := Option.bind_eq_some_iff.mp h
    have hblanks := blanks_skipBlanks afterMember
    dsimp only at h
    split at h
    case h_1 afterComma hcomma =>
      obtain ⟨⟨ms', rest'⟩, hread, heq⟩ := Option.map_eq_some_iff.mp h
      cases heq
      rw [expect?_eq_some_iff.mp hcomma] at hblanks
      exact .more (memberAt_of_readMember hmember) hblanks (blanks_skipBlanks afterComma) (ih hread)
    case h_2 =>
      obtain ⟨rest', hbrace, heq⟩ := Option.map_eq_some_iff.mp h
      cases heq
      rw [expect?_eq_some_iff.mp hbrace] at hblanks
      exact .last (memberAt_of_readMember hmember) hblanks

theorem MembersAt.readMembers_eq {limit : Nat} {ms : List Member} (h : MembersAt text ms rest)
    (hlimit : ms.length ≤ limit) : readMembers limit text = some (ms, rest) := by
  induction h generalizing limit with
  | @last _ afterMember rest m hmember hbrace =>
    obtain ⟨limit, rfl⟩ := Nat.exists_eq_add_of_le' hlimit
    have hskip := hbrace.skip_cons (by decide)
    have hread := hmember.readMember_eq (hbrace.endsNumber (by decide))
    simp [readMembers, hread, hskip, expect?]
  | @more _ afterMember afterComma atNext rest m ms hmember hcomma hblanks hnext ih =>
    obtain ⟨limit, rfl⟩ := Nat.exists_eq_add_of_le' (Nat.le_trans (Nat.le_add_left 1 _) hlimit)
    have hskip := hcomma.skip_cons (by decide)
    have hread := hmember.readMember_eq (hcomma.endsNumber (by decide))
    obtain ⟨more, rfl⟩ := hnext.exists_cons
    have hrest := ih (Nat.le_of_succ_le_succ hlimit)
    simp [readMembers, hread, hskip, expect?, hblanks.skip_cons (c := '"') (by decide), hrest]

/-- **The reader reads the grammar**, and nothing else. -/
theorem read?_eq_some_iff {ms : List Member} : read? text = some ms ↔ IsObject text ms := by
  constructor
  · intro h
    obtain ⟨afterBrace, hbrace, h⟩ := Option.bind_eq_some_iff.mp h
    obtain ⟨⟨ms', afterObject⟩, hmembers, h⟩ := Option.bind_eq_some_iff.mp h
    have hblanks := blanks_skipBlanks text
    rw [expect?_eq_some_iff.mp hbrace] at hblanks
    have hend := blanks_skipBlanks afterObject
    dsimp only at h
    split_ifs at h with hnothing
    cases h
    rw [hnothing] at hend
    exact .mk hblanks (blanks_skipBlanks afterBrace) (membersAt_of_readMembers hmembers) hend
  · rintro ⟨hbrace, hblanks, hmembers, hend⟩
    have hskip := hbrace.skip_cons (by decide)
    have hread := hmembers.readMembers_eq (Nat.le_trans hmembers.length_le hblanks.length_le)
    obtain ⟨more, rfl⟩ := hmembers.exists_cons
    have hnothing : skipBlanks _ = [] := hend.skip
    simp [read?, hskip, expect?, hblanks.skip_cons (c := '"') (by decide), hread, hnothing]

/-- Blanks and escapes make no difference to the members. -/
example : IsObject "\x7b \"a\" : \"\\u00e9\\/\" , \"b\":10\n\x7d".toList
    [("a", .text "é/"), ("b", .number 10)] :=
  read?_eq_some_iff.mp (by decide +kernel)

end LedgerSandbox.Text.Json
