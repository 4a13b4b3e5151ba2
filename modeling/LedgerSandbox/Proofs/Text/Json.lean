import LedgerSandbox.Text.Json
import Mathlib.Tactic.SplitIfs

/-!
# The grammar of JSON objects

The grammar of JSON, as far as objects go whose members are texts and natural numbers
(`Json.IsObject`). Each rule relates a text, what stands at its beginning, and what follows that.
The rules allow all that JSON has: blanks around the tokens, and every kind of escape in texts,
except that surrogates stand for no character.

Objects as responses write them are in the grammar, whatever characters their texts hold
(`Json.isObject_write`).
-/

namespace LedgerSandbox.Text.Json

/-- What a member of an object holds. -/
inductive Value where
  | number (n : Nat)
  | text (s : String)
deriving DecidableEq

/-- A name and what it stands for. -/
abbrev Member := String × Value

/-! ## Characters -/

def isBlank (c : Char) : Bool := c = ' ' || c = '\t' || c = '\n' || c = '\r'

/-- The value of a hexadecimal digit. -/
def hexValue? (c : Char) : Option Nat :=
  if c.isDigit then some (c.toNat - 0x30)
  else if 'a' ≤ c ∧ c ≤ 'f' then some (c.toNat - 0x57)
  else if 'A' ≤ c ∧ c ≤ 'F' then some (c.toNat - 0x37)
  else none

/-- The character of a code that is written in hexadecimal digits. A surrogate is none. -/
def coded? (digits : List Char) : Option Char := do
  let code := (← digits.mapM hexValue?).foldl (16 * · + ·) 0
  if code.isValidChar then some (Char.ofNat code) else none

/-- The character that an escape of two characters stands for, by the second one. -/
def escaped? : Char → Option Char
  | '"' => some '"'
  | '\\' => some '\\'
  | '/' => some '/'
  | 'b' => some '\x08'
  | 'f' => some '\x0c'
  | 'n' => some '\n'
  | 'r' => some '\r'
  | 't' => some '\t'
  | _ => none

/-! ## The rules -/

/-- Blanks, up to what follows them. -/
inductive Blanks : List Char → List Char → Prop
  | none {rest : List Char} : Blanks rest rest
  | more {c : Char} {text rest : List Char} : isBlank c = true → Blanks text rest →
    Blanks (c :: text) rest

/-- A character within a text, in one of the forms that it has there. -/
inductive CharAt : List Char → Char → List Char → Prop
  | plain {c : Char} {rest : List Char} : c ≠ '"' → c ≠ '\\' → 0x20 ≤ c.toNat →
    CharAt (c :: rest) c rest
  | escaped {kind c : Char} {rest : List Char} : escaped? kind = some c →
    CharAt ('\\' :: kind :: rest) c rest
  | coded {h₁ h₂ h₃ h₄ c : Char} {rest : List Char} : coded? [h₁, h₂, h₃, h₄] = some c →
    CharAt ('\\' :: 'u' :: h₁ :: h₂ :: h₃ :: h₄ :: rest) c rest

/-- The characters of a text and the quote that ends it. -/
inductive TextAt : List Char → List Char → List Char → Prop
  | done {rest : List Char} : TextAt ('"' :: rest) [] rest
  | char {c : Char} {cs text more rest : List Char} : CharAt text c more → TextAt more cs rest →
    TextAt text (c :: cs) rest

/-- A natural number in decimal digits. A zero in front is all of it. -/
inductive NumberAt : List Char → Nat → List Char → Prop
  | mk {d : Char} {ds rest : List Char} : (d = '0' → ds = []) →
    (∀ c ∈ d :: ds, c.isDigit = true) →
    NumberAt (d :: ds ++ rest) (Nat.ofDigitChars 10 (d :: ds) 0) rest

inductive ValueAt : List Char → Value → List Char → Prop
  | number {text rest : List Char} {n : Nat} : NumberAt text n rest → ValueAt text (.number n) rest
  | text {text cs rest : List Char} : TextAt text cs rest →
    ValueAt ('"' :: text) (.text (String.ofList cs)) rest

inductive MemberAt : List Char → Member → List Char → Prop
  | mk {name text afterName afterColon atValue rest : List Char} {value : Value} :
    TextAt text name afterName → Blanks afterName (':' :: afterColon) → Blanks afterColon atValue →
    ValueAt atValue value rest → MemberAt ('"' :: text) (String.ofList name, value) rest

/-- One or more members, with commas between them, and the brace that ends the object. -/
inductive MembersAt : List Char → List Member → List Char → Prop
  | last {text afterMember rest : List Char} {m : Member} : MemberAt text m afterMember →
    Blanks afterMember ('\x7d' :: rest) → MembersAt text [m] rest
  | more {text afterMember afterComma atNext rest : List Char} {m : Member} {ms : List Member} :
    MemberAt text m afterMember → Blanks afterMember (',' :: afterComma) →
    Blanks afterComma atNext → MembersAt atNext ms rest → MembersAt text (m :: ms) rest

/-- **JSON objects** of one or more members that are texts and natural numbers. -/
inductive IsObject : List Char → List Member → Prop
  | mk {text afterBrace atMember afterObject : List Char} {ms : List Member} :
    Blanks text ('\x7b' :: afterBrace) → Blanks afterBrace atMember →
    MembersAt atMember ms afterObject → Blanks afterObject [] → IsObject text ms

/-! ## Written objects -/

def Value.write : Value → List Char
  | number n => Nat.toDigits 10 n
  | text s => jsonString s

def writeMember (m : Member) : List Char := jsonString m.1 ++ ':' :: m.2.write

/-- Members and the brace that ends the object, without blanks. -/
def writeMembers (m : Member) : List Member → List Char
  | [] => writeMember m ++ ['\x7d']
  | next :: rest => writeMember m ++ ',' :: writeMembers next rest

/-- An object of one or more members. -/
def write (m : Member) (rest : List Member) : List Char := '\x7b' :: writeMembers m rest

theorem hexValue?_hexDigit : ∀ n < 16, hexValue? (hexDigit n) = some n := by
  decide

/-- The code of a control character stands for it. -/
theorem coded?_hexDigit {c : Char} (h : c.toNat < 0x20) :
    coded? ['0', '0', hexDigit (c.toNat / 16), hexDigit (c.toNat % 16)] = some c := by
  have hzero : hexValue? '0' = some 0 := by decide
  have hhigh := hexValue?_hexDigit (c.toNat / 16) (by omega)
  have hlow := hexValue?_hexDigit (c.toNat % 16) (by omega)
  have hcode : 16 * (c.toNat / 16) + c.toNat % 16 = c.toNat := Nat.div_add_mod c.toNat 16
  have hvalid : c.toNat.isValidChar := .inl (by omega)
  simp [coded?, hzero, hhigh, hlow, hcode, hvalid]

theorem charAt_jsonChar (c : Char) (rest : List Char) : CharAt (jsonChar c ++ rest) c rest := by
  unfold jsonChar
  split_ifs with hquote hbackslash hb hf hn hr ht hcontrol
  · subst hquote
    exact .escaped rfl
  · subst hbackslash
    exact .escaped rfl
  · subst hb
    exact .escaped rfl
  · subst hf
    exact .escaped rfl
  · subst hn
    exact .escaped rfl
  · subst hr
    exact .escaped rfl
  · subst ht
    exact .escaped rfl
  · exact .coded (coded?_hexDigit hcontrol)
  · exact .plain hquote hbackslash (Nat.le_of_not_lt hcontrol)

theorem textAt_flatMap_jsonChar (cs rest : List Char) :
    TextAt (cs.flatMap jsonChar ++ '"' :: rest) cs rest := by
  induction cs with
  | nil => exact .done
  | cons c cs ih =>
    rw [List.flatMap_cons, List.append_assoc]
    exact .char (charAt_jsonChar c _) ih

theorem jsonString_append (text : String) (rest : List Char) :
    jsonString text ++ rest = '"' :: (text.toList.flatMap jsonChar ++ '"' :: rest) := by
  simp [jsonString]

/-- Only the digits of 0 begin with a zero. -/
theorem exists_toDigits_eq_cons (n : Nat) :
    ∃ d ds, Nat.toDigits 10 n = d :: ds ∧ (d = '0' → n = 0) := by
  induction n using Nat.strongRecOn with
  | ind n ih =>
    by_cases hsmall : n < 10
    · have hzero : ∀ m < 10, m.digitChar = '0' → m = 0 := by decide
      exact ⟨n.digitChar, [], Nat.toDigits_of_lt_base hsmall, hzero n hsmall⟩
    · obtain ⟨d, ds, heq, hzero⟩ := ih (n / 10) (by omega)
      refine ⟨d, ds ++ [(n % 10).digitChar], ?_, fun hd => ?_⟩
      · rw [Nat.toDigits_of_base_le (by decide) (by omega), heq, List.cons_append]
      · have := hzero hd
        omega

theorem numberAt_toDigits (n : Nat) (rest : List Char) :
    NumberAt (Nat.toDigits 10 n ++ rest) n rest := by
  obtain ⟨d, ds, heq, hzero⟩ := exists_toDigits_eq_cons n
  have halone : d = '0' → ds = [] := by
    intro hd
    rw [hzero hd] at heq
    exact (List.cons.inj heq).2.symm
  have hdigits : ∀ c ∈ d :: ds, c.isDigit = true := fun c hc =>
    Nat.isDigit_of_mem_toDigits (by decide) (by decide) (heq ▸ hc)
  have hnumber : NumberAt (d :: ds ++ rest) _ rest := .mk halone hdigits
  rwa [← heq, Nat.ofDigitChars_toDigits (by decide) (by decide)] at hnumber

theorem valueAt_write (v : Value) (rest : List Char) : ValueAt (v.write ++ rest) v rest := by
  cases v with
  | number n => exact .number (numberAt_toDigits n rest)
  | text s =>
    rw [Value.write, jsonString_append]
    have htext := ValueAt.text (textAt_flatMap_jsonChar s.toList rest)
    rwa [String.ofList_toList] at htext

theorem memberAt_writeMember (m : Member) (rest : List Char) :
    MemberAt (writeMember m ++ rest) m rest := by
  obtain ⟨name, value⟩ := m
  rw [writeMember, List.append_assoc, jsonString_append, List.cons_append]
  have hmember := MemberAt.mk (textAt_flatMap_jsonChar name.toList _) .none .none
    (valueAt_write value rest)
  rwa [String.ofList_toList] at hmember

theorem membersAt_writeMembers (m : Member) (ms : List Member) :
    MembersAt (writeMembers m ms) (m :: ms) [] := by
  induction ms generalizing m with
  | nil => exact .last (memberAt_writeMember m _) .none
  | cons next ms ih => exact .more (memberAt_writeMember m _) .none .none (ih next)

/-- Objects as they are written are JSON objects of their members. -/
theorem isObject_write (m : Member) (ms : List Member) : IsObject (write m ms) (m :: ms) :=
  .mk .none .none (membersAt_writeMembers m ms) .none

end LedgerSandbox.Text.Json
