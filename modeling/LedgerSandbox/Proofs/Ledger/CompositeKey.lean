import LedgerSandbox.Ledger.CompositeKey
import LedgerSandbox.Proofs.Except
import LedgerSandbox.Proofs.Text.Utf8
import Mathlib.Data.List.Basic

/-!
# Composite keys, made and taken apart

A key made of an index label and parts is taken apart into the same label and parts again
(`CompositeKey.split_create`): no component holds the character that ends components, so the
components are what stands between its occurrences. Conversely, whatever a key is taken apart
into, the key is made of (`CompositeKey.split_eq_ok_iff`), unless a component holds U+10FFFF,
which is refused only when keys are made. So the two are inverse to each other
(`CompositeKey.create_split_inverse`).
-/

namespace LedgerSandbox.CompositeKey

/-! ## Making keys -/

theorem checkComponent_eq_ok_iff {text : String} :
    checkComponent text = .ok () ↔ ∀ c ∈ text.toList, isReserved c = false := by
  unfold checkComponent
  split
  · rename_i hany
    obtain ⟨c, hc, hres⟩ := List.any_eq_true.mp hany
    constructor
    · intro h
      cases h
    · intro h
      rw [h c hc] at hres
      cases hres
  · rename_i hany
    refine ⟨fun _ c hc => ?_, fun _ => rfl⟩
    rw [← Bool.not_eq_true]
    exact fun hres => hany (List.any_eq_true.mpr ⟨c, hc, hres⟩)

/-- Whether no component of a key holds a reserved character. -/
def Unreserved (texts : List String) : Prop :=
  ∀ text ∈ texts, ∀ c ∈ text.toList, isReserved c = false

theorem create_eq_ok_iff {index : String} {parts : List String} {key : Key} :
    create index parts = .ok key ↔
      Unreserved (index :: parts) ∧ key = 0 :: (index :: parts).flatMap component := by
  have hall : Unreserved (index :: parts) ↔
      checkComponent index = .ok () ∧ parts.forM checkComponent = .ok () := by
    unfold Unreserved
    rw [Except.forM_eq_ok_iff, List.forall_mem_cons, checkComponent_eq_ok_iff]
    simp only [checkComponent_eq_ok_iff]
  rw [hall]
  unfold create
  rw [Except.bind_eq_ok_iff]
  constructor
  · rintro ⟨_, hindex, h⟩
    obtain ⟨_, hparts, h⟩ := Except.bind_eq_ok_iff.mp h
    cases h
    exact ⟨⟨hindex, hparts⟩, rfl⟩
  · rintro ⟨⟨hindex, hparts⟩, rfl⟩
    exact ⟨(), hindex, Except.bind_eq_ok_iff.mpr ⟨(), hparts, rfl⟩⟩

/-! ## Taking keys apart -/

theorem splitComponents_eq_splitOn (cs : List Char) :
    splitComponents cs = cs.splitOn delimiter := by
  induction cs with
  | nil => rfl
  | cons c rest ih =>
    rw [splitComponents, List.splitOn_cons_eq_if_modifyHead, ih]
    by_cases hc : c = delimiter
    · simp [hc]
    · rw [if_neg hc, if_neg (by simpa using hc)]
      cases hrest : rest.splitOn delimiter with
      | nil => exact absurd hrest (List.splitOn_ne_nil delimiter rest)
      | cons first others => rfl

/-- What is joined with an end after every part is cut into the pieces of the parts, with
nothing left over. -/
theorem splitOn_terminated {α : Type} [BEq α] [LawfulBEq α] (d : α) (parts : List (List α)) :
    (parts.flatMap fun part => part ++ [d]).splitOn d =
      (parts.flatMap fun part => part.splitOn d) ++ [[]] := by
  induction parts with
  | nil => rfl
  | cons part rest ih =>
    rw [List.flatMap_cons, List.append_assoc, List.singleton_append, List.splitOn_append_cons_self,
      ih, List.flatMap_cons, List.append_assoc]

/-- Parts without ends in them are their only pieces. -/
theorem flatMap_splitOn_of_not_mem {α : Type} [BEq α] [LawfulBEq α] {d : α}
    {parts : List (List α)} (h : ∀ part ∈ parts, d ∉ part) :
    (parts.flatMap fun part => part.splitOn d) = parts := by
  induction parts with
  | nil => rfl
  | cons part rest ih =>
    rw [List.flatMap_cons, List.splitOn_eq_singleton (h part List.mem_cons_self),
      ih fun p hp => h p (List.mem_cons_of_mem _ hp)]
    rfl

/-- No piece of a list cut at an element holds this element. -/
theorem not_mem_of_mem_splitOn {α : Type} [BEq α] [LawfulBEq α] {d : α} {xs piece : List α}
    (h : piece ∈ xs.splitOn d) : d ∉ piece := by
  induction xs generalizing piece with
  | nil =>
    rw [List.splitOn_nil, List.mem_singleton] at h
    rw [h]
    exact List.not_mem_nil
  | cons x rest ih =>
    rw [List.splitOn_cons_eq_if_modifyHead] at h
    split at h
    · rcases List.mem_cons.mp h with rfl | h
      · exact List.not_mem_nil
      · exact ih h
    · rename_i hx
      obtain ⟨first, others, hcut⟩ := List.exists_cons_of_ne_nil (List.splitOn_ne_nil d rest)
      rw [hcut, List.modifyHead_cons] at h
      rw [hcut] at ih
      rcases List.mem_cons.mp h with rfl | h
      · intro hmem
        rcases List.mem_cons.mp hmem with rfl | hmem
        · exact hx BEq.rfl
        · exact ih List.mem_cons_self hmem
      · exact ih (List.mem_cons_of_mem _ h)

/-- The pieces of a list, with an end after every one, are the list with an end. -/
theorem flatMap_concat_splitOn {α : Type} [BEq α] [LawfulBEq α] (d : α) (xs : List α) :
    ((xs.splitOn d).flatMap fun piece => piece ++ [d]) = xs ++ [d] := by
  induction xs with
  | nil => rfl
  | cons x rest ih =>
    rw [List.splitOn_cons_eq_if_modifyHead]
    by_cases hx : (x == d) = true
    · rw [if_pos hx, List.flatMap_cons, ih, eq_of_beq hx]
      rfl
    · obtain ⟨first, others, hcut⟩ := List.exists_cons_of_ne_nil (List.splitOn_ne_nil d rest)
      rw [hcut, List.flatMap_cons] at ih
      rw [if_neg hx, hcut, List.modifyHead_cons, List.flatMap_cons, List.cons_append,
        List.cons_append, ih]
      rfl

/-- The key with some characters between its first and its last delimiter. -/
def delimited (cs : List Char) : Key := encodeUtf8 (String.ofList (delimiter :: (cs ++ [delimiter])))

/-- A key is the characters that its components come to. -/
theorem delimited_eq {cs : List Char} {texts : List String}
    (h : cs.splitOn delimiter = texts.map String.toList) :
    delimited cs = 0 :: texts.flatMap component := by
  have hcomponent : ∀ text : String,
      (text.toList ++ [delimiter]).flatMap String.utf8EncodeChar = component text := by
    intro text
    rw [List.flatMap_append, component, encodeUtf8_eq_flatMap]
    rfl
  rw [delimited, encodeUtf8_eq_flatMap, String.toList_ofList, ← flatMap_concat_splitOn, h,
    List.flatMap_cons, List.flatMap_map, List.flatMap_assoc]
  simp only [hcomponent]
  rfl

theorem exists_delimited {texts : List String} (hne : texts ≠ [])
    (hfree : ∀ text ∈ texts, delimiter ∉ text.toList) :
    ∃ cs : List Char, cs.splitOn delimiter = texts.map String.toList := by
  refine ⟨[delimiter].intercalate (texts.map String.toList), ?_⟩
  refine List.splitOn_intercalate delimiter ?_ (by simpa using hne)
  intro cs hcs
  obtain ⟨text, htext, rfl⟩ := List.mem_map.mp hcs
  exact hfree text htext

/-- Every key that can be taken apart has a delimiter in front and another one at its end. -/
theorem split_cases (key : Key) :
    (∃ cs, key = delimited cs) ∨ ∃ e, split key = .error e := by
  unfold split
  cases hdecode : decodeUtf8? key with
  | none => exact .inr ⟨_, rfl⟩
  | some text =>
    dsimp only
    cases hchars : text.toList with
    | nil => exact .inr ⟨_, rfl⟩
    | cons c body =>
      dsimp only
      by_cases hfirst : c = delimiter
      · by_cases hlast : body.getLast? = some delimiter
        · obtain ⟨cs, rfl⟩ := List.getLast?_eq_some_iff.mp hlast
          refine .inl ⟨cs, ?_⟩
          rw [delimited, ← encodeUtf8_of_decodeUtf8? hdecode, ← hfirst, hfirst, ← String.ofList_toList (s := text),
            hchars, hfirst]
        · rw [if_neg (fun h => h hfirst), if_pos hlast]
          exact .inr ⟨_, rfl⟩
      · rw [if_pos hfirst]
        exact .inr ⟨_, rfl⟩

theorem split_delimited {cs : List Char} {index : String} {parts : List String}
    (h : cs.splitOn delimiter = (index :: parts).map String.toList) :
    split (delimited cs) = .ok (index, parts) := by
  have hparts : (parts.map String.toList).map String.ofList = parts := by
    simp [List.map_map, Function.comp_def]
  unfold split delimited
  rw [decodeUtf8?_encodeUtf8]
  dsimp only
  rw [String.toList_ofList]
  dsimp only
  rw [if_neg (by simp), if_neg (by simp), List.dropLast_concat, splitComponents_eq_splitOn, h,
    List.map_cons]
  dsimp only
  rw [String.ofList_toList, hparts]
  rfl

/-- **What can be taken apart, and into what.** The components hold no delimiter, and together
with the delimiters they are the key. -/
theorem split_eq_ok_iff {key : Key} {index : String} {parts : List String} :
    split key = .ok (index, parts) ↔
      (∀ text ∈ index :: parts, delimiter ∉ text.toList) ∧
        key = 0 :: (index :: parts).flatMap component := by
  constructor
  · intro h
    rcases split_cases key with ⟨cs, rfl⟩ | ⟨e, he⟩
    · obtain ⟨first, others, hcut⟩ := List.exists_cons_of_ne_nil (List.splitOn_ne_nil delimiter cs)
      have htexts : cs.splitOn delimiter =
          (String.ofList first :: others.map String.ofList).map String.toList := by
        simp [hcut, List.map_map, Function.comp_def]
      rw [split_delimited htexts] at h
      obtain ⟨rfl, rfl⟩ := Prod.mk.inj (Except.ok.inj h)
      refine ⟨fun text htext => ?_, delimited_eq htexts⟩
      have hpiece : text.toList ∈ cs.splitOn delimiter := htexts ▸ List.mem_map_of_mem htext
      exact not_mem_of_mem_splitOn hpiece
    · rw [he] at h
      cases h
  · rintro ⟨hfree, rfl⟩
    obtain ⟨cs, hcs⟩ := exists_delimited (List.cons_ne_nil index parts) hfree
    rw [← delimited_eq hcs]
    exact split_delimited hcs

theorem unreserved_iff {texts : List String} :
    Unreserved texts ↔
      (∀ text ∈ texts, delimiter ∉ text.toList) ∧ ∀ text ∈ texts, maxChar ∉ text.toList := by
  have hreserved : ∀ c, isReserved c = false ↔ c ≠ delimiter ∧ c ≠ maxChar := by
    intro c
    simp [isReserved]
  unfold Unreserved
  simp only [hreserved]
  constructor
  · intro h
    exact ⟨fun text htext hmem => (h text htext _ hmem).1 rfl,
      fun text htext hmem => (h text htext _ hmem).2 rfl⟩
  · rintro ⟨hdelimiter, hmax⟩ text htext c hc
    exact ⟨fun heq => hdelimiter text htext (heq ▸ hc), fun heq => hmax text htext (heq ▸ hc)⟩

theorem not_unreserved_iff {texts : List String} :
    ¬ Unreserved texts ↔ ∃ text ∈ texts, delimiter ∈ text.toList ∨ maxChar ∈ text.toList := by
  rw [unreserved_iff, ← forall₂_and]
  simp only [← not_or, not_forall, not_not, exists_prop]

theorem exists_create_iff {index : String} {parts : List String} :
    (∃ key, create index parts = .ok key) ↔ Unreserved (index :: parts) := by
  simp [create_eq_ok_iff]

/-- **Keys are taken apart as they were made.** -/
theorem split_create {index : String} {parts : List String} {key : Key}
    (h : create index parts = .ok key) : split key = .ok (index, parts) := by
  obtain ⟨hfree, hkey⟩ := create_eq_ok_iff.mp h
  exact split_eq_ok_iff.mpr ⟨(unreserved_iff.mp hfree).1, hkey⟩

/-! ## Keys as bytes -/

/-- Only the delimiter has a zero byte in its encoding. -/
theorem eq_delimiter_of_mem {c : Char} (h : 0 ∈ String.utf8EncodeChar c) : c = delimiter :=
  Char.toNat_inj.mp (toNat_eq_of_mem_utf8EncodeChar h (by decide))

theorem eq_delimiter_of_first {c : Char} {rest bytes : Bytes}
    (h : String.utf8EncodeChar c ++ rest = 0 :: bytes) : c = delimiter := by
  have hfirst := congrArg List.head? h
  rw [List.head?_append_of_ne_nil _ String.utf8EncodeChar_ne_nil] at hfirst
  exact eq_delimiter_of_mem (List.mem_of_head? hfirst)

theorem eq_delimiter_of_last {c : Char} {start bytes : Bytes}
    (h : start ++ String.utf8EncodeChar c = bytes ++ [0]) : c = delimiter := by
  have hlast := congrArg List.getLast? h
  rw [List.getLast?_append_of_ne_nil _ String.utf8EncodeChar_ne_nil, List.getLast?_concat] at hlast
  exact eq_delimiter_of_mem (List.mem_of_getLast? hlast)

/-- The delimiters at both ends of a text show in its bytes. -/
theorem exists_delimited_iff {key : Key} :
    (∃ cs, key = delimited cs) ↔
      (∃ text, decodeUtf8? key = some text) ∧ ∃ middle, key = 0 :: (middle ++ [0]) := by
  constructor
  · rintro ⟨cs, rfl⟩
    refine ⟨⟨_, decodeUtf8?_encodeUtf8 _⟩, cs.flatMap String.utf8EncodeChar, ?_⟩
    rw [delimited, encodeUtf8_eq_flatMap, String.toList_ofList, List.flatMap_cons,
      List.flatMap_append]
    rfl
  · rintro ⟨⟨text, htext⟩, middle, hkey⟩
    have hbytes : text.toList.flatMap String.utf8EncodeChar = 0 :: (middle ++ [0]) := by
      rw [← encodeUtf8_eq_flatMap, encodeUtf8_of_decodeUtf8? htext, hkey]
    cases hchars : text.toList with
    | nil => simp [hchars] at hbytes
    | cons c body =>
      rw [hchars, List.flatMap_cons] at hbytes
      obtain rfl := eq_delimiter_of_first hbytes
      have hbody : body.flatMap String.utf8EncodeChar = middle ++ [0] :=
        List.tail_eq_of_cons_eq hbytes
      rcases List.eq_nil_or_concat body with rfl | ⟨cs, last, rfl⟩
      · simp at hbody
      · rw [List.concat_eq_append] at hbody hchars
        rw [List.flatMap_append, List.flatMap_singleton] at hbody
        obtain rfl := eq_delimiter_of_last hbody
        refine ⟨cs, ?_⟩
        rw [delimited, ← hchars, String.ofList_toList, encodeUtf8_of_decodeUtf8? htext]

/-- A key can be taken apart just if there are delimiters at both ends of it. -/
theorem exists_split_iff {key : Key} :
    (∃ components, split key = .ok components) ↔ ∃ cs, key = delimited cs := by
  constructor
  · rintro ⟨components, h⟩
    rcases split_cases key with hcs | ⟨e, he⟩
    · exact hcs
    · rw [he] at h
      cases h
  · rintro ⟨cs, rfl⟩
    obtain ⟨first, others, hcut⟩ := List.exists_cons_of_ne_nil (List.splitOn_ne_nil delimiter cs)
    refine ⟨(String.ofList first, others.map String.ofList), split_delimited ?_⟩
    simp [hcut, List.map_map, Function.comp_def]

/-! ## There and back -/

/-- How making keys and taking them apart go together. -/
structure MutuallyInverse : Prop where
  create_iff : ∀ index parts key, create index parts = .ok key ↔
    split key = .ok (index, parts) ∧ ∀ text ∈ index :: parts, maxChar ∉ text.toList
  create_injective : ∀ index parts index' parts' key, create index parts = .ok key →
    create index' parts' = .ok key → index = index' ∧ parts = parts'
  create_fails_iff : ∀ index parts, (∃ e, create index parts = .error e) ↔
    ∃ text ∈ index :: parts, delimiter ∈ text.toList ∨ maxChar ∈ text.toList
  /-- A key of one zero byte has none at its end besides the one in front. -/
  split_fails_iff : ∀ key, (∃ e, split key = .error e) ↔
    decodeUtf8? key = none ∨ ¬ ∃ middle, key = 0 :: (middle ++ [0])

/-- **Making keys and taking them apart are inverse to each other.** -/
theorem create_split_inverse : MutuallyInverse where
  create_iff index parts key := by
    rw [create_eq_ok_iff, split_eq_ok_iff, unreserved_iff, and_right_comm]
  create_injective index parts index' parts' key h h' :=
    Prod.mk.inj (Except.ok.inj ((split_create h).symm.trans (split_create h')))
  create_fails_iff index parts := by
    rw [Except.exists_error_iff, exists_create_iff, not_unreserved_iff]
  split_fails_iff key := by
    rw [Except.exists_error_iff, exists_split_iff, exists_delimited_iff, not_and_or,
      Option.eq_none_iff_forall_ne_some, not_exists]

end LedgerSandbox.CompositeKey
