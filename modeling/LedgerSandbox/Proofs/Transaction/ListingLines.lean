import LedgerSandbox.Proofs.Transaction.Listing

/-!
# What a listing tells

A listing puts a newline after every name, and names may hold newlines themselves. So a
listing tells the lines that the names come to, one after the other, and no more than that
(`Session.listing_eq_iff`). It can be cut into the names just if none of them holds a newline
(`Session.linesOf_listing_iff`), and then it identifies the installed modules.

With newlines in names it does not: one module `a\nb` is listed like the two modules `a` and
`b` (`Session.listing_ambiguous`).
-/

namespace LedgerSandbox

/-- The byte that ends lines. -/
def newline : UInt8 := 0x0A

/-- The lines of a listing, each of them ended by a newline. -/
def linesOf (payload : Bytes) : List Bytes := (payload.splitOn newline).dropLast

/-- The lines that a name comes to. -/
def nameLines (name : String) : List Bytes := (encodeUtf8 name).splitOn newline

theorem newline_mem_iff {name : String} : newline ∈ encodeUtf8 name ↔ '\n' ∈ name.toList := by
  have hascii : '\n'.toNat < 0x80 := by decide
  exact ascii_mem_encodeUtf8_iff hascii

namespace Session

variable {names names' : List String}

theorem splitOn_listing (names : List String) :
    (listing names).splitOn newline = names.flatMap nameLines ++ [[]] := by
  have hcut := CompositeKey.splitOn_terminated newline (names.map encodeUtf8)
  rw [List.flatMap_map, List.flatMap_map] at hcut
  exact hcut

theorem linesOf_listing (names : List String) :
    linesOf (listing names) = names.flatMap nameLines := by
  rw [linesOf, splitOn_listing, List.dropLast_concat]

/-- **A listing tells lines.** -/
theorem listing_eq_iff :
    listing names = listing names' ↔ names.flatMap nameLines = names'.flatMap nameLines := by
  constructor
  · intro h
    rw [← linesOf_listing, h, linesOf_listing]
  · intro h
    have hcut : (listing names).splitOn newline = (listing names').splitOn newline := by
      rw [splitOn_listing, splitOn_listing, h]
    have hjoin := congrArg [newline].intercalate hcut
    rwa [List.intercalate_splitOn, List.intercalate_splitOn] at hjoin

theorem flatMap_nameLines (h : ∀ name ∈ names, '\n' ∉ name.toList) :
    names.flatMap nameLines = names.map encodeUtf8 := by
  have hnone : ∀ bytes ∈ names.map encodeUtf8, newline ∉ bytes := by
    intro bytes hbytes
    obtain ⟨name, hname, rfl⟩ := List.mem_map.mp hbytes
    exact fun hmem => h name hname (newline_mem_iff.mp hmem)
  have hcut := CompositeKey.flatMap_splitOn_of_not_mem hnone
  rw [List.flatMap_map] at hcut
  exact hcut

/-- **Names come back as lines** just if none of them holds a newline. -/
theorem linesOf_listing_iff :
    linesOf (listing names) = names.map encodeUtf8 ↔ ∀ name ∈ names, '\n' ∉ name.toList := by
  constructor
  · intro h name hname hmem
    have hline : encodeUtf8 name ∈ linesOf (listing names) := by
      rw [h]
      exact List.mem_map_of_mem hname
    have hpiece := List.dropLast_subset _ hline
    exact CompositeKey.not_mem_of_mem_splitOn hpiece (newline_mem_iff.mpr hmem)
  · intro h
    rw [linesOf_listing, flatMap_nameLines h]

theorem listing_inj (h : ∀ name ∈ names, '\n' ∉ name.toList)
    (h' : ∀ name ∈ names', '\n' ∉ name.toList) :
    listing names = listing names' ↔ names = names' := by
  rw [listing_eq_iff, flatMap_nameLines h, flatMap_nameLines h']
  exact List.map_inj_right fun a b => encodeUtf8_injective

/-! ## After any history -/

/-- The answer to a request for a listing. -/
def listResponse (s : Session MemoryLedger) : Response := (submit ⟨"list", []⟩ s).1

theorem exists_listResponse {start : Session MemoryLedger} (hempty : start.ledger = ⟨∅⟩)
    (requests : List Request) :
    ∃ names : List String, listResponse (after requests start) = ⟨true, listing names⟩ ∧
      ∀ name, name ∈ names ↔ Installed (after requests start) name := by
  obtain ⟨names, hlist, -, hmem⟩ := exists_list_after hempty requests
  refine ⟨names, ?_, hmem⟩
  rw [listResponse, submit_list (Request.order_eq_list_iff.mpr (.inl rfl)) hlist]
  rfl

/-- What the listings of two sessions tell. -/
structure ListingsTell (s s' : Session MemoryLedger) (names names' : List String) : Prop where
  installed : ∀ name, name ∈ names ↔ Installed s name
  installed' : ∀ name, name ∈ names' ↔ Installed s' name
  answer : listResponse s = ⟨true, listing names⟩
  answer' : listResponse s' = ⟨true, listing names'⟩
  /-- The answers are the same just if the names come to the same lines. -/
  same_iff : listResponse s = listResponse s' ↔ names.flatMap nameLines = names'.flatMap nameLines
  /-- The lines of the payload are the names just if no name holds a newline. -/
  lines_iff : linesOf (listResponse s).payload = names.map encodeUtf8 ↔
    ∀ name, Installed s name → '\n' ∉ name.toList
  /-- Names without newlines are identified. -/
  identified : (∀ name, Installed s name → '\n' ∉ name.toList) →
    (∀ name, Installed s' name → '\n' ∉ name.toList) → listResponse s = listResponse s' →
    ∀ name, Installed s name ↔ Installed s' name

/-- **What listings tell.** -/
theorem listings_tell_lines (sandbox sandbox' : Sandbox) (requests requests' : List Request) :
    ∃ names names', ListingsTell (after requests ⟨sandbox, ⟨∅⟩⟩) (after requests' ⟨sandbox', ⟨∅⟩⟩)
      names names' := by
  have hempty : (⟨sandbox, ⟨∅⟩⟩ : Session MemoryLedger).ledger = ⟨∅⟩ := rfl
  have hempty' : (⟨sandbox', ⟨∅⟩⟩ : Session MemoryLedger).ledger = ⟨∅⟩ := rfl
  obtain ⟨names, hanswer, hmem⟩ := exists_listResponse hempty requests
  obtain ⟨names', hanswer', hmem'⟩ := exists_listResponse hempty' requests'
  generalize after requests (⟨sandbox, ⟨∅⟩⟩ : Session MemoryLedger) = s at hanswer hmem ⊢
  generalize after requests' (⟨sandbox', ⟨∅⟩⟩ : Session MemoryLedger) = s' at hanswer' hmem' ⊢
  have hsame : listResponse s = listResponse s' ↔ listing names = listing names' := by
    rw [hanswer, hanswer', Response.mk.injEq]
    exact ⟨fun h => h.2, fun h => ⟨rfl, h⟩⟩
  refine ⟨names, names', hmem, hmem', hanswer, hanswer', ?_, ?_, fun hfree hfree' heq name => ?_⟩
  · rw [hsame, listing_eq_iff]
  · rw [hanswer, linesOf_listing_iff]
    simp only [hmem]
  · have hnames : names = names' := by
      refine (listing_inj ?_ ?_).mp (hsame.mp heq)
      · simpa only [hmem] using hfree
      · simpa only [hmem'] using hfree'
    rw [← hmem, ← hmem', hnames]

/-- A request to install a guest under a name. -/
def installGuest (name : String) : Request := ⟨"install", [encodeUtf8 name, Registry.putGuest 0]⟩

/-- One name with a newline in it is listed like two names. -/
theorem listing_ambiguous :
    listResponse (after [installGuest "a\nb"] Registry.fresh) = ⟨true, [0x61, 0x0A, 0x62, 0x0A]⟩ ∧
      listResponse (after [installGuest "a", installGuest "b"] Registry.fresh) =
        ⟨true, [0x61, 0x0A, 0x62, 0x0A]⟩ ∧
      ¬ Installed (after [installGuest "a\nb"] Registry.fresh) "a" ∧
      Installed (after [installGuest "a", installGuest "b"] Registry.fresh) "a" := by
  refine ⟨by decide +kernel, by decide +kernel, ?_, ?_⟩
  · rintro ⟨bytecode, hlookup⟩
    have hrecord := (Registry.lookup_eq_ok_iff.mp hlookup).2
    have hnone : (after [installGuest "a\nb"] Registry.fresh).ledger.contents.get?
        (Registry.recordBytes "a") = none := by decide +kernel
    rw [hnone] at hrecord
    cases hrecord
  · refine ⟨Registry.putGuest 0, Registry.lookup_eq_ok_iff.mpr ⟨by decide, ?_⟩⟩
    decide +kernel

end Session

end LedgerSandbox
