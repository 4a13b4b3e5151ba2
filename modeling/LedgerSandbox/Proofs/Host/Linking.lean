import LedgerSandbox.Proofs.Host.Imports
import Mathlib.Data.List.Nodup

/-!
# Checking imports and linking them

The imports of a module are gone through twice: when the module is checked, and whenever an
instance is made of it. Both passes take the imports in order and stop at the first one that is
not right. They agree on which imports are right, except that a name can be checked again but not
linked again (`imports_settled`).

So linking stops at a repeated name or where the check stops, whichever comes first
(`linkImports_of_offends`, `linkImports_of_repeated`).
-/

namespace LedgerSandbox

variable {imports before after rest : List Wasm.Import} {i : Wasm.Import} {links : List Link}
  {linked : List String} {fault : ImportFault}

/-- Whether an import can be served. -/
def Servable (i : Wasm.Import) : Prop := ∃ found, ServedBy i found

/-- The names under which imports ask for things. -/
abbrev importNames (imports : List Wasm.Import) : List String := imports.map (·.field)

/-- Whether an import is the first of a list whose name occurs before it. -/
def FirstRepeated (imports : List Wasm.Import) (i : Wasm.Import) : Prop :=
  ∃ before after, imports = before ++ i :: after ∧ (importNames before).Nodup ∧
    i.field ∈ importNames before

/-- Whether a link gives an import what it asks for, with the type that it declares. -/
structure Defines (i : Wasm.Import) (link : Link) : Prop where
  provider : ServedBy i link.provider
  type : link.type = i.type

theorem Offends.not_servable (h : Offends i fault) : ¬ Servable i :=
  fun ⟨_, hserved⟩ => h.not_servedBy hserved

/-! ## Checking -/

theorem validateImports_cons (i : Wasm.Import) (rest : List Wasm.Import) :
    validateImports (i :: rest) =
      match resolveImport i with
      | .error fault => .error fault
      | .ok _ => validateImports rest := by
  unfold validateImports
  rw [List.forM_eq_forM, List.forM_cons]
  cases resolveImport i with
  | error fault => rfl
  | ok found => rfl

/-- Imports that can be served are passed over. -/
theorem validateImports_append (h : ∀ j ∈ before, Servable j) (rest : List Wasm.Import) :
    validateImports (before ++ rest) = validateImports rest := by
  induction before with
  | nil => rfl
  | cons j before ih =>
    obtain ⟨found, hserved⟩ := h j List.mem_cons_self
    rw [List.cons_append, validateImports_cons, hserved.resolveImport_eq]
    exact ih fun k hk => h k (List.mem_cons_of_mem j hk)

theorem validateImports_of_offends (h : ∀ j ∈ before, Servable j) (hoffends : Offends i fault) :
    validateImports (before ++ i :: after) = .error fault := by
  rw [validateImports_append h, validateImports_cons, hoffends.resolveImport_eq]

/-- Either all imports can be served, or there is a first one that cannot. -/
theorem servable_or_first_offends (imports : List Wasm.Import) :
    (∀ i ∈ imports, Servable i) ∨ ∃ before i after fault, imports = before ++ i :: after ∧
      (∀ j ∈ before, Servable j) ∧ Offends i fault := by
  induction imports with
  | nil => exact .inl fun _ hi => nomatch hi
  | cons i rest ih =>
    rcases servedBy_or_offends i with hserved | ⟨fault, hoffends⟩
    · rcases ih with hall | ⟨before, j, after, fault, rfl, hbefore, hoffends⟩
      · exact .inl (List.forall_mem_cons.mpr ⟨hserved, hall⟩)
      · exact .inr ⟨i :: before, j, after, fault, rfl,
          List.forall_mem_cons.mpr ⟨hserved, hbefore⟩, hoffends⟩
    · have hnone : ∀ j ∈ ([] : List Wasm.Import), Servable j := fun _ hj => nomatch hj
      exact .inr ⟨[], i, rest, fault, rfl, hnone, hoffends⟩

theorem validateImports_eq_ok_iff :
    validateImports imports = .ok () ↔ ∀ i ∈ imports, Servable i := by
  rcases servable_or_first_offends imports with hall |
    ⟨before, i, after, fault, rfl, hbefore, hoffends⟩
  · refine iff_of_true ?_ hall
    rw [← List.append_nil imports, validateImports_append hall]
    rfl
  · refine iff_of_false ?_ fun hall => ?_
    · rw [validateImports_of_offends hbefore hoffends]
      exact nofun
    · exact hoffends.not_servable (hall i (List.mem_append_right _ List.mem_cons_self))

theorem validateImports_eq_error_iff :
    validateImports imports = .error fault ↔
      ∃ before i after, imports = before ++ i :: after ∧ (∀ j ∈ before, Servable j) ∧
        Offends i fault := by
  constructor
  · intro h
    rcases servable_or_first_offends imports with hall |
      ⟨before, i, after, fault', rfl, hbefore, hoffends⟩
    · cases h.symm.trans (validateImports_eq_ok_iff.mpr hall)
    · cases h.symm.trans (validateImports_of_offends hbefore hoffends)
      exact ⟨before, i, after, rfl, hbefore, hoffends⟩
  · rintro ⟨before, i, after, rfl, hbefore, hoffends⟩
    exact validateImports_of_offends hbefore hoffends

/-! ## Linking -/

theorem linkFrom_cons (linked : List String) (i : Wasm.Import) (rest : List Wasm.Import) :
    linkFrom linked (i :: rest) =
      match resolveImport i with
      | .error fault => .error fault
      | .ok found =>
        if i.field ∈ linked then .error (.duplicate i.field)
        else (linkFrom (i.field :: linked) rest).map (⟨found, i.type⟩ :: ·) := by
  rw [linkFrom]
  cases resolveImport i with
  | error fault => rfl
  | ok found =>
    by_cases hlinked : i.field ∈ linked
    · simp only [bind, Except.bind, if_pos hlinked]
      rfl
    · simp only [bind, Except.bind, if_neg hlinked]
      cases linkFrom (i.field :: linked) rest with
      | error fault => rfl
      | ok links => rfl

/-- Imports with new names that can be served are linked, and the rest is linked after them. -/
theorem linkFrom_append (hservable : ∀ j ∈ before, Servable j) (hnodup : (importNames before).Nodup)
    (hnew : (importNames before).Disjoint linked) (rest : List Wasm.Import) :
    ∃ links, List.Forall₂ Defines before links ∧
      linkFrom linked (before ++ rest) =
        (linkFrom ((importNames before).reverse ++ linked) rest).map (links ++ ·) := by
  induction before generalizing linked with
  | nil =>
    refine ⟨[], .nil, ?_⟩
    show linkFrom linked rest = (linkFrom linked rest).map id
    cases linkFrom linked rest with
    | error fault => rfl
    | ok links => rfl
  | cons j before ih =>
    obtain ⟨found, hserved⟩ := hservable j List.mem_cons_self
    rw [importNames, List.map_cons, List.nodup_cons] at hnodup
    rw [importNames, List.map_cons, List.disjoint_cons_left] at hnew
    have hnew' : (importNames before).Disjoint (j.field :: linked) :=
      List.disjoint_cons_right.mpr ⟨hnodup.1, hnew.2⟩
    obtain ⟨links, hlinks, heq⟩ :=
      ih (fun k hk => hservable k (List.mem_cons_of_mem j hk)) hnodup.2 hnew'
    refine ⟨⟨found, j.type⟩ :: links, .cons ⟨hserved, rfl⟩ hlinks, ?_⟩
    rw [List.cons_append, linkFrom_cons, hserved.resolveImport_eq, heq]
    have hlinked : (importNames (j :: before)).reverse ++ linked =
        (importNames before).reverse ++ j.field :: linked := by
      rw [importNames, List.map_cons, List.reverse_cons, List.append_assoc]
      rfl
    dsimp only
    rw [if_neg hnew.1, hlinked]
    cases linkFrom ((importNames before).reverse ++ j.field :: linked) rest with
    | error fault => rfl
    | ok more => rfl

/-- A module is linked if all its imports can be served and have different names. -/
theorem linkImports_of_servable (hservable : ∀ i ∈ imports, Servable i)
    (hnodup : (importNames imports).Nodup) :
    ∃ links, List.Forall₂ Defines imports links ∧ linkImports imports = .ok links := by
  obtain ⟨links, hlinks, heq⟩ := linkFrom_append hservable hnodup (List.disjoint_nil_right _) []
  refine ⟨links, hlinks, ?_⟩
  rw [List.append_nil] at heq
  rw [linkImports, heq]
  show Except.ok (links ++ []) = Except.ok links
  rw [List.append_nil]

/-- Linking stops at an import that cannot be served. -/
theorem linkImports_of_offends (hservable : ∀ j ∈ before, Servable j)
    (hnodup : (importNames before).Nodup) (hoffends : Offends i fault) :
    linkImports (before ++ i :: after) = .error fault := by
  obtain ⟨links, -, heq⟩ :=
    linkFrom_append hservable hnodup (List.disjoint_nil_right _) (i :: after)
  rw [linkImports, heq, linkFrom_cons, hoffends.resolveImport_eq]
  rfl

/-- Linking stops at a name that has been linked. -/
theorem linkImports_of_repeated (hservable : ∀ j ∈ before, Servable j)
    (hnodup : (importNames before).Nodup) (hi : Servable i)
    (hrepeated : i.field ∈ importNames before) :
    linkImports (before ++ i :: after) = .error (.duplicate i.field) := by
  obtain ⟨links, -, heq⟩ :=
    linkFrom_append hservable hnodup (List.disjoint_nil_right _) (i :: after)
  obtain ⟨found, hserved⟩ := hi
  have hlinked : i.field ∈ (importNames before).reverse ++ [] := by simpa using hrepeated
  rw [linkImports, heq, linkFrom_cons, hserved.resolveImport_eq]
  dsimp only
  rw [if_pos hlinked]
  rfl

/-! ## The two passes -/

/-- If names are repeated, there is a first repeated one. -/
theorem exists_firstRepeated (h : ¬ (importNames imports).Nodup) :
    ∃ i, FirstRepeated imports i := by
  induction imports using List.reverseRecOn with
  | nil => exact absurd List.nodup_nil h
  | append_singleton before i ih =>
    by_cases hnodup : (importNames before).Nodup
    · refine ⟨i, before, [], rfl, hnodup, ?_⟩
      by_contra hnew
      refine h ?_
      rw [importNames, List.map_append, List.nodup_append]
      refine ⟨hnodup, List.nodup_singleton _, fun a ha b hb => ?_⟩
      rw [List.mem_singleton.mp hb]
      rintro rfl
      exact hnew ha
    · obtain ⟨j, first, last, rfl, hfirst, hj⟩ := ih hnodup
      exact ⟨j, first, last ++ [i], by rw [List.append_assoc]; rfl, hfirst, hj⟩

/-- Linking reports the first repeated name, if the imports up to it can be served. -/
theorem FirstRepeated.linkImports_eq (h : FirstRepeated imports i)
    (hservable : ∀ j ∈ imports, Servable j) (rest : List Wasm.Import) :
    linkImports (imports ++ rest) = .error (.duplicate i.field) := by
  obtain ⟨before, after, rfl, hnodup, hrepeated⟩ := h
  rw [List.append_assoc, List.cons_append]
  exact linkImports_of_repeated (fun j hj => hservable j (List.mem_append_left _ hj)) hnodup
    (hservable i (List.mem_append_right _ List.mem_cons_self)) hrepeated

theorem linkImports_of_valid (hvalid : validateImports imports = .ok ())
    (hnot : ¬ (importNames imports).Nodup) :
    ∃ j, FirstRepeated imports j ∧ linkImports imports = .error (.duplicate j.field) := by
  obtain ⟨j, hj⟩ := exists_firstRepeated hnot
  have heq := hj.linkImports_eq (validateImports_eq_ok_iff.mp hvalid) []
  rw [List.append_nil] at heq
  exact ⟨j, hj, heq⟩

/-- Where the check stops, linking stops with the same error, unless it has stopped before at a
repeated name. -/
theorem linkImports_of_invalid (h : validateImports imports = .error fault) :
    ∃ before i after, imports = before ++ i :: after ∧ (∀ j ∈ before, Servable j) ∧
      Offends i fault ∧ ((importNames before).Nodup → linkImports imports = .error fault) ∧
      (¬ (importNames before).Nodup → ∃ j, FirstRepeated before j ∧
        linkImports imports = .error (.duplicate j.field)) := by
  obtain ⟨before, i, after, rfl, hbefore, hoffends⟩ := validateImports_eq_error_iff.mp h
  refine ⟨before, i, after, rfl, hbefore, hoffends,
    fun hnodup => linkImports_of_offends hbefore hnodup hoffends, fun hnot => ?_⟩
  obtain ⟨j, hj⟩ := exists_firstRepeated hnot
  exact ⟨j, hj, hj.linkImports_eq hbefore (i :: after)⟩

/-- What is linked passes the check and has no repeated names, as otherwise an error is
reported. -/
theorem valid_of_linkImports (h : linkImports imports = .ok links) :
    validateImports imports = .ok () ∧ (importNames imports).Nodup := by
  have hvalid : validateImports imports = .ok () := by
    cases hcheck : validateImports imports with
    | ok _ => rfl
    | error fault =>
      obtain ⟨before, i, after, -, -, -, hsame, hother⟩ := linkImports_of_invalid hcheck
      by_cases hnodup : (importNames before).Nodup
      · cases h.symm.trans (hsame hnodup)
      · obtain ⟨j, -, heq⟩ := hother hnodup
        cases h.symm.trans heq
  refine ⟨hvalid, ?_⟩
  by_contra hnot
  obtain ⟨j, -, heq⟩ := linkImports_of_valid hvalid hnot
  cases h.symm.trans heq

theorem servable_of_linkImports (h : linkImports imports = .ok links) : ∀ i ∈ imports, Servable i :=
  validateImports_eq_ok_iff.mp (valid_of_linkImports h).1

/-- What is linked is what the module asks for, import by import. -/
theorem defines_of_linkImports (h : linkImports imports = .ok links) :
    List.Forall₂ Defines imports links := by
  obtain ⟨hvalid, hnodup⟩ := valid_of_linkImports h
  obtain ⟨links', hdefines, hlinks'⟩ :=
    linkImports_of_servable (validateImports_eq_ok_iff.mp hvalid) hnodup
  cases h.symm.trans hlinks'
  exact hdefines

/-- What the check of a module's imports and linking them come to. -/
structure ImportsSettled (imports : List Wasm.Import) : Prop where
  valid_iff : validateImports imports = .ok () ↔ ∀ i ∈ imports, Servable i
  linked_iff : (∃ links, linkImports imports = .ok links) ↔
    validateImports imports = .ok () ∧ (importNames imports).Nodup
  /-- What is linked is what the module asks for, import by import. -/
  defined : ∀ {links : List Link}, linkImports imports = .ok links →
    List.Forall₂ Defines imports links
  /-- The check reports the first import that cannot be served. Linking reports the same, unless
  a name is repeated before. -/
  reported : ∀ {fault : ImportFault}, validateImports imports = .error fault →
    ∃ before i after, imports = before ++ i :: after ∧ (∀ j ∈ before, Servable j) ∧
      Offends i fault ∧ ((importNames before).Nodup → linkImports imports = .error fault) ∧
      (¬ (importNames before).Nodup → ∃ j, FirstRepeated before j ∧
        linkImports imports = .error (.duplicate j.field))
  repeated : validateImports imports = .ok () → ¬ (importNames imports).Nodup →
    ∃ j, FirstRepeated imports j ∧ linkImports imports = .error (.duplicate j.field)

/-- **Checking imports and linking them agree**, for every list of imports. -/
theorem imports_settled (imports : List Wasm.Import) : ImportsSettled imports where
  valid_iff := validateImports_eq_ok_iff
  linked_iff := by
    constructor
    · rintro ⟨links, hlinks⟩
      exact valid_of_linkImports hlinks
    · rintro ⟨hvalid, hnodup⟩
      obtain ⟨links, -, hlinks⟩ :=
        linkImports_of_servable (validateImports_eq_ok_iff.mp hvalid) hnodup
      exact ⟨links, hlinks⟩
  defined := defines_of_linkImports
  reported := linkImports_of_invalid
  repeated := linkImports_of_valid

end LedgerSandbox
