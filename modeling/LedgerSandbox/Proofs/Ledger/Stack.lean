import LedgerSandbox.Proofs.Ledger.Overlay

/-!
# Stacks of overlays

A ledger in memory under a stack of overlays shows one map at each layer. Layer 0 shows what
the ledger holds, and layer `i + 1` shows what layer `i` shows, but for the changes that its
own overlay holds (`Layers.viewAt`).

Whatever has been done to a stack, these maps explain what comes next
(`Layers.stack_refines_maps`): reads and scans at a layer answer from the map of the layer,
a write changes this map at one key and no map below, and a commit moves the map one layer
down.

An operation at a layer is one at the top of the stack that ends there
(`Layers.atLayer_under`). The overlays above are put back as they were.
-/

namespace LedgerSandbox.Layers

variable {l : Layers MemoryLedger}

/-! ## The layers of a stack -/

/-- The stack with further overlays on it. -/
def under (above : List Overlay) (l : Layers MemoryLedger) : Layers MemoryLedger :=
  ⟨l.base, above ++ l.overlays⟩

/-- The overlay of layer `i + 1`. -/
def overlayAt (l : Layers MemoryLedger) (i : Nat) : Overlay := (l.overlays.reverse[i]?).getD ∅

/-- What a stack shows at a layer. -/
def viewAt (l : Layers MemoryLedger) : Nat → Key → Option Value
  | 0 => l.base.contents.get?
  | i + 1 => (l.overlayAt i).covering (l.viewAt i)

theorem exists_under {i : Nat} (h : i ≤ l.overlays.length) :
    ∃ above s, l = under above s ∧ s.overlays.length = i := by
  refine ⟨l.overlays.take (l.overlays.length - i), ⟨l.base, l.overlays.drop (l.overlays.length - i)⟩,
    ?_, ?_⟩
  · unfold under
    rw [List.take_append_drop]
  · rw [List.length_drop]
    omega

theorem under_concat (above : List Overlay) (o : Overlay) (s : Layers MemoryLedger) :
    under (above ++ [o]) s = under above ⟨s.base, o :: s.overlays⟩ := by
  unfold under
  rw [List.append_assoc]
  rfl

theorem exists_under_concat {i : Nat} (h : i < l.overlays.length) :
    ∃ above o s, l = under (above ++ [o]) s ∧ s.overlays.length = i := by
  obtain ⟨above, s, rfl, rfl⟩ := exists_under (Nat.le_of_lt h)
  rcases List.eq_nil_or_concat above with rfl | ⟨above, o, rfl⟩
  · exact absurd h (Nat.lt_irrefl _)
  · exact ⟨above, o, s, by rw [List.concat_eq_append], rfl⟩

/-- An operation at a layer is one at the top of the stack that ends there. -/
theorem atLayer_under {α : Type} (action : EStateM LedgerError (Layers MemoryLedger) α)
    (above : List Overlay) (s : Layers MemoryLedger) :
    atLayer s.overlays.length action (under above s) =
      match action s with
      | .ok a t => .ok a (under above t)
      | .error e t => .error e (under above t) := by
  have hcut : (above ++ s.overlays).length - s.overlays.length = above.length := by
    rw [List.length_append, Nat.add_sub_cancel]
  unfold atLayer under
  dsimp only
  rw [hcut, List.take_left, List.drop_left]
  cases action s with
  | ok a t => rfl
  | error e t => rfl

theorem overlayAt_top (base : MemoryLedger) (o : Overlay) (below : List Overlay) :
    overlayAt ⟨base, o :: below⟩ below.length = o := by
  unfold overlayAt
  dsimp only
  rw [List.reverse_cons, ← List.length_reverse, List.getElem?_concat_length]
  rfl

theorem overlayAt_under {above : List Overlay} {s : Layers MemoryLedger} {j : Nat}
    (h : j < s.overlays.length) : (under above s).overlayAt j = s.overlayAt j := by
  have hlt : j < s.overlays.reverse.length := by rwa [List.length_reverse]
  unfold overlayAt under
  dsimp only
  rw [List.reverse_append, List.getElem?_append_left hlt]

theorem overlayAt_under_congr {above : List Overlay} {s t : Layers MemoryLedger} {j : Nat}
    (hlength : t.overlays.length = s.overlays.length) (h : s.overlays.length ≤ j) :
    (under above t).overlayAt j = (under above s).overlayAt j := by
  have hs : s.overlays.reverse.length ≤ j := by rwa [List.length_reverse]
  have ht : t.overlays.reverse.length ≤ j := by rwa [List.length_reverse, hlength]
  unfold overlayAt under
  dsimp only
  rw [List.reverse_append, List.reverse_append, List.getElem?_append_right hs,
    List.getElem?_append_right ht, List.length_reverse, List.length_reverse, hlength]

theorem viewAt_under {above : List Overlay} {s : Layers MemoryLedger} {j : Nat}
    (h : j ≤ s.overlays.length) : (under above s).viewAt j = s.viewAt j := by
  induction j with
  | zero => rfl
  | succ j ih => rw [viewAt, viewAt, overlayAt_under h, ih (Nat.le_of_lt h)]

/-- Stacks with the same overlays from some layer on show the same above it if they do
at it. -/
theorem viewAt_congr {s t : Layers MemoryLedger} {i j : Nat}
    (hoverlays : ∀ k ≥ i, t.overlayAt k = s.overlayAt k) (hview : t.viewAt i = s.viewAt i)
    (h : i ≤ j) : t.viewAt j = s.viewAt j := by
  induction j, h using Nat.le_induction with
  | base => exact hview
  | succ j hj ih => rw [viewAt, viewAt, hoverlays j hj, ih]

/-- The top of a stack is its last layer. -/
theorem viewAt_length (l : Layers MemoryLedger) : l.viewAt l.overlays.length = l.contents := by
  obtain ⟨base, overlays⟩ := l
  induction overlays with
  | nil => rfl
  | cons o below ih =>
    have hbelow : viewAt ⟨base, o :: below⟩ below.length = viewAt ⟨base, below⟩ below.length := by
      show (under [o] ⟨base, below⟩).viewAt below.length = _
      exact viewAt_under (Nat.le_refl _)
    show (overlayAt ⟨base, o :: below⟩ below.length).covering (viewAt ⟨base, o :: below⟩ below.length) = _
    rw [overlayAt_top base o below, hbelow, ih]
    rfl

theorem viewAt_under_top {above : List Overlay} {s : Layers MemoryLedger} {i : Nat}
    (h : s.overlays.length = i) : (under above s).viewAt i = s.contents := by
  subst h
  rw [viewAt_under (Nat.le_refl _), viewAt_length]

theorem viewAt_changed {j : Nat} (h : j < l.overlays.length) (c : Change) :
    (l.changed c).viewAt j = l.viewAt j := by
  obtain ⟨base, overlays⟩ := l
  cases overlays with
  | nil => exact absurd h (Nat.not_lt_zero j)
  | cons o below =>
    have hj : j ≤ below.length := Nat.le_of_lt_succ h
    show (under [o.insert c.1 c.2] ⟨base, below⟩).viewAt j = (under [o] ⟨base, below⟩).viewAt j
    rw [viewAt_under hj, viewAt_under hj]

theorem viewAt_changedAll {j : Nat} (h : j < l.overlays.length) (changes : List Change) :
    (l.changedAll changes).viewAt j = l.viewAt j := by
  induction changes generalizing l with
  | nil => rfl
  | cons c rest ih =>
    have hj : j < (l.changed c).overlays.length := by rwa [length_changed]
    exact (ih hj).trans (viewAt_changed h c)

/-! ## One operation -/

/-- What a write at a layer does. -/
structure WrittenAt (i : Nat) (key : Key) (change : Option Value) (l l' : Layers MemoryLedger) :
    Prop where
  /-- The layer shows the change, and all else as before. -/
  view : l'.viewAt i = Function.update (l.viewAt i) key change
  below : ∀ j < i, l'.viewAt j = l.viewAt j
  /-- The overlays above are not touched. -/
  above : ∀ j ≥ i, l'.overlayAt j = l.overlayAt j

/-- What a commit of the overlay of layer `i + 1` does. -/
structure CommittedAt (i : Nat) (l l' : Layers MemoryLedger) : Prop where
  /-- What the layer showed is what the layer below it shows now. -/
  view : l'.viewAt i = l.viewAt (i + 1)
  emptied : l'.overlayAt i = ∅
  /-- All other layers show what they did. -/
  others : ∀ j, j ≠ i → l'.viewAt j = l.viewAt j

theorem write_atLayer {key : Key} (hkey : key ≠ []) (change : Option Value) (above : List Overlay)
    (s : Layers MemoryLedger) :
    atLayer s.overlays.length (Ledger.write key change) (under above s) =
      .ok () (under above (s.changed (key, change))) := by
  rw [atLayer_under, write_eq hkey]

theorem writtenAt (key : Key) (change : Option Value) (above : List Overlay)
    (s : Layers MemoryLedger) :
    WrittenAt s.overlays.length key change (under above s)
      (under above (s.changed (key, change))) := by
  have hlength := length_changed s (key, change)
  refine ⟨?_, fun j hj => ?_, fun j hj => overlayAt_under_congr hlength hj⟩
  · rw [viewAt_under_top hlength, viewAt_under_top rfl, contents_changed]
  · have hle := Nat.le_of_lt hj
    rw [viewAt_under (hlength ▸ hle), viewAt_under hle, viewAt_changed hj]

theorem commit_atLayer {o : Overlay} (h : ∀ c ∈ o.entries, c.1 ≠ []) (above : List Overlay)
    (s : Layers MemoryLedger) :
    atLayer (s.overlays.length + 1) commit (under (above ++ [o]) s) =
      .ok () (under (above ++ [∅]) (s.changedAll o.entries)) := by
  rw [under_concat, under_concat]
  refine (atLayer_under commit above ⟨s.base, o :: s.overlays⟩).trans ?_
  rw [commit_eq h]
  rfl

theorem committedAt (o : Overlay) (above : List Overlay) (s : Layers MemoryLedger) :
    CommittedAt s.overlays.length (under (above ++ [o]) s)
      (under (above ++ [∅]) (s.changedAll o.entries)) := by
  have hlength := length_changedAll s o.entries
  have hview : (under (above ++ [∅]) (s.changedAll o.entries)).viewAt s.overlays.length =
      (under (above ++ [o]) s).viewAt (s.overlays.length + 1) := by
    rw [viewAt_under_top hlength, contents_committed, under_concat]
    exact (viewAt_under_top rfl).symm
  have hempty : (under (above ++ [∅]) (s.changedAll o.entries)).overlayAt s.overlays.length = ∅ := by
    rw [← hlength, under_concat]
    exact (overlayAt_under (Nat.lt_succ_self _)).trans (overlayAt_top _ ∅ _)
  refine ⟨hview, hempty, fun j hne => ?_⟩
  rcases Nat.lt_or_gt_of_ne hne with hlt | hgt
  · have hle := Nat.le_of_lt hlt
    rw [viewAt_under (hlength ▸ hle), viewAt_under hle, viewAt_changedAll hlt]
  · -- The committed layer shows through its empty overlay what it showed before.
    refine viewAt_congr (fun k hk => ?_) ?_ hgt
    · rw [under_concat, under_concat]
      refine overlayAt_under_congr ?_ hk
      exact congrArg (· + 1) hlength
    · rw [viewAt, hempty, Overlay.covering_empty, hview]

/-! ## Any history -/

/-- An operation at some layer of a stack of so many overlays. Reads and writes are of keys
that are not empty, and a commit is of the overlay of some layer. -/
inductive Operation (depth : Nat)
  | get (layer : Fin (depth + 1)) (key : Key) (hkey : key ≠ [])
  | put (layer : Fin (depth + 1)) (key : Key) (hkey : key ≠ []) (value : Value)
  | delete (layer : Fin (depth + 1)) (key : Key) (hkey : key ≠ [])
  | range (layer : Fin (depth + 1)) (start stop : Key)
  | commit (layer : Fin depth)

/-- The stack after an operation. -/
def Operation.run {depth : Nat} (l : Layers MemoryLedger) : Operation depth → Layers MemoryLedger
  | .get layer key _ => finalState (atLayer layer (Ledger.get key) l)
  | .put layer key _ value => finalState (atLayer layer (Ledger.put key value) l)
  | .delete layer key _ => finalState (atLayer layer (Ledger.delete key) l)
  | .range layer start stop => finalState (atLayer layer (Ledger.range start stop) l)
  | .commit layer => finalState (atLayer (layer + 1) Layers.commit l)

/-- What a stack does at each of its layers, told by what it shows there. -/
structure RefinesMaps (depth : Nat) (l : Layers MemoryLedger) : Prop where
  depth_eq : l.overlays.length = depth
  get : ∀ i ≤ depth, ∀ key ≠ [],
    atLayer i (Ledger.get key) l = .ok (l.viewAt i key) l
  range : ∀ i ≤ depth, ∀ start stop, ∃ entries,
    atLayer i (Ledger.range start stop) l = .ok (entries.map .ok) l ∧
      IsRange (l.viewAt i) start stop entries
  range_empty : ∀ i ≤ depth, ∀ start stop, stop ≤ start →
    atLayer i (Ledger.range start stop) l = .ok [] l
  put : ∀ i ≤ depth, ∀ key ≠ [], ∀ value, ∃ l',
    atLayer i (Ledger.put key value) l = .ok () l' ∧ WrittenAt i key (some value) l l'
  delete : ∀ i ≤ depth, ∀ key ≠ [], ∃ l',
    atLayer i (Ledger.delete key) l = .ok () l' ∧ WrittenAt i key none l l'
  commit : ∀ i < depth, ∃ l', atLayer (i + 1) commit l = .ok () l' ∧ CommittedAt i l l'

/-- What every operation keeps: the number of the overlays, and that all of them can be
committed. -/
structure Intact (depth : Nat) (l : Layers MemoryLedger) : Prop where
  depth_eq : l.overlays.length = depth
  committable : Committable l

variable {depth : Nat}

theorem get_atLayer (hl : l.overlays.length = depth) {i : Nat} (hi : i ≤ depth) {key : Key}
    (hkey : key ≠ []) : atLayer i (Ledger.get key) l = .ok (l.viewAt i key) l := by
  obtain ⟨above, s, rfl, rfl⟩ := exists_under (hl ▸ hi)
  rw [atLayer_under, get_eq hkey, viewAt_under_top rfl]

theorem range_atLayer (hl : l.overlays.length = depth) {i : Nat} (hi : i ≤ depth)
    (start stop : Key) :
    ∃ entries, atLayer i (Ledger.range start stop) l = .ok (entries.map .ok) l ∧
      IsRange (l.viewAt i) start stop entries := by
  obtain ⟨above, s, rfl, rfl⟩ := exists_under (hl ▸ hi)
  obtain ⟨entries, hscan, hrange⟩ := scanThrough_ok start stop s.overlays s.base
  refine ⟨entries, ?_, ?_⟩
  · have htop : Ledger.range start stop s = .ok (entries.map .ok) s := by
      show onBase (scanThrough start stop s.overlays) s = _
      rw [onBase, hscan]
    rw [atLayer_under, htop]
  · rw [viewAt_under_top rfl]
    exact hrange

theorem exists_write_atLayer (h : Intact depth l) {i : Nat} (hi : i ≤ depth) {key : Key}
    (hkey : key ≠ []) (change : Option Value) :
    ∃ l', atLayer i (Ledger.write key change) l = .ok () l' ∧ WrittenAt i key change l l' ∧
      Intact depth l' := by
  obtain ⟨hdepth, hcommittable⟩ := h
  obtain ⟨above, s, rfl, rfl⟩ := exists_under (hdepth ▸ hi)
  refine ⟨_, write_atLayer hkey change above s, writtenAt key change above s, ?_, ?_⟩
  · unfold under at hdepth ⊢
    rw [List.length_append, length_changed, ← hdepth, List.length_append]
  · have hs : Committable s := fun o ho => hcommittable o (List.mem_append_right _ ho)
    intro o ho
    rcases List.mem_append.mp ho with ho | ho
    · exact hcommittable o (List.mem_append_left _ ho)
    · exact hs.changed hkey o ho

theorem exists_commit_atLayer (h : Intact depth l) {i : Nat} (hi : i < depth) :
    ∃ l', atLayer (i + 1) commit l = .ok () l' ∧ CommittedAt i l l' ∧ Intact depth l' := by
  obtain ⟨hdepth, hcommittable⟩ := h
  obtain ⟨above, o, s, rfl, rfl⟩ := exists_under_concat (hdepth ▸ hi)
  have hs : Committable s := fun p hp => hcommittable p (List.mem_append_right _ hp)
  have ho : ∀ c ∈ o.entries, c.1 ≠ [] :=
    hcommittable o (List.mem_append_left _ List.mem_concat_self)
  refine ⟨_, commit_atLayer ho above s, committedAt o above s, ?_, ?_⟩
  · unfold under at hdepth ⊢
    simp only [List.length_append, List.length_singleton, length_changedAll] at hdepth ⊢
    exact hdepth
  · intro p hp
    rcases List.mem_append.mp hp with hp | hp
    · rcases List.mem_append.mp hp with hp | hp
      · exact hcommittable p (List.mem_append_left _ (List.mem_append_left _ hp))
      · rw [List.mem_singleton.mp hp]
        intro c hc
        exact absurd hc List.not_mem_nil
    · exact hs.changedAll ho p hp

theorem Intact.refinesMaps (h : Intact depth l) : RefinesMaps depth l where
  depth_eq := h.depth_eq
  get i hi key hkey := get_atLayer h.depth_eq hi hkey
  range i hi start stop := range_atLayer h.depth_eq hi start stop
  range_empty i hi start stop hle := by
    obtain ⟨entries, hscan, hrange⟩ := range_atLayer h.depth_eq hi start stop
    obtain rfl := hrange.eq_nil hle
    exact hscan
  put i hi key hkey value := by
    obtain ⟨l', hput, hwritten, -⟩ := exists_write_atLayer h hi hkey (some value)
    exact ⟨l', hput, hwritten⟩
  delete i hi key hkey := by
    obtain ⟨l', hdelete, hwritten, -⟩ := exists_write_atLayer h hi hkey none
    exact ⟨l', hdelete, hwritten⟩
  commit i hi := by
    obtain ⟨l', hcommit, hcommitted, -⟩ := exists_commit_atLayer h hi
    exact ⟨l', hcommit, hcommitted⟩

theorem Intact.run (h : Intact depth l) (operation : Operation depth) :
    Intact depth (operation.run l) := by
  cases operation with
  | get layer key hkey =>
    rw [Operation.run, get_atLayer h.depth_eq (Fin.is_le layer) hkey]
    exact h
  | put layer key hkey value =>
    obtain ⟨l', hput, -, hl'⟩ := exists_write_atLayer h (Fin.is_le layer) hkey (some value)
    unfold Ledger.write at hput
    rw [Operation.run, hput]
    exact hl'
  | delete layer key hkey =>
    obtain ⟨l', hdelete, -, hl'⟩ := exists_write_atLayer h (Fin.is_le layer) hkey none
    unfold Ledger.write at hdelete
    rw [Operation.run, hdelete]
    exact hl'
  | range layer start stop =>
    obtain ⟨entries, hscan, -⟩ := range_atLayer h.depth_eq (Fin.is_le layer) start stop
    rw [Operation.run, hscan]
    exact h
  | commit layer =>
    obtain ⟨l', hcommit, -, hl'⟩ := exists_commit_atLayer h layer.isLt
    rw [Operation.run, hcommit]
    exact hl'

/-- The stack after some operations, the first one first. -/
def runAll (operations : List (Operation depth)) (l : Layers MemoryLedger) : Layers MemoryLedger :=
  operations.foldl Operation.run l

theorem Intact.runAll (h : Intact depth l) (operations : List (Operation depth)) :
    Intact depth (runAll operations l) := by
  induction operations generalizing l with
  | nil => exact h
  | cons operation rest ih => exact ih (h.run operation)

theorem intact_empty (base : MemoryLedger) (depth : Nat) :
    Intact depth ⟨base, List.replicate depth ∅⟩ where
  depth_eq := List.length_replicate
  committable o ho c hc := by
    rw [List.eq_of_mem_replicate ho] at hc
    exact absurd hc List.not_mem_nil

/-- **Stacks refine maps.** Whatever operations have been run at whatever layers, each layer
of a stack behaves as the map that it shows. -/
theorem stack_refines_maps (base : MemoryLedger) (depth : Nat)
    (operations : List (Operation depth)) :
    RefinesMaps depth (runAll operations ⟨base, List.replicate depth ∅⟩) :=
  ((intact_empty base depth).runAll operations).refinesMaps

end LedgerSandbox.Layers
