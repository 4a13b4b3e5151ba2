import LedgerSandbox.Archive.Inflate
import LedgerSandbox.Proofs.Except

/-!
# The limit of the decompressor

Data is inflated with a limit, so that a small archive cannot unfold into a huge content. The
limit is no part of what the data says: it matters only for contents that exceed it
(`inflate_same`). So one can speak of what data inflates to, without any limit (`Inflates`,
`inflate_eq_ok_iff`).

The decompressor looks at the limit between symbols and between blocks. It never takes back
what it has written (`Appends.grows`), and so a limit that is not exceeded in the end has not
been exceeded on the way.
-/

namespace LedgerSandbox.Archive

variable {α : Type}

/-! ## Actions under a limit -/

theorem bind_eq_ok_iff {β : Type} {x : BitStream.Reader α} {f : α → BitStream.Reader β}
    {s : BitStream} {r : β × BitStream} :
    (x >>= f) s = .ok r ↔ ∃ a t, x s = .ok (a, t) ∧ f a t = .ok r := by
  show (x s >>= fun p => f p.1 p.2) = .ok r ↔ _
  rw [Except.bind_eq_ok_iff, Prod.exists]

/-- Actions, one for each limit, that append to an output. The limit makes no difference
unless it is exceeded. -/
structure Appends (output : ByteArray) (x : Nat → BitStream.Reader ByteArray) : Prop where
  grows : ∀ {limit s out t}, x limit s = .ok (out, t) → output.size ≤ out.size
  same : ∀ {limit limit' s out t}, x limit s = .ok (out, t) → out.size ≤ limit →
    out.size ≤ limit' → x limit' s = .ok (out, t)

namespace Appends

variable {output : ByteArray} {x y : Nat → BitStream.Reader ByteArray}

theorem const {x : BitStream.Reader ByteArray}
    (h : ∀ {s out t}, x s = .ok (out, t) → output.size ≤ out.size) :
    Appends output fun _ => x where
  grows := h
  same hout _ _ := hout

theorem pure {out : ByteArray} (h : output.size ≤ out.size) :
    Appends output fun _ => Pure.pure out :=
  const fun hout => by
    cases hout
    exact h

theorem throw (fault : InflateFault) : Appends output fun _ => MonadExcept.throw fault :=
  const fun hout => nomatch hout

/-- Reading comes first. -/
theorem bind {x : BitStream.Reader α} {f : α → Nat → BitStream.Reader ByteArray}
    (hf : ∀ a, Appends output (f a)) : Appends output fun limit => x >>= fun a => f a limit where
  grows h := by
    obtain ⟨a, t, -, ha⟩ := bind_eq_ok_iff.mp h
    exact (hf a).grows ha
  same h hlimit hlimit' := by
    obtain ⟨a, t, hx, ha⟩ := bind_eq_ok_iff.mp h
    exact bind_eq_ok_iff.mpr ⟨a, t, hx, (hf a).same ha hlimit hlimit'⟩

/-- Appending goes on. -/
theorem append {f : ByteArray → Nat → BitStream.Reader ByteArray} (hx : Appends output x)
    (hf : ∀ out, Appends out (f out)) :
    Appends output fun limit => x limit >>= fun out => f out limit where
  grows h := by
    obtain ⟨out, t, hout, hrest⟩ := bind_eq_ok_iff.mp h
    exact Nat.le_trans (hx.grows hout) ((hf out).grows hrest)
  same h hlimit hlimit' := by
    obtain ⟨out, t, hout, hrest⟩ := bind_eq_ok_iff.mp h
    -- What is there on the way is not more than in the end.
    have hgrows := (hf out).grows hrest
    have hsame := hx.same hout (Nat.le_trans hgrows hlimit) (Nat.le_trans hgrows hlimit')
    exact bind_eq_ok_iff.mpr ⟨out, t, hsame, (hf out).same hrest hlimit hlimit'⟩

theorem mono {shorter : ByteArray} (hsize : shorter.size ≤ output.size) (hx : Appends output x) :
    Appends shorter x where
  grows h := Nat.le_trans hsize (hx.grows h)
  same := hx.same

theorem ite {condition : Prop} [Decidable condition] (hx : Appends output x)
    (hy : Appends output y) : Appends output fun limit => if condition then x limit else y limit := by
  by_cases h : condition
  · simpa only [if_pos h] using hx
  · simpa only [if_neg h] using hy

/-- The limit is looked at. -/
theorem cut (hx : Appends output x) :
    Appends output fun limit => if limit < output.size then Pure.pure output else x limit where
  grows {limit s out t} h := by
    by_cases hcut : limit < output.size
    · rw [if_pos hcut] at h
      cases h
      exact Nat.le_refl _
    · rw [if_neg hcut] at h
      exact hx.grows h
  same {limit limit' s out t} h hlimit hlimit' := by
    by_cases hcut : limit < output.size
    · rw [if_pos hcut] at h
      cases h
      omega
    · rw [if_neg hcut] at h
      have hgrows := hx.grows h
      rw [if_neg (by omega)]
      exact hx.same h hlimit hlimit'

end Appends

/-! ## The decompressor -/

theorem size_copyBack (output : ByteArray) (distance count : Nat) :
    (copyBack output distance count).size = output.size + count := by
  induction count generalizing output with
  | zero => rfl
  | succ count ih => rw [copyBack, ih, ByteArray.size_push, Nat.add_right_comm, Nat.add_assoc]

theorem appends_inflateCoded (literals distances : HuffmanCode) (budget : Nat)
    (output : ByteArray) :
    Appends output fun limit => inflateCoded literals distances limit budget output := by
  induction budget generalizing output with
  | zero => exact .throw _
  | succ budget ih =>
    simp only [inflateCoded]
    refine .cut (.bind fun symbol => .ite ?_ (.ite (.pure (Nat.le_refl _)) ?_))
    · exact (ih _).mono (by rw [ByteArray.size_push]; omega)
    · refine .bind fun length => .bind fun code => .bind fun distance => .ite (.throw _) ?_
      exact (ih _).mono (by rw [size_copyBack]; omega)

theorem appends_inflateStored (output : ByteArray) :
    Appends output fun _ => inflateStored output := by
  unfold inflateStored
  refine .bind fun _ => .bind fun length => .bind fun inverted => .ite (.throw _) ?_
  exact .bind fun bytes => .pure (by rw [ByteArray.size_append]; omega)

theorem appends_inflateBlocks (bitCount budget : Nat) (output : ByteArray) :
    Appends output fun limit => inflateBlocks limit bitCount budget output := by
  induction budget generalizing output with
  | zero => exact .throw _
  | succ budget ih =>
    simp only [inflateBlocks]
    refine .bind fun last => .bind fun kind => ?_
    have hnext : ∀ out, Appends out fun limit =>
        if last = 1 ∨ limit < out.size then pure out
        else inflateBlocks limit bitCount budget out := by
      intro out
      by_cases hlast : last = 1
      · simpa only [hlast, true_or, if_true] using .pure (Nat.le_refl _)
      · simpa only [hlast, false_or] using (ih out).cut
    split
    case h_1 => exact (appends_inflateStored output).append hnext
    case h_2 =>
      exact .bind fun literals => .bind fun distances =>
        (appends_inflateCoded literals distances _ output).append hnext
    case h_3 => exact .bind fun codes => (appends_inflateCoded codes.1 codes.2 _ output).append hnext
    case h_4 => exact .throw _

/-- **The limit of the decompressor makes no difference** to data that stays within it. -/
theorem inflate_same {limit limit' : Nat} {data content : ByteArray}
    (h : inflate limit data = .ok content) (hlimit : content.size ≤ limit)
    (hlimit' : content.size ≤ limit') : inflate limit' data = .ok content := by
  have hblocks := appends_inflateBlocks (8 * data.size) (8 * data.size + 1) .empty
  unfold inflate at h ⊢
  cases hres : inflateBlocks limit (8 * data.size) (8 * data.size + 1) .empty ⟨data, 0⟩ with
  | error fault =>
    simp only [hres] at h
    cases h
  | ok r =>
    obtain ⟨out, rest⟩ := r
    obtain rfl : out = content := by
      simp only [hres] at h
      exact Except.ok.inj h
    simp only [hblocks.same hres hlimit hlimit']
    rfl

/-- Whether compressed data inflates to some content, without a limit. -/
def Inflates (stored content : ByteArray) : Prop :=
  ∃ limit, content.size ≤ limit ∧ inflate limit stored = .ok content

theorem inflate_eq_ok_iff {limit : Nat} {stored content : ByteArray}
    (hlimit : content.size ≤ limit) :
    inflate limit stored = .ok content ↔ Inflates stored content := by
  constructor
  · exact fun h => ⟨limit, hlimit, h⟩
  · rintro ⟨limit', hlimit', h⟩
    exact inflate_same h hlimit' hlimit

end LedgerSandbox.Archive
