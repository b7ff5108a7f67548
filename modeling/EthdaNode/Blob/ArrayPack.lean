import EthdaNode.Support.HexText

/-!
# The packing that is signed

`ArrayPack` writes the batch numbers and the roots one after the other, without lengths. It is
read back from the width of its elements, because there are as many numbers as roots.
-/

namespace EthdaNode.Blob

open List hiding Vector
open HexText

section
variable {α β : Type} {f : α → List β} {width : ℕ} {xs ys : List α}

lemma length_flatMap_of_width (hx : ∀ x ∈ xs, (f x).length = width) :
    (xs.flatMap f).length = xs.length * width := by
  rw [length_flatMap, map_congr_left hx, map_const', sum_replicate_nat]

lemma flatMap_append_inj (hx : ∀ x ∈ xs, (f x).length = width) (hy : ∀ y ∈ ys, (f y).length = width)
    (hf : ∀ x ∈ xs, ∀ y ∈ ys, f x = f y → x = y) (hl : xs.length = ys.length) {s t : List β}
    (h : xs.flatMap f ++ s = ys.flatMap f ++ t) : xs = ys ∧ s = t := by
  induction xs generalizing ys with
  | nil =>
    rw [length_eq_zero_iff.mp hl.symm] at h ⊢
    exact ⟨rfl, h⟩
  | cons x xs ih =>
    rcases ys with _ | ⟨y, ys⟩
    · cases hl
    simp only [flatMap_cons, append_assoc] at h
    simp only [forall_mem_cons] at hx hy hf
    obtain ⟨hxy, hr⟩ := append_inj h (hx.1.trans hy.1.symm)
    obtain ⟨rfl, hst⟩ := ih hx.2 hy.2 (fun x hx => (hf.2 x hx).2) (Nat.succ.inj hl) hr
    exact ⟨by rw [hf.1.1 hxy], hst⟩
end

/-- `ArrayPack`; `Bytes` of a number is that of its absolute value. -/
def arrayPack (int256Arr : List ℤ) (bytes32Arr : List (Vector UInt8 32)) : List UInt8 :=
  int256Arr.flatMap (fixedBytes 32 ·.natAbs) ++ bytes32Arr.flatMap Vector.toList

def IsUint256 (x : ℤ) : Prop := 0 ≤ x ∧ x < 2 ^ 256

theorem arrayPack_inj {xs ys : List ℤ} {rs ss : List (Vector UInt8 32)}
    (hrs : xs.length = rs.length) (hss : ys.length = ss.length) (hxs : ∀ x ∈ xs, IsUint256 x)
    (hys : ∀ y ∈ ys, IsUint256 y) (h : arrayPack xs rs = arrayPack ys ss) : xs = ys ∧ rs = ss := by
  have hnm : ∀ xs : List ℤ, (∀ x ∈ xs, IsUint256 x) →
      ∀ x ∈ xs, (fixedBytes 32 x.natAbs).length = 32 := by
    intro xs hxs x hx
    obtain ⟨hnn, hlt⟩ := hxs x hx
    exact length_fixedBytes (by omega)
  have hrt : ∀ rs : List (Vector UInt8 32), ∀ r ∈ rs, r.toList.length = 32 := by simp
  have hln := congrArg length h
  simp only [arrayPack, length_append, length_flatMap_of_width (hnm _ hxs),
    length_flatMap_of_width (hnm _ hys), length_flatMap_of_width (hrt _)] at hln
  have hi : ∀ x ∈ xs, ∀ y ∈ ys, fixedBytes 32 x.natAbs = fixedBytes 32 y.natAbs → x = y := by
    intro x hx y hy heq
    have hv := congrArg BigEndian.ofBytes heq
    rw [ofBytes_fixedBytes, ofBytes_fixedBytes] at hv
    have hx' := (hxs x hx).1
    have hy' := (hys y hy).1
    omega
  obtain ⟨rfl, hro⟩ := flatMap_append_inj (hnm _ hxs) (hnm _ hys) hi (by omega) h
  rw [← append_nil (rs.flatMap _), ← append_nil (ss.flatMap _)] at hro
  obtain ⟨rfl, _⟩ := flatMap_append_inj (hrt rs) (hrt ss)
    (fun r _ s _ => Vector.toList_inj.mp) (by omega) hro
  exact ⟨rfl, rfl⟩

theorem arrayPack_inj_swapped : arrayPack [1, 2] [.replicate 32 0, .replicate 32 1] ≠
    arrayPack [2, 1] [.replicate 32 0, .replicate 32 1] := by
  intro h
  have heq := arrayPack_inj rfl rfl (by simp [IsUint256]) (by simp [IsUint256]) h
  exact absurd heq.1 (by decide)

end EthdaNode.Blob
