import Mathlib.Data.List.Induction
import Mathlib.Data.List.Sort

/-! Merging and binary insertion, where an element moves only by the sign of an answer of the
comparator. The comparator need not be an order, nor agree with itself. -/
namespace Sorting
variable {α : Type}

/-- An answer lets `x` stand before `y`. -/
def Before (compare : α → α → Int) (x y : α) : Prop := compare x y ≤ 0 ∨ 0 ≤ compare y x

/-- `first x y` decides by an answer whether `x`, which stands to the left, stays before `y`. -/
def Follows (compare : α → α → Int) (first : α → α → Bool) : Prop :=
  ∀ x y, if first x y then Before compare x y else Before compare y x

def askLeft (compare : α → α → Int) (x y : α) : Bool := compare x y ≤ 0

def askRight (compare : α → α → Int) (x y : α) : Bool := !decide (compare y x < 0)

theorem follows_askLeft (compare : α → α → Int) : Follows compare (askLeft compare) := by
  intro x y
  by_cases h : compare x y ≤ 0
  · simp [askLeft, Before, h]
  · have hle : 0 ≤ compare x y := by omega
    simp [askLeft, Before, h, hle]

theorem follows_askRight (compare : α → α → Int) : Follows compare (askRight compare) := by
  intro x y
  by_cases h : compare y x < 0
  · have hle : compare y x ≤ 0 := by omega
    simp [askRight, Before, h, hle]
  · have hle : 0 ≤ compare y x := by omega
    simp [askRight, Before, h, hle]

theorem split_half {xs right : List α} {mid : α} (h : xs.drop (xs.length / 2) = mid :: right) :
    xs.take (xs.length / 2) ++ mid :: right = xs := by
  rw [← h, List.take_append_drop]

theorem length_halves {xs right : List α} {mid : α}
    (h : xs.drop (xs.length / 2) = mid :: right) :
    (xs.take (xs.length / 2)).length < xs.length ∧ right.length < xs.length := by
  have hlen := congrArg List.length (split_half h)
  simp only [List.length_append, List.length_cons] at hlen
  have hpos : 0 < xs.length := by omega
  refine ⟨?_, by omega⟩
  rw [List.length_take]
  omega

/-- Put `pivot` into a sorted list by binary search. The list is the part between the two ends
of the search. -/
def binaryInsert (first : α → α → Bool) (pivot : α) (xs : List α) : List α :=
  match _h : xs.drop (xs.length / 2) with
  | [] => xs ++ [pivot]
  | mid :: right =>
    if first mid pivot then
      xs.take (xs.length / 2) ++ mid :: binaryInsert first pivot right
    else binaryInsert first pivot (xs.take (xs.length / 2)) ++ mid :: right
  termination_by xs.length
  decreasing_by
    · exact (length_halves _h).2
    · exact (length_halves _h).1

@[simp] theorem binaryInsert_nil (first : α → α → Bool) (pivot : α) :
    binaryInsert first pivot [] = [pivot] := by
  rw [binaryInsert]
  split
  · rfl
  · rename_i h
    simp at h

@[simp] theorem binaryInsert_singleton (first : α → α → Bool) (pivot x : α) :
    binaryInsert first pivot [x] = if first x pivot then [x, pivot] else [pivot, x] := by
  rw [binaryInsert]
  split
  · rename_i h
    simp at h
  · rename_i h
    obtain ⟨rfl, rfl⟩ : _ = x ∧ _ = [] := by simpa [eq_comm] using h
    simp

def binaryInsertionSort (first : α → α → Bool) (xs : List α) : List α :=
  xs.foldl (fun sorted pivot => binaryInsert first pivot sorted) []

/-- The lists that a sort can reach: parts that are sorted on their own are merged, and
elements are inserted, in any order of doing so. -/
inductive Sorts (compare : α → α → Int) : List α → List α → Prop
  | nil : Sorts compare [] []
  | single (x : α) : Sorts compare [x] [x]
  | merge {left left' right right' : List α} {first : α → α → Bool} (hf : Follows compare first)
      (hl : Sorts compare left left') (hr : Sorts compare right right') :
      Sorts compare (left ++ right) (left'.merge right' first)
  | insert {xs xs' : List α} {first : α → α → Bool} (hf : Follows compare first)
      (hs : Sorts compare xs xs') (pivot : α) :
      Sorts compare (xs ++ [pivot]) (binaryInsert first pivot xs')

theorem perm_binaryInsert (first : α → α → Bool) (pivot : α) (xs : List α) :
    (binaryInsert first pivot xs).Perm (pivot :: xs) := by
  fun_induction binaryInsert first pivot xs with
  | case1 xs h => exact List.perm_append_comm
  | case2 xs mid right h hf ih =>
    have hxs := split_half h
    have hperm := ((ih.cons mid).trans (List.Perm.swap pivot mid right)).append_left
      (xs.take (xs.length / 2))
    exact hperm.trans (List.perm_middle.trans (List.Perm.of_eq (congrArg (pivot :: ·) hxs)))
  | case3 xs mid right h hf ih =>
    have hxs := split_half h
    exact (ih.append_right (mid :: right)).trans (by rw [List.cons_append, hxs])

theorem Sorts.perm {compare : α → α → Int} {xs ys : List α} (h : Sorts compare xs ys) :
    ys.Perm xs := by
  induction h with
  | nil => exact List.Perm.refl _
  | single x => exact List.Perm.refl _
  | merge hf hl hr ihl ihr => exact (List.merge_perm_append _).trans (ihl.append ihr)
  | insert hf hs pivot ih =>
    exact (perm_binaryInsert _ pivot _).trans
      ((ih.cons pivot).trans (@List.perm_append_comm _ [pivot] _))

section Sorted
variable {compare : α → α → Int} {R : α → α → Prop} {first : α → α → Bool}

theorem pairwise_merge (htrans : ∀ x y z, R x y → R y z → R x z) {xs ys : List α}
    (hf : ∀ x ∈ xs, ∀ y ∈ ys, if first x y then R x y else R y x) (hx : xs.Pairwise R)
    (hy : ys.Pairwise R) : (xs.merge ys first).Pairwise R := by
  induction xs generalizing ys with
  | nil => simpa using hy
  | cons x xs ihx =>
    induction ys with
    | nil => simpa using hx
    | cons y ys ihy =>
      obtain ⟨hxs, hx'⟩ := List.pairwise_cons.mp hx
      obtain ⟨hys, hy'⟩ := List.pairwise_cons.mp hy
      have hxy := hf x List.mem_cons_self y List.mem_cons_self
      rw [List.cons_merge_cons]
      split
      · rename_i h
        rw [if_pos h] at hxy
        have hleft := ihx (fun z hz => hf z (List.mem_cons_of_mem x hz)) hx' hy
        refine List.pairwise_cons.mpr ⟨fun z hz => ?_, hleft⟩
        cases List.mem_merge.mp hz with
        | inl hz => exact hxs z hz
        | inr hz =>
          cases hz with
          | head => exact hxy
          | tail _ hz => exact htrans x y z hxy (hys z hz)
      · rename_i h
        rw [if_neg h] at hxy
        have hright := ihy (fun z hz w hw => hf z hz w (List.mem_cons_of_mem y hw)) hy'
        refine List.pairwise_cons.mpr ⟨fun z hz => ?_, hright⟩
        cases List.mem_merge.mp hz with
        | inl hz =>
          cases hz with
          | head => exact hxy
          | tail _ hz => exact htrans y x z hxy (hxs z hz)
        | inr hz => exact hys z hz

theorem pairwise_binaryInsert (htrans : ∀ x y z, R x y → R y z → R x z) {pivot : α}
    {xs : List α} (hf : ∀ x ∈ xs, if first x pivot then R x pivot else R pivot x)
    (hx : xs.Pairwise R) : (binaryInsert first pivot xs).Pairwise R := by
  fun_induction binaryInsert first pivot xs with
  | case1 xs h =>
    have hlen := congrArg List.length h
    simp only [List.length_drop, List.length_nil] at hlen
    have hnil : xs = [] := List.length_eq_zero_iff.mp (by omega)
    simp [hnil]
  | case2 xs mid right h hmid ih =>
    have hxs := split_half h
    rw [← hxs] at hx hf
    obtain ⟨hl, hr, hlr⟩ := List.pairwise_append.mp hx
    obtain ⟨hmr, hr'⟩ := List.pairwise_cons.mp hr
    have hpivot : R mid pivot := by
      simpa [hmid] using hf mid (List.mem_append_right _ List.mem_cons_self)
    have hright := ih (fun z hz => hf z (List.mem_append_right _ (List.mem_cons_of_mem mid hz))) hr'
    have hle (z : α) (hz : z ∈ binaryInsert first pivot right) : R mid z := by
      cases (perm_binaryInsert first pivot right).mem_iff.mp hz with
      | head => exact hpivot
      | tail _ hz => exact hmr z hz
    refine List.pairwise_append.mpr
      ⟨hl, List.pairwise_cons.mpr ⟨hle, hright⟩, fun a ha z hz => ?_⟩
    have ham : R a mid := hlr a ha mid List.mem_cons_self
    cases hz with
    | head => exact ham
    | tail _ hz => exact htrans a mid z ham (hle z hz)
  | case3 xs mid right h hmid ih =>
    have hxs := split_half h
    rw [← hxs] at hx hf
    obtain ⟨hl, hr, hlr⟩ := List.pairwise_append.mp hx
    have hpivot : R pivot mid := by
      simpa [hmid] using hf mid (List.mem_append_right _ List.mem_cons_self)
    have hleft := ih (fun z hz => hf z (List.mem_append_left _ hz)) hl
    refine List.pairwise_append.mpr ⟨hleft, hr, fun a ha z hz => ?_⟩
    have ham : R a mid := by
      cases (perm_binaryInsert first pivot _).mem_iff.mp ha with
      | head => exact hpivot
      | tail _ ha => exact hlr a ha mid List.mem_cons_self
    cases hz with
    | head => exact ham
    | tail _ hz => exact htrans a mid z ham ((List.pairwise_cons.mp hr).1 z hz)

theorem Follows.holds (hf : Follows compare first) {x y : α} (hxy : Before compare x y → R x y)
    (hyx : Before compare y x → R y x) : if first x y then R x y else R y x := by
  have h := hf x y
  split
  · rename_i ht
    exact hxy (by simpa [ht] using h)
  · rename_i ht
    exact hyx (by simpa [ht] using h)

/-- Whatever the comparator answers where `R` holds in both directions, the result is ordered
by `R`. -/
theorem Sorts.pairwise (htrans : ∀ x y z, R x y → R y z → R x z) {xs ys : List α}
    (h : Sorts compare xs ys) (hR : ∀ x ∈ xs, ∀ y ∈ xs, Before compare x y → R x y) :
    ys.Pairwise R := by
  induction h with
  | nil => exact List.Pairwise.nil
  | single x => exact List.pairwise_singleton R x
  | @merge left left' right right' first hf hl hr ihl ihr =>
    have hleft := ihl fun x hx y hy =>
      hR x (List.mem_append_left _ hx) y (List.mem_append_left _ hy)
    have hright := ihr fun x hx y hy =>
      hR x (List.mem_append_right _ hx) y (List.mem_append_right _ hy)
    refine pairwise_merge htrans (fun x hx y hy => ?_) hleft hright
    have hx' := List.mem_append_left right (hl.perm.mem_iff.mp hx)
    have hy' := List.mem_append_right left (hr.perm.mem_iff.mp hy)
    exact hf.holds (hR x hx' y hy') (hR y hy' x hx')
  | @insert xs xs' first hf hs pivot ih =>
    have hrest := ih fun x hx y hy =>
      hR x (List.mem_append_left _ hx) y (List.mem_append_left _ hy)
    refine pairwise_binaryInsert htrans (fun x hx => ?_) hrest
    have hx' := List.mem_append_left [pivot] (hs.perm.mem_iff.mp hx)
    have hp : pivot ∈ xs ++ [pivot] := List.mem_append_right xs List.mem_cons_self
    exact hf.holds (hR x hx' pivot hp) (hR pivot hp x hx')

end Sorted

/-! The two sorts. -/

theorem sorts_mergeSort {compare : α → α → Int} {first : α → α → Bool}
    (hf : Follows compare first) : (xs : List α) → Sorts compare xs (xs.mergeSort first)
  | [] => by simpa using Sorts.nil
  | [x] => by simpa using Sorts.single x
  | x :: y :: zs => by
    have hl := sorts_mergeSort hf (List.MergeSort.Internal.splitInTwo ⟨x :: y :: zs, rfl⟩).1.1
    have hr := sorts_mergeSort hf (List.MergeSort.Internal.splitInTwo ⟨x :: y :: zs, rfl⟩).2.1
    rw [List.mergeSort]
    have hm := Sorts.merge hf hl hr
    rwa [List.MergeSort.Internal.splitInTwo_fst_append_splitInTwo_snd] at hm
  termination_by xs => xs.length
  decreasing_by
    all_goals
      simp only [List.MergeSort.Internal.splitInTwo_fst, List.MergeSort.Internal.splitInTwo_snd,
        List.length_take, List.length_drop, List.length_cons]
      omega

theorem sorts_binaryInsertionSort {compare : α → α → Int} {first : α → α → Bool}
    (hf : Follows compare first) (xs : List α) :
    Sorts compare xs (binaryInsertionSort first xs) := by
  induction xs using List.reverseRecOn with
  | nil => exact .nil
  | append_singleton xs x ih =>
    rw [binaryInsertionSort, List.foldl_append]
    exact .insert hf ih x

end Sorting
