import Mathlib.Data.List.Sort

/-!
# Sorting under an integer comparator

A comparator in the style of the C library returns a negative number, zero or a
positive number. A `Sorter` is any procedure that returns a permutation sorted
under the comparator; a `StableSorter` also keeps tied elements in input order.
The results of two sorters, or of one sorter on two arrangements of the same
elements, agree exactly as far as the comparator separates the elements.
-/

namespace WirenBoard

universe u v

/-- A procedure that returns some permutation sorted under `cmp`. -/
structure Sorter {α : Type u} (cmp : α → α → Int) where
  /-- The procedure. -/
  sort : List α → List α
  /-- No element is lost, duplicated or altered. -/
  perm : ∀ l, (sort l).Perm l
  /-- No later element compares below an earlier one. -/
  sorted : ∀ l, (sort l).Pairwise fun x y => cmp x y ≤ 0

/-- A sorter that keeps tied elements in the order of its input. -/
structure StableSorter {α : Type u} (cmp : α → α → Int) extends Sorter cmp where
  /-- A tied pair leaves in the order in which it came. -/
  stable : ∀ {l : List α} {x y : α}, cmp x y = 0 → [x, y].Sublist l → [x, y].Sublist (sort l)

section Sorters

variable {α : Type u} {cmp : α → α → Int}

/-- Merge sort is a stable sorter for every total preorder given as a comparator. -/
def mergeSorter (trans : ∀ x y z, cmp x y ≤ 0 → cmp y z ≤ 0 → cmp x z ≤ 0)
    (total : ∀ x y, cmp x y ≤ 0 ∨ cmp y x ≤ 0) : StableSorter cmp where
  sort l := l.mergeSort fun x y => decide (cmp x y ≤ 0)
  perm l := List.mergeSort_perm l _
  sorted l := by
    have h : (l.mergeSort fun x y => decide (cmp x y ≤ 0)).Pairwise
        fun x y => decide (cmp x y ≤ 0) = true := List.pairwise_mergeSort
      (by simpa only [decide_eq_true_eq] using trans)
      (by simpa only [Bool.or_eq_true, decide_eq_true_eq] using total) l
    simpa only [decide_eq_true_eq] using h
  stable := by
    intro l x y hxy hl
    apply List.pair_sublist_mergeSort (by simpa only [decide_eq_true_eq] using trans)
      (by simpa only [Bool.or_eq_true, decide_eq_true_eq] using total) _ hl
    exact decide_eq_true hxy.le

/-- When the comparator separates the elements, the result does not depend on
the arrangement of the input. -/
theorem Sorter.sort_eq_of_perm (s : Sorter cmp) {l l' : List α} (hp : l.Perm l')
    (hsep : ∀ x ∈ l, ∀ y ∈ l, cmp x y ≤ 0 → cmp y x ≤ 0 → x = y) : s.sort l = s.sort l' := by
  refine List.Perm.eq_of_pairwise ?_ (s.sorted l) (s.sorted l')
    ((s.perm l).trans (hp.trans (s.perm l').symm))
  intro x y hx hy hxy hyx
  exact hsep x ((s.perm l).mem_iff.mp hx) y (hp.mem_iff.mpr ((s.perm l').mem_iff.mp hy)) hxy hyx

/-- In a list without duplicates no pair occurs in both orders. -/
theorem not_pair_sublist_swap {x y : α} {l : List α} (hn : l.Nodup)
    (hxy : [x, y].Sublist l) (hyx : [y, x].Sublist l) : False := by
  obtain ⟨front, back, rfl, hx, hy⟩ := List.cons_sublist_iff.mp hxy
  have hdisjoint := List.disjoint_of_nodup_append hn
  obtain ⟨first, second, hsplit, hfront, hback⟩ := List.sublist_append_iff.mp hyx
  cases first with
  | nil =>
    rw [List.nil_append] at hsplit
    subst hsplit
    have hxb : x ∈ back := hback.subset (by simp)
    exact hdisjoint hx hxb
  | cons z first =>
    have hz : z = y := (List.cons.inj hsplit).1.symm
    have hyf : y ∈ front := hfront.subset (by simp [hz])
    exact hdisjoint hyf (List.singleton_sublist.mp hy)

/-- Two arrangements that start with a tied pair in opposite orders are sorted
differently, and a projection that separates the elements shows it. -/
theorem StableSorter.map_sort_swap_ne {β : Type v} (s : StableSorter cmp) {x y : α} {l : List α}
    (f : α → β) (hxy : cmp x y = 0) (hyx : cmp y x = 0) (hn : ((x :: y :: l).map f).Nodup) :
    (s.sort (x :: y :: l)).map f ≠ (s.sort (y :: x :: l)).map f := by
  intro he
  have hfirst : [f x, f y].Sublist ((s.sort (x :: y :: l)).map f) :=
    (s.stable hxy ((List.nil_sublist l).cons_cons y |>.cons_cons x)).map f
  have hsecond : [f y, f x].Sublist ((s.sort (x :: y :: l)).map f) := by
    rw [he]
    exact (s.stable hyx ((List.nil_sublist l).cons_cons x |>.cons_cons y)).map f
  have hnodup := ((s.perm (x :: y :: l)).map f).nodup_iff.mpr hn
  exact not_pair_sublist_swap hnodup hfirst hsecond

end Sorters

/-- A list whose elements satisfying `p` come first is its two filtered parts. -/
theorem eq_filter_append_filter {α : Type u} {p : α → Bool} {l : List α}
    (h : l.Pairwise fun x y => p y = true → p x = true) :
    l = l.filter p ++ l.filter fun x => !p x := by
  induction l with
  | nil => rfl
  | cons x l ih =>
    obtain ⟨hx, hl⟩ := List.pairwise_cons.mp h
    cases hp : p x with
    | true =>
      rw [List.filter_cons_of_pos hp, List.filter_cons_of_neg (by simp [hp]), List.cons_append,
        ← ih hl]
    | false =>
      have hnone : l.filter p = [] := by
        rw [List.filter_eq_nil_iff]
        intro y hy hpy
        exact absurd (hx y hy hpy) (by simp [hp])
      have hall : l.filter (fun x => !p x) = l := by
        rw [List.filter_eq_self]
        intro y hy
        cases hpy : p y with
        | true => exact absurd (hx y hy hpy) (by simp [hp])
        | false => rfl
      rw [List.filter_cons_of_neg (by simp [hp]), List.filter_cons_of_pos (by simp [hp]), hnone,
        hall, List.nil_append]

end WirenBoard
