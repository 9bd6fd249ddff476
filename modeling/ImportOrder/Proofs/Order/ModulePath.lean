import ImportOrder.ModulePath
import ImportOrder.Proofs.Order.Collation
import ImportOrder.Proofs.Order.StableSort

/-!
# The order of module paths is a total preorder

Module paths compare by tier, then by how far they climb, and then by the natural order, each of
which is a comparison of keys. So the order of module paths is transitive and total, and every list
of things that have a module path has one stable ordering, which sorting finds.

## Main statements

- `ModulePath.instTransCmp`: module paths are compared by a total preorder
- `ModulePath.paths_sort_uniquely`
-/

namespace ImportOrder.ModulePath

variable {packages : Packages}

/-- Module paths are compared by a total preorder. -/
instance instTransCmp (packages : Packages) : Std.TransCmp (compare packages) :=
  inferInstanceAs (Std.TransCmp (compareLex (compareOn (tier packages))
    (compareLex (compareOn nesting) Collation.natural)))

theorem ne_gt_iff_isLE (o : Ordering) : (o != .gt) = o.isLE := by
  cases o <;> rfl

theorem le_trans (a b c : String) (hab : compare packages a b != .gt)
    (hbc : compare packages b c != .gt) : compare packages a c != .gt := by
  rw [ne_gt_iff_isLE] at *
  exact Std.TransCmp.isLE_trans hab hbc

theorem le_total (a b : String) :
    (compare packages a b != .gt || compare packages b a != .gt) = true := by
  have hswap : compare packages b a = (compare packages a b).swap := Std.OrientedCmp.eq_swap
  rw [ne_gt_iff_isLE, ne_gt_iff_isLE, hswap]
  cases compare packages a b <;> rfl

/-- Of paths in order the first is smaller than the last if one of the two steps is. -/
theorem lt_of_lt_or_lt {a b c : String} (hab : compare packages a b ≠ .gt)
    (hbc : compare packages b c ≠ .gt)
    (hlt : compare packages a b = .lt ∨ compare packages b c = .lt) :
    compare packages a c = .lt := by
  cases hlt with
  | inl hlt => exact Std.TransCmp.lt_of_lt_of_isLE hlt (Ordering.isLE_iff_ne_gt.2 hbc)
  | inr hlt => exact Std.TransCmp.lt_of_isLE_of_lt (Ordering.isLE_iff_ne_gt.2 hab) hlt

/-- The order of module paths is a total preorder, so that paths sort in one way only.

With any packages, a path is equal to itself, two paths compare the other way round if they change
places, and of paths in order the first is not larger than the last, and smaller if one of the two
steps is. Things that have a path have exactly one rearrangement that is in the order of their paths
and leaves those of equal paths as they stand, and sorting gives that one. -/
theorem paths_sort_uniquely (packages : Packages) :
    (∀ a, compare packages a a = .eq) ∧
    (∀ a b, compare packages b a = (compare packages a b).swap) ∧
    (∀ a b c, compare packages a b ≠ .gt → compare packages b c ≠ .gt →
      compare packages a c ≠ .gt ∧
      (compare packages a b = .lt ∨ compare packages b c = .lt → compare packages a c = .lt)) ∧
    ∀ {α : Type} (path : α → String) (items ordering : List α),
      StableOrdering (fun x y => compare packages (path x) (path y) != .gt) items ordering ↔
        ordering = items.mergeSort fun x y => compare packages (path x) (path y) != .gt := by
  refine ⟨fun a => Std.ReflCmp.compare_self, fun a b => Std.OrientedCmp.eq_swap, ?_, ?_⟩
  · intro a b c hab hbc
    refine ⟨?_, lt_of_lt_or_lt hab hbc⟩
    apply Ordering.isLE_iff_ne_gt.1
    exact Std.TransCmp.isLE_trans (Ordering.isLE_iff_ne_gt.2 hab) (Ordering.isLE_iff_ne_gt.2 hbc)
  · intro α path items ordering
    exact stableOrdering_iff (fun x y z => le_trans (path x) (path y) (path z))
      fun x y => le_total (path x) (path y)

/-- Paths that differ by case, by zeros in front of a number and by the number. -/
theorem numbered_paths_sort_uniquely :
    compare [] "./b2" "./B02" = .eq ∧ compare [] "./B02" "./b10" = .lt ∧
    compare [] "./b2" "./b10" = .lt ∧
    StableOrdering (fun a b => compare [] a b != .gt) ["./b10", "./b2", "./B02"]
      ["./b2", "./B02", "./b10"] := by
  obtain ⟨-, hswap, htrans, hsort⟩ := paths_sort_uniquely []
  have hequal : compare [] "./b2" "./B02" = .eq := by decide +kernel
  have hlt : compare [] "./B02" "./b10" = .lt := by decide +kernel
  have hlt' : compare [] "./b2" "./b10" = .lt :=
    (htrans _ _ _ (by rw [hequal]; decide) (by rw [hlt]; decide)).2 (.inr hlt)
  have hgt : compare [] "./b10" "./B02" = .gt := by rw [hswap, hlt]; rfl
  have hgt' : compare [] "./b10" "./b2" = .gt := by rw [hswap, hlt']; rfl
  refine ⟨hequal, hlt, hlt', (hsort (fun path => path) _ _).2 ?_⟩
  simp [List.mergeSort, List.MergeSort.Internal.splitInTwo, hequal, hgt, hgt']

end ImportOrder.ModulePath
