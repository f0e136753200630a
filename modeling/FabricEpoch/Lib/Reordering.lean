import Mathlib.Data.List.Perm.Basic
import Mathlib.Data.List.Sort

/-!
# Lists up to order

Records without an order are compared after sorting. The order decides nothing as
long as no two records of one list have the same key, since there is only one sorted
arrangement of them then.

- `Reordered R xs ys`: `ys` lists what `xs` lists, in another order, up to `R`;
- `Reordered.of_sort`, `Reordered.sort`: the same, record by record, once both are sorted;
- `sort_eq_iff`: under an order, equal arrangements are permutations;
- `Lexicographic`: one key, and where it is equal another order.
-/

namespace Reordering

variable {α : Type}

/-- Related record by record, once `xs` is arranged as `ys` is. -/
def Reordered (R : α → α → Prop) (xs ys : List α) : Prop :=
  ∃ zs, xs.Perm zs ∧ List.Forall₂ R zs ys

/-- No two records of the list have the same place in the order. -/
def Separates (r : α → α → Prop) (xs : List α) : Prop :=
  ∀ x ∈ xs, ∀ y ∈ xs, r x y → r y x → x = y

variable {r R : α → α → Prop} {xs ys : List α}

/-- A key that no two records share and that the order decides. -/
theorem Separates.of_key {κ : Type} {key : α → κ} (hnodup : (xs.map key).Nodup)
    (hkey : ∀ x y, r x y → r y x → key x = key y) : Separates r xs := by
  intro x hx y hy hxy hyx
  exact List.inj_on_of_nodup_map hnodup hx hy (hkey x y hxy hyx)

theorem forall₂_mem_right (h : List.Forall₂ R xs ys) {y : α} (hy : y ∈ ys) :
    ∃ x ∈ xs, R x y := by
  induction h with
  | nil => cases hy
  | @cons a b as bs hab hrest ih =>
    rcases List.mem_cons.mp hy with rfl | hy
    · exact ⟨a, List.mem_cons_self .., hab⟩
    · obtain ⟨x, hx, hxy⟩ := ih hy
      exact ⟨x, List.mem_cons_of_mem _ hx, hxy⟩

/-- What keeps the order keeps a list sorted. -/
theorem pairwise_of_forall₂ (hR : ∀ x x' y y', R x y → R x' y' → r x x' → r y y')
    (h : List.Forall₂ R xs ys) (hsorted : xs.Pairwise r) : ys.Pairwise r := by
  induction h with
  | nil => exact .nil
  | cons hab hrest ih =>
    obtain ⟨hhead, htail⟩ := List.pairwise_cons.mp hsorted
    refine List.pairwise_cons.mpr ⟨fun y hy => ?_, ih htail⟩
    obtain ⟨x, hx, hxy⟩ := forall₂_mem_right hrest hy
    exact hR _ _ _ _ hab hxy (hhead x hx)

/-- Equal records in another order. -/
theorem reordered_eq : Reordered (· = ·) xs ys ↔ xs.Perm ys := by
  constructor
  · rintro ⟨zs, hperm, hzs⟩
    exact (List.forall₂_eq_eq_eq ▸ hzs : zs = ys) ▸ hperm
  · intro h
    exact ⟨ys, h, List.forall₂_refl ys⟩

section Sorting

variable [DecidableRel r]

/-- Record by record in the sorted order. -/
theorem Reordered.of_sort (h : List.Forall₂ R (xs.insertionSort r) (ys.insertionSort r)) :
    Reordered R xs ys := by
  -- the arrangement of `xs` that follows the one of `ys`
  obtain ⟨zs, hzs, hperm⟩ := List.perm_comp_forall₂ (List.perm_insertionSort r ys).symm h.flip
  exact ⟨zs, (hperm.trans (List.perm_insertionSort r xs)).symm, hzs.flip⟩

variable [Std.Total r] [IsTrans α r]

/-- **Sorting undoes the reordering**. -/
theorem Reordered.sort (hseparates : Separates r ys)
    (hR : ∀ x x' y y', R x y → R x' y' → r x x' → r y y') (h : Reordered R xs ys) :
    List.Forall₂ R (xs.insertionSort r) (ys.insertionSort r) := by
  obtain ⟨zs, hperm, hzs⟩ := h
  obtain ⟨ws, hws, hpermute⟩ :=
    List.perm_comp_forall₂ ((List.perm_insertionSort r xs).trans hperm) hzs
  have hsorted : ws.Pairwise r := pairwise_of_forall₂ hR hws (List.pairwise_insertionSort r xs)
  have heq : ws = ys.insertionSort r := by
    refine List.Perm.eq_of_pairwise (fun x y hx hy => ?_) hsorted (List.pairwise_insertionSort r ys)
      (hpermute.trans (List.perm_insertionSort r ys).symm)
    exact hseparates x (hpermute.mem_iff.mp hx) y ((List.mem_insertionSort r).mp hy)
  exact heq ▸ hws

/-- Equal arrangements are permutations. -/
theorem sort_eq_iff (hanti : ∀ x y, r x y → r y x → x = y) :
    xs.insertionSort r = ys.insertionSort r ↔ xs.Perm ys := by
  constructor
  · intro h
    exact (List.perm_insertionSort r xs).symm.trans (h ▸ List.perm_insertionSort r ys)
  · intro h
    exact List.Perm.eq_of_pairwise (fun x y _ _ => hanti x y) (List.pairwise_insertionSort r xs)
      (List.pairwise_insertionSort r ys) ((List.perm_insertionSort r xs).trans
        (h.trans (List.perm_insertionSort r ys).symm))

end Sorting

/-! ## Orders by several keys -/

/-- One key decides, and where it is equal the order `r`. -/
def Lexicographic {κ : Type} (key : α → κ) (le : κ → κ → Prop) (r : α → α → Prop) (x y : α) : Prop :=
  key x ≠ key y ∧ le (key x) (key y) ∨ key x = key y ∧ r x y

section Lexicographic

variable {κ : Type} {key : α → κ} {le : κ → κ → Prop}

theorem Lexicographic.total (hle : ∀ a b, le a b ∨ le b a) (hr : ∀ x y, r x y ∨ r y x) (x y : α) :
    Lexicographic key le r x y ∨ Lexicographic key le r y x := by
  by_cases heq : key x = key y
  · rcases hr x y with hxy | hyx
    · exact .inl (.inr ⟨heq, hxy⟩)
    · exact .inr (.inr ⟨heq.symm, hyx⟩)
  · rcases hle (key x) (key y) with hxy | hyx
    · exact .inl (.inl ⟨heq, hxy⟩)
    · exact .inr (.inl ⟨Ne.symm heq, hyx⟩)

theorem Lexicographic.trans (hanti : ∀ a b, le a b → le b a → a = b)
    (hle : ∀ a b c, le a b → le b c → le a c) (hr : ∀ x y z, r x y → r y z → r x z) {x y z : α}
    (hxy : Lexicographic key le r x y) (hyz : Lexicographic key le r y z) :
    Lexicographic key le r x z := by
  rcases hxy with ⟨hne, hxy⟩ | ⟨heq, hxy⟩
  · rcases hyz with ⟨-, hyz⟩ | ⟨heq', -⟩
    · -- back at the first key, both steps would have been equalities
      refine .inl ⟨fun hxz => hne ?_, hle _ _ _ hxy hyz⟩
      exact hanti _ _ hxy (hxz ▸ hyz)
    · exact .inl (heq' ▸ ⟨hne, hxy⟩)
  · rcases hyz with ⟨hne, hyz⟩ | ⟨heq', hyz⟩
    · exact .inl (heq ▸ ⟨hne, hyz⟩)
    · exact .inr ⟨heq.trans heq', hr _ _ _ hxy hyz⟩

/-- Both ways, every key is equal. -/
theorem Lexicographic.antisymm (hanti : ∀ a b, le a b → le b a → a = b) {x y : α}
    (hxy : Lexicographic key le r x y) (hyx : Lexicographic key le r y x) :
    key x = key y ∧ r x y ∧ r y x := by
  rcases hxy with ⟨hne, hxy⟩ | ⟨heq, hxy⟩
  · rcases hyx with ⟨-, hyx⟩ | ⟨heq', -⟩
    · exact absurd (hanti _ _ hxy hyx) hne
    · exact absurd heq'.symm hne
  · rcases hyx with ⟨hne, -⟩ | ⟨-, hyx⟩
    · exact absurd heq.symm hne
    · exact ⟨heq, hxy, hyx⟩

end Lexicographic

end Reordering
