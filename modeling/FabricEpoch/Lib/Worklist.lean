import Mathlib.Algebra.BigOperators.Group.List.Basic
import Mathlib.Algebra.GroupWithZero.Nat
import Mathlib.Data.List.Nodup
import Mathlib.Logic.Relation

/-!
# A traversal with a stack of pending nodes

The loop takes the node that was pushed last, skips it when it has been seen,
and else visits it and pushes its children. `sweep` lists the visited nodes in
order; it runs on fuel.

- `sweep_reaches`: every visited node is reached from a pending one;
- `sweep_fresh`: no node is visited twice, and none that was seen before;
- `walk`: the same traversal without a record of what has been seen;
- `sweep_covers`: with fuel for the pending nodes and for every child of every
  node, the pending nodes and the children of the visited ones have been seen;
- `mem_sweep_iff`: started at one node, over a set of seen nodes that is closed
  under children, the traversal visits exactly what is reached and not yet seen.
-/

namespace Worklist

variable {κ : Type} [DecidableEq κ]

/-- The nodes that are visited, in order. -/
def sweep (children : κ → List κ) : Nat → List κ → List κ → List κ
  | 0, _, _ => []
  | _ + 1, [], _ => []
  | fuel + 1, k :: pending, seen =>
    if k ∈ seen then sweep children fuel pending seen
    else k :: sweep children fuel ((children k).reverse ++ pending) (k :: seen)

variable {children : κ → List κ} {fuel : Nat} {pending seen : List κ}

/-- The edges of the graph. -/
abbrev Edge (children : κ → List κ) (a b : κ) : Prop := b ∈ children a

/-- What is visited is reached from what was pending. -/
theorem sweep_reaches {x : κ} (h : x ∈ sweep children fuel pending seen) :
    ∃ p ∈ pending, Relation.ReflTransGen (Edge children) p x := by
  induction fuel generalizing pending seen with
  | zero => cases h
  | succ fuel ih =>
    cases pending with
    | nil => cases h
    | cons k pending =>
      rw [sweep] at h
      split at h
      · obtain ⟨p, hp, hreach⟩ := ih h
        exact ⟨p, List.mem_cons_of_mem _ hp, hreach⟩
      rcases List.mem_cons.mp h with rfl | h
      · exact ⟨x, List.mem_cons_self .., .refl⟩
      obtain ⟨p, hp, hreach⟩ := ih h
      rcases List.mem_append.mp hp with hp | hp
      · exact ⟨k, List.mem_cons_self .., .head (List.mem_reverse.mp hp) hreach⟩
      · exact ⟨p, List.mem_cons_of_mem _ hp, hreach⟩

/-- No node is visited twice, and none that was seen before. -/
theorem sweep_fresh : (sweep children fuel pending seen).Nodup ∧
    ∀ x ∈ sweep children fuel pending seen, x ∉ seen := by
  induction fuel generalizing pending seen with
  | zero => exact ⟨List.nodup_nil, fun _ hx => (nomatch hx)⟩
  | succ fuel ih =>
    cases pending with
    | nil => exact ⟨List.nodup_nil, fun _ hx => (nomatch hx)⟩
    | cons k pending =>
      rw [sweep]
      split
      · exact ih
      next hk =>
      obtain ⟨hn, hnew⟩ := @ih ((children k).reverse ++ pending) (k :: seen)
      refine ⟨List.nodup_cons.mpr ⟨fun hmem => ?_, hn⟩, fun x hx => ?_⟩
      · exact hnew k hmem (List.mem_cons_self ..)
      · rcases List.mem_cons.mp hx with rfl | hx
        · exact hk
        · exact fun hmem => hnew x hx (List.mem_cons_of_mem _ hmem)

/-! ## Without a record of what was seen -/

/-- The nodes that are visited by a traversal that skips only the nodes that are
not there. -/
def walk (children : κ → List κ) (present : κ → Bool) : Nat → List κ → List κ
  | 0, _ => []
  | _ + 1, [] => []
  | fuel + 1, k :: pending =>
    if present k then k :: walk children present fuel ((children k).reverse ++ pending)
    else walk children present fuel pending

/-- What is visited is reached from what was pending. -/
theorem walk_reaches {present : κ → Bool} {x : κ} (h : x ∈ walk children present fuel pending) :
    ∃ p ∈ pending, Relation.ReflTransGen (Edge children) p x := by
  induction fuel generalizing pending with
  | zero => cases h
  | succ fuel ih =>
    cases pending with
    | nil => cases h
    | cons k pending =>
      rw [walk] at h
      split at h
      swap
      · obtain ⟨p, hp, hreach⟩ := ih h
        exact ⟨p, List.mem_cons_of_mem _ hp, hreach⟩
      rcases List.mem_cons.mp h with rfl | h
      · exact ⟨x, List.mem_cons_self .., .refl⟩
      obtain ⟨p, hp, hreach⟩ := ih h
      rcases List.mem_append.mp hp with hp | hp
      · exact ⟨k, List.mem_cons_self .., .head (List.mem_reverse.mp hp) hreach⟩
      · exact ⟨p, List.mem_cons_of_mem _ hp, hreach⟩

/-! ## Fuel -/

/-- The children of the nodes that have not been seen. -/
def weight (children : κ → List κ) (nodes seen : List κ) : Nat :=
  ((nodes.filter (· ∉ seen)).map fun k => (children k).length).sum

theorem weight_le_all (nodes seen : List κ) :
    weight children nodes seen ≤ (nodes.map fun k => (children k).length).sum := by
  unfold weight
  induction nodes with
  | nil => exact Nat.le_refl _
  | cons k nodes ih =>
    rw [List.filter_cons]
    split
    · rw [List.map_cons, List.map_cons, List.sum_cons, List.sum_cons]
      omega
    · rw [List.map_cons, List.sum_cons]
      omega

/-- Visiting a node takes its children off the weight. -/
theorem weight_visit {nodes : List κ} (hn : nodes.Nodup) {k : κ} (hk : k ∈ nodes) (hnew : k ∉ seen) :
    weight children nodes seen = (children k).length + weight children nodes (k :: seen) := by
  unfold weight
  induction nodes with
  | nil => cases hk
  | cons a nodes ih =>
    rw [List.nodup_cons] at hn
    by_cases ha : a = k
    · subst ha
      -- nothing behind it is the node itself
      have hrest : nodes.filter (· ∉ seen) = nodes.filter (· ∉ a :: seen) := by
        refine List.filter_congr fun b hb => ?_
        have hne : b ≠ a := fun heq => hn.1 (heq ▸ hb)
        simp [hne]
      rw [List.filter_cons_of_pos (by simpa using hnew), List.filter_cons_of_neg (by simp),
        List.map_cons, List.sum_cons, hrest]
    · have hmem := (List.mem_cons.mp hk).resolve_left fun heq => ha heq.symm
      have hboth := ih hn.2 hmem
      by_cases hseen : a ∈ seen
      · rw [List.filter_cons_of_neg (by simpa using hseen),
          List.filter_cons_of_neg (by simp [hseen])]
        exact hboth
      · rw [List.filter_cons_of_pos (by simpa using hseen),
          List.filter_cons_of_pos (by simp [ha, hseen]), List.map_cons, List.map_cons,
          List.sum_cons, List.sum_cons, hboth]
        omega

/-- **With enough fuel nothing is left over**: the pending nodes have been seen,
and so have the children of every visited one. -/
theorem sweep_covers {nodes : List κ} (hn : nodes.Nodup)
    (hchildren : ∀ k ∈ nodes, ∀ c ∈ children k, c ∈ nodes) (hpending : ∀ p ∈ pending, p ∈ nodes)
    (hfuel : pending.length + weight children nodes seen ≤ fuel) :
    (∀ p ∈ pending, p ∈ seen ∨ p ∈ sweep children fuel pending seen) ∧
      ∀ x ∈ sweep children fuel pending seen, ∀ c ∈ children x,
        c ∈ seen ∨ c ∈ sweep children fuel pending seen := by
  induction fuel generalizing pending seen with
  | zero =>
    have hnil : pending = [] := List.length_eq_zero_iff.mp (by omega)
    subst hnil
    exact ⟨fun _ hp => (nomatch hp), fun _ hx => (nomatch hx)⟩
  | succ fuel ih =>
    cases pending with
    | nil => exact ⟨fun _ hp => (nomatch hp), fun _ hx => (nomatch hx)⟩
    | cons k pending =>
      rw [List.length_cons] at hfuel
      rw [sweep]
      split
      · next hk =>
        obtain ⟨hall, hclosed⟩ := @ih pending seen
          (fun p hp => hpending p (List.mem_cons_of_mem _ hp)) (by omega)
        refine ⟨fun p hp => ?_, hclosed⟩
        rcases List.mem_cons.mp hp with rfl | hp
        · exact .inl hk
        · exact hall p hp
      next hk =>
      have hmem := hpending k (List.mem_cons_self ..)
      have hweight : weight children nodes seen = _ := weight_visit hn hmem hk
      obtain ⟨hall, hclosed⟩ := @ih ((children k).reverse ++ pending) (k :: seen)
        (fun p hp => by
          rcases List.mem_append.mp hp with hp | hp
          · exact hchildren k hmem p (List.mem_reverse.mp hp)
          · exact hpending p (List.mem_cons_of_mem _ hp))
        (by rw [List.length_append, List.length_reverse]; omega)
      -- what counts as seen from here on
      have hmove : ∀ y, y ∈ k :: seen ∨
          y ∈ sweep children fuel ((children k).reverse ++ pending) (k :: seen) →
          y ∈ seen ∨ y ∈ k :: sweep children fuel ((children k).reverse ++ pending) (k :: seen) := by
        rintro y (hy | hy)
        · rcases List.mem_cons.mp hy with rfl | hy
          · exact .inr (List.mem_cons_self ..)
          · exact .inl hy
        · exact .inr (List.mem_cons_of_mem _ hy)
      refine ⟨fun p hp => ?_, fun x hx c hc => ?_⟩
      · rcases List.mem_cons.mp hp with rfl | hp
        · exact .inr (List.mem_cons_self ..)
        · exact hmove p (hall p (List.mem_append_right _ hp))
      · rcases List.mem_cons.mp hx with rfl | hx
        · exact hmove c (hall c (List.mem_append_left _ (List.mem_reverse.mpr hc)))
        · exact hmove c (hclosed x hx c hc)

/-- **Exactly what is reached is visited**, unless it had been seen. -/
theorem mem_sweep_iff {nodes : List κ} (hn : nodes.Nodup)
    (hchildren : ∀ k ∈ nodes, ∀ c ∈ children k, c ∈ nodes) {root : κ} (hroot : root ∈ nodes)
    (hseen : ∀ k ∈ seen, ∀ c ∈ children k, c ∈ seen)
    (hfuel : 1 + weight children nodes seen ≤ fuel) {x : κ} :
    x ∈ sweep children fuel [root] seen ↔
      Relation.ReflTransGen (Edge children) root x ∧ x ∉ seen := by
  have hone : ∀ p ∈ [root], p ∈ nodes := fun p hp => List.mem_singleton.mp hp ▸ hroot
  obtain ⟨hpending, hclosed⟩ := sweep_covers hn hchildren hone hfuel
  constructor
  · intro hx
    obtain ⟨p, hp, hreach⟩ := sweep_reaches hx
    rw [List.mem_singleton.mp hp] at hreach
    exact ⟨hreach, sweep_fresh.2 x hx⟩
  · rintro ⟨hreach, hx⟩
    -- along the path everything is seen or visited
    have hall : ∀ y, Relation.ReflTransGen (Edge children) root y →
        y ∈ seen ∨ y ∈ sweep children fuel [root] seen := by
      intro y hy
      induction hy with
      | refl => exact hpending root (List.mem_singleton_self _)
      | tail _ hedge ih =>
        rcases ih with h | h
        · exact .inl (hseen _ h _ hedge)
        · exact hclosed _ h _ hedge
    exact (hall x hreach).resolve_left hx

end Worklist
