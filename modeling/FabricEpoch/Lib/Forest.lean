import FabricEpoch.Lib.Worklist
import Mathlib.Data.List.Chain

/-!
# Forests kept in a table

Records carry a key and, if they were derived from another record, the key of
that parent. A table that only grows at its end, under parents that are in it
already, is a forest: every chain of parents is finite and acyclic, and a
relation that holds between a parent and its child, if it is transitive, holds
along the chain.

- `Grown`: each parent stands before its children, and is related to them
  (`Grown.append`, `Grown.map` keep it);
- `Grown.related`: what holds of parent and child holds of ancestor and
  descendant;
- `Grown.acyclic`, `Grown.length_chain_le`: chains are acyclic and finite;
- `sum_children_le`: no child is counted under two parents, which is the fuel a
  `Worklist.sweep` over the children needs (`Grown.mem_sweep_iff`).
-/

namespace Forest

open Worklist

variable {α κ : Type} {key : α → κ} {parent : α → Option κ}

/-! ## Growing -/

/-- Each parent stands in the table before its children, and is related to them. -/
def Grown (key : α → κ) (parent : α → Option κ) (R : α → α → Prop) (l : List α) : Prop :=
  ∀ (n : Nat) (a : α), l[n]? = some a → ∀ k, parent a = some k →
    ∃ (m : Nat) (q : α), m < n ∧ l[m]? = some q ∧ key q = k ∧ R q a

variable {l : List α} {R : α → α → Prop} {j k : κ}

theorem Grown.nil : Grown key parent R [] := fun _ _ h => by cases h

/-- A record is appended under a parent of the table. -/
theorem Grown.append (h : Grown key parent R l) {a : α}
    (ha : ∀ k, parent a = some k → ∃ q ∈ l, key q = k ∧ R q a) :
    Grown key parent R (l ++ [a]) := by
  intro n b hb k hk
  by_cases hn : n < l.length
  · rw [List.getElem?_append_left hn] at hb
    obtain ⟨m, q, hm, hq, hid, hr⟩ := h n b hb k hk
    refine ⟨m, q, hm, ?_, hid, hr⟩
    rw [List.getElem?_append_left (by omega), hq]
  · -- the new record comes last
    have hlast : n = l.length := by
      have hlt := (List.getElem?_eq_some_iff.mp hb).1
      rw [List.length_append, List.length_singleton] at hlt
      omega
    subst hlast
    rw [List.getElem?_concat_length] at hb
    obtain rfl := Option.some.inj hb
    obtain ⟨q, hq, hid, hr⟩ := ha k hk
    obtain ⟨m, hm⟩ := List.mem_iff_getElem?.mp hq
    have hlt := (List.getElem?_eq_some_iff.mp hm).1
    exact ⟨m, q, hlt, (List.getElem?_append_left hlt).trans hm, hid, hr⟩

/-- Records change in place; related records stay related. -/
theorem Grown.map {f : α → α} (h : Grown key parent R l) (hkey : ∀ a, key (f a) = key a)
    (hparent : ∀ a, parent (f a) = parent a)
    (hR : ∀ q ∈ l, ∀ a ∈ l, parent a = some (key q) → R q a → R (f q) (f a)) :
    Grown key parent R (l.map f) := by
  intro n b hb k hk
  rw [List.getElem?_map] at hb
  obtain ⟨a, ha, rfl⟩ := Option.map_eq_some_iff.mp hb
  rw [hparent] at hk
  obtain ⟨m, q, hm, hq, rfl, hr⟩ := h n a ha k hk
  refine ⟨m, f q, hm, by rw [List.getElem?_map, hq]; rfl, hkey q, ?_⟩
  exact hR q (List.mem_of_getElem? hq) a (List.mem_of_getElem? ha) hk hr

/-- The parent of a record is in the table, and related to it. -/
theorem Grown.of_parent (hg : Grown key parent R l) {a : α} (ha : a ∈ l) (hk : parent a = some k) :
    ∃ q ∈ l, key q = k ∧ R q a := by
  obtain ⟨n, hn⟩ := List.mem_iff_getElem?.mp ha
  obtain ⟨m, q, -, hq, hid, hr⟩ := hg n a hn k hk
  exact ⟨q, List.mem_of_getElem? hq, hid, hr⟩

/-! ## Children -/

variable [DecidableEq κ]

/-- The keys of the children of a key, in table order. -/
def children (key : α → κ) (parent : α → Option κ) (l : List α) (k : κ) : List κ :=
  (l.filter fun a => parent a = some k).map key

/-- The second key is derived from the first, directly or transitively. -/
abbrev Derived (key : α → κ) (parent : α → Option κ) (l : List α) : κ → κ → Prop :=
  Relation.TransGen (Edge (children key parent l))

theorem mem_children {c : κ} :
    c ∈ children key parent l k ↔ ∃ a ∈ l, key a = c ∧ parent a = some k := by
  simp only [children, List.mem_map, List.mem_filter, decide_eq_true_eq]
  constructor
  · rintro ⟨a, ⟨ha, hparent⟩, rfl⟩
    exact ⟨a, ha, rfl, hparent⟩
  · rintro ⟨a, ha, rfl, hparent⟩
    exact ⟨a, ⟨ha, hparent⟩, rfl⟩

/-- Keys and parents make the forest: whether its parents stand in front of their
children. -/
theorem Grown.of_links {m : List α} (h : Grown key parent (fun _ _ => True) l)
    (hlinks : m.map (fun a => (key a, parent a)) = l.map fun a => (key a, parent a)) :
    Grown key parent (fun _ _ => True) m := by
  intro n b hb k hk
  have hat : ∀ i : Nat, (m[i]?).map (fun a => (key a, parent a)) =
      (l[i]?).map fun a => (key a, parent a) := by
    intro i
    rw [← List.getElem?_map, ← List.getElem?_map, hlinks]
  have hn := hat n
  rw [hb, Option.map_some] at hn
  obtain ⟨a, ha, hlink⟩ := Option.map_eq_some_iff.mp hn.symm
  obtain ⟨-, hparent⟩ := Prod.mk.inj hlink
  obtain ⟨i, q, hi, hq, hid, -⟩ := h n a ha k (hparent.trans hk)
  have hback := hat i
  rw [hq, Option.map_some] at hback
  obtain ⟨q', hq', hlink'⟩ := Option.map_eq_some_iff.mp hback
  obtain ⟨hkey, -⟩ := Prod.mk.inj hlink'
  exact ⟨i, q', hi, hq', hkey.trans hid, trivial⟩

/-- The children depend on the keys and the parents alone. -/
theorem children_of_links {m : List α}
    (hlinks : m.map (fun a => (key a, parent a)) = l.map fun a => (key a, parent a)) :
    children key parent m = children key parent l := by
  have hread : ∀ (l : List α) (k : κ), children key parent l k =
      ((l.map fun a => (key a, parent a)).filter fun p => p.2 = some k).map Prod.fst := by
    intro l k
    rw [children, List.filter_map, List.map_map]
    rfl
  funext k
  rw [hread, hread, hlinks]

/-- What is derived stands in the table. -/
theorem Derived.mem (h : Derived key parent l j k) : k ∈ l.map key := by
  obtain ⟨_, -, hedge⟩ := Relation.TransGen.tail'_iff.mp h
  obtain ⟨a, ha, rfl, -⟩ := mem_children.mp hedge
  exact List.mem_map_of_mem ha

/-- A table that grows keeps what is derived. -/
theorem Derived.append (h : Derived key parent l j k) (m : List α) :
    Derived key parent (l ++ m) j k := by
  refine Relation.TransGen.mono (fun i c hedge => ?_) _ _ h
  obtain ⟨a, ha, hkey, hparent⟩ := mem_children.mp hedge
  exact mem_children.mpr ⟨a, List.mem_append_left m ha, hkey, hparent⟩

/-- **What a new record is derived from**: its parent, and what that is derived
from. Nothing else becomes derived. -/
theorem Grown.derived_append (h : Grown key parent R l) {a : α} (hfresh : key a ∉ l.map key)
    (hparent : ∀ p, parent a = some p → p ∈ l.map key) :
    Derived key parent (l ++ [a]) j k ↔ Derived key parent l j k ∨
      k = key a ∧ ∃ p, parent a = some p ∧ (j = p ∨ Derived key parent l j p) := by
  have hedge : ∀ i c, Edge (children key parent (l ++ [a])) i c →
      Edge (children key parent l) i c ∨ c = key a ∧ parent a = some i := by
    intro i c hc
    obtain ⟨b, hb, rfl, hi⟩ := mem_children.mp hc
    rcases List.mem_append.mp hb with hold | hnew
    · exact .inl (mem_children.mpr ⟨b, hold, rfl, hi⟩)
    · rw [List.mem_singleton.mp hnew] at hi ⊢
      exact .inr ⟨rfl, hi⟩
  -- the new record is nobody's parent
  have hleaf : ∀ c, ¬ Edge (children key parent (l ++ [a])) (key a) c := by
    intro c hc
    rcases hedge _ c hc with hold | ⟨-, hself⟩
    · obtain ⟨b, hb, -, hb'⟩ := mem_children.mp hold
      obtain ⟨q, hq, hkey, -⟩ := h.of_parent hb hb'
      exact hfresh (hkey ▸ List.mem_map_of_mem hq)
    · exact hfresh (hparent _ hself)
  constructor
  · intro hderived
    induction hderived with
    | single hc =>
      rcases hedge _ _ hc with hold | ⟨rfl, hnew⟩
      · exact .inl (.single hold)
      · exact .inr ⟨rfl, _, hnew, .inl rfl⟩
    | tail _ hc ih =>
      rcases ih with hbefore | ⟨rfl, -⟩
      · rcases hedge _ _ hc with hold | ⟨rfl, hnew⟩
        · exact .inl (hbefore.tail hold)
        · exact .inr ⟨rfl, _, hnew, .inr hbefore⟩
      · exact absurd hc (hleaf _)
  · rintro (hold | ⟨rfl, p, hp, hj⟩)
    · exact Derived.append hold [a]
    · have hlast : Edge (children key parent (l ++ [a])) p (key a) :=
        mem_children.mpr ⟨a, List.mem_append_right l (List.mem_singleton_self a), rfl, hp⟩
      rcases hj with rfl | hj
      · exact .single hlast
      · exact (Derived.append hj [a]).tail hlast

/-! ## Chains -/

section Chains

variable (hg : Grown key parent R l) (hn : (l.map key).Nodup)

include hg hn

/-- A parent stands before its children. -/
theorem Grown.idxOf_lt {a : α} (ha : a ∈ l) (hk : parent a = some k) :
    (l.map key).idxOf k < (l.map key).idxOf (key a) := by
  obtain ⟨n, hn'⟩ := List.mem_iff_getElem?.mp ha
  obtain ⟨m, q, hm, hq, rfl, -⟩ := hg n a hn' k hk
  have hidx : ∀ {i b}, l[i]? = some b → (l.map key).idxOf (key b) = i := by
    intro i b hb
    obtain ⟨hi, hget⟩ := List.getElem?_eq_some_iff.mp hb
    have hi' : i < (l.map key).length := by rw [List.length_map]; exact hi
    rw [show key b = (l.map key)[i] from by rw [List.getElem_map, hget]]
    exact hn.idxOf_getElem i hi'
  rw [hidx hq, hidx hn']
  exact hm

theorem Grown.edge_lt (h : Edge (children key parent l) j k) :
    (l.map key).idxOf j < (l.map key).idxOf k := by
  obtain ⟨a, ha, rfl, hparent⟩ := mem_children.mp h
  exact hg.idxOf_lt hn ha hparent

theorem Grown.derived_lt (h : Derived key parent l j k) :
    (l.map key).idxOf j < (l.map key).idxOf k := by
  induction h with
  | single hedge => exact hg.edge_lt hn hedge
  | tail _ hedge ih => exact Nat.lt_trans ih (hg.edge_lt hn hedge)

/-- **Nothing is derived from itself.** -/
theorem Grown.acyclic (k : κ) : ¬ Derived key parent l k k :=
  fun h => Nat.lt_irrefl _ (hg.derived_lt hn h)

/-- **Ancestors are related to their descendants**, if the relation is transitive. -/
theorem Grown.related (htrans : ∀ {a b c}, R a b → R b c → R a c)
    (h : Derived key parent l j k) {q a : α} (hq : q ∈ l) (hqk : key q = j) (ha : a ∈ l)
    (hak : key a = k) : R q a := by
  -- with unique keys a key stands for one record
  have hunique : ∀ {b c : α}, b ∈ l → c ∈ l → key b = key c → b = c :=
    fun hb hc heq => List.inj_on_of_nodup_map hn hb hc heq
  induction h generalizing a with
  | single hedge =>
    obtain ⟨a', ha', hid, hparent⟩ := mem_children.mp hedge
    obtain rfl := hunique ha' ha (hid.trans hak.symm)
    obtain ⟨q', hq', hid', hr⟩ := hg.of_parent ha' hparent
    rwa [hunique hq' hq (hid'.trans hqk.symm)] at hr
  | tail _ hedge ih =>
    obtain ⟨a', ha', hid, hparent⟩ := mem_children.mp hedge
    obtain rfl := hunique ha' ha (hid.trans hak.symm)
    obtain ⟨q', hq', hid', hr⟩ := hg.of_parent ha' hparent
    exact htrans (ih hq' hid') hr

/-- **A chain of parents is not longer than the table.** -/
theorem Grown.length_chain_le {c : List α} (hc : c.IsChain fun q a => parent a = some (key q))
    (hmem : ∀ a ∈ c, a ∈ l) : c.length ≤ l.length := by
  -- along the chain the positions increase
  have hchain : (c.map fun a => (l.map key).idxOf (key a)).IsChain (· < ·) := by
    induction c with
    | nil => exact .nil
    | cons a c ih =>
      cases c with
      | nil => exact .singleton _
      | cons b c =>
        rw [List.isChain_cons_cons] at hc
        rw [List.map_cons, List.map_cons, List.isChain_cons_cons]
        refine ⟨hg.idxOf_lt hn (hmem b (by simp)) hc.1, ?_⟩
        exact ih hc.2 fun x hx => hmem x (List.mem_cons_of_mem _ hx)
  have hnodup : (c.map fun a => (l.map key).idxOf (key a)).Nodup :=
    hchain.pairwise.imp Nat.ne_of_lt
  have hkeys : (c.map key).Nodup := by
    rw [show (c.map fun a => (l.map key).idxOf (key a)) = (c.map key).map (l.map key).idxOf from by
      rw [List.map_map]; rfl] at hnodup
    exact hnodup.of_map _
  have hsub : c.map key ⊆ l.map key := by
    intro k hk
    obtain ⟨a, ha, rfl⟩ := List.mem_map.mp hk
    exact List.mem_map_of_mem (hmem a ha)
  have hle := (List.subperm_of_subset hkeys hsub).length_le
  simpa using hle

end Chains

/-! ## Fuel -/

/-- No child is counted under two parents. -/
theorem sum_children_le (parent : α → Option κ) {ks : List κ} (hn : ks.Nodup) (l : List α) :
    (ks.map fun k => (children key parent l k).length).sum ≤ l.length := by
  induction l with
  | nil => simp [children]
  | cons a l ih =>
    -- the record is counted under its parent only
    have hone : (ks.map fun k => if parent a = some k then 1 else 0).sum ≤ 1 := by
      cases hparent : parent a with
      | none => simp
      | some p =>
        have hcount : (ks.map fun k => if some p = some k then 1 else 0).sum = ks.count p := by
          rw [List.count_eq_countP, List.countP_eq_length_filter]
          clear hn ih hparent
          induction ks with
          | nil => rfl
          | cons k ks ih =>
            rw [List.map_cons, List.sum_cons, ih, List.filter_cons]
            by_cases hk : p = k
            · subst hk
              simp [Nat.add_comm]
            · have hk' : ¬ k = p := fun h => hk h.symm
              simp [hk, hk']
        rw [hcount]
        exact List.nodup_iff_count_le_one.mp hn p
    have hsplit : (ks.map fun k => (children key parent (a :: l) k).length) =
        ks.map fun k => (if parent a = some k then 1 else 0) + (children key parent l k).length := by
      refine List.map_congr_left fun k _ => ?_
      unfold children
      rw [List.filter_cons]
      by_cases hk : parent a = some k
      · simp [hk, Nat.add_comm]
      · simp [hk]
    rw [hsplit, List.sum_map_add, List.length_cons]
    omega

/-- **A traversal over the children with a round for every record and one for
the root** visits exactly what is derived and not seen. -/
theorem mem_sweep_iff {seen : List κ} (hn : (l.map key).Nodup) (hroot : k ∈ l.map key)
    (hseen : ∀ i ∈ seen, ∀ c ∈ children key parent l i, c ∈ seen) {fuel : Nat}
    (hfuel : l.length + 1 ≤ fuel) {x : κ} :
    x ∈ sweep (children key parent l) fuel [k] seen ↔
      Relation.ReflTransGen (Edge (children key parent l)) k x ∧ x ∉ seen := by
  refine Worklist.mem_sweep_iff hn (fun i _ c hc => ?_) hroot hseen ?_
  · obtain ⟨a, ha, rfl, -⟩ := mem_children.mp hc
    exact List.mem_map_of_mem ha
  · have hle : weight (children key parent l) (l.map key) seen ≤ _ := weight_le_all _ _
    have hsum : ((l.map key).map fun k => (children key parent l k).length).sum ≤ l.length :=
      sum_children_le parent hn l
    omega

/-! ## Walks -/

/-- A key has one parent. -/
theorem parent_unique (hn : (l.map key).Nodup) {i j c : κ} (hi : c ∈ children key parent l i)
    (hj : c ∈ children key parent l j) : i = j := by
  obtain ⟨a, ha, rfl, hparent⟩ := mem_children.mp hi
  obtain ⟨b, hb, hkey, hparent'⟩ := mem_children.mp hj
  obtain rfl := List.inj_on_of_nodup_map hn hb ha hkey
  exact Option.some.inj (hparent.symm.trans hparent')

section Walks

variable {below : κ → List κ} {present : κ → Bool} (hg : Grown key parent R l)
  (hn : (l.map key).Nodup) (hbelow : ∀ k, ∀ c ∈ below k, c ∈ children key parent l k)
  (honce : ∀ k, (below k).Nodup)

include hg hn hbelow honce

/-- The nodes visited so far and those pending: each but the root was pushed by
its parent, so none comes up again. -/
theorem Grown.walk_fresh {root : κ} {fuel : Nat} {seen pending : List κ}
    (hfresh : (seen ++ pending).Nodup)
    (hpushed : ∀ x ∈ seen ++ pending, x = root ∨ ∃ p ∈ seen, x ∈ children key parent l p)
    (hreached : ∀ x ∈ seen ++ pending, Relation.ReflTransGen (Edge (children key parent l)) root x) :
    (seen ++ walk below present fuel pending).Nodup := by
  induction fuel generalizing seen pending with
  | zero => exact hfresh.sublist (List.Sublist.append_left (List.nil_sublist _) _)
  | succ fuel ih =>
    cases pending with
    | nil => exact hfresh
    | cons k pending =>
      have hdrop : List.Sublist (seen ++ pending) (seen ++ k :: pending) :=
        List.Sublist.append_left (List.sublist_cons_self _ _) _
      rw [walk]
      split
      swap
      · exact ih (hfresh.sublist hdrop) (fun x hx => hpushed x (hdrop.subset hx))
          fun x hx => hreached x (hdrop.subset hx)
      have hk : k ∈ seen ++ k :: pending := by simp
      have hkroot := hreached k hk
      have hknew : k ∉ seen ∧ k ∉ pending := by
        rw [List.nodup_append, List.nodup_cons] at hfresh
        exact ⟨fun hmem => hfresh.2.2 k hmem k (List.mem_cons_self ..) rfl, hfresh.2.1.1⟩
      -- a child was pushed by no node before, and the root is below no node
      have hchild : ∀ c ∈ below k, c ∉ seen ++ k :: pending := by
        intro c hc hmem
        have hedge := hbelow k c hc
        rcases hpushed c hmem with rfl | ⟨p, hp, hpedge⟩
        · exact hg.acyclic hn c (Relation.TransGen.tail' hkroot hedge)
        · rw [parent_unique hn hpedge hedge] at hp
          exact hknew.1 hp
      have hperm : ((k :: seen) ++ walk below present fuel ((below k).reverse ++ pending)).Perm
          (seen ++ k :: walk below present fuel ((below k).reverse ++ pending)) :=
        List.perm_middle.symm
      refine hperm.nodup_iff.mp (ih ?_ ?_ ?_)
      · rw [List.cons_append, List.nodup_cons, List.nodup_append, List.nodup_append]
        have hrest := List.nodup_append.mp hfresh
        refine ⟨?_, hrest.1, ⟨List.nodup_reverse.mpr (honce k), (List.nodup_cons.mp hrest.2.1).2, ?_⟩, ?_⟩
        · intro hmem
          rcases List.mem_append.mp hmem with hmem | hmem
          · exact hknew.1 hmem
          rcases List.mem_append.mp hmem with hmem | hmem
          · exact hchild k (List.mem_reverse.mp hmem) hk
          · exact hknew.2 hmem
        · rintro c hc x hx rfl
          exact hchild c (List.mem_reverse.mp hc) (by simp [hx])
        · rintro x hx y hy rfl
          rcases List.mem_append.mp hy with hy | hy
          · exact hchild x (List.mem_reverse.mp hy) (by simp [hx])
          · exact hrest.2.2 x hx x (List.mem_cons_of_mem _ hy) rfl
      · intro x hx
        rcases List.mem_append.mp hx with hx | hx
        · have hold : x ∈ seen ++ k :: pending := by
            rcases List.mem_cons.mp hx with rfl | hx
            · exact hk
            · exact List.mem_append_left _ hx
          refine (hpushed x hold).imp_right ?_
          rintro ⟨p, hp, hedge⟩
          exact ⟨p, List.mem_cons_of_mem _ hp, hedge⟩
        rcases List.mem_append.mp hx with hx | hx
        · exact .inr ⟨k, List.mem_cons_self .., hbelow k x (List.mem_reverse.mp hx)⟩
        · refine (hpushed x (by simp [hx])).imp_right ?_
          rintro ⟨p, hp, hedge⟩
          exact ⟨p, List.mem_cons_of_mem _ hp, hedge⟩
      · intro x hx
        rcases List.mem_append.mp hx with hx | hx
        · rcases List.mem_cons.mp hx with rfl | hx
          · exact hkroot
          · exact hreached x (List.mem_append_left _ hx)
        rcases List.mem_append.mp hx with hx | hx
        · exact hkroot.tail (hbelow k x (List.mem_reverse.mp hx))
        · exact hreached x (by simp [hx])

/-- **A walk down a forest** visits no node twice. -/
theorem Grown.walk_nodup (root : κ) (fuel : Nat) : (walk below present fuel [root]).Nodup := by
  have hfirst : ∀ x ∈ [] ++ [root], x = root := fun x hx => List.mem_singleton.mp hx
  have hfresh : ([] ++ walk below present fuel [root]).Nodup := by
    refine hg.walk_fresh hn hbelow honce (List.nodup_singleton _) (fun x hx => .inl (hfirst x hx))
      fun x hx => ?_
    rw [hfirst x hx]
  exact hfresh

end Walks

end Forest
