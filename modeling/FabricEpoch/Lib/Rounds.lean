import FabricEpoch.Lib.Forest
import Mathlib.Data.Finset.Card
import Mathlib.Logic.Function.Iterate

/-!
# Loops over pending nodes, round by round

A loop is the iteration of one round; it ends when some number of rounds leaves
nothing to do. Two loops over a stack of pending nodes are compared, which push the
children of every node they expand:

- `walkRound` expands every node that is there. Where no node has two parents it ends
  unless the root lies on a cycle (`walk_ends_iff`).
- `markRound` marks what it expands, and expands a marked node again only if it is the
  root. It always ends, unless the root is its own child (`mark_ends`): the root comes
  up again once at most (`mark_bound`).
-/

namespace Rounds

open Worklist

/-! ## Rounds -/

section Ends

variable {σ : Type} {ended I : σ → Prop} {round : σ → σ} {s : σ}

/-- After some rounds the loop is over. -/
def Ends (ended : σ → Prop) (round : σ → σ) (s : σ) : Prop := ∃ n, ended (round^[n] s)

/-- What is over stays over. -/
theorem ended_iterate (hended : ∀ s, ended s → ended (round s)) (n : Nat) (h : ended s) :
    ended (round^[n] s) := by
  induction n generalizing s with
  | zero => exact h
  | succ n ih => exact ih (hended s h)

/-- **A rank that every round lowers** bounds the number of rounds. -/
theorem ended_of_rank (rank : σ → Nat) (hended : ∀ s, ended s → ended (round s))
    (hround : ∀ s, I s → ¬ ended s → I (round s) ∧ rank (round s) < rank s) (hI : I s) {n : Nat}
    (hn : rank s ≤ n) : ended (round^[n] s) := by
  induction n generalizing s with
  | zero =>
    by_contra hnot
    have hlt := (hround s hI hnot).2
    omega
  | succ n ih =>
    by_cases hs : ended s
    · exact ended_iterate hended (n + 1) hs
    · obtain ⟨hnext, hlt⟩ := hround s hI hs
      exact ih hnext (by omega)

/-- What every round keeps and what is not over keeps the loop going. -/
theorem not_ends (hI : ∀ s, I s → ¬ ended s) (hround : ∀ s, I s → I (round s)) (h : I s) :
    ¬ Ends ended round s := by
  rintro ⟨n, hended⟩
  have hkept : I (round^[n] s) := by
    clear hended
    induction n generalizing s with
    | zero => exact h
    | succ n ih => exact ih (hround s h)
  exact hI _ hkept hended

end Ends

/-! ## The walk -/

variable {κ : Type} [DecidableEq κ]

/-- One round of a traversal that skips only the nodes that are not there. -/
def walkRound (children : κ → List κ) (present : κ → Bool) : List κ → List κ
  | [] => []
  | k :: pending => if present k then (children k).reverse ++ pending else pending

variable {children : κ → List κ} {present : κ → Bool}

/-- The nodes on top of the stack are done before the others. -/
theorem walkRound_append {pending : List κ} (rest : List κ) {n : Nat}
    (h : (walkRound children present)^[n] pending = []) :
    ∃ m, (walkRound children present)^[m] (pending ++ rest) = rest := by
  induction n generalizing pending with
  | zero => exact ⟨0, by rw [show pending = [] from h]; rfl⟩
  | succ n ih =>
    cases pending with
    | nil => exact ⟨0, rfl⟩
    | cons k pending =>
      have hrest : (walkRound children present)^[n] (walkRound children present (k :: pending)) = [] :=
        h
      obtain ⟨m, hm⟩ := ih hrest
      refine ⟨m + 1, ?_⟩
      rw [Function.iterate_succ_apply]
      have hround : walkRound children present (k :: pending ++ rest) =
          walkRound children present (k :: pending) ++ rest := by
        rw [List.cons_append, walkRound, walkRound]
        split
        · exact (List.append_assoc ..).symm
        · rfl
      rw [hround, hm]

/-- A stack is walked when each of its nodes is. -/
theorem walk_ends_of_forall {pending : List κ}
    (h : ∀ k ∈ pending, Ends (· = []) (walkRound children present) [k]) :
    Ends (· = []) (walkRound children present) pending := by
  induction pending with
  | nil => exact ⟨0, rfl⟩
  | cons k pending ih =>
    obtain ⟨n, hn⟩ := h k (List.mem_cons_self ..)
    obtain ⟨m, hm⟩ := walkRound_append pending hn
    obtain ⟨l, hl⟩ := ih fun k' hk' => h k' (List.mem_cons_of_mem _ hk')
    refine ⟨l + m, ?_⟩
    show (walkRound children present)^[l + m] ([k] ++ pending) = []
    rw [Function.iterate_add_apply, hm]
    exact hl

/-- A node is walked when its children are. -/
theorem walk_ends_of_children {k : κ}
    (h : ∀ c ∈ children k, Ends (· = []) (walkRound children present) [c]) :
    Ends (· = []) (walkRound children present) [k] := by
  obtain ⟨n, hn⟩ : Ends (· = []) (walkRound children present) (walkRound children present [k]) := by
    refine walk_ends_of_forall fun c hc => ?_
    rw [walkRound] at hc
    split at hc
    · rw [List.append_nil, List.mem_reverse] at hc
      exact h c hc
    · cases hc
  exact ⟨n + 1, hn⟩

/-- The nodes below a node. -/
noncomputable def below (children : κ → List κ) (nodes : List κ) (k : κ) : Finset κ :=
  open Classical in nodes.toFinset.filter fun x => Relation.TransGen (Edge children) k x

theorem mem_below {nodes : List κ} {k x : κ} :
    x ∈ below children nodes k ↔ x ∈ nodes ∧ Relation.TransGen (Edge children) k x := by
  simp [below]

/-- **A walk over finitely many nodes ends** if it cannot come to a cycle. -/
theorem walk_ends_of_acyclic {nodes : List κ} (hnodes : ∀ k, ∀ c ∈ children k, c ∈ nodes) {root : κ}
    (hacyclic : ∀ x, Relation.ReflTransGen (Edge children) root x →
      ¬ Relation.TransGen (Edge children) x x) :
    Ends (· = []) (walkRound children present) [root] := by
  -- on the number of the nodes below
  induction hcard : (below children nodes root).card using Nat.strong_induction_on
    generalizing root with
  | _ m ih =>
    refine walk_ends_of_children fun c hc => ?_
    have hlt : (below children nodes c).card < m := by
      rw [← hcard]
      refine Finset.card_lt_card (Finset.ssubset_iff_of_subset ?_ |>.mpr ⟨c, ?_, ?_⟩)
      · intro x hx
        obtain ⟨hx, hbelow⟩ := mem_below.mp hx
        exact mem_below.mpr ⟨hx, .head hc hbelow⟩
      · exact mem_below.mpr ⟨hnodes root c hc, .single hc⟩
      · intro hmem
        exact hacyclic c (.single hc) (mem_below.mp hmem).2
    exact ih _ hlt (fun x hx => hacyclic x (.head hc hx)) rfl

/-- A node on a cycle has a child on a cycle. -/
theorem cycle_child {x : κ} (h : Relation.TransGen (Edge children) x x) :
    ∃ c ∈ children x, Relation.TransGen (Edge children) c c := by
  obtain ⟨c, hedge, hback⟩ := Relation.TransGen.head'_iff.mp h
  exact ⟨c, hedge, .tail' hback hedge⟩

/-- **A walk that comes to a cycle goes on.** -/
theorem walk_endless (hpresent : ∀ k, ∀ c ∈ children k, present k = true) {root : κ}
    (hcycle : Relation.TransGen (Edge children) root root) :
    ¬ Ends (· = []) (walkRound children present) [root] := by
  -- there is always a node of a cycle on the stack
  refine not_ends (I := fun pending => ∃ x ∈ pending, Relation.TransGen (Edge children) x x)
    (fun pending ⟨x, hx, _⟩ hnil => ?_) (fun pending ⟨x, hx, hloop⟩ => ?_)
    ⟨root, List.mem_singleton_self _, hcycle⟩
  · rw [hnil] at hx
    cases hx
  · cases pending with
    | nil => cases hx
    | cons k pending =>
      rw [walkRound]
      rcases List.mem_cons.mp hx with rfl | hx
      · obtain ⟨c, hc, hagain⟩ := cycle_child hloop
        rw [if_pos (hpresent x c hc)]
        exact ⟨c, List.mem_append_left _ (List.mem_reverse.mpr hc), hagain⟩
      · split
        · exact ⟨x, List.mem_append_right _ hx, hloop⟩
        · exact ⟨x, hx, hloop⟩

/-- Where no node has two parents, a cycle below the root leads through the root. -/
theorem cycle_root (hunique : ∀ i j c, c ∈ children i → c ∈ children j → i = j) {root x : κ}
    (hreach : Relation.ReflTransGen (Edge children) root x)
    (hcycle : Relation.TransGen (Edge children) x x) :
    Relation.TransGen (Edge children) root root := by
  induction hreach with
  | refl => exact hcycle
  | @tail y x _ hedge ih =>
    -- the cycle comes back to `x` through its one parent
    obtain ⟨z, hback, hlast⟩ := Relation.TransGen.tail'_iff.mp hcycle
    obtain rfl : y = z := hunique _ _ _ hedge hlast
    exact ih (.head' hedge hback)

/-- **The walk ends exactly when the root lies on no cycle.** -/
theorem walk_ends_iff {nodes : List κ} (hnodes : ∀ k, ∀ c ∈ children k, c ∈ nodes)
    (hunique : ∀ i j c, c ∈ children i → c ∈ children j → i = j)
    (hpresent : ∀ k, ∀ c ∈ children k, present k = true) {root : κ} :
    Ends (· = []) (walkRound children present) [root] ↔
      ¬ Relation.TransGen (Edge children) root root := by
  constructor
  · intro hends hcycle
    exact walk_endless hpresent hcycle hends
  · intro hcycle
    exact walk_ends_of_acyclic hnodes fun x hx hloop => hcycle (cycle_root hunique hx hloop)

/-! ## The marking traversal -/

/-- One round of a traversal that marks: a marked node is skipped, unless it is the
root. -/
def markRound (children : κ → List κ) (present : κ → Bool) (root : κ) :
    List κ × List κ → List κ × List κ
  | ([], seen) => ([], seen)
  | (k :: pending, seen) =>
    if present k = true ∧ (k ∉ seen ∨ k = root) then ((children k).reverse ++ pending, k :: seen)
    else (pending, seen)

/-- A sum over the nodes that have not been seen. -/
def tally (f : κ → Nat) (nodes seen : List κ) : Nat := ((nodes.filter (· ∉ seen)).map f).sum

theorem tally_congr {f : κ → Nat} {nodes seen seen' : List κ} (h : ∀ k, k ∈ seen ↔ k ∈ seen') :
    tally f nodes seen = tally f nodes seen' := by
  have hsame : (fun k => decide (k ∉ seen)) = fun k => decide (k ∉ seen') := by
    funext k
    simp only [h]
  unfold tally
  rw [hsame]

/-- A node that is seen leaves the sum. -/
theorem tally_visit {f : κ → Nat} {nodes seen : List κ} (hn : nodes.Nodup) {k : κ} (hk : k ∈ nodes)
    (hnew : k ∉ seen) : tally f nodes seen = f k + tally f nodes (k :: seen) := by
  have hperm : (nodes.filter (· ∉ seen)).Perm (k :: nodes.filter (· ∉ k :: seen)) := by
    refine (List.perm_ext_iff_of_nodup (hn.filter _) ?_).mpr fun x => ?_
    · refine List.nodup_cons.mpr ⟨?_, hn.filter _⟩
      simp
    · by_cases hx : x = k
      · simp [hx, hk, hnew]
      · simp [hx]
  unfold tally
  rw [(hperm.map f).sum_eq, List.map_cons, List.sum_cons]

/-- What a pending node may still cost: the root pushes its children again. -/
def cost (children : κ → List κ) (root k : κ) : Nat :=
  if k = root then (children root).length + 1 else 1

/-- The cost of everything pending, and of the children of every unmarked node. -/
def rank (children : κ → List κ) (nodes : List κ) (root : κ) (c : List κ × List κ) : Nat :=
  (c.1.map (cost children root)).sum +
    tally (fun k => ((children k).map (cost children root)).sum) nodes (root :: c.2)

section Mark

variable {nodes : List κ} {root : κ}

theorem cost_pos (k : κ) : 0 < cost children root k := by
  unfold cost
  split <;> omega

/-- The children of a node, weighed. -/
theorem sum_cost (ks : List κ) : (ks.map (cost children root)).sum =
    ks.length + ks.count root * (children root).length := by
  induction ks with
  | nil => simp
  | cons k ks ih =>
    rw [List.map_cons, List.sum_cons, ih, List.length_cons, List.count_cons, cost]
    by_cases hk : k = root
    · rw [if_pos hk, if_pos (by simpa using hk), Nat.add_mul, Nat.one_mul]
      omega
    · rw [if_neg hk, if_neg (by simpa using hk), Nat.add_zero (ks.count root)]
      omega

/-- **Every round of the marking traversal lowers the rank.** -/
theorem mark_lt (hn : nodes.Nodup) (hpresent : ∀ k, present k = true → k ∈ nodes)
    (hself : root ∉ children root) (c : List κ × List κ) (hc : c.1 ≠ []) :
    rank children nodes root (markRound children present root c) < rank children nodes root c := by
  obtain ⟨pending, seen⟩ := c
  cases pending with
  | nil => exact absurd rfl hc
  | cons k pending =>
    have hpos : 0 < cost children root k := cost_pos k
    rw [markRound]
    split
    · next hexpand =>
      unfold rank
      dsimp only
      rw [List.map_append, List.sum_append, List.map_cons, List.sum_cons,
        ((List.reverse_perm (children k)).map (cost children root)).sum_eq]
      by_cases hk : k = root
      · -- the root comes up again: its children are cheaper than it is
        subst hk
        have hsame : tally (fun i => ((children i).map (cost children k)).sum) nodes
            (k :: k :: seen) = tally _ nodes (k :: seen) := tally_congr fun x => by simp
        have hcost : cost children k k = (children k).length + 1 := if_pos rfl
        rw [hsame, sum_cost, List.count_eq_zero_of_not_mem hself, hcost]
        omega
      · -- a node is marked: its children were accounted for
        have hnew : k ∉ root :: seen := by
          rw [List.mem_cons, not_or]
          exact ⟨hk, hexpand.2.resolve_right hk⟩
        rw [tally_visit hn (hpresent k hexpand.1) hnew]
        have hsame : tally (fun i => ((children i).map (cost children root)).sum) nodes
            (root :: k :: seen) = tally _ nodes (k :: root :: seen) :=
          tally_congr fun x => by simp [or_left_comm]
        rw [hsame]
        omega
    · unfold rank
      rw [List.map_cons, List.sum_cons]
      dsimp only
      omega

/-- **The marking traversal ends**, after as many rounds as its rank says at most. -/
theorem mark_ends (hn : nodes.Nodup) (hpresent : ∀ k, present k = true → k ∈ nodes)
    (hself : root ∉ children root) (c : List κ × List κ) {n : Nat}
    (hrank : rank children nodes root c ≤ n) :
    ((markRound children present root)^[n] c).1 = [] := by
  have hstays : ∀ c : List κ × List κ, c.1 = [] → (markRound children present root c).1 = [] := by
    rintro ⟨pending, seen⟩ rfl
    rfl
  exact ended_of_rank (I := fun _ => True) (rank children nodes root) hstays
    (fun c _ hc => ⟨trivial, mark_lt hn hpresent hself c hc⟩) trivial hrank

theorem tally_le {f g : κ → Nat} {seen seen' : List κ} (hseen : ∀ k ∈ seen', k ∈ seen)
    (hle : ∀ k, f k ≤ g k) : tally f nodes seen ≤ tally g nodes seen' := by
  unfold tally
  induction nodes with
  | nil => exact Nat.le_refl _
  | cons k nodes ih =>
    have hk := hle k
    rw [List.filter_cons, List.filter_cons]
    by_cases hnow : k ∈ seen
    · rw [if_neg (by simpa using hnow)]
      refine Nat.le_trans ih ?_
      split
      · rw [List.map_cons, List.sum_cons]
        omega
      · exact Nat.le_refl _
    · have hold : k ∉ seen' := fun hmem => hnow (hseen k hmem)
      rw [if_pos (by simpa using hnow), if_pos (by simpa using hold), List.map_cons, List.map_cons,
        List.sum_cons, List.sum_cons]
      omega

/-- A node that has one parent at most is counted once. -/
theorem tally_count_le (hn : nodes.Nodup) (honce : ∀ k, (children k).Nodup)
    (hunique : ∀ i j c, c ∈ children i → c ∈ children j → i = j) :
    tally (fun k => (children k).count root) nodes [] ≤ 1 := by
  have hzero : ∀ seen, (∀ k ∈ nodes, k ∉ seen → root ∉ children k) →
      tally (fun k => (children k).count root) nodes seen = 0 := by
    intro seen hseen
    refine List.sum_eq_zero fun n hmem => ?_
    obtain ⟨k, hk, rfl⟩ := List.mem_map.mp hmem
    obtain ⟨hk, hnew⟩ := List.mem_filter.mp hk
    exact List.count_eq_zero_of_not_mem (hseen k hk (by simpa using hnew))
  by_cases hparent : ∃ p ∈ nodes, root ∈ children p
  · obtain ⟨p, hp, hchild⟩ := hparent
    have hrest := hzero [p] fun k _ hk hmem =>
      hk (List.mem_singleton.mpr (hunique k p root hmem hchild))
    rw [tally_visit hn hp (List.not_mem_nil), hrest]
    exact List.nodup_iff_count_le_one.mp (honce p) root
  · have hnone := hzero [] fun k hk _ hmem => hparent ⟨k, hk, hmem⟩
    omega

/-- **Two rounds for every child** and one for the root are enough. -/
theorem mark_bound (hn : nodes.Nodup) (honce : ∀ k, (children k).Nodup)
    (hunique : ∀ i j c, c ∈ children i → c ∈ children j → i = j) (hroot : root ∈ nodes)
    (seen : List κ) : rank children nodes root ([root], seen) ≤
      2 * tally (fun k => (children k).length) nodes [] + 1 := by
  have hsum : tally (fun k => ((children k).map (cost children root)).sum) nodes (root :: seen) =
      tally (fun k => (children k).length) nodes (root :: seen) +
        tally (fun k => (children k).count root) nodes (root :: seen) * (children root).length := by
    unfold tally
    generalize nodes.filter (· ∉ root :: seen) = ks
    induction ks with
    | nil => simp
    | cons k ks ih =>
      simp only [List.map_cons, List.sum_cons, Nat.add_mul]
      rw [ih, sum_cost]
      omega
  have hlengths : tally (fun k => (children k).length) nodes (root :: seen) ≤
      tally (fun k => (children k).length) nodes [root] :=
    tally_le (fun k hk => by rw [List.mem_singleton.mp hk]; exact List.mem_cons_self ..)
      fun _ => Nat.le_refl _
  have hcounts : tally (fun k => (children k).count root) nodes (root :: seen) ≤ 1 :=
    Nat.le_trans (tally_le (fun k hk => (by cases hk)) fun _ => Nat.le_refl _)
      (tally_count_le hn honce hunique)
  have hall : tally (fun k => (children k).length) nodes [] =
      (children root).length + tally (fun k => (children k).length) nodes [root] :=
    tally_visit hn hroot List.not_mem_nil
  have htwice := Nat.mul_le_mul_right (children root).length hcounts
  have hfirst : (([root] : List κ).map (cost children root)).sum = (children root).length + 1 := by
    rw [List.map_cons, List.map_nil, List.sum_cons, List.sum_nil, cost, if_pos rfl, Nat.add_zero]
  unfold rank
  dsimp only
  rw [hfirst, hsum]
  omega

end Mark

end Rounds
