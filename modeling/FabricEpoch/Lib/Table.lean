import Mathlib.Algebra.GroupWithZero.Nat
import Mathlib.Data.List.Basic
import Mathlib.Data.List.Chain
import Mathlib.Data.List.Forall2
import Mathlib.Data.List.Nodup

/-!
# Tables and their position indexes

Records live in a vector; hash maps from keys to positions find them. The maps
are rebuilt from the vector (`indexBy`, `groupBy`) and read with a bounds check
(`l[i]?`).

- `getElem?_indexBy`: with unique keys, reading the indexed position is the same
  as scanning for the key;
- `mem_groupBy`: the positions of a group are those of the records with the key;
- `filterMap_groupBy`: reading a group is filtering for the key;
- `updateKey`, `modify_eq_updateKey`: writing through the index is the same as
  updating the record with the key;
- `evictPush`: bounded retention, the oldest record leaves;
- `resize`: what `std::vector::resize` leaves behind.
-/

namespace Table

variable {α κ : Type} [DecidableEq κ]

/-! ## Entries of an index -/

/-- The index entries a vector gives rise to, in the order they are inserted. -/
def entries (keys : α → List κ) (l : List α) : List (κ × Nat) :=
  l.zipIdx.flatMap fun x => (keys x.1).map fun k => (k, x.2)

/-- A map from keys to positions; a later record overwrites an earlier one. -/
def indexBy (keys : α → List κ) (l : List α) (k : κ) : Option Nat :=
  ((entries keys l).reverse.find? fun e => e.1 = k).map Prod.snd

/-- A map from keys to all positions, in order. -/
def groupBy (keys : α → List κ) (l : List α) (k : κ) : List Nat :=
  ((entries keys l).filter fun e => e.1 = k).map Prod.snd

variable {keys : α → List κ} {l : List α} {k : κ} {i : Nat}

omit [DecidableEq κ] in
theorem mem_entries : (k, i) ∈ entries keys l ↔ ∃ a, l[i]? = some a ∧ k ∈ keys a := by
  simp only [entries, List.mem_flatMap, List.mem_map, Prod.exists, Prod.mk.injEq,
    List.mem_zipIdx_iff_getElem?]
  constructor
  · rintro ⟨a, j, ha, k', hk, rfl, rfl⟩
    exact ⟨a, ha, hk⟩
  · rintro ⟨a, ha, hk⟩
    exact ⟨a, i, ha, k, hk, rfl, rfl⟩

omit [DecidableEq κ] in
theorem entries_congr {β : Type} {keys' : β → List κ} {m : List β}
    (h : l.map keys = m.map keys') : entries keys l = entries keys' m := by
  have hentries : ∀ {γ : Type} (f : γ → List κ) (n : List γ),
      entries f n = (n.map f).zipIdx.flatMap fun x => x.1.map fun k => (k, x.2) := by
    intro γ f n
    rw [List.zipIdx_map, List.flatMap_map]
    rfl
  rw [hentries, hentries, h]

theorem indexBy_eq_some (h : indexBy keys l k = some i) : ∃ a, l[i]? = some a ∧ k ∈ keys a := by
  obtain ⟨e, he, rfl⟩ := Option.map_eq_some_iff.mp h
  have hk : e.1 = k := by simpa using List.find?_some he
  have hmem : (k, e.2) ∈ entries keys l := by
    rw [← hk]
    exact List.mem_reverse.mp (List.mem_of_find?_eq_some he)
  exact mem_entries.mp hmem

theorem indexBy_eq_none : indexBy keys l k = none ↔ ∀ a ∈ l, k ∉ keys a := by
  rw [indexBy, Option.map_eq_none_iff, List.find?_eq_none]
  constructor
  · intro h a ha hk
    obtain ⟨i, hi, rfl⟩ := List.getElem_of_mem ha
    have hmem : (k, i) ∈ entries keys l := mem_entries.mpr ⟨_, List.getElem?_eq_getElem hi, hk⟩
    exact h _ (List.mem_reverse.mpr hmem) (by simp)
  · rintro h ⟨k', j⟩ hmem
    obtain ⟨a, ha, hk⟩ := mem_entries.mp (List.mem_reverse.mp hmem)
    rintro hk'
    have : k' = k := by simpa using hk'
    exact h a (List.mem_of_getElem? ha) (this ▸ hk)

theorem mem_groupBy : i ∈ groupBy keys l k ↔ ∃ a, l[i]? = some a ∧ k ∈ keys a := by
  rw [← mem_entries]
  simp only [groupBy, List.mem_map, List.mem_filter, decide_eq_true_eq, Prod.exists]
  constructor
  · rintro ⟨k', j, ⟨hmem, rfl⟩, rfl⟩
    exact hmem
  · intro h
    exact ⟨k, i, ⟨h, rfl⟩, rfl⟩

/-- Positions depend on the keys alone. -/
theorem indexBy_congr {β : Type} {keys' : β → List κ} {m : List β}
    (h : l.map keys = m.map keys') : indexBy keys l = indexBy keys' m := by
  have hentries : entries keys l = entries keys' m := entries_congr h
  funext k
  rw [indexBy, indexBy, hentries]

theorem groupBy_congr {β : Type} {keys' : β → List κ} {m : List β}
    (h : l.map keys = m.map keys') : groupBy keys l = groupBy keys' m := by
  have hentries : entries keys l = entries keys' m := entries_congr h
  funext k
  rw [groupBy, groupBy, hentries]

/-- **Reading a group is filtering**, if no record has two keys. -/
theorem filterMap_groupBy {key : α → Option κ} (l : List α) (k : κ) :
    (groupBy (fun a => (key a).toList) l k).filterMap (fun i => l[i]?) =
      l.filter fun a => key a = some k := by
  -- the entries of a part of the table read that part
  have hpart : ∀ (m : List α) (n : Nat), (∀ j, l[n + j]? = m[j]?) →
      ((((m.zipIdx n).flatMap fun x => (key x.1).toList.map fun k => (k, x.2)).filter
        fun e => e.1 = k).map Prod.snd).filterMap (fun i => l[i]?) =
        m.filter fun a => key a = some k := by
    intro m
    induction m with
    | nil => exact fun _ _ => rfl
    | cons a m ih =>
      intro n hn
      have hrest := ih (n + 1) fun j => by rw [Nat.add_assoc, Nat.add_comm 1, hn]; rfl
      have ha : l[n]? = some a := hn 0
      rw [List.zipIdx_cons, List.flatMap_cons, List.filter_append, List.map_append,
        List.filterMap_append, hrest, List.filter_cons]
      cases hkey : key a with
      | none => simp
      | some k' =>
        by_cases hk : k' = k
        · simp [hk, ha]
        · simp [hk]
  exact hpart l 0 fun j => by rw [Nat.zero_add]

/-! ## One key a record -/

section Keyed

variable {key : α → κ}

/-- The record with a key. -/
def lookup (key : α → κ) (l : List α) (k : κ) : Option α := l.find? fun a => key a = k

/-- Update the records with a key. -/
def updateKey (key : α → κ) (k : κ) (f : α → α) (l : List α) : List α :=
  l.map fun a => if key a = k then f a else a

/-- Update the first record with a key, as a scan for it does. -/
def modifyFirst (key : α → κ) (k : κ) (f : α → α) : List α → List α
  | [] => []
  | a :: l => if key a = k then f a :: l else a :: modifyFirst key k f l

theorem lookup_eq_some_of_mem (hn : (l.map key).Nodup) {a : α} (ha : a ∈ l) :
    lookup key l (key a) = some a := by
  induction l with
  | nil => cases ha
  | cons b l ih =>
    rw [List.map_cons, List.nodup_cons] at hn
    rcases List.mem_cons.mp ha with rfl | ha
    · simp [lookup]
    · have hne : key b ≠ key a := fun h => hn.1 (h ▸ List.mem_map_of_mem ha)
      have := ih hn.2 ha
      simpa [lookup, hne] using this

theorem lookup_some {a : α} (h : lookup key l k = some a) : a ∈ l ∧ key a = k :=
  ⟨List.mem_of_find?_eq_some h, by simpa using List.find?_some h⟩

theorem lookup_none : lookup key l k = none ↔ ∀ a ∈ l, key a ≠ k := by
  simp [lookup, List.find?_eq_none]

/-- With unique keys, the table holds exactly the records that can be found. -/
theorem mem_iff_lookup (hn : (l.map key).Nodup) {a : α} :
    a ∈ l ↔ lookup key l (key a) = some a :=
  ⟨lookup_eq_some_of_mem hn, fun h => (lookup_some h).1⟩

/-- A permuted table has the same records under the same keys. -/
theorem lookup_perm {l' : List α} (hp : l.Perm l') (hn : (l.map key).Nodup) (k : κ) :
    lookup key l' k = lookup key l k := by
  have hn' : (l'.map key).Nodup := (hp.map key).nodup_iff.mp hn
  cases h : lookup key l k with
  | none =>
    rw [lookup_none] at h ⊢
    exact fun a ha => h a (hp.mem_iff.mpr ha)
  | some a =>
    obtain ⟨ha, rfl⟩ := lookup_some h
    exact lookup_eq_some_of_mem hn' (hp.mem_iff.mp ha)

/-- **Reading through a rebuilt index is scanning for the key.** -/
theorem getElem?_indexBy (hn : (l.map key).Nodup) (k : κ) :
    ((indexBy (fun a => [key a]) l k).bind fun i => l[i]?) = lookup key l k := by
  cases h : indexBy (fun a => [key a]) l k with
  | none =>
    rw [indexBy_eq_none] at h
    exact (lookup_none.mpr fun a ha => fun hk => h a ha (by simp [hk])).symm
  | some i =>
    obtain ⟨a, ha, hk⟩ := indexBy_eq_some h
    obtain rfl : k = key a := by simpa using hk
    rw [Option.bind_some, ha, lookup_eq_some_of_mem hn (List.mem_of_getElem? ha)]

/-- An update of a key that no record has changes nothing. -/
theorem updateKey_of_not_mem {f : α → α} (h : ∀ a ∈ l, key a ≠ k) : updateKey key k f l = l := by
  induction l with
  | nil => rfl
  | cons a l ih =>
    have ha := h a (List.mem_cons_self ..)
    have hl := ih fun b hb => h b (List.mem_cons_of_mem _ hb)
    rw [updateKey] at hl ⊢
    rw [List.map_cons, if_neg ha, hl]

theorem updateKey_cons {f : α → α} {a : α} :
    updateKey key k f (a :: l) = (if key a = k then f a else a) :: updateKey key k f l := rfl

theorem map_key_updateKey {f : α → α} (hf : ∀ a, key (f a) = key a) :
    (updateKey key k f l).map key = l.map key := by
  rw [updateKey, List.map_map]
  refine List.map_congr_left fun a _ => ?_
  show key (if key a = k then f a else a) = key a
  split
  · exact hf a
  · rfl

theorem lookup_updateKey {f : α → α} (hf : ∀ a, key (f a) = key a) (k' : κ) :
    lookup key (updateKey key k f l) k' =
      if k' = k then (lookup key l k).map f else lookup key l k' := by
  induction l with
  | nil => simp [updateKey, lookup]
  | cons a l ih =>
    simp only [updateKey, lookup, List.map_cons, List.find?_cons] at ih ⊢
    by_cases ha : key a = k
    · rw [if_pos ha]
      by_cases hk : k' = k
      · simp [hf, ha, hk]
      · have : key (f a) ≠ k' := fun h => hk (by rw [← h, hf, ha])
        have hne : key a ≠ k' := fun h => hk (by rw [← h, ha])
        simpa [this, hne, hk] using ih
    · rw [if_neg ha]
      by_cases hk' : key a = k'
      · have : k' ≠ k := fun h => ha (hk'.trans h)
        simp [hk', this]
      · simpa [hk', ha] using ih

/-- An update of one record changes a sum as it changes the record. -/
theorem sum_updateKey {m : α → Nat} {f : α → α} (hn : (l.map key).Nodup) {a : α} (ha : a ∈ l) :
    ((updateKey key (key a) f l).map m).sum + m a = (l.map m).sum + m (f a) := by
  induction l with
  | nil => cases ha
  | cons b l ih =>
    rw [List.map_cons, List.nodup_cons] at hn
    rw [updateKey_cons, List.map_cons, List.map_cons, List.sum_cons, List.sum_cons]
    rcases List.mem_cons.mp ha with rfl | ha
    · have hrest : ∀ c ∈ l, key c ≠ key a := fun c hc h => hn.1 (h ▸ List.mem_map_of_mem hc)
      rw [if_pos rfl, updateKey_of_not_mem hrest]
      omega
    · have hb : key b ≠ key a := fun h => hn.1 (h ▸ List.mem_map_of_mem ha)
      have hsum := ih hn.2 ha
      rw [if_neg hb]
      omega

/-- **Writing through the index updates the record with the key.** -/
theorem modify_eq_updateKey (hn : (l.map key).Nodup) {a : α} (hi : l[i]? = some a)
    (hk : key a = k) (f : α → α) : l.modify i f = updateKey key k f l := by
  induction l generalizing i with
  | nil => cases hi
  | cons b l ih =>
    rw [List.map_cons, List.nodup_cons] at hn
    cases i with
    | zero =>
      obtain rfl : b = a := by simpa using hi
      have hrest : ∀ c ∈ l, key c ≠ k := fun c hc h =>
        hn.1 (by rw [hk, ← h]; exact List.mem_map_of_mem hc)
      rw [updateKey_cons, if_pos hk, updateKey_of_not_mem hrest]
      rfl
    | succ i =>
      have hi' : l[i]? = some a := by simpa using hi
      have hb : key b ≠ k := fun h =>
        hn.1 (by rw [h, ← hk]; exact List.mem_map_of_mem (List.mem_of_getElem? hi'))
      rw [List.modify_succ_cons, ih hn.2 hi', updateKey_cons, if_neg hb]

/-- With unique keys, the record with a key is the one that is found. -/
theorem eq_of_lookup (hn : (l.map key).Nodup) {a b : α} (hl : lookup key l k = some a)
    (hb : b ∈ l) (hk : key b = k) : b = a := by
  subst hk
  exact Option.some.inj ((lookup_eq_some_of_mem hn hb).symm.trans hl)

/-- What holds of every record, and of the updated one, holds after the update. -/
theorem forall_updateKey {P : α → Prop} {f : α → α} (h : ∀ a ∈ l, P a)
    (hf : ∀ a ∈ l, key a = k → P (f a)) : ∀ b ∈ updateKey key k f l, P b := by
  intro b hb
  obtain ⟨a, ha, rfl⟩ := List.mem_map.mp hb
  show P (if key a = k then f a else a)
  split
  · next hk => exact hf a ha hk
  · exact h a ha

/-- **One table in two orders** is sorted by its unique keys in one way. -/
theorem eq_of_perm_of_sorted {r : κ → κ → Prop} (hr : ∀ {a b}, r a b → r b a → a = b)
    {m : List α} (hn : (l.map key).Nodup) (hl : l.Pairwise fun a b => r (key a) (key b))
    (hm : m.Pairwise fun a b => r (key a) (key b)) (hperm : l.Perm m) : l = m := by
  refine List.Perm.eq_of_pairwise (fun a b ha hb hab hba => ?_) hl hm hperm
  exact (eq_of_lookup hn (lookup_eq_some_of_mem hn ha) (hperm.mem_iff.mpr hb) (hr hba hab)).symm

/-- Two updates under one key are one. -/
theorem updateKey_updateKey {f g : α → α} (hf : ∀ a, key (f a) = key a) :
    updateKey key k g (updateKey key k f l) = updateKey key k (fun a => g (f a)) l := by
  rw [updateKey, updateKey, updateKey, List.map_map]
  refine List.map_congr_left fun a _ => ?_
  by_cases ha : key a = k
  · simp [ha, hf]
  · simp [ha]

/-- A record appended under a new key is found under it alone. -/
theorem lookup_append_singleton {a : α} (hnew : lookup key l (key a) = none) (k : κ) :
    lookup key (l ++ [a]) k = if k = key a then some a else lookup key l k := by
  by_cases hk : k = key a
  · subst hk
    rw [lookup] at hnew
    simp [lookup, List.find?_append, hnew]
  · have : ¬ key a = k := fun h => hk h.symm
    simp [lookup, List.find?_append, hk, this]

/-- Scanning for a unique key and updating there does the same. -/
theorem modifyFirst_eq_updateKey (hn : (l.map key).Nodup) (f : α → α) :
    modifyFirst key k f l = updateKey key k f l := by
  induction l with
  | nil => rfl
  | cons a l ih =>
    rw [List.map_cons, List.nodup_cons] at hn
    by_cases ha : key a = k
    · have hrest : ∀ c ∈ l, key c ≠ k := fun c hc h =>
        hn.1 (by rw [ha, ← h]; exact List.mem_map_of_mem hc)
      rw [modifyFirst, if_pos ha, updateKey_cons, if_pos ha, updateKey_of_not_mem hrest]
    · rw [modifyFirst, if_neg ha, updateKey_cons, if_neg ha, ih hn.2]

end Keyed

/-- What the records carry between them is carried by one record. -/
theorem eq_of_mem_flatMap {β : Type} {f : α → List β} (hn : (l.flatMap f).Nodup) {a b : α} {x : β}
    (ha : a ∈ l) (hb : b ∈ l) (hxa : x ∈ f a) (hxb : x ∈ f b) : a = b := by
  induction l with
  | nil => cases ha
  | cons c l ih =>
    rw [List.flatMap_cons, List.nodup_append] at hn
    obtain ⟨-, hrest, hdisjoint⟩ := hn
    rcases List.mem_cons.mp ha with rfl | ha'
    · rcases List.mem_cons.mp hb with rfl | hb'
      · rfl
      · exact absurd rfl (hdisjoint x hxa x (List.mem_flatMap.mpr ⟨b, hb', hxb⟩))
    · rcases List.mem_cons.mp hb with rfl | hb'
      · exact absurd rfl (hdisjoint x hxb x (List.mem_flatMap.mpr ⟨a, ha', hxa⟩))
      · exact ih hrest ha' hb'

/-- Writing to an element that is filtered out, to leave it filtered out. -/
theorem filter_modify_of_neg {keep : α → Bool} {f : α → α} {i : Nat}
    (h : ∀ a, l[i]? = some a → keep a = false ∧ keep (f a) = false) :
    (l.modify i f).filter keep = l.filter keep := by
  induction l generalizing i with
  | nil => rw [List.modify_nil]
  | cons b l ih =>
    cases i with
    | zero =>
      obtain ⟨hold, hnew⟩ := h b rfl
      rw [List.modify_zero_cons, List.filter_cons_of_neg (by simp [hnew]),
        List.filter_cons_of_neg (by simp [hold])]
    | succ i =>
      have hrest := ih (i := i) fun a ha => h a ha
      rw [List.modify_succ_cons, List.filter_cons, List.filter_cons, hrest]

/-! ## Bounded retention -/

/-- Append, the oldest record leaving first when the table is full. -/
def evictPush (capacity : Nat) (l : List α) (a : α) : List α :=
  (if l.length ≥ capacity then l.drop 1 else l) ++ [a]

theorem mem_evictPush {capacity : Nat} {a b : α} (h : b ∈ evictPush capacity l a) :
    b ∈ l ∨ b = a := by
  unfold evictPush at h
  rcases List.mem_append.mp h with h | h
  · left
    split at h
    · exact List.mem_of_mem_drop h
    · exact h
  · exact Or.inr (List.mem_singleton.mp h)

theorem mem_evictPush_self {capacity : Nat} (a : α) : a ∈ evictPush capacity l a :=
  List.mem_append_right _ (List.mem_singleton_self a)

theorem length_evictPush_le {capacity : Nat} (hpos : 0 < capacity) (a : α) :
    (evictPush capacity l a).length ≤ max capacity l.length := by
  unfold evictPush
  split
  · rw [List.length_append, List.length_drop, List.length_singleton]
    omega
  · rw [List.length_append, List.length_singleton]
    omega

theorem evictPush_sublist {capacity : Nat} (a : α) :
    (evictPush capacity l a).Sublist (l ++ [a]) := by
  unfold evictPush
  split
  · exact (List.drop_sublist 1 l).append_right [a]
  · exact List.Sublist.refl _

theorem evictPush_suffix {capacity : Nat} (a : α) : evictPush capacity l a <:+ l ++ [a] := by
  unfold evictPush
  split
  · obtain ⟨front, hfront⟩ := List.drop_suffix 1 l
    exact ⟨front, by rw [← List.append_assoc, hfront]⟩
  · exact List.suffix_rfl

/-- Retention keeps a chain, where what is pushed follows what was last. -/
theorem isChain_evictPush {R : α → α → Prop} {capacity : Nat} {a : α} (hl : l.IsChain R)
    (hlast : ∀ b ∈ l.getLast?, R b a) : (evictPush capacity l a).IsChain R := by
  have hpushed : (l ++ [a]).IsChain R := by
    refine hl.append (.singleton a) fun b hb c hc => ?_
    obtain rfl : a = c := Option.some.inj hc
    exact hlast b hb
  exact hpushed.suffix (evictPush_suffix a)

/-- What is pushed is last. -/
theorem getLast?_evictPush {capacity : Nat} (a : α) :
    (evictPush capacity l a).getLast? = some a := by
  simp [evictPush]

/-- What `std::vector::resize` leaves behind. -/
def resize (default : α) (n : Nat) (l : List α) : List α :=
  l.take n ++ List.replicate (n - l.length) default

/-- Updating the record that was appended. -/
theorem modify_concat (l : List α) (a : α) (f : α → α) :
    (l ++ [a]).modify l.length f = l ++ [f a] := by
  induction l with
  | nil => rfl
  | cons b l ih => rw [List.cons_append, List.length_cons, List.modify_succ_cons, ih, List.cons_append]

theorem resize_append {default : α} (l : List α) (a : α) :
    resize default l.length (l ++ [a]) = l := by
  simp [resize]

/-! ## What all records have -/

theorem forall_mem_modify {P : α → Prop} {f : α → α} (hl : ∀ a ∈ l, P a)
    (hf : ∀ a, P a → P (f a)) (i : Nat) : ∀ a ∈ l.modify i f, P a := by
  intro a ha
  obtain ⟨j, hj⟩ := List.mem_iff_getElem?.mp ha
  rw [List.getElem?_modify] at hj
  obtain ⟨b, hb, rfl⟩ := Option.map_eq_some_iff.mp hj
  have hb' := hl b (List.mem_of_getElem? hb)
  split
  · exact hf b hb'
  · exact hb'

theorem forall_mem_modifyFirst {P : α → Prop} {key : α → κ} {k : κ} {f : α → α} (hl : ∀ a ∈ l, P a) (hf : ∀ a, P a → P (f a)) :
    ∀ a ∈ modifyFirst key k f l, P a := by
  induction l with
  | nil => exact hl
  | cons b l ih =>
    have hrest := ih fun a ha => hl a (List.mem_cons_of_mem _ ha)
    intro a ha
    rw [modifyFirst] at ha
    split at ha
    · rcases List.mem_cons.mp ha with rfl | ha
      · exact hf b (hl b (List.mem_cons_self ..))
      · exact hl a (List.mem_cons_of_mem _ ha)
    · rcases List.mem_cons.mp ha with rfl | ha
      · exact hl a (List.mem_cons_self ..)
      · exact hrest a ha

theorem forall_mem_resize {P : α → Prop} {default : α} (hl : ∀ a ∈ l, P a)
    (hdefault : P default) (n : Nat) : ∀ a ∈ resize default n l, P a := by
  intro a ha
  rcases List.mem_append.mp ha with ha | ha
  · exact hl a (List.mem_of_mem_take ha)
  · rw [List.eq_of_mem_replicate ha]
    exact hdefault

theorem forall_mem_evictPush {P : α → Prop} {b : α} (hl : ∀ a ∈ l, P a)
    (hb : P b) (n : Nat) : ∀ a ∈ evictPush n l b, P a := by
  intro a ha
  rcases mem_evictPush ha with ha | rfl
  · exact hl a ha
  · exact hb

/-! ## Records that change in place -/

section InPlace

variable {R : α → α → Prop}

theorem forall₂_trans (hR : ∀ {a b c}, R a b → R b c → R a c) {l m n : List α}
    (h₁ : List.Forall₂ R l m) (h₂ : List.Forall₂ R m n) : List.Forall₂ R l n := by
  induction h₁ generalizing n with
  | nil => exact h₂
  | cons hab _ ih =>
    cases h₂ with
    | cons hbc h => exact .cons (hR hab hbc) (ih h)

theorem forall₂_modify {f : α → α} (hrefl : ∀ a, R a a) (hf : ∀ a, R a (f a)) (l : List α)
    (i : Nat) : List.Forall₂ R l (l.modify i f) := by
  induction l generalizing i with
  | nil =>
    rw [List.modify_nil]
    exact .nil
  | cons a l ih =>
    cases i with
    | zero => exact .cons (hf a) (List.forall₂_same.mpr fun b _ => hrefl b)
    | succ i =>
      rw [List.modify_succ_cons]
      exact .cons (hrefl a) (ih i)

theorem forall₂_map_eq {β : Type} {g : α → β} (hg : ∀ {a b}, R a b → g b = g a) {l m : List α}
    (h : List.Forall₂ R l m) : m.map g = l.map g := by
  induction h with
  | nil => rfl
  | cons hab _ ih => rw [List.map_cons, List.map_cons, hg hab, ih]

/-- The record a change leads to. -/
theorem forall₂_image {l m : List α} (h : List.Forall₂ R l m) {a : α} (ha : a ∈ l) :
    ∃ b ∈ m, R a b := by
  induction h with
  | nil => cases ha
  | @cons c d l m hab _ ih =>
    rcases List.mem_cons.mp ha with rfl | ha
    · exact ⟨d, List.mem_cons_self .., hab⟩
    · obtain ⟨b, hb, hr⟩ := ih ha
      exact ⟨b, List.mem_cons_of_mem _ hb, hr⟩

/-- The record a change comes from. -/
theorem forall₂_preimage {l m : List α} (h : List.Forall₂ R l m) {b : α} (hb : b ∈ m) :
    ∃ a ∈ l, R a b := by
  induction h with
  | nil => cases hb
  | @cons c d l m hab _ ih =>
    rcases List.mem_cons.mp hb with rfl | hb
    · exact ⟨c, List.mem_cons_self .., hab⟩
    · obtain ⟨a, ha, hr⟩ := ih hb
      exact ⟨a, List.mem_cons_of_mem _ ha, hr⟩

end InPlace

end Table
