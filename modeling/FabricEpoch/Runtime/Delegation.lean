import FabricEpoch.Lib.Forest
import FabricEpoch.Runtime.Evolution
import FabricEpoch.Runtime.Frames

/-!
# The forest of delegated grants

A grant that was delegated names its parent. Grants are only appended, under
parents that are in the table, and only ever revoked in place, so the table is a
forest along which scopes shrink.

- `Delegation`: the forest invariant, with `AuthorityGrant.Narrows` between a
  parent and its child;
- `revokeFrom_eq`: the traversal of a revocation marks exactly the derived
  grants that had not been revoked, and counts them;
- `applyGrant_delegation`, `applyRevoke_cascade`: what the two operations on
  grants do to the table;
- `quietRun_delegation`: the invariant in every state of a run.
-/

namespace FabricEpoch

open Table Transaction

/-! ## The invariant -/

/-- What a delegated grant has of its parent. -/
structure AuthorityGrant.Narrows (q g : AuthorityGrant) : Prop where
  epoch : g.epoch = q.epoch
  scopes : q.scopes.containsAll g.scopes = true
  revoked : q.revoked = true → g.revoked = true

theorem AuthorityGrant.Narrows.trans {a b c : AuthorityGrant} (h₁ : a.Narrows b)
    (h₂ : b.Narrows c) : a.Narrows c :=
  ⟨h₂.epoch.trans h₁.epoch, ScopeSet.containsAll_trans h₁.scopes h₂.scopes,
    fun h => h₂.revoked (h₁.revoked h)⟩

/-- The identifiers of the grants delegated from a grant. -/
abbrev childIds (grants : List AuthorityGrant) : AuthorityGrantId → List AuthorityGrantId :=
  Forest.children AuthorityGrant.id AuthorityGrant.parent grants

/-- The second grant is derived from the first, directly or transitively. -/
abbrev Derived (grants : List AuthorityGrant) : AuthorityGrantId → AuthorityGrantId → Prop :=
  Forest.Derived AuthorityGrant.id AuthorityGrant.parent grants

/-- Every grant narrows the grant it was delegated from, which stands before it
in the table. -/
abbrev Delegation (grants : List AuthorityGrant) : Prop :=
  Forest.Grown AuthorityGrant.id AuthorityGrant.parent AuthorityGrant.Narrows grants

/-- The identifiers of the grants that are revoked. -/
def revokedIds (grants : List AuthorityGrant) : List AuthorityGrantId :=
  (grants.filter (·.revoked)).map (·.id)

theorem mem_revokedIds {grants : List AuthorityGrant} {id : AuthorityGrantId} :
    id ∈ revokedIds grants ↔ ∃ g ∈ grants, g.id = id ∧ g.revoked = true := by
  simp only [revokedIds, List.mem_map, List.mem_filter]
  constructor
  · rintro ⟨g, ⟨hg, hr⟩, rfl⟩
    exact ⟨g, hg, rfl, hr⟩
  · rintro ⟨g, hg, rfl, hr⟩
    exact ⟨g, ⟨hg, hr⟩, rfl⟩

/-- The derived grants of a revoked grant are revoked. -/
theorem Delegation.revoked_closed {grants : List AuthorityGrant} (h : Delegation grants)
    (hn : (grants.map (·.id)).Nodup) {id : AuthorityGrantId} (hid : id ∈ revokedIds grants) :
    ∀ c ∈ childIds grants id, c ∈ revokedIds grants := by
  intro c hc
  obtain ⟨g, hg, rfl, hparent⟩ := Forest.mem_children.mp hc
  obtain ⟨q, hq, hqid, hnarrows⟩ := h.of_parent hg hparent
  obtain ⟨q', hq', hqid', hrevoked⟩ := mem_revokedIds.mp hid
  obtain rfl := List.inj_on_of_nodup_map hn hq' hq (hqid'.trans hqid.symm)
  exact mem_revokedIds.mpr ⟨g, hg, rfl, hnarrows.revoked hrevoked⟩

/-! ## The traversal -/

/-- A change of a grant that leaves it where it stands, and done twice is done once. -/
structure AuthorityGrant.InPlace (φ : AuthorityGrant → AuthorityGrant) : Prop where
  id : ∀ g, (φ g).id = g.id
  parent : ∀ g, (φ g).parent = g.parent
  twice : ∀ g, φ (φ g) = φ g

namespace AuthorityGrant

/-- The grant is changed if it is marked. -/
def touched (φ : AuthorityGrant → AuthorityGrant) (marks : List AuthorityGrantId)
    (g : AuthorityGrant) : AuthorityGrant :=
  if g.id ∈ marks then φ g else g

/-- The grant is revoked if it is marked. -/
def marked (marks : List AuthorityGrantId) (epoch : CoordinatorEpoch) (g : AuthorityGrant) :
    AuthorityGrant :=
  if g.id ∈ marks then g.revoke epoch else g

theorem inPlace_revoke (epoch : CoordinatorEpoch) : InPlace (·.revoke epoch) :=
  ⟨fun _ => rfl, fun _ => rfl, fun _ => rfl⟩

variable (g : AuthorityGrant) (marks : List AuthorityGrantId) (epoch : CoordinatorEpoch)

section InPlace

variable {φ : AuthorityGrant → AuthorityGrant} (h : InPlace φ)

include h

theorem InPlace.touched_id : (g.touched φ marks).id = g.id := by
  unfold touched
  split
  · exact h.id g
  · rfl

theorem InPlace.touched_parent : (g.touched φ marks).parent = g.parent := by
  unfold touched
  split
  · exact h.parent g
  · rfl

/-- One more mark. -/
theorem InPlace.touched_cons (id : AuthorityGrantId) :
    (if (g.touched φ marks).id = id then φ (g.touched φ marks) else g.touched φ marks) =
      g.touched φ (id :: marks) := by
  rw [h.touched_id]
  by_cases hid : g.id = id
  · rw [if_pos hid, touched, touched, if_pos (List.mem_cons.mpr (.inl hid))]
    split
    · exact h.twice g
    · rfl
  · simp only [touched, List.mem_cons, hid, false_or, if_false]

end InPlace

@[simp] theorem marked_id : (g.marked marks epoch).id = g.id :=
  (inPlace_revoke epoch).touched_id g marks

@[simp] theorem marked_parent : (g.marked marks epoch).parent = g.parent :=
  (inPlace_revoke epoch).touched_parent g marks

end AuthorityGrant

namespace Impl

/-- The two grant indexes are those of the records. -/
structure GrantsIndexed (impl : Impl) : Prop where
  index : impl.grantIndex = indexBy (fun g => [g.id]) impl.state.grants
  children : impl.grantChildren = groupBy (fun g => g.parent.toList) impl.state.grants

theorem GrantsIndexed.rebuild (impl : Impl) : impl.rebuildIndexes.GrantsIndexed := ⟨rfl, rfl⟩

variable {impl : Impl}

/-- The children that the traversal sees. -/
theorem GrantsIndexed.childGrants_eq (h : impl.GrantsIndexed) :
    impl.childGrants = childIds impl.state.grants := by
  funext id
  show (impl.grantChildren id).filterMap (fun i => (impl.state.grants[i]?).map (·.id)) = _
  rw [h.children, ← List.map_filterMap, filterMap_groupBy]
  rfl

theorem GrantsIndexed.find (h : impl.GrantsIndexed) (hn : (impl.state.grants.map (·.id)).Nodup)
    (id : AuthorityGrantId) :
    impl.findGrant id = lookup AuthorityGrant.id impl.state.grants id := by
  rw [findGrant, h.index]
  exact getElem?_indexBy hn id

/-- The memory with some grants changed. -/
def touching (φ : AuthorityGrant → AuthorityGrant) (marks : List AuthorityGrantId) (impl : Impl) :
    Impl :=
  impl.mapState fun s => { s with grants := s.grants.map (·.touched φ marks) }

section Touching

variable {φ : AuthorityGrant → AuthorityGrant} (marks : List AuthorityGrantId)

theorem touching_nil (φ : AuthorityGrant → AuthorityGrant) (impl : Impl) : impl.touching φ [] = impl := by
  simp [touching, mapState, AuthorityGrant.touched]

theorem findGrant_touching (id : AuthorityGrantId) :
    (impl.touching φ marks).findGrant id = (impl.findGrant id).map (·.touched φ marks) := by
  show ((impl.grantIndex id).bind fun i => (impl.state.grants.map (·.touched φ marks))[i]?) =
    ((impl.grantIndex id).bind fun i => impl.state.grants[i]?).map _
  cases impl.grantIndex id with
  | none => rfl
  | some i => exact List.getElem?_map ..

/-- Changes in place leave identifiers and parents alone. -/
theorem childGrants_touching (h : AuthorityGrant.InPlace φ) :
    (impl.touching φ marks).childGrants = impl.childGrants := by
  funext id
  show (impl.grantChildren id).filterMap (fun i =>
      ((impl.state.grants.map (·.touched φ marks))[i]?).map (·.id)) =
    (impl.grantChildren id).filterMap fun i => (impl.state.grants[i]?).map (·.id)
  refine congrArg (fun f => List.filterMap f (impl.grantChildren id)) (funext fun i => ?_)
  rw [List.getElem?_map, Option.map_map]
  refine congrArg (fun f => Option.map f impl.state.grants[i]?) (funext fun g => ?_)
  exact h.touched_id g marks

/-- The identifiers stay. -/
theorem ids_touching (h : AuthorityGrant.InPlace φ) :
    (impl.touching φ marks).state.grants.map (·.id) = impl.state.grants.map (·.id) := by
  show (impl.state.grants.map (·.touched φ marks)).map (·.id) = _
  rw [List.map_map]
  exact List.map_congr_left fun g _ => h.touched_id g marks

/-- A write through the index goes to the record with the identifier. -/
theorem updateGrant_of_find (hn : (impl.state.grants.map (·.id)).Nodup) {id : AuthorityGrantId}
    {g : AuthorityGrant} (hg : impl.findGrant id = some g) (hid : g.id = id)
    (f : AuthorityGrant → AuthorityGrant) :
    impl.updateGrant id f = impl.mapState fun s => { s with
      grants := updateKey AuthorityGrant.id id f s.grants } := by
  obtain ⟨i, hi, hrecord⟩ := Option.bind_eq_some_iff.mp hg
  unfold updateGrant mapState
  rw [hi]
  simp only [modify_eq_updateKey hn hrecord hid]

/-- One more grant is changed. -/
theorem updateGrant_touching (h : AuthorityGrant.InPlace φ)
    (hn : (impl.state.grants.map (·.id)).Nodup) {id : AuthorityGrantId} {g : AuthorityGrant}
    (hg : impl.findGrant id = some g) (hid : g.id = id) :
    (impl.touching φ marks).updateGrant id φ = impl.touching φ (id :: marks) := by
  have hn' : ((impl.touching φ marks).state.grants.map (·.id)).Nodup := by
    rw [ids_touching marks h]
    exact hn
  have hg' : (impl.touching φ marks).findGrant id = some (g.touched φ marks) := by
    rw [findGrant_touching, hg]
    rfl
  rw [updateGrant_of_find hn' hg' ((h.touched_id g marks).trans hid)]
  unfold touching mapState
  simp only [updateKey, List.map_map, Function.comp_def, h.touched_cons]

end Touching

/-- The memory with some grants revoked. -/
def revoking (marks : List AuthorityGrantId) (impl : Impl) : Impl :=
  impl.mapState fun s => { s with grants := s.grants.map (·.marked marks s.currentEpoch) }

theorem revoking_nil (impl : Impl) : impl.revoking [] = impl :=
  touching_nil (·.revoke impl.state.currentEpoch) impl

theorem findGrant_revoking (marks : List AuthorityGrantId) (id : AuthorityGrantId) :
    (impl.revoking marks).findGrant id =
      (impl.findGrant id).map (·.marked marks impl.state.currentEpoch) :=
  findGrant_touching marks id

/-- Revoking leaves identifiers and parents alone. -/
theorem childGrants_revoking (marks : List AuthorityGrantId) :
    (impl.revoking marks).childGrants = impl.childGrants :=
  childGrants_touching marks (AuthorityGrant.inPlace_revoke impl.state.currentEpoch)

/-- The identifiers stay. -/
theorem ids_revoking (marks : List AuthorityGrantId) :
    (impl.revoking marks).state.grants.map (·.id) = impl.state.grants.map (·.id) :=
  ids_touching marks (AuthorityGrant.inPlace_revoke impl.state.currentEpoch)

/-- One more grant is revoked. -/
theorem updateGrant_revoking (hn : (impl.state.grants.map (·.id)).Nodup)
    {id : AuthorityGrantId} {g : AuthorityGrant} (hg : impl.findGrant id = some g) (hid : g.id = id)
    (marks : List AuthorityGrantId) :
    (impl.revoking marks).updateGrant id (·.revoke impl.state.currentEpoch) =
      impl.revoking (id :: marks) :=
  updateGrant_touching marks (AuthorityGrant.inPlace_revoke impl.state.currentEpoch) hn hg hid

/-- What has been seen is what has been revoked. -/
theorem revoked_marked (hn : (impl.state.grants.map (·.id)).Nodup) {g : AuthorityGrant}
    (hg : g ∈ impl.state.grants) (marks : List AuthorityGrantId) (epoch : CoordinatorEpoch) :
    (g.marked marks epoch).revoked = true ↔ g.id ∈ marks ++ revokedIds impl.state.grants := by
  rw [List.mem_append, mem_revokedIds]
  unfold AuthorityGrant.marked
  split
  · next hmark => exact iff_of_true rfl (.inl hmark)
  · next hmark =>
    rw [or_iff_right hmark]
    constructor
    · exact fun hr => ⟨g, hg, rfl, hr⟩
    · rintro ⟨g', hg', hid, hr⟩
      obtain rfl := List.inj_on_of_nodup_map hn hg' hg hid
      exact hr

/-- **The loop is a sweep** over the children, as long as it does not come back
to the root. -/
theorem revokeLoop_eq (hi : impl.GrantsIndexed) (hn : (impl.state.grants.map (·.id)).Nodup)
    (hforest : Delegation impl.state.grants) {root : AuthorityGrantId} (fuel : Nat)
    (pending marks : List AuthorityGrantId) (n : Nat)
    (hpending : ∀ p ∈ pending, Derived impl.state.grants root p) :
    revokeLoop root fuel pending n (impl.revoking marks) =
      (impl.revoking ((Worklist.sweep (childIds impl.state.grants) fuel pending
          (marks ++ revokedIds impl.state.grants)).reverse ++ marks),
        n + (Worklist.sweep (childIds impl.state.grants) fuel pending
          (marks ++ revokedIds impl.state.grants)).length) := by
  induction fuel generalizing pending marks n with
  | zero => rfl
  | succ fuel ih =>
    cases pending with
    | nil => rfl
    | cons current pending =>
      have hderived := hpending current (List.mem_cons_self ..)
      have hrest : ∀ p ∈ pending, Derived impl.state.grants root p :=
        fun p hp => hpending p (List.mem_cons_of_mem _ hp)
      have hroot : current ≠ root := by
        rintro rfl
        exact hforest.acyclic hn current hderived
      -- the grant is in the table
      obtain ⟨g, hg, rfl⟩ := List.mem_map.mp hderived.mem
      have hfind : impl.findGrant g.id = some g := by
        rw [hi.find hn]
        exact lookup_eq_some_of_mem hn hg
      have hseen := revoked_marked hn hg marks impl.state.currentEpoch
      rw [revokeLoop, findGrant_revoking, hfind, Option.map_some, Worklist.sweep]
      dsimp only
      by_cases hmark : g.id ∈ marks ++ revokedIds impl.state.grants
      · rw [if_pos ⟨hseen.mpr hmark, hroot⟩, if_pos hmark]
        exact ih pending marks n hrest
      · have hlive := fun hr => hmark (hseen.mp hr)
        rw [if_neg fun hr => hlive hr.1, if_neg hlive, if_neg hmark, childGrants_revoking,
          hi.childGrants_eq]
        have hmore : ∀ p ∈ (childIds impl.state.grants g.id).reverse ++ pending,
            Derived impl.state.grants root p := by
          intro p hp
          rcases List.mem_append.mp hp with hp | hp
          · exact hderived.tail (List.mem_reverse.mp hp)
          · exact hrest p hp
        have hstep := ih _ (g.id :: marks) (n + 1) hmore
        rw [show (impl.revoking marks).state.currentEpoch = impl.state.currentEpoch from rfl,
          updateGrant_revoking hn hfind rfl, hstep]
        simp only [List.cons_append, List.reverse_cons, List.append_assoc, List.length_cons,
          List.nil_append, Prod.mk.injEq, true_and]
        omega

/-- **What a traversal revokes**: the root and the derived grants that had not
been revoked. -/
theorem revokeFrom_eq (hi : impl.GrantsIndexed) (hn : (impl.state.grants.map (·.id)).Nodup)
    (hforest : Delegation impl.state.grants) {root : AuthorityGrantId} {g : AuthorityGrant}
    (hg : impl.findGrant root = some g) (hlive : g.revoked = false) :
    ∃ derived : List AuthorityGrantId, derived.Nodup ∧
      (∀ id, id ∈ derived ↔
        Derived impl.state.grants root id ∧ id ∉ revokedIds impl.state.grants) ∧
      impl.revokeFrom root = (impl.revoking (derived.reverse ++ [root]), derived.length + 1) := by
  have hlookup : lookup AuthorityGrant.id impl.state.grants root = some g := by
    rw [← hi.find hn]
    exact hg
  obtain ⟨hmem, hid⟩ := lookup_some hlookup
  have hroot : root ∉ revokedIds impl.state.grants := by
    rw [mem_revokedIds]
    rintro ⟨g', hg', hid', hr⟩
    rw [eq_of_lookup hn hlookup hg' hid', hlive] at hr
    cases hr
  -- the sweep of the whole traversal, its first round taken apart
  have hsweep : Worklist.sweep (childIds impl.state.grants) (2 * impl.state.grants.length + 2) [root]
        (revokedIds impl.state.grants) =
      root :: Worklist.sweep (childIds impl.state.grants) (2 * impl.state.grants.length + 1)
        ((childIds impl.state.grants root).reverse ++ [])
        ([root] ++ revokedIds impl.state.grants) := by
    rw [Worklist.sweep, if_neg hroot]
    rfl
  have hall : ∀ x, x ∈ Worklist.sweep (childIds impl.state.grants) (2 * impl.state.grants.length + 2)
      [root] (revokedIds impl.state.grants) ↔ _ := fun x =>
    Forest.mem_sweep_iff hn (by rw [← hid]; exact List.mem_map_of_mem hmem)
      (fun _ h => hforest.revoked_closed hn h) (by omega)
  have hnodup : (Worklist.sweep (childIds impl.state.grants) (2 * impl.state.grants.length + 2) [root]
      (revokedIds impl.state.grants)).Nodup := Worklist.sweep_fresh.1
  have hchildren : ∀ p ∈ (childIds impl.state.grants root).reverse ++ [],
      Derived impl.state.grants root p := by
    intro p hp
    rw [List.append_nil] at hp
    exact .single (List.mem_reverse.mp hp)
  rw [revokeFrom_first hg hlive, hi.childGrants_eq,
    show impl.updateGrant root (·.revoke impl.state.currentEpoch) = impl.revoking [root] from by
      have := updateGrant_revoking hn hg hid []
      rwa [revoking_nil] at this,
    revokeLoop_eq hi hn hforest _ _ _ _ hchildren]
  rw [hsweep] at hall hnodup
  generalize Worklist.sweep (childIds impl.state.grants) (2 * impl.state.grants.length + 1)
    ((childIds impl.state.grants root).reverse ++ []) ([root] ++ revokedIds impl.state.grants) =
      derived at *
  rw [List.nodup_cons] at hnodup
  refine ⟨derived, hnodup.2, fun id => ?_, by rw [Nat.add_comm]⟩
  constructor
  · intro hd
    obtain ⟨hreach, hnew⟩ := (hall id).mp (List.mem_cons_of_mem _ hd)
    rcases Relation.reflTransGen_iff_eq_or_transGen.mp hreach with rfl | hderived
    · exact absurd hd hnodup.1
    · exact ⟨hderived, hnew⟩
  · rintro ⟨hderived, hnew⟩
    rcases List.mem_cons.mp ((hall id).mpr ⟨hderived.to_reflTransGen, hnew⟩) with rfl | hd
    · exact absurd hderived (hforest.acyclic hn id)
    · exact hd

end Impl

/-! ## What the operations do to the table -/

/-- **An issued grant narrows its parent.** -/
theorem applyGrant_delegation {entropy : Entropy} {request : GrantAuthorityRequest}
    {t u : Txn Impl} {r : GrantResult} (ht : t.state.Regular)
    (hforest : Delegation t.state.state.grants) (h : applyGrant entropy request t = .ok r u) :
    Delegation u.state.state.grants := by
  rcases applyGrant_cases h with ⟨rfl, -⟩ | ⟨p, digest, hadmitted, h⟩
  · exact hforest
  obtain ⟨bytes, g, -, -, hstate, -⟩ := commitGrant_ok h
  have hgrants : u.state.state.grants = t.state.state.grants ++
      [{ t.state.newGrant request ⟨bytes⟩ with generation := GrantGeneration.ofState g }] := by
    rw [hstate, Impl.issued_eq]
    unfold Impl.updateParticipant
    split <;> rfl
  rw [hgrants]
  refine hforest.append fun id hid => ?_
  obtain ⟨q, hq, hdelegates⟩ := (refusedDelegation_none hadmitted.delegation).2 id hid
  obtain ⟨hmem, rfl⟩ := ht.grant_of_find hq
  refine ⟨q, hmem, rfl, hdelegates.epoch.symm, hdelegates.scopes, fun hr => ?_⟩
  rw [hdelegates.live] at hr
  cases hr

/-- What a revocation does to a grant. -/
def AuthorityGrant.cascaded (epoch : CoordinatorEpoch) (generation : GrantGeneration)
    (root : AuthorityGrantId) (derived : List AuthorityGrantId) (g : AuthorityGrant) :
    AuthorityGrant :=
  if g.id = root then { g.revoke epoch with generation }
  else if g.id ∈ derived then g.revoke epoch
  else g

/-- What a revocation does to the table: the root and the derived grants that
had not been revoked are, and the root carries the new generation. -/
structure Cascade (epoch : CoordinatorEpoch) (generation : GrantGeneration)
    (root : AuthorityGrantId) (grants grants' : List AuthorityGrant)
    (derived : List AuthorityGrantId) : Prop where
  live : ∃ g ∈ grants, g.id = root ∧ g.revoked = false
  nodup : derived.Nodup
  mem : ∀ id, id ∈ derived ↔
    Derived grants root id ∧ ∃ g ∈ grants, g.id = id ∧ g.revoked = false
  table : grants' = grants.map (·.cascaded epoch generation root derived)

/-- A revocation touches neither identifiers nor parents, and keeps the forest. -/
theorem Cascade.delegation {epoch : CoordinatorEpoch} {generation : GrantGeneration}
    {root : AuthorityGrantId} {grants grants' : List AuthorityGrant}
    {derived : List AuthorityGrantId} (h : Cascade epoch generation root grants grants' derived)
    (hforest : Delegation grants) : Delegation grants' := by
  -- a grant is revoked afterwards if it was, or if the cascade reaches it
  have hrevoked : ∀ g : AuthorityGrant,
      (g.cascaded epoch generation root derived).revoked = true ↔
        g.id = root ∨ g.id ∈ derived ∨ g.revoked = true := by
    intro g
    unfold AuthorityGrant.cascaded
    split
    · next hroot => exact iff_of_true rfl (.inl hroot)
    · next hroot =>
      split
      · next hmem => exact iff_of_true rfl (.inr (.inl hmem))
      · next hmem => rw [or_iff_right hroot, or_iff_right hmem]
  have hframe : ∀ g : AuthorityGrant,
      (g.cascaded epoch generation root derived).id = g.id ∧
        (g.cascaded epoch generation root derived).parent = g.parent ∧
        (g.cascaded epoch generation root derived).epoch = g.epoch ∧
        (g.cascaded epoch generation root derived).scopes = g.scopes := by
    intro g
    unfold AuthorityGrant.cascaded
    split
    · exact ⟨rfl, rfl, rfl, rfl⟩
    · split <;> exact ⟨rfl, rfl, rfl, rfl⟩
  rw [h.table]
  refine hforest.map (fun g => (hframe g).1) (fun g => (hframe g).2.1)
    fun q hq g hg hparent hnarrows => ⟨?_, ?_, fun hr => ?_⟩
  · rw [(hframe g).2.2.1, (hframe q).2.2.1]
    exact hnarrows.epoch
  · rw [(hframe g).2.2.2, (hframe q).2.2.2]
    exact hnarrows.scopes
  · rw [hrevoked] at hr ⊢
    have hedge : g.id ∈ childIds grants q.id := Forest.mem_children.mpr ⟨g, hg, rfl, hparent⟩
    -- below the root everything is revoked, or is now
    have hbelow : Derived grants root g.id → g.id = root ∨ g.id ∈ derived ∨ g.revoked = true := by
      intro hderived
      cases hlive : g.revoked with
      | true => exact .inr (.inr rfl)
      | false => exact .inr (.inl ((h.mem g.id).mpr ⟨hderived, g, hg, rfl, hlive⟩))
    rcases hr with hroot | hmem | hr
    · exact hbelow (.single (hroot ▸ hedge))
    · exact hbelow (((h.mem q.id).mp hmem).1.tail hedge)
    · exact .inr (.inr (hnarrows.revoked hr))

/-- **A revocation that commits is a cascade**, and counts it. -/
theorem commitRevoke_cascade {request : RevokeAuthorityRequest} {digest : SnapshotDigest}
    {grant : AuthorityGrant} {t u : Txn Impl} {r : RevokeResult} (hi : t.state.GrantsIndexed)
    (hn : (t.state.state.grants.map (·.id)).Nodup) (hforest : Delegation t.state.state.grants)
    (hfound : t.state.findGrant request.grant = some grant) (hlive : grant.revoked = false)
    (h : commitRevoke request digest grant t = .ok r u) :
    ∃ generation derived, Cascade t.state.state.currentEpoch generation request.grant
      t.state.state.grants u.state.state.grants derived ∧
      r.derivedGrantsRevoked = derived.length := by
  obtain ⟨hmem, hid⟩ := lookup_some (by rw [← hi.find hn]; exact hfound :
    lookup AuthorityGrant.id t.state.state.grants request.grant = some grant)
  obtain ⟨g, count, stamped, hcount, -, hstamped, hstate, -, -, hanswer, -⟩ := commitRevoke_ok h
  obtain ⟨derived, hnodup, hderived, hfrom⟩ :=
    Impl.revokeFrom_eq hi hn hforest (show t.state.findGrant grant.id = some grant by
      rw [hid]; exact hfound) hlive
  rw [hid] at hderived
  refine ⟨GrantGeneration.ofState g, derived, ⟨⟨grant, hmem, hid, hlive⟩, hnodup, fun id => ?_, ?_⟩,
    ?_⟩
  · rw [hderived, mem_revokedIds]
    refine and_congr_right fun hd => ?_
    obtain ⟨g', hg', rfl⟩ := List.mem_map.mp hd.mem
    constructor
    · exact fun hnot => ⟨g', hg', rfl, Bool.eq_false_iff.mpr fun hr => hnot ⟨g', hg', rfl, hr⟩⟩
    · rintro ⟨g₁, hg₁, hid₁, hlive₁⟩ ⟨g₂, hg₂, hid₂, hr⟩
      rw [List.inj_on_of_nodup_map hn hg₂ hg₁ (hid₂.trans hid₁.symm), hlive₁] at hr
      cases hr
  · -- the generation is written last
    have hrevoking : ((t.state.revoking (derived.reverse ++ [request.grant])).setGeneration
        g).findGrant request.grant = some (grant.marked (derived.reverse ++ [request.grant])
          t.state.state.currentEpoch) := by
      show (t.state.revoking _).findGrant _ = _
      rw [Impl.findGrant_revoking, hfound]
      rfl
    have hn' : (((t.state.revoking (derived.reverse ++ [request.grant])).setGeneration
        g).state.grants.map (·.id)).Nodup := by
      show ((t.state.revoking _).state.grants.map (·.id)).Nodup
      rw [Impl.ids_revoking]
      exact hn
    rw [hstate, hstamped, hfrom, hid,
      Impl.updateGrant_of_find hn' hrevoking ((grant.marked_id _ _).trans hid)]
    show updateKey AuthorityGrant.id request.grant _ (t.state.state.grants.map
      (·.marked (derived.reverse ++ [request.grant]) t.state.state.currentEpoch)) = _
    rw [updateKey, List.map_map]
    refine List.map_congr_left fun g' _ => ?_
    rw [Function.comp_apply, AuthorityGrant.marked_id]
    unfold AuthorityGrant.marked
    by_cases hroot : g'.id = request.grant
    · have hmark : g'.id ∈ derived.reverse ++ [request.grant] :=
        List.mem_append_right _ (List.mem_singleton.mpr hroot)
      rw [if_pos hroot, if_pos hmark, AuthorityGrant.cascaded, if_pos hroot]
      rfl
    · rw [if_neg hroot, AuthorityGrant.cascaded, if_neg hroot]
      simp only [List.mem_append, List.mem_reverse, List.mem_singleton, hroot, or_false]
  · rw [hanswer, hcount, hfrom]
    rfl

/-! ## Runs -/

/-- The grant indexes are those of the records, and the records a forest. -/
structure Impl.Delegating (impl : Impl) : Prop where
  indexed : impl.GrantsIndexed
  forest : Delegation impl.state.grants

theorem Impl.Delegating.of_same {impl impl' : Impl} (h : impl.Delegating)
    (hstate : impl'.state = impl.state) (hindex : impl'.grantIndex = impl.grantIndex)
    (hchildren : impl'.grantChildren = impl.grantChildren) : impl'.Delegating :=
  ⟨⟨by rw [hindex, hstate, h.indexed.index], by rw [hchildren, hstate, h.indexed.children]⟩,
    by rw [hstate]; exact h.forest⟩

/-- A transaction leaves the memory alone or rebuilds its indexes. -/
theorem transact_delegating {α : Type} {op : Op α} {fault : Option SaveFault} {disk : Disk}
    {impl : Impl} {a : α} (hd : impl.Delegating)
    (hop : ∀ t, op (Txn.start impl) = .ok a t →
      Advanced .nothing impl.options.limits (Txn.start impl) t ∧ Delegation t.state.state.grants)
    (h : (transact op fault disk impl).result = .ok a) :
    (transact op fault disk impl).impl.Delegating := by
  obtain ⟨t, ht, ⟨hidle, heq⟩ | ⟨-, image, previous, -, heq⟩⟩ := transact_ok h
  · obtain ⟨hadvanced, -⟩ := hop t ht
    rcases hadvanced.marked with rfl | hmarked
    · rw [heq]
      exact hd
    · rw [hidle] at hmarked
      cases hmarked
  · rw [heq]
    exact ⟨.rebuild _, (hop t ht).2⟩

/-- An operation that leaves the table alone. -/
theorem delegation_of_frame {α : Type} {op : Op α} (h : ∀ x, Keeps (Reads grantsOf x) op)
    {t u : Txn Impl} {a : α} (ht : Delegation t.state.state.grants) (hrun : op t = .ok a u) :
    Delegation u.state.state.grants := by
  show Delegation (grantsOf u.state)
  rw [frame_of_run h hrun]
  exact ht

/-- What a revocation that returns has done to the table. -/
theorem applyRevoke_cascade {request : RevokeAuthorityRequest} {t u : Txn Impl} {r : RevokeResult}
    (hd : t.state.Delegating) (hn : (t.state.state.grants.map (·.id)).Nodup)
    (h : applyRevoke request t = .ok r u) :
    u = t ∧ (r.outcome = .revoked →
      findAttempt t.state.state.controlAttempts request.attempt ≠ none) ∨
    ∃ generation derived, Cascade t.state.state.currentEpoch generation request.grant
      t.state.state.grants u.state.state.grants derived ∧
      r.derivedGrantsRevoked = derived.length := by
  rcases applyRevoke_cases h with hidle | ⟨digest, grant, hadmitted, h⟩
  · exact .inl hidle
  · exact .inr (commitRevoke_cascade hd.indexed hn hd.forest hadmitted.found hadmitted.live h)

/-- **A call that does not throw** keeps the forest. -/
theorem callRuntime_delegating {call : Call} {entropy : Entropy} {fault : Option SaveFault}
    {disk : Disk} {impl : Impl} {reply : Reply} (hs : impl.Settled) (hd : impl.Delegating)
    (hn : (impl.state.grants.map (·.id)).Nodup)
    (h : (callRuntime call entropy fault disk impl).result = .ok reply) :
    (callRuntime call entropy fault disk impl).impl.Delegating := by
  cases call with
  | register request =>
    obtain ⟨a, ha⟩ := Transacted.map_result_ok h
    exact transact_delegating hd (fun t ht =>
      ⟨applyRegistration_advanced hs.regular rfl False.elim False.elim False.elim False.elim ht,
        delegation_of_frame (fun _ => Reads.applyRegistration grantsOf_registration request true)
          hd.forest ht⟩) ha
  | registerBatch requests =>
    obtain ⟨a, ha⟩ := Transacted.map_result_ok h
    exact transact_delegating hd (fun t ht =>
      ⟨registerBatch_advanced hs.regular rfl rfl False.elim False.elim False.elim False.elim ht,
        delegation_of_frame (fun _ => Reads.registerBatch grantsOf_registration requests)
          hd.forest ht⟩) ha
  | fence request =>
    obtain ⟨a, ha⟩ := Transacted.map_result_ok h
    exact transact_delegating hd (fun t ht =>
      ⟨fenceWorker_advanced hs.regular rfl rfl False.elim False.elim False.elim ht,
        delegation_of_frame (fun _ => Reads.fenceWorker grantsOf_record request) hd.forest ht⟩) ha
  | grant request =>
    obtain ⟨a, ha⟩ := Transacted.map_result_ok h
    exact transact_delegating hd (fun t ht =>
      ⟨applyGrant_advanced hs.regular rfl False.elim False.elim ht,
        applyGrant_delegation hs.regular hd.forest ht⟩) ha
  | revoke request =>
    obtain ⟨a, ha⟩ := Transacted.map_result_ok h
    refine transact_delegating hd (fun t ht => ⟨applyRevoke_advanced hs.regular rfl ht, ?_⟩) ha
    rcases applyRevoke_cascade hd hn ht with ⟨rfl, -⟩ | ⟨_, _, hcascade, -⟩
    · exact hd.forest
    · exact hcascade.delegation hd.forest
  | advance request =>
    obtain ⟨a, ha⟩ := Transacted.map_result_ok h
    exact transact_delegating hd (fun t ht =>
      ⟨advanceEpoch_advanced hs.regular False.elim False.elim ht,
        delegation_of_frame (fun _ => Reads.advanceEpoch grantsOf_epoch entropy request)
          hd.forest ht⟩) ha
  | retire request =>
    obtain ⟨a, ha⟩ := Transacted.map_result_ok h
    exact transact_delegating hd (fun t ht =>
      ⟨applyRetire_advanced hs.regular rfl False.elim False.elim False.elim ht,
        delegation_of_frame (fun _ => Reads.applyRetire grantsOf_record request) hd.forest ht⟩) ha
  | bind binding =>
    rw [callRuntime] at h ⊢
    cases hr : impl.bindSession binding with
    | error e =>
      rw [hr] at h
      cases h
    | ok bound =>
      unfold Impl.bindSession at hr
      split at hr
      · cases hr
        exact hd
      · split at hr
        · cases hr
        · cases hr
          exact hd.of_same rfl rfl rfl
  | close session reason =>
    obtain ⟨a, ha⟩ := Transacted.map_result_ok h
    show (closeSession session reason fault disk impl).impl.Delegating
    unfold closeSession at ha ⊢
    split
    · exact hd
    · next binding hbinding =>
      simp only [hbinding] at ha
      have hs' : (impl.eraseSession binding).Settled := hs.of_same rfl ⟨rfl, rfl, rfl, rfl⟩
      have hd' : (impl.eraseSession binding).Delegating := hd.of_same rfl rfl rfl
      exact transact_delegating hd' (fun t ht =>
        ⟨fenceSession_advanced hs'.regular rfl False.elim ht,
          delegation_of_frame (fun _ => Reads.fenceSession grantsOf_record.toFenceFrame
            session binding reason) hd'.forest ht⟩) ha
  | flush =>
    simp only [callRuntime] at h ⊢
    split <;> exact hd

/-- **An opening that does not throw** takes the forest over. -/
theorem openRuntime_delegating {opening : Opening} {fault : Option SaveFault} {disk : Disk}
    {reply : Reply} (hload : ∀ state,
      EpochStore.load (EpochStore.runtimeOptions opening.options.limits) disk = .ok state →
        Orderly state ∧ Delegation state.grants)
    (h : (openRuntime opening fault disk).2.2 = .ok reply) :
    ∀ impl ∈ (openRuntime opening fault disk).1, impl.Delegating := by
  obtain ⟨state, boot, hloaded, hcase⟩ := openRuntime_ok h
  obtain ⟨horderly, hforest⟩ := hload state hloaded
  have hs : (opening.impl state boot).Settled := .rebuild horderly
  have hd : (opening.impl state boot).Delegating := ⟨.rebuild _, hforest⟩
  generalize (openRuntime opening fault disk).1 = opened at hcase ⊢
  generalize (openRuntime opening fault disk).2.1 = disk' at hcase
  intro impl himpl
  cases hcase with
  | established transition =>
    have hdone := transact_delegating hd (fun t ht =>
      ⟨establishEpoch_advanced hs.regular isZero_not False.elim False.elim ht,
        delegation_of_frame (fun _ => Reads.establishEpoch grantsOf_epoch _ _ _ _) hd.forest ht⟩)
      transition
    cases himpl
    exact hdone
  | kept established =>
    cases himpl
    exact hd

/-- The forest is in the memory, and in the image on disk. -/
structure DelegatingHost (host : Host) : Prop where
  disk : Stored (fun s => Delegation s.grants) host.disk
  memory : ∀ impl ∈ host.runtime, impl.Delegating

/-- What was saved is the memory that was reached. -/
theorem Progress.stored {T : Trust} {P : DurableState → Prop} {impl impl' : Impl}
    {disk disk' : Disk} (h : Progress T impl disk impl' disk') (hdisk : Stored P disk)
    (hstate : P impl'.state) : Stored P disk' := by
  rcases h.saved with ⟨hsame, -⟩ | ⟨image, previous, hencode, hwritten⟩
  · rw [hsame]
    exact hdisk
  · rw [hwritten]
    refine ⟨fun hnone => (nomatch hnone), fun image' himage' => ?_⟩
    cases himage'
    exact ⟨impl'.state, hencode, hstate⟩

/-- **One quiet step.** -/
theorem quietStep_delegating {host : Host} {input : Input} (hkept : Holds Kept host)
    (h : DelegatingHost host) (hquiet : Quietly host input) :
    DelegatingHost (coordinator.step host input).1 := by
  cases input with
  | «open» opening fault =>
    cases hr : (openRuntime opening fault host.disk).2.2 with
    | error e => exact absurd (congrArg some hr) (hquiet e)
    | ok reply =>
      have hmemory := openRuntime_delegating (fun state hload =>
        ⟨(hkept.disk.load hload).1.orderly, (h.disk.load hload).1⟩) hr
      obtain ⟨impl', state, boot, hopened, hload, hprogress, -⟩ :=
        openRuntime_progress (T := .nothing) (fun state hload =>
          ⟨(hkept.disk.load hload).1.orderly, False.elim, False.elim⟩) hr
      exact ⟨hprogress.stored h.disk (hmemory impl' hopened).forest, hmemory⟩
  | call call entropy fault =>
    cases hruntime : host.runtime with
    | none =>
      rw [coordinator_idle hruntime]
      exact h
    | some impl =>
      have hstep := coordinator_call hruntime call entropy fault
      obtain ⟨hs, -, hvalid, hepoch⟩ := hkept.memory impl hruntime
      rw [hstep]
      cases hr : (callRuntime call entropy fault host.disk impl).result with
      | error e =>
        refine absurd ?_ (hquiet e)
        rw [hstep, hr]
      | ok reply =>
        have hdone := callRuntime_delegating hs (h.memory impl hruntime)
          (hvalid.established hepoch).grantIds hr
        have hprogress := callRuntime_progress (T := .nothing) False.elim hs False.elim
          ((Input.sound_nothing host (.call call entropy fault)) impl hruntime) hr
        refine ⟨hprogress.stored h.disk hdone.forest, fun impl' himpl' => ?_⟩
        cases himpl'
        exact hdone

/-- **The forest in every state of a run** in which no call throws. -/
theorem quietRun_delegating {host : Host} (h : coordinator.Reaches Quietly host) :
    DelegatingHost host := by
  have hkept : ∀ s i, Holds Kept s → Quietly s i → Holds Kept (coordinator.step s i).1 :=
    fun s i hs hq => quietStep_holds preserved_kept hs (i.sound_nothing s) hq
  refine Machine.Leads.invariant_of hkept (fun s i hs hd hq => quietStep_delegating hs hd hq) h ?_ ?_
  · exact quietRun_kept .refl
  · exact ⟨⟨fun _ => Forest.Grown.nil, fun image himage => (nomatch himage)⟩,
      fun impl himpl => (nomatch himpl)⟩

end FabricEpoch
