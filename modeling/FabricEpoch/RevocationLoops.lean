import FabricEpoch.Lib.Rounds
import FabricEpoch.Revocations

/-!
# Whether revocations end

The cascade of a revocation and the loop of its undo walk over the parent links of
the grants, which come from the disk. The image is checked for parents that are
missing and for grants that are their own parent, and for no longer cycle. The cascade
marks what it has revoked and ends on every image; the undo marks nothing.

- `revokeRound`, `restoreRound`: one round of either loop;
- `revokeFrom_rounds`: the cascade ends, and its result is the one of the model;
- `restore_ends_iff`: the undo ends exactly when the target lies on no cycle;
- `revocationEnds_iff`: both, for every call on every state that is accepted;
- `cyclicGrants`: two grants that delegate to each other.
-/

namespace FabricEpoch

open Table Transaction Worklist Rounds

/-! ## Rounds -/

namespace Impl

/-- One round of the loop of `apply_revoke`: the grants that are pending, the memory,
the number of grants revoked. -/
def revokeRound (root : AuthorityGrantId) :
    List AuthorityGrantId × Impl × Nat → List AuthorityGrantId × Impl × Nat
  | ([], impl, revoked) => ([], impl, revoked)
  | (current :: pending, impl, revoked) =>
    match impl.findGrant current with
    | none => (pending, impl, revoked)
    | some target =>
      if target.revoked = true ∧ current ≠ root then (pending, impl, revoked)
      else if target.revoked then ((impl.childGrants current).reverse ++ pending, impl, revoked)
      else ((impl.childGrants current).reverse ++ pending,
        impl.updateGrant current (·.revoke impl.state.currentEpoch), revoked + 1)

/-- One round of the loop of `restore_revocations`. -/
def restoreRound : List AuthorityGrantId × Impl → List AuthorityGrantId × Impl
  | ([], impl) => ([], impl)
  | (current :: pending, impl) =>
    match impl.findGrant current with
    | none => (pending, impl)
    | some _ => ((impl.childGrants current).reverse ++ pending,
        impl.updateGrant current fun g => { g with revoked := false, revokedAtEpoch := .zero })

/-- The cascade of the model is a number of rounds. -/
theorem revokeLoop_rounds (root : AuthorityGrantId) (fuel : Nat) (pending : List AuthorityGrantId)
    (revoked : Nat) (impl : Impl) :
    revokeLoop root fuel pending revoked impl =
      ((revokeRound root)^[fuel] (pending, impl, revoked)).2 := by
  induction fuel generalizing pending revoked impl with
  | zero => rfl
  | succ fuel ih =>
    rw [Function.iterate_succ_apply]
    cases pending with
    | nil =>
      rw [revokeLoop, revokeRound, ← ih]
      · cases fuel <;> rfl
      · exact fun h => by cases h
    | cons current pending =>
      rw [revokeLoop, revokeRound]
      cases impl.findGrant current with
      | none => exact ih _ _ _
      | some target =>
        dsimp only
        by_cases hskip : target.revoked = true ∧ current ≠ root
        · rw [if_pos hskip, if_pos hskip]
          exact ih _ _ _
        · rw [if_neg hskip, if_neg hskip]
          by_cases hrevoked : target.revoked = true
          · rw [if_pos hrevoked, if_pos hrevoked]
            exact ih _ _ _
          · rw [if_neg hrevoked, if_neg hrevoked]
            exact ih _ _ _

/-- The undo of the model is a number of rounds. -/
theorem restoreLoop_rounds (fuel : Nat) (pending : List AuthorityGrantId) (impl : Impl) :
    restoreLoop fuel pending impl = (restoreRound^[fuel] (pending, impl)).2 := by
  induction fuel generalizing pending impl with
  | zero => rfl
  | succ fuel ih =>
    rw [Function.iterate_succ_apply]
    cases pending with
    | nil =>
      rw [restoreLoop, restoreRound, ← ih]
      · cases fuel <;> rfl
      · exact fun h => by cases h
    | cons current pending =>
      rw [restoreLoop, restoreRound]
      cases impl.findGrant current with
      | none => exact ih _ _
      | some _ => exact ih _ _

/-- The grant is there. -/
def present (impl : Impl) (id : AuthorityGrantId) : Bool := (impl.findGrant id).isSome

variable {impl s : Impl}

theorem present_of_links (hlinks : s.grantLinks = impl.grantLinks) : s.present = impl.present := by
  funext id
  have hsame := congrArg Option.isSome (findGrant_of_links hlinks id)
  rwa [Option.isSome_map, Option.isSome_map] at hsame

/-- What the undo comes to does not depend on what it restores. -/
theorem restoreRound_walk (n : Nat) (pending : List AuthorityGrantId) (s : Impl) :
    (restoreRound^[n] (pending, s)).1 = (walkRound s.childGrants s.present)^[n] pending := by
  induction n generalizing pending s with
  | zero => rfl
  | succ n ih =>
    rw [Function.iterate_succ_apply, Function.iterate_succ_apply]
    cases pending with
    | nil => exact ih [] s
    | cons current pending =>
      rw [restoreRound, walkRound, present]
      cases hfound : s.findGrant current with
      | none => exact ih pending s
      | some g =>
        have hlinks : (s.updateGrant current AuthorityGrant.lift).grantLinks = s.grantLinks :=
          links_updateGrant (f := AuthorityGrant.lift) (fun _ => rfl) current
        have hrest := ih ((s.childGrants current).reverse ++ pending)
          (s.updateGrant current AuthorityGrant.lift)
        rw [childGrants_of_links hlinks, present_of_links hlinks] at hrest
        exact hrest

/-! ## The cascade -/

/-- The grants whose parent is a given one are listed once. -/
theorem childIds_nodup (hn : (impl.state.grants.map (·.id)).Nodup) (id : AuthorityGrantId) :
    (childIds impl.state.grants id).Nodup :=
  hn.sublist (List.filter_sublist.map _)

/-- The links that the validation asks for: identifiers of their own, parents that are
there, and no grant that is its own parent. -/
structure Linked (impl : Impl) : Prop where
  indexed : impl.GrantsIndexed
  ids : (impl.state.grants.map (·.id)).Nodup
  parents : ∀ g ∈ impl.state.grants, ∀ parent, g.parent = some parent →
    parent ∈ impl.state.grants.map (·.id) ∧ parent ≠ g.id

/-- A grant of the table is found. -/
theorem Linked.find (h : impl.Linked) {id : AuthorityGrantId} :
    impl.present id = true ↔ id ∈ impl.state.grants.map (·.id) := by
  rw [present, h.indexed.find h.ids]
  constructor
  · intro hsome
    obtain ⟨g, hg⟩ := Option.isSome_iff_exists.mp hsome
    obtain ⟨hmem, rfl⟩ := lookup_some hg
    exact List.mem_map_of_mem hmem
  · intro hmem
    obtain ⟨g, hg, rfl⟩ := List.mem_map.mp hmem
    rw [lookup_eq_some_of_mem h.ids hg]
    rfl

/-- The cascade and the marks it has made. -/
structure Marked (impl : Impl) (c : List AuthorityGrantId × Impl × Nat)
    (marking : List AuthorityGrantId × List AuthorityGrantId) : Prop where
  pending : c.1 = marking.1
  memory : ∃ marks, c.2.1 = impl.revoking marks ∧
    ∀ id, id ∈ marking.2 ↔ id ∈ marks ++ revokedIds impl.state.grants

/-- **One round of the cascade marks what it revokes.** -/
theorem Marked.round (h : impl.Linked) {root : AuthorityGrantId}
    {c : List AuthorityGrantId × Impl × Nat}
    {marking : List AuthorityGrantId × List AuthorityGrantId} (hmarked : impl.Marked c marking) :
    impl.Marked (revokeRound root c)
      (markRound (childIds impl.state.grants) impl.present root marking) := by
  obtain ⟨pending, s, revoked⟩ := c
  obtain ⟨pending', seen⟩ := marking
  obtain ⟨rfl, marks, rfl, hseen⟩ := hmarked
  dsimp only at hseen ⊢
  cases pending with
  | nil => exact ⟨rfl, marks, rfl, hseen⟩
  | cons current pending =>
    rw [revokeRound, findGrant_revoking]
    cases hfound : impl.findGrant current with
    | none =>
      have hskip : ¬ (impl.present current = true ∧ (current ∉ seen ∨ current = root)) := by
        rw [present, hfound]
        exact fun h => by cases h.1
      rw [markRound, if_neg hskip]
      exact ⟨rfl, marks, rfl, hseen⟩
    | some g =>
      have hlookup := hfound
      rw [h.indexed.find h.ids] at hlookup
      obtain ⟨hmem, rfl⟩ := lookup_some hlookup
      have hpresent : impl.present g.id = true := by rw [present, hfound, Option.isSome_some]
      have hrevoked := (revoked_marked h.ids hmem marks impl.state.currentEpoch).trans
        (hseen g.id).symm
      rw [Option.map_some, childGrants_revoking, h.indexed.childGrants_eq, markRound]
      dsimp only
      by_cases hskip : g.id ∈ seen ∧ g.id ≠ root
      · have hmark : ¬ (impl.present g.id = true ∧ (g.id ∉ seen ∨ g.id = root)) := by
          rintro ⟨-, hnew | hroot⟩
          · exact hnew hskip.1
          · exact hskip.2 hroot
        rw [if_pos ⟨hrevoked.mpr hskip.1, hskip.2⟩, if_neg hmark]
        exact ⟨rfl, marks, rfl, hseen⟩
      · have hmark : impl.present g.id = true ∧ (g.id ∉ seen ∨ g.id = root) := by
          refine ⟨hpresent, ?_⟩
          by_cases hold : g.id ∈ seen
          · exact .inr (not_not.mp fun hne => hskip ⟨hold, hne⟩)
          · exact .inl hold
        rw [if_neg fun hr => hskip ⟨hrevoked.mp hr.1, hr.2⟩, if_pos hmark]
        by_cases hold : g.id ∈ seen
        · -- the root came up again
          rw [if_pos (hrevoked.mpr hold)]
          refine ⟨rfl, marks, rfl, fun id => ?_⟩
          rw [← hseen, List.mem_cons]
          exact ⟨fun hid => hid.elim (fun heq => heq ▸ hold) fun hid => hid, .inr⟩
        · rw [if_neg fun hr => hold (hrevoked.mp hr),
            show (impl.revoking marks).state.currentEpoch = impl.state.currentEpoch from rfl,
            updateGrant_revoking h.ids hfound rfl]
          refine ⟨rfl, g.id :: marks, rfl, fun id => ?_⟩
          rw [List.cons_append, List.mem_cons, List.mem_cons, hseen]

theorem Marked.rounds (h : impl.Linked) {root : AuthorityGrantId} (n : Nat)
    {c : List AuthorityGrantId × Impl × Nat}
    {marking : List AuthorityGrantId × List AuthorityGrantId} (hmarked : impl.Marked c marking) :
    impl.Marked ((revokeRound root)^[n] c)
      ((markRound (childIds impl.state.grants) impl.present root)^[n] marking) := by
  induction n generalizing c marking with
  | zero => exact hmarked
  | succ n ih => exact ih (hmarked.round h)

/-- **The cascade ends**, after two rounds for every grant and one for the root. -/
theorem Linked.cascade_ends (h : impl.Linked) {root : AuthorityGrantId}
    (hroot : impl.present root = true) {n : Nat} (hn : 2 * impl.state.grants.length + 1 ≤ n) :
    ((revokeRound root)^[n] ([root], impl, 0)).1 = [] := by
  have hstart : impl.Marked ([root], impl, 0) ([root], revokedIds impl.state.grants) :=
    ⟨rfl, [], (revoking_nil impl).symm, fun id => by rw [List.nil_append]⟩
  rw [(hstart.rounds h n).pending]
  have hself : root ∉ childIds impl.state.grants root := by
    intro hmem
    obtain ⟨g, hg, rfl, hparent⟩ := Forest.mem_children.mp hmem
    exact (h.parents g hg _ hparent).2 rfl
  have hunique : ∀ i j c, c ∈ childIds impl.state.grants i → c ∈ childIds impl.state.grants j →
      i = j := fun i j c => Forest.parent_unique h.ids
  refine mark_ends h.ids (fun k hk => h.find.mp hk) hself _ ?_
  refine Nat.le_trans (mark_bound h.ids (childIds_nodup h.ids) hunique (h.find.mp hroot) _) ?_
  have hsum : tally (fun k => (childIds impl.state.grants k).length)
      (impl.state.grants.map (·.id)) [] ≤ impl.state.grants.length := by
    unfold tally
    rw [List.filter_eq_self.mpr fun _ _ => by simp]
    exact Forest.sum_children_le _ h.ids _
  omega

/-- **What the cascade computes** is what the model computes, however long it goes on. -/
theorem Linked.revokeFrom_rounds (h : impl.Linked) {root : AuthorityGrantId}
    (hroot : impl.present root = true) {n : Nat} (hn : 2 * impl.state.grants.length + 2 ≤ n) :
    impl.revokeFrom root = ((revokeRound root)^[n] ([root], impl, 0)).2 := by
  obtain ⟨m, rfl⟩ := Nat.exists_eq_add_of_le' hn
  have hdone : ∀ (k : Nat) (c : List AuthorityGrantId × Impl × Nat), c.1 = [] →
      (revokeRound root)^[k] c = c := by
    rintro k ⟨pending, s, revoked⟩ rfl
    exact Function.iterate_fixed rfl k
  rw [revokeFrom, revokeLoop_rounds, Function.iterate_add_apply _ m,
    hdone m _ (h.cascade_ends hroot (by omega))]

/-! ## The undo -/

/-- **The undo ends exactly when the target lies on no cycle**, whatever has been revoked. -/
theorem Linked.restore_ends_iff (h : impl.Linked) (hlinks : s.grantLinks = impl.grantLinks)
    {root : AuthorityGrantId} :
    Ends (fun c => c.1 = []) restoreRound ([root], s) ↔ ¬ Derived impl.state.grants root root := by
  have hwalk : Ends (fun c => c.1 = []) restoreRound ([root], s) ↔
      Ends (· = []) (walkRound (childIds impl.state.grants) impl.present) [root] := by
    unfold Ends
    simp only [restoreRound_walk, childGrants_of_links hlinks, present_of_links hlinks,
      h.indexed.childGrants_eq]
  rw [hwalk]
  have hlisted : ∀ k, ∀ c ∈ childIds impl.state.grants k, c ∈ impl.state.grants.map (·.id) := by
    intro k c hc
    obtain ⟨g, hg, rfl, -⟩ := Forest.mem_children.mp hc
    exact List.mem_map_of_mem hg
  refine walk_ends_iff hlisted (fun i j c => Forest.parent_unique h.ids) fun k c hc => ?_
  · obtain ⟨g, hg, rfl, hparent⟩ := Forest.mem_children.mp hc
    exact h.find.mpr (h.parents g hg _ hparent).1

end Impl

/-! ## The calls -/

/-- **What the validation says of the links**, once they are indexed. -/
theorem linked_of_valid {impl : Impl} (hvalid : validateDurableState impl.state = .ok ()) :
    impl.rebuildIndexes.Linked := by
  have hstate := validateDurableState_ok.mp hvalid
  by_cases hepoch : impl.state.currentEpoch.value = 0
  · have hnone : impl.rebuildIndexes.state.grants = [] := (hstate.pristine hepoch).2.1
    refine ⟨.rebuild impl, ?_, fun g hg => ?_⟩
    · rw [hnone]
      exact List.nodup_nil
    · rw [hnone] at hg
      cases hg
  · have hestablished := hstate.established hepoch
    exact ⟨.rebuild impl, hestablished.grantIds, hestablished.parents⟩

/-- A call that is admitted comes to the cascade. -/
theorem applyRevoke_commits {request : RevokeAuthorityRequest} {grant : AuthorityGrant}
    {digest : SnapshotDigest} {t : Txn Impl} (h : RevokeAdmitted t.state request grant digest) :
    applyRevoke request t = commitRevoke request digest grant t := by
  unfold applyRevoke
  rw [Action.bind_current]
  simp only [h.malformed, h.semantic, Action.bind_ofExcept, h.attempt, h.found, h.live]
  rfl

/-- **The loops of a revocation end**: the cascade, and, when the save of what it did
throws, the loop of the undo action, which runs behind the one of the generation. -/
structure RevocationEnds (request : RevokeAuthorityRequest) (impl : Impl) : Prop where
  cascade : ∀ grant, impl.findGrant request.grant = some grant →
    Ends (fun c => c.1 = []) (Impl.revokeRound grant.id) ([grant.id], impl, 0)
  rollback : ∀ grant, impl.findGrant request.grant = some grant →
    ∀ r u, applyRevoke request (Txn.start impl) = .ok r u → u.mutated = true →
      ∃ g, u.undo = [Impl.setGeneration g, impl.undoRevoke grant] ∧
        Ends (fun c => c.1 = []) Impl.restoreRound ([grant.id],
          (Impl.setGeneration g u.state.canonicalize).resizeControlAttempts
            impl.state.controlAttempts.length)

/-- The target of a call that comes to its save lies on a cycle of the parent links. -/
def CyclicTarget (request : RevokeAuthorityRequest) (impl : Impl) : Prop :=
  ∃ grant digest, RevokeAdmitted impl request grant digest ∧ impl.state.generation.next ≠ none ∧
    Derived impl.state.grants grant.id grant.id

/-- The memory in which the undo starts has the links of the one that was revoked. -/
theorem links_rollback {request : RevokeAuthorityRequest} {digest : SnapshotDigest}
    {grant : AuthorityGrant} {t u : Txn Impl} {r : RevokeResult}
    (h : commitRevoke request digest grant t = .ok r u) (g : EpochGeneration) (n : Nat) :
    ((Impl.setGeneration g u.state.canonicalize).resizeControlAttempts n).grantLinks =
      t.state.grantLinks := by
  obtain ⟨g', derived, stamped, -, -, hstamped, hstate, -⟩ := commitRevoke_ok h
  show u.state.grantLinks = _
  rw [hstate, hstamped]
  exact (Impl.links_updateGrant (f := fun g => { g with generation := GrantGeneration.ofState g' })
    (fun _ => rfl) request.grant).trans (links_revokeFrom t.state grant.id)

/-- **Every revocation ends, and so does its undo unless the target delegates to itself
over other grants**, on every state that the validation accepts. -/
theorem revocationEnds_iff {impl : Impl} (hvalid : validateDurableState impl.state = .ok ())
    (request : RevokeAuthorityRequest) :
    RevocationEnds request impl.rebuildIndexes ↔ ¬ CyclicTarget request impl.rebuildIndexes := by
  have hlinked := linked_of_valid hvalid
  generalize impl.rebuildIndexes = impl at hlinked
  constructor
  · rintro hends ⟨grant, digest, hadmitted, hnext, hcycle⟩
    have hcommits := applyRevoke_commits (t := Txn.start impl) hadmitted
    cases hrun : applyRevoke request (Txn.start impl) with
    | error e u =>
      rw [hcommits] at hrun
      exact hnext (commitRevoke_error hrun).2.1
    | ok r u =>
      have hcommit := hcommits.symm.trans hrun
      obtain ⟨-, -, -, -, -, -, -, hmutated, -⟩ := commitRevoke_ok hcommit
      obtain ⟨g, -, hundo⟩ := hends.rollback grant hadmitted.found r u hrun hmutated
      exact (hlinked.restore_ends_iff (links_rollback hcommit g _)).mp hundo hcycle
  · intro hacyclic
    refine ⟨fun grant hfound => ?_, fun grant hfound r u hrun hmutated => ?_⟩
    · have hpresent : impl.present request.grant = true := by
        rw [Impl.present, hfound, Option.isSome_some]
      have hid : grant.id = request.grant := by
        have hlookup := hfound
        rw [hlinked.indexed.find hlinked.ids] at hlookup
        exact (lookup_some hlookup).2
      exact ⟨_, hlinked.cascade_ends (hid ▸ hpresent) (Nat.le_refl _)⟩
    · rcases applyRevoke_cases hrun with ⟨hsame, -⟩ | ⟨digest, grant', hadmitted, hcommit⟩
      · rw [hsame] at hmutated
        cases hmutated
      · obtain rfl : grant = grant' := Option.some.inj (hfound.symm.trans hadmitted.found)
        obtain ⟨g, hundo⟩ := commitRevoke_undo hcommit
        obtain ⟨g', -, -, -, hnext, -⟩ := commitRevoke_ok hcommit
        refine ⟨g, hundo, (hlinked.restore_ends_iff (links_rollback hcommit g _)).mpr fun hcycle => ?_⟩
        refine hacyclic ⟨grant, digest, hadmitted, ?_, hcycle⟩
        have hgeneration : (impl.revokeFrom grant.id).1.state.generation = impl.state.generation := by
          obtain ⟨_, hrevised, -⟩ : impl.Revised (impl.revokeFrom grant.id).1 :=
            Impl.Revised.revokeLoop grant.id _ _ 0 impl
          rw [hrevised]
        rw [← hgeneration]
        exact fun hnone => Option.some_ne_none g' (hnext.symm.trans hnone)

/-! ## A cycle -/

def testGrants (parents : List (UInt8 × Option UInt8)) : List AuthorityGrant :=
  parents.map fun (id, parent) =>
    { id := smallId id, epoch := smallCounter 2, participant := testParticipant "p"
      boot := smallId 11, incarnation := smallCounter 1, scopes := testScopes
      parent := parent.map smallId, delegatorBoot := parent.map fun _ => smallId 11
      provenance := .blank }

/-- A memory over these grants. -/
def holding (parents : List (UInt8 × Option UInt8)) : Impl :=
  Impl.ofState {} { openedTwice .blank with grants := testGrants parents }

def revokeFirst : RevokeAuthorityRequest where
  attempt := smallId 7
  expectedEpoch := smallCounter 2
  grant := smallId 1

/-- A grant that was delegated from no other is revoked, and so is the one below it. -/
theorem revocationEnds_iff_test :
    RevocationEnds revokeFirst (holding [(1, none), (2, some 1)]).rebuildIndexes := by
  refine (revocationEnds_iff (by decide +kernel) revokeFirst).mpr ?_
  rintro ⟨grant, digest, hadmitted, -, hcycle⟩
  have hid : grant.id = smallId 1 := by
    have hfirst : ((holding [(1, none), (2, some 1)]).rebuildIndexes.findGrant
        revokeFirst.grant).map (·.id) = some (smallId 1) := by decide +kernel
    rw [hadmitted.found] at hfirst
    exact Option.some.inj hfirst
  -- its identifier is the child of nothing
  rw [hid] at hcycle
  obtain ⟨parent, -, hlast⟩ := Relation.TransGen.tail'_iff.mp hcycle
  obtain ⟨g, hg, hgid, hparent⟩ := Forest.mem_children.mp hlast
  have hroot : ∀ g ∈ (holding [(1, none), (2, some 1)]).rebuildIndexes.state.grants,
      g.id = smallId 1 → g.parent = none := by decide +kernel
  rw [hroot g hg hgid] at hparent
  cases hparent

/-- **Two grants that delegate to each other** are accepted, and the undo of a revocation
goes round and round. -/
theorem cyclicGrants : ∃ (impl : Impl) (request : RevokeAuthorityRequest),
    validateDurableState impl.state = .ok () ∧ ¬ RevocationEnds request impl.rebuildIndexes := by
  have hvalid : validateDurableState (holding [(1, some 2), (2, some 1)]).state = .ok () := by
    decide +kernel
  refine ⟨_, revokeFirst, hvalid, fun hends => (revocationEnds_iff hvalid _).mp hends ?_⟩
  have hdown : smallId 2 ∈ childIds (holding [(1, some 2), (2, some 1)]).state.grants (smallId 1) := by
    decide +kernel
  have hup : smallId 1 ∈ childIds (holding [(1, some 2), (2, some 1)]).state.grants (smallId 2) := by
    decide +kernel
  cases hfound : (holding [(1, some 2), (2, some 1)]).rebuildIndexes.findGrant revokeFirst.grant with
  | none =>
    have hthere : ((holding [(1, some 2), (2, some 1)]).rebuildIndexes.findGrant
        revokeFirst.grant).isSome = true := by decide +kernel
    rw [hfound] at hthere
    cases hthere
  | some grant =>
    have hgrant : ((holding [(1, some 2), (2, some 1)]).rebuildIndexes.findGrant
        revokeFirst.grant).map (fun g => (g.id, g.revoked)) = some (smallId 1, false) := by
      decide +kernel
    rw [hfound] at hgrant
    obtain ⟨hid, hlive⟩ := Prod.mk.inj (Option.some.inj hgrant)
    refine ⟨grant, _, ⟨by decide +kernel, rfl, by decide +kernel, hfound, hlive⟩, by decide +kernel, ?_⟩
    rw [hid]
    exact .tail (.single hdown) hup

end FabricEpoch
