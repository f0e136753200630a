import FabricEpoch.Delegation
import FabricEpoch.Runtime.GrantTables

/-!
# Revoked grants under failing saves

A revocation that throws is undone by `restore_revocations`, which does not know
what the revocation had marked: it walks down the delegated grants again and
lifts every revocation it meets, also those of earlier calls. As long as nothing
below the target had been revoked, the two walks visit the same grants.

- `revokeLoop_walk`, `restoreLoop_walk`: the two traversals are one walk;
- `applyRevoke_flags`: a revocation that throws leaves every flag as it was, if
  no grant derived from its target had been revoked;
- `revokedForGood_of_fresh`: what is revoked and saved stays revoked, in the
  memory and on the disk, in every run of such revocations;
- `failedRevoke_revives`: a run that is not one of these.
-/

namespace FabricEpoch

open Table Transaction Worklist
open ByteCodec (Bytes)

/-! ## Two traversals, one walk -/

namespace AuthorityGrant

/-- What `restore_revocations` does to a grant. -/
def lift (g : AuthorityGrant) : AuthorityGrant :=
  { g with revoked := false, revokedAtEpoch := .zero }

theorem inPlace_lift : InPlace lift := ⟨fun _ => rfl, fun _ => rfl, fun _ => rfl⟩

/-- What is known of the revocation of a grant. -/
def flags (g : AuthorityGrant) : AuthorityGrantId × Bool × CoordinatorEpoch :=
  (g.id, g.revoked, g.revokedAtEpoch)

end AuthorityGrant

namespace Impl

variable {impl s : Impl}

/-- What is known of the revocation of every grant. -/
def flags (impl : Impl) : List (AuthorityGrantId × Bool × CoordinatorEpoch) :=
  impl.state.grants.map (·.flags)

/-- The grants that both traversals come to. -/
def below (impl : Impl) (fuel : Nat) (pending : List AuthorityGrantId) : List AuthorityGrantId :=
  walk impl.childGrants (fun id => (impl.findGrant id).isSome) fuel pending

theorem below_of_links (hlinks : s.grantLinks = impl.grantLinks) : s.below = impl.below := by
  have hpresent : (fun id => (s.findGrant id).isSome) = fun id => (impl.findGrant id).isSome := by
    funext id
    have hsame := congrArg Option.isSome (findGrant_of_links hlinks id)
    rwa [Option.isSome_map, Option.isSome_map] at hsame
  funext fuel pending
  rw [below, below, hpresent, childGrants_of_links hlinks]

/-- **The undo action** lifts the revocations of all grants below the target. -/
theorem restoreLoop_walk (h : s.GrantsSound) (fuel : Nat)
    (pending marks : List AuthorityGrantId) :
    restoreLoop fuel pending (s.touching .lift marks) =
      s.touching .lift ((s.below fuel pending).reverse ++ marks) := by
  induction fuel generalizing pending marks with
  | zero => rfl
  | succ fuel ih =>
    cases pending with
    | nil => rfl
    | cons current pending =>
      rw [restoreLoop, findGrant_touching, below, walk]
      cases hfound : s.findGrant current with
      | none => exact ih pending marks
      | some g =>
        show restoreLoop fuel (((s.touching .lift marks).childGrants current).reverse ++ pending)
          ((s.touching .lift marks).updateGrant current AuthorityGrant.lift) = _
        rw [childGrants_touching marks AuthorityGrant.inPlace_lift,
          updateGrant_touching marks AuthorityGrant.inPlace_lift h.table.ids hfound
            (h.find current g hfound), ih]
        rw [Option.isSome_some, if_pos rfl, List.reverse_cons, List.append_assoc]
        rfl

/-- **A revocation** marks all grants below its target, if none of them had been
revoked. -/
theorem revokeLoop_walk (h : impl.GrantsSound) (root : AuthorityGrantId) (fuel : Nat)
    (pending marks : List AuthorityGrantId) (n : Nat)
    (hlive : ∀ id ∈ impl.below fuel pending, ∀ g ∈ impl.state.grants, g.id = id → g.revoked = false)
    (hfresh : (impl.below fuel pending ++ marks).Nodup) :
    (revokeLoop root fuel pending n (impl.revoking marks)).1 =
      impl.revoking ((impl.below fuel pending).reverse ++ marks) := by
  induction fuel generalizing pending marks n with
  | zero => rfl
  | succ fuel ih =>
    cases pending with
    | nil => rfl
    | cons current pending =>
      rw [below, walk] at hlive hfresh ⊢
      rw [revokeLoop, findGrant_revoking]
      cases hfound : impl.findGrant current with
      | none =>
        rw [hfound] at hlive hfresh
        exact ih pending marks n hlive hfresh
      | some g =>
        rw [hfound, Option.isSome_some, if_pos rfl] at hlive hfresh
        rw [Option.isSome_some, if_pos rfl, Option.map_some]
        have hid := h.find current g hfound
        -- the grant has been marked neither before nor on this walk
        rw [List.cons_append, List.nodup_cons] at hfresh
        obtain ⟨hnew, hrest⟩ := hfresh
        have hunmarked : g.id ∉ marks := fun hmem =>
          hnew (List.mem_append_right _ (hid ▸ hmem))
        have hunrevoked : (g.marked marks impl.state.currentEpoch).revoked = false := by
          rw [AuthorityGrant.marked, if_neg hunmarked]
          exact hlive current (List.mem_cons_self ..) g (mem_of_findGrant hfound) hid
        dsimp only
        rw [if_neg (by simp [hunrevoked]), if_neg (by simp [hunrevoked]), childGrants_revoking]
        show (revokeLoop root fuel ((impl.childGrants current).reverse ++ pending) (n + 1)
          ((impl.revoking marks).updateGrant current (·.revoke impl.state.currentEpoch))).1 = _
        rw [updateGrant_revoking h.table.ids hfound hid,
          ih _ (current :: marks) (n + 1) (fun id hid' => hlive id (List.mem_cons_of_mem _ hid')) ?_]
        · rw [List.reverse_cons, List.append_assoc]
          rfl
        · exact List.perm_middle.nodup_iff.mpr (List.nodup_cons.mpr ⟨hnew, hrest⟩)

/-- Only what is derived from the target lies below it, and nothing twice. -/
theorem below_root (h : impl.GrantsSound) (root : AuthorityGrantId) (fuel : Nat) :
    (impl.below fuel [root]).Nodup ∧ ∀ id ∈ impl.below fuel [root],
      id = root ∨ Derived impl.state.grants root id := by
  refine ⟨h.table.rooted.walk_nodup h.table.ids h.children h.once root fuel, fun id hid => ?_⟩
  obtain ⟨p, hp, hreach⟩ := walk_reaches hid
  rw [List.mem_singleton.mp hp] at hreach
  have hderived : Relation.ReflTransGen (Edge (childIds impl.state.grants)) root id := by
    clear hid
    induction hreach with
    | refl => exact .refl
    | tail _ hedge ih => exact ih.tail (h.children _ _ hedge)
  exact Relation.reflTransGen_iff_eq_or_transGen.mp hderived

/-! ## Taking a revocation back -/

theorem flags_map_lift (marks : List AuthorityGrantId) :
    (s.touching .lift marks).flags = s.flags.map fun x =>
      if x.1 ∈ marks then (x.1, false, .zero) else x := by
  show (s.state.grants.map (·.touched .lift marks)).map (·.flags) = (s.state.grants.map _).map _
  rw [List.map_map, List.map_map]
  refine List.map_congr_left fun g _ => ?_
  show (g.touched .lift marks).flags = if g.id ∈ marks then (g.id, false, .zero) else g.flags
  unfold AuthorityGrant.touched
  split <;> rfl

/-- Nothing that can be seen in the flags is written to the target itself. -/
theorem flags_updateGrant {id : AuthorityGrantId} {f : AuthorityGrant → AuthorityGrant}
    (hf : ∀ g, s.findGrant id = some g → (f g).flags = g.flags) :
    (s.updateGrant id f).flags = s.flags := by
  unfold updateGrant
  cases hindex : s.grantIndex id with
  | none => rfl
  | some i =>
    show (s.state.grants.modify i f).map (·.flags) = s.state.grants.map (·.flags)
    refine List.ext_getElem? fun n => ?_
    rw [List.getElem?_map, List.getElem?_map, List.getElem?_modify]
    by_cases hn : i = n
    · subst hn
      cases hg : s.state.grants[i]? with
      | none => rfl
      | some g =>
        have hfound : s.findGrant id = some g := by
          rw [findGrant, hindex, Option.bind_some, hg]
        simp [hf g hfound]
    · simp [hn]

/-- **The two walks cancel out**, if nothing below the target had been revoked. -/
theorem undoRevoke_flags (h : impl.GrantsSound) {grant : AuthorityGrant}
    (hfound : impl.findGrant grant.id = some grant) (hlive : grant.revoked = false)
    (hfresh : ∀ g ∈ impl.state.grants, Derived impl.state.grants grant.id g.id → g.revoked = false)
    (hs : s.GrantsSound) (hlinks : s.grantLinks = impl.grantLinks)
    (hflags : s.flags = (impl.revokeFrom grant.id).1.flags) (before : Impl) :
    (before.undoRevoke grant s).flags = impl.flags := by
  obtain ⟨hnodup, hbelow⟩ := below_root h grant.id (2 * impl.state.grants.length + 2)
  -- the target and what is derived from it had not been revoked
  have hunrevoked : ∀ id ∈ impl.below (2 * impl.state.grants.length + 2) [grant.id],
      ∀ g ∈ impl.state.grants, g.id = id → g.revoked = false := by
    rintro id hid g hg rfl
    rcases hbelow g.id hid with hroot | hderived
    · rw [List.inj_on_of_nodup_map h.table.ids hg (mem_of_findGrant hfound) hroot]
      exact hlive
    · exact hfresh g hg hderived
  have hrevoked : (impl.revokeFrom grant.id).1 =
      impl.revoking (impl.below (2 * impl.state.grants.length + 2) [grant.id]).reverse := by
    have hwalk := revokeLoop_walk h grant.id (2 * impl.state.grants.length + 2) [grant.id] [] 0 hunrevoked
      (by rw [List.append_nil]; exact hnodup)
    rwa [revoking_nil, List.append_nil] at hwalk
  -- the walk back is over the same grants
  have hresized : (s.resizeControlAttempts before.state.controlAttempts.length).GrantsSound :=
    hs.of_view rfl
  have hback := restoreLoop_walk hresized (2 * s.state.grants.length + 2) [grant.id] []
  have hlength : s.state.grants.length = impl.state.grants.length := by
    have hat := congrArg List.length (congrArg Prod.fst hlinks)
    simpa only [grantLinks, List.length_map] using hat
  have hsame : (s.resizeControlAttempts before.state.controlAttempts.length).below = impl.below :=
    below_of_links hlinks
  rw [touching_nil, List.append_nil, hsame, hlength] at hback
  generalize impl.below (2 * impl.state.grants.length + 2) [grant.id] = marks at *
  have hrestored : ((s.resizeControlAttempts before.state.controlAttempts.length).touching .lift
      marks.reverse).flags = impl.flags := by
    rw [flags_map_lift]
    show s.flags.map _ = impl.flags
    rw [hflags, hrevoked]
    show ((impl.state.grants.map (·.marked marks.reverse impl.state.currentEpoch)).map
      AuthorityGrant.flags).map _ = impl.state.grants.map AuthorityGrant.flags
    rw [List.map_map, List.map_map]
    refine List.map_congr_left fun g hg => ?_
    show (if (g.marked marks.reverse impl.state.currentEpoch).id ∈ marks.reverse then
        ((g.marked marks.reverse impl.state.currentEpoch).id, false, .zero)
      else (g.marked marks.reverse impl.state.currentEpoch).flags) = g.flags
    rw [AuthorityGrant.marked_id]
    by_cases hmark : g.id ∈ marks.reverse
    · have hnot := hunrevoked g.id (List.mem_reverse.mp hmark) g hg rfl
      rw [if_pos hmark, AuthorityGrant.flags, hnot, h.table.unrevoked g hg hnot]
    · rw [if_neg hmark, AuthorityGrant.marked, if_neg hmark]
  show (((restoreLoop (2 * (s.resizeControlAttempts _).state.grants.length + 2) [grant.id]
    (s.resizeControlAttempts _)).updateGrant grant.id _).flags) = _
  rw [show (s.resizeControlAttempts before.state.controlAttempts.length).state.grants.length =
    impl.state.grants.length from hlength, hback, flags_updateGrant, hrestored]
  intro g hg
  have hid : g.id = grant.id := by
    rw [findGrant_touching] at hg
    obtain ⟨g', hg', rfl⟩ := Option.map_eq_some_iff.mp hg
    exact (AuthorityGrant.inPlace_lift.touched_id g' _).trans (hresized.find _ g' hg')
  have hmem : g.flags ∈ impl.flags := by
    rw [← hrestored]
    exact List.mem_map_of_mem (mem_of_findGrant hg)
  obtain ⟨g', hg', hsameFlags⟩ := List.mem_map.mp hmem
  obtain rfl : g' = grant := List.inj_on_of_nodup_map h.table.ids hg' (mem_of_findGrant hfound)
    ((congrArg Prod.fst hsameFlags).trans hid)
  exact congrArg (fun x => (g.id, g.revoked, x)) (congrArg (·.2.2) hsameFlags)

end Impl

/-! ## Revocations that throw -/

section Throws

variable {request : RevokeAuthorityRequest} {digest : SnapshotDigest} {grant : AuthorityGrant}
  {t u : Txn Impl}

/-- A revocation throws when no generation is left for it. -/
theorem commitRevoke_error {e : EpochError} (h : commitRevoke request digest grant t = .error e u) :
    u.state = (t.state.revokeFrom grant.id).1 ∧ t.state.state.generation.next = none ∧
      ∃ g, u.undo = Impl.setGeneration g :: t.state.undoRevoke grant :: t.undo := by
  unfold commitRevoke at h
  simp only [Action.bind_current, Action.bind_pushUndo, Action.bind_modify] at h
  rcases Action.bind_error.mp h with hbump | ⟨⟨⟩, t₁, -, hlast⟩
  · obtain ⟨hnext, rfl⟩ := bumpGeneration_error hbump
    obtain ⟨grants, hrevoked, -⟩ : t.state.Revised (t.state.revokeFrom grant.id).1 :=
      Impl.Revised.revokeLoop grant.id _ _ 0 t.state
    refine ⟨rfl, ?_, _, rfl⟩
    have hsame : (t.state.revokeFrom grant.id).1.state.generation = t.state.state.generation := by
      rw [hrevoked]
    rw [← hsame]
    exact hnext
  · cases hlast

theorem commitRevoke_undo {r : RevokeResult} (h : commitRevoke request digest grant t = .ok r u) :
    ∃ g, u.undo = Impl.setGeneration g :: t.state.undoRevoke grant :: t.undo := by
  unfold commitRevoke at h
  simp only [Action.bind_current, Action.bind_pushUndo, Action.bind_modify] at h
  obtain ⟨⟨⟩, t₁, hbump, h⟩ := Action.bind_ok.mp h
  obtain ⟨g, -, rfl⟩ := bumpGeneration_ok hbump
  cases h
  exact ⟨_, rfl⟩

theorem applyRevoke_error {e : EpochError} (h : applyRevoke request t = .error e u) :
    u = t ∨ ∃ digest grant, RevokeAdmitted t.state request grant digest ∧
      commitRevoke request digest grant t = .error e u := by
  unfold applyRevoke at h
  rw [Action.bind_current] at h
  cases hmalformed : t.state.malformedRevoke request with
  | some result =>
    simp only [hmalformed] at h
    cases h
  | none =>
    simp only [hmalformed] at h
    rcases Action.bind_error.mp h with hdigest | ⟨digest, t₁, hdigest, h⟩
    · exact .inl (Action.ofExcept_error.mp hdigest).2
    obtain ⟨hsemantic, rfl⟩ := Action.ofExcept_ok.mp hdigest
    cases hattempt : findAttempt t₁.state.state.controlAttempts request.attempt with
    | some previous =>
      simp only [hattempt] at h
      cases h
    | none =>
      cases hfound : t₁.state.findGrant request.grant with
      | none =>
        simp only [hattempt, hfound] at h
        cases h
      | some grant =>
        simp only [hattempt, hfound] at h
        split at h
        · cases h
        · next hlive =>
          exact .inr ⟨digest, grant, ⟨hmalformed, hsemantic, hattempt, hfound, by simpa using hlive⟩, h⟩

variable {impl : Impl}

/-- The memory that the undo action meets looks like the one that was revoked. -/
theorem rollback_flags (h : impl.GrantsSound) (hadmitted : RevokeAdmitted impl request grant digest)
    (hfresh : ∀ g ∈ impl.state.grants, Derived impl.state.grants request.grant g.id →
      g.revoked = false)
    (hs : t.state.GrantsSound) (hlinks : t.state.grantLinks = impl.grantLinks)
    (hflags : t.state.flags = (impl.revokeFrom grant.id).1.flags)
    (hundo : ∃ g, t.undo = [Impl.setGeneration g, impl.undoRevoke grant]) :
    t.rollback.flags = impl.flags := by
  obtain ⟨g, hundo⟩ := hundo
  have hid := h.find _ _ hadmitted.found
  have hrollback : t.rollback = impl.undoRevoke grant (Impl.setGeneration g t.state) := by
    unfold Txn.rollback
    rw [hundo]
    rfl
  rw [hrollback]
  rw [← hid] at hfresh
  refine Impl.undoRevoke_flags h (by rw [hid]; exact hadmitted.found) hadmitted.live hfresh
    (s := Impl.setGeneration g t.state) ?_ hlinks hflags impl
  exact hs.of_view rfl

/-- The traversal leaves the grants where they stand. -/
theorem links_revokeFrom (impl : Impl) (root : AuthorityGrantId) :
    (impl.revokeFrom root).1.grantLinks = impl.grantLinks := by
  refine Impl.revokeLoop_keeps (P := fun s => s.grantLinks = impl.grantLinks) (fun s id hs => ?_) _ _
    _ _ rfl
  refine Eq.trans (Impl.links_updateGrant ?_ id) hs
  exact fun _ => rfl

/-- The revocation is admitted, and cannot go through: no generation is left for
it, or its save throws. -/
def RevokeFails (request : RevokeAuthorityRequest) (fault : Option SaveFault) (disk : Disk)
    (impl : Impl) : Prop :=
  (∃ digest grant, RevokeAdmitted impl request grant digest) ∧
    (impl.state.generation.next = none ∨ SaveThrows (applyRevoke request) fault disk impl)

/-- Nothing that is derived from the target is revoked. -/
def Impl.NoneRevokedBelow (request : RevokeAuthorityRequest) (impl : Impl) : Prop :=
  ∀ g ∈ impl.state.grants, Derived impl.state.grants request.grant g.id → g.revoked = false

/-- **A revocation that throws** changes no flag, if it finds nothing revoked
below its target. -/
theorem applyRevoke_flags (h : impl.GrantsSound) {fault : Option SaveFault} {disk : Disk}
    (hfresh : RevokeFails request fault disk impl → impl.NoneRevokedBelow request) {e : EpochError}
    (hthrown : (transact (applyRevoke request) fault disk impl).result = .error e) :
    (transact (applyRevoke request) fault disk impl).impl.flags = impl.flags := by
  have hguarded : Guarded Impl.GrantsSound (after (applyRevoke request (Txn.start impl))) :=
    guarded_applyRevoke _ (.start h)
  have hcase := transact_cases (applyRevoke request) fault disk impl
  generalize transact (applyRevoke request) fault disk impl = done at hcase hthrown ⊢
  cases hcase with
  | @threw e' t run =>
    rcases applyRevoke_error run with rfl | ⟨digest, grant, hadmitted, hcommit⟩
    · rfl
    obtain ⟨hstate, hexhausted, hundo⟩ := commitRevoke_error hcommit
    rw [run] at hguarded
    refine rollback_flags h hadmitted (hfresh ⟨⟨digest, grant, hadmitted⟩, .inl hexhausted⟩)
      hguarded.state ?_ ?_ hundo
    · rw [hstate]
      exact links_revokeFrom impl grant.id
    · rw [hstate]
      rfl
  | idle _ _ => cases hthrown
  | @failed a t e' disk' threw run mutated _ =>
    rcases applyRevoke_cases run with ⟨rfl, -⟩ | ⟨digest, grant, hadmitted, hcommit⟩
    · cases mutated
    rw [run] at hguarded
    have hundo := commitRevoke_undo hcommit
    obtain ⟨g, derived, stamped, -, -, hstamped, hstate, -⟩ := commitRevoke_ok hcommit
    have hlinks : t.state.grantLinks = impl.grantLinks := by
      rw [hstate, hstamped]
      refine Eq.trans (Impl.links_updateGrant ?_ request.grant) (links_revokeFrom impl grant.id)
      exact fun _ => rfl
    have hflags : t.state.flags = (impl.revokeFrom grant.id).1.flags := by
      rw [hstate, hstamped]
      refine Impl.flags_updateGrant (s := (impl.revokeFrom grant.id).1.setGeneration g) ?_
      exact fun _ _ => rfl
    show (t.apply Impl.canonicalize).rollback.flags = impl.flags
    exact rollback_flags (t := t.apply Impl.canonicalize) h hadmitted
      (hfresh ⟨⟨digest, grant, hadmitted⟩, .inr threw⟩) (hguarded.state.of_view rfl) hlinks hflags
      hundo
  | saved _ _ _ _ => cases hthrown

end Throws

/-! ## Runs -/

/-- The grant is revoked in the durable state. -/
def DurableState.Revoked (id : AuthorityGrantId) (s : DurableState) : Prop :=
  ∃ g ∈ s.grants, g.id = id ∧ g.revoked = true

/-- The grant is revoked in the memory, and the memory is what has been saved. -/
def SavedRevoked (id : AuthorityGrantId) (host : Host) : Prop :=
  ∃ impl image, host.runtime = some impl ∧ host.disk.image = some image ∧
    EpochStore.encode impl.state = .ok image ∧ impl.state.Revoked id

/-- The grant is revoked in the memory, if a runtime is open, and in the image. -/
structure RevokedForGood (id : AuthorityGrantId) (host : Host) : Prop where
  memory : ∀ impl ∈ host.runtime, impl.state.Revoked id
  image : ∃ image s, host.disk.image = some image ∧ EpochStore.encode s = .ok image ∧ s.Revoked id

/-- A revocation that cannot go through finds nothing revoked below its target. -/
def FreshRevocations (host : Host) (input : Input) : Prop :=
  ∀ request entropy fault, input = .call (.revoke request) entropy fault →
    ∀ impl ∈ host.runtime, RevokeFails request fault host.disk impl → impl.NoneRevokedBelow request

/-- An image that always encodes a state in which the grant is revoked is there. -/
theorem stored_revoked_iff {id : AuthorityGrantId} {disk : Disk} :
    Stored (DurableState.Revoked id) disk ↔
      ∃ image s, disk.image = some image ∧ EpochStore.encode s = .ok image ∧ s.Revoked id := by
  constructor
  · intro h
    cases himage : disk.image with
    | none =>
      obtain ⟨g, hg, -⟩ := h.blank himage
      cases hg
    | some image =>
      obtain ⟨s, hencode, hrevoked⟩ := h.image image himage
      exact ⟨image, s, rfl, hencode, hrevoked⟩
  · rintro ⟨image, s, himage, hencode, hrevoked⟩
    refine ⟨fun hnone => ?_, fun image' himage' => ⟨s, ?_, hrevoked⟩⟩
    · rw [himage] at hnone
      cases hnone
    · rw [himage] at himage'
      rw [hencode, Option.some.inj himage']

theorem SavedRevoked.forGood {id : AuthorityGrantId} {host : Host} (h : SavedRevoked id host) :
    RevokedForGood id host := by
  obtain ⟨impl, image, himpl, himage, hencode, hrevoked⟩ := h
  refine ⟨fun impl' himpl' => ?_, image, impl.state, himage, hencode, hrevoked⟩
  rw [himpl] at himpl'
  cases himpl'
  exact hrevoked

/-- Equal flags, equal revocations. -/
theorem DurableState.Revoked.of_flags {id : AuthorityGrantId} {impl impl' : Impl}
    (h : impl.state.Revoked id) (hflags : impl'.flags = impl.flags) : impl'.state.Revoked id := by
  obtain ⟨g, hg, hid, hrevoked⟩ := h
  have hmem : g.flags ∈ impl'.flags := by
    rw [hflags]
    exact List.mem_map_of_mem hg
  obtain ⟨g', hg', hsame⟩ := List.mem_map.mp hmem
  exact ⟨g', hg', (congrArg Prod.fst hsame).trans hid, (congrArg (·.2.1) hsame).trans hrevoked⟩

theorem DurableState.Revoked.outgrown {id : AuthorityGrantId} {s s' : DurableState}
    (h : s.Revoked id) (hlater : Outgrows s.grants s'.grants) : s'.Revoked id := by
  obtain ⟨g, hg, rfl, hrevoked⟩ := h
  exact hlater.revoked hg hrevoked

/-- What a revocation that throws leaves of the flags. -/
theorem callRuntime_flags {request : RevokeAuthorityRequest} {entropy : Entropy}
    {fault : Option SaveFault} {disk : Disk} {impl : Impl} (h : impl.GrantsSound)
    (hfresh : RevokeFails request fault disk impl → impl.NoneRevokedBelow request) {e : EpochError}
    (hthrown : (callRuntime (.revoke request) entropy fault disk impl).result = .error e) :
    (callRuntime (.revoke request) entropy fault disk impl).impl.flags = impl.flags := by
  refine applyRevoke_flags (e := e) h hfresh ?_
  have hmapped : (transact (applyRevoke request) fault disk impl).result.map Reply.revoked =
      .error e := hthrown
  cases hresult : (transact (applyRevoke request) fault disk impl).result with
  | error e' =>
    rw [hresult] at hmapped
    cases hmapped
    rfl
  | ok r =>
    rw [hresult] at hmapped
    cases hmapped

/-- **One step** keeps a revoked grant revoked. -/
theorem step_revoked {id : AuthorityGrantId} {host : Host} {input : Input} (hg : GrantsHost host)
    (h : RevokedForGood id host) (hfresh : FreshRevocations host input) :
    RevokedForGood id (coordinator.step host input).1 := by
  have hdisk := stored_revoked_iff.mpr h.image
  cases input with
  | «open» opening fault =>
    obtain ⟨hmemory, -, himage⟩ := openRuntime_grants opening fault hg.disk
      (P := DurableState.Revoked id) (fun s s' hs heq => hs.outgrown (.of_eq heq)) hdisk
    exact ⟨fun impl himpl => (hmemory impl himpl).2, stored_revoked_iff.mp himage⟩
  | call call entropy fault =>
    cases hruntime : host.runtime with
    | none =>
      rw [coordinator_idle hruntime]
      exact h
    | some impl =>
      have hrevoked := h.memory impl hruntime
      have hkept := callRuntime_grantsKept (hg.memory impl hruntime) call entropy fault host.disk
      rw [coordinator_call hruntime]
      refine ⟨fun impl' himpl' => ?_, stored_revoked_iff.mp
        (hkept.image _ (fun s hlater _ => hrevoked.outgrown hlater) hdisk)⟩
      cases himpl'
      by_cases hthrown : ∃ request e, call = .revoke request ∧
          (callRuntime call entropy fault host.disk impl).result = .error e
      · obtain ⟨request, e, rfl, hthrown⟩ := hthrown
        exact hrevoked.of_flags (callRuntime_flags (hg.memory impl hruntime)
          (hfresh request entropy fault rfl impl hruntime) hthrown)
      · exact hrevoked.outgrown (hkept.memory hthrown)

/-- **What is revoked and saved stays revoked**, and a revocation that throws
changes no flag, in every run in which the revocations that cannot go through
find nothing revoked below their targets. -/
theorem revokedForGood_of_fresh {host host' : Host}
    (hreach : coordinator.Reaches (fun _ _ => True) host)
    (hrun : coordinator.Leads FreshRevocations host host') :
    (∀ id, SavedRevoked id host → RevokedForGood id host') ∧
    ∀ impl request entropy fault e, host'.runtime = some impl →
      FreshRevocations host' (.call (.revoke request) entropy fault) →
      (callRuntime (.revoke request) entropy fault host'.disk impl).result = .error e →
      (callRuntime (.revoke request) entropy fault host'.disk impl).impl.flags = impl.flags := by
  have hgrants := reachable_grants hreach
  have hstep : ∀ s i, GrantsHost s → FreshRevocations s i → GrantsHost (coordinator.step s i).1 :=
    fun s i hs _ => step_grants hs i
  refine ⟨fun id hsaved => ?_, fun impl request entropy fault e himpl hfresh hthrown => ?_⟩
  · exact Machine.Leads.invariant_of hstep (fun s i hs hr hf => step_revoked hs hr hf) hrun hgrants
      hsaved.forGood
  · exact callRuntime_flags ((hrun.invariant hstep hgrants).memory impl himpl)
      (hfresh request entropy fault rfl impl himpl) hthrown

/-- A grant, delegated further, and the delegated one revoked. -/
def childRevoked : List Input := delegatedRun ++ [callOf (.revoke (testRevoke 11 (smallId 10)))]

theorem childRevoked_saved : coordinator.Reaches (fun _ _ => True)
      (coordinator.run coordinator.init childRevoked) ∧
    SavedRevoked (smallId 10) (coordinator.run coordinator.init childRevoked) := by
  have hquiet : coordinator.Reaches Quietly (coordinator.run coordinator.init childRevoked) :=
    Machine.leads_run (by decide +kernel)
  have hvalue : (coordinator.run coordinator.init childRevoked).runtime.map (fun impl =>
      decide (∃ g ∈ impl.state.grants, g.id = smallId 10 ∧ g.revoked = true)) = some true := by
    decide +kernel
  refine ⟨hquiet.mono fun _ _ _ => trivial, ?_⟩
  obtain ⟨impl, himpl, hrevoked⟩ := Option.map_eq_some_iff.mp hvalue
  obtain ⟨image, himage, hencode⟩ := (quietRun_kept hquiet).saved impl himpl
  have hchild : ∃ g ∈ impl.state.grants, g.id = smallId 10 ∧ g.revoked = true :=
    of_decide_eq_true hrevoked
  exact ⟨impl, image, himpl, himage, hencode, hchild⟩

/-- Over a restart the revocation stays. -/
theorem revokedForGood_of_fresh_test : ∃ host, SavedRevoked (smallId 10) host ∧
    RevokedForGood (smallId 10) (coordinator.step host (testOpen {} 13)).1 := by
  obtain ⟨hreach, hsaved⟩ := childRevoked_saved
  refine ⟨_, hsaved, (revokedForGood_of_fresh hreach (.tail (testOpen {} 13) .refl ?_)).1 _ hsaved⟩
  rintro request entropy fault hinput
  cases hinput

/-- **Revoking the grant above, and failing**, makes the delegated grant usable
again. -/
theorem failedRevoke_revives : ∃ host impl e, coordinator.Reaches (fun _ _ => True) host ∧
    SavedRevoked (smallId 10) host ∧ host.runtime = some impl ∧
    (callRuntime (.revoke (testRevoke 12 (smallId 9))) (testEntropy 9) (some brokenDisk) host.disk
      impl).result = .error e ∧
    (callRuntime (.revoke (testRevoke 12 (smallId 9))) (testEntropy 9) (some brokenDisk) host.disk
      impl).impl.flags ≠ impl.flags ∧
    ¬ RevokedForGood (smallId 10) (coordinator.step host
      (.call (.revoke (testRevoke 12 (smallId 9))) (testEntropy 9) (some brokenDisk))).1 := by
  obtain ⟨hreach, hsaved⟩ := childRevoked_saved
  have hvalues : ((coordinator.run coordinator.init childRevoked).runtime.map fun impl =>
      ((callRuntime (.revoke (testRevoke 12 (smallId 9))) (testEntropy 9) (some brokenDisk)
        (coordinator.run coordinator.init childRevoked).disk impl).result.toOption.isSome,
      decide ((callRuntime (.revoke (testRevoke 12 (smallId 9))) (testEntropy 9) (some brokenDisk)
        (coordinator.run coordinator.init childRevoked).disk impl).impl.flags = impl.flags),
      decide (∃ g ∈ (callRuntime (.revoke (testRevoke 12 (smallId 9))) (testEntropy 9)
        (some brokenDisk) (coordinator.run coordinator.init childRevoked).disk
          impl).impl.state.grants, g.id = smallId 10 ∧ g.revoked = true))) =
      some (false, false, false) := by decide +kernel
  generalize coordinator.run coordinator.init childRevoked = host at hvalues hreach hsaved
  obtain ⟨impl, himpl, hvalue⟩ := Option.map_eq_some_iff.mp hvalues
  simp only [Prod.mk.injEq, decide_eq_false_iff_not] at hvalue
  obtain ⟨hthrown, hflags, hrevived⟩ := hvalue
  cases hresult : (callRuntime (.revoke (testRevoke 12 (smallId 9))) (testEntropy 9)
      (some brokenDisk) host.disk impl).result with
  | ok reply =>
    rw [hresult] at hthrown
    cases hthrown
  | error e =>
    refine ⟨host, impl, e, hreach, hsaved, himpl, hresult, hflags, fun hkept => hrevived ?_⟩
    refine hkept.memory _ ?_
    rw [coordinator_call himpl]
    rfl

end FabricEpoch
