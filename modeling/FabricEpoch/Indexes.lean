import FabricEpoch.Rollbacks
import FabricEpoch.Runtime.Ordering
import FabricEpoch.SaveAtomicity

/-!
# What the indexes describe

The indexes are rebuilt at every durability barrier. A call that throws in front
of it leaves indexes behind that describe the records only where its rollback
leads back to both.

- `applyGrant_restores`, `applyRetire_restores`, ...: the rollback of the other
  operations;
- `Call.Spared`: no counter that a call needs is used up behind its first entry;
- `indexesDescribe`: in every run of spared calls, over every disk, the indexes
  are what the records give rise to;
- `strandedRun`: a registration that throws and leaves an entry behind.
-/

namespace FabricEpoch

open Table Transaction

/-! ## Operations that throw -/

section Operations

variable {x : Outline} {t t' u : Txn Impl} {e : EpochError} {entropy : Entropy}

/-! ### Grants -/

/-- A grant gets as far as its entries only if a generation is left. -/
def Impl.SparesGrant (impl : Impl) (entropy : Entropy) (request : GrantAuthorityRequest) : Prop :=
  ∀ p digest bytes, GrantAdmitted impl request p digest → entropy = .ok bytes →
    impl.state.generation.next ≠ none

theorem applyGrant_restores {request : GrantAuthorityRequest} (ht : Restores Impl.outline x t)
    (hspare : t.state.SparesGrant entropy request)
    (h : applyGrant entropy request t = .error e t') : Restores Impl.outline x t' := by
  rcases applyGrant_error h with rfl | ⟨p, digest, hadmitted, hcommit⟩
  · exact ht
  unfold commitGrant at hcommit
  rw [Action.bind_current] at hcommit
  rcases Action.bind_error.mp hcommit with hentropy | ⟨bytes, t₁, hentropy, hcommit⟩
  · obtain ⟨-, rfl⟩ := Action.ofExcept_error.mp hentropy
    exact ht
  obtain ⟨hbytes, rfl⟩ := Action.ofExcept_ok.mp hentropy
  simp only [Action.bind_modify, Action.bind_pushUndo] at hcommit
  rcases Action.bind_error.mp hcommit with hbump | ⟨⟨⟩, t₂, -, hlast⟩
  · exact absurd (bumpGeneration_error hbump).1 (hspare p digest bytes hadmitted hbytes)
  · cases hlast

/-! ### Revocations -/

theorem bumpGeneration_keeps : Keeps (Restores Impl.outline x) bumpGeneration := by
  refine Keeps.bind Keeps.read fun impl => ?_
  refine Keeps.bind (Restores.pushUndo fun _ => rfl) fun _ => Keeps.bind (Keeps.orFail _ _) fun g => ?_
  exact Restores.modify fun _ => rfl

/-- A revocation makes no entry, and its undo action makes none. -/
theorem commitRevoke_restores {request : RevokeAuthorityRequest} {digest : SnapshotDigest}
    {grant : AuthorityGrant} :
    Keeps (Restores Impl.outline x) (commitRevoke request digest grant) := by
  refine Keeps.bind Keeps.read fun impl => ?_
  refine Keeps.bind (Restores.pushUndo (Impl.unseen_undoRevoke impl grant)) fun _ => ?_
  refine Keeps.bind (Restores.modify fun s => ?_) fun _ => ?_
  · exact Impl.unseen_revokeLoop grant.id _ _ 0 s
  refine Keeps.bind bumpGeneration_keeps fun _ => Keeps.bind Keeps.read fun _ => ?_
  refine Keeps.bind (Restores.modify (Impl.unseen_updateGrant ?_ request.grant)) fun _ => ?_
  · exact fun _ => rfl
  exact Keeps.bind (Restores.modify fun _ => rfl) fun _ =>
    Keeps.bind Restores.markMutated fun _ => Keeps.pure _

theorem applyRevoke_restores {request : RevokeAuthorityRequest} :
    Keeps (Restores Impl.outline x) (applyRevoke request) := by
  unfold applyRevoke
  refine Keeps.current fun t ht => ?_
  cases t.state.malformedRevoke request with
  | some result => exact ht
  | none =>
    refine Keeps.ofExcept_bind ht fun digest _ => ?_
    cases findAttempt t.state.state.controlAttempts request.attempt with
    | some previous => exact ht
    | none =>
      cases t.state.findGrant request.grant with
      | none => exact ht
      | some grant =>
        dsimp only
        split
        · exact ht
        · exact commitRevoke_restores t ht

/-! ### Epochs -/

/-- The undo action of an epoch change brings the participants back. -/
theorem outline_undoEpoch {before s : Impl} {ps : List (ParticipantId × List WorkerBootId)}
    (h : s.outline = { before.outline with participants := ps }) :
    (before.undoEpoch s).outline = before.outline := by
  have hfences : s.state.recentFences.map (·.boot) = _ := congrArg Outline.fences h
  have hgrants : s.state.grants.map (fun g => (g.id, g.parent)) = _ := congrArg Outline.grants h
  have hparticipantIndex : s.participantIndex = _ := congrArg Outline.participantIndex h
  have hbootIndex : s.bootIndex = _ := congrArg Outline.bootIndex h
  have hfenceIndex : s.fenceIndex = _ := congrArg Outline.fenceIndex h
  have hgrantIndex : s.grantIndex = _ := congrArg Outline.grantIndex h
  have hgrantChildren : s.grantChildren = _ := congrArg Outline.grantChildren h
  have hworkers : s.activeWorkers = _ := congrArg Outline.activeWorkers h
  show Outline.mk _ (s.state.recentFences.map (·.boot)) (s.state.grants.map _) s.participantIndex
    s.bootIndex s.fenceIndex s.grantIndex s.grantChildren s.activeWorkers = _
  rw [hfences, hgrants, hparticipantIndex, hbootIndex, hfenceIndex, hgrantIndex, hgrantChildren,
    hworkers]
  rfl

/-- An epoch change that throws leads back. -/
theorem mutateEpoch_restores {boot : CoordinatorBootId} {cause : EpochTransitionCause}
    {invalidate : Bool} (ht : Restores Impl.outline x t)
    (h : mutateEpoch entropy boot cause invalidate t = .error e t') :
    Restores Impl.outline x t' := by
  unfold mutateEpoch at h
  rw [Action.bind_current] at h
  rcases Action.bind_error.mp h with hthrow | ⟨epoch, t₁, horfail, h⟩
  · obtain ⟨-, -, rfl⟩ := Action.orFail_error.mp hthrow
    exact ht
  obtain ⟨-, rfl⟩ := Action.orFail_ok.mp horfail
  simp only [Action.bind_modify, Action.bind_pushUndo] at h
  rcases Action.bind_error.mp h with hthrow | ⟨generation, t₂, horfail, h⟩
  · obtain ⟨-, -, rfl⟩ := Action.orFail_error.mp hthrow
    exact ht.push (fun s hs => outline_undoEpoch hs) rfl
  obtain ⟨-, rfl⟩ := Action.orFail_ok.mp horfail
  simp only [Action.bind_modify] at h
  rcases Action.bind_error.mp h with hthrow | ⟨id, t₃, -, hlast⟩
  · obtain ⟨-, rfl⟩ := Action.ofExcept_error.mp hthrow
    -- with or without the live incarnations, the undo action looks at the rest
    cases invalidate with
    | false => exact ht.push (fun s hs => outline_undoEpoch hs) rfl
    | true => exact ht.push (fun s hs => outline_undoEpoch hs) rfl
  · cases hlast

theorem advanceEpoch_restores {request : EpochAdvanceRequest} (ht : Restores Impl.outline x t)
    (h : advanceEpoch entropy request t = .error e t') : Restores Impl.outline x t' := by
  unfold advanceEpoch at h
  rw [Action.bind_current] at h
  split at h
  · cases h
  rcases Action.bind_error.mp h with hdigest | ⟨digest, t₁, hdigest, h⟩
  · obtain ⟨-, rfl⟩ := Action.ofExcept_error.mp hdigest
    exact ht
  obtain ⟨-, rfl⟩ := Action.ofExcept_ok.mp hdigest
  cases hattempt : findAttempt t₁.state.state.controlAttempts request.attempt with
  | some previous =>
    simp only [hattempt] at h
    cases h
  | none =>
  cases hrefused : t₁.state.refusedAdvance request with
  | some result =>
    simp only [hattempt, hrefused] at h
    cases h
  | none =>
    simp only [hattempt, hrefused] at h
    unfold commitAdvance at h
    rw [Action.bind_current] at h
    rcases Action.bind_error.mp h with hmutate | ⟨⟨⟩, t₂, -, hlast⟩
    · exact mutateEpoch_restores ht hmutate
    · cases hlast

/-! ### Fences -/

/-- A fence by request that throws has done nothing, or its fence throws. -/
theorem fenceWorker_error {request : FenceWorkerRequest} (h : fenceWorker request t = .error e t') :
    t' = t ∨ ∃ p digest, FenceAdmitted t.state request p digest ∧
      recordFence request.participant request.boot request.reason request.note true t =
        .error e t' := by
  unfold fenceWorker at h
  rw [Action.bind_current] at h
  cases hmalformed : t.state.malformedFence request with
  | some result =>
    simp only [hmalformed] at h
    cases h
  | none =>
  cases hfound : t.state.findParticipant request.participant with
  | none =>
    simp only [hmalformed, hfound] at h
    cases h
  | some p =>
  simp only [hmalformed, hfound] at h
  rcases Action.bind_error.mp h with hdigest | ⟨digest, t₁, hdigest, h⟩
  · exact .inl (Action.ofExcept_error.mp hdigest).2
  obtain ⟨hsemantic, rfl⟩ := Action.ofExcept_ok.mp hdigest
  cases hattempt : findAttempt p.idempotency request.attempt with
  | some previous =>
    simp only [hattempt] at h
    cases h
  | none =>
    simp only [hattempt] at h
    refine .inr ⟨p, digest, ⟨hmalformed, hfound, hsemantic, hattempt⟩, ?_⟩
    rcases Action.bind_error.mp h with hfence | ⟨r, t₂, -, hlast⟩
    · exact hfence
    · cases hlast

/-- A session that is closed throws where its fence throws. -/
theorem fenceSession_error {session : SessionId} {binding : SessionBinding}
    {reason : SessionClosureReason} (h : fenceSession session binding reason t = .error e t') :
    t.state.options.fenceOnSessionLoss = true ∧
      recordFence binding.participant binding.boot reason.fenceReason .blank false t =
        .error e t' := by
  unfold fenceSession at h
  rw [Action.bind_current] at h
  split at h
  · cases h
  next hfences =>
  cases hfound : t.state.findParticipant binding.participant with
  | none =>
    simp only [hfound] at h
    cases h
  | some p =>
  cases hlive : p.findIncarnation binding.boot with
  | none =>
    simp only [hfound, hlive] at h
    cases h
  | some i =>
    simp only [hfound, hlive] at h
    exact ⟨by simpa using hfences, h⟩

/-! ### Retirements -/

namespace Impl

/-- How many fences of `n` boots are recorded, should a counter run out on the
way: the one that finds no generation is. -/
def fencesRecorded (impl : Impl) (n : Nat) : Nat :=
  min n (min (maxValue - impl.state.fenceFloor.value) (maxValue - impl.state.generation.value + 1))

/-- The fences of `n` boots have room in the ring, or every counter that is needed
with them and behind them. -/
def SparesFences (impl : Impl) (n : Nat) : Prop :=
  impl.state.recentFences.length + impl.fencesRecorded n ≤ impl.options.limits.maxRecentFences ∨
    impl.state.fenceFloor.value + n ≤ maxValue ∧ impl.state.generation.value + n < maxValue

end Impl

variable {id : ParticipantId} {note : BoundedText} {boots : List WorkerBootId}

/-- Fences that have room can be undone, one after the other. -/
theorem fenceAll_restores {before : Impl} (ht : Anchored before t) (hbefore : before.Exact)
    (hrestores : Restores Impl.outline x t)
    (hroom : t.state.state.recentFences.length + t.state.fencesRecorded boots.length ≤
      t.state.options.limits.maxRecentFences) :
    Restores Impl.outline x (after (fenceAll id note boots t)) := by
  induction boots generalizing t with
  | nil => exact hrestores
  | cons boot boots ih =>
    have hexact := ht.exact hbefore
    have hroom' : t.state.state.fenceFloor.next ≠ none → t.state.RingHasRoom := by
      intro hfloor
      have hmax := t.state.state.fenceFloor.le_max
      have hne : t.state.state.fenceFloor.value ≠ maxValue :=
        fun h => hfloor (MonotonicCounter.next_eq_none.mpr h)
      unfold Impl.fencesRecorded at hroom
      unfold Impl.RingHasRoom
      rw [List.length_cons] at hroom
      omega
    rw [fenceAll, Action.bind_run]
    cases hfence : recordFence id boot .administrativeRevoke note false t with
    | error e t' =>
      exact recordFence_restores hrestores hexact (fun _ _ _ _ _ h => .inl (hroom' h)) hfence
    | ok r t₁ =>
      have hanchored : Anchored before t₁ := by
        have hkeeps := (Anchored.primitives _).recordFence id boot .administrativeRevoke note false t ht
        rw [hfence] at hkeeps
        exact hkeeps
      have hundone := recordFence_undone hrestores hexact hroom' hfence
      have hrest : t₁.state.state.recentFences.length + t₁.state.fencesRecorded boots.length ≤
          t₁.state.options.limits.maxRecentFences := by
        unfold Impl.fencesRecorded at hroom ⊢
        rw [List.length_cons] at hroom
        rcases recordFence_step hfence with rfl | hstep
        · omega
        · have hfloor := hstep.floor
          have hgeneration := hstep.generation
          have hring := hstep.ring
          have hf := t₁.state.state.fenceFloor.le_max
          have hg := t₁.state.state.generation.le_max
          rw [hstep.options]
          omega
      show Restores Impl.outline x (after ((Action.current >>= _) t₁))
      rw [Action.bind_current]
      split
      · exact hundone
      · rw [Action.bind_run]
        have hothers := ih hanchored hundone hrest
        cases hrun : fenceAll id note boots t₁ with
        | error e t' =>
          rw [hrun] at hothers
          exact hothers
        | ok n u =>
          rw [hrun] at hothers
          exact hothers

/-- Fences that have their counters return, and leave a generation. -/
theorem fenceAll_returns (hfind : t.state.findParticipant id ≠ none)
    (hfloor : t.state.state.fenceFloor.value + boots.length ≤ maxValue)
    (hgeneration : t.state.state.generation.value + boots.length < maxValue) :
    ∃ n u, fenceAll id note boots t = .ok n u ∧ u.state.state.generation.value < maxValue := by
  induction boots generalizing t with
  | nil => exact ⟨0, t, rfl, hgeneration⟩
  | cons boot boots ih =>
    rw [List.length_cons] at hfloor hgeneration
    rw [fenceAll, Action.bind_run]
    cases hfence : recordFence id boot .administrativeRevoke note false t with
    | error e t' =>
      exfalso
      rcases recordFence_spent hfence with hspent | hspent
      · have hvalue := MonotonicCounter.next_eq_none.mp hspent
        omega
      · have hvalue := MonotonicCounter.next_eq_none.mp hspent
        omega
    | ok r t₁ =>
      have hkept : t₁.state.findParticipant id ≠ none := by
        have hframe := frame_of_run (fun _ => Reads.recordFence (nextOf_fence id) _ _ _ _ _) hfence
        intro hnone
        rw [hnone] at hframe
        exact hfind (Option.map_eq_none_iff.mp hframe.symm)
      have hcounters : t₁.state.state.fenceFloor.value ≤ t.state.state.fenceFloor.value + 1 ∧
          t₁.state.state.generation.value ≤ t.state.state.generation.value + 1 := by
        rcases recordFence_step hfence with rfl | hstep
        · exact ⟨Nat.le_succ _, Nat.le_succ _⟩
        · exact ⟨Nat.le_of_eq hstep.floor, Nat.le_of_eq hstep.generation⟩
      obtain ⟨n, u, hrun, hleft⟩ := ih hkept (by omega) (by omega)
      refine ⟨(if r.outcome = .fenced ∨ r.outcome = .alreadyFenced then 1 else 0) + n, u, ?_, hleft⟩
      show (Action.current >>= _) t₁ = _
      rw [Action.bind_current, if_neg (by simpa using hkept), Action.bind_run, hrun]
      rfl

/-- A retirement that throws has done nothing, or its part that mutates throws. -/
theorem applyRetire_error {request : RetireParticipantRequest}
    (h : applyRetire request t = .error e t') :
    t' = t ∨ ∃ p digest, RetireAdmitted t.state request p digest ∧
      commitRetire request digest p t = .error e t' := by
  unfold applyRetire at h
  rw [Action.bind_current] at h
  cases hmalformed : t.state.malformedRetire request with
  | some result =>
    simp only [hmalformed] at h
    cases h
  | none =>
  cases hfound : t.state.findParticipant request.participant with
  | none =>
    simp only [hmalformed, hfound] at h
    cases h
  | some p =>
  simp only [hmalformed, hfound] at h
  rcases Action.bind_error.mp h with hdigest | ⟨digest, t₁, hdigest, h⟩
  · exact .inl (Action.ofExcept_error.mp hdigest).2
  obtain ⟨hsemantic, rfl⟩ := Action.ofExcept_ok.mp hdigest
  cases hattempt : findAttempt p.idempotency request.attempt with
  | some previous =>
    simp only [hattempt] at h
    cases h
  | none =>
    simp only [hattempt] at h
    split at h
    · cases h
    next hretired =>
    exact .inr ⟨p, digest,
      ⟨hmalformed, hfound, hsemantic, hattempt, by simpa using hretired⟩, h⟩

/-- The fences of a retirement are spared. -/
def Impl.SparesRetire (impl : Impl) (request : RetireParticipantRequest) : Prop :=
  ∀ p digest, RetireAdmitted impl request p digest → impl.SparesFences p.liveBoots.length

/-- Where the part of a retirement that mutates can throw. -/
theorem commitRetire_error {request : RetireParticipantRequest} {digest : SnapshotDigest}
    {p : DurableParticipant} (h : commitRetire request digest p t = .error e t') :
    fenceAll request.participant request.note p.liveBoots t = .error e t' ∨
      ∃ n t₁ fenced g, fenceAll request.participant request.note p.liveBoots t = .ok n t₁ ∧
        t₁.state.state.generation.next = none ∧
        t' = ⟨t₁.state.updateParticipant request.participant (·.retire), Impl.setGeneration g ::
          Impl.rawUpdateParticipant request.participant (DurableParticipant.restoreRetirement fenced) ::
            t₁.undo, t₁.mutated⟩ := by
  rcases Action.bind_error.mp h with hthrow | ⟨n, t₁, hrun, hrest⟩
  · exact .inl hthrow
  simp only [Action.bind_current, Action.bind_pushUndo, Action.bind_modify] at hrest
  rcases Action.bind_error.mp hrest with hbump | ⟨⟨⟩, t₂, -, hlast⟩
  swap
  · cases hlast
  obtain ⟨hspent, rfl⟩ := bumpGeneration_error hbump
  refine .inr ⟨n, t₁, _, _, hrun, ?_, rfl⟩
  rw [← hspent]
  exact congrArg MonotonicCounter.next (generation_updateParticipant _ _ _).symm

theorem applyRetire_restores {request : RetireParticipantRequest} {before : Impl}
    (ht : Anchored before t) (hbefore : before.Exact) (hrestores : Restores Impl.outline x t)
    (hspare : t.state.SparesRetire request) (h : applyRetire request t = .error e t') :
    Restores Impl.outline x t' := by
  rcases applyRetire_error h with rfl | ⟨p, digest, hadmitted, hcommit⟩
  · exact hrestores
  rcases hspare p digest hadmitted with hroom | ⟨hfloor, hgeneration⟩
  · have hfences : Restores Impl.outline x
        (after (fenceAll request.participant request.note p.liveBoots t)) :=
      fenceAll_restores ht hbefore hrestores hroom
    rcases commitRetire_error hcommit with hthrow | ⟨n, t₁, fenced, g, hrun, -, rfl⟩
    · rw [hthrow] at hfences
      exact hfences
    · rw [hrun] at hfences
      -- the record of the retirement is not seen
      have hretired : Restores Impl.outline x
          ⟨t₁.state.updateParticipant request.participant (·.retire),
            Impl.rawUpdateParticipant request.participant
              (DurableParticipant.restoreRetirement fenced) :: t₁.undo, t₁.mutated⟩ := by
        refine Restores.push (show Restores Impl.outline x t₁ from hfences) (fun s hs => ?_) rfl
        refine ((Impl.unseen_rawUpdateParticipant ?_ request.participant s).trans hs).trans
          (Impl.unseen_updateParticipant (fun p => p.keys_retire) _ _)
        exact fun q => q.keys_restoreRetirement fenced
      exact restores_bump hretired
  · -- every counter is there, and nothing throws
    exfalso
    have hfind : t.state.findParticipant request.participant ≠ none := by
      rw [hadmitted.found]
      exact Option.some_ne_none p
    obtain ⟨n, u, hrun, hleft⟩ : ∃ n u, fenceAll request.participant request.note p.liveBoots t =
        .ok n u ∧ u.state.state.generation.value < maxValue :=
      fenceAll_returns hfind hfloor hgeneration
    rcases commitRetire_error hcommit with hthrow | ⟨n', t₁, -, -, hrun', hspent, -⟩
    · rw [hrun] at hthrow
      cases hthrow
    · rw [hrun] at hrun'
      cases hrun'
      exact absurd (MonotonicCounter.next_eq_none.mp hspent) (Nat.ne_of_lt hleft)

end Operations

/-! ## Calls -/

/-- What a call needs of the counters and of the ring so that its rollback, should
it throw, leads back. -/
def Call.Spared (entropy : Entropy) (impl : Impl) : Call → Prop
  | .register request => impl.SparesRegistration request
  | .registerBatch requests => AlongBatch Impl.SustainsRegistration requests (Txn.start impl)
  | .fence request => ∀ p digest, FenceAdmitted impl request p digest →
      impl.SparesFence request.participant request.boot
  | .grant request => impl.SparesGrant entropy request
  | .retire request => impl.SparesRetire request
  | .close session _ => impl.options.fenceOnSessionLoss = true →
      ∀ binding, (impl.sessionIndex.find? fun s => s.id = session) = some binding →
        impl.SparesFence binding.participant binding.boot
  | .revoke _ | .advance _ | .bind _ | .flush => True

variable {impl : Impl}

/-- **An operation behind its barrier** leaves indexes that match, if its undo
actions lead back where it throws. -/
theorem transact_matches {α : Type} {op : Op α} (hmatch : impl.IndexesMatch)
    (hok : ∀ a u, op (Txn.start impl) = .ok a u → Rises (Txn.start impl) u)
    (herror : ∀ e u, op (Txn.start impl) = .error e u → Restores Impl.outline impl.outline u)
    (fault : Option SaveFault) (disk : Disk) :
    (transact op fault disk impl).impl.IndexesMatch := by
  unfold transact
  cases hr : op (Txn.start impl) with
  | error e u => exact hmatch.of_outline (herror e u hr).rollback
  | ok a u =>
    simp only
    split
    · -- whether the save fails or not, the indexes are rebuilt behind it
      unfold persist
      dsimp only
      split
      · rfl
      · rfl
    · next hidle =>
      rcases hok a u hr with rfl | ⟨hmutated, -⟩
      · exact hmatch
      · exact absurd hmutated hidle

theorem callRuntime_matches {call : Call} {entropy : Entropy} (hmatch : impl.IndexesMatch)
    (hfind : impl.Findable) (hn : impl.ids.Nodup) (hspared : call.Spared entropy impl)
    (fault : Option SaveFault) (disk : Disk) :
    (callRuntime call entropy fault disk impl).impl.IndexesMatch := by
  have hexact := hmatch.exact hn
  have hstart : Restores Impl.outline impl.outline (Txn.start impl) := .start impl
  cases call with
  | register request =>
    refine transact_matches hmatch (fun _ _ => applyRegistration_rises) (fun e u h => ?_) fault disk
    exact applyRegistration_restores (.start hfind) hexact hstart hspared h
  | registerBatch requests =>
    refine transact_matches hmatch (fun _ _ => registerBatch_rises rfl) (fun e u h => ?_) fault disk
    obtain ⟨rs, v, hrun⟩ := registerBatch_returns hspared
    rw [hrun] at h
    cases h
  | fence request =>
    refine transact_matches hmatch (fun _ _ => fenceWorker_rises rfl) (fun e u h => ?_) fault disk
    rcases fenceWorker_error h with rfl | ⟨p, digest, hadmitted, hfence⟩
    · exact hstart
    · exact recordFence_restores hstart hexact (hspared p digest hadmitted) hfence
  | grant request =>
    refine transact_matches hmatch (fun _ _ => applyGrant_rises) (fun e u h => ?_) fault disk
    exact applyGrant_restores hstart hspared h
  | revoke request =>
    refine transact_matches hmatch (fun _ _ => applyRevoke_rises) (fun e u h => ?_) fault disk
    have hkeeps : Restores Impl.outline impl.outline (after (applyRevoke request (Txn.start impl))) :=
      applyRevoke_restores _ hstart
    rw [h] at hkeeps
    exact hkeeps
  | advance request =>
    refine transact_matches hmatch (fun _ _ => advanceEpoch_rises) (fun e u h => ?_) fault disk
    exact advanceEpoch_restores hstart h
  | retire request =>
    refine transact_matches hmatch (fun _ _ => applyRetire_rises) (fun e u h => ?_) fault disk
    exact applyRetire_restores (.start hfind) hexact hstart hspared h
  | bind binding =>
    rw [callRuntime]
    unfold Impl.bindSession
    split
    · exact hmatch
    · next accepted impl' hr =>
      split at hr
      · cases hr
        exact hmatch
      · split at hr
        · cases hr
        · cases hr
          exact hmatch.of_sessions _ _
  | close session reason =>
    show (closeSession session reason fault disk impl).impl.IndexesMatch
    unfold closeSession
    split
    · exact hmatch
    · next binding hbinding =>
      have herased : (impl.eraseSession binding).IndexesMatch := hmatch.of_sessions _ _
      refine transact_matches herased (fun _ _ => fenceSession_rises) (fun e u h => ?_) fault disk
      obtain ⟨hfences, hfence⟩ := fenceSession_error h
      refine recordFence_restores (.start _) (herased.exact hn) ?_ hfence
      exact hspared hfences binding hbinding
  | flush =>
    rw [callRuntime]
    split <;> exact hmatch

/-- No call names a participant twice. -/
theorem callRuntime_nodup (call : Call) (entropy : Entropy) (fault : Option SaveFault) (disk : Disk)
    (hmatch : impl.IndexesMatch) (h : impl.Findable) (hn : impl.ids.Nodup) :
    (callRuntime call entropy fault disk impl).impl.ids.Nodup := by
  have hexact := hmatch.exact hn
  cases call with
  | register request =>
    exact transact_nodup (stepwise_applyRegistration request true).composed fault disk h hexact
  | registerBatch requests =>
    exact transact_nodup (stepwise_registerBatch requests).composed fault disk h hexact
  | fence request => exact transact_nodup (stepwise_fenceWorker request).composed fault disk h hexact
  | grant request =>
    exact transact_nodup (composed_applyGrant entropy request) fault disk h hexact
  | revoke request => exact transact_nodup (composed_applyRevoke request) fault disk h hexact
  | advance request =>
    exact transact_nodup (stepwise_advanceEpoch entropy request).composed fault disk h hexact
  | retire request => exact transact_nodup (stepwise_applyRetire request).composed fault disk h hexact
  | bind binding =>
    rw [callRuntime]
    unfold Impl.bindSession
    split
    · exact hn
    · next accepted impl' hr =>
      split at hr
      · cases hr
        exact hn
      · split at hr
        · cases hr
        · cases hr
          exact hn
  | close session reason =>
    show (closeSession session reason fault disk impl).impl.ids.Nodup
    unfold closeSession
    split
    · exact hn
    · next binding _ =>
      exact transact_nodup (stepwise_fenceSession session binding reason).composed fault disk
        (h.of_state rfl rfl) ((hmatch.of_sessions _ _ : (impl.eraseSession binding).IndexesMatch).exact hn)
  | flush =>
    rw [callRuntime]
    split <;> exact hn

/-- **An opening** builds its indexes, and builds them again behind its barrier. -/
theorem openRuntime_matches {opening : Opening} {fault : Option SaveFault} {disk : Disk}
    (h : (openRuntime opening fault disk).1 = some impl) :
    impl.IndexesMatch ∧ impl.ids.Nodup := by
  unfold openRuntime at h
  split at h
  · cases h
  next state boot hr =>
  obtain ⟨-, hload, -⟩ := loadRuntime_ok hr
  generalize hopened : Impl.ofState { opening.options with coordinatorBoot := some boot } state =
    opened at h
  have hmatch : opened.IndexesMatch := hopened ▸ rfl
  have hn : opened.ids.Nodup := hopened ▸ nodup_of_load hload
  have hfind : opened.Findable := hopened ▸ Impl.findable_rebuildIndexes _
  dsimp only at h
  split at h
  · split at h
    · cases h
    · cases h
      refine ⟨?_, transact_nodup (stepwise_establishEpoch _ _ _ _).composed fault disk hfind
        (hmatch.exact hn)⟩
      refine transact_matches hmatch (fun _ u hrun => ?_) (fun e u hrun => ?_) fault disk
      · obtain ⟨⟨⟩, t, hmutate, hmark⟩ := Action.bind_ok.mp hrun
        cases hmark
        have hlt := mutateEpoch_generation hmutate
        exact .inr ⟨rfl, hlt⟩
      · rcases Action.bind_error.mp hrun with hmutate | ⟨⟨⟩, t, -, hmark⟩
        · exact mutateEpoch_restores (.start opened) hmutate
        · cases hmark
  · split at h
    · cases h
      exact ⟨hmatch, hn⟩
    · cases h

/-! ## Runs -/

namespace Impl

/-- Every position that is stored is the position of a record with that key, and
what is found over an index is what a scan of the records finds. -/
structure IndexesAgree (impl : Impl) : Prop where
  participants : ∀ id i, impl.participantIndex id = some i ↔
    ∃ p, impl.state.participants[i]? = some p ∧ p.id = id
  boots : ∀ boot i, impl.bootIndex boot = some i →
    ∃ p, impl.state.participants[i]? = some p ∧ boot ∈ p.liveBoots
  unbound : ∀ boot, impl.bootIndex boot = none ↔ ∀ p ∈ impl.state.participants, boot ∉ p.liveBoots
  fences : ∀ boot i, i ∈ impl.fenceIndex boot ↔
    ∃ f, impl.state.recentFences[i]? = some f ∧ f.boot = boot
  grants : ∀ id i, impl.grantIndex id = some i → ∃ g, impl.state.grants[i]? = some g ∧ g.id = id
  ungranted : ∀ id, impl.grantIndex id = none ↔ ∀ g ∈ impl.state.grants, g.id ≠ id
  children : ∀ id i, i ∈ impl.grantChildren id ↔
    ∃ g, impl.state.grants[i]? = some g ∧ g.parent = some id
  workers : impl.activeWorkers = (impl.state.participants.map (·.liveBoots.length)).sum
  find : ∀ id, impl.findParticipant id = impl.state.lookup id

theorem IndexesMatch.agree (h : impl.IndexesMatch) (hn : impl.ids.Nodup) : impl.IndexesAgree := by
  have hindexed : impl.Indexed := by
    have hrebuilt := Indexed.rebuild hn
    rwa [h] at hrebuilt
  rw [← h]
  refine ⟨fun id i => ?_, fun boot i hi => indexBy_eq_some hi, fun boot => indexBy_eq_none,
    fun boot i => ?_, fun id i hi => ?_, fun id => ?_, fun id i => ?_, rfl, fun id => ?_⟩
  · rw [h, hindexed id i, ids_getElem?]
    exact Option.map_eq_some_iff
  · show i ∈ groupBy _ _ boot ↔ _
    rw [mem_groupBy]
    simp only [List.mem_singleton, eq_comm]
    rfl
  · obtain ⟨g, hg, hid⟩ := indexBy_eq_some (show indexBy (fun g => [g.id]) impl.state.grants id =
      some i from hi)
    exact ⟨g, hg, (List.mem_singleton.mp hid).symm⟩
  · show indexBy _ _ id = none ↔ _
    rw [indexBy_eq_none]
    simp only [List.mem_singleton, ne_eq, eq_comm]
    rfl
  · show i ∈ groupBy _ _ id ↔ _
    rw [mem_groupBy]
    simp only [Option.mem_toList, Option.mem_def]
    rfl
  · rw [h]
    exact hindexed.find id

end Impl

/-- A call of the open runtime is spared. -/
def Sparing (host : Host) : Input → Prop
  | .open .. => True
  | .call call entropy _ => ∀ impl, host.runtime = some impl → call.Spared entropy impl

/-- **The indexes describe the records** in every run of spared calls, over every
disk, whatever throws. -/
theorem indexesDescribe (disk : Disk) {host : Host}
    (h : coordinator.Leads Sparing ⟨disk, none⟩ host) {impl : Impl}
    (himpl : host.runtime = some impl) : impl.IndexesMatch ∧ impl.IndexesAgree := by
  have hinv : ∀ impl ∈ host.runtime, impl.Findable ∧ impl.IndexesMatch ∧ impl.ids.Nodup := by
    refine h.invariant (I := fun host => ∀ impl ∈ host.runtime,
      impl.Findable ∧ impl.IndexesMatch ∧ impl.ids.Nodup) (fun host input ih hspared => ?_)
      (fun _ hi => by cases hi)
    intro impl' himpl'
    have hstep : impl' ∈ (stepRuntime input host.disk host.runtime).1 := himpl'
    cases input with
    | «open» opening fault => exact ⟨openRuntime_findable hstep, openRuntime_matches hstep⟩
    | call call entropy fault =>
      cases hr : host.runtime with
      | none =>
        rw [hr] at hstep
        cases hstep
      | some impl =>
        rw [hr] at hstep
        cases hstep
        obtain ⟨hfind, hmatch, hn⟩ := ih impl hr
        exact ⟨callRuntime_findable call entropy fault host.disk hfind,
          callRuntime_matches hmatch hfind hn (hspared impl hr) fault host.disk,
          callRuntime_nodup call entropy fault host.disk hmatch hfind hn⟩
  obtain ⟨-, hmatch, hn⟩ := hinv impl himpl
  exact ⟨hmatch, hmatch.agree hn⟩

/-- Every counter that a registration takes from has two steps left. -/
def Impl.CountersHaveRoom (impl : Impl) : Prop :=
  impl.state.registrationFloor.next ≠ none ∧ impl.state.generation.value + 2 ≤ maxValue ∧
    ∀ p ∈ impl.state.participants, p.nextIncarnation.next ≠ none

instance (impl : Impl) : Decidable impl.CountersHaveRoom := instDecidableAnd

/-- Far from the end of the counters every registration is spared. -/
theorem sparesRegistration_of_room {impl : Impl} (h : impl.CountersHaveRoom)
    (request : RegisterParticipantRequest) : impl.SparesRegistration request := by
  intro _ _ digest _
  obtain ⟨hfloor, hgeneration, hissued⟩ := h
  have hnext : impl.state.generation.next ≠ none := by
    intro hspent
    have hvalue := MonotonicCounter.next_eq_none.mp hspent
    omega
  refine ⟨fun _ => ⟨hfloor, hnext⟩, fun p hp _ => ⟨fun _ => .inr (.inr hnext), fun _ => ?_⟩⟩
  refine ⟨fun _ _ _ _ _ _ _ _ => .inr hnext, fun g hg _ => ⟨.inr ⟨hfloor, ?_⟩, .inl fun hspent => ?_⟩⟩
  · obtain ⟨i, -, hi⟩ := Impl.findParticipant_eq_some.mp hp
    exact hissued p (List.mem_of_getElem? hi)
  · have hvalue := MonotonicCounter.next_eq_some hg
    have hmax := MonotonicCounter.next_eq_none.mp hspent
    omega

/-- An opening, or a registration far from the end of the counters. -/
def Roomy (host : Host) : Input → Prop
  | .open .. => True
  | .call (.register _) .. => ∀ impl ∈ host.runtime, impl.CountersHaveRoom
  | .call .. => False

instance (host : Host) : (input : Input) → Decidable (Roomy host input)
  | .open .. => .isTrue trivial
  | .call (.register _) .. =>
    inferInstanceAs (Decidable (∀ impl ∈ host.runtime, impl.CountersHaveRoom))
  | .call (.registerBatch _) .. | .call (.fence _) .. | .call (.grant _) .. | .call (.revoke _) ..
  | .call (.advance _) .. | .call (.retire _) .. | .call (.bind _) .. | .call (.close _ _) ..
  | .call .flush .. => .isFalse id

theorem Roomy.sparing {host : Host} {input : Input} (h : Roomy host input) : Sparing host input := by
  cases input with
  | «open» opening fault => trivial
  | call call entropy fault =>
    cases call with
    | register request => exact fun impl hi => sparesRegistration_of_room (h impl hi) request
    | _ => exact h.elim

/-- Register a boot, and replace it while the disk fails. -/
def replacedUnsaved : List Input :=
  [testOpen { replacementPolicy := .replaceIncumbent } 1,
    callOf (.register (testRegister 1 (testParticipant "p") (smallId 11))),
    .call (.register (testRegister 2 (testParticipant "p") (smallId 12))) (testEntropy 7)
      (some EpochStore.watermarkFault)]

theorem indexesDescribe_test : ∃ impl,
    (coordinator.run ⟨.blank, none⟩ replacedUnsaved).runtime = some impl ∧
      impl.IndexesMatch ∧ impl.IndexesAgree := by
  have hroomy : coordinator.Allows Roomy ⟨.blank, none⟩ replacedUnsaved := by decide +kernel
  have hsome : (coordinator.run ⟨.blank, none⟩ replacedUnsaved).runtime.isSome = true := by
    decide +kernel
  obtain ⟨impl, himpl⟩ := Option.isSome_iff_exists.mp hsome
  have hleads := (Machine.leads_run hroomy).mono fun _ _ => Roomy.sparing
  exact ⟨impl, himpl, indexesDescribe .blank hleads himpl⟩

/-! ## An entry that is left behind -/

/-- A store whose generation is used up. -/
def spentStore : DurableState :=
  { EpochStore.openedOnce with generation := ⟨maxValue, Nat.le_refl _⟩ }

theorem spentStore_storable : StorableState spentStore := by
  constructor <;> simp [spentStore, EpochStore.openedOnce]
  · decide
  · constructor <;> simp [kAbsoluteMaxRecords]

set_option maxRecDepth 8192 in
/-- Some disk holds it. -/
theorem spentStore_loaded : ∃ disk,
    EpochStore.load (EpochStore.runtimeOptions defaultLimits) disk = .ok spentStore := by
  have hpayload : ∃ payload, encodeDurablePayload spentStore = .ok payload ∧
      payload.length ≤ EpochStore.kAbsoluteMaxPayloadLength := ⟨_, rfl, by decide⟩
  obtain ⟨payload, he, hlen⟩ := hpayload
  have hceiling : EpochStore.kAbsoluteMaxPayloadLength < 2 ^ 32 := by decide
  have hencode : EpochStore.encode spentStore = .ok (EpochStore.frame payload) :=
    EpochStore.encode_ok.mpr ⟨payload, validateDurableState_ok.mp (by decide), he, by omega, rfl⟩
  refine ⟨⟨some (EpochStore.frame payload), none⟩, (EpochStore.load_iff hencode rfl).mpr
    ⟨⟨spentStore_storable, by decide, ?_⟩, Nat.zero_le _⟩⟩
  rw [EpochStore.length_frame]
  omega

/-- Open a store in the epoch it is in. -/
def keepEpoch : Opening :=
  ⟨{ advanceEpochOnOpen := false }, testEntropy 1, testEntropy 1⟩

/-- The runtime over the store whose generation is used up. -/
def spentRuntime : Impl :=
  Impl.ofState { keepEpoch.options with coordinatorBoot := some (smallId 1) } spentStore

/-- **A registration that throws leaves an entry behind**: the participant is
taken back, its entry in the index is not. -/
theorem strandedRun : ∃ disk host impl,
    coordinator.Leads (fun _ _ => True) ⟨disk, none⟩ host ∧ host.runtime = some impl ∧
      ¬ impl.IndexesMatch := by
  obtain ⟨disk, hload⟩ := spentStore_loaded
  have hopen : openRuntime keepEpoch none disk = (some spentRuntime, disk, .ok .opened) := by
    have hloaded : loadRuntime keepEpoch disk = .ok (spentStore, smallId 1) := by
      show (EpochStore.load (EpochStore.runtimeOptions defaultLimits) disk >>= _) = _
      rw [hload]
      rfl
    unfold openRuntime
    rw [hloaded]
    rfl
  let request := testRegister 1 (testParticipant "p") (smallId 11)
  have hthrow : (match applyRegistration request true (Txn.start spentRuntime) with
      | .error _ t => (t.rollback.participantIndex (testParticipant "p"),
          t.rollback.state.participants.length)
      | .ok _ _ => (none, 0)) = (some 0, 0) := by decide +kernel
  cases hrun : applyRegistration request true (Txn.start spentRuntime) with
  | ok r u =>
    rw [hrun] at hthrow
    cases hthrow
  | error e t =>
    rw [hrun] at hthrow
    obtain ⟨hentry, hlength⟩ := Prod.mk.inj hthrow
    have hcall : callRuntime (.register request) (testEntropy 7) none disk spentRuntime =
        ⟨t.rollback, disk, .error e⟩ := by
      simp only [callRuntime, transact, hrun]
      rfl
    have hleads : coordinator.Leads (fun _ _ => True) ⟨disk, none⟩ ⟨disk, some t.rollback⟩ := by
      have hopened : (coordinator.step ⟨disk, none⟩ (.open keepEpoch none)).1 =
          ⟨disk, some spentRuntime⟩ := by
        show (Host.mk (openRuntime keepEpoch none disk).2.1 (openRuntime keepEpoch none disk).1) = _
        rw [hopen]
      have hfirst : coordinator.Leads (fun _ _ => True) ⟨disk, none⟩
          (coordinator.step ⟨disk, none⟩ (.open keepEpoch none)).1 := .tail _ .refl trivial
      rw [hopened] at hfirst
      have hsecond := hfirst.tail (.call (.register request) (testEntropy 7) none) trivial
      rw [coordinator_call rfl, hcall] at hsecond
      exact hsecond
    refine ⟨disk, _, t.rollback, hleads, rfl, fun hmatch => ?_⟩
    -- no record is left for the entry
    have hnil : t.rollback.state.participants = [] := List.length_eq_zero_iff.mp hlength
    rw [← hmatch] at hentry
    obtain ⟨p, hp, -⟩ := indexBy_eq_some (show indexBy (fun p => [p.id])
      t.rollback.state.participants (testParticipant "p") = some 0 from hentry)
    rw [hnil] at hp
    cases hp

end FabricEpoch
