import FabricEpoch.Runtime.Barrier
import FabricEpoch.Runtime.Frames
import FabricEpoch.Runtime.Ordering
import FabricEpoch.Sessions

/-!
# What a failed save leaves behind

An advance, a fence, a retirement and a grant write a replay record, which no
undo action takes out again, and a session is erased before its incarnation is
fenced. So wherever the save of such a call throws, the memory is not what it
was before the call.

- `Attempted`, `ControlAttempted`: what the undo actions leave in place;
- `failedSave_leaves_trace`: every such call, in every reachable state.
-/

namespace FabricEpoch

open Table Transaction

/-! ## What a save that throws leaves behind -/

/-- **What the operation has written and no undo action takes back** is there
behind a save that throws. -/
theorem SaveThrows.leaves {α : Type} {op : Op α} {fault : Option SaveFault} {disk : Disk}
    {impl : Impl} (h : SaveThrows op fault disk impl) {P : Impl → Prop}
    (hcanonicalize : ∀ s, P s → P s.canonicalize) (hrebuild : ∀ s, P s → P s.rebuildIndexes)
    (hop : ∀ a t, op (Txn.start impl) = .ok a t → t.mutated = true → Guarded P t) :
    P (transact op fault disk impl).impl := by
  obtain ⟨a, t, hrun, hmutated, heq⟩ := h.transact_impl
  obtain ⟨hstate, hundo⟩ := hop a t hrun hmutated
  rw [heq]
  exact hrebuild _ (Guarded.rollback ⟨hcanonicalize _ hstate, hundo⟩)

/-! ## The replay records -/

namespace Impl

/-- The attempts on record, participant by participant. -/
def attempts (impl : Impl) : List (ParticipantId × List MutationAttemptId) :=
  impl.state.participants.map fun p => (p.id, p.idempotency.map (·.attempt))

/-- The participant has the attempt on record. -/
def Attempted (id : ParticipantId) (attempt : MutationAttemptId) (impl : Impl) : Prop :=
  ∃ e ∈ impl.attempts, e.1 = id ∧ attempt ∈ e.2

/-- The attempt is among those of the control calls. -/
def ControlAttempted (attempt : MutationAttemptId) (impl : Impl) : Prop :=
  attempt ∈ impl.state.controlAttempts.map (·.attempt)

variable {id : ParticipantId} {attempt : MutationAttemptId} {impl s : Impl}

theorem attempts_rawUpdateParticipant (key : ParticipantId)
    {f : DurableParticipant → DurableParticipant} (hid : ∀ p, (f p).id = p.id)
    (htable : ∀ p, (f p).idempotency = p.idempotency) :
    (s.rawUpdateParticipant key f).attempts = s.attempts :=
  map_modifyFirst_of_forall (fun p => by rw [hid, htable]) _

theorem Attempted.canonicalize (h : s.Attempted id attempt) :
    s.canonicalize.Attempted id attempt := by
  obtain ⟨e, he, hattempt⟩ := h
  refine ⟨e, ?_, hattempt⟩
  exact (((List.perm_insertionSort _ s.state.participants).map _).mem_iff).mpr he

/-- A record that was just remembered. -/
theorem Attempted.of_remember {limits : Limits} (record : IdempotencyRecord)
    (hfound : (impl.findParticipant id).map (·.id) = some id) :
    (impl.updateParticipant id (·.remember limits record)).Attempted id record.attempt := by
  obtain ⟨p, hp, hid⟩ := Option.map_eq_some_iff.mp hfound
  have hwritten : (impl.updateParticipant id (·.remember limits record)).findParticipant id =
      some (p.remember limits record) := by
    rw [findParticipant_updateParticipant, hp]
    rfl
  obtain ⟨i, -, hi⟩ := Option.bind_eq_some_iff.mp hwritten
  refine ⟨_, List.mem_map_of_mem (List.mem_of_getElem? hi), hid, ?_⟩
  exact List.mem_map_of_mem (mem_evictPush_self _)

/-- An attempt that is not found at the one record of the participant is not on
record. -/
theorem Distinct.not_attempted (h : impl.Distinct) {p : DurableParticipant}
    (hp : impl.findParticipant id = some p) (hattempt : findAttempt p.idempotency attempt = none) :
    ¬ impl.Attempted id attempt := by
  rintro ⟨e, he, hid, hmem⟩
  obtain ⟨q, hq, rfl⟩ := List.mem_map.mp he
  have hfound : impl.findParticipant id = some q := hid ▸ h.find_of_mem hq
  obtain rfl := Option.some.inj (hp.symm.trans hfound)
  obtain ⟨record, hrecord, rfl⟩ := List.mem_map.mp hmem
  simpa using List.find?_eq_none.mp hattempt record hrecord

end Impl

/-! ## No undo action takes them out -/

/-- The undo actions of a fence keep `P`. -/
structure FenceUndone (P : Impl → Prop) : Prop where
  generation : ∀ g s, P s → P (Impl.setGeneration g s)
  fence : ∀ before id p s, P s → P (Impl.undoFence before id p s)
  preventive : ∀ before id p s, P s → P (Impl.undoPreventive before id p s)

namespace FenceUndone

variable {P : Impl → Prop}

theorem bumpGeneration (h : FenceUndone P) : Keeps (UndoKeeps P) FabricEpoch.bumpGeneration :=
  Keeps.bind Keeps.read fun _ => Keeps.bind (UndoKeeps.pushUndo (h.generation _)) fun _ =>
    Keeps.bind (Keeps.orFail _ _) fun _ => UndoKeeps.modify _

theorem recordFence (h : FenceUndone P) (id : ParticipantId) (boot : WorkerBootId)
    (reason : FenceReason) (note : BoundedText) (allowDefensive : Bool) :
    Keeps (UndoKeeps P) (FabricEpoch.recordFence id boot reason note allowDefensive) := by
  refine Keeps.bind Keeps.read fun impl => ?_
  split
  · exact Keeps.pure _
  · refine Keeps.ite (fun _ => Keeps.pure _) fun _ => ?_
    split
    · exact Keeps.bind Keeps.read fun _ => Keeps.bind (UndoKeeps.pushUndo (h.fence _ _ _)) fun _ =>
        Keeps.bind (UndoKeeps.modify _) fun _ => Keeps.bind (Keeps.orFail _ _) fun _ =>
        Keeps.bind (UndoKeeps.modify _) fun _ => Keeps.bind h.bumpGeneration fun _ =>
        Keeps.bind UndoKeeps.markMutated fun _ => Keeps.pure _
    · refine Keeps.ite (fun _ => Keeps.pure _) fun _ => Keeps.ite (fun _ => Keeps.pure _) fun _ => ?_
      exact Keeps.bind Keeps.read fun _ => Keeps.bind (Keeps.orFail _ _) fun _ =>
        Keeps.bind (UndoKeeps.pushUndo (h.preventive _ _ _)) fun _ =>
        Keeps.bind (UndoKeeps.modify _) fun _ => Keeps.bind h.bumpGeneration fun _ =>
        Keeps.bind UndoKeeps.markMutated fun _ => Keeps.pure _

theorem fenceAll (h : FenceUndone P) (id : ParticipantId) (note : BoundedText)
    (boots : List WorkerBootId) : Keeps (UndoKeeps P) (FabricEpoch.fenceAll id note boots) := by
  induction boots with
  | nil => exact Keeps.pure _
  | cons boot boots ih =>
    exact Keeps.bind (h.recordFence _ _ _ _ _) fun _ => Keeps.bind Keeps.read fun _ =>
      Keeps.ite (fun _ => Keeps.fail _) fun _ => Keeps.bind ih fun _ => Keeps.pure _

end FenceUndone

section Attempts

variable {id : ParticipantId} {attempt : MutationAttemptId}

theorem attempted_fenceUndone : FenceUndone (Impl.Attempted id attempt) where
  generation _ _ h := h
  fence before key p s h := by
    have hattempts : (before.undoFence key p s).attempts = s.attempts :=
      Impl.attempts_rawUpdateParticipant key (fun _ => rfl) fun _ => rfl
    unfold Impl.Attempted
    rw [hattempts]
    exact h
  preventive before key p s h := by
    have hattempts : (before.undoPreventive key p s).attempts = s.attempts :=
      Impl.attempts_rawUpdateParticipant key (fun _ => rfl) fun _ => rfl
    unfold Impl.Attempted
    rw [hattempts]
    exact h

/-! ## The four operations -/

/-- The participant the index leads to goes on being found. -/
theorem found_record (id : ParticipantId) :
    FenceFrame fun impl => (impl.findParticipant id).map (·.id) := by
  refine FenceFrame.of_found (fun p boot => p.removeIncarnation_id boot) (fun p i => ?_)
    (fun _ _ => rfl) (fun _ _ _ => rfl) id
  unfold DurableParticipant.raiseFloor
  split <;> rfl

/-- A participant that is found carries its identifier. -/
theorem Impl.Distinct.found {impl : Impl} (h : impl.Distinct) {p : DurableParticipant}
    (hp : impl.findParticipant id = some p) :
    (impl.findParticipant id).map (·.id) = some id := by
  rw [hp]
  exact congrArg some (h.findable.id_of_find hp)

theorem fenceWorker_guarded {impl : Impl} (h : impl.Distinct) {request : FenceWorkerRequest}
    {a : FenceResult} {t : Txn Impl} (hrun : fenceWorker request (Txn.start impl) = .ok a t)
    (hmutated : t.mutated = true) :
    ¬ impl.Attempted request.participant request.attempt ∧
      Guarded (Impl.Attempted request.participant request.attempt) t := by
  rcases fenceWorker_cases hrun with ⟨rfl, -⟩ | ⟨p, digest, hadmitted, hcommit⟩
  · cases hmutated
  have hkeeps : Keeps (UndoKeeps (Impl.Attempted request.participant request.attempt))
      (commitFence request digest) :=
    Keeps.bind (attempted_fenceUndone.recordFence _ _ _ _ _) fun _ =>
      Keeps.bind Keeps.hasMutated fun _ => Keeps.bind (Keeps.bind Keeps.read fun _ =>
        UndoKeeps.modify _) fun _ => Keeps.pure _
  have hundo := UndoKeeps.of_run hkeeps (.start _) hcommit
  rcases commitFence_ok rfl hcommit with ⟨-, rfl⟩ | ⟨-, t₁, hfence, hstate, -⟩
  · cases hmutated
  have hfound : (t₁.state.findParticipant request.participant).map (·.id) =
      some request.participant := by
    rw [frame_of_run (fun x => Reads.recordFence (found_record _) _ _ _ _ _) hfence]
    exact h.found hadmitted.found
  refine ⟨h.not_attempted hadmitted.found hadmitted.attempt, hundo.guarded ?_⟩
  rw [hstate]
  exact Impl.Attempted.of_remember (request.record digest a) hfound

theorem applyRetire_guarded {impl : Impl} (h : impl.Distinct) {request : RetireParticipantRequest}
    {a : RetireResult} {t : Txn Impl} (hrun : applyRetire request (Txn.start impl) = .ok a t)
    (hmutated : t.mutated = true) :
    ¬ impl.Attempted request.participant request.attempt ∧
      Guarded (Impl.Attempted request.participant request.attempt) t := by
  rcases applyRetire_cases hrun with ⟨rfl, -⟩ | ⟨p, digest, hadmitted, hcommit⟩
  · cases hmutated
  have hrestore : ∀ (key : ParticipantId) (fenced : DurableParticipant) (s : Impl),
      s.Attempted request.participant request.attempt →
      (s.rawUpdateParticipant key fenced.restoreRetirement).Attempted request.participant
        request.attempt := by
    intro key fenced s hs
    have hattempts : (s.rawUpdateParticipant key fenced.restoreRetirement).attempts = s.attempts :=
      Impl.attempts_rawUpdateParticipant key (fun _ => rfl) fun _ => rfl
    unfold Impl.Attempted
    rw [hattempts]
    exact hs
  have hkeeps : Keeps (UndoKeeps (Impl.Attempted request.participant request.attempt))
      (commitRetire request digest p) :=
    Keeps.bind (attempted_fenceUndone.fenceAll _ _ _) fun _ => Keeps.bind Keeps.read fun _ =>
      Keeps.bind (UndoKeeps.pushUndo (hrestore _ _)) fun _ => Keeps.bind (UndoKeeps.modify _) fun _ =>
      Keeps.bind attempted_fenceUndone.bumpGeneration fun _ =>
      Keeps.bind (UndoKeeps.modify _) fun _ => Keeps.bind UndoKeeps.markMutated fun _ => Keeps.pure _
  have hundo := UndoKeeps.of_run hkeeps (.start _) hcommit
  obtain ⟨n, t₁, g, hfences, -, hstate, -⟩ := commitRetire_ok hcommit
  have hfound : ((t₁.state.updateParticipant request.participant (·.retire)).findParticipant
      request.participant).map (·.id) = some request.participant := by
    rw [find_map_updateParticipant (fun q => ?_),
      frame_of_run (fun x => Reads.fenceAll (found_record _) _ _ _) hfences]
    · exact h.found hadmitted.found
    · obtain ⟨floor, hframe⟩ := q.retire_frame
      rw [hframe]
  refine ⟨h.not_attempted hadmitted.found hadmitted.attempt, hundo.guarded ?_⟩
  rw [hstate]
  exact Impl.Attempted.of_remember (request.record digest n) hfound

theorem applyGrant_guarded {impl : Impl} (h : impl.Distinct) {entropy : Entropy}
    {request : GrantAuthorityRequest} {a : GrantResult} {t : Txn Impl}
    (hrun : applyGrant entropy request (Txn.start impl) = .ok a t) (hmutated : t.mutated = true) :
    ¬ impl.Attempted request.participant request.attempt ∧
      Guarded (Impl.Attempted request.participant request.attempt) t := by
  rcases applyGrant_cases hrun with ⟨rfl, -⟩ | ⟨p, digest, hadmitted, hcommit⟩
  · cases hmutated
  have hkeeps : Keeps (UndoKeeps (Impl.Attempted request.participant request.attempt))
      (commitGrant entropy request digest) :=
    Keeps.bind Keeps.read fun _ => Keeps.bind (Keeps.ofExcept _) fun _ =>
      Keeps.bind (UndoKeeps.modify _) fun _ => Keeps.bind (UndoKeeps.pushUndo fun _ hs => hs) fun _ =>
      Keeps.bind attempted_fenceUndone.bumpGeneration fun _ => Keeps.bind Keeps.read fun _ =>
      Keeps.bind (UndoKeeps.modify _) fun _ => Keeps.bind (UndoKeeps.modify _) fun _ =>
      Keeps.bind UndoKeeps.markMutated fun _ => Keeps.pure _
  have hundo := UndoKeeps.of_run hkeeps (.start _) hcommit
  obtain ⟨bytes, g, -, -, hstate, -⟩ := commitGrant_ok hcommit
  refine ⟨h.not_attempted hadmitted.found hadmitted.attempt, hundo.guarded ?_⟩
  rw [hstate]
  exact Impl.Attempted.of_remember
    (request.record digest (GrantGeneration.ofState g) ⟨bytes⟩) (h.found hadmitted.found)

theorem advanceEpoch_guarded {impl : Impl} {entropy : Entropy} {request : EpochAdvanceRequest}
    {a : EpochAdvanceResult} {t : Txn Impl}
    (hrun : advanceEpoch entropy request (Txn.start impl) = .ok a t) (hmutated : t.mutated = true) :
    ¬ impl.ControlAttempted request.attempt ∧ Guarded (Impl.ControlAttempted request.attempt) t := by
  rcases advanceEpoch_cases hrun with ⟨rfl, -⟩ | ⟨digest, hadmitted, hcommit⟩
  · cases hmutated
  have hmutate : ∀ boot cause, Keeps (UndoKeeps (Impl.ControlAttempted request.attempt))
      (mutateEpoch entropy boot cause true) := fun _ _ =>
    Keeps.bind Keeps.read fun _ => Keeps.bind (Keeps.orFail _ _) fun _ =>
      Keeps.bind (UndoKeeps.pushUndo fun _ hs => hs) fun _ => Keeps.bind (UndoKeeps.modify _) fun _ =>
      Keeps.bind (Keeps.orFail _ _) fun _ => Keeps.bind (UndoKeeps.modify _) fun _ =>
      Keeps.bind (UndoKeeps.modify _) fun _ => Keeps.bind (Keeps.ofExcept _) fun _ =>
      UndoKeeps.modify _
  have hkeeps : Keeps (UndoKeeps (Impl.ControlAttempted request.attempt))
      (commitAdvance entropy request digest) :=
    Keeps.bind Keeps.read fun _ => Keeps.bind (hmutate _ _) fun _ => Keeps.bind Keeps.read fun _ =>
      Keeps.bind (UndoKeeps.modify _) fun _ => Keeps.bind UndoKeeps.markMutated fun _ => Keeps.pure _
  have hundo := UndoKeeps.of_run hkeeps (.start _) hcommit
  obtain ⟨t₁, -, hstate, -⟩ := commitAdvance_ok hcommit
  refine ⟨fun hmem => ?_, hundo.guarded ?_⟩
  · obtain ⟨record, hrecord, hattempt⟩ := List.mem_map.mp hmem
    simpa [hattempt] using List.find?_eq_none.mp hadmitted.attempt record hrecord
  · rw [hstate]
    exact List.mem_map_of_mem (f := IdempotencyRecord.attempt) (mem_evictPush_self _)

end Attempts

/-! ## Every call -/

/-- The call is one of the five, reaches its barrier, and the save throws. -/
def Call.SaveThrows (entropy : Entropy) (fault : Option SaveFault) (disk : Disk) (impl : Impl) :
    Call → Prop
  | .advance request => FabricEpoch.SaveThrows (advanceEpoch entropy request) fault disk impl
  | .fence request => FabricEpoch.SaveThrows (fenceWorker request) fault disk impl
  | .retire request => FabricEpoch.SaveThrows (applyRetire request) fault disk impl
  | .grant request => FabricEpoch.SaveThrows (applyGrant entropy request) fault disk impl
  | .close session reason => ∃ binding,
      impl.sessionIndex.find? (fun s => s.id = session) = some binding ∧
      FabricEpoch.SaveThrows (fenceSession session binding reason) fault disk
        (impl.eraseSession binding)
  | _ => False

/-- The durable state and the session bindings are those of the other memory. -/
def Impl.NoTrace (before after : Impl) : Prop :=
  after.state = before.state ∧ after.tables = before.tables

/-- What was not there before and is there now. -/
theorem Impl.NoTrace.elim {before after : Impl} {P : Impl → Prop}
    (hP : ∀ {s s' : Impl}, s.state = s'.state → P s → P s') (hafter : P after)
    (hbefore : ¬ P before) : ¬ before.NoTrace after := by
  rintro ⟨hstate, -⟩
  exact hbefore (hP hstate hafter)

theorem attempted_of_state {id : ParticipantId} {attempt : MutationAttemptId} {s s' : Impl}
    (h : s.state = s'.state) (hs : s.Attempted id attempt) : s'.Attempted id attempt := by
  unfold Impl.Attempted Impl.attempts at hs ⊢
  rwa [← h]

/-- **A call whose save throws leaves a trace**: an advance, a fence, a
retirement, a grant or the closure of a session, in any reachable state,
whatever has failed before and wherever the save throws. -/
theorem failedSave_leaves_trace {host : Host} (h : coordinator.Reaches (fun _ _ => True) host)
    {impl : Impl} (himpl : host.runtime = some impl) {call : Call} {entropy : Entropy}
    {fault : Option SaveFault} (hthrows : call.SaveThrows entropy fault host.disk impl) :
    ¬ impl.NoTrace (callRuntime call entropy fault host.disk impl).impl := by
  have hdistinct := reachable_distinct h himpl
  cases call with
  | advance request =>
    obtain ⟨a, t, hrun, hmutated, -⟩ := id hthrows
    refine Impl.NoTrace.elim (P := Impl.ControlAttempted request.attempt)
      (fun heq hs => ?_) ?_ (advanceEpoch_guarded hrun hmutated).1
    · unfold Impl.ControlAttempted at hs ⊢
      rwa [← heq]
    · exact SaveThrows.leaves hthrows (fun _ hs => hs) (fun _ hs => hs)
        fun _ _ hrun hmutated => (advanceEpoch_guarded hrun hmutated).2
  | fence request =>
    obtain ⟨a, t, hrun, hmutated, -⟩ := id hthrows
    refine Impl.NoTrace.elim attempted_of_state ?_ (fenceWorker_guarded hdistinct hrun hmutated).1
    exact SaveThrows.leaves hthrows (fun _ hs => hs.canonicalize) (fun _ hs => hs)
      fun _ _ hrun hmutated => (fenceWorker_guarded hdistinct hrun hmutated).2
  | retire request =>
    obtain ⟨a, t, hrun, hmutated, -⟩ := id hthrows
    refine Impl.NoTrace.elim attempted_of_state ?_ (applyRetire_guarded hdistinct hrun hmutated).1
    exact SaveThrows.leaves hthrows (fun _ hs => hs.canonicalize) (fun _ hs => hs)
      fun _ _ hrun hmutated => (applyRetire_guarded hdistinct hrun hmutated).2
  | grant request =>
    obtain ⟨a, t, hrun, hmutated, -⟩ := id hthrows
    refine Impl.NoTrace.elim attempted_of_state ?_ (applyGrant_guarded hdistinct hrun hmutated).1
    exact SaveThrows.leaves hthrows (fun _ hs => hs.canonicalize) (fun _ hs => hs)
      fun _ _ hrun hmutated => (applyGrant_guarded hdistinct hrun hmutated).2
  | close session reason =>
    -- the session is gone from the tables
    obtain ⟨binding, hbound, -⟩ := hthrows
    rintro ⟨-, htables⟩
    have hclosed : (closeSession session reason fault host.disk impl).impl.tables = impl.tables :=
      htables
    rcases closeSession_tables session reason fault host.disk impl with ⟨hnone, -⟩ | ⟨b, hb, heq⟩
    · rw [hnone] at hbound
      cases hbound
    · rw [heq] at hclosed
      have hsessions : impl.sessionIndex.filter (fun s => s.id ≠ b.id) = impl.sessionIndex :=
        congrArg Tables.sessions hclosed
      have hmem := List.mem_of_find?_eq_some hb
      rw [← hsessions] at hmem
      simpa using (List.mem_filter.mp hmem).2
  | _ => exact hthrows.elim

/-! ### Two of them -/

/-- A worker is live. -/
def workerRun : List Input := [
  testOpen {} 1,
  callOf (.register (testRegister 3 (testParticipant "p") (smallId 4)))]

/-- Advance from the first epoch. -/
def leaveFirstEpoch : EpochAdvanceRequest := { attempt := smallId 5, expectedEpoch := smallCounter 1 }

/-- Fence the worker. -/
def fenceLive : FenceWorkerRequest := testFence 5 (testParticipant "p") (smallId 4)

/-- It is fenced, and the save throws. -/
theorem failedSave_leaves_trace_test : ∃ host impl, coordinator.Reaches (fun _ _ => True) host ∧
    host.runtime = some impl ∧ ¬ impl.NoTrace
      (callRuntime (.fence fenceLive) (testEntropy 9) (some brokenDisk) host.disk impl).impl := by
  have hthrows : ((coordinator.run coordinator.init workerRun).runtime.map fun impl =>
      decide (SaveThrows (fenceWorker fenceLive) (some brokenDisk)
        (coordinator.run coordinator.init workerRun).disk impl)) = some true := by decide +kernel
  have hreach := coordinator.reaches_run workerRun
  generalize coordinator.run coordinator.init workerRun = host at hthrows hreach
  obtain ⟨impl, himpl, hvalue⟩ := Option.map_eq_some_iff.mp hthrows
  have hfence : (Call.fence fenceLive).SaveThrows (testEntropy 9) (some brokenDisk) host.disk impl :=
    show SaveThrows (fenceWorker fenceLive) (some brokenDisk) host.disk impl from
      of_decide_eq_true hvalue
  exact ⟨host, impl, hreach, himpl, failedSave_leaves_trace hreach himpl hfence⟩

/-- **An advance whose save throws**: the epoch is the old one, and the attempt
is on record. -/
theorem failedAdvance_remembered : ∃ host impl, coordinator.Reaches (fun _ _ => True) host ∧
    host.runtime = some impl ∧
    (Call.advance leaveFirstEpoch).SaveThrows (testEntropy 9) (some brokenDisk) host.disk impl ∧
    ¬ impl.NoTrace (callRuntime (.advance leaveFirstEpoch) (testEntropy 9) (some brokenDisk)
      host.disk impl).impl := by
  have hvalues : ((coordinator.run coordinator.init workerRun).runtime.map fun impl =>
      (decide (SaveThrows (advanceEpoch (testEntropy 9) leaveFirstEpoch) (some brokenDisk)
        (coordinator.run coordinator.init workerRun).disk impl),
      impl.state.controlAttempts.length,
      (callRuntime (.advance leaveFirstEpoch) (testEntropy 9) (some brokenDisk)
        (coordinator.run coordinator.init workerRun).disk impl).impl.state.controlAttempts.length)) =
      some (true, 0, 1) := by decide +kernel
  have hreach := coordinator.reaches_run workerRun
  generalize coordinator.run coordinator.init workerRun = host at hvalues hreach
  obtain ⟨impl, himpl, hvalue⟩ := Option.map_eq_some_iff.mp hvalues
  simp only [Prod.mk.injEq, decide_eq_true_eq] at hvalue
  obtain ⟨hthrows, hbefore, hafter⟩ := hvalue
  refine ⟨host, impl, hreach, himpl, hthrows, ?_⟩
  rintro ⟨hstate, -⟩
  rw [hstate, hbefore] at hafter
  cases hafter

end FabricEpoch
