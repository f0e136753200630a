import FabricEpoch.Runtime.Runs

/-!
# What the operations leave alone

An operation leaves a reading of the memory alone if each of its mutations
does. The mutations are listed once for each family of operations; what a
reading has to show is one equation a mutation.

- `FenceFrame`, `RecordFrame`: fences, retirements and closing sessions;
- `RegistrationFrame`, `EpochFrame`, `GrantFrame`, `RevokeFrame`;
- `Reads.applyRegistration`, `Reads.fenceWorker`, ...: the operations;
- `frame_of_run`: the reading behind a run that returns;
- `callRuntime_frame`: and behind the call that commits it;
- `recordFence_unfenced`, `commitRegistration_unfenced`: which boots are fenced.
-/

namespace FabricEpoch

open Table Transaction

variable {β : Type}

/-- The reading of the memory is this. -/
def Reads (π : Impl → β) (x : β) (t : Txn Impl) : Prop := π t.state = x

/-- The reading behind an operation that returns. -/
theorem frame_of_run {π : Impl → β} {α : Type} {op : Op α} (h : ∀ x, Keeps (Reads π x) op)
    {t u : Txn Impl} {a : α} (hrun : op t = .ok a u) : π u.state = π t.state := by
  have hkeeps := h (π t.state) t rfl
  rw [hrun] at hkeeps
  exact hkeeps

/-- A write that does not touch what is read. -/
theorem find_map_updateParticipant {γ : Type} {π : DurableParticipant → γ}
    {f : DurableParticipant → DurableParticipant} (hf : ∀ p, π (f p) = π p) (impl : Impl)
    (key id : ParticipantId) :
    ((impl.updateParticipant key f).findParticipant id).map π =
      (impl.findParticipant id).map π := by
  unfold Impl.updateParticipant
  cases impl.participantIndex key with
  | none => rfl
  | some i =>
    show ((impl.participantIndex id).bind fun j =>
      (impl.state.participants.modify i f)[j]?).map π = _
    unfold Impl.findParticipant
    cases impl.participantIndex id with
    | none => rfl
    | some j =>
      show ((impl.state.participants.modify i f)[j]?).map π = (impl.state.participants[j]?).map π
      rw [List.getElem?_modify]
      cases impl.state.participants[j]? with
      | none => rfl
      | some p =>
        show some (π (if i = j then f p else p)) = some (π p)
        split
        · rw [hf]
        · rfl

/-- A write through the index is found under the identifier. -/
theorem find_updateParticipant_self {impl : Impl} {id : ParticipantId} {p : DurableParticipant}
    (h : impl.findParticipant id = some p) (f : DurableParticipant → DurableParticipant) :
    (impl.updateParticipant id f).findParticipant id = some (f p) := by
  obtain ⟨i, hi, hp⟩ := Impl.findParticipant_eq_some.mp h
  unfold Impl.updateParticipant
  rw [hi]
  refine Impl.findParticipant_eq_some.mpr ⟨i, hi, ?_⟩
  show (impl.state.participants.modify i f)[i]? = _
  rw [List.getElem?_modify_eq, hp]
  rfl

/-! ## The mutations -/

/-- The mutations of a fence. -/
structure FenceFrame (π : Impl → β) : Prop where
  generation : ∀ g s, π (Impl.setGeneration g s) = π s
  preventive : ∀ id r s, π (Impl.applyPreventive id r s) = π s
  removal : ∀ id boot i s, π (Impl.applyRemoval id boot i s) = π s
  fence : ∀ id r s, π (Impl.applyFence id r s) = π s

/-- What a fence does not touch in a record is not touched in the record that is
found. -/
theorem FenceFrame.of_found {γ : Type} {π : DurableParticipant → γ}
    (hremove : ∀ p boot, π (p.removeIncarnation boot) = π p)
    (hraise : ∀ p i, π (p.raiseFloor i) = π p)
    (hgeneration : ∀ p g, π (p.setFenceGeneration g) = π p)
    (hretain : ∀ p limits boot, π (p.retainFenced limits boot) = π p) (id : ParticipantId) :
    FenceFrame fun impl => (impl.findParticipant id).map π where
  generation _ _ := rfl
  preventive key r s := find_map_updateParticipant (fun p => hgeneration p r.generation)
    (s.setFenceFloor r.generation) key id
  removal key boot i s := (find_map_updateParticipant (fun p => hraise p i) _ key id).trans
    (find_map_updateParticipant (fun p => hremove p boot) s key id)
  fence key r s := find_map_updateParticipant (f := fun p =>
    (p.setFenceGeneration r.generation).retainFenced s.options.limits r.boot)
    (fun p => (hretain _ _ _).trans (hgeneration p _)) (s.setFenceFloor r.generation) key id

/-- A fence leaves the allocators alone. -/
theorem nextOf_fence (id : ParticipantId) :
    FenceFrame fun impl => (impl.findParticipant id).map (·.nextIncarnation) := by
  refine FenceFrame.of_found (fun p boot => ?_) (fun p i => ?_) (fun _ _ => rfl)
    (fun _ _ _ => rfl) id
  · obtain ⟨_, _, _, _, hframe⟩ := p.removeIncarnation_frame boot
    rw [hframe]
  · unfold DurableParticipant.raiseFloor
    split <;> rfl

/-- The mutations of the operations that fence, retire and remember. -/
structure RecordFrame (π : Impl → β) : Prop extends FenceFrame π where
  remember : ∀ id limits r s, π (Impl.updateParticipant id (·.remember limits r) s) = π s
  retire : ∀ id s, π (Impl.updateParticipant id (·.retire) s) = π s

/-- The mutations of a registration. -/
structure RegistrationFrame (π : Impl → β) : Prop extends FenceFrame π where
  create : ∀ id policy s, π (Impl.createParticipant id policy s) = π s
  floor : ∀ g s, π (Impl.setRegistrationFloor g s) = π s
  register : ∀ (request : RegisterParticipantRequest) digest g i next s,
    π (Impl.bindBoot request.participant request.boot (Impl.updateParticipant request.participant
      (·.register s.options.limits request digest g i next) s)) = π s

/-- The mutations of an epoch change. -/
structure EpochFrame (π : Impl → β) : Prop where
  generation : ∀ g s, π (Impl.setGeneration g s) = π s
  enter : ∀ epoch boot s, π (Impl.enterEpoch epoch boot s) = π s
  invalidate : ∀ s, π (Impl.invalidateLive s) = π s
  transition : ∀ t s, π (Impl.pushTransition t s) = π s
  control : ∀ r s, π (Impl.rememberControl r s) = π s

/-- The mutations of a grant. -/
structure GrantFrame (π : Impl → β) : Prop where
  generation : ∀ g s, π (Impl.setGeneration g s) = π s
  push : ∀ grant s, π (Impl.pushGrant grant s) = π s
  stamp : ∀ g i s, π (Impl.setGrantGeneration g i s) = π s
  remember : ∀ id limits r s, π (Impl.updateParticipant id (·.remember limits r) s) = π s

/-- The mutations of a revocation. -/
structure RevokeFrame (π : Impl → β) : Prop where
  generation : ∀ g s, π (Impl.setGeneration g s) = π s
  revoke : ∀ root s, π (Impl.revokeFrom root s).1 = π s
  stamp : ∀ id f s, π (Impl.updateGrant id f s) = π s
  control : ∀ r s, π (Impl.rememberControl r s) = π s

/-! ## The operations -/

namespace Reads

variable {π : Impl → β} {x : β}

theorem modify {f : Impl → Impl} (hf : ∀ s, π (f s) = π s) :
    Keeps (Reads π x) (Action.modify f : Op Unit) :=
  fun t ht => (hf t.state).trans ht

theorem pushUndo (f : Impl → Impl) : Keeps (Reads π x) (Action.pushUndo f : Op Unit) :=
  fun _ ht => ht

theorem markMutated : Keeps (Reads π x) (Action.markMutated : Op Unit) := fun _ ht => ht

theorem bumpGeneration (h : ∀ g s, π (Impl.setGeneration g s) = π s) :
    Keeps (Reads π x) FabricEpoch.bumpGeneration :=
  Keeps.bind Keeps.read fun _ => Keeps.bind (pushUndo _) fun _ =>
    Keeps.bind (Keeps.orFail _ _) fun g => modify (h g)

theorem bumpWhen (h : ∀ g s, π (Impl.setGeneration g s) = π s) (condition : Bool) :
    Keeps (Reads π x) (FabricEpoch.bumpWhen condition) :=
  Keeps.ite (fun _ => bumpGeneration h) fun _ => Keeps.pure ()

/-! ### Fences -/

section Fences

variable (h : FenceFrame π)

include h

theorem recordPreventiveFence (id : ParticipantId) (p : DurableParticipant) (boot : WorkerBootId)
    (reason : FenceReason) (note : BoundedText) :
    Keeps (Reads π x) (FabricEpoch.recordPreventiveFence id p boot reason note) :=
  Keeps.bind Keeps.read fun _ => Keeps.bind (Keeps.orFail _ _) fun _ =>
    Keeps.bind (pushUndo _) fun _ => Keeps.bind (modify (h.preventive id _)) fun _ =>
    Keeps.bind (bumpGeneration h.generation) fun _ => Keeps.bind markMutated fun _ => Keeps.pure _

theorem fenceIncarnation (id : ParticipantId) (p : DurableParticipant) (boot : WorkerBootId)
    (incarnation : IncarnationSequence) (reason : FenceReason) (note : BoundedText) :
    Keeps (Reads π x) (FabricEpoch.fenceIncarnation id p boot incarnation reason note) :=
  Keeps.bind Keeps.read fun _ => Keeps.bind (pushUndo _) fun _ =>
    Keeps.bind (modify (h.removal id boot incarnation)) fun _ =>
    Keeps.bind (Keeps.orFail _ _) fun _ => Keeps.bind (modify (h.fence id _)) fun _ =>
    Keeps.bind (bumpGeneration h.generation) fun _ => Keeps.bind markMutated fun _ => Keeps.pure _

theorem recordFence (id : ParticipantId) (boot : WorkerBootId) (reason : FenceReason)
    (note : BoundedText) (allowDefensive : Bool) :
    Keeps (Reads π x) (FabricEpoch.recordFence id boot reason note allowDefensive) := by
  refine Keeps.bind Keeps.read fun impl => ?_
  split
  · exact Keeps.pure _
  · refine Keeps.ite (fun _ => Keeps.pure _) fun _ => ?_
    split
    · exact fenceIncarnation h _ _ _ _ _ _
    · exact Keeps.ite (fun _ => Keeps.pure _) fun _ =>
        Keeps.ite (fun _ => Keeps.pure _) fun _ => recordPreventiveFence h _ _ _ _ _

theorem replaceIncumbent (request : RegisterParticipantRequest) (p : DurableParticipant) :
    Keeps (Reads π x) (FabricEpoch.replaceIncumbent request p) := by
  unfold FabricEpoch.replaceIncumbent
  split
  · refine Keeps.ite (fun _ => ?_) fun _ => Keeps.pure _
    refine Keeps.bind Keeps.read fun impl => ?_
    split
    · exact Keeps.pure _
    · exact Keeps.bind (recordFence h _ _ _ _ _) fun _ =>
        Keeps.ite (fun _ => Keeps.pure _) fun _ => Keeps.pure _
  · exact Keeps.pure _

theorem fenceAll (id : ParticipantId) (note : BoundedText) (boots : List WorkerBootId) :
    Keeps (Reads π x) (FabricEpoch.fenceAll id note boots) := by
  induction boots with
  | nil => exact Keeps.pure _
  | cons boot boots ih =>
    exact Keeps.bind (recordFence h _ _ _ _ _) fun _ => Keeps.bind Keeps.read fun _ =>
      Keeps.ite (fun _ => Keeps.fail _) fun _ => Keeps.bind ih fun _ => Keeps.pure _

theorem fenceSession (session : SessionId) (binding : SessionBinding)
    (reason : SessionClosureReason) :
    Keeps (Reads π x) (FabricEpoch.fenceSession session binding reason) := by
  refine Keeps.bind Keeps.read fun impl => ?_
  refine Keeps.ite (fun _ => Keeps.pure _) fun _ => ?_
  split
  · exact Keeps.pure _
  · split
    · exact Keeps.pure _
    · exact recordFence h _ _ _ _ _

end Fences

theorem fenceWorker (h : RecordFrame π) (request : FenceWorkerRequest) :
    Keeps (Reads π x) (FabricEpoch.fenceWorker request) := by
  refine Keeps.bind Keeps.read fun impl => ?_
  split
  · exact Keeps.pure _
  · exact Keeps.pure _
  · refine Keeps.bind (Keeps.ofExcept _) fun digest => ?_
    split
    · exact Keeps.pure _
    · refine Keeps.bind (recordFence h.toFenceFrame _ _ _ _ _) fun result =>
        Keeps.bind Keeps.hasMutated fun m =>
        Keeps.bind (Keeps.bind Keeps.read fun _ => modify ?_) fun _ => Keeps.pure _
      intro s
      cases m with
      | true => exact h.remember _ _ _ s
      | false => rfl

theorem applyRetire (h : RecordFrame π) (request : RetireParticipantRequest) :
    Keeps (Reads π x) (FabricEpoch.applyRetire request) := by
  refine Keeps.bind Keeps.read fun impl => ?_
  split
  · exact Keeps.pure _
  · exact Keeps.pure _
  · refine Keeps.bind (Keeps.ofExcept _) fun digest => ?_
    split
    · exact Keeps.pure _
    · refine Keeps.ite (fun _ => Keeps.pure _) fun _ => ?_
      exact Keeps.bind (fenceAll h.toFenceFrame _ _ _) fun _ => Keeps.bind Keeps.read fun _ =>
        Keeps.bind (pushUndo _) fun _ => Keeps.bind (modify (h.retire _)) fun _ =>
        Keeps.bind (bumpGeneration h.generation) fun _ =>
        Keeps.bind (modify (h.remember _ _ _)) fun _ =>
        Keeps.bind markMutated fun _ => Keeps.pure _

/-! ### Registrations -/

section Registrations

variable (h : RegistrationFrame π)

include h

theorem openRecord (request : RegisterParticipantRequest) (participant : Option DurableParticipant) :
    Keeps (Reads π x) (FabricEpoch.openRecord request participant) := by
  cases participant with
  | none =>
    exact Keeps.bind (modify (h.create _ _)) fun _ => Keeps.bind (pushUndo _) fun _ => Keeps.pure _
  | some p => exact Keeps.bind (pushUndo _) fun _ => Keeps.pure _

theorem admitRegistration (request : RegisterParticipantRequest) (digest : SnapshotDigest)
    (participant : Option DurableParticipant) (commitGeneration : Bool) :
    Keeps (Reads π x)
      (FabricEpoch.admitRegistration request digest participant commitGeneration) := by
  refine Keeps.bind Keeps.read fun impl => ?_
  split
  · exact Keeps.pure _
  · exact Keeps.bind (openRecord h _ _) fun _ => Keeps.bind Keeps.read fun _ =>
      Keeps.bind (Keeps.orFail _ _) fun _ => Keeps.bind (pushUndo _) fun _ =>
      Keeps.bind (modify (h.floor _)) fun _ => Keeps.bind (Keeps.orFail _ _) fun _ =>
      Keeps.bind (modify (h.register request digest _ _ _)) fun _ =>
      Keeps.bind (bumpWhen h.generation _) fun _ => Keeps.bind markMutated fun _ => Keeps.pure _

theorem registerExisting (request : RegisterParticipantRequest) (digest : SnapshotDigest)
    (p : DurableParticipant) (commitGeneration : Bool) :
    Keeps (Reads π x) (FabricEpoch.registerExisting request digest p commitGeneration) := by
  refine Keeps.bind (replaceIncumbent h.toFenceFrame request p) fun refusal => ?_
  cases refusal with
  | some result => exact Keeps.pure _
  | none =>
    refine Keeps.bind Keeps.read fun impl => ?_
    split
    · exact admitRegistration h _ _ _ _
    · exact Keeps.fail _

theorem registerNew (request : RegisterParticipantRequest) (digest : SnapshotDigest)
    (commitGeneration : Bool) :
    Keeps (Reads π x) (FabricEpoch.registerNew request digest commitGeneration) :=
  Keeps.bind Keeps.read fun _ =>
    Keeps.ite (fun _ => Keeps.pure _) fun _ => admitRegistration h _ _ _ _

theorem applyRegistration (request : RegisterParticipantRequest) (commitGeneration : Bool) :
    Keeps (Reads π x) (FabricEpoch.applyRegistration request commitGeneration) := by
  refine Keeps.bind Keeps.read fun impl => ?_
  split
  · exact Keeps.pure _
  · exact Keeps.pure _
  · refine Keeps.bind (Keeps.ofExcept _) fun digest => ?_
    split
    · split
      · exact Keeps.pure _
      · exact registerExisting h _ _ _ _
    · exact registerNew h _ _ _

theorem applyRegistrations (requests : List RegisterParticipantRequest) :
    Keeps (Reads π x) (FabricEpoch.applyRegistrations requests) := by
  induction requests with
  | nil => exact Keeps.pure _
  | cons request requests ih =>
    exact Keeps.bind (applyRegistration h request false) fun _ => Keeps.bind ih fun _ =>
      Keeps.pure _

theorem registerBatch (requests : List RegisterParticipantRequest) :
    Keeps (Reads π x) (FabricEpoch.registerBatch requests) :=
  Keeps.bind (applyRegistrations h requests) fun _ => Keeps.bind Keeps.hasMutated fun _ =>
    Keeps.bind (bumpWhen h.generation _) fun _ => Keeps.pure _

end Registrations

/-! ### Epochs -/

section Epochs

variable (h : EpochFrame π)

include h

theorem mutateEpoch (entropy : Entropy) (boot : CoordinatorBootId) (cause : EpochTransitionCause)
    (invalidateLive : Bool) :
    Keeps (Reads π x) (FabricEpoch.mutateEpoch entropy boot cause invalidateLive) := by
  have hinvalidate : ∀ s : Impl, π (if invalidateLive then s.invalidateLive else s) = π s := by
    intro s
    cases invalidateLive with
    | true => exact h.invalidate s
    | false => rfl
  exact Keeps.bind Keeps.read fun _ => Keeps.bind (Keeps.orFail _ _) fun _ =>
    Keeps.bind (pushUndo _) fun _ => Keeps.bind (modify (h.enter _ _)) fun _ =>
    Keeps.bind (Keeps.orFail _ _) fun _ => Keeps.bind (modify (h.generation _)) fun _ =>
    Keeps.bind (modify hinvalidate) fun _ => Keeps.bind (Keeps.ofExcept _) fun _ =>
    modify (h.transition _)

theorem establishEpoch (entropy : Entropy) (boot : CoordinatorBootId)
    (cause : EpochTransitionCause) (invalidateLive : Bool) :
    Keeps (Reads π x) (FabricEpoch.establishEpoch entropy boot cause invalidateLive) :=
  Keeps.bind (mutateEpoch h _ _ _ _) fun _ => markMutated

theorem advanceEpoch (entropy : Entropy) (request : EpochAdvanceRequest) :
    Keeps (Reads π x) (FabricEpoch.advanceEpoch entropy request) := by
  refine Keeps.bind Keeps.read fun impl => ?_
  refine Keeps.ite (fun _ => Keeps.pure _) fun _ => ?_
  refine Keeps.bind (Keeps.ofExcept _) fun digest => ?_
  split
  · exact Keeps.pure _
  · exact Keeps.pure _
  · exact Keeps.bind Keeps.read fun _ => Keeps.bind (mutateEpoch h _ _ _ _) fun _ =>
      Keeps.bind Keeps.read fun _ => Keeps.bind (modify (h.control _)) fun _ =>
      Keeps.bind markMutated fun _ => Keeps.pure _

end Epochs

/-! ### Grants -/

theorem applyGrant (h : GrantFrame π) (entropy : Entropy) (request : GrantAuthorityRequest) :
    Keeps (Reads π x) (FabricEpoch.applyGrant entropy request) := by
  refine Keeps.bind Keeps.read fun impl => ?_
  split
  · exact Keeps.pure _
  · exact Keeps.pure _
  · split
    · exact Keeps.pure _
    · refine Keeps.bind (Keeps.ofExcept _) fun digest => ?_
      split
      · exact Keeps.pure _
      · exact Keeps.pure _
      · exact Keeps.bind Keeps.read fun _ => Keeps.bind (Keeps.ofExcept _) fun _ =>
          Keeps.bind (modify (h.push _)) fun _ => Keeps.bind (pushUndo _) fun _ =>
          Keeps.bind (bumpGeneration h.generation) fun _ => Keeps.bind Keeps.read fun _ =>
          Keeps.bind (modify (h.stamp _ _)) fun _ =>
          Keeps.bind (modify (h.remember _ _ _)) fun _ => Keeps.bind markMutated fun _ =>
          Keeps.pure _

theorem applyRevoke (h : RevokeFrame π) (request : RevokeAuthorityRequest) :
    Keeps (Reads π x) (FabricEpoch.applyRevoke request) := by
  refine Keeps.bind Keeps.read fun impl => ?_
  split
  · exact Keeps.pure _
  · refine Keeps.bind (Keeps.ofExcept _) fun digest => ?_
    split
    · exact Keeps.pure _
    · exact Keeps.pure _
    · exact Keeps.ite (fun _ => Keeps.pure _) fun _ =>
        Keeps.bind Keeps.read fun _ => Keeps.bind (pushUndo _) fun _ =>
        Keeps.bind (modify (h.revoke _)) fun _ => Keeps.bind (bumpGeneration h.generation) fun _ =>
        Keeps.bind Keeps.read fun _ => Keeps.bind (modify (h.stamp _ _)) fun _ =>
        Keeps.bind (modify (h.control _)) fun _ => Keeps.bind markMutated fun _ => Keeps.pure _

end Reads

/-! ## The calls -/

/-- The memory is `u`, or what a barrier has made of `u`. -/
def Impl.Behind (impl u : Impl) : Prop := impl = u ∨ impl = u.canonicalize.rebuildIndexes

/-- The states agree up to the order of the records. -/
theorem Impl.Behind.state {impl u : Impl} (h : impl.Behind u) :
    ∃ ps, u.state.participants.Perm ps ∧ impl.state = { u.state with participants := ps } := by
  rcases h with rfl | rfl
  · exact ⟨_, List.Perm.refl _, rfl⟩
  · exact ⟨_, insertionSort_perm _, rfl⟩

/-- A reading that takes nothing from the order of the records or the indexes. -/
theorem Impl.Behind.reading {π : Impl → β} (hcanonical : ∀ s : Impl,
    π s.canonicalize.rebuildIndexes = π s) {impl u : Impl} (h : impl.Behind u) : π impl = π u := by
  rcases h with rfl | rfl
  · rfl
  · exact hcanonical u

/-- **What an operation leaves alone, its transaction leaves alone.** -/
theorem transact_frame {π : Impl → β} {α : Type} {op : Op α} {fault : Option SaveFault} {disk : Disk}
    {impl : Impl} {a : α} {limits : Limits}
    (hop : ∀ t, op (Txn.start impl) = .ok a t → Advanced .nothing limits (Txn.start impl) t)
    (hframe : ∀ y, Keeps (Reads π y) op) (h : (transact op fault disk impl).result = .ok a) :
    ∃ u, π u = π impl ∧ (transact op fault disk impl).impl.Behind u := by
  obtain ⟨t, ht, ⟨hidle, heq⟩ | ⟨-, image, previous, -, heq⟩⟩ := transact_ok h
  · rcases (hop t ht).marked with rfl | hmarked
    · exact ⟨impl, rfl, .inl (by rw [heq]; rfl)⟩
    · rw [hidle] at hmarked
      cases hmarked
  · exact ⟨t.state, frame_of_run hframe ht, .inr (by rw [heq])⟩

/-- What a call has to leave alone so that a reading does not change. -/
def Call.Framed (π : Impl → β) : Call → Prop
  | .register _ | .registerBatch _ => RegistrationFrame π
  | .fence _ | .retire _ => RecordFrame π
  | .grant _ => GrantFrame π
  | .revoke _ => RevokeFrame π
  | .advance _ => EpochFrame π
  | .bind _ => SessionFreeReading π
  | .close _ _ => FenceFrame π ∧ SessionFreeReading π
  | .flush => True
where
  /-- The reading does not look at the sessions. -/
  SessionFreeReading (π : Impl → β) : Prop := ∀ (s : Impl) sessions boots,
    π { s with sessionIndex := sessions, bootSessionIndex := boots } = π s

/-- **A call leaves alone what its operation does.** -/
theorem callRuntime_frame {π : Impl → β} {call : Call} (hframe : call.Framed π) {entropy : Entropy}
    {fault : Option SaveFault} {disk : Disk} {impl : Impl} {reply : Reply} (hs : impl.Settled)
    (h : (callRuntime call entropy fault disk impl).result = .ok reply) :
    ∃ u, π u = π impl ∧ (callRuntime call entropy fault disk impl).impl.Behind u := by
  cases call with
  | register request =>
    obtain ⟨a, ha⟩ := Transacted.map_result_ok h
    exact transact_frame (fun t ht => applyRegistration_advanced hs.regular rfl False.elim False.elim
      False.elim False.elim ht) (fun _ => Reads.applyRegistration hframe request true) ha
  | registerBatch requests =>
    obtain ⟨a, ha⟩ := Transacted.map_result_ok h
    exact transact_frame (fun t ht => registerBatch_advanced hs.regular rfl rfl False.elim False.elim
      False.elim False.elim ht) (fun _ => Reads.registerBatch hframe requests) ha
  | fence request =>
    obtain ⟨a, ha⟩ := Transacted.map_result_ok h
    exact transact_frame (fun t ht => fenceWorker_advanced hs.regular rfl rfl False.elim False.elim
      False.elim ht) (fun _ => Reads.fenceWorker hframe request) ha
  | grant request =>
    obtain ⟨a, ha⟩ := Transacted.map_result_ok h
    exact transact_frame (fun t ht => applyGrant_advanced hs.regular rfl False.elim False.elim ht)
      (fun _ => Reads.applyGrant hframe entropy request) ha
  | revoke request =>
    obtain ⟨a, ha⟩ := Transacted.map_result_ok h
    exact transact_frame (fun t ht => applyRevoke_advanced hs.regular rfl ht)
      (fun _ => Reads.applyRevoke hframe request) ha
  | advance request =>
    obtain ⟨a, ha⟩ := Transacted.map_result_ok h
    exact transact_frame (fun t ht => advanceEpoch_advanced hs.regular False.elim False.elim ht)
      (fun _ => Reads.advanceEpoch hframe entropy request) ha
  | retire request =>
    obtain ⟨a, ha⟩ := Transacted.map_result_ok h
    exact transact_frame (fun t ht => applyRetire_advanced hs.regular rfl False.elim False.elim
      False.elim ht) (fun _ => Reads.applyRetire hframe request) ha
  | bind binding =>
    refine ⟨_, ?_, .inl rfl⟩
    rw [callRuntime] at h ⊢
    unfold Impl.bindSession at h ⊢
    split
    · rfl
    · next accepted impl' hr =>
      split at hr
      · cases hr
        rfl
      · split at hr
        · cases hr
        · cases hr
          exact hframe _ _ _
  | close session reason =>
    obtain ⟨hfence, hfree⟩ := hframe
    obtain ⟨a, ha⟩ := Transacted.map_result_ok h
    show ∃ u, π u = π impl ∧ (closeSession session reason fault disk impl).impl.Behind u
    unfold closeSession at ha ⊢
    split
    · exact ⟨impl, rfl, .inl rfl⟩
    · next binding hbinding =>
      simp only [hbinding] at ha
      have hs' : (impl.eraseSession binding).Settled := hs.of_same rfl ⟨rfl, rfl, rfl, rfl⟩
      rw [← show π (impl.eraseSession binding) = π impl from hfree impl _ _]
      exact transact_frame (fun t ht => fenceSession_advanced hs'.regular rfl False.elim ht)
        (fun _ => Reads.fenceSession hfence session binding reason) ha
  | flush =>
    refine ⟨impl, rfl, .inl ?_⟩
    simp only [callRuntime]
    split <;> rfl

/-! ## Readings -/

section Readings

/-- The grants. -/
abbrev grantsOf (impl : Impl) : List AuthorityGrant := impl.state.grants

theorem grantsOf_updateParticipant (id : ParticipantId)
    (f : DurableParticipant → DurableParticipant) (s : Impl) :
    grantsOf (s.updateParticipant id f) = grantsOf s := by
  unfold Impl.updateParticipant
  split <;> rfl

theorem grantsOf_record : RecordFrame grantsOf where
  generation _ _ := rfl
  preventive id r s := grantsOf_updateParticipant id _ (s.setFenceFloor r.generation)
  removal id _ _ s := (grantsOf_updateParticipant id _ _).trans (grantsOf_updateParticipant id _ s)
  fence id r s := grantsOf_updateParticipant id _ (s.setFenceFloor r.generation)
  remember id _ _ s := grantsOf_updateParticipant id _ s
  retire id s := grantsOf_updateParticipant id _ s

theorem grantsOf_registration : RegistrationFrame grantsOf where
  toFenceFrame := grantsOf_record.toFenceFrame
  create _ _ _ := rfl
  floor _ _ := rfl
  register request _ _ _ _ s := grantsOf_updateParticipant request.participant _ s

theorem grantsOf_epoch : EpochFrame grantsOf where
  generation _ _ := rfl
  enter _ _ _ := rfl
  invalidate _ := rfl
  transition _ _ := rfl
  control _ _ := rfl

/-- The sessions. -/
abbrev sessionsOf (impl : Impl) : List SessionBinding := impl.sessionIndex

theorem sessionsOf_updateParticipant (id : ParticipantId)
    (f : DurableParticipant → DurableParticipant) (s : Impl) :
    sessionsOf (s.updateParticipant id f) = sessionsOf s := by
  unfold Impl.updateParticipant
  split <;> rfl

theorem sessionsOf_record : RecordFrame sessionsOf where
  generation _ _ := rfl
  preventive id r s := sessionsOf_updateParticipant id _ (s.setFenceFloor r.generation)
  removal id _ _ s :=
    (sessionsOf_updateParticipant id _ _).trans (sessionsOf_updateParticipant id _ s)
  fence id r s := sessionsOf_updateParticipant id _ (s.setFenceFloor r.generation)
  remember id _ _ s := sessionsOf_updateParticipant id _ s
  retire id s := sessionsOf_updateParticipant id _ s

theorem sessionsOf_registration : RegistrationFrame sessionsOf where
  toFenceFrame := sessionsOf_record.toFenceFrame
  create _ _ _ := rfl
  floor _ _ := rfl
  register request _ _ _ _ s := sessionsOf_updateParticipant request.participant _ s

theorem sessionsOf_epoch : EpochFrame sessionsOf where
  generation _ _ := rfl
  enter _ _ _ := rfl
  invalidate _ := rfl
  transition _ _ := rfl
  control _ _ := rfl

theorem sessionsOf_revoke : RevokeFrame sessionsOf where
  generation _ _ := rfl
  revoke root s := by
    obtain ⟨_, hrevised, -⟩ := Impl.Revised.revokeLoop root (2 * s.state.grants.length + 2) [root] 0 s
    rw [Impl.revokeFrom, hrevised]
  stamp id f s := by
    unfold Impl.updateGrant
    split <;> rfl
  control _ _ := rfl

end Readings

/-! ## What is fenced -/

/-- What holds of all records still holds behind a write to one of them. -/
theorem forall_updateParticipant {P : DurableParticipant → Prop} {impl : Impl}
    {f : DurableParticipant → DurableParticipant} (h : ∀ p ∈ impl.state.participants, P p)
    (hf : ∀ p, P p → P (f p)) (id : ParticipantId) :
    ∀ p ∈ (impl.updateParticipant id f).state.participants, P p := by
  unfold Impl.updateParticipant
  split
  · exact forall_mem_modify h hf _
  · exact h

/-- A fence that is no preventive one marks no other boot. -/
theorem recordFence_unfenced {id id' : ParticipantId} {boot boot' : WorkerBootId}
    {reason : FenceReason} {note : BoundedText} {t u : Txn Impl} {r : FenceResult}
    (h : recordFence id boot reason note false t = .ok r u)
    (hfenced : u.state.state.Fenced id' boot') :
    t.state.state.Fenced id' boot' ∨ boot' = boot := by
  rcases recordFence_own h with ⟨p, i, generation, next, record, hrecord, -, -, -, hstate, -⟩ |
    ⟨rfl, -⟩
  swap
  · exact .inl hfenced
  have hboot : record.boot = boot := by
    rw [hrecord]
    rfl
  -- what is in a record was there before, or is the boot of the fence
  let P : DurableParticipant → Prop := fun p' => ∀ b ∈ p'.fencedBoots,
    (∃ p ∈ t.state.state.participants, p.id = p'.id ∧ b ∈ p.fencedBoots) ∨ b = boot
  have hstart : ∀ p ∈ t.state.state.participants, P p := fun p hp b hb => .inl ⟨p, hp, rfl, hb⟩
  have hremoved : ∀ p ∈ ((t.state.updateParticipant id
      (·.removeIncarnation boot)).setActiveWorkers (t.state.activeWorkers - 1)).state.participants,
      P p := by
    refine forall_updateParticipant hstart (fun p hp => ?_) id
    obtain ⟨_, _, _, _, hframe⟩ := p.removeIncarnation_frame boot
    rw [hframe]
    exact hp
  have hraised : ∀ p ∈ ((t.state.applyRemoval id boot i).setFenceFloor
      record.generation).state.participants, P p := by
    refine forall_updateParticipant hremoved (fun p hp => ?_) id
    unfold DurableParticipant.raiseFloor
    split
    · exact hp
    · exact hp
  have hretained : ∀ p ∈ ((t.state.applyRemoval id boot i).applyFence id record).state.participants,
      P p := by
    refine forall_updateParticipant hraised (fun p hp b hb => ?_) id
    rcases mem_evictPush hb with hold | rfl
    · exact hp b hold
    · exact .inr hboot
  have hrecords : ∀ f ∈ ((t.state.applyRemoval id boot i).applyFence id record).state.recentFences,
      f ∈ t.state.state.recentFences ∨ f.boot = boot := by
    intro f hf
    rcases mem_evictPush hf with hold | rfl
    · have hkept : ((t.state.applyRemoval id boot i).setFenceFloor
          record.generation).state.recentFences = t.state.state.recentFences :=
        recentFences_applyRemoval t.state id boot i
      rw [recentFences_updateParticipant, hkept] at hold
      exact .inl hold
    · exact .inr hboot
  rw [hstate] at hfenced
  exact hfenced.before (N := fun _ b => b = boot) hrecords hretained

section Registrations

variable {request : RegisterParticipantRequest} {t u : Txn Impl} {r : RegistrationResult}

/-- What a registration does before it decides. -/
theorem Approach.frame {β : Type} {π : Impl → β} (h : FenceFrame π)
    (happroach : Approach request t u) : π u.state = π t.state := by
  cases happroach with
  | direct => rfl
  | incumbent replace => exact frame_of_run (fun _ => Reads.replaceIncumbent h request _) replace

/-- The incumbent that is fenced is not the boot of the request. -/
theorem Approach.unfenced (h : Approach request t u)
    (hfenced : u.state.state.Fenced request.participant request.boot) :
    t.state.state.Fenced request.participant request.boot := by
  cases h with
  | direct => exact hfenced
  | incumbent replace notLive =>
    rcases replaceIncumbent_fences replace with ⟨boot, fence, hincumbent, hfence⟩ | ⟨rfl, -⟩
    · rcases recordFence_unfenced hfence hfenced with hold | hboot
      · exact hold
      · rw [← hboot] at hincumbent
        exact absurd notLive (DurableParticipant.findIncarnation_incumbent hincumbent)
    · exact hfenced

theorem commitRegistration_recentFences {digest : SnapshotDigest} {commitGeneration : Bool}
    {participant : Option DurableParticipant}
    (h : commitRegistration request digest participant commitGeneration t = .ok r u) :
    u.state.state.recentFences = t.state.state.recentFences := by
  obtain ⟨p, t₀, g, next, t₁, t₂, hopen, -, -, ht₁, hbump, rfl, -⟩ := commitRegistration_ok h
  have hopened : t₀.state.state.recentFences = t.state.state.recentFences := by
    cases participant with
    | none =>
      cases hopen
      rfl
    | some q =>
      cases hopen
      rfl
  have hwritten : t₁.state.state.recentFences = t₀.state.state.recentFences := by
    rw [ht₁]
    exact recentFences_updateParticipant _ _ _
  rcases bumpWhen_ok hbump with ⟨-, rfl⟩ | ⟨_, -, rfl⟩
  · exact hwritten.trans hopened
  · exact hwritten.trans hopened

/-- A commit fences nothing. -/
theorem commitRegistration_unfenced {digest : SnapshotDigest} {commitGeneration : Bool}
    {participant : Option DurableParticipant}
    (h : commitRegistration request digest participant commitGeneration t = .ok r u)
    {id : ParticipantId} {boot : WorkerBootId} (hfenced : u.state.state.Fenced id boot) :
    t.state.state.Fenced id boot := by
  refine fenced_of_same hfenced (commitRegistration_recentFences h) ?_
  obtain ⟨p, t₀, g, next, t₁, t₂, hopen, -, -, ht₁, hbump, rfl, -⟩ := commitRegistration_ok h
  let P : DurableParticipant → Prop := fun p' => p'.fencedBoots = [] ∨
    ∃ p ∈ t.state.state.participants, p.id = p'.id ∧ p.fencedBoots = p'.fencedBoots
  have hopened : ∀ q ∈ (t₀.state.setRegistrationFloor g).state.participants, P q := by
    cases participant with
    | some q =>
      cases hopen
      exact fun p hp => .inr ⟨p, hp, rfl, rfl⟩
    | none =>
      cases hopen
      intro p hp
      rcases List.mem_append.mp hp with hold | hnew
      · exact .inr ⟨p, hold, rfl, rfl⟩
      · rw [List.mem_singleton.mp hnew]
        exact .inl rfl
  have hwritten : ∀ q ∈ t₁.state.state.participants, P q := by
    rw [ht₁]
    refine forall_updateParticipant hopened (fun q hq => ?_) request.participant
    obtain ⟨_, _, _, _, hframe⟩ :=
      q.register_frame t₀.state.options.limits request digest g p.nextIncarnation next
    rw [hframe]
    exact hq
  rcases bumpWhen_ok hbump with ⟨-, rfl⟩ | ⟨_, -, rfl⟩
  · exact hwritten
  · exact hwritten

end Registrations

end FabricEpoch
