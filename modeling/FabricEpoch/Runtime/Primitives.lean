import FabricEpoch.Runtime.Calls

/-!
# The primitive steps of the operations

Every operation is made of a few kinds of mutation, each with the undo action
that belongs to it. What all of these steps keep, every operation keeps, whether
it returns or throws: `Primitives I` lists the steps, each with what the
operation has checked in front of it, and one lemma for each operation follows.

- `Steps`, `Primitives`: the steps, without and with those on the grants;
- `Steps.recordFence`, `Steps.applyRegistration`, ...: the operations;
- `Upholds`: what is kept while an operation runs together with what is left
  behind its barrier or its rollback;
- `Upholds.reachable`: the invariant rule, over runs in which anything may fail.
-/

namespace FabricEpoch

open Table Transaction

/-! ## The steps -/

/-- The record a registration works on has been opened. -/
def openedTxn (request : RegisterParticipantRequest) (participant : Option DurableParticipant)
    (t : Txn Impl) : Txn Impl :=
  match participant with
  | none => (t.apply (Impl.createParticipant request.participant request.policy)).onUndo
      Impl.popParticipant
  | some previous => t.onUndo (Impl.restoreParticipant request.participant previous)

/-- The record a registration works on. -/
def openedRecord (request : RegisterParticipantRequest) (participant : Option DurableParticipant) :
    DurableParticipant :=
  participant.getD (.fresh request.participant request.policy)

/-- A new registration generation has been taken. -/
def Txn.floored (generation : RegistrationGeneration) (t : Txn Impl) : Txn Impl :=
  (t.onUndo (Impl.setRegistrationFloor t.state.state.registrationFloor)).apply
    (Impl.setRegistrationFloor generation)

/-- The boot has been written into the record and the indexes. -/
def Impl.registerBoot (request : RegisterParticipantRequest) (digest : SnapshotDigest)
    (generation : RegistrationGeneration) (incarnation next : IncarnationSequence) (impl : Impl) :
    Impl :=
  Impl.bindBoot request.participant request.boot
    (impl.updateParticipant request.participant
      (·.register impl.options.limits request digest generation incarnation next))

/-- The steps that leave the grants alone keep `I`. -/
structure Steps (I : Txn Impl → Prop) : Prop where
  mark : ∀ {t}, I t → I t.marked
  bump : ∀ {t}, I t →
    I (t.onUndo (Impl.setGeneration t.state.state.generation)) ∧
    ∀ g, t.state.state.generation.next = some g →
      I ((t.onUndo (Impl.setGeneration t.state.state.generation)).apply (Impl.setGeneration g))
  fence : ∀ {t id p boot incarnation}, I t → t.state.findParticipant id = some p →
    p.findIncarnation boot = some incarnation →
    I ((t.onUndo (t.state.undoFence id p)).apply (Impl.applyRemoval id boot incarnation)) ∧
    ∀ reason note generation, t.state.state.fenceFloor.next = some generation →
      I (((t.onUndo (t.state.undoFence id p)).apply (Impl.applyRemoval id boot incarnation)).apply
        (Impl.applyFence id (t.state.liveRecord id boot incarnation reason note generation)))
  preventive : ∀ {t id p boot generation} reason note, I t →
    t.state.findParticipant id = some p → p.findIncarnation boot = none →
    t.state.state.recentFences.length < t.state.options.limits.maxRecentFences →
    t.state.state.fenceFloor.next = some generation →
    I ((t.onUndo (t.state.undoPreventive id p)).apply
      (Impl.applyPreventive id (t.state.preventiveRecord id boot reason note generation)))
  registration : ∀ {t request participant}, I t →
    t.state.findParticipant request.participant = participant →
    (∀ p ∈ participant, p.findIncarnation request.boot = none) →
    (participant = none →
      t.state.state.participants.length < t.state.options.limits.maxParticipants) →
    t.state.activeWorkers < t.state.options.limits.maxActiveWorkers →
    I (openedTxn request participant t) ∧
    ∀ generation, t.state.state.registrationFloor.next = some generation →
      I (Txn.floored generation (openedTxn request participant t)) ∧
      ∀ digest next, (openedRecord request participant).nextIncarnation.next = some next →
        I ((Txn.floored generation (openedTxn request participant t)).apply
          (Impl.registerBoot request digest generation
            (openedRecord request participant).nextIncarnation next))
  remember : ∀ {t} id limits record, I t →
    I (t.apply (Impl.updateParticipant id (·.remember limits record)))
  control : ∀ {t} record, I t → I (t.apply (Impl.rememberControl record))
  epoch : ∀ {t epoch} boot, I t → t.undo = [] → t.state.state.currentEpoch.next = some epoch →
    I ((t.onUndo t.state.undoEpoch).apply (Impl.enterEpoch epoch boot)) ∧
    ∀ generation, t.state.state.generation.next = some generation → ∀ live : Bool,
      I ((((t.onUndo t.state.undoEpoch).apply (Impl.enterEpoch epoch boot)).apply
        (Impl.setGeneration generation)).apply fun s => if live then s.invalidateLive else s) ∧
      ∀ id cause, I (((((t.onUndo t.state.undoEpoch).apply (Impl.enterEpoch epoch boot)).apply
        (Impl.setGeneration generation)).apply fun s => if live then s.invalidateLive else s).apply
          (Impl.pushTransition (t.state.newTransition id epoch generation boot cause)))
  retire : ∀ {t} id (fenced : DurableParticipant), I t →
    I ((t.onUndo (Impl.rawUpdateParticipant id fenced.restoreRetirement)).apply
      (Impl.updateParticipant id (·.retire)))

/-- The steps all operations are made of keep `I`. -/
structure Primitives (I : Txn Impl → Prop) : Prop extends Steps I where
  grant : ∀ {t request p} id, I t → t.state.malformedGrant request = none →
    t.state.findParticipant request.participant = some p →
    t.state.refusedGrantee p request = none → t.state.refusedDelegation request = none →
    I ((t.apply (Impl.pushGrant (t.state.newGrant request id))).onUndo Impl.popGrant)
  stamp : ∀ {t} g i, I t → I (t.apply (Impl.setGrantGeneration g i))
  revoke : ∀ {t id g}, I t → t.state.findGrant id = some g → g.revoked = false →
    I ((t.onUndo (t.state.undoRevoke g)).apply fun impl => (impl.revokeFrom g.id).1)
  restamp : ∀ {t} id generation, I t →
    I (t.apply (Impl.updateGrant id fun g => { g with generation }))

/-- Opening the record returns it, whoever asked for it. -/
theorem openRecord_run (request : RegisterParticipantRequest)
    (participant : Option DurableParticipant) (t : Txn Impl) :
    openRecord request participant t =
      .ok (openedRecord request participant) (openedTxn request participant t) := by
  cases participant <;> rfl

/-! ## A boot that holds no incarnation -/

/-- The boot holds no incarnation of the participant the index leads to. -/
def Impl.Unbound (id : ParticipantId) (boot : WorkerBootId) (impl : Impl) : Prop :=
  ∀ p, impl.findParticipant id = some p → p.findIncarnation boot = none

namespace Impl

variable {id : ParticipantId} {boot : WorkerBootId} {impl : Impl}

/-- Reading a record that was written through the index. -/
theorem findParticipant_updateParticipant (f : DurableParticipant → DurableParticipant) :
    (impl.updateParticipant id f).findParticipant id = (impl.findParticipant id).map f := by
  unfold updateParticipant
  cases hi : impl.participantIndex id with
  | none => simp [findParticipant, hi]
  | some i => simp [findParticipant, hi, mapState]

theorem Unbound.update (h : impl.Unbound id boot) {f : DurableParticipant → DurableParticipant}
    (hf : ∀ p, p.findIncarnation boot = none → (f p).findIncarnation boot = none) :
    (impl.updateParticipant id f).Unbound id boot := by
  intro q hq
  rw [findParticipant_updateParticipant] at hq
  obtain ⟨p, hp, rfl⟩ := Option.map_eq_some_iff.mp hq
  exact hf p (h p hp)

end Impl

namespace DurableParticipant

variable {p : DurableParticipant} {boot : WorkerBootId}

/-- **No incarnation**: the boot is not live. -/
theorem find_eq_none_iff : p.findIncarnation boot = none ↔ boot ∉ p.liveBoots := by
  rw [mem_liveBoots]
  unfold findIncarnation
  split
  · next h => simp [h.1, h.2]
  · next h =>
    rw [Option.map_eq_none_iff, List.find?_eq_none]
    constructor
    · rintro hf (⟨ha, rfl⟩ | ⟨e, he, rfl⟩)
      · exact h ⟨ha, rfl⟩
      · exact hf e he (by simp)
    · intro hn e he heq
      exact hn (.inr ⟨e, he, by simpa using heq⟩)

theorem find_raiseFloor (i : IncarnationSequence) :
    (p.raiseFloor i).findIncarnation boot = p.findIncarnation boot := by
  unfold raiseFloor
  split <;> rfl

/-- A removal brings no incarnation in. -/
theorem find_removeIncarnation_none (h : p.findIncarnation boot = none) (other : WorkerBootId) :
    (p.removeIncarnation other).findIncarnation boot = none := by
  rw [find_eq_none_iff, mem_liveBoots, not_or] at h ⊢
  obtain ⟨hactive, hextra⟩ := h
  unfold removeIncarnation
  split
  · split
    · next first rest heq =>
      rw [heq] at hextra
      constructor
      · rintro ⟨-, rfl⟩
        exact hextra ⟨first, List.mem_cons_self .., rfl⟩
      · rintro ⟨e, he, rfl⟩
        exact hextra ⟨e, List.mem_cons_of_mem _ he, rfl⟩
    · next heq =>
      constructor
      · rintro ⟨hempty, -⟩
        cases hempty
      · exact hextra
  · refine ⟨hactive, ?_⟩
    rintro ⟨e, he, rfl⟩
    exact hextra ⟨e, List.mem_of_mem_filter he, rfl⟩

end DurableParticipant

namespace Impl

variable {id : ParticipantId} {boot other : WorkerBootId} {impl : Impl}

theorem Unbound.applyRemoval (h : impl.Unbound id boot) (i : IncarnationSequence) :
    (impl.applyRemoval id other i).Unbound id boot := by
  have hremoved : (impl.updateParticipant id (·.removeIncarnation other)).Unbound id boot :=
    h.update fun _ hp => DurableParticipant.find_removeIncarnation_none hp other
  have hset : ((impl.updateParticipant id (·.removeIncarnation other)).setActiveWorkers
      (impl.activeWorkers - 1)).Unbound id boot := hremoved
  exact hset.update fun _ hp => (DurableParticipant.find_raiseFloor i).trans hp

theorem Unbound.applyFence (h : impl.Unbound id boot) (record : FenceRecord) :
    (impl.applyFence id record).Unbound id boot := by
  have hset : (impl.setFenceFloor record.generation).Unbound id boot := h
  exact hset.update (f := fun p =>
    (p.setFenceGeneration record.generation).retainFenced impl.options.limits record.boot)
    fun _ hp => hp

theorem Unbound.applyPreventive (h : impl.Unbound id boot) (record : FenceRecord) :
    (impl.applyPreventive id record).Unbound id boot := by
  have hset : (impl.setFenceFloor record.generation).Unbound id boot := h
  exact hset.update (f := (·.setFenceGeneration record.generation)) fun _ hp => hp

end Impl

theorem bumpGeneration_unbound {id : ParticipantId} {boot : WorkerBootId} :
    Keeps (fun t => t.state.Unbound id boot) bumpGeneration :=
  Keeps.bind Keeps.read fun _ => Keeps.bind (Keeps.pushUndo fun _ h => h) fun _ =>
    Keeps.bind (Keeps.orFail _ _) fun _ => Keeps.modify fun _ h => h

/-- **A fence brings no incarnation in.** -/
theorem recordFence_unbound {id : ParticipantId} {boot : WorkerBootId} (fenced : WorkerBootId)
    (reason : FenceReason) (note : BoundedText) (allowDefensive : Bool) :
    Keeps (fun t => t.state.Unbound id boot) (recordFence id fenced reason note allowDefensive) := by
  refine Keeps.bind Keeps.read fun impl => ?_
  split
  · exact Keeps.pure _
  · refine Keeps.ite (fun _ => Keeps.pure _) fun _ => ?_
    split
    · exact Keeps.bind Keeps.read fun _ => Keeps.bind (Keeps.pushUndo fun _ h => h) fun _ =>
        Keeps.bind (Keeps.modify fun _ h => h.applyRemoval _) fun _ =>
        Keeps.bind (Keeps.orFail _ _) fun _ =>
        Keeps.bind (Keeps.modify fun _ h => h.applyFence _) fun _ =>
        Keeps.bind bumpGeneration_unbound fun _ => Keeps.bind (fun _ h => h) fun _ => Keeps.pure _
    · refine Keeps.ite (fun _ => Keeps.pure _) fun _ => Keeps.ite (fun _ => Keeps.pure _) fun _ => ?_
      exact Keeps.bind Keeps.read fun _ => Keeps.bind (Keeps.orFail _ _) fun _ =>
        Keeps.bind (Keeps.pushUndo fun _ h => h) fun _ =>
        Keeps.bind (Keeps.modify fun _ h => h.applyPreventive _) fun _ =>
        Keeps.bind bumpGeneration_unbound fun _ => Keeps.bind (fun _ h => h) fun _ => Keeps.pure _

theorem replaceIncumbent_unbound (request : RegisterParticipantRequest) (p : DurableParticipant) :
    Keeps (fun t => t.state.Unbound request.participant request.boot)
      (replaceIncumbent request p) := by
  unfold replaceIncumbent
  split
  · refine Keeps.ite (fun _ => ?_) fun _ => Keeps.pure _
    refine Keeps.bind Keeps.read fun impl => ?_
    split
    · exact Keeps.pure _
    · exact Keeps.bind (recordFence_unbound _ _ _ _) fun _ =>
        Keeps.ite (fun _ => Keeps.pure _) fun _ => Keeps.pure _
  · exact Keeps.pure _

/-- The boot is not live in the record that has been opened. -/
theorem openedTxn_unbound {t : Txn Impl} {request : RegisterParticipantRequest}
    {participant : Option DurableParticipant}
    (hp : t.state.findParticipant request.participant = participant)
    (hboot : ∀ p ∈ participant, p.findIncarnation request.boot = none) :
    (openedTxn request participant t).state.Unbound request.participant request.boot := by
  intro q hq
  cases participant with
  | none =>
    have hfresh : (t.state.createParticipant request.participant request.policy).findParticipant
        request.participant = some (.fresh request.participant request.policy) := by
      simp [Impl.findParticipant, Impl.createParticipant, Impl.mapState]
    obtain rfl := Option.some.inj (hfresh.symm.trans hq)
    rfl
  | some p =>
    obtain rfl := Option.some.inj (hp.symm.trans hq)
    exact hboot _ rfl

/-- The incarnation is the next one of the participant the index leads to. -/
def Impl.Issues (id : ParticipantId) (incarnation next : IncarnationSequence) (impl : Impl) : Prop :=
  ∀ p, impl.findParticipant id = some p →
    p.nextIncarnation = incarnation ∧ p.nextIncarnation.next = some next

/-- What the opened record issues. -/
theorem openedTxn_issues {t : Txn Impl} {request : RegisterParticipantRequest}
    {participant : Option DurableParticipant} {next : IncarnationSequence}
    (hp : t.state.findParticipant request.participant = participant)
    (hnext : (openedRecord request participant).nextIncarnation.next = some next) :
    (openedTxn request participant t).state.Issues request.participant
      (openedRecord request participant).nextIncarnation next := by
  intro q hq
  cases participant with
  | none =>
    have hfresh : (t.state.createParticipant request.participant request.policy).findParticipant
        request.participant = some (.fresh request.participant request.policy) := by
      simp [Impl.findParticipant, Impl.createParticipant, Impl.mapState]
    obtain rfl := Option.some.inj (hfresh.symm.trans hq)
    exact ⟨rfl, hnext⟩
  | some p =>
    obtain rfl := Option.some.inj (hp.symm.trans hq)
    exact ⟨rfl, hnext⟩

/-! ## The operations -/

namespace Steps

variable {I : Txn Impl → Prop}

theorem bumpGeneration (hI : Steps I) : Keeps I FabricEpoch.bumpGeneration := by
  refine Keeps.current fun t ht => ?_
  obtain ⟨hpush, hset⟩ := hI.bump ht
  rw [Action.bind_pushUndo]
  cases hnext : t.state.state.generation.next with
  | none => exact hpush
  | some g => exact hset g hnext

theorem bumpWhen (hI : Steps I) (condition : Bool) :
    Keeps I (FabricEpoch.bumpWhen condition) :=
  Keeps.ite (fun _ => hI.bumpGeneration) fun _ => Keeps.pure ()

theorem markMutated (hI : Steps I) : Keeps I (Action.markMutated : Op Unit) :=
  fun _ ht => hI.mark ht

theorem fenceIncarnation (hI : Steps I) {t : Txn Impl} (ht : I t) {id : ParticipantId}
    {p : DurableParticipant} {boot : WorkerBootId} {incarnation : IncarnationSequence}
    (hp : t.state.findParticipant id = some p) (hboot : p.findIncarnation boot = some incarnation)
    (reason : FenceReason) (note : BoundedText) :
    I (after (FabricEpoch.fenceIncarnation id p boot incarnation reason note t)) := by
  obtain ⟨hremoved, hfenced⟩ := hI.fence ht hp hboot
  unfold FabricEpoch.fenceIncarnation
  rw [Action.bind_current, Action.bind_pushUndo, Action.bind_modify]
  cases hnext : t.state.state.fenceFloor.next with
  | none => exact hremoved
  | some generation =>
    rw [Action.bind_orFail_some, Action.bind_modify]
    exact Keeps.bind hI.bumpGeneration (fun _ => Keeps.bind hI.markMutated fun _ => Keeps.pure _) _
      (hfenced reason note generation hnext)

theorem recordPreventiveFence (hI : Steps I) {t : Txn Impl} (ht : I t) {id : ParticipantId}
    {p : DurableParticipant} {boot : WorkerBootId}
    (hp : t.state.findParticipant id = some p) (hboot : p.findIncarnation boot = none)
    (hroom : t.state.state.recentFences.length < t.state.options.limits.maxRecentFences)
    (reason : FenceReason) (note : BoundedText) :
    I (after (FabricEpoch.recordPreventiveFence id p boot reason note t)) := by
  unfold FabricEpoch.recordPreventiveFence
  rw [Action.bind_current]
  cases hnext : t.state.state.fenceFloor.next with
  | none => exact ht
  | some generation =>
    rw [Action.bind_orFail_some, Action.bind_pushUndo, Action.bind_modify]
    exact Keeps.bind hI.bumpGeneration (fun _ => Keeps.bind hI.markMutated fun _ => Keeps.pure _) _
      (hI.preventive reason note ht hp hboot hroom hnext)

theorem recordFence (hI : Steps I) (id : ParticipantId) (boot : WorkerBootId)
    (reason : FenceReason) (note : BoundedText) (allowDefensive : Bool) :
    Keeps I (FabricEpoch.recordFence id boot reason note allowDefensive) := by
  refine Keeps.current fun t ht => ?_
  cases hp : t.state.findParticipant id with
  | none => exact ht
  | some p =>
    dsimp only
    by_cases hfenced : (t.state.lookupFence id boot).fenced = true
    · rw [if_pos hfenced]
      exact ht
    rw [if_neg hfenced]
    cases hboot : p.findIncarnation boot with
    | some incarnation => exact hI.fenceIncarnation ht hp hboot reason note
    | none =>
      dsimp only
      split
      · exact ht
      · split
        · exact ht
        · next hroom => exact hI.recordPreventiveFence ht hp hboot (not_le.mp hroom) reason note

theorem replaceIncumbent (hI : Steps I) (request : RegisterParticipantRequest)
    (p : DurableParticipant) : Keeps I (FabricEpoch.replaceIncumbent request p) := by
  unfold FabricEpoch.replaceIncumbent
  split
  · refine Keeps.ite (fun _ => ?_) fun _ => Keeps.pure _
    refine Keeps.bind Keeps.read fun impl => ?_
    split
    · exact Keeps.pure _
    · exact Keeps.bind (hI.recordFence _ _ _ _ _) fun _ =>
        Keeps.ite (fun _ => Keeps.pure _) fun _ => Keeps.pure _
  · exact Keeps.pure _

/-- The commit of a registration, behind its checks. -/
theorem commitRegistration (hI : Steps I) {t : Txn Impl} (ht : I t)
    {request : RegisterParticipantRequest} {participant : Option DurableParticipant}
    (hp : t.state.findParticipant request.participant = participant)
    (hboot : ∀ p ∈ participant, p.findIncarnation request.boot = none)
    (hroom : participant = none →
      t.state.state.participants.length < t.state.options.limits.maxParticipants)
    (hworkers : t.state.activeWorkers < t.state.options.limits.maxActiveWorkers)
    (digest : SnapshotDigest) (commitGeneration : Bool) :
    I (after (FabricEpoch.commitRegistration request digest participant commitGeneration t)) := by
  obtain ⟨hopened, hrest⟩ := hI.registration ht hp hboot hroom hworkers
  have hfloor : (openedTxn request participant t).state.state.registrationFloor =
      t.state.state.registrationFloor := by
    cases participant <;> rfl
  unfold FabricEpoch.commitRegistration
  rw [Action.bind_run, openRecord_run]
  dsimp only
  rw [Action.bind_current]
  cases hnext : t.state.state.registrationFloor.next with
  | none =>
    rw [hfloor, hnext]
    exact hopened
  | some generation =>
    obtain ⟨hfloored, hregistered⟩ := hrest generation hnext
    rw [hfloor, hnext, Action.bind_orFail_some, Action.bind_pushUndo, Action.bind_modify]
    have hstate : ({ state := (openedTxn request participant t).state.setRegistrationFloor generation
                     undo := Impl.setRegistrationFloor t.state.state.registrationFloor ::
                       (openedTxn request participant t).undo
                     mutated := (openedTxn request participant t).mutated } : Txn Impl) =
        Txn.floored generation (openedTxn request participant t) := by
      rw [Txn.floored, hfloor]
      rfl
    cases hincarnation : (openedRecord request participant).nextIncarnation.next with
    | none => exact hstate ▸ hfloored
    | some next =>
      rw [Action.bind_orFail_some, Action.bind_modify]
      refine Keeps.bind (hI.bumpWhen _) (fun _ => Keeps.bind hI.markMutated fun _ => Keeps.pure _) _ ?_
      have hwritten := hregistered digest next hincarnation
      rw [← hstate] at hwritten
      exact hwritten

theorem admitRegistration (hI : Steps I) {t : Txn Impl} (ht : I t)
    {request : RegisterParticipantRequest} {participant : Option DurableParticipant}
    (hp : t.state.findParticipant request.participant = participant)
    (hboot : ∀ p ∈ participant, p.findIncarnation request.boot = none)
    (hroom : participant = none →
      t.state.state.participants.length < t.state.options.limits.maxParticipants)
    (digest : SnapshotDigest) (commitGeneration : Bool) :
    I (after (FabricEpoch.admitRegistration request digest participant commitGeneration t)) := by
  unfold FabricEpoch.admitRegistration
  rw [Action.bind_current]
  split
  · exact ht
  · next hworkers =>
    exact hI.commitRegistration ht hp hboot hroom (not_le.mp hworkers) digest commitGeneration

theorem registerExisting (hI : Steps I) {t : Txn Impl} (ht : I t)
    {request : RegisterParticipantRequest} {p : DurableParticipant}
    (hp : t.state.findParticipant request.participant = some p)
    (hboot : p.findIncarnation request.boot = none) (digest : SnapshotDigest)
    (commitGeneration : Bool) :
    I (after (FabricEpoch.registerExisting request digest p commitGeneration t)) := by
  have hunbound : t.state.Unbound request.participant request.boot := by
    intro q hq
    obtain rfl := Option.some.inj (hp.symm.trans hq)
    exact hboot
  -- the fence of the incumbent keeps both what is claimed and that the boot is not live
  have hkept : I (after (FabricEpoch.replaceIncumbent request p t)) ∧
      (after (FabricEpoch.replaceIncumbent request p t)).state.Unbound request.participant
        request.boot :=
    ⟨hI.replaceIncumbent request p t ht, replaceIncumbent_unbound request p t hunbound⟩
  unfold FabricEpoch.registerExisting
  rw [Action.bind_run]
  cases hr : FabricEpoch.replaceIncumbent request p t with
  | error e t' =>
    rw [hr] at hkept
    exact hkept.1
  | ok refusal t' =>
    rw [hr] at hkept
    obtain ⟨ht', hunbound'⟩ : I t' ∧ t'.state.Unbound request.participant request.boot := hkept
    cases refusal with
    | some result => exact ht'
    | none =>
      dsimp only
      rw [Action.bind_current]
      cases hq : t'.state.findParticipant request.participant with
      | none => exact ht'
      | some q =>
        refine hI.admitRegistration ht' hq (fun q' hq' => ?_) (fun h => by cases h) digest
          commitGeneration
        obtain rfl := Option.mem_some_iff.mp hq'
        exact hunbound' q hq

theorem registerNew (hI : Steps I) {t : Txn Impl} (ht : I t)
    {request : RegisterParticipantRequest}
    (hp : t.state.findParticipant request.participant = none) (digest : SnapshotDigest)
    (commitGeneration : Bool) :
    I (after (FabricEpoch.registerNew request digest commitGeneration t)) := by
  unfold FabricEpoch.registerNew
  rw [Action.bind_current]
  split
  · exact ht
  · next hroom =>
    exact hI.admitRegistration ht hp (by simp) (fun _ => not_le.mp hroom) digest commitGeneration

theorem applyRegistration (hI : Steps I) (request : RegisterParticipantRequest)
    (commitGeneration : Bool) : Keeps I (FabricEpoch.applyRegistration request commitGeneration) := by
  refine Keeps.current fun t ht => ?_
  cases t.state.malformedRegistration request with
  | some result => exact ht
  | none =>
    cases t.state.staleRegistration request with
    | some result => exact ht
    | none =>
      refine Keeps.ofExcept_bind ht fun digest _ => ?_
      cases hp : t.state.findParticipant request.participant with
      | none => exact hI.registerNew ht hp digest commitGeneration
      | some p =>
        dsimp only
        cases hconflict : t.state.conflictingRegistration p request digest with
        | some result => exact ht
        | none =>
          exact hI.registerExisting ht hp (conflictingRegistration_none hconflict).2.2 digest
            commitGeneration

theorem applyRegistrations (hI : Steps I) (requests : List RegisterParticipantRequest) :
    Keeps I (FabricEpoch.applyRegistrations requests) := by
  induction requests with
  | nil => exact Keeps.pure _
  | cons request requests ih =>
    exact Keeps.bind (hI.applyRegistration request false) fun _ => Keeps.bind ih fun _ =>
      Keeps.pure _

theorem registerBatch (hI : Steps I) (requests : List RegisterParticipantRequest) :
    Keeps I (FabricEpoch.registerBatch requests) :=
  Keeps.bind (hI.applyRegistrations requests) fun _ => Keeps.bind Keeps.hasMutated fun _ =>
    Keeps.bind (hI.bumpWhen _) fun _ => Keeps.pure _

/-- An epoch change comes first in its transaction. -/
theorem mutateEpoch (hI : Steps I) {t : Txn Impl} (ht : I t) (hfirst : t.undo = [])
    (entropy : Entropy) (boot : CoordinatorBootId) (cause : EpochTransitionCause)
    (invalidateLive : Bool) :
    I (after (FabricEpoch.mutateEpoch entropy boot cause invalidateLive t)) := by
  unfold FabricEpoch.mutateEpoch
  rw [Action.bind_current]
  cases hepoch : t.state.state.currentEpoch.next with
  | none => exact ht
  | some epoch =>
    obtain ⟨hentered, hrest⟩ := hI.epoch boot ht hfirst hepoch
    rw [Action.bind_orFail_some, Action.bind_pushUndo, Action.bind_modify]
    cases hgeneration : t.state.state.generation.next with
    | none => exact hentered
    | some generation =>
      obtain ⟨hinvalidated, hpushed⟩ := hrest generation hgeneration invalidateLive
      rw [Action.bind_orFail_some, Action.bind_modify, Action.bind_modify]
      cases entropy with
      | error e => exact hinvalidated
      | ok bytes => exact hpushed ⟨bytes⟩ cause

theorem establishEpoch (hI : Steps I) {t : Txn Impl} (ht : I t) (hfirst : t.undo = [])
    (entropy : Entropy) (boot : CoordinatorBootId) (cause : EpochTransitionCause)
    (invalidateLive : Bool) :
    I (after (FabricEpoch.establishEpoch entropy boot cause invalidateLive t)) :=
  Keeps.bind_at (hI.mutateEpoch ht hfirst _ _ _ _) fun _ => hI.markMutated

theorem advanceEpoch (hI : Steps I) {t : Txn Impl} (ht : I t) (hfirst : t.undo = [])
    (entropy : Entropy) (request : EpochAdvanceRequest) :
    I (after (FabricEpoch.advanceEpoch entropy request t)) := by
  unfold FabricEpoch.advanceEpoch
  rw [Action.bind_current]
  split
  · exact ht
  refine Keeps.ofExcept_bind ht fun digest _ => ?_
  cases findAttempt t.state.state.controlAttempts request.attempt with
  | some previous => exact ht
  | none =>
    cases t.state.refusedAdvance request with
    | some result => exact ht
    | none =>
      show I (after (commitAdvance entropy request digest t))
      unfold commitAdvance
      rw [Action.bind_current]
      exact Keeps.bind_at (hI.mutateEpoch ht hfirst _ _ _ _) fun _ => Keeps.bind Keeps.read fun _ =>
        Keeps.bind (Keeps.modify fun _ h => hI.control _ h) fun _ => Keeps.bind hI.markMutated
        fun _ => Keeps.pure _

theorem fenceWorker (hI : Steps I) (request : FenceWorkerRequest) :
    Keeps I (FabricEpoch.fenceWorker request) := by
  refine Keeps.bind Keeps.read fun impl => ?_
  split
  · exact Keeps.pure _
  · exact Keeps.pure _
  · refine Keeps.bind (Keeps.ofExcept _) fun digest => ?_
    split
    · exact Keeps.pure _
    · refine Keeps.bind (hI.recordFence _ _ _ _ _) fun result => Keeps.bind Keeps.hasMutated
        fun m => Keeps.bind (Keeps.bind Keeps.read fun _ t ht => ?_) fun _ => Keeps.pure _
      cases m with
      | true => exact hI.remember _ _ _ ht
      | false => exact ht

theorem fenceAll (hI : Steps I) (id : ParticipantId) (note : BoundedText)
    (boots : List WorkerBootId) : Keeps I (FabricEpoch.fenceAll id note boots) := by
  induction boots with
  | nil => exact Keeps.pure _
  | cons boot boots ih =>
    exact Keeps.bind (hI.recordFence _ _ _ _ _) fun _ => Keeps.bind Keeps.read fun _ =>
      Keeps.ite (fun _ => Keeps.fail _) fun _ => Keeps.bind ih fun _ => Keeps.pure _

theorem applyRetire (hI : Steps I) (request : RetireParticipantRequest) :
    Keeps I (FabricEpoch.applyRetire request) := by
  refine Keeps.bind Keeps.read fun impl => ?_
  split
  · exact Keeps.pure _
  · exact Keeps.pure _
  · refine Keeps.bind (Keeps.ofExcept _) fun digest => ?_
    split
    · exact Keeps.pure _
    · refine Keeps.ite (fun _ => Keeps.pure _) fun _ => Keeps.bind (hI.fenceAll _ _ _) fun _ =>
        Keeps.current fun t ht => ?_
      rw [Action.bind_pushUndo, Action.bind_modify]
      exact Keeps.bind hI.bumpGeneration (fun _ => Keeps.bind (Keeps.modify fun _ h => hI.remember _ _ _ h)
        fun _ => Keeps.bind hI.markMutated fun _ => Keeps.pure _) _ (hI.retire _ _ ht)

theorem fenceSession (hI : Steps I) (session : SessionId) (binding : SessionBinding)
    (reason : SessionClosureReason) : Keeps I (FabricEpoch.fenceSession session binding reason) := by
  refine Keeps.bind Keeps.read fun impl => ?_
  refine Keeps.ite (fun _ => Keeps.pure _) fun _ => ?_
  split
  · exact Keeps.pure _
  · split
    · exact Keeps.pure _
    · exact hI.recordFence _ _ _ _ _

end Steps

namespace Primitives

variable {I : Txn Impl → Prop}

theorem applyGrant (hI : Primitives I) (entropy : Entropy) (request : GrantAuthorityRequest) :
    Keeps I (FabricEpoch.applyGrant entropy request) := by
  refine Keeps.current fun t ht => ?_
  cases hwell : t.state.malformedGrant request with
  | some result => exact ht
  | none =>
    cases hp : t.state.findParticipant request.participant with
    | none => exact ht
    | some p =>
      cases hgrantee : t.state.refusedGrantee p request with
      | some result =>
        simp only [hgrantee]
        exact ht
      | none =>
        simp only [hgrantee]
        refine Keeps.ofExcept_bind ht fun digest _ => ?_
        cases findAttempt p.idempotency request.attempt with
        | some previous => exact ht
        | none =>
          cases hparent : t.state.refusedDelegation request with
          | some result => exact ht
          | none =>
            show I (after (FabricEpoch.commitGrant entropy request digest t))
            unfold FabricEpoch.commitGrant
            rw [Action.bind_current]
            refine Keeps.ofExcept_bind ht fun bytes _ => ?_
            rw [Action.bind_modify, Action.bind_pushUndo]
            refine Keeps.bind hI.bumpGeneration (fun _ => Keeps.bind Keeps.read fun _ =>
              Keeps.bind (Keeps.modify fun _ h => hI.stamp _ _ h) fun _ => Keeps.bind
              (Keeps.modify fun _ h => hI.remember _ _ _ h) fun _ => Keeps.bind hI.markMutated fun _ =>
              Keeps.pure _) _ ?_
            exact hI.grant ⟨bytes⟩ ht hwell hp hgrantee hparent

theorem applyRevoke (hI : Primitives I) (request : RevokeAuthorityRequest) :
    Keeps I (FabricEpoch.applyRevoke request) := by
  refine Keeps.current fun t ht => ?_
  cases t.state.malformedRevoke request with
  | some result => exact ht
  | none =>
    refine Keeps.ofExcept_bind ht fun digest _ => ?_
    cases findAttempt t.state.state.controlAttempts request.attempt with
    | some previous => exact ht
    | none =>
      cases hg : t.state.findGrant request.grant with
      | none => exact ht
      | some g =>
        by_cases hrevoked : g.revoked = true
        · simp only [hrevoked, if_true]
          exact ht
        simp only [hrevoked, if_false, Bool.false_eq_true]
        show I (after (FabricEpoch.commitRevoke request digest g t))
        unfold FabricEpoch.commitRevoke
        rw [Action.bind_current, Action.bind_pushUndo, Action.bind_modify]
        refine Keeps.bind hI.bumpGeneration (fun _ => Keeps.bind Keeps.read fun _ =>
          Keeps.bind (Keeps.modify fun _ h => hI.restamp _ _ h) fun _ => Keeps.bind
          (Keeps.modify fun _ h => hI.control _ h) fun _ => Keeps.bind hI.markMutated fun _ => Keeps.pure _) _ ?_
        exact hI.revoke ht hg (by simpa using hrevoked)

end Primitives

/-! ## Behind the barrier -/

/-- The operation is made of the primitive steps. -/
def Composed {α : Type} (op : Op α) : Prop :=
  ∀ I : Txn Impl → Prop, Primitives I → ∀ t, t.undo = [] → I t → I (after (op t))

theorem Composed.of_keeps {α : Type} {op : Op α}
    (h : ∀ {I : Txn Impl → Prop}, Primitives I → Keeps I op) : Composed op :=
  fun _ hI t _ ht => h hI t ht

/-- The operation is made of steps that leave the grants alone. -/
def Stepwise {α : Type} (op : Op α) : Prop :=
  ∀ I : Txn Impl → Prop, Steps I → ∀ t, t.undo = [] → I t → I (after (op t))

theorem Stepwise.of_keeps {α : Type} {op : Op α}
    (h : ∀ {I : Txn Impl → Prop}, Steps I → Keeps I op) : Stepwise op :=
  fun _ hI t _ ht => h hI t ht

theorem Stepwise.composed {α : Type} {op : Op α} (h : Stepwise op) : Composed op :=
  fun I hI => h I hI.toSteps

/-! ### The operations of the calls -/

theorem stepwise_applyRegistration (request : RegisterParticipantRequest)
    (commitGeneration : Bool) : Stepwise (applyRegistration request commitGeneration) :=
  .of_keeps fun hI => hI.applyRegistration request commitGeneration

theorem stepwise_registerBatch (requests : List RegisterParticipantRequest) :
    Stepwise (registerBatch requests) :=
  .of_keeps fun hI => hI.registerBatch requests

theorem stepwise_fenceWorker (request : FenceWorkerRequest) : Stepwise (fenceWorker request) :=
  .of_keeps fun hI => hI.fenceWorker request

theorem composed_applyGrant (entropy : Entropy) (request : GrantAuthorityRequest) :
    Composed (applyGrant entropy request) :=
  .of_keeps fun hI => hI.applyGrant entropy request

theorem composed_applyRevoke (request : RevokeAuthorityRequest) : Composed (applyRevoke request) :=
  .of_keeps fun hI => hI.applyRevoke request

theorem stepwise_advanceEpoch (entropy : Entropy) (request : EpochAdvanceRequest) :
    Stepwise (advanceEpoch entropy request) :=
  fun _ hI _ hfirst ht => hI.advanceEpoch ht hfirst entropy request

theorem stepwise_applyRetire (request : RetireParticipantRequest) :
    Stepwise (applyRetire request) :=
  .of_keeps fun hI => hI.applyRetire request

theorem stepwise_fenceSession (session : SessionId) (binding : SessionBinding)
    (reason : SessionClosureReason) : Stepwise (fenceSession session binding reason) :=
  .of_keeps fun hI => hI.fenceSession session binding reason

theorem stepwise_establishEpoch (entropy : Entropy) (boot : CoordinatorBootId)
    (cause : EpochTransitionCause) (invalidateLive : Bool) :
    Stepwise (establishEpoch entropy boot cause invalidateLive) :=
  fun _ hI _ hfirst ht => hI.establishEpoch ht hfirst entropy boot cause invalidateLive

/-! ### What is upheld -/

/-- `I before` is kept by an operation that starts in `before`, and leads back to
`J` whatever becomes of the transaction. -/
structure Upholds (J : Impl → Prop) (I : Impl → Txn Impl → Prop) : Prop where
  primitives : ∀ {before}, J before → Primitives (I before)
  start : ∀ {before}, J before → I before (Txn.start before)
  rolledBack : ∀ {before t}, J before → I before t → J t.rollback
  committed : ∀ {before t}, J before → I before t → J t.state.canonicalize.rebuildIndexes
  restored : ∀ {before t}, J before → I before t →
    J (t.apply Impl.canonicalize).rollback.rebuildIndexes

/-- `J` does not look at the sessions. -/
def SessionFree (J : Impl → Prop) : Prop :=
  ∀ (impl : Impl) sessions boots, J impl →
    J { impl with sessionIndex := sessions, bootSessionIndex := boots }

namespace Upholds

variable {J : Impl → Prop} {I : Impl → Txn Impl → Prop}

/-- **A transaction upholds the invariant**, whether it commits or not. -/
theorem transact (h : Upholds J I) {α : Type} {op : Op α}
    (hop : Composed op) {impl : Impl} (hJ : J impl) (fault : Option SaveFault) (disk : Disk) :
    J (FabricEpoch.transact op fault disk impl).impl := by
  have hkept : I impl (after (op (Txn.start impl))) :=
    hop _ (h.primitives hJ) _ rfl (h.start hJ)
  unfold FabricEpoch.transact
  cases hr : op (Txn.start impl) with
  | error e t =>
    rw [hr] at hkept
    exact h.rolledBack hJ hkept
  | ok a t =>
    rw [hr] at hkept
    dsimp only
    split
    · unfold persist
      dsimp only
      split
      · exact h.restored hJ hkept
      · exact h.committed hJ hkept
    · exact h.rolledBack hJ hkept

theorem callRuntime (h : Upholds J I) (hfree : SessionFree J) {impl : Impl} (hJ : J impl)
    (call : Call) (entropy : Entropy) (fault : Option SaveFault) (disk : Disk) :
    J (FabricEpoch.callRuntime call entropy fault disk impl).impl := by
  cases call with
  | register request => exact h.transact (stepwise_applyRegistration request true).composed hJ fault disk
  | registerBatch requests => exact h.transact (stepwise_registerBatch requests).composed hJ fault disk
  | fence request => exact h.transact (stepwise_fenceWorker request).composed hJ fault disk
  | grant request => exact h.transact (composed_applyGrant entropy request) hJ fault disk
  | revoke request => exact h.transact (composed_applyRevoke request) hJ fault disk
  | advance request => exact h.transact (stepwise_advanceEpoch entropy request).composed hJ fault disk
  | retire request => exact h.transact (stepwise_applyRetire request).composed hJ fault disk
  | bind binding =>
    rw [FabricEpoch.callRuntime]
    unfold Impl.bindSession
    split
    · exact hJ
    · next accepted impl' hr =>
      split at hr
      · cases hr
        exact hJ
      · split at hr
        · cases hr
        · cases hr
          exact hfree impl _ _ hJ
  | close session reason =>
    show J (closeSession session reason fault disk impl).impl
    unfold closeSession
    split
    · exact hJ
    · next binding _ =>
      exact h.transact (stepwise_fenceSession session binding reason).composed (hfree impl _ _ hJ) fault
        disk
  | flush =>
    rw [FabricEpoch.callRuntime]
    split <;> exact hJ

/-- An opening upholds what holds of the loaded state. -/
theorem openRuntime (h : Upholds J I) {opening : Opening} {fault : Option SaveFault} {disk : Disk}
    {impl : Impl} (hload : ∀ state boot, loadRuntime opening disk = .ok (state, boot) →
      J (Impl.ofState { opening.options with coordinatorBoot := some boot } state))
    (hopen : (FabricEpoch.openRuntime opening fault disk).1 = some impl) : J impl := by
  unfold FabricEpoch.openRuntime at hopen
  split at hopen
  · cases hopen
  next state boot hloaded =>
  have hJ := hload state boot hloaded
  dsimp only at hopen
  split at hopen
  · split at hopen
    · cases hopen
    · cases hopen
      exact h.transact (stepwise_establishEpoch _ _ _ _).composed hJ fault disk
  · split at hopen
    · cases hopen
      exact hJ
    · cases hopen

/-- **Invariant rule**: whatever fails on the way. -/
theorem reachable (h : Upholds J I) (hfree : SessionFree J)
    (hload : ∀ opening disk state boot, loadRuntime opening disk = .ok (state, boot) →
      J (Impl.ofState { opening.options with coordinatorBoot := some boot } state))
    {host : Host} (hreach : coordinator.Reaches (fun _ _ => True) host) {impl : Impl}
    (himpl : host.runtime = some impl) : J impl := by
  have hinv : ∀ impl ∈ host.runtime, J impl := by
    refine hreach.invariant (I := fun host => ∀ impl ∈ host.runtime, J impl)
      (fun _ hi => by cases hi) fun host input ih _ impl' himpl' => ?_
    have hstep : impl' ∈ (stepRuntime input host.disk host.runtime).1 := himpl'
    cases input with
    | «open» opening fault =>
      exact h.openRuntime (fun state boot => hload opening host.disk state boot) hstep
    | call call entropy fault =>
      cases hr : host.runtime with
      | none =>
        rw [hr] at hstep
        cases hstep
      | some impl =>
        rw [hr] at hstep
        cases hstep
        exact h.callRuntime hfree (ih impl hr) call entropy fault host.disk
  exact hinv impl himpl

end Upholds

/-! ## Properties of the memory alone -/

/-- Every mutation and every undo action preserves `P`. An undo action that puts
back a part of an earlier memory may use that `P` held of it. -/
structure Stable (P : Impl → Prop) : Prop where
  generation : ∀ {s} g, P s → P (s.setGeneration g)
  floor : ∀ {s} g, P s → P (s.setRegistrationFloor g)
  removal : ∀ {s} id boot i, P s → P (s.applyRemoval id boot i)
  fence : ∀ {s} id record, P s → P (s.applyFence id record)
  undoFence : ∀ {before id p s}, P before → before.findParticipant id = some p → P s →
    P (before.undoFence id p s)
  preventive : ∀ {s} id record, P s → P (s.applyPreventive id record)
  undoPreventive : ∀ {before id p s}, P before → before.findParticipant id = some p → P s →
    P (before.undoPreventive id p s)
  create : ∀ {s} id policy, P s → P (s.createParticipant id policy)
  pop : ∀ {s}, P s → P s.popParticipant
  restore : ∀ {before id p s}, P before → before.findParticipant id = some p → P s →
    P (s.restoreParticipant id p)
  register : ∀ {s} request digest generation incarnation next, P s →
    s.Unbound request.participant request.boot → s.Issues request.participant incarnation next →
    P (s.registerBoot request digest generation incarnation next)
  pushGrant : ∀ {s} g, P s → P (s.pushGrant g)
  popGrant : ∀ {s}, P s → P s.popGrant
  stamp : ∀ {s} g i, P s → P (s.setGrantGeneration g i)
  remember : ∀ {s} id limits record, P s →
    P (s.updateParticipant id (·.remember limits record))
  revoke : ∀ {s} id, P s → P (s.revokeFrom id).1
  undoRevoke : ∀ {before s} g, P before → P s → P (before.undoRevoke g s)
  restamp : ∀ {s} id (generation : GrantGeneration), P s →
    P (s.updateGrant id fun g => { g with generation })
  control : ∀ {s} record, P s → P (s.rememberControl record)
  enter : ∀ {s epoch} boot, P s → s.state.currentEpoch.next = some epoch → P (s.enterEpoch epoch boot)
  undoEpoch : ∀ {before s}, P before → P s → P (before.undoEpoch s)
  invalidate : ∀ {s}, P s → P s.invalidateLive
  transition : ∀ {s} t, P s → P (s.pushTransition t)
  retire : ∀ {s} id, P s → P (s.updateParticipant id (·.retire))
  undoRetire : ∀ {s} id (fenced : DurableParticipant), P s →
    P (s.rawUpdateParticipant id fenced.restoreRetirement)
  canonicalize : ∀ {s}, P s → P s.canonicalize
  rebuild : ∀ {s}, P s → P s.rebuildIndexes

namespace Stable

variable {P : Impl → Prop}

/-- The record a registration works on has been opened. -/
theorem opened (h : Stable P) {t : Txn Impl} (ht : Guarded P t)
    {request : RegisterParticipantRequest} {participant : Option DurableParticipant}
    (hp : t.state.findParticipant request.participant = participant) :
    Guarded P (openedTxn request participant t) := by
  cases participant with
  | none => exact (ht.apply fun hs => h.create _ _ hs).onUndo fun _ hs => h.pop hs
  | some p => exact ht.onUndo fun _ hs => h.restore ht.state hp hs

theorem primitives (h : Stable P) : Primitives (Guarded P) where
  mark ht := ⟨ht.state, ht.undo⟩
  bump {t} ht := by
    have hpushed : Guarded P (t.onUndo (Impl.setGeneration t.state.state.generation)) :=
      ht.onUndo fun _ hs => h.generation _ hs
    exact ⟨hpushed, fun g _ => hpushed.apply fun hs => h.generation g hs⟩
  fence {t id p boot incarnation} ht hp _ := by
    have hremoved : Guarded P ((t.onUndo (t.state.undoFence id p)).apply
        (Impl.applyRemoval id boot incarnation)) :=
      (ht.onUndo fun _ hs => h.undoFence ht.state hp hs).apply fun hs => h.removal _ _ _ hs
    exact ⟨hremoved, fun _ _ _ _ => hremoved.apply fun hs => h.fence _ _ hs⟩
  preventive _ _ ht hp _ _ _ :=
    (ht.onUndo fun _ hs => h.undoPreventive ht.state hp hs).apply fun hs => h.preventive _ _ hs
  registration {t request participant} ht hp hboot _ _ := by
    have hopened := h.opened ht hp
    refine ⟨hopened, fun generation _ => ?_⟩
    have hfloored : Guarded P (Txn.floored generation (openedTxn request participant t)) :=
      (hopened.onUndo fun _ hs => h.floor _ hs).apply fun hs => h.floor generation hs
    exact ⟨hfloored, fun digest next hnext => hfloored.apply fun hs =>
      h.register _ _ _ _ _ hs (openedTxn_unbound hp hboot) (openedTxn_issues hp hnext)⟩
  grant _ ht _ _ _ _ := (ht.apply fun hs => h.pushGrant _ hs).onUndo fun _ hs => h.popGrant hs
  stamp _ _ ht := ht.apply fun hs => h.stamp _ _ hs
  remember _ _ _ ht := ht.apply fun hs => h.remember _ _ _ hs
  revoke ht _ _ := (ht.onUndo fun _ hs => h.undoRevoke _ ht.state hs).apply fun hs => h.revoke _ hs
  restamp _ _ ht := ht.apply fun hs => h.restamp _ _ hs
  control _ ht := ht.apply fun hs => h.control _ hs
  epoch {t epoch} boot ht _ hnext := by
    have hentered : Guarded P ((t.onUndo t.state.undoEpoch).apply (Impl.enterEpoch epoch boot)) :=
      (ht.onUndo fun _ hs => h.undoEpoch ht.state hs).apply fun hs => h.enter boot hs hnext
    refine ⟨hentered, fun generation _ live => ?_⟩
    have hinvalidated := (hentered.apply (f := Impl.setGeneration generation) fun hs =>
      h.generation generation hs).apply (f := fun s => if live then s.invalidateLive else s)
      fun hs => by
        cases live with
        | true => exact h.invalidate hs
        | false => exact hs
    exact ⟨hinvalidated, fun _ _ => hinvalidated.apply fun hs => h.transition _ hs⟩
  retire _ _ ht := (ht.onUndo fun _ hs => h.undoRetire _ _ hs).apply fun hs => h.retire _ hs

theorem upholds (h : Stable P) : Upholds P fun _ => Guarded P where
  primitives _ := h.primitives
  start hP := .start hP
  rolledBack _ ht := ht.rollback
  committed _ ht := h.rebuild (h.canonicalize ht.state)
  restored _ ht := h.rebuild (Guarded.rollback (ht.apply fun hs => h.canonicalize hs))

end Stable

end FabricEpoch
