import FabricEpoch.Runtime.Indexing

/-!
# What the records keep

A rule says something about every participant, fence, grant and transition that
is held. The mutations and the undo actions of the operations keep a rule that
the values of the requests obey, whatever throws on the way.

- `RecordRule`: a property for each kind of record, closed under the updates;
- `Obeys`: a memory whose records, and those it is going to make, obey the rule;
- `Obeying.recordFence`, `Obeying.applyRegistration`, ...: the operations;
- `transact_obeys`: behind the barrier or the rollback.
-/

namespace FabricEpoch

open Table Transaction

/-- What is demanded of the records. An update of a participant may change all
but its identifier, its scopes and its allocator; an update of a grant may
change its generation and its revocation. -/
structure RecordRule where
  participant : DurableParticipant → Prop
  fence : FenceRecord → Prop
  grant : AuthorityGrant → Prop
  transition : EpochTransitionRecord → Prop
  steady : ∀ {p q}, participant p → q.id = p.id → q.scopes = p.scopes →
    q.nextIncarnation = p.nextIncarnation → participant q
  revised : ∀ {g g'}, grant g → g'.participant = g.participant → g'.scopes = g.scopes →
    g'.provenance = g.provenance → grant g'
  blankFence : fence .blank
  blankTransition : transition .blank

namespace RecordRule

variable (R : RecordRule)

/-- Every fence of this participant under this note obeys the rule. -/
def AdmitsFence (id : ParticipantId) (note : BoundedText) : Prop :=
  ∀ record : FenceRecord, record.participant = id → record.note = note → R.fence record

/-- What a registration creates and writes obeys the rule. -/
structure AdmitsRegistration (request : RegisterParticipantRequest) : Prop where
  fresh : R.participant (.fresh request.participant request.policy)
  register : ∀ p q, R.participant p → q.id = p.id → q.scopes = request.scopes →
    q.nextIncarnation.value ≠ 0 → R.participant q
  incumbent : R.AdmitsFence request.participant .blank

def AdmitsGrant (request : GrantAuthorityRequest) : Prop :=
  ∀ g : AuthorityGrant, g.participant = request.participant → g.scopes = request.scopes →
    g.provenance = request.provenance → R.grant g

/-- The records obey the rule, and so do the transitions the options stand for. -/
structure Obeys (impl : Impl) : Prop where
  participants : ∀ p ∈ impl.state.participants, R.participant p
  fences : ∀ f ∈ impl.state.recentFences, R.fence f
  grants : ∀ g ∈ impl.state.grants, R.grant g
  transitions : ∀ t ∈ impl.state.transitions, R.transition t
  provenance : ∀ t : EpochTransitionRecord, t.provenance = impl.options.provenance → R.transition t

end RecordRule

/-! ## The mutations -/

namespace DurableParticipant

variable {R : RecordRule} {p : DurableParticipant}

theorem removeIncarnation_obeys (h : R.participant p) (boot : WorkerBootId) :
    R.participant (p.removeIncarnation boot) := by
  refine R.steady h (p.removeIncarnation_id boot) ?_ ?_
  · unfold removeIncarnation
    split
    · split <;> rfl
    · rfl
  · unfold removeIncarnation
    split
    · split <;> rfl
    · rfl

theorem raiseFloor_obeys (h : R.participant p) (i : IncarnationSequence) :
    R.participant (p.raiseFloor i) := by
  unfold raiseFloor
  split
  · exact R.steady h rfl rfl rfl
  · exact h

theorem retire_obeys (h : R.participant p) : R.participant p.retire := by
  unfold retire
  dsimp only
  split
  · exact R.steady h rfl rfl rfl
  · exact R.steady (raiseFloor_obeys h p.highestIssued) rfl rfl rfl

theorem register_obeys (h : R.participant p) {request : RegisterParticipantRequest}
    (hadmits : R.AdmitsRegistration request) (limits : Limits) (digest : SnapshotDigest)
    (g : RegistrationGeneration) (i : IncarnationSequence) {next : IncarnationSequence}
    (hnext : next.value ≠ 0) : R.participant (p.register limits request digest g i next) := by
  refine hadmits.register p _ h (p.register_id limits request digest g i next) ?_ ?_
  · unfold register addIncarnation
    split <;> rfl
  · have hsame : (p.register limits request digest g i next).nextIncarnation = next := by
      unfold register addIncarnation
      split <;> rfl
    rw [hsame]
    exact hnext

end DurableParticipant

namespace RecordRule.Obeys

variable {R : RecordRule} {impl : Impl}

/-- A state with the same records, under the same options. -/
theorem of_same {impl' : Impl} (h : R.Obeys impl)
    (hparticipants : impl'.state.participants = impl.state.participants)
    (hfences : impl'.state.recentFences = impl.state.recentFences)
    (hgrants : impl'.state.grants = impl.state.grants)
    (htransitions : impl'.state.transitions = impl.state.transitions)
    (hoptions : impl'.options = impl.options) : R.Obeys impl' where
  participants := hparticipants ▸ h.participants
  fences := hfences ▸ h.fences
  grants := hgrants ▸ h.grants
  transitions := htransitions ▸ h.transitions
  provenance := hoptions ▸ h.provenance

theorem found (h : R.Obeys impl) {id : ParticipantId} {p : DurableParticipant}
    (hp : impl.findParticipant id = some p) : R.participant p :=
  h.participants p (Impl.mem_of_find hp)

theorem updateParticipant (h : R.Obeys impl) (id : ParticipantId)
    {f : DurableParticipant → DurableParticipant} (hf : ∀ p, R.participant p → R.participant (f p)) :
    R.Obeys (impl.updateParticipant id f) := by
  unfold Impl.updateParticipant
  split
  · exact ⟨forall_mem_modify h.participants hf _, h.fences, h.grants, h.transitions, h.provenance⟩
  · exact h

theorem rawUpdateParticipant (h : R.Obeys impl) (id : ParticipantId)
    {f : DurableParticipant → DurableParticipant} (hf : ∀ p, R.participant p → R.participant (f p)) :
    R.Obeys (impl.rawUpdateParticipant id f) :=
  ⟨forall_mem_modifyFirst h.participants hf, h.fences, h.grants, h.transitions, h.provenance⟩

theorem updateGrant (h : R.Obeys impl) (id : AuthorityGrantId) {f : AuthorityGrant → AuthorityGrant}
    (hf : ∀ g, R.grant g → R.grant (f g)) : R.Obeys (impl.updateGrant id f) := by
  unfold Impl.updateGrant
  split
  · exact ⟨h.participants, h.fences, forall_mem_modify h.grants hf _, h.transitions, h.provenance⟩
  · exact h

theorem setGeneration (h : R.Obeys impl) (g : EpochGeneration) : R.Obeys (impl.setGeneration g) :=
  h.of_same rfl rfl rfl rfl rfl

theorem setFenceFloor (h : R.Obeys impl) (g : FencingGeneration) : R.Obeys (impl.setFenceFloor g) :=
  h.of_same rfl rfl rfl rfl rfl

theorem resizeFences (h : R.Obeys impl) (n : Nat) : R.Obeys (impl.resizeFences n) :=
  ⟨h.participants, forall_mem_resize h.fences R.blankFence n, h.grants, h.transitions, h.provenance⟩

theorem applyPreventive (h : R.Obeys impl) (id : ParticipantId) {record : FenceRecord}
    (hrecord : R.fence record) : R.Obeys (impl.applyPreventive id record) := by
  have hset := (h.setFenceFloor record.generation).updateParticipant id
    (f := (·.setFenceGeneration record.generation)) fun _ hp => R.steady hp rfl rfl rfl
  refine ⟨hset.participants, fun f hf => ?_, hset.grants, hset.transitions, hset.provenance⟩
  rcases List.mem_append.mp hf with hf | hf
  · exact hset.fences f hf
  · rw [List.mem_singleton.mp hf]
    exact hrecord

theorem undoPreventive (h : R.Obeys impl) (before : Impl) (id : ParticipantId)
    (p : DurableParticipant) : R.Obeys (before.undoPreventive id p impl) :=
  ((h.setFenceFloor _).resizeFences _).rawUpdateParticipant id fun _ hp => R.steady hp rfl rfl rfl

theorem applyRemoval (h : R.Obeys impl) (id : ParticipantId) (boot : WorkerBootId)
    (i : IncarnationSequence) : R.Obeys (impl.applyRemoval id boot i) := by
  have hremoved := h.updateParticipant id fun _ hp => DurableParticipant.removeIncarnation_obeys hp boot
  have hset : R.Obeys ((impl.updateParticipant id (·.removeIncarnation boot)).setActiveWorkers
      (impl.activeWorkers - 1)) := hremoved.of_same rfl rfl rfl rfl rfl
  exact hset.updateParticipant id fun _ hp => DurableParticipant.raiseFloor_obeys hp i

theorem applyFence (h : R.Obeys impl) (id : ParticipantId) {record : FenceRecord}
    (hrecord : R.fence record) : R.Obeys (impl.applyFence id record) := by
  have hset := (h.setFenceFloor record.generation).updateParticipant id
    (f := fun p => (p.setFenceGeneration record.generation).retainFenced impl.options.limits
      record.boot) fun _ hp => R.steady hp rfl rfl rfl
  exact ⟨hset.participants, forall_mem_evictPush hset.fences hrecord _, hset.grants,
    hset.transitions, hset.provenance⟩

theorem undoFence (h : R.Obeys impl) (before : Impl) (id : ParticipantId) (p : DurableParticipant) :
    R.Obeys (before.undoFence id p impl) := by
  have hset : R.Obeys ((Impl.resizeFences before.state.recentFences.length
      (impl.setFenceFloor before.state.fenceFloor)).setActiveWorkers before.activeWorkers) :=
    ((h.setFenceFloor _).resizeFences _).of_same rfl rfl rfl rfl rfl
  exact hset.rawUpdateParticipant id fun _ hp => R.steady hp rfl rfl rfl

theorem createParticipant (h : R.Obeys impl) {id : ParticipantId} {policy : IncarnationPolicy}
    (hfresh : R.participant (.fresh id policy)) : R.Obeys (impl.createParticipant id policy) := by
  refine ⟨fun p hp => ?_, h.fences, h.grants, h.transitions, h.provenance⟩
  rcases List.mem_append.mp hp with hp | hp
  · exact h.participants p hp
  · rw [List.mem_singleton.mp hp]
    exact hfresh

theorem popParticipant (h : R.Obeys impl) : R.Obeys impl.popParticipant :=
  ⟨fun p hp => h.participants p (List.dropLast_subset _ hp), h.fences, h.grants, h.transitions,
    h.provenance⟩

theorem pushGrant (h : R.Obeys impl) {grant : AuthorityGrant} (hgrant : R.grant grant) :
    R.Obeys (impl.pushGrant grant) := by
  refine ⟨h.participants, h.fences, fun g hg => ?_, h.transitions, h.provenance⟩
  rcases List.mem_append.mp hg with hg | hg
  · exact h.grants g hg
  · rw [List.mem_singleton.mp hg]
    exact hgrant

theorem popGrant (h : R.Obeys impl) : R.Obeys impl.popGrant :=
  ⟨h.participants, h.fences, fun g hg => h.grants g (List.dropLast_subset _ hg), h.transitions,
    h.provenance⟩

theorem setGrantGeneration (h : R.Obeys impl) (g : GrantGeneration) (i : Nat) :
    R.Obeys (impl.setGrantGeneration g i) :=
  ⟨h.participants, h.fences,
    forall_mem_modify (f := fun x : AuthorityGrant => { x with generation := g }) h.grants
      (fun _ hg => R.revised hg rfl rfl rfl) i,
    h.transitions, h.provenance⟩

theorem revokeLoop (root : AuthorityGrantId) (fuel : Nat) (pending : List AuthorityGrantId)
    (n : Nat) (h : R.Obeys impl) : R.Obeys (Impl.revokeLoop root fuel pending n impl).1 :=
  Impl.revokeLoop_keeps (fun _ id hs => hs.updateGrant id fun _ hg => R.revised hg rfl rfl rfl) root
    fuel pending n h

theorem restoreLoop (fuel : Nat) (pending : List AuthorityGrantId) (h : R.Obeys impl) :
    R.Obeys (Impl.restoreLoop fuel pending impl) :=
  Impl.restoreLoop_keeps (fun _ id hs => hs.updateGrant id fun _ hg => R.revised hg rfl rfl rfl) fuel
    pending h

theorem undoRevoke (h : R.Obeys impl) (before : Impl) (grant : AuthorityGrant) :
    R.Obeys (before.undoRevoke grant impl) := by
  have hset : R.Obeys (impl.resizeControlAttempts before.state.controlAttempts.length) :=
    h.of_same rfl rfl rfl rfl rfl
  exact (hset.restoreLoop _ _).updateGrant grant.id fun _ hg => R.revised hg rfl rfl rfl

theorem invalidateLive (h : R.Obeys impl) : R.Obeys impl.invalidateLive := by
  refine ⟨fun p hp => ?_, h.fences, h.grants, h.transitions, h.provenance⟩
  obtain ⟨q, hq, rfl⟩ := List.mem_map.mp hp
  exact R.steady (h.participants q hq) rfl rfl rfl

theorem pushTransition (h : R.Obeys impl) {t : EpochTransitionRecord} (ht : R.transition t) :
    R.Obeys (impl.pushTransition t) :=
  ⟨h.participants, h.fences, h.grants, forall_mem_evictPush h.transitions ht _, h.provenance⟩

theorem undoEpoch {before : Impl} (hbefore : R.Obeys before) (h : R.Obeys impl) :
    R.Obeys (before.undoEpoch impl) :=
  ⟨hbefore.participants, h.fences, h.grants, forall_mem_resize h.transitions R.blankTransition _,
    h.provenance⟩

theorem canonicalize (h : R.Obeys impl) : R.Obeys impl.canonicalize :=
  ⟨fun p hp => h.participants p ((List.perm_insertionSort _ _).mem_iff.mp hp), h.fences, h.grants,
    h.transitions, h.provenance⟩

end RecordRule.Obeys

/-! ## The operations -/

namespace Obeying

variable {R : RecordRule}

theorem bumpGeneration : Keeps (Guarded R.Obeys) FabricEpoch.bumpGeneration :=
  Keeps.bind Keeps.read fun _ => Keeps.bind (Guarded.pushUndo fun _ h => h.setGeneration _) fun _ =>
    Keeps.bind (Keeps.orFail _ _) fun _ => Guarded.modify fun _ h => h.setGeneration _

theorem bumpWhen (condition : Bool) :
    Keeps (Guarded R.Obeys) (FabricEpoch.bumpWhen condition) :=
  Keeps.ite (fun _ => bumpGeneration) fun _ => Keeps.pure ()

theorem recordFence {id : ParticipantId} {note : BoundedText} (hadmits : R.AdmitsFence id note)
    (boot : WorkerBootId) (reason : FenceReason) (allowDefensive : Bool) :
    Keeps (Guarded R.Obeys) (FabricEpoch.recordFence id boot reason note allowDefensive) := by
  refine Keeps.bind Keeps.read fun impl => ?_
  split
  · exact Keeps.pure _
  · refine Keeps.ite (fun _ => Keeps.pure _) fun _ => ?_
    split
    · -- the fence of a live incarnation
      exact Keeps.bind Keeps.read fun _ =>
        Keeps.bind (Guarded.pushUndo fun _ h => h.undoFence _ _ _) fun _ =>
        Keeps.bind (Guarded.modify fun _ h => h.applyRemoval _ _ _) fun _ =>
        Keeps.bind (Keeps.orFail _ _) fun _ =>
        Keeps.bind (Guarded.modify fun _ h => h.applyFence _ (hadmits _ rfl rfl)) fun _ =>
        Keeps.bind bumpGeneration fun _ => Keeps.bind Guarded.markMutated fun _ => Keeps.pure _
    · refine Keeps.ite (fun _ => Keeps.pure _) fun _ => Keeps.ite (fun _ => Keeps.pure _) fun _ => ?_
      exact Keeps.bind Keeps.read fun _ => Keeps.bind (Keeps.orFail _ _) fun _ =>
        Keeps.bind (Guarded.pushUndo fun _ h => h.undoPreventive _ _ _) fun _ =>
        Keeps.bind (Guarded.modify fun _ h => h.applyPreventive _ (hadmits _ rfl rfl)) fun _ =>
        Keeps.bind bumpGeneration fun _ => Keeps.bind Guarded.markMutated fun _ => Keeps.pure _

theorem replaceIncumbent {request : RegisterParticipantRequest}
    (hadmits : R.AdmitsRegistration request) (p : DurableParticipant) :
    Keeps (Guarded R.Obeys) (FabricEpoch.replaceIncumbent request p) := by
  unfold FabricEpoch.replaceIncumbent
  split
  · refine Keeps.ite (fun _ => ?_) fun _ => Keeps.pure _
    refine Keeps.bind Keeps.read fun impl => ?_
    split
    · exact Keeps.pure _
    · exact Keeps.bind (recordFence hadmits.incumbent _ _ _) fun _ =>
        Keeps.ite (fun _ => Keeps.pure _) fun _ => Keeps.pure _
  · exact Keeps.pure _

/-- The record that is opened obeys the rule, and its undo puts back one that
does. -/
theorem openRecord {request : RegisterParticipantRequest} (hadmits : R.AdmitsRegistration request)
    {participant : Option DurableParticipant} (hp : ∀ p ∈ participant, R.participant p) :
    Keeps (Guarded R.Obeys) (FabricEpoch.openRecord request participant) := by
  cases participant with
  | none =>
    exact Keeps.bind (Guarded.modify fun _ h => h.createParticipant hadmits.fresh) fun _ =>
      Keeps.bind (Guarded.pushUndo fun _ h => h.popParticipant) fun _ => Keeps.pure _
  | some p =>
    exact Keeps.bind (Guarded.pushUndo fun _ h => h.rawUpdateParticipant _ fun _ _ => hp p rfl)
      fun _ => Keeps.pure _

theorem commitRegistration {request : RegisterParticipantRequest}
    (hadmits : R.AdmitsRegistration request) (digest : SnapshotDigest)
    {participant : Option DurableParticipant} (hp : ∀ p ∈ participant, R.participant p)
    (commitGeneration : Bool) : Keeps (Guarded R.Obeys)
      (FabricEpoch.commitRegistration request digest participant commitGeneration) := by
  refine Keeps.bind (openRecord hadmits hp) fun record => Keeps.bind Keeps.read fun impl =>
    Keeps.bind (Keeps.orFail _ _) fun generation => Keeps.bind (Guarded.pushUndo fun _ h =>
      h.of_same rfl rfl rfl rfl rfl) fun _ => Keeps.bind (Guarded.modify fun _ h =>
      h.of_same rfl rfl rfl rfl rfl) fun _ => Keeps.orFail_bind fun next hnext => ?_
  have hvalue : next.value ≠ 0 := by
    rw [MonotonicCounter.next_eq_some hnext]
    omega
  refine Keeps.bind (Guarded.modify fun s h => ?_) fun _ => Keeps.bind (bumpWhen _) fun _ =>
    Keeps.bind Guarded.markMutated fun _ => Keeps.pure _
  have hwritten := h.updateParticipant request.participant fun p hp =>
    DurableParticipant.register_obeys hp hadmits s.options.limits digest generation
      record.nextIncarnation hvalue
  exact hwritten.of_same rfl rfl rfl rfl rfl

theorem admitRegistration {request : RegisterParticipantRequest}
    (hadmits : R.AdmitsRegistration request) (digest : SnapshotDigest)
    {participant : Option DurableParticipant} (hp : ∀ p ∈ participant, R.participant p)
    (commitGeneration : Bool) : Keeps (Guarded R.Obeys)
      (FabricEpoch.admitRegistration request digest participant commitGeneration) :=
  Keeps.bind Keeps.read fun _ =>
    Keeps.ite (fun _ => Keeps.pure _) fun _ => commitRegistration hadmits digest hp commitGeneration

theorem registerExisting {request : RegisterParticipantRequest}
    (hadmits : R.AdmitsRegistration request) (digest : SnapshotDigest) (p : DurableParticipant)
    (commitGeneration : Bool) : Keeps (Guarded R.Obeys)
      (FabricEpoch.registerExisting request digest p commitGeneration) := by
  refine Keeps.bind (replaceIncumbent hadmits p) fun refusal => ?_
  cases refusal with
  | some result => exact Keeps.pure _
  | none =>
    refine Keeps.current fun t ht => ?_
    cases hp : t.state.findParticipant request.participant with
    | none => exact ht
    | some q =>
      refine admitRegistration hadmits digest (fun p hmem => ?_) commitGeneration t ht
      obtain rfl := Option.mem_some_iff.mp hmem
      exact ht.state.found hp

theorem applyRegistration {request : RegisterParticipantRequest}
    (hadmits : R.AdmitsRegistration request) (commitGeneration : Bool) :
    Keeps (Guarded R.Obeys) (FabricEpoch.applyRegistration request commitGeneration) := by
  refine Keeps.bind Keeps.read fun impl => ?_
  split
  · exact Keeps.pure _
  · exact Keeps.pure _
  · refine Keeps.bind (Keeps.ofExcept _) fun digest => ?_
    split
    · split
      · exact Keeps.pure _
      · exact registerExisting hadmits digest _ commitGeneration
    · exact Keeps.bind Keeps.read fun _ => Keeps.ite (fun _ => Keeps.pure _) fun _ =>
        admitRegistration hadmits digest (by simp) commitGeneration

theorem applyRegistrations {requests : List RegisterParticipantRequest}
    (hadmits : ∀ request ∈ requests, R.AdmitsRegistration request) :
    Keeps (Guarded R.Obeys) (FabricEpoch.applyRegistrations requests) := by
  induction requests with
  | nil => exact Keeps.pure _
  | cons request requests ih =>
    have hfirst := applyRegistration (hadmits request (List.mem_cons_self ..)) false
    have hrest := ih fun r hr => hadmits r (List.mem_cons_of_mem _ hr)
    exact Keeps.bind hfirst fun _ => Keeps.bind hrest fun _ => Keeps.pure _

theorem registerBatch {requests : List RegisterParticipantRequest}
    (hadmits : ∀ request ∈ requests, R.AdmitsRegistration request) :
    Keeps (Guarded R.Obeys) (FabricEpoch.registerBatch requests) :=
  Keeps.bind (applyRegistrations hadmits) fun _ => Keeps.bind Keeps.hasMutated fun _ =>
    Keeps.bind (bumpWhen _) fun _ => Keeps.pure _

theorem remember (id : ParticipantId) (limits : Limits) (record : IdempotencyRecord) :
    Keeps (Guarded R.Obeys)
      (Action.modify (Impl.updateParticipant id (·.remember limits record)) : Op Unit) :=
  Guarded.modify fun _ h => h.updateParticipant id fun _ hp => R.steady hp rfl rfl rfl

theorem applyGrant (entropy : Entropy) {request : GrantAuthorityRequest}
    (hadmits : R.AdmitsGrant request) :
    Keeps (Guarded R.Obeys) (FabricEpoch.applyGrant entropy request) := by
  refine Keeps.bind Keeps.read fun impl => ?_
  split
  · exact Keeps.pure _
  · exact Keeps.pure _
  · split
    · exact Keeps.pure _
    · refine Keeps.bind (Keeps.ofExcept _) fun digest => ?_
      split
      · exact Keeps.pure _
      · exact Keeps.pure _
      · exact Keeps.bind Keeps.read fun _ => Keeps.bind (Keeps.ofExcept _) fun _ =>
          Keeps.bind (Guarded.modify fun _ h => h.pushGrant (hadmits _ rfl rfl rfl)) fun _ =>
          Keeps.bind (Guarded.pushUndo fun _ h => h.popGrant) fun _ =>
          Keeps.bind bumpGeneration fun _ => Keeps.bind Keeps.read fun _ =>
          Keeps.bind (Guarded.modify fun _ h => h.setGrantGeneration _ _) fun _ =>
          Keeps.bind (remember _ _ _) fun _ => Keeps.bind Guarded.markMutated fun _ => Keeps.pure _

theorem applyRevoke (request : RevokeAuthorityRequest) :
    Keeps (Guarded R.Obeys) (FabricEpoch.applyRevoke request) := by
  refine Keeps.bind Keeps.read fun impl => ?_
  split
  · exact Keeps.pure _
  · refine Keeps.bind (Keeps.ofExcept _) fun digest => ?_
    split
    · exact Keeps.pure _
    · exact Keeps.pure _
    · refine Keeps.ite (fun _ => Keeps.pure _) fun _ => ?_
      exact Keeps.bind Keeps.read fun _ =>
        Keeps.bind (Guarded.pushUndo fun _ h => h.undoRevoke _ _) fun _ =>
        Keeps.bind (Guarded.modify fun _ h => h.revokeLoop _ _ _ _) fun _ =>
        Keeps.bind bumpGeneration fun _ => Keeps.bind Keeps.read fun _ =>
        Keeps.bind (Guarded.modify fun _ h => h.updateGrant _ fun _ hg =>
          R.revised hg rfl rfl rfl) fun _ =>
        Keeps.bind (Guarded.modify fun _ h => h.of_same rfl rfl rfl rfl rfl) fun _ =>
        Keeps.bind Guarded.markMutated fun _ => Keeps.pure _

theorem mutateEpoch (entropy : Entropy) (boot : CoordinatorBootId) (cause : EpochTransitionCause)
    (invalidateLive : Bool) :
    Keeps (Guarded R.Obeys) (FabricEpoch.mutateEpoch entropy boot cause invalidateLive) := by
  refine Keeps.current fun t ht => ?_
  have hbefore := ht.state
  revert ht t
  suffices h : ∀ before : Impl, R.Obeys before → ∀ epoch, Keeps (Guarded R.Obeys) (do
      Action.pushUndo before.undoEpoch
      Action.modify (Impl.enterEpoch epoch boot)
      let generation ← Action.orFail before.state.generation.next
        (overflow "durable state generation counter is exhausted")
      Action.modify (Impl.setGeneration generation)
      Action.modify fun s => if invalidateLive then s.invalidateLive else s
      let id ← Action.ofExcept entropy
      Action.modify (Impl.pushTransition
        (before.newTransition ⟨id⟩ epoch generation boot cause))) by
    intro t ht hbefore
    exact Keeps.bind (Keeps.orFail _ _) (fun epoch => h t.state hbefore epoch) t ht
  intro before hbefore epoch
  refine Keeps.bind (Guarded.pushUndo fun _ h => hbefore.undoEpoch h) fun _ =>
    Keeps.bind (Guarded.modify fun _ h => h.of_same rfl rfl rfl rfl rfl) fun _ =>
    Keeps.bind (Keeps.orFail _ _) fun _ => Keeps.bind (Guarded.modify fun _ h =>
      h.setGeneration _) fun _ => Keeps.bind (Guarded.modify fun s h => ?_) fun _ =>
    Keeps.bind (Keeps.ofExcept _) fun _ => Guarded.modify fun _ h =>
      h.pushTransition (hbefore.provenance _ rfl)
  cases invalidateLive with
  | true => exact h.invalidateLive
  | false => exact h

theorem establishEpoch (entropy : Entropy) (boot : CoordinatorBootId)
    (cause : EpochTransitionCause) (invalidateLive : Bool) :
    Keeps (Guarded R.Obeys) (FabricEpoch.establishEpoch entropy boot cause invalidateLive) :=
  Keeps.bind (mutateEpoch _ _ _ _) fun _ => Guarded.markMutated

theorem advanceEpoch (entropy : Entropy) (request : EpochAdvanceRequest) :
    Keeps (Guarded R.Obeys) (FabricEpoch.advanceEpoch entropy request) := by
  refine Keeps.bind Keeps.read fun impl => ?_
  refine Keeps.ite (fun _ => Keeps.pure _) fun _ => ?_
  refine Keeps.bind (Keeps.ofExcept _) fun digest => ?_
  split
  · exact Keeps.pure _
  · exact Keeps.pure _
  · exact Keeps.bind Keeps.read fun _ => Keeps.bind (mutateEpoch _ _ _ _) fun _ =>
      Keeps.bind Keeps.read fun _ =>
      Keeps.bind (Guarded.modify fun _ h => h.of_same rfl rfl rfl rfl rfl) fun _ =>
      Keeps.bind Guarded.markMutated fun _ => Keeps.pure _

theorem fenceWorker {request : FenceWorkerRequest}
    (hadmits : R.AdmitsFence request.participant request.note) :
    Keeps (Guarded R.Obeys) (FabricEpoch.fenceWorker request) := by
  refine Keeps.bind Keeps.read fun impl => ?_
  split
  · exact Keeps.pure _
  · exact Keeps.pure _
  · refine Keeps.bind (Keeps.ofExcept _) fun digest => ?_
    split
    · exact Keeps.pure _
    · refine Keeps.bind (recordFence hadmits _ _ _) fun result => Keeps.bind Keeps.hasMutated
        fun m => Keeps.bind (Keeps.bind Keeps.read fun _ => ?_) fun _ => Keeps.pure _
      cases m with
      | true => exact remember _ _ _
      | false => exact Guarded.modify fun _ h => h

theorem fenceAll {id : ParticipantId} {note : BoundedText} (hadmits : R.AdmitsFence id note)
    (boots : List WorkerBootId) : Keeps (Guarded R.Obeys) (FabricEpoch.fenceAll id note boots) := by
  induction boots with
  | nil => exact Keeps.pure _
  | cons boot boots ih =>
    exact Keeps.bind (recordFence hadmits _ _ _) fun _ => Keeps.bind Keeps.read fun _ =>
      Keeps.ite (fun _ => Keeps.fail _) fun _ => Keeps.bind ih fun _ => Keeps.pure _

theorem applyRetire {request : RetireParticipantRequest}
    (hadmits : R.AdmitsFence request.participant request.note) :
    Keeps (Guarded R.Obeys) (FabricEpoch.applyRetire request) := by
  refine Keeps.bind Keeps.read fun impl => ?_
  split
  · exact Keeps.pure _
  · exact Keeps.pure _
  · refine Keeps.bind (Keeps.ofExcept _) fun digest => ?_
    split
    · exact Keeps.pure _
    · refine Keeps.ite (fun _ => Keeps.pure _) fun _ => ?_
      exact Keeps.bind (fenceAll hadmits _) fun _ => Keeps.bind Keeps.read fun _ =>
        Keeps.bind (Guarded.pushUndo fun _ h => h.rawUpdateParticipant _ fun _ hp =>
          R.steady hp rfl rfl rfl) fun _ =>
        Keeps.bind (Guarded.modify fun _ h => h.updateParticipant _ fun _ hp =>
          DurableParticipant.retire_obeys hp) fun _ =>
        Keeps.bind bumpGeneration fun _ => Keeps.bind (remember _ _ _) fun _ =>
        Keeps.bind Guarded.markMutated fun _ => Keeps.pure _

theorem fenceSession (session : SessionId) {binding : SessionBinding}
    (hadmits : R.AdmitsFence binding.participant .blank) (reason : SessionClosureReason) :
    Keeps (Guarded R.Obeys) (FabricEpoch.fenceSession session binding reason) := by
  refine Keeps.bind Keeps.read fun impl => ?_
  refine Keeps.ite (fun _ => Keeps.pure _) fun _ => ?_
  split
  · exact Keeps.pure _
  · split
    · exact Keeps.pure _
    · exact recordFence hadmits _ _ _

end Obeying

/-! ## Behind the barrier -/

/-- **A transaction leaves records that obey**, whether it commits or not. -/
theorem transact_obeys {R : RecordRule} {α : Type} {op : Op α}
    {fault : Option SaveFault} {disk : Disk} {impl : Impl}
    (hop : Guarded R.Obeys (after (op (Txn.start impl)))) :
    R.Obeys (transact op fault disk impl).impl := by
  unfold transact
  cases hr : op (Txn.start impl) with
  | error e t =>
    rw [hr] at hop
    exact hop.rollback
  | ok a t =>
    rw [hr] at hop
    dsimp only
    split
    swap
    · exact hop.rollback
    have hcanonical : R.Obeys t.state.canonicalize := hop.state.canonicalize
    unfold persist
    dsimp only
    split
    · have hrolled : R.Obeys ({ t with state := t.state.canonicalize } : Txn Impl).rollback :=
        Guarded.rollback ⟨hcanonical, hop.undo⟩
      exact hrolled.of_same rfl rfl rfl rfl rfl
    · exact hcanonical.of_same rfl rfl rfl rfl rfl

/-! ## Calls and openings -/

/-- What a call may bring into this memory. A request that finds no participant
brings nothing. -/
def Call.Brings (R : RecordRule) (impl : Impl) : Call → Prop
  | .register request => R.AdmitsRegistration request
  | .registerBatch requests => ∀ request ∈ requests, R.AdmitsRegistration request
  | .fence request => ∀ p, impl.findParticipant request.participant = some p →
      R.AdmitsFence request.participant request.note
  | .grant request => ∀ p, impl.findParticipant request.participant = some p →
      p.scopes.containsAll request.scopes = true → R.AdmitsGrant request
  | .retire request => ∀ p, impl.findParticipant request.participant = some p →
      R.AdmitsFence request.participant request.note
  | .close session _ => ∀ binding, impl.sessionIndex.find? (fun s => s.id = session) = some binding →
      ∀ p, impl.findParticipant binding.participant = some p →
        R.AdmitsFence binding.participant .blank
  | _ => True

namespace Obeying

variable {R : RecordRule} {impl : Impl}

theorem fenceWorker_start (h : R.Obeys impl) {request : FenceWorkerRequest}
    (hbrings : ∀ p, impl.findParticipant request.participant = some p →
      R.AdmitsFence request.participant request.note) :
    Guarded R.Obeys (after (FabricEpoch.fenceWorker request (Txn.start impl))) := by
  cases hp : impl.findParticipant request.participant with
  | some p => exact fenceWorker (hbrings p hp) _ (.start h)
  | none =>
    -- the participant is not known, so nothing happens
    unfold FabricEpoch.fenceWorker
    rw [Action.bind_current]
    have hp' : (Txn.start impl).state.findParticipant request.participant = none := hp
    simp only [hp']
    cases (Txn.start impl).state.malformedFence request with
    | some result => exact .start h
    | none => exact .start h

theorem applyRetire_start (h : R.Obeys impl) {request : RetireParticipantRequest}
    (hbrings : ∀ p, impl.findParticipant request.participant = some p →
      R.AdmitsFence request.participant request.note) :
    Guarded R.Obeys (after (FabricEpoch.applyRetire request (Txn.start impl))) := by
  cases hp : impl.findParticipant request.participant with
  | some p => exact applyRetire (hbrings p hp) _ (.start h)
  | none =>
    unfold FabricEpoch.applyRetire
    rw [Action.bind_current]
    have hp' : (Txn.start impl).state.findParticipant request.participant = none := hp
    simp only [hp']
    cases (Txn.start impl).state.malformedRetire request with
    | some result => exact .start h
    | none => exact .start h

theorem fenceSession_start (h : R.Obeys impl) (session : SessionId) {binding : SessionBinding}
    (hbrings : ∀ p, impl.findParticipant binding.participant = some p →
      R.AdmitsFence binding.participant .blank) (reason : SessionClosureReason) :
    Guarded R.Obeys (after (FabricEpoch.fenceSession session binding reason (Txn.start impl))) := by
  cases hp : impl.findParticipant binding.participant with
  | some p => exact fenceSession session (hbrings p hp) reason _ (.start h)
  | none =>
    unfold FabricEpoch.fenceSession
    rw [Action.bind_current]
    split
    · exact .start h
    · have hp' : (Txn.start impl).state.findParticipant binding.participant = none := hp
      simp only [hp']
      exact .start h

/-- A grant that is refused for its scopes changes nothing. -/
theorem applyGrant_start (h : R.Obeys impl) {entropy : Entropy} {request : GrantAuthorityRequest}
    (hbrings : ∀ p, impl.findParticipant request.participant = some p →
      p.scopes.containsAll request.scopes = true → R.AdmitsGrant request) :
    Guarded R.Obeys (after (FabricEpoch.applyGrant entropy request (Txn.start impl))) := by
  by_cases hadmits : R.AdmitsGrant request
  · exact applyGrant entropy hadmits _ (.start h)
  unfold FabricEpoch.applyGrant
  rw [Action.bind_current]
  cases (Txn.start impl).state.malformedGrant request with
  | some result => exact .start h
  | none =>
    cases hp : (Txn.start impl).state.findParticipant request.participant with
    | none => exact .start h
    | some p =>
      cases hrefused : (Txn.start impl).state.refusedGrantee p request with
      | some result =>
        simp only [hrefused]
        exact .start h
      | none =>
        refine absurd (hbrings p hp ?_) hadmits
        simp only [Impl.refusedGrantee] at hrefused
        split at hrefused
        · cases hrefused
        · split at hrefused
          · cases hrefused
          · next hscopes => simpa using hscopes

end Obeying

theorem callRuntime_obeys {R : RecordRule} {impl : Impl} (h : R.Obeys impl) {call : Call}
    (hbrings : call.Brings R impl) (entropy : Entropy) (fault : Option SaveFault) (disk : Disk) :
    R.Obeys (callRuntime call entropy fault disk impl).impl := by
  cases call with
  | register request =>
    exact transact_obeys (Obeying.applyRegistration hbrings true _ (.start h))
  | registerBatch requests => exact transact_obeys (Obeying.registerBatch hbrings _ (.start h))
  | fence request => exact transact_obeys (Obeying.fenceWorker_start h hbrings)
  | grant request => exact transact_obeys (Obeying.applyGrant_start h hbrings)
  | revoke request => exact transact_obeys (Obeying.applyRevoke request _ (.start h))
  | advance request => exact transact_obeys (Obeying.advanceEpoch entropy request _ (.start h))
  | retire request => exact transact_obeys (Obeying.applyRetire_start h hbrings)
  | bind binding =>
    rw [callRuntime]
    unfold Impl.bindSession
    split
    · exact h
    · next accepted impl' hr =>
      split at hr
      · cases hr
        exact h
      · split at hr
        · cases hr
        · cases hr
          exact h.of_same rfl rfl rfl rfl rfl
  | close session reason =>
    show R.Obeys (closeSession session reason fault disk impl).impl
    unfold closeSession
    split
    · exact h
    · next binding hbinding =>
      have herased : R.Obeys (impl.eraseSession binding) := h.of_same rfl rfl rfl rfl rfl
      exact transact_obeys (Obeying.fenceSession_start herased session (hbrings binding hbinding)
        reason)
  | flush =>
    rw [callRuntime]
    split <;> exact h

/-- What the loader lets through obeys the rule. -/
def RecordRule.AdmitsLoad (R : RecordRule) : Prop :=
  ∀ options disk state, EpochStore.load options disk = .ok state →
    (∀ p ∈ state.participants, R.participant p) ∧ (∀ f ∈ state.recentFences, R.fence f) ∧
      (∀ g ∈ state.grants, R.grant g) ∧ ∀ t ∈ state.transitions, R.transition t

/-- What is loaded is valid and can be stored. -/
theorem RecordRule.admitsLoad {R : RecordRule}
    (h : ∀ state, ValidDurable state → StorableState state →
      (∀ p ∈ state.participants, R.participant p) ∧ (∀ f ∈ state.recentFences, R.fence f) ∧
        (∀ g ∈ state.grants, R.grant g) ∧ ∀ t ∈ state.transitions, R.transition t) :
    R.AdmitsLoad := by
  intro options disk state hload
  obtain ⟨hvalid, hstorable⟩ := EpochStore.load_sound hload
  exact h state hvalid hstorable

/-- What the options of an opening stand for obeys the rule. -/
def Opening.Brings (R : RecordRule) (opening : Opening) : Prop :=
  ∀ t : EpochTransitionRecord, t.provenance = opening.options.provenance → R.transition t

/-- An opening of a disk whose records obey the rule. -/
theorem openRuntime_keeps {R : RecordRule} {opening : Opening} {fault : Option SaveFault}
    {disk : Disk} {impl : Impl}
    (hload : ∀ state, EpochStore.load (EpochStore.runtimeOptions opening.options.limits) disk =
      .ok state → (∀ p ∈ state.participants, R.participant p) ∧
        (∀ f ∈ state.recentFences, R.fence f) ∧ (∀ g ∈ state.grants, R.grant g) ∧
          ∀ t ∈ state.transitions, R.transition t)
    (hbrings : opening.Brings R) (h : (openRuntime opening fault disk).1 = some impl) :
    R.Obeys impl := by
  unfold openRuntime at h
  split at h
  · cases h
  next state boot hloaded =>
  have hstate : EpochStore.load (EpochStore.runtimeOptions opening.options.limits) disk =
      .ok state := by
    obtain ⟨-, -, hrest⟩ := Checks.bind_ok.mp hloaded
    obtain ⟨state', hload', hrest⟩ := Checks.bind_ok.mp hrest
    obtain ⟨boot', -, hrest⟩ := Checks.bind_ok.mp hrest
    cases hrest
    exact hload'
  obtain ⟨hparticipants, hfences, hgrants, htransitions⟩ := hload state hstate
  have hopened : R.Obeys (Impl.ofState { opening.options with coordinatorBoot := some boot } state) :=
    ⟨hparticipants, hfences, hgrants, htransitions, hbrings⟩
  dsimp only at h
  split at h
  · split at h
    · cases h
    · cases h
      exact transact_obeys (Obeying.establishEpoch _ _ _ _ _ (.start hopened))
  · split at h
    · cases h
      exact hopened
    · cases h

theorem openRuntime_obeys {R : RecordRule} (hload : R.AdmitsLoad) {opening : Opening}
    (hbrings : opening.Brings R) {fault : Option SaveFault} {disk : Disk} {impl : Impl}
    (h : (openRuntime opening fault disk).1 = some impl) : R.Obeys impl :=
  openRuntime_keeps (fun state hstate => hload _ disk state hstate) hbrings h

/-- **The records of every reachable runtime obey the rule** that its calls and
openings obey, whatever fails on the way. -/
theorem reachable_obeys {R : RecordRule} (hload : R.AdmitsLoad) {allowed : Host → Input → Prop}
    (hopen : ∀ host opening fault, allowed host (.open opening fault) → opening.Brings R)
    (hcall : ∀ host impl call entropy fault, host.runtime = some impl → impl.Findable →
      R.Obeys impl → allowed host (.call call entropy fault) → call.Brings R impl)
    {host : Host} (h : coordinator.Reaches allowed host) {impl : Impl}
    (himpl : host.runtime = some impl) : R.Obeys impl := by
  have hinv : ∀ impl ∈ host.runtime, impl.Findable ∧ R.Obeys impl := by
    refine h.invariant (I := fun host => ∀ impl ∈ host.runtime, impl.Findable ∧ R.Obeys impl)
      (fun _ hi => by cases hi) fun host input ih hallowed impl' himpl' => ?_
    have hstep : impl' ∈ (stepRuntime input host.disk host.runtime).1 := himpl'
    cases input with
    | «open» opening fault =>
      exact ⟨openRuntime_findable hstep, openRuntime_obeys hload (hopen _ _ _ hallowed) hstep⟩
    | call call entropy fault =>
      cases hr : host.runtime with
      | none =>
        rw [hr] at hstep
        cases hstep
      | some impl =>
        rw [hr] at hstep
        cases hstep
        obtain ⟨hfindable, hobeys⟩ := ih impl hr
        exact ⟨callRuntime_findable call entropy fault host.disk hfindable, callRuntime_obeys hobeys
          (hcall _ _ _ _ _ hr hfindable hobeys hallowed) entropy fault host.disk⟩
  exact (hinv impl himpl).2

end FabricEpoch
