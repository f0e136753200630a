import FabricEpoch.Runtime.Indexing

/-!
# What an operation can do to the durable state

Every operation that returns has taken the durable state through a sequence of
moves. A `Move` is an atomic change together with the guards the code has
checked by then; invariants are proved move by move.

- `Trust` says which of the guards are relied upon that the code checks only
  through an index, a generator or its caller;
- `Orderly`: the live incarnations of each participant are well kept. Every
  move preserves it, under no trust at all (`Moves.orderly`);
- `Incumbency`: one live incarnation where one is allowed, and no live boot is
  fenced. It rests on the fence lookups being right (`Moves.incumbency`).
-/

namespace FabricEpoch

open Table

/-! ## The durable state by identifier -/

namespace DurableState

def lookup (s : DurableState) (id : ParticipantId) : Option DurableParticipant :=
  Table.lookup DurableParticipant.id s.participants id

def updateParticipant (id : ParticipantId) (f : DurableParticipant → DurableParticipant)
    (s : DurableState) : DurableState :=
  { s with participants := updateKey DurableParticipant.id id f s.participants }

/-- The records after an update: the updated one, and the others. -/
theorem mem_updateParticipant {s : DurableState} {id : ParticipantId}
    {f : DurableParticipant → DurableParticipant} {p' : DurableParticipant}
    (h : p' ∈ (s.updateParticipant id f).participants) :
    (∃ p ∈ s.participants, p.id = id ∧ f p = p') ∨ p' ∈ s.participants ∧ p'.id ≠ id := by
  obtain ⟨p, hp, rfl⟩ := List.mem_map.mp h
  by_cases hid : p.id = id
  · exact .inl ⟨p, hp, hid, (if_pos hid).symm⟩
  · rw [if_neg hid]
    exact .inr ⟨hp, hid⟩

/-- Each record comes from an old one. -/
theorem updateParticipant_old {s : DurableState} {id : ParticipantId}
    {f : DurableParticipant → DurableParticipant}
    {R : DurableParticipant → DurableParticipant → Prop} (hrefl : ∀ p, R p p) (hf : ∀ p, R p (f p))
    {p' : DurableParticipant} (h : p' ∈ (s.updateParticipant id f).participants) :
    ∃ p ∈ s.participants, R p p' := by
  rcases mem_updateParticipant h with ⟨p, hp, -, rfl⟩ | ⟨hp, -⟩
  · exact ⟨p, hp, hf p⟩
  · exact ⟨p', hp, hrefl p'⟩

theorem ids_updateParticipant (s : DurableState) (id : ParticipantId)
    {f : DurableParticipant → DurableParticipant} (hf : ∀ p, (f p).id = p.id) :
    (s.updateParticipant id f).participants.map (·.id) = s.participants.map (·.id) :=
  map_key_updateKey hf

theorem ids_subset_updateParticipant (s : DurableState) (id : ParticipantId)
    {f : DurableParticipant → DurableParticipant} (hf : ∀ p, (f p).id = p.id) :
    s.participants.map (·.id) ⊆ (s.updateParticipant id f).participants.map (·.id) := by
  rw [s.ids_updateParticipant id hf]
  exact List.Subset.refl _

/-- The record of a participant behind its update. -/
theorem lookup_updateParticipant {s : DurableState} {id : ParticipantId}
    {f : DurableParticipant → DurableParticipant} (hf : ∀ p, (f p).id = p.id)
    {p : DurableParticipant} (h : s.lookup id = some p) :
    (s.updateParticipant id f).lookup id = some (f p) := by
  rw [lookup] at h ⊢
  rw [updateParticipant, lookup_updateKey hf, if_pos rfl, h]
  rfl

/-- A retained record or a retained boot says that the boot is fenced. -/
def Fenced (s : DurableState) (id : ParticipantId) (boot : WorkerBootId) : Prop :=
  (∃ r ∈ s.recentFences, r.participant = id ∧ r.boot = boot) ∨
    ∃ p ∈ s.participants, p.id = id ∧ boot ∈ p.fencedBoots

end DurableState

/-- Which guards are relied upon: that a fence lookup tells what the records
say, that a boot is live for one participant, that generated identifiers are
fresh, that texts are of the shape their parsers give them. -/
structure Trust where
  fences : Prop
  boots : Prop
  generator : Prop
  texts : Prop

/-- No guard is relied upon. -/
def Trust.nothing : Trust := ⟨False, False, False, False⟩

/-! ## Replay records and the effects they stand for -/

/-- A replay record of a participant, with the effect it stands for. -/
inductive Recorded (s : DurableState) (id : ParticipantId) : IdempotencyRecord → Prop
  | fenced {request : FenceWorkerRequest} {digest : SnapshotDigest} {result : FenceResult}
      (semantic : computeSemanticDigest request.semantic = .ok digest)
      (participant : request.participant = id) (outcome : result.outcome = .fenced)
      (record : ∃ f ∈ s.recentFences, f.participant = id ∧ f.boot = request.boot)
      (notLive : ∀ p ∈ s.participants, p.id = id → request.boot ∉ p.liveBoots) :
      Recorded s id (request.record digest result)
  | granted {request : GrantAuthorityRequest} {digest : SnapshotDigest}
      {generation : GrantGeneration} {grant : AuthorityGrantId}
      (semantic : computeSemanticDigest request.semantic = .ok digest)
      (participant : request.participant = id) (present : grant ∈ s.grants.map (·.id)) :
      Recorded s id (request.record digest generation grant)
  | retired {request : RetireParticipantRequest} {digest : SnapshotDigest} {count : Nat}
      (semantic : computeSemanticDigest request.semantic = .ok digest)
      (participant : request.participant = id)
      (retired : ∀ p ∈ s.participants, p.id = id → p.retired = true) :
      Recorded s id (request.record digest count)

/-- A replay record of the control table, with the effect it stands for. -/
inductive ControlRecorded (s : DurableState) : IdempotencyRecord → Prop
  | advanced {request : EpochAdvanceRequest} {digest : SnapshotDigest}
      (semantic : computeSemanticDigest request.semantic = .ok digest) :
      ControlRecorded s (request.record digest s.currentEpoch)
  | revoked {request : RevokeAuthorityRequest} {digest : SnapshotDigest}
      {generation : GrantGeneration} {derived : Nat}
      (semantic : computeSemanticDigest request.semantic = .ok digest)
      (revoked : ∃ g ∈ s.grants, g.id = request.grant ∧ g.revoked = true) :
      ControlRecorded s (request.record digest generation derived)

/-! ## Moves -/

/-- What a revocation does to one grant: nothing or a revocation, and perhaps a
new generation. -/
def AuthorityGrant.Revises (epoch : CoordinatorEpoch) (g g' : AuthorityGrant) : Prop :=
  ∃ generation, g' = { g with generation } ∨ g' = { g.revoke epoch with generation }

/-- Texts that were parsed, and sets within the structural ceiling. -/
structure RegisterParticipantRequest.WellFormed (request : RegisterParticipantRequest) : Prop where
  participant : request.participant.Parses
  scopes : ∀ s ∈ request.scopes.scopes, s.WellFormed

structure GrantAuthorityRequest.WellFormed (request : GrantAuthorityRequest) : Prop where
  scopes : ∀ s ∈ request.scopes.scopes, s.WellFormed
  provenance : BoundedText.isValid request.provenance.text 4096 = true

/-- A text that every loading process accepts. -/
def BoundedText.Storable (note : BoundedText) : Prop := isValid note.text 4096 = true

instance (note : BoundedText) : Decidable note.Storable := inferInstanceAs (Decidable (_ = true))

/-- **An atomic change of the durable state**, with its guards. -/
inductive Move (T : Trust) (limits : Limits) (s : DurableState) : DurableState → Prop
  | reorder {ps : List DurableParticipant} (perm : s.participants.Perm ps) :
      Move T limits s { s with participants := ps }
  | bump {g : EpochGeneration} (next : s.generation.next = some g) :
      Move T limits s { s with generation := g }
  | preventive {r : FenceRecord} {p : DurableParticipant}
      (found : s.lookup r.participant = some p)
      (notLive : p.findIncarnation r.boot = none)
      (notFenced : T.fences → ¬ s.Fenced r.participant r.boot)
      (nonNil : r.boot.isNil = false)
      (room : s.recentFences.length < limits.maxRecentFences)
      (floor : s.fenceFloor.next = some r.generation)
      (epoch : r.epoch = s.currentEpoch) (unissued : r.incarnation = .zero)
      (note : T.texts → r.note.Storable) :
      Move T limits s { s.updateParticipant r.participant (·.setFenceGeneration r.generation) with
        fenceFloor := r.generation
        recentFences := s.recentFences ++ [r] }
  | fence {r : FenceRecord} {p : DurableParticipant}
      (found : s.lookup r.participant = some p)
      (live : p.findIncarnation r.boot = some r.incarnation)
      (notFenced : T.fences → ¬ s.Fenced r.participant r.boot)
      (floor : s.fenceFloor.next = some r.generation)
      (epoch : r.epoch = s.currentEpoch) (note : T.texts → r.note.Storable) :
      Move T limits s { s.updateParticipant r.participant
          (·.fence limits r.boot r.incarnation r.generation) with
        fenceFloor := r.generation
        recentFences := evictPush limits.maxRecentFences s.recentFences r }
  | create {id : ParticipantId} {policy : IncarnationPolicy} (missing : s.lookup id = none)
      (nonempty : id.empty = false) (room : s.participants.length < limits.maxParticipants)
      (text : T.texts → id.Parses) :
      Move T limits s
        { s with participants := s.participants ++ [DurableParticipant.fresh id policy] }
  | register {request : RegisterParticipantRequest} {digest : SnapshotDigest}
      {p : DurableParticipant} {g : RegistrationGeneration} {next : IncarnationSequence}
      (semantic : computeSemanticDigest request.semantic = .ok digest)
      (found : s.lookup request.participant = some p)
      (notRetired : p.retired = false) (nonNil : request.boot.isNil = false)
      (attempt : request.attempt.isNil = false)
      (newAttempt : findAttempt p.idempotency request.attempt = none)
      (notLive : p.findIncarnation request.boot = none) (policy : p.policy = request.policy)
      (notFenced : T.fences → ¬ s.Fenced request.participant request.boot)
      (single : T.fences → p.policy = .singleIncarnation → p.live = [])
      (elsewhere : T.boots → ∀ q ∈ s.participants, q.id ≠ request.participant →
        request.boot ∉ q.liveBoots)
      (size : request.scopes.size ≤ limits.maxScopesPerGrant)
      (text : T.texts → request.WellFormed)
      (floor : s.registrationFloor.next = some g) (allocate : p.nextIncarnation.next = some next) :
      Move T limits s { s.updateParticipant request.participant
          (·.register limits request digest g p.nextIncarnation next) with
        registrationFloor := g }
  | remember {id : ParticipantId} {p : DurableParticipant} {r : IdempotencyRecord}
      (found : s.lookup id = some p) (newAttempt : findAttempt p.idempotency r.attempt = none)
      (attempt : r.attempt.isNil = false) (recorded : Recorded s id r) :
      Move T limits s (s.updateParticipant id (·.remember limits r))
  | grant {g : AuthorityGrant} {p : DurableParticipant} {generation : EpochGeneration}
      (found : s.lookup g.participant = some p)
      (live : p.findIncarnation g.boot = some g.incarnation) (epoch : g.epoch = s.currentEpoch)
      (nonempty : g.scopes.empty = false) (size : g.scopes.size ≤ limits.maxScopesPerGrant)
      (nonNil : g.boot.isNil = false) (parent : ∀ i, g.parent = some i → i ∈ s.grants.map (·.id))
      (room : s.grants.length < limits.maxAuthorityGrants) (revoked : g.revoked = false)
      (fresh : T.generator → g.id.isNil = false ∧ g.id ∉ s.grants.map (·.id))
      (text : T.texts → g.provenance.Storable ∧ ∀ s ∈ g.scopes.scopes, s.WellFormed)
      (next : s.generation.next = some generation) :
      Move T limits s { s with grants := s.grants ++ [g], generation }
  | revoke {grants : List AuthorityGrant}
      (revises : List.Forall₂ (AuthorityGrant.Revises s.currentEpoch) s.grants grants) :
      Move T limits s { s with grants }
  | control {record : IdempotencyRecord}
      (newAttempt : findAttempt s.controlAttempts record.attempt = none)
      (attempt : record.attempt.isNil = false)
      (operation : record.operation = .advanceEpoch ∨ record.operation = .revokeAuthority)
      (recorded : ControlRecorded s record) :
      Move T limits s
        { s with controlAttempts := rememberAttempt limits record s.controlAttempts }
  | retire {id : ParticipantId} {p : DurableParticipant} (found : s.lookup id = some p)
      (notLive : T.boots → p.live = []) :
      Move T limits s (s.updateParticipant id (·.retire))
  | epoch {t : EpochTransitionRecord} {invalidate : Bool} {generation : EpochGeneration}
      (source : t.fromEpoch = s.currentEpoch) (target : s.currentEpoch.next = some t.toEpoch)
      (next : s.generation.next = some generation)
      (established : s.currentEpoch.value ≠ 0 → invalidate = true)
      (fresh : T.generator → t.id.isNil = false ∧ t.id ∉ s.transitions.map (·.id))
      (text : T.texts → t.provenance.Storable) :
      Move T limits s { s with
        currentEpoch := t.toEpoch
        coordinatorBoot := t.coordinatorBoot
        generation
        participants := if invalidate then s.participants.map (·.invalidate) else s.participants
        transitions := evictPush limits.maxTransitionHistory s.transitions t }

/-- A sequence of moves. -/
abbrev Moves (T : Trust) (limits : Limits) : DurableState → DurableState → Prop :=
  Relation.ReflTransGen (Move T limits)

/-! ## The live incarnations of one participant -/

/-- The live incarnations of a record are well kept. -/
structure OrderlyRecord (p : DurableParticipant) : Prop where
  compact : p.hasActiveBoot = false → p.extraIncarnations = []
  boots : p.liveBoots.Nodup
  sequences : (p.live.map Prod.snd).Nodup
  issued : ∀ e ∈ p.live, 0 < e.2.value ∧ e.2 < p.nextIncarnation
  allocator : 0 < p.nextIncarnation.value

namespace DurableParticipant

variable {p : DurableParticipant} {boot : WorkerBootId} {i : IncarnationSequence}

theorem mem_live_of_find (h : p.findIncarnation boot = some i) : (boot, i) ∈ p.live := by
  rw [mem_live]
  unfold findIncarnation at h
  split at h
  · next hactive => exact .inl ⟨hactive.1, hactive.2.symm, (Option.some.inj h).symm⟩
  · obtain ⟨e, he, rfl⟩ := Option.map_eq_some_iff.mp h
    exact .inr ⟨e, List.mem_of_find?_eq_some he, by simpa using List.find?_some he, rfl⟩

theorem mem_liveBoots_of_find (h : p.findIncarnation boot = some i) : boot ∈ p.liveBoots := by
  rw [liveBoots_eq]
  exact List.mem_map_of_mem (mem_live_of_find h)

/-- A live boot is found under its sequence, where no boot is live twice. -/
theorem find_of_nodup (hn : p.liveBoots.Nodup) (h : (boot, i) ∈ p.live) :
    p.findIncarnation boot = some i := by
  rw [liveBoots_eq] at hn
  cases hf : p.findIncarnation boot with
  | none =>
    have := find_eq_none_iff.mp hf
    rw [liveBoots_eq] at this
    exact absurd (List.mem_map_of_mem h) this
  | some j =>
    have hj := mem_live_of_find hf
    have := List.inj_on_of_nodup_map hn h hj rfl
    exact congrArg some (Prod.mk.inj this).2.symm

theorem find_of_mem_live (hp : OrderlyRecord p) (h : (boot, i) ∈ p.live) :
    p.findIncarnation boot = some i :=
  find_of_nodup hp.boots h

theorem hasCurrent_eq_false_iff : p.hasCurrent = false ↔ p.live = [] := by
  unfold hasCurrent live
  cases p.hasActiveBoot <;> cases p.extraIncarnations <;> simp

theorem incumbent_eq : p.incumbent = p.live.head?.map Prod.fst := by
  unfold incumbent live
  cases p.hasActiveBoot <;> cases p.extraIncarnations <;> simp

/-! ### What the mutations do to them -/

/-- Removing a boot filters it out, where no boot is live twice. -/
theorem live_removeIncarnation (hn : p.liveBoots.Nodup) (boot : WorkerBootId) :
    (p.removeIncarnation boot).live = p.live.filter fun e => e.1 ≠ boot := by
  unfold removeIncarnation
  by_cases h : p.hasActiveBoot = true ∧ p.activeBoot = boot
  · obtain ⟨hactive, rfl⟩ := h
    rw [if_pos ⟨hactive, rfl⟩]
    unfold liveBoots at hn
    rw [if_pos hactive, List.singleton_append, List.nodup_cons] at hn
    have hrest : ∀ e ∈ p.extraIncarnations, e.boot ≠ p.activeBoot := fun e he heq =>
      hn.1 (heq ▸ List.mem_map_of_mem he)
    have hfilter : (p.extraIncarnations.map fun e => (e.boot, e.sequence)).filter
        (fun e => e.1 ≠ p.activeBoot) = p.extraIncarnations.map fun e => (e.boot, e.sequence) := by
      refine List.filter_eq_self.mpr fun e he => ?_
      obtain ⟨e', he', rfl⟩ := List.mem_map.mp he
      simpa using hrest e' he'
    have hlive : p.live = (p.activeBoot, p.activeIncarnation) ::
        p.extraIncarnations.map fun e => (e.boot, e.sequence) := by
      rw [live, if_pos hactive, List.singleton_append]
    rw [hlive, List.filter_cons_of_neg (by simp), hfilter]
    -- the first extra incarnation moves into the empty slot
    cases hextra : p.extraIncarnations with
    | nil => simp [live]
    | cons first rest => simp [live, hactive]
  · rw [if_neg h]
    by_cases hactive : p.hasActiveBoot = true
    · have hne : p.activeBoot ≠ boot := fun heq => h ⟨hactive, heq⟩
      simp [live, hactive, hne, List.filter_map, Function.comp_def]
    · simp [live, hactive, List.filter_map, Function.comp_def]

theorem removeIncarnation_compact (hp : OrderlyRecord p) (boot : WorkerBootId)
    (h : (p.removeIncarnation boot).hasActiveBoot = false) :
    (p.removeIncarnation boot).extraIncarnations = [] := by
  revert h
  unfold removeIncarnation
  split
  · next hactive =>
    split
    · intro h
      rw [hactive.1] at h
      cases h
    · next hextra => exact fun _ => hextra
  · intro h
    rw [hp.compact h, List.filter_nil]

@[simp] theorem removeIncarnation_next (boot : WorkerBootId) :
    (p.removeIncarnation boot).nextIncarnation = p.nextIncarnation := by
  unfold removeIncarnation
  split
  · split <;> rfl
  · rfl

/-- Adding an incarnation puts it last. -/
theorem live_addIncarnation (hcompact : p.hasActiveBoot = false → p.extraIncarnations = [])
    (boot : WorkerBootId) (i : IncarnationSequence) (g : RegistrationGeneration) :
    (p.addIncarnation boot i g).live = p.live ++ [(boot, i)] := by
  unfold addIncarnation
  by_cases h : p.hasActiveBoot = true
  · simp [live, h]
  · have hextra := hcompact (by simpa using h)
    simp [live, h, hextra]

theorem live_register (hcompact : p.hasActiveBoot = false → p.extraIncarnations = [])
    (limits : Limits) (request : RegisterParticipantRequest) (digest : SnapshotDigest)
    (g : RegistrationGeneration) (i next : IncarnationSequence) :
    (p.register limits request digest g i next).live = p.live ++ [(request.boot, i)] := by
  let q : DurableParticipant := { p with
    registrationGeneration := g
    nextIncarnation := next
    policy := request.policy
    scopes := request.scopes
    revalidationRequired := false
    retired := false
    acceptedRegistrations := p.acceptedRegistrations + 1 }
  exact live_addIncarnation (p := q) hcompact request.boot i g

@[simp] theorem register_next (p : DurableParticipant) (limits : Limits)
    (request : RegisterParticipantRequest) (digest : SnapshotDigest) (g : RegistrationGeneration)
    (i next : IncarnationSequence) :
    (p.register limits request digest g i next).nextIncarnation = next := by
  unfold register addIncarnation
  split <;> rfl

end DurableParticipant

namespace OrderlyRecord

variable {p q : DurableParticipant}

/-- Orderliness only looks at the live incarnations and the allocator. -/
theorem of_live (hp : OrderlyRecord p) (hactive : q.hasActiveBoot = p.hasActiveBoot)
    (hextra : q.extraIncarnations = p.extraIncarnations) (hlive : q.live = p.live)
    (hnext : q.nextIncarnation = p.nextIncarnation) : OrderlyRecord q := by
  have hboots : q.liveBoots = p.liveBoots := by
    rw [DurableParticipant.liveBoots_eq, DurableParticipant.liveBoots_eq, hlive]
  refine ⟨?_, ?_, ?_, ?_, ?_⟩
  · rw [hactive, hextra]
    exact hp.compact
  · rw [hboots]
    exact hp.boots
  · rw [hlive]
    exact hp.sequences
  · rw [hlive, hnext]
    exact hp.issued
  · rw [hnext]
    exact hp.allocator

/-- Fewer live incarnations under the same allocator. -/
theorem of_sublist (hp : OrderlyRecord p)
    (hcompact : q.hasActiveBoot = false → q.extraIncarnations = [])
    (hlive : q.live.Sublist p.live) (hnext : q.nextIncarnation = p.nextIncarnation) :
    OrderlyRecord q := by
  refine ⟨hcompact, ?_, ?_, fun e he => ?_, ?_⟩
  · have hn := hp.boots
    rw [DurableParticipant.liveBoots_eq] at hn ⊢
    exact hn.sublist (hlive.map _)
  · exact hp.sequences.sublist (hlive.map _)
  · rw [hnext]
    exact hp.issued e (hlive.subset he)
  · rw [hnext]
    exact hp.allocator

theorem removeIncarnation (hp : OrderlyRecord p) (boot : WorkerBootId) :
    OrderlyRecord (p.removeIncarnation boot) := by
  refine hp.of_sublist (DurableParticipant.removeIncarnation_compact hp boot) ?_
    (DurableParticipant.removeIncarnation_next boot)
  rw [DurableParticipant.live_removeIncarnation hp.boots]
  exact List.filter_sublist

theorem raiseFloor (hp : OrderlyRecord p) (i : IncarnationSequence) :
    OrderlyRecord (p.raiseFloor i) := by
  unfold DurableParticipant.raiseFloor
  split
  · exact hp.of_live rfl rfl rfl rfl
  · exact hp

theorem fence (hp : OrderlyRecord p) (limits : Limits) (boot : WorkerBootId)
    (i : IncarnationSequence) (g : FencingGeneration) :
    OrderlyRecord (p.fence limits boot i g) :=
  ((hp.removeIncarnation boot).raiseFloor i).of_live rfl rfl rfl rfl

theorem retire (hp : OrderlyRecord p) : OrderlyRecord p.retire := by
  unfold DurableParticipant.retire
  split
  · exact hp.of_live rfl rfl rfl rfl
  · exact (hp.raiseFloor _).of_live rfl rfl rfl rfl

theorem invalidate (hp : OrderlyRecord p) : OrderlyRecord p.invalidate :=
  hp.of_sublist (fun _ => rfl) (List.nil_sublist _) rfl

theorem fresh (id : ParticipantId) (policy : IncarnationPolicy) :
    OrderlyRecord (DurableParticipant.fresh id policy) :=
  ⟨fun _ => rfl, List.nodup_nil, List.nodup_nil, fun _ h => (nomatch h), Nat.one_pos⟩

/-- A registration adds a boot that was not live, under a sequence above all
that were. -/
theorem register (hp : OrderlyRecord p) {request : RegisterParticipantRequest} (limits : Limits)
    (digest : SnapshotDigest) (g : RegistrationGeneration) {next : IncarnationSequence}
    (hnew : request.boot ∉ p.liveBoots) (hnext : p.nextIncarnation.next = some next) :
    OrderlyRecord (p.register limits request digest g p.nextIncarnation next) := by
  have hvalue := MonotonicCounter.next_eq_some hnext
  have hlive := DurableParticipant.live_register hp.compact limits request digest g
    p.nextIncarnation next
  have hallocator := p.register_next limits request digest g p.nextIncarnation next
  refine ⟨fun h => ?_, ?_, ?_, fun e he => ?_, ?_⟩
  · revert h
    unfold DurableParticipant.register DurableParticipant.addIncarnation
    split
    · next hactive =>
      intro h
      rw [show p.hasActiveBoot = true from hactive] at h
      cases h
    · exact fun h => nomatch h
  · rw [DurableParticipant.liveBoots_eq, hlive, List.map_append]
    rw [← DurableParticipant.liveBoots_eq]
    refine List.nodup_append.mpr ⟨hp.boots, by simp, ?_⟩
    rintro b hb c hc rfl
    rw [List.map_singleton, List.mem_singleton] at hc
    exact hnew (show request.boot ∈ p.liveBoots from (show b = request.boot from hc) ▸ hb)
  · rw [hlive, List.map_append]
    refine List.nodup_append.mpr ⟨hp.sequences, by simp, ?_⟩
    rintro i hi j hj rfl
    obtain ⟨e, he, rfl⟩ := List.mem_map.mp hi
    have hlt := (hp.issued e he).2
    rw [List.map_singleton, List.mem_singleton] at hj
    rw [hj] at hlt
    exact Nat.lt_irrefl _ hlt
  · rw [hallocator]
    rw [hlive, List.mem_append, List.mem_singleton] at he
    rcases he with he | rfl
    · obtain ⟨hpos, hlt⟩ := hp.issued e he
      exact ⟨hpos, Nat.lt_trans hlt (by omega)⟩
    · exact ⟨hp.allocator, show p.nextIncarnation.value < next.value by omega⟩
  · rw [hallocator]
    omega

end OrderlyRecord

/-! ## Orderly states -/

/-- Identifiers are unique and every record is orderly. -/
structure Orderly (s : DurableState) : Prop where
  ids : (s.participants.map (·.id)).Nodup
  records : ∀ p ∈ s.participants, OrderlyRecord p

namespace Orderly

variable {s : DurableState}

theorem initial : Orderly initialState := ⟨List.nodup_nil, fun _ h => nomatch h⟩

theorem of_participants {s' : DurableState} (h : Orderly s)
    (heq : s'.participants = s.participants) : Orderly s' := by
  constructor
  · rw [heq]
    exact h.ids
  · rw [heq]
    exact h.records

theorem updateParticipant (h : Orderly s) {id : ParticipantId}
    {f : DurableParticipant → DurableParticipant} (hid : ∀ p, (f p).id = p.id)
    (hf : ∀ p ∈ s.participants, p.id = id → OrderlyRecord (f p)) :
    Orderly (s.updateParticipant id f) := by
  refine ⟨?_, forall_updateKey h.records hf⟩
  show (updateKey DurableParticipant.id id f s.participants |>.map DurableParticipant.id).Nodup
  rw [map_key_updateKey hid]
  exact h.ids

/-- The record that is found is the one with the identifier. -/
theorem eq_of_lookup (h : Orderly s) {id : ParticipantId} {p q : DurableParticipant}
    (hp : s.lookup id = some p) (hq : q ∈ s.participants) (hid : q.id = id) : q = p :=
  Table.eq_of_lookup h.ids hp hq hid

end Orderly

/-- A retired record of a valid state has no live incarnation. -/
theorem ValidEstablished.retired_live {s : DurableState} (h : ValidEstablished s) (hs : Orderly s)
    {p : DurableParticipant} (hp : p ∈ s.participants) (hretired : p.retired = true) :
    p.live = [] := by
  have hinactive : p.hasActiveBoot = false := by
    cases ha : p.hasActiveBoot with
    | false => rfl
    | true =>
      have := ((h.participants p hp).active ha).2.2
      rw [hretired] at this
      cases this
  have hextra := (hs.records p hp).compact hinactive
  simp [DurableParticipant.live, hinactive, hextra]

theorem DurableState.mem_of_lookup {s : DurableState} {id : ParticipantId}
    {p : DurableParticipant} (h : s.lookup id = some p) : p ∈ s.participants ∧ p.id = id :=
  lookup_some h

/-- **A move preserves orderliness.** -/
theorem Move.orderly {T : Trust} {limits : Limits} {s s' : DurableState}
    (h : Move T limits s s') (hs : Orderly s) : Orderly s' := by
  cases h with
  | reorder perm =>
    exact ⟨(perm.map _).nodup_iff.mp hs.ids, fun p hp => hs.records p (perm.mem_iff.mpr hp)⟩
  | bump _ => exact hs.of_participants rfl
  | @preventive record _ found _ _ _ _ _ _ _ _ =>
    refine (hs.updateParticipant (f := (·.setFenceGeneration record.generation)) (fun _ => rfl)
      fun p hp _ => ?_).of_participants rfl
    exact (hs.records p hp).of_live rfl rfl rfl rfl
  | fence found _ _ _ _ _ =>
    refine (hs.updateParticipant (fun p => ?_) fun p hp _ => ?_).of_participants rfl
    · exact ((p.removeIncarnation _).raiseFloor_id _).trans (p.removeIncarnation_id _)
    · exact (hs.records p hp).fence limits _ _ _
  | create missing _ _ _ =>
    constructor
    · rw [List.map_append]
      refine List.nodup_append.mpr ⟨hs.ids, by simp, ?_⟩
      rintro i hi j hj rfl
      obtain ⟨p, hp, rfl⟩ := List.mem_map.mp hi
      rw [List.map_singleton, List.mem_singleton] at hj
      exact lookup_none.mp missing p hp hj
    · intro p hp
      rcases List.mem_append.mp hp with hp | hp
      · exact hs.records p hp
      · rw [List.mem_singleton.mp hp]
        exact .fresh _ _
  | register semantic found notRetired nonNil attempt newAttempt notLive policy notFenced single
      elsewhere size text floor allocate =>
    refine (hs.updateParticipant (fun p => by simp) fun q hq hid => ?_).of_participants rfl
    obtain rfl := hs.eq_of_lookup found hq hid
    exact (hs.records q hq).register limits _ _ (DurableParticipant.find_eq_none_iff.mp notLive)
      allocate
  | @remember _ _ record found _ _ _ =>
    refine hs.updateParticipant (f := (·.remember limits record)) (fun _ => rfl) fun p hp _ => ?_
    exact (hs.records p hp).of_live rfl rfl rfl rfl
  | grant _ _ _ _ _ _ _ _ _ _ _ _ => exact hs.of_participants rfl
  | revoke _ => exact hs.of_participants rfl
  | control _ _ _ _ => exact hs.of_participants rfl
  | retire found _ =>
    exact hs.updateParticipant (fun p => p.retire_id) fun p hp _ => (hs.records p hp).retire
  | @epoch t invalidate generation _ _ _ _ _ _ =>
    cases invalidate with
    | false => exact hs.of_participants rfl
    | true =>
      constructor
      · show ((s.participants.map (·.invalidate)).map (·.id)).Nodup
        rw [List.map_map]
        exact hs.ids
      · intro p hp
        obtain ⟨q, hq, rfl⟩ := List.mem_map.mp hp
        exact (hs.records q hq).invalidate

theorem Moves.orderly {T : Trust} {limits : Limits} {s s' : DurableState}
    (h : Moves T limits s s') (hs : Orderly s) : Orderly s' := by
  induction h with
  | refl => exact hs
  | tail _ hm ih => exact hm.orderly ih

/-! ## One live incarnation -/

namespace DurableParticipant

variable (p : DurableParticipant)

/-! ### What the mutations leave alone -/

theorem removeIncarnation_frame (boot : WorkerBootId) : ∃ active activeBoot i extra,
    p.removeIncarnation boot = { p with
      hasActiveBoot := active
      activeBoot := activeBoot
      activeIncarnation := i
      extraIncarnations := extra } := by
  unfold removeIncarnation
  split
  · split <;> exact ⟨_, _, _, _, rfl⟩
  · exact ⟨_, _, _, _, rfl⟩

theorem raiseFloor_frame (i : IncarnationSequence) :
    ∃ floor, p.raiseFloor i = { p with incarnationFloor := floor } := by
  unfold raiseFloor
  split <;> exact ⟨_, rfl⟩

theorem addIncarnation_frame (boot : WorkerBootId) (i : IncarnationSequence)
    (g : RegistrationGeneration) : ∃ active activeBoot j extra,
    p.addIncarnation boot i g = { p with
      hasActiveBoot := active
      activeBoot := activeBoot
      activeIncarnation := j
      extraIncarnations := extra } := by
  unfold addIncarnation
  split <;> exact ⟨_, _, _, _, rfl⟩

theorem retire_frame : ∃ floor, p.retire = { p with
    incarnationFloor := floor
    retired := true
    revalidationRequired := false } := by
  unfold retire
  split
  · exact ⟨_, rfl⟩
  · obtain ⟨floor, h⟩ := p.raiseFloor_frame p.highestIssued
    exact ⟨floor, by rw [h]⟩

theorem fence_frame (limits : Limits) (boot : WorkerBootId) (i : IncarnationSequence)
    (g : FencingGeneration) : ∃ active activeBoot j extra floor,
    p.fence limits boot i g = { p with
      hasActiveBoot := active
      activeBoot := activeBoot
      activeIncarnation := j
      extraIncarnations := extra
      incarnationFloor := floor
      fenceGeneration := g
      fencedBoots := evictPush limits.maxFencedBootsPerParticipant p.fencedBoots boot } := by
  obtain ⟨active, activeBoot, j, extra, hremove⟩ := p.removeIncarnation_frame boot
  obtain ⟨floor, hfloor⟩ := (p.removeIncarnation boot).raiseFloor_frame i
  refine ⟨active, activeBoot, j, extra, floor, ?_⟩
  rw [fence, hfloor, hremove]
  rfl

theorem register_frame (limits : Limits) (request : RegisterParticipantRequest)
    (digest : SnapshotDigest) (g : RegistrationGeneration) (i next : IncarnationSequence) :
    ∃ active activeBoot j extra, p.register limits request digest g i next = { p with
      registrationGeneration := g
      nextIncarnation := next
      policy := request.policy
      scopes := request.scopes
      revalidationRequired := false
      retired := false
      acceptedRegistrations := p.acceptedRegistrations + 1
      hasActiveBoot := active
      activeBoot := activeBoot
      activeIncarnation := j
      extraIncarnations := extra
      idempotency := rememberAttempt limits (request.record digest g i) p.idempotency } := by
  obtain ⟨active, activeBoot, j, extra, h⟩ := addIncarnation_frame { p with
    registrationGeneration := g
    nextIncarnation := next
    policy := request.policy
    scopes := request.scopes
    revalidationRequired := false
    retired := false
    acceptedRegistrations := p.acceptedRegistrations + 1 } request.boot i g
  refine ⟨active, activeBoot, j, extra, ?_⟩
  rw [register, h]
  rfl

@[simp] theorem fence_id (limits : Limits) (boot : WorkerBootId) (i : IncarnationSequence)
    (g : FencingGeneration) : (p.fence limits boot i g).id = p.id := by
  obtain ⟨_, _, _, _, _, h⟩ := p.fence_frame limits boot i g
  rw [h]

theorem live_raiseFloor (i : IncarnationSequence) : (p.raiseFloor i).live = p.live := by
  obtain ⟨floor, h⟩ := p.raiseFloor_frame i
  rw [h]
  rfl

theorem live_fence {p : DurableParticipant} (hn : p.liveBoots.Nodup) (limits : Limits)
    (boot : WorkerBootId) (i : IncarnationSequence) (g : FencingGeneration) :
    (p.fence limits boot i g).live = p.live.filter fun e => e.1 ≠ boot := by
  rw [← live_removeIncarnation hn]
  exact (p.removeIncarnation boot).live_raiseFloor i

theorem live_retire : p.retire.live = p.live := by
  obtain ⟨floor, h⟩ := p.retire_frame
  rw [h]
  rfl

end DurableParticipant

/-- A boot that is fenced was fenced before or is one of the `N` that are new. -/
theorem DurableState.Fenced.before {s s' : DurableState}
    {N : ParticipantId → WorkerBootId → Prop} {id : ParticipantId} {boot : WorkerBootId}
    (h : s'.Fenced id boot)
    (hrecords : ∀ r ∈ s'.recentFences, r ∈ s.recentFences ∨ N r.participant r.boot)
    (hboots : ∀ p' ∈ s'.participants, ∀ boot ∈ p'.fencedBoots,
      (∃ p ∈ s.participants, p.id = p'.id ∧ boot ∈ p.fencedBoots) ∨ N p'.id boot) :
    s.Fenced id boot ∨ N id boot := by
  rcases h with ⟨r, hr, rfl, rfl⟩ | ⟨p', hp', rfl, hboot⟩
  · rcases hrecords r hr with hold | hnew
    · exact .inl (.inl ⟨r, hold, rfl, rfl⟩)
    · exact .inr hnew
  · rcases hboots p' hp' boot hboot with ⟨p, hp, hid, hold⟩ | hnew
    · exact .inl (.inr ⟨p, hp, hid, hold⟩)
    · exact .inr hnew

/-! ## What fences a boot -/

section Fences

variable {s : DurableState} {limits : Limits} {r : FenceRecord} {id : ParticipantId}
  {boot : WorkerBootId}

/-- The fence of a live boot marks that boot, and no other. -/
theorem fenced_of_fence (h : DurableState.Fenced { s.updateParticipant r.participant
      (·.fence limits r.boot r.incarnation r.generation) with
      fenceFloor := r.generation
      recentFences := evictPush limits.maxRecentFences s.recentFences r } id boot) :
    s.Fenced id boot ∨ id = r.participant ∧ boot = r.boot := by
  refine h.before (s := s) (N := fun id boot => id = r.participant ∧ boot = r.boot)
    (fun f hf => ?_) fun p' hp' b hb => ?_
  · rcases mem_evictPush hf with hold | rfl
    · exact .inl hold
    · exact .inr ⟨rfl, rfl⟩
  · rcases DurableState.mem_updateParticipant hp' with ⟨q, hq, hid, rfl⟩ | ⟨hq, -⟩
    · obtain ⟨_, _, _, _, _, hframe⟩ := q.fence_frame limits r.boot r.incarnation r.generation
      rw [hframe] at hb ⊢
      rcases mem_evictPush hb with hold | rfl
      · exact .inl ⟨q, hq, rfl, hold⟩
      · exact .inr ⟨hid, rfl⟩
    · exact .inl ⟨p', hq, rfl, hb⟩

/-- And that boot is live no more. -/
theorem notLive_of_fence (hs : Orderly s) {p : DurableParticipant}
    (hp : p ∈ (s.updateParticipant r.participant
      (·.fence limits r.boot r.incarnation r.generation)).participants)
    (hid : p.id = r.participant) : r.boot ∉ p.liveBoots := by
  intro hboot
  rcases DurableState.mem_updateParticipant hp with ⟨q, hq, -, rfl⟩ | ⟨-, hne⟩
  · rw [DurableParticipant.liveBoots_eq, DurableParticipant.live_fence (hs.records q hq).boots] at hboot
    obtain ⟨e, he, heq⟩ := List.mem_map.mp hboot
    exact of_decide_eq_true (List.mem_filter.mp he).2 heq
  · exact hne hid

/-- Records that keep their fenced boots keep what is fenced. -/
theorem fenced_of_same {s' : DurableState} (h : s'.Fenced id boot)
    (hrecords : s'.recentFences = s.recentFences)
    (hboots : ∀ p' ∈ s'.participants, p'.fencedBoots = [] ∨
      ∃ p ∈ s.participants, p.id = p'.id ∧ p.fencedBoots = p'.fencedBoots) :
    s.Fenced id boot := by
  refine (h.before (s := s) (N := fun _ _ => False) (fun f hf => .inl (hrecords ▸ hf))
    fun p' hp' b hb => ?_).resolve_right not_false
  rcases hboots p' hp' with hnil | ⟨p, hp, hid, hsame⟩
  · rw [hnil] at hb
    cases hb
  · exact .inl ⟨p, hp, hid, hsame ▸ hb⟩

theorem fenced_updateParticipant {f : DurableParticipant → DurableParticipant}
    (hf : ∀ p, (f p).id = p.id ∧ (f p).fencedBoots = p.fencedBoots)
    {s' : DurableState} (h : s'.Fenced id boot) {key : ParticipantId}
    (hrecords : s'.recentFences = s.recentFences)
    (hparticipants : s'.participants = (s.updateParticipant key f).participants) :
    s.Fenced id boot := by
  refine fenced_of_same h hrecords fun p' hp' => .inr ?_
  rw [hparticipants] at hp'
  rcases DurableState.mem_updateParticipant hp' with ⟨q, hq, -, rfl⟩ | ⟨hq, -⟩
  · exact ⟨q, hq, (hf q).1.symm, (hf q).2.symm⟩
  · exact ⟨p', hq, rfl, rfl⟩

/-- **Where a move fences a boot**, it is not live behind it. -/
theorem Move.unfenced {T : Trust} {s' : DurableState} (h : Move T limits s s') (hs : Orderly s)
    (hfenced : s'.Fenced id boot) :
    s.Fenced id boot ∨ ∀ p ∈ s'.participants, p.id = id → boot ∉ p.liveBoots := by
  cases h with
  | reorder perm =>
    exact .inl (fenced_of_same hfenced rfl fun p hp => .inr ⟨p, perm.mem_iff.mpr hp, rfl, rfl⟩)
  | bump _ => exact .inl hfenced
  | @preventive record p found notLive _ _ _ _ _ _ _ =>
    have hmarked := hfenced.before (s := s)
      (N := fun id boot => id = record.participant ∧ boot = record.boot) (fun f hf => ?_)
        fun p' hp' b hb => ?_
    · rcases hmarked with hold | ⟨rfl, rfl⟩
      · exact .inl hold
      · -- a preventive record is for a boot that is not live
        refine .inr fun p' hp' hid => ?_
        rcases DurableState.mem_updateParticipant hp' with ⟨q, hq, hqid, rfl⟩ | ⟨-, hne⟩
        · rw [hs.eq_of_lookup found hq hqid]
          exact DurableParticipant.find_eq_none_iff.mp notLive
        · exact absurd hid hne
    · rcases List.mem_append.mp hf with hold | hnew
      · exact .inl hold
      · rw [List.mem_singleton.mp hnew]
        exact .inr ⟨rfl, rfl⟩
    · rcases DurableState.mem_updateParticipant hp' with ⟨q, hq, -, rfl⟩ | ⟨hq, -⟩
      · exact .inl ⟨q, hq, rfl, hb⟩
      · exact .inl ⟨p', hq, rfl, hb⟩
  | @fence record p found live _ _ _ _ =>
    rcases fenced_of_fence hfenced with hold | ⟨rfl, rfl⟩
    · exact .inl hold
    · exact .inr fun p' hp' hid => notLive_of_fence hs hp' hid
  | create missing _ _ _ =>
    refine .inl (fenced_of_same hfenced rfl fun p hp => ?_)
    rcases List.mem_append.mp hp with hold | hnew
    · exact .inr ⟨p, hold, rfl, rfl⟩
    · rw [List.mem_singleton.mp hnew]
      exact .inl rfl
  | @register request digest p g next _ _ _ _ _ _ _ _ _ _ _ _ _ _ _ =>
    refine .inl (fenced_updateParticipant (f := (·.register limits request digest g
      p.nextIncarnation next)) (fun q => ?_) hfenced rfl rfl)
    obtain ⟨_, _, _, _, hframe⟩ := q.register_frame limits request digest g p.nextIncarnation next
    rw [hframe]
    exact ⟨rfl, rfl⟩
  | @remember _ _ record _ _ _ _ =>
    exact .inl (fenced_updateParticipant (f := (·.remember limits record))
      (fun _ => ⟨rfl, rfl⟩) hfenced rfl rfl)
  | grant _ _ _ _ _ _ _ _ _ _ _ _ => exact .inl hfenced
  | revoke _ => exact .inl hfenced
  | control _ _ _ _ => exact .inl hfenced
  | retire _ _ =>
    refine .inl (fenced_updateParticipant (f := (·.retire)) (fun p => ?_) hfenced rfl rfl)
    obtain ⟨floor, hframe⟩ := p.retire_frame
    rw [hframe]
    exact ⟨rfl, rfl⟩
  | @epoch t invalidate generation _ _ _ _ _ _ =>
    cases invalidate with
    | false => exact .inl hfenced
    | true =>
      refine .inl (fenced_of_same hfenced rfl fun p' hp' => .inr ?_)
      obtain ⟨p, hp, rfl⟩ := List.mem_map.mp hp'
      exact ⟨p, hp, rfl, rfl⟩

end Fences

/-! ## Incumbency -/

/-- One live incarnation where one is allowed, and no live boot is fenced. -/
structure Incumbency (s : DurableState) : Prop where
  known : ∀ r ∈ s.recentFences, r.participant ∈ s.participants.map (·.id)
  single : ∀ p ∈ s.participants, p.policy = .singleIncarnation → p.live.length ≤ 1
  notFenced : ∀ p ∈ s.participants, ∀ boot ∈ p.liveBoots, ¬ s.Fenced p.id boot

theorem Incumbency.initial : Incumbency initialState :=
  ⟨fun _ h => (nomatch h), fun _ h => (nomatch h), fun _ h => (nomatch h)⟩

/-- What the live incarnations of a record have come from: those of an old
record, fewer of them or one more, whose boot is not fenced. -/
def DurableParticipant.LiveFrom (T : Trust) (s : DurableState) (p' : DurableParticipant) : Prop :=
  p'.live = [] ∨ ∃ p ∈ s.participants, p.id = p'.id ∧ p'.policy = p.policy ∧
    (p'.live.Sublist p.live ∨ ∃ boot i, p'.live = p.live ++ [(boot, i)] ∧
      (T.fences → ¬ s.Fenced p.id boot) ∧
      (T.fences → p.policy = .singleIncarnation → p.live = []))

theorem DurableParticipant.LiveFrom.same {T : Trust} {s : DurableState} {p p' : DurableParticipant}
    (hp : p ∈ s.participants) (hid : p.id = p'.id) (hpolicy : p'.policy = p.policy)
    (hlive : p'.live = p.live) : p'.LiveFrom T s :=
  .inr ⟨p, hp, hid, hpolicy, .inl (hlive ▸ List.Sublist.refl _)⟩

/-- An update of a record that leaves its live incarnations alone. -/
theorem liveFrom_updateParticipant {T : Trust} {s : DurableState} {id : ParticipantId}
    {f : DurableParticipant → DurableParticipant} (hf : ∀ p,
      (f p).id = p.id ∧ (f p).policy = p.policy ∧ (f p).live = p.live) {p' : DurableParticipant}
    (hp' : p' ∈ (s.updateParticipant id f).participants) : p'.LiveFrom T s := by
  rcases DurableState.mem_updateParticipant hp' with ⟨p, hp, -, rfl⟩ | ⟨hp, -⟩
  · obtain ⟨hid, hpolicy, hlive⟩ := hf p
    exact .same hp hid.symm hpolicy hlive
  · exact .same hp rfl rfl rfl

/-- **What a move does to the live incarnations.** -/
theorem Move.live {T : Trust} {limits : Limits} {s s' : DurableState} (h : Move T limits s s')
    (hs : Orderly s) : ∀ p' ∈ s'.participants, p'.LiveFrom T s := by
  intro p' hp'
  cases h with
  | reorder perm => exact .same (perm.mem_iff.mpr hp') rfl rfl rfl
  | bump _ => exact .same hp' rfl rfl rfl
  | @preventive record _ _ _ _ _ _ _ _ _ _ =>
    exact liveFrom_updateParticipant (f := (·.setFenceGeneration record.generation))
      (fun _ => ⟨rfl, rfl, rfl⟩) hp'
  | @fence record _ _ _ _ _ _ _ =>
    rcases DurableState.mem_updateParticipant hp' with ⟨q, hq, -, rfl⟩ | ⟨hq, -⟩
    · have hlive := DurableParticipant.live_fence (hs.records q hq).boots limits record.boot
        record.incarnation record.generation
      obtain ⟨_, _, _, _, _, hframe⟩ :=
        q.fence_frame limits record.boot record.incarnation record.generation
      refine .inr ⟨q, hq, by rw [hframe], by rw [hframe], .inl ?_⟩
      rw [hlive]
      exact List.filter_sublist
    · exact .same hq rfl rfl rfl
  | create _ _ _ _ =>
    rcases List.mem_append.mp hp' with hold | hnew
    · exact .same hold rfl rfl rfl
    · rw [List.mem_singleton.mp hnew]
      exact .inl rfl
  | @register request digest p g next semantic found notRetired nonNil attempt newAttempt notLive
      policy notFenced single elsewhere size text floor allocate =>
    rcases DurableState.mem_updateParticipant hp' with ⟨q, hq, hid, rfl⟩ | ⟨hq, -⟩
    · obtain rfl := hs.eq_of_lookup found hq hid
      obtain ⟨_, _, _, _, hframe⟩ :=
        q.register_frame limits request digest g q.nextIncarnation next
      have hlive := DurableParticipant.live_register (hs.records q hq).compact limits request digest
        g q.nextIncarnation next
      refine .inr ⟨q, hq, by rw [hframe], ?_, .inr ⟨request.boot, q.nextIncarnation, hlive, ?_,
        single⟩⟩
      · rw [hframe]
        exact policy.symm
      · rw [hid]
        exact notFenced
    · exact .same hq rfl rfl rfl
  | @remember _ _ record _ _ _ _ =>
    exact liveFrom_updateParticipant (f := (·.remember limits record)) (fun _ => ⟨rfl, rfl, rfl⟩)
      hp'
  | grant _ _ _ _ _ _ _ _ _ _ _ _ => exact .same hp' rfl rfl rfl
  | revoke _ => exact .same hp' rfl rfl rfl
  | control _ _ _ _ => exact .same hp' rfl rfl rfl
  | retire _ _ =>
    refine liveFrom_updateParticipant (fun p => ⟨p.retire_id, ?_, p.live_retire⟩) hp'
    obtain ⟨floor, hframe⟩ := p.retire_frame
    rw [hframe]
  | @epoch t invalidate generation _ _ _ _ _ _ =>
    cases invalidate with
    | false => exact .same hp' rfl rfl rfl
    | true =>
      obtain ⟨p, hp, rfl⟩ := List.mem_map.mp hp'
      exact .inl rfl

/-- Fences are of participants that are there. -/
theorem Move.known {T : Trust} {limits : Limits} {s s' : DurableState} (h : Move T limits s s')
    (hknown : ∀ r ∈ s.recentFences, r.participant ∈ s.participants.map (·.id)) :
    ∀ r ∈ s'.recentFences, r.participant ∈ s'.participants.map (·.id) := by
  intro r hr
  cases h with
  | reorder perm => exact (perm.map _).subset (hknown r hr)
  | @preventive record p found _ _ _ _ _ _ _ _ =>
    refine s.ids_subset_updateParticipant record.participant
      (f := (·.setFenceGeneration record.generation)) (fun _ => rfl) ?_
    rcases List.mem_append.mp hr with hold | hnew
    · exact hknown r hold
    · rw [List.mem_singleton.mp hnew, ← (DurableState.mem_of_lookup found).2]
      exact List.mem_map_of_mem (DurableState.mem_of_lookup found).1
  | @fence record p found _ _ _ _ _ =>
    refine s.ids_subset_updateParticipant record.participant (fun p =>
      p.fence_id limits record.boot record.incarnation record.generation) ?_
    rcases mem_evictPush hr with hold | rfl
    · exact hknown r hold
    · rw [← (DurableState.mem_of_lookup found).2]
      exact List.mem_map_of_mem (DurableState.mem_of_lookup found).1
  | create _ _ _ _ =>
    rw [List.map_append]
    exact List.mem_append_left _ (hknown r hr)
  | @register request digest p g next _ _ _ _ _ _ _ _ _ _ _ _ _ _ _ =>
    exact s.ids_subset_updateParticipant request.participant
      (fun q => q.register_id limits request digest g p.nextIncarnation next) (hknown r hr)
  | @remember id _ record _ _ _ _ =>
    exact s.ids_subset_updateParticipant id (f := (·.remember limits record)) (fun _ => rfl)
      (hknown r hr)
  | @retire id _ _ => exact s.ids_subset_updateParticipant id (fun p => p.retire_id) (hknown r hr)
  | @epoch t invalidate generation _ _ _ _ _ _ =>
    cases invalidate with
    | false => exact hknown r hr
    | true =>
      show r.participant ∈ (s.participants.map (·.invalidate)).map (·.id)
      rw [List.map_map]
      exact hknown r hr
  | _ => exact hknown r hr

/-- **A move preserves incumbency**, the fence lookups being right. -/
theorem Move.incumbency {T : Trust} {limits : Limits} {s s' : DurableState}
    (h : Move T limits s s') (hT : T.fences) (hs : Orderly s) (hi : Incumbency s) :
    Incumbency s' := by
  refine ⟨h.known hi.known, fun p' hp' hpolicy => ?_, fun p' hp' boot hboot hfenced => ?_⟩
  · rcases h.live hs p' hp' with hnil | ⟨p, hp, -, heq, hsub | ⟨boot, i, hlive, -, hsingle⟩⟩
    · rw [hnil]
      exact Nat.zero_le 1
    · exact Nat.le_trans hsub.length_le (hi.single p hp (heq.symm.trans hpolicy))
    · rw [hlive, hsingle hT (heq.symm.trans hpolicy)]
      exact Nat.le_refl 1
  · rcases h.unfenced hs hfenced with hold | hgone
    swap
    · exact hgone p' hp' rfl hboot
    rw [DurableParticipant.liveBoots_eq] at hboot
    rcases h.live hs p' hp' with hnil | ⟨p, hp, hid, -, hlive⟩
    · rw [hnil] at hboot
      cases hboot
    rw [← hid] at hold
    -- a boot that was live was not fenced, and the new one is not
    have hpast : boot ∉ p.live.map Prod.fst := fun hmem =>
      hi.notFenced p hp boot (by rwa [DurableParticipant.liveBoots_eq]) hold
    rcases hlive with hsub | ⟨boot', i, hlive, hunfenced, -⟩
    · exact hpast ((hsub.map _).subset hboot)
    · rw [hlive, List.map_append, List.mem_append, List.map_singleton, List.mem_singleton] at hboot
      rcases hboot with hpresent | rfl
      · exact hpast hpresent
      · exact hunfenced hT hold

theorem Moves.incumbency {T : Trust} {limits : Limits} {s s' : DurableState}
    (h : Moves T limits s s') (hT : T.fences) (hs : Orderly s) (hi : Incumbency s) :
    Incumbency s' := by
  induction h with
  | refl => exact hi
  | tail hms hm ih => exact hm.incumbency hT (Moves.orderly hms hs) ih

end FabricEpoch
