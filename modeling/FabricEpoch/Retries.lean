import FabricEpoch.RegisteredLive
import FabricEpoch.Runtime.Frames
import FabricEpoch.Runtime.Keeping

/-!
# Exact retries

Six calls carry an attempt identifier and leave a replay record behind when
they succeed. The identical call, made again, is answered from the record: the
memory and the disk stay as they are, and the answer is the one that was given
first, but for its explanation and its replay mark.

A fence breaks this. It records the incarnation that it ended, and its replay
does not read it back, so the retry of a fence that ended an incarnation does
not name it.

- `Reply.SameStory`, `Call.Retold`: what is asked of a retry;
- `applyGrant_retold`, `fenceWorker_retold`, ...: one operation;
- `retryTold`: every call, in every reachable state;
- `fencedTwice`: the two answers of a fence.
-/

namespace FabricEpoch

open Table Transaction

/-! ## What is asked of a retry -/

/-- The second answer is the first one, but for its explanation and its replay
mark. -/
def Reply.SameStory : Reply → Reply → Prop
  | .registered r, .registered r' =>
    { r with explanation := r'.explanation, replayed := r'.replayed } = r'
  | .fenced r, .fenced r' => { r with explanation := r'.explanation } = r'
  | .granted r, .granted r' =>
    { r with explanation := r'.explanation, replayed := r'.replayed } = r'
  | .revoked r, .revoked r' => { r with explanation := r'.explanation } = r'
  | .advanced r, .advanced r' =>
    { r with explanation := r'.explanation, replayed := r'.replayed } = r'
  | .retired r, .retired r' => { r with explanation := r'.explanation } = r'
  | _, _ => False

namespace Call

/-- One of the six calls was answered with its success outcome. -/
def Succeeds : Call → Reply → Prop
  | .register _, .registered r => r.outcome = .registered
  | .fence _, .fenced r => r.outcome = .fenced
  | .grant _, .granted r => r.outcome = .granted
  | .revoke _, .revoked r => r.outcome = .revoked
  | .advance _, .advanced r => r.outcome = .advanced
  | .retire _, .retired r => r.outcome = .retired
  | _, _ => False

/-- The replay record that would answer the call. -/
def recorded (impl : Impl) : Call → Option IdempotencyRecord
  | .register request => impl.recordedAttempt request.participant request.attempt
  | .fence request => impl.recordedAttempt request.participant request.attempt
  | .grant request => impl.recordedAttempt request.participant request.attempt
  | .retire request => impl.recordedAttempt request.participant request.attempt
  | .revoke request => findAttempt impl.state.controlAttempts request.attempt
  | .advance request => findAttempt impl.state.controlAttempts request.attempt
  | _ => none

/-- The call, made again behind the first one, leaves memory and disk as they
are and tells the same story, whatever is generated and whatever fails. -/
def Retold (call : Call) (entropy : Entropy) (fault : Option SaveFault) (disk : Disk)
    (impl : Impl) (reply : Reply) : Prop :=
  let done := callRuntime call entropy fault disk impl
  ∀ entropy' fault', ∃ reply', callRuntime call entropy' fault' done.disk done.impl =
    ⟨done.impl, done.disk, .ok reply'⟩ ∧ reply.SameStory reply'

/-- What a retry relies on: no fence of the boot is on record when it registers,
the boot is not live when it is fenced, and the live incarnations of a
participant that retires can be counted in 64 bits. -/
def RetrySafe (impl : Impl) : Call → Prop
  | .register request => ¬ impl.state.Fenced request.participant request.boot
  | .fence request => ∀ p, impl.findParticipant request.participant = some p →
      p.findIncarnation request.boot = none
  | .retire request => ∀ p, impl.findParticipant request.participant = some p →
      p.liveBoots.length < 2 ^ 64
  | _ => True

end Call

/-! ## Readings -/

section Readings

/-- What the checks in front of the replay tables read beside the records. -/
abbrev settingsOf (impl : Impl) : EpochRuntimeOptions × CoordinatorEpoch × CoordinatorBootId :=
  (impl.options, impl.state.currentEpoch, impl.state.coordinatorBoot)

theorem settingsOf_updateParticipant (id : ParticipantId)
    (f : DurableParticipant → DurableParticipant) (s : Impl) :
    settingsOf (s.updateParticipant id f) = settingsOf s := by
  unfold Impl.updateParticipant
  split <;> rfl

theorem settingsOf_record : RecordFrame settingsOf where
  generation _ _ := rfl
  preventive id r s := settingsOf_updateParticipant id _ (s.setFenceFloor r.generation)
  removal id _ _ s :=
    (settingsOf_updateParticipant id _ _).trans (settingsOf_updateParticipant id _ s)
  fence id r s := settingsOf_updateParticipant id _ (s.setFenceFloor r.generation)
  remember id _ _ s := settingsOf_updateParticipant id _ s
  retire id s := settingsOf_updateParticipant id _ s

theorem settingsOf_registration : RegistrationFrame settingsOf where
  toFenceFrame := settingsOf_record.toFenceFrame
  create _ _ _ := rfl
  floor _ _ := rfl
  register request _ _ _ _ s := settingsOf_updateParticipant request.participant _ s

theorem settingsOf_grant : GrantFrame settingsOf where
  generation _ _ := rfl
  push _ _ := rfl
  stamp _ _ _ := rfl
  remember id _ _ s := settingsOf_updateParticipant id _ s

theorem settingsOf_revoke : RevokeFrame settingsOf where
  generation _ _ := rfl
  revoke root s := by
    obtain ⟨_, hrevised, -⟩ := Impl.Revised.revokeLoop root (2 * s.state.grants.length + 2) [root] 0 s
    rw [Impl.revokeFrom, hrevised]
  stamp id f s := by
    unfold Impl.updateGrant
    split <;> rfl
  control _ _ := rfl

/-- The replay table of a participant. -/
abbrev tableOf (id : ParticipantId) (impl : Impl) : Option (List IdempotencyRecord) :=
  (impl.findParticipant id).map (·.idempotency)

theorem tableOf_fence (id : ParticipantId) : FenceFrame (tableOf id) := by
  refine FenceFrame.of_found (fun p boot => ?_) (fun p i => ?_) (fun _ _ => rfl)
    (fun _ _ _ => rfl) id
  · obtain ⟨_, _, _, _, hframe⟩ := p.removeIncarnation_frame boot
    rw [hframe]
  · unfold DurableParticipant.raiseFloor
    split <;> rfl

/-- Where the participants are found. -/
abbrev placesOf (impl : Impl) : List ParticipantId × (ParticipantId → Option Nat) :=
  (impl.ids, impl.participantIndex)

theorem placesOf_quiet {f : Impl → Impl} (hf : Impl.Quiet f) (s : Impl) :
    placesOf (f s) = placesOf s :=
  Prod.ext (hf s).ids (hf s).index

theorem placesOf_fence : FenceFrame placesOf where
  generation _ s := placesOf_quiet Impl.quiet_setGeneration s
  preventive _ _ s := placesOf_quiet Impl.quiet_applyPreventive s
  removal _ _ _ s := placesOf_quiet Impl.quiet_applyRemoval s
  fence _ _ s := placesOf_quiet Impl.quiet_applyFence s

theorem findable_of_places {impl impl' : Impl} (h : impl.Findable)
    (hplaces : placesOf impl' = placesOf impl) : impl'.Findable :=
  h.of_places ⟨congrArg Prod.fst hplaces, congrArg Prod.snd hplaces⟩

/-- The record with the same table, behind fences. -/
theorem find_of_fences {id : ParticipantId} {p : DurableParticipant} {impl impl' : Impl}
    (hi : impl.Findable) (hp : impl.findParticipant id = some p)
    (htable : tableOf id impl' = tableOf id impl) (hplaces : placesOf impl' = placesOf impl) :
    ∃ q, impl'.findParticipant id = some q ∧ q.id = id ∧ q.idempotency = p.idempotency := by
  rw [tableOf, tableOf, hp] at htable
  obtain ⟨q, hq, hidempotency⟩ := Option.map_eq_some_iff.mp htable
  exact ⟨q, hq, (findable_of_places hi hplaces).id_of_find hq, hidempotency⟩

end Readings

/-! ## Behind the first call -/

/-- A call that is a transaction. -/
structure Call.Runs {α : Type} (call : Call) (ops : Entropy → Op α) (tag : α → Reply) : Prop where
  injective : Function.Injective tag
  call : ∀ entropy fault disk impl,
    callRuntime call entropy fault disk impl = (transact (ops entropy) fault disk impl).map tag

/-- **The retry of a transaction** that commits and is answered from what it left
behind. -/
theorem Call.Runs.retold_iff {α : Type} {call : Call} {ops : Entropy → Op α} {tag : α → Reply}
    (hruns : call.Runs ops tag) {entropy : Entropy} {fault : Option SaveFault} {disk : Disk}
    {impl : Impl} {a : α} {P : Prop}
    (h : (callRuntime call entropy fault disk impl).result = .ok (tag a))
    (hop : ∀ u, ops entropy (Txn.start impl) = .ok a u → u.mutated = true ∧ ∀ image,
      EpochStore.encode u.state.canonicalize.state = .ok image → ∀ entropy',
        ∃ a', ops entropy' (Txn.start u.state.canonicalize.rebuildIndexes) =
          .ok a' (Txn.start u.state.canonicalize.rebuildIndexes) ∧
            ((tag a).SameStory (tag a') ↔ P)) :
    call.Retold entropy fault disk impl (tag a) ↔ P := by
  rw [hruns.call] at h
  obtain ⟨u, hrun, hcases⟩ := transact_ok (Transacted.of_map hruns.injective h)
  obtain ⟨hmutated, hagain⟩ := hop u hrun
  obtain ⟨hidle, -⟩ | ⟨-, image, previous, hsaved, heq⟩ := hcases
  · rw [hmutated] at hidle
    cases hidle
  · obtain ⟨impl', himpl'⟩ : ∃ s, s = u.state.canonicalize.rebuildIndexes := ⟨_, rfl⟩
    obtain ⟨disk', hdisk'⟩ : ∃ d, d = EpochStore.writtenDisk disk u.state.canonicalize.state image
      previous := ⟨_, rfl⟩
    rw [← himpl', ← hdisk'] at heq
    have hdone : callRuntime call entropy fault disk impl = ⟨impl', disk', .ok (tag a)⟩ := by
      rw [hruns.call, heq]
      rfl
    have hretry : ∀ entropy' fault', ∃ a', callRuntime call entropy' fault' disk' impl' =
        ⟨impl', disk', .ok (tag a')⟩ ∧ ((tag a).SameStory (tag a') ↔ P) := by
      intro entropy' fault'
      obtain ⟨a', ha', hsame⟩ := hagain image hsaved entropy'
      rw [← himpl'] at ha'
      refine ⟨a', ?_, hsame⟩
      rw [hruns.call, transact_idle ha' fault']
      rfl
    unfold Call.Retold
    rw [hdone]
    show (∀ entropy' fault', ∃ reply', callRuntime call entropy' fault' disk' impl' =
      ⟨impl', disk', .ok reply'⟩ ∧ (tag a).SameStory reply') ↔ P
    constructor
    · intro hretold
      obtain ⟨reply', hreply, htold⟩ := hretold entropy fault
      obtain ⟨a', ha', hsame⟩ := hretry entropy fault
      have heq : reply' = tag a' :=
        Except.ok.inj (congrArg Transacted.result (hreply.symm.trans ha'))
      exact hsame.mp (heq ▸ htold)
    · intro hP entropy' fault'
      obtain ⟨a', ha', hsame⟩ := hretry entropy' fault'
      exact ⟨tag a', ha', hsame.mpr hP⟩

/-- A new attempt is found once it is remembered. -/
theorem findAttempt_rememberAttempt {limits : Limits} {record : IdempotencyRecord}
    {table : List IdempotencyRecord} (hnew : findAttempt table record.attempt = none) :
    findAttempt (rememberAttempt limits record table) record.attempt = some record := by
  have hold : ∀ r ∈ (if table.length ≥ limits.maxIdempotencyRecordsPerParticipant then
      table.drop 1 else table), ¬ r.attempt = record.attempt := by
    intro r hr heq
    have hmem : r ∈ table := by
      split at hr
      · exact List.mem_of_mem_drop hr
      · exact hr
    have hne := List.find?_eq_none.mp hnew r hmem
    exact hne (decide_eq_true heq)
  unfold findAttempt rememberAttempt evictPush
  rw [List.find?_append, List.find?_eq_none.mpr fun r hr => by simpa using hold r hr]
  simp

/-! ### Grants -/

/-- An exact retry is answered from the table. -/
theorem applyGrant_replays {entropy : Entropy} {request : GrantAuthorityRequest} {t : Txn Impl}
    {p : DurableParticipant} {digest : SnapshotDigest} {previous : IdempotencyRecord}
    (hmalformed : t.state.malformedGrant request = none)
    (hfound : t.state.findParticipant request.participant = some p)
    (hrefused : t.state.refusedGrantee p request = none)
    (hsemantic : computeSemanticDigest request.semantic = .ok digest)
    (hattempt : findAttempt p.idempotency request.attempt = some previous) :
    applyGrant entropy request t = .ok (t.state.replayedGrant request digest previous) t := by
  unfold applyGrant
  rw [Action.bind_current]
  simp only [hmalformed, hfound, hrefused, hsemantic, Action.bind_ofExcept, hattempt]
  rfl

theorem malformedGrant_congr {impl impl' : Impl} (h : settingsOf impl' = settingsOf impl)
    (request : GrantAuthorityRequest) : impl'.malformedGrant request = impl.malformedGrant request := by
  simp only [Prod.mk.injEq] at h
  simp only [Impl.malformedGrant, Impl.grantResult, h.1, h.2.1]

theorem refusedGrantee_of_live {impl : Impl} {p : DurableParticipant}
    {request : GrantAuthorityRequest} (hclaimed : request.incarnation.value ≠ 0)
    (hlive : p.findIncarnation request.boot = some request.incarnation)
    (hscopes : p.scopes.containsAll request.scopes = true) :
    impl.refusedGrantee p request = none := by
  have hcurrent : (impl.evaluateIncarnation p request.boot request.incarnation).code = .current :=
    (evaluateIncarnation_current_iff hclaimed).mpr hlive
  simp only [Impl.refusedGrantee, hcurrent, hscopes]
  simp

theorem refusedGrantee_scopes {impl : Impl} {p : DurableParticipant}
    {request : GrantAuthorityRequest} (h : impl.refusedGrantee p request = none) :
    p.scopes.containsAll request.scopes = true := by
  simp only [Impl.refusedGrantee] at h
  split at h
  · cases h
  · split at h
    · cases h
    · next hscopes => simpa using hscopes

/-- What the replay table answers. -/
theorem replayedGrant_same (impl : Impl) (request : GrantAuthorityRequest) {digest : SnapshotDigest}
    (previous : IdempotencyRecord) (h : previous.semantic = digest) :
    (impl.replayedGrant request digest previous).outcome = GrantOutcome.ofRaw previous.outcome ∧
      (impl.replayedGrant request digest previous).epoch = impl.state.currentEpoch ∧
      (impl.replayedGrant request digest previous).grant = some ⟨previous.auxiliaryId⟩ ∧
      (impl.replayedGrant request digest previous).generation =
        some (MonotonicCounter.ofRaw previous.auxiliary) := by
  unfold Impl.replayedGrant
  rw [if_neg (not_not.mpr h)]
  exact ⟨rfl, rfl, rfl, rfl⟩

theorem GrantResult.sameStory {r r' : GrantResult} (houtcome : r.outcome = r'.outcome)
    (hepoch : r.epoch = r'.epoch) (hgrant : r.grant = r'.grant)
    (hgeneration : r.generation = r'.generation) : (Reply.granted r).SameStory (.granted r') := by
  show GrantResult.mk r.outcome r.epoch r.grant r.generation _ _ = r'
  rw [houtcome, hepoch, hgrant, hgeneration]

/-- **A grant is retold.** -/
theorem applyGrant_retold {entropy : Entropy} {request : GrantAuthorityRequest} {impl : Impl}
    {u : Txn Impl} {r : GrantResult} (hi : impl.Findable)
    (hnew : impl.recordedAttempt request.participant request.attempt = none)
    (h : applyGrant entropy request (Txn.start impl) = .ok r u) (hr : r.outcome = .granted) :
    u.mutated = true ∧ ∀ image, EpochStore.encode u.state.canonicalize.state = .ok image →
      ∀ entropy', ∃ r', applyGrant entropy' request (Txn.start u.state.canonicalize.rebuildIndexes) =
        .ok r' (Txn.start u.state.canonicalize.rebuildIndexes) ∧
          (Reply.granted r).SameStory (.granted r') := by
  rcases applyGrant_cases h with ⟨-, hrecorded⟩ | ⟨p, digest, hadmitted, hcommit⟩
  · exact absurd hnew (hrecorded hr)
  have hsettings : settingsOf u.state = settingsOf impl :=
    frame_of_run (fun _ => Reads.applyGrant settingsOf_grant entropy request) h
  obtain ⟨bytes, g, -, -, hstate, hmutated, -, hgrant, hgeneration, hepoch⟩ := commitGrant_ok hcommit
  refine ⟨hmutated, fun image hsaved entropy' => ?_⟩
  have hshape := malformedGrant_none hadmitted.malformed
  -- the record of the participant, with the attempt in its table
  have hid : p.id = request.participant := hi.id_of_find hadmitted.found
  have hfound : u.state.findParticipant request.participant = some (p.remember impl.options.limits
      (request.record digest (GrantGeneration.ofState g) ⟨bytes⟩)) := by
    have hissued : ((((Txn.start impl).state.pushGrant (impl.newGrant request ⟨bytes⟩)).setGeneration
        g).setGrantGeneration (GrantGeneration.ofState g)
          impl.state.grants.length).findParticipant request.participant = some p := hadmitted.found
    rw [hstate]
    exact find_updateParticipant_self hissued _
  have hagain := find_saved hsaved (Impl.mem_of_find hfound)
  rw [show (p.remember impl.options.limits _).id = request.participant from hid] at hagain
  have hmalformed : (u.state.canonicalize.rebuildIndexes).malformedGrant request = none :=
    (malformedGrant_congr hsettings request).trans hadmitted.malformed
  have hlive := refusedGrantee_none hshape.incarnation hadmitted.refused
  have hscopes := refusedGrantee_scopes hadmitted.refused
  refine ⟨_, applyGrant_replays hmalformed hagain
    (refusedGrantee_of_live hshape.incarnation hlive hscopes) hadmitted.semantic
    (findAttempt_rememberAttempt hadmitted.attempt), ?_⟩
  obtain ⟨houtcome', hepoch', hgrant', hgeneration'⟩ := replayedGrant_same
    u.state.canonicalize.rebuildIndexes request
    (request.record digest (GrantGeneration.ofState g) ⟨bytes⟩) rfl
  have hsame : impl.state.currentEpoch = u.state.state.currentEpoch :=
    (congrArg (·.2.1) hsettings).symm
  refine GrantResult.sameStory (hr.trans houtcome'.symm) ((hepoch.trans hsame).trans hepoch'.symm)
    (hgrant.trans hgrant'.symm) (hgeneration.trans ?_)
  exact (congrArg some (MonotonicCounter.ofRaw_raw _).symm).trans hgeneration'.symm

/-! ### Revocations -/

/-- The traversal takes one round for each grant that it revokes. -/
theorem revokeLoop_count (root : AuthorityGrantId) (fuel : Nat) (pending : List AuthorityGrantId)
    (n : Nat) (impl : Impl) : (Impl.revokeLoop root fuel pending n impl).2 ≤ n + fuel := by
  induction fuel generalizing pending n impl with
  | zero => exact Nat.le_refl n
  | succ fuel ih =>
    cases pending with
    | nil =>
      show n ≤ n + (fuel + 1)
      omega
    | cons current pending =>
      rw [Impl.revokeLoop]
      split
      · exact Nat.le_trans (ih _ _ _) (by omega)
      · split
        · exact Nat.le_trans (ih _ _ _) (by omega)
        · split
          · exact Nat.le_trans (ih _ _ _) (by omega)
          · exact Nat.le_trans (ih _ _ _) (by omega)

/-- An exact retry is answered from the table. -/
theorem applyRevoke_replays {request : RevokeAuthorityRequest} {t : Txn Impl}
    {digest : SnapshotDigest} {previous : IdempotencyRecord}
    (hmalformed : t.state.malformedRevoke request = none)
    (hsemantic : computeSemanticDigest request.semantic = .ok digest)
    (hattempt : findAttempt t.state.state.controlAttempts request.attempt = some previous) :
    applyRevoke request t = .ok (t.state.replayedRevoke request digest previous) t := by
  unfold applyRevoke
  rw [Action.bind_current]
  simp only [hmalformed, hsemantic, Action.bind_ofExcept, hattempt]
  rfl

theorem malformedRevoke_congr {impl impl' : Impl} (h : settingsOf impl' = settingsOf impl)
    (request : RevokeAuthorityRequest) :
    impl'.malformedRevoke request = impl.malformedRevoke request := by
  simp only [Prod.mk.injEq] at h
  simp only [Impl.malformedRevoke, Impl.revokeResult, h.2.1]

/-- What the replay table answers. -/
theorem replayedRevoke_same (impl : Impl) (request : RevokeAuthorityRequest) {digest : SnapshotDigest}
    (previous : IdempotencyRecord) (h : previous.semantic = digest) :
    (impl.replayedRevoke request digest previous).outcome = RevokeOutcome.ofRaw previous.outcome ∧
      (impl.replayedRevoke request digest previous).epoch = impl.state.currentEpoch ∧
      (impl.replayedRevoke request digest previous).generation =
        some (MonotonicCounter.ofRaw previous.auxiliary) ∧
      (impl.replayedRevoke request digest previous).derivedGrantsRevoked =
        previous.auxiliaryHigh.toNat := by
  unfold Impl.replayedRevoke
  rw [if_neg (not_not.mpr h)]
  exact ⟨rfl, rfl, rfl, rfl⟩

theorem RevokeResult.sameStory {r r' : RevokeResult} (houtcome : r.outcome = r'.outcome)
    (hepoch : r.epoch = r'.epoch) (hgeneration : r.generation = r'.generation)
    (hderived : r.derivedGrantsRevoked = r'.derivedGrantsRevoked) :
    (Reply.revoked r).SameStory (.revoked r') := by
  show RevokeResult.mk r.outcome r.epoch r.generation r.derivedGrantsRevoked _ = r'
  rw [houtcome, hepoch, hgeneration, hderived]

/-- The control table and the number of grants behind a revocation. -/
theorem commitRevoke_tables {request : RevokeAuthorityRequest} {digest : SnapshotDigest}
    {grant : AuthorityGrant} {t u : Txn Impl} {r : RevokeResult}
    (h : commitRevoke request digest grant t = .ok r u) :
    ∃ g derived, u.state.state.controlAttempts = rememberAttempt u.state.options.limits
        (request.record digest (GrantGeneration.ofState g) derived) t.state.state.controlAttempts ∧
      derived ≤ 2 * u.state.state.grants.length + 1 ∧ u.mutated = true ∧ r.outcome = .revoked ∧
      r.derivedGrantsRevoked = derived ∧ r.generation = some (GrantGeneration.ofState g) ∧
      r.epoch = t.state.state.currentEpoch := by
  obtain ⟨g, derived, stamped, hderived, -, hstamped, hstate, hmutated, houtcome, hanswer,
    hgeneration, hepoch⟩ := commitRevoke_ok h
  have hloop : t.state.Revised (t.state.revokeFrom grant.id).1 :=
    .revokeLoop grant.id _ _ 0 t.state
  have hstamp := Impl.Revised.updateGrant ((t.state.revokeFrom grant.id).1.setGeneration g)
    (fun g' => .generation g' (GrantGeneration.ofState g)) request.grant
  rw [← hstamped] at hstamp
  obtain ⟨grants, heq, hgrants⟩ := hloop
  obtain ⟨grants', heq', hgrants'⟩ := hstamp
  have hcount := revokeLoop_count grant.id (2 * t.state.state.grants.length + 2) [grant.id] 0 t.state
  have hlength : grants'.length = t.state.state.grants.length := by
    rw [← hgrants'.length_eq, heq]
    exact hgrants.length_eq.symm
  refine ⟨g, derived, ?_, ?_, hmutated, houtcome, hanswer, hgeneration, hepoch⟩
  · rw [hstate, heq', heq]
    rfl
  · rw [hstate, heq', hderived]
    show (t.state.revokeFrom grant.id).2 - 1 ≤ 2 * grants'.length + 1
    unfold Impl.revokeFrom
    omega

/-- **A revocation is retold.** The state that was saved has few enough grants
for their count to fit the record. -/
theorem applyRevoke_retold {request : RevokeAuthorityRequest} {impl : Impl} {u : Txn Impl}
    {r : RevokeResult} (hnew : findAttempt impl.state.controlAttempts request.attempt = none)
    (h : applyRevoke request (Txn.start impl) = .ok r u) (hr : r.outcome = .revoked) :
    u.mutated = true ∧ ∀ image, EpochStore.encode u.state.canonicalize.state = .ok image →
      ∃ r', applyRevoke request (Txn.start u.state.canonicalize.rebuildIndexes) =
        .ok r' (Txn.start u.state.canonicalize.rebuildIndexes) ∧
          (Reply.revoked r).SameStory (.revoked r') := by
  rcases applyRevoke_cases h with ⟨-, hrecorded⟩ | ⟨digest, grant, hadmitted, hcommit⟩
  · exact absurd hnew (hrecorded hr)
  have hsettings : settingsOf u.state = settingsOf impl :=
    frame_of_run (fun _ => Reads.applyRevoke settingsOf_revoke request) h
  obtain ⟨g, derived, htable, hderived, hmutated, -, hanswer, hgeneration, hepoch⟩ :=
    commitRevoke_tables hcommit
  refine ⟨hmutated, fun image hsaved => ?_⟩
  have hfits : (UInt64.ofNat derived).toNat = derived := by
    obtain ⟨-, hvalid, -⟩ := EpochStore.encode_ok.mp hsaved
    have hceiling : u.state.state.grants.length ≤ kAbsoluteMaxRecords := hvalid.ceilings.grants
    rw [UInt64.toNat_ofNat']
    refine Nat.mod_eq_of_lt ?_
    unfold kAbsoluteMaxRecords at hceiling
    omega
  have hattempt : findAttempt u.state.canonicalize.rebuildIndexes.state.controlAttempts
      request.attempt = some (request.record digest (GrantGeneration.ofState g) derived) := by
    show findAttempt u.state.state.controlAttempts request.attempt = _
    rw [htable]
    exact findAttempt_rememberAttempt hadmitted.attempt
  have hmalformed : (u.state.canonicalize.rebuildIndexes).malformedRevoke request = none :=
    (malformedRevoke_congr hsettings request).trans hadmitted.malformed
  refine ⟨_, applyRevoke_replays hmalformed hadmitted.semantic hattempt, ?_⟩
  obtain ⟨houtcome', hepoch', hgeneration', hderived'⟩ := replayedRevoke_same
    u.state.canonicalize.rebuildIndexes request
    (request.record digest (GrantGeneration.ofState g) derived) rfl
  have hsame : impl.state.currentEpoch = u.state.state.currentEpoch :=
    (congrArg (·.2.1) hsettings).symm
  refine RevokeResult.sameStory (hr.trans houtcome'.symm) ((hepoch.trans hsame).trans hepoch'.symm)
    (hgeneration.trans ?_) (hanswer.trans (hfits.symm.trans hderived'.symm))
  exact (congrArg some (MonotonicCounter.ofRaw_raw _).symm).trans hgeneration'.symm

/-! ### Advances -/

/-- An exact retry is answered from the table, whatever the epoch. -/
theorem advanceEpoch_replays {entropy : Entropy} {request : EpochAdvanceRequest} {t : Txn Impl}
    {digest : SnapshotDigest} {previous : IdempotencyRecord} (hnil : request.attempt.isNil = false)
    (hsemantic : computeSemanticDigest request.semantic = .ok digest)
    (hattempt : findAttempt t.state.state.controlAttempts request.attempt = some previous) :
    advanceEpoch entropy request t = .ok (t.state.replayedAdvance request digest previous) t := by
  unfold advanceEpoch
  rw [Action.bind_current, hnil, if_neg Bool.false_ne_true]
  simp only [hsemantic, Action.bind_ofExcept, hattempt]
  rfl

/-- What the replay table answers for the epoch that is current. -/
theorem replayedAdvance_same (impl : Impl) (request : EpochAdvanceRequest) {digest : SnapshotDigest}
    (previous : IdempotencyRecord) (h : previous.semantic = digest)
    (hrecorded : previous.auxiliaryHigh ≠ 0)
    (hcurrent : MonotonicCounter.ofRaw previous.auxiliary = impl.state.currentEpoch) :
    (impl.replayedAdvance request digest previous).outcome =
        EpochAdvanceOutcome.ofRaw previous.outcome ∧
      (impl.replayedAdvance request digest previous).epoch = impl.state.currentEpoch ∧
      (impl.replayedAdvance request digest previous).coordinatorBoot = impl.state.coordinatorBoot ∧
      (impl.replayedAdvance request digest previous).transition =
        impl.state.transitions.getLast?.map (·.id) := by
  unfold Impl.replayedAdvance
  rw [if_neg (not_not.mpr h)]
  exact ⟨rfl, hcurrent, rfl, if_pos ⟨hrecorded, hcurrent⟩⟩

theorem EpochAdvanceResult.sameStory {r r' : EpochAdvanceResult} (houtcome : r.outcome = r'.outcome)
    (hepoch : r.epoch = r'.epoch) (hboot : r.coordinatorBoot = r'.coordinatorBoot)
    (htransition : r.transition = r'.transition) :
    (Reply.advanced r).SameStory (.advanced r') := by
  show EpochAdvanceResult.mk r.outcome r.epoch r.coordinatorBoot r.transition _ _ = r'
  rw [houtcome, hepoch, hboot, htransition]

/-- **An advance is retold.** -/
theorem advanceEpoch_retold {entropy : Entropy} {request : EpochAdvanceRequest} {impl : Impl}
    {u : Txn Impl} {r : EpochAdvanceResult}
    (hnew : findAttempt impl.state.controlAttempts request.attempt = none)
    (h : advanceEpoch entropy request (Txn.start impl) = .ok r u) (hr : r.outcome = .advanced) :
    u.mutated = true ∧ ∀ entropy',
      ∃ r', advanceEpoch entropy' request (Txn.start u.state.canonicalize.rebuildIndexes) =
        .ok r' (Txn.start u.state.canonicalize.rebuildIndexes) ∧
          (Reply.advanced r).SameStory (.advanced r') := by
  rcases advanceEpoch_cases h with ⟨-, hrecorded⟩ | ⟨digest, hadmitted, hcommit⟩
  · exact absurd hnew (hrecorded hr).1
  obtain ⟨t₁, hmutate, hstate, hmutated, -, hepoch, hboot, htransition⟩ := commitAdvance_ok hcommit
  obtain ⟨epoch, generation, id, -, -, -, hentered, -⟩ := mutateEpoch_ok hmutate
  refine ⟨hmutated, fun entropy' => ?_⟩
  have htable : u.state.state.controlAttempts = rememberAttempt t₁.state.options.limits
      (request.record digest t₁.state.state.currentEpoch) impl.state.controlAttempts := by
    rw [hstate]
    show rememberAttempt _ _ t₁.state.state.controlAttempts = _
    rw [hentered]
    rfl
  have hattempt : findAttempt u.state.canonicalize.rebuildIndexes.state.controlAttempts
      request.attempt = some (request.record digest t₁.state.state.currentEpoch) := by
    show findAttempt u.state.state.controlAttempts request.attempt = _
    rw [htable]
    exact findAttempt_rememberAttempt hadmitted.attempt
  -- the record of an advance changes neither epoch, boot nor transitions
  have hsame : u.state.state.currentEpoch = t₁.state.state.currentEpoch ∧
      u.state.state.coordinatorBoot = t₁.state.state.coordinatorBoot ∧
      u.state.state.transitions = t₁.state.state.transitions := by
    rw [hstate]
    exact ⟨rfl, rfl, rfl⟩
  obtain ⟨houtcome', hepoch', hboot', htransition'⟩ := replayedAdvance_same
    u.state.canonicalize.rebuildIndexes request (request.record digest t₁.state.state.currentEpoch)
    rfl (by decide : (1 : UInt64) ≠ 0) ((MonotonicCounter.ofRaw_raw _).trans hsame.1.symm)
  refine ⟨_, advanceEpoch_replays hadmitted.nonNil hadmitted.semantic hattempt, ?_⟩
  refine EpochAdvanceResult.sameStory (hr.trans houtcome'.symm)
    ((hepoch.trans hsame.1.symm).trans hepoch'.symm)
    ((hboot.trans hsame.2.1.symm).trans hboot'.symm) (htransition.trans ?_)
  rw [← hsame.2.2]
  exact htransition'.symm

/-! ### Retirements -/

/-- As many fences are counted as there are boots, at most. -/
theorem fenceAll_count {id : ParticipantId} {note : BoundedText} {boots : List WorkerBootId}
    {t u : Txn Impl} {n : Nat} (h : fenceAll id note boots t = .ok n u) : n ≤ boots.length := by
  induction boots generalizing t n with
  | nil =>
    cases h
    exact Nat.le_refl 0
  | cons boot boots ih =>
    obtain ⟨r, t₁, -, h⟩ := Action.bind_ok.mp h
    rw [Action.bind_current] at h
    split at h
    · cases h
    · obtain ⟨m, t₂, hrest, h⟩ := Action.bind_ok.mp h
      cases h
      have hle := ih hrest
      rw [List.length_cons]
      split <;> omega

/-- An exact retry is answered from the table. -/
theorem applyRetire_replays {request : RetireParticipantRequest} {t : Txn Impl}
    {p : DurableParticipant} {digest : SnapshotDigest} {previous : IdempotencyRecord}
    (hmalformed : t.state.malformedRetire request = none)
    (hfound : t.state.findParticipant request.participant = some p)
    (hsemantic : computeSemanticDigest request.semantic = .ok digest)
    (hattempt : findAttempt p.idempotency request.attempt = some previous) :
    applyRetire request t = .ok (t.state.replayedRetire request digest previous) t := by
  unfold applyRetire
  rw [Action.bind_current]
  simp only [hmalformed, hfound, hsemantic, Action.bind_ofExcept, hattempt]
  rfl

theorem malformedRetire_congr {impl impl' : Impl} (h : settingsOf impl' = settingsOf impl)
    (request : RetireParticipantRequest) :
    impl'.malformedRetire request = impl.malformedRetire request := by
  simp only [Prod.mk.injEq] at h
  simp only [Impl.malformedRetire, Impl.retireResult, h.2.1]

/-- What the replay table answers. -/
theorem replayedRetire_same (impl : Impl) (request : RetireParticipantRequest)
    {digest : SnapshotDigest} (previous : IdempotencyRecord) (h : previous.semantic = digest) :
    (impl.replayedRetire request digest previous).outcome = RetireOutcome.ofRaw previous.outcome ∧
      (impl.replayedRetire request digest previous).epoch = impl.state.currentEpoch ∧
      (impl.replayedRetire request digest previous).incarnationsFenced =
        previous.auxiliary.toNat := by
  unfold Impl.replayedRetire
  rw [if_neg (not_not.mpr h)]
  exact ⟨rfl, rfl, rfl⟩

theorem RetireResult.sameStory {r r' : RetireResult} (houtcome : r.outcome = r'.outcome)
    (hepoch : r.epoch = r'.epoch) (hfenced : r.incarnationsFenced = r'.incarnationsFenced) :
    (Reply.retired r).SameStory (.retired r') := by
  show RetireResult.mk r.outcome r.epoch r.incarnationsFenced _ = r'
  rw [houtcome, hepoch, hfenced]

/-- **A retirement is retold** if its fences can be counted in 64 bits. -/
theorem applyRetire_retold {request : RetireParticipantRequest} {impl : Impl} {u : Txn Impl}
    {r : RetireResult} (hi : impl.Findable)
    (hnew : impl.recordedAttempt request.participant request.attempt = none)
    (hcount : ∀ p, impl.findParticipant request.participant = some p → p.liveBoots.length < 2 ^ 64)
    (h : applyRetire request (Txn.start impl) = .ok r u) (hr : r.outcome = .retired) :
    u.mutated = true ∧ ∀ image, EpochStore.encode u.state.canonicalize.state = .ok image →
      ∃ r', applyRetire request (Txn.start u.state.canonicalize.rebuildIndexes) =
        .ok r' (Txn.start u.state.canonicalize.rebuildIndexes) ∧
          (Reply.retired r).SameStory (.retired r') := by
  rcases applyRetire_cases h with ⟨-, hrecorded⟩ | ⟨p, digest, hadmitted, hcommit⟩
  · exact absurd hnew (hrecorded hr)
  have hsettings : settingsOf u.state = settingsOf impl :=
    frame_of_run (fun _ => Reads.applyRetire settingsOf_record request) h
  obtain ⟨n, t₁, g, hfences, -, hstate, hmutated, -, hanswer, hepoch⟩ := commitRetire_ok hcommit
  refine ⟨hmutated, fun image hsaved => ?_⟩
  have hsettings₁ : settingsOf t₁.state = settingsOf impl :=
    frame_of_run (fun _ => Reads.fenceAll settingsOf_record.toFenceFrame _ _ _) hfences
  -- the fences leave the table of the participant alone
  obtain ⟨q, hq, hid, hidempotency⟩ := find_of_fences hi hadmitted.found
    (frame_of_run (fun _ => Reads.fenceAll (tableOf_fence request.participant) _ _ _) hfences)
    (frame_of_run (fun _ => Reads.fenceAll placesOf_fence _ _ _) hfences)
  have hfound : u.state.findParticipant request.participant = some (q.retire.remember
      t₁.state.options.limits (request.record digest n)) := by
    have hretired : ((t₁.state.updateParticipant request.participant (·.retire)).setGeneration
        g).findParticipant request.participant = some q.retire := find_updateParticipant_self hq _
    rw [hstate]
    exact find_updateParticipant_self hretired _
  have hagain := find_saved hsaved (Impl.mem_of_find hfound)
  rw [show (q.retire.remember t₁.state.options.limits _).id = request.participant from
    q.retire_id.trans hid] at hagain
  have hattempt : findAttempt (q.retire.remember t₁.state.options.limits
      (request.record digest n)).idempotency request.attempt = some (request.record digest n) := by
    have hkept : q.retire.idempotency = p.idempotency := by
      obtain ⟨floor, hframe⟩ := q.retire_frame
      rw [hframe]
      exact hidempotency
    show findAttempt (rememberAttempt _ _ q.retire.idempotency) _ = _
    rw [hkept]
    exact findAttempt_rememberAttempt hadmitted.attempt
  have hmalformed : (u.state.canonicalize.rebuildIndexes).malformedRetire request = none :=
    (malformedRetire_congr hsettings request).trans hadmitted.malformed
  refine ⟨_, applyRetire_replays hmalformed hagain hadmitted.semantic hattempt, ?_⟩
  obtain ⟨houtcome', hepoch', hfenced'⟩ := replayedRetire_same u.state.canonicalize.rebuildIndexes
    request (request.record digest n) rfl
  have hsame : t₁.state.state.currentEpoch = u.state.state.currentEpoch :=
    (congrArg (·.2.1) (hsettings₁.trans hsettings.symm))
  have hfits : (UInt64.ofNat n).toNat = n := by
    have hle := fenceAll_count hfences
    have hlt := hcount p hadmitted.found
    rw [UInt64.toNat_ofNat']
    exact Nat.mod_eq_of_lt (by omega)
  exact RetireResult.sameStory (hr.trans houtcome'.symm) ((hepoch.trans hsame).trans hepoch'.symm)
    (hanswer.trans (hfits.symm.trans hfenced'.symm))

/-! ### Fences -/

/-- An exact retry is answered from the table. -/
theorem fenceWorker_replays {request : FenceWorkerRequest} {t : Txn Impl} {p : DurableParticipant}
    {digest : SnapshotDigest} {previous : IdempotencyRecord}
    (hmalformed : t.state.malformedFence request = none)
    (hfound : t.state.findParticipant request.participant = some p)
    (hsemantic : computeSemanticDigest request.semantic = .ok digest)
    (hattempt : findAttempt p.idempotency request.attempt = some previous) :
    fenceWorker request t = .ok (t.state.replayedFence request digest previous) t := by
  unfold fenceWorker
  rw [Action.bind_current]
  simp only [hmalformed, hfound, hsemantic, Action.bind_ofExcept, hattempt]
  rfl

theorem malformedFence_congr {impl impl' : Impl} (h : settingsOf impl' = settingsOf impl)
    (request : FenceWorkerRequest) : impl'.malformedFence request = impl.malformedFence request := by
  simp only [Prod.mk.injEq] at h
  simp only [Impl.malformedFence, Impl.fenceResult, h.2.1]

/-- What the replay table answers: no incarnation. -/
theorem replayedFence_same (impl : Impl) (request : FenceWorkerRequest) {digest : SnapshotDigest}
    (previous : IdempotencyRecord) (h : previous.semantic = digest)
    (hissued : previous.auxiliary ≠ 0) :
    (impl.replayedFence request digest previous).outcome = FenceOutcome.ofRaw previous.outcome ∧
      (impl.replayedFence request digest previous).epoch = impl.state.currentEpoch ∧
      (impl.replayedFence request digest previous).fenceGeneration =
        some (MonotonicCounter.ofRaw previous.auxiliary) ∧
      (impl.replayedFence request digest previous).incarnation = none := by
  unfold Impl.replayedFence
  rw [if_neg (not_not.mpr h)]
  exact ⟨rfl, rfl, if_pos hissued, rfl⟩

theorem FenceResult.sameStory_iff {r r' : FenceResult} (houtcome : r.outcome = r'.outcome)
    (hepoch : r.epoch = r'.epoch) (hgeneration : r.fenceGeneration = r'.fenceGeneration) :
    (Reply.fenced r).SameStory (.fenced r') ↔ r.incarnation = r'.incarnation := by
  show FenceResult.mk r.outcome r.epoch r.fenceGeneration r.incarnation r'.explanation = r' ↔ _
  constructor
  · intro h
    have hincarnation := congrArg FenceResult.incarnation h
    exact hincarnation
  · intro h
    rw [houtcome, hepoch, hgeneration, h]

theorem raw_ne_zero_of {d : CounterDomain} {c : MonotonicCounter d} (h : c.value ≠ 0) :
    c.raw ≠ 0 := by
  intro hzero
  have hraw : c.raw.toNat = 0 := congrArg UInt64.toNat hzero
  rw [MonotonicCounter.toNat_raw] at hraw
  exact h hraw

/-- A counter that was counted up is not zero. -/
theorem raw_ne_zero {d : CounterDomain} {a b : MonotonicCounter d} (h : a.next = some b) :
    b.raw ≠ 0 := by
  have hvalue := MonotonicCounter.next_eq_some h
  exact raw_ne_zero_of (by omega)

/-- **A fence is retold** exactly if it has not ended an incarnation. -/
theorem fenceWorker_retold {request : FenceWorkerRequest} {impl : Impl} {u : Txn Impl}
    {r : FenceResult} (hi : impl.Findable)
    (hnew : impl.recordedAttempt request.participant request.attempt = none)
    (h : fenceWorker request (Txn.start impl) = .ok r u) (hr : r.outcome = .fenced) :
    u.mutated = true ∧ ∀ image, EpochStore.encode u.state.canonicalize.state = .ok image →
      ∃ r', fenceWorker request (Txn.start u.state.canonicalize.rebuildIndexes) =
        .ok r' (Txn.start u.state.canonicalize.rebuildIndexes) ∧
          ((Reply.fenced r).SameStory (.fenced r') ↔ (Call.fence request).RetrySafe impl) := by
  rcases fenceWorker_cases h with ⟨-, hrecorded⟩ | ⟨p, digest, hadmitted, hcommit⟩
  · exact absurd hnew (hrecorded hr)
  have hsettings : settingsOf u.state = settingsOf impl :=
    frame_of_run (fun _ => Reads.fenceWorker settingsOf_record request) h
  rcases commitFence_ok rfl hcommit with ⟨hne, -⟩ | ⟨-, t₁, hfence, hstate, hmutated⟩
  · exact absurd hr hne
  refine ⟨hmutated, fun image hsaved => ?_⟩
  obtain ⟨p', generation, hp', hfloor, hepoch, hgeneration, hincarnation⟩ :=
    recordFence_answer hfence hr
  obtain rfl : p = p' := Option.some.inj (hadmitted.found.symm.trans hp')
  -- the fence leaves the table of the participant alone
  obtain ⟨q, hq, hid, hidempotency⟩ := find_of_fences hi hadmitted.found
    (frame_of_run (fun _ => Reads.recordFence (tableOf_fence request.participant) _ _ _ _ _) hfence)
    (frame_of_run (fun _ => Reads.recordFence placesOf_fence _ _ _ _ _) hfence)
  have hfound : u.state.findParticipant request.participant =
      some (q.remember t₁.state.options.limits (request.record digest r)) := by
    rw [hstate]
    exact find_updateParticipant_self hq _
  have hagain := find_saved hsaved (Impl.mem_of_find hfound)
  rw [show (q.remember t₁.state.options.limits _).id = request.participant from hid] at hagain
  have hattempt : findAttempt (q.remember t₁.state.options.limits
      (request.record digest r)).idempotency request.attempt = some (request.record digest r) := by
    show findAttempt (rememberAttempt _ _ q.idempotency) _ = _
    rw [hidempotency]
    exact findAttempt_rememberAttempt hadmitted.attempt
  have hmalformed : (u.state.canonicalize.rebuildIndexes).malformedFence request = none :=
    (malformedFence_congr hsettings request).trans hadmitted.malformed
  refine ⟨_, fenceWorker_replays hmalformed hagain hadmitted.semantic hattempt, ?_⟩
  have haux : (request.record digest r).auxiliary = generation.raw := by
    show (r.fenceGeneration.map (·.raw)).getD 0 = _
    rw [hgeneration]
    rfl
  obtain ⟨houtcome', hepoch', hgeneration', hincarnation'⟩ := replayedFence_same
    u.state.canonicalize.rebuildIndexes request (request.record digest r) rfl
    (haux ▸ raw_ne_zero hfloor)
  have houtcome : r.outcome = FenceOutcome.ofRaw (request.record digest r).outcome := by
    show r.outcome = FenceOutcome.ofRaw (UInt16.ofNat r.outcome.toWire)
    rw [hr]
    rfl
  have hsame : impl.state.currentEpoch = u.state.state.currentEpoch :=
    (congrArg (·.2.1) hsettings).symm
  refine (FenceResult.sameStory_iff (houtcome.trans houtcome'.symm)
    ((hepoch.trans hsame).trans hepoch'.symm) (hgeneration.trans ?_)).trans ?_
  · refine Eq.trans ?_ hgeneration'.symm
    rw [haux, MonotonicCounter.ofRaw_raw]
  · rw [hincarnation]
    constructor
    · intro hnone q hfound'
      obtain rfl : p = q := Option.some.inj (hadmitted.found.symm.trans hfound')
      exact hnone.trans hincarnation'
    · intro hsafe
      exact (hsafe p hadmitted.found).trans hincarnation'.symm

/-! ### Registrations -/

/-- The allocator of every participant has started. -/
def allocating : RecordRule where
  participant p := p.nextIncarnation.value ≠ 0
  fence _ := True
  grant _ := True
  transition _ := True
  steady h _ _ hnext := by rwa [hnext]
  revised _ _ _ _ := trivial
  blankFence := trivial
  blankTransition := trivial

theorem allocating_admitsRegistration (request : RegisterParticipantRequest) :
    allocating.AdmitsRegistration request where
  fresh := Nat.one_ne_zero
  register _ _ _ _ _ h := h
  incumbent _ _ _ := trivial

theorem allocating_admitsLoad : allocating.AdmitsLoad := by
  refine RecordRule.admitsLoad fun state hvalid _ => ⟨fun p hp => ?_, fun _ _ => trivial,
    fun _ _ => trivial, fun _ _ => trivial⟩
  by_cases hzero : state.currentEpoch.value = 0
  · rw [(hvalid.pristine hzero).1] at hp
    cases hp
  · have hallocator := ((hvalid.established hzero).participants p hp).allocator
    rw [MonotonicCounter.lt_iff] at hallocator
    show p.nextIncarnation.value ≠ 0
    omega

/-- **No incarnation is zero**, in any reachable state. -/
theorem reachable_allocating {host : Host} (h : coordinator.Reaches (fun _ _ => True) host)
    {impl : Impl} (himpl : host.runtime = some impl) : allocating.Obeys impl := by
  refine reachable_obeys allocating_admitsLoad (fun _ _ _ _ _ _ => trivial)
    (fun _ _ call _ _ _ _ _ _ => ?_) h himpl
  cases call with
  | register request => exact allocating_admitsRegistration request
  | registerBatch requests => exact fun request _ => allocating_admitsRegistration request
  | fence request => exact fun _ _ _ _ _ => trivial
  | grant request => exact fun _ _ _ _ _ _ _ => trivial
  | retire request => exact fun _ _ _ _ _ => trivial
  | close session reason => exact fun _ _ _ _ _ _ _ => trivial
  | revoke _ => trivial
  | advance _ => trivial
  | bind _ => trivial
  | flush => trivial

/-- A lookup in a rebuilt index tells what the records say. -/
theorem fenced_of_lookup {impl : Impl} {id : ParticipantId} {boot : WorkerBootId}
    (h : (impl.rebuildIndexes.lookupFence id boot).fenced = true) : impl.state.Fenced id boot := by
  unfold Impl.lookupFence at h
  cases hsome : (impl.rebuildIndexes.fenceIndex boot).findSome?
      (impl.rebuildIndexes.fenceRecordAt id) with
  | some record =>
    obtain ⟨i, hi, hrecord⟩ := List.exists_of_findSome?_eq_some hsome
    obtain ⟨record', hget, hboot⟩ := mem_groupBy.mp
      (show i ∈ groupBy (fun f : FenceRecord => [f.boot]) impl.state.recentFences boot from hi)
    have hat : (if record'.participant = id then some record' else none) = some record := by
      unfold Impl.fenceRecordAt at hrecord
      rw [show impl.rebuildIndexes.state.recentFences[i]? = some record' from hget] at hrecord
      exact hrecord
    split at hat
    · next hid =>
      exact .inl ⟨record', List.mem_of_getElem? hget, hid, (List.mem_singleton.mp hboot).symm⟩
    · cases hat
  | none =>
    rw [hsome] at h
    cases hfound : impl.rebuildIndexes.findParticipant id with
    | none =>
      rw [hfound] at h
      cases h
    | some owner =>
      rw [hfound] at h
      have howner : owner ∈ impl.rebuildIndexes.state.participants := Impl.mem_of_find hfound
      exact .inr ⟨owner, howner,
        (Impl.findable_rebuildIndexes impl).id_of_find hfound, List.contains_iff_mem.mp h⟩

theorem fenced_canonicalize {impl : Impl} {id : ParticipantId} {boot : WorkerBootId} :
    impl.canonicalize.state.Fenced id boot ↔ impl.state.Fenced id boot := by
  unfold DurableState.Fenced
  refine or_congr Iff.rfl (exists_congr fun p => and_congr_left fun _ => ?_)
  exact (insertionSort_perm impl.state.participants).mem_iff.symm

theorem malformedRegistration_congr {impl impl' : Impl} (h : settingsOf impl' = settingsOf impl)
    (request : RegisterParticipantRequest) :
    impl'.malformedRegistration request = impl.malformedRegistration request := by
  simp only [Prod.mk.injEq] at h
  simp only [Impl.malformedRegistration, Impl.registrationResult, h.1, h.2.1, h.2.2]

theorem staleRegistration_of_live {impl : Impl} {request : RegisterParticipantRequest}
    {p : DurableParticipant} (hepoch : request.expectedEpoch = impl.state.currentEpoch)
    (hfound : impl.findParticipant request.participant = some p) (hretired : p.retired = false)
    (hfenced : (impl.lookupFence request.participant request.boot).fenced = false) :
    impl.staleRegistration request = none := by
  simp only [Impl.staleRegistration, hepoch, hfound, hretired, hfenced]
  simp

theorem Approach.allocating {request : RegisterParticipantRequest} {t u : Txn Impl}
    (h : Approach request t u) (ht : Guarded allocating.Obeys t) :
    Guarded FabricEpoch.allocating.Obeys u := by
  cases h with
  | direct => exact ht
  | @incumbent p refusal _ replace =>
    have hkeeps := Obeying.replaceIncumbent (allocating_admitsRegistration request) p t ht
    rw [replace] at hkeeps
    exact hkeeps

theorem recordedAttempt_eq (impl : Impl) (id : ParticipantId) (attempt : MutationAttemptId) :
    impl.recordedAttempt id attempt = (tableOf id impl).bind (findAttempt · attempt) := by
  show (impl.findParticipant id).bind _ = ((impl.findParticipant id).map _).bind _
  cases impl.findParticipant id with
  | none => rfl
  | some p => rfl

/-- The record that a new attempt opens: its allocator has started, and its table
does not hold the attempt. -/
theorem openRecord_new {request : RegisterParticipantRequest} {t t₀ : Txn Impl}
    {p : DurableParticipant} (hobeys : allocating.Obeys t.state)
    (hnew : t.state.recordedAttempt request.participant request.attempt = none)
    (h : openRecord request (t.state.findParticipant request.participant) t = .ok p t₀) :
    p.nextIncarnation.value ≠ 0 ∧ findAttempt p.idempotency request.attempt = none := by
  cases hfound : t.state.findParticipant request.participant with
  | none =>
    rw [hfound] at h
    cases h
    exact ⟨Nat.one_ne_zero, rfl⟩
  | some q =>
    rw [hfound] at h
    cases h
    rw [Impl.recordedAttempt_of_find hfound] at hnew
    exact ⟨hobeys.found hfound, hnew⟩

/-- What a commit writes into the replay table. -/
theorem commitRegistration_recorded {request : RegisterParticipantRequest} {digest : SnapshotDigest}
    {commitGeneration : Bool} {t u : Txn Impl} {r : RegistrationResult} (ht : t.state.Findable)
    (hobeys : allocating.Obeys t.state)
    (hnew : t.state.recordedAttempt request.participant request.attempt = none)
    (h : commitRegistration request digest (t.state.findParticipant request.participant)
      commitGeneration t = .ok r u) :
    ∃ q g i, q ∈ u.state.state.participants ∧ q.id = request.participant ∧ q.retired = false ∧
      findAttempt q.idempotency request.attempt = some (request.record digest g i) ∧
      i.value ≠ 0 ∧ r.outcome = .registered ∧ r.registrationGeneration = some g ∧
      r.incarnation = some i := by
  obtain ⟨p, t₀, g, next, t₁, t₂, hopen, -, -, ht₁, hbump, rfl, houtcome, hincarnation,
    hgeneration, -⟩ := commitRegistration_ok h
  obtain ⟨hfound, hid, -⟩ := openRecord_found ht hopen
  obtain ⟨hnext, hattempt⟩ := openRecord_new hobeys hnew hopen
  obtain ⟨_, _, _, _, hframe⟩ := p.register_frame t₀.state.options.limits request digest g
    p.nextIncarnation next
  have hfound' : (t₀.state.setRegistrationFloor g).findParticipant request.participant = some p :=
    hfound
  have hmem := Impl.mem_updateParticipant_of_find hfound'
    (·.register t₀.state.options.limits request digest g p.nextIncarnation next)
  have hplace : t₂.state.state.participants = t₁.state.state.participants := by
    rcases bumpWhen_ok hbump with ⟨-, rfl⟩ | ⟨_, -, rfl⟩
    · rfl
    · rfl
  refine ⟨p.register t₀.state.options.limits request digest g p.nextIncarnation next, g,
    p.nextIncarnation, ?_, ?_, ?_, ?_, hnext, houtcome, hgeneration, hincarnation⟩
  · show _ ∈ t₂.state.state.participants
    rw [hplace, ht₁]
    exact hmem
  · rw [DurableParticipant.register_id, hid]
  · rw [hframe]
  · rw [hframe]
    exact findAttempt_rememberAttempt hattempt

theorem RegistrationResult.sameStory {r r' : RegistrationResult} (houtcome : r.outcome = r'.outcome)
    (hepoch : r.epoch = r'.epoch) (hboot : r.coordinatorBoot = r'.coordinatorBoot)
    (hgeneration : r.registrationGeneration = r'.registrationGeneration)
    (hincarnation : r.incarnation = r'.incarnation) :
    (Reply.registered r).SameStory (.registered r') := by
  show RegistrationResult.mk r.outcome r.epoch r.coordinatorBoot r.registrationGeneration
    r.incarnation r'.replayed r'.explanation = r'
  rw [houtcome, hepoch, hboot, hgeneration, hincarnation]

/-- **A registration is retold** where no fence of the boot is on record. -/
theorem applyRegistration_retold {request : RegisterParticipantRequest} {impl : Impl}
    {u : Txn Impl} {r : RegistrationResult} (hi : impl.Findable) (hobeys : allocating.Obeys impl)
    (hnew : impl.recordedAttempt request.participant request.attempt = none)
    (hsafe : ¬ impl.state.Fenced request.participant request.boot)
    (h : applyRegistration request true (Txn.start impl) = .ok r u) (hr : r.outcome = .registered) :
    u.mutated = true ∧ ∀ image, EpochStore.encode u.state.canonicalize.state = .ok image →
      ∃ r', applyRegistration request true (Txn.start u.state.canonicalize.rebuildIndexes) =
        .ok r' (Txn.start u.state.canonicalize.rebuildIndexes) ∧
          (Reply.registered r).SameStory (.registered r') := by
  obtain ⟨hmalformed, hstale, hsuccess⟩ := applyRegistration_succeeds h hr
  have hsettings : settingsOf u.state = settingsOf impl :=
    frame_of_run (fun _ => Reads.applyRegistration settingsOf_registration request true) h
  cases applyRegistration_cases h with
  | answered _ hreplayed =>
    -- a replay needs a record, and there is none
    cases hsuccess with
    | @replayed p _ _ found _ attempt _ =>
      rw [Impl.recordedAttempt_of_find (show impl.findParticipant _ = some p from found)] at hnew
      rw [show (Txn.start impl).state = impl from rfl] at *
      exact absurd (attempt.symm.trans hnew) (Option.some_ne_none _)
    | committed _ commit =>
      obtain ⟨_, _, _, _, _, _, -, -, -, -, -, -, -, -, -, hfirst⟩ := commitRegistration_ok commit
      rw [hreplayed hr] at hfirst
      cases hfirst
  | @committed digest t' _ _ semantic approach commit =>
    have hplaces : placesOf t'.state = placesOf impl := approach.frame placesOf_fence
    have htable : tableOf request.participant t'.state = tableOf request.participant impl :=
      approach.frame (tableOf_fence request.participant)
    rw [recordedAttempt_eq, ← htable, ← recordedAttempt_eq] at hnew
    obtain ⟨q, g, i, hq, hid, hretired, hattempt, hissued, houtcome, hgeneration, hincarnation⟩ :=
      commitRegistration_recorded (findable_of_places hi hplaces)
        (approach.allocating (Guarded.start hobeys)).state hnew commit
    refine ⟨commitRegistration_mutated commit, fun image hsaved => ?_⟩
    have hfound := find_saved hsaved hq
    rw [hid] at hfound
    have hmalformed' : (u.state.canonicalize.rebuildIndexes).malformedRegistration request = none :=
      (malformedRegistration_congr hsettings request).trans hmalformed
    have hepoch : request.expectedEpoch = u.state.canonicalize.rebuildIndexes.state.currentEpoch :=
      (staleRegistration_none hstale).1.trans (congrArg (·.2.1) hsettings).symm
    -- the commit fences nobody, and the incumbent is another boot
    have hunfenced : ((u.state.canonicalize.rebuildIndexes).lookupFence request.participant
        request.boot).fenced = false := by
      by_contra hfenced
      rw [Bool.not_eq_false] at hfenced
      have hnow : u.state.state.Fenced request.participant request.boot :=
        fenced_canonicalize.mp (fenced_of_lookup hfenced)
      exact hsafe (approach.unfenced (commitRegistration_unfenced commit hnow))
    have hstale' : (u.state.canonicalize.rebuildIndexes).staleRegistration request = none :=
      staleRegistration_of_live hepoch hfound hretired hunfenced
    have hagain : applyRegistration request true (Txn.start u.state.canonicalize.rebuildIndexes) =
        .ok ((u.state.canonicalize.rebuildIndexes).replayedRegistration request digest
          (request.record digest g i)) (Txn.start u.state.canonicalize.rebuildIndexes) :=
      applyRegistration_replays (t := Txn.start u.state.canonicalize.rebuildIndexes) hmalformed'
        hstale' hfound semantic hattempt
    refine ⟨_, hagain, ?_⟩
    obtain ⟨houtcome', hepoch', hincarnation', hgeneration', hboot'⟩ := replayedRegistration_same
      u.state.canonicalize.rebuildIndexes request (request.record digest g i) rfl
    have hepochs : r.epoch = u.state.canonicalize.rebuildIndexes.state.currentEpoch ∧
        r.coordinatorBoot = u.state.canonicalize.rebuildIndexes.state.coordinatorBoot := by
      obtain ⟨hfirst, hcoordinator⟩ := commitRegistration_epoch commit
      have hbefore : settingsOf t'.state = settingsOf impl :=
        approach.frame settingsOf_registration.toFenceFrame
      have hafter := hbefore.trans hsettings.symm
      exact ⟨hfirst.trans (congrArg (·.2.1) hafter), hcoordinator.trans (congrArg (·.2.2) hafter)⟩
    refine RegistrationResult.sameStory (houtcome.trans houtcome'.symm)
      (hepochs.1.trans hepoch'.symm) (hepochs.2.trans hboot'.symm)
      (hgeneration.trans (Eq.trans ?_ hgeneration'.symm))
      (hincarnation.trans (Eq.trans ?_ hincarnation'.symm))
    · show some g = some (MonotonicCounter.ofRaw g.raw)
      rw [MonotonicCounter.ofRaw_raw]
    · show some i = if i.raw ≠ 0 then some (MonotonicCounter.ofRaw i.raw) else none
      rw [if_pos (raw_ne_zero_of hissued), MonotonicCounter.ofRaw_raw]

/-! ## Every call -/

/-- **An exact retry changes nothing and tells the same story**, in every
reachable state, where the first call had what a retry relies on; and a fence
that ended an incarnation is never retold. -/
theorem retryTold {host : Host} (h : coordinator.Reaches (fun _ _ => True) host) {impl : Impl}
    (himpl : host.runtime = some impl) {call : Call} {entropy : Entropy}
    {fault : Option SaveFault} {reply : Reply}
    (hreply : (callRuntime call entropy fault host.disk impl).result = .ok reply)
    (hsucceeds : call.Succeeds reply) (hnew : call.recorded impl = none) :
    (call.RetrySafe impl → call.Retold entropy fault host.disk impl reply) ∧
      ∀ request, call = .fence request →
        (call.Retold entropy fault host.disk impl reply ↔ call.RetrySafe impl) := by
  have hi := reachable_findable h himpl
  cases call with
  | register request =>
    cases reply with
    | registered r =>
      have hruns : (Call.register request).Runs (fun _ => applyRegistration request true)
          .registered := ⟨fun _ _ => Reply.registered.inj, fun _ _ _ _ => rfl⟩
      refine ⟨fun hsafe => ?_, fun _ heq => nomatch heq⟩
      refine (hruns.retold_iff hreply fun u hrun => ?_).mpr trivial
      obtain ⟨hmutated, hagain⟩ :=
        applyRegistration_retold hi (reachable_allocating h himpl) hnew hsafe hrun hsucceeds
      refine ⟨hmutated, fun image hsaved _ => ?_⟩
      obtain ⟨r', hr', hsame⟩ := hagain image hsaved
      exact ⟨r', hr', iff_true_intro hsame⟩
    | _ => cases hsucceeds
  | fence request =>
    cases reply with
    | fenced r =>
      have hruns : (Call.fence request).Runs (fun _ => fenceWorker request) .fenced :=
        ⟨fun _ _ => Reply.fenced.inj, fun _ _ _ _ => rfl⟩
      have hiff : (Call.fence request).Retold entropy fault host.disk impl (.fenced r) ↔
          (Call.fence request).RetrySafe impl := by
        refine hruns.retold_iff hreply fun u hrun => ?_
        obtain ⟨hmutated, hagain⟩ := fenceWorker_retold hi hnew hrun hsucceeds
        exact ⟨hmutated, fun image hsaved _ => hagain image hsaved⟩
      exact ⟨hiff.mpr, fun _ _ => hiff⟩
    | _ => cases hsucceeds
  | grant request =>
    cases reply with
    | granted r =>
      have hruns : (Call.grant request).Runs (applyGrant · request) .granted :=
        ⟨fun _ _ => Reply.granted.inj, fun _ _ _ _ => rfl⟩
      refine ⟨fun _ => ?_, fun _ heq => nomatch heq⟩
      refine (hruns.retold_iff hreply fun u hrun => ?_).mpr trivial
      obtain ⟨hmutated, hagain⟩ := applyGrant_retold hi hnew hrun hsucceeds
      refine ⟨hmutated, fun image hsaved entropy' => ?_⟩
      obtain ⟨r', hr', hsame⟩ := hagain image hsaved entropy'
      exact ⟨r', hr', iff_true_intro hsame⟩
    | _ => cases hsucceeds
  | revoke request =>
    cases reply with
    | revoked r =>
      have hruns : (Call.revoke request).Runs (fun _ => applyRevoke request) .revoked :=
        ⟨fun _ _ => Reply.revoked.inj, fun _ _ _ _ => rfl⟩
      refine ⟨fun _ => ?_, fun _ heq => nomatch heq⟩
      refine (hruns.retold_iff hreply fun u hrun => ?_).mpr trivial
      obtain ⟨hmutated, hagain⟩ := applyRevoke_retold hnew hrun hsucceeds
      refine ⟨hmutated, fun image hsaved _ => ?_⟩
      obtain ⟨r', hr', hsame⟩ := hagain image hsaved
      exact ⟨r', hr', iff_true_intro hsame⟩
    | _ => cases hsucceeds
  | advance request =>
    cases reply with
    | advanced r =>
      have hruns : (Call.advance request).Runs (advanceEpoch · request) .advanced :=
        ⟨fun _ _ => Reply.advanced.inj, fun _ _ _ _ => rfl⟩
      refine ⟨fun _ => ?_, fun _ heq => nomatch heq⟩
      refine (hruns.retold_iff hreply fun u hrun => ?_).mpr trivial
      obtain ⟨hmutated, hagain⟩ := advanceEpoch_retold hnew hrun hsucceeds
      refine ⟨hmutated, fun image hsaved entropy' => ?_⟩
      obtain ⟨r', hr', hsame⟩ := hagain entropy'
      exact ⟨r', hr', iff_true_intro hsame⟩
    | _ => cases hsucceeds
  | retire request =>
    cases reply with
    | retired r =>
      have hruns : (Call.retire request).Runs (fun _ => applyRetire request) .retired :=
        ⟨fun _ _ => Reply.retired.inj, fun _ _ _ _ => rfl⟩
      refine ⟨fun hsafe => ?_, fun _ heq => nomatch heq⟩
      refine (hruns.retold_iff hreply fun u hrun => ?_).mpr trivial
      obtain ⟨hmutated, hagain⟩ := applyRetire_retold hi hnew hsafe hrun hsucceeds
      refine ⟨hmutated, fun image hsaved _ => ?_⟩
      obtain ⟨r', hr', hsame⟩ := hagain image hsaved
      exact ⟨r', hr', iff_true_intro hsame⟩
    | _ => cases hsucceeds
  | _ => cases hsucceeds

/-- A participant with one live incarnation. -/
def onePresent : List Input :=
  [testOpen {} 1, callOf (.register (testRegister 1 (testParticipant "p") (smallId 11)))]

/-- Fence a boot of that participant. -/
def fenceOne (boot : WorkerBootId) : Call := .fence (testFence 2 (testParticipant "p") boot)

/-- What the answer to a fence says about the incarnation. -/
def toldOf (x : Transacted Reply) : Option (FenceOutcome × Option IncarnationSequence) :=
  match x.result with
  | .ok (.fenced r) => some (r.outcome, r.incarnation)
  | _ => none

theorem toldOf_some {x : Transacted Reply} {outcome : FenceOutcome}
    {incarnation : Option IncarnationSequence} (h : toldOf x = some (outcome, incarnation)) :
    ∃ r, x.result = .ok (.fenced r) ∧ r.outcome = outcome ∧ r.incarnation = incarnation := by
  unfold toldOf at h
  split at h
  · next r hr =>
    have hanswer := Option.some.inj h
    exact ⟨r, hr, congrArg Prod.fst hanswer, congrArg Prod.snd hanswer⟩
  · cases h

/-- The fence of a boot that is not live is retold. -/
theorem retryTold_test : ∃ host impl reply, coordinator.Reaches (fun _ _ => True) host ∧
    host.runtime = some impl ∧
    (fenceOne (smallId 12)).Retold (testEntropy 7) none host.disk impl reply := by
  have hrun : (let host := coordinator.run coordinator.init onePresent
      host.runtime.map fun impl =>
        (toldOf (callRuntime (fenceOne (smallId 12)) (testEntropy 7) none host.disk impl),
          ((fenceOne (smallId 12)).recorded impl).isNone,
          ((impl.findParticipant (testParticipant "p")).bind
            (·.findIncarnation (smallId 12))).isNone)) =
      some (some (.fenced, none), true, true) := by decide +kernel
  obtain ⟨impl, himpl, hvalue⟩ := Option.map_eq_some_iff.mp hrun
  obtain ⟨htold, hvalue⟩ := Prod.mk.inj hvalue
  obtain ⟨hnew, hlive⟩ := Prod.mk.inj hvalue
  obtain ⟨r, hr, hfenced, -⟩ := toldOf_some htold
  have hreach := Machine.reaches_run (M := coordinator) onePresent
  refine ⟨_, impl, .fenced r, hreach, himpl, ?_⟩
  refine (retryTold hreach himpl hr hfenced (Option.isNone_iff_eq_none.mp hnew)).1 fun p hp => ?_
  rw [Option.isNone_iff_eq_none] at hlive
  rw [show impl.findParticipant (testParticipant "p") = some p from hp] at hlive
  exact hlive

/-- **The two answers of a fence**: the first names the incarnation that it
ended, the retry names none. -/
theorem fencedTwice : ∃ host impl reply, coordinator.Reaches (fun _ _ => True) host ∧
    host.runtime = some impl ∧
    (callRuntime (fenceOne (smallId 11)) (testEntropy 7) none host.disk impl).result = .ok reply ∧
    (fenceOne (smallId 11)).Succeeds reply ∧ (fenceOne (smallId 11)).recorded impl = none ∧
    ¬ (fenceOne (smallId 11)).Retold (testEntropy 7) none host.disk impl reply := by
  have hrun : (let host := coordinator.run coordinator.init onePresent
      host.runtime.map fun impl =>
        let done := callRuntime (fenceOne (smallId 11)) (testEntropy 7) none host.disk impl
        (toldOf done, ((fenceOne (smallId 11)).recorded impl).isNone,
          toldOf (callRuntime (fenceOne (smallId 11)) (testEntropy 7) none done.disk done.impl))) =
      some (some (.fenced, some (smallCounter 1)), true, some (.fenced, none)) := by decide +kernel
  obtain ⟨impl, himpl, hvalue⟩ := Option.map_eq_some_iff.mp hrun
  obtain ⟨htold, hvalue⟩ := Prod.mk.inj hvalue
  obtain ⟨hnew, htold'⟩ := Prod.mk.inj hvalue
  obtain ⟨r, hr, hfenced, hincarnation⟩ := toldOf_some htold
  obtain ⟨r', hr', -, hincarnation'⟩ := toldOf_some htold'
  refine ⟨_, impl, .fenced r, Machine.reaches_run onePresent, himpl, hr, hfenced,
    Option.isNone_iff_eq_none.mp hnew, fun hretold => ?_⟩
  obtain ⟨reply', hreply', hsame⟩ := hretold (testEntropy 7) none
  rw [hreply'] at hr'
  obtain rfl : reply' = .fenced r' := Except.ok.inj hr'
  -- one story has one incarnation
  have hstory : { r with explanation := r'.explanation } = r' := hsame
  have hone : r.incarnation = r'.incarnation := by rw [← hstory]
  rw [hincarnation, hincarnation'] at hone
  cases hone

end FabricEpoch
