import FabricEpoch.Runtime.Runs

/-!
# What a successful registration says

A registration is answered by a commit, or from the replay table of the
participant. What a commit says holds of the state behind it. The replay table
says what was true when the record was made: the answer repeats the incarnation
of then under the epoch of now.

- `SuccessCase`: the two ways a registration can succeed, in any state whose
  participant index is sound;
- `RegisteredLive`: the presented boot is live under the answered incarnation,
  in the answered epoch;
- `AnsweredStale`: the table answers, and what it recorded is not live any more;
- `registeredLive_iff`: that this is the only way to fail.
-/

namespace FabricEpoch

open Table Transaction

/-! ## How a registration succeeds -/

namespace Impl

variable {impl impl' : Impl} {id : ParticipantId} {p : DurableParticipant}

/-- A write through the index reaches the record that is found. -/
theorem mem_updateParticipant_of_find (h : impl.findParticipant id = some p)
    (f : DurableParticipant → DurableParticipant) :
    f p ∈ (impl.updateParticipant id f).state.participants := by
  obtain ⟨i, hi, hp⟩ := findParticipant_eq_some.mp h
  unfold updateParticipant
  rw [hi]
  show f p ∈ impl.state.participants.modify i f
  refine List.mem_of_getElem? (i := i) ?_
  rw [List.getElem?_modify_eq, hp]
  rfl

theorem Findable.of_places (h : impl.Findable) (hplaces : SamePlaces impl impl') :
    impl'.Findable := by
  refine ⟨fun id i hi j hj => ?_, fun id hid => ?_⟩
  · rw [hplaces.index] at hi
    rw [hplaces.ids] at hj
    exact h.sound id i hi j hj
  · rw [hplaces.ids] at hid ⊢
    rw [hplaces.index]
    exact h.listed id hid

end Impl

open Impl

/-- A fence leaves the index and the identifiers alone. -/
theorem recordFence_samePlaces {id : ParticipantId} {boot : WorkerBootId} {reason : FenceReason}
    {note : BoundedText} {defensive : Bool} {t u : Txn Impl} {r : FenceResult}
    (h : recordFence id boot reason note defensive t = .ok r u) : SamePlaces t.state u.state := by
  cases recordFence_cases h with
  | unknown _ _ => exact .refl _
  | already _ _ => exact .refl _
  | notLive _ _ _ => exact .refl _
  | full _ _ => exact .refl _
  | preventive _ _ _ _ _ _ _ _ _ => exact (quiet_applyPreventive _).trans (quiet_setGeneration _)
  | live _ _ _ _ _ _ =>
    exact ((quiet_applyRemoval _).trans (quiet_applyFence _)).trans (quiet_setGeneration _)

theorem replaceIncumbent_samePlaces {request : RegisterParticipantRequest} {p : DurableParticipant}
    {t u : Txn Impl} (hp : t.state.findParticipant request.participant = some p)
    (h : replaceIncumbent request p t = .ok none u) : SamePlaces t.state u.state := by
  cases replaceIncumbent_cases hp h with
  | none _ => exact .refl _
  | multi _ => exact .refl _
  | fenced _ _ => exact .refl _
  | replaced _ fence _ _ _ => exact recordFence_samePlaces fence

/-- **The two ways a registration can succeed**, whatever the state. -/
inductive SuccessCase (request : RegisterParticipantRequest) (commitGeneration : Bool)
    (t : Txn Impl) : RegistrationResult → Txn Impl → Prop
  | replayed {p : DurableParticipant} {digest : SnapshotDigest} {previous : IdempotencyRecord}
      (found : t.state.findParticipant request.participant = some p)
      (semantic : computeSemanticDigest request.semantic = .ok digest)
      (attempt : findAttempt p.idempotency request.attempt = some previous)
      (same : previous.semantic = digest) :
      SuccessCase request commitGeneration t
        (t.state.replayedRegistration request digest previous) t
  | committed {digest : SnapshotDigest} {t' u : Txn Impl} {r : RegistrationResult}
      (places : SamePlaces t.state t'.state)
      (commit : commitRegistration request digest (t'.state.findParticipant request.participant)
        commitGeneration t' = .ok r u) :
      SuccessCase request commitGeneration t r u

theorem applyRegistration_succeeds {request : RegisterParticipantRequest} {commitGeneration : Bool}
    {t u : Txn Impl} {r : RegistrationResult}
    (h : applyRegistration request commitGeneration t = .ok r u) (hr : r.outcome = .registered) :
    t.state.malformedRegistration request = none ∧ t.state.staleRegistration request = none ∧
      SuccessCase request commitGeneration t r u := by
  unfold applyRegistration at h
  rw [Action.bind_current] at h
  cases hmalformed : t.state.malformedRegistration request with
  | some result =>
    simp only [hmalformed] at h
    cases h
    exact absurd hr (malformedRegistration_some hmalformed)
  | none =>
  cases hstale : t.state.staleRegistration request with
  | some result =>
    simp only [hmalformed, hstale] at h
    cases h
    exact absurd hr (staleRegistration_some hstale)
  | none =>
  simp only [hmalformed, hstale] at h
  refine ⟨rfl, rfl, ?_⟩
  obtain ⟨digest, t', hdigest, h⟩ := Action.bind_ok.mp h
  obtain ⟨hsemantic, rfl⟩ := Action.ofExcept_ok.mp hdigest
  cases hfound : t'.state.findParticipant request.participant with
  | none =>
    simp only [hfound] at h
    unfold registerNew at h
    rw [Action.bind_current] at h
    split at h
    · cases h
      cases hr
    · exact .committed (.refl _) (hfound ▸ admitRegistration_registered h hr)
  | some p =>
    simp only [hfound] at h
    cases hconflict : t'.state.conflictingRegistration p request digest with
    | some result =>
      simp only [hconflict] at h
      cases h
      obtain ⟨previous, hattempt, hsame, rfl⟩ := conflictingRegistration_some hconflict hr
      exact .replayed hfound hsemantic hattempt hsame
    | none =>
      simp only [hconflict] at h
      obtain ⟨refusal, t₁, hreplace, h⟩ := Action.bind_ok.mp h
      cases refusal with
      | some result =>
        cases h
        exact absurd hr (replaceIncumbent_some hreplace)
      | none =>
        dsimp only at h
        rw [Action.bind_current] at h
        have hplaces := replaceIncumbent_samePlaces hfound hreplace
        cases hagain : t₁.state.findParticipant request.participant with
        | none =>
          simp only [hagain] at h
          cases h
        | some q =>
          simp only [hagain] at h
          exact .committed hplaces (hagain ▸ admitRegistration_registered h hr)

/-! ## What a commit leaves behind -/

/-- The new incarnation is live in the record. -/
theorem DurableParticipant.mem_live_register (p : DurableParticipant) (limits : Limits)
    (request : RegisterParticipantRequest) (digest : SnapshotDigest) (g : RegistrationGeneration)
    (i next : IncarnationSequence) :
    (request.boot, i) ∈ (p.register limits request digest g i next).live := by
  unfold register addIncarnation live
  by_cases hactive : p.hasActiveBoot = true
  · simp [hactive, remember]
  · simp [hactive, remember]

/-- The record is opened under the identifier of the request, at the epoch that
was current. -/
theorem openRecord_found {request : RegisterParticipantRequest} {t t₀ : Txn Impl}
    {p : DurableParticipant} (ht : t.state.Findable)
    (h : openRecord request (t.state.findParticipant request.participant) t = .ok p t₀) :
    t₀.state.findParticipant request.participant = some p ∧ p.id = request.participant ∧
      t₀.state.state.currentEpoch = t.state.state.currentEpoch := by
  cases hfound : t.state.findParticipant request.participant with
  | some q =>
    rw [hfound] at h
    cases h
    exact ⟨hfound, ht.id_of_find hfound, rfl⟩
  | none =>
    rw [hfound] at h
    cases h
    refine ⟨?_, rfl, rfl⟩
    -- the new record is behind all others, and that is where the index points
    refine findParticipant_eq_some.mpr ⟨t.state.state.participants.length, if_pos rfl, ?_⟩
    show (t.state.state.participants ++ [_])[t.state.state.participants.length]? = _
    rw [List.getElem?_concat_length]

/-- A commit answers under the epoch and the coordinator of its start. -/
theorem commitRegistration_epoch {request : RegisterParticipantRequest} {digest : SnapshotDigest}
    {participant : Option DurableParticipant} {commitGeneration : Bool} {t u : Txn Impl}
    {r : RegistrationResult}
    (h : commitRegistration request digest participant commitGeneration t = .ok r u) :
    r.epoch = t.state.state.currentEpoch ∧ r.coordinatorBoot = t.state.state.coordinatorBoot := by
  obtain ⟨p, t₀, hopen, h⟩ := Action.bind_ok.mp h
  rw [Action.bind_current] at h
  obtain ⟨g, t', horfail, h⟩ := Action.bind_ok.mp h
  obtain ⟨-, rfl⟩ := Action.orFail_ok.mp horfail
  rw [Action.bind_pushUndo, Action.bind_modify] at h
  obtain ⟨next, t'', horfail, h⟩ := Action.bind_ok.mp h
  obtain ⟨-, rfl⟩ := Action.orFail_ok.mp horfail
  rw [Action.bind_modify] at h
  obtain ⟨⟨⟩, t₃, -, h⟩ := Action.bind_ok.mp h
  cases h
  cases participant with
  | none =>
    cases hopen
    exact ⟨rfl, rfl⟩
  | some q =>
    cases hopen
    exact ⟨rfl, rfl⟩

/-- The state of a commit holds the presented boot as a live incarnation. -/
structure Bound (request : RegisterParticipantRequest) (r : RegistrationResult)
    (s : DurableState) : Prop where
  epoch : r.epoch = s.currentEpoch
  live : ∃ i, r.incarnation = some i ∧ ∃ q ∈ s.participants, q.id = request.participant ∧
    q.retired = false ∧ (request.boot, i) ∈ q.live

/-- **What a commit leaves behind.** -/
theorem commitRegistration_bound {request : RegisterParticipantRequest} {digest : SnapshotDigest}
    {commitGeneration : Bool} {t u : Txn Impl} {r : RegistrationResult} (ht : t.state.Findable)
    (h : commitRegistration request digest (t.state.findParticipant request.participant)
      commitGeneration t = .ok r u) : u.mutated = true ∧ Bound request r u.state.state := by
  have hepoch := (commitRegistration_epoch h).1
  obtain ⟨p, t₀, g, next, t₁, t₂, hopen, -, -, ht₁, hbump, rfl, -, hincarnation, -, -⟩ :=
    commitRegistration_ok h
  obtain ⟨hfound, hid, hepoch₀⟩ := openRecord_found ht hopen
  obtain ⟨_, _, _, _, hframe⟩ := p.register_frame t₀.state.options.limits request digest g
    p.nextIncarnation next
  have hfound' : (t₀.state.setRegistrationFloor g).findParticipant request.participant = some p :=
    hfound
  have hmem := mem_updateParticipant_of_find hfound'
    (·.register t₀.state.options.limits request digest g p.nextIncarnation next)
  have hlive := p.mem_live_register t₀.state.options.limits request digest g p.nextIncarnation next
  have hplace₁ : t₁.state.state.currentEpoch = t₀.state.state.currentEpoch := by
    rw [ht₁]
    show ((t₀.state.setRegistrationFloor g).updateParticipant request.participant
      _).state.currentEpoch = _
    unfold updateParticipant
    split <;> rfl
  -- a bump of the generation changes neither
  have hbumped : t₂.state.state.participants = t₁.state.state.participants ∧
      t₂.state.state.currentEpoch = t₁.state.state.currentEpoch := by
    rcases bumpWhen_ok hbump with ⟨-, rfl⟩ | ⟨_, -, rfl⟩
    · exact ⟨rfl, rfl⟩
    · exact ⟨rfl, rfl⟩
  refine ⟨rfl, ?_, p.nextIncarnation, hincarnation, _, ?_, ?_, ?_, hlive⟩
  · show r.epoch = t₂.state.state.currentEpoch
    rw [hbumped.2, hplace₁, hepoch₀, hepoch]
  · show _ ∈ t₂.state.state.participants
    rw [hbumped.1, ht₁]
    exact hmem
  · rw [DurableParticipant.register_id, hid]
  · rw [hframe]

/-! ## Behind the barrier -/

/-- A valid state with participants has no two records of one identifier, and no
boot that is live twice. -/
theorem ValidDurable.unique {s : DurableState} (h : ValidDurable s) {q : DurableParticipant}
    (hq : q ∈ s.participants) : (s.participants.map (·.id)).Nodup ∧ q.liveBoots.Nodup := by
  by_cases hzero : s.currentEpoch.value = 0
  · rw [(h.pristine hzero).1] at hq
    cases hq
  · have hvalid := h.established hzero
    exact ⟨hvalid.participantIds, (List.nodup_flatMap.mp hvalid.liveBoots).1 q hq⟩

/-- A record that is in a memory with a rebuilt index is found. -/
theorem find_rebuildIndexes {impl : Impl} (hn : impl.ids.Nodup) {q : DurableParticipant}
    (hq : q ∈ impl.state.participants) :
    impl.rebuildIndexes.findParticipant q.id = some q := by
  have hids : q.id ∈ impl.rebuildIndexes.ids := List.mem_map_of_mem hq
  obtain ⟨i, hi, hlisted⟩ := (findable_rebuildIndexes impl).listed q.id hids
  rw [ids_getElem?] at hlisted
  obtain ⟨q', hq', hid⟩ := Option.map_eq_some_iff.mp hlisted
  have heq : q' = q := List.inj_on_of_nodup_map hn (List.mem_of_getElem? hq') hq hid
  exact findParticipant_eq_some.mpr ⟨i, hi, heq ▸ hq'⟩

/-- A record is found behind the barrier that saved it. -/
theorem find_saved {impl : Impl} {image : ByteCodec.Bytes}
    (hsaved : EpochStore.encode impl.canonicalize.state = .ok image) {q : DurableParticipant}
    (hq : q ∈ impl.state.participants) :
    impl.canonicalize.rebuildIndexes.findParticipant q.id = some q := by
  obtain ⟨-, hvalid, -⟩ := EpochStore.encode_ok.mp hsaved
  have hq' : q ∈ impl.canonicalize.state.participants := (insertionSort_perm _).mem_iff.mp hq
  exact find_rebuildIndexes (hvalid.unique hq').1 hq'

/-! ## Registered means live -/

/-- The presented boot is a live incarnation of the participant under the
answered sequence, in the answered epoch, so neither a session nor a token of
these values is turned away as stale. -/
structure RegisteredLive (impl : Impl) (request : RegisterParticipantRequest)
    (r : RegistrationResult) : Prop where
  epoch : r.epoch = impl.state.currentEpoch
  live : ∃ p i, impl.findParticipant request.participant = some p ∧ p.retired = false ∧
    r.incarnation = some i ∧ p.findIncarnation request.boot = some i
  session : ∀ binding : SessionBinding, binding.epoch = r.epoch →
    binding.participant = request.participant → binding.boot = request.boot →
    some binding.incarnation = r.incarnation →
    impl.bindable binding = !(impl.bootSessionIndex.any fun s => s.1 == request.boot)
  token : ∀ v : ValidateAuthorityRequest, v.token.epoch = r.epoch →
    v.token.participant = request.participant → v.token.boot = request.boot →
    some v.token.incarnation = r.incarnation → v.grant = none → v.expectedGeneration = none →
    (impl.validate v).code ≠ .revalidationRequired ∧ (impl.validate v).code ≠ .staleWorkerBoot

/-- The first two parts say it all. -/
theorem RegisteredLive.of_live {impl : Impl} {request : RegisterParticipantRequest}
    {r : RegistrationResult} (hepoch : r.epoch = impl.state.currentEpoch)
    {p : DurableParticipant} {i : IncarnationSequence}
    (hfound : impl.findParticipant request.participant = some p) (hretired : p.retired = false)
    (hincarnation : r.incarnation = some i) (hlive : p.findIncarnation request.boot = some i) :
    RegisteredLive impl request r := by
  refine ⟨hepoch, ⟨p, i, hfound, hretired, hincarnation, hlive⟩, ?_, ?_⟩
  · intro binding hbinding hparticipant hboot hi
    rw [hincarnation] at hi
    unfold bindable
    rw [if_neg (not_not.mpr (hbinding.trans hepoch)), hparticipant, hfound]
    dsimp only
    rw [hretired, hboot, hlive, Option.some.inj hi]
    simp
  · intro v htoken hparticipant hboot hi hgrant hexpected
    rw [hincarnation] at hi
    unfold validate
    split
    · exact ⟨fun h => (nomatch h), fun h => (nomatch h)⟩
    next hshape =>
    rw [hgrant]
    dsimp only
    unfold validateToken
    rw [if_neg (not_not.mpr (htoken.trans hepoch)), hparticipant, hfound]
    dsimp only
    rw [hretired, hboot]
    have hcurrent : (impl.evaluateIncarnation p request.boot v.token.incarnation).code =
        .current := by
      unfold evaluateIncarnation
      rw [hlive, Option.some.inj hi]
      simp
    rw [if_neg Bool.false_ne_true, if_neg (not_not.mpr hcurrent)]
    unfold validateBoundScope validateBoundScope.current
    rw [hexpected]
    dsimp only
    split
    · exact ⟨fun h => (nomatch h), fun h => (nomatch h)⟩
    · exact ⟨fun h => (nomatch h), fun h => (nomatch h)⟩

/-- The request passes the checks in front of the replay table, and the table
answers with a success whose incarnation is not live any more. -/
def AnsweredStale (impl : Impl) (request : RegisterParticipantRequest) : Prop :=
  impl.malformedRegistration request = none ∧ impl.staleRegistration request = none ∧
    ∃ p digest previous, impl.findParticipant request.participant = some p ∧
      computeSemanticDigest request.semantic = .ok digest ∧
      findAttempt p.idempotency request.attempt = some previous ∧ previous.semantic = digest ∧
      RegistrationOutcome.ofRaw previous.outcome = .registered ∧
      ¬ (previous.auxiliaryHigh ≠ 0 ∧
        p.findIncarnation request.boot = some (MonotonicCounter.ofRaw previous.auxiliaryHigh))

/-- What the replay table answers. -/
theorem replayedRegistration_same (impl : Impl) (request : RegisterParticipantRequest)
    {digest : SnapshotDigest} (previous : IdempotencyRecord) (h : previous.semantic = digest) :
    (impl.replayedRegistration request digest previous).outcome =
        RegistrationOutcome.ofRaw previous.outcome ∧
      (impl.replayedRegistration request digest previous).epoch = impl.state.currentEpoch ∧
      (impl.replayedRegistration request digest previous).incarnation =
        (if previous.auxiliaryHigh ≠ 0 then some (MonotonicCounter.ofRaw previous.auxiliaryHigh)
        else none) ∧
      (impl.replayedRegistration request digest previous).registrationGeneration =
        some (MonotonicCounter.ofRaw previous.auxiliary) ∧
      (impl.replayedRegistration request digest previous).coordinatorBoot =
        impl.state.coordinatorBoot := by
  unfold replayedRegistration
  rw [if_neg (not_not.mpr h)]
  exact ⟨rfl, rfl, rfl, rfl, rfl⟩

/-- An exact retry is answered from the table. -/
theorem applyRegistration_replays {request : RegisterParticipantRequest} {commitGeneration : Bool}
    {t : Txn Impl} (hmalformed : t.state.malformedRegistration request = none)
    (hstale : t.state.staleRegistration request = none) {p : DurableParticipant}
    {digest : SnapshotDigest} {previous : IdempotencyRecord}
    (hfound : t.state.findParticipant request.participant = some p)
    (hdigest : computeSemanticDigest request.semantic = .ok digest)
    (hattempt : findAttempt p.idempotency request.attempt = some previous) :
    applyRegistration request commitGeneration t =
      .ok (t.state.replayedRegistration request digest previous) t := by
  unfold applyRegistration
  rw [Action.bind_current]
  have hconflict : t.state.conflictingRegistration p request digest =
      some (t.state.replayedRegistration request digest previous) := by
    unfold conflictingRegistration
    rw [hattempt]
  simp only [hmalformed, hstale, hdigest, Action.bind_ofExcept, hfound, hconflict]
  rfl

/-- **What a commit says is live** when it has passed the durability barrier. -/
theorem Bound.registeredLive {request : RegisterParticipantRequest} {r : RegistrationResult}
    {impl : Impl} (h : Bound request r impl.state) {image : ByteCodec.Bytes}
    (hsaved : EpochStore.encode impl.canonicalize.state = .ok image) :
    RegisteredLive impl.canonicalize.rebuildIndexes request r := by
  obtain ⟨i, hincarnation, q, hq, hid, hretired, hlive⟩ := h.live
  obtain ⟨-, hvalid, -⟩ := EpochStore.encode_ok.mp hsaved
  have hq' : q ∈ impl.canonicalize.state.participants := (insertionSort_perm _).mem_iff.mp hq
  have hfound := find_saved hsaved hq
  rw [hid] at hfound
  exact .of_live h.epoch hfound hretired hincarnation
    (DurableParticipant.find_of_nodup (hvalid.unique hq').2 hlive)

/-- **REGISTERED means live**, in a reachable state, exactly where the replay
table does not answer with an incarnation that is gone. -/
theorem registeredLive_iff {host : Host} (h : coordinator.Reaches (fun _ _ => True) host)
    {impl : Impl} (himpl : host.runtime = some impl) (request : RegisterParticipantRequest)
    (entropy : Entropy) (fault : Option SaveFault) :
    (∀ r, (callRuntime (.register request) entropy fault host.disk impl).result =
        .ok (.registered r) → r.outcome = .registered →
      RegisteredLive (callRuntime (.register request) entropy fault host.disk impl).impl
        request r) ↔ ¬ AnsweredStale impl request := by
  constructor
  · rintro hall ⟨hmalformed, hstale, p, digest, previous, hfound, hdigest, hattempt, hsame, hout,
      hdead⟩
    have hreplay : applyRegistration request true (Txn.start impl) =
        .ok (impl.replayedRegistration request digest previous) (Txn.start impl) :=
      applyRegistration_replays hmalformed hstale hfound hdigest hattempt
    have hcall : callRuntime (.register request) entropy fault host.disk impl = ⟨impl, host.disk,
        .ok (.registered (impl.replayedRegistration request digest previous))⟩ := by
      show (transact (applyRegistration request true) fault host.disk impl).map Reply.registered = _
      unfold transact
      rw [hreplay]
      rfl
    obtain ⟨houtcome, -, hincarnation, -⟩ :=
      replayedRegistration_same impl request previous hsame
    have hlive := (hall _ (by rw [hcall]) (houtcome.trans hout)).live
    rw [hcall] at hlive
    obtain ⟨p', i, hfound', -, hanswer, hfind⟩ := hlive
    obtain rfl : p = p' := Option.some.inj (hfound.symm.trans hfound')
    rw [hincarnation] at hanswer
    split at hanswer
    · next hissued =>
      rw [← Option.some.inj hanswer] at hfind
      exact hdead ⟨hissued, hfind⟩
    · cases hanswer
  · intro hnot r hr hout
    have hresult : (transact (applyRegistration request true) fault host.disk impl).result =
        .ok r := Transacted.of_map (fun _ _ heq => Reply.registered.inj heq) hr
    show RegisteredLive (transact (applyRegistration request true) fault host.disk impl).impl
      request r
    obtain ⟨t, ht, hcases⟩ := transact_ok hresult
    obtain ⟨hmalformed, hstale, hsuccess⟩ := applyRegistration_succeeds ht hout
    cases hsuccess with
    | @replayed p digest previous found semantic attempt same =>
      obtain ⟨-, heq⟩ | ⟨hmutated, -⟩ := hcases
      swap
      · cases hmutated
      rw [heq]
      obtain ⟨houtcome, hepoch, hincarnation, -⟩ :=
        replayedRegistration_same impl request previous same
      by_cases hlive : previous.auxiliaryHigh ≠ 0 ∧
          p.findIncarnation request.boot = some (MonotonicCounter.ofRaw previous.auxiliaryHigh)
      · rw [if_pos hlive.1] at hincarnation
        refine .of_live hepoch found ?_ hincarnation hlive.2
        exact ((staleRegistration_none hstale).2 p found).1
      · exact absurd ⟨hmalformed, hstale, p, digest, previous, found, semantic, attempt, same,
          houtcome.symm.trans hout, hlive⟩ hnot
    | committed places commit =>
      obtain ⟨hmutated, hbound⟩ :=
        commitRegistration_bound ((reachable_findable h himpl).of_places places) commit
      obtain ⟨hidle, -⟩ | ⟨-, image, previous, hsaved, heq⟩ := hcases
      · rw [hmutated] at hidle
        cases hidle
      · rw [heq]
        exact hbound.registeredLive hsaved

/-! ## Runs -/

/-- Register a boot, then advance the epoch. -/
def advancedRun : List Input :=
  [testOpen {} 9, callOf (.register (testRegister 1 (testParticipant "p") (smallId 1))),
    .call (.advance { attempt := smallId 2, expectedEpoch := smallCounter 1 }) (testEntropy 8) none]

/-- The request is repeated with a refreshed epoch. -/
def refreshed : RegisterParticipantRequest :=
  { testRegister 1 (testParticipant "p") (smallId 1) with expectedEpoch := smallCounter 2 }

/-- The first registration of a participant is live. -/
theorem registeredLive_iff_test : ∃ host impl, coordinator.Reaches (fun _ _ => True) host ∧
    host.runtime = some impl ∧
    ∀ r, (callRuntime (.register refreshed) (testEntropy 7) none host.disk impl).result =
        .ok (.registered r) → r.outcome = .registered →
      RegisteredLive (callRuntime (.register refreshed) (testEntropy 7) none host.disk impl).impl
        refreshed r := by
  have hrun : ((coordinator.run coordinator.init [testOpen {} 9]).runtime.map fun impl =>
      (impl.findParticipant (testParticipant "p")).isNone) = some true := by decide +kernel
  obtain ⟨impl, himpl, hnone⟩ := Option.map_eq_some_iff.mp hrun
  have hreach := Machine.reaches_run (M := coordinator) [testOpen {} 9]
  refine ⟨_, impl, hreach, himpl, (registeredLive_iff hreach himpl _ _ _).mpr ?_⟩
  rintro ⟨-, -, p, -, -, hfound, -⟩
  rw [Option.isNone_iff_eq_none] at hnone
  exact absurd (hnone.symm.trans hfound).symm (Option.some_ne_none _)

/-- **The retry of a registration after an epoch advance** is answered
REGISTERED, and nothing is live. -/
theorem refreshed_notLive : ∃ host impl, coordinator.Reaches (fun _ _ => True) host ∧
    host.runtime = some impl ∧
    ∃ r, (callRuntime (.register refreshed) (testEntropy 7) none host.disk impl).result =
        .ok (.registered r) ∧ r.outcome = .registered ∧
      ¬ RegisteredLive
        (callRuntime (.register refreshed) (testEntropy 7) none host.disk impl).impl refreshed r := by
  have hrun : (let host := coordinator.run coordinator.init advancedRun
      host.runtime.map fun impl =>
        let done := callRuntime (.register refreshed) (testEntropy 7) none host.disk impl
        ((match done.result with
          | .ok (.registered r) => some r.outcome
          | _ => none),
        (done.impl.findParticipant (testParticipant "p")).bind (·.findIncarnation (smallId 1)))) =
      some (some .registered, none) := by decide +kernel
  obtain ⟨impl, himpl, hvalue⟩ := Option.map_eq_some_iff.mp hrun
  obtain ⟨hresult, hgone⟩ := Prod.mk.inj hvalue
  refine ⟨_, impl, Machine.reaches_run advancedRun, himpl, ?_⟩
  split at hresult
  · next r hr =>
    refine ⟨r, hr, Option.some.inj hresult, fun h => ?_⟩
    obtain ⟨p, i, hfound, -, -, hlive⟩ := h.live
    rw [show refreshed.participant = testParticipant "p" from rfl] at hfound
    rw [hfound] at hgone
    exact absurd (hlive.symm.trans hgone) (Option.some_ne_none _)
  · cases hresult

end FabricEpoch
