import FabricEpoch.Runtime.Effects

/-!
# What a registration has done

The checks of a registration and what they let through, then the moves of the
part that mutates:

- `malformedRegistration_none`, `staleRegistration_none`: what a request that
  passes has shown;
- `replaceIncumbent_cases`: the incumbent is gone, or was never to be replaced;
- `commitRegistration_ok`: the record that is written and the answer;
- `applyRegistration_advanced`, `registerBatch_advanced`: the moves.

The fence lookups of a batch go through an index that is not rebuilt between
its elements, so each element is asked to see the truth (`BatchAgrees`).
-/

namespace FabricEpoch

open Table Transaction

/-! ## The checks -/

/-- What the first checks let through. -/
structure RegistrationShape (limits : Limits) (request : RegisterParticipantRequest) : Prop where
  attempt : request.attempt.isNil = false
  participant : request.participant.empty = false
  boot : request.boot.isNil = false
  size : request.scopes.size ≤ limits.maxScopesPerGrant

theorem malformedRegistration_none {impl : Impl} {request : RegisterParticipantRequest}
    (h : impl.malformedRegistration request = none) :
    RegistrationShape impl.options.limits request := by
  simp only [Impl.malformedRegistration] at h
  split at h
  · cases h
  next hattempt =>
  split at h
  · cases h
  next hparticipant =>
  split at h
  · cases h
  next hboot =>
  split at h
  · cases h
  split at h
  · cases h
  split at h
  · cases h
  next hsize =>
  exact ⟨by simpa using hattempt, by simpa using hparticipant, by simpa using hboot,
    Nat.le_of_not_lt hsize⟩

/-- The first checks accept nothing. -/
theorem malformedRegistration_some {impl : Impl} {request : RegisterParticipantRequest}
    {r : RegistrationResult} (h : impl.malformedRegistration request = some r) :
    r.outcome ≠ .registered := by
  simp only [Impl.malformedRegistration] at h
  repeat' split at h
  all_goals
    cases h
    try exact fun heq => nomatch heq

theorem staleRegistration_some {impl : Impl} {request : RegisterParticipantRequest}
    {r : RegistrationResult} (h : impl.staleRegistration request = some r) :
    r.outcome ≠ .registered := by
  simp only [Impl.staleRegistration] at h
  repeat' split at h
  all_goals
    cases h
    try exact fun heq => nomatch heq

theorem staleRegistration_none {impl : Impl} {request : RegisterParticipantRequest}
    (h : impl.staleRegistration request = none) :
    request.expectedEpoch = impl.state.currentEpoch ∧
      ∀ p, impl.findParticipant request.participant = some p → p.retired = false ∧
        (impl.lookupFence request.participant request.boot).fenced = false := by
  simp only [Impl.staleRegistration] at h
  split at h
  · cases h
  next hepoch =>
  refine ⟨not_not.mp hepoch, fun p hp => ?_⟩
  simp only [hp] at h
  split at h
  · cases h
  next hretired =>
  split at h
  · cases h
  next hfenced =>
  exact ⟨by simpa using hretired, by simpa using hfenced⟩

/-! ## The incumbent -/

/-- An incumbent is live. -/
theorem DurableParticipant.findIncarnation_incumbent {p : DurableParticipant} {boot : WorkerBootId}
    (h : p.incumbent = some boot) : p.findIncarnation boot ≠ none := by
  unfold incumbent at h
  unfold findIncarnation
  cases hactive : p.hasActiveBoot with
  | true =>
    rw [hactive, if_pos rfl] at h
    rw [if_pos ⟨rfl, Option.some.inj h⟩]
    exact Option.some_ne_none _
  | false =>
    rw [hactive] at h
    cases hextras : p.extraIncarnations with
    | nil =>
      rw [hextras] at h
      cases h
    | cons e rest =>
      rw [hextras] at h
      obtain rfl : e.boot = boot := Option.some.inj h
      simp

/-- The incumbent is fenced, or there is none to be fenced. -/
theorem replaceIncumbent_fences {request : RegisterParticipantRequest} {p : DurableParticipant}
    {refusal : Option RegistrationResult} {t u : Txn Impl}
    (h : replaceIncumbent request p t = .ok refusal u) :
    (∃ boot r, p.incumbent = some boot ∧
      recordFence request.participant boot .reincarnation .blank false t = .ok r u) ∨
    u = t ∧ (p.policy = .singleIncarnation → t.state.options.replacementPolicy = .replaceIncumbent →
      p.incumbent = none) := by
  unfold replaceIncumbent at h
  cases hincumbent : p.incumbent with
  | none =>
    simp only [hincumbent] at h
    exact .inr ⟨(Action.pure_ok.mp h).2, fun _ _ => rfl⟩
  | some incumbent =>
    simp only [hincumbent] at h
    by_cases hpolicy : p.policy = .singleIncarnation
    swap
    · rw [if_neg hpolicy] at h
      exact .inr ⟨(Action.pure_ok.mp h).2, fun hsingle => absurd hsingle hpolicy⟩
    rw [if_pos hpolicy, Action.bind_current] at h
    cases hreplace : t.state.options.replacementPolicy with
    | requireExplicitFence =>
      simp only [hreplace] at h
      exact .inr ⟨(Action.pure_ok.mp h).2, fun _ hreplaces => nomatch hreplaces⟩
    | replaceIncumbent =>
      simp only [hreplace] at h
      obtain ⟨fence, t', hfence, h⟩ := Action.bind_ok.mp h
      have hu : u = t' := by
        split at h
        · exact (Action.pure_ok.mp h).2
        · exact (Action.pure_ok.mp h).2
      rw [hu]
      exact .inl ⟨incumbent, fence, rfl, hfence⟩

/-- **What happens to the incumbent** when a registration goes on. -/
inductive ReplaceCase (request : RegisterParticipantRequest) (p : DurableParticipant)
    (t : Txn Impl) : Txn Impl → Prop
  | none (missing : p.incumbent = none) : ReplaceCase request p t t
  | multi (policy : p.policy ≠ .singleIncarnation) : ReplaceCase request p t t
  | fenced {incumbent : WorkerBootId} (eq : p.incumbent = some incumbent)
      (fenced : (t.state.lookupFence request.participant incumbent).fenced = true) :
      ReplaceCase request p t t
  | replaced {incumbent : WorkerBootId} {r : FenceResult} {u : Txn Impl}
      (eq : p.incumbent = some incumbent)
      (fence : recordFence request.participant incumbent .reincarnation .blank false t = .ok r u)
      (outcome : r.outcome = .fenced) (policy : p.policy = .singleIncarnation)
      (replace : t.state.options.replacementPolicy = .replaceIncumbent) : ReplaceCase request p t u

theorem replaceIncumbent_cases {request : RegisterParticipantRequest} {p : DurableParticipant}
    {t u : Txn Impl} (hp : t.state.findParticipant request.participant = some p)
    (h : replaceIncumbent request p t = .ok none u) : ReplaceCase request p t u := by
  unfold replaceIncumbent at h
  cases hincumbent : p.incumbent with
  | none =>
    simp only [hincumbent] at h
    cases h
    exact .none hincumbent
  | some incumbent =>
    simp only [hincumbent] at h
    split at h
    swap
    · next hpolicy =>
      cases h
      exact .multi hpolicy
    next hpolicy =>
    rw [Action.bind_current] at h
    cases hreplace : t.state.options.replacementPolicy with
    | requireExplicitFence =>
      simp only [hreplace] at h
      cases h
    | replaceIncumbent =>
    simp only [hreplace] at h
    obtain ⟨r, t', hfence, h⟩ := Action.bind_ok.mp h
    split at h
    · cases h
    next houtcome =>
    cases h
    have hlive : p.findIncarnation incumbent ≠ none := by
      rw [Ne, DurableParticipant.find_eq_none_iff, not_not, DurableParticipant.liveBoots_eq]
      rw [DurableParticipant.incumbent_eq] at hincumbent
      obtain ⟨e, he, rfl⟩ := Option.map_eq_some_iff.mp hincumbent
      exact List.mem_map_of_mem (List.mem_of_head? he)
    cases recordFence_cases hfence with
    | unknown missing _ =>
      rw [hp] at missing
      cases missing
    | already fenced _ => exact .fenced hincumbent fenced
    | notLive found notLive _ =>
      rw [hp] at found
      cases found
      exact absurd notLive hlive
    | full allowed _ => cases allowed
    | preventive allowed _ _ _ _ _ _ _ _ => cases allowed
    | live _ _ _ _ _ outcome => exact .replaced hincumbent hfence outcome hpolicy hreplace

/-! ## The record a registration may write to -/

/-- The record has passed the checks of the registration, all but the one for
an incumbent. -/
structure Eligible (T : Trust) (request : RegisterParticipantRequest) (s : DurableState)
    (p : DurableParticipant) : Prop where
  found : s.lookup request.participant = some p
  notRetired : p.retired = false
  newAttempt : findAttempt p.idempotency request.attempt = none
  notLive : p.findIncarnation request.boot = none
  policy : p.policy = request.policy
  notFenced : T.fences → ¬ s.Fenced request.participant request.boot
  elsewhere : T.boots → ∀ q ∈ s.participants, q.id ≠ request.participant →
    request.boot ∉ q.liveBoots

namespace Eligible

variable {T : Trust} {request : RegisterParticipantRequest} {s : DurableState}
  {p : DurableParticipant}

/-- The record of a participant that is created. -/
theorem created (hmissing : s.lookup request.participant = none)
    (hi : T.fences → Incumbency s)
    (helsewhere : T.boots → ∀ q ∈ s.participants, q.id ≠ request.participant →
      request.boot ∉ q.liveBoots) :
    Eligible T request
      { s with participants := s.participants ++ [.fresh request.participant request.policy] }
      (.fresh request.participant request.policy) := by
  refine ⟨?_, rfl, rfl, rfl, rfl, fun hT h => ?_, fun hT q hq hid => ?_⟩
  · have hfound := lookup_append_singleton
      (a := DurableParticipant.fresh request.participant request.policy) hmissing
      request.participant
    exact hfound.trans (if_pos rfl)
  · have hids : request.participant ∉ s.participants.map (·.id) := by
      rw [List.mem_map]
      rintro ⟨q, hq, hid⟩
      exact lookup_none.mp hmissing q hq hid
    rcases h with ⟨r, hr, hid, -⟩ | ⟨q, hq, hid, hboot⟩
    · exact hids (hid ▸ (hi hT).known r hr)
    · rcases List.mem_append.mp hq with hq | hq
      · exact hids (hid ▸ List.mem_map_of_mem hq)
      · rw [List.mem_singleton.mp hq] at hboot
        cases hboot
  · rcases List.mem_append.mp hq with hq | hq
    · exact helsewhere hT q hq hid
    · rw [List.mem_singleton.mp hq] at hid
      exact absurd rfl hid

/-- The record behind the fence of an incumbent. -/
theorem fenced (h : Eligible T request s p) (limits : Limits) (record : FenceRecord)
    (hs : Orderly s) {incumbent : WorkerBootId} {i : IncarnationSequence} (g : EpochGeneration)
    (hlive : p.findIncarnation incumbent = some i) (hid : record.participant = request.participant)
    (hboot : record.boot = incumbent) :
    Eligible T request
      { s.updateParticipant request.participant
          (·.fence limits incumbent i record.generation) with
        fenceFloor := record.generation
        recentFences := evictPush limits.maxRecentFences s.recentFences record
        generation := g }
      (p.fence limits incumbent i record.generation) := by
  subst hboot
  have hlookup := DurableState.lookup_updateParticipant
    (fun p => p.fence_id limits record.boot i record.generation) h.found
  obtain ⟨_, _, _, _, _, hframe⟩ := p.fence_frame limits record.boot i record.generation
  have hne : request.boot ≠ record.boot := by
    intro heq
    have := h.notLive
    rw [heq, hlive] at this
    cases this
  have hp := DurableState.mem_of_lookup h.found
  refine ⟨hlookup, ?_, ?_, ?_, ?_, fun hT hfenced => ?_, fun hT q hq hqid => ?_⟩
  · rw [hframe]
    exact h.notRetired
  · rw [hframe]
    exact h.newAttempt
  · have hnot := DurableParticipant.find_eq_none_iff.mp h.notLive
    rw [DurableParticipant.find_eq_none_iff, DurableParticipant.liveBoots_eq,
      DurableParticipant.live_fence (hs.records p hp.1).boots]
    rw [DurableParticipant.liveBoots_eq] at hnot
    exact fun hmem => hnot ((List.filter_sublist.map _).subset hmem)
  · rw [hframe]
    exact h.policy
  · refine h.notFenced hT ((hfenced.before (s := s)
      (N := fun _ boot => boot = record.boot) (fun r hr => ?_) fun q' hq' boot hmem => ?_).resolve_right
      hne)
    · rcases mem_evictPush hr with hr | rfl
      · exact .inl hr
      · exact .inr rfl
    · rcases DurableState.mem_updateParticipant hq' with ⟨q, hq, -, rfl⟩ | ⟨hq, -⟩
      · obtain ⟨_, _, _, _, _, hframe'⟩ := q.fence_frame limits record.boot i record.generation
        rw [hframe'] at hmem ⊢
        rcases mem_evictPush hmem with hmem | rfl
        · exact .inl ⟨q, hq, rfl, hmem⟩
        · exact .inr rfl
      · exact .inl ⟨q', hq, rfl, hmem⟩
  · rcases DurableState.mem_updateParticipant hq with ⟨q', hq', hq'id, rfl⟩ | ⟨hq, -⟩
    · rw [DurableParticipant.fence_id] at hqid
      exact absurd hq'id hqid
    · exact h.elsewhere hT q hq hqid

end Eligible

/-! ## The mutation -/

/-- **What the mutating part has done**: the record it opened was rewritten
under the next registration generation, and its allocator moved on. -/
theorem commitRegistration_ok {request : RegisterParticipantRequest} {digest : SnapshotDigest}
    {participant : Option DurableParticipant} {commitGeneration : Bool} {t u : Txn Impl}
    {r : RegistrationResult}
    (h : commitRegistration request digest participant commitGeneration t = .ok r u) :
    ∃ p t₀ g next t₁ t₂, openRecord request participant t = .ok p t₀ ∧
      t₀.state.state.registrationFloor.next = some g ∧ p.nextIncarnation.next = some next ∧
      t₁.state = Impl.bindBoot request.participant request.boot
        ((t₀.state.setRegistrationFloor g).updateParticipant request.participant
          (·.register t₀.state.options.limits request digest g p.nextIncarnation next)) ∧
      bumpWhen commitGeneration t₁ = .ok () t₂ ∧ u = { t₂ with mutated := true } ∧
      r.outcome = .registered ∧ r.incarnation = some p.nextIncarnation ∧
      r.registrationGeneration = some g ∧ r.replayed = false := by
  obtain ⟨p, t₀, hopen, h⟩ := Action.bind_ok.mp h
  rw [Action.bind_current] at h
  obtain ⟨g, t', horfail, h⟩ := Action.bind_ok.mp h
  obtain ⟨hfloor, rfl⟩ := Action.orFail_ok.mp horfail
  rw [Action.bind_pushUndo, Action.bind_modify] at h
  obtain ⟨next, t', horfail, h⟩ := Action.bind_ok.mp h
  obtain ⟨hnext, rfl⟩ := Action.orFail_ok.mp horfail
  rw [Action.bind_modify] at h
  obtain ⟨⟨⟩, t', hbump, h⟩ := Action.bind_ok.mp h
  cases h
  exact ⟨p, _, g, next, _, t', hopen, hfloor, hnext, rfl, hbump, rfl, rfl, rfl, rfl, rfl⟩

theorem commitRegistration_mutated {request : RegisterParticipantRequest}
    {digest : SnapshotDigest} {participant : Option DurableParticipant} {c : Bool} {t u : Txn Impl}
    {r : RegistrationResult} (h : commitRegistration request digest participant c t = .ok r u) :
    u.mutated = true := by
  obtain ⟨p, t₀, g, next, t₁, t₂, -, -, -, -, -, rfl, -⟩ := commitRegistration_ok h
  rfl

theorem commitRegistration_registered {request : RegisterParticipantRequest}
    {digest : SnapshotDigest} {participant : Option DurableParticipant} {c : Bool} {t u : Txn Impl}
    {r : RegistrationResult} (h : commitRegistration request digest participant c t = .ok r u) :
    r.outcome = .registered := by
  obtain ⟨_, _, _, _, _, _, -, -, -, -, -, -, hout, -⟩ := commitRegistration_ok h
  exact hout

/-- Opening the record: it is there, or it has been created. -/
theorem openRecord_ok {T : Trust} {limits : Limits} {request : RegisterParticipantRequest}
    {participant : Option DurableParticipant} {t t₀ : Txn Impl} {p : DurableParticipant}
    (ht : t.state.Regular)
    (hexisting : ∀ q, participant = some q → Eligible T request t.state.state q)
    (hmissing : participant = none → t.state.state.lookup request.participant = none ∧
      request.participant.empty = false ∧ (T.texts → request.participant.Parses) ∧
      t.state.state.participants.length < limits.maxParticipants ∧
      (T.fences → Incumbency t.state.state) ∧
      (T.boots → ∀ q ∈ t.state.state.participants, q.id ≠ request.participant →
        request.boot ∉ q.liveBoots))
    (h : openRecord request participant t = .ok p t₀) :
    Moves T limits t.state.state t₀.state.state ∧ t₀.state.Regular ∧
      t₀.state.options = t.state.options ∧ Eligible T request t₀.state.state p ∧
      (participant = some p ∧ t₀.state.state = t.state.state ∨
        participant = none ∧ p.live = []) := by
  cases participant with
  | some q =>
    cases h
    exact ⟨.refl, ht, rfl, hexisting p rfl, .inl ⟨rfl, rfl⟩⟩
  | none =>
    obtain ⟨hlookup, hnonempty, htext, hroom, hi, helsewhere⟩ := hmissing rfl
    cases h
    have hmove : Move T limits t.state.state { t.state.state with participants :=
        t.state.state.participants ++ [.fresh request.participant request.policy] } :=
      .create hlookup hnonempty hroom htext
    have hnew : request.participant ∉ t.state.ids := by
      intro hmem
      obtain ⟨q, hq, hid⟩ := List.mem_map.mp hmem
      exact lookup_none.mp hlookup q hq hid
    exact ⟨.single hmove, ⟨ht.index.create hnew _, ht.grants, hmove.orderly ht.orderly⟩, rfl,
      Eligible.created hlookup hi helsewhere, .inr ⟨rfl, rfl⟩⟩

section Moves

variable {T : Trust} {limits : Limits} {request : RegisterParticipantRequest}
  {digest : SnapshotDigest} {commitGeneration : Bool} {t u : Txn Impl} {r : RegistrationResult}

/-- What a request must have shown before the mutation. -/
structure Admissible (T : Trust) (limits : Limits) (request : RegisterParticipantRequest)
    (digest : SnapshotDigest) : Prop where
  shape : RegistrationShape limits request
  semantic : computeSemanticDigest request.semantic = .ok digest
  text : T.texts → request.WellFormed

/-- A registration of a participant that exists. -/
structure Renewable (T : Trust) (request : RegisterParticipantRequest) (s : DurableState)
    (p : DurableParticipant) : Prop extends Eligible T request s p where
  single : T.fences → p.policy = .singleIncarnation → p.live = []

/-- A registration of a participant that does not exist. -/
structure Creatable (T : Trust) (limits : Limits) (request : RegisterParticipantRequest)
    (s : DurableState) : Prop where
  missing : s.lookup request.participant = none
  room : s.participants.length < limits.maxParticipants
  incumbency : T.fences → Incumbency s
  elsewhere : T.boots → ∀ q ∈ s.participants, q.id ≠ request.participant →
    request.boot ∉ q.liveBoots

/-- **What a registration that commits has done to the state**: it made or found
the record, and rewrote it under the next generation. -/
theorem commitRegistration_moved {participant : Option DurableParticipant}
    (ht : t.state.Regular) (hlimits : t.state.options.limits = limits)
    (hrequest : Admissible T limits request digest)
    (hexisting : ∀ q, participant = some q → Renewable T request t.state.state q)
    (hmissing : participant = none → Creatable T limits request t.state.state)
    (h : commitRegistration request digest participant commitGeneration t = .ok r u) :
    Advanced T limits t u ∧ ∃ s p g next generation, Moves T limits t.state.state s ∧
      (participant = some p ∧ s = t.state.state ∨ participant = none ∧ p.live = []) ∧
      Renewable T request s p ∧
      s.registrationFloor.next = some g ∧ p.nextIncarnation.next = some next ∧
      u.state.state = { s.updateParticipant request.participant
          (·.register limits request digest g p.nextIncarnation next) with
        registrationFloor := g
        generation } ∧
      r.outcome = .registered ∧ r.replayed = false ∧ r.incarnation = some p.nextIncarnation ∧
      r.registrationGeneration = some g := by
  subst hlimits
  obtain ⟨p, t₀, g, next, t₁, t₂, hopen, hfloor, hnext, hstate, hbump, rfl, houtcome, hincarnation,
    hgeneration, hreplayed⟩ := commitRegistration_ok h
  obtain ⟨hmoves, ht₀, hoptions, hp, hwhich⟩ := openRecord_ok (T := T) ht
    (fun q hq => (hexisting q hq).toEligible)
    (fun hnone => ⟨(hmissing hnone).missing, hrequest.shape.participant,
      fun hT => (hrequest.text hT).participant, (hmissing hnone).room,
      (hmissing hnone).incumbency, (hmissing hnone).elsewhere⟩) hopen
  have hsingle : T.fences → p.policy = .singleIncarnation → p.live = [] := by
    rcases hwhich with ⟨hsome, -⟩ | ⟨-, hnil⟩
    · exact (hexisting p hsome).single
    · exact fun _ _ => hnil
  rw [hoptions] at hstate
  have hregular : (t₀.state.setRegistrationFloor g).Regular :=
    ht₀.setState (f := fun s => { s with registrationFloor := g }) rfl rfl
  rw [hregular.update] at hstate
  have hmove : Move T t.state.options.limits t₀.state.state t₁.state.state := by
    rw [hstate]
    exact .register hrequest.semantic hp.found hp.notRetired hrequest.shape.boot
      hrequest.shape.attempt hp.newAttempt hp.notLive hp.policy hp.notFenced hsingle
      hp.elsewhere hrequest.shape.size hrequest.text hfloor hnext
  have ht₁ : t₁.state.Regular := by
    refine ht₀.of_same ?_ ?_ ?_ (hmove.orderly ht₀.orderly)
    · rw [hstate]
      exact ⟨rfl, rfl, rfl, rfl⟩
    · rw [hstate]
      exact map_key_updateKey fun p => p.register_id _ _ _ _ _ _
    · rw [hstate]
      rfl
  obtain ⟨hbumped, ht₂, hoptions₂, -⟩ := bumpWhen_moves T t.state.options.limits ht₁ hbump
  -- the bump leaves everything but the generation of the state alone
  have hgenerated : ∃ generation, t₂.state.state = { t₁.state.state with generation } := by
    rcases bumpWhen_ok hbump with ⟨-, rfl⟩ | ⟨generation, -, rfl⟩
    · exact ⟨_, rfl⟩
    · exact ⟨generation, rfl⟩
  obtain ⟨generation, hgenerated⟩ := hgenerated
  refine ⟨⟨(hmoves.tail hmove).trans hbumped, ht₂, ?_, .inr rfl⟩, t₀.state.state, p, g, next,
    generation, hmoves, hwhich, ⟨hp, hsingle⟩, hfloor, hnext, ?_, houtcome, hreplayed, hincarnation,
    hgeneration⟩
  · rw [hoptions₂, hstate]
    exact hoptions
  · show t₂.state.state = _
    rw [hgenerated, hstate]
    rfl

theorem admitRegistration_advanced {participant : Option DurableParticipant}
    (ht : t.state.Regular) (hlimits : t.state.options.limits = limits)
    (hrequest : Admissible T limits request digest)
    (hexisting : ∀ q, participant = some q → Renewable T request t.state.state q)
    (hmissing : participant = none → Creatable T limits request t.state.state)
    (h : admitRegistration request digest participant commitGeneration t = .ok r u) :
    Advanced T limits t u := by
  unfold admitRegistration at h
  rw [Action.bind_current] at h
  split at h
  · cases h
    exact .refl ht
  · exact (commitRegistration_moved ht hlimits hrequest hexisting hmissing h).1

/-- The fence lookups of a registration tell what the retained records say:
for the boot of the request, and for the incumbent. -/
structure Impl.LookupsAgree (impl : Impl) (request : RegisterParticipantRequest) : Prop where
  boot : impl.FenceAgrees request.participant request.boot
  incumbent : ∀ p boot, impl.state.lookup request.participant = some p →
    p.incumbent = some boot → impl.FenceAgrees request.participant boot

/-- Nothing is done for the sake of the incumbent but a fence of it. -/
theorem replaceIncumbent_advanced {p : DurableParticipant} {refusal : Option RegistrationResult}
    (ht : t.state.Regular) (hlimits : t.state.options.limits = limits)
    (hi : T.fences → Incumbency t.state.state)
    (h : replaceIncumbent request p t = .ok refusal u) : Advanced T limits t u := by
  unfold replaceIncumbent at h
  cases hincumbent : p.incumbent with
  | none =>
    simp only [hincumbent] at h
    cases h
    exact .refl ht
  | some incumbent =>
    simp only [hincumbent] at h
    split at h
    swap
    · cases h
      exact .refl ht
    rw [Action.bind_current] at h
    cases hreplace : t.state.options.replacementPolicy with
    | requireExplicitFence =>
      simp only [hreplace] at h
      cases h
      exact .refl ht
    | replaceIncumbent =>
      simp only [hreplace] at h
      obtain ⟨r, t', hfence, h⟩ := Action.bind_ok.mp h
      have hadvanced : Advanced T limits t t' :=
        recordFence_advanced ht hlimits hi (fun _ h => absurd h Bool.false_ne_true)
          (fun h => absurd h Bool.false_ne_true) (fun _ => by decide) hfence
      -- refused or not, the fence stays
      split at h
      · cases h
        exact hadvanced
      · cases h
        exact hadvanced

/-- **The incumbent is out of the way**: the registration goes on with a record
that it may write to. -/
theorem ReplaceCase.renewable {p : DurableParticipant} (hcase : ReplaceCase request p t u)
    (ht : t.state.Regular) (hlimits : t.state.options.limits = limits)
    (hi : T.fences → Incumbency t.state.state)
    (hagrees : T.fences → t.state.LookupsAgree request)
    (hp : Eligible T request t.state.state p) :
    Advanced T limits t u ∧
      ∀ q, u.state.findParticipant request.participant = some q →
        Renewable T request u.state.state q := by
  have hmem := DurableState.mem_of_lookup hp.found
  have hfind : ∀ q, t.state.findParticipant request.participant = some q → q = p := by
    intro q hq
    rw [ht.find, hp.found] at hq
    exact (Option.some.inj hq).symm
  cases hcase with
  | none missing =>
    refine ⟨.refl ht, fun q hq => ?_⟩
    rw [hfind q hq]
    refine ⟨hp, fun _ _ => ?_⟩
    rw [DurableParticipant.incumbent_eq, Option.map_eq_none_iff, List.head?_eq_none_iff] at missing
    exact missing
  | multi policy =>
    refine ⟨.refl ht, fun q hq => ?_⟩
    rw [hfind q hq]
    exact ⟨hp, fun _ hsingle => absurd hsingle policy⟩
  | @fenced incumbent eq fenced =>
    refine ⟨.refl ht, fun q hq => ?_⟩
    rw [hfind q hq]
    refine ⟨hp, fun hT _ => ?_⟩
    -- the incumbent is live, so the records cannot say that it is fenced
    have hrecords := ((hagrees hT).incumbent p incumbent hp.found eq).mp fenced
    rw [DurableParticipant.incumbent_eq] at eq
    obtain ⟨e, he, rfl⟩ := Option.map_eq_some_iff.mp eq
    refine absurd (hmem.2 ▸ hrecords) ((hi hT).notFenced p hmem.1 e.1 ?_)
    rw [DurableParticipant.liveBoots_eq]
    exact List.mem_map_of_mem (List.mem_of_head? he)
  | @replaced incumbent r u eq fence outcome _ _ =>
    have hblank : BoundedText.blank.Storable := by decide
    have hadvanced := recordFence_advanced ht hlimits hi (fun _ h => absurd h Bool.false_ne_true)
      (fun h => absurd h Bool.false_ne_true) (fun _ => hblank) fence
    refine ⟨hadvanced, fun q hq => ?_⟩
    cases recordFence_cases fence with
    | unknown _ houtcome => simp [houtcome] at outcome
    | already _ houtcome => simp [houtcome] at outcome
    | notLive _ _ houtcome => simp [houtcome] at outcome
    | full allowed _ => cases allowed
    | preventive allowed _ _ _ _ _ _ _ _ => cases allowed
    | @live p' i generation next record hrecord found live floor bump _ =>
      obtain rfl := hfind p' found
      subst hrecord
      rw [hadvanced.regular.find] at hq
      rw [ht.applyFence request.participant incumbent i (t.state.liveRecord request.participant
        incumbent i .reincarnation .blank generation) rfl] at hq ⊢
      have heligible := hp.fenced t.state.options.limits (t.state.liveRecord request.participant
        incumbent i .reincarnation .blank generation) ht.orderly next live rfl rfl
      obtain rfl : _ = q := Option.some.inj (heligible.found.symm.trans hq)
      refine ⟨heligible, fun hT hsingle => ?_⟩
      obtain ⟨_, _, _, _, _, hframe⟩ :=
        p'.fence_frame t.state.options.limits incumbent i generation
      have hpolicy : p'.policy = .singleIncarnation := by
        rw [show (t.state.liveRecord request.participant incumbent i .reincarnation .blank
          generation).generation = generation from rfl, hframe] at hsingle
        exact hsingle
      rw [DurableParticipant.live_fence (ht.orderly.records p' hmem.1).boots]
      -- the incumbent was the only live incarnation
      have hlength := (hi hT).single p' hmem.1 hpolicy
      rw [DurableParticipant.incumbent_eq] at eq
      obtain ⟨e, he, rfl⟩ := Option.map_eq_some_iff.mp eq
      cases hlive : p'.live with
      | nil => rfl
      | cons first rest =>
        rw [hlive] at hlength he
        obtain rfl := Option.some.inj he
        cases rest with
        | nil => simp
        | cons second rest => simp at hlength

theorem registerExisting_advanced {p : DurableParticipant} (ht : t.state.Regular)
    (hlimits : t.state.options.limits = limits) (hi : T.fences → Incumbency t.state.state)
    (hagrees : T.fences → t.state.LookupsAgree request)
    (hrequest : Admissible T limits request digest) (hp : Eligible T request t.state.state p)
    (h : registerExisting request digest p commitGeneration t = .ok r u) :
    Advanced T limits t u := by
  obtain ⟨refusal, t', hreplace, h⟩ := Action.bind_ok.mp h
  have hfind : t.state.findParticipant request.participant = some p := (ht.find _).trans hp.found
  cases refusal with
  | some result =>
    cases h
    exact replaceIncumbent_advanced ht hlimits hi hreplace
  | none =>
    obtain ⟨hadvanced, hrenewable⟩ :=
      (replaceIncumbent_cases hfind hreplace).renewable ht hlimits hi hagrees hp
    simp only [Action.bind_current] at h
    cases hfound : t'.state.findParticipant request.participant with
    | none =>
      simp only [hfound] at h
      cases h
    | some q =>
      simp only [hfound] at h
      refine hadvanced.trans (admitRegistration_advanced hadvanced.regular
        (by rw [hadvanced.options, hlimits]) hrequest ?_
        (fun hnone => absurd hnone (Option.some_ne_none q)) h)
      intro q' hq'
      cases hq'
      exact hrenewable q hfound

theorem registerNew_advanced (ht : t.state.Regular) (hlimits : t.state.options.limits = limits)
    (hrequest : Admissible T limits request digest)
    (hmissing : t.state.state.lookup request.participant = none)
    (hi : T.fences → Incumbency t.state.state)
    (helsewhere : T.boots → ∀ q ∈ t.state.state.participants, q.id ≠ request.participant →
      request.boot ∉ q.liveBoots)
    (h : registerNew request digest commitGeneration t = .ok r u) : Advanced T limits t u := by
  unfold registerNew at h
  rw [Action.bind_current] at h
  split at h
  · cases h
    exact .refl ht
  · next hroom =>
    rw [hlimits] at hroom
    exact admitRegistration_advanced ht hlimits hrequest (fun q hq => absurd hq.symm (Option.some_ne_none q))
      (fun _ => ⟨hmissing, Nat.lt_of_not_le hroom, hi, helsewhere⟩) h

/-- **A registration that returns** has moved. -/
theorem applyRegistration_advanced (ht : t.state.Regular)
    (hlimits : t.state.options.limits = limits) (hi : T.fences → Incumbency t.state.state)
    (hagrees : T.fences → t.state.LookupsAgree request)
    (helsewhere : T.boots → ∀ q ∈ t.state.state.participants, q.id ≠ request.participant →
      request.boot ∉ q.liveBoots)
    (htext : T.texts → request.WellFormed)
    (h : applyRegistration request commitGeneration t = .ok r u) : Advanced T limits t u := by
  unfold applyRegistration at h
  rw [Action.bind_current] at h
  cases hmalformed : t.state.malformedRegistration request with
  | some result =>
    simp only [hmalformed] at h
    cases h
    exact .refl ht
  | none =>
    cases hstale : t.state.staleRegistration request with
    | some result =>
      simp only [hmalformed, hstale] at h
      cases h
      exact .refl ht
    | none =>
      simp only [hmalformed, hstale] at h
      obtain ⟨digest, t', hdigest, h⟩ := Action.bind_ok.mp h
      obtain ⟨hsemantic, rfl⟩ := Action.ofExcept_ok.mp hdigest
      have hrequest : Admissible T limits request digest :=
        ⟨hlimits ▸ malformedRegistration_none hmalformed, hsemantic, htext⟩
      cases hfound : t'.state.findParticipant request.participant with
      | none =>
        simp only [hfound] at h
        rw [ht.find] at hfound
        exact registerNew_advanced ht hlimits hrequest hfound hi helsewhere h
      | some p =>
        simp only [hfound] at h
        cases hconflict : t'.state.conflictingRegistration p request digest with
        | some result =>
          simp only [hconflict] at h
          cases h
          exact .refl ht
        | none =>
          simp only [hconflict] at h
          obtain ⟨hretired, hfenced⟩ := (staleRegistration_none hstale).2 p hfound
          obtain ⟨hattempt, hpolicy, hlive⟩ := conflictingRegistration_none hconflict
          rw [ht.find] at hfound
          refine registerExisting_advanced ht hlimits hi hagrees hrequest ?_ h
          refine ⟨hfound, hretired, hattempt, hlive, hpolicy, fun hT hrecords => ?_, helsewhere⟩
          rw [(hagrees hT).boot.mpr hrecords] at hfenced
          cases hfenced

end Moves

/-! ## Registrations that succeed -/

theorem conflictingIncarnation_some {impl : Impl} {p : DurableParticipant}
    {request : RegisterParticipantRequest} {r : RegistrationResult}
    (h : Impl.conflictingRegistration.conflictingIncarnation impl p request = some r) :
    r.outcome ≠ .registered := by
  unfold Impl.conflictingRegistration.conflictingIncarnation at h
  repeat' split at h
  all_goals
    cases h
    try exact fun heq => nomatch heq

/-- Against an existing record nothing succeeds but a replay. -/
theorem conflictingRegistration_some {impl : Impl} {p : DurableParticipant}
    {request : RegisterParticipantRequest} {digest : SnapshotDigest} {r : RegistrationResult}
    (h : impl.conflictingRegistration p request digest = some r) (hr : r.outcome = .registered) :
    ∃ previous, findAttempt p.idempotency request.attempt = some previous ∧
      previous.semantic = digest ∧ r = impl.replayedRegistration request digest previous := by
  unfold Impl.conflictingRegistration at h
  split at h
  · next previous hprevious =>
    cases h
    refine ⟨previous, hprevious, ?_, rfl⟩
    -- another payload under the same attempt is a conflict
    by_contra hne
    rw [Impl.replayedRegistration, if_pos hne] at hr
    cases hr
  · split at h
    · split at h
      · cases h
        cases hr
      · exact absurd hr (conflictingIncarnation_some h)
    · exact absurd hr (conflictingIncarnation_some h)

theorem admitRegistration_registered {request : RegisterParticipantRequest}
    {digest : SnapshotDigest} {participant : Option DurableParticipant} {commitGeneration : Bool}
    {t u : Txn Impl} {r : RegistrationResult}
    (h : admitRegistration request digest participant commitGeneration t = .ok r u)
    (hr : r.outcome = .registered) :
    commitRegistration request digest participant commitGeneration t = .ok r u := by
  unfold admitRegistration at h
  rw [Action.bind_current] at h
  split at h
  · cases h
    cases hr
  · exact h

/-- A refusal for the sake of the incumbent accepts nothing. -/
theorem replaceIncumbent_some {request : RegisterParticipantRequest} {p : DurableParticipant}
    {t u : Txn Impl} {result : RegistrationResult}
    (h : replaceIncumbent request p t = .ok (some result) u) : result.outcome ≠ .registered := by
  unfold replaceIncumbent at h
  cases hincumbent : p.incumbent with
  | none =>
    simp only [hincumbent] at h
    cases h
  | some incumbent =>
    simp only [hincumbent] at h
    split at h
    swap
    · cases h
    rw [Action.bind_current] at h
    cases hreplace : t.state.options.replacementPolicy with
    | requireExplicitFence =>
      simp only [hreplace] at h
      cases h
      exact fun heq => nomatch heq
    | replaceIncumbent =>
      simp only [hreplace] at h
      obtain ⟨fence, t', -, h⟩ := Action.bind_ok.mp h
      split at h
      · cases h
        exact fun heq => nomatch heq
      · cases h

/-- **How a registration can succeed**: from the replay table, or by a commit
behind the moves that made way for it. -/
inductive RegisteredCase (T : Trust) (request : RegisterParticipantRequest)
    (commitGeneration : Bool) (t : Txn Impl) : RegistrationResult → Txn Impl → Prop
  | replayed {p : DurableParticipant} {digest : SnapshotDigest} {previous : IdempotencyRecord}
      (found : t.state.state.lookup request.participant = some p)
      (semantic : computeSemanticDigest request.semantic = .ok digest)
      (attempt : findAttempt p.idempotency request.attempt = some previous)
      (same : previous.semantic = digest) :
      RegisteredCase T request commitGeneration t
        (t.state.replayedRegistration request digest previous) t
  | committed {digest : SnapshotDigest} {participant : Option DurableParticipant} {t' u : Txn Impl}
      {r : RegistrationResult} (made : Advanced T t.state.options.limits t t')
      (admissible : Admissible T t.state.options.limits request digest)
      (existing : ∀ p, participant = some p → Renewable T request t'.state.state p)
      (missing : participant = none → Creatable T t.state.options.limits request t'.state.state)
      (commit : commitRegistration request digest participant commitGeneration t' = .ok r u) :
      RegisteredCase T request commitGeneration t r u

theorem applyRegistration_registered {T : Trust} {request : RegisterParticipantRequest}
    {commitGeneration : Bool} {t u : Txn Impl} {r : RegistrationResult} (ht : t.state.Regular)
    (hi : T.fences → Incumbency t.state.state)
    (hagrees : T.fences → t.state.LookupsAgree request)
    (helsewhere : T.boots → ∀ q ∈ t.state.state.participants, q.id ≠ request.participant →
      request.boot ∉ q.liveBoots)
    (htext : T.texts → request.WellFormed)
    (h : applyRegistration request commitGeneration t = .ok r u) (hr : r.outcome = .registered) :
    request.expectedEpoch = t.state.state.currentEpoch ∧
      RegisteredCase T request commitGeneration t r u := by
  unfold applyRegistration at h
  rw [Action.bind_current] at h
  cases hmalformed : t.state.malformedRegistration request with
  | some result =>
    simp only [hmalformed] at h
    cases h
    exact absurd hr (malformedRegistration_some hmalformed)
  | none =>
  cases hstale : t.state.staleRegistration request with
  | some result =>
    simp only [hmalformed, hstale] at h
    cases h
    exact absurd hr (staleRegistration_some hstale)
  | none =>
  simp only [hmalformed, hstale] at h
  obtain ⟨hepoch, hknown⟩ := staleRegistration_none hstale
  obtain ⟨digest, t', hdigest, h⟩ := Action.bind_ok.mp h
  obtain ⟨hsemantic, rfl⟩ := Action.ofExcept_ok.mp hdigest
  have hrequest : Admissible T t'.state.options.limits request digest :=
    ⟨malformedRegistration_none hmalformed, hsemantic, htext⟩
  refine ⟨hepoch, ?_⟩
  cases hfound : t'.state.findParticipant request.participant with
  | none =>
    simp only [hfound] at h
    rw [ht.find] at hfound
    unfold registerNew at h
    rw [Action.bind_current] at h
    split at h
    · cases h
      cases hr
    · next hroom =>
      exact .committed (.refl ht) hrequest (fun _ hp => absurd hp.symm (Option.some_ne_none _))
        (fun _ => ⟨hfound, Nat.lt_of_not_le hroom, hi, helsewhere⟩)
        (admitRegistration_registered h hr)
  | some p =>
    simp only [hfound] at h
    cases hconflict : t'.state.conflictingRegistration p request digest with
    | some result =>
      simp only [hconflict] at h
      cases h
      obtain ⟨previous, hattempt, hsame, rfl⟩ := conflictingRegistration_some hconflict hr
      rw [ht.find] at hfound
      exact .replayed hfound hsemantic hattempt hsame
    | none =>
      simp only [hconflict] at h
      obtain ⟨hretired, hfenced⟩ := hknown p hfound
      obtain ⟨hattempt, hpolicy, hlive⟩ := conflictingRegistration_none hconflict
      have hlookup : t'.state.state.lookup request.participant = some p := (ht.find _) ▸ hfound
      have hp : Eligible T request t'.state.state p := by
        refine ⟨hlookup, hretired, hattempt, hlive, hpolicy, fun hT hrecords => ?_, helsewhere⟩
        rw [(hagrees hT).boot.mpr hrecords] at hfenced
        cases hfenced
      obtain ⟨refusal, t₁, hreplace, h⟩ := Action.bind_ok.mp h
      cases refusal with
      | some result =>
        cases h
        exact absurd hr (replaceIncumbent_some hreplace)
      | none =>
        obtain ⟨hadvanced, hrenewable⟩ :=
          (replaceIncumbent_cases hfound hreplace).renewable ht rfl hi hagrees hp
        simp only [Action.bind_current] at h
        cases hagain : t₁.state.findParticipant request.participant with
        | none =>
          simp only [hagain] at h
          cases h
        | some q =>
          simp only [hagain] at h
          refine .committed hadvanced hrequest (fun q' hq' => ?_)
            (fun hnone => absurd hnone (Option.some_ne_none q)) (admitRegistration_registered h hr)
          cases hq'
          exact hrenewable q hagain

/-! ## Case by case -/

/-- What a registration may do before it decides: deal with the incumbent, for
whom the boot of the request is not live. -/
inductive Approach (request : RegisterParticipantRequest) (t : Txn Impl) : Txn Impl → Prop
  | direct : Approach request t t
  | incumbent {p : DurableParticipant} {refusal : Option RegistrationResult} {u : Txn Impl}
      (replace : replaceIncumbent request p t = .ok refusal u)
      (notLive : p.findIncarnation request.boot = none) : Approach request t u

/-- **Everything a registration that returns can have done**: it has answered
without a commit, or it has committed. -/
inductive RegistrationCase (request : RegisterParticipantRequest) (commitGeneration : Bool)
    (t : Txn Impl) : RegistrationResult → Txn Impl → Prop
  | answered {r : RegistrationResult} {u : Txn Impl} (approach : Approach request t u)
      (refused : r.outcome = .registered → r.replayed = true) :
      RegistrationCase request commitGeneration t r u
  | committed {digest : SnapshotDigest} {t' u : Txn Impl} {r : RegistrationResult}
      (semantic : computeSemanticDigest request.semantic = .ok digest)
      (approach : Approach request t t')
      (commit : commitRegistration request digest (t'.state.findParticipant request.participant)
        commitGeneration t' = .ok r u) :
      RegistrationCase request commitGeneration t r u

/-- The last check, and the commit behind it. -/
theorem admitRegistration_cases {request : RegisterParticipantRequest} {digest : SnapshotDigest}
    {commitGeneration : Bool} {t t' u : Txn Impl} {r : RegistrationResult}
    (hsemantic : computeSemanticDigest request.semantic = .ok digest)
    (happroach : Approach request t t')
    (h : admitRegistration request digest (t'.state.findParticipant request.participant)
      commitGeneration t' = .ok r u) : RegistrationCase request commitGeneration t r u := by
  by_cases hr : r.outcome = .registered
  · exact .committed hsemantic happroach (admitRegistration_registered h hr)
  · unfold admitRegistration at h
    rw [Action.bind_current] at h
    split at h
    · cases h
      exact .answered happroach fun hout => nomatch hout
    · exact .committed hsemantic happroach h

theorem applyRegistration_cases {request : RegisterParticipantRequest} {commitGeneration : Bool}
    {t u : Txn Impl} {r : RegistrationResult}
    (h : applyRegistration request commitGeneration t = .ok r u) :
    RegistrationCase request commitGeneration t r u := by
  unfold applyRegistration at h
  rw [Action.bind_current] at h
  cases hmalformed : t.state.malformedRegistration request with
  | some result =>
    simp only [hmalformed] at h
    cases h
    exact .answered .direct fun hout => absurd hout (malformedRegistration_some hmalformed)
  | none =>
  cases hstale : t.state.staleRegistration request with
  | some result =>
    simp only [hmalformed, hstale] at h
    cases h
    exact .answered .direct fun hout => absurd hout (staleRegistration_some hstale)
  | none =>
  simp only [hmalformed, hstale] at h
  obtain ⟨digest, t', hdigest, h⟩ := Action.bind_ok.mp h
  obtain ⟨hsemantic, rfl⟩ := Action.ofExcept_ok.mp hdigest
  cases hfound : t'.state.findParticipant request.participant with
  | none =>
    simp only [hfound] at h
    unfold registerNew at h
    rw [Action.bind_current] at h
    split at h
    · cases h
      exact .answered .direct fun hout => nomatch hout
    · exact admitRegistration_cases hsemantic .direct (hfound ▸ h)
  | some p =>
    simp only [hfound] at h
    cases hconflict : t'.state.conflictingRegistration p request digest with
    | some result =>
      simp only [hconflict] at h
      cases h
      refine .answered .direct fun hout => ?_
      -- a success against an existing record is a replay
      obtain ⟨previous, -, hsame, rfl⟩ := conflictingRegistration_some hconflict hout
      rw [Impl.replayedRegistration, if_neg (not_not.mpr hsame)]
    | none =>
      simp only [hconflict] at h
      have hnotLive := (conflictingRegistration_none hconflict).2.2
      obtain ⟨refusal, t₁, hreplace, h⟩ := Action.bind_ok.mp h
      cases refusal with
      | some result =>
        cases h
        exact .answered (.incumbent hreplace hnotLive) fun hout => absurd hout (replaceIncumbent_some hreplace)
      | none =>
        dsimp only at h
        rw [Action.bind_current] at h
        cases hagain : t₁.state.findParticipant request.participant with
        | none =>
          simp only [hagain] at h
          cases h
        | some q =>
          simp only [hagain] at h
          exact admitRegistration_cases hsemantic (.incumbent hreplace hnotLive) (hagain ▸ h)

theorem Approach.advanced {request : RegisterParticipantRequest} {t u : Txn Impl}
    (h : Approach request t u) (ht : t.state.Regular) :
    Advanced .nothing t.state.options.limits t u := by
  cases h with
  | direct => exact .refl ht
  | incumbent replace => exact replaceIncumbent_advanced ht rfl (fun h => h.elim) replace

/-- The record that is opened, and what a write to it leaves. -/
theorem openRecord_written {request : RegisterParticipantRequest} {t t₀ : Txn Impl}
    {p : DurableParticipant} (ht : t.state.Regular)
    (h : openRecord request (t.state.findParticipant request.participant) t = .ok p t₀) :
    (p ∈ t.state.state.participants ∨ p = .fresh request.participant request.policy) ∧
      p.id = request.participant ∧ t₀.state.options = t.state.options ∧
      ∀ g f, ∀ q ∈ ((t₀.state.setRegistrationFloor g).updateParticipant request.participant
        f).state.participants, q = f p ∨ q ∈ t.state.state.participants ∧ q.id ≠ request.participant := by
  cases hfound : t.state.findParticipant request.participant with
  | some p' =>
    rw [hfound] at h
    cases h
    rw [ht.find] at hfound
    obtain ⟨hmem, hid⟩ := DurableState.mem_of_lookup hfound
    refine ⟨.inl hmem, hid, rfl, fun g f q hq => ?_⟩
    have hregular : (t.state.setRegistrationFloor g).Regular :=
      ht.setState (f := fun s => { s with registrationFloor := g }) rfl rfl
    have hq' : q ∈ ((t.state.setRegistrationFloor g).updateParticipant request.participant
      f).state.participants := hq
    rw [hregular.update] at hq'
    rcases DurableState.mem_updateParticipant hq' with ⟨p', hp', hid', rfl⟩ | hother
    · exact .inl (congrArg f (ht.orderly.eq_of_lookup hfound hp' hid'))
    · exact .inr hother
  | none =>
    rw [hfound] at h
    cases h
    rw [ht.find] at hfound
    refine ⟨.inr rfl, rfl, rfl, fun g f q hq => ?_⟩
    -- the index points behind the records that were there
    unfold Impl.updateParticipant at hq
    rw [show ((t.state.createParticipant request.participant
      request.policy).setRegistrationFloor g).participantIndex request.participant =
        some t.state.state.participants.length from if_pos rfl] at hq
    have hq' : q ∈ (t.state.state.participants ++ [DurableParticipant.fresh request.participant
      request.policy]).modify t.state.state.participants.length f := hq
    rw [modify_concat] at hq'
    rcases List.mem_append.mp hq' with hold | hnew
    · exact .inr ⟨hold, lookup_none.mp hfound q hold⟩
    · exact .inl (List.mem_singleton.mp hnew)

/-- **What a commit writes**: the record of the participant, found or created,
and no other. -/
theorem commitRegistration_records {request : RegisterParticipantRequest}
    {digest : SnapshotDigest} {commitGeneration : Bool} {t u : Txn Impl} {r : RegistrationResult}
    (ht : t.state.Regular)
    (h : commitRegistration request digest (t.state.findParticipant request.participant)
      commitGeneration t = .ok r u) :
    ∃ p g next, (p ∈ t.state.state.participants ∨ p = .fresh request.participant request.policy) ∧
      p.id = request.participant ∧ r.outcome = .registered ∧ r.replayed = false ∧
      r.incarnation = some p.nextIncarnation ∧
      ∀ q ∈ u.state.state.participants,
        q = p.register t.state.options.limits request digest g p.nextIncarnation next ∨
          q ∈ t.state.state.participants ∧ q.id ≠ request.participant := by
  obtain ⟨p, t₀, g, next, t₁, t₂, hopen, -, -, ht₁, hbump, rfl, hout, hincarnation, -, hreplayed⟩ :=
    commitRegistration_ok h
  obtain ⟨hp, hid, hoptions, hwritten⟩ := openRecord_written ht hopen
  have hbumped : t₂.state.state.participants = t₁.state.state.participants := by
    rcases bumpWhen_ok hbump with ⟨-, rfl⟩ | ⟨_, -, rfl⟩
    · rfl
    · rfl
  refine ⟨p, g, next, hp, hid, hout, hreplayed, hincarnation, fun q hq => ?_⟩
  have hq' : q ∈ t₂.state.state.participants := hq
  rw [hbumped, ht₁, hoptions] at hq'
  exact hwritten g _ q hq'

/-! ## Batches -/

/-- Each element of a batch, where its turn comes, satisfies the condition. -/
def AlongBatch (ok : Impl → RegisterParticipantRequest → Prop) :
    List RegisterParticipantRequest → Txn Impl → Prop
  | [], _ => True
  | request :: requests, t => ok t.state request ∧
      ∀ r u, applyRegistration request false t = .ok r u → AlongBatch ok requests u

/-- It can be evaluated along a batch. -/
def decideAlongBatch {ok : Impl → RegisterParticipantRequest → Prop}
    [∀ impl request, Decidable (ok impl request)] :
    (requests : List RegisterParticipantRequest) → (t : Txn Impl) →
      Decidable (AlongBatch ok requests t)
  | [], _ => isTrue trivial
  | request :: requests, t =>
    match h : applyRegistration request false t with
    | .ok r u =>
      have : Decidable (AlongBatch ok requests u) := decideAlongBatch requests u
      decidable_of_iff (ok t.state request ∧ AlongBatch ok requests u)
        ⟨fun h' => ⟨h'.1, fun r' u' hu' => by cases h.symm.trans hu'; exact h'.2⟩,
          fun h' => ⟨h'.1, h'.2 r u h⟩⟩
    | .error _ _ =>
      decidable_of_iff (ok t.state request)
        ⟨fun h' => ⟨h', fun r' u' hu' => by cases h.symm.trans hu'⟩, fun h' => h'.1⟩

instance {ok : Impl → RegisterParticipantRequest → Prop}
    [∀ impl request, Decidable (ok impl request)] (requests : List RegisterParticipantRequest)
    (t : Txn Impl) : Decidable (AlongBatch ok requests t) :=
  decideAlongBatch requests t

/-- The boot of the request is live for no other participant. -/
def Impl.NotElsewhere (impl : Impl) (request : RegisterParticipantRequest) : Prop :=
  ∀ q ∈ impl.state.participants, q.id ≠ request.participant → request.boot ∉ q.liveBoots

/-- **The elements of a batch** move one after the other. -/
theorem applyRegistrations_advanced {T : Trust} {limits : Limits}
    {requests : List RegisterParticipantRequest} {t u : Txn Impl} {rs : List RegistrationResult}
    (ht : t.state.Regular) (hlimits : t.state.options.limits = limits)
    (hi : T.fences → Incumbency t.state.state)
    (hagrees : T.fences → AlongBatch Impl.LookupsAgree requests t)
    (helsewhere : T.boots → AlongBatch Impl.NotElsewhere requests t)
    (htext : T.texts → ∀ request ∈ requests, request.WellFormed)
    (h : applyRegistrations requests t = .ok rs u) : Advanced T limits t u := by
  induction requests generalizing t rs with
  | nil =>
    cases h
    exact .refl ht
  | cons request requests ih =>
    obtain ⟨r, t', hfirst, h⟩ := Action.bind_ok.mp h
    obtain ⟨rs', u', hrest, h⟩ := Action.bind_ok.mp h
    cases h
    have hadvanced := applyRegistration_advanced ht hlimits hi (fun hT => (hagrees hT).1)
      (fun hT => (helsewhere hT).1) (fun hT => htext hT request (List.mem_cons_self ..)) hfirst
    refine hadvanced.trans (ih hadvanced.regular (by rw [hadvanced.options, hlimits])
      (fun hT => Moves.incumbency hadvanced.moves hT ht.orderly (hi hT))
      (fun hT => (hagrees hT).2 r t' hfirst) (fun hT => (helsewhere hT).2 r t' hfirst)
      (fun hT request hr => htext hT request (List.mem_cons_of_mem _ hr)) hrest)

theorem registerBatch_advanced {T : Trust} {limits : Limits}
    {requests : List RegisterParticipantRequest} {t u : Txn Impl} {rs : List RegistrationResult}
    (ht : t.state.Regular) (hfresh : t.mutated = false)
    (hlimits : t.state.options.limits = limits) (hi : T.fences → Incumbency t.state.state)
    (hagrees : T.fences → AlongBatch Impl.LookupsAgree requests t)
    (helsewhere : T.boots → AlongBatch Impl.NotElsewhere requests t)
    (htext : T.texts → ∀ request ∈ requests, request.WellFormed)
    (h : registerBatch requests t = .ok rs u) : Advanced T limits t u := by
  obtain ⟨rs', t', hall, h⟩ := Action.bind_ok.mp h
  rw [Action.bind_hasMutated] at h
  obtain ⟨⟨⟩, u', hbump, h⟩ := Action.bind_ok.mp h
  cases h
  have hadvanced := applyRegistrations_advanced ht hlimits hi hagrees helsewhere htext hall
  obtain ⟨hmoves, hregular, hoptions, hmutated⟩ :=
    bumpWhen_moves T limits hadvanced.regular hbump
  refine ⟨hadvanced.moves.trans hmoves, hregular, hoptions.trans hadvanced.options, ?_⟩
  rcases hadvanced.marked with rfl | hmarked
  · -- nothing was mutated, so nothing was bumped
    rcases bumpWhen_ok hbump with ⟨-, rfl⟩ | ⟨-, -, -⟩
    · exact .inl rfl
    · rw [hfresh] at hbump
      cases hbump
      exact .inl rfl
  · exact .inr (hmutated.trans hmarked)

end FabricEpoch
