import FabricEpoch.Runtime.Evolution

/-!
# Batches of registrations

A batch evaluates its elements one after the other in one transaction, and
passes the durability barrier once; the indexes are rebuilt behind the barrier.
Calls of their own pass the barrier each. The difference shows where an element
fences an incumbent: the fence index does not know of it, and the fence has a
generation of its own.

- `registerEach`: the requests as calls of their own;
- `BatchAgrees`: the same answers and the same state, under one generation;
- `Tracks`: the memory of a batch that has fenced nobody, beside the memory of
  the calls;
- `batchAgrees_iff`: the batch means the same exactly where no element fences.
-/

namespace FabricEpoch

open Table Transaction

/-! ## Two ways to register -/

/-- `register_participant` for one request after the other. -/
def registerEach : List (RegisterParticipantRequest × Option SaveFault) → Disk → Impl →
    Transacted (List RegistrationResult)
  | [], disk, impl => ⟨impl, disk, .ok []⟩
  | (request, fault) :: rest, disk, impl =>
    let done := transact (applyRegistration request true) fault disk impl
    match done.result with
    | .error e => ⟨done.impl, done.disk, .error e⟩
    | .ok result => (registerEach rest done.disk done.impl).map (result :: ·)

/-- What an answer is compared by. -/
def RegistrationResult.issue (r : RegistrationResult) :
    RegistrationOutcome × Option RegistrationGeneration × Option IncarnationSequence :=
  (r.outcome, r.registrationGeneration, r.incarnation)

/-- `check_indexes`: every index is what the records give rise to. -/
def Impl.IndexesMatch (impl : Impl) : Prop := impl.rebuildIndexes = impl

/-- A batch of a memory means the same as calls of their own: position by
position the same answer, the same state but for its generation, and one
generation if anything was committed. -/
structure BatchAgrees (impl : Impl) (rs : List RegistrationResult) (batch : Impl)
    (rs' : List RegistrationResult) (each : Impl) : Prop where
  answers : rs.map (·.issue) = rs'.map (·.issue)
  state : batch.state = { each.state with generation := batch.state.generation }
  generation : batch.state ≠ impl.state →
    batch.state.generation.value = impl.state.generation.value + 1

/-- The request passes every check in front of the incumbent, and the incumbent
is to be replaced and not fenced yet. -/
def Impl.fencesIncumbent (impl : Impl) (request : RegisterParticipantRequest) : Bool :=
  (impl.malformedRegistration request).isNone && (impl.staleRegistration request).isNone &&
    match computeSemanticDigest request.semantic, impl.findParticipant request.participant with
    | .ok digest, some p =>
      (impl.conflictingRegistration p request digest).isNone &&
        p.policy == .singleIncarnation && impl.options.replacementPolicy == .replaceIncumbent &&
        p.incumbent.any fun boot => !(impl.lookupFence request.participant boot).fenced
    | _, _ => false

/-! ## Memories that look the same to a registration -/

/-- Everything a registration reads. -/
structure SameView (a b : Impl) : Prop where
  options : b.options = a.options
  epoch : b.state.currentEpoch = a.state.currentEpoch
  coordinator : b.state.coordinatorBoot = a.state.coordinatorBoot
  find : ∀ id, b.findParticipant id = a.findParticipant id
  fences : ∀ id boot, b.lookupFence id boot = a.lookupFence id boot
  count : b.state.participants.length = a.state.participants.length
  workers : b.activeWorkers = a.activeWorkers
  floor : b.state.registrationFloor = a.state.registrationFloor

namespace SameView

variable {a b : Impl} (h : SameView a b)

include h

theorem registrationResult : b.registrationResult = a.registrationResult := by
  funext outcome explanation
  rw [Impl.registrationResult, Impl.registrationResult, h.epoch, h.coordinator]

theorem malformed (request : RegisterParticipantRequest) :
    b.malformedRegistration request = a.malformedRegistration request := by
  unfold Impl.malformedRegistration
  rw [h.registrationResult, h.options]

theorem stale (request : RegisterParticipantRequest) :
    b.staleRegistration request = a.staleRegistration request := by
  unfold Impl.staleRegistration
  rw [h.registrationResult, h.epoch, h.find, h.fences]

theorem conflicting (p : DurableParticipant) (request : RegisterParticipantRequest)
    (digest : SnapshotDigest) :
    b.conflictingRegistration p request digest = a.conflictingRegistration p request digest := by
  unfold Impl.conflictingRegistration Impl.conflictingRegistration.conflictingIncarnation
    Impl.replayedRegistration
  rw [h.registrationResult]

end SameView

/-! ## One registration beside the other -/

theorem fencesIncumbent_iff {impl : Impl} {request : RegisterParticipantRequest} :
    impl.fencesIncumbent request = true ↔ impl.malformedRegistration request = none ∧
      impl.staleRegistration request = none ∧ ∃ digest p,
        computeSemanticDigest request.semantic = .ok digest ∧
        impl.findParticipant request.participant = some p ∧
        impl.conflictingRegistration p request digest = none ∧ p.policy = .singleIncarnation ∧
        impl.options.replacementPolicy = .replaceIncumbent ∧ ∃ boot, p.incumbent = some boot ∧
          (impl.lookupFence request.participant boot).fenced = false := by
  unfold Impl.fencesIncumbent
  cases computeSemanticDigest request.semantic with
  | error e => simp
  | ok digest =>
    cases impl.findParticipant request.participant with
    | none => simp
    | some p => simp [Option.any_eq_true, and_assoc]

section Parallel

variable {request : RegisterParticipantRequest} {t t' : Txn Impl} {p : DurableParticipant}

/-- An incumbent that is not fenced here is treated alike. -/
theorem replaceIncumbent_parallel (hview : SameView t.state t'.state)
    (hfound : t.state.findParticipant request.participant = some p)
    (hcalm : p.policy = .singleIncarnation →
      t.state.options.replacementPolicy = .replaceIncumbent →
      ∀ boot, p.incumbent = some boot →
        (t.state.lookupFence request.participant boot).fenced = true) :
    ∃ refusal, replaceIncumbent request p t = .ok refusal t ∧
      replaceIncumbent request p t' = .ok refusal t' := by
  unfold replaceIncumbent
  cases hincumbent : p.incumbent with
  | none => exact ⟨none, rfl, rfl⟩
  | some incumbent =>
    dsimp only
    by_cases hpolicy : p.policy = .singleIncarnation
    swap
    · rw [if_neg hpolicy]
      exact ⟨none, rfl, rfl⟩
    rw [if_pos hpolicy, Action.bind_current, Action.bind_current, hview.options]
    cases hreplace : t.state.options.replacementPolicy with
    | requireExplicitFence =>
      dsimp only
      rw [hview.registrationResult]
      exact ⟨_, rfl, rfl⟩
    | replaceIncumbent =>
      dsimp only
      have hfenced := hcalm hpolicy hreplace incumbent hincumbent
      have hfound' : t'.state.findParticipant request.participant = some p :=
        (hview.find _).trans hfound
      have hfenced' : (t'.state.lookupFence request.participant incumbent).fenced = true := by
        rw [hview.fences]
        exact hfenced
      obtain ⟨r, hr, hrun⟩ : ∃ r, r.outcome = .alreadyFenced ∧
          recordFence request.participant incumbent .reincarnation .blank false t = .ok r t :=
        recordFence_already hfound hfenced
      obtain ⟨r', hr', hrun'⟩ : ∃ r, r.outcome = .alreadyFenced ∧
          recordFence request.participant incumbent .reincarnation .blank false t' = .ok r t' :=
        recordFence_already hfound' hfenced'
      refine ⟨none, ?_, ?_⟩
      · rw [Action.bind_run, hrun]
        simp [hr]
      · rw [Action.bind_run, hrun']
        simp [hr']

/-- The limit of active workers, beside each other. -/
theorem admitRegistration_parallel {digest : SnapshotDigest}
    {participant : Option DurableParticipant} {c c' : Bool} {u u' : Txn Impl}
    {r r' : RegistrationResult} (hview : SameView t.state t'.state)
    (h : admitRegistration request digest participant c t = .ok r u)
    (h' : admitRegistration request digest participant c' t' = .ok r' u') :
    r = r' ∧ u = t ∧ u' = t' ∨
      commitRegistration request digest participant c t = .ok r u ∧
        commitRegistration request digest participant c' t' = .ok r' u' := by
  unfold admitRegistration at h h'
  rw [Action.bind_current] at h h'
  rw [hview.workers, hview.options, hview.registrationResult] at h'
  split at h
  · next hfull =>
    rw [if_pos hfull] at h'
    cases h
    cases h'
    exact .inl ⟨rfl, rfl, rfl⟩
  · next hroom =>
    rw [if_neg hroom] at h'
    exact .inr ⟨h, h'⟩

/-- **Two registrations of one request** that fence nobody, over memories that
look the same: the same answer and no change, or a commit of both. -/
theorem applyRegistration_parallel {c c' : Bool} {u u' : Txn Impl} {r r' : RegistrationResult}
    (hview : SameView t.state t'.state) (hcalm : t.state.fencesIncumbent request = false)
    (h : applyRegistration request c t = .ok r u)
    (h' : applyRegistration request c' t' = .ok r' u') :
    r = r' ∧ u = t ∧ u' = t' ∨
      ∃ digest participant, participant = t.state.findParticipant request.participant ∧
        commitRegistration request digest participant c t = .ok r u ∧
        commitRegistration request digest participant c' t' = .ok r' u' := by
  unfold applyRegistration at h h'
  rw [Action.bind_current] at h h'
  rw [hview.malformed, hview.stale, hview.find] at h'
  cases hmalformed : t.state.malformedRegistration request with
  | some result =>
    simp only [hmalformed] at h h'
    obtain ⟨rfl, rfl⟩ := Action.pure_ok.mp h
    obtain ⟨rfl, rfl⟩ := Action.pure_ok.mp h'
    exact .inl ⟨rfl, rfl, rfl⟩
  | none =>
  cases hstale : t.state.staleRegistration request with
  | some result =>
    simp only [hmalformed, hstale] at h h'
    obtain ⟨rfl, rfl⟩ := Action.pure_ok.mp h
    obtain ⟨rfl, rfl⟩ := Action.pure_ok.mp h'
    exact .inl ⟨rfl, rfl, rfl⟩
  | none =>
  simp only [hmalformed, hstale] at h h'
  obtain ⟨digest, t₁, hdigest, h⟩ := Action.bind_ok.mp h
  obtain ⟨hsemantic, rfl⟩ := Action.ofExcept_ok.mp hdigest
  obtain ⟨digest', t₁', hdigest', hrest'⟩ := Action.bind_ok.mp h'
  clear h'
  obtain ⟨hsemantic', rfl⟩ := Action.ofExcept_ok.mp hdigest'
  obtain rfl : digest = digest' := Except.ok.inj (hsemantic.symm.trans hsemantic')
  cases hfound : t₁.state.findParticipant request.participant with
  | none =>
    simp only [hfound] at h hrest'
    unfold registerNew at h hrest'
    rw [Action.bind_current] at h hrest'
    rw [hview.count, hview.options, hview.registrationResult] at hrest'
    split at h
    · next hfull =>
      rw [if_pos hfull] at hrest'
      obtain ⟨rfl, rfl⟩ := Action.pure_ok.mp h
      obtain ⟨rfl, rfl⟩ := Action.pure_ok.mp hrest'
      exact .inl ⟨rfl, rfl, rfl⟩
    · next hroom =>
      rw [if_neg hroom] at hrest'
      rcases admitRegistration_parallel hview h hrest' with hsame | hcommit
      · exact .inl hsame
      · exact .inr ⟨digest, none, rfl, hcommit⟩
  | some p =>
    simp only [hfound] at h hrest'
    rw [hview.conflicting] at hrest'
    cases hconflict : t₁.state.conflictingRegistration p request digest with
    | some result =>
      simp only [hconflict] at h hrest'
      obtain ⟨rfl, rfl⟩ := Action.pure_ok.mp h
      obtain ⟨rfl, rfl⟩ := Action.pure_ok.mp hrest'
      exact .inl ⟨rfl, rfl, rfl⟩
    | none =>
      simp only [hconflict] at h hrest'
      -- nobody is fenced, so the incumbent does not part the two
      obtain ⟨refusal, hrun, hrun'⟩ := replaceIncumbent_parallel (p := p) hview hfound
        fun hpolicy hreplace boot hboot => by
          by_contra hfree
          rw [Bool.not_eq_true] at hfree
          rw [fencesIncumbent_iff.mpr ⟨hmalformed, hstale, digest, p, hsemantic, hfound, hconflict,
            hpolicy, hreplace, boot, hboot, hfree⟩] at hcalm
          cases hcalm
      unfold registerExisting at h hrest'
      rw [Action.bind_run, hrun] at h
      rw [Action.bind_run, hrun'] at hrest'
      cases refusal with
      | some result =>
        obtain ⟨rfl, rfl⟩ := Action.pure_ok.mp h
        obtain ⟨rfl, rfl⟩ := Action.pure_ok.mp hrest'
        exact .inl ⟨rfl, rfl, rfl⟩
      | none =>
        dsimp only at h hrest'
        rw [Action.bind_current] at h hrest'
        rw [hview.find] at hrest'
        simp only [hfound] at h hrest'
        rcases admitRegistration_parallel hview h hrest' with hsame | hcommit
        · exact .inl hsame
        · exact .inr ⟨digest, some p, rfl, hcommit⟩

end Parallel

/-! ## A commit beside the other -/

/-- The records behind a commit that rewrites the record of the request. -/
def enrolled (request : RegisterParticipantRequest) (f : DurableParticipant → DurableParticipant)
    (ps : List DurableParticipant) : List DurableParticipant :=
  match lookup DurableParticipant.id ps request.participant with
  | some _ => updateKey DurableParticipant.id request.participant f ps
  | none => ps ++ [f (.fresh request.participant request.policy)]

section Enrolled

variable {request : RegisterParticipantRequest} {f : DurableParticipant → DurableParticipant}
  {ps qs : List DurableParticipant}

theorem nodup_enrolled (hf : ∀ p, (f p).id = p.id) (hn : (ps.map (·.id)).Nodup) :
    ((enrolled request f ps).map (·.id)).Nodup := by
  unfold enrolled
  cases hfound : lookup DurableParticipant.id ps request.participant with
  | some p =>
    dsimp only
    rw [map_key_updateKey hf]
    exact hn
  | none =>
    dsimp only
    rw [List.map_append, List.map_singleton, hf]
    refine List.nodup_append.mpr ⟨hn, List.nodup_singleton _, fun id hid id' hid' => ?_⟩
    obtain ⟨p, hp, rfl⟩ := List.mem_map.mp hid
    rw [List.mem_singleton.mp hid']
    exact lookup_none.mp hfound p hp

/-- The order of the records does not matter. -/
theorem enrolled_perm (hperm : ps.Perm qs) (hn : (ps.map (·.id)).Nodup) :
    (enrolled request f ps).Perm (enrolled request f qs) := by
  unfold enrolled
  rw [lookup_perm hperm hn]
  cases lookup DurableParticipant.id ps request.participant with
  | some p => exact hperm.map _
  | none => exact hperm.append_right _

/-- One more boot is live. -/
theorem sum_enrolled (hf : ∀ p, (f p).liveBoots.length = p.liveBoots.length + 1)
    (hn : (ps.map (·.id)).Nodup) :
    ((enrolled request f ps).map fun p => p.liveBoots.length).sum =
      (ps.map fun p => p.liveBoots.length).sum + 1 := by
  unfold enrolled
  cases hfound : lookup DurableParticipant.id ps request.participant with
  | some p =>
    obtain ⟨hp, hid⟩ := lookup_some hfound
    dsimp only
    rw [← hid]
    have hsum : ((updateKey DurableParticipant.id p.id f ps).map fun p => p.liveBoots.length).sum +
        p.liveBoots.length = (ps.map fun p => p.liveBoots.length).sum + (f p).liveBoots.length :=
      sum_updateKey hn hp
    rw [hf] at hsum
    omega
  | none =>
    dsimp only
    rw [List.map_append, List.map_singleton, List.sum_append, List.sum_singleton, hf]
    rfl

end Enrolled

/-- A registration adds one boot. -/
theorem DurableParticipant.length_liveBoots_register (p : DurableParticipant) (limits : Limits)
    (request : RegisterParticipantRequest) (digest : SnapshotDigest) (g : RegistrationGeneration)
    (i next : IncarnationSequence) :
    (p.register limits request digest g i next).liveBoots.length = p.liveBoots.length + 1 := by
  unfold register addIncarnation liveBoots
  cases hactive : p.hasActiveBoot with
  | true => simp [remember, Nat.add_assoc]
  | false => simp [remember]

/-- **The identifiers behind a commit**: a new one stands last. -/
theorem commitRegistration_ids {request : RegisterParticipantRequest} {digest : SnapshotDigest}
    {participant : Option DurableParticipant} {c : Bool} {t u : Txn Impl} {r : RegistrationResult}
    (h : commitRegistration request digest participant c t = .ok r u) :
    u.state.ids = t.state.ids ++ if participant = none then [request.participant] else [] := by
  obtain ⟨p, t₀, g, next, t₁, t₂, hopen, -, -, ht₁, hbump, rfl, -, -, -, -⟩ := commitRegistration_ok h
  have hids₁ : t₁.state.ids = t₀.state.ids := by
    rw [ht₁]
    exact ((Impl.quiet_bindBoot _).ids.trans
      (Impl.quiet_updateParticipant (fun p => p.register_id _ _ _ _ _ _) _ _).ids).trans
        (Impl.quiet_setRegistrationFloor _).ids
  have hids₂ : t₂.state.ids = t₁.state.ids := by
    rcases bumpWhen_ok hbump with ⟨-, rfl⟩ | ⟨_, -, rfl⟩
    · rfl
    · rfl
  show t₂.state.ids = _
  rw [hids₂, hids₁]
  cases participant with
  | some q =>
    cases hopen
    rw [if_neg (Option.some_ne_none _), List.append_nil]
  | none =>
    cases hopen
    rw [if_pos rfl]
    exact List.map_append

/-- What a commit makes of a memory whose index is right. -/
structure Enrols (request : RegisterParticipantRequest) (f : DurableParticipant → DurableParticipant)
    (g : RegistrationGeneration) (generation : EpochGeneration) (impl impl' : Impl) : Prop where
  state : impl'.state = { impl.state with
    participants := enrolled request f impl.state.participants
    registrationFloor := g
    generation }
  index : impl'.Indexed
  fences : impl'.fenceIndex = impl.fenceIndex
  workers : impl'.activeWorkers = impl.activeWorkers + 1
  options : impl'.options = impl.options

theorem Enrols.bump {request : RegisterParticipantRequest}
    {f : DurableParticipant → DurableParticipant} {g : RegistrationGeneration}
    {generation : EpochGeneration} {impl impl' : Impl} (h : Enrols request f g generation impl impl')
    (generation' : EpochGeneration) :
    Enrols request f g generation' impl (impl'.setGeneration generation') where
  state := by
    show { impl'.state with generation := generation' } = _
    rw [h.state]
  index := h.index
  fences := h.fences
  workers := h.workers
  options := h.options

/-- The record that is opened, and the memory with that record rewritten. -/
theorem openRecord_enrols {request : RegisterParticipantRequest} {t t₀ : Txn Impl}
    {p : DurableParticipant} (hindex : t.state.Indexed) (hn : t.state.ids.Nodup)
    (h : openRecord request (t.state.findParticipant request.participant) t = .ok p t₀) :
    (t.state.findParticipant request.participant).getD
        (.fresh request.participant request.policy) = p ∧
      t₀.state.state.registrationFloor = t.state.state.registrationFloor ∧
      t₀.state.options = t.state.options ∧
      ∀ g f, (∀ q : DurableParticipant, (f q).id = q.id) →
        Enrols request f g t.state.state.generation t.state (Impl.bindBoot request.participant
          request.boot ((t₀.state.setRegistrationFloor g).updateParticipant request.participant f)) := by
  cases hfound : t.state.findParticipant request.participant with
  | some q =>
    rw [hfound] at h
    cases h
    refine ⟨rfl, rfl, rfl, fun g f hf => ?_⟩
    rw [hindex.find] at hfound
    have hfloored : (t.state.setRegistrationFloor g).Indexed := hindex
    have hupdate : (t.state.setRegistrationFloor g).updateParticipant request.participant f =
        (t.state.setRegistrationFloor g).mapState (·.updateParticipant request.participant f) :=
      hfloored.update hn _ f
    show Enrols request f g t.state.state.generation t.state (Impl.bindBoot request.participant
      request.boot ((t.state.setRegistrationFloor g).updateParticipant request.participant f))
    rw [hupdate]
    refine ⟨?_, fun id i => ?_, rfl, rfl, rfl⟩
    · rw [enrolled, show lookup DurableParticipant.id t.state.state.participants
        request.participant = some p from hfound]
      rfl
    · show t.state.participantIndex id = some i ↔ ((updateKey DurableParticipant.id
        request.participant f t.state.state.participants).map (·.id))[i]? = some id
      rw [map_key_updateKey hf]
      exact hindex id i
  | none =>
    rw [hfound] at h
    cases h
    refine ⟨rfl, rfl, rfl, fun g f hf => ?_⟩
    rw [hindex.find] at hfound
    have hnew : request.participant ∉ t.state.ids := by
      intro hmem
      obtain ⟨q, hq, hid⟩ := List.mem_map.mp hmem
      exact lookup_none.mp hfound q hq hid
    have hcreated := hindex.create hnew request.policy
    -- the index points behind the records that were there
    have hplace : ((t.state.createParticipant request.participant
        request.policy).setRegistrationFloor g).participantIndex request.participant =
          some t.state.state.participants.length := if_pos rfl
    have hupdate : ((t.state.createParticipant request.participant
        request.policy).setRegistrationFloor g).updateParticipant request.participant f =
          ((t.state.createParticipant request.participant request.policy).setRegistrationFloor
            g).mapState fun s => { s with
              participants := t.state.state.participants ++
                [f (.fresh request.participant request.policy)] } := by
      have hmodify := modify_concat t.state.state.participants
        (DurableParticipant.fresh request.participant request.policy) f
      unfold Impl.updateParticipant
      rw [hplace]
      simp only [Impl.mapState, Impl.setRegistrationFloor, Impl.createParticipant, hmodify]
    show Enrols request f g t.state.state.generation t.state (Impl.bindBoot request.participant
      request.boot (((t.state.createParticipant request.participant
        request.policy).setRegistrationFloor g).updateParticipant request.participant f))
    rw [hupdate]
    refine ⟨?_, fun id i => ?_, rfl, rfl, rfl⟩
    · rw [enrolled, show lookup DurableParticipant.id t.state.state.participants
        request.participant = none from hfound]
      rfl
    · have hids : (t.state.state.participants ++ [f (.fresh request.participant
          request.policy)]).map (fun p : DurableParticipant => p.id) =
            (t.state.createParticipant request.participant request.policy).ids := by
        show _ = (t.state.state.participants ++
          [DurableParticipant.fresh request.participant request.policy]).map
            fun p : DurableParticipant => p.id
        rw [List.map_append, List.map_append, List.map_singleton, List.map_singleton, hf]
      show (t.state.createParticipant request.participant request.policy).participantIndex id =
        some i ↔ ((t.state.state.participants ++ [f (.fresh request.participant
          request.policy)]).map (fun p : DurableParticipant => p.id))[i]? = some id
      rw [hids]
      exact hcreated id i

/-- A commit inside a batch leaves the generation to the batch. -/
theorem commitRegistration_generation {request : RegisterParticipantRequest}
    {digest : SnapshotDigest} {participant : Option DurableParticipant} {t u : Txn Impl}
    {r : RegistrationResult} (h : commitRegistration request digest participant false t = .ok r u) :
    u.state.state.generation = t.state.state.generation := by
  obtain ⟨p, t₀, g, next, t₁, t₂, hopen, -, -, ht₁, hbump, rfl, -⟩ := commitRegistration_ok h
  obtain ⟨-, rfl⟩ := Action.pure_ok.mp hbump
  have hopened : t₀.state.state.generation = t.state.state.generation := by
    cases participant with
    | none =>
      cases hopen
      rfl
    | some q =>
      cases hopen
      rfl
  show t₂.state.state.generation = t.state.state.generation
  rw [ht₁]
  show (Impl.updateParticipant _ _ _).state.generation = _
  rw [generation_updateParticipant]
  exact hopened

/-- **A commit**, its answer and its memory. -/
theorem commitRegistration_enrols {request : RegisterParticipantRequest} {digest : SnapshotDigest}
    {c : Bool} {t u : Txn Impl} {r : RegistrationResult} (hindex : t.state.Indexed)
    (hn : t.state.ids.Nodup)
    (h : commitRegistration request digest (t.state.findParticipant request.participant) c t =
      .ok r u) :
    ∃ p g next generation, (t.state.findParticipant request.participant).getD
        (.fresh request.participant request.policy) = p ∧
      t.state.state.registrationFloor.next = some g ∧ p.nextIncarnation.next = some next ∧
      Enrols request (·.register t.state.options.limits request digest g p.nextIncarnation next) g
        generation t.state u.state ∧
      r.issue = (.registered, some g, some p.nextIncarnation) := by
  obtain ⟨p, t₀, g, next, t₁, t₂, hopen, hfloor, hnext, ht₁, hbump, rfl, hout, hincarnation,
    hgeneration, -⟩ := commitRegistration_ok h
  obtain ⟨hp, hfloor', hoptions, henrols⟩ := openRecord_enrols hindex hn hopen
  have hissue : r.issue = (.registered, some g, some p.nextIncarnation) := by
    rw [RegistrationResult.issue, hout, hincarnation, hgeneration]
  have hwritten := henrols g
    (·.register t.state.options.limits request digest g p.nextIncarnation next)
    (fun q => q.register_id _ _ _ _ _ _)
  rw [hoptions] at ht₁
  rw [← ht₁] at hwritten
  rw [hfloor'] at hfloor
  rcases bumpWhen_ok hbump with ⟨-, rfl⟩ | ⟨generation, -, rfl⟩
  · exact ⟨p, g, next, _, hp, hfloor, hnext, hwritten, hissue⟩
  · exact ⟨p, g, next, generation, hp, hfloor, hnext, hwritten.bump generation, hissue⟩

/-! ## A batch beside the calls -/

/-- The canonical order is the one order of the records by their identifiers. -/
theorem canonicalize_sorted (impl : Impl) :
    impl.canonicalize.state.participants.Pairwise fun p q => p.id ≤ q.id := by
  have total : Std.Total fun p q : DurableParticipant => p.id ≤ q.id :=
    ⟨fun p q => p.id.le_total q.id⟩
  have trans : IsTrans DurableParticipant fun p q => p.id ≤ q.id :=
    ⟨fun _ _ _ => ParticipantId.le_trans⟩
  exact List.pairwise_insertionSort _ _

/-- Nothing with two records of one participant is saved. -/
theorem nodup_of_encode {state : DurableState} {image : ByteCodec.Bytes}
    (h : EpochStore.encode state = .ok image) : (state.participants.map (·.id)).Nodup := by
  obtain ⟨-, hvalid, -⟩ := EpochStore.encode_ok.mp h
  by_cases hepoch : state.currentEpoch.value = 0
  · rw [(hvalid.pristine hepoch).1]
    exact List.nodup_nil
  · exact (hvalid.established hepoch).participantIds

/-- The memory of a batch that has fenced nobody, and the memory of the calls:
the records in another order, under another generation. -/
structure Tracks (a b : Impl) : Prop where
  options : b.options = a.options
  state : ∃ ps g, a.state.participants.Perm ps ∧
    b.state = { a.state with participants := ps, generation := g }
  matching : b.IndexesMatch
  index : a.ids.Nodup → a.Indexed
  find : ∀ id, b.findParticipant id = a.findParticipant id
  fences : b.fenceIndex = a.fenceIndex
  workers : b.activeWorkers = a.activeWorkers

namespace Tracks

variable {a b : Impl}

theorem refl (h : a.IndexesMatch) : Tracks a a := by
  refine ⟨rfl, ⟨_, _, List.Perm.refl _, rfl⟩, h, fun hn => ?_, fun _ => rfl, rfl, rfl⟩
  have hindexed := Impl.Indexed.rebuild hn
  rwa [h] at hindexed

theorem view (h : Tracks a b) : SameView a b := by
  obtain ⟨ps, g, hperm, hstate⟩ := h.state
  refine ⟨h.options, ?_, ?_, h.find, fun id boot => ?_, ?_, h.workers, ?_⟩
  · rw [hstate]
  · rw [hstate]
  · have hrecord : b.fenceRecordAt id = a.fenceRecordAt id := by
      funext i
      rw [Impl.fenceRecordAt, Impl.fenceRecordAt, hstate]
    rw [Impl.lookupFence, Impl.lookupFence, h.fences, hrecord, h.find]
  · rw [hstate]
    exact hperm.length_eq.symm
  · rw [hstate]

/-- Both have committed one registration, and the calls have passed the
barrier. -/
theorem enrols {request : RegisterParticipantRequest} {f : DurableParticipant → DurableParticipant}
    {g : RegistrationGeneration} {n n' : EpochGeneration} {a' b' : Impl} (h : Tracks a b)
    (hn : a.ids.Nodup) (hid : ∀ p, (f p).id = p.id)
    (hboot : ∀ p, (f p).liveBoots.length = p.liveBoots.length + 1)
    (ha : Enrols request f g n a a') (hb : Enrols request f g n' b b') :
    Tracks a' b'.canonicalize.rebuildIndexes := by
  obtain ⟨ps, g', hperm, hstate⟩ := h.state
  have hnb : (ps.map (·.id)).Nodup := (hperm.map _).nodup_iff.mp hn
  have hparticipants : a'.state.participants = enrolled request f a.state.participants := by
    rw [ha.state]
  have hparticipants' : b'.state.participants = enrolled request f ps := by
    rw [hb.state, hstate]
  have hperm' : a'.state.participants.Perm b'.canonicalize.state.participants := by
    have hsorted : b'.state.participants.Perm b'.canonicalize.state.participants :=
      insertionSort_perm _
    refine List.Perm.trans ?_ hsorted
    rw [hparticipants, hparticipants']
    exact enrolled_perm hperm hn
  have hn' : a'.ids.Nodup := by
    rw [Impl.ids, hparticipants]
    exact nodup_enrolled hid hn
  refine ⟨?_, ⟨_, n', hperm', ?_⟩, rfl, fun _ => ha.index, fun id => ?_, ?_, ?_⟩
  · rw [show b'.canonicalize.rebuildIndexes.options = b'.options from rfl, hb.options, ha.options,
      h.options]
  · show { b'.state with participants := b'.canonicalize.state.participants } = _
    rw [hb.state, hstate, ha.state]
  · have hindexed : b'.canonicalize.rebuildIndexes.Indexed :=
      Impl.Indexed.rebuild ((hperm'.map _).nodup_iff.mp hn')
    rw [hindexed.find, ha.index.find]
    exact lookup_perm hperm' hn' id
  · -- neither has touched a fence
    show groupBy (fun f => [f.boot]) b'.state.recentFences = a'.fenceIndex
    rw [ha.fences, ← h.fences, ← h.matching, hb.state]
    rfl
  · show (b'.canonicalize.state.participants.map fun p => p.liveBoots.length).sum = a'.activeWorkers
    have hcount : (b.state.participants.map fun p => p.liveBoots.length).sum = b.activeWorkers :=
      congrArg Impl.activeWorkers h.matching
    rw [← (hperm'.map _).sum_eq, hparticipants, (enrolled_perm hperm hn).map _ |>.sum_eq,
      sum_enrolled hboot hnb, ha.workers, ← h.workers, ← hcount, hstate]

end Tracks

/-- A stretch of a batch that fences nobody, beside the calls. -/
structure Alongside (t u : Txn Impl) (b b' : Impl) : Prop where
  tracks : Tracks u.state b'
  generation : u.state.state.generation = t.state.state.generation
  progress : u = t ∧ b' = b ∨
    u.mutated = true ∧ b'.state.participants.Pairwise fun p q => p.id ≤ q.id

namespace Alongside

variable {t u v : Txn Impl} {b b' b'' : Impl}

theorem refl (h : Tracks t.state b) : Alongside t t b b := ⟨h, rfl, .inl ⟨rfl, rfl⟩⟩

theorem trans (h₁ : Alongside t u b b') (h₂ : Alongside u v b' b'') : Alongside t v b b'' := by
  refine ⟨h₂.tracks, h₂.generation.trans h₁.generation, ?_⟩
  rcases h₂.progress with ⟨rfl, rfl⟩ | hprogress
  · exact h₁.progress
  · exact .inr hprogress

end Alongside

/-- **One registration** of a batch, and the call of its own. -/
theorem Tracks.step {request : RegisterParticipantRequest} {fault : Option SaveFault} {disk : Disk}
    {t u : Txn Impl} {b : Impl} {r r' : RegistrationResult} (h : Tracks t.state b)
    (hcalm : t.state.fencesIncumbent request = false)
    (hr : applyRegistration request false t = .ok r u)
    (hr' : (transact (applyRegistration request true) fault disk b).result = .ok r') :
    r.issue = r'.issue ∧
      Alongside t u b (transact (applyRegistration request true) fault disk b).impl := by
  obtain ⟨u', hu', hcases⟩ := transact_ok hr'
  have hview : SameView t.state (Txn.start b).state := h.view
  rcases applyRegistration_parallel hview hcalm hr hu' with
    ⟨rfl, rfl, rfl⟩ | ⟨digest, participant, rfl, hcommit, hcommit'⟩
  · -- both have answered, and the call has nothing to persist
    rcases hcases with ⟨-, heq⟩ | ⟨hmutated, -⟩
    · rw [heq]
      exact ⟨rfl, .refl h⟩
    · cases hmutated
  · rcases hcases with ⟨hidle, -⟩ | ⟨-, image, previous, hencode, heq⟩
    · rw [commitRegistration_mutated hcommit'] at hidle
      cases hidle
    -- what the call has saved names every participant once
    have hsaved : (u'.state.state.participants.map (·.id)).Nodup :=
      ((insertionSort_perm _).map _).nodup_iff.mpr (nodup_of_encode hencode)
    have hnb : b.ids.Nodup := by
      have hall : u'.state.ids.Nodup := hsaved
      rw [commitRegistration_ids hcommit'] at hall
      exact hall.of_append_left
    obtain ⟨ps, g', hperm, hstate⟩ := h.state
    have hn : t.state.ids.Nodup := by
      rw [Impl.ids, hstate] at hnb
      exact (hperm.map _).nodup_iff.mpr hnb
    have hbindex : b.Indexed := by
      have hindexed := Impl.Indexed.rebuild hnb
      rwa [h.matching] at hindexed
    rw [← hview.find] at hcommit'
    obtain ⟨p, g, next, n, hp, hfloor, hnext, henrols, hissue⟩ :=
      commitRegistration_enrols (h.index hn) hn hcommit
    obtain ⟨p', g₁, next', n', hp', hfloor', hnext', henrols', hissue'⟩ :=
      commitRegistration_enrols (t := Txn.start b) hbindex hnb hcommit'
    -- the same record under the same numbers
    rw [hview.find, hp] at hp'
    subst hp'
    rw [hview.floor, hfloor] at hfloor'
    obtain rfl := Option.some.inj hfloor'
    rw [hnext] at hnext'
    obtain rfl := Option.some.inj hnext'
    rw [hview.options] at henrols'
    refine ⟨hissue.trans hissue'.symm, ?_, commitRegistration_generation hcommit,
      .inr ⟨commitRegistration_mutated hcommit, ?_⟩⟩
    · rw [heq]
      exact h.enrols hn (fun q => q.register_id _ _ _ _ _ _)
        (fun q => q.length_liveBoots_register _ _ _ _ _ _) henrols henrols'
    · rw [heq]
      exact canonicalize_sorted u'.state

theorem registerEach_cons {request : RegisterParticipantRequest} {fault : Option SaveFault}
    {rest : List (RegisterParticipantRequest × Option SaveFault)} {disk : Disk} {impl : Impl}
    {rs : List RegistrationResult} {done : Transacted RegistrationResult}
    (hdone : transact (applyRegistration request true) fault disk impl = done)
    (h : (registerEach ((request, fault) :: rest) disk impl).result = .ok rs) :
    ∃ r rs', done.result = .ok r ∧ (registerEach rest done.disk done.impl).result = .ok rs' ∧
      rs = r :: rs' ∧ (registerEach ((request, fault) :: rest) disk impl).impl =
        (registerEach rest done.disk done.impl).impl := by
  have hunfold : registerEach ((request, fault) :: rest) disk impl =
      match done.result with
      | .error e => ⟨done.impl, done.disk, .error e⟩
      | .ok r => (registerEach rest done.disk done.impl).map (r :: ·) := by
    rw [← hdone]
    rfl
  rw [hunfold] at h ⊢
  cases hr : done.result with
  | error e =>
    rw [hr] at h
    cases h
  | ok r =>
    rw [hr] at h
    obtain ⟨rs', hrs'⟩ := Transacted.map_result_ok h
    refine ⟨r, rs', rfl, hrs', ?_, rfl⟩
    simp only [Transacted.map, hrs'] at h
    exact (Except.ok.inj h).symm

/-- **The elements of a batch** that fences nobody, beside the calls. -/
theorem registerEach_alongside {requests : List (RegisterParticipantRequest × Option SaveFault)}
    {disk : Disk} {t u : Txn Impl} {b : Impl} {rs rs' : List RegistrationResult}
    (h : Tracks t.state b)
    (hcalm : AlongBatch (fun impl request => impl.fencesIncumbent request = false)
      (requests.map Prod.fst) t)
    (hr : applyRegistrations (requests.map Prod.fst) t = .ok rs u)
    (hr' : (registerEach requests disk b).result = .ok rs') :
    rs.map (·.issue) = rs'.map (·.issue) ∧ Alongside t u b (registerEach requests disk b).impl := by
  induction requests generalizing t b disk rs rs' with
  | nil =>
    obtain ⟨rfl, rfl⟩ := Action.pure_ok.mp hr
    cases hr'
    exact ⟨rfl, .refl h⟩
  | cons element rest ih =>
    obtain ⟨request, fault⟩ := element
    obtain ⟨r, t', hfirst, hr⟩ := Action.bind_ok.mp hr
    obtain ⟨rest₁, u', hrest, hr⟩ := Action.bind_ok.mp hr
    obtain ⟨rfl, rfl⟩ := Action.pure_ok.mp hr
    obtain ⟨r', rest₁', hfirst', hrest', rfl, heq⟩ := registerEach_cons rfl hr'
    obtain ⟨hissue, hbeside⟩ := h.step hcalm.1 hfirst hfirst'
    obtain ⟨hissues, hbeside'⟩ := ih hbeside.tracks (hcalm.2 r t' hfirst) hrest hrest'
    rw [heq]
    refine ⟨?_, hbeside.trans hbeside'⟩
    rw [List.map_cons, List.map_cons, hissue, hissues]

/-- **A batch that fences nobody** means the same as the calls. -/
theorem batchAgrees_of_calm {requests : List (RegisterParticipantRequest × Option SaveFault)}
    {disk : Disk} {impl : Impl} {fault : Option SaveFault} {rs rs' : List RegistrationResult}
    (hmatch : impl.IndexesMatch)
    (hcalm : AlongBatch (fun impl request => impl.fencesIncumbent request = false)
      (requests.map Prod.fst) (Txn.start impl))
    (h : (transact (registerBatch (requests.map Prod.fst)) fault disk impl).result = .ok rs)
    (h' : (registerEach requests disk impl).result = .ok rs') :
    BatchAgrees impl rs (transact (registerBatch (requests.map Prod.fst)) fault disk impl).impl rs'
      (registerEach requests disk impl).impl := by
  obtain ⟨v, hv, hcases⟩ := transact_ok h
  obtain ⟨rs₁, u, hall, hv⟩ := Action.bind_ok.mp hv
  rw [Action.bind_hasMutated] at hv
  obtain ⟨⟨⟩, v', hbump, hv⟩ := Action.bind_ok.mp hv
  obtain ⟨rfl, rfl⟩ := Action.pure_ok.mp hv
  have hstart : Tracks (Txn.start impl).state impl := .refl hmatch
  obtain ⟨hissues, hbeside⟩ := registerEach_alongside hstart hcalm hall h'
  rcases hbeside.progress with ⟨rfl, hsame⟩ | ⟨hmutated, hsorted⟩
  · -- nothing was committed on either side
    obtain ⟨-, rfl⟩ := Action.pure_ok.mp hbump
    rcases hcases with ⟨-, heq⟩ | ⟨hmutated, -⟩
    · rw [heq, hsame]
      exact ⟨hissues, rfl, fun hne => absurd rfl hne⟩
    · cases hmutated
  · rw [hmutated] at hbump
    obtain ⟨g, hg, rfl⟩ := bumpGeneration_ok hbump
    rcases hcases with ⟨hidle, -⟩ | ⟨-, image, previous, hencode, heq⟩
    · rw [show u.mutated = false from hidle] at hmutated
      cases hmutated
    obtain ⟨ps, g', hperm, hstate⟩ := hbeside.tracks.state
    have hsorted' := canonicalize_sorted (u.state.setGeneration g)
    have hps : (u.state.setGeneration g).canonicalize.state.participants = ps := by
      rw [hstate] at hsorted
      have hperm' : (u.state.setGeneration g).canonicalize.state.participants.Perm ps :=
        (insertionSort_perm u.state.state.participants).symm.trans hperm
      exact eq_of_perm_of_sorted (r := (· ≤ ·)) ParticipantId.le_antisymm (nodup_of_encode hencode)
        hsorted' hsorted hperm'
    rw [heq]
    refine ⟨hissues, ?_, fun _ => ?_⟩
    · show (u.state.setGeneration g).canonicalize.state = _
      rw [hstate, ← hps]
      rfl
    · show g.value = _
      rw [hbeside.generation] at hg
      exact MonotonicCounter.next_eq_some hg

/-! ## Where the indexes match -/

theorem transact_matching {α : Type} {op : Op α} {fault : Option SaveFault} {disk : Disk}
    {impl : Impl} {limits : Limits} {a : α}
    (hop : ∀ t, op (Txn.start impl) = .ok a t → Advanced .nothing limits (Txn.start impl) t)
    (hmatch : impl.IndexesMatch) (h : (transact op fault disk impl).result = .ok a) :
    (transact op fault disk impl).impl.IndexesMatch := by
  obtain ⟨t, ht, ⟨hidle, heq⟩ | ⟨-, image, previous, -, heq⟩⟩ := transact_ok h
  · rw [heq]
    rcases (hop t ht).marked with rfl | hmarked
    · exact hmatch
    · rw [hidle] at hmarked
      cases hmarked
  · -- the barrier has rebuilt them
    rw [heq]
    rfl

/-- The session tables are no index. -/
theorem Impl.IndexesMatch.of_sessions {impl : Impl} (h : impl.IndexesMatch)
    (sessions : List SessionBinding) (boots : List (WorkerBootId × SessionId)) :
    Impl.IndexesMatch { impl with sessionIndex := sessions, bootSessionIndex := boots } := by
  show { impl.rebuildIndexes with sessionIndex := sessions, bootSessionIndex := boots } = _
  rw [h]

theorem callRuntime_matching {call : Call} {entropy : Entropy} {fault : Option SaveFault}
    {disk : Disk} {impl : Impl} {reply : Reply} (hs : impl.Settled) (hmatch : impl.IndexesMatch)
    (h : (callRuntime call entropy fault disk impl).result = .ok reply) :
    (callRuntime call entropy fault disk impl).impl.IndexesMatch := by
  cases call with
  | register request =>
    obtain ⟨a, ha⟩ := Transacted.map_result_ok h
    exact transact_matching (fun t ht => applyRegistration_advanced hs.regular rfl False.elim
      False.elim False.elim False.elim ht) hmatch ha
  | registerBatch requests =>
    obtain ⟨a, ha⟩ := Transacted.map_result_ok h
    exact transact_matching (fun t ht => registerBatch_advanced hs.regular rfl rfl False.elim
      False.elim False.elim False.elim ht) hmatch ha
  | fence request =>
    obtain ⟨a, ha⟩ := Transacted.map_result_ok h
    exact transact_matching (fun t ht => fenceWorker_advanced hs.regular rfl rfl False.elim
      False.elim False.elim ht) hmatch ha
  | grant request =>
    obtain ⟨a, ha⟩ := Transacted.map_result_ok h
    exact transact_matching (fun t ht => applyGrant_advanced hs.regular rfl False.elim False.elim
      ht) hmatch ha
  | revoke request =>
    obtain ⟨a, ha⟩ := Transacted.map_result_ok h
    exact transact_matching (fun t ht => applyRevoke_advanced hs.regular rfl ht) hmatch ha
  | advance request =>
    obtain ⟨a, ha⟩ := Transacted.map_result_ok h
    exact transact_matching (fun t ht => advanceEpoch_advanced hs.regular False.elim False.elim ht)
      hmatch ha
  | retire request =>
    obtain ⟨a, ha⟩ := Transacted.map_result_ok h
    exact transact_matching (fun t ht => applyRetire_advanced hs.regular rfl False.elim False.elim
      False.elim ht) hmatch ha
  | bind binding =>
    rw [callRuntime] at h ⊢
    cases hr : impl.bindSession binding with
    | error e =>
      rw [hr] at h
      cases h
    | ok bound =>
      unfold Impl.bindSession at hr
      split at hr
      · cases hr
        exact hmatch
      · split at hr
        · cases hr
        · cases hr
          exact hmatch.of_sessions _ _
  | close session reason =>
    obtain ⟨a, ha⟩ := Transacted.map_result_ok h
    show (closeSession session reason fault disk impl).impl.IndexesMatch
    unfold closeSession at ha ⊢
    split
    · exact hmatch
    · next binding hbinding =>
      simp only [hbinding] at ha
      have hs' : (impl.eraseSession binding).Settled := hs.of_same rfl ⟨rfl, rfl, rfl, rfl⟩
      exact transact_matching (fun t ht => fenceSession_advanced hs'.regular rfl False.elim ht)
        (hmatch.of_sessions _ _) ha
  | flush =>
    simp only [callRuntime] at h ⊢
    split
    · exact hmatch
    · exact hmatch

/-- **The indexes match** in every state of a run in which no call throws. -/
theorem quietRun_matching {host : Host} (h : coordinator.Reaches Quietly host) {impl : Impl}
    (himpl : host.runtime = some impl) : impl.IndexesMatch := by
  refine h.invariant_of (I := Holds Kept) (J := fun host => ∀ impl ∈ host.runtime,
    impl.IndexesMatch) ?_ ?_ (Holds.start .initial) (fun _ hi => (nomatch hi)) impl himpl
  · intro host input hkept hquiet
    exact quietStep_holds preserved_kept hkept (input.sound_nothing host) hquiet
  · intro host input hkept hmatch hquiet impl' himpl'
    cases input with
    | «open» opening fault =>
      cases hr : (openRuntime opening fault host.disk).2.2 with
      | error e => exact absurd (congrArg some hr) (hquiet e)
      | ok reply =>
        obtain ⟨state, boot, hload, hcase⟩ := openRuntime_ok hr
        have hs : (opening.impl state boot).Settled :=
          .rebuild (hkept.disk.load hload).1.orderly
        have hopened : (openRuntime opening fault host.disk).1 = some impl' := himpl'
        generalize (openRuntime opening fault host.disk).1 = opened at hcase hopened
        generalize (openRuntime opening fault host.disk).2.1 = disk' at hcase
        cases hcase with
        | established transition =>
          cases hopened
          exact transact_matching (fun t ht => establishEpoch_advanced hs.regular
            (isZero_not (c := state.currentEpoch)) False.elim False.elim ht) rfl transition
        | kept established =>
          cases hopened
          rfl
    | call call entropy fault =>
      cases hruntime : host.runtime with
      | none =>
        rw [coordinator_idle hruntime] at himpl'
        exact hmatch impl' himpl'
      | some impl =>
        have hstep := coordinator_call hruntime call entropy fault
        cases hr : (callRuntime call entropy fault host.disk impl).result with
        | error e =>
          refine absurd ?_ (hquiet e)
          rw [hstep, hr]
        | ok reply =>
          rw [hstep] at himpl'
          cases himpl'
          exact callRuntime_matching (hkept.memory impl hruntime).1 (hmatch impl hruntime) hr

/-! ## Fences and the generation -/

/-- How far a stretch of a batch raises the generation by itself. -/
structure Raised (t u : Txn Impl) : Prop where
  generation : t.state.state.generation.value ≤ u.state.state.generation.value
  mutated : t.mutated = true → u.mutated = true

namespace Raised

variable {t u v : Txn Impl}

theorem refl : Raised t t := ⟨Nat.le_refl _, id⟩

theorem trans (h₁ : Raised t u) (h₂ : Raised u v) : Raised t v :=
  ⟨Nat.le_trans h₁.generation h₂.generation, fun h => h₂.mutated (h₁.mutated h)⟩

end Raised

/-- A fence that is no preventive one: a generation of its own, or nothing, the
boot being fenced or not live. -/
theorem recordFence_raised {id : ParticipantId} {boot : WorkerBootId} {reason : FenceReason}
    {note : BoundedText} {t u : Txn Impl} {r : FenceResult}
    (h : recordFence id boot reason note false t = .ok r u) :
    u.mutated = true ∧ t.state.state.generation.value < u.state.state.generation.value ∨
      u = t ∧ ∀ p, t.state.findParticipant id = some p →
        (t.state.lookupFence id boot).fenced = true ∨ p.findIncarnation boot = none := by
  rcases recordFence_own h with ⟨p, i, generation, next, record, -, -, -, hbump, hu, hmutated⟩ | hidle
  · refine .inl ⟨hmutated, ?_⟩
    have hnext := MonotonicCounter.next_eq_some hbump
    rw [generation_applyFence] at hnext
    rw [hu]
    show _ < next.value
    omega
  · exact .inr hidle

theorem replaceIncumbent_raised {request : RegisterParticipantRequest} {p : DurableParticipant}
    {refusal : Option RegistrationResult} {t u : Txn Impl}
    (h : replaceIncumbent request p t = .ok refusal u) : Raised t u := by
  rcases replaceIncumbent_fences h with ⟨boot, r, -, hfence⟩ | ⟨rfl, -⟩
  · rcases recordFence_raised hfence with ⟨hmutated, hlt⟩ | ⟨rfl, -⟩
    · exact ⟨Nat.le_of_lt hlt, fun _ => hmutated⟩
    · exact .refl
  · exact .refl

theorem commitRegistration_raised {request : RegisterParticipantRequest} {digest : SnapshotDigest}
    {participant : Option DurableParticipant} {t u : Txn Impl} {r : RegistrationResult}
    (h : commitRegistration request digest participant false t = .ok r u) : Raised t u :=
  ⟨Nat.le_of_eq (congrArg _ (commitRegistration_generation h).symm),
    fun _ => commitRegistration_mutated h⟩

theorem admitRegistration_raised {request : RegisterParticipantRequest} {digest : SnapshotDigest}
    {participant : Option DurableParticipant} {t u : Txn Impl} {r : RegistrationResult}
    (h : admitRegistration request digest participant false t = .ok r u) : Raised t u := by
  unfold admitRegistration at h
  rw [Action.bind_current] at h
  split at h
  · obtain ⟨-, rfl⟩ := Action.pure_ok.mp h
    exact .refl
  · exact commitRegistration_raised h

/-- No registration lowers the generation. -/
theorem applyRegistration_raised {request : RegisterParticipantRequest} {t u : Txn Impl}
    {r : RegistrationResult} (h : applyRegistration request false t = .ok r u) : Raised t u := by
  have happroach : ∀ t', Approach request t t' → Raised t t' := by
    intro t' h'
    cases h' with
    | direct => exact .refl
    | incumbent replace => exact replaceIncumbent_raised replace
  cases applyRegistration_cases h with
  | answered approach _ => exact happroach _ approach
  | committed _ approach commit => exact (happroach _ approach).trans (commitRegistration_raised commit)

theorem applyRegistrations_raised {requests : List RegisterParticipantRequest} {t u : Txn Impl}
    {rs : List RegistrationResult} (h : applyRegistrations requests t = .ok rs u) : Raised t u := by
  induction requests generalizing t rs with
  | nil =>
    obtain ⟨-, rfl⟩ := Action.pure_ok.mp h
    exact .refl
  | cons request requests ih =>
    obtain ⟨r, t', hfirst, h⟩ := Action.bind_ok.mp h
    obtain ⟨rs', u', hrest, h⟩ := Action.bind_ok.mp h
    obtain ⟨-, rfl⟩ := Action.pure_ok.mp h
    exact (applyRegistration_raised hfirst).trans (ih hrest)

/-- **Where an incumbent is fenced**, the fence is done, and the limit of active
workers is looked at behind it. -/
theorem applyRegistration_replaces {request : RegisterParticipantRequest} {c : Bool}
    {t u : Txn Impl} {r : RegistrationResult} (hfences : t.state.fencesIncumbent request = true)
    (h : applyRegistration request c t = .ok r u) :
    ∃ boot i record next t₁ digest q,
      t₁.state = ((t.state.applyRemoval request.participant boot i).applyFence
        request.participant record).setGeneration next ∧
      t.state.state.generation.next = some next ∧ t₁.mutated = true ∧
      admitRegistration request digest (some q) c t₁ = .ok r u := by
  obtain ⟨hmalformed, hstale, digest, p, hsemantic, hfound, hconflict, hpolicy, hreplace, boot,
    hboot, hfree⟩ := fencesIncumbent_iff.mp hfences
  unfold applyRegistration at h
  rw [Action.bind_current] at h
  simp only [hmalformed, hstale] at h
  obtain ⟨digest', t', hdigest, h⟩ := Action.bind_ok.mp h
  obtain ⟨hsemantic', rfl⟩ := Action.ofExcept_ok.mp hdigest
  obtain rfl : digest = digest' := Except.ok.inj (hsemantic.symm.trans hsemantic')
  simp only [hfound, hconflict] at h
  obtain ⟨refusal, t₁, hincumbent, h⟩ := Action.bind_ok.mp h
  unfold replaceIncumbent at hincumbent
  simp only [hboot, if_pos hpolicy, Action.bind_current, hreplace] at hincumbent
  obtain ⟨fence, t₂, hfence, hincumbent⟩ := Action.bind_ok.mp hincumbent
  rcases recordFence_own hfence with ⟨_, i, generation, next, record, -, -, -, hbump, ht₂, hmutated⟩ |
    ⟨-, hleft⟩
  swap
  · -- it is live and not fenced, so the fence has not left it alone
    rcases hleft p hfound with hfenced | hdead
    · rw [hfenced] at hfree
      cases hfree
    · exact absurd hdead (DurableParticipant.findIncarnation_incumbent hboot)
  have hout : fence.outcome = .fenced := by
    by_contra hout
    have hidle := (recordFence_cases hfence).idle hout
    rw [hidle] at ht₂
    have hsame := congrArg (·.state.generation) ht₂
    have hnext := MonotonicCounter.next_eq_some hbump
    rw [generation_applyFence] at hnext
    have hvalue : t'.state.state.generation.value = next.value := congrArg _ hsame
    omega
  rw [if_neg (by simp [hout])] at hincumbent
  obtain ⟨rfl, rfl⟩ := Action.pure_ok.mp hincumbent
  dsimp only at h
  rw [Action.bind_current] at h
  cases hagain : t₁.state.findParticipant request.participant with
  | none =>
    simp only [hagain] at h
    cases h
  | some q =>
    simp only [hagain] at h
    rw [generation_applyFence] at hbump
    exact ⟨boot, i, record, next, t₁, digest, q, ht₂, hbump, hmutated, h⟩

/-- Where an incumbent is fenced, the generation is raised. -/
theorem applyRegistration_fences {request : RegisterParticipantRequest} {t u : Txn Impl}
    {r : RegistrationResult} (hfences : t.state.fencesIncumbent request = true)
    (h : applyRegistration request false t = .ok r u) :
    t.state.state.generation.value < u.state.state.generation.value ∧ u.mutated = true := by
  obtain ⟨boot, i, record, next, t₁, digest, q, ht₁, hnext, hmutated, hadmit⟩ :=
    applyRegistration_replaces hfences h
  -- what comes behind the fence lowers nothing
  have hrest := admitRegistration_raised hadmit
  have hvalue := MonotonicCounter.next_eq_some hnext
  have hlater : t.state.state.generation.value < t₁.state.state.generation.value := by
    rw [ht₁]
    show _ < next.value
    omega
  exact ⟨Nat.lt_of_lt_of_le hlater hrest.generation, hrest.mutated hmutated⟩

/-- A batch that fences an incumbent raises the generation before its own. -/
theorem applyRegistrations_fences {requests : List RegisterParticipantRequest} {t u : Txn Impl}
    {rs : List RegistrationResult}
    (hfences : ¬ AlongBatch (fun impl request => impl.fencesIncumbent request = false) requests t)
    (h : applyRegistrations requests t = .ok rs u) :
    t.state.state.generation.value < u.state.state.generation.value ∧ u.mutated = true := by
  induction requests generalizing t rs with
  | nil => exact absurd trivial hfences
  | cons request requests ih =>
    obtain ⟨r, t', hfirst, h⟩ := Action.bind_ok.mp h
    obtain ⟨rs', u', hrest, h⟩ := Action.bind_ok.mp h
    obtain ⟨-, rfl⟩ := Action.pure_ok.mp h
    by_cases hcalm : t.state.fencesIncumbent request = false
    · have hlater : ¬ AlongBatch (fun impl request => impl.fencesIncumbent request = false)
          requests t' := by
        intro halong
        refine hfences ⟨hcalm, fun r' t₁ hfirst' => ?_⟩
        rw [hfirst] at hfirst'
        cases hfirst'
        exact halong
      obtain ⟨hlt, hmutated⟩ := ih hlater hrest
      exact ⟨Nat.lt_of_le_of_lt (applyRegistration_raised hfirst).generation hlt, hmutated⟩
    · rw [Bool.not_eq_false] at hcalm
      obtain ⟨hlt, hmutated⟩ := applyRegistration_fences hcalm hfirst
      have hraised := applyRegistrations_raised hrest
      exact ⟨Nat.lt_of_lt_of_le hlt hraised.generation, hraised.mutated hmutated⟩

/-! ## What a batch means -/

/-- **A batch means the same as one call after the other** exactly if none of
its elements, where its turn comes, fences an incumbent. -/
theorem batchAgrees_iff {requests : List (RegisterParticipantRequest × Option SaveFault)}
    {disk : Disk} {impl : Impl} {fault : Option SaveFault} {rs rs' : List RegistrationResult}
    (hmatch : impl.IndexesMatch)
    (h : (transact (registerBatch (requests.map Prod.fst)) fault disk impl).result = .ok rs)
    (h' : (registerEach requests disk impl).result = .ok rs') :
    BatchAgrees impl rs (transact (registerBatch (requests.map Prod.fst)) fault disk impl).impl rs'
        (registerEach requests disk impl).impl ↔
      AlongBatch (fun impl request => impl.fencesIncumbent request = false)
        (requests.map Prod.fst) (Txn.start impl) := by
  refine ⟨fun hagrees => ?_, fun hcalm => batchAgrees_of_calm hmatch hcalm h h'⟩
  by_contra hfences
  obtain ⟨v, hv, hcases⟩ := transact_ok h
  obtain ⟨rs₁, u, hall, hv⟩ := Action.bind_ok.mp hv
  rw [Action.bind_hasMutated] at hv
  obtain ⟨⟨⟩, v', hbump, hv⟩ := Action.bind_ok.mp hv
  obtain ⟨-, rfl⟩ := Action.pure_ok.mp hv
  obtain ⟨hlt, hmutated⟩ := applyRegistrations_fences hfences hall
  rw [hmutated] at hbump
  obtain ⟨g, hg, rfl⟩ := bumpGeneration_ok hbump
  have hnext := MonotonicCounter.next_eq_some hg
  rcases hcases with ⟨hidle, -⟩ | ⟨-, image, previous, -, heq⟩
  · rw [show u.mutated = false from hidle] at hmutated
    cases hmutated
  -- a fence of its own, and the generation of the batch
  rw [heq] at hagrees
  have hraised : impl.state.generation.value < u.state.state.generation.value := hlt
  have hgeneration := hagrees.generation
  have hlast : (u.state.setGeneration g).canonicalize.rebuildIndexes.state.generation = g := rfl
  rw [hlast] at hgeneration
  by_cases hsame : (u.state.setGeneration g).canonicalize.rebuildIndexes.state = impl.state
  · rw [← hsame, hlast] at hraised
    omega
  · have := hgeneration hsame
    omega

/-! ### A batch with replacements -/

/-- An incumbent is replaced, and one fenced boot is retained. -/
def retainingOptions : EpochRuntimeOptions where
  limits := { defaultLimits with maxFencedBootsPerParticipant := 1 }
  replacementPolicy := .replaceIncumbent

/-- Registrations of one participant by these boots, each an attempt of its own. -/
def batchOf (boots : List UInt8) : List (RegisterParticipantRequest × Option SaveFault) :=
  boots.zipIdx.map fun x =>
    (testRegister (UInt8.ofNat (x.2 + 20)) (testParticipant "p") (smallId x.1), none)

/-- Two registrations by one boot, the second one refused. -/
theorem batchAgrees_iff_test : ∃ impl rs batch rs' each, BatchAgrees impl rs batch rs' each := by
  have hallows : coordinator.Allows Quietly coordinator.init [testOpen {} 1] := by decide +kernel
  have hrun : (coordinator.run coordinator.init [testOpen {} 1]).runtime.map (fun impl =>
      ((transact (registerBatch ((batchOf [11, 11]).map Prod.fst)) none
          (coordinator.run coordinator.init [testOpen {} 1]).disk impl).result.toOption.isSome,
        (registerEach (batchOf [11, 11])
          (coordinator.run coordinator.init [testOpen {} 1]).disk impl).result.toOption.isSome,
        decide (AlongBatch (fun impl request => impl.fencesIncumbent request = false)
          ((batchOf [11, 11]).map Prod.fst) (Txn.start impl)))) =
      some (true, true, true) := by decide +kernel
  obtain ⟨impl, himpl, heq⟩ := Option.map_eq_some_iff.mp hrun
  simp only [Prod.mk.injEq, decide_eq_true_eq] at heq
  obtain ⟨hbatch, heach, hcalm⟩ := heq
  obtain ⟨rs, hrs⟩ := Option.isSome_iff_exists.mp hbatch
  obtain ⟨rs', hrs'⟩ := Option.isSome_iff_exists.mp heach
  exact ⟨impl, rs, _, rs', _, (batchAgrees_iff (quietRun_matching (Machine.leads_run hallows) himpl)
    (Checks.toOption_eq_some.mp hrs) (Checks.toOption_eq_some.mp hrs')).mpr hcalm⟩

/-- **A batch that fences three incumbents**, the boot of the first one coming
back: it is registered once more, where the calls refuse it as fenced, and the
batch has raised the generation by four. -/
theorem batchOf_differs : ∃ host impl rs rs', coordinator.Reaches Quietly host ∧
    host.runtime = some impl ∧
    (transact (registerBatch ((batchOf [11, 12, 13, 11]).map Prod.fst)) none host.disk
      impl).result = .ok rs ∧
    (registerEach (batchOf [11, 12, 13, 11]) host.disk impl).result = .ok rs' ∧
    rs.map (·.outcome) = [.registered, .registered, .registered, .registered] ∧
    rs'.map (·.outcome) = [.registered, .registered, .registered, .staleWorkerBoot] ∧
    (transact (registerBatch ((batchOf [11, 12, 13, 11]).map Prod.fst)) none host.disk
      impl).impl.state.generation.value = impl.state.generation.value + 4 ∧
    ¬ BatchAgrees impl rs
      (transact (registerBatch ((batchOf [11, 12, 13, 11]).map Prod.fst)) none host.disk impl).impl
      rs' (registerEach (batchOf [11, 12, 13, 11]) host.disk impl).impl := by
  have hallows : coordinator.Allows Quietly coordinator.init [testOpen retainingOptions 1] := by
    decide +kernel
  have hrun : (coordinator.run coordinator.init [testOpen retainingOptions 1]).runtime.map
      (fun impl =>
        ((transact (registerBatch ((batchOf [11, 12, 13, 11]).map Prod.fst)) none
            (coordinator.run coordinator.init [testOpen retainingOptions 1]).disk
              impl).result.toOption.map (·.map (·.outcome)),
          (registerEach (batchOf [11, 12, 13, 11])
            (coordinator.run coordinator.init [testOpen retainingOptions 1]).disk
              impl).result.toOption.map (·.map (·.outcome)),
          (transact (registerBatch ((batchOf [11, 12, 13, 11]).map Prod.fst)) none
            (coordinator.run coordinator.init [testOpen retainingOptions 1]).disk
              impl).impl.state.generation.value - impl.state.generation.value)) =
      some (some [.registered, .registered, .registered, .registered],
        some [.registered, .registered, .registered, .staleWorkerBoot], 4) := by decide +kernel
  obtain ⟨impl, himpl, heq⟩ := Option.map_eq_some_iff.mp hrun
  simp only [Prod.mk.injEq] at heq
  obtain ⟨hbatch, heach, hraised⟩ := heq
  obtain ⟨rs, hrs, hout⟩ := Option.map_eq_some_iff.mp hbatch
  obtain ⟨rs', hrs', hout'⟩ := Option.map_eq_some_iff.mp heach
  refine ⟨_, impl, rs, rs', Machine.leads_run hallows, himpl, Checks.toOption_eq_some.mp hrs,
    Checks.toOption_eq_some.mp hrs', hout, hout', by omega, fun hagrees => ?_⟩
  have hsame : rs.map (·.outcome) = rs'.map (·.outcome) := by
    have hfirst := congrArg (List.map Prod.fst) hagrees.answers
    rw [List.map_map, List.map_map] at hfirst
    exact hfirst
  rw [hout, hout'] at hsame
  cases hsame

end FabricEpoch
