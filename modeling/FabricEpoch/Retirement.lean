import FabricEpoch.Runtime.Evolution

/-!
# Retirement is terminal

A retired record keeps its identity, has no live incarnation, and its allocator
is closed. Every path that could give it authority again looks at the flag or at
the live incarnations before it looks at anything that is remembered.

- `Terminal`: the allocator of a retired record is closed, and a replay record
  of a retirement is found in retired records only;
- `retirementTerminal`: once a retirement has been answered, every later state
  has the record retired and every later call is refused.
-/

namespace FabricEpoch

open Table Transaction

/-! ## The invariant -/

/-- Retired records are closed, and what a retirement left behind is found in
retired records only. -/
structure Terminal (s : DurableState) : Prop where
  closed : ∀ p ∈ s.participants, p.retired = true →
    p.incarnationFloor.value + 1 = p.nextIncarnation.value
  recorded : ∀ p ∈ s.participants, ∀ r ∈ p.idempotency, r.operation = .retireParticipant →
    p.retired = true

/-- The record was neither retired nor has it remembered anything. -/
def DurableParticipant.SameHistory (p p' : DurableParticipant) : Prop :=
  p.id = p'.id ∧ p'.retired = p.retired ∧ p'.idempotency = p.idempotency

namespace Terminal

variable {s s' : DurableState}

theorem initial : Terminal initialState := ⟨fun _ h => (nomatch h), fun _ h => (nomatch h)⟩

/-- A closed record that evolves stays closed. -/
theorem closed_evolves {p p' : DurableParticipant}
    (hclosed : p.incarnationFloor.value + 1 = p.nextIncarnation.value) (hretired : p.retired = true)
    (hevolves : p.Evolves p') (hfloor : p'.incarnationFloor < p'.nextIncarnation) :
    p'.incarnationFloor.value + 1 = p'.nextIncarnation.value := by
  have hnext := (hevolves.retired hretired).2
  have hle : p.incarnationFloor.value ≤ p'.incarnationFloor.value := hevolves.floor
  have hlt : p'.incarnationFloor.value < p'.nextIncarnation.value := hfloor
  rw [hnext] at hlt ⊢
  omega

/-- The flag and the replay table of each record are those of an old one. -/
theorem of_old (h : Terminal s) (hevolves : s.Evolves s') (hk : Kept s')
    (hall : ∀ p' ∈ s'.participants, ∃ p ∈ s.participants, p.SameHistory p') : Terminal s' := by
  refine ⟨fun p' hp' hretired => ?_, fun p' hp' r hr hop => ?_⟩
  · obtain ⟨p, hp, hid, heq, -⟩ := hall p' hp'
    have hretired' := heq.symm.trans hretired
    exact closed_evolves (h.closed p hp hretired') hretired'
      (hevolves.record hk.orderly hp hp' hid) (hk.floors.allocator p' hp')
  · obtain ⟨p, hp, -, heq, htable⟩ := hall p' hp'
    rw [heq]
    exact h.recorded p hp r (htable ▸ hr) hop

theorem of_same (h : Terminal s) (hparticipants : s'.participants = s.participants) :
    Terminal s' := by
  constructor
  · rw [hparticipants]
    exact h.closed
  · rw [hparticipants]
    exact h.recorded

end Terminal

/-- **A move keeps retired records closed.** -/
theorem Move.terminal {T : Trust} {limits : Limits} {s s' : DurableState}
    (h : Move T limits s s') (hk : Kept s) (ht : Terminal s) : Terminal s' := by
  obtain ⟨hk', hevolves⟩ := hk.moves (.single h)
  cases h with
  | reorder perm =>
    exact ht.of_old hevolves hk' fun p hp => ⟨p, perm.mem_iff.mpr hp, rfl, rfl, rfl⟩
  | bump _ => exact ht.of_same rfl
  | @preventive record _ _ _ _ _ _ _ _ _ _ =>
    exact ht.of_old hevolves hk' fun p' hp' => DurableState.updateParticipant_old
      (f := (·.setFenceGeneration record.generation)) (R := DurableParticipant.SameHistory)
      (fun _ => ⟨rfl, rfl, rfl⟩)
      (fun _ => ⟨rfl, rfl, rfl⟩) hp'
  | @fence record _ _ _ _ _ _ _ =>
    refine ht.of_old hevolves hk' fun p' hp' => DurableState.updateParticipant_old
      (R := DurableParticipant.SameHistory) (fun _ => ⟨rfl, rfl, rfl⟩) (fun p => ?_) hp'
    obtain ⟨_, _, _, _, _, hframe⟩ :=
      p.fence_frame limits record.boot record.incarnation record.generation
    exact ⟨by rw [hframe], by rw [hframe], by rw [hframe]⟩
  | @create id policy _ _ _ _ =>
    have hall {p : DurableParticipant} {P : Prop} (hold : p ∈ s.participants → P)
        (hnew : p.retired = false → p.idempotency = [] → P)
        (hp : p ∈ s.participants ++ [DurableParticipant.fresh id policy]) : P := by
      rcases List.mem_append.mp hp with hp | hp
      · exact hold hp
      · rw [List.mem_singleton.mp hp] at hnew
        exact hnew rfl rfl
    refine ⟨fun p hp hretired => hall (fun hp => ht.closed p hp hretired) (fun hfalse _ => ?_) hp,
      fun p hp r hr hop => hall (fun hp => ht.recorded p hp r hr hop) (fun _ hnil => ?_) hp⟩
    · rw [hretired] at hfalse
      cases hfalse
    · rw [hnil] at hr
      cases hr
  | @register request digest p g next semantic found notRetired nonNil attempt newAttempt notLive
      policy notFenced single elsewhere size text floor allocate =>
    have hp := DurableState.mem_of_lookup found
    -- the record that is written is not retired, and nothing in its table says so
    have hnone : ∀ r ∈ p.idempotency, r.operation ≠ .retireParticipant := by
      intro r hr hop
      have := ht.recorded p hp.1 r hr hop
      rw [notRetired] at this
      cases this
    obtain ⟨_, _, _, _, hframe⟩ := p.register_frame limits request digest g p.nextIncarnation next
    refine ⟨fun p' hp' hretired => ?_, fun p' hp' r hr hop => ?_⟩
    · rcases DurableState.mem_updateParticipant hp' with ⟨q, hq, hid, rfl⟩ | ⟨hq, -⟩
      · obtain rfl := hk.orderly.eq_of_lookup found hq hid
        rw [hframe] at hretired
        cases hretired
      · exact ht.closed p' hq hretired
    · rcases DurableState.mem_updateParticipant hp' with ⟨q, hq, hid, rfl⟩ | ⟨hq, -⟩
      · obtain rfl := hk.orderly.eq_of_lookup found hq hid
        rw [hframe] at hr
        rcases mem_evictPush hr with hr | rfl
        · exact absurd hop (hnone r hr)
        · cases hop
      · exact ht.recorded p' hq r hr hop
  | @remember id p record found newAttempt attempt recorded =>
    refine ⟨fun p' hp' hretired => ?_, fun p' hp' r hr hop => ?_⟩
    · rcases DurableState.mem_updateParticipant hp' with ⟨q, hq, -, rfl⟩ | ⟨hq, -⟩
      · exact ht.closed q hq hretired
      · exact ht.closed p' hq hretired
    · rcases DurableState.mem_updateParticipant hp' with ⟨q, hq, hid, rfl⟩ | ⟨hq, -⟩
      · rcases mem_evictPush hr with hr | rfl
        · exact ht.recorded q hq r hr hop
        · cases recorded with
          | fenced _ _ _ _ _ => cases hop
          | granted _ _ _ => cases hop
          | retired _ _ retired => exact retired q hq hid
      · exact ht.recorded p' hq r hr hop
  | grant _ _ _ _ _ _ _ _ _ _ _ _ => exact ht.of_same rfl
  | revoke _ => exact ht.of_same rfl
  | control _ _ _ _ => exact ht.of_same rfl
  | retire _ _ =>
    refine ⟨fun p' hp' hretired => ?_, fun p' hp' r hr hop => ?_⟩
    · rcases DurableState.mem_updateParticipant hp' with ⟨q, hq, -, rfl⟩ | ⟨hq, -⟩
      · obtain ⟨hnext, hfloor⟩ := DurableParticipant.retire_floor (hk.floors.allocator q hq)
        have hlt : q.incarnationFloor.value < q.nextIncarnation.value := hk.floors.allocator q hq
        rw [hnext, hfloor]
        omega
      · exact ht.closed p' hq hretired
    · rcases DurableState.mem_updateParticipant hp' with ⟨q, hq, -, rfl⟩ | ⟨hq, -⟩
      · obtain ⟨_, hframe⟩ := q.retire_frame
        rw [hframe]
      · exact ht.recorded p' hq r hr hop
  | @epoch t invalidate generation _ _ _ _ _ _ =>
    cases invalidate with
    | false => exact ht.of_same rfl
    | true =>
      refine ht.of_old hevolves hk' fun p' hp' => ?_
      obtain ⟨p, hp, rfl⟩ := List.mem_map.mp hp'
      exact ⟨p, hp, rfl, rfl, rfl⟩

/-- Records in order, counters in bounds, retired records closed. -/
theorem preserved_terminal : Preserved .nothing fun s => Kept s ∧ Terminal s where
  trust h := h.elim
  orderly _ h := h.1.orderly
  incumbency h := h.elim
  moves _ _ _ hm h := by
    induction hm with
    | refl => exact h
    | tail _ hm ih => exact ⟨(ih.1.moves (.single hm)).1, hm.terminal ih.1 ih.2⟩

/-! ## What a retirement leaves behind -/

/-- **A retirement that is answered Retired** has left its replay record, or is
answered from one. -/
theorem applyRetire_recorded {request : RetireParticipantRequest} {t u : Txn Impl}
    {r : RetireResult} (ht : t.state.Regular) (h : applyRetire request t = .ok r u)
    (houtcome : r.outcome = .retired) :
    ∃ p ∈ u.state.state.participants, p.id = request.participant ∧
      ((∃ record ∈ p.idempotency, record.operation = .retireParticipant) ∨
        t.state.state.lookup request.participant = some p ∧
          ∃ previous, findAttempt p.idempotency request.attempt = some previous) := by
  have hadvanced := applyRetire_advanced (T := .nothing) ht rfl (fun h => h.elim)
    (fun h => h.elim) (fun h => h.elim) h
  rcases applyRetire_cases h with ⟨rfl, hrecorded⟩ | ⟨p, digest, hadmitted, h⟩
  · -- the answer is a replay
    obtain ⟨previous, hprevious⟩ := Option.ne_none_iff_exists'.mp (hrecorded houtcome)
    obtain ⟨p, hp, hattempt⟩ := Option.bind_eq_some_iff.mp hprevious
    rw [ht.find] at hp
    obtain ⟨hmem, hid⟩ := DurableState.mem_of_lookup hp
    exact ⟨p, hmem, hid, .inr ⟨hp, previous, hattempt⟩⟩
  · have hfound := hadmitted.found
    rw [ht.find] at hfound
    obtain ⟨n, t₁, g, hfences, hnext, hstate, -, -⟩ := commitRetire_ok h
    have hfirst := (fenceAll_advanced (T := .nothing) ht rfl (fun h => h.elim)
      (fun h => h.elim) hfences).1
    obtain ⟨q, hq, -⟩ := fenceAll_idempotency ht hfences hfound
    have hretired : (t₁.state.mapState
        (·.updateParticipant request.participant (·.retire))).Regular :=
      hfirst.regular.updated (fun p => p.retire_id)
        fun p hp _ => (hfirst.regular.orderly.records p hp).retire
    have hbumped := hretired.setState (f := fun s => { s with generation := g }) rfl rfl
    rw [hfirst.regular.update] at hstate
    replace hstate := hstate.trans (hbumped.update request.participant
      (·.remember t₁.state.options.limits (request.record digest n)))
    have hqmem := DurableState.mem_of_lookup hq
    have hretire : q.retire ∈
        (t₁.state.state.updateParticipant request.participant (·.retire)).participants := by
      refine List.mem_map.mpr ⟨q, hqmem.1, ?_⟩
      rw [if_pos hqmem.2]
    have hrecord : q.retire.remember t₁.state.options.limits (request.record digest n) ∈
        u.state.state.participants := by
      rw [hstate]
      refine List.mem_map.mpr ⟨q.retire, hretire, ?_⟩
      rw [if_pos (q.retire_id.trans hqmem.2)]
    exact ⟨_, hrecord, q.retire_id.trans hqmem.2, .inl ⟨_, mem_evictPush_self _, rfl⟩⟩

/-! ## What is refused to a retired participant -/

/-- No registration of a retired participant is accepted or replayed. -/
theorem applyRegistration_retired {request : RegisterParticipantRequest} {commitGeneration : Bool}
    {t u : Txn Impl} {r : RegistrationResult} (ht : t.state.Regular) {p : DurableParticipant}
    (hp : p ∈ t.state.state.participants) (hid : p.id = request.participant)
    (hretired : p.retired = true)
    (h : applyRegistration request commitGeneration t = .ok r u) : r.outcome ≠ .registered := by
  have hfound : t.state.findParticipant request.participant = some p := by
    rw [ht.find, ← hid]
    exact lookup_eq_some_of_mem ht.orderly.ids hp
  unfold applyRegistration at h
  rw [Action.bind_current] at h
  cases hmalformed : t.state.malformedRegistration request with
  | some result =>
    simp only [hmalformed] at h
    cases h
    exact malformedRegistration_some hmalformed
  | none =>
    cases hstale : t.state.staleRegistration request with
    | some result =>
      simp only [hmalformed, hstale] at h
      cases h
      exact staleRegistration_some hstale
    | none =>
      have := ((staleRegistration_none hstale).2 p hfound).1
      rw [hretired] at this
      cases this

/-- Nor in a batch. -/
theorem applyRegistrations_retired {requests : List RegisterParticipantRequest} {t u : Txn Impl}
    {rs : List RegistrationResult} (ht : t.state.Regular) (hf : Floors t.state.state)
    {p : DurableParticipant} (hp : p ∈ t.state.state.participants) (hretired : p.retired = true)
    (h : applyRegistrations requests t = .ok rs u) :
    List.Forall₂ (fun request r => request.participant = p.id →
      r.outcome ≠ RegistrationOutcome.registered) requests rs := by
  induction requests generalizing t rs p with
  | nil =>
    cases h
    exact .nil
  | cons request requests ih =>
    obtain ⟨r, t', hfirst, h⟩ := Action.bind_ok.mp h
    obtain ⟨rs', u', hrest, h⟩ := Action.bind_ok.mp h
    cases h
    have hadvanced := applyRegistration_advanced (T := .nothing) ht rfl (fun h => h.elim) (fun h => h.elim) (fun h => h.elim) (fun h => h.elim) hfirst
    obtain ⟨hf', hevolves⟩ := Moves.evolves hadvanced.moves ht.orderly hf
    obtain ⟨p', hp', hrecord⟩ := hevolves.participants p hp
    refine .cons (fun hid => applyRegistration_retired ht hp hid.symm hretired hfirst) ?_
    rw [← hrecord.id]
    exact ih hadvanced.regular hf' hp' (hrecord.retired hretired).1 hrest

/-- No grant is issued or replayed to a participant without live incarnation. -/
theorem applyGrant_lifeless {entropy : Entropy} {request : GrantAuthorityRequest} {t u : Txn Impl}
    {r : GrantResult} (ht : t.state.Regular) {p : DurableParticipant}
    (hp : p ∈ t.state.state.participants) (hid : p.id = request.participant) (hlive : p.live = [])
    (h : applyGrant entropy request t = .ok r u) : r.outcome ≠ .granted := by
  have hfound : t.state.findParticipant request.participant = some p := by
    rw [ht.find, ← hid]
    exact lookup_eq_some_of_mem ht.orderly.ids hp
  unfold applyGrant at h
  rw [Action.bind_current] at h
  cases hmalformed : t.state.malformedGrant request with
  | some result =>
    simp only [hmalformed] at h
    cases h
    exact malformedGrant_some hmalformed
  | none =>
    cases hrefused : t.state.refusedGrantee p request with
    | some result =>
      simp only [hmalformed, hfound, hrefused] at h
      cases h
      exact refusedGrantee_some hrefused
    | none =>
      have hshape := malformedGrant_none hmalformed
      have hmem := DurableParticipant.mem_live_of_find
        (refusedGrantee_none hshape.incarnation hrefused)
      rw [hlive] at hmem
      cases hmem

/-! ## Every later state -/

/-- The participant is retired in this state, and stays refused whatever the
next call meets. -/
structure RetiredForGood (host : Host) (impl : Impl) (id : ParticipantId) : Prop where
  record : ∃ p ∈ impl.state.participants, p.id = id ∧ p.retired = true ∧ p.live = [] ∧
    p.incarnationFloor.value + 1 = p.nextIncarnation.value
  registration : ∀ request entropy fault r, request.participant = id →
    (coordinator.step host (.call (.register request) entropy fault)).2 =
      some (.ok (.registered r)) → r.outcome ≠ .registered
  batch : ∀ requests entropy fault rs,
    (coordinator.step host (.call (.registerBatch requests) entropy fault)).2 =
      some (.ok (.registeredBatch rs)) →
    List.Forall₂ (fun request r => request.participant = id →
      r.outcome ≠ RegistrationOutcome.registered) requests rs
  grant : ∀ request entropy fault r, request.participant = id →
    (coordinator.step host (.call (.grant request) entropy fault)).2 = some (.ok (.granted r)) →
    r.outcome ≠ .granted
  validation : ∀ request : ValidateAuthorityRequest,
    (request.grant = none ∧ request.token.participant = id ∨ ∃ name g, request.grant = some name ∧
      impl.findGrant name = some g ∧ g.participant = id) → (impl.validate request).code ≠ .current

/-- A retired record is refused on every path. -/
theorem RetiredForGood.of_record {host : Host} {impl : Impl} (himpl : host.runtime = some impl)
    (hs : impl.Settled) (hf : Floors impl.state) {p : DurableParticipant}
    (hp : p ∈ impl.state.participants) (hretired : p.retired = true) (hlive : p.live = [])
    (hclosed : p.incarnationFloor.value + 1 = p.nextIncarnation.value) :
    RetiredForGood host impl p.id where
  record := ⟨p, hp, rfl, hretired, hlive, hclosed⟩
  registration request entropy fault r hid hanswer := by
    rw [coordinator_call himpl] at hanswer
    have hresult := Transacted.of_map (x := transact (applyRegistration request true) fault
      host.disk impl) (fun _ _ => Reply.registered.inj) (Option.some.inj hanswer)
    obtain ⟨t, ht, -⟩ := transact_ok hresult
    exact applyRegistration_retired hs.regular hp hid.symm hretired ht
  batch requests entropy fault rs hanswer := by
    rw [coordinator_call himpl] at hanswer
    have hresult := Transacted.of_map (x := transact (registerBatch requests) fault host.disk impl)
      (fun _ _ => Reply.registeredBatch.inj) (Option.some.inj hanswer)
    obtain ⟨t, ht, -⟩ := transact_ok hresult
    obtain ⟨rs', t', hall, hrest⟩ := Action.bind_ok.mp ht
    obtain ⟨⟨⟩, u, -, hreturn⟩ := Action.bind_ok.mp (Action.bind_hasMutated _ _ ▸ hrest)
    cases hreturn
    exact applyRegistrations_retired hs.regular hf hp hretired hall
  grant request entropy fault r hid hanswer := by
    rw [coordinator_call himpl] at hanswer
    have hresult := Transacted.of_map (x := transact (applyGrant entropy request) fault host.disk
      impl) (fun _ _ => Reply.granted.inj) (Option.some.inj hanswer)
    obtain ⟨t, ht, -⟩ := transact_ok hresult
    exact applyGrant_lifeless hs.regular hp hid.symm hlive ht
  validation request hrequest hcode := by
    -- both paths end in a live incarnation of the record
    have hnone : ∀ q b i, impl.findParticipant p.id = some q → q.findIncarnation b ≠ some i := by
      intro q b i hfound hfind
      rw [hs.regular.find] at hfound
      obtain rfl := hs.regular.orderly.eq_of_lookup hfound hp rfl
      have hmem := DurableParticipant.mem_live_of_find hfind
      rw [hlive] at hmem
      cases hmem
    obtain ⟨-, ⟨name, g, owner, hname, hgrant, husable⟩ | ⟨hnogrant, q, htoken⟩⟩ :=
      validate_current_iff.mp hcode
    · rcases hrequest with ⟨hnogrant, -⟩ | ⟨name', g', hname', hgrant', hid⟩
      · rw [hnogrant] at hname
        cases hname
      · obtain rfl : name = name' := Option.some.inj (hname.symm.trans hname')
        obtain rfl : g = g' := Option.some.inj (hgrant.symm.trans hgrant')
        exact hnone owner _ _ (hid ▸ husable.found) husable.incarnation
    · rcases hrequest with ⟨-, hid⟩ | ⟨name, _, hname, -⟩
      · exact hnone q _ _ (hid ▸ htoken.found) htoken.incarnation
      · rw [hnogrant] at hname
        cases hname

/-- **Retirement is terminal**: once a retirement has been answered in a run
without exceptions, the participant is retired for good in every later state.
An answer from the replay table counts where a retirement left the record. -/
theorem retirementTerminal {host host' : Host} (hreach : coordinator.Reaches Quietly host)
    {impl impl' : Impl} (himpl : host.runtime = some impl) {request : RetireParticipantRequest}
    {entropy : Entropy} {fault : Option SaveFault} {r : RetireResult}
    (hanswer : (coordinator.step host (.call (.retire request) entropy fault)).2 =
      some (.ok (.retired r)))
    (houtcome : r.outcome = .retired)
    (hreplay : ∀ p previous, impl.state.lookup request.participant = some p →
      findAttempt p.idempotency request.attempt = some previous →
      previous.operation = .retireParticipant)
    (hlater : coordinator.Leads Quietly
      (coordinator.step host (.call (.retire request) entropy fault)).1 host')
    (himpl' : host'.runtime = some impl') : RetiredForGood host' impl' request.participant := by
  have hquiet : Quietly host (.call (.retire request) entropy fault) := by
    intro e he
    rw [hanswer] at he
    cases he
  have hfirst : coordinator.Leads Quietly host
      (coordinator.step host (.call (.retire request) entropy fault)).1 := .tail _ .refl hquiet
  have hstep := quietRun_invariant preserved_terminal ⟨.initial, .initial⟩
    (quietRun_nothing (hreach.trans hfirst))
  have hend := quietRun_invariant preserved_terminal ⟨.initial, .initial⟩
    (quietRun_nothing (hreach.trans (hfirst.trans hlater)))
  obtain ⟨hsettled, -, -, -⟩ := (quietRun_kept hreach).memory impl himpl
  rw [coordinator_call himpl] at hanswer
  have hresult := Transacted.of_map (x := transact (applyRetire request) fault host.disk impl)
    (fun _ _ => Reply.retired.inj) (Option.some.inj hanswer)
  -- the record that the retirement leaves behind
  obtain ⟨t, ps, ht, hperm, hstate⟩ := transact_state (T := .nothing) (fun t ht =>
    applyRetire_advanced hsettled.regular rfl (fun h => h.elim) (fun h => h.elim)
      (fun h => h.elim) ht) hresult
  obtain ⟨p, hp, hid, hrecord⟩ := applyRetire_recorded hsettled.regular ht houtcome
  have hop : ∃ record ∈ p.idempotency, record.operation = .retireParticipant := by
    rcases hrecord with hnew | ⟨hlookup, previous, hprevious⟩
    · exact hnew
    · exact ⟨previous, List.mem_of_find?_eq_some hprevious, hreplay p previous hlookup hprevious⟩
  obtain ⟨record, hmem, hop⟩ := hop
  obtain ⟨impl₁, himpl₁⟩ : ∃ impl₁, (coordinator.step host (.call (.retire request) entropy
      fault)).1.runtime = some impl₁ ∧ impl₁.state.participants = ps := by
    rw [coordinator_call himpl]
    refine ⟨_, rfl, ?_⟩
    exact congrArg DurableState.participants hstate
  have hp₁ : p ∈ impl₁.state.participants := by
    rw [himpl₁.2]
    exact hperm.mem_iff.mp hp
  obtain ⟨-, ⟨-, hterminal₁⟩, -, -⟩ := hstep.memory impl₁ himpl₁.1
  have hretired := hterminal₁.recorded p hp₁ record hmem hop
  -- and what becomes of it
  obtain ⟨p', hp', hevolves⟩ := (quietRun_evolves (hreach.trans hfirst) hlater himpl₁.1
    himpl').participants p hp₁
  obtain ⟨hsettled', ⟨hkept', hterminal'⟩, hvalid', hepoch'⟩ := hend.memory impl' himpl'
  have hretired' := (hevolves.retired hretired).1
  rw [← hid, ← hevolves.id]
  exact .of_record himpl' hsettled' hkept'.floors hp' hretired'
    ((hvalid'.established hepoch').retired_live hkept'.orderly hp' hretired')
    (hterminal'.closed p' hp' hretired')

/-! ### A retirement and a registration -/

/-- Retire a participant, in epoch one. -/
def testRetire (n : UInt8) (participant : ParticipantId) : RetireParticipantRequest where
  attempt := smallId n
  expectedEpoch := smallCounter 1
  participant := participant

theorem retirementTerminal_test : ∃ (host : Host) (impl : Impl),
    RetiredForGood host impl (testParticipant "p") := by
  obtain ⟨host, hhost⟩ : ∃ host, host = coordinator.run coordinator.init [testOpen {} 1,
    callOf (.register (testRegister 3 (testParticipant "p") (smallId 4)))] := ⟨_, rfl⟩
  have hreach : coordinator.Reaches Quietly host := by
    rw [hhost]
    exact Machine.leads_run (by decide +kernel)
  have hruntime : host.runtime.map (fun impl => (impl.state.lookup (testParticipant "p")).map
      fun p => findAttempt p.idempotency (smallId 5)) = some (some none) := by
    rw [hhost]
    decide +kernel
  obtain ⟨impl, himpl, hnew⟩ := Option.map_eq_some_iff.mp hruntime
  have hanswer : ((coordinator.step host (callOf (.retire (testRetire 5
      (testParticipant "p"))))).2.map fun answer => answer.toOption.map fun
        | .retired r => some r.outcome
        | _ => none) = some (some (some .retired)) := by
    rw [hhost]
    decide +kernel
  obtain ⟨answer, hanswer, hreply⟩ := Option.map_eq_some_iff.mp hanswer
  cases answer with
  | error e => cases hreply
  | ok reply =>
    cases reply with
    | retired r =>
      have hrestart : coordinator.Allows Quietly (coordinator.step host (callOf (.retire
          (testRetire 5 (testParticipant "p"))))).1 [callOf (.register
          (testRegister 6 (testParticipant "p") (smallId 8)))] := by
        rw [hhost]
        decide +kernel
      have hopened : (coordinator.run (coordinator.step host (callOf (.retire (testRetire 5
          (testParticipant "p"))))).1 [callOf (.register
          (testRegister 6 (testParticipant "p") (smallId 8)))]).runtime.isSome = true := by
        rw [hhost]
        decide +kernel
      obtain ⟨impl', himpl'⟩ := Option.isSome_iff_exists.mp hopened
      refine ⟨_, impl', retirementTerminal hreach himpl hanswer ?_ ?_ (Machine.leads_run hrestart)
        himpl'⟩
      · simpa [Except.toOption] using hreply
      · intro p previous hlookup hprevious
        rw [show impl.state.lookup (testRetire 5 (testParticipant "p")).participant =
          impl.state.lookup (testParticipant "p") from rfl] at hlookup
        rw [hlookup] at hnew
        have hnone : findAttempt p.idempotency (smallId 5) = none := Option.some.inj hnew
        exact absurd (hnone.symm.trans hprevious) (Option.some_ne_none _).symm
    | _ => simp [Except.toOption] at hreply

end FabricEpoch
