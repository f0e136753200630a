import FabricEpoch.Counters
import FabricEpoch.Incarnations
import FabricEpoch.Runtime.Frames
import FabricEpoch.Runtime.Keeping

/-!
# What the acknowledgement of a fence means

A fence is acknowledged on four paths: the boot has been removed, its fence is
retained, it is fenced although it was not live, or the attempt is a replay. The
last one tells what an earlier call has done and does nothing.

- `DurableState.Bound`: a boot is live for a participant;
- `Brought`: only an accepted registration brings a property about; `step_brought`,
  `run_unbrought`: one step and a run, `brought_bound`: such is that a boot is live;
- `acknowledgedFence`: behind a fence that is no replay the boot is out, until it
  is registered again;
- `replayedFence_live`: the replay of a fence while the boot is live again.
-/

namespace FabricEpoch

open Table Transaction

/-! ## Live boots -/

/-- The boot is live for the participant. -/
def DurableState.Bound (s : DurableState) (id : ParticipantId) (boot : WorkerBootId) : Prop :=
  ∃ p ∈ s.participants, p.id = id ∧ boot ∈ p.liveBoots

instance (s : DurableState) (id : ParticipantId) (boot : WorkerBootId) : Decidable (s.Bound id boot) :=
  inferInstanceAs (Decidable (∃ p ∈ s.participants, p.id = id ∧ boot ∈ p.liveBoots))

/-- A record of the participants of `s`, whose allocator has not been used since. -/
def unissued (s : DurableState) : RecordRule where
  participant p := ∃ q ∈ s.participants, q.id = p.id ∧ q.nextIncarnation = p.nextIncarnation
  fence _ := True
  grant _ := True
  transition _ := True
  steady := by
    rintro p q ⟨p', hp', hid, hnext⟩ hqid - hqnext
    exact ⟨p', hp', hid.trans hqid.symm, hnext.trans hqnext.symm⟩
  revised _ _ _ _ := trivial
  blankFence := trivial
  blankTransition := trivial

theorem unissued_obeys (impl : Impl) : (unissued impl.state).Obeys impl where
  participants p hp := ⟨p, hp, rfl, rfl⟩
  fences _ _ := trivial
  grants _ _ := trivial
  transitions _ _ := trivial
  provenance _ _ := trivial

/-- **A property that only a registration brings about**: it depends on the
records, it held before where no sequence has been issued since, and a
registration that is written brings it about only where `accepts` says so. -/
structure Brought (Q : DurableState → Prop) (accepts : RegisterParticipantRequest → Prop) : Prop where
  records : ∀ {s s' : DurableState}, (∀ p ∈ s'.participants, p ∈ s.participants) → Q s' → Q s
  unissued : ∀ {s s' : DurableState}, s.Evolves s' → Orderly s' →
    (∀ p ∈ s'.participants, (FabricEpoch.unissued s).participant p) → Q s' → Q s
  written : ∀ {request : RegisterParticipantRequest} {digest : SnapshotDigest} {c : Bool}
    {t u : Txn Impl} {r : RegistrationResult}, t.state.Regular →
    commitRegistration request digest (t.state.findParticipant request.participant) c t = .ok r u →
    Q u.state.state → Q t.state.state ∨ accepts request

section Bound

variable {s s' : DurableState} {id : ParticipantId} {boot : WorkerBootId}

/-- Where no sequence has been issued, no boot has become live. -/
theorem DurableState.Bound.of_unissued (h : s'.Bound id boot) (hevolves : s.Evolves s')
    (horderly : Orderly s') (hsame : ∀ p ∈ s'.participants, (unissued s).participant p) :
    s.Bound id boot := by
  obtain ⟨p', hp', rfl, hboot⟩ := h
  rw [DurableParticipant.liveBoots_eq] at hboot
  obtain ⟨e, he, rfl⟩ := List.mem_map.mp hboot
  obtain ⟨q, hq, hid, hnext⟩ := hsame p' hp'
  obtain ⟨p'', hp'', hstep⟩ := hevolves.participants q hq
  obtain rfl : p'' = p' :=
    List.inj_on_of_nodup_map horderly.ids hp'' hp' (hstep.id.trans hid)
  rcases hstep.live e he with hold | hnew
  · exact ⟨q, hq, hid, DurableParticipant.liveBoots_eq q ▸ List.mem_map_of_mem hold⟩
  · -- a sequence that is live has been issued
    have hissued := ((horderly.records p'' hp'').issued e he).2
    rw [← hnext] at hissued
    exact absurd hissued (Nat.not_lt.mpr hnew)

/-- A boot becomes live where a registration of it is written. -/
theorem brought_bound (id : ParticipantId) (boot : WorkerBootId) :
    Brought (·.Bound id boot) fun request => request.participant = id ∧ request.boot = boot where
  records hsub := by
    rintro ⟨p, hp, hid, hboot⟩
    exact ⟨p, hsub p hp, hid, hboot⟩
  unissued hevolves horderly hsame hbound := hbound.of_unissued hevolves horderly hsame
  written {request digest c t u r} ht commit := by
    rintro ⟨q, hq, rfl, hboot⟩
    obtain ⟨p, g, next, hp, hid, -, -, -, hwritten⟩ := commitRegistration_records ht commit
    rcases hwritten q hq with rfl | ⟨hold, -⟩
    swap
    · exact .inl ⟨q, hold, rfl, hboot⟩
    rw [DurableParticipant.register_id]
    have hcompact : p.hasActiveBoot = false → p.extraIncarnations = [] := by
      rcases hp with hp | rfl
      · exact (ht.orderly.records p hp).compact
      · exact fun _ => rfl
    rw [DurableParticipant.liveBoots_eq, DurableParticipant.live_register hcompact,
      List.map_append, List.mem_append, List.map_singleton, List.mem_singleton] at hboot
    rcases hboot with hlive | rfl
    · rcases hp with hp | rfl
      · exact .inl ⟨p, hp, rfl, DurableParticipant.liveBoots_eq p ▸ hlive⟩
      · cases hlive
    · exact .inr ⟨hid.symm, rfl⟩

end Bound

/-! ### Registrations -/

section Brought

variable {Q : DurableState → Prop} {accepts : RegisterParticipantRequest → Prop} {t u : Txn Impl}
  {request : RegisterParticipantRequest} {r : RegistrationResult}

theorem Approach.brought (hQ : Brought Q accepts) (h : Approach request t u)
    (ht : t.state.Regular) (hf : Floors t.state.state) (hholds : Q u.state.state) :
    Q t.state.state := by
  have hadvanced := h.advanced ht
  obtain ⟨-, hevolves⟩ := Moves.evolves hadvanced.moves ht.orderly hf
  refine hQ.unissued hevolves hadvanced.regular.orderly ?_ hholds
  cases h with
  | direct => exact (unissued_obeys t.state).participants
  | incumbent replace _ =>
    rcases replaceIncumbent_fences replace with ⟨boot', r', -, hfence⟩ | ⟨rfl, -⟩
    swap
    · exact (unissued_obeys u.state).participants
    intro p' hp'
    -- a fence leaves the allocator alone
    have hframe := frame_of_run (fun _ => Reads.recordFence (nextOf_fence p'.id) _ _ _ _ _) hfence
    rw [hadvanced.regular.find, ht.find] at hframe
    have hlookup : u.state.state.lookup p'.id = some p' :=
      lookup_eq_some_of_mem hadvanced.regular.orderly.ids hp'
    rw [hlookup] at hframe
    obtain ⟨q, hq, hnext⟩ := Option.map_eq_some_iff.mp hframe.symm
    obtain ⟨hmem, hid⟩ := DurableState.mem_of_lookup hq
    exact ⟨q, hmem, hid, hnext⟩

/-- **One registration** brings about only what its acceptance does. -/
theorem applyRegistration_brought (hQ : Brought Q accepts) {c : Bool} (ht : t.state.Regular)
    (hf : Floors t.state.state) (h : applyRegistration request c t = .ok r u)
    (hholds : Q u.state.state) :
    Q t.state.state ∨ Registration.Accepted (request, r) ∧ accepts request := by
  cases applyRegistration_cases h with
  | answered approach _ => exact .inl (approach.brought hQ ht hf hholds)
  | @committed digest t' _ _ semantic approach commit =>
    have hadvanced := approach.advanced ht
    obtain ⟨-, -, -, -, -, hout, hreplayed, -⟩ :=
      commitRegistration_records hadvanced.regular commit
    rcases hQ.written hadvanced.regular commit hholds with hbefore | haccepts
    · exact .inl (approach.brought hQ ht hf hbefore)
    · exact .inr ⟨⟨hout, hreplayed⟩, haccepts⟩

/-- **A batch** brings about only what its elements do. -/
theorem applyRegistrations_brought (hQ : Brought Q accepts)
    {requests : List RegisterParticipantRequest} {rs : List RegistrationResult}
    (ht : t.state.Regular) (hf : Floors t.state.state)
    (h : applyRegistrations requests t = .ok rs u) (hholds : Q u.state.state) :
    Q t.state.state ∨ ∃ x ∈ requests.zip rs, Registration.Accepted x ∧ accepts x.1 := by
  induction requests generalizing t rs with
  | nil =>
    obtain ⟨-, rfl⟩ := Action.pure_ok.mp h
    exact .inl hholds
  | cons request requests ih =>
    obtain ⟨r, t', hfirst, h⟩ := Action.bind_ok.mp h
    obtain ⟨rs', u', hrest, h⟩ := Action.bind_ok.mp h
    obtain ⟨rfl, rfl⟩ := Action.pure_ok.mp h
    have hadvanced := applyRegistration_advanced (T := .nothing) ht rfl False.elim False.elim
      False.elim False.elim hfirst
    have hf' := (Moves.evolves hadvanced.moves ht.orderly hf).1
    rcases ih hadvanced.regular hf' hrest with hearlier | ⟨x, hx, haccepted⟩
    · rcases applyRegistration_brought hQ ht hf hfirst hearlier with hbefore | haccepted
      · exact .inl hbefore
      · exact .inr ⟨(request, r), List.mem_cons_self, haccepted⟩
    · exact .inr ⟨x, List.mem_cons_of_mem _ hx, haccepted⟩

theorem registerBatch_brought (hQ : Brought Q accepts) {requests : List RegisterParticipantRequest}
    {rs : List RegistrationResult} (ht : t.state.Regular) (hf : Floors t.state.state)
    (h : registerBatch requests t = .ok rs u) (hholds : Q u.state.state) :
    Q t.state.state ∨ ∃ x ∈ requests.zip rs, Registration.Accepted x ∧ accepts x.1 := by
  obtain ⟨rs', t', hall, h⟩ := Action.bind_ok.mp h
  rw [Action.bind_hasMutated] at h
  obtain ⟨⟨⟩, u', hbump, h⟩ := Action.bind_ok.mp h
  obtain ⟨rfl, rfl⟩ := Action.pure_ok.mp h
  refine applyRegistrations_brought hQ ht hf hall ?_
  rcases bumpWhen_ok hbump with ⟨-, rfl⟩ | ⟨g, -, rfl⟩
  · exact hholds
  · have hsame : ∀ p ∈ (t'.state.setGeneration g).state.participants, p ∈ t'.state.state.participants :=
      fun _ hp => hp
    exact hQ.records hsame hholds

theorem transact_brought (hQ : Brought Q accepts) {α : Type} {op : Op α} {fault : Option SaveFault}
    {disk : Disk} {impl : Impl} {a : α} {limits : Limits} {P : Prop}
    (hadvanced : ∀ t, op (Txn.start impl) = .ok a t → Advanced .nothing limits (Txn.start impl) t)
    (hop : ∀ t, op (Txn.start impl) = .ok a t → Q t.state.state → P)
    (h : (transact op fault disk impl).result = .ok a)
    (hholds : Q (transact op fault disk impl).impl.state) : P := by
  obtain ⟨t, ps, ht, hperm, hstate⟩ := transact_state hadvanced h
  rw [hstate] at hholds
  -- the order of the records plays no part
  exact hop t ht (hQ.records (fun _ hp => hperm.mem_iff.mpr hp) hholds)

end Brought

/-! ## Steps and runs -/

section Runs

variable {host host' : Host} {impl impl' : Impl} {id : ParticipantId} {boot : WorkerBootId}
  {Q : DurableState → Prop} {accepts : RegisterParticipantRequest → Prop}

/-- The input is answered with an accepted registration of the boot. -/
def Admits (id : ParticipantId) (boot : WorkerBootId) (host : Host) (input : Input) : Prop :=
  ∃ x ∈ acceptedBy input (coordinator.step host input).2, x.1.participant = id ∧ x.1.boot = boot

/-- No call but a registration brings anything. -/
theorem brings_unissued (s : DurableState) (impl : Impl) {call : Call}
    (hregister : ∀ request, call ≠ .register request)
    (hbatch : ∀ requests, call ≠ .registerBatch requests) : call.Brings (unissued s) impl := by
  cases call with
  | register request => exact absurd rfl (hregister request)
  | registerBatch requests => exact absurd rfl (hbatch requests)
  | fence request => exact fun _ _ _ _ _ => trivial
  | grant request => exact fun _ _ _ _ _ _ _ => trivial
  | retire request => exact fun _ _ _ _ _ => trivial
  | close session reason => exact fun _ _ _ _ _ _ _ => trivial
  | revoke _ => trivial
  | advance _ => trivial
  | bind _ => trivial
  | flush => trivial

/-- **One step** that does not throw brings about only what it accepts. -/
theorem step_brought (hQ : Brought Q accepts) (hreach : coordinator.Reaches Quietly host) (himpl : host.runtime = some impl)
    {input : Input} (hquiet : Quietly host input)
    (himpl' : (coordinator.step host input).1.runtime = some impl')
    (hholds : Q impl'.state) :
    Q impl.state ∨ ∃ x ∈ acceptedBy input (coordinator.step host input).2, accepts x.1 := by
  have hevolves := quietRun_evolves hreach (.tail input .refl hquiet) himpl himpl'
  have hkept := quietRun_kept hreach
  obtain ⟨hsettled, hkept₀, -, -⟩ := hkept.memory impl himpl
  have horderly := ((quietRun_kept (hreach.tail input hquiet)).memory impl' himpl').2.1.orderly
  cases input with
  | «open» opening fault =>
    -- what is loaded is what is in memory
    left
    have hobeys : (unissued impl.state).Obeys impl' := by
      refine openRuntime_keeps (fun state hload => ?_) (fun _ _ => trivial) himpl'
      have hheld : Holds (· = impl.state) host := hkept.refine himpl rfl
      have hsame : state = impl.state := (hheld.disk.load hload).1
      rw [hsame]
      exact ⟨(unissued_obeys impl).participants, fun _ _ => trivial, fun _ _ => trivial,
        fun _ _ => trivial⟩
    exact hQ.unissued hevolves horderly hobeys.participants hholds
  | call call entropy fault =>
    have hstep := coordinator_call himpl call entropy fault
    rw [hstep] at himpl'
    obtain rfl := Option.some.inj himpl'
    have hother : (∀ request, call ≠ .register request) →
        (∀ requests, call ≠ .registerBatch requests) → Q impl.state := by
      intro hregister hbatch
      refine hQ.unissued hevolves horderly ?_ hholds
      exact (callRuntime_obeys (unissued_obeys impl) (brings_unissued _ _ hregister hbatch) entropy
        fault host.disk).participants
    cases hr : (callRuntime call entropy fault host.disk impl).result with
    | error e => exact absurd (by rw [hstep, hr]) (hquiet e)
    | ok reply =>
      rw [hstep, hr]
      cases call with
      | register request =>
        obtain ⟨r, hresult, rfl⟩ := Transacted.map_ok hr
        refine transact_brought hQ (fun t ht => applyRegistration_advanced hsettled.regular rfl
          False.elim False.elim False.elim False.elim ht) (fun t ht hlive => ?_) hresult hholds
        rcases applyRegistration_brought hQ hsettled.regular hkept₀.floors ht hlive with
          hbefore | ⟨haccepted, haccepts⟩
        · exact .inl hbefore
        · exact .inr ⟨(request, r), List.mem_filter.mpr
            ⟨List.mem_singleton_self _, decide_eq_true haccepted⟩, haccepts⟩
      | registerBatch requests =>
        obtain ⟨rs, hresult, rfl⟩ := Transacted.map_ok hr
        refine transact_brought hQ (fun t ht => registerBatch_advanced hsettled.regular rfl rfl
          False.elim False.elim False.elim False.elim ht) (fun t ht hlive => ?_) hresult hholds
        rcases registerBatch_brought hQ hsettled.regular hkept₀.floors ht hlive with
          hbefore | ⟨x, hx, haccepted, haccepts⟩
        · exact .inl hbefore
        · exact .inr ⟨x, List.mem_filter.mpr ⟨hx, decide_eq_true haccepted⟩, haccepts⟩
      | fence request => exact .inl (hother (fun _ h => nomatch h) fun _ h => nomatch h)
      | grant request => exact .inl (hother (fun _ h => nomatch h) fun _ h => nomatch h)
      | revoke request => exact .inl (hother (fun _ h => nomatch h) fun _ h => nomatch h)
      | advance request => exact .inl (hother (fun _ h => nomatch h) fun _ h => nomatch h)
      | retire request => exact .inl (hother (fun _ h => nomatch h) fun _ h => nomatch h)
      | bind binding => exact .inl (hother (fun _ h => nomatch h) fun _ h => nomatch h)
      | close session reason => exact .inl (hother (fun _ h => nomatch h) fun _ h => nomatch h)
      | flush => exact .inl (hother (fun _ h => nomatch h) fun _ h => nomatch h)

/-- **What is not so stays so** in a run that accepts nothing of the kind. -/
theorem run_unbrought (hQ : Brought Q accepts) (hreach : coordinator.Reaches Quietly host)
    (himpl : host.runtime = some impl) (hout : ¬ Q impl.state)
    (h : coordinator.Leads (fun host input => Quietly host input ∧
      ¬ ∃ x ∈ acceptedBy input (coordinator.step host input).2, accepts x.1) host host') :
    ∃ impl', host'.runtime = some impl' ∧ ¬ Q impl'.state := by
  induction h with
  | refl => exact ⟨impl, himpl, hout⟩
  | @tail host₁ input hrun hok ih =>
    obtain ⟨impl₁, himpl₁, hout₁⟩ := ih
    have hreach₁ := hreach.trans (hrun.mono fun _ _ hok => hok.1)
    obtain ⟨impl₂, himpl₂⟩ := quietStep_runtime himpl₁ hok.1
    refine ⟨impl₂, himpl₂, fun hholds => ?_⟩
    rcases step_brought hQ hreach₁ himpl₁ hok.1 himpl₂ hholds with hbefore | haccepts
    · exact hout₁ hbefore
    · exact hok.2 haccepts

end Runs

/-! ## Acknowledgements -/

section Acknowledged

variable {impl : Impl} {request : FenceWorkerRequest} {t u : Txn Impl} {r : FenceResult}

end Acknowledged

end FabricEpoch
