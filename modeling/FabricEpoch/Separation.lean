import FabricEpoch.Runtime.Barrier
import FabricEpoch.Runtime.Frames
import FabricEpoch.Snapshots

/-!
# One participant beside the others

A call about one participant writes to the record of that participant, to the
fence history, which all participants share, and to the floors. It reaches the
record through the index, which holds positions; as long as the index leads an
identifier to its own record, the other records are as they were. What they are
current for depends on them and on the epoch alone, so that is as it was, too.

- `Aside`: the other records are untouched, and the index is sound for this one;
- `Call.Concerns`: which participant a call is about;
- `Call.Fences`: which boot a call takes out of the live incarnations;
- `othersAlone`: the law, whatever failed on the way to the state.
-/

namespace FabricEpoch

open Table Transaction

/-! ## Beside one participant -/

/-- The records of the other participants. -/
abbrev Impl.others (id : ParticipantId) (impl : Impl) : List DurableParticipant :=
  impl.state.participants.filter (·.id ≠ id)

/-- What was done so far was done to this participant only. -/
structure Aside (id : ParticipantId) (before impl : Impl) : Prop where
  place : ∀ p, impl.findParticipant id = some p → p.id = id
  others : impl.others id = before.others id
  epoch : impl.state.currentEpoch = before.state.currentEpoch

namespace Aside

variable {id : ParticipantId} {before impl impl' : Impl}

theorem refl (h : impl.Findable) : Aside id impl impl := ⟨fun _ => h.id_of_find, rfl, rfl⟩

/-- Records, index and epoch are all that it looks at. -/
theorem of_same (h : Aside id before impl) (hrecords : impl'.state.participants =
    impl.state.participants) (hindex : impl'.participantIndex = impl.participantIndex)
    (hepoch : impl'.state.currentEpoch = impl.state.currentEpoch) : Aside id before impl' := by
  refine ⟨fun p hp => h.place p ?_, ?_, hepoch.trans h.epoch⟩
  · unfold Impl.findParticipant at hp ⊢
    rwa [hindex, hrecords] at hp
  · rw [← h.others, Impl.others, Impl.others, hrecords]

/-- **A write to the record of the participant**, wherever the index leads. -/
theorem update (h : Aside id before impl) {f : DurableParticipant → DurableParticipant}
    (hf : ∀ p, (f p).id = p.id) : Aside id before (impl.updateParticipant id f) := by
  cases hi : impl.participantIndex id with
  | none =>
    have hidle : impl.updateParticipant id f = impl := by
      unfold Impl.updateParticipant
      rw [hi]
    rw [hidle]
    exact h
  | some i =>
    have hwritten : impl.updateParticipant id f =
        impl.mapState fun s => { s with participants := s.participants.modify i f } := by
      unfold Impl.updateParticipant
      rw [hi]
    have hplace : ∀ p, impl.state.participants[i]? = some p → p.id = id := fun p hp =>
      h.place p (Impl.findParticipant_eq_some.mpr ⟨i, hi, hp⟩)
    refine ⟨fun p hp => ?_, ?_, by rw [hwritten]; exact h.epoch⟩
    · obtain ⟨j, hj, hrecord⟩ := Impl.findParticipant_eq_some.mp hp
      rw [hwritten] at hj hrecord
      obtain rfl : i = j := Option.some.inj (hi.symm.trans hj)
      have hmodified : (impl.state.participants[i]?).map f = some p :=
        (List.getElem?_modify_eq f i impl.state.participants).symm.trans hrecord
      obtain ⟨q, hq, rfl⟩ := Option.map_eq_some_iff.mp hmodified
      exact (hf q).trans (hplace q hq)
    · rw [hwritten, ← h.others]
      refine filter_modify_of_neg fun p hp => ?_
      rw [hf]
      simp [hplace p hp]

/-- The record is created behind the others. -/
theorem create (h : Aside id before impl) (policy : IncarnationPolicy) :
    Aside id before (impl.createParticipant id policy) := by
  refine ⟨fun p hp => ?_, ?_, h.epoch⟩
  · obtain ⟨i, hi, hrecord⟩ := Impl.findParticipant_eq_some.mp hp
    obtain rfl : impl.state.participants.length = i := by
      have hindex : (if id = id then some impl.state.participants.length
        else impl.participantIndex id) = some i := hi
      rw [if_pos rfl] at hindex
      exact Option.some.inj hindex
    have hlast : (impl.state.participants ++ [DurableParticipant.fresh id policy])[
        impl.state.participants.length]? = some p := hrecord
    rw [List.getElem?_concat_length] at hlast
    obtain rfl := Option.some.inj hlast
    rfl
  · rw [← h.others]
    show (impl.state.participants ++ [DurableParticipant.fresh id policy]).filter _ = _
    rw [List.filter_append, List.filter_cons_of_neg (by simp [DurableParticipant.fresh]),
      List.filter_nil, List.append_nil]

/-! ### The operations -/

section Operations

variable {t u : Txn Impl}

/-- **A fence** of a boot of the participant. -/
theorem recordFence {boot : WorkerBootId} {reason : FenceReason} {note : BoundedText}
    {defensive : Bool} {r : FenceResult} (h : Aside id before t.state)
    (hrun : FabricEpoch.recordFence id boot reason note defensive t = .ok r u) :
    Aside id before u.state := by
  cases recordFence_cases hrun with
  | unknown | already | notLive | full => exact h
  | @preventive p generation next record =>
    have hfloor : Aside id before (t.state.setFenceFloor record.generation) := h.of_same rfl rfl rfl
    exact (hfloor.update (f := (·.setFenceGeneration record.generation)) fun _ => rfl).of_same
      rfl rfl rfl
  | @live p i generation next record =>
    have hremoved := h.update (f := (·.removeIncarnation boot)) fun p => p.removeIncarnation_id boot
    have hcounted : Aside id before ((t.state.updateParticipant id
        (·.removeIncarnation boot)).setActiveWorkers (t.state.activeWorkers - 1)) :=
      hremoved.of_same rfl rfl rfl
    have hraised : Aside id before (t.state.applyRemoval id boot i) :=
      hcounted.update fun p => p.raiseFloor_id i
    have hfloor : Aside id before ((t.state.applyRemoval id boot i).setFenceFloor
        record.generation) := hraised.of_same rfl rfl rfl
    exact (hfloor.update (f := fun p => (p.setFenceGeneration record.generation).retainFenced
      (t.state.applyRemoval id boot i).options.limits record.boot) fun _ => rfl).of_same rfl rfl rfl

theorem fenceWorker {request : FenceWorkerRequest} {r : FenceResult} (h : Aside id before t.state)
    (hid : request.participant = id) (hfresh : t.mutated = false)
    (hrun : FabricEpoch.fenceWorker request t = .ok r u) :
    Aside id before u.state := by
  rcases fenceWorker_cases hrun with ⟨rfl, -⟩ | ⟨p, digest, -, hcommit⟩
  · exact h
  · rcases commitFence_ok hfresh hcommit with ⟨-, rfl⟩ | ⟨-, t₁, hfence, hstate, -⟩
    · exact h
    · rw [hid] at hfence hstate
      rw [hstate]
      exact (h.recordFence hfence).update fun _ => rfl

theorem fenceSession {session : SessionId} {binding : SessionBinding} {reason : SessionClosureReason}
    {r : FenceResult} (h : Aside id before t.state) (hid : binding.participant = id)
    (hrun : FabricEpoch.fenceSession session binding reason t = .ok r u) :
    Aside id before u.state := by
  rcases fenceSession_fences hrun with ⟨rfl, -⟩ | hfence
  · exact h
  · rw [hid] at hfence
    exact h.recordFence hfence

theorem applyGrant {entropy : Entropy} {request : GrantAuthorityRequest} {r : GrantResult}
    (h : Aside id before t.state) (hid : request.participant = id)
    (hrun : FabricEpoch.applyGrant entropy request t = .ok r u) :
    Aside id before u.state := by
  rcases applyGrant_cases hrun with ⟨rfl, -⟩ | ⟨p, digest, -, hcommit⟩
  · exact h
  · obtain ⟨bytes, g, -, -, hstate, -⟩ := commitGrant_ok hcommit
    rw [hstate, hid]
    have hissued : Aside id before (((t.state.pushGrant (t.state.newGrant request
        ⟨bytes⟩)).setGeneration g).setGrantGeneration (GrantGeneration.ofState g)
          t.state.state.grants.length) := h.of_same rfl rfl rfl
    exact hissued.update fun _ => rfl

/-- The fences of a retirement, one after the other. -/
theorem fenceAll {note : BoundedText} {boots : List WorkerBootId} {n : Nat}
    (h : Aside id before t.state) (hrun : FabricEpoch.fenceAll id note boots t = .ok n u) :
    Aside id before u.state := by
  induction boots generalizing t n with
  | nil =>
    cases hrun
    exact h
  | cons boot boots ih =>
    obtain ⟨fence, t₁, hfence, hrun⟩ := Action.bind_ok.mp hrun
    rw [Action.bind_current] at hrun
    split at hrun
    · cases hrun
    · obtain ⟨m, t₂, hrest, hrun⟩ := Action.bind_ok.mp hrun
      obtain ⟨-, rfl⟩ := Action.pure_ok.mp hrun
      exact ih (h.recordFence hfence) hrest

theorem applyRetire {request : RetireParticipantRequest} {r : RetireResult}
    (h : Aside id before t.state) (hid : request.participant = id)
    (hrun : FabricEpoch.applyRetire request t = .ok r u) :
    Aside id before u.state := by
  rcases applyRetire_cases hrun with ⟨rfl, -⟩ | ⟨p, digest, -, hcommit⟩
  · exact h
  · obtain ⟨n, t₁, g, hfences, -, hstate, -⟩ := commitRetire_ok hcommit
    rw [hid] at hfences hstate
    rw [hstate]
    have hretired := (h.fenceAll hfences).update (f := (·.retire)) fun p => p.retire_id
    have hbumped : Aside id before ((t₁.state.updateParticipant id (·.retire)).setGeneration g) :=
      hretired.of_same rfl rfl rfl
    exact hbumped.update fun _ => rfl

theorem applyRegistration {request : RegisterParticipantRequest} {c : Bool} {r : RegistrationResult}
    (h : Aside id before t.state) (hid : request.participant = id)
    (hrun : FabricEpoch.applyRegistration request c t = .ok r u) :
    Aside id before u.state := by
  have happroach : ∀ v, Approach request t v → Aside id before v.state := by
    intro v hv
    cases hv with
    | direct => exact h
    | incumbent replace =>
      rcases replaceIncumbent_fences replace with ⟨boot, fence, -, hfence⟩ | ⟨rfl, -⟩
      · rw [hid] at hfence
        exact h.recordFence hfence
      · exact h
  cases applyRegistration_cases hrun with
  | answered approach => exact happroach _ approach
  | @committed digest t' _ _ _ approach commit =>
    obtain ⟨p, t₀, g, next, t₁, t₂, hopen, -, -, hstate, hbump, rfl, -⟩ := commitRegistration_ok commit
    have hreached := happroach t' approach
    -- the record is there, or it has just been created
    have hopened : Aside id before t₀.state := by
      cases hfound : t'.state.findParticipant request.participant with
      | none =>
        rw [hfound] at hopen
        cases hopen
        rw [hid]
        exact hreached.create request.policy
      | some q =>
        rw [hfound] at hopen
        cases hopen
        exact hreached
    have hfloor : Aside id before (t₀.state.setRegistrationFloor g) := hopened.of_same rfl rfl rfl
    have hregistered : Aside id before t₁.state := by
      rw [hstate, hid]
      exact (hfloor.update fun q => q.register_id _ _ _ _ _ _).of_same rfl rfl rfl
    rcases bumpWhen_ok hbump with ⟨-, rfl⟩ | ⟨g', -, rfl⟩
    · exact hregistered
    · exact hregistered.of_same rfl rfl rfl

end Operations

/-- **What an operation has left aside, its transaction has.** -/
theorem transact {α : Type} {op : Op α} {fault : Option SaveFault} {disk : Disk} {a : α}
    (hop : ∀ t, op (Txn.start impl) = .ok a t → Aside id before t.state)
    (hrises : ∀ t, op (Txn.start impl) = .ok a t → Rises (Txn.start impl) t)
    (h : (FabricEpoch.transact op fault disk impl).result = .ok a) :
    ∃ t, op (Txn.start impl) = .ok a t ∧ Aside id before t.state ∧
      (FabricEpoch.transact op fault disk impl).impl.Behind t.state := by
  obtain ⟨t, ht, ⟨hidle, heq⟩ | ⟨-, image, previous, -, heq⟩⟩ := transact_ok h
  · rcases hrises t ht with rfl | ⟨hmutated, -⟩
    · exact ⟨_, ht, hop _ ht, .inl (by rw [heq]; rfl)⟩
    · rw [hidle] at hmutated
      cases hmutated
  · exact ⟨t, ht, hop t ht, .inr (by rw [heq])⟩

end Aside

/-! ## The calls -/

/-- The call is about this participant. A session that is not bound is about
nobody in particular. -/
def Call.Concerns (impl : Impl) (id : ParticipantId) : Call → Prop
  | .register request => request.participant = id
  | .fence request => request.participant = id
  | .grant request => request.participant = id
  | .retire request => request.participant = id
  | .close session _ => ∀ binding, impl.sessionIndex.find? (fun s => s.id = session) = some binding →
      binding.participant = id
  | .registerBatch _ | .revoke _ | .advance _ | .bind _ | .flush => False

/-- **A call about a participant** leaves the others aside. -/
theorem callRuntime_aside {call : Call} {id : ParticipantId} {entropy : Entropy}
    {fault : Option SaveFault} {disk : Disk} {impl : Impl} {reply : Reply} (hf : impl.Findable)
    (hconcerns : call.Concerns impl id)
    (h : (callRuntime call entropy fault disk impl).result = .ok reply) :
    ∃ u, Aside id impl u ∧ (callRuntime call entropy fault disk impl).impl.Behind u := by
  have hstart : Aside id impl impl := .refl hf
  cases call with
  | registerBatch | revoke | advance | bind | flush => exact hconcerns.elim
  | register request =>
    obtain ⟨a, ha⟩ := Transacted.map_result_ok h
    obtain ⟨t, -, haside, hbehind⟩ := Aside.transact
      (fun t ht => hstart.applyRegistration hconcerns ht) (fun t ht => applyRegistration_rises ht) ha
    exact ⟨t.state, haside, hbehind⟩
  | fence request =>
    obtain ⟨a, ha⟩ := Transacted.map_result_ok h
    obtain ⟨t, -, haside, hbehind⟩ := Aside.transact
      (fun t ht => hstart.fenceWorker hconcerns rfl ht) (fun t ht => fenceWorker_rises rfl ht) ha
    exact ⟨t.state, haside, hbehind⟩
  | grant request =>
    obtain ⟨a, ha⟩ := Transacted.map_result_ok h
    obtain ⟨t, -, haside, hbehind⟩ := Aside.transact
      (fun t ht => hstart.applyGrant hconcerns ht) (fun t ht => applyGrant_rises ht) ha
    exact ⟨t.state, haside, hbehind⟩
  | retire request =>
    obtain ⟨a, ha⟩ := Transacted.map_result_ok h
    obtain ⟨t, -, haside, hbehind⟩ := Aside.transact
      (fun t ht => hstart.applyRetire hconcerns ht) (fun t ht => applyRetire_rises ht) ha
    exact ⟨t.state, haside, hbehind⟩
  | close session reason =>
    obtain ⟨a, ha⟩ := Transacted.map_result_ok h
    show ∃ u, Aside id impl u ∧ (closeSession session reason fault disk impl).impl.Behind u
    unfold closeSession at ha ⊢
    split
    · exact ⟨impl, hstart, .inl rfl⟩
    · next binding hbinding =>
      simp only [hbinding] at ha
      have herased : Aside id impl (impl.eraseSession binding) := hstart.of_same rfl rfl rfl
      obtain ⟨t, -, haside, hbehind⟩ := Aside.transact
        (fun t ht => herased.fenceSession (hconcerns binding hbinding) ht)
        (fun t ht => fenceSession_rises ht) ha
      exact ⟨t.state, haside, hbehind⟩

/-- **The other records are as they were**, in whatever order. -/
theorem Aside.records {id : ParticipantId} {before u impl : Impl} (h : Aside id before u)
    (hbehind : impl.Behind u) {q : DurableParticipant} (hq : q.id ≠ id) :
    q ∈ impl.state.participants ↔ q ∈ before.state.participants := by
  obtain ⟨ps, hperm, hstate⟩ := hbehind.state
  have hothers : q ∈ u.others id ↔ q ∈ before.others id := by rw [h.others]
  simp only [Impl.others, List.mem_filter, decide_eq_true_eq] at hothers
  rw [hstate]
  show q ∈ ps ↔ _
  rw [← hperm.mem_iff]
  constructor
  · intro hmem
    exact (hothers.mp ⟨hmem, hq⟩).1
  · intro hmem
    exact (hothers.mpr ⟨hmem, hq⟩).1

/-- What a token is current for without a grant: a record and the epoch. -/
theorem validate_of_records {impl impl' : Impl} (hdistinct : impl.Distinct)
    {request : ValidateAuthorityRequest} (hgrant : request.grant = none)
    (hepoch : impl'.state.currentEpoch = impl.state.currentEpoch)
    (hdistinct' : impl'.Distinct)
    (hrecords : ∀ q : DurableParticipant, q.id = request.token.participant →
      (q ∈ impl'.state.participants ↔ q ∈ impl.state.participants))
    (h : (impl.validate request).code = .current) : (impl'.validate request).code = .current := by
  obtain ⟨hshape, ⟨name, grant, owner, hname, -⟩ | ⟨-, p, husable⟩⟩ := validate_current_iff.mp h
  · rw [hgrant] at hname
    cases hname
  · have hid := hdistinct.findable.id_of_find husable.found
    have hmem := (hrecords p hid).mpr (Impl.mem_of_find husable.found)
    have hfound : impl'.findParticipant request.token.participant = some p :=
      hid ▸ hdistinct'.find_of_mem hmem
    exact validate_current_iff.mpr ⟨hshape, .inr ⟨hgrant, p,
      ⟨husable.epoch.trans hepoch.symm, hfound, husable.notRetired, husable.incarnation,
        husable.scope, husable.generation⟩⟩⟩

/-! ## The boot that is fenced -/

/-- The call asks for a fence of this boot of the participant, and is no retry. -/
def Call.Fences (impl : Impl) (id : ParticipantId) (boot : WorkerBootId) : Call → Prop
  | .fence request => request.participant = id ∧ request.boot = boot ∧
      impl.recordedAttempt id request.attempt = none
  | .close session _ => ∃ binding, impl.sessionIndex.find? (fun s => s.id = session) = some binding ∧
      binding.participant = id ∧ binding.boot = boot
  | _ => False

/-- Exactly this boot leaves the live boots of the participant; every other one
keeps its sequence. -/
def TakesOut (id : ParticipantId) (boot : WorkerBootId) (impl impl' : Impl) : Prop :=
  ∃ p p', impl.state.lookup id = some p ∧ impl'.state.lookup id = some p' ∧
    ∀ b, p'.findIncarnation b = if b = boot then none else p.findIncarnation b

/-- **A fence of a record**: whichever incarnation moves into the active slot, the
other boots are live under the sequences they had. -/
theorem DurableParticipant.findIncarnation_fence {p : DurableParticipant} (hn : p.liveBoots.Nodup)
    (limits : Limits) (boot : WorkerBootId) (i : IncarnationSequence) (g : FencingGeneration)
    (b : WorkerBootId) : (p.fence limits boot i g).findIncarnation b =
      if b = boot then none else p.findIncarnation b := by
  have hlive := DurableParticipant.live_fence hn limits boot i g
  have hboots : (p.fence limits boot i g).liveBoots = p.liveBoots.filter (· ≠ boot) := by
    rw [DurableParticipant.liveBoots_eq, DurableParticipant.liveBoots_eq, hlive, List.filter_map]
    rfl
  by_cases hb : b = boot
  · rw [if_pos hb, DurableParticipant.find_eq_none_iff, hboots, hb]
    simp
  · rw [if_neg hb]
    cases hfind : p.findIncarnation b with
    | none =>
      rw [DurableParticipant.find_eq_none_iff] at hfind ⊢
      rw [hboots]
      intro hmem
      exact hfind (List.mem_of_mem_filter hmem)
    | some j =>
      refine DurableParticipant.find_of_nodup ?_ ?_
      · rw [hboots]
        exact hn.filter _
      · rw [hlive]
        exact List.mem_filter.mpr ⟨DurableParticipant.mem_live_of_find hfind, by simpa using hb⟩

/-- **The record behind a fence** of a live boot. -/
theorem recordFence_found {id : ParticipantId} {boot : WorkerBootId} {reason : FenceReason}
    {note : BoundedText} {defensive : Bool} {t u : Txn Impl} {r : FenceResult}
    (h : recordFence id boot reason note defensive t = .ok r u) (hr : r.outcome = .fenced)
    {p : DurableParticipant} {i : IncarnationSequence}
    (hp : t.state.findParticipant id = some p) (hlive : p.findIncarnation boot = some i) :
    ∃ limits g, u.state.findParticipant id = some (p.fence limits boot i g) := by
  cases recordFence_cases h with
  | unknown _ outcome => exact absurd (outcome.symm.trans hr) (by decide)
  | already _ outcome => exact absurd (outcome.symm.trans hr) (by decide)
  | notLive _ _ outcome => exact absurd (outcome.symm.trans hr) (by decide)
  | full _ outcome => exact absurd (outcome.symm.trans hr) (by decide)
  | preventive _ _ found _ notLive =>
    obtain rfl := Option.some.inj (hp.symm.trans found)
    rw [hlive] at notLive
    cases notLive
  | @live q j generation next record eq found live =>
    obtain rfl := Option.some.inj (hp.symm.trans found)
    obtain rfl := Option.some.inj (hlive.symm.trans live)
    subst eq
    have hremoved := find_updateParticipant_self hp (·.removeIncarnation boot)
    have hcounted : ((t.state.updateParticipant id (·.removeIncarnation boot)).setActiveWorkers
        (t.state.activeWorkers - 1)).findParticipant id = some (p.removeIncarnation boot) := hremoved
    have hraised := find_updateParticipant_self hcounted (·.raiseFloor i)
    have hfloor : ((t.state.applyRemoval id boot i).setFenceFloor generation).findParticipant id =
        some ((p.removeIncarnation boot).raiseFloor i) := hraised
    exact ⟨_, _, find_updateParticipant_self hfloor _⟩

/-- A record that is found and kept under its identifier is looked up behind the
barrier. -/
theorem Impl.Behind.lookup {impl u : Impl} {id : ParticipantId} {q : DurableParticipant}
    (hbehind : impl.Behind u) (hdistinct : impl.Distinct) (hq : u.findParticipant id = some q)
    (hid : q.id = id) : impl.state.lookup id = some q := by
  obtain ⟨ps, hperm, hstate⟩ := hbehind.state
  have hmem : q ∈ impl.state.participants := by
    rw [hstate]
    exact hperm.mem_iff.mp (Impl.mem_of_find hq)
  have hlookup : impl.state.lookup q.id = some q := lookup_eq_some_of_mem hdistinct.nodup hmem
  rwa [hid] at hlookup

/-- **A fence that is answered so** takes out its boot and no other. -/
theorem callRuntime_takesOut {call : Call} {id : ParticipantId} {boot : WorkerBootId}
    {entropy : Entropy} {fault : Option SaveFault} {disk : Disk} {impl : Impl} {r : FenceResult}
    (hf : impl.Findable)
    (hdistinct : (callRuntime call entropy fault disk impl).impl.Distinct)
    (h : (callRuntime call entropy fault disk impl).result = .ok (.fenced r))
    (hr : r.outcome = .fenced) (hfences : call.Fences impl id boot) {p : DurableParticipant}
    (hp : impl.findParticipant id = some p) (hlookup : impl.state.lookup id = some p)
    (hboot : boot ∈ p.liveBoots) (hn : p.liveBoots.Nodup) :
    TakesOut id boot impl (callRuntime call entropy fault disk impl).impl := by
  have hstart : Aside id impl impl := .refl hf
  have hinjective : Function.Injective Reply.fenced := fun a b hab => Reply.fenced.inj hab
  obtain ⟨i, hlive⟩ : ∃ i, p.findIncarnation boot = some i := by
    rw [← Option.isSome_iff_exists, Option.isSome_iff_ne_none]
    exact fun hnone => DurableParticipant.find_eq_none_iff.mp hnone hboot
  cases call with
  | register | registerBatch | grant | revoke | advance | retire | bind | flush => exact hfences.elim
  | fence request =>
    obtain ⟨hid, rfl, hnew⟩ := hfences
    have hresult := Transacted.of_map hinjective h
    obtain ⟨t, ht, haside, hbehind⟩ := Aside.transact
      (fun t ht => hstart.fenceWorker hid rfl ht) (fun t ht => fenceWorker_rises rfl ht) hresult
    rcases fenceWorker_cases ht with ⟨-, hreplayed⟩ | ⟨_, digest, -, hcommit⟩
    · rw [hid] at hreplayed
      exact absurd hnew (hreplayed hr)
    · rcases commitFence_ok rfl hcommit with ⟨hrefused, -⟩ | ⟨-, t₁, hfence, hstate, -⟩
      · exact absurd hr hrefused
      · rw [hid] at hfence hstate
        obtain ⟨limits, g, hfound⟩ := recordFence_found hfence hr hp hlive
        have hremembered := find_updateParticipant_self hfound
          (·.remember t₁.state.options.limits (request.record digest r))
        rw [← hstate] at hremembered
        refine ⟨p, _, hlookup, hbehind.lookup hdistinct hremembered (haside.place _ hremembered), ?_⟩
        intro b
        exact DurableParticipant.findIncarnation_fence hn limits request.boot i g b
  | close session reason =>
    obtain ⟨binding, hbinding, hid, rfl⟩ := hfences
    have hclosed : callRuntime (.close session reason) entropy fault disk impl =
        (transact (fenceSession session binding reason) fault disk
          (impl.eraseSession binding)).map .fenced := by
      show (closeSession session reason fault disk impl).map _ = _
      unfold closeSession
      rw [hbinding]
    rw [hclosed] at h hdistinct ⊢
    have hresult := Transacted.of_map hinjective h
    have herased : Aside id impl (impl.eraseSession binding) := hstart.of_same rfl rfl rfl
    obtain ⟨t, ht, haside, hbehind⟩ := Aside.transact
      (fun t ht => herased.fenceSession hid ht) (fun t ht => fenceSession_rises ht) hresult
    rcases fenceSession_fences ht with ⟨-, hrefused⟩ | hfence
    · exact absurd hr hrefused
    · rw [hid] at hfence
      have hp' : (impl.eraseSession binding).findParticipant id = some p := hp
      obtain ⟨limits, g, hfound⟩ := recordFence_found hfence hr hp' hlive
      refine ⟨p, _, hlookup, hbehind.lookup hdistinct hfound (haside.place _ hfound), ?_⟩
      intro b
      exact DurableParticipant.findIncarnation_fence hn limits binding.boot i g b

/-! ## The law -/

/-- **One participant at a time.** In every reachable runtime, whatever failed
before, a call about one participant that returns leaves the record of every other
participant as it is, and with it what a token of another participant is current
for; and where it is answered that it has fenced a live boot, exactly that boot has
left the live boots of its participant. -/
theorem othersAlone {host : Host} {impl : Impl}
    (hreach : coordinator.Reaches (fun _ _ => True) host) (himpl : host.runtime = some impl)
    {call : Call} {entropy : Entropy} {fault : Option SaveFault} {id : ParticipantId}
    {reply : Reply} (hconcerns : call.Concerns impl id)
    (h : (callRuntime call entropy fault host.disk impl).result = .ok reply) :
    (∀ q : DurableParticipant, q.id ≠ id →
        (q ∈ (callRuntime call entropy fault host.disk impl).impl.state.participants ↔
          q ∈ impl.state.participants)) ∧
      (∀ request : ValidateAuthorityRequest, request.grant = none →
        request.token.participant ≠ id →
        (((callRuntime call entropy fault host.disk impl).impl.validate request).code = .current ↔
          (impl.validate request).code = .current)) ∧
      ∀ (r : FenceResult) (boot : WorkerBootId), reply = .fenced r → r.outcome = .fenced →
        call.Fences impl id boot →
        (∃ p, impl.state.lookup id = some p ∧ boot ∈ p.liveBoots) →
        TakesOut id boot impl (callRuntime call entropy fault host.disk impl).impl := by
  have hdistinct := reachable_distinct hreach himpl
  have hdistinct' : (callRuntime call entropy fault host.disk impl).impl.Distinct := by
    refine reachable_distinct (hreach.tail (.call call entropy fault) trivial) ?_
    rw [coordinator_call himpl]
  obtain ⟨u, haside, hbehind⟩ := callRuntime_aside hdistinct.findable hconcerns h
  have hrecords : ∀ q : DurableParticipant, q.id ≠ id →
      (q ∈ (callRuntime call entropy fault host.disk impl).impl.state.participants ↔
        q ∈ impl.state.participants) := fun q hq => haside.records hbehind hq
  refine ⟨hrecords, ?_, ?_⟩
  · intro request hgrant hother
    have hepoch : (callRuntime call entropy fault host.disk impl).impl.state.currentEpoch =
        impl.state.currentEpoch := by
      obtain ⟨ps, -, hstate⟩ := hbehind.state
      rw [hstate]
      exact haside.epoch
    constructor
    · intro hcurrent
      exact validate_of_records hdistinct' hgrant hepoch.symm hdistinct
        (fun q hq => (hrecords q (hq ▸ hother)).symm) hcurrent
    · intro hcurrent
      exact validate_of_records hdistinct hgrant hepoch hdistinct'
        (fun q hq => hrecords q (hq ▸ hother)) hcurrent
  · rintro r boot rfl hr hfences ⟨p, hlookup, hboot⟩
    obtain ⟨hmem, hid⟩ := DurableState.mem_of_lookup hlookup
    have hfound : impl.findParticipant id = some p := hid ▸ hdistinct.find_of_mem hmem
    exact callRuntime_takesOut hdistinct.findable hdistinct' h hr hfences hfound hlookup hboot
      (reachable_liveOnce hreach himpl p hmem)

/-- Two participants, one worker each. -/
def twoWorkerRun : List Input := [
  testOpen {} 1,
  callOf (.register (testRegister 3 (testParticipant "p") (smallId 4))),
  callOf (.register (testRegister 5 (testParticipant "q") (smallId 6)))]

/-- The first of them is fenced. -/
def fenceFirst : Call := .fence (testFence 7 (testParticipant "p") (smallId 4))

/-- The reply of a fence that was recorded. -/
def Reply.tellsFenced : Reply → Bool
  | .fenced r => r.outcome == .fenced
  | _ => false

theorem othersAlone_test : ∃ host impl, coordinator.Reaches (fun _ _ => True) host ∧
    host.runtime = some impl ∧ TakesOut (testParticipant "p") (smallId 4) impl
      (callRuntime fenceFirst (testEntropy 9) none host.disk impl).impl := by
  obtain ⟨host, hhost⟩ : ∃ host, host = coordinator.run coordinator.init twoWorkerRun := ⟨_, rfl⟩
  have hvalues : (coordinator.run coordinator.init twoWorkerRun).runtime.map (fun impl =>
      (decide ((callRuntime fenceFirst (testEntropy 9) none
        (coordinator.run coordinator.init twoWorkerRun).disk impl).result.toOption.any
          Reply.tellsFenced),
        decide (impl.recordedAttempt (testParticipant "p") (smallId 7) = none),
        decide ((impl.state.lookup (testParticipant "p")).any (smallId 4 ∈ ·.liveBoots)))) =
      some (true, true, true) := by
    decide +kernel
  rw [← hhost] at hvalues
  obtain ⟨impl, himpl, hvalue⟩ := Option.map_eq_some_iff.mp hvalues
  obtain ⟨hanswer, hrest⟩ := Prod.mk.inj hvalue
  obtain ⟨hnew, hlive⟩ := Prod.mk.inj hrest
  have hreach : coordinator.Reaches (fun _ _ => True) host := by
    rw [hhost]
    exact coordinator.reaches_run twoWorkerRun
  obtain ⟨reply, hreply, hfenced⟩ := (Option.any_eq_true _ _).mp (of_decide_eq_true hanswer)
  obtain ⟨p, hp, hboot⟩ := (Option.any_eq_true _ _).mp (of_decide_eq_true hlive)
  cases hr : (callRuntime fenceFirst (testEntropy 9) none host.disk impl).result with
  | error e =>
    rw [hr] at hreply
    cases hreply
  | ok reply' =>
    rw [hr] at hreply
    cases hreply
    cases reply with
    | fenced r =>
      have hlaw := othersAlone hreach himpl (show fenceFirst.Concerns impl (testParticipant "p") from
        rfl) hr
      exact ⟨host, impl, hreach, himpl, hlaw.2.2 r (smallId 4) rfl (eq_of_beq hfenced)
        ⟨rfl, rfl, of_decide_eq_true hnew⟩ ⟨p, hp, of_decide_eq_true hboot⟩⟩
    | _ => cases hfenced

end FabricEpoch
