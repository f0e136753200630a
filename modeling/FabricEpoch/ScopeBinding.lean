import FabricEpoch.Counters
import FabricEpoch.Runtime.Frames

/-!
# What scopes are bound to

Liveness belongs to an incarnation; scopes belong to the record of the
participant, and an accepted registration writes them for every incarnation of
the participant that is live.

- `lastRegistration`: the registration of a participant that was accepted last;
- `Scoped`: the records carry the scopes of the last registrations, and what is
  live was registered;
- `scopesBound`: what a current token and an issued grant say about the
  registrations of a run;
- `sharedScopes`: two incarnations with different scopes, and the first one is
  current for a scope it never registered.
-/

namespace FabricEpoch

open Table Transaction

/-! ## Registrations and records -/

/-- The registration of the participant that was accepted last. -/
def lastRegistration (xs : List Registration) (id : ParticipantId) : Option Registration :=
  (xs.filter fun x => x.1.participant = id).getLast?

/-- The registration was accepted for this incarnation. -/
structure Registration.Of (x : Registration) (id : ParticipantId) (boot : WorkerBootId)
    (i : IncarnationSequence) : Prop where
  participant : x.1.participant = id
  boot : x.1.boot = boot
  incarnation : x.2.incarnation = some i

instance (x : Registration) (id : ParticipantId) (boot : WorkerBootId) (i : IncarnationSequence) :
    Decidable (x.Of id boot i) :=
  decidable_of_iff (x.1.participant = id ∧ x.1.boot = boot ∧ x.2.incarnation = some i)
    ⟨fun h => ⟨h.1, h.2.1, h.2.2⟩, fun h => ⟨h.1, h.2, h.3⟩⟩

theorem lastRegistration_concat (xs : List Registration) (x : Registration) (id : ParticipantId) :
    lastRegistration (xs ++ [x]) id =
      if x.1.participant = id then some x else lastRegistration xs id := by
  unfold lastRegistration
  rw [List.filter_append]
  by_cases hid : x.1.participant = id
  · rw [if_pos hid, List.filter_cons_of_pos (by simpa using hid), List.filter_nil,
      List.getLast?_concat]
  · rw [if_neg hid, List.filter_cons_of_neg (by simpa using hid), List.filter_nil, List.append_nil]

/-- What a registration alone writes to a record, with its identifier. -/
def DurableParticipant.key (p : DurableParticipant) :
    ParticipantId × ScopeSet × IncarnationSequence :=
  (p.id, p.scopes, p.nextIncarnation)

/-- The records carry the scopes of the last registrations, and every
incarnation that is live was registered. -/
structure Scoped (xs : List Registration) (s : DurableState) : Prop where
  last : ∀ p ∈ s.participants, ∃ y, lastRegistration xs p.id = some y ∧ y.1.scopes = p.scopes
  live : ∀ p ∈ s.participants, ∀ e ∈ p.live, ∃ x ∈ xs, x.Of p.id e.1 e.2

namespace Scoped

variable {xs : List Registration} {s s' : DurableState}

theorem initial (xs : List Registration) : Scoped xs initialState :=
  ⟨fun _ hp => (nomatch hp), fun _ hp => (nomatch hp)⟩

/-- Records with the same keys and no new incarnations. -/
theorem of_fewer (h : Scoped xs s) (hs : ∀ p' ∈ s'.participants, ∃ p ∈ s.participants,
    p'.key = p.key ∧ p'.live ⊆ p.live) : Scoped xs s' := by
  constructor
  · intro p' hp'
    obtain ⟨p, hp, hkey, -⟩ := hs p' hp'
    obtain ⟨y, hy, hscopes⟩ := h.last p hp
    refine ⟨y, ?_, ?_⟩
    · rw [show p'.id = p.id from congrArg Prod.fst hkey]
      exact hy
    · rw [hscopes]
      exact (congrArg (fun k => k.2.1) hkey).symm
  · intro p' hp' e he
    obtain ⟨p, hp, hkey, hlive⟩ := hs p' hp'
    rw [show p'.id = p.id from congrArg Prod.fst hkey]
    exact h.live p hp e (hlive he)

/-- The order of the records does not matter. -/
theorem of_perm (h : Scoped xs s) {ps : List DurableParticipant} (hperm : s.participants.Perm ps) :
    Scoped xs { s with participants := ps } :=
  h.of_fewer fun p hp => ⟨p, hperm.mem_iff.mpr hp, rfl, List.Subset.refl _⟩

/-- **Where no allocator has moved there is no new incarnation.** -/
theorem of_keys (h : Scoped xs s) (horderly : Orderly s') (hs : s.Evolves s')
    (hkeys : ∀ p' ∈ s'.participants, p'.key ∈ s.participants.map (·.key)) : Scoped xs s' := by
  refine h.of_fewer fun p' hp' => ?_
  obtain ⟨p, hp, hkey⟩ := List.mem_map.mp (hkeys p' hp')
  refine ⟨p, hp, hkey.symm, fun e he => ?_⟩
  obtain ⟨p'', hp'', hevolves⟩ := hs.participants p hp
  have hid : p''.id = p'.id := hevolves.id.trans (congrArg Prod.fst hkey)
  obtain rfl : p'' = p' := List.inj_on_of_nodup_map horderly.ids hp'' hp' hid
  rcases hevolves.live e he with hold | hnew
  · exact hold
  · -- a new incarnation would lie above the allocator
    have hissued := ((horderly.records p'' hp').issued e he).2
    have hnext : p.nextIncarnation = p''.nextIncarnation := congrArg (fun k => k.2.2) hkey
    rw [← hnext] at hissued
    exact absurd hnew (Nat.not_le_of_lt hissued)

end Scoped

/-! ## Keys -/

/-- Where the records are, and what registrations alone write to them. -/
abbrev keysOf (impl : Impl) :
    (ParticipantId → Option Nat) × List (ParticipantId × ScopeSet × IncarnationSequence) :=
  (impl.participantIndex, impl.state.participants.map (·.key))

theorem keysOf_updateParticipant (id : ParticipantId)
    (f : DurableParticipant → DurableParticipant) (hf : ∀ p, (f p).key = p.key) (s : Impl) :
    keysOf (s.updateParticipant id f) = keysOf s := by
  unfold Impl.updateParticipant
  split
  · next i _ =>
    refine Prod.ext rfl ?_
    show (s.state.participants.modify i f).map (·.key) = s.state.participants.map (·.key)
    refine List.ext_getElem? fun j => ?_
    rw [List.getElem?_map, List.getElem?_map, List.getElem?_modify]
    cases s.state.participants[j]? with
    | none => rfl
    | some p =>
      show some _ = some _
      split
      · exact congrArg some (hf p)
      · rfl
  · rfl

namespace DurableParticipant

variable (p : DurableParticipant)

theorem removeIncarnation_key (boot : WorkerBootId) : (p.removeIncarnation boot).key = p.key := by
  obtain ⟨_, _, _, _, h⟩ := p.removeIncarnation_frame boot
  rw [h]
  rfl

theorem raiseFloor_key (i : IncarnationSequence) : (p.raiseFloor i).key = p.key := by
  obtain ⟨_, h⟩ := p.raiseFloor_frame i
  rw [h]
  rfl

theorem retire_key : p.retire.key = p.key := by
  obtain ⟨_, h⟩ := p.retire_frame
  rw [h]
  rfl

variable {p}

/-- What is live behind a registration: the new incarnation, and what was. -/
theorem mem_live_of_register {limits : Limits} {request : RegisterParticipantRequest}
    {digest : SnapshotDigest} {g : RegistrationGeneration} {i next : IncarnationSequence}
    {e : WorkerBootId × IncarnationSequence}
    (h : e ∈ (p.register limits request digest g i next).live) :
    e = (request.boot, i) ∨ e ∈ p.live := by
  unfold register addIncarnation live at h
  unfold live
  cases hactive : p.hasActiveBoot with
  | true =>
    simp only [hactive, if_true, remember, List.map_append, List.map_cons, List.map_nil,
      List.mem_append, List.mem_singleton] at h ⊢
    tauto
  | false =>
    simp only [hactive, Bool.false_eq_true, if_false, if_true, remember, List.mem_append,
      List.mem_singleton, List.nil_append] at h ⊢
    exact h

end DurableParticipant

theorem keysOf_record : RecordFrame keysOf where
  generation _ _ := rfl
  preventive id r s :=
    keysOf_updateParticipant id (·.setFenceGeneration r.generation) (fun _ => rfl)
      (s.setFenceFloor r.generation)
  removal id boot i s :=
    (keysOf_updateParticipant id (·.raiseFloor i) (fun p => p.raiseFloor_key i) _).trans
      (keysOf_updateParticipant id (·.removeIncarnation boot)
        (fun p => p.removeIncarnation_key boot) s)
  fence id r s :=
    keysOf_updateParticipant id
      (fun p => (p.setFenceGeneration r.generation).retainFenced s.options.limits r.boot)
      (fun _ => rfl) (s.setFenceFloor r.generation)
  remember id limits r s := keysOf_updateParticipant id (·.remember limits r) (fun _ => rfl) s
  retire id s := keysOf_updateParticipant id (·.retire) (fun p => p.retire_key) s

theorem keysOf_epoch : EpochFrame keysOf where
  generation _ _ := rfl
  enter _ _ _ := rfl
  invalidate s := Prod.ext rfl (by
    show (s.state.participants.map (·.invalidate)).map (·.key) = _
    rw [List.map_map]
    exact List.map_congr_left fun _ _ => rfl)
  transition _ _ := rfl
  control _ _ := rfl

theorem keysOf_grant : GrantFrame keysOf where
  generation _ _ := rfl
  push _ _ := rfl
  stamp _ _ _ := rfl
  remember id limits r s := keysOf_updateParticipant id (·.remember limits r) (fun _ => rfl) s

theorem keysOf_revoke : RevokeFrame keysOf where
  generation _ _ := rfl
  revoke root s := by
    obtain ⟨grants, h, -⟩ := Impl.Revised.revokeLoop root (2 * s.state.grants.length + 2) [root] 0 s
    show keysOf (Impl.revokeLoop root (2 * s.state.grants.length + 2) [root] 0 s).1 = keysOf s
    rw [h]
  stamp id f s := by
    unfold Impl.updateGrant
    split <;> rfl
  control _ _ := rfl

/-! ## One registration -/

/-- The ledger behind an answer. -/
abbrev withAnswer (xs : List Registration) (request : RegisterParticipantRequest)
    (r : RegistrationResult) : List Registration :=
  xs ++ [(request, r)].filter fun x : Registration => x.Accepted

/-- **A commit** writes the scopes it was asked for to the record, whoever is
live there. -/
theorem commitRegistration_scoped {xs : List Registration} {request : RegisterParticipantRequest}
    {digest : SnapshotDigest} {commitGeneration : Bool} {t u : Txn Impl} {r : RegistrationResult}
    (ht : t.state.Regular) (hs : Scoped xs t.state.state)
    (h : commitRegistration request digest (t.state.findParticipant request.participant)
      commitGeneration t = .ok r u) : Scoped (withAnswer xs request r) u.state.state := by
  obtain ⟨p, g, next, hp, hid, hout, hreplayed, hincarnation, hwritten⟩ :=
    commitRegistration_records ht h
  have haccepted : Registration.Accepted (request, r) := ⟨hout, hreplayed⟩
  rw [withAnswer, List.filter_cons_of_pos (by simpa using haccepted), List.filter_nil]
  have hkey : ∀ q, q = p.register t.state.options.limits request digest g p.nextIncarnation next →
      q.id = request.participant ∧ q.scopes = request.scopes := by
    rintro q rfl
    obtain ⟨_, _, _, _, hframe⟩ := p.register_frame t.state.options.limits request digest g
      p.nextIncarnation next
    rw [hframe]
    exact ⟨hid, rfl⟩
  constructor
  · intro q hq
    rw [lastRegistration_concat]
    rcases hwritten q hq with hnew | ⟨hold, hother⟩
    · obtain ⟨hqid, hscopes⟩ := hkey q hnew
      exact ⟨(request, r), if_pos hqid.symm, hscopes.symm⟩
    · rw [if_neg fun heq => hother heq.symm]
      exact hs.last q hold
  · intro q hq e he
    have hkept : ∀ q' ∈ t.state.state.participants, e ∈ q'.live →
        ∃ x ∈ xs ++ [(request, r)], x.Of q'.id e.1 e.2 := by
      intro q' hq' he'
      obtain ⟨x, hx, hof⟩ := hs.live q' hq' e he'
      exact ⟨x, List.mem_append_left _ hx, hof⟩
    rcases hwritten q hq with hnew | ⟨hold, -⟩
    swap
    · exact hkept q hold he
    rw [(hkey q hnew).1]
    rw [hnew] at he
    -- the incarnation of the request, or one that was live already
    rcases p.mem_live_of_register he with rfl | hlive
    · exact ⟨(request, r), List.mem_append_right _ (List.mem_singleton_self _), rfl, rfl,
        hincarnation⟩
    · rcases hp with hp | rfl
      · rw [← hid]
        exact hkept p hp hlive
      · cases hlive

/-- **One registration.** -/
theorem applyRegistration_scoped {xs : List Registration} {request : RegisterParticipantRequest}
    {commitGeneration : Bool} {t u : Txn Impl} {r : RegistrationResult} (ht : t.state.Regular)
    (hf : Floors t.state.state) (hs : Scoped xs t.state.state)
    (h : applyRegistration request commitGeneration t = .ok r u) :
    Scoped (withAnswer xs request r) u.state.state := by
  -- what comes in front of the decision leaves the keys alone
  have happroached : ∀ t', Approach request t t' → t'.state.Regular ∧ Scoped xs t'.state.state := by
    intro t' happroach
    have hadvanced := happroach.advanced ht
    obtain ⟨-, hevolves⟩ := Moves.evolves hadvanced.moves ht.orderly hf
    refine ⟨hadvanced.regular, hs.of_keys hadvanced.regular.orderly hevolves fun p hp => ?_⟩
    rw [← show t'.state.state.participants.map (·.key) = t.state.state.participants.map (·.key) from
      congrArg Prod.snd (happroach.frame keysOf_record.toFenceFrame)]
    exact List.mem_map_of_mem hp
  cases applyRegistration_cases h with
  | answered approach refused =>
    have hnot : ¬ Registration.Accepted (request, r) := by
      rintro ⟨hout, hreplayed⟩
      rw [refused hout] at hreplayed
      cases hreplayed
    rw [withAnswer, List.filter_cons_of_neg (by simpa using hnot), List.filter_nil, List.append_nil]
    exact (happroached u approach).2
  | committed _ approach commit =>
    obtain ⟨hregular, hscoped⟩ := happroached _ approach
    exact commitRegistration_scoped hregular hscoped commit

/-- **A batch**, element by element. -/
theorem applyRegistrations_scoped {requests : List RegisterParticipantRequest}
    {xs : List Registration} {t u : Txn Impl} {rs : List RegistrationResult}
    (ht : t.state.Regular) (hf : Floors t.state.state) (hs : Scoped xs t.state.state)
    (h : applyRegistrations requests t = .ok rs u) :
    Scoped (xs ++ (requests.zip rs).filter fun x : Registration => x.Accepted) u.state.state := by
  induction requests generalizing xs t rs with
  | nil =>
    cases h
    show Scoped (xs ++ []) _
    rw [List.append_nil]
    exact hs
  | cons request requests ih =>
    obtain ⟨r, t', hfirst, h⟩ := Action.bind_ok.mp h
    obtain ⟨rs', u', hrest, h⟩ := Action.bind_ok.mp h
    cases h
    have hadvanced := applyRegistration_advanced (T := .nothing) ht rfl (fun h => h.elim)
      (fun h => h.elim) (fun h => h.elim) (fun h => h.elim) hfirst
    have hf' := (Moves.evolves hadvanced.moves ht.orderly hf).1
    have hall := ih hadvanced.regular hf' (applyRegistration_scoped ht hf hs hfirst) hrest
    rwa [withAnswer, List.append_assoc, ← List.filter_append] at hall

/-- A batch behind its one bump of the generation. -/
theorem registerBatch_scoped {requests : List RegisterParticipantRequest}
    {xs : List Registration} {t u : Txn Impl} {rs : List RegistrationResult}
    (ht : t.state.Regular) (hf : Floors t.state.state) (hs : Scoped xs t.state.state)
    (h : registerBatch requests t = .ok rs u) :
    Scoped (xs ++ (requests.zip rs).filter fun x : Registration => x.Accepted) u.state.state := by
  obtain ⟨rs', t', hall, h⟩ := Action.bind_ok.mp h
  rw [Action.bind_hasMutated] at h
  obtain ⟨⟨⟩, u', hbump, h⟩ := Action.bind_ok.mp h
  cases h
  have hscoped := applyRegistrations_scoped ht hf hs hall
  refine hscoped.of_fewer fun p hp => ⟨p, ?_, rfl, List.Subset.refl _⟩
  rcases bumpWhen_ok hbump with ⟨-, rfl⟩ | ⟨_, -, rfl⟩
  · exact hp
  · exact hp

/-! ## One call -/

/-- The ledger of an answer, where the call registers nobody. -/
def Call.Registers : Call → Bool
  | .register _ => true
  | .registerBatch _ => true
  | _ => false

/-- A call that registers nobody leaves the keys alone. -/
theorem keysOf_framed {call : Call} (hcall : call.Registers = false) : call.Framed keysOf := by
  cases call with
  | register request => cases hcall
  | registerBatch requests => cases hcall
  | fence request => exact keysOf_record
  | retire request => exact keysOf_record
  | grant request => exact keysOf_grant
  | revoke request => exact keysOf_revoke
  | advance request => exact keysOf_epoch
  | bind binding => exact fun _ _ _ => rfl
  | close session reason => exact ⟨keysOf_record.toFenceFrame, fun _ _ _ => rfl⟩
  | flush => trivial

/-- **One call** and its ledger. -/
theorem callRuntime_scoped {xs : List Registration} {call : Call} {entropy : Entropy}
    {fault : Option SaveFault} {disk : Disk} {impl : Impl} {reply : Reply} (hs : impl.Settled)
    (hkept : Kept impl.state) (hscoped : Scoped xs impl.state)
    (h : (callRuntime call entropy fault disk impl).result = .ok reply) :
    Scoped (xs ++ acceptedBy (.call call entropy fault) (some (.ok reply)))
      (callRuntime call entropy fault disk impl).impl.state := by
  have hprogress := callRuntime_progress (T := .nothing) False.elim hs False.elim
    ((Input.sound_nothing ⟨disk, some impl⟩ (.call call entropy fault)) impl rfl) h
  obtain ⟨hkept', hevolves⟩ := hkept.moves hprogress.moves
  cases hcall : call.Registers with
  | true =>
    cases call with
    | register request =>
      obtain ⟨r, hr⟩ := Transacted.map_result_ok h
      have hreply : Reply.registered r = reply := by
        have hmap : (callRuntime (.register request) entropy fault disk impl).result =
            Except.map Reply.registered
              (transact (applyRegistration request true) fault disk impl).result := rfl
        rw [hmap, hr] at h
        exact Except.ok.inj h
      subst hreply
      obtain ⟨t, ps, ht, hperm, hstate⟩ := transact_state (T := .nothing) (fun t ht =>
        applyRegistration_advanced hs.regular rfl False.elim False.elim False.elim False.elim ht) hr
      show Scoped (xs ++ _) (transact (applyRegistration request true) fault disk impl).impl.state
      rw [hstate]
      exact (applyRegistration_scoped hs.regular hkept.floors hscoped ht).of_perm hperm
    | registerBatch requests =>
      obtain ⟨rs, hr⟩ := Transacted.map_result_ok h
      have hreply : Reply.registeredBatch rs = reply := by
        have hmap : (callRuntime (.registerBatch requests) entropy fault disk impl).result =
            Except.map Reply.registeredBatch
              (transact (registerBatch requests) fault disk impl).result := rfl
        rw [hmap, hr] at h
        exact Except.ok.inj h
      subst hreply
      obtain ⟨t, ps, ht, hperm, hstate⟩ := transact_state (T := .nothing) (fun t ht =>
        registerBatch_advanced hs.regular rfl rfl False.elim False.elim False.elim False.elim ht) hr
      show Scoped (xs ++ _) (transact (registerBatch requests) fault disk impl).impl.state
      rw [hstate]
      exact (registerBatch_scoped hs.regular hkept.floors hscoped ht).of_perm hperm
    | _ => cases hcall
  | false =>
    have hnone : acceptedBy (.call call entropy fault) (some (.ok reply)) = [] := by
      cases call with
      | register request => cases hcall
      | registerBatch requests => cases hcall
      | _ => rfl
    rw [hnone, List.append_nil]
    obtain ⟨u, hkeys, hbehind⟩ := callRuntime_frame (keysOf_framed hcall) hs h
    obtain ⟨ps, hperm, hstate⟩ := hbehind.state
    refine hscoped.of_keys hkept'.orderly hevolves fun p hp => ?_
    rw [← show u.state.participants.map (·.key) = impl.state.participants.map (·.key) from
      congrArg Prod.snd hkeys]
    rw [hstate] at hp
    exact List.mem_map_of_mem (hperm.mem_iff.mpr hp)

/-! ## Runs -/

/-- The memory and the image carry the ledger; before any runtime is open both
are empty. -/
structure ScopedHost (xs : List Registration) (host : Host) : Prop where
  disk : Stored (Scoped xs) host.disk
  memory : ∀ impl ∈ host.runtime, Scoped xs impl.state

/-- The ledger of the memory is that of the image it was saved as. -/
theorem ScopedHost.of_memory {xs : List Registration} {host : Host} (hkept : Holds Kept host)
    {impl : Impl} (himpl : host.runtime = some impl) (h : Scoped xs impl.state) :
    ScopedHost xs host := by
  have hholds : Holds (Scoped xs) host := hkept.refine himpl h
  exact ⟨hholds.disk, fun impl' himpl' => (hholds.memory impl' himpl').2.1⟩

/-- An opening keeps the keys of the loaded records. -/
theorem openRuntime_keys {opening : Opening} {fault : Option SaveFault} {disk : Disk}
    {reply : Reply} (hdisk : Stored Kept disk)
    (h : (openRuntime opening fault disk).2.2 = .ok reply) :
    ∃ impl' state, (openRuntime opening fault disk).1 = some impl' ∧
      EpochStore.load (EpochStore.runtimeOptions opening.options.limits) disk = .ok state ∧
      (∀ p' ∈ impl'.state.participants, p'.key ∈ state.participants.map (·.key)) ∧
      state.Evolves impl'.state := by
  obtain ⟨state, boot, hload, hcase⟩ := openRuntime_ok h
  have hkept := (hdisk.load hload).1
  have hs : (opening.impl state boot).Settled := .rebuild hkept.orderly
  generalize (openRuntime opening fault disk).1 = opened at hcase ⊢
  generalize (openRuntime opening fault disk).2.1 = disk' at hcase
  cases hcase with
  | @established cause _ transition =>
    have hadvanced : ∀ t, establishEpoch opening.transition boot cause (!state.currentEpoch.isZero)
        (Txn.start (opening.impl state boot)) = .ok () t →
          Advanced .nothing (opening.impl state boot).options.limits
            (Txn.start (opening.impl state boot)) t :=
      fun t ht => establishEpoch_advanced hs.regular (isZero_not (c := state.currentEpoch))
        False.elim False.elim ht
    obtain ⟨u, hkeys, hbehind⟩ :=
      transact_frame hadvanced (fun _ => Reads.establishEpoch keysOf_epoch _ _ _ _) transition
    obtain ⟨ps, hperm, hstate⟩ := hbehind.state
    have hprogress := transact_progress hs hadvanced transition
    refine ⟨_, state, rfl, hload, fun p hp => ?_, (hkept.moves hprogress.moves).2⟩
    rw [← show u.state.participants.map (·.key) = state.participants.map (·.key) from
      congrArg Prod.snd hkeys]
    rw [hstate] at hp
    exact List.mem_map_of_mem (hperm.mem_iff.mpr hp)
  | kept established =>
    exact ⟨_, state, rfl, hload, fun p hp => List.mem_map_of_mem hp, .refl _⟩

/-- **One quiet step** and its ledger. -/
theorem quietStep_scoped {xs : List Registration} {host : Host} {input : Input}
    (hkept : Holds Kept host) (h : ScopedHost xs host) (hquiet : Quietly host input) :
    ScopedHost (xs ++ acceptedBy input (coordinator.step host input).2)
      (coordinator.step host input).1 := by
  have hkept' : Holds Kept (coordinator.step host input).1 :=
    quietStep_holds preserved_kept hkept (input.sound_nothing host) hquiet
  cases input with
  | «open» opening fault =>
    show ScopedHost (xs ++ []) _
    rw [List.append_nil]
    cases hr : (openRuntime opening fault host.disk).2.2 with
    | error e => exact absurd (congrArg some hr) (hquiet e)
    | ok reply =>
      obtain ⟨impl', state, hopened, hload, hkeys, hevolves⟩ := openRuntime_keys hkept.disk hr
      have hmemory := (hkept'.memory impl' hopened).2.1
      refine .of_memory hkept' hopened ?_
      exact (h.disk.load hload).1.of_keys hmemory.orderly hevolves hkeys
  | call call entropy fault =>
    cases hruntime : host.runtime with
    | none =>
      rw [coordinator_idle hruntime]
      have hnone : acceptedBy (.call call entropy fault) none = [] := by
        unfold acceptedBy
        split
        · next heq => cases heq
        · next heq => cases heq
        · rfl
      show ScopedHost (xs ++ acceptedBy (.call call entropy fault) none) host
      rw [hnone, List.append_nil]
      exact h
    | some impl =>
      have hstep := coordinator_call hruntime call entropy fault
      obtain ⟨hs, hk, -, -⟩ := hkept.memory impl hruntime
      rw [hstep] at hkept' ⊢
      cases hr : (callRuntime call entropy fault host.disk impl).result with
      | error e =>
        refine absurd ?_ (hquiet e)
        rw [hstep, hr]
      | ok reply =>
        exact .of_memory hkept' rfl (callRuntime_scoped hs hk (h.memory impl hruntime) hr)

/-- **The ledger of a run** in which no call throws. -/
theorem quietRun_scoped {inputs : List Input} {xs : List Registration} {host : Host}
    (hkept : Holds Kept host) (h : ScopedHost xs host)
    (hallows : coordinator.Allows Quietly host inputs) :
    ScopedHost (xs ++ accepted host inputs) (coordinator.run host inputs) := by
  induction inputs generalizing xs host with
  | nil =>
    show ScopedHost (xs ++ []) host
    rw [List.append_nil]
    exact h
  | cons input inputs ih =>
    have hkept' : Holds Kept (coordinator.step host input).1 :=
      quietStep_holds preserved_kept hkept (input.sound_nothing host) hallows.1
    have hrest := ih hkept' (quietStep_scoped hkept h hallows.1) hallows.2
    rwa [List.append_assoc] at hrest

/-! ## Grants -/

/-- **A grant that is issued** and no replay goes to a live incarnation of a
record whose scopes cover it. -/
theorem applyGrant_granted {entropy : Entropy} {request : GrantAuthorityRequest} {t u : Txn Impl}
    {r : GrantResult} (h : applyGrant entropy request t = .ok r u) (hout : r.outcome = .granted)
    (hnew : r.replayed = false) :
    ∃ p, t.state.findParticipant request.participant = some p ∧
      p.findIncarnation request.boot = some request.incarnation ∧
      p.scopes.containsAll request.scopes = true := by
  unfold applyGrant at h
  rw [Action.bind_current] at h
  cases hmalformed : t.state.malformedGrant request with
  | some result =>
    simp only [hmalformed] at h
    cases h
    exact absurd hout (malformedGrant_some hmalformed)
  | none =>
    cases hfound : t.state.findParticipant request.participant with
    | none =>
      simp only [hmalformed, hfound] at h
      cases h
      cases hout
    | some p =>
      simp only [hmalformed, hfound] at h
      cases hrefused : t.state.refusedGrantee p request with
      | some result =>
        simp only [hrefused] at h
        cases h
        exact absurd hout (refusedGrantee_some hrefused)
      | none =>
        refine ⟨p, rfl, refusedGrantee_none (malformedGrant_none hmalformed).incarnation hrefused, ?_⟩
        simp only [Impl.refusedGrantee] at hrefused
        split at hrefused
        · cases hrefused
        · split at hrefused
          · cases hrefused
          · next hscopes => simpa using hscopes

/-! ## What scopes are bound to -/

/-- What a current token and an issued grant say about the registrations that
were accepted before. -/
structure ScopesBound (xs : List Registration) (host : Host) (impl : Impl) : Prop where
  /-- The incarnation was registered, and it is current for the scopes of the
  registration of its participant that was accepted last. -/
  token : ∀ request : ValidateAuthorityRequest, request.grant = none →
    (impl.validate request).code = .current →
    (∃ x ∈ xs, x.Of request.token.participant request.token.boot request.token.incarnation) ∧
      ∃ y, lastRegistration xs request.token.participant = some y ∧
        ∀ scope, (impl.validate { request with scope }).code = .current ↔
          y.1.scopes.contains scope = true
  /-- The grantee was registered, and the grant stays within those scopes. -/
  grant : ∀ request entropy fault r,
    (coordinator.step host (.call (.grant request) entropy fault)).2 = some (.ok (.granted r)) →
    r.outcome = .granted → r.replayed = false →
    (∃ x ∈ xs, x.Of request.participant request.boot request.incarnation) ∧
      ∃ y, lastRegistration xs request.participant = some y ∧
        y.1.scopes.containsAll request.scopes = true

/-- **Scopes are bound to the participant**, by the registration that was
accepted last, in every state of a run without exceptions. -/
theorem scopesBound {inputs : List Input} (h : coordinator.Allows Quietly coordinator.init inputs)
    {impl : Impl} (himpl : (coordinator.run coordinator.init inputs).runtime = some impl) :
    ScopesBound (accepted coordinator.init inputs) (coordinator.run coordinator.init inputs) impl := by
  obtain ⟨hs, -, -, -⟩ := (quietRun_kept (Machine.leads_run h)).memory impl himpl
  have hscoped : Scoped (accepted coordinator.init inputs) impl.state := by
    have hstart : ScopedHost [] coordinator.init :=
      ⟨⟨fun _ => .initial [], fun _ himage => (nomatch himage)⟩, fun _ hi => (nomatch hi)⟩
    exact (quietRun_scoped (quietRun_kept .refl) hstart h).memory impl himpl
  -- what a live incarnation of a record that is found has behind it
  have hbehind : ∀ id p boot i, impl.findParticipant id = some p → p.findIncarnation boot = some i →
      (∃ x ∈ accepted coordinator.init inputs, x.Of id boot i) ∧
        ∃ y, lastRegistration (accepted coordinator.init inputs) id = some y ∧
          y.1.scopes = p.scopes := by
    intro id p boot i hfound hlive
    rw [hs.regular.find] at hfound
    obtain ⟨hmem, rfl⟩ := DurableState.mem_of_lookup hfound
    exact ⟨hscoped.live p hmem (boot, i) (DurableParticipant.mem_live_of_find hlive),
      hscoped.last p hmem⟩
  constructor
  · intro request hnone hcurrent
    obtain ⟨hshape, ⟨_, _, _, hsome, -⟩ | ⟨-, p, htoken⟩⟩ := validate_current_iff.mp hcurrent
    · rw [hnone] at hsome
      cases hsome
    obtain ⟨hregistered, y, hy, hscopes⟩ := hbehind _ p _ _ htoken.found htoken.incarnation
    refine ⟨hregistered, y, hy, fun scope => ?_⟩
    rw [hscopes]
    constructor
    · intro hscope
      obtain ⟨-, ⟨_, _, _, hsome, -⟩ | ⟨-, p', htoken'⟩⟩ := validate_current_iff.mp hscope
      · rw [show ({ request with scope } : ValidateAuthorityRequest).grant = none from hnone] at hsome
        cases hsome
      · obtain rfl : p = p' := Option.some.inj (htoken.found.symm.trans htoken'.found)
        exact htoken'.scope
    · intro hscope
      exact validate_current_iff.mpr ⟨hshape, .inr ⟨hnone, p, htoken.epoch, htoken.found,
        htoken.notRetired, htoken.incarnation, hscope, htoken.generation⟩⟩
  · intro request entropy fault r hanswer hout hnew
    rw [coordinator_call himpl] at hanswer
    have hresult : (transact (applyGrant entropy request) fault
        (coordinator.run coordinator.init inputs).disk impl).result = .ok r :=
      Transacted.of_map (fun _ _ => Reply.granted.inj) (Option.some.inj hanswer)
    obtain ⟨t, ht, -⟩ := transact_ok hresult
    obtain ⟨p, hfound, hlive, hscopes⟩ := applyGrant_granted ht hout hnew
    obtain ⟨hregistered, y, hy, hsame⟩ := hbehind _ p _ _ hfound hlive
    exact ⟨hregistered, y, hy, hsame ▸ hscopes⟩

/-! ### Two incarnations with different scopes -/

/-- Another scope. -/
def otherScope : AuthorityScope := ⟨.site, str "b"⟩

def otherScopes : ScopeSet := ⟨[otherScope], List.pairwise_singleton _ _⟩

/-- Register one more incarnation of the participant, for these scopes. -/
def registerScopes (n : UInt8) (boot : WorkerBootId) (scopes : ScopeSet) :
    RegisterParticipantRequest :=
  { testRegister n (testParticipant "p") boot with policy := .multiIncarnation, scopes }

/-- A boot registers one scope, a second boot the other one. -/
def sharedRun : List Input := [
  testOpen { allowMultiIncarnation := true } 1,
  callOf (.register (registerScopes 3 (smallId 4) testScopes)),
  callOf (.register (registerScopes 5 (smallId 6) otherScopes))]

/-- The first boot asks for the scope of the second. -/
def otherRequest : ValidateAuthorityRequest where
  token := ⟨smallCounter 1, testParticipant "p", smallId 4, smallCounter 1, .zero⟩
  scope := otherScope

theorem scopesBound_test : ∃ (host : Host) (impl : Impl),
    ScopesBound (accepted coordinator.init sharedRun) host impl ∧
      (impl.validate otherRequest).code = .current := by
  have hrun : (coordinator.run coordinator.init sharedRun).runtime.map (fun impl =>
      (impl.validate otherRequest).code) = some .current := by decide +kernel
  obtain ⟨impl, himpl, hcurrent⟩ := Option.map_eq_some_iff.mp hrun
  exact ⟨_, impl, scopesBound (by decide +kernel) himpl, hcurrent⟩

/-- A current token without a grant names a scope that its incarnation was
registered for. -/
def OwnScopes (xs : List Registration) (impl : Impl) : Prop :=
  ∀ request : ValidateAuthorityRequest, request.grant = none →
    (impl.validate request).code = .current → ∃ x ∈ xs,
      x.Of request.token.participant request.token.boot request.token.incarnation ∧
        x.1.scopes.contains request.scope = true

/-- **The scopes of the second incarnation** are those of the first one, too. -/
theorem sharedScopes : ∃ inputs impl, coordinator.Allows Quietly coordinator.init inputs ∧
    (coordinator.run coordinator.init inputs).runtime = some impl ∧
    ¬ OwnScopes (accepted coordinator.init inputs) impl := by
  have hrun : (coordinator.run coordinator.init sharedRun).runtime.map (fun impl =>
      (impl.validate otherRequest).code) = some .current := by decide +kernel
  have hledger : ∀ x ∈ accepted coordinator.init sharedRun,
      x.Of (testParticipant "p") (smallId 4) (smallCounter 1) →
        x.1.scopes.contains otherScope = false := by decide +kernel
  obtain ⟨impl, himpl, hcurrent⟩ := Option.map_eq_some_iff.mp hrun
  refine ⟨sharedRun, impl, by decide +kernel, himpl, fun h => ?_⟩
  obtain ⟨x, hx, hof, hscope⟩ := h otherRequest rfl hcurrent
  have hnot := hledger x hx hof
  rw [show otherRequest.scope = otherScope from rfl, hnot] at hscope
  cases hscope

end FabricEpoch
