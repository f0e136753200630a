import FabricEpoch.Runtime.Moves

/-!
# What a returned operation has done

An operation that returns has either left the transaction alone or taken the
durable state through moves and asked for them to be made durable
(`Advanced`). The lemmas follow the operations:

- `recordFence_cases`, `commitRegistration_cases`, ...: the state an operation
  returns in, written down;
- `recordFence_advanced`, `applyRegistration_advanced`, ...: the moves behind it.

Lookups are assumed to be right about participants and grants (`Regular`),
which every operation preserves. What is asked of the fence lookups is said
where they are used (`FenceAgrees`).
-/

namespace FabricEpoch

open Table Transaction

/-! ## Regular memories -/

namespace Impl

/-- The index holds the position of every participant, and nothing else. -/
def Indexed (impl : Impl) : Prop :=
  ∀ id i, impl.participantIndex id = some i ↔ impl.ids[i]? = some id

/-- Lookups of participants and grants are right, and the records are orderly. -/
structure Regular (impl : Impl) : Prop where
  index : impl.Indexed
  grants : ∀ id i, impl.grantIndex id = some i → (impl.state.grants.map (·.id))[i]? = some id
  orderly : Orderly impl.state

/-- The same options and indexes. -/
structure SameLookups (impl impl' : Impl) : Prop where
  options : impl'.options = impl.options
  participantIndex : impl'.participantIndex = impl.participantIndex
  grantIndex : impl'.grantIndex = impl.grantIndex
  fenceIndex : impl'.fenceIndex = impl.fenceIndex

variable {impl : Impl}

/-- **Reading through the index is looking the record up.** -/
theorem Indexed.find (h : impl.Indexed) (id : ParticipantId) :
    impl.findParticipant id = impl.state.lookup id := by
  cases hl : impl.state.lookup id with
  | none =>
    rw [findParticipant, Option.bind_eq_none_iff]
    intro i hi
    have hid := (h id i).mp hi
    rw [ids_getElem?] at hid
    obtain ⟨p, hp, rfl⟩ := Option.map_eq_some_iff.mp hid
    exact absurd rfl (lookup_none.mp hl p (List.mem_of_getElem? hp))
  | some p =>
    obtain ⟨hp, rfl⟩ := DurableState.mem_of_lookup hl
    obtain ⟨i, hi⟩ := List.mem_iff_getElem?.mp hp
    refine findParticipant_eq_some.mpr ⟨i, (h p.id i).mpr ?_, hi⟩
    rw [ids_getElem?, hi]
    rfl

/-- **Writing through the index updates the record.** -/
theorem Indexed.update (h : impl.Indexed) (hn : impl.ids.Nodup) (id : ParticipantId)
    (f : DurableParticipant → DurableParticipant) :
    impl.updateParticipant id f = impl.mapState (·.updateParticipant id f) := by
  unfold updateParticipant
  cases hi : impl.participantIndex id with
  | some i =>
    have hid := (h id i).mp hi
    rw [ids_getElem?] at hid
    obtain ⟨p, hp, hpid⟩ := Option.map_eq_some_iff.mp hid
    simp only [mapState, DurableState.updateParticipant, modify_eq_updateKey hn hp hpid]
  | none =>
    have hmissing : ∀ p ∈ impl.state.participants, p.id ≠ id := by
      rintro p hp rfl
      obtain ⟨i, hrecord⟩ := List.mem_iff_getElem?.mp hp
      rw [(h p.id i).mpr (by rw [ids_getElem?, hrecord]; rfl)] at hi
      cases hi
    simp only [mapState, DurableState.updateParticipant, updateKey_of_not_mem hmissing]

/-- A rebuilt index is right, where no two records share an identifier. -/
theorem Indexed.rebuild {impl : Impl} (hn : impl.ids.Nodup) : impl.rebuildIndexes.Indexed := by
  refine fun id i => ⟨fun hi => ?_, fun hi => ?_⟩
  · obtain ⟨p, hp, hid⟩ := indexBy_eq_some (show indexBy (fun p => [p.id])
      impl.state.participants id = some i from hi)
    rw [ids_getElem?, show impl.rebuildIndexes.state.participants[i]? = some p from hp,
      List.mem_singleton.mp hid]
    rfl
  · have hn' : impl.rebuildIndexes.ids.Nodup := hn
    have hid := List.mem_of_getElem? hi
    obtain ⟨j, hj, hplace⟩ := (findable_rebuildIndexes impl).listed id hid
    have hlt := (List.getElem?_eq_some_iff.mp hi).1
    rw [hj, (List.getElem?_inj hlt hn').mp (hi.trans hplace.symm)]

/-- The index behind a creation. -/
theorem Indexed.create (h : impl.Indexed) {id : ParticipantId} (hnew : id ∉ impl.ids)
    (policy : IncarnationPolicy) : (impl.createParticipant id policy).Indexed := by
  intro id' i
  have hids : (impl.createParticipant id policy).ids = impl.ids ++ [id] := List.map_append
  have hlength : impl.ids.length = impl.state.participants.length := List.length_map _
  rw [hids]
  show (if id' = id then some impl.state.participants.length
    else impl.participantIndex id') = some i ↔ _
  by_cases hid : id' = id
  · rw [if_pos hid, hid, ← hlength, Option.some.injEq]
    constructor
    · rintro rfl
      exact List.getElem?_concat_length
    · intro hi
      by_contra hne
      rcases Nat.lt_or_ge i impl.ids.length with hlt | hge
      · rw [List.getElem?_append_left hlt] at hi
        exact hnew (List.mem_of_getElem? hi)
      · rw [List.getElem?_append_right hge, List.getElem?_singleton] at hi
        split at hi
        · omega
        · cases hi
  · rw [if_neg hid, h id' i]
    rcases Nat.lt_or_ge i impl.ids.length with hlt | hge
    · rw [List.getElem?_append_left hlt]
    · rw [List.getElem?_append_right hge, List.getElem?_eq_none hge, List.getElem?_singleton]
      split
      · simpa using fun h => hid h.symm
      · rfl

namespace Regular

theorem nodup (h : impl.Regular) : impl.ids.Nodup := h.orderly.ids

theorem find (h : impl.Regular) (id : ParticipantId) :
    impl.findParticipant id = impl.state.lookup id := h.index.find id

theorem update (h : impl.Regular) (id : ParticipantId)
    (f : DurableParticipant → DurableParticipant) :
    impl.updateParticipant id f = impl.mapState (·.updateParticipant id f) :=
  h.index.update h.nodup id f

/-- A grant that is found has the identifier it was looked up by. -/
theorem grant_of_find (h : impl.Regular) {id : AuthorityGrantId} {g : AuthorityGrant}
    (hg : impl.findGrant id = some g) : g ∈ impl.state.grants ∧ g.id = id := by
  obtain ⟨i, hi, hrecord⟩ := Option.bind_eq_some_iff.mp hg
  have hid := h.grants id i hi
  rw [List.getElem?_map, hrecord] at hid
  exact ⟨List.mem_of_getElem? hrecord, Option.some.inj hid⟩

/-- Changes that keep the identifiers and the indexes. -/
theorem of_same {impl' : Impl} (h : impl.Regular) (hsame : SameLookups impl impl')
    (hids : impl'.ids = impl.ids)
    (hgrants : impl'.state.grants.map (·.id) = impl.state.grants.map (·.id))
    (horderly : Orderly impl'.state) : impl'.Regular := by
  refine ⟨fun id i => ?_, fun id i hi => ?_, horderly⟩
  · rw [hsame.participantIndex, hids]
    exact h.index id i
  · rw [hgrants]
    exact h.grants id i (by rwa [← hsame.grantIndex])

/-- A change of the state alone that leaves participants and grants alone. -/
theorem setState (h : impl.Regular) {f : DurableState → DurableState}
    (hparticipants : (f impl.state).participants = impl.state.participants)
    (hgrants : (f impl.state).grants.map (·.id) = impl.state.grants.map (·.id)) :
    (impl.mapState f).Regular :=
  h.of_same ⟨rfl, rfl, rfl, rfl⟩ (congrArg (List.map DurableParticipant.id) hparticipants) hgrants
    (h.orderly.of_participants hparticipants)

/-- A change of one record. -/
theorem updated (h : impl.Regular) {id : ParticipantId}
    {f : DurableParticipant → DurableParticipant} (hid : ∀ p, (f p).id = p.id)
    (hf : ∀ p ∈ impl.state.participants, p.id = id → OrderlyRecord (f p)) :
    (impl.mapState (·.updateParticipant id f)).Regular :=
  h.of_same ⟨rfl, rfl, rfl, rfl⟩ (map_key_updateKey hid) rfl (h.orderly.updateParticipant hid hf)

/-- **Rebuilt indexes are right** over orderly records. -/
theorem rebuild {impl : Impl} (h : Orderly impl.state) : impl.rebuildIndexes.Regular := by
  refine ⟨.rebuild h.ids, fun id i hi => ?_, h⟩
  obtain ⟨g, hg, hid⟩ := indexBy_eq_some (show indexBy (fun g => [g.id])
    impl.state.grants id = some i from hi)
  rw [List.getElem?_map, show impl.rebuildIndexes.state.grants[i]? = some g from hg,
    List.mem_singleton.mp hid]
  rfl

end Regular

end Impl

/-! ## Advances -/

/-- The transaction was left alone, or moved and marked. -/
structure Advanced (T : Trust) (limits : Limits) (t u : Txn Impl) : Prop where
  moves : Moves T limits t.state.state u.state.state
  regular : u.state.Regular
  options : u.state.options = t.state.options
  marked : u = t ∨ u.mutated = true

namespace Advanced

variable {T : Trust} {limits : Limits} {t u v : Txn Impl}

theorem refl (h : t.state.Regular) : Advanced T limits t t := ⟨.refl, h, rfl, .inl rfl⟩

theorem trans (h₁ : Advanced T limits t u) (h₂ : Advanced T limits u v) :
    Advanced T limits t v := by
  refine ⟨h₁.moves.trans h₂.moves, h₂.regular, h₂.options.trans h₁.options, ?_⟩
  rcases h₂.marked with rfl | h
  · exact h₁.marked
  · exact .inr h

end Advanced

theorem bumpGeneration_ok {t u : Txn Impl} {r : Unit} (h : bumpGeneration t = .ok r u) :
    ∃ g, t.state.state.generation.next = some g ∧
      u = ⟨t.state.setGeneration g,
        Impl.setGeneration t.state.state.generation :: t.undo, t.mutated⟩ := by
  unfold bumpGeneration at h
  rw [Action.bind_current, Action.bind_pushUndo, Action.bind_ok] at h
  obtain ⟨g, t', horfail, hmodify⟩ := h
  obtain ⟨hnext, rfl⟩ := Action.orFail_ok.mp horfail
  cases hmodify
  exact ⟨g, hnext, rfl⟩

theorem bumpGeneration_error {t t' : Txn Impl} {e : EpochError}
    (h : bumpGeneration t = .error e t') :
    t.state.state.generation.next = none ∧
      t' = { t with undo := Impl.setGeneration t.state.state.generation :: t.undo } := by
  unfold bumpGeneration at h
  rw [Action.bind_current, Action.bind_pushUndo, Action.bind_error] at h
  rcases h with hthrow | ⟨g, v, -, hmodify⟩
  · obtain ⟨hnext, -, rfl⟩ := Action.orFail_error.mp hthrow
    exact ⟨hnext, rfl⟩
  · cases hmodify

theorem bumpWhen_ok {condition : Bool} {t u : Txn Impl} {r : Unit}
    (h : bumpWhen condition t = .ok r u) : condition = false ∧ u = t ∨
      ∃ g, t.state.state.generation.next = some g ∧
        u = ⟨t.state.setGeneration g,
          Impl.setGeneration t.state.state.generation :: t.undo, t.mutated⟩ := by
  cases condition with
  | false =>
    cases h
    exact .inl ⟨rfl, rfl⟩
  | true => exact .inr (bumpGeneration_ok h)

/-- A bump of the generation is a move, or there is none. -/
theorem bumpWhen_moves (T : Trust) (limits : Limits) {condition : Bool} {t u : Txn Impl} {r : Unit}
    (ht : t.state.Regular) (h : bumpWhen condition t = .ok r u) :
    Moves T limits t.state.state u.state.state ∧ u.state.Regular ∧
      u.state.options = t.state.options ∧ u.mutated = t.mutated := by
  rcases bumpWhen_ok h with ⟨-, rfl⟩ | ⟨g, hnext, rfl⟩
  · exact ⟨.refl, ht, rfl, rfl⟩
  · exact ⟨.single (.bump hnext), ht.setState (f := fun s => { s with generation := g }) rfl rfl, rfl,
      rfl⟩

/-! ## Fencing -/

/-! ### What the mutations of a fence leave alone -/

section Untouched

variable (impl : Impl) (id : ParticipantId) (f : DurableParticipant → DurableParticipant)

@[simp] theorem generation_updateParticipant :
    (impl.updateParticipant id f).state.generation = impl.state.generation := by
  unfold Impl.updateParticipant
  split <;> rfl

@[simp] theorem fenceFloor_updateParticipant :
    (impl.updateParticipant id f).state.fenceFloor = impl.state.fenceFloor := by
  unfold Impl.updateParticipant
  split <;> rfl

@[simp] theorem recentFences_updateParticipant :
    (impl.updateParticipant id f).state.recentFences = impl.state.recentFences := by
  unfold Impl.updateParticipant
  split <;> rfl

@[simp] theorem options_updateParticipant :
    (impl.updateParticipant id f).options = impl.options := by
  unfold Impl.updateParticipant
  split <;> rfl

variable (boot : WorkerBootId) (i : IncarnationSequence) (record : FenceRecord)

theorem generation_applyPreventive :
    (impl.applyPreventive id record).state.generation = impl.state.generation :=
  generation_updateParticipant (impl.setFenceFloor record.generation) id _

theorem generation_applyFence :
    ((impl.applyRemoval id boot i).applyFence id record).state.generation =
      impl.state.generation := by
  show (Impl.updateParticipant _ _ _).state.generation = _
  rw [generation_updateParticipant]
  show (Impl.updateParticipant _ _ _).state.generation = _
  rw [generation_updateParticipant]
  exact generation_updateParticipant _ _ _

theorem options_applyRemoval : (impl.applyRemoval id boot i).options = impl.options :=
  (options_updateParticipant _ _ _).trans (options_updateParticipant _ _ _)

theorem recentFences_applyRemoval :
    (impl.applyRemoval id boot i).state.recentFences = impl.state.recentFences :=
  (recentFences_updateParticipant _ _ _).trans (recentFences_updateParticipant _ _ _)

end Untouched

/-! ### Case by case -/

/-- **Everything a fence that returns can have done.** -/
inductive FenceCase (id : ParticipantId) (boot : WorkerBootId) (reason : FenceReason)
    (note : BoundedText) (defensive : Bool) (t : Txn Impl) : FenceResult → Txn Impl → Prop
  | unknown {r : FenceResult} (missing : t.state.findParticipant id = none)
      (outcome : r.outcome = .unknownParticipant) : FenceCase id boot reason note defensive t r t
  | already {r : FenceResult} (fenced : (t.state.lookupFence id boot).fenced = true)
      (outcome : r.outcome = .alreadyFenced) : FenceCase id boot reason note defensive t r t
  | notLive {r : FenceResult} {p : DurableParticipant}
      (found : t.state.findParticipant id = some p) (notLive : p.findIncarnation boot = none)
      (outcome : r.outcome = .alreadyFenced) : FenceCase id boot reason note defensive t r t
  | full {r : FenceResult} (allowed : defensive = true) (outcome : r.outcome = .resourceLimit) :
      FenceCase id boot reason note defensive t r t
  | preventive {r : FenceResult} {p : DurableParticipant} {generation : FencingGeneration}
      {next : EpochGeneration} {record : FenceRecord}
      (allowed : defensive = true)
      (eq : record = t.state.preventiveRecord id boot reason note generation)
      (found : t.state.findParticipant id = some p)
      (notFenced : (t.state.lookupFence id boot).fenced = false)
      (notLive : p.findIncarnation boot = none)
      (room : t.state.state.recentFences.length < t.state.options.limits.maxRecentFences)
      (floor : t.state.state.fenceFloor.next = some generation)
      (bump : (t.state.applyPreventive id record).state.generation.next = some next)
      (outcome : r.outcome = .fenced) :
      FenceCase id boot reason note defensive t r
        ⟨(t.state.applyPreventive id record).setGeneration next,
          Impl.setGeneration (t.state.applyPreventive id record).state.generation ::
            t.state.undoPreventive id p :: t.undo, true⟩
  | live {r : FenceResult} {p : DurableParticipant} {i : IncarnationSequence}
      {generation : FencingGeneration} {next : EpochGeneration} {record : FenceRecord}
      (eq : record = t.state.liveRecord id boot i reason note generation)
      (found : t.state.findParticipant id = some p)
      (live : p.findIncarnation boot = some i)
      (floor : t.state.state.fenceFloor.next = some generation)
      (bump : ((t.state.applyRemoval id boot i).applyFence id record).state.generation.next =
        some next)
      (outcome : r.outcome = .fenced) :
      FenceCase id boot reason note defensive t r
        ⟨((t.state.applyRemoval id boot i).applyFence id record).setGeneration next,
          Impl.setGeneration
              ((t.state.applyRemoval id boot i).applyFence id record).state.generation ::
            t.state.undoFence id p :: t.undo, true⟩

theorem recordFence_cases {id : ParticipantId} {boot : WorkerBootId} {reason : FenceReason}
    {note : BoundedText} {defensive : Bool} {t u : Txn Impl} {r : FenceResult}
    (h : recordFence id boot reason note defensive t = .ok r u) :
    FenceCase id boot reason note defensive t r u := by
  unfold recordFence at h
  rw [Action.bind_current] at h
  cases hp : t.state.findParticipant id with
  | none =>
    simp only [hp] at h
    cases h
    exact .unknown hp rfl
  | some p =>
    simp only [hp] at h
    cases hfenced : (t.state.lookupFence id boot).fenced with
    | true =>
      simp only [hfenced, if_true] at h
      cases h
      exact .already hfenced rfl
    | false =>
      simp only [hfenced, Bool.false_eq_true, if_false] at h
      cases hlive : p.findIncarnation boot with
      | some i =>
        simp only [hlive, fenceIncarnation, Action.bind_current, Action.bind_pushUndo,
          Action.bind_modify] at h
        obtain ⟨generation, t₁, horfail, h⟩ := Action.bind_ok.mp h
        obtain ⟨hfloor, rfl⟩ := Action.orFail_ok.mp horfail
        rw [Action.bind_modify] at h
        obtain ⟨⟨⟩, t₂, hbump, h⟩ := Action.bind_ok.mp h
        obtain ⟨next, hnext, rfl⟩ := bumpGeneration_ok hbump
        cases h
        exact .live rfl hp hlive hfloor hnext rfl
      | none =>
        simp only [hlive] at h
        split at h
        · cases h
          exact .notLive hp hlive rfl
        · next hallowed =>
          split at h
          · cases h
            exact .full (by simpa using hallowed) rfl
          · next hroom =>
            simp only [recordPreventiveFence, Action.bind_current] at h
            obtain ⟨generation, t₁, horfail, h⟩ := Action.bind_ok.mp h
            obtain ⟨hfloor, rfl⟩ := Action.orFail_ok.mp horfail
            rw [Action.bind_pushUndo, Action.bind_modify] at h
            obtain ⟨⟨⟩, t₂, hbump, h⟩ := Action.bind_ok.mp h
            obtain ⟨next, hnext, rfl⟩ := bumpGeneration_ok hbump
            cases h
            exact .preventive (by simpa using hallowed) rfl hp hfenced hlive (Nat.lt_of_not_le hroom) hfloor hnext rfl

/-- **What a fence that is recorded answers.** A preventive one names no
incarnation. -/
theorem recordFence_answer {id : ParticipantId} {boot : WorkerBootId} {reason : FenceReason}
    {note : BoundedText} {defensive : Bool} {t u : Txn Impl} {r : FenceResult}
    (h : recordFence id boot reason note defensive t = .ok r u) (hfenced : r.outcome = .fenced) :
    ∃ p generation, t.state.findParticipant id = some p ∧
      t.state.state.fenceFloor.next = some generation ∧ r.epoch = t.state.state.currentEpoch ∧
      r.fenceGeneration = some generation ∧ r.incarnation = p.findIncarnation boot := by
  unfold recordFence at h
  rw [Action.bind_current] at h
  cases hp : t.state.findParticipant id with
  | none =>
    simp only [hp] at h
    cases h
    cases hfenced
  | some p =>
    simp only [hp] at h
    split at h
    · cases h
      cases hfenced
    cases hlive : p.findIncarnation boot with
    | some i =>
      simp only [hlive, fenceIncarnation, Action.bind_current, Action.bind_pushUndo,
        Action.bind_modify] at h
      obtain ⟨generation, t₁, horfail, h⟩ := Action.bind_ok.mp h
      obtain ⟨hfloor, rfl⟩ := Action.orFail_ok.mp horfail
      rw [Action.bind_modify] at h
      obtain ⟨⟨⟩, t₂, -, h⟩ := Action.bind_ok.mp h
      cases h
      exact ⟨p, generation, rfl, hfloor, rfl, rfl, hlive.symm⟩
    | none =>
      simp only [hlive] at h
      split at h
      · cases h
        cases hfenced
      · split at h
        · cases h
          cases hfenced
        · simp only [recordPreventiveFence, Action.bind_current] at h
          obtain ⟨generation, t₁, horfail, h⟩ := Action.bind_ok.mp h
          obtain ⟨hfloor, rfl⟩ := Action.orFail_ok.mp horfail
          rw [Action.bind_pushUndo, Action.bind_modify] at h
          obtain ⟨⟨⟩, t₂, -, h⟩ := Action.bind_ok.mp h
          cases h
          exact ⟨p, generation, rfl, hfloor, rfl, rfl, hlive.symm⟩

/-- A fence of a boot that is fenced. -/
theorem recordFence_already {id : ParticipantId} {boot : WorkerBootId} {reason : FenceReason}
    {note : BoundedText} {defensive : Bool} {t : Txn Impl} {p : DurableParticipant}
    (hfound : t.state.findParticipant id = some p)
    (hfenced : (t.state.lookupFence id boot).fenced = true) :
    ∃ r, r.outcome = .alreadyFenced ∧ recordFence id boot reason note defensive t = .ok r t := by
  unfold recordFence
  rw [Action.bind_current]
  simp only [hfound, hfenced, if_true]
  exact ⟨_, rfl, rfl⟩

/-- A fence that is no preventive one: the boot was live, or it was left alone. -/
theorem recordFence_own {id : ParticipantId} {boot : WorkerBootId} {reason : FenceReason}
    {note : BoundedText} {t u : Txn Impl} {r : FenceResult}
    (h : recordFence id boot reason note false t = .ok r u) :
    (∃ p i generation next record, record = t.state.liveRecord id boot i reason note generation ∧
      t.state.findParticipant id = some p ∧ p.findIncarnation boot = some i ∧
      ((t.state.applyRemoval id boot i).applyFence id record).state.generation.next = some next ∧
      u.state = ((t.state.applyRemoval id boot i).applyFence id record).setGeneration next ∧
      u.mutated = true) ∨
    u = t ∧ ∀ p, t.state.findParticipant id = some p →
      (t.state.lookupFence id boot).fenced = true ∨ p.findIncarnation boot = none := by
  cases recordFence_cases h with
  | unknown missing outcome =>
    refine .inr ⟨rfl, fun p hp => ?_⟩
    rw [missing] at hp
    cases hp
  | already fenced outcome => exact .inr ⟨rfl, fun _ _ => .inl fenced⟩
  | notLive found notLive outcome =>
    refine .inr ⟨rfl, fun p hp => .inr ?_⟩
    rwa [← Option.some.inj (found.symm.trans hp)]
  | full allowed outcome => cases allowed
  | preventive allowed => cases allowed
  | @live p i generation next record eq found live floor bump outcome =>
    exact .inl ⟨p, i, generation, next, record, eq, found, live, bump, rfl, rfl⟩

namespace Impl.Regular

variable {impl : Impl}

theorem applyPreventive (h : impl.Regular) (id : ParticipantId) (record : FenceRecord) :
    impl.applyPreventive id record = impl.mapState fun s =>
      { s.updateParticipant id (·.setFenceGeneration record.generation) with
        fenceFloor := record.generation
        recentFences := s.recentFences ++ [record] } := by
  have hfloor : (impl.setFenceFloor record.generation).Regular := h.setState rfl rfl
  rw [Impl.applyPreventive, hfloor.update]
  rfl

theorem applyFence (h : impl.Regular) (id : ParticipantId) (boot : WorkerBootId)
    (i : IncarnationSequence) (record : FenceRecord) (hboot : record.boot = boot) :
    (impl.applyRemoval id boot i).applyFence id record =
      (impl.setActiveWorkers (impl.activeWorkers - 1)).mapState fun s =>
        { s.updateParticipant id (·.fence impl.options.limits boot i record.generation) with
          fenceFloor := record.generation
          recentFences := evictPush impl.options.limits.maxRecentFences s.recentFences record } := by
  have hremoved : (impl.mapState (·.updateParticipant id (·.removeIncarnation boot))).Regular :=
    h.updated (fun p => p.removeIncarnation_id boot)
      fun p hp _ => (h.orderly.records p hp).removeIncarnation boot
  have hworkers : ((impl.mapState (·.updateParticipant id
      (·.removeIncarnation boot))).setActiveWorkers (impl.activeWorkers - 1)).Regular :=
    hremoved.of_same ⟨rfl, rfl, rfl, rfl⟩ rfl rfl hremoved.orderly
  have hraised : (((impl.mapState (·.updateParticipant id
      (·.removeIncarnation boot))).setActiveWorkers (impl.activeWorkers - 1)).mapState
        (·.updateParticipant id (·.raiseFloor i))).Regular :=
    hworkers.updated (fun p => p.raiseFloor_id i)
      fun p hp _ => (hworkers.orderly.records p hp).raiseFloor i
  have hfloor := hraised.setState (f := fun s => { s with fenceFloor := record.generation }) rfl rfl
  have hremoval : impl.applyRemoval id boot i = ((impl.mapState
      (·.updateParticipant id (·.removeIncarnation boot))).setActiveWorkers
        (impl.activeWorkers - 1)).mapState (·.updateParticipant id (·.raiseFloor i)) := by
    rw [Impl.applyRemoval, h.update, hworkers.update]
  rw [hremoval, Impl.applyFence, Impl.setFenceFloor, hfloor.update]
  simp only [mapState, setActiveWorkers, DurableState.updateParticipant, hboot]
  rw [updateKey_updateKey fun p => p.raiseFloor_id i,
    updateKey_updateKey fun p => p.removeIncarnation_id boot]
  rfl

end Impl.Regular

/-- The lookup tells what the retained records say. -/
def Impl.FenceAgrees (impl : Impl) (id : ParticipantId) (boot : WorkerBootId) : Prop :=
  (impl.lookupFence id boot).fenced = true ↔ impl.state.Fenced id boot

/-- **A fence that returns** has moved. -/
theorem recordFence_advanced {T : Trust} {limits : Limits} {id : ParticipantId}
    {boot : WorkerBootId} {reason : FenceReason} {note : BoundedText} {defensive : Bool}
    {t u : Txn Impl} {r : FenceResult} (ht : t.state.Regular)
    (hlimits : t.state.options.limits = limits)
    (hincumbency : T.fences → Incumbency t.state.state)
    (hagrees : T.fences → defensive = true → t.state.FenceAgrees id boot)
    (hboot : defensive = true → boot.isNil = false) (hnote : T.texts → note.Storable)
    (h : recordFence id boot reason note defensive t = .ok r u) : Advanced T limits t u := by
  subst hlimits
  cases recordFence_cases h with
  | unknown _ _ => exact .refl ht
  | already _ _ => exact .refl ht
  | notLive _ _ _ => exact .refl ht
  | full _ _ => exact .refl ht
  | @preventive p generation next record allowed eq found notFenced notLive room floor bump _ =>
    subst eq
    rw [ht.applyPreventive] at bump ⊢
    rw [ht.find] at found
    have hmove : Move T t.state.options.limits t.state.state _ :=
      .preventive (r := t.state.preventiveRecord id boot reason note generation) found notLive
        (fun hT hfenced => by rw [(hagrees hT allowed).mpr hfenced] at notFenced; cases notFenced)
        (hboot allowed) room floor rfl rfl hnote
    have hbump : Move T t.state.options.limits _ _ := .bump bump
    have hmoves := (Relation.ReflTransGen.single hmove).tail hbump
    refine ⟨hmoves, ht.of_same ⟨rfl, rfl, rfl, rfl⟩ ?_ rfl (Moves.orderly hmoves ht.orderly), rfl,
      .inr rfl⟩
    exact t.state.state.ids_updateParticipant id (f := (·.setFenceGeneration generation)) fun _ => rfl
  | @live p i generation next record eq found live floor bump _ =>
    subst eq
    rw [ht.applyFence id boot i (t.state.liveRecord id boot i reason note generation)
      rfl] at bump ⊢
    rw [ht.find] at found
    have hmove : Move T t.state.options.limits t.state.state _ :=
      .fence (r := t.state.liveRecord id boot i reason note generation) found live
        (fun hT => ?_) floor rfl hnote
    · have hbump : Move T t.state.options.limits _ _ := .bump bump
      have hmoves := (Relation.ReflTransGen.single hmove).tail hbump
      refine ⟨hmoves, ht.of_same ⟨rfl, rfl, rfl, rfl⟩ ?_ rfl (Moves.orderly hmoves ht.orderly),
        rfl, .inr rfl⟩
      exact map_key_updateKey fun p => p.fence_id _ _ _ _
    · obtain ⟨hp, rfl⟩ := DurableState.mem_of_lookup found
      exact (hincumbency hT).notFenced p hp boot (DurableParticipant.mem_liveBoots_of_find live)

end FabricEpoch
