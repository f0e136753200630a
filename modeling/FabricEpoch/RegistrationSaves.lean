import FabricEpoch.Batches
import FabricEpoch.FailedSaves
import FabricEpoch.Rollbacks
import FabricEpoch.Runtime.Barrier
import FabricEpoch.Runtime.Ordering

/-!
# Registrations whose save throws

The undo actions of a registration name an existing participant by its
identifier and a new one by its position: the last one. By the time they run the
records have been sorted, so `pop_back` takes the greatest identifier, whichever
participant that is. A replacement also writes the ring of recent fences, and
what the ring has lost to eviction no undo action puts back.

- `reachable_sorted`: every reachable memory, and the image, is in order;
- `Impl.rewound`: the state as far as a rollback sees it, with the records that
  were there before in front;
- `Impl.CanTakeBack`: no participant is created in front of one that was there,
  and no fence record leaves the ring;
- `Takeable.restored`: then the undo actions restore the state;
- `failedRegistration_undone`: so a save that throws leaves the state as it was;
- `failedRegistration_drops`: a run in which another participant is dropped.
-/

namespace FabricEpoch

open Table Transaction

/-! ## Records in order -/

/-- The records stand in the order of their identifiers. -/
def DurableState.Sorted (s : DurableState) : Prop :=
  (s.participants.map (·.id)).Pairwise (· ≤ ·)

/-- Sorting sorts. -/
theorem Impl.sorted_canonicalize (s : Impl) : s.canonicalize.state.Sorted :=
  List.pairwise_map.mpr (canonicalize_sorted s)

/-- **Distinct identifiers in order**, whatever becomes of an operation. -/
theorem sorted_upholds : Upholds (fun s => s.Distinct ∧ s.state.Sorted) Traced where
  primitives h := distinct_upholds.primitives h.1
  start h := distinct_upholds.start h.1
  rolledBack {before t} h ht := by
    refine ⟨distinct_upholds.rolledBack h.1 ht, ?_⟩
    have hids : t.rollback.ids = before.ids := ht.anchored.undone t.state rfl
    show t.rollback.ids.Pairwise (· ≤ ·)
    rw [hids]
    exact h.2
  committed {before t} h ht := ⟨distinct_upholds.committed h.1 ht, t.state.sorted_canonicalize⟩
  restored {before t} h ht := by
    refine ⟨distinct_upholds.restored h.1 ht, ?_⟩
    have hperm := t.state.ids_canonicalize_perm
    have hsorted : t.state.canonicalize.ids.Pairwise (· ≤ ·) := t.state.sorted_canonicalize
    exact ht.foldl (Q := fun l => l.Pairwise (· ≤ ·)) (fun hsub hl => hl.sublist hsub) h.2
      (fun id hid => hperm.mem_iff.mp hid) hsorted

/-- **The records of every reachable memory stand in order**, and those of the
image, whatever fails on the way. -/
theorem reachable_sorted {host : Host} (h : coordinator.Reaches (fun _ _ => True) host) :
    (∀ impl ∈ host.runtime, impl.Distinct ∧ impl.state.Sorted) ∧
      Stored DurableState.Sorted host.disk := by
  have hfree : SessionFree fun s => s.Distinct ∧ s.state.Sorted := fun s sessions boots hs =>
    ⟨distinct_sessionFree s sessions boots hs.1, hs.2⟩
  refine sorted_upholds.reachable_stored hfree (fun _ hs => hs.2) List.Pairwise.nil
    (fun options state hsorted hvalid => ?_) h
  exact ⟨⟨Impl.findable_rebuildIndexes _, nodup_of_valid hvalid⟩, hsorted⟩

/-! ## What a rollback sees -/

namespace DurableParticipant

/-- The undo of a fence takes back what the fence has done to the record. -/
theorem restoreFence_fence (p : DurableParticipant) (limits : Limits) (boot : WorkerBootId)
    (i : IncarnationSequence) (g : FencingGeneration) :
    p.restoreFence (p.fence limits boot i g) = p := by
  have hremoved : p.restoreFence (p.removeIncarnation boot) = p := by
    unfold removeIncarnation
    split
    · split <;> rfl
    · rfl
  -- floors, generations and fenced boots are all restored
  have hraised : p.restoreFence ((p.removeIncarnation boot).raiseFloor i) =
      p.restoreFence (p.removeIncarnation boot) := by
    unfold raiseFloor
    split <;> rfl
  show p.restoreFence ((p.removeIncarnation boot).raiseFloor i) = p
  rw [hraised, hremoved]

end DurableParticipant

namespace Impl

variable {s impl : Impl} {n : Nat} {id : ParticipantId}

/-- The durable state without its participants. -/
def rest (s : Impl) : DurableState := { s.state with participants := [] }

/-- The state as a rollback sees it: the first records and the number of records. -/
def rewound (n : Nat) (s : Impl) : DurableState × List DurableParticipant × Nat :=
  (s.rest, s.state.participants.take n, s.state.participants.length)

/-- A scan for an identifier is a scan of the first records. -/
theorem take_modifyFirst (id : ParticipantId) (f : DurableParticipant → DurableParticipant)
    (l : List DurableParticipant) (n : Nat) :
    (modifyFirst DurableParticipant.id id f l).take n =
      modifyFirst DurableParticipant.id id f (l.take n) := by
  induction l generalizing n with
  | nil => simp [modifyFirst]
  | cons p l ih =>
    cases n with
    | zero => simp [modifyFirst]
    | succ n =>
      rw [List.take_succ_cons, modifyFirst, modifyFirst]
      by_cases hp : p.id = id
      · rw [if_pos hp, if_pos hp, List.take_succ_cons]
      · rw [if_neg hp, if_neg hp, List.take_succ_cons, ih]

theorem length_modifyFirst (id : ParticipantId) (f : DurableParticipant → DurableParticipant)
    (l : List DurableParticipant) :
    (modifyFirst DurableParticipant.id id f l).length = l.length := by
  induction l with
  | nil => rfl
  | cons p l ih =>
    rw [modifyFirst]
    split
    · rfl
    · rw [List.length_cons, List.length_cons, ih]

/-- What was written through the index, a scan puts back. -/
theorem modifyFirst_modify {l : List DurableParticipant} (hn : (l.map (·.id)).Nodup) {i : Nat}
    {p : DurableParticipant} (hp : l[i]? = some p) {f g : DurableParticipant → DurableParticipant}
    (hf : ∀ q, (f q).id = q.id) (hback : g (f p) = p) :
    modifyFirst DurableParticipant.id p.id g (l.modify i f) = l := by
  have hn' : ((l.modify i f).map (·.id)).Nodup := by
    rw [map_modify_of_forall hf]
    exact hn
  rw [modifyFirst_eq_updateKey hn', modify_eq_updateKey hn hp rfl, updateKey, updateKey,
    List.map_map]
  refine (List.map_congr_left fun q hq => ?_).trans (List.map_id l)
  show (if (if q.id = p.id then f q else q).id = p.id then g (if q.id = p.id then f q else q)
    else if q.id = p.id then f q else q) = q
  by_cases hid : q.id = p.id
  · obtain rfl := List.inj_on_of_nodup_map hn hq (List.mem_of_getElem? hp) hid
    rw [if_pos rfl, if_pos (hf q), hback]
  · rw [if_neg hid, if_neg hid]

theorem rewound_setGeneration (g : EpochGeneration) (s : Impl) :
    (s.setGeneration g).rewound n = ({ s.rest with generation := g }, (s.rewound n).2) := rfl

theorem rewound_setRegistrationFloor (g : RegistrationGeneration) (s : Impl) :
    (s.setRegistrationFloor g).rewound n = ({ s.rest with registrationFloor := g }, (s.rewound n).2) :=
  rfl

theorem rewound_rawUpdateParticipant (id : ParticipantId)
    (f : DurableParticipant → DurableParticipant) (s : Impl) :
    (s.rawUpdateParticipant id f).rewound n =
      (s.rest, modifyFirst DurableParticipant.id id f (s.rewound n).2.1, (s.rewound n).2.2) := by
  show (s.rest, (modifyFirst _ id f s.state.participants).take n, _) = _
  rw [take_modifyFirst]
  exact congrArg (fun k => (s.rest, _, k)) (length_modifyFirst id f s.state.participants)

/-- Writing a record through the index changes that record. -/
theorem rewound_updateParticipant {i : Nat} (hi : s.participantIndex id = some i)
    (f : DurableParticipant → DurableParticipant) :
    (s.updateParticipant id f).rewound n =
      (s.rest, (s.rewound n).2.1.modify i f, (s.rewound n).2.2) := by
  rw [updateParticipant, hi]
  show (s.rest, (s.state.participants.modify i f).take n, _) = _
  rw [List.take_modify]
  exact congrArg (fun k => (s.rest, _, k)) (List.length_modify ..)

/-- What a fence leaves, where the ring has room. -/
theorem rewound_fence {i : Nat} (hi : s.participantIndex id = some i) {boot : WorkerBootId}
    {incarnation : IncarnationSequence} {record : FenceRecord} (hboot : record.boot = boot)
    (hroom : s.RingHasRoom) :
    ((s.applyRemoval id boot incarnation).applyFence id record).rewound n =
      ({ s.rest with
          fenceFloor := record.generation
          recentFences := s.state.recentFences ++ [record] },
        (s.rewound n).2.1.modify i
          (·.fence s.options.limits boot incarnation record.generation),
        (s.rewound n).2.2) := by
  have hremoved : (s.applyRemoval id boot incarnation).rewound n =
      (s.rest, ((s.rewound n).2.1.modify i (·.removeIncarnation boot)).modify i
        (·.raiseFloor incarnation), (s.rewound n).2.2) := by
    have hfirst := rewound_updateParticipant (n := n) hi (·.removeIncarnation boot)
    have hindex : (s.updateParticipant id (·.removeIncarnation boot)).participantIndex id =
        some i := by
      rw [(quiet_updateParticipant (fun p => p.removeIncarnation_id boot) id s).index, hi]
    refine (rewound_updateParticipant (s := (s.updateParticipant id
      (·.removeIncarnation boot)).setActiveWorkers (s.activeWorkers - 1)) hindex _).trans ?_
    exact congrArg (fun x : DurableState × List DurableParticipant × Nat =>
      (x.1, x.2.1.modify i (·.raiseFloor incarnation), x.2.2)) hfirst
  have hindex : (s.applyRemoval id boot incarnation).participantIndex id = some i := by
    rw [(quiet_applyRemoval s).index, hi]
  have hoptions := options_applyRemoval s id boot incarnation
  generalize s.applyRemoval id boot incarnation = a at hremoved hindex hoptions ⊢
  -- the record of the participant, then the ring
  have hwritten : ((a.setFenceFloor record.generation).updateParticipant id fun p =>
      (p.setFenceGeneration record.generation).retainFenced a.options.limits record.boot).rewound n =
      ({ a.rest with fenceFloor := record.generation }, (a.rewound n).2.1.modify i fun p =>
        (p.setFenceGeneration record.generation).retainFenced a.options.limits record.boot,
        (a.rewound n).2.2) :=
    rewound_updateParticipant (s := a.setFenceFloor record.generation) hindex _
  have hring : evictPush a.options.limits.maxRecentFences s.state.recentFences record =
      s.state.recentFences ++ [record] := by
    rw [evictPush, hoptions, if_neg (Nat.not_le.mpr hroom)]
  have hrest : a.rest = s.rest := congrArg Prod.fst hremoved
  rw [hremoved, hrest] at hwritten
  unfold applyFence
  generalize (a.setFenceFloor record.generation).updateParticipant id (fun p =>
    (p.setFenceGeneration record.generation).retainFenced a.options.limits record.boot) = b
    at hwritten ⊢
  have hrecent : b.state.recentFences = s.state.recentFences :=
    congrArg (fun x : DurableState × List DurableParticipant × Nat => x.1.recentFences) hwritten
  show ({ b.rest with
    recentFences := evictPush a.options.limits.maxRecentFences b.state.recentFences record },
    (b.rewound n).2) = _
  rw [hrecent, hring, hwritten, show b.rest = _ from congrArg Prod.fst hwritten,
    List.modify_modify_eq, List.modify_modify_eq, hboot, hoptions]
  rfl

/-! ### Where the index leads -/

/-- The index leads into the first `n` records, to the one that carries the
identifier, or behind them, and then none of them carries it. -/
structure Slot (n : Nat) (s : Impl) (id : ParticipantId) (i : Nat) (p : DurableParticipant) :
    Prop where
  nodup : ((s.state.participants.take n).map (·.id)).Nodup
  index : s.participantIndex id = some i
  record : s.state.participants[i]? = some p
  inside : i < n → p.id = id
  behind : n ≤ i → id ∉ (s.state.participants.take n).map (·.id)

/-- A write through the index, undone by a scan. -/
theorem Slot.undone {i : Nat} {p : DurableParticipant} (h : Slot n s id i p)
    {f g : DurableParticipant → DurableParticipant} (hf : ∀ q, (f q).id = q.id) (hback : g (f p) = p) :
    modifyFirst DurableParticipant.id id g ((s.rewound n).2.1.modify i f) = (s.rewound n).2.1 := by
  by_cases hi : i < n
  · have hrecord : (s.state.participants.take n)[i]? = some p := by
      rw [List.getElem?_take_of_lt hi, h.record]
    rw [← h.inside hi]
    exact modifyFirst_modify h.nodup hrecord hf hback
  · -- nothing is written in front of `n`, and nothing is found there
    have hbehind := h.behind (Nat.not_lt.mp hi)
    have hlength : (s.state.participants.take n).length ≤ i :=
      (List.length_take_le n _).trans (Nat.not_lt.mp hi)
    show modifyFirst _ id g ((s.state.participants.take n).modify i f) = s.state.participants.take n
    rw [List.modify_eq_self hlength, modifyFirst_eq_updateKey h.nodup, updateKey]
    refine (List.map_congr_left fun q hq => ?_).trans (List.map_id _)
    exact if_neg fun (hid : q.id = id) => hbehind (hid ▸ List.mem_map_of_mem hq)

end Impl

open Impl

/-- Along an operation, the index leads where it led, or to a record of its own. -/
theorem Anchored.slot {before : Impl} {t : Txn Impl} (ht : Anchored before t)
    (hbefore : before.Distinct) {id : ParticipantId} {p : DurableParticipant}
    (hp : t.state.findParticipant id = some p) :
    ∃ i, Slot before.ids.length t.state id i p := by
  obtain ⟨i, hi, hrecord⟩ := findParticipant_eq_some.mp hp
  have htake : (t.state.state.participants.take before.ids.length).map (·.id) = before.ids := by
    rw [List.map_take]
    exact (List.prefix_iff_eq_take.mp ht.grown).symm
  refine ⟨i, by rw [htake]; exact hbefore.nodup, hi, hrecord, fun hlt => ?_, fun hle hmem => ?_⟩
  · have hold : before.participantIndex id = some i := by
      rcases ht.drift id i hi with hold | hge
      · exact hold
      · exact absurd hlt (Nat.not_lt.mpr hge)
    have hplace : before.ids[i]? = some p.id := by
      have hthere : t.state.ids[i]? = some p.id := by
        rw [ids_getElem?, hrecord]
        rfl
      obtain ⟨rest, hids⟩ := ht.grown
      rwa [← hids, List.getElem?_append_left hlt] at hthere
    exact hbefore.findable.sound id i hold p.id hplace
  · rw [htake] at hmem
    obtain ⟨j, hj, hplace⟩ := hbefore.findable.listed id hmem
    have hsame : j = i := by
      rw [← ht.kept id hmem, hi] at hj
      exact (Option.some.inj hj).symm
    have hlt := (List.getElem?_eq_some_iff.mp hplace).1
    omega

/-! ## A rollback behind a registration -/

section Undone

variable {n : Nat} {x : DurableState × List DurableParticipant × Nat} {t t' u : Txn Impl}

theorem bumpWhen_rewinds {c : Bool} {r : Unit} (ht : Restores (rewound n) x t)
    (h : bumpWhen c t = .ok r u) : Restores (rewound n) x u := by
  rcases bumpWhen_ok h with ⟨-, rfl⟩ | ⟨g, -, rfl⟩
  · exact ht
  · refine ht.push (fun s hs => ?_) rfl
    rw [rewound_setGeneration, show s.rest = _ from congrArg Prod.fst hs, hs]
    rfl

/-- **A fence is taken back**, where the ring has room for its record. -/
theorem recordFence_rewinds {id : ParticipantId} {boot : WorkerBootId} {reason : FenceReason}
    {note : BoundedText} {r : FenceResult} (ht : Restores (rewound n) x t)
    (hslot : ∀ p, t.state.findParticipant id = some p → ∃ i, Slot n t.state id i p)
    (hroom : t.state.RingHasRoom)
    (h : recordFence id boot reason note false t = .ok r u) : Restores (rewound n) x u := by
  cases recordFence_cases h with
  | unknown _ _ => exact ht
  | already _ _ => exact ht
  | notLive _ _ _ => exact ht
  | full allowed _ => cases allowed
  | preventive allowed _ _ _ _ _ _ _ _ => cases allowed
  | @live p incarnation generation next record eq found _ _ _ _ =>
    obtain ⟨i, hi⟩ := hslot p found
    have hfenced := @rewound_fence t.state n id i hi.index boot incarnation record
      (by rw [eq]; rfl) hroom
    have hundone : Restores (rewound n) x
        ⟨(t.state.applyRemoval id boot incarnation).applyFence id record,
          t.state.undoFence id p :: t.undo, t.mutated⟩ := by
      refine ht.push (f := t.state.undoFence id p) (fun s hs => ?_) rfl
      have hs' := hs.trans hfenced
      have hrecent : s.state.recentFences = t.state.state.recentFences ++ [record] :=
        congrArg (fun x : DurableState × List DurableParticipant × Nat => x.1.recentFences) hs'
      unfold undoFence
      rw [rewound_rawUpdateParticipant]
      show ({ s.rest with
          fenceFloor := t.state.state.fenceFloor
          recentFences := resize .blank t.state.state.recentFences.length s.state.recentFences },
        modifyFirst _ id p.restoreFence (s.rewound n).2.1, (s.rewound n).2.2) = t.state.rewound n
      rw [hrecent, resize_append, show s.rest = _ from congrArg Prod.fst hs', hs',
        hi.undone (fun q => q.fence_id _ _ _ _) (p.restoreFence_fence _ _ _ _)]
      rfl
    refine hundone.push (f := setGeneration _) (fun s hs => ?_) rfl
    rw [rewound_setGeneration, show s.rest = _ from congrArg Prod.fst hs, hs]
    rfl

/-- A commit that returns, written out. -/
theorem commitRegistration_run {request : RegisterParticipantRequest} {digest : SnapshotDigest}
    {participant : Option DurableParticipant} {c : Bool} {r : RegistrationResult}
    (h : commitRegistration request digest participant c t = .ok r u) :
    ∃ g next t₁, bumpWhen c ((Txn.floored g (openedTxn request participant t)).apply
        (registerBoot request digest g (openedRecord request participant).nextIncarnation next)) =
          .ok () t₁ ∧ u = t₁.marked := by
  obtain ⟨p, t₀, hopen, h⟩ := Action.bind_ok.mp h
  rw [openRecord_run] at hopen
  cases hopen
  rw [Action.bind_current] at h
  obtain ⟨g, t', horfail, h⟩ := Action.bind_ok.mp h
  obtain ⟨-, rfl⟩ := Action.orFail_ok.mp horfail
  rw [Action.bind_pushUndo, Action.bind_modify] at h
  obtain ⟨next, t', horfail, h⟩ := Action.bind_ok.mp h
  obtain ⟨-, rfl⟩ := Action.orFail_ok.mp horfail
  rw [Action.bind_modify] at h
  obtain ⟨⟨⟩, t₁, hbump, h⟩ := Action.bind_ok.mp h
  cases h
  exact ⟨g, next, t₁, hbump, rfl⟩

theorem floored_rewinds (g : RegistrationGeneration) (ht : Restores (rewound n) x t) :
    Restores (rewound n) x (Txn.floored g t) := by
  refine ht.push (f := setRegistrationFloor _) (fun s hs => ?_) rfl
  rw [rewound_setRegistrationFloor, show s.rest = _ from congrArg Prod.fst hs, hs]
  rfl

/-- The boot is written into the record the index leads to. -/
theorem rewound_registerBoot {request : RegisterParticipantRequest} {digest : SnapshotDigest}
    {g : RegistrationGeneration} {incarnation next : IncarnationSequence} {i : Nat} {s : Impl}
    (hi : s.participantIndex request.participant = some i) :
    (s.registerBoot request digest g incarnation next).rewound n =
      (s.rest, (s.rewound n).2.1.modify i
        (·.register s.options.limits request digest g incarnation next), (s.rewound n).2.2) :=
  rewound_updateParticipant hi _

/-- **A commit is taken back**: the record by its identifier, or the last record. -/
theorem commitRegistration_rewinds {request : RegisterParticipantRequest} {digest : SnapshotDigest}
    {participant : Option DurableParticipant} {c : Bool} {r : RegistrationResult}
    (ht : Restores (rewound n) x t) (hn : n ≤ t.state.state.participants.length)
    (hslot : ∀ p, participant = some p → ∃ i, Slot n t.state request.participant i p)
    (h : commitRegistration request digest participant c t = .ok r u) :
    Restores (rewound n) x u := by
  obtain ⟨g, next, t₁, hbump, rfl⟩ := commitRegistration_run h
  refine Restores.same (bumpWhen_rewinds ?_ hbump) rfl rfl
  cases participant with
  | none =>
    -- a new record stands behind the others, whatever is written into it
    have htake : (t.state.state.participants ++
        [DurableParticipant.fresh request.participant request.policy]).take n =
          t.state.state.participants.take n := List.take_append_of_le_length hn
    have hcreated : Restores (rewound n) x (openedTxn request none t) := by
      refine ht.push (f := popParticipant) (fun s hs => ?_) rfl
      have hrest : s.rest = t.state.rest := congrArg Prod.fst hs
      have hfirst : s.state.participants.take n = t.state.state.participants.take n :=
        (congrArg (fun y => y.2.1) hs).trans htake
      have hlength : s.state.participants.length = t.state.state.participants.length + 1 :=
        (congrArg (fun y => y.2.2) hs).trans (List.length_append ..)
      refine Prod.ext hrest (Prod.ext ?_ ?_)
      · show s.state.participants.dropLast.take n = t.state.state.participants.take n
        rw [List.dropLast_eq_take, List.take_take, ← hfirst, Nat.min_eq_left (by omega)]
      · show s.state.participants.dropLast.length = t.state.state.participants.length
        rw [List.length_dropLast]
        omega
    have hindex : (Txn.floored g (openedTxn request none t)).state.participantIndex
        request.participant = some t.state.state.participants.length := if_pos rfl
    refine (floored_rewinds g hcreated).same ?_ rfl
    refine (rewound_registerBoot hindex).trans ?_
    have hbehind : ((rewound n (Txn.floored g (openedTxn request none t)).state).2.1).length ≤
        t.state.state.participants.length := (List.length_take_le n _).trans hn
    rw [List.modify_eq_self hbehind]
    rfl
  | some p =>
    obtain ⟨i, hi⟩ := hslot p rfl
    have hwritten := fun incarnation => @rewound_registerBoot n request digest g incarnation next i
      t.state hi.index
    have hrestored : Restores (rewound n) x
        ⟨t.state.registerBoot request digest g p.nextIncarnation next,
          restoreParticipant request.participant p :: t.undo, t.mutated⟩ := by
      refine ht.push (f := restoreParticipant request.participant p) (fun s hs => ?_) rfl
      have hs' := hs.trans (hwritten _)
      unfold restoreParticipant
      rw [rewound_rawUpdateParticipant, show s.rest = _ from congrArg Prod.fst hs', hs',
        hi.undone (fun q => q.register_id _ _ _ _ _ _) rfl]
      rfl
    have hfloor : (t.state.registerBoot request digest g p.nextIncarnation
        next).state.registrationFloor = t.state.state.registrationFloor :=
      congrArg (fun y : DurableState × List DurableParticipant × Nat => y.1.registrationFloor)
        (hwritten p.nextIncarnation)
    refine (floored_rewinds g hrestored).same ?_ ?_
    · refine (rewound_registerBoot (s := t.state.setRegistrationFloor g) hi.index).trans ?_
      show _ = ({ (t.state.registerBoot request digest g p.nextIncarnation next).rest with
        registrationFloor := g }, ((t.state.registerBoot request digest g p.nextIncarnation
          next).rewound n).2)
      rw [hwritten, show Impl.rest _ = _ from congrArg Prod.fst (hwritten p.nextIncarnation)]
      rfl
    · exact congrArg (fun floor => setRegistrationFloor floor ::
        restoreParticipant request.participant p :: t.undo) hfloor.symm

end Undone

/-! ## Where a rollback goes wrong -/

namespace Impl

/-- The registration passes every check in front of a creation. -/
def createsParticipant (impl : Impl) (request : RegisterParticipantRequest) : Bool :=
  (impl.malformedRegistration request).isNone && (impl.staleRegistration request).isNone &&
    (impl.findParticipant request.participant).isNone &&
    decide (impl.state.participants.length < impl.options.limits.maxParticipants) &&
    decide (impl.activeWorkers < impl.options.limits.maxActiveWorkers)

/-- What the rollback relies on: a participant that is created stands behind all
that were there before the call, and no record leaves the ring. -/
def CanTakeBack (before impl : Impl) (request : RegisterParticipantRequest) : Prop :=
  (impl.createsParticipant request = true → ∀ id ∈ before.ids, id ≤ request.participant) ∧
    (impl.fencesIncumbent request = true → impl.RingHasRoom)

instance (before impl : Impl) (request : RegisterParticipantRequest) :
    Decidable (before.CanTakeBack impl request) :=
  inferInstanceAs (Decidable (_ ∧ (_ → _ < _)))

end Impl

section Registrations

variable {before : Impl} {t u : Txn Impl} {request : RegisterParticipantRequest} {c : Bool}
  {r : RegistrationResult}

/-- A registration of an unknown participant answers at once, or creates it. -/
theorem applyRegistration_new (hnone : t.state.findParticipant request.participant = none)
    (h : applyRegistration request c t = .ok r u) :
    u = t ∨ t.state.createsParticipant request = true ∧
      ∃ digest, commitRegistration request digest none c t = .ok r u := by
  unfold applyRegistration at h
  rw [Action.bind_current] at h
  cases hmalformed : t.state.malformedRegistration request with
  | some result =>
    simp only [hmalformed] at h
    exact .inl (Action.pure_ok.mp h).2
  | none =>
  cases hstale : t.state.staleRegistration request with
  | some result =>
    simp only [hmalformed, hstale] at h
    exact .inl (Action.pure_ok.mp h).2
  | none =>
  simp only [hmalformed, hstale] at h
  obtain ⟨digest, t', hdigest, h⟩ := Action.bind_ok.mp h
  obtain ⟨-, rfl⟩ := Action.ofExcept_ok.mp hdigest
  simp only [hnone] at h
  unfold registerNew at h
  rw [Action.bind_current] at h
  by_cases hfull : t'.state.state.participants.length ≥ t'.state.options.limits.maxParticipants
  · rw [if_pos hfull] at h
    exact .inl (Action.pure_ok.mp h).2
  rw [if_neg hfull] at h
  unfold admitRegistration at h
  rw [Action.bind_current] at h
  by_cases hworkers : t'.state.activeWorkers ≥ t'.state.options.limits.maxActiveWorkers
  · rw [if_pos hworkers] at h
    exact .inl (Action.pure_ok.mp h).2
  rw [if_neg hworkers] at h
  refine .inr ⟨?_, digest, h⟩
  simp [createsParticipant, hmalformed, hstale, hnone, Nat.not_le.mp hfull, Nat.not_le.mp hworkers]

/-- What may go before a commit moves no record. -/
theorem Approach.samePlaces (h : Approach request t u) : SamePlaces t.state u.state := by
  cases h with
  | direct => exact .refl _
  | incumbent replace _ =>
    rcases replaceIncumbent_fences replace with ⟨boot, fence, -, hfence⟩ | ⟨rfl, -⟩
    · exact recordFence_samePlaces hfence
    · exact .refl _

/-- **The identifiers behind a registration.** -/
theorem applyRegistration_ids (h : applyRegistration request c t = .ok r u) :
    u.state.ids = t.state.ids ∨ t.state.createsParticipant request = true ∧
      u.state.ids = t.state.ids ++ [request.participant] := by
  cases hfind : t.state.findParticipant request.participant with
  | none =>
    rcases applyRegistration_new hfind h with rfl | ⟨hcreates, digest, hcommit⟩
    · exact .inl rfl
    · refine .inr ⟨hcreates, ?_⟩
      rw [commitRegistration_ids hcommit, if_pos rfl]
  | some p =>
    left
    cases applyRegistration_cases h with
    | answered approach _ => exact approach.samePlaces.ids
    | @committed digest t' _ _ _ approach commit =>
      -- it is still there in front of the commit
      obtain ⟨q, hq, -⟩ := find_of_samePlaces approach.samePlaces hfind
      rw [commitRegistration_ids commit, hq, if_neg (Option.some_ne_none q), List.append_nil,
        approach.samePlaces.ids]

/-- The way to the commit is taken back, where the ring has room. -/
theorem Approach.rewinds (ht : Anchored before t) (hbefore : before.Distinct)
    {x : DurableState × List DurableParticipant × Nat}
    (hrewinds : Restores (rewound before.ids.length) x t) (hroom : t.state.RingHasRoom)
    (h : Approach request t u) :
    Anchored before u ∧ Restores (rewound before.ids.length) x u := by
  cases h with
  | direct => exact ⟨ht, hrewinds⟩
  | incumbent replace _ =>
    rcases replaceIncumbent_fences replace with ⟨boot, fence, -, hfence⟩ | ⟨rfl, -⟩
    · refine ⟨?_, recordFence_rewinds hrewinds (fun p hp => ht.slot hbefore hp) hroom hfence⟩
      have hkeeps := (Anchored.primitives before).toSteps.recordFence request.participant boot
        .reincarnation .blank false t ht
      rwa [hfence] at hkeeps
    · exact ⟨ht, hrewinds⟩

/-- **A registration that returns can be taken back.** -/
theorem applyRegistration_rewinds (ht : Anchored before t) (hbefore : before.Distinct)
    {x : DurableState × List DurableParticipant × Nat}
    (hrewinds : Restores (rewound before.ids.length) x t)
    (hroom : t.state.fencesIncumbent request = true → t.state.RingHasRoom)
    (h : applyRegistration request c t = .ok r u) :
    Restores (rewound before.ids.length) x u := by
  have hcommitted : ∀ {t' : Txn Impl} {digest : SnapshotDigest}, Anchored before t' →
      Restores (rewound before.ids.length) x t' →
      commitRegistration request digest (t'.state.findParticipant request.participant) c t' =
        .ok r u → Restores (rewound before.ids.length) x u := by
    intro t' digest ht' hrewinds' hcommit
    refine commitRegistration_rewinds hrewinds' ?_ (fun p hp => ht'.slot hbefore hp) hcommit
    have hlength := ht'.grown.length_le
    rwa [show t'.state.ids.length = _ from List.length_map ..] at hlength
  by_cases hfences : t.state.fencesIncumbent request = true
  · cases applyRegistration_cases h with
    | answered approach _ => exact (approach.rewinds ht hbefore hrewinds (hroom hfences)).2
    | committed _ approach commit =>
      obtain ⟨ht', hrewinds'⟩ := approach.rewinds ht hbefore hrewinds (hroom hfences)
      exact hcommitted ht' hrewinds' commit
  · -- nobody is fenced: the answer came at once, or the commit
    have hview : SameView t.state t.state :=
      ⟨rfl, rfl, rfl, fun _ => rfl, fun _ _ => rfl, rfl, rfl, rfl⟩
    rw [Bool.not_eq_true] at hfences
    rcases applyRegistration_parallel hview hfences h h with
      ⟨-, rfl, -⟩ | ⟨digest, participant, rfl, hcommit, -⟩
    · exact hrewinds
    · exact hcommitted ht hrewinds hcommit

/-- **What a registration or a batch has done can be taken back** from the sorted
records: the new ones stand behind the old ones. -/
structure Takeable (before : Impl) (t : Txn Impl) : Prop where
  traced : Traced before t
  rewinds : Restores (rewound before.ids.length) (before.rewound before.ids.length) t
  appended : ∃ news, t.state.ids = before.ids ++ news ∧ ∀ new ∈ news, ∀ id ∈ before.ids, id ≤ new

namespace Takeable

theorem start (h : before.Distinct) : Takeable before (Txn.start before) :=
  ⟨.start h.findable h.nodup, Restores.start before, [], (List.append_nil _).symm,
    fun _ hnew => (nomatch hnew)⟩

theorem registration (ht : Takeable before t) (hbefore : before.Distinct)
    (hcan : before.CanTakeBack t.state request) (h : applyRegistration request c t = .ok r u) :
    Takeable before u := by
  have htraced : Traced before u := by
    have hkeeps := Traced.placed.primitives.toSteps.applyRegistration request c t ht.traced
    rwa [h] at hkeeps
  refine ⟨htraced, applyRegistration_rewinds ht.traced.anchored hbefore ht.rewinds hcan.2 h, ?_⟩
  obtain ⟨news, hids, hbehind⟩ := ht.appended
  rcases applyRegistration_ids h with hsame | ⟨hcreates, hnew⟩
  · exact ⟨news, hsame.trans hids, hbehind⟩
  · refine ⟨news ++ [request.participant], ?_, fun new hmem => ?_⟩
    · rw [hnew, hids, List.append_assoc]
    · rcases List.mem_append.mp hmem with hmem | hmem
      · exact hbehind new hmem
      · rw [List.mem_singleton.mp hmem]
        exact hcan.1 hcreates

theorem bump (ht : Takeable before t) {x : Unit} (h : bumpWhen c t = .ok x u) :
    Takeable before u := by
  have htraced : Traced before u := by
    have hkeeps := Traced.placed.primitives.toSteps.bumpWhen c t ht.traced
    rwa [h] at hkeeps
  refine ⟨htraced, bumpWhen_rewinds ht.rewinds h, ?_⟩
  rcases bumpWhen_ok h with ⟨-, rfl⟩ | ⟨g, -, rfl⟩
  · exact ht.appended
  · exact ht.appended

/-- **The elements of a batch**, one after the other. -/
theorem registrations {requests : List RegisterParticipantRequest} {rs : List RegistrationResult}
    (ht : Takeable before t) (hbefore : before.Distinct)
    (hcan : AlongBatch before.CanTakeBack requests t)
    (h : applyRegistrations requests t = .ok rs u) : Takeable before u := by
  induction requests generalizing t rs with
  | nil =>
    obtain ⟨-, rfl⟩ := Action.pure_ok.mp h
    exact ht
  | cons request requests ih =>
    obtain ⟨hfirst, hrest⟩ := hcan
    obtain ⟨r, t', hr, h⟩ := Action.bind_ok.mp h
    obtain ⟨rs', u', hrs, h⟩ := Action.bind_ok.mp h
    obtain ⟨-, rfl⟩ := Action.pure_ok.mp h
    exact ih (ht.registration hbefore hfirst hr) (hrest r t' hr) hrs

/-- Sorting leaves the old records where they are. -/
theorem rewound_canonicalize (ht : Takeable before t) (hsorted : before.state.Sorted) :
    t.state.canonicalize.rewound before.ids.length = t.state.rewound before.ids.length := by
  obtain ⟨news, hids, hbehind⟩ := ht.appended
  have hperm := List.perm_insertionSort (fun p q : DurableParticipant => p.id ≤ q.id)
    t.state.state.participants
  refine Prod.ext rfl (Prod.ext ?_ hperm.length_eq)
  have hold : (t.state.state.participants.take before.ids.length).map (·.id) = before.ids := by
    rw [List.map_take]
    exact (List.prefix_iff_eq_take.mp ht.traced.anchored.grown).symm
  have hnew : (t.state.state.participants.drop before.ids.length).map (·.id) = news := by
    rw [List.map_drop]
    exact (congrArg (List.drop before.ids.length) hids).trans List.drop_left
  -- both are the one order of the records
  have hsort : t.state.canonicalize.state.participants =
      t.state.state.participants.take before.ids.length ++
        (t.state.state.participants.drop before.ids.length).insertionSort fun p q => p.id ≤ q.id := by
    refine eq_of_perm_of_sorted (r := (· ≤ ·)) ParticipantId.le_antisymm
      ((hperm.map _).nodup_iff.mpr ht.traced.nodup) (canonicalize_sorted t.state) ?_ ?_
    · refine List.pairwise_append.mpr ⟨?_, ?_, fun p hp q hq => ?_⟩
      · exact List.pairwise_map.mp (hold.symm ▸ hsorted)
      · exact canonicalize_sorted (t.state.mapState fun s => { s with
          participants := s.participants.drop before.ids.length })
      · refine hbehind q.id ?_ p.id (hold ▸ List.mem_map_of_mem hp)
        have hq' := (List.perm_insertionSort _ _).mem_iff.mp hq
        exact hnew ▸ List.mem_map_of_mem hq'
    · have hrest := (List.perm_insertionSort (fun p q : DurableParticipant => p.id ≤ q.id)
        (t.state.state.participants.drop before.ids.length)).append_left
          (t.state.state.participants.take before.ids.length)
      rw [List.take_append_drop] at hrest
      exact hperm.trans hrest.symm
  show t.state.canonicalize.state.participants.take before.ids.length = _
  rw [hsort, List.take_left']
  · rfl
  · exact (List.length_map _).symm.trans (congrArg List.length hold)

/-- **The undo actions restore the state.** -/
theorem restored (ht : Takeable before t) (hsorted : before.state.Sorted) :
    (t.apply canonicalize).rollback.rebuildIndexes.state = before.state := by
  have hview : (t.apply canonicalize).rollback.rewound before.ids.length =
      before.rewound before.ids.length :=
    ht.rewinds t.state.canonicalize (ht.rewound_canonicalize hsorted)
  generalize (t.apply canonicalize).rollback = s at hview ⊢
  have hlength : before.ids.length = before.state.participants.length := List.length_map _
  have hcount : s.state.participants.length = before.state.participants.length :=
    congrArg (fun y => y.2.2) hview
  have hrecords : s.state.participants = before.state.participants := by
    have hfirst : s.state.participants.take before.ids.length =
        before.state.participants.take before.ids.length := congrArg (fun y => y.2.1) hview
    rwa [hlength, List.take_length, ← hcount, List.take_length] at hfirst
  have hrest : s.rest = before.rest := congrArg Prod.fst hview
  calc s.state = { s.rest with participants := s.state.participants } := rfl
    _ = { before.rest with participants := before.state.participants } := by rw [hrest, hrecords]
    _ = before.state := rfl

end Takeable

end Registrations

/-! ## Calls -/

/-- The requests of a registration, in order. -/
def Call.registrations : Call → List RegisterParticipantRequest
  | .register request => [request]
  | .registerBatch requests => requests
  | _ => []

/-- The call is a registration, and the save that it reaches throws. -/
def Call.RegistrationThrows (fault : Option SaveFault) (disk : Disk) (impl : Impl) : Call → Prop
  | .register request => FabricEpoch.SaveThrows (applyRegistration request true) fault disk impl
  | .registerBatch requests =>
    FabricEpoch.SaveThrows (FabricEpoch.registerBatch requests) fault disk impl
  | _ => False

/-- **A registration whose save throws leaves the state as it was**, in any
reachable state and for any number of elements, where the rollback can take back
what each of them does. -/
theorem failedRegistration_undone {host : Host} (h : coordinator.Reaches (fun _ _ => True) host)
    {impl : Impl} (himpl : host.runtime = some impl) {call : Call} {fault : Option SaveFault}
    (hthrows : call.RegistrationThrows fault host.disk impl)
    (hcan : AlongBatch impl.CanTakeBack call.registrations (Txn.start impl)) (entropy : Entropy) :
    (callRuntime call entropy fault host.disk impl).impl.state = impl.state := by
  obtain ⟨hdistinct, hsorted⟩ := (reachable_sorted h).1 impl himpl
  cases call with
  | register request =>
    obtain ⟨r, t, hrun, -, hmemory⟩ := SaveThrows.transact_impl hthrows
    show (transact (applyRegistration request true) fault host.disk impl).impl.state = impl.state
    rw [hmemory]
    exact ((Takeable.start hdistinct).registration hdistinct hcan.1 hrun).restored hsorted
  | registerBatch requests =>
    obtain ⟨rs, t, hrun, -, hmemory⟩ := SaveThrows.transact_impl hthrows
    show (transact (registerBatch requests) fault host.disk impl).impl.state = impl.state
    rw [hmemory]
    -- the elements, and the generation of the batch
    obtain ⟨rs', t', hrs, hlast⟩ := Action.bind_ok.mp hrun
    rw [Action.bind_hasMutated] at hlast
    obtain ⟨⟨⟩, u, hbump, hpure⟩ := Action.bind_ok.mp hlast
    obtain ⟨-, rfl⟩ := Action.pure_ok.mp hpure
    have hall := (Takeable.start hdistinct).registrations hdistinct hcan hrs
    exact (hall.bump hbump).restored hsorted
  | _ => exact hthrows.elim

/-! ### Two of them -/

/-- The participant is registered next to `p`. -/
def nextTo (name : String) : RegisterParticipantRequest :=
  testRegister 5 (testParticipant name) (smallId 6)

/-- A participant behind the one that is there. -/
theorem failedRegistration_undone_test : ∃ host impl, coordinator.Reaches (fun _ _ => True) host ∧
    host.runtime = some impl ∧
    (callRuntime (.register (nextTo "q")) (testEntropy 9) (some brokenDisk) host.disk
      impl).impl.state = impl.state := by
  have hvalues : ((coordinator.run coordinator.init workerRun).runtime.map fun impl =>
      (decide (SaveThrows (applyRegistration (nextTo "q") true) (some brokenDisk)
        (coordinator.run coordinator.init workerRun).disk impl),
      decide (AlongBatch impl.CanTakeBack [nextTo "q"] (Txn.start impl)))) =
      some (true, true) := by decide +kernel
  have hreach := coordinator.reaches_run workerRun
  generalize coordinator.run coordinator.init workerRun = host at hvalues hreach
  obtain ⟨impl, himpl, hvalue⟩ := Option.map_eq_some_iff.mp hvalues
  simp only [Prod.mk.injEq, decide_eq_true_eq] at hvalue
  have hthrows : (Call.register (nextTo "q")).RegistrationThrows (some brokenDisk) host.disk impl :=
    hvalue.1
  exact ⟨host, impl, hreach, himpl, failedRegistration_undone hreach himpl hthrows hvalue.2 _⟩

/-- **A participant in front of the one that is there**: the rollback drops the
record of the other one, and the new one stays. -/
theorem failedRegistration_drops : ∃ host impl, coordinator.Reaches (fun _ _ => True) host ∧
    host.runtime = some impl ∧
    (Call.register (nextTo "a")).RegistrationThrows (some brokenDisk) host.disk impl ∧
    impl.ids = [testParticipant "p"] ∧
    (callRuntime (.register (nextTo "a")) (testEntropy 9) (some brokenDisk) host.disk
      impl).impl.ids = [testParticipant "a"] ∧
    (callRuntime (.register (nextTo "a")) (testEntropy 9) (some brokenDisk) host.disk
      impl).impl.state ≠ impl.state := by
  have hvalues : ((coordinator.run coordinator.init workerRun).runtime.map fun impl =>
      (decide (SaveThrows (applyRegistration (nextTo "a") true) (some brokenDisk)
        (coordinator.run coordinator.init workerRun).disk impl), impl.ids,
      (callRuntime (.register (nextTo "a")) (testEntropy 9) (some brokenDisk)
        (coordinator.run coordinator.init workerRun).disk impl).impl.ids)) =
      some (true, [testParticipant "p"], [testParticipant "a"]) := by decide +kernel
  have hreach := coordinator.reaches_run workerRun
  generalize coordinator.run coordinator.init workerRun = host at hvalues hreach
  obtain ⟨impl, himpl, hvalue⟩ := Option.map_eq_some_iff.mp hvalues
  simp only [Prod.mk.injEq, decide_eq_true_eq] at hvalue
  obtain ⟨hthrows, hbefore, hafter⟩ := hvalue
  refine ⟨host, impl, hreach, himpl, hthrows, hbefore, hafter, fun hsame => ?_⟩
  have hids := congrArg (fun s : DurableState => s.participants.map (·.id)) hsame
  have hboth : [testParticipant "a"] = [testParticipant "p"] :=
    hafter.symm.trans (hids.trans hbefore)
  exact absurd hboth (by decide +kernel)

end FabricEpoch
