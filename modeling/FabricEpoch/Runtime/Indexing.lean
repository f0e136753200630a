import FabricEpoch.Runtime.Primitives

/-!
# The participant index stays sound

Participants are found through an index that is rebuilt at every durability
barrier and only extended in between. An operation that throws leaves the
entries of the participants it had created behind; they point behind the end of
the vector once the undo actions have run.

- `Findable`: what is found under an identifier carries it, and every listed
  participant is found;
- `Anchored`: what an operation keeps while it runs, so that its rollback is
  `Findable` again;
- `reachable_findable`: the index of every reachable runtime is sound, whatever
  fails on the way.
-/

namespace FabricEpoch

open Table Transaction

namespace Impl

/-- The identifiers of the participants, in vector order. -/
def ids (impl : Impl) : List ParticipantId := impl.state.participants.map (·.id)

/-- The index finds records under their own identifiers, and all of them. -/
structure Findable (impl : Impl) : Prop where
  sound : ∀ id i, impl.participantIndex id = some i → ∀ j, impl.ids[i]? = some j → j = id
  listed : ∀ id ∈ impl.ids, ∃ i, impl.participantIndex id = some i ∧ impl.ids[i]? = some id

/-- The index leads to the one place of each identifier and to no other place. -/
structure Exact (impl : Impl) : Prop where
  nodup : impl.ids.Nodup
  place : ∀ id i, impl.participantIndex id = some i → impl.ids[i]? = some id

theorem findParticipant_eq_some {impl : Impl} {id : ParticipantId} {p : DurableParticipant} :
    impl.findParticipant id = some p ↔
      ∃ i, impl.participantIndex id = some i ∧ impl.state.participants[i]? = some p := by
  rw [findParticipant, Option.bind_eq_some_iff]

theorem ids_getElem? (impl : Impl) (i : Nat) :
    impl.ids[i]? = (impl.state.participants[i]?).map (·.id) := by
  rw [ids, List.getElem?_map]

/-- **What is found carries the identifier it was looked up by.** -/
theorem Findable.id_of_find {impl : Impl} (h : impl.Findable) {id : ParticipantId}
    {p : DurableParticipant} (hp : impl.findParticipant id = some p) : p.id = id := by
  obtain ⟨i, hi, hrecord⟩ := findParticipant_eq_some.mp hp
  exact h.sound id i hi p.id (by rw [ids_getElem?, hrecord]; rfl)

theorem mem_of_find {impl : Impl} {id : ParticipantId} {p : DurableParticipant}
    (hp : impl.findParticipant id = some p) : p ∈ impl.state.participants := by
  obtain ⟨i, -, hrecord⟩ := findParticipant_eq_some.mp hp
  exact List.mem_of_getElem? hrecord

/-- **A rebuilt index is sound**, whatever the records. -/
theorem findable_rebuildIndexes (impl : Impl) : impl.rebuildIndexes.Findable := by
  constructor
  · intro id i hi j hj
    obtain ⟨p, hp, hid⟩ := indexBy_eq_some (show indexBy (fun p => [p.id])
      impl.state.participants id = some i from hi)
    rw [ids_getElem?] at hj
    have : impl.rebuildIndexes.state.participants[i]? = some p := hp
    rw [this] at hj
    obtain rfl := Option.some.inj hj
    exact (List.mem_singleton.mp hid).symm
  · intro id hid
    obtain ⟨p, hp, rfl⟩ := List.mem_map.mp hid
    cases hi : indexBy (fun p => [p.id]) impl.state.participants p.id with
    | none => exact absurd (List.mem_singleton_self _) (indexBy_eq_none.mp hi p hp)
    | some i =>
      obtain ⟨q, hq, hqid⟩ := indexBy_eq_some hi
      refine ⟨i, hi, ?_⟩
      rw [ids_getElem?]
      have : impl.rebuildIndexes.state.participants[i]? = some q := hq
      rw [this, Option.map_some, ← List.mem_singleton.mp hqid]

/-! ## Quiet functions -/

/-- The same identifiers under the same index. -/
structure SamePlaces (s s' : Impl) : Prop where
  ids : s'.ids = s.ids
  index : s'.participantIndex = s.participantIndex

theorem SamePlaces.refl (s : Impl) : SamePlaces s s := ⟨rfl, rfl⟩

theorem SamePlaces.trans {s t u : Impl} (h₁ : SamePlaces s t) (h₂ : SamePlaces t u) :
    SamePlaces s u :=
  ⟨h₂.ids.trans h₁.ids, h₂.index.trans h₁.index⟩

/-- The function touches neither the identifiers nor the index. -/
def Quiet (f : Impl → Impl) : Prop := ∀ s, SamePlaces s (f s)

theorem map_modify_of_forall {α β : Type} {g : α → β} {f : α → α} (h : ∀ a, g (f a) = g a)
    (l : List α) (i : Nat) : (l.modify i f).map g = l.map g := by
  induction l generalizing i with
  | nil => simp
  | cons a l ih =>
    cases i with
    | zero => simp [h]
    | succ i => simp [ih]

theorem map_modifyFirst_of_forall {α β κ : Type} [DecidableEq κ] {key : α → κ} {k : κ} {g : α → β}
    {f : α → α} (h : ∀ a, g (f a) = g a) (l : List α) :
    (modifyFirst key k f l).map g = l.map g := by
  induction l with
  | nil => rfl
  | cons a l ih =>
    rw [modifyFirst]
    split
    · rw [List.map_cons, List.map_cons, h]
    · rw [List.map_cons, List.map_cons, ih]

theorem quiet_updateParticipant {f : DurableParticipant → DurableParticipant}
    (h : ∀ p, (f p).id = p.id) (id : ParticipantId) : Quiet (updateParticipant id f) := by
  intro s
  unfold updateParticipant
  split
  · exact ⟨map_modify_of_forall h _ _, rfl⟩
  · exact ⟨rfl, rfl⟩

theorem quiet_rawUpdateParticipant {f : DurableParticipant → DurableParticipant}
    (h : ∀ p, (f p).id = p.id) (id : ParticipantId) : Quiet (rawUpdateParticipant id f) :=
  fun _ => ⟨map_modifyFirst_of_forall h _, rfl⟩

/-- Putting a record back under its own identifier, or under one that no record
has. -/
theorem ids_restoreParticipant {id : ParticipantId} {p : DurableParticipant} {s : Impl}
    (h : id ∈ s.ids → p.id = id) : (restoreParticipant id p s).ids = s.ids := by
  show (modifyFirst DurableParticipant.id id (fun _ => p) s.state.participants).map (·.id) =
    s.state.participants.map (·.id)
  rw [ids] at h
  revert h
  generalize s.state.participants = l
  induction l with
  | nil => exact fun _ => rfl
  | cons a l ih =>
    intro h
    rw [modifyFirst]
    split
    · next ha => rw [List.map_cons, List.map_cons, h (by simp [ha]), ha]
    · rw [List.map_cons, List.map_cons, ih fun hid => h (List.mem_cons_of_mem _ hid)]

theorem quiet_updateGrant (f : AuthorityGrant → AuthorityGrant) (id : AuthorityGrantId) :
    Quiet (updateGrant id f) := by
  intro s
  unfold updateGrant
  split <;> exact ⟨rfl, rfl⟩

end Impl

/-! ### The records keep their identifier -/

namespace DurableParticipant

variable (p : DurableParticipant)

@[simp] theorem removeIncarnation_id (boot : WorkerBootId) :
    (p.removeIncarnation boot).id = p.id := by
  unfold removeIncarnation
  split
  · split <;> rfl
  · rfl

@[simp] theorem raiseFloor_id (i : IncarnationSequence) : (p.raiseFloor i).id = p.id := by
  unfold raiseFloor
  split <;> rfl

@[simp] theorem addIncarnation_id (b : WorkerBootId) (i : IncarnationSequence)
    (g : RegistrationGeneration) : (p.addIncarnation b i g).id = p.id := by
  unfold addIncarnation
  split <;> rfl

@[simp] theorem register_id (limits : Limits) (request : RegisterParticipantRequest)
    (digest : SnapshotDigest) (g : RegistrationGeneration) (i n : IncarnationSequence) :
    (p.register limits request digest g i n).id = p.id := by
  unfold register remember
  exact addIncarnation_id _ _ _ _

@[simp] theorem retire_id : p.retire.id = p.id := by
  unfold retire
  split
  · rfl
  · exact raiseFloor_id p _

end DurableParticipant

/-! ### The mutations of the operations are quiet -/

namespace Impl

theorem quiet_setGeneration {g : EpochGeneration} : Quiet (setGeneration g) := fun _ => ⟨rfl, rfl⟩

theorem quiet_setFenceFloor {g : FencingGeneration} : Quiet (setFenceFloor g) :=
  fun _ => ⟨rfl, rfl⟩

theorem quiet_resizeFences {n : Nat} : Quiet (resizeFences n) := fun _ => ⟨rfl, rfl⟩

theorem quiet_setActiveWorkers {n : Nat} : Quiet (setActiveWorkers n) := fun _ => ⟨rfl, rfl⟩

theorem quiet_setRegistrationFloor {g : RegistrationGeneration} :
    Quiet (setRegistrationFloor g) := fun _ => ⟨rfl, rfl⟩

theorem quiet_bindBoot {id : ParticipantId} {boot : WorkerBootId} : Quiet (bindBoot id boot) :=
  fun _ => ⟨rfl, rfl⟩

theorem quiet_pushGrant {g : AuthorityGrant} : Quiet (pushGrant g) := fun _ => ⟨rfl, rfl⟩

theorem quiet_popGrant : Quiet popGrant := fun _ => ⟨rfl, rfl⟩

theorem quiet_setGrantGeneration {g : GrantGeneration} {i : Nat} : Quiet (setGrantGeneration g i) :=
  fun _ => ⟨rfl, rfl⟩

theorem quiet_rememberControl {r : IdempotencyRecord} : Quiet (rememberControl r) :=
  fun _ => ⟨rfl, rfl⟩

theorem quiet_enterEpoch {e : CoordinatorEpoch} {b : CoordinatorBootId} : Quiet (enterEpoch e b) :=
  fun _ => ⟨rfl, rfl⟩

theorem quiet_pushTransition {t : EpochTransitionRecord} : Quiet (pushTransition t) :=
  fun _ => ⟨rfl, rfl⟩

theorem quiet_invalidateLive : Quiet invalidateLive :=
  fun s => ⟨by simp [ids, invalidateLive, mapState, DurableParticipant.invalidate], rfl⟩

theorem quiet_applyPreventive {id : ParticipantId} {r : FenceRecord} :
    Quiet (applyPreventive id r) := fun s =>
  have h := quiet_updateParticipant (f := (·.setFenceGeneration r.generation)) (fun _ => rfl) id
    (s.setFenceFloor r.generation)
  ⟨h.ids, h.index⟩

theorem quiet_undoPreventive {before : Impl} {id : ParticipantId} {p : DurableParticipant} :
    Quiet (before.undoPreventive id p) := fun s =>
  have h := quiet_rawUpdateParticipant (f := (·.setFenceGeneration p.fenceGeneration))
    (fun _ => rfl) id
    (resizeFences before.state.recentFences.length (s.setFenceFloor before.state.fenceFloor))
  ⟨h.ids, h.index⟩

theorem quiet_applyRemoval {id : ParticipantId} {boot : WorkerBootId} {i : IncarnationSequence} :
    Quiet (applyRemoval id boot i) := fun s =>
  ((quiet_updateParticipant (fun p => p.removeIncarnation_id boot) id s).trans
    (quiet_setActiveWorkers _)).trans (quiet_updateParticipant (fun p => p.raiseFloor_id i) id _)

theorem quiet_applyFence {id : ParticipantId} {r : FenceRecord} : Quiet (applyFence id r) :=
  fun s =>
  have h := quiet_updateParticipant (f := fun p =>
    (p.setFenceGeneration r.generation).retainFenced s.options.limits r.boot) (fun _ => rfl) id
    (s.setFenceFloor r.generation)
  ⟨h.ids, h.index⟩

theorem quiet_undoFence {before : Impl} {id : ParticipantId} {p : DurableParticipant} :
    Quiet (before.undoFence id p) := fun s =>
  have h := quiet_rawUpdateParticipant (f := p.restoreFence) (fun _ => rfl) id
    ((resizeFences before.state.recentFences.length
      (s.setFenceFloor before.state.fenceFloor)).setActiveWorkers before.activeWorkers)
  ⟨h.ids, h.index⟩

theorem quiet_revokeLoop {root : AuthorityGrantId} (fuel : Nat) (pending : List AuthorityGrantId)
    (n : Nat) (s : Impl) : SamePlaces s (revokeLoop root fuel pending n s).1 :=
  revokeLoop_keeps (P := SamePlaces s) (fun s' id hs => hs.trans (quiet_updateGrant _ id s')) root
    fuel pending n (.refl s)

theorem quiet_restoreLoop (fuel : Nat) (pending : List AuthorityGrantId) (s : Impl) :
    SamePlaces s (restoreLoop fuel pending s) :=
  restoreLoop_keeps (P := SamePlaces s) (fun s' id hs => hs.trans (quiet_updateGrant _ id s')) fuel
    pending (.refl s)

theorem quiet_undoRevoke {before : Impl} {g : AuthorityGrant} : Quiet (before.undoRevoke g) :=
  fun s =>
  have h := quiet_restoreLoop (2 * s.state.grants.length + 2) [g.id]
    (s.resizeControlAttempts before.state.controlAttempts.length)
  SamePlaces.trans ⟨h.ids, h.index⟩ (quiet_updateGrant _ _ _)

end Impl

/-! ## Steps that keep the places -/

theorem Impl.quiet_registerBoot {request : RegisterParticipantRequest} {digest : SnapshotDigest}
    {generation : RegistrationGeneration} {incarnation next : IncarnationSequence} :
    Quiet (registerBoot request digest generation incarnation next) := fun s =>
  (quiet_updateParticipant (f := (·.register s.options.limits request digest generation
    incarnation next)) (fun p => by simp) _ s).trans (quiet_bindBoot _)

/-- All but the creation, the re-registration and the epoch change is quiet, as a
mutation and as an undo action. -/
structure Placed (I : Txn Impl → Prop) : Prop where
  mark : ∀ {t}, I t → I t.marked
  apply : ∀ {t f}, I t → Impl.Quiet f → I (t.apply f)
  onUndo : ∀ {t f}, I t → Impl.Quiet f → I (t.onUndo f)
  opened : ∀ {t request participant}, I t →
    t.state.findParticipant request.participant = participant → I (openedTxn request participant t)
  undoEpoch : ∀ {t}, I t → t.undo = [] → I (t.onUndo t.state.undoEpoch)

theorem Placed.primitives {I : Txn Impl → Prop} (h : Placed I) : Primitives I where
  mark ht := h.mark ht
  bump {t} ht := by
    have hpushed : I (t.onUndo (Impl.setGeneration t.state.state.generation)) :=
      h.onUndo ht Impl.quiet_setGeneration
    exact ⟨hpushed, fun _ _ => h.apply hpushed Impl.quiet_setGeneration⟩
  fence {t id p boot incarnation} ht _ _ := by
    have hremoved : I ((t.onUndo (t.state.undoFence id p)).apply
        (Impl.applyRemoval id boot incarnation)) :=
      h.apply (h.onUndo ht Impl.quiet_undoFence) Impl.quiet_applyRemoval
    exact ⟨hremoved, fun _ _ _ _ => h.apply hremoved Impl.quiet_applyFence⟩
  preventive _ _ ht _ _ _ _ :=
    h.apply (h.onUndo ht Impl.quiet_undoPreventive) Impl.quiet_applyPreventive
  registration {t request participant} ht hp _ _ _ := by
    have hopened := h.opened ht hp
    refine ⟨hopened, fun generation _ => ?_⟩
    have hfloored : I (Txn.floored generation (openedTxn request participant t)) :=
      h.apply (h.onUndo hopened Impl.quiet_setRegistrationFloor) Impl.quiet_setRegistrationFloor
    exact ⟨hfloored, fun _ _ _ => h.apply hfloored Impl.quiet_registerBoot⟩
  grant _ ht _ _ _ _ := h.onUndo (h.apply ht Impl.quiet_pushGrant) Impl.quiet_popGrant
  stamp _ _ ht := h.apply ht Impl.quiet_setGrantGeneration
  remember _ _ _ ht :=
    h.apply ht (Impl.quiet_updateParticipant (f := (·.remember _ _)) (fun _ => rfl) _)
  revoke ht _ _ := h.apply (h.onUndo ht Impl.quiet_undoRevoke) fun s =>
    Impl.quiet_revokeLoop (2 * s.state.grants.length + 2) _ 0 s
  restamp _ _ ht := h.apply ht (Impl.quiet_updateGrant _ _)
  control _ ht := h.apply ht Impl.quiet_rememberControl
  epoch {t epoch} boot ht hfirst _ := by
    have hentered : I ((t.onUndo t.state.undoEpoch).apply (Impl.enterEpoch epoch boot)) :=
      h.apply (h.undoEpoch ht hfirst) Impl.quiet_enterEpoch
    refine ⟨hentered, fun generation _ live => ?_⟩
    have hinvalidated := h.apply (f := fun s => if live then s.invalidateLive else s)
      (h.apply (f := Impl.setGeneration generation) hentered Impl.quiet_setGeneration) fun s => by
        cases live with
        | true => exact Impl.quiet_invalidateLive s
        | false => exact .refl s
    exact ⟨hinvalidated, fun _ _ => h.apply hinvalidated Impl.quiet_pushTransition⟩
  retire _ fenced ht := h.apply (h.onUndo ht (Impl.quiet_rawUpdateParticipant
    (f := fenced.restoreRetirement) (fun _ => rfl) _))
      (Impl.quiet_updateParticipant (f := (·.retire)) (fun p => p.retire_id) _)

/-! ## What an operation keeps -/

open Impl

/-- The undo actions lead back to the identifiers of `before`, and the index
has only been extended. -/
structure Anchored (before : Impl) (t : Txn Impl) : Prop where
  undone : ∀ s : Impl, s.ids = t.state.ids → (t.undo.foldl (fun s f => f s) s).ids = before.ids
  indexKept : ∀ f ∈ t.undo, ∀ s, (f s).participantIndex = s.participantIndex
  grown : before.ids <+: t.state.ids
  kept : ∀ id ∈ before.ids, t.state.participantIndex id = before.participantIndex id
  drift : ∀ id i, t.state.participantIndex id = some i →
    before.participantIndex id = some i ∨ before.ids.length ≤ i
  listed : ∀ id ∈ t.state.ids, ∃ i, t.state.participantIndex id = some i ∧
    t.state.ids[i]? = some id
  exact : before.Exact → t.state.Exact
  distinct : before.Exact → ∀ f ∈ t.undo, ∀ s : Impl, s.ids.Nodup → (f s).ids.Nodup

namespace Anchored

variable {before : Impl}

theorem start (h : before.Findable) : Anchored before (Txn.start before) :=
  ⟨fun _ hs => hs, fun _ hf => (nomatch hf), List.prefix_refl _, fun _ _ => rfl,
    fun _ _ h => .inl h, h.listed, id, fun _ _ hf => (nomatch hf)⟩

theorem index_foldl {undo : List (Impl → Impl)}
    (h : ∀ f ∈ undo, ∀ s, (f s).participantIndex = s.participantIndex) (s : Impl) :
    (undo.foldl (fun s f => f s) s).participantIndex = s.participantIndex := by
  induction undo generalizing s with
  | nil => rfl
  | cons f fs ih =>
    rw [List.foldl_cons, ih fun g hg => h g (List.mem_cons_of_mem _ hg),
      h f (List.mem_cons_self ..)]

theorem nodup_foldl {undo : List (Impl → Impl)}
    (h : ∀ f ∈ undo, ∀ s : Impl, s.ids.Nodup → (f s).ids.Nodup) {s : Impl} (hs : s.ids.Nodup) :
    (undo.foldl (fun s f => f s) s).ids.Nodup := by
  induction undo generalizing s with
  | nil => exact hs
  | cons f fs ih =>
    rw [List.foldl_cons]
    exact ih (fun g hg => h g (List.mem_cons_of_mem _ hg)) (h f (List.mem_cons_self ..) s hs)

/-- **The rollback is sound again.** -/
theorem rollback {t : Txn Impl} (h : Anchored before t) (hb : before.Findable) :
    t.rollback.Findable := by
  have hids : t.rollback.ids = before.ids := h.undone t.state rfl
  have hindex : t.rollback.participantIndex = t.state.participantIndex :=
    index_foldl h.indexKept t.state
  constructor
  · intro id i hi j hj
    rw [hids] at hj
    rw [hindex] at hi
    rcases h.drift id i hi with hi | hi
    · exact hb.sound id i hi j hj
    · rw [List.getElem?_eq_none hi] at hj
      cases hj
  · intro id hid
    rw [hids] at hid ⊢
    rw [hindex, h.kept id hid]
    exact hb.listed id hid

theorem apply {t : Txn Impl} (ht : Anchored before t) {f : Impl → Impl} (hf : Quiet f) :
    Anchored before (t.apply f) := by
  show Anchored before { t with state := f t.state }
  obtain ⟨hids, hindex⟩ := hf t.state
  refine ⟨fun s hs => ht.undone s (hs.trans hids), ht.indexKept, ?_, ?_, ?_, ?_, fun hb => ⟨?_, ?_⟩,
    ht.distinct⟩
  · exact hids ▸ ht.grown
  · exact fun id hid => (congrFun hindex id).trans (ht.kept id hid)
  · exact fun id i hi => ht.drift id i ((congrFun hindex id).symm.trans hi)
  · simp only [hids, hindex]
    exact ht.listed
  · rw [hids]
    exact (ht.exact hb).nodup
  · simp only [hids, hindex]
    exact (ht.exact hb).place

/-- An undo action is registered that leaves the identifiers alone where it is
going to run. -/
theorem push {t : Txn Impl} (ht : Anchored before t) {f : Impl → Impl}
    (hids : ∀ s : Impl, s.ids = t.state.ids → (f s).ids = s.ids)
    (hindex : ∀ s, (f s).participantIndex = s.participantIndex)
    (hdistinct : before.Exact → ∀ s : Impl, s.ids.Nodup → (f s).ids.Nodup) :
    Anchored before (t.onUndo f) := by
  refine ⟨fun s hs => ht.undone (f s) ((hids s hs).trans hs), fun g hg => ?_, ht.grown, ht.kept,
    ht.drift, ht.listed, ht.exact, fun hb g hg => ?_⟩
  · rcases List.mem_cons.mp hg with rfl | hg
    · exact hindex
    · exact ht.indexKept g hg
  · rcases List.mem_cons.mp hg with rfl | hg
    · exact hdistinct hb
    · exact ht.distinct hb g hg

theorem onUndo {t : Txn Impl} (ht : Anchored before t) {f : Impl → Impl} (hf : Quiet f) :
    Anchored before (t.onUndo f) :=
  ht.push (fun s _ => (hf s).ids) (fun s => (hf s).index) fun _ s hs => (hf s).ids ▸ hs

/-- A participant that is not found is created, and popped by the undo. -/
theorem create {t : Txn Impl} (ht : Anchored before t) {id : ParticipantId}
    {policy : IncarnationPolicy} (hnew : t.state.findParticipant id = none) :
    Anchored before ((t.apply (createParticipant id policy)).onUndo popParticipant) := by
  show Anchored before { t with
    state := t.state.createParticipant id policy
    undo := popParticipant :: t.undo }
  have hids : (t.state.createParticipant id policy).ids = t.state.ids ++ [id] := by
    simp [ids, createParticipant, mapState, DurableParticipant.fresh]
  have hfresh : id ∉ t.state.ids := by
    intro hid
    obtain ⟨i, hi, hrecord⟩ := ht.listed id hid
    rw [ids_getElem?] at hrecord
    obtain ⟨p, hp, -⟩ := Option.map_eq_some_iff.mp hrecord
    rw [findParticipant_eq_some.mpr ⟨i, hi, hp⟩] at hnew
    cases hnew
  have hlen : t.state.state.participants.length = t.state.ids.length := by simp [ids]
  have hother : ∀ j, j ≠ id →
      (t.state.createParticipant id policy).participantIndex j = t.state.participantIndex j :=
    fun j hj => if_neg hj
  have hself : (t.state.createParticipant id policy).participantIndex id =
      some t.state.ids.length := (if_pos rfl).trans (by rw [hlen])
  refine ⟨fun s hs => ht.undone _ ?_, fun g hg => ?_, ?_, fun j hj => ?_, fun j i hi => ?_,
    fun j hj => ?_, fun hb => ⟨?_, fun j i hi => ?_⟩, fun hb g hg => ?_⟩
  · show (s.state.participants.dropLast).map (·.id) = t.state.ids
    rw [List.map_dropLast]
    have hs' : s.state.participants.map (·.id) = t.state.ids ++ [id] := hs.trans hids
    rw [hs', List.dropLast_concat]
  · rcases List.mem_cons.mp hg with rfl | hg
    · exact fun _ => rfl
    · exact ht.indexKept g hg
  · rw [hids]
    exact ht.grown.trans (List.prefix_append ..)
  · have hne : j ≠ id := by
      rintro rfl
      exact hfresh (ht.grown.subset hj)
    exact (hother j hne).trans (ht.kept j hj)
  · by_cases hne : j = id
    · subst hne
      rw [hself] at hi
      obtain rfl := Option.some.inj hi
      exact .inr ht.grown.length_le
    · exact ht.drift j i ((hother j hne).symm.trans hi)
  · simp only [hids, List.mem_append, List.mem_singleton] at hj ⊢
    rcases hj with hj | rfl
    · obtain ⟨i, hi, hrecord⟩ := ht.listed j hj
      have hne : j ≠ id := by
        rintro rfl
        exact hfresh hj
      refine ⟨i, (hother j hne).trans hi, ?_⟩
      have hlt : i < t.state.ids.length := (List.getElem?_eq_some_iff.mp hrecord).1
      rw [List.getElem?_append_left hlt, hrecord]
    · exact ⟨_, hself, by simp⟩
  · rw [hids]
    exact List.nodup_append.mpr ⟨(ht.exact hb).nodup, List.nodup_singleton _, fun j hj k hk => by
      rw [List.mem_singleton.mp hk]
      rintro rfl
      exact hfresh hj⟩
  · rw [hids]
    by_cases hne : j = id
    · subst hne
      rw [hself] at hi
      rw [← Option.some.inj hi]
      exact List.getElem?_concat_length
    · have hplace := (ht.exact hb).place j i ((hother j hne).symm.trans hi)
      have hlt : i < t.state.ids.length := (List.getElem?_eq_some_iff.mp hplace).1
      rw [List.getElem?_append_left hlt, hplace]
  · rcases List.mem_cons.mp hg with rfl | hg
    · intro s hs
      show ((s.state.participants.dropLast).map (·.id)).Nodup
      rw [List.map_dropLast]
      exact hs.sublist (List.dropLast_sublist _)
    · exact ht.distinct hb g hg

/-- The undo of a re-registration rewrites the record under its identifier. -/
theorem pushRestore {t : Txn Impl} (ht : Anchored before t) {id : ParticipantId}
    {p : DurableParticipant} (hp : t.state.findParticipant id = some p) :
    Anchored before (t.onUndo (restoreParticipant id p)) := by
  obtain ⟨i', hi', hp'⟩ := findParticipant_eq_some.mp hp
  refine ht.push (fun s hs => ?_) (fun _ => rfl) fun hb s hs => ?_
  swap
  · have hplace := (ht.exact hb).place id i' hi'
    rw [ids_getElem?, hp'] at hplace
    rw [ids_restoreParticipant fun _ => Option.some.inj hplace]
    exact hs
  -- either the record found is the participant's own, or no record is
  have hcase : id ∈ t.state.ids → p.id = id := by
    intro hid
    obtain ⟨i, hi, hrecord⟩ := ht.listed id hid
    obtain rfl : i' = i := Option.some.inj (hi'.symm.trans hi)
    rw [ids_getElem?, hp'] at hrecord
    exact Option.some.inj hrecord
  refine ids_restoreParticipant fun hid => hcase ?_
  rw [← hs]
  exact hid

/-- The record is opened for the participant that was found, or not found. -/
theorem opened {t : Txn Impl} (ht : Anchored before t) {request : RegisterParticipantRequest}
    {participant : Option DurableParticipant}
    (hp : t.state.findParticipant request.participant = participant) :
    Anchored before (openedTxn request participant t) := by
  cases participant with
  | none => exact ht.create hp
  | some p => exact ht.pushRestore hp

/-- The undo of an epoch change puts the participants back as they were when it
was registered. -/
theorem undoEpoch {t : Txn Impl} (ht : Anchored before t) :
    Anchored before (t.onUndo t.state.undoEpoch) :=
  ht.push (fun _ hs => hs.symm) (fun _ => rfl) fun hb _ _ => (ht.exact hb).nodup

theorem placed : Placed (Anchored before) where
  mark ht := ⟨ht.undone, ht.indexKept, ht.grown, ht.kept, ht.drift, ht.listed, ht.exact, ht.distinct⟩
  apply ht hf := ht.apply hf
  onUndo ht hf := ht.onUndo hf
  opened ht hp := ht.opened hp
  undoEpoch ht _ := ht.undoEpoch

theorem primitives (before : Impl) : Primitives (Anchored before) := placed.primitives

end Anchored

/-! ## Every reachable runtime -/

/-- **A sound index is upheld**, whether the operation commits or not. -/
theorem findable_upholds : Upholds Impl.Findable Anchored where
  primitives _ := Anchored.primitives _
  start h := .start h
  rolledBack h ht := ht.rollback h
  committed _ _ := findable_rebuildIndexes _
  restored _ _ := findable_rebuildIndexes _

/-- **A transaction never doubles an identifier.** -/
theorem transact_nodup {α : Type} {op : Op α} (hop : Composed op) (fault : Option SaveFault)
    (disk : Disk) {impl : Impl} (h : impl.Findable) (hexact : impl.Exact) :
    (transact op fault disk impl).impl.ids.Nodup := by
  have hkeeps : Anchored impl (after (op (Txn.start impl))) :=
    hop _ (Anchored.primitives impl) _ rfl (.start h)
  unfold transact
  cases hr : op (Txn.start impl) with
  | error e t =>
    rw [hr] at hkeeps
    show t.rollback.ids.Nodup
    rw [show t.rollback.ids = impl.ids from hkeeps.undone t.state rfl]
    exact hexact.nodup
  | ok a t =>
    rw [hr] at hkeeps
    replace hkeeps : Anchored impl t := hkeeps
    simp only
    split
    · have hcanonical : t.state.canonicalize.ids.Nodup :=
        ((List.perm_insertionSort _ t.state.state.participants).map _).nodup_iff.mpr
          (hkeeps.exact hexact).nodup
      unfold persist
      dsimp only
      split
      · show (t.undo.foldl (fun s f => f s) t.state.canonicalize).ids.Nodup
        -- the undo actions run on a state in another order
        exact Anchored.nodup_foldl (hkeeps.distinct hexact) hcanonical
      · exact hcanonical
    · show t.rollback.ids.Nodup
      rw [show t.rollback.ids = impl.ids from hkeeps.undone t.state rfl]
      exact hexact.nodup

/-- The sessions play no part in it. -/
theorem Impl.Findable.of_state {impl impl' : Impl} (h : impl.Findable)
    (hstate : impl'.state = impl.state) (hindex : impl'.participantIndex = impl.participantIndex) :
    impl'.Findable := by
  have hids : impl'.ids = impl.ids := by rw [ids, ids, hstate]
  refine ⟨fun id i hi j hj => h.sound id i ?_ j ?_, fun id hid => ?_⟩
  · rwa [hindex] at hi
  · rwa [hids] at hj
  · rw [hids, hindex] at *
    exact h.listed id hid

theorem findable_sessionFree : SessionFree Impl.Findable := fun _ _ _ h => h.of_state rfl rfl

theorem callRuntime_findable (call : Call) (entropy : Entropy) (fault : Option SaveFault)
    (disk : Disk) {impl : Impl} (h : impl.Findable) :
    (callRuntime call entropy fault disk impl).impl.Findable :=
  findable_upholds.callRuntime findable_sessionFree h call entropy fault disk

theorem openRuntime_findable {opening : Opening} {fault : Option SaveFault} {disk : Disk}
    {impl : Impl} (h : (openRuntime opening fault disk).1 = some impl) : impl.Findable :=
  findable_upholds.openRuntime (fun _ _ _ => findable_rebuildIndexes _) h

/-- **The index of every reachable runtime is sound**, whatever fails on the
way. -/
theorem reachable_findable {host : Host} (h : coordinator.Reaches (fun _ _ => True) host)
    {impl : Impl} (himpl : host.runtime = some impl) : impl.Findable :=
  findable_upholds.reachable findable_sessionFree (fun _ _ _ _ _ => findable_rebuildIndexes _) h himpl

end FabricEpoch
