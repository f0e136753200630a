import FabricEpoch.Runtime.Indexing

/-!
# The identifiers stay distinct

No two records of a reachable runtime share an identifier, and they stand in
the order of their identifiers, whatever fails on the way. A save that fails
lets the undo actions run on records that have been sorted since, so what they
do to the identifiers is said for every list they can meet.

- `Mistaken`: the index leads to a record of another participant. Only an entry
  that a failed call left behind does, in the middle of a later call;
- `Traced`: what an operation keeps while it runs;
- `reachable_distinct`: distinct identifiers;
- `RecordStable`: what every write to a record, and every undo of one, preserves.
-/

namespace FabricEpoch

open Table Transaction

namespace Impl

/-- The index leads to a record under another identifier. -/
def Mistaken (impl : Impl) (id : ParticipantId) : Prop :=
  ∃ i j, impl.participantIndex id = some i ∧ impl.ids[i]? = some j ∧ j ≠ id

variable {impl impl' : Impl}

theorem Mistaken.of_samePlaces (h : SamePlaces impl impl') {id : ParticipantId}
    (hm : impl'.Mistaken id) : impl.Mistaken id := by
  obtain ⟨i, j, hi, hj, hne⟩ := hm
  rw [h.index] at hi
  rw [h.ids] at hj
  exact ⟨i, j, hi, hj, hne⟩

/-- A mistaken identifier is no record's. -/
theorem not_mistaken_of_listed {id : ParticipantId}
    (h : ∃ i, impl.participantIndex id = some i ∧ impl.ids[i]? = some id) : ¬ impl.Mistaken id := by
  obtain ⟨i, hi, hplace⟩ := h
  rintro ⟨i', j, hi', hj, hne⟩
  obtain rfl := Option.some.inj (hi.symm.trans hi')
  exact hne (Option.some.inj (hj.symm.trans hplace))

/-- A creation leaves what is mistaken mistaken. -/
theorem Mistaken.create {id : ParticipantId} (hm : impl.Mistaken id) {new : ParticipantId}
    {policy : IncarnationPolicy} (hnew : impl.findParticipant new = none) :
    (impl.createParticipant new policy).Mistaken id := by
  obtain ⟨i, j, hi, hj, hne⟩ := hm
  have hother : id ≠ new := by
    rintro rfl
    rw [ids_getElem?] at hj
    obtain ⟨p, hp, -⟩ := Option.map_eq_some_iff.mp hj
    rw [findParticipant_eq_some.mpr ⟨i, hi, hp⟩] at hnew
    cases hnew
  have hids : (impl.createParticipant new policy).ids = impl.ids ++ [new] := List.map_append
  refine ⟨i, j, (if_neg hother).trans hi, ?_, hne⟩
  rw [hids, List.getElem?_append_left (List.getElem?_eq_some_iff.mp hj).1, hj]

end Impl

open Impl

/-! ## What an operation keeps -/

/-- An undo action, on records none of which is to be avoided: it drops
identifiers, or puts back those of `before`. -/
def Trims (before : Impl) (avoid : ParticipantId → Prop) (f : Impl → Impl) : Prop :=
  ∀ s : Impl, (∀ id ∈ s.ids, ¬ avoid id) → (f s).ids.Sublist s.ids ∨ (f s).ids = before.ids

structure Traced (before : Impl) (t : Txn Impl) : Prop where
  anchored : Anchored before t
  nodup : t.state.ids.Nodup
  trims : ∀ f ∈ t.undo, ∀ avoid : ParticipantId → Prop, (∀ id, t.state.Mistaken id → avoid id) →
    Trims before avoid f

namespace Traced

variable {before : Impl} {t : Txn Impl}

theorem start (h : before.Findable) (hn : before.ids.Nodup) : Traced before (Txn.start before) :=
  ⟨.start h, hn, fun _ hf => (nomatch hf)⟩

theorem apply (ht : Traced before t) {f : Impl → Impl} (hf : Quiet f) :
    Traced before (t.apply f) := by
  refine ⟨ht.anchored.apply hf, ?_, fun g hg avoid havoid => ht.trims g hg avoid fun id hm => ?_⟩
  · show (f t.state).ids.Nodup
    rw [(hf t.state).ids]
    exact ht.nodup
  · refine havoid id ?_
    obtain ⟨i, j, hi, hj, hne⟩ := hm
    exact ⟨i, j, (congrFun (hf t.state).index id).trans hi, (congrArg (·[i]?) (hf t.state).ids).trans hj,
      hne⟩

/-- An undo action that trims is registered. -/
theorem push (ht : Traced before t) {f : Impl → Impl} (hanchored : Anchored before (t.onUndo f))
    (hf : ∀ avoid : ParticipantId → Prop, (∀ id, t.state.Mistaken id → avoid id) →
      Trims before avoid f) : Traced before (t.onUndo f) := by
  refine ⟨hanchored, ht.nodup, fun g hg => ?_⟩
  rcases List.mem_cons.mp hg with rfl | hg
  · exact hf
  · exact ht.trims g hg

theorem onUndo (ht : Traced before t) {f : Impl → Impl} (hf : Quiet f) :
    Traced before (t.onUndo f) :=
  ht.push (ht.anchored.onUndo hf) fun _ _ s _ => .inl ((hf s).ids ▸ List.Sublist.refl _)

theorem create (ht : Traced before t) {id : ParticipantId} {policy : IncarnationPolicy}
    (hnew : t.state.findParticipant id = none) :
    Traced before ((t.apply (createParticipant id policy)).onUndo popParticipant) := by
  have hids : (t.state.createParticipant id policy).ids = t.state.ids ++ [id] := List.map_append
  have hfresh : id ∉ t.state.ids := by
    intro hid
    obtain ⟨i, hi, hrecord⟩ := ht.anchored.listed id hid
    rw [ids_getElem?] at hrecord
    obtain ⟨p, hp, -⟩ := Option.map_eq_some_iff.mp hrecord
    rw [findParticipant_eq_some.mpr ⟨i, hi, hp⟩] at hnew
    cases hnew
  refine ⟨ht.anchored.create hnew, ?_, fun g hg avoid havoid => ?_⟩
  · show (t.state.createParticipant id policy).ids.Nodup
    rw [hids]
    refine List.nodup_append.mpr ⟨ht.nodup, List.nodup_singleton _, fun j hj k hk => ?_⟩
    rw [List.mem_singleton.mp hk]
    rintro rfl
    exact hfresh hj
  · rcases List.mem_cons.mp hg with rfl | hg
    · intro s _
      left
      show ((s.state.participants.dropLast).map (·.id)).Sublist s.ids
      rw [List.map_dropLast]
      exact List.dropLast_sublist _
    · exact ht.trims g hg avoid fun id' hm => havoid id' (hm.create hnew)

/-- The undo of a re-registration rewrites the record under its identifier. When
the index was mistaken, no record has the identifier. -/
theorem pushRestore (ht : Traced before t) {id : ParticipantId} {p : DurableParticipant}
    (hp : t.state.findParticipant id = some p) :
    Traced before (t.onUndo (restoreParticipant id p)) := by
  refine ht.push (ht.anchored.pushRestore hp) fun avoid havoid s hs => .inl ?_
  have hsame : (restoreParticipant id p s).ids = s.ids := by
    by_cases hid : p.id = id
    · exact ids_restoreParticipant fun _ => hid
    · obtain ⟨i, hi, hrecord⟩ := findParticipant_eq_some.mp hp
      have hmistaken : t.state.Mistaken id :=
        ⟨i, p.id, hi, by rw [ids_getElem?, hrecord]; rfl, hid⟩
      exact ids_restoreParticipant fun hmem => absurd (havoid id hmistaken) (hs id hmem)
  rw [hsame]

theorem placed : Placed (Traced before) where
  mark ht := ⟨Anchored.placed.mark ht.anchored, ht.nodup, ht.trims⟩
  apply ht hf := ht.apply hf
  onUndo ht hf := ht.onUndo hf
  opened {t request participant} ht hp := by
    cases participant with
    | none => exact ht.create hp
    | some p => exact ht.pushRestore hp
  undoEpoch {t} ht hfirst := by
    refine ht.push ht.anchored.undoEpoch fun _ _ s _ => .inr ?_
    -- nothing has been done yet, so these are the identifiers of the start
    have hundone := ht.anchored.undone t.state rfl
    rw [hfirst] at hundone
    exact hundone

/-- What is kept by dropping records, and holds of `before`, holds of the
identifiers behind the undo actions. -/
theorem foldl (ht : Traced before t) {Q : List ParticipantId → Prop}
    (hQ : ∀ {l l' : List ParticipantId}, l.Sublist l' → Q l' → Q l) (hbefore : Q before.ids) {s : Impl}
    (hs : ∀ id ∈ s.ids, id ∈ t.state.ids) (hQs : Q s.ids) :
    Q (t.undo.foldl (fun s f => f s) s).ids := by
  have havoid : ∀ {s : Impl}, (∀ id ∈ s.ids, id ∈ t.state.ids) →
      ∀ id ∈ s.ids, ¬ t.state.Mistaken id := fun hs id hid =>
    not_mistaken_of_listed (ht.anchored.listed id (hs id hid))
  have htrims := ht.trims
  revert htrims
  generalize t.undo = undo
  intro htrims
  induction undo generalizing s with
  | nil => exact hQs
  | cons f fs ih =>
    rw [List.foldl_cons]
    have hstep := htrims f (List.mem_cons_self ..) _ (fun _ h => h) s (havoid hs)
    refine ih ?_ ?_ fun g hg => htrims g (List.mem_cons_of_mem _ hg)
    · intro id hid
      rcases hstep with hsub | heq
      · exact hs id (hsub.subset hid)
      · exact ht.anchored.grown.subset (heq ▸ hid)
    · rcases hstep with hsub | heq
      · exact hQ hsub hQs
      · rw [heq]
        exact hbefore

end Traced

/-! ## Distinct identifiers -/

/-- The identifiers of the sorted records are those of the records. -/
theorem Impl.ids_canonicalize_perm (impl : Impl) : impl.canonicalize.ids.Perm impl.ids :=
  (List.perm_insertionSort _ impl.state.participants).map _

/-- A sound index over distinct identifiers. -/
structure Impl.Distinct (impl : Impl) : Prop where
  findable : impl.Findable
  nodup : impl.ids.Nodup

theorem distinct_upholds : Upholds Impl.Distinct Traced where
  primitives _ := Traced.placed.primitives
  start h := .start h.findable h.nodup
  rolledBack {before t} h ht := by
    refine ⟨ht.anchored.rollback h.findable, ?_⟩
    rw [show t.rollback.ids = before.ids from ht.anchored.undone t.state rfl]
    exact h.nodup
  committed {before t} _ ht :=
    ⟨findable_rebuildIndexes _, (t.state.ids_canonicalize_perm.nodup_iff).mpr ht.nodup⟩
  restored {before t} h ht := by
    refine ⟨findable_rebuildIndexes _, ?_⟩
    have hperm := t.state.ids_canonicalize_perm
    exact ht.foldl (fun hsub hn => hn.sublist hsub) h.nodup (fun id hid => hperm.mem_iff.mp hid)
      (hperm.nodup_iff.mpr ht.nodup)

theorem distinct_sessionFree : SessionFree Impl.Distinct :=
  fun _ _ _ h => ⟨findable_sessionFree _ _ _ h.findable, h.nodup⟩

/-- What is loaded names no participant twice. -/
theorem nodup_of_valid {state : DurableState} (hvalid : ValidDurable state) :
    (state.participants.map (·.id)).Nodup := by
  by_cases hepoch : state.currentEpoch.value = 0
  · rw [(hvalid.pristine hepoch).1]
    exact List.nodup_nil
  · exact (hvalid.established hepoch).participantIds

theorem nodup_of_load {options : StoreOptions} {disk : Disk} {state : DurableState}
    (h : EpochStore.load options disk = .ok state) : (state.participants.map (·.id)).Nodup :=
  nodup_of_valid (EpochStore.load_sound h).1

/-- **The records of every reachable runtime have distinct identifiers**, whatever
fails on the way. -/
theorem reachable_distinct {host : Host} (h : coordinator.Reaches (fun _ _ => True) host)
    {impl : Impl} (himpl : host.runtime = some impl) : impl.Distinct :=
  distinct_upholds.reachable distinct_sessionFree
    (fun _ _ _ _ hload => ⟨findable_rebuildIndexes _, nodup_of_load (loadRuntime_ok hload).2.1⟩) h himpl

/-- A record is found under its identifier, where identifiers are distinct. -/
theorem Impl.Distinct.find_of_mem {impl : Impl} (h : impl.Distinct) {p : DurableParticipant}
    (hp : p ∈ impl.state.participants) : impl.findParticipant p.id = some p := by
  obtain ⟨i, hi, hplace⟩ := h.findable.listed p.id (List.mem_map_of_mem hp)
  rw [ids_getElem?] at hplace
  obtain ⟨q, hq, hid⟩ := Option.map_eq_some_iff.mp hplace
  obtain rfl : q = p := List.inj_on_of_nodup_map h.nodup (List.mem_of_getElem? hq) hp hid
  exact findParticipant_eq_some.mpr ⟨i, hi, hq⟩

/-! ## Distinct live boots -/

namespace DurableParticipant

variable {p : DurableParticipant}

/-- A removal only takes boots out. -/
theorem liveBoots_removeIncarnation (boot : WorkerBootId) :
    (p.removeIncarnation boot).liveBoots.Sublist p.liveBoots := by
  unfold removeIncarnation
  split
  · next hactive =>
    cases hextra : p.extraIncarnations with
    | nil => simp [liveBoots, hextra]
    | cons first rest => simp [liveBoots, hactive.1, hextra]
  · exact (List.Sublist.refl _).append (List.filter_sublist.map _)

@[simp] theorem liveBoots_raiseFloor (i : IncarnationSequence) :
    (p.raiseFloor i).liveBoots = p.liveBoots := by
  unfold raiseFloor
  split <;> rfl

@[simp] theorem liveBoots_retire : p.retire.liveBoots = p.liveBoots := by
  unfold retire
  dsimp only
  split
  · rfl
  · exact liveBoots_raiseFloor p.highestIssued

/-- An incarnation is added under a boot that is not live. -/
theorem nodup_addIncarnation (hn : p.liveBoots.Nodup) {boot : WorkerBootId}
    (hboot : boot ∉ p.liveBoots) (i : IncarnationSequence) (g : RegistrationGeneration) :
    (p.addIncarnation boot i g).liveBoots.Nodup := by
  unfold addIncarnation
  by_cases hactive : p.hasActiveBoot = true
  · rw [if_pos hactive]
    have happend : liveBoots { p with
        extraIncarnations := p.extraIncarnations ++ [⟨boot, i, g⟩] } = p.liveBoots ++ [boot] := by
      simp [liveBoots]
    rw [happend]
    refine List.nodup_append.mpr ⟨hn, List.nodup_singleton _, fun b hb c hc => ?_⟩
    rw [List.mem_singleton.mp hc]
    rintro rfl
    exact hboot hb
  · rw [if_neg hactive]
    have hextra : p.liveBoots = p.extraIncarnations.map (·.boot) := by simp [liveBoots, hactive]
    rw [hextra] at hn hboot
    show (boot :: p.extraIncarnations.map (·.boot)).Nodup
    exact List.nodup_cons.mpr ⟨hboot, hn⟩

theorem nodup_register (hn : p.liveBoots.Nodup) {request : RegisterParticipantRequest}
    (hboot : p.findIncarnation request.boot = none) (limits : Limits) (digest : SnapshotDigest)
    (g : RegistrationGeneration) (i next : IncarnationSequence) :
    (p.register limits request digest g i next).liveBoots.Nodup := by
  let q : DurableParticipant := { p with
    registrationGeneration := g
    nextIncarnation := next
    policy := request.policy
    scopes := request.scopes
    revalidationRequired := false
    retired := false
    acceptedRegistrations := p.acceptedRegistrations + 1 }
  exact nodup_addIncarnation (p := q) hn (find_eq_none_iff.mp hboot) i g

end DurableParticipant

namespace Impl

variable {impl : Impl}

/-- What a write through the index leaves in the vector. -/
theorem mem_updateParticipant {id : ParticipantId} {f : DurableParticipant → DurableParticipant}
    {q : DurableParticipant} (hq : q ∈ (impl.updateParticipant id f).state.participants) :
    q ∈ impl.state.participants ∨ ∃ p, impl.findParticipant id = some p ∧ q = f p := by
  unfold updateParticipant at hq
  cases hi : impl.participantIndex id with
  | none =>
    rw [hi] at hq
    exact .inl hq
  | some i =>
    rw [hi] at hq
    obtain ⟨j, hj⟩ := List.mem_iff_getElem?.mp hq
    replace hj : (impl.state.participants.modify i f)[j]? = some q := hj
    rw [List.getElem?_modify] at hj
    obtain ⟨p, hp, rfl⟩ := Option.map_eq_some_iff.mp hj
    by_cases hij : i = j
    · subst hij
      exact .inr ⟨p, findParticipant_eq_some.mpr ⟨i, hi, hp⟩, if_pos rfl⟩
    · rw [if_neg hij]
      exact .inl (List.mem_of_getElem? hp)

end Impl

/-- Every write to a record, and every undo of one, preserves `Q`. -/
structure RecordStable (Q : DurableParticipant → Prop) : Prop where
  fresh : ∀ id policy, Q (.fresh id policy)
  removal : ∀ {p} boot, Q p → Q (p.removeIncarnation boot)
  floor : ∀ {p} i, Q p → Q (p.raiseFloor i)
  fenced : ∀ {p} g, Q p → Q (p.setFenceGeneration g)
  retained : ∀ {p} limits boot, Q p → Q (p.retainFenced limits boot)
  undoFence : ∀ {before p}, Q before → Q p → Q (before.restoreFence p)
  register : ∀ {p request next} limits digest g, Q p → p.findIncarnation request.boot = none →
    p.nextIncarnation.next = some next →
    Q (p.register limits request digest g p.nextIncarnation next)
  remember : ∀ {p} limits record, Q p → Q (p.remember limits record)
  invalidate : ∀ {p}, Q p → Q p.invalidate
  retire : ∀ {p}, Q p → Q p.retire
  undoRetire : ∀ {p} (fenced : DurableParticipant), Q p → Q (fenced.restoreRetirement p)

namespace RecordStable

variable {Q : DurableParticipant → Prop} {s : Impl}

theorem update (h : ∀ p ∈ s.state.participants, Q p) (id : ParticipantId)
    {f : DurableParticipant → DurableParticipant}
    (hf : ∀ p, s.findParticipant id = some p → Q p → Q (f p)) :
    ∀ p ∈ (s.updateParticipant id f).state.participants, Q p := by
  intro q hq
  rcases Impl.mem_updateParticipant hq with hq | ⟨p, hp, rfl⟩
  · exact h q hq
  · exact hf p hp (h p (mem_of_find hp))

theorem rawUpdate (h : ∀ p ∈ s.state.participants, Q p) (id : ParticipantId)
    {f : DurableParticipant → DurableParticipant} (hf : ∀ p, Q p → Q (f p)) :
    ∀ p ∈ (s.rawUpdateParticipant id f).state.participants, Q p :=
  forall_mem_modifyFirst h hf

theorem updateGrant {f : AuthorityGrant → AuthorityGrant} (id : AuthorityGrantId)
    (h : ∀ p ∈ s.state.participants, Q p) :
    ∀ p ∈ (s.updateGrant id f).state.participants, Q p := by
  unfold Impl.updateGrant
  split <;> exact h

/-- **What every write to a record preserves**, the memory preserves. -/
theorem stable (hQ : RecordStable Q) : Stable fun s => ∀ p ∈ s.state.participants, Q p where
  generation _ h := h
  floor _ h := h
  removal {s} id boot i h := by
    have hremoved := update h id (f := (·.removeIncarnation boot)) fun _ _ => hQ.removal boot
    exact update (s := (s.updateParticipant id (·.removeIncarnation boot)).setActiveWorkers
      (s.activeWorkers - 1)) hremoved id fun _ _ => hQ.floor i
  fence {s} id record h := by
    exact update (s := s.setFenceFloor record.generation) h id (f := fun p =>
      (p.setFenceGeneration record.generation).retainFenced s.options.limits record.boot)
      fun _ _ hp => hQ.retained _ _ (hQ.fenced _ hp)
  undoFence {before id p s} hbefore hp h := by
    have hput : Q p := hbefore p (mem_of_find hp)
    exact rawUpdate (s := (resizeFences before.state.recentFences.length
      (s.setFenceFloor before.state.fenceFloor)).setActiveWorkers before.activeWorkers) h id
      (f := p.restoreFence) fun _ => hQ.undoFence hput
  preventive {s} id record h := by
    exact update (s := s.setFenceFloor record.generation) h id
      (f := (·.setFenceGeneration record.generation)) fun _ _ => hQ.fenced _
  undoPreventive {before id p s} _ _ h := by
    exact rawUpdate (s := resizeFences before.state.recentFences.length
      (s.setFenceFloor before.state.fenceFloor)) h id
      (f := (·.setFenceGeneration p.fenceGeneration)) fun _ => hQ.fenced _
  create id policy h := by
    intro p hp
    rcases List.mem_append.mp hp with hp | hp
    · exact h p hp
    · rw [List.mem_singleton.mp hp]
      exact hQ.fresh id policy
  pop h := fun p hp => h p (List.dropLast_subset _ hp)
  restore hbefore hp h := rawUpdate h _ fun _ _ => hbefore _ (mem_of_find hp)
  register {s} request digest g i next h hboot hissues := by
    refine update h request.participant
      (f := (·.register s.options.limits request digest g i next)) fun p hp hq => ?_
    obtain ⟨rfl, hnext⟩ := hissues p hp
    exact hQ.register _ _ _ hq (hboot p hp) hnext
  pushGrant _ h := h
  popGrant h := h
  stamp _ _ h := h
  remember id _ _ h := update h id fun _ _ => hQ.remember _ _
  revoke id h := Impl.revokeFrom_keeps (P := fun s => ∀ p ∈ s.state.participants, Q p)
    (fun _ id _ hs => updateGrant id hs) id h
  undoRevoke g _ h := Impl.undoRevoke_keeps (P := fun s => ∀ p ∈ s.state.participants, Q p)
    (fun _ id _ hs => updateGrant id hs) (fun _ _ hs => hs) _ g h
  restamp id _ h := updateGrant id h
  control _ h := h
  enter _ h _ := h
  undoEpoch hbefore _ := hbefore
  invalidate {s} h := by
    intro p hp
    obtain ⟨q, hq, rfl⟩ := List.mem_map.mp hp
    exact hQ.invalidate (h q hq)
  transition _ h := h
  retire id h := update h id fun _ _ => hQ.retire
  undoRetire id fenced h := rawUpdate h id fun _ => hQ.undoRetire fenced
  canonicalize h := fun p hp => h p ((List.perm_insertionSort _ _).mem_iff.mp hp)
  rebuild h := h

end RecordStable

/-- Writes to a record leave its live boots distinct. -/
theorem recordStable_liveOnce : RecordStable fun p => p.liveBoots.Nodup where
  fresh _ _ := List.nodup_nil
  removal {p} boot hn := hn.sublist (p.liveBoots_removeIncarnation boot)
  floor _ hn := by simpa using hn
  fenced _ hn := hn
  retained _ _ hn := hn
  undoFence hbefore _ := hbefore
  register _ _ _ hn hboot _ := DurableParticipant.nodup_register hn hboot _ _ _ _ _
  remember _ _ hn := hn
  invalidate _ := List.nodup_nil
  retire hn := by simpa using hn
  undoRetire _ hn := hn

/-! ## Numbered incarnations -/

namespace DurableParticipant

variable {p : DurableParticipant}

/-- The allocator and the current incarnations of a record are not zero. -/
def Numbered (p : DurableParticipant) : Prop :=
  p.nextIncarnation.value ≠ 0 ∧ ∀ e ∈ p.live, e.2.value ≠ 0

theorem Numbered.removeIncarnation (h : p.Numbered) (boot : WorkerBootId) :
    (p.removeIncarnation boot).Numbered := by
  obtain ⟨hnext, hlive⟩ := h
  unfold DurableParticipant.removeIncarnation
  split
  · next hactive =>
    cases hextra : p.extraIncarnations with
    | nil => exact ⟨hnext, fun e he => hlive e (by simp_all [live])⟩
    | cons first rest =>
      -- the first extra incarnation moves into the slot
      refine ⟨hnext, fun e he => hlive e ?_⟩
      have hpromoted : e ∈ (p.extraIncarnations.map fun e => (e.boot, e.sequence)) := by
        rw [hextra]
        simpa [live, hactive.1] using he
      exact List.mem_append_right _ hpromoted
  · refine ⟨hnext, fun e he => hlive e ?_⟩
    rcases List.mem_append.mp he with he | he
    · exact List.mem_append_left _ he
    · obtain ⟨x, hx, rfl⟩ := List.mem_map.mp he
      exact List.mem_append_right _ (List.mem_map_of_mem (List.mem_of_mem_filter hx))

theorem Numbered.raiseFloor (h : p.Numbered) (i : IncarnationSequence) :
    (p.raiseFloor i).Numbered := by
  unfold DurableParticipant.raiseFloor
  split <;> exact h

theorem Numbered.addIncarnation (h : p.Numbered) {boot : WorkerBootId} {i : IncarnationSequence}
    (hi : i.value ≠ 0) (g : RegistrationGeneration) : (p.addIncarnation boot i g).Numbered := by
  obtain ⟨hnext, hlive⟩ := h
  unfold DurableParticipant.addIncarnation
  by_cases hactive : p.hasActiveBoot = true
  · rw [if_pos hactive]
    refine ⟨hnext, fun e he => ?_⟩
    have hsplit : e ∈ p.live ∨ e = (boot, i) := by
      simpa [live, List.mem_append, or_assoc] using he
    rcases hsplit with he | rfl
    · exact hlive e he
    · exact hi
  · rw [if_neg hactive]
    refine ⟨hnext, fun e he => ?_⟩
    have hsplit : e = (boot, i) ∨ e ∈ p.live := by
      simpa [live, hactive] using he
    rcases hsplit with rfl | he
    · exact hi
    · exact hlive e he

end DurableParticipant

/-- Writes to a record number its incarnations. -/
theorem recordStable_numbered : RecordStable DurableParticipant.Numbered where
  fresh _ _ := ⟨Nat.one_ne_zero, fun _ he => (nomatch he)⟩
  removal boot h := h.removeIncarnation boot
  floor i h := h.raiseFloor i
  fenced _ h := h
  retained _ _ h := h
  undoFence {before p} hbefore hp := ⟨hp.1, hbefore.2⟩
  register {p request next} limits digest g hp _ hnext := by
    have hnonzero : next.value ≠ 0 := by
      have hvalue := MonotonicCounter.next_eq_some hnext
      omega
    let q : DurableParticipant := { p with
      registrationGeneration := g
      nextIncarnation := next
      policy := request.policy
      scopes := request.scopes
      revalidationRequired := false
      retired := false
      acceptedRegistrations := p.acceptedRegistrations + 1 }
    have hq : q.Numbered := ⟨hnonzero, hp.2⟩
    exact hq.addIncarnation hp.1 g
  remember _ _ h := h
  invalidate h := ⟨h.1, fun _ he => (nomatch he)⟩
  retire {p} h := by
    unfold DurableParticipant.retire
    dsimp only
    split
    · exact h
    · exact h.raiseFloor p.highestIssued
  undoRetire _ h := h

end FabricEpoch
