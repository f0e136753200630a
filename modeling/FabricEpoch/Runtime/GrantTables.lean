import FabricEpoch.Runtime.Barrier
import FabricEpoch.Runtime.Delegation
import FabricEpoch.Runtime.Primitives

/-!
# The grant table, whatever fails

Only `applyGrant` and `applyRevoke` write the grants, and what they do not leave
behind they undo. An index may keep an entry of a grant that was popped again,
until the indexes are rebuilt; it points behind the table.

- `GrantTable`: distinct identifiers, parents in front of their children;
- `GrantsSound`: such a table, and indexes that lead to nothing else;
- `transact_grants`: the operations that leave the grants alone;
- `reachable_grants`: every reachable memory, and the image on disk.
-/

namespace FabricEpoch

open Table Transaction
open ByteCodec (Bytes)

/-! ## Operations that leave the grants alone -/

namespace Impl

/-- The grants and the indexes over them. -/
def grantView (impl : Impl) :
    List AuthorityGrant × (AuthorityGrantId → Option Nat) × (AuthorityGrantId → List Nat) :=
  (impl.state.grants, impl.grantIndex, impl.grantChildren)

variable {s : Impl}

theorem grantView_updateParticipant (id : ParticipantId)
    (f : DurableParticipant → DurableParticipant) (s : Impl) :
    (s.updateParticipant id f).grantView = s.grantView := by
  unfold updateParticipant
  split <;> rfl

theorem grantView_applyRemoval (id : ParticipantId) (boot : WorkerBootId) (i : IncarnationSequence)
    (s : Impl) : (s.applyRemoval id boot i).grantView = s.grantView :=
  (grantView_updateParticipant id _ _).trans (grantView_updateParticipant id _ s)

theorem grantView_applyFence (id : ParticipantId) (record : FenceRecord) (s : Impl) :
    (s.applyFence id record).grantView = s.grantView :=
  grantView_updateParticipant id _ (s.setFenceFloor record.generation)

theorem grantView_applyPreventive (id : ParticipantId) (record : FenceRecord) (s : Impl) :
    (s.applyPreventive id record).grantView = s.grantView :=
  grantView_updateParticipant id _ (s.setFenceFloor record.generation)

end Impl

/-- No step but those on the grants touches them, nor does an undo action. -/
theorem grantView_steps (x : List AuthorityGrant × (AuthorityGrantId → Option Nat) ×
    (AuthorityGrantId → List Nat)) : Steps (Guarded fun s => s.grantView = x) where
  mark ht := ⟨ht.state, ht.undo⟩
  bump {t} ht := by
    have hpushed : Guarded (fun s => s.grantView = x)
        (t.onUndo (Impl.setGeneration t.state.state.generation)) := ht.onUndo fun _ hs => hs
    exact ⟨hpushed, fun _ _ => hpushed.apply fun hs => hs⟩
  fence {t id p boot incarnation} ht _ _ := by
    have hremoved : Guarded (fun s => s.grantView = x) ((t.onUndo (t.state.undoFence id p)).apply
        (Impl.applyRemoval id boot incarnation)) :=
      (ht.onUndo (f := t.state.undoFence id p) fun _ hs => hs).apply fun hs =>
        (Impl.grantView_applyRemoval _ _ _ _).trans hs
    exact ⟨hremoved, fun _ _ _ _ =>
      hremoved.apply fun hs => (Impl.grantView_applyFence _ _ _).trans hs⟩
  preventive {t id p boot generation} _ _ ht _ _ _ _ :=
    (ht.onUndo (f := t.state.undoPreventive id p) fun _ hs => hs).apply fun hs =>
      (Impl.grantView_applyPreventive _ _ _).trans hs
  registration {t request participant} ht _ _ _ _ := by
    have hopened : Guarded (fun s => s.grantView = x) (openedTxn request participant t) := by
      cases participant with
      | none => exact (ht.apply fun hs => hs).onUndo fun _ hs => hs
      | some p => exact ht.onUndo fun _ hs => hs
    refine ⟨hopened, fun generation _ => ?_⟩
    have hfloored : Guarded (fun s => s.grantView = x)
        (Txn.floored generation (openedTxn request participant t)) :=
      (hopened.onUndo (f := Impl.setRegistrationFloor _) fun _ hs => hs).apply
        (f := Impl.setRegistrationFloor generation) fun hs => hs
    exact ⟨hfloored, fun _ _ _ =>
      hfloored.apply fun hs => (Impl.grantView_updateParticipant _ _ _).trans hs⟩
  remember _ _ _ ht := ht.apply fun hs => (Impl.grantView_updateParticipant _ _ _).trans hs
  control _ ht := ht.apply fun hs => hs
  epoch {t epoch} boot ht _ _ := by
    have hentered : Guarded (fun s => s.grantView = x)
        ((t.onUndo t.state.undoEpoch).apply (Impl.enterEpoch epoch boot)) :=
      (ht.onUndo (f := t.state.undoEpoch) fun _ hs => hs).apply
        (f := Impl.enterEpoch epoch boot) fun hs => hs
    refine ⟨hentered, fun generation _ live => ?_⟩
    have hinvalidated := (hentered.apply (f := Impl.setGeneration generation) fun hs =>
      hs).apply (f := fun s => if live then s.invalidateLive else s) fun hs => by
        cases live with
        | true => exact hs
        | false => exact hs
    exact ⟨hinvalidated, fun _ _ => hinvalidated.apply fun hs => hs⟩
  retire id fenced ht :=
    (ht.onUndo (f := Impl.rawUpdateParticipant id fenced.restoreRetirement) fun _ hs => hs).apply
      fun hs => (Impl.grantView_updateParticipant _ _ _).trans hs

/-- **An operation that leaves the grants alone** keeps them, and keeps or
rebuilds the indexes over them. -/
theorem transact_grants {α : Type} {op : Op α} (hop : Stepwise op) (fault : Option SaveFault)
    (disk : Disk) (impl : Impl) :
    (transact op fault disk impl).impl.grantView = impl.grantView ∨
      (transact op fault disk impl).impl.state.grants = impl.state.grants ∧
        (transact op fault disk impl).impl.GrantsIndexed := by
  have hguarded : Guarded (fun s => s.grantView = impl.grantView) (after (op (Txn.start impl))) :=
    hop _ (grantView_steps _) _ rfl (.start rfl)
  have hcase := transact_cases op fault disk impl
  generalize transact op fault disk impl = done at hcase ⊢
  cases hcase with
  | threw run =>
    rw [run] at hguarded
    exact .inl hguarded.rollback
  | idle run _ =>
    rw [run] at hguarded
    exact .inl hguarded.rollback
  | @failed a t e disk' _ run _ _ =>
    rw [run] at hguarded
    have hrestored : Guarded (fun s => s.grantView = impl.grantView) (t.apply Impl.canonicalize) :=
      Guarded.apply hguarded (f := Impl.canonicalize) fun hs => hs
    exact .inr ⟨congrArg Prod.fst hrestored.rollback, .rebuild _⟩
  | saved run _ _ _ =>
    rw [run] at hguarded
    exact .inr ⟨congrArg Prod.fst hguarded.state, .rebuild _⟩

/-- The grants of the states that such an operation persists. -/
theorem Stepwise.grants {α : Type} {op : Op α} (hop : Stepwise op) {impl : Impl} {a : α}
    {t : Txn Impl} (h : op (Txn.start impl) = .ok a t) : t.state.state.grants = impl.state.grants := by
  have hguarded : Guarded (fun s => s.grantView = impl.grantView) (after (op (Txn.start impl))) :=
    hop _ (grantView_steps _) _ rfl (.start rfl)
  rw [h] at hguarded
  exact congrArg Prod.fst hguarded.state

/-! ## Tables and their indexes -/

/-- Distinct identifiers, parents in front of their children, and no epoch of
revocation without a revocation. -/
structure GrantTable (grants : List AuthorityGrant) : Prop where
  ids : (grants.map (·.id)).Nodup
  rooted : Forest.Grown AuthorityGrant.id AuthorityGrant.parent (fun _ _ => True) grants
  unrevoked : ∀ g ∈ grants, g.revoked = false → g.revokedAtEpoch = .zero

/-- The indexes lead to the records of the table, if anywhere. -/
structure Impl.GrantsSound (impl : Impl) : Prop where
  table : GrantTable impl.state.grants
  find : ∀ id g, impl.findGrant id = some g → g.id = id
  children : ∀ id, ∀ c ∈ impl.childGrants id, c ∈ childIds impl.state.grants id
  once : ∀ id, (impl.childGrants id).Nodup

theorem GrantTable.nil : GrantTable [] :=
  ⟨List.nodup_nil, Forest.Grown.nil, fun _ hg => nomatch hg⟩

/-- The identifiers of the children are distinct. -/
theorem GrantTable.childIds_nodup {grants : List AuthorityGrant} (h : GrantTable grants)
    (id : AuthorityGrantId) : (childIds grants id).Nodup :=
  h.ids.sublist (List.filter_sublist.map _)

namespace Impl

variable {impl impl' : Impl}

theorem GrantsSound.indexed (h : GrantTable impl.state.grants) (hi : impl.GrantsIndexed) :
    impl.GrantsSound where
  table := h
  find id g hg := by
    rw [hi.find h.ids] at hg
    exact (lookup_some hg).2
  children id c hc := by
    rw [hi.childGrants_eq] at hc
    exact hc
  once id := by
    rw [hi.childGrants_eq]
    exact h.childIds_nodup id

/-- Where the grants stand, and the indexes over them. -/
def grantLinks (impl : Impl) : List (AuthorityGrantId × Option AuthorityGrantId) ×
    (AuthorityGrantId → Option Nat) × (AuthorityGrantId → List Nat) :=
  (impl.state.grants.map fun g => (g.id, g.parent), impl.grantIndex, impl.grantChildren)

section Links

variable (hlinks : impl'.grantLinks = impl.grantLinks)

include hlinks

theorem ids_of_links (i : Nat) :
    (impl'.state.grants[i]?).map (·.id) = (impl.state.grants[i]?).map (·.id) := by
  have hat : (impl'.state.grants.map fun g => (g.id, g.parent)) =
      impl.state.grants.map fun g => (g.id, g.parent) := congrArg Prod.fst hlinks
  have hids := congrArg (fun l : List (AuthorityGrantId × Option AuthorityGrantId) =>
    (l[i]?).map Prod.fst) hat
  simpa only [List.getElem?_map, Option.map_map, Function.comp_def] using hids

theorem findGrant_of_links (id : AuthorityGrantId) :
    (impl'.findGrant id).map (·.id) = (impl.findGrant id).map (·.id) := by
  have hindex : impl'.grantIndex = impl.grantIndex := congrArg (·.2.1) hlinks
  rw [findGrant, findGrant, hindex]
  cases impl.grantIndex id with
  | none => rfl
  | some i => exact ids_of_links hlinks i

theorem childGrants_of_links : impl'.childGrants = impl.childGrants := by
  have hchildren : impl'.grantChildren = impl.grantChildren := congrArg (·.2.2) hlinks
  funext id
  rw [childGrants, childGrants, hchildren]
  exact congrArg (fun f => List.filterMap f (impl.grantChildren id)) (funext (ids_of_links hlinks))

/-- Where the grants stand decides, but for the epochs of revocation. -/
theorem GrantsSound.of_links (h : impl.GrantsSound)
    (hunrevoked : ∀ g ∈ impl'.state.grants, g.revoked = false → g.revokedAtEpoch = .zero) :
    impl'.GrantsSound := by
  have hat : (impl'.state.grants.map fun g => (g.id, g.parent)) =
      impl.state.grants.map fun g => (g.id, g.parent) := congrArg Prod.fst hlinks
  have hids : impl'.state.grants.map (·.id) = impl.state.grants.map (·.id) := by
    have hfst := congrArg (List.map Prod.fst) hat
    simpa only [List.map_map, Function.comp_def] using hfst
  refine ⟨⟨hids ▸ h.table.ids, h.table.rooted.of_links hat, hunrevoked⟩, fun id g hg => ?_,
    fun id c hc => ?_, fun id => ?_⟩
  · have hsame := findGrant_of_links hlinks id
    rw [hg, Option.map_some] at hsame
    obtain ⟨g', hg', hid⟩ := Option.map_eq_some_iff.mp hsame.symm
    exact hid.symm.trans (h.find id g' hg')
  · rw [childGrants_of_links hlinks] at hc
    have hchildren : childIds impl'.state.grants = childIds impl.state.grants :=
      Forest.children_of_links hat
    rw [hchildren]
    exact h.children id c hc
  · rw [childGrants_of_links hlinks]
    exact h.once id

end Links

theorem GrantsSound.of_view (h : impl.GrantsSound) (hview : impl'.grantView = impl.grantView) :
    impl'.GrantsSound := by
  obtain ⟨hgrants, hrest⟩ := Prod.mk.inj hview
  have hlinks : impl'.grantLinks = impl.grantLinks :=
    Prod.ext (congrArg (List.map fun g : AuthorityGrant => (g.id, g.parent)) hgrants) hrest
  exact h.of_links hlinks (hgrants ▸ h.table.unrevoked)

end Impl

/-- **An operation that leaves the grants alone** leaves sound indexes behind. -/
theorem transact_sound {α : Type} {op : Op α} (hop : Stepwise op) {impl : Impl}
    (h : impl.GrantsSound) (fault : Option SaveFault) (disk : Disk) :
    (transact op fault disk impl).impl.GrantsSound := by
  rcases transact_grants hop fault disk impl with hview | ⟨hgrants, hindexed⟩
  · exact h.of_view hview
  · exact .indexed (hgrants ▸ h.table) hindexed

/-! ## A new grant -/

section Grants

variable {entropy : Entropy} {request : GrantAuthorityRequest}

/-- A grant that throws has done nothing, or no generation is left for it. -/
theorem commitGrant_error {digest : SnapshotDigest} {t u : Txn Impl} {e : EpochError}
    (h : commitGrant entropy request digest t = .error e u) :
    u = t ∨ ∃ bytes g, u.state = t.state.pushGrant (t.state.newGrant request ⟨bytes⟩) ∧
      u.undo = Impl.setGeneration g :: Impl.popGrant :: t.undo := by
  unfold commitGrant at h
  rw [Action.bind_current] at h
  rcases Action.bind_error.mp h with hentropy | ⟨bytes, t₁, hentropy, h⟩
  · exact .inl (Action.ofExcept_error.mp hentropy).2
  obtain ⟨-, rfl⟩ := Action.ofExcept_ok.mp hentropy
  simp only [Action.bind_modify, Action.bind_pushUndo] at h
  rcases Action.bind_error.mp h with hbump | ⟨⟨⟩, t₂, -, hlast⟩
  · obtain ⟨-, rfl⟩ := bumpGeneration_error hbump
    exact .inr ⟨bytes, _, rfl, rfl⟩
  · cases hlast

/-- The undo actions of a grant. -/
theorem commitGrant_undo {digest : SnapshotDigest} {t u : Txn Impl} {r : GrantResult}
    (h : commitGrant entropy request digest t = .ok r u) :
    ∃ g, u.undo = Impl.setGeneration g :: Impl.popGrant :: t.undo := by
  unfold commitGrant at h
  rw [Action.bind_current] at h
  obtain ⟨bytes, t₁, hentropy, h⟩ := Action.bind_ok.mp h
  obtain ⟨-, rfl⟩ := Action.ofExcept_ok.mp hentropy
  simp only [Action.bind_modify, Action.bind_pushUndo] at h
  obtain ⟨⟨⟩, t₂, hbump, h⟩ := Action.bind_ok.mp h
  obtain ⟨g, -, rfl⟩ := bumpGeneration_ok hbump
  cases h
  exact ⟨_, rfl⟩

/-- The table with a new grant behind it. -/
theorem GrantTable.append {grants : List AuthorityGrant} (h : GrantTable grants)
    {g : AuthorityGrant} (hparent : ∀ id, g.parent = some id → ∃ q ∈ grants, q.id = id)
    (hrevoked : g.revokedAtEpoch = .zero) (hids : ((grants ++ [g]).map (·.id)).Nodup) :
    GrantTable (grants ++ [g]) := by
  refine ⟨hids, h.rooted.append fun k hk => ?_, fun g' hg' hlive => ?_⟩
  · obtain ⟨q, hq, hid⟩ := hparent k hk
    exact ⟨q, hq, hid, trivial⟩
  · rcases List.mem_append.mp hg' with hg' | hg'
    · exact h.unrevoked g' hg' hlive
    · rw [List.mem_singleton.mp hg']
      exact hrevoked

/-- The grants behind a grant that returns. -/
theorem commitGrant_grants {digest : SnapshotDigest} {t u : Txn Impl} {r : GrantResult}
    (h : commitGrant entropy request digest t = .ok r u) :
    ∃ g : AuthorityGrant, u.state.state.grants = t.state.state.grants ++ [g] ∧
      g.parent = request.parent ∧ g.revokedAtEpoch = .zero := by
  obtain ⟨bytes, g, -, -, hstate, -⟩ := commitGrant_ok h
  refine ⟨{ t.state.newGrant request ⟨bytes⟩ with generation := GrantGeneration.ofState g }, ?_,
    rfl, rfl⟩
  rw [hstate, Impl.issued_eq]
  unfold Impl.updateParticipant
  split <;> rfl

/-- A grant that was pushed and popped leaves entries that lead nowhere. -/
theorem Impl.GrantsSound.popped {impl s : Impl} (h : impl.GrantsSound) {g : AuthorityGrant}
    (hgrants : s.state.grants = impl.state.grants)
    (hindex : s.grantIndex = (impl.pushGrant g).grantIndex)
    (hchildren : s.grantChildren = (impl.pushGrant g).grantChildren) : s.GrantsSound := by
  have hnone : impl.state.grants[impl.state.grants.length]? = none :=
    List.getElem?_eq_none (Nat.le_refl _)
  have hkids : s.childGrants = impl.childGrants := by
    funext id
    show (s.grantChildren id).filterMap _ = (impl.grantChildren id).filterMap _
    rw [hgrants, hchildren]
    show (if g.parent = some id then impl.grantChildren id ++ [impl.state.grants.length]
      else impl.grantChildren id).filterMap _ = _
    split
    · simp [List.filterMap_append]
    · rfl
  refine ⟨hgrants ▸ h.table, fun id g' hg' => ?_, fun id c hc => ?_, fun id => ?_⟩
  · have hfind : ((if id = g.id then some impl.state.grants.length else impl.grantIndex id).bind
        fun i => impl.state.grants[i]?) = some g' := by
      rw [Impl.findGrant, hgrants, hindex] at hg'
      exact hg'
    split at hfind
    · rw [Option.bind_some, hnone] at hfind
      cases hfind
    · exact h.find id g' hfind
  · rw [hkids] at hc
    rw [hgrants]
    exact h.children id c hc
  · rw [hkids]
    exact h.once id

/-- What is found stands in the table. -/
theorem Impl.mem_of_findGrant {impl : Impl} {id : AuthorityGrantId} {g : AuthorityGrant}
    (hg : impl.findGrant id = some g) : g ∈ impl.state.grants := by
  obtain ⟨i, -, hi⟩ := Option.bind_eq_some_iff.mp hg
  exact List.mem_of_getElem? hi

/-- The identifiers of the grants of a valid state are distinct. -/
theorem ValidDurable.grantIds {s : DurableState} (h : ValidDurable s) :
    (s.grants.map (·.id)).Nodup := by
  by_cases hepoch : s.currentEpoch.value = 0
  · rw [(h.pristine hepoch).2.1]
    exact List.nodup_nil
  · exact (h.established hepoch).grantIds

/-- What a grant persists. -/
theorem applyGrant_persisted {impl : Impl} (h : impl.GrantsSound) {t : Txn Impl} {r : GrantResult}
    (hrun : applyGrant entropy request (Txn.start impl) = .ok r t) (hmutated : t.mutated = true) :
    ∃ g, t.state.state.grants = impl.state.grants ++ [g] ∧
      (∃ n, t.undo = [Impl.setGeneration n, Impl.popGrant]) ∧
      (((impl.state.grants ++ [g]).map (·.id)).Nodup → GrantTable (impl.state.grants ++ [g])) := by
  rcases applyGrant_cases hrun with ⟨rfl, -⟩ | ⟨p, digest, hadmitted, hcommit⟩
  · cases hmutated
  obtain ⟨g, hgrants, hparent, hrevoked⟩ := commitGrant_grants hcommit
  refine ⟨g, hgrants, commitGrant_undo hcommit, fun hids => h.table.append (fun id hid => ?_) hrevoked
    hids⟩
  rw [hparent] at hid
  obtain ⟨q, hq, -⟩ := (refusedDelegation_none hadmitted.delegation).2 id hid
  exact ⟨q, Impl.mem_of_findGrant hq, h.find id q hq⟩

/-- **A grant** that fails leaves the grants alone, and one that commits puts a
new one behind them. -/
theorem applyGrant_sound (entropy : Entropy) (request : GrantAuthorityRequest) {impl : Impl}
    (h : impl.GrantsSound) (fault : Option SaveFault) (disk : Disk) :
    (transact (applyGrant entropy request) fault disk impl).impl.GrantsSound ∧
      ∃ l, (transact (applyGrant entropy request) fault disk impl).impl.state.grants =
        impl.state.grants ++ l := by
  have hcase := transact_cases (applyGrant entropy request) fault disk impl
  generalize transact (applyGrant entropy request) fault disk impl = done at hcase ⊢
  cases hcase with
  | @threw e t run =>
    rcases applyGrant_error run with rfl | ⟨p, digest, -, hcommit⟩
    · exact ⟨h, [], (List.append_nil _).symm⟩
    rcases commitGrant_error hcommit with rfl | ⟨bytes, g, hstate, hundo⟩
    · exact ⟨h, [], (List.append_nil _).symm⟩
    have hrollback : t.rollback = Impl.popGrant (Impl.setGeneration g t.state) := by
      unfold Txn.rollback
      rw [hundo]
      rfl
    have hgrants : t.rollback.state.grants = impl.state.grants := by
      rw [hrollback, hstate]
      exact List.dropLast_concat
    refine ⟨h.popped (g := impl.newGrant request ⟨bytes⟩) hgrants ?_ ?_, [],
      hgrants.trans (List.append_nil _).symm⟩
    · rw [hrollback, hstate]
      rfl
    · rw [hrollback, hstate]
      rfl
  | idle run idle =>
    rcases applyGrant_cases run with ⟨rfl, -⟩ | ⟨p, digest, -, hcommit⟩
    · exact ⟨h, [], (List.append_nil _).symm⟩
    · obtain ⟨-, -, -, -, -, hmutated, -⟩ := commitGrant_ok hcommit
      rw [idle] at hmutated
      cases hmutated
  | @failed a t e disk' _ run mutated _ =>
    obtain ⟨g, hgrants, ⟨n, hundo⟩, -⟩ := applyGrant_persisted h run mutated
    have hrollback : (t.apply Impl.canonicalize).rollback =
        Impl.popGrant (Impl.setGeneration n t.state.canonicalize) := by
      unfold Txn.rollback
      rw [show (t.apply Impl.canonicalize).undo = t.undo from rfl, hundo]
      rfl
    have hrestored : (t.apply Impl.canonicalize).rollback.state.grants = impl.state.grants := by
      rw [hrollback]
      show t.state.state.grants.dropLast = impl.state.grants
      rw [hgrants]
      exact List.dropLast_concat
    refine ⟨.indexed ?_ (.rebuild _), [], hrestored.trans (List.append_nil _).symm⟩
    show GrantTable (t.apply Impl.canonicalize).rollback.state.grants
    rw [hrestored]
    exact h.table
  | @saved a t image disk' run mutated encoded _ =>
    obtain ⟨g, hgrants, -, htable⟩ := applyGrant_persisted h run mutated
    obtain ⟨-, hvalid, -⟩ := EpochStore.encode_ok.mp encoded
    have hids := hvalid.grantIds
    refine ⟨.indexed ?_ (.rebuild _), [g], hgrants⟩
    show GrantTable t.state.state.grants
    have hids : (t.state.state.grants.map (·.id)).Nodup := hids
    rw [hgrants] at hids ⊢
    exact htable hids

end Grants

/-! ## A revocation -/

/-- A write to a grant leaves it where it stands. -/
theorem Impl.links_updateGrant {impl : Impl} {f : AuthorityGrant → AuthorityGrant}
    (hlink : ∀ g, ((f g).id, (f g).parent) = (g.id, g.parent)) (id : AuthorityGrantId) :
    (impl.updateGrant id f).grantLinks = impl.grantLinks := by
  unfold Impl.updateGrant
  split
  · next i _ =>
    have hat : (impl.state.grants.modify i f).map (fun g => (g.id, g.parent)) =
        impl.state.grants.map fun g => (g.id, g.parent) := map_modify_of_forall hlink _ _
    exact Prod.ext hat rfl
  · rfl

namespace Impl.GrantsSound

variable {impl : Impl}

/-- A write leaves the grant where it stands, and dates no revocation that is
not there. -/
theorem updateGrant (h : impl.GrantsSound) {f : AuthorityGrant → AuthorityGrant}
    (hlink : ∀ g, ((f g).id, (f g).parent) = (g.id, g.parent))
    (hzero : ∀ g : AuthorityGrant, (g.revoked = false → g.revokedAtEpoch = .zero) →
      (f g).revoked = false → (f g).revokedAtEpoch = .zero) (id : AuthorityGrantId) :
    (impl.updateGrant id f).GrantsSound := by
  refine GrantsSound.of_links (links_updateGrant hlink id) h ?_
  unfold Impl.updateGrant
  split
  · next i _ => exact forall_mem_modify h.table.unrevoked hzero i
  · exact h.table.unrevoked

theorem revokeLoop (h : impl.GrantsSound) (root : AuthorityGrantId) (fuel : Nat)
    (pending : List AuthorityGrantId) (n : Nat) :
    (Impl.revokeLoop root fuel pending n impl).1.GrantsSound := by
  refine Impl.revokeLoop_keeps (fun s id hs => ?_) root fuel pending n h
  refine hs.updateGrant ?_ ?_ id
  · exact fun _ => rfl
  · intro _ _ hlive
    cases hlive

theorem undoRevoke (h : impl.GrantsSound) {grant : AuthorityGrant}
    (hgrant : grant.revokedAtEpoch = .zero) (before : Impl) :
    (before.undoRevoke grant impl).GrantsSound := by
  have hresized : (impl.resizeControlAttempts before.state.controlAttempts.length).GrantsSound :=
    h.of_view rfl
  refine GrantsSound.updateGrant ?_ ?_ ?_ grant.id
  · refine Impl.restoreLoop_keeps (fun s id hs => ?_) _ _ hresized
    refine hs.updateGrant ?_ ?_ id
    · exact fun _ => rfl
    · exact fun _ _ _ => rfl
  · exact fun _ => rfl
  · exact fun _ _ _ => hgrant

end Impl.GrantsSound

section Revoke

variable {request : RevokeAuthorityRequest}

/-- **A revocation**, and its undo action, keep the grants sound. -/
theorem guarded_commitRevoke {digest : SnapshotDigest} {grant : AuthorityGrant}
    (hgrant : grant.revokedAtEpoch = .zero) :
    Keeps (Guarded Impl.GrantsSound) (commitRevoke request digest grant) := by
  refine Keeps.bind Keeps.read fun impl => ?_
  refine Keeps.bind (Guarded.pushUndo fun s hs => hs.undoRevoke hgrant impl) fun _ => ?_
  refine Keeps.bind (Guarded.modify fun s hs => hs.revokeLoop _ _ _ _) fun _ => ?_
  refine Keeps.bind ?_ fun _ => Keeps.bind Keeps.read fun _ => ?_
  · refine Keeps.bind Keeps.read fun impl => ?_
    exact Keeps.bind (Guarded.pushUndo fun _ hs => hs.of_view rfl) fun _ =>
      Keeps.bind (Keeps.orFail _ _) fun _ => Guarded.modify fun _ hs => hs.of_view rfl
  refine Keeps.bind (Guarded.modify fun s hs => hs.updateGrant ?_ ?_ _) fun _ => ?_
  · exact fun _ => rfl
  · exact fun _ hzero => hzero
  exact Keeps.bind (Guarded.modify fun _ hs => hs.of_view rfl) fun _ =>
    Keeps.bind Guarded.markMutated fun _ => Keeps.pure _

theorem guarded_applyRevoke : Keeps (Guarded Impl.GrantsSound) (applyRevoke request) := by
  unfold applyRevoke
  refine Keeps.current fun t ht => ?_
  cases t.state.malformedRevoke request with
  | some result => exact ht
  | none =>
    refine Keeps.ofExcept_bind ht fun digest _ => ?_
    cases findAttempt t.state.state.controlAttempts request.attempt with
    | some previous => exact ht
    | none =>
      cases hfound : t.state.findGrant request.grant with
      | none => exact ht
      | some grant =>
        dsimp only
        split
        · exact ht
        · next hlive =>
          have hzero := ht.state.table.unrevoked grant (Impl.mem_of_findGrant hfound)
            (by simpa using hlive)
          exact guarded_commitRevoke hzero t ht

/-- **A revocation** leaves the grants sound, whatever becomes of it. -/
theorem applyRevoke_sound {impl : Impl} (h : impl.GrantsSound) (fault : Option SaveFault)
    (disk : Disk) : (transact (applyRevoke request) fault disk impl).impl.GrantsSound := by
  have hguarded : Guarded Impl.GrantsSound (after (applyRevoke request (Txn.start impl))) :=
    guarded_applyRevoke _ (.start h)
  have hcase := transact_cases (applyRevoke request) fault disk impl
  generalize transact (applyRevoke request) fault disk impl = done at hcase ⊢
  cases hcase with
  | threw run =>
    rw [run] at hguarded
    exact hguarded.rollback
  | idle run _ =>
    rw [run] at hguarded
    exact hguarded.rollback
  | @failed a t e disk' _ run _ _ =>
    rw [run] at hguarded
    have hsorted : Guarded Impl.GrantsSound (t.apply Impl.canonicalize) :=
      hguarded.apply fun hs => hs.of_view rfl
    exact .indexed hsorted.rollback.table (.rebuild _)
  | saved run _ _ _ =>
    rw [run] at hguarded
    exact .indexed hguarded.state.table (.rebuild _)

end Revoke

/-! ## Later tables -/

/-- The grants of the earlier table at their places, revoked if they were, and
newer ones behind. -/
def Outgrows (old new : List AuthorityGrant) : Prop :=
  ∃ kept added, new = kept ++ added ∧
    List.Forall₂ (fun g g' => g'.id = g.id ∧ (g.revoked = true → g'.revoked = true)) old kept

namespace Outgrows

variable {old new : List AuthorityGrant}

theorem of_forall₂ (h : List.Forall₂ (fun g g' : AuthorityGrant =>
    g'.id = g.id ∧ (g.revoked = true → g'.revoked = true)) old new) : Outgrows old new :=
  ⟨new, [], (List.append_nil new).symm, h⟩

theorem append (old added : List AuthorityGrant) : Outgrows old (old ++ added) :=
  ⟨old, added, rfl, List.forall₂_same.mpr fun _ _ => ⟨rfl, id⟩⟩

theorem of_eq (h : new = old) : Outgrows old new := ⟨old, [], by rw [h, List.append_nil],
  List.forall₂_same.mpr fun _ _ => ⟨rfl, id⟩⟩

/-- **A revoked grant stays revoked.** -/
theorem revoked (h : Outgrows old new) {g : AuthorityGrant} (hg : g ∈ old)
    (hrevoked : g.revoked = true) : ∃ g' ∈ new, g'.id = g.id ∧ g'.revoked = true := by
  obtain ⟨kept, added, rfl, hkept⟩ := h
  obtain ⟨g', hg', hid, hstays⟩ := forall₂_image hkept hg
  exact ⟨g', List.mem_append_left _ hg', hid, hstays hrevoked⟩

end Outgrows

/-- What a revocation that returns has done to the table. -/
theorem applyRevoke_outgrows {request : RevokeAuthorityRequest} {t u : Txn Impl} {r : RevokeResult}
    (h : applyRevoke request t = .ok r u) : Outgrows t.state.state.grants u.state.state.grants := by
  rcases applyRevoke_cases h with ⟨rfl, -⟩ | ⟨digest, grant, -, hcommit⟩
  · exact .of_eq rfl
  obtain ⟨g, derived, stamped, -, -, hstamped, hstate, -⟩ := commitRevoke_ok hcommit
  have hrevised : t.state.Revised (t.state.revokeFrom grant.id).1 :=
    Impl.Revised.revokeLoop grant.id _ _ 0 t.state
  have hrestamped : ((t.state.revokeFrom grant.id).1.setGeneration g).Revised stamped := by
    rw [hstamped]
    exact .updateGrant _ (fun g' => .generation g' _) _
  obtain ⟨grants, hrevoked, hgrants⟩ := hrevised
  obtain ⟨grants', hstamp, hgrants'⟩ := hrestamped
  rw [hrevoked] at hgrants'
  rw [hstate, hstamp]
  refine .of_forall₂ (forall₂_trans (fun hab hbc => ⟨hbc.1.trans hab.1, fun h => hbc.2 (hab.2 h)⟩)
    (m := grants) ?_ ?_)
  · exact hgrants.imp fun _ _ hr => ⟨hr.id_eq, hr.revoked⟩
  · exact hgrants'.imp fun _ _ hr => ⟨hr.id_eq, hr.revoked⟩

/-- What a call does to the grants; a revocation that throws may take
revocations back. -/
structure GrantsKept (thrown : Prop) (impl : Impl) (disk : Disk) (impl' : Impl) (disk' : Disk) :
    Prop where
  sound : impl'.GrantsSound
  memory : ¬ thrown → Outgrows impl.state.grants impl'.state.grants
  image : ∀ P : DurableState → Prop,
    (∀ s, Outgrows impl.state.grants s.grants → GrantTable s.grants → P s) →
      Stored P disk → Stored P disk'

section Calls

variable {impl : Impl} (h : impl.GrantsSound)

include h

/-- What an operation persists. -/
theorem transact_image {α : Type} {op : Op α} {P : DurableState → Prop} {disk : Disk}
    (hP : ∀ s, Outgrows impl.state.grants s.grants → GrantTable s.grants → P s)
    (hop : ∀ a t, op (Txn.start impl) = .ok a t → t.mutated = true →
      Outgrows impl.state.grants t.state.state.grants ∧
        ((t.state.state.grants.map (·.id)).Nodup → GrantTable t.state.state.grants))
    (hdisk : Stored P disk) (fault : Option SaveFault) : Stored P (transact op fault disk impl).disk := by
  refine hdisk.transact (fun a t hrun hmutated hvalid => ?_) fault
  obtain ⟨houtgrows, htable⟩ := hop a t hrun hmutated
  exact hP _ houtgrows (htable hvalid.grantIds)

theorem Stepwise.grantsKept {α : Type} {op : Op α} (hop : Stepwise op) (fault : Option SaveFault)
    (disk : Disk) (thrown : Prop) : GrantsKept thrown impl disk (transact op fault disk impl).impl
      (transact op fault disk impl).disk where
  sound := transact_sound hop h fault disk
  memory _ := by
    refine .of_eq ?_
    rcases transact_grants hop fault disk impl with hview | ⟨hgrants, -⟩
    · exact congrArg Prod.fst hview
    · exact hgrants
  image P hP hdisk := by
    refine transact_image h hP (fun a t hrun _ => ?_) hdisk fault
    rw [hop.grants hrun]
    exact ⟨.of_eq rfl, fun _ => h.table⟩

theorem applyGrant_grantsKept (entropy : Entropy) (request : GrantAuthorityRequest)
    (fault : Option SaveFault) (disk : Disk) (thrown : Prop) :
    GrantsKept thrown impl disk (transact (applyGrant entropy request) fault disk impl).impl
      (transact (applyGrant entropy request) fault disk impl).disk where
  sound := (applyGrant_sound entropy request h fault disk).1
  memory _ := by
    obtain ⟨l, hl⟩ := (applyGrant_sound entropy request h fault disk).2
    rw [hl]
    exact .append _ l
  image P hP hdisk := by
    refine transact_image h hP (fun a t hrun hmutated => ?_) hdisk fault
    obtain ⟨g, hgrants, -, htable⟩ := applyGrant_persisted h hrun hmutated
    rw [hgrants]
    exact ⟨.append _ _, htable⟩

theorem applyRevoke_grantsKept (request : RevokeAuthorityRequest) (fault : Option SaveFault)
    (disk : Disk) :
    GrantsKept (∃ e, (transact (applyRevoke request) fault disk impl).result = .error e) impl disk
      (transact (applyRevoke request) fault disk impl).impl
      (transact (applyRevoke request) fault disk impl).disk where
  sound := applyRevoke_sound h fault disk
  memory hreturned := by
    have hcase := transact_cases (applyRevoke request) fault disk impl
    generalize transact (applyRevoke request) fault disk impl = done at hcase hreturned ⊢
    cases hcase with
    | threw _ => exact absurd ⟨_, rfl⟩ hreturned
    | idle run idle =>
      rcases applyRevoke_cases run with ⟨rfl, -⟩ | ⟨digest, grant, -, hcommit⟩
      · exact .of_eq rfl
      · obtain ⟨_, _, _, -, -, -, -, hmutated, -⟩ := commitRevoke_ok hcommit
        rw [idle] at hmutated
        cases hmutated
    | failed _ _ _ _ => exact absurd ⟨_, rfl⟩ hreturned
    | saved run _ _ _ => exact applyRevoke_outgrows run
  image P hP hdisk := by
    refine transact_image h hP (fun a t hrun _ => ⟨applyRevoke_outgrows hrun, fun _ => ?_⟩) hdisk
      fault
    have hguarded : Guarded Impl.GrantsSound (after (applyRevoke request (Txn.start impl))) :=
      guarded_applyRevoke _ (.start h)
    rw [hrun] at hguarded
    exact hguarded.state.table

/-- **Every call** keeps the grants sound, and the revoked ones revoked unless
it is a revocation that throws. -/
theorem callRuntime_grantsKept (call : Call) (entropy : Entropy) (fault : Option SaveFault)
    (disk : Disk) :
    GrantsKept (∃ request e, call = .revoke request ∧
        (callRuntime call entropy fault disk impl).result = .error e)
      impl disk (callRuntime call entropy fault disk impl).impl
      (callRuntime call entropy fault disk impl).disk := by
  cases call with
  | register request => exact (stepwise_applyRegistration request true).grantsKept h fault disk _
  | registerBatch requests => exact (stepwise_registerBatch requests).grantsKept h fault disk _
  | fence request => exact (stepwise_fenceWorker request).grantsKept h fault disk _
  | grant request => exact applyGrant_grantsKept h entropy request fault disk _
  | revoke request =>
    have hkept := applyRevoke_grantsKept h request fault disk
    refine ⟨hkept.sound, fun hnot => hkept.memory ?_, hkept.image⟩
    rintro ⟨e, hthrown⟩
    refine hnot ⟨request, e, rfl, ?_⟩
    show (transact (applyRevoke request) fault disk impl).result.map Reply.revoked = _
    rw [hthrown]
    rfl
  | advance request => exact (stepwise_advanceEpoch entropy request).grantsKept h fault disk _
  | retire request => exact (stepwise_applyRetire request).grantsKept h fault disk _
  | bind binding =>
    rw [callRuntime]
    cases hbound : impl.bindSession binding with
    | error e => exact ⟨h, fun _ => .of_eq rfl, fun _ _ hdisk => hdisk⟩
    | ok bound =>
      obtain ⟨accepted, impl'⟩ := bound
      have hview : impl'.grantView = impl.grantView := by
        unfold Impl.bindSession at hbound
        split at hbound
        · cases hbound
          rfl
        · split at hbound
          · cases hbound
          · cases hbound
            rfl
      exact ⟨h.of_view hview, fun _ => .of_eq (congrArg Prod.fst hview), fun _ _ hdisk => hdisk⟩
  | close session reason =>
    show GrantsKept _ impl disk (closeSession session reason fault disk impl).impl
      (closeSession session reason fault disk impl).disk
    unfold closeSession
    split
    · exact ⟨h, fun _ => .of_eq rfl, fun _ _ hdisk => hdisk⟩
    · next binding _ =>
      have herased : (impl.eraseSession binding).GrantsSound := h.of_view rfl
      obtain ⟨hsound, hmemory, himage⟩ :=
        (stepwise_fenceSession session binding reason).grantsKept herased fault disk
          (∃ request e, Call.close session reason = .revoke request ∧ (callRuntime
            (.close session reason) entropy fault disk impl).result = .error e)
      exact ⟨hsound, hmemory, himage⟩
  | flush =>
    refine ⟨?_, fun _ => .of_eq ?_, fun P hP hdisk => ?_⟩
    · rw [callRuntime]
      split <;> exact h
    · rw [callRuntime]
      split <;> rfl
    · exact hdisk.flush (hP _ (.of_eq rfl) h.table) entropy fault

end Calls

/-! ## Runs -/

/-- The grants of the memory are sound, and those of the image are a table. -/
structure GrantsHost (host : Host) : Prop where
  memory : ∀ impl ∈ host.runtime, impl.GrantsSound
  disk : Stored (fun s => GrantTable s.grants) host.disk

/-- **An opening** takes over the grants of the image. -/
theorem openRuntime_grants (opening : Opening) (fault : Option SaveFault) {disk : Disk}
    (hdisk : Stored (fun s => GrantTable s.grants) disk) {P : DurableState → Prop}
    (hP : ∀ s s' : DurableState, P s → s'.grants = s.grants → P s') (himage : Stored P disk) :
    (∀ impl ∈ (openRuntime opening fault disk).1, impl.GrantsSound ∧ P impl.state) ∧
      Stored (fun s => GrantTable s.grants) (openRuntime opening fault disk).2.1 ∧
      Stored P (openRuntime opening fault disk).2.1 := by
  have hcase := openRuntime_cases opening fault disk
  generalize openRuntime opening fault disk = opened at hcase ⊢
  have hloaded : ∀ {state boot}, loadRuntime opening disk = .ok (state, boot) →
      (opening.impl state boot).GrantsSound ∧ P state := fun {state boot} hload =>
    ⟨.indexed (hdisk.load (loadRuntime_ok hload).2.1).1 (.rebuild _),
      (himage.load (loadRuntime_ok hload).2.1).1⟩
  have persisted : ∀ {state boot} {op : Op Unit}, P state → Stepwise op → ∀ a t,
      op (Txn.start (opening.impl state boot)) = .ok a t → t.mutated = true →
        ValidDurable t.state.canonicalize.state → P t.state.canonicalize.state := by
    intro state boot op hstate hop a t hrun _ _
    have hgrants : t.state.state.grants = state.grants := hop.grants hrun
    exact hP state _ hstate hgrants
  cases hcase with
  | refused => exact ⟨fun _ himpl => (nomatch himpl), hdisk, himage⟩
  | @kept state boot loaded =>
    refine ⟨fun impl himpl => ?_, hdisk, himage⟩
    cases himpl
    obtain ⟨hsound, hstate⟩ := hloaded loaded
    exact ⟨hsound, hP state _ hstate rfl⟩
  | @established state boot cause u done loaded ran returned =>
    obtain ⟨hsound, hstate⟩ := hloaded loaded
    have hop : Stepwise (establishEpoch opening.transition boot cause (!state.currentEpoch.isZero)) :=
      stepwise_establishEpoch _ _ _ _
    have hkept := hop.grantsKept hsound fault disk False
    have hgrants : done.impl.state.grants = state.grants := by
      rcases transact_grants hop fault disk (opening.impl state boot) with hview | ⟨hgrants, -⟩
      · rw [← ran]
        exact congrArg Prod.fst hview
      · rw [← ran]
        exact hgrants
    rw [ran] at hkept
    refine ⟨fun impl himpl => ?_, hkept.image _ (fun _ _ htable => htable) hdisk, ?_⟩
    · cases himpl
      exact ⟨hkept.sound, hP state _ hstate hgrants⟩
    · rw [← ran]
      exact himage.transact (persisted hstate hop) fault
  | @thrown state boot cause e done loaded ran threw =>
    obtain ⟨hsound, hstate⟩ := hloaded loaded
    have hop : Stepwise (establishEpoch opening.transition boot cause (!state.currentEpoch.isZero)) :=
      stepwise_establishEpoch _ _ _ _
    rw [← ran]
    refine ⟨fun _ himpl => (nomatch himpl), ?_, ?_⟩
    · exact (hop.grantsKept hsound fault disk False).image _ (fun _ _ htable => htable) hdisk
    · exact himage.transact (persisted hstate hop) fault

/-- **One step**, whatever fails. -/
theorem step_grants {host : Host} (h : GrantsHost host) (input : Input) :
    GrantsHost (coordinator.step host input).1 := by
  cases input with
  | «open» opening fault =>
    obtain ⟨hmemory, htable, -⟩ := openRuntime_grants opening fault h.disk
      (P := fun _ => True) (fun _ _ _ _ => trivial) ⟨fun _ => trivial, fun image himage => by
        obtain ⟨s, hencode, -⟩ := h.disk.image image himage
        exact ⟨s, hencode, trivial⟩⟩
    exact ⟨fun impl himpl => (hmemory impl himpl).1, htable⟩
  | call call entropy fault =>
    cases hruntime : host.runtime with
    | none =>
      rw [coordinator_idle hruntime]
      exact h
    | some impl =>
      have hkept := callRuntime_grantsKept (h.memory impl hruntime) call entropy fault host.disk
      rw [coordinator_call hruntime]
      refine ⟨fun impl' himpl' => ?_, hkept.image _ (fun _ _ htable => htable) h.disk⟩
      cases himpl'
      exact hkept.sound

/-- **The grants in every state that can be reached**, whatever fails. -/
theorem reachable_grants {allowed : Host → Input → Prop} {host : Host}
    (h : coordinator.Reaches allowed host) : GrantsHost host := by
  refine h.invariant ⟨fun _ himpl => (nomatch himpl), fun _ => .nil, fun _ himage => (nomatch himage)⟩
    fun host input hi _ => ?_
  exact step_grants hi input

end FabricEpoch
