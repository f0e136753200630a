import FabricEpoch.Runtime.Primitives

/-!
# The session tables

A runtime keeps two tables of its sessions: the bindings by session, and the
sessions by worker boot. Only `bindSession` and `closeSession` write them, the
latter before it tries to fence, so a fence that fails to persist finds the
session gone from both.

- `Ties`: the two tables are mutually inverse, and bounded;
- `transact_tables`: no operation touches them, whatever becomes of it;
- `sessions_consistent`: every reachable state, and what one more `bind` or
  `close` does.
-/

namespace FabricEpoch

open Table Transaction

/-! ## What the operations leave alone -/

/-- The options and the session tables of a memory. -/
structure Tables where
  options : EpochRuntimeOptions
  sessions : List SessionBinding
  boots : List (WorkerBootId × SessionId)

namespace Impl

def tables (impl : Impl) : Tables := ⟨impl.options, impl.sessionIndex, impl.bootSessionIndex⟩

variable {s : Impl} {x : Tables}

theorem tables_updateParticipant (id : ParticipantId) (f : DurableParticipant → DurableParticipant)
    (h : s.tables = x) : (s.updateParticipant id f).tables = x := by
  unfold updateParticipant
  split <;> exact h

theorem tables_updateGrant (id : AuthorityGrantId) (f : AuthorityGrant → AuthorityGrant)
    (h : s.tables = x) : (s.updateGrant id f).tables = x := by
  unfold updateGrant
  split <;> exact h

theorem tables_applyRemoval (id : ParticipantId) (boot : WorkerBootId) (i : IncarnationSequence)
    (h : s.tables = x) : (s.applyRemoval id boot i).tables = x := by
  have hremoved := tables_updateParticipant id (·.removeIncarnation boot) h
  have hset : ((s.updateParticipant id (·.removeIncarnation boot)).setActiveWorkers
    (s.activeWorkers - 1)).tables = x := hremoved
  exact tables_updateParticipant id (·.raiseFloor i) hset

theorem tables_applyFence (id : ParticipantId) (record : FenceRecord) (h : s.tables = x) :
    (s.applyFence id record).tables = x := by
  have hset : (s.setFenceFloor record.generation).tables = x := h
  exact tables_updateParticipant id (fun p =>
    (p.setFenceGeneration record.generation).retainFenced s.options.limits record.boot) hset

theorem tables_applyPreventive (id : ParticipantId) (record : FenceRecord) (h : s.tables = x) :
    (s.applyPreventive id record).tables = x := by
  have hset : (s.setFenceFloor record.generation).tables = x := h
  exact tables_updateParticipant id (·.setFenceGeneration record.generation) hset

/-- No step of an operation touches the tables, nor does an undo action. -/
theorem tables_stable (x : Tables) : Stable fun s => s.tables = x where
  generation _ h := h
  floor _ h := h
  removal id boot i h := tables_applyRemoval id boot i h
  fence id record h := tables_applyFence id record h
  undoFence _ _ h := h
  preventive id record h := tables_applyPreventive id record h
  undoPreventive _ _ h := h
  create _ _ h := h
  pop h := h
  restore _ _ h := h
  register {s} request digest g i next h _ _ := by
    have hwritten := tables_updateParticipant request.participant
      (·.register s.options.limits request digest g i next) h
    exact hwritten
  pushGrant _ h := h
  popGrant h := h
  stamp _ _ h := h
  remember id _ _ h := tables_updateParticipant id _ h
  revoke id h := revokeFrom_keeps (P := fun s => s.tables = x)
    (fun _ id f hs => tables_updateGrant id f hs) id h
  undoRevoke g _ h := undoRevoke_keeps (P := fun s => s.tables = x)
    (fun _ id f hs => tables_updateGrant id f hs) (fun _ _ hs => hs) _ g h
  restamp id _ h := tables_updateGrant id _ h
  control _ h := h
  enter _ h _ := h
  undoEpoch _ h := h
  invalidate h := h
  transition _ h := h
  retire id h := tables_updateParticipant id _ h
  undoRetire _ _ h := h
  canonicalize h := h
  rebuild h := h

end Impl

/-- **A transaction leaves the tables alone**, whether it commits or not. -/
theorem transact_tables {α : Type} {op : Op α} (hop : Composed op) (fault : Option SaveFault)
    (disk : Disk) (impl : Impl) : (transact op fault disk impl).impl.tables = impl.tables :=
  (Impl.tables_stable impl.tables).upholds.transact hop rfl fault disk

/-- **A closed session** leaves both tables whatever becomes of its fence. -/
theorem closeSession_tables (session : SessionId) (reason : SessionClosureReason)
    (fault : Option SaveFault) (disk : Disk) (impl : Impl) :
    (impl.sessionIndex.find? (fun s => s.id = session) = none ∧
      (closeSession session reason fault disk impl).impl.tables = impl.tables) ∨
    ∃ binding, impl.sessionIndex.find? (fun s => s.id = session) = some binding ∧
      (closeSession session reason fault disk impl).impl.tables =
        (impl.eraseSession binding).tables := by
  unfold closeSession
  cases hbound : impl.sessionIndex.find? fun s => s.id = session with
  | none => exact .inl ⟨rfl, rfl⟩
  | some binding =>
    exact .inr ⟨binding, rfl, transact_tables (stepwise_fenceSession _ _ _).composed fault disk _⟩

/-- A call that is no `bind` and no `close` leaves the tables alone. -/
theorem callRuntime_tables {call : Call} (hbind : ∀ binding, call ≠ .bind binding)
    (hclose : ∀ session reason, call ≠ .close session reason) (entropy : Entropy)
    (fault : Option SaveFault) (disk : Disk) (impl : Impl) :
    (callRuntime call entropy fault disk impl).impl.tables = impl.tables := by
  cases call with
  | register request => exact transact_tables (stepwise_applyRegistration request true).composed fault disk impl
  | registerBatch requests => exact transact_tables (stepwise_registerBatch requests).composed fault disk impl
  | fence request => exact transact_tables (stepwise_fenceWorker request).composed fault disk impl
  | grant request => exact transact_tables (composed_applyGrant entropy request) fault disk impl
  | revoke request => exact transact_tables (composed_applyRevoke request) fault disk impl
  | advance request => exact transact_tables (stepwise_advanceEpoch entropy request).composed fault disk impl
  | retire request => exact transact_tables (stepwise_applyRetire request).composed fault disk impl
  | bind binding => exact absurd rfl (hbind binding)
  | close session reason => exact absurd rfl (hclose session reason)
  | flush =>
    rw [callRuntime]
    split <;> rfl

/-! ## The tables are tied -/

/-- The two tables are inverse maps, within the limit. -/
structure Tables.Ties (x : Tables) : Prop where
  inverse : ∀ boot session,
    (∃ binding ∈ x.sessions, binding.id = session ∧ binding.boot = boot) ↔ (boot, session) ∈ x.boots
  ids : (x.sessions.map (·.id)).Nodup
  boots : (x.sessions.map (·.boot)).Nodup
  bootKeys : (x.boots.map Prod.fst).Nodup
  bounded : x.sessions.length ≤ x.options.limits.maxSessions

namespace Tables.Ties

/-- A new session under a new identifier, for a boot without one. -/
theorem bind {impl : Impl} (h : impl.tables.Ties) {binding : SessionBinding}
    (hid : binding.id ∉ impl.sessionIndex.map (·.id)) (hbindable : impl.bindable binding = true)
    (hroom : impl.sessionIndex.length < impl.options.limits.maxSessions) :
    (⟨impl.options, impl.sessionIndex ++ [binding],
      impl.bootSessionIndex ++ [(binding.boot, binding.id)]⟩ : Tables).Ties := by
  -- one session for each boot
  have hboot : binding.boot ∉ impl.bootSessionIndex.map Prod.fst := by
    intro hmem
    obtain ⟨entry, hentry, hfst⟩ := List.mem_map.mp hmem
    have hany : (impl.bootSessionIndex.any fun s => s.1 == binding.boot) = true :=
      List.any_eq_true.mpr ⟨entry, hentry, beq_iff_eq.mpr hfst⟩
    unfold Impl.bindable at hbindable
    split at hbindable
    · cases hbindable
    · split at hbindable
      · cases hbindable
      · simp [hany] at hbindable
  have hunbound : binding.boot ∉ impl.sessionIndex.map (·.boot) := by
    intro hmem
    obtain ⟨other, hother, heq⟩ := List.mem_map.mp hmem
    have hentry := (h.inverse other.boot other.id).mp ⟨other, hother, rfl, rfl⟩
    exact hboot (heq ▸ List.mem_map_of_mem (f := Prod.fst) hentry)
  have hadd : ∀ {α : Type} {l : List α} {a : α}, l.Nodup → a ∉ l → (l ++ [a]).Nodup := by
    intro α l a hl ha
    refine List.nodup_append.mpr ⟨hl, List.nodup_singleton _, fun b hb c hc => ?_⟩
    rw [List.mem_singleton.mp hc]
    rintro rfl
    exact ha hb
  refine ⟨fun boot session => ?_, ?_, ?_, ?_, ?_⟩
  · constructor
    · rintro ⟨other, hother, rfl, rfl⟩
      rcases List.mem_append.mp hother with hother | hother
      · exact List.mem_append_left _ ((h.inverse _ _).mp ⟨other, hother, rfl, rfl⟩)
      · rw [List.mem_singleton.mp hother]
        exact List.mem_append_right _ (List.mem_singleton_self _)
    · intro hmem
      rcases List.mem_append.mp hmem with hmem | hmem
      · obtain ⟨other, hother, hrest⟩ := (h.inverse _ _).mpr hmem
        exact ⟨other, List.mem_append_left _ hother, hrest⟩
      · obtain ⟨rfl, rfl⟩ := Prod.mk.inj (List.mem_singleton.mp hmem)
        exact ⟨binding, List.mem_append_right _ (List.mem_singleton_self _), rfl, rfl⟩
  · rw [List.map_append]
    exact hadd h.ids hid
  · rw [List.map_append]
    exact hadd h.boots hunbound
  · rw [List.map_append]
    exact hadd h.bootKeys hboot
  · rw [List.length_append, List.length_singleton]
    exact hroom

/-- A session is taken out of both tables. -/
theorem erase {impl : Impl} (h : impl.tables.Ties) {binding : SessionBinding}
    (hbinding : binding ∈ impl.sessionIndex) : (impl.eraseSession binding).tables.Ties := by
  have hsame : ∀ other ∈ impl.sessionIndex, other.id = binding.id ↔ other.boot = binding.boot := by
    intro other hother
    constructor
    · intro heq
      rw [List.inj_on_of_nodup_map h.ids hother hbinding heq]
    · intro heq
      rw [List.inj_on_of_nodup_map h.boots hother hbinding heq]
  refine ⟨fun boot session => ?_, ?_, ?_, ?_, ?_⟩
  · constructor
    · rintro ⟨other, hother, rfl, rfl⟩
      obtain ⟨hother, hkept⟩ := List.mem_filter.mp hother
      have hne : other.id ≠ binding.id := by simpa using hkept
      refine List.mem_filter.mpr ⟨(h.inverse _ _).mp ⟨other, hother, rfl, rfl⟩, ?_⟩
      simpa using fun heq => hne ((hsame other hother).mpr heq)
    · intro hmem
      obtain ⟨hmem, hkept⟩ := List.mem_filter.mp hmem
      obtain ⟨other, hother, rfl, rfl⟩ := (h.inverse _ _).mpr hmem
      have hne : other.boot ≠ binding.boot := by simpa using hkept
      refine ⟨other, List.mem_filter.mpr ⟨hother, ?_⟩, rfl, rfl⟩
      simpa using fun heq => hne ((hsame other hother).mp heq)
  · exact h.ids.sublist (List.filter_sublist.map _)
  · exact h.boots.sublist (List.filter_sublist.map _)
  · exact h.bootKeys.sublist (List.filter_sublist.map _)
  · exact (List.length_filter_le _ _).trans h.bounded

end Tables.Ties

/-! ## Every reachable state -/

/-- A session is bound under an identifier that no bound session has. -/
def FreshSessions (host : Host) : Input → Prop
  | .call (.bind binding) _ _ => ∀ impl ∈ host.runtime, binding.id ∉ impl.sessionIndex.map (·.id)
  | _ => True

/-- What a call to `bindSession` leaves behind. -/
theorem bindSession_tables {impl : Impl} {binding : SessionBinding} (entropy : Entropy)
    (fault : Option SaveFault) (disk : Disk) :
    (impl.bindable binding = true ∧ impl.sessionIndex.length < impl.options.limits.maxSessions ∧
      (callRuntime (.bind binding) entropy fault disk impl).result = .ok (.bound true) ∧
      (callRuntime (.bind binding) entropy fault disk impl).impl.tables =
        ⟨impl.options, impl.sessionIndex.filter (fun s => s.id ≠ binding.id) ++ [binding],
          impl.bootSessionIndex ++ [(binding.boot, binding.id)]⟩) ∨
    (callRuntime (.bind binding) entropy fault disk impl).result ≠ .ok (.bound true) ∧
      (callRuntime (.bind binding) entropy fault disk impl).impl.tables = impl.tables := by
  by_cases hbindable : impl.bindable binding = true
  · by_cases hroom : impl.sessionIndex.length ≥ impl.options.limits.maxSessions
    · right
      simp [callRuntime, Impl.bindSession, hbindable, hroom]
    · left
      refine ⟨hbindable, not_le.mp hroom, ?_, ?_⟩
      · simp [callRuntime, Impl.bindSession, hbindable, hroom]
      · simp [callRuntime, Impl.bindSession, hbindable, hroom, Impl.tables]
  · right
    simp [callRuntime, Impl.bindSession, hbindable]

/-- No session is bound behind an opening. -/
theorem openRuntime_tables {opening : Opening} {fault : Option SaveFault} {disk : Disk} {impl : Impl}
    (h : (openRuntime opening fault disk).1 = some impl) : impl.tables = ⟨impl.options, [], []⟩ := by
  have hempty : ∃ options, impl.tables = ⟨options, [], []⟩ := by
    unfold openRuntime at h
    split at h
    · cases h
    dsimp only at h
    split at h
    · split at h
      · cases h
      · cases h
        exact ⟨_, (transact_tables (stepwise_establishEpoch _ _ _ _).composed fault disk _).trans rfl⟩
    · split at h
      · cases h
        exact ⟨_, rfl⟩
      · cases h
  obtain ⟨options, hempty⟩ := hempty
  rw [hempty, show options = impl.options from (congrArg Tables.options hempty).symm]

/-- The tables are tied behind every opening. -/
theorem openRuntime_ties {opening : Opening} {fault : Option SaveFault} {disk : Disk} {impl : Impl}
    (h : (openRuntime opening fault disk).1 = some impl) : impl.tables.Ties := by
  rw [openRuntime_tables h]
  exact ⟨by simp, List.nodup_nil, List.nodup_nil, List.nodup_nil, Nat.zero_le _⟩

theorem callRuntime_ties {impl : Impl} (h : impl.tables.Ties) {call : Call}
    (hfresh : ∀ binding, call = .bind binding → binding.id ∉ impl.sessionIndex.map (·.id))
    (entropy : Entropy) (fault : Option SaveFault) (disk : Disk) :
    (callRuntime call entropy fault disk impl).impl.tables.Ties := by
  by_cases hbind : ∃ binding, call = .bind binding
  · obtain ⟨binding, rfl⟩ := hbind
    have hid := hfresh binding rfl
    rcases @bindSession_tables impl binding entropy fault disk with
      ⟨hbindable, hroom, -, heq⟩ | ⟨-, heq⟩
    · have hfilter : impl.sessionIndex.filter (fun s => s.id ≠ binding.id) = impl.sessionIndex := by
        refine List.filter_eq_self.mpr fun s hs => ?_
        simpa using fun heq : s.id = binding.id => hid (heq ▸ List.mem_map_of_mem hs)
      rw [heq, hfilter]
      exact h.bind hid hbindable hroom
    · rw [heq]
      exact h
  by_cases hclose : ∃ session reason, call = .close session reason
  · obtain ⟨session, reason, rfl⟩ := hclose
    show (closeSession session reason fault disk impl).impl.tables.Ties
    rcases closeSession_tables session reason fault disk impl with ⟨-, heq⟩ | ⟨binding, hbound, heq⟩
    · rw [heq]
      exact h
    · rw [heq]
      exact h.erase (List.mem_of_find?_eq_some hbound)
  · rw [callRuntime_tables (fun binding heq => hbind ⟨binding, heq⟩)
      (fun session reason heq => hclose ⟨session, reason, heq⟩)]
    exact h

theorem reachable_ties {host : Host} (h : coordinator.Reaches FreshSessions host) {impl : Impl}
    (himpl : host.runtime = some impl) : impl.tables.Ties := by
  have hinv : ∀ impl ∈ host.runtime, impl.tables.Ties := by
    refine h.invariant (I := fun host => ∀ impl ∈ host.runtime, impl.tables.Ties)
      (fun _ hi => by cases hi) fun host input ih hfresh impl' himpl' => ?_
    have hstep : impl' ∈ (stepRuntime input host.disk host.runtime).1 := himpl'
    cases input with
    | «open» opening fault => exact openRuntime_ties hstep
    | call call entropy fault =>
      cases hr : host.runtime with
      | none =>
        rw [hr] at hstep
        cases hstep
      | some impl =>
        rw [hr] at hstep
        cases hstep
        refine callRuntime_ties (ih impl hr) (fun binding heq => ?_) entropy fault host.disk
        subst heq
        exact hfresh impl hr
  exact hinv impl himpl

/-- What closing a session does to the tables: its own entries are gone, and
those of the other sessions are as before. -/
structure ClosesOnly (session : SessionId) (before after : Impl) : Prop where
  gone : session ∉ after.sessionIndex.map (·.id)
  bootGone : session ∉ after.bootSessionIndex.map Prod.snd
  sessions : ∀ binding, binding.id ≠ session →
    (binding ∈ after.sessionIndex ↔ binding ∈ before.sessionIndex)
  boots : ∀ entry : WorkerBootId × SessionId, entry.2 ≠ session →
    (entry ∈ after.bootSessionIndex ↔ entry ∈ before.bootSessionIndex)

theorem closesOnly {impl : Impl} (h : impl.tables.Ties) (session : SessionId)
    (reason : SessionClosureReason) (fault : Option SaveFault) (disk : Disk) :
    ClosesOnly session impl (closeSession session reason fault disk impl).impl := by
  generalize hafter : (closeSession session reason fault disk impl).impl = after
  rcases closeSession_tables session reason fault disk impl with ⟨hnone, heq⟩ | ⟨binding, hbound, heq⟩
  · rw [hafter] at heq
    have hsessions : after.sessionIndex = impl.sessionIndex := congrArg Tables.sessions heq
    have hboots : after.bootSessionIndex = impl.bootSessionIndex := congrArg Tables.boots heq
    have hgone : session ∉ impl.sessionIndex.map (·.id) := by
      intro hmem
      obtain ⟨b, hb, hid⟩ := List.mem_map.mp hmem
      exact absurd hid (by simpa using List.find?_eq_none.mp hnone b hb)
    refine ⟨hsessions ▸ hgone, ?_, fun _ _ => by rw [hsessions], fun _ _ => by rw [hboots]⟩
    rw [hboots]
    intro hmem
    obtain ⟨entry, hentry, rfl⟩ := List.mem_map.mp hmem
    obtain ⟨b, hb, hid, -⟩ := (h.inverse entry.1 entry.2).mpr hentry
    exact hgone (hid ▸ List.mem_map_of_mem (f := SessionBinding.id) hb)
  · rw [hafter] at heq
    have hmem := List.mem_of_find?_eq_some hbound
    obtain rfl : binding.id = session := by simpa using List.find?_some hbound
    have hties := h.erase hmem
    have hsessions : after.sessionIndex = impl.sessionIndex.filter fun s => s.id ≠ binding.id :=
      congrArg Tables.sessions heq
    have hboots : after.bootSessionIndex = impl.bootSessionIndex.filter fun s => s.1 ≠ binding.boot :=
      congrArg Tables.boots heq
    have hgone : binding.id ∉ (impl.sessionIndex.filter fun s => s.id ≠ binding.id).map (·.id) := by
      intro hin
      obtain ⟨other, hother, hid⟩ := List.mem_map.mp hin
      exact absurd hid (by simpa using (List.mem_filter.mp hother).2)
    refine ⟨hsessions ▸ hgone, ?_, fun other hne => ?_, fun entry hne => ?_⟩
    · rw [hboots]
      intro hin
      obtain ⟨entry, hentry, hid⟩ := List.mem_map.mp hin
      obtain ⟨other, hother, hoid, -⟩ := (hties.inverse entry.1 entry.2).mpr hentry
      have hother' : other ∈ impl.sessionIndex.filter fun s => s.id ≠ binding.id := hother
      exact hgone (List.mem_map.mpr ⟨other, hother', hoid.trans hid⟩)
    · rw [hsessions, List.mem_filter]
      simp [hne]
    · rw [hboots, List.mem_filter]
      refine ⟨fun hin => hin.1, fun hin => ⟨hin, ?_⟩⟩
      -- the boot of the closed session is tied to that session alone
      have hown := (h.inverse binding.boot binding.id).mp ⟨binding, hmem, rfl, rfl⟩
      have hboot : entry.1 ≠ binding.boot := by
        intro hsame
        have := List.inj_on_of_nodup_map h.bootKeys hin hown hsame
        exact hne (congrArg Prod.snd this)
      simpa using hboot

/-- **The session tables stay consistent** over every run whose sessions are
bound under identifiers of their own, whatever fails on the way: they are tied;
a `bind` that is not accepted changes neither; a `close` takes its own session
out of both and changes nothing else. -/
theorem sessions_consistent {host : Host} (h : coordinator.Reaches FreshSessions host)
    {impl : Impl} (himpl : host.runtime = some impl) :
    impl.tables.Ties ∧
    (∀ binding entropy fault,
      (callRuntime (.bind binding) entropy fault host.disk impl).result ≠ .ok (.bound true) →
      (callRuntime (.bind binding) entropy fault host.disk impl).impl.tables = impl.tables) ∧
    ∀ session reason entropy fault, ClosesOnly session impl
      (callRuntime (.close session reason) entropy fault host.disk impl).impl := by
  have hties := reachable_ties h himpl
  refine ⟨hties, fun binding entropy fault hrefused => ?_, fun session reason entropy fault => ?_⟩
  · rcases @bindSession_tables impl binding entropy fault host.disk with
      ⟨-, -, haccepted, -⟩ | ⟨-, heq⟩
    · exact absurd haccepted hrefused
    · exact heq
  · exact closesOnly hties session reason fault host.disk

/-- Bind a session to the one worker of a run. -/
def testBinding : SessionBinding :=
  ⟨smallId 6, testParticipant "p", smallId 4, smallCounter 1, smallCounter 1, smallCounter 1⟩

/-- A worker with a bound session. -/
theorem sessions_consistent_test : ∃ host impl, coordinator.Reaches FreshSessions host ∧
    host.runtime = some impl ∧ impl.sessionIndex = [testBinding] ∧ impl.tables.Ties := by
  let inputs := [testOpen {} 1, callOf (.register (testRegister 3 (testParticipant "p") (smallId 4)))]
  have hfree : (coordinator.run coordinator.init inputs).runtime.map (·.sessionIndex.map (·.id)) =
      some [] := by decide +kernel
  have hrun : (coordinator.step (coordinator.run coordinator.init inputs)
      (callOf (.bind testBinding))).1.runtime.map (·.sessionIndex) = some [testBinding] := by
    decide +kernel
  have hbefore : coordinator.Reaches FreshSessions (coordinator.run coordinator.init inputs) :=
    Machine.leads_run ⟨trivial, trivial, trivial⟩
  generalize coordinator.run coordinator.init inputs = host at hfree hrun hbefore
  have hreach := hbefore.tail (callOf (.bind testBinding)) fun impl himpl => by
    rw [Option.mem_def.mp himpl, Option.map_some, Option.some.injEq] at hfree
    rw [hfree]
    exact List.not_mem_nil
  obtain ⟨impl, himpl, hsessions⟩ := Option.map_eq_some_iff.mp hrun
  exact ⟨_, impl, hreach, himpl, hsessions, (sessions_consistent hreach himpl).1⟩

end FabricEpoch
