import FabricEpoch.Runtime.Frames
import FabricEpoch.Standing

/-!
# Losing a session

A session that ends fences the incarnation it is bound to. Between a
registration and the binding of its session other sessions run, and the binding
can be refused or throw: then the session ends without a binding, and nothing
fences what it has registered.

- `Session.Covered`: what a session has registered is dead, or the session holds
  it and will fence it;
- `serveTurn_proceeds`, `bindTurn_proceeds`, `closeTurn_proceeds`: one piece of
  `serve`;
- `endedSession_fenced`: where no binding of a live registration is turned away,
  no session leaves a live incarnation behind.
-/

namespace FabricEpoch

open Table Transaction

/-! ## What a session answers for -/

namespace Session

/-- The registration that is about to be bound, or the one that is bound. -/
def held (x : Session) : Option SessionBinding :=
  match x.phase with
  | .registered _ _ candidate => some candidate
  | .ended => none
  | _ => x.binding

/-- The session goes on, or has left its loop, with what it had. -/
structure Continues (x y : Session) : Prop where
  id : y.id = x.id
  binding : y.binding = x.binding
  issued : y.issued = x.issued
  phase : y.phase = .serving ∨ ∃ violation, y.phase = .closing violation

/-- The runtime knows the session by its binding, and what the session has
registered is dead, or stands and is held. -/
structure Covered (impl : Impl) (x : Session) : Prop where
  unbound : ∀ requestId result candidate, x.phase = .registered requestId result candidate →
    x.binding = none ∧ candidate.id = x.id
  bound : x.phase ≠ .ended → ∀ b, x.binding = some b →
    b.id = x.id ∧ impl.sessionIndex.find? (fun s => s.id = x.id) = some b
  issued : ∀ b ∈ x.issued, impl.state.Dead b.participant b.incarnation ∨
    impl.state.Standing b ∧ x.held = some b

variable {impl : Impl} {x y : Session}

theorem held_of_running (h : x.phase = .serving ∨ ∃ violation, x.phase = .closing violation) :
    x.held = x.binding := by
  unfold held
  rcases h with hphase | ⟨violation, hphase⟩ <;> rw [hphase]

theorem Continues.refl (h : x.phase = .serving) : x.Continues x := ⟨rfl, rfl, rfl, .inl h⟩

theorem Continues.leave (violation : Bool) (h : x.Continues y) : x.Continues (y.leave violation) :=
  ⟨h.id, h.binding, h.issued, .inr ⟨violation, rfl⟩⟩

theorem Covered.continues (h : x.Covered impl) (hserving : x.phase = .serving)
    (hy : x.Continues y) : y.Covered impl := by
  refine ⟨fun requestId result candidate hphase => ?_, fun _ b hb => ?_, fun b hb => ?_⟩
  · rcases hy.phase with hphase' | ⟨_, hphase'⟩ <;> cases hphase.symm.trans hphase'
  · rw [hy.id]
    refine h.bound (fun hended => ?_) b (hy.binding ▸ hb)
    cases hserving.symm.trans hended
  · rw [held_of_running hy.phase, hy.binding, ← held_of_running (.inl hserving)]
    exact h.issued b (hy.issued ▸ hb)

end Session

/-! ## One piece of a session -/

/-- What a piece of a session does to the runtime and to the others. -/
structure Service.Proceeds (s : Service) (x : Session) (r : Served) : Prop where
  holds : Holds Kept ⟨r.disk, some r.impl⟩
  moves : Moves .nothing s.impl.options.limits s.impl.state r.impl.state
  options : r.impl.options = s.impl.options
  others : ∀ id, id ≠ x.id → r.impl.sessionIndex.find? (fun b => b.id = id) =
    s.impl.sessionIndex.find? (fun b => b.id = id)
  id : r.session.id = x.id
  covered : r.session.Covered r.impl

/-- Moves take what a session has registered from standing to dead. -/
theorem Session.Covered.moves {impl impl' : Impl} {x : Session} {limits : Limits}
    (h : x.Covered impl) (hk : Kept impl.state) (hepoch : impl.state.currentEpoch.value ≠ 0)
    (hmoves : Moves .nothing limits impl.state impl'.state)
    (hsessions : impl'.sessionIndex.find? (fun b => b.id = x.id) =
      impl.sessionIndex.find? (fun b => b.id = x.id)) : x.Covered impl' := by
  refine ⟨h.unbound, fun hended b hb => ?_, fun b hb => ?_⟩
  · rw [hsessions]
    exact h.bound hended b hb
  · rcases h.issued b hb with hdead | ⟨hstanding, hheld⟩
    · exact .inl (hdead.evolves (hk.moves hmoves).2)
    · rcases hmoves.accounted hk hepoch (.inl hstanding) with hstill | hdead
      · exact .inr ⟨hstill, hheld⟩
      · exact .inl hdead

/-- The session goes on over the memory behind a call. -/
theorem Service.Proceeds.of_running {s : Service} {x y : Session} {r : Served} {impl' : Impl}
    {disk' : Disk} (hholds : Holds Kept ⟨disk', some impl'⟩)
    (hmoves : Moves .nothing s.impl.options.limits s.impl.state impl'.state)
    (hoptions : impl'.options = s.impl.options)
    (hothers : ∀ id, id ≠ x.id → impl'.sessionIndex.find? (fun b => b.id = id) =
      s.impl.sessionIndex.find? (fun b => b.id = id))
    (hid : y.id = x.id) (hcovered : y.Covered impl') (hserving : y.phase = .serving)
    (himpl : r.impl = impl') (hdisk : r.disk = disk') (hy : y.Continues r.session) :
    s.Proceeds x r := by
  subst himpl hdisk
  exact ⟨hholds, hmoves, hoptions, hothers, hy.id.trans hid, hcovered.continues hserving hy⟩

/-- The calls of a session that neither register nor bind. -/
inductive Plain : Call → Prop
  | fence (request : FenceWorkerRequest) : Plain (.fence request)
  | revoke (request : RevokeAuthorityRequest) : Plain (.revoke request)
  | advance (request : EpochAdvanceRequest) : Plain (.advance request)
  | retire (request : RetireParticipantRequest) : Plain (.retire request)

section Calls

variable {call : Call} {entropy : Entropy} {fault : Option SaveFault} {disk : Disk} {impl : Impl}

/-- What a call that does not throw does, be it called by a session. -/
theorem callRuntime_holds (h : Holds Kept ⟨disk, some impl⟩) {reply : Reply}
    (hr : (callRuntime call entropy fault disk impl).result = .ok reply) :
    Holds Kept ⟨(callRuntime call entropy fault disk impl).disk,
        some (callRuntime call entropy fault disk impl).impl⟩ ∧
      Moves .nothing impl.options.limits impl.state
        (callRuntime call entropy fault disk impl).impl.state ∧
      (callRuntime call entropy fault disk impl).impl.options = impl.options := by
  have hsound := Input.sound_nothing ⟨disk, some impl⟩ (.call call entropy fault)
  have hprogress := callRuntime_progress (T := .nothing) (fun h => h.elim)
    (h.memory impl rfl).1 (fun h => h.elim) (hsound impl rfl) hr
  refine ⟨quietStep_holds preserved_kept h hsound ?_, hprogress.moves, hprogress.options⟩
  intro e he
  rw [coordinator_call rfl, hr] at he
  cases he

theorem callRuntime_sessions (hplain : Plain call) (h : Holds Kept ⟨disk, some impl⟩)
    {reply : Reply} (hr : (callRuntime call entropy fault disk impl).result = .ok reply) :
    (callRuntime call entropy fault disk impl).impl.sessionIndex = impl.sessionIndex := by
  have hframed : call.Framed sessionsOf := by
    cases hplain with
    | fence request => exact sessionsOf_record
    | revoke request => exact sessionsOf_revoke
    | advance request => exact sessionsOf_epoch
    | retire request => exact sessionsOf_record
  obtain ⟨u, hsame, hbehind⟩ := callRuntime_frame hframed (h.memory impl rfl).1 hr
  exact (hbehind.reading (π := sessionsOf) fun _ => rfl).trans hsame

end Calls

/-! ## A turn of the loop -/

/-- **Everything a turn can have done**: the runtime was not touched, one plain
call was made, or a registration. -/
inductive TurnCase (s : Service) (x : Session) : Served → Prop
  | idle {r : Served} (impl : r.impl = s.impl) (disk : r.disk = s.disk)
      (continues : x.Continues r.session) : TurnCase s x r
  | called {r : Served} {call : Call} {entropy : Entropy} {fault : Option SaveFault}
      (plain : Plain call) (impl : r.impl = (callRuntime call entropy fault s.disk s.impl).impl)
      (disk : r.disk = (callRuntime call entropy fault s.disk s.impl).disk)
      (quiet : (∀ e, r.called ≠ some (.error e)) →
        ∃ reply, (callRuntime call entropy fault s.disk s.impl).result = .ok reply)
      (continues : x.Continues r.session) : TurnCase s x r
  | registered {requestId : MutationAttemptId} {request : RegisterParticipantRequest}
      {write : Option EpochError} {fault : Option SaveFault} (unbound : x.binding = none) :
      TurnCase s x (s.serveRegister x requestId request write fault)

/-- An answer leaves the runtime alone, whether it can be sent or not. -/
theorem answer_continues (s : Service) {x y : Session} (requestId : MutationAttemptId)
    (write : Option EpochError) (hy : x.Continues y) (frame : Outgoing) :
    (s.answer y requestId frame write).impl = s.impl ∧
      (s.answer y requestId frame write).disk = s.disk ∧
      x.Continues (s.answer y requestId frame write).session := by
  cases write with
  | none => exact ⟨rfl, rfl, hy⟩
  | some e => exact ⟨rfl, rfl, hy.leave true⟩

section Turns

variable {s : Service} {x y : Session} {requestId : MutationAttemptId} {write : Option EpochError}
  {entropy : Entropy} {fault : Option SaveFault}

theorem answer_idle (hy : x.Continues y) (frame : Outgoing) :
    TurnCase s x (s.answer y requestId frame write) := by
  obtain ⟨himpl, hdisk, hcontinues⟩ := answer_continues s requestId write hy frame
  exact .idle himpl hdisk hcontinues

theorem decoded_cases {α : Type} {payload : Except EpochError α} {handle : α → Served}
    (hx : x.phase = .serving) (h : ∀ a, TurnCase s x (handle a)) :
    TurnCase s x (s.decoded x payload handle) := by
  cases payload with
  | error e => exact .idle rfl rfl ((Session.Continues.refl hx).leave true)
  | ok a => exact h a

/-- A plain call and its acknowledgement. -/
theorem acknowledge_called (hx : x.phase = .serving) {call : Call} (hplain : Plain call) :
    TurnCase s x (s.acknowledge x requestId (callRuntime call entropy fault s.disk s.impl) .ack
      write) := by
  have hrefl := Session.Continues.refl hx
  unfold Service.acknowledge
  cases hr : (callRuntime call entropy fault s.disk s.impl).result with
  | error e =>
    exact .called hplain rfl rfl (fun hquiet => absurd rfl (hquiet e)) (hrefl.leave true)
  | ok reply =>
    obtain ⟨himpl, hdisk, hcontinues⟩ := answer_continues
      { s with
        impl := (callRuntime call entropy fault s.disk s.impl).impl
        disk := (callRuntime call entropy fault s.disk s.impl).disk }
      requestId write hrefl (.ack reply)
    exact .called hplain himpl hdisk (fun _ => ⟨reply, hr⟩) hcontinues

theorem dispatch_cases (hx : x.phase = .serving) (request : Request) :
    TurnCase s x (s.dispatch x requestId request write entropy fault) := by
  have hrefl := Session.Continues.refl hx
  cases request with
  | hello role =>
    refine decoded_cases hx fun role => ?_
    split
    · exact .idle rfl rfl (hrefl.leave true)
    · have hseen : x.Continues { x with helloSeen := true } := ⟨rfl, rfl, rfl, .inl hx⟩
      exact answer_idle hseen _
  | shutdown => exact .idle rfl rfl (hrefl.leave false)
  | register payload =>
    show TurnCase s x (if x.binding.isSome then _ else _)
    split
    · exact .idle rfl rfl (hrefl.leave true)
    · next hunbound =>
      refine decoded_cases hx fun request => .registered ?_
      simpa using hunbound
  | validate payload => exact decoded_cases hx fun request => answer_idle hrefl _
  | fence payload => exact decoded_cases hx fun request => acknowledge_called hx (.fence request)
  | revoke payload => exact decoded_cases hx fun request => acknowledge_called hx (.revoke request)
  | advance payload =>
    exact decoded_cases hx fun request => acknowledge_called hx (.advance request)
  | retire payload => exact decoded_cases hx fun request => acknowledge_called hx (.retire request)
  | epochState reserved =>
    refine decoded_cases hx fun reserved => ?_
    split
    · exact .idle rfl rfl (hrefl.leave true)
    · exact answer_idle hrefl _
  | queryParticipant payload =>
    refine decoded_cases hx fun participant => ?_
    split
    · cases write with
      | none => exact .idle rfl rfl hrefl
      | some e => exact .idle rfl rfl hrefl
    · exact answer_idle hrefl _
  | snapshot reserved =>
    refine decoded_cases hx fun reserved => ?_
    split
    · exact .idle rfl rfl (hrefl.leave true)
    · exact answer_idle hrefl _
  | explain payload => exact decoded_cases hx fun _ => answer_idle hrefl _
  | unaccepted => exact .idle rfl rfl (hrefl.leave true)

theorem serveTurn_cases (s : Service) (hx : x.phase = .serving) (incoming : Incoming)
    (write : Option EpochError) (entropy : Entropy) (fault : Option SaveFault) :
    TurnCase s x (s.serveTurn x incoming write entropy fault) := by
  have hrefl := Session.Continues.refl hx
  unfold Service.serveTurn
  split
  · exact .idle rfl rfl (hrefl.leave false)
  · cases incoming with
    | idle => exact .idle rfl rfl hrefl
    | closed => exact .idle rfl rfl (hrefl.leave false)
    | broken e => exact .idle rfl rfl (hrefl.leave true)
    | frame requestId request =>
      dsimp only
      split
      · exact .idle rfl rfl (hrefl.leave true)
      · exact dispatch_cases hx request

end Turns

/-! ## A registration -/

namespace Session

variable {x : Session} {result : RegistrationResult} {b candidate : SessionBinding}

theorem issue_frame (result : RegistrationResult) (candidate : SessionBinding) (x : Session) :
    (x.issue result candidate).id = x.id ∧ (x.issue result candidate).binding = x.binding ∧
      (x.issue result candidate).phase = x.phase ∧
      (x.issue result candidate).helloSeen = x.helloSeen := by
  unfold issue
  split
  · exact ⟨rfl, rfl, rfl, rfl⟩
  · exact ⟨rfl, rfl, rfl, rfl⟩

theorem mem_issue (h : b ∈ (x.issue result candidate).issued) :
    b ∈ x.issued ∨ b = candidate ∧ result.outcome = .registered ∧ result.replayed = false := by
  unfold issue at h
  split at h
  · next hnew =>
    rcases List.mem_append.mp h with hold | hlast
    · exact .inl hold
    · exact .inr ⟨List.mem_singleton.mp hlast, hnew⟩
  · exact .inl h

end Session

/-- An incarnation that stands has a sequence. -/
theorem DurableState.Standing.positive {s : DurableState} {b : SessionBinding}
    (h : s.Standing b) (hs : Orderly s) : b.incarnation.isZero = false := by
  obtain ⟨p, hp, -, hlive⟩ := h.live
  have hpos := ((hs.records p hp).issued _ hlive).1
  cases hzero : b.incarnation.isZero with
  | false => rfl
  | true => exact absurd (MonotonicCounter.isZero_iff.mp hzero) (Nat.ne_of_gt hpos)

/-- **A registration** and where it leaves its session. -/
theorem serveRegister_proceeds {s : Service} {x : Session} {requestId : MutationAttemptId}
    {request : RegisterParticipantRequest} {write : Option EpochError} {fault : Option SaveFault}
    (hs : Holds Kept ⟨s.disk, some s.impl⟩) (hx : x.Covered s.impl) (hserving : x.phase = .serving)
    (hunbound : x.binding = none)
    (hquiet : ∀ e, (s.serveRegister x requestId request write fault).called ≠ some (.error e)) :
    s.Proceeds x (s.serveRegister x requestId request write fault) := by
  obtain ⟨hsettled, hkept, -, hepoch⟩ := hs.memory s.impl rfl
  unfold Service.serveRegister at hquiet ⊢
  dsimp only at hquiet ⊢
  cases hr : (transact (applyRegistration request true) fault s.disk s.impl).result with
  | error e =>
    simp only [hr] at hquiet
    exact absurd rfl (hquiet e)
  | ok result =>
  have hcall : (callRuntime (.register request) (testEntropy 0) fault s.disk s.impl).result =
      .ok (.registered result) := by
    show (transact (applyRegistration request true) fault s.disk s.impl).result.map _ = _
    rw [hr]
    rfl
  obtain ⟨hholds, hmoves, hoptions⟩ := callRuntime_holds hs hcall
  have hsessions : (transact (applyRegistration request true) fault s.disk s.impl).impl.sessionIndex =
      s.impl.sessionIndex := by
    have hframed : (Call.register request).Framed sessionsOf := sessionsOf_registration
    obtain ⟨u, hsame, hbehind⟩ := callRuntime_frame hframed hsettled hcall
    exact (hbehind.reading (π := sessionsOf) fun _ => rfl).trans hsame
  have hstanding := registered_standing hsettled hkept x hr
  rw [show (callRuntime (.register request) (testEntropy 0) fault s.disk s.impl).impl =
    (transact (applyRegistration request true) fault s.disk s.impl).impl from rfl] at hmoves hoptions
  replace hholds : Holds Kept ⟨(transact (applyRegistration request true) fault s.disk s.impl).disk,
    some (transact (applyRegistration request true) fault s.disk s.impl).impl⟩ := hholds
  clear hcall hquiet
  simp only
  generalize (transact (applyRegistration request true) fault s.disk s.impl).impl = impl' at *
  generalize (transact (applyRegistration request true) fault s.disk s.impl).disk = disk' at *
  have hothers : ∀ id, id ≠ x.id → impl'.sessionIndex.find? (fun b => b.id = id) =
      s.impl.sessionIndex.find? (fun b => b.id = id) := fun id _ => by rw [hsessions]
  have hmoved := hx.moves hkept hepoch hmoves (by rw [hsessions])
  have horderly := (hholds.memory impl' rfl).2.1.orderly
  have hrefl := Session.Continues.refl hserving
  split
  · next hout =>
    split
    · next hzero =>
      -- what was newly registered has a sequence, so nothing was
      have hsame : x.issue result (x.candidate request result) = x := by
        unfold Session.issue
        refine if_neg fun hnew => ?_
        rw [(hstanding hnew.1 hnew.2).positive horderly] at hzero
        cases hzero
      rw [hsame]
      exact .of_running hholds hmoves hoptions hothers rfl hmoved hserving rfl rfl (hrefl.leave true)
    · obtain ⟨hid, hbinding, -⟩ := Session.issue_frame result (x.candidate request result) x
      refine ⟨hholds, hmoves, hoptions, hothers, hid, ?_⟩
      refine ⟨fun requestId' result' candidate' hphase => ?_, fun _ b hb => ?_, fun b hb => ?_⟩
      · cases hphase
        exact ⟨hbinding.trans hunbound, hid.symm⟩
      · cases (hbinding.trans hunbound).symm.trans hb
      · rcases Session.mem_issue hb with hold | ⟨rfl, hnew⟩
        · -- nothing was held before
          rcases hmoved.issued b hold with hdead | ⟨-, hheld⟩
          · exact .inl hdead
          · rw [Session.held_of_running (.inl hserving), hunbound] at hheld
            cases hheld
        · exact .inr ⟨hstanding hnew.1 hnew.2, rfl⟩
  · obtain ⟨himpl, hdisk, hcontinues⟩ := answer_continues { s with
      impl := impl'
      disk := disk' } requestId write hrefl (.registerAck result)
    exact .of_running hholds hmoves hoptions hothers rfl hmoved hserving himpl hdisk hcontinues

/-- **A turn of the loop.** -/
theorem serveTurn_proceeds {s : Service} {x : Session} {incoming : Incoming}
    {write : Option EpochError} {entropy : Entropy} {fault : Option SaveFault}
    (hs : Holds Kept ⟨s.disk, some s.impl⟩) (hx : x.Covered s.impl) (hserving : x.phase = .serving)
    (hquiet : ∀ e, (s.serveTurn x incoming write entropy fault).called ≠ some (.error e)) :
    s.Proceeds x (s.serveTurn x incoming write entropy fault) := by
  obtain ⟨-, hkept, -, hepoch⟩ := hs.memory s.impl rfl
  have hcase := serveTurn_cases s hserving incoming write entropy fault
  generalize s.serveTurn x incoming write entropy fault = r at *
  cases hcase with
  | idle himpl hdisk hcontinues =>
    exact .of_running hs .refl rfl (fun _ _ => rfl) rfl hx hserving himpl hdisk hcontinues
  | @called _ call entropy fault hplain himpl hdisk hok hcontinues =>
    obtain ⟨reply, hr⟩ := hok hquiet
    obtain ⟨hholds, hmoves, hoptions⟩ := callRuntime_holds hs hr
    have hsessions := callRuntime_sessions hplain hs hr
    exact .of_running hholds hmoves hoptions (fun id _ => by rw [hsessions]) rfl
      (hx.moves hkept hepoch hmoves (by rw [hsessions])) hserving himpl hdisk hcontinues
  | registered hunbound => exact serveRegister_proceeds hs hx hserving hunbound hquiet

/-! ## The binding -/

/-- What stands can be bound, while no other session has its boot. -/
theorem DurableState.Standing.bindable {impl : Impl} {b : SessionBinding}
    (h : impl.state.Standing b) (hs : impl.Settled) (hvalid : ValidDurable impl.state)
    (hepoch : impl.state.currentEpoch.value ≠ 0)
    (hfree : (impl.bootSessionIndex.any fun s => s.1 == b.boot) = false) :
    impl.bindable b = true := by
  obtain ⟨p, hp, hid, hlive⟩ := h.live
  have hfound : impl.findParticipant b.participant = some p := by
    rw [hs.regular.find, ← hid]
    exact lookup_eq_some_of_mem hs.regular.orderly.ids hp
  have hretired : p.retired = false := by
    cases hr : p.retired with
    | false => rfl
    | true =>
      have hnone := (hvalid.established hepoch).retired_live hs.regular.orderly hp hr
      rw [hnone] at hlive
      cases hlive
  have hfind := DurableParticipant.find_of_nodup (hvalid.unique hp).2 hlive
  unfold Impl.bindable
  rw [if_neg (not_not.mpr h.epoch), hfound]
  dsimp only
  rw [hretired, hfind, hfree]
  simp

/-- **What binding a session can come to.** -/
theorem bindSession_cases {impl : Impl} {b : SessionBinding} {bound : Bool} {impl' : Impl}
    (h : impl.bindSession b = .ok (bound, impl')) :
    bound = false ∧ impl' = impl ∧ impl.bindable b = false ∨
    bound = true ∧ impl' = { impl with
      sessionIndex := impl.sessionIndex.filter (fun s => s.id ≠ b.id) ++ [b]
      bootSessionIndex := impl.bootSessionIndex ++ [(b.boot, b.id)] } := by
  unfold Impl.bindSession at h
  split at h
  · next hnot =>
    cases h
    exact .inl ⟨rfl, rfl, by simpa using hnot⟩
  · split at h
    · cases h
    · cases h
      exact .inr ⟨rfl, rfl⟩

theorem bindSession_error {impl : Impl} {b : SessionBinding} {e : EpochError}
    (h : impl.bindSession b = .error e) :
    impl.sessionIndex.length ≥ impl.options.limits.maxSessions := by
  unfold Impl.bindSession at h
  split at h
  · cases h
  · split at h
    · assumption
    · cases h

/-- Erasing one session loses no other. -/
theorem find_filter_ne (sessions : List SessionBinding) {id key : SessionId} (h : id ≠ key) :
    (sessions.filter fun s => s.id ≠ key).find? (fun s => s.id = id) =
      sessions.find? (fun s => s.id = id) := by
  rw [List.find?_filter]
  congr 1
  funext s
  by_cases hid : s.id = id
  · simp [hid, h]
  · simp [hid]

/-- The session is found under its binding behind `bind_session`. -/
theorem find_bound (sessions : List SessionBinding) (b : SessionBinding) :
    (sessions.filter (fun s => s.id ≠ b.id) ++ [b]).find? (fun s => s.id = b.id) = some b := by
  rw [List.find?_append, List.find?_eq_none.mpr]
  · simp
  · intro s hs
    simpa using (List.mem_filter.mp hs).2

theorem find_bound_ne (sessions : List SessionBinding) {b : SessionBinding} {id : SessionId}
    (h : id ≠ b.id) : (sessions.filter (fun s => s.id ≠ b.id) ++ [b]).find? (fun s => s.id = id) =
      sessions.find? (fun s => s.id = id) := by
  rw [List.find?_append, find_filter_ne sessions h]
  have hlast : [b].find? (fun s => s.id = id) = none := by simpa using h.symm
  rw [hlast, Option.or_none]

/-- Nobody binds the boot of a live registration before its session does, and
there is room for the session. -/
def Impl.Binds (impl : Impl) (b : SessionBinding) : Prop :=
  impl.state.Live b.participant b.boot b.incarnation →
    (impl.bootSessionIndex.any fun s => s.1 == b.boot) = false ∧
      impl.sessionIndex.length < impl.options.limits.maxSessions

instance (impl : Impl) (b : SessionBinding) : Decidable (impl.Binds b) :=
  inferInstanceAs (Decidable (_ → _))

/-- **The turn of `bind_session`.** -/
theorem bindTurn_proceeds {s : Service} {x : Session} {requestId : MutationAttemptId}
    {result : RegistrationResult} {candidate : SessionBinding} {write : Option EpochError}
    (hs : Holds Kept ⟨s.disk, some s.impl⟩) (hx : x.Covered s.impl)
    (hphase : x.phase = .registered requestId result candidate) (hbinds : s.impl.Binds candidate) :
    s.Proceeds x (s.bindTurn x requestId result candidate write) := by
  obtain ⟨hsettled, hkept, hvalid, hepoch⟩ := hs.memory s.impl rfl
  obtain ⟨hunbound, hid⟩ := hx.unbound _ _ _ hphase
  have hheld : x.held = some candidate := by
    unfold Session.held
    rw [hphase]
  -- a session that is turned away has registered nothing that stands
  have haway : (s.impl.state.Standing candidate → s.impl.bindable candidate = true →
      ¬ s.impl.sessionIndex.length < s.impl.options.limits.maxSessions) →
      (x.leave true).Covered s.impl := by
    intro hrefused
    refine ⟨fun _ _ _ hclosing => (by cases hclosing), fun _ b hb => ?_, fun b hb => ?_⟩
    · cases hunbound.symm.trans hb
    · rcases hx.issued b hb with hdead | ⟨hstanding, hb'⟩
      · exact .inl hdead
      · obtain rfl : candidate = b := Option.some.inj (hheld.symm.trans hb')
        obtain ⟨hfree, hroom⟩ := hbinds hstanding.live
        exact absurd hroom (hrefused hstanding (hstanding.bindable hsettled hvalid hepoch hfree))
  unfold Service.bindTurn
  cases hr : s.impl.bindSession candidate with
  | error e =>
    have hfull := bindSession_error hr
    exact ⟨hs, .refl, rfl, fun _ _ => rfl, rfl, haway fun _ _ => Nat.not_lt.mpr hfull⟩
  | ok bound =>
  obtain ⟨bound, impl'⟩ := bound
  rcases bindSession_cases hr with ⟨rfl, rfl, hnot⟩ | ⟨rfl, himpl'⟩
  · refine ⟨hs, .refl, rfl, fun _ _ => rfl, rfl, haway fun _ hbindable => ?_⟩
    rw [hnot] at hbindable
    cases hbindable
  · have hcall : callRuntime (.bind candidate) (testEntropy 0) none s.disk s.impl =
        ⟨impl', s.disk, .ok (.bound true)⟩ := by
      simp only [callRuntime, hr]
    have hok : (callRuntime (.bind candidate) (testEntropy 0) none s.disk s.impl).result =
        .ok (.bound true) := by
      rw [hcall]
    obtain ⟨hholds, hmoves, hoptions⟩ := callRuntime_holds hs hok
    rw [hcall] at hholds hmoves hoptions
    obtain ⟨y, hy⟩ : ∃ y : Session, y = { x with
      binding := some candidate
      phase := .serving } := ⟨_, rfl⟩
    have hyphase : y.phase = .serving := by rw [hy]
    have hcovered : y.Covered impl' := by
      subst hy himpl'
      refine ⟨fun _ _ _ hclosing => (by cases hclosing), fun _ b hb => ?_, fun b hb => ?_⟩
      · obtain rfl : candidate = b := Option.some.inj hb
        refine ⟨hid, ?_⟩
        rw [← hid]
        exact find_bound _ _
      · rcases hx.issued b hb with hdead | ⟨hstanding, hb'⟩
        · exact .inl hdead
        · exact .inr ⟨hstanding, hheld.symm.trans hb'⟩
    obtain ⟨himpl, hdisk, hcontinues⟩ := answer_continues { s with impl := impl' } requestId
      write (Session.Continues.refl hyphase) (.registerAck result)
    rw [hy] at himpl hdisk hcontinues
    refine .of_running hholds hmoves hoptions (fun id hne => ?_) (by rw [hy]) hcovered hyphase himpl
      hdisk (hy ▸ hcontinues)
    rw [himpl']
    exact find_bound_ne _ (hid ▸ hne)

/-! ## The end of a session -/

theorem closeSession_sessions {session : SessionId} {b : SessionBinding}
    {reason : SessionClosureReason} {fault : Option SaveFault} {disk : Disk} {impl : Impl}
    {r : FenceResult} (hs : impl.Settled)
    (hbound : impl.sessionIndex.find? (fun s => s.id = session) = some b)
    (h : (closeSession session reason fault disk impl).result = .ok r) :
    (closeSession session reason fault disk impl).impl.sessionIndex =
      impl.sessionIndex.filter fun s => s.id ≠ b.id := by
  unfold closeSession at h ⊢
  simp only [hbound] at h ⊢
  have hs' : (impl.eraseSession b).Settled := hs.of_same rfl ⟨rfl, rfl, rfl, rfl⟩
  obtain ⟨u, hsame, hbehind⟩ := transact_frame
    (fun t ht => fenceSession_advanced hs'.regular rfl (fun h => h.elim) ht)
    (fun y => Reads.fenceSession sessionsOf_record.toFenceFrame session b reason) h
  exact (hbehind.reading (π := sessionsOf) fun _ => rfl).trans hsame

/-- **The end of a session.** -/
theorem closeTurn_proceeds {s : Service} {x : Session} {violation : Bool} {fault : Option SaveFault}
    (hs : Holds Kept ⟨s.disk, some s.impl⟩) (hloss : s.impl.options.fenceOnSessionLoss = true)
    (hx : x.Covered s.impl) (hphase : x.phase = .closing violation)
    (hquiet : ∀ e, (s.closeTurn x violation fault).called ≠ some (.error e)) :
    s.Proceeds x (s.closeTurn x violation fault) := by
  obtain ⟨hsettled, hkept, -, hepoch⟩ := hs.memory s.impl rfl
  have hheld : x.held = x.binding := Session.held_of_running (.inr ⟨violation, hphase⟩)
  unfold Service.closeTurn at hquiet ⊢
  cases hbinding : x.binding with
  | none =>
    refine ⟨hs, .refl, rfl, fun _ _ => rfl, rfl, fun _ _ _ hended => (nomatch hended),
      fun hended => absurd rfl hended, fun b hb => .inl ?_⟩
    rcases hx.issued b hb with hdead | ⟨-, hb'⟩
    · exact hdead
    · cases (hheld.trans hbinding).symm.trans hb'
  | some b =>
    simp only [hbinding] at hquiet ⊢
    obtain ⟨hid, hbound⟩ := hx.bound (fun hended => nomatch hphase.symm.trans hended) b hbinding
    rw [← hid] at hbound
    generalize hreason : classifyClose violation s.stopNow = reason at *
    cases hr : (closeSession b.id reason fault s.disk s.impl).result with
    | error e =>
      rw [hr] at hquiet
      exact absurd rfl (hquiet e)
    | ok r =>
    have hcall : (callRuntime (.close b.id reason) (testEntropy 0) fault s.disk s.impl).result =
        .ok (.fenced r) := by
      show (closeSession b.id reason fault s.disk s.impl).result.map _ = _
      rw [hr]
      rfl
    obtain ⟨hholds, hmoves, hoptions⟩ := callRuntime_holds hs hcall
    have hsessions := closeSession_sessions hsettled hbound hr
    refine ⟨hholds, hmoves, hoptions, fun id hne => ?_, rfl, fun _ _ _ hended => (nomatch hended),
      fun hended => absurd rfl hended, fun b' hb' => .inl ?_⟩
    · show (closeSession b.id reason fault s.disk s.impl).impl.sessionIndex.find? _ = _
      rw [hsessions]
      exact find_filter_ne _ (hid ▸ hne)
    · have hevolves := (hkept.moves hmoves).2
      rcases hx.issued b' hb' with hdead | ⟨hstanding, hb''⟩
      · exact hdead.evolves hevolves
      · -- what the session held is what it closes
        obtain rfl : b = b' := Option.some.inj ((hheld.trans hbinding).symm.trans hb'')
        exact hstanding.live.dead hkept hevolves
          (closeSession_ends hsettled hbound hloss hstanding hr)

/-! ## The server -/

/-- Every session answers for what it has registered. -/
structure Answered (s : Service) : Prop where
  holds : Holds Kept ⟨s.disk, some s.impl⟩
  loss : s.impl.options.fenceOnSessionLoss = true
  ids : (s.sessions.map (·.id)).Nodup
  covered : ∀ x ∈ s.sessions, x.Covered s.impl

/-- No call that may save throws, and no identifier of a session is handed out
twice. -/
def Service.Smoothly (s : Service) : Event → Prop
  | .accept id => id ∉ s.sessions.map (·.id)
  | event => ∀ r, (s.step event).2 = some r → ∀ e, r.called ≠ some (.error e)

/-- Whether a call has thrown can be looked up. -/
def decideQuiet (answer : Option Served) :
    Decidable (∀ r, answer = some r → ∀ e, r.called ≠ some (.error e)) :=
  match answer with
  | none => isTrue fun _ h => (nomatch h)
  | some r =>
    match h : r.called with
    | some (.error e) => isFalse fun hquiet => hquiet r rfl e h
    | some (.ok ()) => isTrue fun _ hr _ he => by cases hr; rw [h] at he; cases he
    | none => isTrue fun _ hr _ he => by cases hr; rw [h] at he; cases he

instance (s : Service) (event : Event) : Decidable (s.Smoothly event) :=
  match event with
  | .accept id => inferInstanceAs (Decidable (id ∉ s.sessions.map (·.id)))
  | .stop => decideQuiet _
  | .turn .. => decideQuiet _
  | .bind .. => decideQuiet _
  | .close .. => decideQuiet _

/-- The registration that the event is about to bind. -/
def Service.pending (s : Service) : Event → Option SessionBinding
  | .bind n _ => s.sessions[n]?.bind fun x =>
    match x.phase with
    | .registered _ _ candidate => some candidate
    | _ => none
  | _ => none

/-- A registration that is still live when its turn comes is bound. -/
def Service.Binding (s : Service) (event : Event) : Prop :=
  ∀ candidate ∈ s.pending event, s.impl.Binds candidate

instance (s : Service) (event : Event) : Decidable (s.Binding event) :=
  inferInstanceAs (Decidable (∀ candidate ∈ s.pending event, s.impl.Binds candidate))

/-- The sessions keep their identifiers. -/
theorem ids_set {sessions : List Session} {n : Nat} {x y : Session} (hx : sessions[n]? = some x)
    (hid : y.id = x.id) : (sessions.set n y).map (·.id) = sessions.map (·.id) := by
  refine List.ext_getElem? fun m => ?_
  rw [List.getElem?_map, List.getElem?_set, List.getElem?_map]
  by_cases hm : n = m
  · subst hm
    rw [if_pos rfl, if_pos (List.getElem?_eq_some_iff.mp hx).1, hx]
    exact congrArg some hid
  · rw [if_neg hm]

/-- **The session of an event has gone on**, and the others are where they were. -/
theorem Answered.resume {s : Service} (h : Answered s) {n : Nat} {x : Session}
    (hx : s.sessions[n]? = some x) {r : Served} (hr : s.Proceeds x r) : Answered (s.resume n r) := by
  obtain ⟨-, hkept, -, hepoch⟩ := h.holds.memory s.impl rfl
  refine ⟨hr.holds, ?_, ?_, fun y hy => ?_⟩
  · show r.impl.options.fenceOnSessionLoss = true
    rw [hr.options]
    exact h.loss
  · show ((s.sessions.set n r.session).map (·.id)).Nodup
    rw [ids_set hx hr.id]
    exact h.ids
  · obtain ⟨m, hm⟩ := List.mem_iff_getElem?.mp hy
    replace hm : (s.sessions.set n r.session)[m]? = some y := hm
    rw [List.getElem?_set] at hm
    by_cases hn : n = m
    · rw [if_pos hn] at hm
      split at hm
      · rw [← Option.some.inj hm]
        exact hr.covered
      · cases hm
    · rw [if_neg hn] at hm
      have hy' := h.covered y (List.mem_of_getElem? hm)
      refine hy'.moves hkept hepoch hr.moves (hr.others y.id fun hid => hn ?_)
      -- two places with one identifier are one place
      have hplace : (s.sessions.map (·.id))[n]? = some x.id := by
        rw [List.getElem?_map, hx]
        rfl
      have hplace' : (s.sessions.map (·.id))[m]? = some x.id := by
        rw [List.getElem?_map, hm, ← hid]
        rfl
      have hlt := (List.getElem?_eq_some_iff.mp hplace).1
      exact (List.getElem?_inj hlt h.ids).mp (hplace.trans hplace'.symm)

/-- A piece of a session, whichever it is. -/
theorem piece_proceeds {s : Service} (h : Answered s) {n : Nat} {x : Session}
    (hx : s.sessions[n]? = some x) {event : Event} (hplace : Service.place event = some n)
    {r : Served} (hr : s.piece x event = some r) (hquiet : ∀ e, r.called ≠ some (.error e))
    (hbinding : s.Binding event) : s.Proceeds x r := by
  have hcovered := h.covered x (List.mem_of_getElem? hx)
  cases event with
  | accept id => cases hr
  | stop => cases hr
  | turn m incoming write entropy fault =>
    cases hphase : x.phase with
    | serving =>
      simp only [Service.piece, hphase] at hr
      cases hr
      exact serveTurn_proceeds h.holds hcovered hphase hquiet
    | _ => simp [Service.piece, hphase] at hr
  | bind m write =>
    cases hphase : x.phase with
    | registered requestId result candidate =>
      simp only [Service.piece, hphase] at hr
      cases hr
      refine bindTurn_proceeds h.holds hcovered hphase (hbinding candidate ?_)
      cases hplace
      simp [Service.pending, hx, hphase]
    | _ => simp [Service.piece, hphase] at hr
  | close m fault =>
    cases hphase : x.phase with
    | closing violation =>
      simp only [Service.piece, hphase] at hr
      cases hr
      exact closeTurn_proceeds h.holds h.loss hcovered hphase hquiet
    | _ => simp [Service.piece, hphase] at hr

/-- A step of a session, or none. -/
theorem Answered.served {s : Service} (h : Answered s) {event : Event}
    (hstep : s.step event = match s.served event with
      | some (n, r) => (s.resume n r, some r)
      | none => (s, none))
    (hquiet : ∀ r, (s.step event).2 = some r → ∀ e, r.called ≠ some (.error e))
    (hbinding : s.Binding event) : Answered (s.step event).1 := by
  cases hserved : s.served event with
  | none =>
    rw [hstep, hserved]
    exact h
  | some served =>
    obtain ⟨n, r⟩ := served
    rw [hserved] at hstep
    rw [hstep] at hquiet ⊢
    obtain ⟨n', hplace, hserved⟩ := Option.bind_eq_some_iff.mp hserved
    obtain ⟨x, hx, hserved⟩ := Option.bind_eq_some_iff.mp hserved
    obtain ⟨r', hr, heq⟩ := Option.map_eq_some_iff.mp hserved
    cases heq
    exact h.resume hx (piece_proceeds h hx hplace hr (hquiet r rfl) hbinding)

/-- **One step of the server.** -/
theorem Answered.step {s : Service} (h : Answered s) {event : Event} (hsmooth : s.Smoothly event)
    (hbinding : s.Binding event) : Answered (s.step event).1 := by
  cases event with
  | accept id =>
    show Answered (if s.stopNow then (s, none) else _ : Service × Option Served).1
    split
    · exact h
    · refine ⟨h.holds, h.loss, ?_, fun x hx => ?_⟩
      · show ((s.sessions ++ [({ id } : Session)]).map Session.id).Nodup
        rw [List.map_append, List.map_singleton]
        refine List.nodup_append.mpr ⟨h.ids, List.nodup_singleton _, fun a ha b hb hab => ?_⟩
        have hfresh : a = id := hab.trans (List.mem_singleton.mp hb)
        exact hsmooth (hfresh ▸ ha)
      · rcases List.mem_append.mp hx with hold | hnew
        · exact h.covered x hold
        · rw [List.mem_singleton.mp hnew]
          exact ⟨fun _ _ _ hserving => (nomatch hserving), fun _ _ hb => (nomatch hb),
            fun _ hb => (nomatch hb)⟩
  | stop => exact ⟨h.holds, h.loss, h.ids, h.covered⟩
  | turn n incoming write entropy fault => exact h.served rfl hsmooth hbinding
  | bind n write => exact h.served rfl hsmooth hbinding
  | close n fault => exact h.served rfl hsmooth hbinding

/-- **No incarnation survives its session**, in a run of the server in which no
call that may save throws, where no live registration is turned away by
`bind_session`. -/
theorem endedSession_fenced {host : Host} (hreach : coordinator.Reaches Quietly host) {impl : Impl}
    (himpl : host.runtime = some impl) (hloss : impl.options.fenceOnSessionLoss = true)
    {s : Service}
    (hs : (server impl host.disk).Reaches (fun s event => s.Smoothly event ∧ s.Binding event) s)
    {x : Session} (hx : x ∈ s.sessions) (hended : x.phase = .ended) {b : SessionBinding}
    (hb : b ∈ x.issued) : ¬ s.impl.state.Live b.participant b.boot b.incarnation := by
  have hstart : Answered (server impl host.disk).init := by
    refine ⟨?_, hloss, List.nodup_nil, fun _ h => (nomatch h)⟩
    have hholds := quietRun_kept hreach
    obtain ⟨disk, runtime⟩ := host
    cases himpl
    exact hholds
  have hanswered := hs.invariant (I := Answered) hstart
    fun s event h hok => h.step hok.1 hok.2
  obtain ⟨-, hkept, -, -⟩ := hanswered.holds.memory s.impl rfl
  rcases (hanswered.covered x hx).issued b hb with hdead | ⟨-, hheld⟩
  · exact hdead.not_live hkept.orderly b.boot
  · unfold Session.held at hheld
    rw [hended] at hheld
    cases hheld

/-! ### Two sessions with one boot -/

/-- A frame comes in on the session at a place. -/
def frameOf (n : Nat) (request : Request) : Event :=
  .turn n (.frame (smallId 50) request) none (testEntropy 8) none

/-- A worker connects, registers a boot and is bound. -/
def bindingRun : List Event := [
  .accept (smallId 61),
  frameOf 0 (.hello (.ok (str "worker"))),
  frameOf 0 (.register (.ok (testRegister 3 (testParticipant "p") (smallId 11)))),
  .bind 0 none]

/-- It disconnects. -/
def lostRun : List Event :=
  bindingRun ++ [.turn 0 .closed none (testEntropy 8) none, .close 0 none]

/-- The epoch advances. The worker connects once more, while its old session is
still open, and registers the same boot in the new epoch. -/
def refusedRun : List Event := bindingRun ++ [
  frameOf 0 (.advance (.ok { attempt := smallId 4, expectedEpoch := smallCounter 1 })),
  .accept (smallId 62),
  frameOf 1 (.hello (.ok (str "worker"))),
  frameOf 1 (.register (.ok { testRegister 5 (testParticipant "p") (smallId 11) with
    expectedEpoch := smallCounter 2 })),
  .bind 1 none,
  .close 1 none]

/-- The host of the runs, a store that was just opened. -/
def startedHost : Host := coordinator.run coordinator.init [testOpen {} 9]

theorem startedHost_reached : coordinator.Reaches Quietly startedHost := by
  refine Machine.leads_run ?_
  decide +kernel

/-- What a session that has ended has registered, and whether it is live. -/
def Service.left (s : Service) (n : Nat) : Option (Bool × List Bool) :=
  s.sessions[n]?.map fun x => (match x.phase with
    | .ended => true
    | _ => false, x.issued.map fun b => decide (s.impl.state.Live b.participant b.boot b.incarnation))

/-- The session at the place has ended, and has registered one incarnation. -/
theorem Service.left_eq {s : Service} {n : Nat} {live : Bool}
    (h : s.left n = some (true, [live])) : ∃ x ∈ s.sessions, x.phase = .ended ∧
      ∃ b ∈ x.issued, decide (s.impl.state.Live b.participant b.boot b.incarnation) = live := by
  obtain ⟨x, hx, heq⟩ := Option.map_eq_some_iff.mp h
  obtain ⟨hphase, hissued⟩ := Prod.mk.inj heq
  refine ⟨x, List.mem_of_getElem? hx, ?_, ?_⟩
  · cases hp : x.phase with
    | ended => rfl
    | _ =>
      rw [hp] at hphase
      cases hphase
  · have hmem : live ∈ x.issued.map fun b =>
        decide (s.impl.state.Live b.participant b.boot b.incarnation) := by
      rw [hissued]
      exact List.mem_singleton_self _
    exact List.mem_map.mp hmem

/-- The incarnation of a worker that disconnects. -/
theorem endedSession_fenced_test : ∃ s : Service, ∃ x ∈ s.sessions, x.phase = .ended ∧
    ∃ b ∈ x.issued, ¬ s.impl.state.Live b.participant b.boot b.incarnation := by
  have hrun : (startedHost.runtime.map fun impl => (decide (impl.options.fenceOnSessionLoss = true ∧
      (server impl startedHost.disk).Allows (fun s event => s.Smoothly event ∧ s.Binding event)
        (server impl startedHost.disk).init lostRun),
      ((server impl startedHost.disk).run (server impl startedHost.disk).init lostRun).left 0)) =
      some (true, some (true, [false])) := by decide +kernel
  obtain ⟨impl, himpl, hvalue⟩ := Option.map_eq_some_iff.mp hrun
  obtain ⟨hallows, hleft⟩ := Prod.mk.inj hvalue
  obtain ⟨hloss, hallows⟩ := of_decide_eq_true hallows
  obtain ⟨x, hx, hended, b, hb, -⟩ := Service.left_eq hleft
  exact ⟨_, x, hx, hended, b, hb, endedSession_fenced startedHost_reached himpl hloss
    (Machine.leads_run hallows) hx hended hb⟩

/-- **A session whose binding was refused** has ended, no call has thrown, and
what it registered is live. -/
theorem refusedRun_live : ∃ host impl s x b, coordinator.Reaches Quietly host ∧
    host.runtime = some impl ∧ impl.options.fenceOnSessionLoss = true ∧
    (server impl host.disk).Reaches (fun s event => s.Smoothly event) s ∧ x ∈ s.sessions ∧
    x.phase = .ended ∧ b ∈ x.issued ∧ s.impl.state.Live b.participant b.boot b.incarnation := by
  have hrun : (startedHost.runtime.map fun impl => (decide (impl.options.fenceOnSessionLoss = true ∧
      (server impl startedHost.disk).Allows (fun s event => s.Smoothly event)
        (server impl startedHost.disk).init refusedRun),
      ((server impl startedHost.disk).run (server impl startedHost.disk).init refusedRun).left 1)) =
      some (true, some (true, [true])) := by decide +kernel
  obtain ⟨impl, himpl, hvalue⟩ := Option.map_eq_some_iff.mp hrun
  obtain ⟨hallows, hleft⟩ := Prod.mk.inj hvalue
  obtain ⟨hloss, hallows⟩ := of_decide_eq_true hallows
  obtain ⟨x, hx, hended, b, hb, hlive⟩ := Service.left_eq hleft
  exact ⟨startedHost, impl, _, x, b, startedHost_reached, himpl, hloss, Machine.leads_run hallows, hx,
    hended, hb, of_decide_eq_true hlive⟩

end FabricEpoch
