import FabricEpoch.CrashRecovery
import FabricEpoch.SessionLoss

/-!
# The server in one order

The threads of a server call one runtime, in any interleaving. What they do to it
is what a sequence of calls does to a coordinator, one call after the other, in the
order of the steps; and nothing is acknowledged that was not answered by one of
these calls.

- `Request.call`, `Outgoing.reply`: the call that a frame asks for, the answer that
  a frame carries;
- `Turned`: what a piece of a session does, as calls;
- `Linear`: what a step of the server does, as calls;
- `serverLinearized`: a run of the server, as a run of the coordinator;
- `issuedOnce`: so no incarnation number is issued on two sessions.
-/

namespace FabricEpoch

open Table Transaction

/-! ## Frames and calls -/

/-- The call that a frame asks for. -/
def Request.call : Request → Option Call
  | .register (.ok request) => some (.register request)
  | .fence (.ok request) => some (.fence request)
  | .revoke (.ok request) => some (.revoke request)
  | .advance (.ok request) => some (.advance request)
  | .retire (.ok request) => some (.retire request)
  | _ => none

/-- The answer of a call that a frame carries. -/
def Outgoing.reply : Outgoing → Option Reply
  | .registerAck result => some (.registered result)
  | .ack reply => some reply
  | _ => none

/-- The answer that a session has still to acknowledge. -/
def Session.Awaits (x : Session) (reply : Reply) : Prop :=
  ∃ requestId result candidate, x.phase = .registered requestId result candidate ∧
    reply = .registered result

/-- The service, as a host. -/
def Service.host (s : Service) : Host := ⟨s.disk, some s.impl⟩

/-- The inputs that a step of a session may stand for. -/
inductive Asks (s : Service) (x : Session) : Event → Input → Prop
  | frame {n : Nat} {requestId : MutationAttemptId} {request : Request}
      {write : Option EpochError} {entropy : Entropy} {fault : Option SaveFault} {c : Call}
      (call : request.call = some c) :
      Asks s x (.turn n (.frame requestId request) write entropy fault) (.call c entropy fault)
  | bind {n : Nat} {write : Option EpochError} {requestId : MutationAttemptId}
      {result : RegistrationResult} {candidate : SessionBinding}
      (phase : x.phase = .registered requestId result candidate) (entropy : Entropy) :
      Asks s x (.bind n write) (.call (.bind candidate) entropy none)
  | close {n : Nat} {fault : Option SaveFault} {violation : Bool} {b : SessionBinding}
      (phase : x.phase = .closing violation) (binding : x.binding = some b) (entropy : Entropy) :
      Asks s x (.close n fault)
        (.call (.close b.id (classifyClose violation s.stopNow)) entropy fault)

/-- A binding, as a token. -/
def SessionBinding.token (b : SessionBinding) : Tokens.Token ParticipantId WorkerBootId where
  party := b.participant
  site := b.boot
  number := b.incarnation.value

/-- The registrations that steps accept, in order. -/
def acceptedIn (steps : List (Input × Answer)) : List Registration :=
  steps.flatMap fun x => acceptedBy x.1 x.2

/-- **What a piece of a session does**, told as calls: at most one, which the event
asks for, and what is sent acknowledges it or what the session has waited to
acknowledge. -/
structure Turned (s : Service) (x : Session) (event : Event) (r : Served)
    (steps : List (Input × Answer)) : Prop where
  history : coordinator.history s.host (steps.map Prod.fst) = steps
  run : coordinator.run s.host (steps.map Prod.fst) = ⟨r.disk, some r.impl⟩
  short : steps.length ≤ 1
  asked : ∀ step ∈ steps, Asks s x event step.1
  calm : (∀ e, r.called ≠ some (.error e)) → ∀ step ∈ steps, Uneventful step
  acks : ∀ frame ∈ r.sent, ∀ reply, frame.2.reply = some reply →
    some (.ok reply) ∈ steps.map Prod.snd ∨ x.Awaits reply
  awaits : ∀ reply, r.session.Awaits reply → some (.ok reply) ∈ steps.map Prod.snd
  issued : ∃ new, r.session.issued = x.issued ++ new ∧
    new.map (·.token) = (acceptedIn steps).map Registration.token

section Pieces

variable {s : Service} {x y : Session} {event : Event} {r : Served} {requestId : MutationAttemptId}
  {write : Option EpochError}

/-- Nothing that waits for its binding is waited for at the top of the loop. -/
theorem Session.not_awaits (h : x.phase = .serving ∨ (∃ violation, x.phase = .closing violation) ∨
    x.phase = .ended) (reply : Reply) : ¬ x.Awaits reply := by
  rintro ⟨id, result, candidate, hphase, -⟩
  rcases h with h | ⟨_, h⟩ | h
  · cases h.symm.trans hphase
  · cases h.symm.trans hphase
  · cases h.symm.trans hphase

/-- A piece that does not touch the runtime. -/
theorem Turned.untouched (himpl : r.impl = s.impl) (hdisk : r.disk = s.disk)
    (hsent : ∀ frame ∈ r.sent, frame.2.reply = none) (hissued : r.session.issued = x.issued)
    (hphase : r.session.phase = .serving ∨ (∃ violation, r.session.phase = .closing violation) ∨
      r.session.phase = .ended) : Turned s x event r [] where
  history := rfl
  run := by
    rw [himpl, hdisk]
    rfl
  short := Nat.zero_le 1
  asked _ h := by cases h
  calm _ _ h := by cases h
  acks frame hframe reply hreply := by
    rw [hsent frame hframe] at hreply
    cases hreply
  awaits reply h := absurd h (Session.not_awaits hphase reply)
  issued := ⟨[], by rw [hissued, List.append_nil], rfl⟩

/-- An answer of the loop to itself: a frame that carries no answer of a call, or
the handler behind the loop. -/
theorem Turned.answer (hserving : y.phase = .serving) (hissued : y.issued = x.issued)
    {frame : Outgoing} (hframe : frame.reply = none) :
    Turned s x event (s.answer y requestId frame write) [] := by
  cases write with
  | none =>
    refine .untouched rfl rfl (fun f hf => ?_) hissued (.inl hserving)
    rw [List.mem_singleton.mp hf]
    exact hframe
  | some e =>
    refine .untouched rfl rfl (fun f hf => ?_) hissued (.inr (.inl ⟨true, rfl⟩))
    rw [List.mem_singleton.mp hf]
    rfl

theorem Turned.caught (hissued : y.issued = x.issued) (e : EpochError) :
    Turned s x event (s.caught y e) [] := by
  refine .untouched rfl rfl (fun f hf => ?_) hissued (.inr (.inl ⟨true, rfl⟩))
  rw [List.mem_singleton.mp hf]
  rfl

theorem Turned.violate (hissued : y.issued = x.issued) (code : Nat) (message : String) :
    Turned s x event (s.violate y requestId code message) [] := by
  refine .untouched rfl rfl (fun f hf => ?_) hissued (.inr (.inl ⟨true, rfl⟩))
  rw [List.mem_singleton.mp hf]
  rfl

/-- A call of the runtime, and what the session makes of its answer. -/
theorem Turned.called {c : Call} {entropy : Entropy} {fault : Option SaveFault}
    {result : Except EpochError Reply} (hasks : Asks s x event (.call c entropy fault))
    (hresult : (callRuntime c entropy fault s.disk s.impl).result = result)
    (himpl : r.impl = (callRuntime c entropy fault s.disk s.impl).impl)
    (hdisk : r.disk = (callRuntime c entropy fault s.disk s.impl).disk)
    (hcalm : ∀ e, result = .error e → r.called = some (.error e))
    (hacks : ∀ frame ∈ r.sent, ∀ reply, frame.2.reply = some reply →
      result = .ok reply ∨ x.Awaits reply)
    (hawaits : ∀ reply, r.session.Awaits reply → result = .ok reply)
    (hissued : ∃ new, r.session.issued = x.issued ++ new ∧ new.map (·.token) =
      (acceptedBy (.call c entropy fault) (some result)).map Registration.token) :
    Turned s x event r [(.call c entropy fault, some result)] := by
  have hstep : coordinator.step s.host (.call c entropy fault) =
      (⟨r.disk, some r.impl⟩, some result) := by
    have hruntime : s.host.runtime = some s.impl := rfl
    rw [coordinator_call hruntime, himpl, hdisk, ← hresult]
    rfl
  constructor
  case history =>
    show [(_, (coordinator.step s.host (.call c entropy fault)).2)] = _
    rw [hstep]
  case run =>
    show (coordinator.step s.host (.call c entropy fault)).1 = _
    rw [hstep]
  case short => exact Nat.le_refl 1
  case asked =>
    intro step hmem
    rw [List.mem_singleton.mp hmem]
    exact hasks
  case calm =>
    intro hquiet step hmem
    rw [List.mem_singleton.mp hmem]
    intro e he
    exact hquiet e (hcalm e (Option.some.inj he))
  case acks =>
    intro frame hframe reply hreply
    rcases hacks frame hframe reply hreply with hok | hwaits
    · rw [hok]
      exact .inl (List.mem_singleton_self _)
    · exact .inr hwaits
  case awaits =>
    intro reply hreply
    rw [hawaits reply hreply]
    exact List.mem_singleton_self _
  case issued =>
    obtain ⟨new, hnew, htokens⟩ := hissued
    refine ⟨new, hnew, ?_⟩
    show _ = (acceptedBy (.call c entropy fault) (some result) ++ []).map Registration.token
    rw [List.append_nil]
    exact htokens

/-- A call that returned, and the frame that answers for it, whether it can be sent
or not. -/
theorem Turned.acknowledged {c : Call} {entropy : Entropy} {fault : Option SaveFault} {reply : Reply}
    (hasks : Asks s x event (.call c entropy fault))
    (hresult : (callRuntime c entropy fault s.disk s.impl).result = .ok reply)
    (hserving : x.phase = .serving) {frame : Outgoing} (hframe : frame.reply = some reply)
    (hnone : (acceptedBy (.call c entropy fault) (some (.ok reply))).map Registration.token = []) :
    Turned s x event { ({ s with
        impl := (callRuntime c entropy fault s.disk s.impl).impl
        disk := (callRuntime c entropy fault s.disk s.impl).disk }).answer x requestId frame write with
      called := some (.ok ()) } [(.call c entropy fault, some (.ok reply))] := by
  cases write with
  | none =>
    refine .called hasks hresult rfl rfl (fun e he => ?_) (fun f hf reply' hreply => ?_)
      (fun reply' hwaits => ?_) ⟨[], (List.append_nil _).symm, hnone.symm⟩
    · cases he
    · rw [List.mem_singleton.mp hf] at hreply
      exact .inl (congrArg Except.ok (Option.some.inj (hframe.symm.trans hreply)))
    · exact absurd hwaits (Session.not_awaits (.inl hserving) reply')
  | some e =>
    refine .called hasks hresult rfl rfl (fun e he => ?_) (fun f hf reply' hreply => ?_)
      (fun reply' hwaits => ?_) ⟨[], (List.append_nil _).symm, hnone.symm⟩
    · cases he
    · rw [List.mem_singleton.mp hf] at hreply
      cases hreply
    · exact absurd hwaits (Session.not_awaits (.inr (.inl ⟨true, rfl⟩)) reply')

/-- A call that threw. -/
theorem Turned.thrown {c : Call} {entropy : Entropy} {fault : Option SaveFault} {e : EpochError}
    (hasks : Asks s x event (.call c entropy fault))
    (hresult : (callRuntime c entropy fault s.disk s.impl).result = .error e) :
    Turned s x event { ({ s with
        impl := (callRuntime c entropy fault s.disk s.impl).impl
        disk := (callRuntime c entropy fault s.disk s.impl).disk }).caught x e with
      called := some (.error e) } [(.call c entropy fault, some (.error e))] := by
  have hnone : acceptedBy (.call c entropy fault) (some (.error e)) = [] := by cases c <;> rfl
  refine .called hasks hresult rfl rfl (fun e' he => ?_) (fun f hf reply hreply => ?_)
    (fun reply hwaits => ?_) ⟨[], (List.append_nil _).symm, ?_⟩
  · cases he
    rfl
  · rw [List.mem_singleton.mp hf] at hreply
    cases hreply
  · exact absurd hwaits (Session.not_awaits (.inr (.inl ⟨true, rfl⟩)) reply)
  · rw [hnone]
    rfl

end Pieces

section Turns

variable {s : Service} {x : Session} {n : Nat} {requestId : MutationAttemptId} {request : Request}
  {write : Option EpochError} {entropy : Entropy} {fault : Option SaveFault}

/-- A payload that is decoded, or the handler. -/
theorem turned_decoded {α : Type} {event : Event} {payload : Except EpochError α} {handle : α → Served}
    (h : ∀ a, payload = .ok a → ∃ steps, Turned s x event (handle a) steps) :
    ∃ steps, Turned s x event (s.decoded x payload handle) steps := by
  cases payload with
  | error e => exact ⟨[], .caught rfl e⟩
  | ok a => exact h a rfl

/-- A call that may save, and its acknowledgement. -/
theorem turned_acknowledge (hserving : x.phase = .serving) {c : Call} (hcall : request.call = some c)
    (hplain : Plain c) : ∃ steps, Turned s x (.turn n (.frame requestId request) write entropy fault)
      (s.acknowledge x requestId (callRuntime c entropy fault s.disk s.impl) .ack write) steps := by
  have hasks : Asks s x (.turn n (.frame requestId request) write entropy fault)
      (.call c entropy fault) := .frame hcall
  have hnone : ∀ result, acceptedBy (.call c entropy fault) (some result) = [] := by
    intro result
    cases hplain <;> rfl
  unfold Service.acknowledge
  cases hresult : (callRuntime c entropy fault s.disk s.impl).result with
  | error e => exact ⟨_, .thrown hasks hresult⟩
  | ok reply =>
    refine ⟨_, .acknowledged hasks hresult hserving rfl ?_⟩
    rw [hnone]
    rfl

/-- The session keeps what the answer accepts. -/
theorem issue_tokens (x : Session) (request : RegisterParticipantRequest)
    (result : RegistrationResult) (entropy : Entropy) (fault : Option SaveFault) :
    ∃ new, (x.issue result (x.candidate request result)).issued = x.issued ++ new ∧
      new.map (·.token) = (acceptedBy (.call (.register request) entropy fault)
        (some (.ok (.registered result)))).map Registration.token := by
  have haccepted : acceptedBy (.call (.register request) entropy fault)
      (some (.ok (.registered result))) = [(request, result)].filter fun x => Registration.Accepted x := rfl
  rw [haccepted]
  by_cases hnew : result.outcome = .registered ∧ result.replayed = false
  · refine ⟨[x.candidate request result], ?_, ?_⟩
    · unfold Session.issue
      rw [if_pos hnew]
    · rw [List.filter_cons_of_pos (by exact decide_eq_true hnew)]
      rfl
  · refine ⟨[], ?_, ?_⟩
    · unfold Session.issue
      rw [if_neg hnew, List.append_nil]
    · rw [List.filter_cons_of_neg (by exact fun h => hnew (of_decide_eq_true h))]
      rfl

/-- **A registration**, up to the binding of the session. -/
theorem turned_register (hserving : x.phase = .serving) (request : RegisterParticipantRequest) :
    ∃ steps, Turned s x (.turn n (.frame requestId (.register (.ok request))) write entropy fault)
      (s.serveRegister x requestId request write fault) steps := by
  have hasks : Asks s x (.turn n (.frame requestId (.register (.ok request))) write entropy fault)
      (.call (.register request) entropy fault) := .frame rfl
  unfold Service.serveRegister
  dsimp only
  cases hr : (transact (applyRegistration request true) fault s.disk s.impl).result with
  | error e =>
    have hresult : (callRuntime (.register request) entropy fault s.disk s.impl).result = .error e := by
      show (transact (applyRegistration request true) fault s.disk s.impl).result.map _ = _
      rw [hr]
      rfl
    exact ⟨_, .thrown hasks hresult⟩
  | ok result =>
    have hresult : (callRuntime (.register request) entropy fault s.disk s.impl).result =
        .ok (.registered result) := by
      show (transact (applyRegistration request true) fault s.disk s.impl).result.map _ = _
      rw [hr]
      rfl
    have hissue := issue_tokens x request result entropy fault
    dsimp only
    split
    · split
      · -- the registration produced no incarnation
        refine ⟨_, .called hasks hresult rfl rfl (fun e' he => ?_) (fun frame hframe reply hreply => ?_)
          (fun reply hwaits => ?_) hissue⟩
        · cases he
        · rw [List.mem_singleton.mp hframe] at hreply
          cases hreply
        · exact absurd hwaits (Session.not_awaits (.inr (.inl ⟨true, rfl⟩)) reply)
      · -- the session goes on to its binding
        refine ⟨_, .called hasks hresult rfl rfl (fun e' he => ?_) (fun frame hframe reply hreply => ?_)
          (fun reply hwaits => ?_) hissue⟩
        · cases he
        · cases hframe
        · obtain ⟨id, result', candidate, hphase, rfl⟩ := hwaits
          cases hphase
          rfl
    · next hnot =>
      refine ⟨_, .acknowledged hasks hresult hserving rfl ?_⟩
      have haccepted : acceptedBy (.call (.register request) entropy fault)
          (some (.ok (.registered result))) = [(request, result)].filter fun x => Registration.Accepted x := rfl
      rw [haccepted, List.filter_cons_of_neg]
      · rfl
      · intro h
        exact hnot (.inl (of_decide_eq_true h).1)

/-- **A frame.** -/
theorem turned_dispatch (hserving : x.phase = .serving) :
    ∃ steps, Turned s x (.turn n (.frame requestId request) write entropy fault)
      (s.dispatch x requestId request write entropy fault) steps := by
  cases request with
  | hello role =>
    refine turned_decoded fun role _ => ?_
    split
    · exact ⟨[], .caught rfl _⟩
    · exact ⟨[], .answer (x := x) (y := { x with helloSeen := true }) hserving rfl rfl⟩
  | shutdown => exact ⟨[], .untouched rfl rfl (fun _ hf => by cases hf) rfl (.inr (.inl ⟨false, rfl⟩))⟩
  | register payload =>
    show ∃ steps, Turned s x _ (if x.binding.isSome then _ else _) steps
    split
    · exact ⟨[], .violate rfl _ _⟩
    · refine turned_decoded fun request hrequest => ?_
      subst hrequest
      exact turned_register hserving request
  | validate payload => exact turned_decoded fun _ _ => ⟨[], .answer hserving rfl rfl⟩
  | fence payload =>
    refine turned_decoded fun request hrequest => ?_
    subst hrequest
    exact turned_acknowledge hserving rfl (.fence request)
  | revoke payload =>
    refine turned_decoded fun request hrequest => ?_
    subst hrequest
    exact turned_acknowledge hserving rfl (.revoke request)
  | advance payload =>
    refine turned_decoded fun request hrequest => ?_
    subst hrequest
    exact turned_acknowledge hserving rfl (.advance request)
  | retire payload =>
    refine turned_decoded fun request hrequest => ?_
    subst hrequest
    exact turned_acknowledge hserving rfl (.retire request)
  | epochState reserved =>
    refine turned_decoded fun reserved _ => ?_
    split
    · exact ⟨[], .caught rfl _⟩
    · exact ⟨[], .answer hserving rfl rfl⟩
  | queryParticipant payload =>
    refine turned_decoded fun participant _ => ?_
    split
    · cases write with
      | none =>
        refine ⟨[], .untouched rfl rfl (fun f hf => ?_) rfl (.inl hserving)⟩
        rw [List.mem_singleton.mp hf]
        rfl
      | some e => exact ⟨[], .untouched rfl rfl (fun _ hf => by cases hf) rfl (.inl hserving)⟩
    · exact ⟨[], .answer hserving rfl rfl⟩
  | snapshot reserved =>
    refine turned_decoded fun reserved _ => ?_
    split
    · exact ⟨[], .caught rfl _⟩
    · exact ⟨[], .answer hserving rfl rfl⟩
  | explain payload => exact turned_decoded fun _ _ => ⟨[], .answer hserving rfl rfl⟩
  | unaccepted => exact ⟨[], .violate rfl _ _⟩

/-- **A turn of the loop.** -/
theorem turned_serve (hserving : x.phase = .serving) (incoming : Incoming) : ∃ steps,
    Turned s x (.turn n incoming write entropy fault) (s.serveTurn x incoming write entropy fault)
      steps := by
  have hfinish : Turned s x (.turn n incoming write entropy fault) (s.finish x) [] :=
    .untouched rfl rfl (fun _ hf => by cases hf) rfl (.inr (.inl ⟨false, rfl⟩))
  unfold Service.serveTurn
  split
  · exact ⟨[], hfinish⟩
  · cases incoming with
    | idle => exact ⟨[], .untouched rfl rfl (fun _ hf => by cases hf) rfl (.inl hserving)⟩
    | closed => exact ⟨[], hfinish⟩
    | broken e => exact ⟨[], .caught rfl e⟩
    | frame requestId request =>
      dsimp only
      split
      · exact ⟨[], .violate rfl _ _⟩
      · exact turned_dispatch hserving

/-- **The binding of a session.** A binding that throws leaves the runtime as it
is. -/
theorem turned_bind {result : RegistrationResult} {candidate : SessionBinding}
    (hphase : x.phase = .registered requestId result candidate) : ∃ steps,
    Turned s x (.bind n write) (s.bindTurn x requestId result candidate write) steps := by
  have hwaits : x.Awaits (.registered result) := ⟨requestId, result, candidate, hphase, rfl⟩
  have hasks : Asks s x (.bind n write) (.call (.bind candidate) (testEntropy 0) none) :=
    .bind hphase _
  unfold Service.bindTurn
  cases hr : s.impl.bindSession candidate with
  | error e => exact ⟨[], .caught rfl e⟩
  | ok bound =>
    obtain ⟨bound, impl'⟩ := bound
    have hcall : callRuntime (.bind candidate) (testEntropy 0) none s.disk s.impl =
        ⟨impl', s.disk, .ok (.bound bound)⟩ := by
      simp only [callRuntime, hr]
    have hresult : (callRuntime (.bind candidate) (testEntropy 0) none s.disk s.impl).result =
        .ok (.bound bound) := by
      rw [hcall]
    have himpl : impl' = (callRuntime (.bind candidate) (testEntropy 0) none s.disk s.impl).impl := by
      rw [hcall]
    have hdisk : s.disk = (callRuntime (.bind candidate) (testEntropy 0) none s.disk s.impl).disk := by
      rw [hcall]
    cases bound with
    | false =>
      refine ⟨_, .called hasks hresult himpl hdisk (fun e he => by cases he)
        (fun frame hframe reply hreply => ?_) (fun reply hawaits => ?_)
        ⟨[], (List.append_nil _).symm, rfl⟩⟩
      · rw [List.mem_singleton.mp hframe] at hreply
        cases hreply
      · exact absurd hawaits (Session.not_awaits (.inr (.inl ⟨true, rfl⟩)) reply)
    | true =>
      cases write with
      | none =>
        refine ⟨_, .called hasks hresult himpl hdisk (fun e he => by cases he)
          (fun frame hframe reply hreply => ?_) (fun reply hawaits => ?_)
          ⟨[], (List.append_nil _).symm, rfl⟩⟩
        · rw [List.mem_singleton.mp hframe] at hreply
          rw [← Option.some.inj hreply]
          exact .inr hwaits
        · exact absurd hawaits (Session.not_awaits (.inl rfl) reply)
      | some e =>
        refine ⟨_, .called hasks hresult himpl hdisk (fun e he => by cases he)
          (fun frame hframe reply hreply => ?_) (fun reply hawaits => ?_)
          ⟨[], (List.append_nil _).symm, rfl⟩⟩
        · rw [List.mem_singleton.mp hframe] at hreply
          cases hreply
        · exact absurd hawaits (Session.not_awaits (.inr (.inl ⟨true, rfl⟩)) reply)

/-- **The closing of a session.** -/
theorem turned_close {violation : Bool} (hphase : x.phase = .closing violation) : ∃ steps,
    Turned s x (.close n fault) (s.closeTurn x violation fault) steps := by
  unfold Service.closeTurn
  cases hbinding : x.binding with
  | none => exact ⟨[], .untouched rfl rfl (fun _ hf => by cases hf) rfl (.inr (.inr rfl))⟩
  | some b =>
    have hasks : Asks s x (.close n fault)
        (.call (.close b.id (classifyClose violation s.stopNow)) (testEntropy 0) fault) :=
      .close hphase hbinding _
    refine ⟨_, .called hasks rfl rfl rfl (fun e he => ?_) (fun frame hframe => by cases hframe)
      (fun reply hawaits => ?_) ⟨[], (List.append_nil _).symm, ?_⟩⟩
    · -- the thread tells of the exception, though nobody else does
      have hclose : ((closeSession b.id (classifyClose violation s.stopNow) fault s.disk
          s.impl).result.map Reply.fenced) = .error e := he
      show some ((closeSession b.id (classifyClose violation s.stopNow) fault s.disk
        s.impl).result.map fun _ => ()) = _
      cases hr : (closeSession b.id (classifyClose violation s.stopNow) fault s.disk s.impl).result with
      | error e' =>
        rw [hr] at hclose
        cases hclose
        rfl
      | ok r =>
        rw [hr] at hclose
        cases hclose
    · exact absurd hawaits (Session.not_awaits (.inr (.inr rfl)) reply)
    · rfl

end Turns

/-! ## A step of the server -/

namespace Service

/-- Some session has still to acknowledge the answer. -/
def Awaits (s : Service) (reply : Reply) : Prop := ∃ x ∈ s.sessions, x.Awaits reply

/-- What was issued, session by session. -/
def issued (s : Service) : List SessionBinding := s.sessions.flatMap (·.issued)

/-- The input that a step of the server stands for is asked for by the session of
its event. -/
def Asked (s : Service) (event : Event) (input : Input) : Prop :=
  ∃ n x, place event = some n ∧ s.sessions[n]? = some x ∧ Asks s x event input

end Service

/-- **A step of the server**, told as calls. -/
structure Linear (s : Service) (event : Event) (steps : List (Input × Answer)) : Prop where
  history : coordinator.history s.host (steps.map Prod.fst) = steps
  run : coordinator.run s.host (steps.map Prod.fst) = (s.step event).1.host
  short : steps.length ≤ 1
  asked : ∀ step ∈ steps, s.Asked event step.1
  calm : (∀ r, (s.step event).2 = some r → ∀ e, r.called ≠ some (.error e)) →
    ∀ step ∈ steps, Uneventful step
  acks : ∀ r, (s.step event).2 = some r → ∀ frame ∈ r.sent, ∀ reply,
    frame.2.reply = some reply → some (.ok reply) ∈ steps.map Prod.snd ∨ s.Awaits reply
  awaits : ∀ reply, (s.step event).1.Awaits reply →
    s.Awaits reply ∨ some (.ok reply) ∈ steps.map Prod.snd
  issued : ((s.step event).1.issued.map (·.token)).Perm
    (s.issued.map (·.token) ++ (acceptedIn steps).map Registration.token)

/-- What one member of a list gains, the list gains. -/
theorem flatMap_set_perm {α β : Type} {f : α → List β} {l : List α} {n : Nat} {x y : α}
    {new : List β} (hx : l[n]? = some x) (hy : f y = f x ++ new) :
    ((l.set n y).flatMap f).Perm (l.flatMap f ++ new) := by
  induction l generalizing n with
  | nil => cases hx
  | cons a l ih =>
    cases n with
    | zero =>
      cases hx
      show (f y ++ l.flatMap f).Perm (f x ++ l.flatMap f ++ new)
      rw [hy, List.append_assoc, List.append_assoc]
      exact List.perm_append_comm.append_left _
    | succ n =>
      show (f a ++ (l.set n y).flatMap f).Perm (f a ++ l.flatMap f ++ new)
      rw [List.append_assoc]
      exact (ih hx).append_left _

/-- **A piece of a session is a step of the server.** -/
theorem Turned.linear {s : Service} {event : Event} {n : Nat} {x : Session} {r : Served}
    {steps : List (Input × Answer)} (h : Turned s x event r steps)
    (hplace : Service.place event = some n) (hx : s.sessions[n]? = some x)
    (hstep : s.step event = (s.resume n r, some r)) : Linear s event steps := by
  have hmem : x ∈ s.sessions := List.mem_of_getElem? hx
  constructor
  case history => exact h.history
  case run =>
    rw [hstep]
    exact h.run
  case short => exact h.short
  case asked => exact fun step hin => ⟨n, x, hplace, hx, h.asked step hin⟩
  case calm =>
    intro hcalm
    refine h.calm (hcalm r ?_)
    rw [hstep]
  case acks =>
    intro r' hr' frame hframe reply hreply
    rw [hstep] at hr'
    cases hr'
    rcases h.acks frame hframe reply hreply with hin | hwaits
    · exact .inl hin
    · exact .inr ⟨x, hmem, hwaits⟩
  case awaits =>
    rintro reply ⟨y, hy, hwaits⟩
    rw [hstep] at hy
    replace hy : y ∈ s.sessions.set n r.session := hy
    rcases List.mem_or_eq_of_mem_set hy with hold | rfl
    · exact .inl ⟨y, hold, hwaits⟩
    · exact .inr (h.awaits reply hwaits)
  case issued =>
    obtain ⟨new, hnew, htokens⟩ := h.issued
    rw [hstep]
    have hperm : ((s.sessions.set n r.session).flatMap (·.issued)).Perm
        (s.sessions.flatMap (·.issued) ++ new) := flatMap_set_perm hx hnew
    have hmap := hperm.map (·.token)
    rw [List.map_append, htokens] at hmap
    exact hmap

/-- **A step of the server that touches no session.** -/
theorem Linear.outside {s : Service} {event : Event} (hhost : (s.step event).1.host = s.host)
    (hanswer : (s.step event).2 = none)
    (hawaits : ∀ reply, (s.step event).1.Awaits reply → s.Awaits reply)
    (hissued : (s.step event).1.issued = s.issued) : Linear s event [] where
  history := rfl
  run := hhost.symm
  short := Nat.zero_le 1
  asked _ h := by cases h
  calm _ _ h := by cases h
  acks r hr := by
    rw [hanswer] at hr
    cases hr
  awaits reply h := .inl (hawaits reply h)
  issued := by
    rw [hissued]
    show (s.issued.map (·.token)).Perm (s.issued.map (·.token) ++ [])
    rw [List.append_nil]

/-- The piece that an event lets a session do. -/
theorem piece_turned {s : Service} {x : Session} {event : Event} {r : Served}
    (hr : s.piece x event = some r) : ∃ steps, Turned s x event r steps := by
  cases event with
  | accept id => cases hr
  | stop => cases hr
  | turn n incoming write entropy fault =>
    cases hphase : x.phase with
    | serving =>
      simp only [Service.piece, hphase] at hr
      cases hr
      exact turned_serve hphase incoming
    | _ => simp [Service.piece, hphase] at hr
  | bind n write =>
    cases hphase : x.phase with
    | registered requestId result candidate =>
      simp only [Service.piece, hphase] at hr
      cases hr
      exact turned_bind hphase
    | _ => simp [Service.piece, hphase] at hr
  | close n fault =>
    cases hphase : x.phase with
    | closing violation =>
      simp only [Service.piece, hphase] at hr
      cases hr
      exact turned_close hphase
    | _ => simp [Service.piece, hphase] at hr

/-- **Every step of the server is at most one call.** -/
theorem step_linear (s : Service) (event : Event) : ∃ steps, Linear s event steps := by
  cases step_case s event with
  | accepted id running step =>
    refine ⟨[], .outside (by rw [step]; rfl) (by rw [step]) (fun reply hwaits => ?_) ?_⟩
    · rw [step] at hwaits
      obtain ⟨x, hx, hwaits⟩ := hwaits
      rcases List.mem_append.mp hx with hold | hnew
      · exact ⟨x, hold, hwaits⟩
      · rw [List.mem_singleton.mp hnew] at hwaits
        exact absurd hwaits (Session.not_awaits (.inl rfl) reply)
    · rw [step]
      show (s.sessions ++ [({ id } : Session)]).flatMap (·.issued) = _
      rw [List.flatMap_append]
      exact List.append_nil _
  | stopped step => exact ⟨[], .outside rfl rfl (fun _ h => h) rfl⟩
  | piece n x r place session piece step =>
    obtain ⟨steps, hturned⟩ := piece_turned piece
    exact ⟨steps, hturned.linear place session step⟩
  | silent step =>
    refine ⟨[], .outside (by rw [step]) (by rw [step]) (fun reply hwaits => ?_) (by rw [step])⟩
    rw [step] at hwaits
    exact hwaits

/-! ## Runs -/

/-- The steps of a run of the server, each told as one call at most, which it asks
for, in the order of the steps. -/
inductive InOrder : Service → List Event → List (Input × Answer) → Prop
  | nil (s : Service) : InOrder s [] []
  | cons {s : Service} {event : Event} {events : List Event} {steps rest : List (Input × Answer)}
      (short : steps.length ≤ 1) (asked : ∀ step ∈ steps, s.Asked event step.1)
      (others : InOrder (s.step event).1 events rest) :
      InOrder s (event :: events) (steps ++ rest)

section Runs

variable {impl : Impl} {disk : Disk}

variable (impl disk) in
/-- **Invariant rule**: a run of the server is a run of the coordinator. -/
theorem run_linear (events : List Event) (s : Service) : ∃ inputs : List Input,
    coordinator.run s.host inputs = ((server impl disk).run s events).host ∧
      InOrder s events (coordinator.history s.host inputs) ∧
      ((server impl disk).Allows Service.Smoothly s events →
        coordinator.Allows Quietly s.host inputs) ∧
      (∀ served, some served ∈ ((server impl disk).history s events).map Prod.snd →
        ∀ frame ∈ served.sent, ∀ reply, frame.2.reply = some reply →
          some (.ok reply) ∈ (coordinator.history s.host inputs).map Prod.snd ∨ s.Awaits reply) ∧
      (((server impl disk).run s events).issued.map (·.token)).Perm
        (s.issued.map (·.token) ++ (accepted s.host inputs).map Registration.token) := by
  induction events generalizing s with
  | nil =>
    refine ⟨[], rfl, .nil s, fun _ => trivial, fun served h => (by cases h), ?_⟩
    show (s.issued.map (·.token)).Perm (s.issued.map (·.token) ++ [])
    rw [List.append_nil]
  | cons event events ih =>
    obtain ⟨steps, hlinear⟩ := step_linear s event
    obtain ⟨inputs, hrun, horder, hquiet, hacks, hissued⟩ := ih (s.step event).1
    rw [← hlinear.run] at hrun horder hquiet hacks hissued
    have hhistory : coordinator.history s.host (steps.map Prod.fst ++ inputs) = steps ++
        coordinator.history (coordinator.run s.host (steps.map Prod.fst)) inputs := by
      rw [Machine.history_append, hlinear.history]
    refine ⟨steps.map Prod.fst ++ inputs, ?_, ?_, ?_, ?_, ?_⟩
    · rw [Machine.run_append]
      exact hrun
    · rw [hhistory]
      exact .cons hlinear.short hlinear.asked horder
    · rintro ⟨hsmooth, hrest⟩
      have hcalm : ∀ r, (s.step event).2 = some r → ∀ e, r.called ≠ some (.error e) := by
        cases event with
        | accept id =>
          intro r hr
          have hnone : (s.step (.accept id)).2 = none := by
            show (if s.stopNow then (s, none) else _ : Service × Option Served).2 = none
            split <;> rfl
          rw [hnone] at hr
          cases hr
        | _ => exact hsmooth
      have hall : coordinator.Allows (fun host input => Uneventful (input,
          (coordinator.step host input).2)) s.host (steps.map Prod.fst ++ inputs) := by
        refine Machine.allows_history.mpr fun step hin => ?_
        rw [hhistory] at hin
        rcases List.mem_append.mp hin with hfirst | hlater
        · exact hlinear.calm hcalm step hfirst
        · have hlate : coordinator.Allows (fun host input => Uneventful (input,
              (coordinator.step host input).2)) _ inputs := hquiet hrest
          exact Machine.allows_history.mp hlate step hlater
      exact hall
    · intro served hin frame hframe reply hreply
      rw [hhistory, List.map_append, List.mem_append]
      rcases List.mem_cons.mp hin with hfirst | hlater
      · rcases hlinear.acks served hfirst.symm frame hframe reply hreply with hok | hwaits
        · exact .inl (.inl hok)
        · exact .inr hwaits
      · rcases hacks served hlater frame hframe reply hreply with hok | hwaits
        · exact .inl (.inr hok)
        · -- the session was waiting already, or its registration was just answered
          rcases hlinear.awaits reply hwaits with hbefore | hnow
          · exact .inr hbefore
          · exact .inl (.inl hnow)
    · rw [accepted_eq_history, hhistory, List.flatMap_append, List.map_append, ← List.append_assoc,
        ← accepted_eq_history]
      exact hissued.trans (hlinear.issued.append_right _)

/-- **The threads of a server act one after the other.** Whatever frames come in on
any number of sessions, in whatever order the threads take their steps, whatever
fails: there is a sequence of calls which, made one by one on the runtime, leads to
the same memory and the same disk; each step of the server is at most one of them,
the one that its frame, its binding or its closing asks for, in the order of the
steps; and every acknowledgement that is sent carries the answer of one of them. -/
theorem serverLinearized (impl : Impl) (disk : Disk) (events : List Event) : ∃ inputs : List Input,
    coordinator.run ⟨disk, some impl⟩ inputs =
        ((server impl disk).run (server impl disk).init events).host ∧
      InOrder (server impl disk).init events (coordinator.history ⟨disk, some impl⟩ inputs) ∧
      ∀ served, some served ∈ ((server impl disk).history (server impl disk).init events).map Prod.snd →
        ∀ frame ∈ served.sent, ∀ reply, frame.2.reply = some reply →
          some (.ok reply) ∈ (coordinator.history ⟨disk, some impl⟩ inputs).map Prod.snd := by
  obtain ⟨inputs, hrun, horder, -, hacks, -⟩ :=
    run_linear impl disk events (server impl disk).init
  refine ⟨inputs, hrun, horder, fun served hin frame hframe reply hreply => ?_⟩
  rcases hacks served hin frame hframe reply hreply with hok | ⟨x, hx, -⟩
  · exact hok
  · cases hx

/-- **However the sessions interleave, no number is issued twice.** In a run of the
server in which no call that may save throws, the registrations that were accepted,
on all sessions, carry distinct incarnation numbers for each participant, and all of
these lie above what was allocated before. -/
theorem issuedOnce {host : Host} (hreach : coordinator.Reaches Quietly host) {impl : Impl}
    (himpl : host.runtime = some impl) {events : List Event}
    (h : (server impl host.disk).Allows Service.Smoothly (server impl host.disk).init events) :
    (((server impl host.disk).run (server impl host.disk).init events).issued.map fun b =>
        (b.participant, b.incarnation)).Nodup ∧
      ∀ b ∈ ((server impl host.disk).run (server impl host.disk).init events).issued,
        (impl.state.record b.participant).nextIncarnation.value ≤ b.incarnation.value := by
  obtain ⟨inputs, -, -, hquiet, -, hperm⟩ :=
    run_linear impl host.disk events (server impl host.disk).init
  have hhost : (server impl host.disk).init.host = host := by
    obtain ⟨disk, runtime⟩ := host
    cases himpl
    rfl
  rw [hhost] at hquiet hperm
  obtain ⟨acts, hruns, hissued⟩ := quietRun_issues hreach (hquiet h)
  rw [Host.state_of_some himpl] at hruns
  have htokens : (((server impl host.disk).run (server impl host.disk).init events).issued.map
      (·.token)).Perm (Tokens.issued acts) := by
    rw [hissued]
    exact hperm
  constructor
  · have hpairs := (htokens.map fun token => (token.party, token.number)).nodup_iff.mpr
      hruns.issued_once
    rw [List.map_map] at hpairs
    refine List.Nodup.of_map (Prod.map id MonotonicCounter.value) ?_
    rw [List.map_map]
    exact hpairs
  · intro b hb
    have hmem : b.token ∈ Tokens.issued acts := htokens.subset (List.mem_map_of_mem hb)
    exact (hruns.issued_between hmem).1

end Runs

/-- Two workers register on two sessions, the second before the first is bound. -/
def crossedRun : List Event := [
  .accept (smallId 61),
  .accept (smallId 62),
  frameOf 0 (.hello (.ok (str "worker"))),
  frameOf 1 (.hello (.ok (str "worker"))),
  frameOf 0 (.register (.ok (testRegister 3 (testParticipant "p") (smallId 11)))),
  frameOf 1 (.register (.ok (testRegister 4 (testParticipant "q") (smallId 12)))),
  .bind 1 none,
  .bind 0 none]

theorem issuedOnce_test : ∃ issued : List SessionBinding, issued.length = 2 ∧
    (issued.map fun b => (b.participant, b.incarnation)).Nodup := by
  have hrun : (startedHost.runtime.map fun impl =>
      (decide ((server impl startedHost.disk).Allows Service.Smoothly
        (server impl startedHost.disk).init crossedRun),
      ((server impl startedHost.disk).run (server impl startedHost.disk).init
        crossedRun).issued.length)) = some (true, 2) := by decide +kernel
  obtain ⟨impl, himpl, hvalue⟩ := Option.map_eq_some_iff.mp hrun
  obtain ⟨hallows, hlength⟩ := Prod.mk.inj hvalue
  exact ⟨_, hlength, (issuedOnce startedHost_reached himpl (of_decide_eq_true hallows)).1⟩

end FabricEpoch
