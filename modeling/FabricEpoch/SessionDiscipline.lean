import FabricEpoch.SessionLoss

/-!
# The discipline of a session

`serve` leaves its loop in many places: by a `break`, by the stop flag, or by an
exception out of decoding, the runtime, encoding or sending, also behind what the
runtime has done. Whichever way a turn takes, the session has answered its frame
and goes on, or it is on its way out and only closes what it has bound. One turn
does neither: the error frame about an unknown participant goes through
`write_error`, which drops what sending throws.

- `Turn`: one step of a session, out of a run of the server;
- `ServeCase`: everything a turn of the loop can come to;
- `Journal`: what the steps of a session add up to, beside the session;
- `session_disciplined`: every session of every run, where no such answer is lost;
- `lostAnswer_unanswered`: a frame without an answer, and the session goes on.
-/

namespace FabricEpoch

open Transaction

/-! ## The steps of one session -/

/-- The session listens behind a HELLO. -/
def Session.listens (x : Session) : Bool :=
  match x.phase with
  | .serving => x.helloSeen
  | _ => false

/-- The answer to a query for an unknown participant can be sent. -/
def Service.Heard (s : Service) : Event → Prop
  | .turn n (.frame _ (.queryParticipant (.ok participant))) write _ _ =>
    s.stopNow = false ∧ (s.impl.findParticipant participant).isNone = true →
      ∀ x ∈ s.sessions[n]?, x.listens = true → write.isNone = true
  | _ => True

/-- `register_participant` is called in the turn and returns `Registered`. -/
def Service.registers (s : Service) (x : Session) (incoming : Incoming)
    (fault : Option SaveFault) : Bool :=
  match incoming with
  | .frame _ (.register (.ok request)) =>
    !s.stopNow && x.helloSeen && x.binding.isNone &&
      match (transact (applyRegistration request true) fault s.disk s.impl).result with
      | .ok result => result.outcome == .registered
      | .error _ => false
  | _ => false

/-- One step of a session: what was in front of it, and what came of it. -/
structure Turn where
  before : Service
  session : Session
  event : Event
  result : Served

namespace Turn

/-- The step of the session at a place, if the step of the server is one. -/
def of (n : Nat) : Service × Event × Option Served → Option Turn
  | (s, event, some result) =>
    if Service.place event = some n then
      s.sessions[n]?.map fun session => ⟨s, session, event, result⟩
    else none
  | _ => none

variable (t : Turn)

/-- The frame that was read. -/
def frame : Option (MutationAttemptId × Request) :=
  match t.event with
  | .turn _ (.frame requestId request) _ _ _ =>
    if t.before.stopNow then none else some (requestId, request)
  | _ => none

/-- A HELLO was accepted. -/
def Greets : Prop :=
  ∃ requestId role, t.frame = some (requestId, .hello (.ok role)) ∧ role.isEmpty = false

/-- Of the runtime the step has seen the epoch and the boot, and it has left the
runtime alone. -/
structure Blind : Prop where
  impl : t.result.impl = t.before.impl
  disk : t.result.disk = t.before.disk
  called : t.result.called = none
  unseen : ∀ impl : Impl, impl.state.currentEpoch = t.before.impl.state.currentEpoch →
    impl.state.coordinatorBoot = t.before.impl.state.coordinatorBoot →
    ∃ r, ({ t.before with impl } : Service).piece t.session t.event = some r ∧
      r.session = t.result.session ∧ r.sent = t.result.sent

/-- `register_participant` was called and has returned `Registered`. -/
def registers : Bool :=
  match t.event with
  | .turn _ incoming _ _ fault => t.before.registers t.session incoming fault
  | _ => false

/-- `bind_session` was called and has returned true. -/
def binds : Bool :=
  match t.event, t.session.phase with
  | .bind _ _, .registered _ _ candidate =>
    match t.before.impl.bindSession candidate with
    | .ok (true, _) => true
    | _ => false
  | _, _ => false

end Turn

/-- The steps of the session at a place, in the order of the run. -/
def turns (n : Nat) (T : List (Service × Event × Option Served)) : List Turn := T.filterMap (Turn.of n)

/-- The identifiers of the frames that were read. -/
def received (ts : List Turn) : List MutationAttemptId := ts.filterMap fun t => t.frame.map Prod.fst

/-- The identifiers of the frames that were sent. -/
def answered (ts : List Turn) : List MutationAttemptId := ts.flatMap fun t => t.result.sent.map Prod.fst

/-! ## What a turn can come to -/

/-- The type of the frame is served, and its payload can be read. -/
def Request.Served : Request → Prop
  | .hello role => ∃ text, role = .ok text ∧ text.isEmpty = false
  | .shutdown => False
  | .register payload => ∃ a, payload = .ok a
  | .validate payload => ∃ a, payload = .ok a
  | .fence payload => ∃ a, payload = .ok a
  | .revoke payload => ∃ a, payload = .ok a
  | .advance payload => ∃ a, payload = .ok a
  | .retire payload => ∃ a, payload = .ok a
  | .epochState reserved => reserved = .ok 0
  | .queryParticipant payload => ∃ a, payload = .ok a
  | .snapshot reserved => reserved = .ok 0
  | .explain payload => ∃ a, payload = .ok a
  | .unaccepted => False

/-- The frame comes behind a HELLO or is one, and a bound session registers
nothing. -/
def Request.Admitted (request : Request) (x : Session) : Prop :=
  (x.helloSeen = true ∨ request.isHello = true) ∧
    ∀ payload, request = .register payload → x.binding = none

/-- **Everything a turn of the loop can come to.** -/
inductive ServeCase (s : Service) (x : Session) (fault : Option SaveFault) :
    Incoming → Option EpochError → Served → Prop
  | idle {write : Option EpochError} : ServeCase s x fault .idle write (s.stay x [])
  | left {incoming : Incoming} {write : Option EpochError} {r : Served} {violation : Bool}
      (phase : r.session.phase = .closing violation) (binding : r.session.binding = x.binding)
      (seen : r.session.helloSeen = x.helloSeen ∨ r.session.helloSeen = true ∧
        ∃ requestId role, incoming = .frame requestId (.hello (.ok role)) ∧ role.isEmpty = false)
      (few : r.sent.length ≤ 1) : ServeCase s x fault incoming write r
  | answered {requestId : MutationAttemptId} {request : Request} {frame : Outgoing} {r : Served}
      (phase : r.session.phase = .serving) (binding : r.session.binding = x.binding)
      (seen : r.session.helloSeen = true) (served : request.Served)
      (admitted : request.Admitted x)
      (sent : r.sent = [(requestId, frame)]) (quiet : ∀ e, r.called ≠ some (.error e))
      (unregistered : s.registers x (.frame requestId request) fault = false) :
      ServeCase s x fault (.frame requestId request) none r
  | awaiting {requestId : MutationAttemptId} {request : RegisterParticipantRequest}
      {write : Option EpochError} {result : RegistrationResult} {candidate : SessionBinding}
      {r : Served} (phase : r.session.phase = .registered requestId result candidate)
      (unbound : x.binding = none) (binding : r.session.binding = none)
      (before : x.helloSeen = true) (seen : r.session.helloSeen = true)
      (sent : r.sent = []) (quiet : ∀ e, r.called ≠ some (.error e)) :
      ServeCase s x fault (.frame requestId (.register (.ok request))) write r
  | lost {requestId : MutationAttemptId} {participant : ParticipantId} {e : EpochError}
      (listening : x.helloSeen = true) (unknown : s.impl.findParticipant participant = none) :
      ServeCase s x fault (.frame requestId (.queryParticipant (.ok participant))) (some e)
        (s.stay x [])

section Serve

variable {s : Service} {x y : Session} {fault : Option SaveFault} {incoming : Incoming}
  {requestId : MutationAttemptId} {request : Request} {write : Option EpochError}

/-- The handler behind the loop. -/
theorem caught_left (s' : Service) (hbinding : y.binding = x.binding)
    (hseen : y.helloSeen = x.helloSeen ∨ y.helloSeen = true ∧
      ∃ requestId role, incoming = .frame requestId (.hello (.ok role)) ∧ role.isEmpty = false)
    (e : EpochError) (called : Option (Except EpochError Unit)) :
    ServeCase s x fault incoming write { s'.caught y e with called } :=
  .left rfl hbinding hseen (Nat.le_refl 1)

theorem violate_left (s' : Service) (hbinding : y.binding = x.binding)
    (hseen : y.helloSeen = x.helloSeen) (code : Nat) (message : String)
    (called : Option (Except EpochError Unit)) :
    ServeCase s x fault incoming write { s'.violate y requestId code message with called } :=
  .left rfl hbinding (.inl hseen) (Nat.le_refl 1)

theorem answer_quiet (s' : Service) (y : Session) (requestId : MutationAttemptId) (frame : Outgoing)
    (write : Option EpochError) (e : EpochError) :
    (s'.answer y requestId frame write).called ≠ some (.error e) := by
  cases write with
  | none => exact fun h => nomatch h
  | some _ => exact fun h => nomatch h

/-- An answer, or the handler behind the loop. -/
theorem answer_case {s' : Service} {frame : Outgoing} {r : Served}
    (hsession : r.session = (s'.answer y requestId frame write).session)
    (hsent : r.sent = (s'.answer y requestId frame write).sent)
    (hquiet : ∀ e, r.called ≠ some (.error e)) (hserving : y.phase = .serving)
    (hbinding : y.binding = x.binding) (hseen : y.helloSeen = true) (hserved : request.Served)
    (hadmitted : request.Admitted x)
    (hunregistered : s.registers x (.frame requestId request) fault = false) :
    ServeCase s x fault (.frame requestId request) write r := by
  cases write with
  | none =>
    have hphase : r.session.phase = .serving := by
      rw [hsession]
      exact hserving
    exact .answered hphase ((congrArg Session.binding hsession).trans hbinding)
      ((congrArg Session.helloSeen hsession).trans hseen) hserved hadmitted hsent hquiet hunregistered
  | some e =>
    have hphase : r.session.phase = .closing true := by
      rw [hsession]
      rfl
    refine .left hphase ((congrArg Session.binding hsession).trans hbinding) ?_ ?_
    · have hnow : r.session.helloSeen = true := (congrArg Session.helloSeen hsession).trans hseen
      rcases hadmitted.1 with hbefore | hhello
      · exact .inl (hnow.trans hbefore.symm)
      · -- only a HELLO is admitted in front of a HELLO
        cases request with
        | hello role =>
          obtain ⟨text, rfl, htext⟩ := hserved
          exact .inr ⟨hnow, requestId, text, rfl, htext⟩
        | _ => cases hhello
    · rw [hsent]
      exact Nat.le_refl 1

theorem decoded_case {α : Type} {payload : Except EpochError α} {handle : α → Served}
    (h : ∀ a, payload = .ok a → ServeCase s x fault incoming write (handle a)) :
    ServeCase s x fault incoming write (s.decoded x payload handle) := by
  cases payload with
  | error e => exact caught_left s rfl (.inl rfl) e none
  | ok a => exact h a rfl

/-- A call that may save, and its acknowledgement. -/
theorem acknowledge_case {α : Type} (hserving : x.phase = .serving) (hseen : x.helloSeen = true)
    (hserved : request.Served) (hadmitted : request.Admitted x)
    (hunregistered : s.registers x (.frame requestId request) fault = false)
    (done : Transacted α) (ack : α → Outgoing) :
    ServeCase s x fault (.frame requestId request) write
      (s.acknowledge x requestId done ack write) := by
  unfold Service.acknowledge
  cases done.result with
  | error e => exact caught_left _ rfl (.inl rfl) e _
  | ok a =>
    exact answer_case rfl rfl (fun e he => (nomatch he)) hserving rfl hseen hserved hadmitted
      hunregistered

/-- A registration, up to the binding of the session. -/
theorem serveRegister_case {request : RegisterParticipantRequest} (hserving : x.phase = .serving)
    (hseen : x.helloSeen = true) (hunbound : x.binding = none) :
    ServeCase s x fault (.frame requestId (.register (.ok request))) write
      (s.serveRegister x requestId request write fault) := by
  unfold Service.serveRegister
  dsimp only
  cases hr : (transact (applyRegistration request true) fault s.disk s.impl).result with
  | error e => exact caught_left _ rfl (.inl rfl) e _
  | ok result =>
    obtain ⟨-, hissued, -, hhello⟩ := Session.issue_frame result (x.candidate request result) x
    dsimp only
    split
    · split
      · refine .left rfl ?_ (.inl ?_) (Nat.le_refl 1)
        · exact hissued
        · exact hhello
      · refine .awaiting rfl hunbound ?_ hseen ?_ rfl fun e he => (nomatch he)
        · exact hissued.trans hunbound
        · exact hhello.trans hseen
    · next hnot =>
      have hserved : (Request.register (.ok request)).Served := ⟨request, rfl⟩
      refine answer_case rfl rfl (fun e he => (nomatch he)) hserving rfl hseen hserved
        ⟨.inl hseen, fun _ _ => hunbound⟩ ?_
      have hother : (result.outcome == .registered) = false := by
        rw [beq_eq_false_iff_ne]
        exact fun h => hnot (.inl h)
      simp [Service.registers, hr, hother]

theorem dispatch_case (hserving : x.phase = .serving)
    (hadmitted : x.helloSeen = true ∨ request.isHello = true) (entropy : Entropy) :
    ServeCase s x fault (.frame requestId request) write
      (s.dispatch x requestId request write entropy fault) := by
  have hseen : request.isHello = false → x.helloSeen = true := fun hother =>
    hadmitted.resolve_right (by rw [hother]; exact Bool.false_ne_true)
  have hfits : (∀ payload, request ≠ .register payload) → request.Admitted x := fun h =>
    ⟨hadmitted, fun payload heq => absurd heq (h payload)⟩
  cases request with
  | hello role =>
    refine decoded_case fun role hrole => ?_
    subst hrole
    split
    · exact caught_left s rfl (.inl rfl) _ none
    · next hnonempty =>
      have htext : role.isEmpty = false := by simpa using hnonempty
      have hserved : (Request.hello (.ok role)).Served := ⟨role, rfl, htext⟩
      exact answer_case rfl rfl (answer_quiet _ _ _ _ _) hserving rfl rfl hserved (hfits nofun) rfl
  | shutdown => exact .left rfl rfl (.inl rfl) (Nat.zero_le 1)
  | register payload =>
    show ServeCase s x fault _ write (if x.binding.isSome then _ else _)
    split
    · exact violate_left s rfl rfl _ _ none
    · next hunbound =>
      refine decoded_case fun request hrequest => ?_
      subst hrequest
      exact serveRegister_case hserving (hseen rfl) (by simpa using hunbound)
  | validate payload =>
    refine decoded_case fun request hrequest => ?_
    exact answer_case rfl rfl (answer_quiet _ _ _ _ _) hserving rfl (hseen rfl) (by exact ⟨_, hrequest⟩)
      (hfits nofun) rfl
  | fence payload =>
    refine decoded_case fun request hrequest => ?_
    exact acknowledge_case hserving (hseen rfl) (by exact ⟨_, hrequest⟩) (hfits nofun)
      rfl _ _
  | revoke payload =>
    refine decoded_case fun request hrequest => ?_
    exact acknowledge_case hserving (hseen rfl) (by exact ⟨_, hrequest⟩) (hfits nofun)
      rfl _ _
  | advance payload =>
    refine decoded_case fun request hrequest => ?_
    exact acknowledge_case hserving (hseen rfl) (by exact ⟨_, hrequest⟩) (hfits nofun)
      rfl _ _
  | retire payload =>
    refine decoded_case fun request hrequest => ?_
    exact acknowledge_case hserving (hseen rfl) (by exact ⟨_, hrequest⟩) (hfits nofun)
      rfl _ _
  | epochState reserved =>
    refine decoded_case fun reserved hreserved => ?_
    split
    · exact caught_left s rfl (.inl rfl) _ none
    · next hzero =>
      have hserved : (Request.epochState (.ok reserved)).Served := congrArg _ (not_not.mp hzero)
      subst hreserved
      exact answer_case rfl rfl (answer_quiet _ _ _ _ _) hserving rfl (hseen rfl) hserved (hfits nofun) rfl
  | queryParticipant payload =>
    refine decoded_case fun participant hparticipant => ?_
    subst hparticipant
    have hserved : (Request.queryParticipant (.ok participant)).Served := ⟨participant, rfl⟩
    cases hfound : s.impl.findParticipant participant with
    | none =>
      dsimp only
      cases write with
      | none =>
        exact .answered hserving rfl (hseen rfl) hserved (hfits nofun) rfl (fun e he => (nomatch he)) rfl
      | some e => exact .lost (hseen rfl) hfound
    | some p =>
      dsimp only
      exact answer_case rfl rfl (answer_quiet _ _ _ _ _) hserving rfl (hseen rfl) hserved (hfits nofun) rfl
  | snapshot reserved =>
    refine decoded_case fun reserved hreserved => ?_
    split
    · exact caught_left s rfl (.inl rfl) _ none
    · next hzero =>
      have hserved : (Request.snapshot (.ok reserved)).Served := congrArg _ (not_not.mp hzero)
      subst hreserved
      exact answer_case rfl rfl (answer_quiet _ _ _ _ _) hserving rfl (hseen rfl) hserved (hfits nofun) rfl
  | explain payload =>
    refine decoded_case fun request hrequest => ?_
    exact answer_case rfl rfl (answer_quiet _ _ _ _ _) hserving rfl (hseen rfl) (by exact ⟨_, hrequest⟩)
      (hfits nofun) rfl
  | unaccepted => exact violate_left s rfl rfl _ _ none

/-- **A turn of the loop.** -/
theorem serveTurn_case (s : Service) (hserving : x.phase = .serving) (incoming : Incoming)
    (write : Option EpochError) (entropy : Entropy) (fault : Option SaveFault) :
    (s.stopNow = true ∧ s.serveTurn x incoming write entropy fault = s.finish x) ∨
      s.stopNow = false ∧ ServeCase s x fault incoming write
        (s.serveTurn x incoming write entropy fault) := by
  unfold Service.serveTurn
  cases hstop : s.stopNow with
  | true => exact .inl ⟨rfl, if_pos rfl⟩
  | false =>
    refine .inr ⟨rfl, ?_⟩
    rw [if_neg Bool.false_ne_true]
    cases incoming with
    | idle => exact .idle
    | closed => exact .left rfl rfl (.inl rfl) (Nat.zero_le 1)
    | broken e => exact caught_left s rfl (.inl rfl) e none
    | frame requestId request =>
      dsimp only
      split
      · exact violate_left s rfl rfl _ _ none
      · next hnot =>
        refine dispatch_case hserving ?_ entropy
        cases hseen : x.helloSeen with
        | true => exact .inl rfl
        | false =>
          right
          simpa [hseen] using hnot

end Serve

/-! ## In front of a HELLO -/

/-- Until a HELLO is accepted, a session has nothing and waits for nothing. -/
structure Session.Unseen (x : Session) : Prop where
  hello : x.helloSeen = false
  unbound : x.binding = none
  waiting : ∀ requestId result candidate, x.phase ≠ .registered requestId result candidate

/-- The step of such a session, over any service that has the same epoch and boot. -/
theorem Session.Unseen.piece {s : Service} {x : Session} (h : x.Unseen) {event : Event} {r : Served}
    (hr : s.piece x event = some r) :
    ∃ y sent, ∀ s' : Service, s'.stopNow = s.stopNow →
      s'.impl.state.currentEpoch = s.impl.state.currentEpoch →
      s'.impl.state.coordinatorBoot = s.impl.state.coordinatorBoot →
      s'.piece x event = some (s'.stay y sent) := by
  cases event with
  | accept id => cases hr
  | stop => cases hr
  | bind n write =>
    cases hphase : x.phase with
    | registered requestId result candidate => exact absurd hphase (h.waiting _ _ _)
    | _ => simp [Service.piece, hphase] at hr
  | close n fault =>
    cases hphase : x.phase with
    | closing violation =>
      refine ⟨{ x with phase := .ended }, [], fun s' _ _ _ => ?_⟩
      simp only [Service.piece, hphase, Service.closeTurn, h.unbound]
    | _ => simp [Service.piece, hphase] at hr
  | turn n incoming write entropy fault =>
    cases hphase : x.phase with
    | serving =>
      simp only [Service.piece, hphase, Option.some.injEq] at hr ⊢
      unfold Service.serveTurn at hr ⊢
      cases hstop : s.stopNow with
      | true =>
        refine ⟨x.leave false, [], fun s' hs' _ _ => ?_⟩
        rw [hs', if_pos rfl]
        rfl
      | false =>
        -- the turn looks at the frame, and a HELLO at the epoch and the boot
        have hkeep : ∀ (y : Session) (sent : List (MutationAttemptId × Outgoing)) (served : Service → Served),
            (∀ s' : Service, s'.impl.state.currentEpoch = s.impl.state.currentEpoch →
              s'.impl.state.coordinatorBoot = s.impl.state.coordinatorBoot →
              served s' = s'.stay y sent) →
            ∃ y sent, ∀ s' : Service, s'.stopNow = false →
              s'.impl.state.currentEpoch = s.impl.state.currentEpoch →
              s'.impl.state.coordinatorBoot = s.impl.state.coordinatorBoot →
              (if s'.stopNow = true then s'.finish x else served s') = s'.stay y sent := by
          intro y sent served hserved
          refine ⟨y, sent, fun s' hs' hepoch hboot => ?_⟩
          rw [hs', if_neg Bool.false_ne_true, hserved s' hepoch hboot]
        cases incoming with
        | idle => exact hkeep x [] _ fun _ _ _ => rfl
        | closed => exact hkeep (x.leave false) [] _ fun _ _ _ => rfl
        | broken e => exact hkeep (x.leave true) _ _ fun _ _ _ => rfl
        | frame requestId request =>
          dsimp only
          cases hhello : request.isHello with
          | false =>
            refine hkeep (x.leave true) [(requestId, .error 1 "first message must be HELLO")] _
              fun s' _ _ => ?_
            rw [h.hello]
            rfl
          | true =>
            cases request with
            | hello role =>
              rw [h.hello]
              cases role with
              | error e => exact hkeep (x.leave true) _ _ fun _ _ _ => rfl
              | ok text =>
                cases htext : text.isEmpty with
                | true =>
                  refine hkeep (x.leave true) (s.caught x (malformed "HELLO carries an empty role")).sent _
                    fun s' _ _ => ?_
                  show (if text.isEmpty = true then _ else _) = _
                  rw [if_pos htext]
                  rfl
                | false =>
                  cases write with
                  | none =>
                    refine hkeep { x with helloSeen := true } [(requestId, .helloAck
                      s.impl.state.currentEpoch s.impl.state.coordinatorBoot x.id)] _
                        fun s' hepoch hboot => ?_
                    show (if text.isEmpty = true then _ else _) = _
                    rw [htext, if_neg Bool.false_ne_true, hepoch, hboot]
                    rfl
                  | some e =>
                    refine hkeep (({ x with helloSeen := true } : Session).leave true)
                      (s.caught x e).sent _ fun s' _ _ => ?_
                    show (if text.isEmpty = true then _ else _) = _
                    rw [htext, if_neg Bool.false_ne_true]
                    rfl
            | _ => cases hhello
    | _ => simp [Service.piece, hphase] at hr

/-- **No request reaches the runtime in front of a HELLO.** -/
theorem Turn.blind {t : Turn} (h : t.session.Unseen)
    (hpiece : t.before.piece t.session t.event = some t.result) : t.Blind := by
  obtain ⟨y, sent, hsame⟩ := h.piece hpiece
  have hresult : t.result = t.before.stay y sent :=
    Option.some.inj (hpiece.symm.trans (hsame t.before rfl rfl rfl))
  refine ⟨?_, ?_, ?_, fun impl hepoch hboot => ?_⟩
  · rw [hresult]; rfl
  · rw [hresult]; rfl
  · rw [hresult]; rfl
  · refine ⟨_, hsame { t.before with impl } rfl hepoch hboot, ?_, ?_⟩
    · rw [hresult]; rfl
    · rw [hresult]; rfl

/-! ## What the steps of a session add up to -/

namespace Turn

variable (t : Turn)

/-- The session leaves its loop. -/
def Leaves : Prop := ∃ violation, t.result.session.phase = .closing violation

/-- Behind such a step the session goes on: what came in was served, nothing was
thrown, and what it has answered could be sent. -/
def Fine : Prop :=
  match t.event with
  | .turn _ incoming write _ _ => t.before.stopNow = false ∧ (incoming = .idle ∨
      ∃ requestId request, incoming = .frame requestId request ∧ request.Served ∧
        request.Admitted t.session ∧ (∀ e, t.result.called ≠ some (.error e)) ∧
        (t.result.session.phase = .serving → write = none))
  | .bind _ write => t.binds = true ∧ write = none
  | _ => True

/-- The last step closes the session that is bound, or does nothing. -/
def Closes : Prop :=
  t.frame = none ∧ t.result.sent = [] ∧
    match t.session.binding with
    | none => t.result.impl = t.before.impl ∧ t.result.disk = t.before.disk
    | some binding => ∃ reason fault,
        t.result.impl = (closeSession binding.id reason fault t.before.disk t.before.impl).impl ∧
        t.result.disk = (closeSession binding.id reason fault t.before.disk t.before.impl).disk

end Turn

/-- A session that goes on has answered every frame it has read, one by one and in
order, but for the one whose registration is to be bound. A session that has left
has answered all but the last one, and may have sent an error frame. -/
def Session.Answers (x : Session) (received answered : List MutationAttemptId) : Prop :=
  match x.phase with
  | .serving => answered = received
  | .registered requestId _ _ => received = answered ++ [requestId]
  | _ => ∃ ids last tail, received = ids ++ last ∧ answered = ids ++ tail ∧ last.length ≤ 1 ∧
      tail.length ≤ 1

/-- **The discipline of a session**, over all its steps. -/
structure Disciplined (x : Session) (ts : List Turn) : Prop where
  greeted : ∀ pre t post, ts = pre ++ t :: post → t.Blind ∨ ∃ h ∈ pre, h.Greets
  registered : (ts.filter Turn.registers).length ≤ 1
  bound : (ts.filter Turn.binds).length ≤ 1
  answers : x.Answers (received ts) (answered ts)
  fine : ∀ t ∈ ts, ¬ t.Leaves → t.Fine
  left : ∀ pre t post, ts = pre ++ t :: post → t.Leaves →
    post = [] ∨ ∃ c, post = [c] ∧ c.Closes ∧ c.session = t.result.session

/-- The discipline, and what the session is in on the way. -/
structure Journal (x : Session) (ts : List Turn) : Prop extends Disciplined x ts where
  seen : x.helloSeen = true → ∃ h ∈ ts, h.Greets
  unseen : x.helloSeen = false → x.Unseen
  waiting : ∀ requestId result candidate, x.phase = .registered requestId result candidate →
    x.binding = none
  unregistered : x.phase = .serving → x.binding = none → ts.filter Turn.registers = []
  unbound : x.binding = none → ts.filter Turn.binds = []
  inside : x.phase = .serving ∨ (∃ requestId result candidate,
    x.phase = .registered requestId result candidate) → ∀ t ∈ ts, ¬ t.Leaves
  leaving : ∀ violation, x.phase = .closing violation →
    ∃ pre t, ts = pre ++ [t] ∧ t.result.session = x ∧ ∀ t' ∈ pre, ¬ t'.Leaves

/-- The last step, or one in front of it. -/
theorem snoc_split {α : Type} {l pre post : List α} {a b : α} (h : l ++ [b] = pre ++ a :: post) :
    post = [] ∧ pre = l ∧ a = b ∨ ∃ post', post = post' ++ [b] ∧ l = pre ++ a :: post' := by
  rcases List.eq_nil_or_concat post with rfl | ⟨post', c, rfl⟩
  · obtain ⟨hl, hb⟩ := List.append_inj' h rfl
    exact .inl ⟨rfl, hl.symm, (List.singleton_inj.mp hb).symm⟩
  · rw [List.concat_eq_append, ← List.cons_append, ← List.append_assoc] at h
    obtain ⟨hl, hb⟩ := List.append_inj' h rfl
    exact .inr ⟨post', by rw [List.concat_eq_append, List.singleton_inj.mp hb], hl⟩

section Steps

variable {x : Session} {ts : List Turn} {t : Turn}

/-- Nothing has been asked in front of a HELLO, the next step included. -/
theorem Journal.greeted_snoc (h : Journal t.session ts)
    (hpiece : t.before.piece t.session t.event = some t.result) (pre : List Turn) (t' : Turn)
    (post : List Turn) (heq : ts ++ [t] = pre ++ t' :: post) :
    t'.Blind ∨ ∃ h ∈ pre, h.Greets := by
  rcases snoc_split heq with ⟨-, rfl, rfl⟩ | ⟨post', -, hold⟩
  · cases hseen : t'.session.helloSeen with
    | true => exact .inr (h.seen hseen)
    | false => exact .inl (Turn.blind (h.unseen hseen) hpiece)
  · exact h.greeted pre t' post' hold

/-- A session that is in its loop has not left it before. -/
theorem Journal.left_snoc (hinside : ∀ t' ∈ ts, ¬ t'.Leaves) (pre : List Turn) (t' : Turn)
    (post : List Turn) (heq : ts ++ [t] = pre ++ t' :: post) (hleaves : t'.Leaves) :
    post = [] ∨ ∃ c, post = [c] ∧ c.Closes ∧ c.session = t'.result.session := by
  rcases snoc_split heq with ⟨hpost, -, -⟩ | ⟨post', -, hold⟩
  · exact .inl hpost
  · refine absurd hleaves (hinside t' ?_)
    rw [hold]
    exact List.mem_append_right _ (List.mem_cons_self ..)

theorem received_snoc (ts : List Turn) (t : Turn) :
    received (ts ++ [t]) = received ts ++ (t.frame.map Prod.fst).toList := by
  unfold received
  rw [List.filterMap_append]
  congr 1

theorem answered_snoc (ts : List Turn) (t : Turn) :
    answered (ts ++ [t]) = answered ts ++ t.result.sent.map Prod.fst := by
  unfold answered
  rw [List.flatMap_append, List.flatMap_singleton]

/-- What happens once has not happened before. -/
theorem filter_snoc_le {p : Turn → Bool} (hle : (ts.filter p).length ≤ 1)
    (hfirst : p t = true → ts.filter p = []) : ((ts ++ [t]).filter p).length ≤ 1 := by
  rw [List.filter_append]
  cases hp : p t with
  | false => simpa [hp] using hle
  | true => simp [hp, hfirst hp]

theorem filter_snoc_nil {p : Turn → Bool} (hnil : ts.filter p = []) (hp : p t = false) :
    (ts ++ [t]).filter p = [] := by
  simp [List.filter_append, hnil, hp]

theorem mem_snoc {a b : Turn} (h : a ∈ ts ++ [b]) : a ∈ ts ∨ a = b := by
  simpa using h

/-- A bound session registers nothing. -/
theorem Turn.registers_bound {b : SessionBinding} (h : t.session.binding = some b) :
    t.registers = false := by
  unfold Turn.registers
  split
  · unfold Service.registers
    split
    · simp [h]
    · rfl
  · rfl

/-- Only a session that waits for it is bound. -/
theorem Turn.binds_waiting (h : t.binds = true) :
    ∃ requestId result candidate, t.session.phase = .registered requestId result candidate := by
  unfold Turn.binds at h
  split at h
  · next hphase => exact ⟨_, _, _, hphase⟩
  · cases h

/-- **A step of a session that is in its loop**, whatever it comes to. -/
theorem Journal.snoc (h : Journal t.session ts)
    (hpiece : t.before.piece t.session t.event = some t.result)
    (hloop : t.session.phase = .serving ∨ ∃ requestId result candidate,
      t.session.phase = .registered requestId result candidate)
    (hregisters : t.registers = true → t.session.phase = .serving)
    (hunregistered : t.result.session.phase = .serving → t.result.session.binding = none →
      t.session.phase = .serving ∧ t.registers = false)
    (hbinds : t.binds = true → t.result.session.binding ≠ none)
    (hbinding : t.binds = false → t.result.session.binding = t.session.binding)
    (hseen : t.result.session.helloSeen = t.session.helloSeen ∨
      t.result.session.helloSeen = true ∧ t.Greets)
    (hwaiting : ∀ requestId result candidate,
      t.result.session.phase = .registered requestId result candidate →
        t.result.session.binding = none ∧ t.result.session.helloSeen = true)
    (hanswers : t.result.session.Answers (received (ts ++ [t])) (answered (ts ++ [t])))
    (hfine : ¬ t.Leaves → t.Fine) : Journal t.result.session (ts ++ [t]) := by
  have hinside := h.inside hloop
  have hboth : t.binds = true → t.session.binding = none ∧ t.session.helloSeen = true := by
    intro hbound
    obtain ⟨requestId, result, candidate, hphase⟩ := Turn.binds_waiting hbound
    refine ⟨h.waiting _ _ _ hphase, ?_⟩
    by_contra hunseen
    exact (h.unseen (Bool.not_eq_true _ ▸ hunseen)).waiting _ _ _ hphase
  constructor
  case toDisciplined =>
    constructor
    case greeted => exact h.greeted_snoc hpiece
    case registered =>
      refine filter_snoc_le h.registered fun hr => h.unregistered (hregisters hr) ?_
      cases hbound : t.session.binding with
      | none => rfl
      | some b =>
        rw [Turn.registers_bound hbound] at hr
        cases hr
    case bound => exact filter_snoc_le h.bound fun hb => h.unbound (hboth hb).1
    case answers => exact hanswers
    case fine =>
      intro t' ht' hstays
      rcases mem_snoc ht' with hold | rfl
      · exact h.fine t' hold hstays
      · exact hfine hstays
    case left => exact Journal.left_snoc hinside
  case seen =>
    intro hnow
    rcases hseen with hsame | ⟨-, hgreets⟩
    · obtain ⟨g, hg, hgreets⟩ := h.seen (hsame ▸ hnow)
      exact ⟨g, List.mem_append_left _ hg, hgreets⟩
    · exact ⟨t, List.mem_append_right _ (List.mem_singleton_self t), hgreets⟩
  case unseen =>
    intro hnot
    have hbefore : t.session.helloSeen = false := by
      rcases hseen with hsame | ⟨hnow, -⟩
      · rw [← hsame, hnot]
      · rw [hnot] at hnow
        cases hnow
    have hfree : t.binds = false := by
      by_contra hbound
      rw [(hboth (Bool.not_eq_false _ ▸ hbound)).2] at hbefore
      cases hbefore
    refine ⟨hnot, (hbinding hfree).trans (h.unseen hbefore).unbound, fun _ _ _ hphase => ?_⟩
    rw [(hwaiting _ _ _ hphase).2] at hnot
    cases hnot
  case waiting => exact fun _ _ _ hphase => (hwaiting _ _ _ hphase).1
  case unregistered =>
    intro hserving hnone
    obtain ⟨hbefore, hfree⟩ := hunregistered hserving hnone
    have hunbound : t.binds = false := by
      by_contra hbound
      exact hbinds (Bool.not_eq_false _ ▸ hbound) hnone
    exact filter_snoc_nil (h.unregistered hbefore ((hbinding hunbound).symm.trans hnone)) hfree
  case unbound =>
    intro hnone
    have hfree : t.binds = false := by
      by_contra hbound
      exact hbinds (Bool.not_eq_false _ ▸ hbound) hnone
    exact filter_snoc_nil (h.unbound ((hbinding hfree).symm.trans hnone)) hfree
  case inside =>
    intro hstays t' ht'
    rcases mem_snoc ht' with hold | rfl
    · exact hinside t' hold
    · rintro ⟨violation, hclosing⟩
      rcases hstays with hserving | ⟨_, _, _, hphase⟩
      · cases hclosing.symm.trans hserving
      · cases hclosing.symm.trans hphase
  case leaving => exact fun _ _ => ⟨ts, t, rfl, rfl, hinside⟩

/-- A session that has left its loop has answered all but the last frame. -/
theorem Journal.answers_left (h : Journal t.session ts) (hleaves : t.Leaves)
    (hloop : t.session.phase = .serving ∨ t.frame = none ∧ ∃ requestId result candidate,
      t.session.phase = .registered requestId result candidate)
    (hfew : t.result.sent.length ≤ 1) :
    t.result.session.Answers (received (ts ++ [t])) (answered (ts ++ [t])) := by
  obtain ⟨violation, hclosing⟩ := hleaves
  have hanswers := h.answers
  unfold Session.Answers at hanswers ⊢
  rw [hclosing, received_snoc, answered_snoc]
  rcases hloop with hserving | ⟨hframe, requestId, result, candidate, hwaiting⟩
  · rw [hserving] at hanswers
    refine ⟨received ts, _, _, rfl, by rw [hanswers], ?_, by rwa [List.length_map]⟩
    cases t.frame <;> simp
  · rw [hwaiting] at hanswers
    refine ⟨answered ts, [requestId], _, ?_, rfl, Nat.le_refl 1, by rwa [List.length_map]⟩
    rw [hframe]
    exact (List.append_nil _).trans hanswers

/-- **A turn of the loop.** -/
theorem Journal.turn {s : Service} (h : Journal x ts) (hserving : x.phase = .serving) {n : Nat}
    {incoming : Incoming} {write : Option EpochError} {entropy : Entropy} {fault : Option SaveFault}
    (hheard : ∀ requestId participant, incoming = .frame requestId (.queryParticipant (.ok participant)) →
      s.stopNow = false → s.impl.findParticipant participant = none → x.helloSeen = true →
      write = none) :
    Journal (s.serveTurn x incoming write entropy fault).session
      (ts ++ [⟨s, x, .turn n incoming write entropy fault,
        s.serveTurn x incoming write entropy fault⟩]) := by
  have hpiece : s.piece x (.turn n incoming write entropy fault) =
      some (s.serveTurn x incoming write entropy fault) := by
    simp only [Service.piece, hserving]
  have hcase := serveTurn_case s hserving incoming write entropy fault
  generalize s.serveTurn x incoming write entropy fault = r at hpiece hcase ⊢
  obtain ⟨t, ht⟩ : ∃ t : Turn, t = ⟨s, x, .turn n incoming write entropy fault, r⟩ := ⟨_, rfl⟩
  have hunbinds : t.binds = false := by rw [ht]; rfl
  have hnobinding : t.binds = true → t.result.session.binding ≠ none := by
    rw [hunbinds]
    intro hbinds
    cases hbinds
  rw [← ht]
  rcases hcase with ⟨hstop, hr⟩ | ⟨hstop, hcase⟩
  · -- the stop flag is up: the frame is not read
    have hleaves : t.Leaves := by rw [ht, hr]; exact ⟨false, rfl⟩
    subst ht hr
    exact Journal.snoc h hpiece (.inl hserving) (fun _ => hserving) (fun hphase => by cases hphase)
      hnobinding (fun _ => rfl) (.inl rfl) (fun _ _ _ hphase => by cases hphase)
      (h.answers_left hleaves (.inl hserving) (Nat.zero_le 1)) fun hstays => absurd hleaves hstays
  have hframe : ∀ requestId request, incoming = .frame requestId request →
      t.frame = some (requestId, request) := by
    rintro requestId request rfl
    rw [ht]
    show (if s.stopNow = true then none else some (requestId, request)) = _
    rw [hstop, if_neg Bool.false_ne_true]
  have hanswers := h.answers
  unfold Session.Answers at hanswers
  rw [hserving] at hanswers
  cases hcase with
  | idle =>
    subst ht
    refine Journal.snoc h hpiece (.inl hserving) (fun _ => hserving) (fun _ _ => ⟨hserving, rfl⟩)
      hnobinding (fun _ => rfl) (.inl rfl) (fun _ _ _ hphase => ?_) ?_
      fun _ => ⟨hstop, .inl rfl⟩
    · cases hserving.symm.trans hphase
    · show Session.Answers x _ _
      unfold Session.Answers
      rw [hserving, received_snoc, answered_snoc, hanswers]
      rfl
  | @left _ _ _ violation phase binding seen few =>
    have hleaves : t.Leaves := by rw [ht]; exact ⟨violation, phase⟩
    subst ht
    refine Journal.snoc h hpiece (.inl hserving) (fun _ => hserving) (fun hphase => ?_) hnobinding
      (fun _ => binding) ?_ (fun _ _ _ hphase => ?_) (h.answers_left hleaves (.inl hserving) few)
      fun hstays => absurd hleaves hstays
    · cases phase.symm.trans hphase
    · rcases seen with hsame | ⟨hnow, requestId, role, rfl, hrole⟩
      · exact .inl hsame
      · exact .inr ⟨hnow, requestId, role, hframe _ _ rfl, hrole⟩
    · cases phase.symm.trans hphase
  | @answered requestId request frame _ phase binding seen served admitted sent quiet unregistered =>
    have hread := hframe _ _ rfl
    subst ht
    refine Journal.snoc h hpiece (.inl hserving) (fun _ => hserving)
      (fun _ _ => ⟨hserving, by exact unregistered⟩) hnobinding (fun _ => binding) ?_
      (fun _ _ _ hphase => ?_) ?_ fun _ => ⟨hstop, .inr ⟨requestId, request, rfl, served, admitted,
        quiet, fun _ => rfl⟩⟩
    · rcases admitted.1 with hbefore | hhello
      · exact .inl (seen.trans hbefore.symm)
      · cases request with
        | hello role =>
          obtain ⟨text, rfl, htext⟩ := served
          exact .inr ⟨seen, requestId, text, hread, htext⟩
        | _ => cases hhello
    · cases phase.symm.trans hphase
    · unfold Session.Answers
      rw [phase, received_snoc, answered_snoc, hread, sent, hanswers]
      rfl
  | @awaiting requestId request _ result candidate _ phase unbound binding before seen sent quiet =>
    have hread := hframe _ _ rfl
    subst ht
    refine Journal.snoc h hpiece (.inl hserving) (fun _ => hserving) (fun hphase => ?_) hnobinding
      (fun _ => binding.trans unbound.symm) (.inl (seen.trans before.symm)) (fun _ _ _ _ => ⟨binding, seen⟩)
      ?_ fun _ => ⟨hstop, .inr ⟨requestId, .register (.ok request), rfl, ⟨request, rfl⟩,
        ⟨.inl before, fun _ _ => unbound⟩, quiet, fun hphase => ?_⟩⟩
    · cases phase.symm.trans hphase
    · unfold Session.Answers
      rw [phase, received_snoc, answered_snoc, hread, sent, hanswers]
      exact congrArg (· ++ [requestId]) (List.append_nil _).symm
    · cases phase.symm.trans hphase
  | lost listening unknown =>
    have hnone := hheard _ _ rfl hstop unknown listening
    cases hnone

/-- **The turn of `bind_session`.** -/
theorem Journal.bind {s : Service} (h : Journal x ts) {n : Nat} {requestId : MutationAttemptId}
    {result : RegistrationResult} {candidate : SessionBinding} {write : Option EpochError}
    (hwaiting : x.phase = .registered requestId result candidate) :
    Journal (s.bindTurn x requestId result candidate write).session
      (ts ++ [⟨s, x, .bind n write, s.bindTurn x requestId result candidate write⟩]) := by
  have hpiece : s.piece x (.bind n write) = some (s.bindTurn x requestId result candidate write) := by
    simp only [Service.piece, hwaiting]
  obtain ⟨t, ht⟩ : ∃ t : Turn, t = ⟨s, x, .bind n write, s.bindTurn x requestId result candidate
    write⟩ := ⟨_, rfl⟩
  have hseen : x.helloSeen = true := by
    by_contra hunseen
    exact (h.unseen (Bool.not_eq_true _ ▸ hunseen)).waiting _ _ _ hwaiting
  have hloop : x.phase = .serving ∨ ∃ requestId result candidate,
      x.phase = .registered requestId result candidate := .inr ⟨_, _, _, hwaiting⟩
  have hnone := h.waiting _ _ _ hwaiting
  have hanswers := h.answers
  unfold Session.Answers at hanswers
  rw [hwaiting] at hanswers
  have hbinds : t.binds = match s.impl.bindSession candidate with
      | .ok (true, _) => true
      | _ => false := by
    rw [ht]
    simp only [Turn.binds, hwaiting]
  rw [← ht]
  -- either way out of the loop
  have haway : (∃ s' frame, s.bindTurn x requestId result candidate write =
      Service.stay s' (x.leave true) [frame]) → t.binds = false →
      Journal (s.bindTurn x requestId result candidate write).session (ts ++ [t]) := by
    rintro ⟨s', frame, hr⟩ hfree
    have hleaves : t.Leaves := by rw [ht, hr]; exact ⟨true, rfl⟩
    subst ht
    simp only [hr] at hpiece hleaves hfree ⊢
    refine Journal.snoc h hpiece hloop ?_ ?_ ?_ (fun _ => rfl) (.inl rfl) ?_
      (h.answers_left hleaves (.inr ⟨rfl, _, _, _, hwaiting⟩) (Nat.le_refl 1))
      fun hstays => absurd hleaves hstays
    · exact fun hregisters => by cases hregisters
    · exact fun hphase => by cases hphase
    · exact fun hbound => by rw [hfree] at hbound; cases hbound
    · exact fun _ _ _ hphase => by cases hphase
  cases hbind : s.impl.bindSession candidate with
  | error e =>
    rw [hbind] at hbinds
    refine haway ⟨s, (.nil, .error e.category.toCode e.message), ?_⟩ hbinds
    unfold Service.bindTurn
    rw [hbind]
    rfl
  | ok bound =>
    obtain ⟨bound, impl⟩ := bound
    rw [hbind] at hbinds
    cases bound with
    | false =>
      refine haway ⟨{ s with impl }, (requestId, .error 6
        "session could not be bound to the new incarnation"), ?_⟩ hbinds
      unfold Service.bindTurn
      rw [hbind]
      rfl
    | true =>
      have hturn : s.bindTurn x requestId result candidate write = ({ s with impl } : Service).answer
          { x with binding := some candidate, phase := .serving } requestId (.registerAck result)
          write := by
        unfold Service.bindTurn
        rw [hbind]
      cases write with
      | none =>
        replace hturn : s.bindTurn x requestId result candidate none = ({ s with impl } : Service).stay
          { x with binding := some candidate, phase := .serving }
          [(requestId, .registerAck result)] := hturn
        subst ht
        simp only [hturn] at hpiece hbinds ⊢
        refine Journal.snoc (t := ⟨s, x, .bind n none, ({ s with impl } : Service).stay
          { x with binding := some candidate, phase := .serving }
          [(requestId, .registerAck result)]⟩) h hpiece hloop ?_ ?_ ?_ ?_ (.inl rfl) ?_ ?_ ?_
        · exact fun hregisters => by cases hregisters
        · exact fun _ hnone => by cases hnone
        · exact fun _ hnone => by cases hnone
        · exact fun hfree => by rw [hfree] at hbinds; cases hbinds
        · exact fun _ _ _ hphase => by cases hphase
        · unfold Session.Answers
          rw [received_snoc, answered_snoc]
          exact hanswers.symm.trans (List.append_nil _).symm
        · exact fun _ => ⟨hbinds, rfl⟩
      | some e =>
        replace hturn : s.bindTurn x requestId result candidate (some e) =
          ({ s with impl } : Service).caught { x with binding := some candidate, phase := .serving } e :=
            hturn
        have hleaves : t.Leaves := by rw [ht, hturn]; exact ⟨true, rfl⟩
        subst ht
        simp only [hturn] at hpiece hleaves hbinds ⊢
        refine Journal.snoc h hpiece hloop ?_ ?_ ?_ ?_ (.inl rfl) ?_
          (h.answers_left hleaves (.inr ⟨rfl, _, _, _, hwaiting⟩) (Nat.le_refl 1))
          fun hstays => absurd hleaves hstays
        · exact fun hregisters => by cases hregisters
        · exact fun hphase => by cases hphase
        · exact fun _ hnone => by cases hnone
        · exact fun hfree => by rw [hfree] at hbinds; cases hbinds
        · exact fun _ _ _ hphase => by cases hphase

/-- **The end of a session.** -/
theorem Journal.close {s : Service} (h : Journal x ts) {n : Nat} {violation : Bool}
    {fault : Option SaveFault} (hclosing : x.phase = .closing violation) :
    Journal (s.closeTurn x violation fault).session
      (ts ++ [⟨s, x, .close n fault, s.closeTurn x violation fault⟩]) := by
  have hpiece : s.piece x (.close n fault) = some (s.closeTurn x violation fault) := by
    simp only [Service.piece, hclosing]
  obtain ⟨pre, last, rfl, hlast, hbefore⟩ := h.leaving violation hclosing
  have hsession : (s.closeTurn x violation fault).session = { x with phase := .ended } := by
    unfold Service.closeTurn
    split <;> rfl
  have hsent : (s.closeTurn x violation fault).sent = [] := by
    unfold Service.closeTurn
    split <;> rfl
  obtain ⟨t, ht⟩ : ∃ t : Turn, t = ⟨s, x, .close n fault, s.closeTurn x violation fault⟩ := ⟨_, rfl⟩
  have hcloses : t.Closes := by
    subst ht
    refine ⟨rfl, hsent, ?_⟩
    unfold Service.closeTurn
    cases hbinding : x.binding with
    | none => exact ⟨rfl, rfl⟩
    | some b => exact ⟨_, _, rfl, rfl⟩
  have hstays : ¬ t.Leaves := by
    rintro ⟨v, hv⟩
    rw [ht] at hv
    dsimp only at hv
    rw [hsession] at hv
    cases hv
  rw [← ht, hsession]
  have hanswers := h.answers
  unfold Session.Answers at hanswers
  rw [hclosing] at hanswers
  constructor
  case toDisciplined =>
    constructor
    case greeted =>
      subst ht
      exact h.greeted_snoc hpiece
    case registered => exact filter_snoc_le h.registered fun hr => by rw [ht] at hr; cases hr
    case bound => exact filter_snoc_le h.bound fun hb => by rw [ht] at hb; cases hb
    case answers =>
      unfold Session.Answers
      have hread : t.frame = none := hcloses.1
      have hnothing : t.result.sent = [] := hcloses.2.1
      rw [received_snoc, answered_snoc, hread, hnothing, Option.map_none, Option.toList_none,
        List.map_nil, List.append_nil, List.append_nil]
      exact hanswers
    case fine =>
      intro t' ht' hstays'
      rcases mem_snoc ht' with hold | rfl
      · exact h.fine t' hold hstays'
      · rw [ht]
        exact trivial
    case left =>
      intro pre' t' post heq hleaves
      rcases snoc_split heq with ⟨-, -, rfl⟩ | ⟨post', rfl, hold⟩
      · exact absurd hleaves hstays
      · -- the step that left the loop was the last one
        rcases snoc_split hold with ⟨rfl, -, rfl⟩ | ⟨post'', -, hearlier⟩
        · refine .inr ⟨t, rfl, hcloses, ?_⟩
          rw [hlast, ht]
        · refine absurd hleaves (hbefore t' ?_)
          rw [hearlier]
          exact List.mem_append_right _ (List.mem_cons_self ..)
  case seen =>
    intro hnow
    obtain ⟨g, hg, hgreets⟩ := h.seen hnow
    exact ⟨g, List.mem_append_left _ hg, hgreets⟩
  case unseen => exact fun hnot => ⟨hnot, (h.unseen hnot).unbound, fun _ _ _ hphase => by cases hphase⟩
  case waiting => exact fun _ _ _ hphase => by cases hphase
  case unregistered => exact fun hphase => by cases hphase
  case unbound =>
    exact fun hnone => filter_snoc_nil (h.unbound hnone) (by rw [ht]; rfl)
  case inside =>
    rintro (hphase | ⟨_, _, _, hphase⟩)
    · cases hphase
    · cases hphase
  case leaving => exact fun _ hphase => by cases hphase

/-- A session that has just been accepted. -/
theorem Journal.accept (id : SessionId) : Journal { id } [] := by
  have hnone : ∀ (pre : List Turn) (t : Turn) (post : List Turn), [] ≠ pre ++ t :: post := by
    intro pre t post heq
    cases List.append_eq_nil_iff.mp heq.symm with
    | intro _ hpost => cases hpost
  constructor
  case toDisciplined =>
    constructor
    case greeted => exact fun pre t post heq => absurd heq (hnone pre t post)
    case registered => exact Nat.zero_le 1
    case bound => exact Nat.zero_le 1
    case answers => exact rfl
    case fine => exact fun t ht => by cases ht
    case left => exact fun pre t post heq => absurd heq (hnone pre t post)
  case seen => exact fun hseen => by cases hseen
  case unseen => exact fun _ => ⟨rfl, rfl, fun _ _ _ hphase => by cases hphase⟩
  case waiting => exact fun _ _ _ hphase => by cases hphase
  case unregistered => exact fun _ _ => rfl
  case unbound => exact fun _ => rfl
  case inside => exact fun _ t ht => by cases ht
  case leaving => exact fun _ hphase => by cases hphase

/-- **A step of a session**, whichever it is. -/
theorem Journal.piece {s : Service} (h : Journal x ts) {n : Nat} {event : Event} {r : Served}
    (hx : s.sessions[n]? = some x) (hplace : Service.place event = some n)
    (hr : s.piece x event = some r) (hheard : s.Heard event) :
    Journal r.session (ts ++ [⟨s, x, event, r⟩]) := by
  cases event with
  | accept id => cases hr
  | stop => cases hr
  | turn m incoming write entropy fault =>
    cases hplace
    cases hphase : x.phase with
    | serving =>
      simp only [Service.piece, hphase] at hr
      cases hr
      refine h.turn hphase fun requestId participant hframe hstop hunknown hseen => ?_
      subst hframe
      have hlistens : x.listens = true := by
        unfold Session.listens
        rw [hphase]
        exact hseen
      have hknown : (s.impl.findParticipant participant).isNone = true := by rw [hunknown]; rfl
      exact Option.isNone_iff_eq_none.mp (hheard ⟨hstop, hknown⟩ x hx hlistens)
    | _ => simp [Service.piece, hphase] at hr
  | bind m write =>
    cases hphase : x.phase with
    | registered requestId result candidate =>
      simp only [Service.piece, hphase] at hr
      cases hr
      exact h.bind hphase
    | _ => simp [Service.piece, hphase] at hr
  | close m fault =>
    cases hphase : x.phase with
    | closing violation =>
      simp only [Service.piece, hphase] at hr
      cases hr
      exact h.close hphase
    | _ => simp [Service.piece, hphase] at hr

end Steps

/-! ## Runs of the server -/

/-- At every place there is a session with its journal, or nothing has happened. -/
def Journals (T : List (Service × Event × Option Served)) (s : Service) : Prop :=
  ∀ n : Nat, match s.sessions[n]? with
    | some x => Journal x (turns n T)
    | none => turns n T = []

section Server

variable {T : List (Service × Event × Option Served)} {s : Service}

theorem turns_snoc (n : Nat) (T : List (Service × Event × Option Served))
    (e : Service × Event × Option Served) :
    turns n (T ++ [e]) = turns n T ++ (Turn.of n e).toList := by
  unfold turns
  rw [List.filterMap_append]
  cases h : Turn.of n e with
  | none => simp [h]
  | some t => simp [h]

/-- Nothing happens to a session in a step of another one. -/
theorem turns_other {n m : Nat} {event : Event} (hplace : Service.place event = some m) (hn : m ≠ n)
    (answer : Option Served) : turns n (T ++ [(s, event, answer)]) = turns n T := by
  rw [turns_snoc]
  cases answer with
  | none => exact List.append_nil _
  | some r =>
    have hnot : ¬ Service.place event = some n := by
      rw [hplace]
      exact fun h => hn (Option.some.inj h)
    simp only [Turn.of, if_neg hnot]
    exact List.append_nil _

theorem turns_silent (n : Nat) (event : Event) : turns n (T ++ [(s, event, none)]) = turns n T := by
  rw [turns_snoc]
  exact List.append_nil _

theorem Journals.silent (h : Journals T s) (event : Event) : Journals (T ++ [(s, event, none)]) s := by
  intro n
  rw [turns_silent]
  exact h n

/-- **One session takes a step**, and the others are where they were. -/
theorem Journals.resume (h : Journals T s) {n : Nat} {x : Session} {event : Event} {r : Served}
    (hx : s.sessions[n]? = some x) (hplace : Service.place event = some n)
    (hr : s.piece x event = some r) (hheard : s.Heard event) :
    Journals (T ++ [(s, event, some r)]) (s.resume n r) := by
  intro m
  show match (s.sessions.set n r.session)[m]? with
    | some x => Journal x (turns m (T ++ [(s, event, some r)]))
    | none => turns m (T ++ [(s, event, some r)]) = []
  rw [List.getElem?_set]
  by_cases hm : n = m
  · subst hm
    have hjournal := h n
    rw [hx] at hjournal
    have hstep : turns n (T ++ [(s, event, some r)]) = turns n T ++ [⟨s, x, event, r⟩] := by
      rw [turns_snoc]
      simp [Turn.of, hplace, hx]
    rw [if_pos rfl, if_pos (List.getElem?_eq_some_iff.mp hx).1, hstep]
    exact hjournal.piece hx hplace hr hheard
  · rw [if_neg hm, turns_other hplace hm]
    exact h m

/-- A step of a session, or none. -/
theorem Journals.served (h : Journals T s) {event : Event} (hheard : s.Heard event)
    (hstep : s.step event = match s.served event with
      | some (n, r) => (s.resume n r, some r)
      | none => (s, none)) :
    Journals (T ++ [(s, event, (s.step event).2)]) (s.step event).1 := by
  rw [hstep]
  cases hserved : s.served event with
  | none => exact h.silent event
  | some served =>
    obtain ⟨n, r⟩ := served
    obtain ⟨n', hplace, hserved⟩ := Option.bind_eq_some_iff.mp hserved
    obtain ⟨x, hx, hserved⟩ := Option.bind_eq_some_iff.mp hserved
    obtain ⟨r', hr, heq⟩ := Option.map_eq_some_iff.mp hserved
    cases heq
    exact h.resume hx hplace hr hheard

/-- **One step of the server.** -/
theorem Journals.step (h : Journals T s) {event : Event} (hheard : s.Heard event) :
    Journals (T ++ [(s, event, (s.step event).2)]) (s.step event).1 := by
  cases event with
  | accept id =>
    cases hstop : s.stopNow with
    | true =>
      simp only [Service.step, hstop, if_true]
      exact h.silent _
    | false =>
      simp only [Service.step, hstop, Bool.false_eq_true, if_false]
      intro n
      rw [turns_silent, List.getElem?_append]
      by_cases hbefore : n < s.sessions.length
      · rw [if_pos hbefore]
        exact h n
      · rw [if_neg hbefore]
        have hnothing := h n
        rw [List.getElem?_eq_none (Nat.le_of_not_lt hbefore)] at hnothing
        -- the new place, or none
        cases hnew : [({ id } : Session)][n - s.sessions.length]? with
        | none => exact hnothing
        | some x =>
          have hmem := List.mem_of_getElem? hnew
          rw [List.mem_singleton] at hmem
          subst hmem
          dsimp only at hnothing ⊢
          rw [hnothing]
          exact Journal.accept id
  | stop => exact h.silent _
  | turn n incoming write entropy fault => exact h.served hheard rfl
  | bind n write => exact h.served hheard rfl
  | close n fault => exact h.served hheard rfl

end Server

/-- **The discipline of every session**, in every run of the server in which no
error frame about an unknown participant is lost. -/
theorem session_disciplined {impl : Impl} {disk : Disk} {events : List Event}
    (h : (server impl disk).Allows Service.Heard (server impl disk).init events) {n : Nat} {x : Session}
    (hx : ((server impl disk).run (server impl disk).init events).sessions[n]? = some x) :
    Disciplined x (turns n ((server impl disk).trace (server impl disk).init events)) := by
  have hstart : Journals [] (server impl disk).init := by
    intro n
    exact rfl
  have hjournal := Machine.traced (H := Journals) (fun _ _ _ hT hheard => hT.step hheard) hstart h n
  rw [hx] at hjournal
  exact hjournal.toDisciplined

/-! ### An answer that is lost -/

/-- A frame comes in on the first session, under an identifier of its own. -/
def numbered (n : UInt8) (request : Request) (write : Option EpochError) : Event :=
  .turn 0 (.frame (smallId n) request) write (testEntropy 8) none

/-- The peer asks for a participant that nobody has registered, and then for the
next epoch. -/
def askingRun (write : Option EpochError) : List Event := [
  .accept (smallId 61),
  numbered 51 (.hello (.ok (str "worker"))) none,
  numbered 52 (.queryParticipant (.ok (testParticipant "p"))) write,
  numbered 53 (.advance (.ok { attempt := smallId 4, expectedEpoch := smallCounter 1 })) none]

/-- Whether the first session is in its loop, what it has read and answered, and the epoch. -/
def Service.ledger (s : Service) (ts : List Turn) :
    Option (Bool × List MutationAttemptId × List MutationAttemptId × CoordinatorEpoch) :=
  s.sessions[0]?.map fun x => (match x.phase with
    | .serving => true
    | _ => false, received ts, answered ts, s.impl.state.currentEpoch)

/-- The ledger of the run. -/
def askingLedger (write : Option EpochError) (impl : Impl) :=
  ((server impl startedHost.disk).run (server impl startedHost.disk).init (askingRun write)).ledger
    (turns 0 ((server impl startedHost.disk).trace (server impl startedHost.disk).init (askingRun write)))

/-- A session that has asked for an unknown participant, and was told. -/
theorem session_disciplined_test : ∃ impl x, startedHost.runtime = some impl ∧
    ((server impl startedHost.disk).run (server impl startedHost.disk).init
      (askingRun none)).sessions[0]? = some x ∧
    Disciplined x (turns 0 ((server impl startedHost.disk).trace (server impl startedHost.disk).init
      (askingRun none))) := by
  have hrun : startedHost.runtime.map (askingLedger none) = some (some (true,
      [smallId 51, smallId 52, smallId 53], [smallId 51, smallId 52, smallId 53], smallCounter 2)) := by
    decide +kernel
  obtain ⟨impl, himpl, hledger⟩ := Option.map_eq_some_iff.mp hrun
  obtain ⟨x, hx, -⟩ := Option.map_eq_some_iff.mp hledger
  refine ⟨impl, x, himpl, hx, session_disciplined ?_ hx⟩
  exact ⟨trivial, trivial, fun _ _ _ _ => rfl, trivial, trivial⟩

/-- **The answer to a query is lost**, and the session goes on: the frame is never
answered, and the next one is executed. -/
theorem lostAnswer_unanswered : ∃ impl x ts, coordinator.Reaches Quietly startedHost ∧
    startedHost.runtime = some impl ∧
    ((server impl startedHost.disk).run (server impl startedHost.disk).init
      (askingRun (some (ioFailure "peer closed the connection while sending")))).sessions[0]? = some x ∧
    ts = turns 0 ((server impl startedHost.disk).trace (server impl startedHost.disk).init
      (askingRun (some (ioFailure "peer closed the connection while sending")))) ∧
    x.phase = .serving ∧ received ts = [smallId 51, smallId 52, smallId 53] ∧
    answered ts = [smallId 51, smallId 53] ∧ ¬ Disciplined x ts := by
  have hrun : startedHost.runtime.map
      (askingLedger (some (ioFailure "peer closed the connection while sending"))) = some (some (true,
      [smallId 51, smallId 52, smallId 53], [smallId 51, smallId 53], smallCounter 2)) := by
    decide +kernel
  obtain ⟨impl, himpl, hledger⟩ := Option.map_eq_some_iff.mp hrun
  obtain ⟨x, hx, heq⟩ := Option.map_eq_some_iff.mp hledger
  obtain ⟨hphase, heq⟩ := Prod.mk.inj heq
  obtain ⟨hreceived, heq⟩ := Prod.mk.inj heq
  obtain ⟨hanswered, -⟩ := Prod.mk.inj heq
  have hserving : x.phase = .serving := by
    cases hp : x.phase with
    | serving => rfl
    | _ =>
      rw [hp] at hphase
      cases hphase
  refine ⟨impl, x, _, startedHost_reached, himpl, hx, rfl, hserving, hreceived, hanswered,
    fun hdisciplined => ?_⟩
  have hanswers := hdisciplined.answers
  unfold Session.Answers at hanswers
  rw [hserving] at hanswers
  have hsame := hanswered.symm.trans (hanswers.trans hreceived)
  exact absurd (congrArg List.length hsame) (by decide)

end FabricEpoch
