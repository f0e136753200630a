import FabricEpoch.Lib.Accounts
import FabricEpoch.SessionLoss
import FabricEpoch.Sessions

/-!
# The sessions of a server and the sessions of its runtime

The runtime keeps a table of the sessions that are bound; the server keeps, on the
stack of each thread, whether its session is bound, and closes it at the end. The
two agree at every moment, whatever fails, so a session never leaves an entry
behind.

- `Session.Holds`: a session that has not ended, with its binding;
- `SessionTable`: the table holds what the sessions hold;
- `PieceCase`: what a piece of a session does to the tables and to its binding;
- `sessionTable_exact`: every run of the server;
- `Service.remaining`, `stopDrains`: behind a stop, the threads come to their ends,
  in a bounded number of steps, and the tables are empty then.
-/

namespace FabricEpoch

open Table Transaction

/-- The session has not ended, and this is its binding. -/
def Session.Holds (x : Session) (b : SessionBinding) : Prop :=
  x.phase ≠ .ended ∧ x.binding = some b

/-- A session binds under its own identifier, and before it is bound it is not. -/
structure Session.Own (x : Session) : Prop where
  binding : ∀ b, x.binding = some b → b.id = x.id
  waiting : ∀ requestId result candidate, x.phase = .registered requestId result candidate →
    x.binding = none ∧ candidate.id = x.id

/-- **The table of the runtime holds exactly what the sessions hold.** -/
structure SessionTable (s : Service) : Prop where
  ties : s.impl.tables.Ties
  ids : (s.sessions.map (·.id)).Nodup
  own : ∀ x ∈ s.sessions, x.Own
  exact : ∀ b, b ∈ s.impl.sessionIndex ↔ ∃ x ∈ s.sessions, x.Holds b

/-! ## A piece of a session -/

/-- **What a piece does to the tables**: nothing, the new entry of its session, or
the end of the entry. -/
inductive PieceCase (s : Service) (x : Session) (r : Served) : Prop
  | kept (tables : r.impl.tables = s.impl.tables) (holds : ∀ b, r.session.Holds b ↔ x.Holds b)
  | bound (b : SessionBinding) (unbound : x.binding = none) (id : b.id = x.id)
      (bindable : s.impl.bindable b = true)
      (room : s.impl.sessionIndex.length < s.impl.options.limits.maxSessions)
      (tables : r.impl.tables = ⟨s.impl.options,
        s.impl.sessionIndex.filter (fun t => t.id ≠ b.id) ++ [b],
        s.impl.bootSessionIndex ++ [(b.boot, b.id)]⟩)
      (holds : ∀ b', r.session.Holds b' ↔ b' = b)
  | closed (b : SessionBinding) (reason : SessionClosureReason) (fault : Option SaveFault)
      (held : x.Holds b)
      (tables : r.impl.tables = (closeSession b.id reason fault s.disk s.impl).impl.tables)
      (holds : ∀ b', ¬ r.session.Holds b')

section Pieces

variable {s : Service} {x y : Session} {requestId : MutationAttemptId} {write : Option EpochError}

/-- A session that goes on holds what it held. -/
theorem Session.Continues.holds (h : x.Continues y) (hx : x.phase = .serving) (b : SessionBinding) :
    y.Holds b ↔ x.Holds b := by
  have hlive : y.phase ≠ .ended := by
    intro hended
    rcases h.phase with hserving | ⟨violation, hclosing⟩
    · cases hserving.symm.trans hended
    · cases hclosing.symm.trans hended
  have hlive' : x.phase ≠ .ended := by
    intro hended
    cases hx.symm.trans hended
  unfold Session.Holds
  rw [h.binding]
  exact ⟨fun hb => ⟨hlive', hb.2⟩, fun hb => ⟨hlive, hb.2⟩⟩

theorem Session.Continues.own (h : x.Continues y) (hx : x.Own) : y.Own where
  binding b hb := by
    rw [h.id]
    exact hx.binding b (h.binding ▸ hb)
  waiting requestId result candidate hphase := by
    rcases h.phase with hserving | ⟨violation, hclosing⟩
    · cases hserving.symm.trans hphase
    · cases hclosing.symm.trans hphase

/-- A plain call leaves the tables alone, whether it throws or not. -/
theorem Plain.tables {c : Call} (h : Plain c) (entropy : Entropy) (fault : Option SaveFault)
    (disk : Disk) (impl : Impl) :
    (callRuntime c entropy fault disk impl).impl.tables = impl.tables := by
  refine callRuntime_tables (fun b hb => ?_) (fun session reason hc => ?_) entropy fault disk impl
  · subst hb
    cases h
  · subst hc
    cases h

/-- Where a session that was serving goes on with the binding it had. -/
theorem holds_congr (hx : x.phase ≠ .ended) (hy : y.phase ≠ .ended) (hbinding : y.binding = x.binding)
    (b : SessionBinding) : y.Holds b ↔ x.Holds b := by
  unfold Session.Holds
  rw [hbinding]
  exact ⟨fun h => ⟨hx, h.2⟩, fun h => ⟨hy, h.2⟩⟩

variable (s requestId write) in
/-- The session behind a registration: it is still the same, and may have to bind. -/
theorem serveRegister_session (hown : x.Own) (hunbound : x.binding = none)
    (hserving : x.phase = .serving) (request : RegisterParticipantRequest) (fault : Option SaveFault) :
    (s.serveRegister x requestId request write fault).session.id = x.id ∧
      (s.serveRegister x requestId request write fault).session.Own ∧
      (s.serveRegister x requestId request write fault).session.phase ≠ .ended ∧
      (s.serveRegister x requestId request write fault).session.binding = x.binding := by
  -- the session has gone on, under its identifier and unbound
  have hgoes : ∀ z : Session, z.id = x.id → z.binding = x.binding →
      (z.phase = .serving ∨ ∃ violation, z.phase = .closing violation) →
      z.id = x.id ∧ z.Own ∧ z.phase ≠ .ended ∧ z.binding = x.binding := by
    intro z hid hbinding hphase
    refine ⟨hid, ⟨fun b hb => ?_, fun id result candidate hwaits => ?_⟩, fun hended => ?_, hbinding⟩
    · rw [hbinding, hunbound] at hb
      cases hb
    · rcases hphase with h | ⟨violation, h⟩
      · cases h.symm.trans hwaits
      · cases h.symm.trans hwaits
    · rcases hphase with h | ⟨violation, h⟩
      · cases h.symm.trans hended
      · cases h.symm.trans hended
  unfold Service.serveRegister
  dsimp only
  cases (transact (applyRegistration request true) fault s.disk s.impl).result with
  | error e => exact hgoes _ rfl rfl (.inr ⟨true, rfl⟩)
  | ok result =>
    obtain ⟨hid, hbinding, -, -⟩ := Session.issue_frame result (x.candidate request result) x
    dsimp only
    split
    · split
      · exact hgoes _ hid hbinding (.inr ⟨true, rfl⟩)
      · refine ⟨hid, ⟨fun b hb => ?_, fun id result' candidate hwaits => ?_⟩, fun hended => ?_, hbinding⟩
        · replace hb : (x.issue result (x.candidate request result)).binding = some b := hb
          rw [hbinding, hunbound] at hb
          cases hb
        · cases hwaits
          exact ⟨hbinding.trans hunbound, hid.symm⟩
        · cases hended
    · cases write with
      | none => exact hgoes _ rfl rfl (.inl hserving)
      | some e => exact hgoes _ rfl rfl (.inr ⟨true, rfl⟩)

/-- A registration leaves the tables alone, whatever the session makes of it. -/
theorem serveRegister_tables (request : RegisterParticipantRequest) (fault : Option SaveFault) :
    (s.serveRegister x requestId request write fault).impl.tables = s.impl.tables := by
  have htables := transact_tables (stepwise_applyRegistration request true).composed fault s.disk s.impl
  unfold Service.serveRegister
  dsimp only
  cases (transact (applyRegistration request true) fault s.disk s.impl).result with
  | error e => exact htables
  | ok result =>
    dsimp only
    split
    · split <;> exact htables
    · cases write with
      | none => exact htables
      | some e => exact htables

/-- The binding of a session. -/
theorem bindTurn_tables {result : RegistrationResult} {candidate : SessionBinding} (hown : x.Own)
    (hphase : x.phase = .registered requestId result candidate) :
    (s.bindTurn x requestId result candidate write).session.id = x.id ∧
      (s.bindTurn x requestId result candidate write).session.Own ∧
      PieceCase s x (s.bindTurn x requestId result candidate write) := by
  obtain ⟨hunbound, hid⟩ := hown.waiting _ _ _ hphase
  have hlive : x.phase ≠ .ended := by
    rw [hphase]
    exact fun h => by cases h
  -- a session that is turned away stays unbound
  have haway : (x.leave true).id = x.id ∧ (x.leave true).Own ∧
      ∀ b, (x.leave true).Holds b ↔ x.Holds b := by
    refine ⟨rfl, ⟨hown.binding, fun _ _ _ hwaits => by cases hwaits⟩, holds_congr hlive ?_ rfl⟩
    intro hended
    cases hended
  unfold Service.bindTurn
  cases hr : s.impl.bindSession candidate with
  | error e => exact ⟨haway.1, haway.2.1, .kept rfl haway.2.2⟩
  | ok bound =>
    obtain ⟨bound, impl'⟩ := bound
    have hcall : callRuntime (.bind candidate) (testEntropy 0) none s.disk s.impl =
        ⟨impl', s.disk, .ok (.bound bound)⟩ := by
      simp only [callRuntime, hr]
    have hcase := @bindSession_tables s.impl candidate (testEntropy 0) none s.disk
    rw [hcall] at hcase
    cases bound with
    | false =>
      rcases hcase with ⟨-, -, hbound, -⟩ | ⟨-, htables⟩
      · cases hbound
      · exact ⟨haway.1, haway.2.1, .kept htables haway.2.2⟩
    | true =>
      rcases hcase with ⟨hbindable, hroom, -, htables⟩ | ⟨hnot, -⟩
      swap
      · exact absurd rfl hnot
      -- the answer is sent, or that throws: the session holds its binding
      have hbound : ∀ z : Session, z.id = x.id → z.binding = some candidate →
          (z.phase = .serving ∨ ∃ violation, z.phase = .closing violation) → z.id = x.id ∧ z.Own ∧
            ∀ b, z.Holds b ↔ b = candidate := by
        intro z hzid hzbinding hzphase
        refine ⟨hzid, ⟨fun b hb => ?_, fun _ _ _ hwaits => ?_⟩, fun b => ⟨fun hb => ?_, ?_⟩⟩
        · rw [hzbinding] at hb
          cases hb
          exact hid.trans hzid.symm
        · rcases hzphase with h | ⟨violation, h⟩
          · cases h.symm.trans hwaits
          · cases h.symm.trans hwaits
        · exact (Option.some.inj (hzbinding.symm.trans hb.2)).symm
        · rintro rfl
          refine ⟨fun hended => ?_, hzbinding⟩
          rcases hzphase with h | ⟨violation, h⟩
          · cases h.symm.trans hended
          · cases h.symm.trans hended
      cases write with
      | none =>
        obtain ⟨hzid, hzown, hzholds⟩ := hbound { x with binding := some candidate, phase := .serving }
          rfl rfl (.inl rfl)
        exact ⟨hzid, hzown, .bound candidate hunbound hid hbindable hroom htables hzholds⟩
      | some e =>
        obtain ⟨hzid, hzown, hzholds⟩ := hbound
          (Session.leave true { x with binding := some candidate, phase := .serving }) rfl rfl
          (.inr ⟨true, rfl⟩)
        exact ⟨hzid, hzown, .bound candidate hunbound hid hbindable hroom htables hzholds⟩

/-- The end of a session. -/
theorem closeTurn_tables {violation : Bool} {fault : Option SaveFault} (hown : x.Own)
    (hphase : x.phase = .closing violation) :
    (s.closeTurn x violation fault).session.id = x.id ∧ (s.closeTurn x violation fault).session.Own ∧
      PieceCase s x (s.closeTurn x violation fault) := by
  have hlive : x.phase ≠ .ended := by
    rw [hphase]
    exact fun h => by cases h
  unfold Service.closeTurn
  cases hbinding : x.binding with
  | none =>
    refine ⟨rfl, ⟨fun b hb => (by cases hb), fun _ _ _ hwaits => by cases hwaits⟩, .kept rfl fun b =>
      ⟨fun hb => absurd rfl hb.1, fun hb => ?_⟩⟩
    cases hbinding.symm.trans hb.2
  | some b =>
    refine ⟨rfl, ⟨fun b' hb => ?_, fun _ _ _ hwaits => by cases hwaits⟩, .closed b
      (classifyClose violation s.stopNow) fault ⟨hlive, hbinding⟩ rfl fun b' hb => hb.1 rfl⟩
    cases hb
    exact hown.binding b hbinding

/-- **A piece of a session**: it keeps its identifier, and this is what it does to
the tables. -/
theorem piece_tables {event : Event} {r : Served} (hown : x.Own) (hr : s.piece x event = some r) :
    r.session.id = x.id ∧ r.session.Own ∧ PieceCase s x r := by
  cases event with
  | accept id => cases hr
  | stop => cases hr
  | turn n incoming write entropy fault =>
    cases hphase : x.phase with
    | serving =>
      have hlive : x.phase ≠ .ended := by
        rw [hphase]
        exact fun h => by cases h
      simp only [Service.piece, hphase] at hr
      cases hr
      have hcase := serveTurn_cases s hphase incoming write entropy fault
      generalize s.serveTurn x incoming write entropy fault = r at hcase
      cases hcase with
      | idle himpl hdisk hcontinues =>
        refine ⟨hcontinues.id, hcontinues.own hown, .kept ?_ (hcontinues.holds hphase)⟩
        rw [himpl]
      | called hplain himpl hdisk hquiet hcontinues =>
        refine ⟨hcontinues.id, hcontinues.own hown, .kept ?_ (hcontinues.holds hphase)⟩
        rw [himpl]
        exact hplain.tables _ _ _ _
      | @registered requestId request write fault hunbound =>
        obtain ⟨hid, hown', hlive', hbinding⟩ := serveRegister_session s requestId write hown
          hunbound hphase request fault
        refine ⟨hid, hown', .kept ?_ (holds_congr hlive hlive' hbinding)⟩
        exact serveRegister_tables request fault
    | _ => simp [Service.piece, hphase] at hr
  | bind n write =>
    cases hphase : x.phase with
    | registered requestId result candidate =>
      simp only [Service.piece, hphase] at hr
      cases hr
      exact bindTurn_tables hown hphase
    | _ => simp [Service.piece, hphase] at hr
  | close n fault =>
    cases hphase : x.phase with
    | closing violation =>
      simp only [Service.piece, hphase] at hr
      cases hr
      exact closeTurn_tables hown hphase
    | _ => simp [Service.piece, hphase] at hr

end Pieces

/-! ## A step of the server -/

section Steps

variable {s : Service} {n : Nat} {x : Session} {r : Served}

/-- Another session than the one at hand holds the binding. -/
def Service.Elsewhere (s : Service) (x : Session) (b : SessionBinding) : Prop :=
  ∃ y ∈ s.sessions, y.id ≠ x.id ∧ y.Holds b

/-- What the sessions hold is what one of them holds, and what the others do. -/
theorem holds_split (hids : (s.sessions.map (·.id)).Nodup) (hx : s.sessions[n]? = some x)
    (b : SessionBinding) : (∃ y ∈ s.sessions, y.Holds b) ↔ x.Holds b ∨ s.Elsewhere x b := by
  have hmem : x ∈ s.sessions := List.mem_of_getElem? hx
  constructor
  · rintro ⟨y, hy, hholds⟩
    by_cases hid : y.id = x.id
    · rw [← List.inj_on_of_nodup_map hids hy hmem hid]
      exact .inl hholds
    · exact .inr ⟨y, hy, hid, hholds⟩
  · rintro (hholds | ⟨y, hy, -, hholds⟩)
    · exact ⟨x, hmem, hholds⟩
    · exact ⟨y, hy, hholds⟩

/-- And behind a step of that one, the others hold what they held. -/
theorem holds_set (hids : (s.sessions.map (·.id)).Nodup) (hx : s.sessions[n]? = some x)
    (hid : r.session.id = x.id) (b : SessionBinding) :
    (∃ y ∈ s.sessions.set n r.session, y.Holds b) ↔ r.session.Holds b ∨ s.Elsewhere x b := by
  have hlt : n < s.sessions.length := (List.getElem?_eq_some_iff.mp hx).1
  constructor
  · rintro ⟨y, hy, hholds⟩
    obtain ⟨m, hm⟩ := List.mem_iff_getElem?.mp hy
    rw [List.getElem?_set] at hm
    by_cases hnm : n = m
    · rw [if_pos hnm, if_pos (hnm ▸ hlt)] at hm
      cases hm
      exact .inl hholds
    · rw [if_neg hnm] at hm
      refine .inr ⟨y, List.mem_of_getElem? hm, fun hsame => hnm ?_, hholds⟩
      -- two places with one identifier are one place
      have hplace : (s.sessions.map (·.id))[n]? = some x.id := by
        rw [List.getElem?_map, hx]
        rfl
      have hplace' : (s.sessions.map (·.id))[m]? = some x.id := by
        rw [List.getElem?_map, hm, ← hsame]
        rfl
      have hlt' := (List.getElem?_eq_some_iff.mp hplace).1
      exact (List.getElem?_inj hlt' hids).mp (hplace.trans hplace'.symm)
  · rintro (hholds | ⟨y, hy, hne, hholds⟩)
    · exact ⟨r.session, List.mem_of_getElem? (by rw [List.getElem?_set, if_pos rfl, if_pos hlt]), hholds⟩
    · obtain ⟨m, hm⟩ := List.mem_iff_getElem?.mp hy
      refine ⟨y, List.mem_of_getElem? (i := m) ?_, hholds⟩
      rw [List.getElem?_set, if_neg, hm]
      rintro rfl
      rw [hx] at hm
      cases hm
      exact hne rfl

/-- **A session takes a step**, and the table goes with it. -/
theorem SessionTable.resume (h : SessionTable s) (hx : s.sessions[n]? = some x)
    (hid : r.session.id = x.id) (hown : r.session.Own) (hcase : PieceCase s x r) :
    SessionTable (s.resume n r) := by
  have hmem : x ∈ s.sessions := List.mem_of_getElem? hx
  -- what is elsewhere is under another identifier
  have helse : ∀ b, s.Elsewhere x b → b.id ≠ x.id := by
    rintro b ⟨y, hy, hne, hholds⟩
    rw [(h.own y hy).binding b hholds.2]
    exact hne
  have hold : ∀ b, b ∈ s.impl.sessionIndex ↔ x.Holds b ∨ s.Elsewhere x b := fun b =>
    (h.exact b).trans (holds_split h.ids hx b)
  have hties : r.impl.tables.Ties ∧
      ∀ b, b ∈ r.impl.sessionIndex ↔ r.session.Holds b ∨ s.Elsewhere x b := by
    cases hcase with
    | kept tables holds =>
      refine ⟨tables ▸ h.ties, fun b => ?_⟩
      rw [show r.impl.sessionIndex = s.impl.sessionIndex from congrArg Tables.sessions tables, hold,
        holds]
    | bound c unbound id bindable room tables holds =>
      have hvacant : ∀ b, ¬ x.Holds b := by
        rintro b ⟨-, hbinding⟩
        rw [unbound] at hbinding
        cases hbinding
      have hfresh : ∀ b ∈ s.impl.sessionIndex, b.id ≠ c.id := by
        intro b hb
        rw [id]
        rcases (hold b).mp hb with hheld | helsewhere
        · exact absurd hheld (hvacant b)
        · exact helse b helsewhere
      have hfilter : s.impl.sessionIndex.filter (fun t => t.id ≠ c.id) = s.impl.sessionIndex := by
        refine List.filter_eq_self.mpr fun b hb => ?_
        simpa using hfresh b hb
      rw [hfilter] at tables
      constructor
      · rw [tables]
        refine h.ties.bind (fun hin => ?_) bindable room
        obtain ⟨b, hb, hsame⟩ := List.mem_map.mp hin
        exact hfresh b hb hsame
      · intro b
        rw [show r.impl.sessionIndex = s.impl.sessionIndex ++ [c] from congrArg Tables.sessions tables,
          List.mem_append, List.mem_singleton, hold, holds]
        constructor
        · rintro ((hheld | helsewhere) | rfl)
          · exact absurd hheld (hvacant b)
          · exact .inr helsewhere
          · exact .inl rfl
        · rintro (rfl | helsewhere)
          · exact .inr rfl
          · exact .inl (.inr helsewhere)
    | closed c reason fault held tables holds =>
      have hcid : c.id = x.id := (h.own x hmem).binding c held.2
      have hcloses := closesOnly h.ties c.id reason fault s.disk
      have hbound : s.impl.sessionIndex.find? (fun t => t.id = c.id) = some c := by
        have hin : c ∈ s.impl.sessionIndex := (hold c).mpr (.inl held)
        cases hfind : s.impl.sessionIndex.find? fun t => t.id = c.id with
        | none =>
          have hnone := List.find?_eq_none.mp hfind c hin
          exact absurd (decide_eq_true rfl) hnone
        | some c' =>
          have hsame : c'.id = c.id := by simpa using List.find?_some hfind
          rw [List.inj_on_of_nodup_map h.ties.ids (List.mem_of_find?_eq_some hfind) hin hsame]
      constructor
      · rw [tables]
        rcases closeSession_tables c.id reason fault s.disk s.impl with ⟨hnone, -⟩ | ⟨c', hfind, heq⟩
        · rw [hbound] at hnone
          cases hnone
        · rw [hbound] at hfind
          cases hfind
          rw [heq]
          exact h.ties.erase (List.mem_of_find?_eq_some hbound)
      · intro b
        rw [show r.impl.sessionIndex = (closeSession c.id reason fault s.disk s.impl).impl.sessionIndex
          from congrArg Tables.sessions tables]
        by_cases hb : b.id = c.id
        · constructor
          · intro hin
            exact absurd (List.mem_map.mpr ⟨b, hin, hb⟩) hcloses.gone
          · rintro (hheld | helsewhere)
            · exact absurd hheld (holds b)
            · exact absurd (hb.trans hcid) (helse b helsewhere)
        · rw [hcloses.sessions b hb, hold]
          constructor
          · rintro (hheld | helsewhere)
            · exact absurd (((h.own x hmem).binding b hheld.2).trans hcid.symm) hb
            · exact .inr helsewhere
          · rintro (hheld | helsewhere)
            · exact absurd hheld (holds b)
            · exact .inr helsewhere
  constructor
  case ties => exact hties.1
  case ids =>
    show ((s.sessions.set n r.session).map (·.id)).Nodup
    rw [ids_set hx hid]
    exact h.ids
  case own =>
    intro y hy
    rcases List.mem_or_eq_of_mem_set hy with hin | rfl
    · exact h.own y hin
    · exact hown
  case exact => exact fun b => (hties.2 b).trans (holds_set h.ids hx hid b).symm

end Steps

/-! ## Runs -/

/-- No identifier of a session is handed out twice. -/
def Service.Distinct (s : Service) : Event → Prop
  | .accept id => id ∉ s.sessions.map (·.id)
  | _ => True

instance (s : Service) (event : Event) : Decidable (s.Distinct event) :=
  match event with
  | .accept id => inferInstanceAs (Decidable (id ∉ s.sessions.map (·.id)))
  | .stop => .isTrue trivial
  | .turn .. => .isTrue trivial
  | .bind .. => .isTrue trivial
  | .close .. => .isTrue trivial

/-- A session more, under a new identifier. -/
theorem SessionTable.accept {s : Service} (h : SessionTable s) {id : SessionId}
    (hfresh : id ∉ s.sessions.map (·.id)) :
    SessionTable { s with sessions := s.sessions ++ [{ id }] } where
  ties := h.ties
  ids := by
    show ((s.sessions ++ [({ id } : Session)]).map Session.id).Nodup
    rw [List.map_append, List.map_singleton]
    refine List.nodup_append.mpr ⟨h.ids, List.nodup_singleton _, ?_⟩
    intro a ha b hb hab
    have hid : a = id := hab.trans (List.mem_singleton.mp hb)
    exact hfresh (hid ▸ ha)
  own x hx := by
    rcases List.mem_append.mp hx with hold | hnew
    · exact h.own x hold
    · rw [List.mem_singleton.mp hnew]
      exact ⟨fun _ hb => (by cases hb), fun _ _ _ hwaits => (by cases hwaits)⟩
  exact b := by
    rw [show ({ s with sessions := s.sessions ++ [{ id }] } : Service).impl = s.impl from rfl, h.exact b]
    constructor
    · rintro ⟨x, hx, hholds⟩
      exact ⟨x, List.mem_append_left _ hx, hholds⟩
    · rintro ⟨x, hx, hholds⟩
      rcases List.mem_append.mp hx with hold | hnew
      · exact ⟨x, hold, hholds⟩
      · rw [List.mem_singleton.mp hnew] at hholds
        cases hholds.2

/-- **One step of the server.** -/
theorem SessionTable.step {s : Service} (h : SessionTable s) {event : Event}
    (hdistinct : s.stopNow = false → s.Distinct event) : SessionTable (s.step event).1 := by
  cases step_case s event with
  | accepted id running step =>
    rw [step]
    exact h.accept (hdistinct running)
  | stopped step => exact ⟨h.ties, h.ids, h.own, h.exact⟩
  | piece n x r place session piece step =>
    rw [step]
    obtain ⟨hid, hown, hcase⟩ := piece_tables (h.own x (List.mem_of_getElem? session)) piece
    exact h.resume session hid hown hcase
  | silent step =>
    rw [step]
    exact h

/-- A server over a runtime that was just opened. -/
theorem sessionTable_init {opening : Opening} {fault : Option SaveFault} {disk : Disk} {impl : Impl}
    (hopen : (openRuntime opening fault disk).1 = some impl) (disk' : Disk) :
    SessionTable (server impl disk').init where
  ties := openRuntime_ties hopen
  ids := List.nodup_nil
  own _ hx := by cases hx
  exact b := by
    have hempty : impl.sessionIndex = [] :=
      congrArg Tables.sessions (openRuntime_tables hopen)
    show b ∈ impl.sessionIndex ↔ _
    rw [hempty]
    constructor
    · intro hb
      cases hb
    · rintro ⟨x, hx, -⟩
      cases hx

/-- The entry that the runtime has to hold for a session. -/
def Session.entry (x : Session) : Option SessionBinding :=
  match x.phase with
  | .ended => none
  | _ => x.binding

theorem Session.entry_eq_some {x : Session} {b : SessionBinding} : x.entry = some b ↔ x.Holds b := by
  unfold Session.entry Session.Holds
  cases x.phase <;> simp

/-- What the sessions hold, one by one, is the table up to its order. -/
theorem SessionTable.perm {s : Service} (h : SessionTable s) :
    s.impl.sessionIndex.Perm (s.sessions.filterMap (·.entry)) := by
  have hentries : (s.sessions.filterMap (·.entry)).Nodup := by
    have hsub : ∀ l : List Session, l.Sublist s.sessions →
        ((l.filterMap (·.entry)).map (·.id)).Sublist (l.map (·.id)) := by
      intro l hl
      induction l with
      | nil => exact .slnil
      | cons x l ih =>
        have hrest := ih ((List.sublist_cons_self x l).trans hl)
        rw [List.filterMap_cons]
        cases hentry : x.entry with
        | none => exact hrest.cons _
        | some b =>
          have hmem : x ∈ s.sessions := hl.subset List.mem_cons_self
          have hid : b.id = x.id := (h.own x hmem).binding b (Session.entry_eq_some.mp hentry).2
          show (b.id :: _).Sublist (x.id :: _)
          rw [hid]
          exact hrest.cons_cons _
    exact (h.ids.sublist (hsub _ (List.Sublist.refl _))).of_map
  refine (List.perm_ext_iff_of_nodup h.ties.ids.of_map hentries).mpr fun b => ?_
  rw [List.mem_filterMap]
  refine (h.exact b).trans ?_
  exact exists_congr fun x => and_congr_right fun _ => Session.entry_eq_some.symm

/-- **The runtime and the threads agree on the sessions.** A server over a runtime
that was just opened takes any steps, no identifier of a session being handed out
twice, and any of its calls may fail in any way. Then the table of the runtime is,
up to its order, what the sessions hold that have not ended, no two of these hold one
boot, and they are within the limit. -/
theorem sessionTable_exact {opening : Opening} {fault : Option SaveFault} {disk disk' : Disk}
    {impl : Impl} (hopen : (openRuntime opening fault disk).1 = some impl)
    (hdisk : (openRuntime opening fault disk).2.1 = disk') {s : Service}
    (hs : (server impl disk').Reaches Service.Distinct s) :
    s.impl.sessionIndex.Perm (s.sessions.filterMap (·.entry)) ∧
      ((s.sessions.filterMap (·.entry)).map (·.boot)).Nodup ∧
      (s.sessions.filterMap (·.entry)).length ≤ s.impl.options.limits.maxSessions := by
  have htable : SessionTable s := hs.invariant (I := SessionTable) (sessionTable_init hopen _)
    fun s event h hok => h.step fun _ => hok
  have hperm := htable.perm
  refine ⟨hperm, ?_, ?_⟩
  · exact (hperm.map (·.boot)).nodup_iff.mp htable.ties.boots
  · rw [← hperm.length_eq]
    exact htable.ties.bounded

/-! ## Behind a stop -/

/-- The most steps that a session can still take once the server stops. -/
def Phase.rank : Phase → Nat
  | .registered .. => 3
  | .serving => 2
  | .closing _ => 1
  | .ended => 0

/-- The most steps that all of them can. -/
def Service.remaining (s : Service) : Nat := (s.sessions.map (·.phase.rank)).sum

theorem Phase.rank_le (phase : Phase) : phase.rank ≤ 3 := by
  cases phase with
  | registered requestId result candidate => exact Nat.le_refl 3
  | serving => exact Nat.le_succ 2
  | closing violation => exact show 1 ≤ 3 by omega
  | ended => exact Nat.zero_le 3

/-- Behind a stop every piece brings its session closer to its end. -/
theorem piece_rank {s : Service} {x : Session} {event : Event} {r : Served} (hstop : s.stopNow = true)
    (hr : s.piece x event = some r) : r.session.phase.rank < x.phase.rank ∧ r.stopNow = true := by
  cases event with
  | accept id => cases hr
  | stop => cases hr
  | turn n incoming write entropy fault =>
    cases hphase : x.phase with
    | serving =>
      simp only [Service.piece, hphase] at hr
      cases hr
      -- the loop looks at the flag first
      have hfinish : s.serveTurn x incoming write entropy fault = s.finish x := if_pos hstop
      rw [hfinish]
      exact ⟨Nat.lt_succ_self 1, hstop⟩
    | _ => simp [Service.piece, hphase] at hr
  | bind n write =>
    cases hphase : x.phase with
    | registered requestId result candidate =>
      simp only [Service.piece, hphase] at hr
      cases hr
      unfold Service.bindTurn
      cases s.impl.bindSession candidate with
      | error e => exact ⟨show 1 < 3 by omega, hstop⟩
      | ok bound =>
        obtain ⟨bound, impl'⟩ := bound
        cases bound with
        | false => exact ⟨show 1 < 3 by omega, hstop⟩
        | true =>
          cases write with
          | none => exact ⟨show 2 < 3 by omega, hstop⟩
          | some e => exact ⟨show 1 < 3 by omega, hstop⟩
    | _ => simp [Service.piece, hphase] at hr
  | close n fault =>
    cases hphase : x.phase with
    | closing violation =>
      simp only [Service.piece, hphase] at hr
      cases hr
      unfold Service.closeTurn
      cases x.binding with
      | none => exact ⟨Nat.lt_succ_self 0, hstop⟩
      | some b => exact ⟨Nat.lt_succ_self 0, hstop⟩
    | _ => simp [Service.piece, hphase] at hr

/-- What one member of a list loses, the sum loses. -/
theorem sum_set_lt {α : Type} {f : α → Nat} {l : List α} {n : Nat} {x y : α} (hx : l[n]? = some x)
    (hlt : f y < f x) : ((l.set n y).map f).sum < (l.map f).sum := by
  induction l generalizing n with
  | nil => cases hx
  | cons a l ih =>
    cases n with
    | zero =>
      cases hx
      show f y + (l.map f).sum < f x + (l.map f).sum
      omega
    | succ n =>
      have hrest := ih hx
      show f a + ((l.set n y).map f).sum < f a + (l.map f).sum
      omega

/-- **A step behind a stop**: it brings the server closer to its end, or does
nothing. -/
theorem step_drains {s : Service} (hstop : s.stopNow = true) (event : Event) :
    (s.step event).1.stopNow = true ∧
      ((s.step event).2 = none ∧ (s.step event).1.remaining = s.remaining ∨
        (s.step event).1.remaining < s.remaining) := by
  cases step_case s event with
  | accepted id running step =>
    rw [hstop] at running
    cases running
  | stopped step => exact ⟨rfl, .inl ⟨rfl, rfl⟩⟩
  | piece n x r place session piece step =>
    obtain ⟨hrank, hstop'⟩ := piece_rank hstop piece
    rw [step]
    exact ⟨hstop', .inr (sum_set_lt session hrank)⟩
  | silent step =>
    rw [step]
    exact ⟨hstop, .inl ⟨rfl, rfl⟩⟩

section Drain

variable (impl : Impl) (disk : Disk)

/-- The steps of a run that did something. -/
def Service.effective (s : Service) (events : List Event) : List Served :=
  ((server impl disk).history s events).filterMap Prod.snd

theorem effective_cons (s : Service) (event : Event) (events : List Event) :
    s.effective impl disk (event :: events) =
      (s.step event).2.toList ++ (s.step event).1.effective impl disk events := by
  have hhistory : (server impl disk).history s (event :: events) =
      (event, (s.step event).2) :: (server impl disk).history (s.step event).1 events := rfl
  unfold Service.effective
  rw [hhistory, List.filterMap_cons]
  cases (s.step event).2 <;> rfl

theorem run_drains (events : List Event) {s : Service} (hstop : s.stopNow = true) :
    ((server impl disk).run s events).stopNow = true ∧
      (s.effective impl disk events).length + ((server impl disk).run s events).remaining ≤
        s.remaining := by
  induction events generalizing s with
  | nil => exact ⟨hstop, Nat.le_of_eq (Nat.zero_add _)⟩
  | cons event events ih =>
    obtain ⟨hstop', hdrains⟩ := step_drains hstop event
    obtain ⟨hstopped, hrest⟩ := ih hstop'
    refine ⟨hstopped, ?_⟩
    have hrun : (server impl disk).run s (event :: events) =
        (server impl disk).run (s.step event).1 events := rfl
    rw [hrun, effective_cons, List.length_append]
    rcases hdrains with ⟨hnone, hsame⟩ | hless
    · rw [hnone]
      show 0 + _ + _ ≤ _
      omega
    · have hone : (s.step event).2.toList.length ≤ 1 := by
        cases (s.step event).2 with
        | none => exact Nat.zero_le 1
        | some r => exact Nat.le_refl 1
      omega

/-- Behind the flag no session is accepted, and the table goes on being exact. -/
theorem SessionTable.stopped {s : Service} (h : SessionTable s) (hstop : s.stopNow = true)
    (events : List Event) : SessionTable ((server impl disk).run s events) := by
  induction events generalizing s with
  | nil => exact h
  | cons event events ih =>
    refine ih (h.step fun hrunning => ?_) (step_drains hstop event).1
    rw [hstop] at hrunning
    cases hrunning

/-- A session that has not ended can take a step. -/
theorem effective_of_live {s : Service} {x : Session} (hx : x ∈ s.sessions) (hlive : x.phase ≠ .ended) :
    ∃ event, (s.step event).2 ≠ none := by
  obtain ⟨n, hn⟩ := List.mem_iff_getElem?.mp hx
  cases hphase : x.phase with
  | serving =>
    refine ⟨.turn n .idle none (testEntropy 0) none, ?_⟩
    simp [Service.step, Service.served, Service.place, Service.piece, hn, hphase]
  | registered requestId result candidate =>
    refine ⟨.bind n none, ?_⟩
    simp [Service.step, Service.served, Service.place, Service.piece, hn, hphase]
  | closing violation =>
    refine ⟨.close n none, ?_⟩
    simp [Service.step, Service.served, Service.place, Service.piece, hn, hphase]
  | ended => exact absurd hphase hlive

/-- No more than three steps a session. -/
theorem remaining_le (s : Service) : s.remaining ≤ 3 * s.sessions.length := by
  unfold Service.remaining
  induction s.sessions with
  | nil => exact Nat.le_refl 0
  | cons x l ih =>
    have hrank := x.phase.rank_le
    show x.phase.rank + (l.map (·.phase.rank)).sum ≤ 3 * (l.length + 1)
    omega

/-- **A stop comes to its end.** Once the stop flag is up, the sessions take three
steps each at most, whatever comes in and whatever fails; and when none of them can
take one any more, all of them have ended and the tables of the runtime are empty. -/
theorem stopDrains {opening : Opening} {fault : Option SaveFault} {disk disk' : Disk} {impl : Impl}
    (hopen : (openRuntime opening fault disk).1 = some impl)
    (hdisk : (openRuntime opening fault disk).2.1 = disk') {s : Service}
    (hs : (server impl disk').Reaches Service.Distinct s) (hstop : s.stopNow = true)
    (events : List Event) :
    (s.effective impl disk' events).length ≤ 3 * s.sessions.length ∧
      ((∀ event, (((server impl disk').run s events).step event).2 = none) →
        (∀ x ∈ ((server impl disk').run s events).sessions, x.phase = .ended) ∧
          ((server impl disk').run s events).impl.sessionIndex = [] ∧
          ((server impl disk').run s events).impl.bootSessionIndex = []) := by
  have htable : SessionTable s := hs.invariant (I := SessionTable) (sessionTable_init hopen _)
    fun s event h hok => h.step fun _ => hok
  constructor
  · obtain ⟨-, hdrains⟩ := run_drains impl disk' events hstop
    have hremaining := remaining_le s
    omega
  · intro hdone
    have hended : ∀ x ∈ ((server impl disk').run s events).sessions, x.phase = .ended := by
      intro x hx
      by_contra hlive
      obtain ⟨event, heffect⟩ := effective_of_live hx hlive
      exact heffect (hdone event)
    have htable' : SessionTable ((server impl disk').run s events) := htable.stopped impl disk' hstop events
    have hsessions : ((server impl disk').run s events).impl.sessionIndex = [] := by
      refine List.eq_nil_iff_forall_not_mem.mpr fun b hb => ?_
      obtain ⟨x, hx, hholds⟩ := (htable'.exact b).mp hb
      exact hholds.1 (hended x hx)
    refine ⟨hended, hsessions, ?_⟩
    refine List.eq_nil_iff_forall_not_mem.mpr fun entry hentry => ?_
    obtain ⟨b, hb, -⟩ := (htable'.ties.inverse entry.1 entry.2).mpr hentry
    replace hb : b ∈ ((server impl disk').run s events).impl.sessionIndex := hb
    rw [hsessions] at hb
    cases hb

end Drain

/-! ### A worker that is bound when the server stops -/

/-- The server stops behind the binding, and the session comes to its end. -/
def drainingRun : List Event := [.turn 0 .idle none (testEntropy 8) none, .close 0 none]

/-- An opening, as a run of the coordinator. -/
theorem run_open (opening : Opening) (fault : Option SaveFault) (host : Host) :
    coordinator.run host [.open opening fault] =
      ⟨(openRuntime opening fault host.disk).2.1, (openRuntime opening fault host.disk).1⟩ := rfl

/-- The options and the entropy of `startedHost`. -/
def startedOpening : Opening := ⟨{}, testEntropy 9, testEntropy 9⟩

theorem startedHost_opened : (openRuntime startedOpening none .blank).1 = startedHost.runtime ∧
    (openRuntime startedOpening none .blank).2.1 = startedHost.disk := by
  have hrun : startedHost = ⟨_, _⟩ := run_open startedOpening none ⟨.blank, none⟩
  constructor
  · rw [hrun]
  · rw [hrun]

theorem sessionTable_exact_test : ∃ s : Service, s.impl.sessionIndex.length = 1 ∧
    s.impl.sessionIndex.Perm (s.sessions.filterMap (·.entry)) := by
  have hrun : (startedHost.runtime.map fun impl =>
      (decide ((server impl startedHost.disk).Allows Service.Distinct
        (server impl startedHost.disk).init bindingRun),
      ((server impl startedHost.disk).run (server impl startedHost.disk).init
        bindingRun).impl.sessionIndex.length)) = some (true, 1) := by decide +kernel
  obtain ⟨impl, himpl, hvalue⟩ := Option.map_eq_some_iff.mp hrun
  obtain ⟨hallows, hlength⟩ := Prod.mk.inj hvalue
  exact ⟨_, hlength, (sessionTable_exact (startedHost_opened.1.trans himpl) startedHost_opened.2
    (Machine.leads_run (of_decide_eq_true hallows))).1⟩

/-- A stopped server whose sessions have all ended does nothing more. -/
theorem silent_of_ended {s : Service} (hstop : s.stopNow = true)
    (hended : ∀ x ∈ s.sessions, x.phase = .ended) (event : Event) : (s.step event).2 = none := by
  cases step_case s event with
  | accepted id running step =>
    rw [step]
  | stopped step => rfl
  | piece n x r place session piece step =>
    have hrank := (piece_rank hstop piece).1
    rw [hended x (List.mem_of_getElem? session)] at hrank
    exact absurd hrank (Nat.not_lt_zero _)
  | silent step =>
    rw [step]

theorem stopDrains_test : ∃ s t : Service, s.impl.sessionIndex.length = 1 ∧
    t.impl.sessionIndex = [] := by
  have hrun : (startedHost.runtime.map fun impl =>
      (decide ((server impl startedHost.disk).Allows Service.Distinct
        (server impl startedHost.disk).init (bindingRun ++ [.stop])),
      ((server impl startedHost.disk).run (server impl startedHost.disk).init
        (bindingRun ++ [.stop])).stopNow,
      ((server impl startedHost.disk).run (server impl startedHost.disk).init
        (bindingRun ++ [.stop])).impl.sessionIndex.length,
      ((server impl startedHost.disk).run ((server impl startedHost.disk).run
        (server impl startedHost.disk).init (bindingRun ++ [.stop])) drainingRun).sessions.map
        (·.phase.rank))) = some (true, true, 1, [0]) := by decide +kernel
  obtain ⟨impl, himpl, hvalue⟩ := Option.map_eq_some_iff.mp hrun
  obtain ⟨hallows, hrest⟩ := Prod.mk.inj hvalue
  obtain ⟨hstop, hrest⟩ := Prod.mk.inj hrest
  obtain ⟨hlength, hranks⟩ := Prod.mk.inj hrest
  have hdrained := (stopDrains (startedHost_opened.1.trans himpl) startedHost_opened.2
    (Machine.leads_run (of_decide_eq_true hallows)) hstop drainingRun).2
  refine ⟨_, _, hlength, (hdrained (silent_of_ended ?_ ?_)).2.1⟩
  · exact (run_drains _ _ drainingRun hstop).1
  · intro x hx
    have hrank : x.phase.rank ∈ [0] := hranks ▸ List.mem_map_of_mem hx
    cases hphase : x.phase with
    | ended => rfl
    | _ => simp [hphase, Phase.rank] at hrank

end FabricEpoch
