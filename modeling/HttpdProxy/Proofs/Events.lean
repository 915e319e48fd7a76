import HttpdProxy.Proofs.Handlers
import HttpdProxy.Protocol.Stages

/-!
# An event is a chain of moves

The jump, the ways a connection is closed, and the four handlers of the two
sockets: from a resting connection, an event is a chain of moves that ends at
rest again or with the connection freed.
-/

namespace HttpdProxy

section

variable {x₀ : Ctx} {x x' : Ctx} {ci : Interest} {oi : Option Interest} {env : Env}
  {next : ConnState}

/-! ## Closing -/

/-- `done_on_arrival` frees the connection and takes its items away. -/
theorem doneOnArrival_gone (h : View x₀ x ci oi) (hr : doneOnArrival x = .ok x') :
    x'.conn = x.conn ∧ x'.world.metrics = x.world.metrics ∧ Gone x₀ x' := by
  obtain ⟨x1, hx1, hr⟩ := Lib.bind_eq_ok.mp hr
  have hfirst : x1.conn = x.conn ∧ x1.world.metrics = x.world.metrics ∧ View x₀ x1 ci none := by
    unfold unregisterOrigin at hx1
    cases oi with
    | some i =>
        obtain ⟨_, hst⟩ := h.origin i rfl
        obtain ⟨x2, hun, hc, hm, hv, _⟩ := h.unregister_origin
        rw [if_pos hst, hun] at hx1
        cases hx1
        exact ⟨hc, hm, hv⟩
    | none =>
        by_cases hst : x.conn.originStatus = .inactiveStatus
        · rw [if_neg (by simpa using hst)] at hx1
          cases hx1
          exact ⟨rfl, rfl, h⟩
        · have hn := (h.stale rfl).resolve_left hst
          rw [if_pos hst, View.unregister_none hn] at hx1
          cases hx1
          exact ⟨rfl, rfl, h⟩
  obtain ⟨hc1, hm1, h1⟩ := hfirst
  obtain ⟨c, hderef, hr⟩ := Lib.bind_eq_ok.mp hr
  rw [Ctx.deref, h1.alive] at hderef
  cases hderef
  obtain ⟨st, x2, hun, hc, hm, hg⟩ := h1.unregister_client
  rw [hun] at hr
  cases hr
  exact ⟨hc.trans hc1, hm.trans hm1, hg⟩

theorem closeProxyConnection_gone (h : View x₀ x ci oi)
    (hr : closeProxyConnection x = .ok x') :
    x'.conn = x.conn ∧ x'.world.metrics = x.conn.uncounted x.world.metrics ∧
      Gone x₀ x' := by
  have hdone : closeProxyConnection x = doneOnArrival
      (if x.conn.stmState.num ≥ ConnState.sendRequestLine.num then
        x.setMetrics unregisterConnection
      else x) := rfl
  rw [hdone] at hr
  unfold Conn.uncounted
  split at hr
  · next hn =>
      rw [if_pos hn]
      exact doneOnArrival_gone h.setMetrics hr
  · next hn =>
      rw [if_neg hn]
      exact doneOnArrival_gone h hr

/-! ## Arriving at a state -/

/-- Arriving at ERROR: whatever is left of the origin is no longer waited
for. -/
theorem View.error_arrival (h : View x₀ x ci oi) (hcur : x.conn.current = some .error)
    (hr : errorOnArrival x = .ok x') :
    writeError x.conn = .ok x'.conn ∧ x'.world.metrics = x.world.metrics ∧
      ∃ oi', Resting x₀ x' oi' := by
  unfold errorOnArrival at hr
  obtain ⟨c, hc, hr⟩ := Lib.bind_eq_ok.mp hr
  obtain ⟨buffer, hb, hcc⟩ := Lib.bind_eq_ok.mp hc
  cases hcc
  have hv : View x₀ (x.setConn { x.conn with originBuffer := buffer }) ci oi :=
    h.setConn rfl rfl Iff.rfl
  have hv' := hv.setInterest_client opWrite
  have hst : Conn.stmState { x.conn with originBuffer := buffer } = .error :=
    Conn.stmState_of_current hcur
  have hi : Conn.interests { x.conn with originBuffer := buffer } = (opWrite, opNoop) := by
    rw [Conn.interests, hst]
    rfl
  have hrest : ∀ {x1 : Ctx} {oi' : Option Interest},
      x1.conn = { x.conn with originBuffer := buffer } → View x₀ x1 opWrite oi' →
      (∀ i, oi' = some i → i = opNoop) → Resting x₀ x1 oi' := by
    intro x1 oi' he hv1 hoi
    refine ⟨?_, fun hs => ?_, fun hs => ?_, fun i hsome => ?_⟩
    · rw [he, hi]
      exact hv1
    · rw [he, hst] at hs
      cases hs
    · rw [he, hst] at hs
      cases hs
    · rw [he, hi]
      exact hoi i hsome
  cases oi with
  | some i =>
      obtain ⟨_, hs⟩ := h.origin i rfl
      rw [if_pos hs] at hr
      cases hr
      refine ⟨hc, rfl, _, hrest rfl (hv'.setInterest_origin opNoop) ?_⟩
      intro j hj
      cases hj
      rfl
  | none =>
      by_cases hs : x.conn.originStatus = .inactiveStatus
      · rw [if_neg (by simpa using hs)] at hr
        cases hr
        exact ⟨hc, rfl, _, hrest rfl hv' (by intro i hi; cases hi)⟩
      · have hn := (hv'.stale rfl).resolve_left hs
        rw [if_pos hs] at hr
        injection hr with hr
        obtain rfl := hr.symm.trans (View.setInterest_none hn)
        exact ⟨hc, rfl, _, hrest rfl hv' (by intro i hi; cases hi)⟩

theorem Ctx.Kept.setConn {c : Conn} (h : x.Kept) (hst : c.originStatus = x.conn.originStatus)
    (hfd : c.originFd = x.conn.originFd) : (x.setConn c).Kept := by
  rw [Ctx.Kept, Ctx.setConn_conn, hst, hfd]
  exact h

/-- An interest that is set takes no item away. -/
theorem Ctx.Kept.setInterest (h : x.Kept) (fd : Int) (i : Interest) :
    (x.setInterest fd i).Kept := by
  refine h.imp_right fun ⟨it, hit, hd⟩ => ?_
  simp only [Ctx.setInterest, Ctx.setSel_sel, Ctx.setSel_conn, Selector.setInterest_fds]
  rcases Decidable.em (x.conn.originFd = fd) with rfl | hne
  · rw [setFd_self, hit]
    exact ⟨_, rfl, hd⟩
  · rw [setFd_of_ne hne]
    exact ⟨it, hit, hd⟩

theorem errorOnArrival_kept (h : x.Kept) (hr : errorOnArrival x = .ok x') : x'.Kept := by
  obtain ⟨c, hc, hr⟩ := Lib.bind_eq_ok.mp hr
  obtain ⟨buffer, _, hcc⟩ := Lib.bind_eq_ok.mp hc
  cases hcc
  have hk : (x.setConn { x.conn with originBuffer := buffer }).Kept := h.setConn rfl rfl
  split at hr
  · cases hr
    exact (hk.setInterest _ _).setInterest _ _
  · cases hr
    exact hk.setInterest _ _

/-- A resting connection is kept to its origin, unless it is in ERROR. -/
theorem Resting.kept (h : Resting x₀ x oi) (hs : x.conn.stmState.hasOrigin = true) : x.Kept := by
  obtain ⟨i, rfl⟩ := Option.isSome_iff_exists.mp (h.needed hs)
  exact h.view.kept

theorem arrival_attempts {d : DohUtils} {c c' : Conn} {s : ConnState}
    (h : c.arrival d env s = .ok c') : attempts c'.trace = attempts c.trace := by
  cases s with
  | sendDohRequest =>
      obtain ⟨buffer, _, h⟩ := Lib.bind_eq_ok.mp h
      cases h
      rfl
  | awaitDohResponse =>
      cases h
      unfold initDohState
      split
      · rfl
      · split <;> rfl
  | sendRequestLine =>
      obtain ⟨buffer, _, h⟩ := Lib.bind_eq_ok.mp h
      cases h
      rfl
  | connected =>
      cases h
      split <;> rfl
  | closing =>
      cases h
      exact originFirst_attempts c
  | emptyBuffers =>
      cases h
      exact clientFirst_attempts c
  | error =>
      obtain ⟨buffer, _, h⟩ := Lib.bind_eq_ok.mp h
      cases h
      rfl
  | _ =>
      cases h
      rfl

/-- Arriving at any state but DONE. -/
theorem onArrival_rests {s : ConnState} (h : View x₀ x ci oi)
    (hcur : x.conn.current = some s) (hneed : s.hasOrigin = true → oi.isSome)
    (hne : s ≠ .done) (hnp : s ≠ .parsingRequestLine)
    (hr : onArrival env s x = .ok x') :
    x.conn.arrival x₀.world.dohUtils env s = .ok x'.conn ∧
      x'.world.metrics = x.world.metrics ∧ ∃ oi', Resting x₀ x' oi' := by
  have hst : x.conn.stmState = s := Conn.stmState_of_current hcur
  have hsome : s.hasOrigin = true → ∃ j, oi = some j :=
    fun hs => Option.isSome_iff_exists.mp (hneed hs)
  cases s with
  | parsingRequestLine => exact absurd rfl hnp
  | done => exact absurd rfl hne
  | error => exact h.error_arrival hcur hr
  | tryConnectionIp =>
      obtain ⟨j, rfl⟩ := hsome rfl
      cases hr
      exact ⟨rfl, rfl, _, h.rest_set hcur rfl rfl⟩
  | sendDohRequest =>
      obtain ⟨j, rfl⟩ := hsome rfl
      obtain ⟨buffer, hb, hr⟩ := Lib.bind_eq_ok.mp hr
      cases hr
      rw [h.frame.dohUtils] at hb
      refine ⟨Lib.bind_eq_ok.mpr ⟨buffer, hb, rfl⟩, rfl, some opWrite, ?_⟩
      have hv : View x₀ ((x.setConn { x.conn with originBuffer := buffer }).log
          (.query (queryType x.conn))) ci (some j) := h.setConn rfl rfl Iff.rfl
      exact hv.rest_set hcur rfl rfl
  | awaitDohResponse =>
      obtain ⟨j, rfl⟩ := hsome rfl
      cases hr
      have hkeep : (initDohState env x.conn).current = x.conn.current ∧
          (initDohState env x.conn).clientFd = x.conn.clientFd ∧
          (initDohState env x.conn).originFd = x.conn.originFd ∧
          (initDohState env x.conn).originStatus = x.conn.originStatus := by
        unfold initDohState
        split
        · exact ⟨rfl, rfl, rfl, rfl⟩
        · split <;> exact ⟨rfl, rfl, rfl, rfl⟩
      obtain ⟨h1, h2, h3, h4⟩ := hkeep
      exact ⟨rfl, rfl, _, (h.setConn h2 h3 (by rw [h4])).rest_set (h1.trans hcur) rfl rfl⟩
  | sendRequestLine =>
      obtain ⟨j, rfl⟩ := hsome rfl
      obtain ⟨buffer, hb, hr⟩ := Lib.bind_eq_ok.mp hr
      cases hr
      refine ⟨Lib.bind_eq_ok.mpr ⟨buffer, hb, rfl⟩, rfl, some opWrite, ?_⟩
      have hv : View x₀ (x.setConn { x.conn with originBuffer := buffer }) ci (some j) :=
        h.setConn rfl rfl Iff.rfl
      exact hv.rest_set hcur rfl rfl
  | connected =>
      obtain ⟨j, rfl⟩ := hsome rfl
      simp only [onArrival, connectedOnArrival, setConnectionInterests,
        Except.ok.injEq] at hr
      simp only [Conn.arrival]
      split at hr
      · next hc =>
          subst hr
          have hv : View x₀ (x.setConn (initHttpResponse x.conn)) ci (some j) :=
            h.setConn rfl rfl Iff.rfl
          exact ⟨by rw [if_pos hc]; rfl, rfl, _, hv.rest_set hcur rfl rfl⟩
      · next hc =>
          subst hr
          exact ⟨by rw [if_neg hc]; rfl, rfl, _, h.rest_set hcur rfl rfl⟩
  | closing =>
      obtain ⟨j, rfl⟩ := hsome rfl
      cases hr
      have hcc : x.conn.closeOrigin.closeClient.current = some .closing := by simpa using hcur
      have hv : View x₀ (x.setConn x.conn.closeOrigin.closeClient) ci (some j) :=
        h.setConn (by simp) (by simp) (by simp)
      exact ⟨rfl, rfl, _, hv.rest_set hcc rfl (Conn.closingInterests_closed x.conn)⟩
  | emptyBuffers =>
      obtain ⟨j, rfl⟩ := hsome rfl
      cases hr
      have hcc : x.conn.closeClient.closeOrigin.current = some .emptyBuffers := by
        simpa using hcur
      have hv : View x₀ (x.setConn x.conn.closeClient.closeOrigin) ci (some j) :=
        h.setConn (by simp) (by simp) (by simp)
      refine ⟨rfl, rfl, _, hv.rest_set hcc rfl ?_⟩
      simp [ConnState.interests, emptyBuffersInterests]

theorem jump_moves (h : Landed x₀ x next) (hnp : next = .parsingRequestLine →
      x.conn.current = some .parsingRequestLine)
    (hr : jump env next x = .ok x') :
    ∃ ph, Course x₀.world.dohUtils env (.goto next, x) (ph, x') ∧ Settled x₀ x' ph := by
  by_cases hcur : x.conn.current = some next
  · obtain ⟨oi, hrest⟩ := h.stay hcur
    obtain ⟨c, hderef, hr⟩ := Lib.bind_eq_ok.mp hr
    rw [Ctx.deref, hrest.view.alive] at hderef
    cases hderef
    rw [if_neg (by simpa using hcur)] at hr
    cases hr
    exact ⟨.rest, .single (.record (f := id) (by simp) (.stay hcur) rfl (fun hr => by cases hr)
      rfl id), .inl ⟨rfl, oi, hrest.rested⟩⟩
  · obtain ⟨ci, oi, hv, hneed⟩ := h.leave hcur
    obtain ⟨c, hderef, hr⟩ := Lib.bind_eq_ok.mp hr
    rw [Ctx.deref, hv.alive] at hderef
    cases hderef
    rw [if_pos hcur] at hr
    have hv' : View x₀ (x.setConn (x.conn.entered next)) ci oi :=
      hv.setConn rfl rfl Iff.rfl
    by_cases hdone : next = .done
    · subst hdone
      obtain ⟨hc, hm, hg⟩ := doneOnArrival_gone hv' hr
      have hmid : x'.mid .gone = ⟨.gone, x.conn.entered .done, x.world.metrics⟩ := by
        rw [Ctx.mid, hc, hm]
        rfl
      refine ⟨.gone, .single (.outward (by simp) ?_ (by rw [hc]; rfl) rfl ?_), .inr ⟨rfl, hg⟩⟩
      · rw [hmid]
        exact .free hcur
      · intro _ hp
        rcases hp with hp | hp <;> cases hp
    · obtain ⟨harr, hm, oi', hrest⟩ := onArrival_rests hv' rfl hneed hdone
        (fun hp => hcur (hp ▸ hnp hp)) hr
      have hmid : x'.mid .rest = ⟨.rest, x'.conn, x.world.metrics⟩ := by
        rw [Ctx.mid, hm]
        rfl
      refine ⟨.rest, .single (.outward (by simp) ?_ ?_ rfl ?_), .inl ⟨rfl, oi', hrest.rested⟩⟩
      · rw [hmid]
        exact .arrive env hcur hdone harr
      · have hatt : attempts x'.conn.trace = attempts (x.conn.entered next).trace :=
          arrival_attempts harr
        exact hatt.trans rfl
      · intro hk _
        have hcc : x'.conn.current = (x.conn.entered next).current := arrival_current harr
        have hst : x'.conn.stmState = next := Conn.stmState_of_current hcc
        by_cases herr : next = .error
        · subst herr
          have hk' : (x.setConn (x.conn.entered .error)).Kept := hk.setConn rfl rfl
          exact errorOnArrival_kept hk' hr
        · refine hrest.kept ?_
          rw [hst]
          cases next with
          | parsingRequestLine => exact absurd (hnp rfl) hcur
          | done => exact absurd rfl hdone
          | error => exact absurd rfl herr
          | _ => rfl

/-! ## The engine -/

/-- A handler that goes to PARSING_REQUEST_LINE is in it already. -/
theorem Move.goto_parsing {d : DohUtils} {a b : Mid} (h : Move d a b)
    (hp : b.phase = .goto .parsingRequestLine) :
    b.conn.current = some .parsingRequestLine := by
  cases h with
  | parseIdle hcur _ => exact hcur
  | draining hcur hs _ =>
      cases hp
      rcases hs with hs | hs | hs <;> cases hs
  | parseDone _ _ _ _ ha =>
      cases hp
      cases ha with
      | opened hr => cases hr
  | walkOpen _ _ _ _ hr =>
      cases hp
      cases hr
  | ask ha =>
      cases hp
      cases ha with
      | opened hr => cases hr
  | drained hcur hs _ =>
      have hst := Conn.stmState_of_current hcur
      rcases hs with rfl | rfl | rfl <;> simp [Conn.afterDrain, hst] at hp
  | tryNext =>
      unfold Conn.nextDns at hp
      dsimp only at hp
      split at hp <;> split at hp <;> cases hp
  | awaitEnd =>
      unfold Conn.nextDns at hp
      dsimp only at hp
      split at hp <;> split at hp <;> cases hp
  | walkEnd =>
      unfold Conn.exhausted at hp
      dsimp only at hp
      split at hp <;> cases hp
  | awaitByte =>
      unfold Conn.judged at hp
      dsimp only at hp
      split at hp
      · cases hp
      · cases hp
      · cases hp
      · split at hp <;> cases hp
  | _ => cases hp

theorem handleFirst_moves {x1 : Ctx} {key : SelectorKey} (h : Handling x₀ x ci oi)
    (hr : handleFirst env x = .ok x1) :
    Handling x₀ x1 ci oi ∧ x1.conn.current = some x1.conn.stmState ∧
      Course x₀.world.dohUtils env (.reading key, x) (.reading key, x1) := by
  unfold handleFirst at hr
  split at hr
  · next hcur =>
      cases hr
      have hst : x.conn.stmState = .parsingRequestLine := by rw [Conn.stmState, hcur]; rfl
      exact ⟨h.setConn hst.symm rfl rfl Iff.rfl, rfl, .single (.record (f := id) (by simp)
        (.start _ hcur) rfl (fun hr => by cases hr) rfl id)⟩
  · next hcur =>
      cases hr
      obtain ⟨s, hs⟩ := Option.ne_none_iff_exists'.mp hcur
      exact ⟨h, by rw [hs, Conn.stmState_of_current hs], .refl⟩

theorem onReadReady_moves {key : SelectorKey} {s : ConnState} (h : Handling x₀ x ci oi)
    (hcur : x.conn.current = some s) (hr : onReadReady env key s x = .ok (next, x')) :
    Course x₀.world.dohUtils env (.reading key, x) (.goto next, x') ∧ Landed x₀ x' next := by
  cases s with
  | parsingRequestLine => exact parsingHostOnReadReady_moves h hcur hr
  | awaitDohResponse => exact awaitDohResponseOnReadReady_moves h hcur hr
  | connected => exact connectedOnReadReady_moves h hcur hr
  | closing => exact closingOnReadReady_moves h hcur hr
  | _ => cases hr

theorem onWriteReady_moves {s : ConnState} (h : Handling x₀ x ci oi)
    (hcur : x.conn.current = some s) (hr : onWriteReady env s x = .ok (next, x')) :
    Course x₀.world.dohUtils env (.writing, x) (.goto next, x') ∧ Landed x₀ x' next := by
  have hst := Conn.stmState_of_current hcur
  cases s with
  | tryConnectionIp => exact tryConnectionIpOnWriteReady_moves h hcur hr
  | sendDohRequest =>
      exact onDrained_moves h hcur (.inl rfl) (by rw [Conn.afterDrain, hst]) hr
  | sendRequestLine =>
      exact onDrained_moves h hcur (.inr (.inl rfl)) (by rw [Conn.afterDrain, hst]) hr
  | error => exact onDrained_moves h hcur (.inr (.inr rfl)) (by rw [Conn.afterDrain, hst]) hr
  | connected => exact connectedOnWriteReady_moves h hcur hr
  | closing => exact closingOnWriteReady_moves h hcur hr
  | emptyBuffers => exact emptyBuffersOnWriteReady_moves h hcur hr
  | _ => cases hr

/-- From the handler of a state, over the jump, to the end of the event. -/
theorem handler_moves {start : Ctx} {ph : Phase} (hne : ph ≠ .goto next)
    (hs : Course x₀.world.dohUtils env (ph, start) (.goto next, x)) (h : Landed x₀ x next)
    (hr : jump env next x = .ok x') :
    ∃ ph', Course x₀.world.dohUtils env (ph, start) (ph', x') ∧ Settled x₀ x' ph' := by
  have hnp : next = .parsingRequestLine → x.conn.current = some .parsingRequestLine := by
    intro hp
    rcases Relation.ReflTransGen.cases_tail hs with he | ⟨b, _, hlast⟩
    · exact absurd (congrArg Prod.fst he).symm hne
    · exact hlast.move.goto_parsing (by rw [hp]; rfl)
  obtain ⟨ph', hs', hset⟩ := jump_moves h hnp hr
  exact ⟨ph', hs.trans hs', hset⟩

theorem stmHandlerRead_moves {key : SelectorKey} (h : Handling x₀ x ci oi)
    (hr : stmHandlerRead env key x = .ok x') :
    ∃ ph, Course x₀.world.dohUtils env (.reading key, x) (ph, x') ∧ Settled x₀ x' ph := by
  obtain ⟨x1, hfirst, hr⟩ := Lib.bind_eq_ok.mp hr
  obtain ⟨⟨n, x2⟩, hready, hjump⟩ := Lib.bind_eq_ok.mp hr
  obtain ⟨h1, hcur, hs⟩ := @handleFirst_moves _ _ _ _ _ _ key h hfirst
  obtain ⟨hs', hl⟩ := onReadReady_moves h1 hcur hready
  obtain ⟨ph, hsteps, hset⟩ := handler_moves (by simp) hs' hl hjump
  exact ⟨ph, hs.trans hsteps, hset⟩

theorem stmHandlerWrite_moves (h : Handling x₀ x ci oi) (hne : x.conn.current ≠ none)
    (hr : stmHandlerWrite env x = .ok x') :
    ∃ ph, Course x₀.world.dohUtils env (.writing, x) (ph, x') ∧ Settled x₀ x' ph := by
  obtain ⟨x1, hfirst, hr⟩ := Lib.bind_eq_ok.mp hr
  obtain ⟨⟨n, x2⟩, hready, hjump⟩ := Lib.bind_eq_ok.mp hr
  rw [handleFirst, if_neg hne] at hfirst
  cases hfirst
  obtain ⟨s, hs⟩ := Option.ne_none_iff_exists'.mp hne
  rw [Conn.stmState_of_current hs] at hready
  obtain ⟨hs', hl⟩ := onWriteReady_moves h hs hready
  exact handler_moves (by simp) hs' hl hjump

/-! ## The handlers of the two sockets -/

/-- Where an event on a resting connection ends. -/
def EventPost (x₀ : Ctx) (x x' : Ctx) : Prop :=
  ∃ ph, Steps x₀.world.dohUtils (x.mid .rest) (x'.mid ph) ∧ Settled x₀ x' ph

/-- What a `read` that did not fail was: bytes, or the end of the stream. -/
def readAct (side : Side) (bs : Bytes) : Act := if bs = [] then .eof side else .received side bs

/-- The first move of an event, into the handler of the state: a `read`
brought `brought`, or nothing was read. -/
structure Entry (d : DohUtils) (x : Ctx) (brought : Option Act) (b : Phase × Ctx) : Prop where
  move : Move d (x.mid .rest) (b.2.mid b.1)
  enters : b.1 = .writing ∨ ∃ key act, b.1 = .reading key ∧ brought = some act ∧
    b.2.conn.trace = act :: x.conn.trace
  opens : b.2.opens = x.opens
  opened : b.2.world.opened = x.world.opened
  kept : x.Kept → b.2.Kept

/-- The only move of an event that closes the connection: it is uncounted once,
and if it was to be told of an error that could not be sent. -/
structure Closing (d : DohUtils) (env : Env) (x x' : Ctx) : Prop where
  move : Move d (x.mid .rest) (x'.mid .gone)
  metrics : x'.world.metrics = x.conn.uncounted x.world.metrics
  unsent : x.conn.stmState = .error → (sendFrom env x.conn.originBuffer).getD 0 = 0

/-- An event on a resting connection: its first move leads into a handler, or
closes the connection at once. -/
def EventCourse (env : Env) (x₀ x : Ctx) (brought : Option Act) (x' : Ctx) : Prop :=
  ∃ ph, Settled x₀ x' ph ∧
    ((∃ b, Entry x₀.world.dohUtils x brought b ∧ Course x₀.world.dohUtils env b (ph, x')) ∨
      ph = .gone ∧ Closing x₀.world.dohUtils env x x')

theorem EventCourse.post {brought : Option Act} (h : EventCourse env x₀ x brought x') :
    EventPost x₀ x x' := by
  obtain ⟨ph, hset, ⟨b, hentry, hcourse⟩ | ⟨rfl, hclosing⟩⟩ := h
  · exact ⟨ph, .head hentry.move hcourse.steps, hset⟩
  · exact ⟨.gone, .single hclosing.move, hset⟩

/-- One move, and the connection is freed. -/
theorem EventCourse.gone {brought : Option Act} {c : Conn} (hc : x'.conn = c)
    (hm : x'.world.metrics = x.conn.uncounted x.world.metrics) (hg : Gone x₀ x')
    (hmove : Move x₀.world.dohUtils (x.mid .rest)
      ⟨.gone, c, x.conn.uncounted x.world.metrics⟩)
    (hunsent : x.conn.stmState = .error → (sendFrom env x.conn.originBuffer).getD 0 = 0) :
    EventCourse env x₀ x brought x' := by
  subst hc
  refine ⟨.gone, .inr ⟨rfl, hg⟩, .inr ⟨rfl, ?_, hm, hunsent⟩⟩
  rw [Ctx.mid, Ctx.mid, hm]
  exact hmove

/-- A failed `read` or `send` closes the connection. -/
theorem Resting.close_moves (h : Resting x₀ x oi)
    (hr : closeProxyConnection x.touch = .ok x')
    (hunsent : x.conn.stmState = .error → (sendFrom env x.conn.originBuffer).getD 0 = 0)
    {brought : Option Act} : EventCourse env x₀ x brought x' := by
  have hv : View x₀ x.touch x.conn.interests.1 oi := h.view.setConn rfl rfl Iff.rfl
  obtain ⟨hc, hm, hg⟩ := closeProxyConnection_gone hv hr
  exact .gone hc hm hg (.close _) hunsent

/-- In ERROR only the client's socket is waited for, to be written. -/
theorem interests_inError {c : Conn} (h : c.stmState = .error) :
    c.interests = (opWrite, opNoop) := by
  rw [Conn.interests, h]
  rfl

/-- A first move, and the engine's read handler. -/
theorem Resting.read_moves {x1 : Ctx} {key : SelectorKey} {side : Side} {bs : Bytes}
    {got : Option Bytes} (h1 : Handling x₀ x1 ci oi)
    (hr : stmHandlerRead env key x1 = .ok x')
    (hmove : Move x₀.world.dohUtils (x.mid .rest) (x1.mid (.reading key)))
    (hgot : got = some bs) (ht : x1.conn.trace = readAct side bs :: x.conn.trace)
    (ho : x1.opens = x.opens) (hw : x1.world = x.world) (hk : x.Kept → x1.Kept) :
    EventCourse env x₀ x (got.map (readAct side)) x' := by
  obtain ⟨ph, hs, hset⟩ := stmHandlerRead_moves h1 hr
  have henters : got.map (readAct side) = some (readAct side bs) := by rw [hgot]; rfl
  exact ⟨ph, hset, .inl ⟨_, ⟨hmove, .inr ⟨key, _, rfl, henters, ht⟩, ho,
    congrArg World.opened hw, hk⟩, hs⟩⟩

/-- A first move, and the engine's write handler. -/
theorem Resting.write_moves {x1 : Ctx} {brought : Option Act} (h1 : Handling x₀ x1 ci oi)
    (hne : x1.conn.current ≠ none) (hr : stmHandlerWrite env x1 = .ok x')
    (hmove : Move x₀.world.dohUtils (x.mid .rest) (x1.mid .writing))
    (ho : x1.opens = x.opens) (hw : x1.world.opened = x.world.opened)
    (hk : x.Kept → x1.Kept) : EventCourse env x₀ x brought x' := by
  obtain ⟨ph, hs, hset⟩ := stmHandlerWrite_moves h1 hne hr
  exact ⟨ph, hset, .inl ⟨_, ⟨hmove, .inl rfl, ho, hw, hk⟩, hs⟩⟩

theorem proxyClientRead_moves {key : SelectorKey} (h : Resting x₀ x oi)
    (hint : x.conn.interests.1.read = true) (hkey : key.fd = x.conn.clientFd)
    (hr : proxyClientRead env key x = .ok x') :
    EventCourse env x₀ x ((readInto env x.conn.clientBuffer).map (readAct .client)) x' := by
  have hnone : x.conn.stmState = .error → (sendFrom env x.conn.originBuffer).getD 0 = 0 := by
    intro herr
    rw [interests_inError herr] at hint
    cases hint
  unfold proxyClientRead at hr
  dsimp only at hr
  split at hr
  · exact h.close_moves hr hnone
  · next hread =>
    split at hr
    · next hlt =>
        have hv : View x₀ (x.touch.log (.eof .client)) x.conn.interests.1 oi :=
          h.view.setConn rfl rfl Iff.rfl
        obtain ⟨hc, hm, hg⟩ := closeProxyConnection_gone hv hr
        exact .gone hc hm hg (.closeEarly _ hlt) hnone
    · next hge =>
        have hh : Handling x₀ (x.touch.setConn x.touch.conn.endOfClient) _ oi :=
          h.handling.setConn rfl rfl rfl Iff.rfl
        exact Resting.read_moves hh hr (.endOfClient _ hint hkey (Nat.le_of_not_lt hge)) hread
          rfl rfl rfl id
  · next bs hne hread =>
      obtain ⟨buffer, hb, hr⟩ := Lib.bind_eq_ok.mp hr
      have hh : Handling x₀ (x.touch.setConn (x.touch.conn.fromClient bs buffer)) _ oi :=
        h.handling.setConn rfl rfl rfl Iff.rfl
      exact Resting.read_moves hh hr (.readClient _ hint hkey hne hb) hread
        (by rw [readAct, if_neg hne]; rfl) rfl rfl id

/-- The client takes a part of the error reply, and no more. -/
def Conn.repliesInPart (env : Env) (c : Conn) : Bool :=
  c.stmState == .error &&
    match sendFrom env c.originBuffer with
    | some n => decide (0 < n ∧ n < c.originBuffer.unread.length)
    | none => false

/-- A connection past its first state has got there. -/
theorem Conn.current_of_stmState {c : Conn} {s : ConnState} (hs : s ≠ .parsingRequestLine)
    (h : s = c.stmState) : c.current = some s := by
  unfold Conn.stmState at h
  cases hc : c.current with
  | none =>
      rw [hc] at h
      exact absurd h hs
  | some t =>
      rw [hc] at h
      exact congrArg some h.symm

/-- What is left of the error reply is sent later. -/
theorem stmHandlerWrite_part (hcur : x.conn.current = some .error) (halive : x.freed = false)
    (hmore : bufferCanRead x.conn.originBuffer = true) : stmHandlerWrite env x = .ok x := by
  have hst : x.conn.stmState = .error := Conn.stmState_of_current hcur
  have hready : onWriteReady env x.conn.stmState x = .ok (.error, x) := by
    rw [hst]
    change onDrained .done x = _
    rw [onDrained, hmore, hst]
    rfl
  unfold stmHandlerWrite
  rw [handleFirst, if_neg (by rw [hcur]; simp)]
  change (onWriteReady env x.conn.stmState x >>= fun r => jump env r.1 r.2) = .ok x
  rw [hready]
  change jump env .error x = .ok x
  unfold jump Ctx.deref
  rw [halive]
  change (if x.conn.current ≠ some .error then _ else _) = _
  rw [if_neg (not_not_intro hcur)]

/-- What a send of a part of the error reply leaves. -/
def Ctx.sentPart (x : Ctx) (n : Nat) (buffer : Buffer) : Ctx :=
  (x.touch.setMetrics (increaseBytesReceived n)).setConn
    (x.touch.conn.toClient (x.conn.originBuffer.unread.take n) buffer)

/-- The connection is not closed, and only its record changes. -/
theorem proxyClientWrite_part (halive : x.freed = false)
    (hpart : x.conn.repliesInPart env = true) :
    ∃ n, 0 < n ∧ n < x.conn.originBuffer.unread.length ∧ x.conn.stmState = .error ∧
      proxyClientWrite env x =
        bufferReadAdv x.conn.originBuffer n >>= fun buffer => .ok (x.sentPart n buffer) := by
  unfold Conn.repliesInPart at hpart
  obtain ⟨hst, hpart⟩ := (Bool.and_eq_true _ _).mp hpart
  have hst : x.conn.stmState = .error := eq_of_beq hst
  split at hpart
  · next n hsend =>
      obtain ⟨hpos, hlt⟩ := of_decide_eq_true hpart
      refine ⟨n, hpos, hlt, hst, ?_⟩
      obtain ⟨k, rfl⟩ := Nat.exists_eq_succ_of_ne_zero (Nat.ne_of_gt hpos)
      unfold proxyClientWrite
      dsimp only
      rw [show sendFrom env x.touch.conn.originBuffer = some (k + 1) from hsend]
      change (bufferReadAdv x.conn.originBuffer (k + 1) >>= fun buffer =>
        stmHandlerWrite env (x.sentPart (k + 1) buffer)) = _
      cases hb : bufferReadAdv x.conn.originBuffer (k + 1) with
      | error e => rfl
      | ok buffer =>
          refine stmHandlerWrite_part (Conn.current_of_stmState (by simp) hst.symm) halive ?_
          change bufferCanRead buffer = true
          rw [Buffer.canRead_iff, (Buffer.readAdv_spec hb).1, ← List.length_pos_iff,
            List.length_drop]
          omega
  · cases hpart

theorem proxyClientWrite_part_moves (h : Rested x₀ x oi)
    (hpart : x.conn.repliesInPart env = true) (hr : proxyClientWrite env x = .ok x')
    {brought : Option Act} : EventCourse env x₀ x brought x' := by
  obtain ⟨n, hpos, hlt, hst, heq⟩ := proxyClientWrite_part h.standing.alive hpart
  rw [heq] at hr
  obtain ⟨buffer, hb, hr⟩ := Lib.bind_eq_ok.mp hr
  cases hr
  have hcur : (x.sentPart n buffer).conn.current = some .error :=
    Conn.current_of_stmState (by simp) hst.symm
  have hst' : (x.sentPart n buffer).conn.stmState = .error := Conn.stmState_of_current hcur
  have hmore : bufferCanRead (x.sentPart n buffer).conn.originBuffer = true := by
    change bufferCanRead buffer = true
    rw [Buffer.canRead_iff, (Buffer.readAdv_spec hb).1, ← List.length_pos_iff, List.length_drop]
    omega
  have hint : (x.sentPart n buffer).conn.interests = x.conn.interests := by
    rw [interests_inError hst, interests_inError hst']
  have hrest : Rested x₀ (x.sentPart n buffer) oi := by
    refine ⟨?_, fun hs => ?_, fun hs => ?_, ?_, h.others⟩
    · rw [hint]
      exact h.standing.setMetrics.setConn rfl rfl Iff.rfl
    · rw [hst'] at hs
      cases hs
    · rw [hst'] at hs
      cases hs
    · rw [hint]
      exact h.waits
  refine ⟨.rest, .inl ⟨rfl, oi, hrest⟩,
    .inl ⟨(.writing, x.sentPart n buffer), ⟨?_, .inl rfl, rfl, rfl, id⟩, ?_⟩⟩
  · exact .writeClient _ (by rw [interests_inError hst]; rfl) hpos hb
  · exact .trans
      (.single (.record (f := id) (by simp) (.draining hcur (.inr (.inr rfl)) hmore)
        rfl (fun hp => by cases hp) rfl id))
      (.single (.record (f := id) (by simp) (.stay hcur) rfl (fun hp => by cases hp) rfl id))

theorem proxyClientWrite_moves (h : Resting x₀ x oi)
    (hint : x.conn.interests.1.write = true) (hr : proxyClientWrite env x = .ok x')
    {brought : Option Act} : EventCourse env x₀ x brought x' := by
  have hcur : x.conn.current ≠ none := by
    intro hcur
    rw [Conn.interests, Conn.stmState, hcur] at hint
    cases hint
  unfold proxyClientWrite at hr
  dsimp only at hr
  split at hr
  · next hsend =>
      refine h.close_moves hr fun _ => ?_
      rw [show sendFrom env x.conn.originBuffer = none from hsend]
      rfl
  · next hsend =>
      refine h.close_moves hr fun _ => ?_
      rw [show sendFrom env x.conn.originBuffer = some 0 from hsend]
      rfl
  · next n hne hsend =>
      obtain ⟨buffer, hb, hr⟩ := Lib.bind_eq_ok.mp hr
      have hh : Handling x₀ ((x.touch.setMetrics (increaseBytesReceived n)).setConn
          (x.touch.conn.toClient (x.touch.conn.originBuffer.unread.take n) buffer)) _ oi :=
        h.handling.setMetrics.setConn rfl rfl rfl Iff.rfl
      exact Resting.write_moves hh hcur hr
        (.writeClient _ hint (Nat.pos_of_ne_zero hne) hb) rfl rfl id

/-- Where the origin has an item the connection has entered a state. -/
theorem Resting.current_ne_none {i : Interest} (h : Resting x₀ x (some i)) :
    x.conn.current ≠ none := by
  intro hcur
  have hb := h.bare (by rw [Conn.stmState, hcur]; rfl)
  cases hb

theorem proxyOriginRead_moves {key : SelectorKey} {i : Interest}
    (h : Resting x₀ x (some i)) (hint : x.conn.interests.2.read = true)
    (hkey : key.fd = x.conn.originFd) (hr : proxyOriginRead env key x = .ok x') :
    EventCourse env x₀ x ((readInto env x.conn.originBuffer).map (readAct .origin)) x' := by
  have hne := h.view.origin_ne_client
  have hnone : x.conn.stmState = .error → (sendFrom env x.conn.originBuffer).getD 0 = 0 := by
    intro herr
    rw [interests_inError herr] at hint
    cases hint
  unfold proxyOriginRead at hr
  dsimp only at hr
  split at hr
  · exact h.close_moves hr hnone
  · next hread =>
    obtain ⟨_, hact⟩ := h.view.origin i rfl
    have hh : Handling x₀ (x.touch.setConn x.touch.conn.endOfOrigin) _ (some i) :=
      h.handling.setConn rfl rfl rfl
        ⟨(by intro hc; cases hc), fun hc => absurd hc hact⟩
    exact Resting.read_moves hh hr (.endOfOrigin _ hint hkey hne) hread rfl rfl rfl
      fun hk => .inr (hk.resolve_left hact)
  · next bs hnil hread =>
      obtain ⟨buffer, hb, hr⟩ := Lib.bind_eq_ok.mp hr
      have hh : Handling x₀ (x.touch.setConn (x.touch.conn.fromOrigin bs buffer)) _ (some i) :=
        h.handling.setConn rfl rfl rfl Iff.rfl
      exact Resting.read_moves hh hr (.readOrigin _ hint hkey hne hnil hb) hread
        (by rw [readAct, if_neg hnil]; rfl) rfl rfl id

theorem proxyOriginWrite_moves {i : Interest} (h : Resting x₀ x (some i))
    (hint : x.conn.interests.2.write = true) (hr : proxyOriginWrite env x = .ok x')
    {brought : Option Act} : EventCourse env x₀ x brought x' := by
  have hcur := h.current_ne_none
  have hnone : x.conn.stmState = .error → (sendFrom env x.conn.originBuffer).getD 0 = 0 := by
    intro herr
    rw [interests_inError herr] at hint
    cases hint
  unfold proxyOriginWrite at hr
  dsimp only at hr
  split at hr
  · next hst =>
      have hh : Handling x₀ x.touch _ (some i) := h.handling.setConn rfl rfl rfl Iff.rfl
      exact Resting.write_moves hh hcur hr (.readyOrigin _ hst) rfl rfl id
  · next hnt =>
      split at hr
      · next hreq =>
          split at hr
          · exact h.close_moves hr hnone
          · exact h.close_moves hr hnone
          · next n hne hsend =>
              obtain ⟨buffer, hb, hr⟩ := Lib.bind_eq_ok.mp hr
              have hh : Handling x₀ ((x.touch.setMetrics (increaseBytesSent n)).setConn
                  (x.touch.conn.requestToOrigin
                    (x.touch.conn.originBuffer.unread.take n) buffer)) _ (some i) :=
                h.handling.setMetrics.setConn rfl rfl rfl Iff.rfl
              exact Resting.write_moves hh hcur hr
                (.writeRequest _ hreq (Nat.pos_of_ne_zero hne) hb) rfl rfl id
      · next hreq =>
          rw [not_or] at hreq
          split at hr
          · exact h.close_moves hr hnone
          · exact h.close_moves hr hnone
          · next n hne hsend =>
              obtain ⟨buffer, hb, hr⟩ := Lib.bind_eq_ok.mp hr
              have hh : Handling x₀ ((x.touch.setMetrics (increaseBytesSent n)).setConn
                  (x.touch.conn.toOrigin
                    (x.touch.conn.clientBuffer.unread.take n) buffer)) _ (some i) :=
                h.handling.setMetrics.setConn rfl rfl rfl Iff.rfl
              exact Resting.write_moves hh hcur hr
                (.writeOrigin _ hreq.1 hreq.2 hnt hint (Nat.pos_of_ne_zero hne) hb) rfl rfl id

/-- The sweep, at one item: the connection is left as it is, or closed, and
uncounted twice if it is closed. -/
theorem connectionGarbageCollect_cases {fd : Int}
    (hrest : x.conn.clientFd = fd → maxInactiveTime ≤ x.world.now - x.conn.lastActionTime →
      Resting x₀ x oi)
    (hr : connectionGarbageCollect fd x = .ok x') :
    (x' = x ∧ ¬ (x.conn.clientFd = fd ∧
      maxInactiveTime ≤ x.world.now - x.conn.lastActionTime)) ∨
    (x.conn.clientFd = fd ∧ maxInactiveTime ≤ x.world.now - x.conn.lastActionTime ∧
      x'.conn = x.conn ∧
      x'.world.metrics = x.conn.uncounted (x.conn.uncounted x.world.metrics) ∧
      Gone x₀ x') := by
  unfold connectionGarbageCollect at hr
  split at hr
  · next hexp =>
      have h := hrest hexp.1 hexp.2
      split at hr
      · next hn =>
          obtain ⟨hc, hm, hg⟩ := closeProxyConnection_gone
            (h.view.setMetrics (f := unregisterConnection)) hr
          have hun : ∀ m, x.conn.uncounted m = unregisterConnection m := fun _ => if_pos hn
          refine .inr ⟨hexp.1, hexp.2, hc, hm.trans ?_, hg⟩
          rw [hun, hun, Ctx.setMetrics_conn, hun]
          rfl
      · next hn =>
          obtain ⟨hc, hm, hg⟩ := closeProxyConnection_gone h.view hr
          have hun : ∀ m, x.conn.uncounted m = m := fun _ => if_neg hn
          refine .inr ⟨hexp.1, hexp.2, hc, hm.trans ?_, hg⟩
          rw [hun, hun]
  · next hexp =>
      cases hr
      exact .inl ⟨rfl, hexp⟩

end

end HttpdProxy
