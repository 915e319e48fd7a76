import HttpdProxy.Protocol.Histories
import HttpdProxy.Proofs.Sweeps

/-!
# The count of concurrent connections

`register_new_connection` is called once in the life of a connection, on its
way to SEND_REQUEST_LINE or CONNECTED, and the connection is counted from then
on until it is done or closed. A move of one connection changes the count by
what it changes of that (`Move.tally`), with two exceptions: the closing of a
connection in ERROR, whose number is above that of SEND_REQUEST_LINE although
it was never registered, and the garbage collector, which uncounts what it
closes a second time.

Where neither happens the count is the number of live registered connections
(`concurrent_exact`).
-/

namespace HttpdProxy

/-- The states of a registered connection. -/
def ConnState.counted : ConnState → Bool
  | .sendRequestLine | .connected | .closing | .emptyBuffers => true
  | _ => false

/-- Whether the metric counts the connection. -/
def Conn.counted (c : Conn) : Phase → Bool
  | .rest | .reading _ | .writing => c.stmState.counted
  | .goto s => s.counted
  | .walking | .asking | .gone => false

/-- The connection is not counted any more, or never will be. -/
def Phase.over : Phase → Bool
  | .gone | .goto .done => true
  | _ => false

/-- What a move can do to the count: nothing; the connection is registered; it
leaves the relay; it is freed after that; or it is closed. -/
inductive Tally (a b : Mid) : Prop where
  | same : a.phase.over = false → registrations b.conn.trace = registrations a.conn.trace →
      b.conn.counted b.phase = a.conn.counted a.phase →
      b.metrics.concurrentConnections = a.metrics.concurrentConnections → Tally a b
  | registers : a.phase.over = false →
      registrations b.conn.trace = registrations a.conn.trace + 1 →
      a.conn.counted a.phase = false → b.conn.counted b.phase = true →
      b.metrics = registerNewConnection a.metrics → Tally a b
  | leaves : registrations b.conn.trace = registrations a.conn.trace →
      a.conn.counted a.phase = true → b.phase = .goto .done →
      b.metrics = unregisterConnection a.metrics → Tally a b
  | freed : registrations b.conn.trace = registrations a.conn.trace →
      a.phase = .goto .done → b.phase = .gone → b.metrics = a.metrics → Tally a b
  | closed : registrations b.conn.trace = registrations a.conn.trace →
      a.phase = .rest → b.phase = .gone → Tally a b

section

variable {d : DohUtils} {c c' : Conn} {ph ph' : Phase} {m m' : Metrics} {s : ConnState}

/-! ## What keeps the registrations -/

/-- What the tally reads of a record. -/
def Conn.rollView (c : Conn) := (registrations c.trace, c.current)

theorem counted_congr (h : c'.current = c.current) (ph : Phase) :
    c'.counted ph = c.counted ph := by
  have hst : c'.stmState = c.stmState := by rw [Conn.stmState, Conn.stmState, h]
  cases ph <;> simp [Conn.counted, hst]

theorem Grown.rollView (h : Grown c.trace c'.trace) (hcur : c'.current = c.current) :
    c'.rollView = c.rollView :=
  Prod.ext (h.view registrations_minor) hcur

theorem Attempt.rollView {peer : Peer} {addr : Sockaddr} {next : ConnState}
    (h : Attempt peer addr c next c') : c'.rollView = c.rollView :=
  h.grown.1.rollView h.grown.2

/-- An attempt ends in ERROR, or is waited for. -/
theorem Attempt.not_counted {peer : Peer} {addr : Sockaddr} {next : ConnState}
    (h : Attempt peer addr c next c') : next.counted = false := by
  cases h with
  | refused => rfl
  | opened h => cases h <;> rfl

theorem finishRequest_rollView (key : SelectorKey) (c : Conn) :
    (finishRequest key c).rollView = c.rollView :=
  (finishRequest_grown key c).rollView (finishRequest_keeps key c).2.2.2.1

theorem nextDns_rollView (c : Conn) (doh : DohConnection) :
    (c.nextDns doh).2.rollView = c.rollView :=
  (Grown.of_eq (nextDns_trace c doh).1).rollView (nextDns_trace c doh).2

theorem exhausted_rollView (c : Conn) (doh : DohConnection) :
    (c.exhausted doh).2.rollView = c.rollView :=
  (Grown.of_eq (exhausted_trace c doh).1).rollView (exhausted_trace c doh).2

theorem judged_rollView (c : Conn) (key : SelectorKey) (doh : DohConnection) (v : Verdict) :
    (c.judged key doh v).2.rollView = c.rollView :=
  (Grown.of_eq (judged_trace c key doh v).1).rollView (judged_trace c key doh v).2

theorem originFirst_rollView (c : Conn) : c.closeOrigin.closeClient.rollView = c.rollView :=
  (originFirst_grown c).rollView (by simp)

theorem clientFirst_rollView (c : Conn) : c.closeClient.closeOrigin.rollView = c.rollView :=
  (clientFirst_grown c).rollView (by simp)

theorem analyzeRead_rollView (key : SelectorKey) (c : Conn) :
    (analyzeRead key c).rollView = c.rollView :=
  (analyzeRead_grown key c).rollView (analyzeRead_buffers key c).2.2.2.2

theorem arrival_registrations {env : Env} (ha : c.arrival d env s = .ok c') :
    registrations c'.trace = registrations c.trace := by
  have hg := arrival_grown ha
  split at hg
  · rw [hg]
    rfl
  · exact hg.view registrations_minor

/-! ## One move -/

/-- A move inside a handler, or into one. -/
theorem Tally.stays (hv : c'.rollView = c.rollView) (hover : ph.over = false)
    (hph : c.counted ph' = c.counted ph)
    (hm : m'.concurrentConnections = m.concurrentConnections) :
    Tally ⟨ph, c, m⟩ ⟨ph', c', m'⟩ :=
  .same hover (Prod.mk.inj hv).1 ((counted_congr (Prod.mk.inj hv).2 ph').trans hph) hm

/-- A handler of one state that returns another. -/
theorem Tally.returns {t : ConnState} (hcur : c.current = some s)
    (hph : ph = .writing ∨ ∃ key, ph = .reading key) (hv : c'.rollView = c.rollView)
    (ht : t.counted = s.counted)
    (hm : m'.concurrentConnections = m.concurrentConnections) :
    Tally ⟨ph, c, m⟩ ⟨.goto t, c', m'⟩ := by
  have hst := Conn.stmState_of_current hcur
  rcases hph with rfl | ⟨key, rfl⟩
  · exact .stays hv rfl (by rw [Conn.counted, Conn.counted, hst, ht]) hm
  · exact .stays hv rfl (by rw [Conn.counted, Conn.counted, hst, ht]) hm

/-- The phases that follow a response: none of them is counted. -/
theorem nextDns_not_counted (c : Conn) (doh : DohConnection) :
    c.counted (c.nextDns doh).1 = false := by
  unfold Conn.nextDns
  dsimp only
  split <;> split <;> rfl

theorem exhausted_not_counted (c : Conn) (doh : DohConnection) :
    c.counted (c.exhausted doh).1 = false := by
  unfold Conn.exhausted
  split <;> rfl

theorem judged_not_counted {key : SelectorKey} (doh : DohConnection) (v : Verdict)
    (h : c.counted (.reading key) = false) : c.counted (c.judged key doh v).1 = false := by
  unfold Conn.judged
  split
  · exact h
  · exact h
  · rfl
  · split <;> rfl

theorem Move.tally (hst : c.StageOf ph) (hm : Move d ⟨ph, c, m⟩ ⟨ph', c', m'⟩) :
    Tally ⟨ph, c, m⟩ ⟨ph', c', m'⟩ := by
  have hin : ∀ {c : Conn} {s : ConnState}, c.current = some s →
      (∀ key, c.counted (.reading key) = s.counted) ∧ c.counted .writing = s.counted := by
    intro c s hcur
    have hst := Conn.stmState_of_current hcur
    exact ⟨fun key => by rw [Conn.counted, hst], by rw [Conn.counted, hst]⟩
  cases hm with
  | readClient now _ _ _ _ => exact .stays rfl rfl rfl rfl
  | endOfClient now _ _ _ => exact .stays rfl rfl rfl rfl
  | writeClient now _ _ _ => exact .stays rfl rfl rfl (increaseBytesReceived_concurrent _ _)
  | readOrigin now _ _ _ _ _ => exact .stays rfl rfl rfl rfl
  | endOfOrigin now _ _ _ => exact .stays rfl rfl rfl rfl
  | readyOrigin now _ => exact .stays rfl rfl rfl rfl
  | writeRequest now _ _ _ => exact .stays rfl rfl rfl (increaseBytesSent_concurrent _ _)
  | writeOrigin now _ _ _ _ _ _ => exact .stays rfl rfl rfl (increaseBytesSent_concurrent _ _)
  | close now => exact .closed rfl rfl rfl
  | closeEarly now _ => exact .closed rfl rfl rfl
  | collect => exact .closed rfl rfl rfl
  | start enabled hcur =>
      refine .same rfl rfl ?_ rfl
      rw [Conn.counted, Conn.counted, Conn.stmState, Conn.stmState, hcur]
      rfl
  | parseByte hcur _ _ _ _ => exact .stays rfl rfl rfl rfl
  | parseError hcur _ _ _ => exact .returns hcur (.inr ⟨_, rfl⟩) rfl rfl rfl
  | parseDone hcur _ _ _ ha =>
      refine .returns hcur (.inr ⟨_, rfl⟩) ?_ ha.not_counted rfl
      split
      · exact (finishRequest_rollView _ _).trans ha.rollView
      · exact ha.rollView
  | parseIdle hcur _ => exact .returns hcur (.inr ⟨_, rfl⟩) rfl rfl rfl
  | tryQuery hcur _ => exact .returns hcur (.inl rfl) rfl rfl rfl
  | tryConnect hcur _ _ _ => exact .registers rfl rfl (hin hcur).2 rfl rfl
  | tryRequest hcur _ _ => exact .registers rfl rfl (hin hcur).2 rfl rfl
  | tryFail hcur _ =>
      exact .returns hcur (.inl rfl) rfl rfl (increaseFailedConnections_concurrent _)
  | tryNext hcur _ _ =>
      refine .stays (nextDns_rollView _ _) rfl ?_ (increaseFailedConnections_concurrent _)
      rw [nextDns_not_counted, (hin hcur).2]
      rfl
  | walkSkip _ _ _ _ => exact .stays rfl rfl rfl rfl
  | walkRefused _ _ _ _ => exact .stays rfl rfl rfl rfl
  | walkOpen _ _ _ _ hr =>
      exact .stays (Attempt.opened hr).rollView rfl (Attempt.opened hr).not_counted rfl
  | walkEnd _ _ => exact .stays (exhausted_rollView _ _) rfl (exhausted_not_counted _ _) rfl
  | ask ha => exact .stays ha.rollView rfl ha.not_counted rfl
  | drained hcur hs _ =>
      refine .returns hcur (.inl rfl) rfl ?_ rfl
      rw [Conn.afterDrain, Conn.stmState_of_current hcur]
      rcases hs with rfl | rfl | rfl <;> rfl
  | draining hcur _ _ => exact .returns hcur (.inl rfl) rfl rfl rfl
  | awaitFailed hcur _ => exact .returns hcur (.inr ⟨_, rfl⟩) rfl rfl rfl
  | awaitByte alloc hcur _ _ _ _ _ =>
      have hreading : ∀ key, c.counted (.reading key) = false := (hin hcur).1
      refine .same rfl (Prod.mk.inj (judged_rollView _ _ _ _)).1 ?_ rfl
      rw [counted_congr (Prod.mk.inj (judged_rollView _ _ _ _)).2]
      have hfed : ∀ doh buffer key, (c.fed doh buffer).counted (.reading key) = false :=
        fun _ _ key => hreading key
      exact (judged_not_counted _ _ (hfed _ _ _)).trans (hreading _).symm
  | awaitIdle hcur _ _ _ => exact .returns hcur (.inr ⟨_, rfl⟩) rfl rfl rfl
  | awaitEnd hcur _ _ _ _ =>
      refine .same rfl (Prod.mk.inj (nextDns_rollView _ _)).1 ?_ rfl
      rw [counted_congr (Prod.mk.inj (nextDns_rollView _ _)).2, nextDns_not_counted]
      exact ((hin hcur).1 _).symm
  | relayRead hcur _ _ =>
      exact .returns hcur (.inr ⟨_, rfl⟩) (analyzeRead_rollView _ _) rfl rfl
  | relayEnd hcur _ => exact .returns hcur (.inr ⟨_, rfl⟩) (analyzeRead_rollView _ _) rfl rfl
  | relayWrite hcur => exact .returns hcur (.inl rfl) rfl rfl rfl
  | closingRead hcur _ =>
      exact .returns hcur (.inr ⟨_, rfl⟩)
        (originFirst_rollView _) rfl rfl
  | closingDone hcur _ _ _ => exact .leaves rfl ((hin hcur).1 _) rfl rfl
  | closingEmpty hcur _ _ => exact .returns hcur (.inr ⟨_, rfl⟩) rfl rfl rfl
  | closingWrite hcur =>
      exact .returns hcur (.inl rfl)
        (originFirst_rollView _) rfl rfl
  | emptyDone hcur _ _ =>
      exact .leaves (Prod.mk.inj (clientFirst_rollView _)).1 (hin hcur).2 rfl rfl
  | emptyWrite hcur _ =>
      exact .returns hcur (.inl rfl)
        (clientFirst_rollView _) rfl rfl
  | stay hcur =>
      rename_i s
      rw [Conn.StageOf, if_pos hcur] at hst
      have hover : Phase.over (.goto s) = false := by
        cases s <;> first | rfl | exact absurd hst id
      refine .stays rfl hover ?_ rfl
      rw [Conn.counted, Conn.stmState_of_current hcur]
      rfl
  | arrive env hcur hne ha =>
      rename_i s
      have hover : Phase.over (.goto s) = false := by
        cases s <;> first | rfl | exact absurd rfl hne
      have hregs := arrival_registrations ha
      refine .same hover hregs ?_ rfl
      rw [Conn.counted, Conn.stmState_of_current (arrival_current ha)]
      rfl
  | free _ => exact .freed rfl rfl rfl rfl

/-! ## One life -/

/-- Registered once at most, and as long as the connection goes on exactly if
it is counted. -/
def Conn.Enrolled (c : Conn) (ph : Phase) : Prop :=
  registrations c.trace ≤ 1 ∧
    (ph.over = false → registrations c.trace = (c.counted ph).toNat)

theorem Tally.enrolled (h : Tally ⟨ph, c, m⟩ ⟨ph', c', m'⟩) (he : c.Enrolled ph) :
    c'.Enrolled ph' := by
  obtain ⟨hle, heq⟩ := he
  cases h with
  | same hover hregs hcount _ =>
      dsimp only at hover hregs hcount
      exact ⟨by rw [hregs]; exact hle, fun _ => by rw [hregs, hcount]; exact heq hover⟩
  | registers hover hregs hno hyes _ =>
      dsimp only at hover hregs hno hyes
      have hzero : registrations c.trace = 0 := by
        rw [heq hover, hno]
        rfl
      rw [hzero] at hregs
      exact ⟨by omega, fun _ => by rw [hregs, hyes]; rfl⟩
  | leaves hregs _ hdone _ =>
      dsimp only at hregs hdone
      subst hdone
      exact ⟨by rw [hregs]; exact hle, fun hover => by cases hover⟩
  | freed hregs _ hgone _ =>
      dsimp only at hregs hgone
      subst hgone
      exact ⟨by rw [hregs]; exact hle, fun hover => by cases hover⟩
  | closed hregs _ hgone =>
      dsimp only at hregs hgone
      subst hgone
      exact ⟨by rw [hregs]; exact hle, fun hover => by cases hover⟩

theorem Life.enrolled (h : Life d ph c) : c.Enrolled ph := by
  refine h.invariant (I := fun ph c => c.Enrolled ph) ?_ ?_
  · intro fd size now mem
    exact ⟨Nat.zero_le 1, fun _ => rfl⟩
  · intro ph c m ph' c' m' hl he hm
    exact (hm.tally hl.stages.2).enrolled he

/-! ## One event -/

/-- The metric counts `o` connections besides this one. -/
def Holds (o : Nat) (a : Mid) : Prop :=
  a.metrics.concurrentConnections.toNat = o + (a.conn.counted a.phase).toNat

theorem Tally.holds {o : Nat} {a b : Mid} (h : Tally a b) (ho : o < 2 ^ 64 - 1)
    (hopen : a.phase = .rest → b.phase ≠ .gone) (hh : Holds o a) : Holds o b := by
  unfold Holds at hh ⊢
  cases h with
  | same _ _ hcount hm => rw [hm, hcount, hh]
  | registers _ _ hno hyes hm =>
      rw [hno] at hh
      have hlt : a.metrics.concurrentConnections.toNat < 2 ^ 64 - 1 := by
        rw [hh]
        exact ho
      rw [hm, registerNewConnection_concurrent hlt, hyes, hh]
      rfl
  | leaves _ hyes hdone hm =>
      rw [hyes] at hh
      rw [hm, unregisterConnection_concurrent, hh, hdone]
      rfl
  | freed _ hdone hgone hm =>
      rw [hdone] at hh
      rw [hm, hh, hgone]
      rfl
  | closed _ hrest hgone => exact absurd hgone (hopen hrest)

/-- `close_proxy_connection` uncounts a connection that is counted. -/
theorem uncounted_concurrent (hne : c.stmState ≠ .error) (hnd : c.stmState ≠ .done) :
    (c.uncounted m).concurrentConnections.toNat
      = m.concurrentConnections.toNat - (c.counted .rest).toNat := by
  rw [Conn.uncounted, Conn.counted]
  cases hs : c.stmState with
  | error => exact absurd hs hne
  | done => exact absurd hs hnd
  | _ => simp [ConnState.num, ConnState.counted]

theorem Life.not_done (h : Life d .rest c) : c.stmState ≠ .done := by
  intro hdone
  have hst := h.stages.2
  rw [Conn.StageOf, hdone] at hst
  exact hst

/-- An event changes the metric by what it changes of its connection. -/
theorem EventCourse.holds {env : Env} {x₀ x x' : Ctx} {brought : Option Act} {o : Nat}
    (hl : Life x₀.world.dohUtils .rest x.conn) (ho : o < 2 ^ 64 - 1)
    (hanswered : x.conn.stmState = .error →
      (sendFrom env x.conn.originBuffer).getD 0 ≠ 0 ∨ o = 0)
    (hh : Holds o (x.mid .rest)) (he : EventCourse env x₀ x brought x') :
    ∃ ph, Settled x₀ x' ph ∧ Life x₀.world.dohUtils ph x'.conn ∧ Holds o (x'.mid ph) := by
  obtain ⟨ph, hset, ⟨b, hentry, hcourse⟩ | ⟨rfl, hclosing⟩⟩ := he
  · have hopen : b.1 ≠ .gone := by
      rcases hentry.enters with hw | ⟨key, _, hr, _⟩
      · rw [hw]
        simp
      · rw [hr]
        simp
    have hfirst : Life x₀.world.dohUtils b.1 b.2.conn ∧ Holds o (b.2.mid b.1) :=
      ⟨hl.move hentry.move, (hentry.move.tally hl.stages.2).holds ho (fun _ => hopen) hh⟩
    have hrest : ∀ a, Course x₀.world.dohUtils env b a →
        Life x₀.world.dohUtils a.1 a.2.conn ∧ Holds o (a.2.mid a.1) := by
      intro a hc
      induction hc with
      | refl => exact hfirst
      | tail _ hadv ih =>
          exact ⟨ih.1.move hadv.move, (hadv.move.tally ih.1.stages.2).holds ho
            (fun hr => absurd hr hadv.inside) ih.2⟩
    exact ⟨ph, hset, hrest _ hcourse⟩
  · refine ⟨.gone, hset, hl.move hclosing.move, ?_⟩
    unfold Holds at hh ⊢
    change x'.world.metrics.concurrentConnections.toNat = o + 0
    change x.world.metrics.concurrentConnections.toNat = o + (x.conn.counted .rest).toNat at hh
    rw [hclosing.metrics]
    by_cases herr : x.conn.stmState = .error
    · have ho : o = 0 := (hanswered herr).resolve_left fun h => h (hclosing.unsent herr)
      rw [ho, Conn.counted, herr] at hh
      rw [Conn.uncounted, herr, if_pos (by decide), unregisterConnection_concurrent, hh, ho]
      rfl
    · rw [uncounted_concurrent herr hl.not_done, hh]
      omega

/-! ## The daemon -/

/-- A live connection for which `register_new_connection` was called. -/
def isRegistered (s : Phase × Conn) : Bool := s.1 == .rest && 0 < registrations s.2.trace

/-- How many there are. -/
def World.registered (w : World) : Nat := w.population.count isRegistered

/-- The metric is the number of live registered connections. -/
def World.Exact (w : World) : Prop :=
  w.metrics.concurrentConnections.toNat = w.registered

/-- The step does not uncount what is not counted: a reply to a connection in
ERROR does not fail to be sent, and the collector closes no connection from
SEND_REQUEST_LINE on, or there is no registered connection but those concerned. -/
structure CountsOnce (w : World) (e : Event) : Prop where
  undisturbed : Undisturbed w e
  answered : ∀ id c env, w.heap id = .live c → c.stmState = .error →
    e = .writable c.clientFd env →
    (sendFrom env c.originBuffer).getD 0 ≠ 0 ∨ w.registered = 0
  swept : e = .garbageCollect → collectionInterval ≤ w.now - w.lastCollection →
    (∀ id c, w.heap id = .live c → w.Swept c →
        c.stmState.num < ConnState.sendRequestLine.num) ∨
      ∀ id c, w.heap id = .live c → 0 < registrations c.trace → w.Swept c

section

variable {w w' : World} {id : Nat} {e : Event}

theorem isRegistered_rest (h : Life d .rest c) :
    isRegistered (.rest, c) = c.counted .rest := by
  have hregs := h.enrolled.2 rfl
  rw [isRegistered, hregs]
  cases c.counted .rest <;> rfl

theorem isRegistered_gone (c : Conn) : isRegistered (.gone, c) = false := rfl

/-- The other connections the metric counts. -/
theorem registered_split (hid : id < w.nextConn) (hc : w.heap id = .live c)
    (hl : Life d .rest c) (hx : w.Exact) (hn : w.nextConn < 2 ^ 64) :
    ∃ o, o < 2 ^ 64 - 1 ∧ w.registered = o + (c.counted .rest).toNat ∧
      Holds o ((w.ctx id c).mid .rest) := by
  have hmember := member_live hc
  have hone : ∀ s : Phase × Conn, (isRegistered s).toNat ≤ 1 := fun s => Bool.toNat_le _
  have hlt := Lib.Population.total_lt hone hid hmember
  have hpos := Lib.Population.le_total (f := fun s => (isRegistered s).toNat) hid hmember
  rw [isRegistered_rest hl] at hlt hpos
  change w.registered + 1 ≤ w.nextConn + _ at hlt
  change _ ≤ w.registered at hpos
  refine ⟨w.registered - (c.counted .rest).toNat, by omega, by omega, ?_⟩
  have hexact : w.metrics.concurrentConnections.toNat = w.registered := hx
  change w.metrics.concurrentConnections.toNat = _ + (c.counted .rest).toNat
  omega

/-- A turn of one connection that changes the metric by what it changes of the
connection. -/
theorem Exact.turn {o : Nat} {s : Phase × Conn} (hid : id < w.nextConn)
    (hc : w.heap id = .live c) (hl : Life d .rest c)
    (hsplit : w.registered = o + (c.counted .rest).toNat)
    (hpop : w'.population = w.population.turn id s w'.metrics)
    (hm : w'.metrics.concurrentConnections.toNat = o + (isRegistered s).toNat) : w'.Exact := by
  have hcount := Lib.Population.total_turn (fun s => (isRegistered s).toNat)
    s w'.metrics hid (member_live hc)
  rw [← hpop, isRegistered_rest hl] at hcount
  change w'.registered + _ = w.registered + _ at hcount
  rw [World.Exact, hm]
  omega

theorem Quiet.exact (hq : Quiet w w') (hx : w.Exact) : w'.Exact := by
  rw [World.Exact, World.registered, hq.population, hq.metrics]
  exact hx

theorem Accepted.exact {fd : Int} (ha : Accepted w fd c w') (hx : w.Exact) : w'.Exact := by
  obtain ⟨⟨fd', size, now, mem, he⟩, hpop⟩ := ha.population
  cases he
  rw [World.Exact, World.registered, hpop, Lib.Population.count, Lib.Population.total_birth,
    ha.metrics]
  exact hx

theorem Served.exact {env : Env} {got : Conn → Option Act} (hsound : Sound w)
    (hlives : w.population.All fun s => Life w.dohUtils s.1 s.2) (hn : w.nextConn < 2 ^ 64)
    (hanswered : ∀ c, w.heap id = .live c → c.stmState = .error →
      (sendFrom env c.originBuffer).getD 0 ≠ 0 ∨ w.registered = 0)
    (hs : Served env got w id w') (hx : w.Exact) : w'.Exact := by
  have hturned := hs.turned
  obtain ⟨c, x, hc, hcourse, rfl⟩ := hs
  have hl : Life w.dohUtils .rest c := hlives id _ (member_live hc)
  have hid : id < w.nextConn := hsound.lt_nextConn (by rw [hc]; simp)
  obtain ⟨o, ho, hsplit, hholds⟩ := registered_split hid hc hl hx hn
  obtain ⟨ph, hset, hlife, hafter⟩ := hcourse.holds hl ho
    (fun herr => (hanswered c hc herr).imp_right fun h => by omega) hholds
  refine Exact.turn hid hc hl hsplit (hset.population hturned) ?_
  rcases hset with ⟨rfl, _, _⟩ | ⟨rfl, _⟩
  · rw [isRegistered_rest hlife]
    exact hafter
  · exact hafter

end

/-! ## The sweep -/

section

variable {w w' : World} {id : Nat} {e : Event}

theorem Collected.population {c : Conn} (hc : Collected w id c w') :
    w'.population = w.population.turn id (.gone, c) w'.metrics := by
  have ht := hc.turned
  obtain ⟨x, _, _, _, _, rfl, _, hg, rfl⟩ := hc
  exact Settled.population (.inr ⟨rfl, hg⟩) ht

/-- What the sweep leaves of the count of registered connections. -/
theorem Collected.registered {c : Conn} (hsound : Sound w)
    (hlives : w.population.All fun s => Life w.dohUtils s.1 s.2) (hc : Collected w id c w') :
    w'.registered + (c.counted .rest).toNat = w.registered := by
  have hlive : w.heap id = .live c := by
    obtain ⟨x, hlive, _⟩ := hc
    exact hlive
  have hid : id < w.nextConn := hsound.lt_nextConn (by rw [hlive]; simp)
  have hl : Life w.dohUtils .rest c := hlives id _ (member_live hlive)
  have hcount := Lib.Population.total_turn (fun s => (isRegistered s).toNat)
    (.gone, c) w'.metrics hid (member_live hlive)
  rw [← hc.population, isRegistered_rest hl, isRegistered_gone] at hcount
  exact hcount

theorem Collected.metrics {c : Conn} (hc : Collected w id c w') :
    w'.metrics = c.uncounted (c.uncounted w.metrics) := by
  obtain ⟨x, _, _, _, _, _, hm, _, rfl⟩ := hc
  exact hm

/-- The count of what is left when no registered connection is. -/
theorem registered_eq_zero
    (h : ∀ id c, w.heap id = .live c → registrations c.trace = 0) : w.registered = 0 := by
  refine Lib.Population.total_eq_zero fun id s hs => ?_
  unfold World.population at hs
  dsimp only at hs
  split at hs
  · cases hs
  · next c hc =>
      cases hs
      rw [isRegistered, h id c hc]
      rfl
  · cases hs
    rfl

theorem Turned.lives (ht : Turned w id w') (hd : w.dohUtils = d)
    (h : w.population.All fun s => Life d s.1 s.2) :
    w'.dohUtils = d ∧ w'.population.All fun s => Life d s.1 s.2 := by
  refine ⟨ht.frame.2.2.2.1.trans hd, ?_⟩
  obtain ⟨c, s', hc, ⟨_, _, hsteps⟩, hpop⟩ := ht.population
  rw [hpop]
  intro j s hj
  rcases Lib.Population.member_update hj with ⟨_, rfl⟩ | ⟨_, hj⟩
  · rw [hd] at hsteps
    exact Life.steps (a := ⟨.rest, c, w.metrics⟩) (b := ⟨s.1, s.2, w'.metrics⟩)
      (h id _ (member_live hc)) hsteps
  · exact h j s hj

/-- A sweep that closes nothing from SEND_REQUEST_LINE on. -/
theorem sweep_early (h : Sound w) (ha : Sweepable w) (hd : w.dohUtils = d)
    (hlives : w.population.All fun s => Life d s.1 s.2)
    (hearly : ∀ id c, w.heap id = .live c → w.Swept c →
      c.stmState.num < ConnState.sendRequestLine.num)
    (hx : w.Exact) {is : List Nat} (hr : runGarbageCollector is w = .ok w') : w'.Exact := by
  let I := fun w1 : World => w1.now = w.now ∧ w1.dohUtils = d ∧
    (w1.population.All fun s => Life d s.1 s.2) ∧
    (∀ id c, w1.heap id = .live c → w.heap id = .live c) ∧ w1.Exact
  have hkeeps : ∀ w1 id c w2, Sound w1 → I w1 → Collected w1 id c w2 → I w2 := by
    intro w1 id c w2 hs1 ⟨hnow, hd1, hl1, hsub, hx1⟩ hc
    obtain ⟨hlive, hswept⟩ := hc.swept
    have hswept' : w.Swept c := ⟨by rw [World.expired, ← hnow]; exact hswept.1, hswept.2⟩
    have hnum := hearly id c (hsub id c hlive) hswept'
    have hkept : ∀ m, c.uncounted m = m := fun m => if_neg (Nat.not_le_of_lt hnum)
    have hcount : c.counted .rest = false := by
      rw [Conn.counted]
      revert hnum
      cases c.stmState <;> simp [ConnState.num, ConnState.counted]
    obtain ⟨hd2, hl2⟩ := hc.turned.lives hd1 hl1
    refine ⟨hc.now.trans hnow, hd2, hl2, fun j z hz => hsub j z (hc.live_of_live hz).2, ?_⟩
    have hreg := hc.registered hs1 (hd1 ▸ hl1)
    rw [hcount] at hreg
    rw [World.Exact, hc.metrics, hkept, hkept]
    exact Eq.trans hx1 hreg.symm
  obtain ⟨_, _, _, _, _, hexact⟩ :=
    runGarbageCollector_keeps hkeeps is h ha ⟨rfl, hd, hlives, fun _ _ hc => hc, hx⟩ hr
  exact hexact

/-- A sweep that closes every registered connection: the metric cannot fall
below zero. -/
theorem sweep_all (h : Sound w) (ha : Sweepable w) (hd : w.dohUtils = d)
    (hlives : w.population.All fun s => Life d s.1 s.2)
    (hall : ∀ id c, w.heap id = .live c → 0 < registrations c.trace → w.Swept c)
    (hx : w.Exact) (hr : runGarbageCollector (List.range (w.sel.maxFd + 1)) w = .ok w') :
    w'.Exact := by
  let I := fun w1 : World => w1.dohUtils = d ∧ (w1.population.All fun s => Life d s.1 s.2) ∧
    w1.metrics.concurrentConnections.toNat ≤ w1.registered
  have hkeeps : ∀ w1 id c w2, Sound w1 → I w1 → Collected w1 id c w2 → I w2 := by
    intro w1 id c w2 hs1 ⟨hd1, hl1, hle⟩ hc
    obtain ⟨hd2, hl2⟩ := hc.turned.lives hd1 hl1
    refine ⟨hd2, hl2, ?_⟩
    have hreg := hc.registered hs1 (hd1 ▸ hl1)
    have hless : ∀ m, (c.uncounted m).concurrentConnections.toNat
        ≤ m.concurrentConnections.toNat - (c.counted .rest).toNat := by
      intro m
      rw [Conn.uncounted, Conn.counted]
      cases c.stmState <;> simp [ConnState.num, ConnState.counted]
    have h1 := hless (c.uncounted w1.metrics)
    have h2 := hless w1.metrics
    rw [hc.metrics]
    omega
  obtain ⟨_, hd', hlives', hle⟩ :=
    runGarbageCollector_keeps hkeeps _ h ha ⟨hd, hlives, Nat.le_of_eq hx⟩ hr
  have hzero : w'.registered = 0 := by
    refine registered_eq_zero fun id c hc => ?_
    obtain ⟨hlive, hleft⟩ := (h.scans ha hr).live hc
    by_contra hne
    exact hleft ⟨hall id c hlive (Nat.pos_of_ne_zero hne), h.scanned hlive⟩
  rw [World.Exact]
  omega

/-! ## Runs -/

/-- In ERROR nothing happens but that the client can be written to. -/
theorem step_inError (h : Sound w) (hact : e.actor w = some id) (hc : w.heap id = .live c)
    (herr : c.stmState = .error) (hr : step w e = .ok w') :
    w' = w ∨ ∃ env, e = .writable c.clientFd env := by
  obtain ⟨fd, it, env, he, hf, hd⟩ := Event.item_of_actor hact
  obtain ⟨c', oi, hc', _, hside⟩ := h.item_cases hf hd
  rw [hc] at hc'
  cases hc'
  rw [interests_inError herr] at hside
  rcases he with rfl | rfl
  · refine .inl ?_
    have hread : it.interest.read = false := by
      rcases hside with ⟨_, rfl⟩ | ⟨_, _, rfl⟩ <;> rfl
    rw [step, hf] at hr
    dsimp only at hr
    rw [if_neg (by rw [hread]; simp)] at hr
    cases hr
    rfl
  · rcases hside with ⟨rfl, _⟩ | ⟨_, _, rfl⟩
    · exact .inr ⟨env, rfl⟩
    · rw [step, hf] at hr
      cases hr
      exact .inl rfl

theorem step_exact (h : Sound w) (hd : w.dohUtils = d)
    (hlives : w.population.All fun s => Life d s.1 s.2) (hn : w.nextConn < 2 ^ 64)
    (hx : w.Exact) (hcounts : CountsOnce w e) (hr : step w e = .ok w') : w'.Exact := by
  rcases step_cases h hcounts.undisturbed hr with
    hq | ⟨fd, c, hacc⟩ | ⟨id, hact, env, henv, hs⟩ | ⟨rfl, hswp, hsweep⟩
  · exact hq.exact hx
  · exact hacc.exact hx
  · by_cases hidle : w' = w
    · rw [hidle]
      exact hx
    · refine hs.exact h (hd ▸ hlives) hn (fun c hc herr => ?_) hx
      obtain ⟨env', rfl⟩ := (step_inError h hact hc herr hr).resolve_left hidle
      cases henv
      exact hcounts.answered id c env hc herr rfl
  · have hq : Quiet w { w with lastCollection := w.now } := ⟨rfl, rfl, rfl, rfl, rfl, rfl⟩
    by_cases hdue : collectionInterval ≤ w.now - w.lastCollection
    · rcases hcounts.swept rfl hdue with hearly | hall
      · exact sweep_early (hq.sound h) (hq.sweepable rfl hswp) hd hlives hearly (hq.exact hx) hsweep
      · exact sweep_all (hq.sound h) (hq.sweepable rfl hswp) hd hlives hall (hq.exact hx) hsweep
    · rw [step, if_neg hdue] at hr
      cases hr
      exact hx

theorem step_nextConn (h : Sound w) (hun : Undisturbed w e) (hr : step w e = .ok w') :
    w.nextConn ≤ w'.nextConn := by
  refine (step_keeps (I := fun w1 => w.nextConn ≤ w1.nextConn) ?_ ?_ ?_ h hun
    (Nat.le_refl _) hr).2
  · intro w1 w2 hle hq
    rwa [hq.nextConn]
  · intro w1 fd c w2 _ hle hacc
    rw [hacc.nextConn]
    omega
  · intro w1 id w2 _ hle ht
    rwa [ht.frame.2.2.1]

end

end

/-- Where nothing is uncounted that is not counted, the metric is the number of
live connections that were registered, and each of them was registered once. -/
theorem concurrent_exact {cfg : Config} {es : List Event} {w : World}
    (h : Lib.RunsWhen step CountsOnce (initWorld cfg) es w) (hn : w.nextConn < 2 ^ 64) :
    w.metrics.concurrentConnections.toNat = w.registered ∧
      ∀ id c, w.heap id = .live c ∨ w.heap id = .freed c → registrations c.trace ≤ 1 := by
  have hun : Lib.RunsWhen step Undisturbed (initWorld cfg) es w :=
    h.weaken fun _ _ _ hc _ => hc.undisturbed
  have hinv : Sound w ∧ (w.dohUtils = cfg.dohUtils ∧
      w.population.All fun s => Life cfg.dohUtils s.1 s.2) ∧
      (w.nextConn < 2 ^ 64 → w.Exact) := by
    refine h.invariant (I := fun w => Sound w ∧ (w.dohUtils = cfg.dohUtils ∧
      w.population.All fun s => Life cfg.dohUtils s.1 s.2) ∧
      (w.nextConn < 2 ^ 64 → w.Exact)) ?_
      ⟨initWorld_sound cfg, ⟨rfl, fun id s hs => by cases hs⟩, fun _ => rfl⟩
    intro w e w' ⟨hsound, ⟨hd, hlives⟩, hx⟩ hc hr
    have hgrows := step_nextConn hsound hc.undisturbed hr
    obtain ⟨hsound', hdoh', hpop⟩ := step_population hsound hc.undisturbed hr
    refine ⟨hsound', ⟨hdoh'.trans hd, hpop.all ?_ ?_ hlives⟩, fun hn' => ?_⟩
    · rintro s ⟨fd, size, now, mem, rfl⟩
      exact .accepted fd size now mem
    · rintro s m s' m' hlife ⟨_, _, hsteps⟩
      rw [hd] at hsteps
      exact Life.steps (a := ⟨s.1, s.2, m⟩) (b := ⟨s'.1, s'.2, m'⟩) hlife hsteps
    · have hn : w.nextConn < 2 ^ 64 := Nat.lt_of_le_of_lt hgrows hn'
      exact step_exact hsound hd hlives hn (hx hn) hc hr
  refine ⟨hinv.2.2 hn, fun id c hc => ?_⟩
  rcases hc with hc | hc
  · exact (hinv.2.1.2 id _ (member_live hc)).enrolled.1
  · exact (hinv.2.1.2 id _ (member_freed hc)).enrolled.1

/-! ### Connections that are counted -/

/-- `CountsOnce`, computed, where nothing is swept. -/
def checkCounts (w : World) (e : Event) : Bool :=
  checkUndisturbed w e &&
    match e with
    | .garbageCollect => false
    | .writable fd env =>
        (List.range w.nextConn).all fun id =>
          match w.heap id with
          | .live c => c.stmState != .error || c.clientFd != fd ||
              (sendFrom env c.originBuffer).getD 0 != 0
          | _ => true
    | _ => true

theorem countsOnce_of_checkCounts {w : World} {e : Event} (h : Sound w)
    (hc : checkCounts w e = true) : CountsOnce w e := by
  obtain ⟨hcheck, hevent⟩ := (Bool.and_eq_true _ _).mp hc
  refine ⟨h.undisturbed_of_check hcheck, ?_, ?_⟩
  · rintro id c env hlive herr rfl
    have hlt : id < w.nextConn := h.lt_nextConn (by rw [hlive]; simp)
    have hid := List.all_eq_true.mp hevent id (List.mem_range.mpr hlt)
    rw [hlive] at hid
    exact .inl (by simpa [herr] using hid)
  · rintro rfl
    cases hevent

/-- Two of the three connections were registered, and are counted. -/
theorem concurrent_exact_crowd : ∃ w : World,
    Lib.RunsWhen step CountsOnce (initWorld loopback) crowd w ∧
      w.metrics.concurrentConnections = 2 ∧ w.registered = 2 := by
  have hcheck : ((Lib.runChecked step checkCounts crowd (initWorld loopback)).any
      fun w => w.metrics.concurrentConnections == 2 &&
        decide (w.nextConn < 2 ^ 64)) = true := by decide +kernel
  obtain ⟨w, hw, hp⟩ := (Option.any_eq_true _ _).mp hcheck
  obtain ⟨htwo, hn⟩ := (Bool.and_eq_true _ _).mp hp
  have hchecked := Lib.runsWhen_of_runChecked (C := fun w e => checkCounts w e = true)
    (fun _ _ h => h) hw
  have hrun : Lib.RunsWhen step CountsOnce (initWorld loopback) crowd w := by
    refine hchecked.weaken_invariant (I := Sound) (fun w e w' h hc hr => ?_)
      (fun _ _ h hc => countsOnce_of_checkCounts h hc) (initWorld_sound loopback)
    exact (step_population h (countsOnce_of_checkCounts h hc).undisturbed hr).1
  have hexact := (concurrent_exact hrun (of_decide_eq_true hn)).1
  rw [eq_of_beq htwo] at hexact
  exact ⟨w, hrun, eq_of_beq htwo, hexact.symm⟩

/-! ### A connection that is not counted any more

The first client is refused, and its error reply cannot be sent. By then the
second connection is relayed. -/

def replyLost : List Event :=
  [.readable 3 { Env.silent with accept := some 5 },
    .readable 5 { Env.silent with recv := some (ascii "GET http://a HTTP/10.0\r\n") },
    .readable 3 { Env.silent with accept := some 7 },
    .readable 7 { Env.silent with recv := some getLiteral, socket := fun _ => some 8 },
    .writable 8 Env.silent,
    .writable 5 Env.silent]

/-- The first was never registered, and yet the count goes down. -/
theorem lost_reply_uncounts : ∃ w : World,
    Lib.Runs step (initWorld loopback) replyLost w ∧
      w.metrics.concurrentConnections = 0 ∧ w.registered = 1 := by
  have hcheck : ((Lib.runChecked step (fun _ _ => true) replyLost (initWorld loopback)).any
      fun w => w.metrics.concurrentConnections == 0 && w.registered == 1) = true := by
    decide +kernel
  obtain ⟨w, hrun, hp⟩ := Lib.exists_runs hcheck
  simp only [Bool.and_eq_true, beq_iff_eq] at hp
  exact ⟨w, hrun, hp⟩

end HttpdProxy
