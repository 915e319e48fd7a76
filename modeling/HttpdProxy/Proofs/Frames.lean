import HttpdProxy.Proofs.Ownership

/-!
# What every handler respects

A handler works on the world through few operations: it opens a socket on a
free number, registers it, unregisters a descriptor and so closes it, sets an
interest, updates the connection's record and the counters. A relation between
the contexts before and after that these respect, and that composes, is
respected by every event, whatever descriptors the handlers work on and
whosever they are. The relations of the later files are instances.
-/

namespace HttpdProxy

/-! ## The operations -/

/-- The limit and the allocation of a buffer. -/
def Buffer.size (b : Buffer) : Nat × Nat := (b.limit, b.alloc)

def Conn.sizes (c : Conn) : (Nat × Nat) × (Nat × Nat) :=
  (c.clientBuffer.size, c.originBuffer.size)

theorem Conn.log_sizes (c : Conn) (a : Act) : (c.log a).sizes = c.sizes := rfl

/-- A relation between the contexts before and after some operations of a
handler, for what the outside answers in its event. The record of the connection
may change as it will, but for the sizes of its buffers. -/
structure Stable (env : Env) (R : Ctx → Ctx → Prop) : Prop where
  refl : ∀ x, R x x
  trans : ∀ {x y z}, R x y → R y z → R x z
  setConn : ∀ {x : Ctx} {c : Conn}, c.sizes = x.conn.sizes → R x (x.setConn c)
  setMetrics : ∀ (x : Ctx) (f : Metrics → Metrics), R x (x.setMetrics f)
  setInterest : ∀ (x : Ctx) (fd : Int) (i : Interest), R x (x.setInterest fd i)
  asked : ∀ x : Ctx, R x { x with opens := x.opens + 1 }
  opened : ∀ (x : Ctx) (fd : Int) (k : Nat), env.socket k = some fd → x.world.fresh fd = true →
    R x { x with world := x.world.openFd fd }
  registered : ∀ x : Ctx, R x (registerOriginSocket x).2
  unregistered : ∀ (x x' : Ctx) (fd : Int) (item : Item), x.world.sel.fds fd = some item →
    handleClose item.handler ⟨fd, item.data⟩ x = .ok x' →
    R x (x'.setSel (x'.world.sel.clear fd))

/-- A computation that respects `R`, run from `x`. -/
def Respects (R : Ctx → Ctx → Prop) (x : Ctx) (m : Except Fault Ctx) : Prop :=
  Lib.Returns m (R x)

/-- The same of a handler that returns a value besides. -/
def RespectsWith {α : Type} (R : Ctx → Ctx → Prop) (x : Ctx)
    (m : Except Fault (α × Ctx)) : Prop :=
  Lib.Returns m fun r => R x r.2

/-- The same of a round of a loop, whether it goes on or not. -/
def RespectsRound {β : Type} (R : Ctx → Ctx → Prop) (x : Ctx)
    (m : Except Fault (Lib.Round Ctx (β × Ctx))) : Prop :=
  Lib.Returns m (Lib.Round.Post (R x) fun r => R x r.2)

section

variable {env : Env} {R : Ctx → Ctx → Prop} (hR : Stable env R)
include hR

/-! ## How respect composes -/

section

variable {α : Type} {x y : Ctx}

omit hR in
theorem respects_ok {x' : Ctx} (h : R x x') : Respects R x (.ok x') := Lib.returns_ok h

omit hR in
theorem respectsWith_ok {x' : Ctx} {a : α} (h : R x x') : RespectsWith R x (.ok (a, x')) :=
  Lib.returns_ok h

theorem Respects.after {m : Except Fault Ctx} (h : Respects R y m) (hxy : R x y) :
    Respects R x m := Lib.Returns.mono h fun _ ha => hR.trans hxy ha

theorem RespectsWith.after {m : Except Fault (α × Ctx)} (h : RespectsWith R y m)
    (hxy : R x y) : RespectsWith R x m := Lib.Returns.mono h fun _ ha => hR.trans hxy ha

theorem Respects.bind {m : Except Fault Ctx} {f : Ctx → Except Fault Ctx}
    (hm : Respects R x m) (hf : ∀ y, Respects R y (f y)) : Respects R x (m >>= f) :=
  Lib.returns_bind hm fun y hy => (hf y).after hR hy

theorem RespectsWith.bind {β : Type} {m : Except Fault (α × Ctx)}
    {f : α × Ctx → Except Fault (β × Ctx)} (hm : RespectsWith R x m)
    (hf : ∀ a y, RespectsWith R y (f (a, y))) : RespectsWith R x (m >>= f) :=
  Lib.returns_bind hm fun r hr => (hf r.1 r.2).after hR hr

theorem RespectsWith.bind_ctx {m : Except Fault (α × Ctx)} {f : α × Ctx → Except Fault Ctx}
    (hm : RespectsWith R x m) (hf : ∀ a y, Respects R y (f (a, y))) :
    Respects R x (m >>= f) :=
  Lib.returns_bind hm fun r hr => (hf r.1 r.2).after hR hr

/-- The loop rule. -/
theorem respects_loop {β : Type} {body : Ctx → Except Fault (Lib.Round Ctx (β × Ctx))}
    (hbody : ∀ y, RespectsRound R y (body y)) (fuel : Nat) :
    RespectsWith R x (Lib.loop .noReturn body fuel x) := by
  refine Lib.returns_loop (R x) (fun y hy => ?_) fuel x (hR.refl x)
  refine Lib.Returns.mono (hbody y) fun r hr => ?_
  cases r with
  | again z => exact hR.trans hy hr
  | leave b => exact hR.trans hy hr

end

omit hR in
/-- A step that computes something other than the context first. -/
theorem respects_bind_any {α : Type} {x : Ctx} {m : Except Fault α}
    {f : α → Except Fault Ctx} (hf : ∀ a, m = .ok a → Respects R x (f a)) :
    Respects R x (m >>= f) :=
  Lib.returns_bind (fun _ ha => ha) hf

omit hR in
theorem respectsWith_bind_any {α β : Type} {x : Ctx} {m : Except Fault α}
    {f : α → Except Fault (β × Ctx)} (hf : ∀ a, m = .ok a → RespectsWith R x (f a)) :
    RespectsWith R x (m >>= f) :=
  Lib.returns_bind (fun _ ha => ha) hf

omit hR in
theorem append_size {b b' : Buffer} {bs : Bytes} (h : bufferAppend b bs = .ok b') :
    b'.size = b.size := by
  obtain ⟨-, hl, ha⟩ := Buffer.append_spec h
  rw [Buffer.size, hl, ha, Buffer.size]

omit hR in
theorem print_size {b b' : Buffer} {text : Bytes} (h : bufferPrint b text = .ok b') :
    b'.size = b.size := by
  obtain ⟨-, hl, ha⟩ := Buffer.print_spec h
  rw [Buffer.size, hl, ha, Buffer.size]

omit hR in
theorem readAdv_size {b b' : Buffer} {n : Nat} (h : bufferReadAdv b n = .ok b') :
    b'.size = b.size := by
  obtain ⟨-, hl, ha⟩ := Buffer.readAdv_spec h
  rw [Buffer.size, hl, ha, Buffer.size]

omit hR in
theorem read_size {b b' : Buffer} {c : UInt8} (h : bufferRead b = .ok (c, b'))
    (hcan : bufferCanRead b = true) : b'.size = b.size := by
  obtain ⟨-, hl, ha⟩ := Buffer.read_ok hcan h
  rw [Buffer.size, hl, ha, Buffer.size]

omit hR in
theorem setBuffers_sizes {c c' : Conn} (hc : c'.clientBuffer.size = c.clientBuffer.size)
    (ho : c'.originBuffer.size = c.originBuffer.size) : c'.sizes = c.sizes := by
  rw [Conn.sizes, hc, ho, Conn.sizes]

/-! ## Sockets and the selector -/

variable {x : Ctx}

theorem setInterests_respects (i : Interest × Interest) : R x (x.setInterests i) :=
  hR.trans (hR.setInterest x _ _) (hR.setInterest _ _ _)

theorem selectorUnregisterFd_respects (fd : Int) :
    RespectsWith R x (selectorUnregisterFd x fd) := by
  unfold selectorUnregisterFd
  split
  · exact respectsWith_ok (hR.refl x)
  · split
    · exact respectsWith_ok (hR.refl x)
    · next item hit =>
        refine Lib.returns_bind (fun x' hx' => hx') fun x' hx' => ?_
        exact respectsWith_ok (hR.unregistered x x' fd item hit hx')

theorem unregisterOrigin_respects : Respects R x (unregisterOrigin x) := by
  unfold unregisterOrigin
  split
  · exact (selectorUnregisterFd_respects hR x.conn.originFd).bind_ctx hR
      fun _ y => respects_ok (hR.refl y)
  · exact respects_ok (hR.refl x)

/-- The end of a connection: the origin's item, then the client's. -/
theorem doneOnArrival_respects : Respects R x (doneOnArrival x) := by
  unfold doneOnArrival
  refine (unregisterOrigin_respects hR).bind hR fun y => respects_bind_any fun c _ => ?_
  exact (selectorUnregisterFd_respects hR c.clientFd).bind_ctx hR
    fun _ z => respects_ok (hR.refl z)

theorem closeProxyConnection_respects : Respects R x (closeProxyConnection x) := by
  unfold closeProxyConnection
  have hx : R x (if x.conn.stmState.num ≥ ConnState.sendRequestLine.num then
      x.setMetrics unregisterConnection else x) := by
    split
    · exact hR.setMetrics x _
    · exact hR.refl x
  exact Respects.after hR (doneOnArrival_respects hR) hx

theorem establishOriginConnection_respects (peer : Peer) (addr : Sockaddr) :
    R x (establishOriginConnection env peer addr x).2 := by
  unfold establishOriginConnection
  have hn : R x { x with opens := x.opens + 1 } := hR.asked x
  simp only
  split
  · exact hR.trans hn (hR.setConn rfl)
  · next fd hfd =>
      split
      · next hf =>
          have ho := hR.trans hn (hR.opened { x with opens := x.opens + 1 } fd x.opens hfd hf)
          exact hR.trans ho (hR.setConn rfl)
      · exact hR.trans hn (hR.setConn rfl)

theorem openOrigin_respects (peer : Peer) (addr : Sockaddr) :
    R x (openOrigin env peer addr x) :=
  hR.trans (establishOriginConnection_respects hR peer addr) (hR.setConn rfl)

theorem registerOrFail_respects : R x (registerOrFail x).2 := by
  have hr := hR.registered x
  unfold registerOrFail
  simp only
  split
  · exact hR.trans hr (hR.setConn rfl)
  · exact hr

theorem handleOriginDohConnection_respects : R x (handleOriginDohConnection env x).2 := by
  have ho : R x (openOrigin env .doh x.world.dohUtils.sockaddr x) :=
    openOrigin_respects hR .doh _
  unfold handleOriginDohConnection
  simp only
  split
  · exact hR.trans ho (hR.setConn rfl)
  · exact hR.trans ho (registerOrFail_respects hR)

theorem handleOriginIpConnection_respects : R x (handleOriginIpConnection env x).2 := by
  have ho : R x (openOrigin env .literal
      x.conn.requestParser.request.requestTarget.host.sockaddr x) :=
    openOrigin_respects hR .literal _
  unfold handleOriginIpConnection
  simp only
  split
  · exact hR.trans ho (hR.setConn rfl)
  · exact hR.trans ho (registerOrFail_respects hR)

theorem queryIpv6_respects (doh : DohConnection) : R x (queryIpv6 env doh x).2 := by
  have hg : R x (x.setConn (x.conn.giveUpIpv4 doh)) := hR.setConn rfl
  exact hR.trans hg (handleOriginDohConnection_respects hR)

/-! ## The walk over the answers -/

theorem tryNextRound_respects (type : UInt16) (addrOf : UInt16 → Answer → Sockaddr) :
    RespectsRound R x (tryNextRound env type addrOf x) := by
  unfold tryNextRound
  split
  · exact Lib.returns_error _
  · next doh _ =>
      split
      · refine Lib.returns_bind (fun a ha => ha) fun a _ => ?_
        have hx : R x (x.setConn (x.conn.examine doh a)) := hR.setConn rfl
        simp only
        split
        · exact Lib.returns_ok hx
        · have hopen : R (x.setConn (x.conn.examine doh a))
              (openOrigin env (.answer doh.currentTry.toNat)
                (addrOf (x.setConn
                  (x.conn.examine doh a)).conn.requestParser.request.requestTarget.port a)
                (x.setConn (x.conn.examine doh a))) := openOrigin_respects hR _ _
          have ho := hR.trans hx hopen
          split
          · exact Lib.returns_ok ho
          · exact Lib.returns_ok (hR.trans ho (registerOrFail_respects hR))
      · exact Lib.returns_ok (hR.refl x)

theorem tryNextIpv4Connection_respects : RespectsWith R x (tryNextIpv4Connection env x) := by
  unfold tryNextIpv4Connection
  refine (respects_loop hR (fun y => tryNextRound_respects hR _ _) env.fuel).bind hR
    fun ret y => ?_
  cases ret with
  | some next => exact respectsWith_ok (hR.refl y)
  | none =>
      simp only
      split
      · exact Lib.returns_error _
      · next doh _ => exact Lib.returns_ok (queryIpv6_respects hR doh)

theorem tryNextIpv6Connection_respects : RespectsWith R x (tryNextIpv6Connection env x) := by
  unfold tryNextIpv6Connection
  refine (respects_loop hR (fun y => tryNextRound_respects hR _ _) env.fuel).bind hR
    fun ret y => ?_
  cases ret with
  | some next => exact respectsWith_ok (hR.refl y)
  | none => exact respectsWith_ok (hR.setConn rfl)

theorem tryNextDnsConnection_respects : RespectsWith R x (tryNextDnsConnection env x) := by
  unfold tryNextDnsConnection
  refine (selectorUnregisterFd_respects hR x.conn.originFd).bind hR fun status y => ?_
  refine respectsWith_bind_any fun c _ => ?_
  split
  · exact respectsWith_ok (hR.setConn rfl)
  · split
    · exact Lib.returns_error _
    · next doh _ =>
        simp only
        split
        · split
          · exact tryNextIpv4Connection_respects hR
          · exact Lib.returns_ok (queryIpv6_respects hR doh)
        · split
          · exact respectsWith_ok (hR.setConn rfl)
          · exact tryNextIpv6Connection_respects hR

/-! ## The states -/

omit hR in
theorem finishRequest_sizes (key : SelectorKey) (c : Conn) :
    (finishRequest key c).sizes = c.sizes := by
  unfold finishRequest
  simp only
  split
  · rfl
  · split <;> rfl

theorem requestDone_respects (key : SelectorKey) : R x (requestDone env key x).2 := by
  have hfinish : ∀ r : ConnState × Ctx, R x r.2 →
      R x (if r.1 ≠ .error then (r.1, r.2.setConn (finishRequest key r.2.conn))
        else (r.1, r.2)).2 := by
    intro r hr
    split
    · exact hR.trans hr (hR.setConn (finishRequest_sizes key r.2.conn))
    · exact hr
  unfold requestDone
  by_cases hd : x.conn.requestParser.request.requestTarget.hostType = .domain
  · rw [if_pos hd]
    exact hfinish _ (handleOriginDohConnection_respects hR)
  · rw [if_neg hd]
    exact hfinish _ (handleOriginIpConnection_respects hR)

theorem parsingHostRound_respects (key : SelectorKey) :
    RespectsRound R x (parsingHostRound env key x) := by
  unfold parsingHostRound
  split
  · next hcan =>
      refine Lib.returns_bind (fun r hr => hr) fun r hr => ?_
      obtain ⟨b, buffer⟩ := r
      have hx : R x (x.setConn (x.conn.parsed b buffer)) :=
        hR.setConn (setBuffers_sizes (read_size hr hcan) rfl)
      simp only
      split
      · exact Lib.returns_ok (hR.trans hx (hR.setConn rfl))
      · split
        · exact Lib.returns_ok (hR.trans hx (requestDone_respects hR key))
        · exact Lib.returns_ok hx
  · exact Lib.returns_ok (hR.refl x)

theorem parsingHostOnReadReady_respects (key : SelectorKey) :
    RespectsWith R x (parsingHostOnReadReady env key x) := by
  unfold parsingHostOnReadReady
  exact (respects_loop hR (fun y => parsingHostRound_respects hR key) env.fuel).bind hR
    fun ret y => respectsWith_ok (hR.refl y)

theorem tryConnectionIpOnWriteReady_respects :
    RespectsWith R x (tryConnectionIpOnWriteReady env x) := by
  unfold tryConnectionIpOnWriteReady
  have hreg : R x ((x.setMetrics registerNewConnection).log .registered) :=
    hR.trans (hR.setMetrics x _) (hR.setConn rfl)
  split
  · split
    · exact respectsWith_ok (hR.refl x)
    · simp only
      split
      · refine respectsWith_bind_any fun buffer hb => respectsWith_ok ?_
        have hsize := print_size hb
        exact hR.trans hreg (hR.setConn (setBuffers_sizes rfl hsize))
      · exact respectsWith_ok hreg
  · have hfail := hR.setMetrics x increaseFailedConnections
    simp only
    split
    · exact (tryNextDnsConnection_respects hR).after hR hfail
    · exact respectsWith_ok (hR.trans hfail (hR.setConn rfl))

theorem sendDohRequestOnArrival_respects : Respects R x (sendDohRequestOnArrival x) := by
  unfold sendDohRequestOnArrival
  refine respects_bind_any fun buffer hb => respects_ok ?_
  have hx : R x (x.setConn { x.conn with originBuffer := buffer }) :=
    hR.setConn (setBuffers_sizes rfl (append_size hb))
  have hx := hR.trans hx (hR.setConn (Conn.log_sizes _ (.query (queryType x.conn))))
  exact hR.trans hx (setInterests_respects hR _)

theorem onDrained_respects (next : ConnState) : RespectsWith R x (onDrained next x) := by
  unfold onDrained
  split <;> exact respectsWith_ok (hR.refl x)

omit hR in
theorem initDohState_sizes (c : Conn) : (initDohState env c).sizes = c.sizes := by
  unfold initDohState
  split
  · rfl
  · split <;> rfl

theorem awaitDohResponseRound_respects : RespectsRound R x (awaitDohResponseRound env x) := by
  unfold awaitDohResponseRound
  split
  · next hcan =>
      split
      · exact Lib.returns_error _
      · have hfed : ∀ (b : UInt8) (buffer : Buffer) (doh : DohConnection),
            bufferRead x.conn.originBuffer = .ok (b, buffer) →
            R x (x.setConn
              { x.conn with originBuffer := buffer, dohConnection := some doh }) :=
          fun b buffer doh hb => hR.setConn (setBuffers_sizes rfl (read_size hb hcan))
        split
        · refine Lib.returns_bind (fun r hr => hr) fun r hr => ?_
          simp only
          split
          · exact Lib.returns_ok (hR.trans (hfed r.1 r.2 _ hr) (hR.setConn rfl))
          · exact Lib.returns_ok (hfed r.1 r.2 _ hr)
        · split
          · refine Lib.returns_bind (fun r hr => hr) fun r hr => ?_
            simp only
            split
            · exact Lib.returns_ok (hR.trans (hfed r.1 r.2 _ hr) (hR.setConn rfl))
            · exact Lib.returns_ok (hfed r.1 r.2 _ hr)
          · split
            · refine Lib.returns_bind (fun r hr => hr) fun r hr => ?_
              simp only
              split
              · exact Lib.returns_ok (hR.trans (hfed r.1 r.2 _ hr) (hR.setConn rfl))
              · exact Lib.returns_ok (hR.trans (hfed r.1 r.2 _ hr) (hR.setConn rfl))
              · split
                · exact Lib.returns_ok (hR.trans (hfed r.1 r.2 _ hr) (hR.setConn rfl))
                · have hreset : ∀ doh : DohConnection,
                      R x ((x.setConn
                        { x.conn with originBuffer := r.2, dohConnection := some doh }).setConn
                        { x.conn with
                          originBuffer := bufferReset r.2, dohConnection := some doh }) :=
                    fun doh => hR.trans (hfed r.1 r.2 doh hr) (hR.setConn rfl)
                  refine Lib.returns_bind (selectorUnregisterFd_respects hR _) fun u hu => ?_
                  refine Lib.returns_bind (fun c hc => hc) fun c _ => ?_
                  exact Lib.returns_ok
                    (hR.trans (hR.trans (hreset _) hu) (queryIpv6_respects hR _))
              · exact Lib.returns_ok (hR.trans (hfed r.1 r.2 _ hr) (hR.setConn rfl))
              · exact Lib.returns_ok (hfed r.1 r.2 _ hr)
            · exact Lib.returns_ok (hR.refl x)
  · exact Lib.returns_ok (hR.refl x)

theorem awaitDohResponseOnReadReady_respects :
    RespectsWith R x (awaitDohResponseOnReadReady env x) := by
  unfold awaitDohResponseOnReadReady
  split
  · exact respectsWith_ok (hR.refl x)
  · refine (respects_loop hR (fun y => awaitDohResponseRound_respects hR) env.fuel).bind hR
      fun ret y => ?_
    cases ret with
    | some next => exact respectsWith_ok (hR.refl y)
    | none =>
        simp only
        split
        · exact (tryNextDnsConnection_respects hR).after hR (hR.setConn rfl)
        · exact respectsWith_ok (hR.refl y)

theorem sendRequestLineOnArrival_respects : Respects R x (sendRequestLineOnArrival x) := by
  unfold sendRequestLineOnArrival
  refine respects_bind_any fun buffer hb => respects_ok ?_
  have hx : R x (x.setConn { x.conn with originBuffer := buffer }) :=
    hR.setConn (setBuffers_sizes rfl (append_size hb))
  exact hR.trans hx (setInterests_respects hR _)

omit hR in
theorem analyzeRead_sizes (key : SelectorKey) (c : Conn) :
    (analyzeRead key c).sizes = c.sizes := by
  unfold analyzeRead
  simp only
  split <;> split <;> rfl

omit hR in
theorem closeOrigin_sizes (c : Conn) : c.closeOrigin.sizes = c.sizes := by
  unfold Conn.closeOrigin
  split <;> rfl

omit hR in
theorem closeClient_sizes (c : Conn) : c.closeClient.sizes = c.sizes := by
  unfold Conn.closeClient
  split <;> rfl

theorem setClosingConnectionInterests_respects : R x (setClosingConnectionInterests x) :=
  hR.trans (hR.setConn ((closeClient_sizes _).trans (closeOrigin_sizes _)))
    (setInterests_respects hR _)

theorem setEmptyBuffersInterests_respects : R x (setEmptyBuffersInterests x) :=
  hR.trans (hR.setConn ((closeOrigin_sizes _).trans (closeClient_sizes _)))
    (setInterests_respects hR _)

theorem errorOnArrival_respects : Respects R x (errorOnArrival x) := by
  unfold errorOnArrival
  refine respects_bind_any fun c hc => ?_
  obtain ⟨buffer, hb, hc⟩ := Lib.bind_eq_ok.mp hc
  cases hc
  have hsize : buffer.size = x.conn.originBuffer.size :=
    (print_size hb).trans (show (bufferReset x.conn.originBuffer).size = _ from rfl)
  have hx : R x (x.setConn { x.conn with originBuffer := buffer }) :=
    hR.setConn (setBuffers_sizes rfl hsize)
  have hx := hR.trans hx (hR.setInterest _ x.conn.clientFd opWrite)
  simp only
  split
  · exact respects_ok (hR.trans hx (hR.setInterest _ _ _))
  · exact respects_ok hx

/-! ## Events -/

theorem onArrival_respects (s : ConnState) : Respects R x (onArrival env s x) := by
  cases s with
  | parsingRequestLine => exact respects_ok (hR.setConn rfl)
  | tryConnectionIp => exact respects_ok (setInterests_respects hR _)
  | sendDohRequest => exact sendDohRequestOnArrival_respects hR
  | awaitDohResponse =>
      exact respects_ok (hR.trans (hR.setConn (initDohState_sizes x.conn))
        (setInterests_respects hR _))
  | sendRequestLine => exact sendRequestLineOnArrival_respects hR
  | connected =>
      refine respects_ok ?_
      unfold connectedOnArrival
      split
      · exact hR.trans (hR.setConn (c := initHttpResponse x.conn) rfl)
          (setInterests_respects hR _)
      · exact setInterests_respects hR _
  | closing => exact respects_ok (setClosingConnectionInterests_respects hR)
  | emptyBuffers => exact respects_ok (setEmptyBuffersInterests_respects hR)
  | done => exact doneOnArrival_respects hR
  | error => exact errorOnArrival_respects hR

theorem onReadReady_respects (key : SelectorKey) (s : ConnState) :
    RespectsWith R x (onReadReady env key s x) := by
  cases s with
  | parsingRequestLine => exact parsingHostOnReadReady_respects hR key
  | awaitDohResponse => exact awaitDohResponseOnReadReady_respects hR
  | connected =>
      show RespectsWith R x (connectedOnReadReady key x)
      unfold connectedOnReadReady
      have hx : R x (x.setConn (analyzeRead key x.conn)) :=
        hR.setConn (analyzeRead_sizes key x.conn)
      simp only
      split
      · exact respectsWith_ok hx
      · exact respectsWith_ok (hR.trans hx (setInterests_respects hR _))
  | closing =>
      show RespectsWith R x (closingOnReadReady key x)
      unfold closingOnReadReady
      simp only
      generalize (if key.fd = x.conn.clientFd then (Side.origin, x.conn.clientStatus)
        else (.client, x.conn.originStatus)) = ends
      split
      · split
        · have hlog : R x (x.log (.shutdown ends.1)) := hR.setConn rfl
          exact respectsWith_ok (hR.trans hlog (hR.setMetrics _ _))
        · exact respectsWith_ok (hR.refl x)
      · exact respectsWith_ok (setClosingConnectionInterests_respects hR)
  | tryConnectionIp | sendDohRequest | sendRequestLine | emptyBuffers | done | error =>
      exact Lib.returns_error _

theorem onWriteReady_respects (s : ConnState) : RespectsWith R x (onWriteReady env s x) := by
  cases s with
  | tryConnectionIp => exact tryConnectionIpOnWriteReady_respects hR
  | sendDohRequest => exact onDrained_respects hR _
  | sendRequestLine => exact onDrained_respects hR _
  | connected => exact respectsWith_ok (setInterests_respects hR _)
  | closing => exact respectsWith_ok (setClosingConnectionInterests_respects hR)
  | emptyBuffers =>
      show RespectsWith R x (emptyBuffersOnWriteReady x)
      unfold emptyBuffersOnWriteReady
      have hx := setEmptyBuffersInterests_respects (x := x) hR
      simp only
      split
      · exact respectsWith_ok (hR.trans hx (hR.setMetrics _ _))
      · exact respectsWith_ok hx
  | error => exact onDrained_respects hR _
  | parsingRequestLine | awaitDohResponse | done => exact Lib.returns_error _

theorem arriveAt_respects (s : ConnState) : Respects R x (arriveAt env s x) :=
  (onArrival_respects hR s).after hR (hR.setConn rfl)

theorem handleFirst_respects : Respects R x (handleFirst env x) := by
  unfold handleFirst
  split
  · exact arriveAt_respects hR _
  · exact respects_ok (hR.refl x)

theorem jump_respects (next : ConnState) : Respects R x (jump env next x) := by
  unfold jump
  refine respects_bind_any fun c _ => ?_
  split
  · exact arriveAt_respects hR next
  · exact respects_ok (hR.refl x)

theorem stmHandlerRead_respects (key : SelectorKey) :
    Respects R x (stmHandlerRead env key x) := by
  unfold stmHandlerRead
  refine (handleFirst_respects hR).bind hR fun y => ?_
  exact (onReadReady_respects hR key y.conn.stmState).bind_ctx hR
    fun next z => jump_respects hR next

theorem stmHandlerWrite_respects : Respects R x (stmHandlerWrite env x) := by
  unfold stmHandlerWrite
  refine (handleFirst_respects hR).bind hR fun y => ?_
  exact (onWriteReady_respects hR y.conn.stmState).bind_ctx hR
    fun next z => jump_respects hR next

theorem proxyClientRead_respects (key : SelectorKey) :
    Respects R x (proxyClientRead env key x) := by
  unfold proxyClientRead
  refine Respects.after (y := x.touch) hR ?_ (hR.setConn rfl)
  simp only
  split
  · exact closeProxyConnection_respects hR
  · split
    · exact (closeProxyConnection_respects hR).after hR (hR.setConn rfl)
    · exact (stmHandlerRead_respects hR key).after hR (hR.setConn rfl)
  · refine respects_bind_any fun buffer hb => ?_
    exact (stmHandlerRead_respects hR key).after hR
      (hR.setConn (setBuffers_sizes (append_size hb) rfl))

/-- What a write handler does once it has sent: count, and drop what was
sent. -/
theorem sent_respects {f : Metrics → Metrics} {c : Conn} (h : c.sizes = x.conn.sizes) :
    Respects R x (stmHandlerWrite env ((x.setMetrics f).setConn c)) :=
  (stmHandlerWrite_respects hR).after hR (hR.trans (hR.setMetrics x f) (hR.setConn h))

theorem proxyClientWrite_respects : Respects R x (proxyClientWrite env x) := by
  unfold proxyClientWrite
  refine Respects.after (y := x.touch) hR ?_ (hR.setConn rfl)
  simp only
  split
  · exact closeProxyConnection_respects hR
  · exact closeProxyConnection_respects hR
  · exact respects_bind_any fun buffer hb =>
      sent_respects hR (setBuffers_sizes rfl (readAdv_size hb))

theorem proxyOriginRead_respects (key : SelectorKey) :
    Respects R x (proxyOriginRead env key x) := by
  unfold proxyOriginRead
  refine Respects.after (y := x.touch) hR ?_ (hR.setConn rfl)
  simp only
  split
  · exact closeProxyConnection_respects hR
  · exact (stmHandlerRead_respects hR key).after hR (hR.setConn rfl)
  · refine respects_bind_any fun buffer hb => ?_
    exact (stmHandlerRead_respects hR key).after hR
      (hR.setConn (setBuffers_sizes rfl (append_size hb)))

theorem proxyOriginWrite_respects : Respects R x (proxyOriginWrite env x) := by
  unfold proxyOriginWrite
  refine Respects.after (y := x.touch) hR ?_ (hR.setConn rfl)
  simp only
  split
  · exact stmHandlerWrite_respects hR
  · split
    · split
      · exact closeProxyConnection_respects hR
      · exact closeProxyConnection_respects hR
      · exact respects_bind_any fun buffer hb =>
          sent_respects hR (setBuffers_sizes rfl (readAdv_size hb))
    · split
      · exact closeProxyConnection_respects hR
      · exact closeProxyConnection_respects hR
      · exact respects_bind_any fun buffer hb =>
          sent_respects hR (setBuffers_sizes (readAdv_size hb) rfl)

theorem connectionGarbageCollect_respects (fd : Int) :
    Respects R x (connectionGarbageCollect fd x) := by
  unfold connectionGarbageCollect
  split
  · refine (closeProxyConnection_respects hR).after hR ?_
    split
    · exact hR.setMetrics x _
    · exact hR.refl x
  · exact respects_ok (hR.refl x)

end

end HttpdProxy
