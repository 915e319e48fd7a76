import HttpdProxy.Proofs.Daemon

/-!
# Where the daemon aborts

`stm.c` aborts when an event finds its connection in a state without the
handler for it, and nothing else in the daemon does. Eight of the ten states
lack one; none of them waits for what it could not handle, so as long as a
connection's items ask for what its state waits for, every event the selector
delivers finds its handler.
-/

namespace HttpdProxy

open Lib (Avoids avoids_ok avoids_error avoids_bind)

/-! ## What neither aborts nor stores -/

/-- `abort()`, and a store past the memory of a buffer. -/
def Fault.loud : Fault → Bool
  | .abort | .overrun => true
  | _ => false

section

variable {f : Fault} (hf : f.loud = true)
include hf

theorem avoids_of_loud {α : Type} {e : Fault} (he : e.loud = false) :
    Avoids f (.error e : Except Fault α) := by
  refine avoids_error fun h => ?_
  rw [h, hf] at he
  cases he

theorem noReturn_ne_of_loud : Fault.noReturn ≠ f := by
  rintro rfl
  cases hf

variable {x : Ctx} {env : Env}

theorem bufferReadAdv_quiet (b : Buffer) (n : Nat) : Avoids f (bufferReadAdv b n) := by
  unfold bufferReadAdv
  split
  · split <;> exact avoids_ok _ _
  · exact avoids_of_loud hf rfl

theorem bufferRead_quiet (b : Buffer) : Avoids f (bufferRead b) := by
  unfold bufferRead
  split
  · exact avoids_bind (bufferReadAdv_quiet hf b 1) fun _ _ => avoids_ok _ _
  · exact avoids_ok _ _

theorem deref_quiet : Avoids f x.deref := by
  unfold Ctx.deref
  split
  · exact avoids_of_loud hf rfl
  · exact avoids_ok _ _

theorem selectorUnregisterFd_quiet (fd : Int) : Avoids f (selectorUnregisterFd x fd) := by
  unfold selectorUnregisterFd
  split
  · exact avoids_ok _ _
  · split
    · exact avoids_ok _ _
    · next item _ =>
        refine avoids_bind ?_ fun _ _ => avoids_ok _ _
        cases item.handler with
        | client =>
            show Avoids f (proxyClientClose ⟨fd, item.data⟩ x)
            unfold proxyClientClose
            split
            · split
              · split
                · exact avoids_of_loud hf rfl
                · exact avoids_ok _ _
              · split
                · exact avoids_ok _ _
                · exact avoids_of_loud hf rfl
            · exact avoids_of_loud hf rfl
        | origin | proxy | management | logger => exact avoids_ok _ _

theorem doneOnArrival_quiet : Avoids f (doneOnArrival x) := by
  unfold doneOnArrival unregisterOrigin
  refine avoids_bind ?_ fun y _ => ?_
  · split
    · exact avoids_bind (selectorUnregisterFd_quiet hf _) fun _ _ => avoids_ok _ _
    · exact avoids_ok _ _
  · refine avoids_bind (deref_quiet hf) fun c _ => ?_
    exact avoids_bind (selectorUnregisterFd_quiet hf _) fun _ _ => avoids_ok _ _

theorem closeProxyConnection_quiet : Avoids f (closeProxyConnection x) := by
  unfold closeProxyConnection
  exact doneOnArrival_quiet hf

theorem tryNextRound_quiet (type : UInt16) (addrOf : UInt16 → Answer → Sockaddr) :
    Avoids f (tryNextRound env type addrOf x) := by
  unfold tryNextRound
  split
  · exact avoids_of_loud hf rfl
  · split
    · refine avoids_bind ?_ fun a _ => ?_
      · unfold readAnswer
        split
        · exact avoids_of_loud hf rfl
        · split
          · exact avoids_of_loud hf rfl
          · exact avoids_ok _ _
      · simp only
        split
        · exact avoids_ok _ _
        · split <;> exact avoids_ok _ _
    · exact avoids_ok _ _

theorem tryNextDnsConnection_quiet : Avoids f (tryNextDnsConnection env x) := by
  unfold tryNextDnsConnection
  refine avoids_bind (selectorUnregisterFd_quiet hf _) fun r _ => ?_
  refine avoids_bind (deref_quiet hf) fun c _ => ?_
  simp only
  split
  · exact avoids_ok _ _
  · split
    · exact avoids_of_loud hf rfl
    · split
      · split
        · unfold tryNextIpv4Connection
          refine avoids_bind (Lib.avoids_loop (noReturn_ne_of_loud hf)
            (fun y => tryNextRound_quiet hf _ _) _ _) fun s _ => ?_
          simp only
          split
          · exact avoids_ok _ _
          · split
            · exact avoids_of_loud hf rfl
            · exact avoids_ok _ _
        · exact avoids_ok _ _
      · split
        · exact avoids_ok _ _
        · unfold tryNextIpv6Connection
          refine avoids_bind (Lib.avoids_loop (noReturn_ne_of_loud hf)
            (fun y => tryNextRound_quiet hf _ _) _ _) fun s _ => ?_
          simp only
          split <;> exact avoids_ok _ _

theorem parsingHostOnReadReady_quiet (key : SelectorKey) :
    Avoids f (parsingHostOnReadReady env key x) := by
  unfold parsingHostOnReadReady
  refine avoids_bind (Lib.avoids_loop (noReturn_ne_of_loud hf) (fun y => ?_) _ _)
    fun _ _ => avoids_ok _ _
  unfold parsingHostRound
  split
  · refine avoids_bind (bufferRead_quiet hf _) fun r _ => ?_
    simp only
    split
    · exact avoids_ok _ _
    · split <;> exact avoids_ok _ _
  · exact avoids_ok _ _

theorem awaitDohResponseRound_quiet : Avoids f (awaitDohResponseRound env x) := by
  unfold awaitDohResponseRound
  split
  · split
    · exact avoids_of_loud hf rfl
    · split
      · refine avoids_bind (bufferRead_quiet hf _) fun r _ => ?_
        simp only
        split <;> exact avoids_ok _ _
      · split
        · refine avoids_bind (bufferRead_quiet hf _) fun r _ => ?_
          simp only
          split <;> exact avoids_ok _ _
        · split
          · refine avoids_bind (bufferRead_quiet hf _) fun r _ => ?_
            simp only
            split
            · exact avoids_ok _ _
            · exact avoids_ok _ _
            · split
              · exact avoids_ok _ _
              · refine avoids_bind (selectorUnregisterFd_quiet hf _) fun u _ => ?_
                exact avoids_bind (deref_quiet hf) fun _ _ => avoids_ok _ _
            · exact avoids_ok _ _
            · exact avoids_ok _ _
          · exact avoids_ok _ _
  · exact avoids_ok _ _

theorem awaitDohResponseOnReadReady_quiet : Avoids f (awaitDohResponseOnReadReady env x) := by
  unfold awaitDohResponseOnReadReady
  split
  · exact avoids_ok _ _
  · refine avoids_bind (Lib.avoids_loop (noReturn_ne_of_loud hf)
      (fun y => awaitDohResponseRound_quiet hf) _ _) fun s _ => ?_
    simp only
    split
    · exact avoids_ok _ _
    · split
      · exact tryNextDnsConnection_quiet hf
      · exact avoids_ok _ _

end

/-! ## What cannot abort -/

/-- A computation that does not abort. -/
abbrev Sure {α : Type} (m : Except Fault α) : Prop := Avoids Fault.abort m

section

variable {x : Ctx} {env : Env}

theorem bufferAppend_sure (b : Buffer) (bs : Bytes) : Sure (bufferAppend b bs) := by
  unfold bufferAppend
  refine avoids_bind ?_ fun b' _ => ?_
  · unfold bufferStore
    split
    · exact avoids_ok _ _
    · exact avoids_error (by decide)
  · unfold bufferWriteAdv
    split
    · exact avoids_ok _ _
    · exact avoids_error (by decide)

theorem bufferPrint_sure (b : Buffer) (text : Bytes) : Sure (bufferPrint b text) := by
  unfold bufferPrint
  refine avoids_bind ?_ fun b' _ => ?_
  · unfold bufferStore
    split
    · exact avoids_ok _ _
    · exact avoids_error (by decide)
  · unfold bufferWriteAdv
    split
    · exact avoids_ok _ _
    · exact avoids_error (by decide)

theorem onArrival_sure (s : ConnState) : Sure (onArrival env s x) := by
  cases s with
  | sendDohRequest =>
      exact avoids_bind (bufferAppend_sure _ _) fun _ _ => avoids_ok _ _
  | sendRequestLine =>
      exact avoids_bind (bufferAppend_sure _ _) fun _ _ => avoids_ok _ _
  | done => exact doneOnArrival_quiet rfl
  | error =>
      refine avoids_bind (avoids_bind (bufferPrint_sure _ _) fun _ _ => avoids_ok _ _)
        fun c _ => ?_
      simp only
      split <;> exact avoids_ok _ _
  | parsingRequestLine | tryConnectionIp | awaitDohResponse | connected | closing
  | emptyBuffers => exact avoids_ok _ _

theorem jump_sure (next : ConnState) : Sure (jump env next x) := by
  unfold jump
  refine avoids_bind (deref_quiet rfl) fun c _ => ?_
  split
  · exact onArrival_sure next
  · exact avoids_ok _ _

end

/-! ## The two columns of the table -/

/-- The states with an `on_read_ready`. -/
def ConnState.reads : ConnState → Bool
  | .parsingRequestLine | .awaitDohResponse | .connected | .closing => true
  | _ => false

/-- The states with an `on_write_ready`. -/
def ConnState.writes : ConnState → Bool
  | .parsingRequestLine | .awaitDohResponse | .done => false
  | _ => true

section

variable {x : Ctx} {env : Env} {s : ConnState}

theorem onReadReady_sure (key : SelectorKey) (h : s.reads = true) :
    Sure (onReadReady env key s x) := by
  cases s with
  | parsingRequestLine => exact parsingHostOnReadReady_quiet rfl key
  | awaitDohResponse => exact awaitDohResponseOnReadReady_quiet rfl
  | connected =>
      show Sure (connectedOnReadReady key x)
      unfold connectedOnReadReady
      simp only
      split <;> exact avoids_ok _ _
  | closing =>
      show Sure (closingOnReadReady key x)
      unfold closingOnReadReady
      simp only
      generalize (if key.fd = x.conn.clientFd then (Side.origin, x.conn.clientStatus)
        else (.client, x.conn.originStatus)) = ends
      split
      · split <;> exact avoids_ok _ _
      · exact avoids_ok _ _
  | tryConnectionIp | sendDohRequest | sendRequestLine | emptyBuffers | done | error => cases h

theorem onWriteReady_sure (h : s.writes = true) : Sure (onWriteReady env s x) := by
  have hdrained : ∀ next, Sure (onDrained next x) := by
    intro next
    unfold onDrained
    split <;> exact avoids_ok _ _
  cases s with
  | tryConnectionIp =>
      show Sure (tryConnectionIpOnWriteReady env x)
      unfold tryConnectionIpOnWriteReady
      split
      · split
        · exact avoids_ok _ _
        · simp only
          split
          · exact avoids_bind (bufferPrint_sure _ _) fun _ _ => avoids_ok _ _
          · exact avoids_ok _ _
      · simp only
        split
        · exact tryNextDnsConnection_quiet rfl
        · exact avoids_ok _ _
  | sendDohRequest => exact hdrained _
  | sendRequestLine => exact hdrained _
  | connected => exact avoids_ok _ _
  | closing => exact avoids_ok _ _
  | emptyBuffers =>
      show Sure (emptyBuffersOnWriteReady x)
      unfold emptyBuffersOnWriteReady
      simp only
      split <;> exact avoids_ok _ _
  | error => exact hdrained _
  | parsingRequestLine | awaitDohResponse | done => cases h

/-- The first event of a connection finds it in its first state. -/
theorem handleFirst_stmState {x' : Ctx} (h : handleFirst env x = .ok x') :
    x'.conn.stmState = x.conn.stmState := by
  unfold handleFirst at h
  split at h
  · next hnone =>
      cases h
      show ConnState.parsingRequestLine = _
      rw [Conn.stmState, hnone]
      rfl
  · cases h
    rfl

theorem handleFirst_sure : Sure (handleFirst env x) := by
  unfold handleFirst
  split
  · exact onArrival_sure _
  · exact avoids_ok _ _

theorem stmHandlerRead_sure (key : SelectorKey) (h : x.conn.stmState.reads = true) :
    Sure (stmHandlerRead env key x) := by
  unfold stmHandlerRead
  refine avoids_bind handleFirst_sure fun y hy => ?_
  rw [handleFirst_stmState hy]
  exact avoids_bind (onReadReady_sure key h) fun _ _ => jump_sure _

theorem stmHandlerWrite_sure (h : x.conn.stmState.writes = true) :
    Sure (stmHandlerWrite env x) := by
  unfold stmHandlerWrite
  refine avoids_bind handleFirst_sure fun y hy => ?_
  rw [handleFirst_stmState hy]
  exact avoids_bind (onWriteReady_sure h) fun _ _ => jump_sure _

theorem proxyClientRead_sure (key : SelectorKey) (h : x.conn.stmState.reads = true) :
    Sure (proxyClientRead env key x) := by
  unfold proxyClientRead
  simp only
  split
  · exact closeProxyConnection_quiet rfl
  · split
    · exact closeProxyConnection_quiet rfl
    · exact stmHandlerRead_sure key h
  · exact avoids_bind (bufferAppend_sure _ _) fun _ _ => stmHandlerRead_sure key h

theorem proxyClientWrite_sure (h : x.conn.stmState.writes = true) :
    Sure (proxyClientWrite env x) := by
  unfold proxyClientWrite
  simp only
  split
  · exact closeProxyConnection_quiet rfl
  · exact closeProxyConnection_quiet rfl
  · exact avoids_bind (bufferReadAdv_quiet rfl _ _) fun _ _ => stmHandlerWrite_sure h

theorem proxyOriginRead_sure (key : SelectorKey) (h : x.conn.stmState.reads = true) :
    Sure (proxyOriginRead env key x) := by
  unfold proxyOriginRead
  simp only
  split
  · exact closeProxyConnection_quiet rfl
  · exact stmHandlerRead_sure key h
  · exact avoids_bind (bufferAppend_sure _ _) fun _ _ => stmHandlerRead_sure key h

theorem proxyOriginWrite_sure (h : x.conn.stmState.writes = true) :
    Sure (proxyOriginWrite env x) := by
  unfold proxyOriginWrite
  simp only
  split
  · exact stmHandlerWrite_sure h
  · split
    · split
      · exact closeProxyConnection_quiet rfl
      · exact closeProxyConnection_quiet rfl
      · exact avoids_bind (bufferReadAdv_quiet rfl _ _) fun _ _ => stmHandlerWrite_sure h
    · split
      · exact closeProxyConnection_quiet rfl
      · exact closeProxyConnection_quiet rfl
      · exact avoids_bind (bufferReadAdv_quiet rfl _ _) fun _ _ => stmHandlerWrite_sure h

theorem connectionGarbageCollect_sure (fd : Int) : Sure (connectionGarbageCollect fd x) := by
  unfold connectionGarbageCollect
  split
  · exact closeProxyConnection_quiet rfl
  · exact avoids_ok _ _

end

/-! ## No state waits for what it cannot handle -/

theorem reads_of_client {s : ConnState} {c : Conn} (h : (s.interests c).1.read = true) :
    s.reads = true := by
  cases s <;> first | rfl | cases h

theorem reads_of_origin {s : ConnState} {c : Conn} (h : (s.interests c).2.read = true) :
    s.reads = true := by
  cases s <;> first | rfl | cases h

theorem writes_of_client {s : ConnState} {c : Conn} (h : (s.interests c).1.write = true) :
    s.writes = true := by
  cases s <;> first | rfl | cases h

theorem writes_of_origin {s : ConnState} {c : Conn} (h : (s.interests c).2.write = true) :
    s.writes = true := by
  cases s <;> first | rfl | cases h

section

variable {w : World} {env : Env} {fd : Int} {it : Item}

theorem onBehalfOf_sure {id : Nat} {c : Conn} {f : Ctx → Except Fault Ctx}
    (hc : w.heap id = .live c) (hf : Sure (f (w.ctx id c))) : Sure (onBehalfOf w id f) := by
  unfold onBehalfOf
  rw [hc]
  exact avoids_bind hf fun _ _ => avoids_ok _ _

theorem handleRead_sure (h : Sound w) (hf : w.sel.fds fd = some it)
    (hint : it.interest.read = true) : Sure (handleRead env fd it w) := by
  unfold handleRead
  split
  · exact avoids_ok _ _
  · exact avoids_ok _ _
  · next id hh hd =>
      obtain ⟨c, oi, hc, hrest, ⟨rfl, rfl⟩ | ⟨_, _, rfl⟩⟩ := h.item_cases hf hd
      · exact onBehalfOf_sure hc (proxyClientRead_sure _ (reads_of_client hint))
      · cases hh
  · next id hh hd =>
      obtain ⟨c, oi, hc, hrest, ⟨_, rfl⟩ | ⟨rfl, rfl, rfl⟩⟩ := h.item_cases hf hd
      · cases hh
      · exact onBehalfOf_sure hc (proxyOriginRead_sure _ (reads_of_origin hint))
  · exact avoids_error (by decide)
  · exact avoids_error (by decide)
  · exact avoids_error (by decide)

theorem handleWrite_sure (h : Sound w) (hf : w.sel.fds fd = some it)
    (hint : it.interest.write = true) : Sure (handleWrite env it w) := by
  unfold handleWrite
  split
  · exact avoids_error (by decide)
  · exact avoids_error (by decide)
  · next id hh hd =>
      obtain ⟨c, oi, hc, hrest, ⟨rfl, rfl⟩ | ⟨_, _, rfl⟩⟩ := h.item_cases hf hd
      · exact onBehalfOf_sure hc (proxyClientWrite_sure (writes_of_client hint))
      · cases hh
  · next id hh hd =>
      obtain ⟨c, oi, hc, hrest, ⟨_, rfl⟩ | ⟨rfl, rfl, rfl⟩⟩ := h.item_cases hf hd
      · cases hh
      · exact onBehalfOf_sure hc (proxyOriginWrite_sure (writes_of_origin hint))
  · exact avoids_error (by decide)
  · exact avoids_error (by decide)
  · exact avoids_ok _ _

end

theorem collect_sure (fd : Int) (w : World) : Sure (collect fd w) := by
  unfold collect
  split
  · next id _ =>
      split
      · exact avoids_ok _ _
      · unfold onBehalfOf
        split
        · exact avoids_bind (connectionGarbageCollect_sure fd) fun _ _ => avoids_ok _ _
        · exact avoids_error (by decide)
  · exact avoids_ok _ _

theorem runGarbageCollector_sure (is : List Nat) : ∀ w, Sure (runGarbageCollector is w) := by
  induction is with
  | nil => exact fun w => avoids_ok _ _
  | cons i is ih => exact fun w => avoids_bind (collect_sure i w) fun u _ => ih u

/-- Whatever the selector delivers next, it does not abort the daemon. -/
theorem step_sure {w : World} (h : Sound w) (e : Event) : Sure (step w e) := by
  cases e with
  | readable fd env =>
      rw [step]
      split
      · next item hit =>
          split
          · next hint => exact handleRead_sure h hit hint
          · exact avoids_ok _ _
      · exact avoids_ok _ _
  | writable fd env =>
      rw [step]
      split
      · next item hit =>
          split
          · next hint => exact handleWrite_sure h hit hint
          · exact avoids_ok _ _
      · exact avoids_ok _ _
  | garbageCollect =>
      rw [step]
      split
      · exact runGarbageCollector_sure _ _
      · exact avoids_ok _ _
  | tick seconds => exact avoids_ok _ _

/-- In every run in which no connection is closed while the number in its
`origin_fd` is another's, no event aborts the daemon, in whatever order
readiness that was reported earlier is delivered. -/
theorem never_aborts {cfg : Config} {es : List Event} {w : World}
    (h : Lib.RunsWhen step Undisturbed (initWorld cfg) es w) (e : Event) :
    step w e ≠ .error .abort :=
  step_sure (lives h).1 e

/-- The connection whose origin has hung up can be read. -/
theorem never_aborts_crowd :
    ∃ w : World, w.liveAt 0 (fun c => c.stmState == .error && c.originFd == 6) = true ∧
      w.liveAt 2 (fun c => c.stmState == .closing && c.originFd == 6) = true ∧
      step w (.readable 9 { Env.silent with recv := some (ascii "x") }) ≠ .error .abort := by
  obtain ⟨w, h, hp⟩ := @computed_run loopback crowd
    (fun w => w.liveAt 0 (fun c => c.stmState == .error && c.originFd == 6) &&
      w.liveAt 2 (fun c => c.stmState == .closing && c.originFd == 6)) (by decide +kernel)
  obtain ⟨herror, hclosing⟩ := (Bool.and_eq_true _ _).mp hp
  exact ⟨w, herror, hclosing, never_aborts h _⟩

/-! ### A daemon that aborts

The first connection gives up both queries and keeps the number 6 of the DoH
server's socket, which the kernel gives to the second's origin. When the first
is done it closes 6, the kernel gives it to a third connection's client, and
now the second sets the interests of that client: it can be read while its
connection waits for its origin. -/

def staleNumber : List Event :=
  [.readable 3 { Env.silent with accept := some 5 },
    .readable 5 { Env.silent with
      recv := some (ascii "GET http://a HTTP/1.0\r\n"), socket := fun _ => some 6 },
    .writable 6 Env.silent,
    .writable 6 { Env.silent with send := some 1000 },
    .readable 6 { Env.silent with recv := some [], socket := fun _ => some 6 },
    .writable 6 Env.silent,
    .writable 6 { Env.silent with send := some 1000 },
    .readable 6 { Env.silent with recv := some [] },
    .readable 3 { Env.silent with accept := some 7 },
    .readable 7 { Env.silent with recv := some getLiteral, socket := fun _ => some 6 },
    .writable 6 Env.silent,
    .writable 6 { Env.silent with send := some 1000 },
    .writable 5 { Env.silent with send := some 1000 },
    .readable 3 { Env.silent with accept := some 6 },
    .readable 6 { Env.silent with recv := some getLiteral, socket := fun _ => some 8 },
    .readable 7 { Env.silent with recv := some (ascii "x") }]

theorem stale_number_aborts :
    ∃ w : World, Lib.Runs step (initWorld loopback) staleNumber w ∧
      step w (.readable 6 { Env.silent with recv := some (ascii "y") }) = .error .abort := by
  have hcheck : ((Lib.runChecked step (fun _ _ => true) staleNumber (initWorld loopback)).any
      fun w => stops (step w (.readable 6 { Env.silent with recv := some (ascii "y") }))
        .abort) = true := by decide +kernel
  obtain ⟨w, hrun, hp⟩ := Lib.exists_runs hcheck
  exact ⟨w, hrun, error_of_stops hp⟩

end HttpdProxy
