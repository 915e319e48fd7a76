import HttpdProxy.States.Relay

/-!
# `stm.c` and `connections_manager.c`

The engine of the state machines, and the read and write handlers of the two
sockets of a connection that feed it. A state without the handler an event
needs aborts the daemon.
-/

namespace HttpdProxy

/-! ## `stm.c`, over the table of `stm_initializer.c` -/

/-- The `on_arrival` column. -/
def onArrival (env : Env) (s : ConnState) (x : Ctx) : Except Fault Ctx :=
  match s with
  | .parsingRequestLine => .ok (parsingHostOnArrival x)
  | .tryConnectionIp => .ok (tryConnectionIpOnArrival x)
  | .sendDohRequest => sendDohRequestOnArrival x
  | .awaitDohResponse => .ok (awaitDohResponseOnArrival env x)
  | .sendRequestLine => sendRequestLineOnArrival x
  | .connected => .ok (connectedOnArrival x)
  | .closing => .ok (closingOnArrival x)
  | .emptyBuffers => .ok (emptyBuffersOnArrival x)
  | .done => doneOnArrival x
  | .error => errorOnArrival x

/-- The `on_read_ready` column. -/
def onReadReady (env : Env) (key : SelectorKey) (s : ConnState) (x : Ctx) :
    Except Fault (ConnState × Ctx) :=
  match s with
  | .parsingRequestLine => parsingHostOnReadReady env key x
  | .awaitDohResponse => awaitDohResponseOnReadReady env x
  | .connected => connectedOnReadReady key x
  | .closing => closingOnReadReady key x
  | _ => .error .abort

/-- The `on_write_ready` column. -/
def onWriteReady (env : Env) (s : ConnState) (x : Ctx) :
    Except Fault (ConnState × Ctx) :=
  match s with
  | .tryConnectionIp => tryConnectionIpOnWriteReady env x
  | .sendDohRequest => sendDohRequestOnWriteReady x
  | .sendRequestLine => sendRequestLineOnWriteReady x
  | .connected => connectedOnWriteReady x
  | .closing => closingOnWriteReady x
  | .emptyBuffers => emptyBuffersOnWriteReady x
  | .error => errorOnWriteReady x
  | _ => .error .abort

/-- The connection with `stm.current` stored. -/
def Conn.entered (c : Conn) (s : ConnState) : Conn :=
  { c.log (.enter s) with current := some s }

/-- Store the state and run its arrival. -/
def arriveAt (env : Env) (s : ConnState) (x : Ctx) : Except Fault Ctx :=
  onArrival env s (x.setConn (x.conn.entered s))

/-- `handle_first`. -/
def handleFirst (env : Env) (x : Ctx) : Except Fault Ctx :=
  if x.conn.current = none then arriveAt env .parsingRequestLine x else .ok x

/-- `jump`. -/
def jump (env : Env) (next : ConnState) (x : Ctx) : Except Fault Ctx := do
  let c ← x.deref
  if c.current ≠ some next then arriveAt env next x else .ok x

/-- `stm_handler_read`. -/
def stmHandlerRead (env : Env) (key : SelectorKey) (x : Ctx) : Except Fault Ctx := do
  let x ← handleFirst env x
  let (ret, x) ← onReadReady env key x.conn.stmState x
  jump env ret x

/-- `stm_handler_write`. -/
def stmHandlerWrite (env : Env) (x : Ctx) : Except Fault Ctx := do
  let x ← handleFirst env x
  let (ret, x) ← onWriteReady env x.conn.stmState x
  jump env ret x

/-! ## The handlers of the two sockets -/

/-- `read` into the room of a buffer. -/
def readInto (env : Env) (b : Buffer) : Option Bytes := env.recv.map (·.take b.room)

/-- `send` of the unread bytes of a buffer. -/
def sendFrom (env : Env) (b : Buffer) : Option Nat := env.send.map (min · b.unread.length)

namespace Conn

/-- `last_action_time = time(NULL)`. -/
def touched (c : Conn) (now : Nat) : Conn := { c with lastActionTime := now }

/-- The reads of these two states set `bytes_to_analize`. -/
def analyzes (c : Conn) : Bool :=
  c.stmState == .parsingRequestLine || c.stmState == .connected

/-- Bytes were read from the client; `buffer` is the client buffer with them
in it. -/
def fromClient (c : Conn) (bs : Bytes) (buffer : Buffer) : Conn :=
  { c.log (.received .client bs) with
    bytesToAnalize := if c.analyzes then bs.length else c.bytesToAnalize
    clientBuffer := buffer }

/-- Bytes were read from the origin. -/
def fromOrigin (c : Conn) (bs : Bytes) (buffer : Buffer) : Conn :=
  { c.log (.received .origin bs) with
    bytesToAnalize := if c.analyzes then bs.length else c.bytesToAnalize
    originBuffer := buffer }

/-- The client's stream ended. -/
def endOfClient (c : Conn) : Conn :=
  { c.log (.eof .client) with clientStatus := .closingStatus }

/-- The origin's stream ended. -/
def endOfOrigin (c : Conn) : Conn :=
  { c.log (.eof .origin) with originStatus := .closingStatus }

/-- Bytes of the origin buffer were sent to the client. -/
def toClient (c : Conn) (bs : Bytes) (buffer : Buffer) : Conn :=
  { c.log (.sent .client bs) with originBuffer := buffer }

/-- Bytes of the origin buffer, a request, were sent to the origin. -/
def requestToOrigin (c : Conn) (bs : Bytes) (buffer : Buffer) : Conn :=
  { c.log (.sent .origin bs) with originBuffer := buffer }

/-- Bytes of the client buffer were sent to the origin. -/
def toOrigin (c : Conn) (bs : Bytes) (buffer : Buffer) : Conn :=
  { c.log (.sent .origin bs) with clientBuffer := buffer }

end Conn

def Ctx.touch (x : Ctx) : Ctx := x.setConn (x.conn.touched x.world.now)

/-- `proxy_client_read`. -/
def proxyClientRead (env : Env) (key : SelectorKey) (x : Ctx) : Except Fault Ctx :=
  let x := x.touch
  match readInto env x.conn.clientBuffer with
  | none => closeProxyConnection x
  | some [] =>
      if x.conn.stmState.num < ConnState.connected.num then
        closeProxyConnection (x.log (.eof .client))
      else stmHandlerRead env key (x.setConn x.conn.endOfClient)
  | some bs => do
      let buffer ← bufferAppend x.conn.clientBuffer bs
      stmHandlerRead env key (x.setConn (x.conn.fromClient bs buffer))

/-- `proxy_client_write`. -/
def proxyClientWrite (env : Env) (x : Ctx) : Except Fault Ctx :=
  let x := x.touch
  match sendFrom env x.conn.originBuffer with
  | none | some 0 => closeProxyConnection x
  | some n => do
      let bs := x.conn.originBuffer.unread.take n
      let buffer ← bufferReadAdv x.conn.originBuffer n
      stmHandlerWrite env
        ((x.setMetrics (increaseBytesReceived n)).setConn (x.conn.toClient bs buffer))

/-- `proxy_origin_read`. -/
def proxyOriginRead (env : Env) (key : SelectorKey) (x : Ctx) : Except Fault Ctx :=
  let x := x.touch
  match readInto env x.conn.originBuffer with
  | none => closeProxyConnection x
  | some [] => stmHandlerRead env key (x.setConn x.conn.endOfOrigin)
  | some bs => do
      let buffer ← bufferAppend x.conn.originBuffer bs
      stmHandlerRead env key (x.setConn (x.conn.fromOrigin bs buffer))

/-- `proxy_origin_write`: what is sent comes from the origin buffer while a
request is on its way, and from the client buffer once the two sides are
relayed. -/
def proxyOriginWrite (env : Env) (x : Ctx) : Except Fault Ctx :=
  let x := x.touch
  let state := x.conn.stmState
  if state = .tryConnectionIp then stmHandlerWrite env x
  else if state = .sendRequestLine ∨ state = .sendDohRequest then
    match sendFrom env x.conn.originBuffer with
    | none | some 0 => closeProxyConnection x
    | some n => do
        let bs := x.conn.originBuffer.unread.take n
        let buffer ← bufferReadAdv x.conn.originBuffer n
        stmHandlerWrite env
          ((x.setMetrics (increaseBytesSent n)).setConn (x.conn.requestToOrigin bs buffer))
  else
    match sendFrom env x.conn.clientBuffer with
    | none | some 0 => closeProxyConnection x
    | some n => do
        let bs := x.conn.clientBuffer.unread.take n
        let buffer ← bufferReadAdv x.conn.clientBuffer n
        stmHandlerWrite env
          ((x.setMetrics (increaseBytesSent n)).setConn (x.conn.toOrigin bs buffer))

/-! ## Connections in the heap -/

/-- Put the connection back where it was taken from. -/
def Ctx.finish (x : Ctx) : World :=
  x.world.setCell x.id (if x.freed then .freed x.conn else .live x.conn)

/-- Run a handler on behalf of the connection an item carries. -/
def onBehalfOf (w : World) (id : Nat) (f : Ctx → Except Fault Ctx) :
    Except Fault World :=
  match w.heap id with
  | .live c => do
      let x ← f { id := id, conn := c, freed := false, opens := 0, world := w }
      .ok x.finish
  | _ => .error .useAfterFree

/-- `accept_new_connection`. -/
def acceptNewConnection (env : Env) (w : World) : World :=
  match env.accept with
  | none => w
  | some fd =>
      if w.fresh fd && env.allocConnection then
        let c := createNewConnection fd w.settings.buffersSize w.now env.malloc
        match w.sel.register fd .client opRead (.connection w.nextConn) with
        | (.success, s) =>
            { ((w.openFd fd).setCell w.nextConn (.live c)) with
              sel := s
              nextConn := w.nextConn + 1 }
        -- the socket is closed again and the connection freed
        | _ => w
      else w

/-- `connection_garbage_collect`, once the item is known to be a
connection's. -/
def connectionGarbageCollect (fd : Int) (x : Ctx) : Except Fault Ctx :=
  if x.conn.clientFd = fd ∧ x.world.now - x.conn.lastActionTime ≥ maxInactiveTime then
    closeProxyConnection
      (if x.conn.stmState.num ≥ ConnState.sendRequestLine.num then
        x.setMetrics unregisterConnection
      else x)
  else .ok x

/-- One item of `run_garbage_collector`. -/
def collect (fd : Int) (w : World) : Except Fault World :=
  match w.sel.fds fd with
  | some ⟨_, _, .connection id⟩ =>
      -- `STDERR_FILENO` and `STDOUT_FILENO`
      if fd = 2 ∨ fd = 1 then .ok w
      else onBehalfOf w id (connectionGarbageCollect fd)
  | _ => .ok w

/-- The scan of `run_garbage_collector`. -/
def runGarbageCollector : List Nat → World → Except Fault World
  | [], w => .ok w
  | i :: is, w => do
      let w ← collect (i : Int) w
      runGarbageCollector is w

end HttpdProxy
