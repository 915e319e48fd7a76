import HttpdProxy.Daemon.Connection
import HttpdProxy.Daemon.Management

/-!
# The daemon's memory, the kernel, and a handler at work

`World` is what persists between events: the selector, the descriptors the
kernel holds open, the heap of connections, the counters and settings.

A handler runs on behalf of one connection. `Ctx` is that connection taken out
of the heap together with the world around it; `Env` is everything the handler
is told from outside: what `read` and `send` return, which descriptor `socket`
hands out, whether `calloc` succeeds. The rest of this file is the calls that
reach beyond the connection: sockets, the selector, the close handlers.
-/

namespace HttpdProxy

/-- `doh_utils`: the configured DoH server, as `init_doh` leaves it. -/
structure DohUtils where
  host : Bytes
  path : Bytes
  isipv4 : Bool
  addr : Bytes
  port : UInt16
  deriving DecidableEq, Repr

/-- `init_doh`. -/
def initDoh (host ip path : Bytes) (port : UInt16) : DohUtils :=
  let base : DohUtils :=
    { host := host
      path := path
      isipv4 := false
      addr := List.replicate 16 0
      port := htons port }
  match inetPton4 ip with
  | some a => { base with isipv4 := true, addr := a }
  | none =>
      match inetPton6 ip with
      | some a => { base with addr := a }
      | none => base

/-- The address `handle_origin_doh_connection` connects to. -/
def DohUtils.sockaddr (d : DohUtils) : Sockaddr :=
  if d.isipv4 then .in4 ⟨d.port, d.addr⟩ else .in6 ⟨d.port, d.addr⟩

/-- A cell of the heap. What a freed connection last was is kept, to be
talked about; no handler reads it. -/
inductive Cell where
  | unused
  | live (c : Conn)
  | freed (c : Conn)

/-- `MAX_INACTIVE_TIME` and `DEFAULT_SELECTOR_TIMEOUT`. -/
def maxInactiveTime : Nat := 12
def collectionInterval : Nat := 8

/-- `socketAt` and `sockets` are not in the C code: they number the sockets in
the order in which the kernel opened them, and say which one was last opened
under a descriptor. No handler reads them. -/
structure World where
  sel : Selector
  opened : Int → Bool
  socketAt : Int → Nat
  sockets : Nat
  heap : Nat → Cell
  nextConn : Nat
  metrics : Metrics
  settings : Settings
  management : Management
  dohUtils : DohUtils
  now : Nat
  lastCollection : Nat

/-- What the outside answers during one event. A descriptor that is negative
or still open is no answer `socket` or `accept` can give, and counts as a
failure. -/
structure Env where
  /-- `read`: a failure, or the bytes that arrived; none of them is the end of
  the stream -/
  recv : Option Bytes
  /-- `send`: a failure, or how many bytes were taken -/
  send : Option Nat
  /-- whether `getsockopt` reports the connection established -/
  connected : Bool
  /-- the descriptor of each `establish_origin_connection` of the event -/
  socket : Nat → Option Int
  callocDoh : Bool
  callocAnswers : Bool
  accept : Option Int
  allocConnection : Bool
  malloc : Nat → UInt8
  datagram : Option Bytes
  fuel : Nat

structure SelectorKey where
  fd : Int
  data : Attachment
  deriving DecidableEq, Repr

structure Ctx where
  id : Nat
  conn : Conn
  freed : Bool
  opens : Nat
  world : World

namespace World

/-- A descriptor the kernel may hand out. -/
def fresh (w : World) (fd : Int) : Bool := 0 ≤ fd && !w.opened fd

def openFd (w : World) (fd : Int) : World :=
  { w with
    opened := fun f => if f = fd then true else w.opened f
    socketAt := fun f => if f = fd then w.sockets else w.socketAt f
    sockets := w.sockets + 1 }

/-- `close`. -/
def close (w : World) (fd : Int) : World :=
  { w with opened := fun f => if f = fd then false else w.opened f }

def setCell (w : World) (id : Nat) (cell : Cell) : World :=
  { w with heap := fun j => if j = id then cell else w.heap j }

def setMetrics (w : World) (f : Metrics → Metrics) : World :=
  { w with metrics := f w.metrics }

end World

namespace Ctx

def setConn (x : Ctx) (c : Conn) : Ctx := { x with conn := c }

def log (x : Ctx) (a : Act) : Ctx := x.setConn (x.conn.log a)

def setSel (x : Ctx) (s : Selector) : Ctx := { x with world := { x.world with sel := s } }

def setMetrics (x : Ctx) (f : Metrics → Metrics) : Ctx :=
  { x with world := x.world.setMetrics f }

def fail (x : Ctx) (e : Errors) : Ctx := x.setConn { x.conn with error := some e }

/-- `selector_set_interest` on behalf of the connection. -/
def setInterest (x : Ctx) (fd : Int) (i : Interest) : Ctx :=
  x.setSel (x.world.sel.setInterest fd i)

/-- An access to the connection through `ATTACHMENT(key)`. -/
def deref (x : Ctx) : Except Fault Conn :=
  if x.freed then .error .useAfterFree else .ok x.conn

end Ctx

/-- `proxy_client_close`: closes the client of the connection the item
carries, and frees that connection. -/
def proxyClientClose (key : SelectorKey) (x : Ctx) : Except Fault Ctx :=
  match key.data with
  | .connection id =>
      if id = x.id then
        if x.freed then .error .useAfterFree
        else .ok { x with freed := true, world := x.world.close x.conn.clientFd }
      else
        match x.world.heap id with
        | .live c =>
            .ok { x with world := (x.world.close c.clientFd).setCell id (.freed c) }
        | _ => .error .useAfterFree
  | _ => .error .nullDeref

/-- `proxy_origin_close`. -/
def proxyOriginClose (key : SelectorKey) (x : Ctx) : Ctx :=
  { x with world := x.world.close key.fd }

/-- `management_close`. -/
def managementClose (key : SelectorKey) (x : Ctx) : Ctx :=
  { x with world := x.world.close key.fd }

/-- The `handle_close` of a registered handler, where it has one. -/
def handleClose (h : FdHandler) (key : SelectorKey) (x : Ctx) : Except Fault Ctx :=
  match h with
  | .client => proxyClientClose key x
  | .origin => .ok (proxyOriginClose key x)
  | .management => .ok (managementClose key x)
  | .proxy | .logger => .ok x

/-- `selector_unregister_fd` on behalf of the connection. -/
def selectorUnregisterFd (x : Ctx) (fd : Int) : Except Fault (SelectorStatus × Ctx) :=
  if invalidFd fd then .ok (.iargs, x)
  else
    match x.world.sel.fds fd with
    | none => .ok (.iargs, x)
    | some item => do
        let x ← handleClose item.handler ⟨fd, item.data⟩ x
        .ok (.success, x.setSel (x.world.sel.clear fd))

/-- `establish_origin_connection`: the descriptor of the socket, or -1. -/
def establishOriginConnection (env : Env) (peer : Peer) (addr : Sockaddr) (x : Ctx) :
    Int × Ctx :=
  let next := { x with opens := x.opens + 1 }
  match env.socket x.opens with
  | none => (-1, next.log (.unopened peer addr))
  | some fd =>
      if x.world.fresh fd then
        (fd, { next with world := x.world.openFd fd }.log (.opened fd peer addr))
      else (-1, next.log (.unopened peer addr))

/-- `register_origin_socket`. -/
def registerOriginSocket (x : Ctx) : SelectorStatus × Ctx :=
  let x := x.setConn { x.conn with originStatus := .activeStatus }
  let (status, s) :=
    x.world.sel.register x.conn.originFd .origin opWrite (.connection x.id)
  (status, x.setSel s)

/-- The guarded unregistration of the origin that `close_proxy_connection` and
`done_on_arrival` have in common. -/
def unregisterOrigin (x : Ctx) : Except Fault Ctx :=
  if x.conn.originStatus ≠ .inactiveStatus then do
    let (_, x) ← selectorUnregisterFd x x.conn.originFd
    .ok x
  else .ok x

/-- `close_proxy_connection`. -/
def closeProxyConnection (x : Ctx) : Except Fault Ctx := do
  let x := if x.conn.stmState.num ≥ ConnState.sendRequestLine.num then
      x.setMetrics unregisterConnection
    else x
  let x ← unregisterOrigin x
  let c ← x.deref
  let (_, x) ← selectorUnregisterFd x c.clientFd
  .ok x

end HttpdProxy
