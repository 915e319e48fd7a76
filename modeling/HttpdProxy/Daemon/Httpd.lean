import HttpdProxy.Daemon.ConnectionsManager

/-!
# `httpd.c`: the daemon

The daemon is a loop around `selector_select`. One step of it is one handler
call of a round: a descriptor reported readable or writable while its item
still asks for it, the sweep of the garbage collector, or time going by. Every
order of these a `select` can report is a run, and so are the orders only
several rounds could produce.
-/

namespace HttpdProxy

inductive Event where
  | readable (fd : Int) (env : Env)
  | writable (fd : Int) (env : Env)
  | garbageCollect
  | tick (seconds : Nat)

/-- `handle_read` of an item. -/
def handleRead (env : Env) (fd : Int) (item : Item) (w : World) : Except Fault World :=
  match item.handler, item.data with
  | .proxy, _ => .ok (acceptNewConnection env w)
  | .management, _ =>
      let (_, m, s) := managementRead env.datagram w.metrics w.management w.settings
      .ok { w with management := m, settings := s }
  | .client, .connection id =>
      onBehalfOf w id (proxyClientRead env ⟨fd, item.data⟩)
  | .origin, .connection id =>
      onBehalfOf w id (proxyOriginRead env ⟨fd, item.data⟩)
  | .client, _ | .origin, _ => .error .nullDeref
  | .logger, _ => .error .assertion

/-- `handle_write` of an item. The loggers' drain their outputs
(`Daemon/Logger.lean`) and touch nothing of the world. -/
def handleWrite (env : Env) (item : Item) (w : World) : Except Fault World :=
  match item.handler, item.data with
  | .proxy, _ | .management, _ => .error .assertion
  | .client, .connection id => onBehalfOf w id (proxyClientWrite env)
  | .origin, .connection id => onBehalfOf w id (proxyOriginWrite env)
  | .client, _ | .origin, _ => .error .nullDeref
  | .logger, _ => .ok w

/-- One handler call of a round. -/
def step (w : World) : Event → Except Fault World
  | .readable fd env =>
      match w.sel.fds fd with
      | some item => if item.interest.read then handleRead env fd item w else .ok w
      | none => .ok w
  | .writable fd env =>
      match w.sel.fds fd with
      | some item => if item.interest.write then handleWrite env item w else .ok w
      | none => .ok w
  | .garbageCollect =>
      if w.now - w.lastCollection ≥ collectionInterval then
        runGarbageCollector (List.range (w.sel.maxFd + 1))
          { w with lastCollection := w.now }
      else .ok w
  | .tick seconds => .ok { w with now := w.now + seconds }

/-- How the daemon was started: the items `main` registered before the first
round, and the descriptors it holds besides. None of the items is a
connection's. -/
structure Config where
  listeners : List (Int × FdHandler × Attachment)
  held : Int → Bool
  no_connection : ∀ l ∈ listeners, ∀ id, l.2.2 ≠ .connection id
  dohUtils : DohUtils
  disectorsEnabled : Bool

/-- The selector `main` leaves. -/
def Config.selector (cfg : Config) : Selector :=
  cfg.listeners.foldl
    (fun s l => (s.register l.1 l.2.1 (if l.2.1 = .logger then opNoop else opRead)
      l.2.2).2)
    selectorNew

/-- The world when the loop of `main` starts. -/
def initWorld (cfg : Config) : World where
  sel := cfg.selector
  opened := fun fd => cfg.held fd || (cfg.selector.fds fd).isSome
  socketAt := fun _ => 0
  sockets := 1
  heap := fun _ => .unused
  nextConn := 0
  metrics := initMetrics
  settings :=
    { disectorsEnabled := cfg.disectorsEnabled
      buffersSize := bufferSize.toUInt64
      selectorTimeout := 8 }
  management := initManagement
  dohUtils := cfg.dohUtils
  now := 0
  lastCollection := 0

end HttpdProxy
