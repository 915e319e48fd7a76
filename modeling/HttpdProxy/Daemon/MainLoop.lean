import HttpdProxy.Daemon.FdSelector
import HttpdProxy.Daemon.Iteration

/-!
# The loop of `main`

`main` calls `selector_select` until a signal has set `finished` or a call
fails, and then takes the selector down. A `Round` is what the outside does
during one call. The clock goes on while `pselect` waits and once more before
the garbage collector is due; it stands still between the handlers of a round.
-/

namespace HttpdProxy

/-- `MAX_CONNECTIONS`. -/
def maxConnections : Nat := 1024

/-- How `pselect` comes back: with descriptors that are ready, with `EINTR` or
`EAGAIN`, or with any other error. -/
inductive Pselect where
  | ready (rep : Reported)
  | interrupted
  | failed

structure Round where
  answer : Pselect
  envs : Nat → Env × Env
  /-- seconds in `pselect`, and in what follows it -/
  waited : Nat
  worked : Nat

/-- `master_r` and `master_w`. -/
def World.master (w : World) : Reported where
  read := fun fd => (w.sel.fds fd).any (·.interest.read)
  write := fun fd => (w.sel.fds fd).any (·.interest.write)

/-- `pselect` only takes descriptors out of the sets it is given. -/
def Reported.within (rep master : Reported) : Reported where
  read := fun fd => master.read fd && rep.read fd
  write := fun fd => master.write fd && rep.write fd

def World.later (w : World) (seconds : Nat) : World := { w with now := w.now + seconds }

/-- The garbage collector, if its time has come. -/
def collectIfDue (w : World) : Except Fault World :=
  if w.now - w.lastCollection ≥ collectionInterval then
    runGarbageCollector (List.range (w.sel.maxFd + 1)) { w with lastCollection := w.now }
  else .ok w

/-- `selector_select`; no thread has left a notification. -/
def selectorSelect (r : Round) (w : World) : Except Fault (SelectorCode × World) :=
  let slave := w.master
  let w := w.later r.waited
  match r.answer with
  | .failed => .ok (.io, w)
  | .interrupted => do
      let w ← collectIfDue (w.later r.worked)
      .ok (.success, w)
  | .ready rep => do
      let w ← (handleIteration (rep.within slave) r.envs w).result
      let w ← collectIfDue (w.later r.worked)
      .ok (.success, w)

/-- The loop of `main`, and the value it will return: the rounds end when a
signal comes. -/
def mainLoop : List Round → World → Except Fault (Nat × World)
  | [], w => .ok (0, w)
  | r :: rs, w => do
      let (status, w) ← selectorSelect r w
      if status ≠ .success then .ok (1, w) else mainLoop rs w

/-- `proxy_client_close`, `proxy_origin_close` and `management_close`, called
by the selector. -/
def closeItem (fd : Int) (item : Item) (w : World) : Except Fault World :=
  match item.handler, item.data with
  | .client, .connection id =>
      match w.heap id with
      | .live c => .ok ((w.close c.clientFd).setCell id (.freed c))
      | _ => .error .useAfterFree
  | .client, _ => .error .nullDeref
  | .origin, _ | .management, _ => .ok (w.close fd)
  | .proxy, _ | .logger, _ => .ok w

/-- The loop of `selector_destroy` over the items. -/
def selectorDestroy : List Nat → World → Except Fault World
  | [], w => .ok w
  | i :: is, w =>
      match w.sel.fds i with
      | none => selectorDestroy is w
      | some item => do
          let w ← closeItem i item w
          selectorDestroy is { w with sel := w.sel.clear i }

/-- The two passive sockets in `httpd_t`, or -1. -/
structure Httpd where
  proxyFd4 : Int
  proxyFd6 : Int

/-- The last lines of `main`: the second `close` is of `proxy_fd_6` as well. -/
def closeListeners (httpd : Httpd) (w : World) : World :=
  let w := if httpd.proxyFd6 ≥ 0 then w.close httpd.proxyFd6 else w
  if httpd.proxyFd4 ≥ 0 then w.close httpd.proxyFd6 else w

/-- `main`, from the loop on: what it returns, and what it leaves. The buffers
of the logger, which `destroy_logger` frees, are not part of the world. -/
def runDaemon (httpd : Httpd) (rs : List Round) (w : World) : Except Fault (Nat × World) := do
  let (code, w) ← mainLoop rs w
  let w ← selectorDestroy (List.range (nextCapacity maxConnections)) w
  .ok (code, closeListeners httpd w)

end HttpdProxy
