import HttpdProxy.Daemon.Httpd

/-!
# `handle_iteration`: one round of the selector

`select` reports readiness once; the round then goes through the table in the
order of the numbers, and calls a handler wherever the number was reported and
the item there asks for what was reported. `calls` is not in the C code: the
handler calls the round made.
-/

namespace HttpdProxy

/-- `slave_r` and `slave_w`, as `pselect` left them. -/
structure Reported where
  read : Int → Bool
  write : Int → Bool

inductive Readiness where
  | read
  | write
  deriving DecidableEq, Repr

def Reported.of (rep : Reported) : Readiness → Int → Bool
  | .read => rep.read
  | .write => rep.write

/-- A call of `handle_read` or `handle_write`. -/
structure Call where
  fd : Int
  kind : Readiness
  /-- the socket under the number when the handler is called -/
  socket : Nat
  /-- whether this is `try_connection_ip_on_write_ready` finding no error on
  its socket -/
  established : Bool
  deriving DecidableEq, Repr

structure Progress where
  result : Except Fault World
  calls : List Call

/-- The round before the first item is looked at. -/
def Progress.start (w : World) : Progress where
  result := .ok w
  calls := []

/-- A handler is called in the world `w`, and returns `result`. -/
def Progress.call (p : Progress) (w : World) (fd : Int) (kind : Readiness)
    (established : Bool) (result : Except Fault World) : Progress where
  result := result
  calls := p.calls ++ [⟨fd, kind, w.socketAt fd, established⟩]

/-- `check_origin_connection` finds the socket of this item connected. -/
def findsConnected (env : Env) (w : World) (fd : Int) (item : Item) : Bool :=
  match item.handler, item.data with
  | .origin, .connection id =>
      match w.heap id with
      | .live c => c.stmState == .tryConnectionIp && c.originFd == fd && env.connected
      | _ => false
  | _, _ => false

/-- The first half of a turn. -/
def turnRead (rep : Reported) (env : Env) (fd : Int) (item : Item) (w : World)
    (p : Progress) : Progress :=
  if rep.read fd && item.interest.read then
    p.call w fd .read false (handleRead env fd item w)
  else p

/-- The second half, with the data the turn began with. -/
def turnWrite (rep : Reported) (env : Env) (fd : Int) (data : Attachment) (w : World)
    (p : Progress) : Progress :=
  match w.sel.fds fd with
  | none => p
  | some item =>
      if rep.write fd && item.interest.write then
        p.call w fd .write (findsConnected env w fd { item with data := data })
          (handleWrite env { item with data := data } w)
      else p

/-- One item of the round. -/
def turn (rep : Reported) (env : Env × Env) (fd : Int) (p : Progress) : Progress :=
  match p.result with
  | .error _ => p
  | .ok w =>
      match w.sel.fds fd with
      | none => p
      | some item =>
          let p := turnRead rep env.1 fd item w p
          match p.result with
          | .error _ => p
          | .ok w => turnWrite rep env.2 fd item.data w p

/-- The loop of `handle_iteration`; `envs` is what the outside answers during
each turn. -/
def iterate (rep : Reported) (envs : Nat → Env × Env) : List Nat → Progress → Progress
  | [], p => p
  | i :: is, p => iterate rep envs is (turn rep (envs i) (i : Int) p)

/-- `handle_iteration`. -/
def handleIteration (rep : Reported) (envs : Nat → Env × Env) (w : World) : Progress :=
  iterate rep envs (List.range (w.sel.maxFd + 1)) (.start w)

end HttpdProxy
