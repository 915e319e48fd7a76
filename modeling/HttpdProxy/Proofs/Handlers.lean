import Mathlib.Logic.Relation
import HttpdProxy.Proofs.Ownership

/-!
# The handlers make no other moves

For every handler: what it does to the record is a chain of moves, and it
leaves the selector as the next phase needs it. `Handling` is what a handler
may assume, `Landed` what it owes `jump`, and `Settled` what an event ends in.
-/

namespace HttpdProxy

/-- The states whose origin has an item. -/
def ConnState.hasOrigin : ConnState → Bool
  | .parsingRequestLine | .done | .error => false
  | _ => true

/-- The states whose interests follow the buffers. -/
def ConnState.relays : ConnState → Bool
  | .connected | .closing | .emptyBuffers => true
  | _ => false

abbrev Steps (d : DohUtils) : Mid → Mid → Prop := Relation.ReflTransGen (Move d)

def Ctx.mid (x : Ctx) (ph : Phase) : Mid := ⟨ph, x.conn, x.world.metrics⟩

/-! ## The course of an event

A handler's moves, with the contexts they lead through: what the kernel
answered, and what became of the origin's item. -/

/-- The sockets that were asked for. -/
def attempts : List Act → Nat
  | [] => 0
  | .opened _ _ _ :: t | .unopened _ _ :: t => attempts t + 1
  | _ :: t => attempts t

/-- What the kernel answers the next call of `establish_origin_connection`. -/
def Ctx.grant (env : Env) (x : Ctx) : Option Int := (env.socket x.opens).filter x.world.fresh

/-- The record names no origin, or one whose item it owns. -/
def Ctx.Kept (x : Ctx) : Prop :=
  x.conn.originStatus = .inactiveStatus ∨
    ∃ it, x.world.sel.fds x.conn.originFd = some it ∧ it.data = .connection x.id

/-- The phases in which a socket may still be asked for. -/
def Phase.within : Phase → Bool
  | .reading _ | .writing | .walking | .asking => true
  | _ => false

/-- The phases after `try_next_dns_connection` has given the origin back. -/
def Phase.released : Phase → Bool
  | .walking | .asking => true
  | _ => false

/-- The descriptor that was asked for is the record's, and the selector
refused it if the connection goes to ERROR. -/
def Answered (env : Env) (x : Ctx) (ph : Phase) (c : Conn) : Prop :=
  c.originFd = (x.grant env).getD (-1) ∧
    (ph = .goto .error → ∀ fd, x.grant env = some fd → invalidFd fd = true)

/-- The query for the second type was answered with an error. -/
def Conn.Doomed (c : Conn) : Prop :=
  ∃ doh, c.dohConnection = some doh ∧ doh.currentType = .ipv6Try ∧
    doh.dohParser.response.header.flags.rcode ≠ 0

/-- Where the item of the origin may be lost on the way to ERROR: it was
given back, the selector refuses the new one, or none is asked for. -/
def Forsaken (env : Env) (ph : Phase) (x : Ctx) : Prop :=
  ph.released = true ∨ (∃ fd, env.socket x.opens = some fd ∧ invalidFd fd = true) ∨
    (x.conn.Doomed ∧ (ph = .writing ∧ env.connected = false ∨
      x.conn.current = some .awaitDohResponse ∧ x.conn.originStatus = .closingStatus))

/-- A move inside an event. -/
structure Advance (d : DohUtils) (env : Env) (a b : Phase × Ctx) : Prop where
  inside : a.1 ≠ .rest
  move : Move d (a.2.mid a.1) (b.2.mid b.1)
  asked : b.1.within = true →
    b.2.opens + attempts a.2.conn.trace = a.2.opens + attempts b.2.conn.trace
  answered : attempts b.2.conn.trace ≠ attempts a.2.conn.trace →
    Answered env a.2 b.1 b.2.conn
  opened : b.1.within = true → b.2.world.opened =
    if b.1.released && !a.1.released then (a.2.world.close a.2.conn.originFd).opened
    else a.2.world.opened
  unconnected : b.1.released = true → a.1 = .writing → env.connected = false
  kept : a.2.Kept → b.1 = .rest ∨ b.1 = .goto .error → b.2.Kept ∨ Forsaken env a.1 a.2

abbrev Course (d : DohUtils) (env : Env) : Phase × Ctx → Phase × Ctx → Prop :=
  Relation.ReflTransGen (Advance d env)

theorem Course.steps {d : DohUtils} {env : Env} {a b : Phase × Ctx} (h : Course d env a b) :
    Steps d (a.2.mid a.1) (b.2.mid b.1) :=
  h.lift (fun a => a.2.mid a.1) fun _ _ h => h.move

section

variable {d : DohUtils} {env : Env} {x₀ x y : Ctx} {ph ph' : Phase} {ci : Interest}
  {oi : Option Interest}

theorem View.kept {i : Interest} (h : View x₀ x ci (some i)) : x.Kept :=
  .inr ⟨_, (h.origin i rfl).1, rfl⟩

/-- Without an item the record can only keep to its origin by naming none. -/
theorem View.inactive (h : View x₀ x ci none) (hk : x.Kept) :
    x.conn.originStatus = .inactiveStatus := by
  rcases hk with hk | ⟨it, hit, _⟩
  · exact hk
  · refine (h.stale rfl).resolve_right fun hn => ?_
    rw [hn] at hit
    cases hit

theorem Phase.within_of_released (h : ph.released = true) : ph.within = true := by
  cases ph <;> first | rfl | cases h

/-- A move after which no socket is asked for. -/
theorem Advance.outward (hp : ph ≠ .rest) (hm : Move d (x.mid ph) (y.mid ph'))
    (ha : attempts y.conn.trace = attempts x.conn.trace) (hw : ph'.within = false)
    (hk : x.Kept → ph' = .rest ∨ ph' = .goto .error → y.Kept) :
    Advance d env (ph, x) (ph', y) where
  inside := hp
  move := hm
  asked hw' := absurd (hw.symm.trans hw') (by simp)
  answered hne := absurd ha hne
  opened hw' := absurd (hw.symm.trans hw') (by simp)
  unconnected hr := absurd (hw.symm.trans (Phase.within_of_released hr)) (by simp)
  kept hx he := .inl (hk hx he)

/-- A move to a state that is not ERROR. -/
theorem Advance.relay {s : ConnState} (hp : ph ≠ .rest)
    (hm : Move d (x.mid ph) (y.mid (.goto s)))
    (ha : attempts y.conn.trace = attempts x.conn.trace) (hs : s ≠ .error) :
    Advance d env (ph, x) (.goto s, y) := by
  refine .outward hp hm ha rfl fun _ he => ?_
  rcases he with he | he
  · cases he
  · exact absurd (Phase.goto.inj he) hs

/-- A move that changes the record and the counters only. -/
theorem Advance.record {c : Conn} {f : Metrics → Metrics} (hp : ph ≠ .rest)
    (hm : Move d (x.mid ph) (((x.setMetrics f).setConn c).mid ph'))
    (ha : attempts c.trace = attempts x.conn.trace)
    (hr : ph'.released = true → ph.released = true) (hfd : c.originFd = x.conn.originFd)
    (hst : x.conn.originStatus = .inactiveStatus → c.originStatus = .inactiveStatus) :
    Advance d env (ph, x) (ph', (x.setMetrics f).setConn c) where
  inside := hp
  move := hm
  asked _ := by
    change x.opens + _ = _ + attempts c.trace
    rw [ha]
  answered hne := absurd ha hne
  opened _ := by
    have hflag : (ph'.released && !ph.released) = false := by
      cases hp' : ph'.released with
      | false => rfl
      | true =>
          rw [hr hp']
          rfl
    rw [hflag]
    rfl
  unconnected hp' hw := by
    have hw : ph = .writing := hw
    have hreleased := hr hp'
    rw [hw] at hreleased
    cases hreleased
  kept hk _ := by
    refine .inl (hk.imp hst fun ⟨it, hit, hd⟩ => ⟨it, ?_, hd⟩)
    change x.world.sel.fds c.originFd = _
    rw [hfd]
    exact hit

end

/-- While a handler of the current state runs. Where the interests follow the
buffers they are about to be set anew; elsewhere they are what they were. -/
structure Handling (x₀ : Ctx) (x : Ctx) (ci : Interest) (oi : Option Interest) :
    Prop where
  view : View x₀ x ci oi
  needed : x.conn.stmState.hasOrigin = true → oi.isSome
  bare : x.conn.stmState = .parsingRequestLine → oi = none
  fixed : x.conn.stmState.relays = false →
    ci = x.conn.interests.1 ∧ ∀ i, oi = some i → i = x.conn.interests.2

/-- Between events: the items ask for what the state waits for. -/
structure Resting (x₀ : Ctx) (x : Ctx) (oi : Option Interest) : Prop where
  view : View x₀ x x.conn.interests.1 oi
  needed : x.conn.stmState.hasOrigin = true → oi.isSome
  bare : x.conn.stmState = .parsingRequestLine → oi = none
  waits : ∀ i, oi = some i → i = x.conn.interests.2

/-- The same where another connection may have the number that was given
back. -/
structure Rested (x₀ : Ctx) (x : Ctx) (oi : Option Interest) : Prop where
  standing : Standing x₀ x x.conn.interests.1 oi
  needed : x.conn.stmState.hasOrigin = true → oi.isSome
  bare : x.conn.stmState = .parsingRequestLine → oi = none
  waits : ∀ i, oi = some i → i = x.conn.interests.2
  others : oi = none → x.conn.originStatus = .inactiveStatus ∨
    ∀ it, x.world.sel.fds x.conn.originFd = some it → ∃ j, j ≠ x.id ∧ it.data = .connection j

/-- What a handler that returned `next` owes the jump. -/
structure Landed (x₀ : Ctx) (x : Ctx) (next : ConnState) : Prop where
  stay : x.conn.current = some next → ∃ oi, Resting x₀ x oi
  leave : x.conn.current ≠ some next →
    ∃ ci oi, View x₀ x ci oi ∧ (next.hasOrigin = true → oi.isSome)

/-- What an event ends in. -/
def Settled (x₀ : Ctx) (x : Ctx) (ph : Phase) : Prop :=
  (ph = .rest ∧ ∃ oi, Rested x₀ x oi) ∨ (ph = .gone ∧ Gone x₀ x)

section

variable {x₀ : Ctx} {x x' : Ctx} {ci : Interest} {oi : Option Interest} {env : Env}
  {next : ConnState}

theorem Resting.rested (h : Resting x₀ x oi) : Rested x₀ x oi where
  standing := h.view.toStanding
  needed := h.needed
  bare := h.bare
  waits := h.waits
  others hi := (h.view.stale hi).imp_right fun hn it hit => by
    rw [hn] at hit
    cases hit

theorem Rested.resting (h : Rested x₀ x oi)
    (hown : x.conn.originStatus ≠ .inactiveStatus →
      ∀ it, x.world.sel.fds x.conn.originFd = some it → it.data = .connection x.id) :
    Resting x₀ x oi where
  view :=
    { toStanding := h.standing
      stale := fun hi => by
        rcases Decidable.em (x.conn.originStatus = .inactiveStatus) with hin | hact
        · exact .inl hin
        · right
          cases hit : x.world.sel.fds x.conn.originFd with
          | none => rfl
          | some it =>
              obtain ⟨j, hj, hd⟩ := (h.others hi).resolve_left hact it hit
              rw [hown hact it hit] at hd
              cases hd
              exact absurd rfl hj }
  needed := h.needed
  bare := h.bare
  waits := h.waits

/-- Nothing was given back where the origin has an item. -/
theorem Rested.resting_some {i : Interest} (h : Rested x₀ x (some i)) :
    Resting x₀ x (some i) where
  view :=
    { toStanding := h.standing
      stale := fun hi => by cases hi }
  needed := h.needed
  bare := h.bare
  waits := h.waits

theorem Resting.handling (h : Resting x₀ x oi) : Handling x₀ x x.conn.interests.1 oi where
  view := h.view
  needed := h.needed
  bare := h.bare
  fixed _ := ⟨rfl, h.waits⟩

theorem interests_congr {c c' : Conn} (h : c'.stmState = c.stmState)
    (hr : c.stmState.relays = false) : c'.interests = c.interests := by
  unfold Conn.interests
  rw [h]
  cases hc : c.stmState <;> rw [hc] at hr <;> first | rfl | cases hr

/-- A handler may change the record as long as the state, the descriptors and
whether the origin is active stay. -/
theorem Handling.setConn {c : Conn} (h : Handling x₀ x ci oi)
    (hst : c.stmState = x.conn.stmState) (hc : c.clientFd = x.conn.clientFd)
    (ho : c.originFd = x.conn.originFd)
    (hs : c.originStatus = .inactiveStatus ↔ x.conn.originStatus = .inactiveStatus) :
    Handling x₀ (x.setConn c) ci oi := by
  refine ⟨h.view.setConn hc ho hs, ?_, ?_, ?_⟩
  · rw [Ctx.setConn_conn, hst]
    exact h.needed
  · rw [Ctx.setConn_conn, hst]
    exact h.bare
  · rw [Ctx.setConn_conn, hst]
    intro hr
    rw [interests_congr hst hr]
    exact h.fixed hr

theorem Handling.setMetrics {f : Metrics → Metrics} (h : Handling x₀ x ci oi) :
    Handling x₀ (x.setMetrics f) ci oi :=
  ⟨h.view.setMetrics, h.needed, h.bare, h.fixed⟩

/-- A state whose interests are fixed is at rest as it is. -/
theorem Handling.resting (h : Handling x₀ x ci oi) (hr : x.conn.stmState.relays = false) :
    Resting x₀ x oi := by
  obtain ⟨hci, hoi⟩ := h.fixed hr
  exact ⟨hci ▸ h.view, h.needed, h.bare, hoi⟩

/-! ## Sockets -/

/-- The next socket asked for is the one the kernel grants. -/
theorem openOrigin_grant (env : Env) (peer : Peer) (addr : Sockaddr) (x : Ctx) :
    (openOrigin env peer addr x).conn.originFd = (x.grant env).getD (-1) := by
  unfold openOrigin establishOriginConnection Ctx.grant
  dsimp only
  cases env.socket x.opens with
  | none => rfl
  | some fd =>
      rw [Option.filter_some]
      dsimp only
      split <;> rfl

theorem registerOrFail_opens (x : Ctx) : (registerOrFail x).2.opens = x.opens := by
  unfold registerOrFail
  dsimp only
  split <;> rfl

/-- What an attempt at a socket leaves in the selector. -/
def Tried (x₀ : Ctx) (x : Ctx) (ci : Interest) (next : ConnState) : Prop :=
  (next = .tryConnectionIp ∧ View x₀ x ci (some opWrite)) ∨
    (next = .error ∧ View x₀ x ci none)

/-- A socket that was opened is registered, or refused by the selector. -/
theorem registerOrFail_moves {peer : Peer} {addr : Sockaddr} {c : Conn} {fd : Int}
    (h : View x₀ x ci none) (hn : x.world.sel.fds x.conn.originFd = none)
    (ho : x.world.opened fd = true) (h0 : 0 ≤ fd)
    (hc : x.conn = { c.log (.opened fd peer addr) with originFd := fd })
    (hr : registerOrFail x = (next, x')) :
    Registration peer addr c next x'.conn ∧ x'.world.metrics = x.world.metrics ∧
      Tried x₀ x' ci next ∧ x'.opens = x.opens ∧ x'.conn.originFd = fd ∧
      (next = .error → invalidFd fd = true) := by
  have hfd : x.conn.originFd = fd := by rw [hc]
  have hopens := registerOrFail_opens x
  rw [hr] at hopens
  obtain ⟨st, x1, hreg, hc1, hm1, hcase⟩ := h.registerOriginSocket_cases hn (hfd ▸ ho)
  unfold registerOrFail at hr
  rw [hreg] at hr
  rcases hcase with ⟨rfl, hv⟩ | ⟨hst, hv, _, hinv⟩
  · simp only [ne_eq, not_true_eq_false, if_false] at hr
    cases hr
    refine ⟨?_, hm1, .inl ⟨rfl, hv⟩, hopens, by rw [hc1, hc], (by intro hn; cases hn)⟩
    rw [hc1, hc]
    exact .accepted fd h0
  · simp only [hst, ne_eq, not_false_eq_true, if_true] at hr
    cases hr
    refine ⟨?_, hm1, .inr ⟨rfl, hv.setConn rfl rfl Iff.rfl⟩, hopens, ?_, fun _ => hfd ▸ hinv⟩
    · rw [Ctx.fail_conn, hc1, hc]
      exact .rejected fd h0
    · rw [Ctx.fail_conn, hc1, hc]
      rfl

theorem Registration.current {peer : Peer} {addr : Sockaddr} {c c' : Conn}
    (h : Registration peer addr c next c') : c'.current = c.current := by
  cases h <;> rfl

theorem Attempt.current {peer : Peer} {addr : Sockaddr} {c c' : Conn}
    (h : Attempt peer addr c next c') : c'.current = c.current := by
  cases h with
  | refused => rfl
  | opened h => exact h.current

theorem Registration.attempts {peer : Peer} {addr : Sockaddr} {c c' : Conn}
    (h : Registration peer addr c next c') :
    attempts c'.trace = attempts c.trace + 1 := by
  cases h <;> rfl

theorem Attempt.attempts {peer : Peer} {addr : Sockaddr} {c c' : Conn}
    (h : Attempt peer addr c next c') : attempts c'.trace = attempts c.trace + 1 := by
  cases h with
  | refused => rfl
  | opened h => exact h.attempts

/-- An attempt that was made in `x`. -/
structure Asked (env : Env) (x : Ctx) (next : ConnState) (x' : Ctx) : Prop where
  opens : x'.opens = x.opens + 1
  answered : Answered env x (.goto next) x'.conn
  kept : next = .error → x'.conn.originStatus = x.conn.originStatus ∨
    ∃ fd, env.socket x.opens = some fd ∧ invalidFd fd = true

/-- A socket that was opened was granted. -/
theorem grant_of_opened {peer : Peer} {addr : Sockaddr} {x1 : Ctx} {c : Conn} {fd : Int}
    (h0 : 0 ≤ fd) (hopen : openOrigin env peer addr x = x1)
    (hc : x1.conn = { c with originFd := fd }) : x.grant env = some fd := by
  have hg := openOrigin_grant env peer addr x
  rw [hopen, show x1.conn.originFd = fd by rw [hc]] at hg
  cases hgr : x.grant env with
  | none =>
      rw [hgr, Option.getD_none] at hg
      omega
  | some f =>
      rw [hgr, Option.getD_some] at hg
      rw [hg]

theorem socket_of_grant {fd : Int} (h : x.grant env = some fd) :
    env.socket x.opens = some fd := by
  rw [Ctx.grant, Option.filter_eq_some_iff] at h
  exact h.1

/-- The attempt that got no socket. -/
theorem Asked.refused {peer : Peer} {addr : Sockaddr} {x1 : Ctx} {e : Errors}
    (hopen : openOrigin env peer addr x = x1) (ho : x1.opens = x.opens + 1)
    (hc : x1.conn = x.conn.unopened peer addr) : Asked env x .error (x1.fail e) where
  opens := ho
  answered := by
    have hg := openOrigin_grant env peer addr x
    rw [hopen] at hg
    refine ⟨hg, fun _ fd hfd => ?_⟩
    rw [hfd, hc] at hg
    have hf := (Option.filter_eq_some_iff.mp hfd).2
    simp only [World.fresh, Bool.and_eq_true, decide_eq_true_eq] at hf
    have hneg : (-1 : Int) = fd := hg
    omega
  kept _ := by
    rw [Ctx.fail_conn, hc]
    exact .inl rfl

/-- The attempt that got one. -/
theorem Asked.opened {peer : Peer} {addr : Sockaddr} {x1 : Ctx} {fd : Int}
    (hopen : openOrigin env peer addr x = x1) (ho : x1.opens = x.opens + 1) (h0 : 0 ≤ fd)
    (hc : x1.conn = { x.conn.log (.opened fd peer addr) with originFd := fd })
    (ho' : x'.opens = x1.opens) (hfd : x'.conn.originFd = fd)
    (hinv : next = .error → invalidFd fd = true) : Asked env x next x' where
  opens := ho'.trans ho
  answered := by
    have hg := grant_of_opened h0 hopen hc
    refine ⟨?_, fun he f hf => ?_⟩
    · rw [hg, Option.getD_some, hfd]
    · rw [hg] at hf
      cases hf
      exact hinv (Phase.goto.inj he)
  kept he := .inr ⟨fd, socket_of_grant (grant_of_opened h0 hopen hc), hinv he⟩

/-- Nothing the kernel answers by depends on the record. -/
theorem Asked.of_setConn {c : Conn} (h : Asked env (x.setConn c) next x')
    (hst : c.originStatus = x.conn.originStatus) : Asked env x next x' where
  opens := h.opens
  answered := h.answered
  kept he := (h.kept he).imp_left fun hs => hs.trans hst

/-- The move that made the attempt. -/
theorem Advance.attempt {d : DohUtils} {ph : Phase} (hp : ph ≠ .rest)
    (hm : Move d (x.mid ph) (x'.mid (.goto next)))
    (hask : Asked env x next x')
    (hk : ph.released = true ∨ (x.Kept → x.conn.originStatus = .inactiveStatus)) :
    Advance d env (ph, x) (.goto next, x') where
  inside := hp
  move := hm
  asked hw := nomatch hw
  answered _ := hask.answered
  opened hw := by cases hw
  unconnected hr := by cases hr
  kept hkept he := by
    have he : next = .error := by
      rcases he with he | he
      · cases he
      · exact Phase.goto.inj he
    rcases hk with hr | hin
    · exact .inr (.inl hr)
    · rcases hask.kept he with hs | hbad
      · exact .inl (.inl (hs.trans (hin hkept)))
      · exact .inr (.inr (.inl hbad))

/-- The move to the next answer, where one got no socket. -/
theorem Advance.walkRefused {d : DohUtils} {peer : Peer} {addr : Sockaddr} {c : Conn}
    {x1 : Ctx} (hm : Move d (x.mid .walking) (x1.mid .walking))
    (hopen : openOrigin env peer addr (x.setConn c) = x1) (ho : x1.opens = x.opens + 1)
    (hw : x1.world = x.world) (ha : attempts x1.conn.trace = attempts x.conn.trace + 1) :
    Advance d env (.walking, x) (.walking, x1) where
  inside := by simp
  move := hm
  asked _ := by
    change x1.opens + attempts x.conn.trace = x.opens + attempts x1.conn.trace
    rw [ho, ha]
    omega
  answered _ := by
    have hg := openOrigin_grant env peer addr (x.setConn c)
    rw [hopen] at hg
    exact ⟨hg, fun he => nomatch he⟩
  opened _ := congrArg World.opened hw
  unconnected _ hp := nomatch hp
  kept _ hp := by rcases hp with hp | hp <;> cases hp

theorem handleOriginDohConnection_moves (h : View x₀ x ci none)
    (hr : handleOriginDohConnection env x = (next, x')) :
    Attempt .doh x₀.world.dohUtils.sockaddr x.conn next x'.conn ∧
      x'.world.metrics = x.world.metrics ∧ Tried x₀ x' ci next ∧ Asked env x next x' := by
  obtain ⟨x1, hopen, hv, hm, hn, ho1, hcase⟩ :=
    h.openOrigin_cases env .doh x.world.dohUtils.sockaddr
  unfold handleOriginDohConnection at hr
  simp only [hopen] at hr
  rw [h.frame.dohUtils] at hcase hopen
  rcases hcase with ⟨hc, _, _⟩ | ⟨fd, _, h0, ho, hc⟩
  · rw [if_pos (by rw [hc]; exact (by decide : (-1 : Int) < 0))] at hr
    cases hr
    refine ⟨?_, hm, .inr ⟨rfl, hv.setConn rfl rfl Iff.rfl⟩, .refused hopen ho1 hc⟩
    rw [Ctx.fail_conn, hc]
    exact .refused
  · have hfd : x1.conn.originFd = fd := by rw [hc]
    rw [if_neg (by rw [hfd]; omega)] at hr
    obtain ⟨ha, hm', ht, ho', hfd', hinv⟩ := registerOrFail_moves hv hn ho h0 hc hr
    exact ⟨.opened ha, hm'.trans hm, ht, .opened hopen ho1 h0 hc ho' hfd' hinv⟩

theorem handleOriginIpConnection_moves (h : View x₀ x ci none)
    (hr : handleOriginIpConnection env x = (next, x')) :
    Attempt .literal x.conn.requestParser.request.requestTarget.host.sockaddr x.conn next
        x'.conn ∧
      x'.world.metrics = x.world.metrics ∧ Tried x₀ x' ci next ∧ Asked env x next x' := by
  obtain ⟨x1, hopen, hv, hm, hn, ho1, hcase⟩ :=
    h.openOrigin_cases env .literal
      x.conn.requestParser.request.requestTarget.host.sockaddr
  unfold handleOriginIpConnection at hr
  simp only [hopen] at hr
  rcases hcase with ⟨hc, _, _⟩ | ⟨fd, _, h0, ho, hc⟩
  · rw [if_pos (by rw [hc]; rfl)] at hr
    cases hr
    refine ⟨?_, hm, .inr ⟨rfl, hv.setConn rfl rfl Iff.rfl⟩, .refused hopen ho1 hc⟩
    rw [Ctx.fail_conn, hc]
    exact .refused
  · have hfd : x1.conn.originFd = fd := by rw [hc]
    rw [if_neg (by rw [hfd]; omega)] at hr
    obtain ⟨ha, hm', ht, ho', hfd', hinv⟩ := registerOrFail_moves hv hn ho h0 hc hr
    exact ⟨.opened ha, hm'.trans hm, ht, .opened hopen ho1 h0 hc ho' hfd' hinv⟩

/-! ## PARSING_REQUEST_LINE -/

@[simp] theorem sniffData_current (key : SelectorKey) (c : Conn) :
    (sniffData key c).current = c.current := rfl

@[simp] theorem finishRequest_current (key : SelectorKey) (c : Conn) :
    (finishRequest key c).current = c.current := by
  unfold finishRequest
  dsimp only
  split
  · rfl
  · split <;> rfl

/-- Finishing a request leaves the sockets as they are. -/
theorem finishRequest_sockets (key : SelectorKey) (c : Conn) :
    (finishRequest key c).clientFd = c.clientFd ∧
      (finishRequest key c).originFd = c.originFd ∧
      (finishRequest key c).originStatus = c.originStatus := by
  unfold finishRequest
  dsimp only
  split
  · exact ⟨rfl, rfl, rfl⟩
  · split <;> exact ⟨rfl, rfl, rfl⟩

theorem finishRequest_attempts (key : SelectorKey) (c : Conn) :
    attempts (finishRequest key c).trace = attempts c.trace := by
  unfold finishRequest
  dsimp only
  split
  · rfl
  · split <;> rfl

/-- A failed attempt and a successful one both leave `jump` with what it
needs, the current state being another one. -/
theorem Tried.landed {c : Conn} (h : Tried x₀ x ci next)
    (hcur : x.conn.current = some c.stmState) (hne : c.stmState ≠ .error)
    (htry : c.stmState = .tryConnectionIp → ci = opNoop) : Landed x₀ x next := by
  have hst := Conn.stmState_of_current hcur
  rcases h with ⟨rfl, hv⟩ | ⟨rfl, hv⟩
  · refine ⟨fun hs => ?_, fun _ => ⟨ci, _, hv, fun _ => rfl⟩⟩
    have htr : x.conn.stmState = .tryConnectionIp := Conn.stmState_of_current hs
    have hi : x.conn.interests = (opNoop, opWrite) := Conn.interests_of_current hs
    refine ⟨some opWrite, ?_, fun _ => rfl, ?_, ?_⟩
    · rw [hi]
      rw [htry (hst ▸ htr)] at hv
      exact hv
    · rw [htr]
      intro hc
      cases hc
    · intro i hsome
      cases hsome
      rw [hi]
  · refine ⟨fun hs => ?_, fun _ => ⟨ci, _, hv, fun hc => by cases hc⟩⟩
    rw [hcur] at hs
    exact absurd (Option.some.inj hs) hne

theorem requestDone_moves {key : SelectorKey} {c : Conn} (h : View x₀ x ci none)
    (hr : requestDone env key x = (next, x')) (hc : x.conn = c) :
    ∃ c', Attempt (c.firstPeer x₀.world.dohUtils).1 (c.firstPeer x₀.world.dohUtils).2 c next c' ∧
      x'.conn = (if next ≠ .error then finishRequest key c' else c') ∧
      x'.world.metrics = x.world.metrics ∧ Tried x₀ x' ci next ∧ Asked env x next x' := by
  subst hc
  have key_fact : ∀ n x1, (if x.conn.requestParser.request.requestTarget.hostType = .domain
      then handleOriginDohConnection env x else handleOriginIpConnection env x) = (n, x1) →
      Attempt (x.conn.firstPeer x₀.world.dohUtils).1 (x.conn.firstPeer x₀.world.dohUtils).2 x.conn n
        x1.conn ∧ x1.world.metrics = x.world.metrics ∧ Tried x₀ x1 ci n ∧ Asked env x n x1 := by
    intro n x1 he
    unfold Conn.firstPeer
    dsimp only
    split at he
    · next hd =>
        rw [if_pos hd]
        exact handleOriginDohConnection_moves h he
    · next hd =>
        rw [if_neg hd]
        exact handleOriginIpConnection_moves h he
  unfold requestDone at hr
  dsimp only at hr
  obtain ⟨n, x1, he⟩ : ∃ n x1, (if x.conn.requestParser.request.requestTarget.hostType =
      .domain then handleOriginDohConnection env x else handleOriginIpConnection env x)
      = (n, x1) := ⟨_, _, rfl⟩
  rw [he] at hr
  obtain ⟨ha, hm, ht, hask⟩ := key_fact n x1 he
  dsimp only at hr
  split at hr
  · next hn =>
      cases hr
      obtain ⟨h1, h2, h3⟩ := finishRequest_sockets key x1.conn
      refine ⟨x1.conn, ha, by rw [if_pos hn]; rfl, hm, ?_, hask.opens,
        ⟨h2.trans hask.answered.1, hask.answered.2⟩, fun he => absurd he hn⟩
      rcases ht with ⟨rfl, hv⟩ | ⟨rfl, _⟩
      · exact .inl ⟨rfl, hv.setConn h1 h2 (by rw [h3])⟩
      · exact absurd rfl hn
  · next hn =>
      cases hr
      exact ⟨_, ha, by rw [if_neg hn], hm, ht, hask⟩

/-- What a loop leaves with: the state a `return` inside it goes to, or what
holds when it has fallen through. -/
def LoopPost (env : Env) (x₀ : Ctx) (start : Phase × Ctx) (I : Ctx → Prop)
    (r : Option ConnState × Ctx) : Prop :=
  match r.1 with
  | some next => Course x₀.world.dohUtils env start (.goto next, r.2) ∧ Landed x₀ r.2 next
  | none => I r.2

/-- The head of the parsing loop. -/
structure Parsing (env : Env) (x₀ : Ctx) (start : Phase × Ctx) (key : SelectorKey)
    (x : Ctx) : Prop where
  handling : Handling x₀ x opRead none
  current : x.conn.current = some .parsingRequestLine
  course : Course x₀.world.dohUtils env start (.reading key, x)

theorem parsingHostRound_moves {key : SelectorKey} {start : Phase × Ctx}
    (h : Parsing env x₀ start key x) :
    Lib.Returns (parsingHostRound env key x) (Lib.Round.Post (Parsing env x₀ start key)
      (LoopPost env x₀ start fun x' => Parsing env x₀ start key x' ∧
        bufferCanRead x'.conn.clientBuffer = false)) := by
  obtain ⟨hh, hcur, hs⟩ := h
  unfold parsingHostRound
  refine Lib.returns_ite (fun hcan => ?_) fun hcan => ?_
  · refine Lib.returns_bind (Q := fun r => bufferRead x.conn.clientBuffer = .ok r)
      (fun a ha => ha) ?_
    rintro ⟨b, buffer⟩ hread
    dsimp only
    have hp : Handling x₀ (x.setConn (x.conn.parsed b buffer)) opRead none :=
      hh.setConn rfl rfl rfl Iff.rfl
    split
    · next e he =>
        refine Lib.returns_ok ⟨hs.tail (.record (f := id) (by simp)
          (.parseError hcur hcan hread he) rfl (by simp [Phase.released]) rfl id), ?_⟩
        refine ⟨fun hc => ?_, fun _ => ⟨_, _, hp.view.setConn rfl rfl Iff.rfl, fun hc => ?_⟩⟩
        · rw [show (((x.setConn (x.conn.parsed b buffer)).fail e).conn.current
            = x.conn.current) from rfl, hcur] at hc
          cases hc
        · cases hc
    · next he =>
        refine Lib.returns_ite (fun hdone => ?_) fun hdone => ?_
        · obtain ⟨n, x1, hreq⟩ :
              ∃ n x1, requestDone env key (x.setConn (x.conn.parsed b buffer)) = (n, x1) :=
            ⟨_, _, rfl⟩
          rw [hreq]
          obtain ⟨c', ha, hc', hm, ht, hask⟩ := requestDone_moves hp.view hreq rfl
          have hcur1 : x1.conn.current = some .parsingRequestLine := by
            have hcc : c'.current = x.conn.current := ha.current
            rw [hc']
            split
            · rw [finishRequest_current, hcc, hcur]
            · rw [hcc, hcur]
          refine Lib.returns_ok ⟨?_, ?_⟩
          · have hmid : x1.mid (.goto n) = ⟨.goto n, if n ≠ .error then
                finishRequest key c' else c', x.world.metrics⟩ := by
              rw [Ctx.mid, hc', hm]
              rfl
            have hmove : Move _ (x.mid (.reading key)) _ :=
              .parseDone hcur hcan hread hdone ha
            rw [← hmid] at hmove
            exact hs.tail (.attempt (by simp) hmove (hask.of_setConn rfl)
              (.inr hh.view.inactive))
          · have hst : x.conn.stmState = .parsingRequestLine :=
              Conn.stmState_of_current hcur
            refine ht.landed (c := x.conn) (by rw [hst, hcur1]) ?_ ?_
            · rw [hst]
              simp
            · rw [hst]
              intro hc
              cases hc
        · exact Lib.returns_ok ⟨hp, hcur, hs.tail (.record (f := id) (by simp)
            (.parseByte hcur hcan hread he hdone) rfl (by simp [Phase.released]) rfl id)⟩
  · exact Lib.returns_ok ⟨⟨hh, hcur, hs⟩, by simpa using hcan⟩

theorem parsingHostOnReadReady_moves {key : SelectorKey}
    (h : Handling x₀ x ci oi) (hcur : x.conn.current = some .parsingRequestLine)
    (hr : parsingHostOnReadReady env key x = .ok (next, x')) :
    Course x₀.world.dohUtils env (.reading key, x) (.goto next, x') ∧ Landed x₀ x' next := by
  have hst : x.conn.stmState = .parsingRequestLine := Conn.stmState_of_current hcur
  obtain rfl := h.bare hst
  obtain rfl : ci = opRead := by
    rw [(h.fixed (by rw [hst]; rfl)).1, Conn.interests_of_current hcur]
    rfl
  obtain ⟨⟨ret, x1⟩, hloop, hret⟩ := Lib.bind_eq_ok.mp hr
  have hpost := Lib.returns_loop (Parsing env x₀ (.reading key, x) key)
    (fun _ h1 => parsingHostRound_moves h1) env.fuel x ⟨h, hcur, .refl⟩ _ hloop
  cases ret with
  | some n =>
      cases hret
      exact hpost
  | none =>
      obtain ⟨⟨hh, hcur1, hs⟩, hcan⟩ := hpost
      have hst1 := Conn.stmState_of_current hcur1
      dsimp only [Option.getD] at hret
      rw [hst1] at hret
      cases hret
      refine ⟨hs.tail (.record (f := id) (by simp) (.parseIdle hcur1 hcan) rfl
        (by simp [Phase.released]) rfl id), fun _ => ⟨_, hh.resting ?_⟩, fun hne => ?_⟩
      · rw [hst1]
        rfl
      · exact absurd hcur1 hne

/-! ## The answers -/

/-- The head of the loops over the answers, in a state that has taken the
origin's item away. -/
structure Walking (env : Env) (x₀ : Ctx) (start : Phase × Ctx) (s : ConnState)
    (t : DohTry) (x : Ctx) : Prop where
  view : View x₀ x opNoop none
  current : x.conn.current = some s
  type : ∀ doh, x.conn.dohConnection = some doh → doh.currentType = t
  course : Course x₀.world.dohUtils env start (.walking, x)

theorem tryNextRound_moves {start : Phase × Ctx} {s : ConnState} {t : DohTry}
    (h : Walking env x₀ start s t x) (hs : s ≠ .error) :
    Lib.Returns (tryNextRound env t.recordType t.sockaddr x)
      (Lib.Round.Post (Walking env x₀ start s t) (LoopPost env x₀ start fun x' =>
        Walking env x₀ start s t x' ∧ ∃ doh, x'.conn.dohConnection = some doh ∧
          ¬ doh.currentTry.toNat < doh.dohParser.response.header.ancount.toNat)) := by
  obtain ⟨hv, hcur, ht, hsteps⟩ := h
  unfold tryNextRound
  cases hd : x.conn.dohConnection with
  | none => exact Lib.returns_error _
  | some doh =>
      obtain rfl := ht doh hd
      dsimp only
      refine Lib.returns_ite (fun hlt => ?_) fun hge => ?_
      · refine Lib.returns_bind
          (Q := fun a => readAnswer doh.dohParser.response doh.currentTry = .ok a)
          (fun a ha => ha) ?_
        intro a ha
        have hv1 : View x₀ (x.setConn (x.conn.examine doh a)) opNoop none :=
          hv.setConn rfl rfl Iff.rfl
        have htype : ∀ c : Conn, c.dohConnection = (x.conn.examine doh a).dohConnection →
            ∀ doh', c.dohConnection = some doh' → doh'.currentType = doh.currentType := by
          intro c hc doh' hd'
          rw [hc] at hd'
          cases hd'
          rfl
        refine Lib.returns_ite (fun hne => ?_) fun heq => ?_
        · exact Lib.returns_ok
            ⟨hv1, hcur, htype _ rfl, hsteps.tail (.record (f := id) (by simp)
              (.walkSkip hd hlt ha hne) rfl (fun _ => rfl) rfl id)⟩
        · have heq' : a.aType = doh.currentType.recordType := by simpa using heq
          obtain ⟨x1, hopen, hv2, hm, hn, ho1, hcase⟩ :=
            hv1.openOrigin_cases env (.answer doh.currentTry.toNat)
              (doh.currentType.sockaddr x.conn.requestParser.request.requestTarget.port a)
          rw [show (x.setConn (x.conn.examine doh a)).conn.requestParser = x.conn.requestParser
            from rfl, hopen]
          rcases hcase with ⟨hc, hw, _⟩ | ⟨fd, _, h0, ho, hc⟩
          · refine Lib.returns_ite (fun _ => ?_) fun hne => ?_
            · refine Lib.returns_ok ⟨hv2, by rw [hc]; exact hcur, ?_, ?_⟩
              · exact htype _ (by rw [hc]; rfl)
              · have hmid : x1.mid .walking = ⟨.walking, (x.conn.examine doh a).unopened
                    (.answer doh.currentTry.toNat) (doh.currentType.sockaddr
                      x.conn.requestParser.request.requestTarget.port a),
                    x.world.metrics⟩ := by
                  rw [Ctx.mid, hc, hm]
                  rfl
                have hmove := Move.walkRefused (d := x₀.world.dohUtils)
                  (m := x.world.metrics) hd hlt ha heq'
                rw [← hmid] at hmove
                exact hsteps.tail (.walkRefused hmove hopen ho1 hw (by rw [hc]; rfl))
            · exact absurd (by rw [hc]; rfl) hne
          · have hfd : x1.conn.originFd = fd := by rw [hc]
            refine Lib.returns_ite (fun he => ?_) fun _ => ?_
            · rw [hfd] at he
              omega
            · obtain ⟨n, x2, hreg⟩ : ∃ n x2, registerOrFail x1 = (n, x2) := ⟨_, _, rfl⟩
              rw [hreg]
              obtain ⟨hatt, hm2, htried, ho2, hfd2, hinv⟩ :=
                registerOrFail_moves hv2 hn ho h0 hc hreg
              have hst : x.conn.stmState = s := Conn.stmState_of_current hcur
              refine Lib.returns_ok ⟨?_, htried.landed (c := x.conn) ?_ (hst ▸ hs) fun _ => rfl⟩
              · have hmid : x2.mid (.goto n) = ⟨.goto n, x2.conn, x.world.metrics⟩ := by
                  rw [Ctx.mid, hm2, hm]
                  rfl
                have hmove := Move.walkOpen (d := x₀.world.dohUtils)
                  (m := x.world.metrics) hd hlt ha heq' hatt
                rw [← hmid] at hmove
                have hask : Asked env (x.setConn (x.conn.examine doh a)) n x2 :=
                  .opened hopen ho1 h0 hc ho2 hfd2 hinv
                exact hsteps.tail (.attempt (by simp) hmove
                  (hask.of_setConn rfl) (.inl rfl))
              · rw [hst, hatt.current]
                exact hcur
      · exact Lib.returns_ok ⟨⟨hv, hcur, ht, hsteps⟩, doh, hd, hge⟩

/-- The DoH server is asked on a new connection. -/
theorem asking_moves {start : Phase × Ctx} {s : ConnState} (h : View x₀ x opNoop none)
    (hcur : x.conn.current = some s) (hs : s ≠ .error)
    (hsteps : Course x₀.world.dohUtils env start (.asking, x))
    (hr : handleOriginDohConnection env x = (next, x')) :
    Course x₀.world.dohUtils env start (.goto next, x') ∧ Landed x₀ x' next := by
  obtain ⟨ha, hm, ht, hask⟩ := handleOriginDohConnection_moves h hr
  have hst : x.conn.stmState = s := Conn.stmState_of_current hcur
  refine ⟨?_, ht.landed (c := x.conn) ?_ (hst ▸ hs) fun _ => rfl⟩
  · have hmid : x'.mid (.goto next) = ⟨.goto next, x'.conn, x.world.metrics⟩ := by
      rw [Ctx.mid, hm]
    have hmove : Move x₀.world.dohUtils (x.mid .asking) _ := .ask ha
    rw [← hmid] at hmove
    exact hsteps.tail (.attempt (by simp) hmove hask (.inl rfl))
  · rw [hst, ha.current]
    exact hcur

/-- An error without a socket goes to ERROR from any other state. -/
theorem View.landed_error {e : Errors} {s : ConnState} (h : View x₀ x ci oi)
    (hcur : x.conn.current = some s) (hs : s ≠ .error) :
    Landed x₀ (x.fail e) .error := by
  refine ⟨fun hc => ?_, fun _ => ⟨_, _, h.setConn rfl rfl Iff.rfl, fun hc => by cases hc⟩⟩
  rw [Ctx.fail_conn] at hc
  exact absurd (Option.some.inj (hcur.symm.trans hc)) hs

theorem tryNextIpv4Connection_moves {start : Phase × Ctx} {s : ConnState}
    (h : Walking env x₀ start s .ipv4Try x) (hs : s ≠ .error)
    (hr : tryNextIpv4Connection env x = .ok (next, x')) :
    Course x₀.world.dohUtils env start (.goto next, x') ∧ Landed x₀ x' next := by
  obtain ⟨⟨ret, x1⟩, hloop, hret⟩ := Lib.bind_eq_ok.mp hr
  have hpost := Lib.returns_loop (Walking env x₀ start s .ipv4Try)
    (fun _ h1 => tryNextRound_moves h1 hs) env.fuel x h _ hloop
  cases ret with
  | some n =>
      cases hret
      exact hpost
  | none =>
      obtain ⟨⟨hv, hcur, ht, hsteps⟩, doh, hd, hend⟩ := hpost
      dsimp only at hret
      rw [hd] at hret
      injection hret with hret
      have hmove : Move x₀.world.dohUtils (x1.mid .walking) _ := .walkEnd hd hend
      have hex : x1.conn.exhausted doh = (.asking, x1.conn.giveUpIpv4 doh) := by
        rw [Conn.exhausted, ht doh hd]
      rw [hex] at hmove
      exact asking_moves (x := x1.setConn (x1.conn.giveUpIpv4 doh))
        (hv.setConn rfl rfl Iff.rfl) hcur hs
        (hsteps.tail (.record (f := id) (by simp) hmove rfl (fun _ => rfl) rfl id)) hret

theorem tryNextIpv6Connection_moves {start : Phase × Ctx} {s : ConnState}
    (h : Walking env x₀ start s .ipv6Try x) (hs : s ≠ .error)
    (hr : tryNextIpv6Connection env x = .ok (next, x')) :
    Course x₀.world.dohUtils env start (.goto next, x') ∧ Landed x₀ x' next := by
  obtain ⟨⟨ret, x1⟩, hloop, hret⟩ := Lib.bind_eq_ok.mp hr
  have hpost := Lib.returns_loop (Walking env x₀ start s .ipv6Try)
    (fun _ h1 => tryNextRound_moves h1 hs) env.fuel x h _ hloop
  cases ret with
  | some n =>
      cases hret
      exact hpost
  | none =>
      obtain ⟨⟨hv, hcur, ht, hsteps⟩, doh, hd, hend⟩ := hpost
      cases hret
      have hmove : Move x₀.world.dohUtils (x1.mid .walking) _ := .walkEnd hd hend
      have hex : x1.conn.exhausted doh
          = (.goto .error, x1.conn.failed .internalServerError) := by
        rw [Conn.exhausted, ht doh hd]
      rw [hex] at hmove
      exact ⟨hsteps.tail (.record (f := id) (by simp) hmove rfl (fun hr => nomatch hr) rfl id),
        hv.landed_error hcur hs⟩

/-- The move that gives the origin's socket back. -/
theorem Advance.release {d : DohUtils} {ph ph' : Phase} {y : Ctx} (hp : ph ≠ .rest)
    (hr : ph.released = false) (hm : Move d (x.mid ph) (y.mid ph'))
    (ho : y.opens = x.opens) (ha : attempts y.conn.trace = attempts x.conn.trace)
    (hw : y.world.opened = (x.world.close x.conn.originFd).opened)
    (hu : ph = .writing → env.connected = false)
    (hph' : ph'.released = true ∨ ph' = .goto .error ∧ Forsaken env ph x) :
    Advance d env (ph, x) (ph', y) where
  inside := hp
  move := hm
  asked _ := by
    change y.opens + attempts x.conn.trace = x.opens + attempts y.conn.trace
    rw [ho, ha]
  answered hne := absurd ha hne
  opened hwithin := by
    rcases hph' with hrel | ⟨he, _⟩
    · change y.world.opened = if ph'.released && !ph.released then _ else _
      rw [hrel, hr]
      exact hw
    · have hwithin : ph'.within = true := hwithin
      rw [he] at hwithin
      cases hwithin
  unconnected _ := hu
  kept _ he := by
    rcases hph' with hrel | ⟨_, hf⟩
    · have he : ph' = .rest ∨ ph' = .goto .error := he
      rcases he with rfl | rfl <;> cases hrel
    · exact .inr hf

/-- `try_next_dns_connection` is called in `x`, by a handler that was in phase
`ph` with `z`. -/
structure Retrying (d : DohUtils) (env : Env) (start : Phase × Ctx) (ph : Phase)
    (z x : Ctx) : Prop where
  inside : ph ≠ .rest
  held : ph.released = false
  course : Course d env start (ph, z)
  opens : x.opens = z.opens
  opened : x.world.opened = z.world.opened
  originFd : x.conn.originFd = z.conn.originFd
  asked : attempts x.conn.trace = attempts z.conn.trace
  unconnected : ph = .writing → env.connected = false
  move : ∀ doh, x.conn.dohConnection = some doh →
    Move d (z.mid ph) ⟨(x.conn.nextDns doh).1, (x.conn.nextDns doh).2, x.world.metrics⟩
  doomed : x.conn.Doomed → Forsaken env ph z

theorem Retrying.course_to {d : DohUtils} {start : Phase × Ctx} {ph ph' : Phase} {z y : Ctx}
    {doh : DohConnection} (h : Retrying d env start ph z x)
    (hd : x.conn.dohConnection = some doh)
    (hy : y.mid ph' = ⟨(x.conn.nextDns doh).1, (x.conn.nextDns doh).2, x.world.metrics⟩)
    (ho : y.opens = x.opens) (ha : attempts y.conn.trace = attempts x.conn.trace)
    (hw : ∀ f, y.world.opened f = if f = x.conn.originFd then false else x.world.opened f)
    (hph' : ph'.released = true ∨ ph' = .goto .error ∧ x.conn.Doomed) :
    Course d env start (ph', y) := by
  refine h.course.tail (.release h.inside h.held (hy ▸ h.move doh hd) (ho.trans h.opens)
    (ha.trans h.asked) ?_ h.unconnected (hph'.imp_right fun hb => ⟨hb.1, h.doomed hb.2⟩))
  funext f
  rw [hw f, h.opened, h.originFd]
  rfl

theorem tryNextDnsConnection_moves {start : Phase × Ctx} {s : ConnState} {i : Interest}
    {z : Ctx}
    (h : View x₀ x opNoop (some i)) (hcur : x.conn.current = some s) (hs : s ≠ .error)
    (ph : Phase) (hretry : Retrying x₀.world.dohUtils env start ph z x)
    (hr : tryNextDnsConnection env x = .ok (next, x')) :
    Course x₀.world.dohUtils env start (.goto next, x') ∧ Landed x₀ x' next := by
  obtain ⟨x1, hun, hc1, hm1, hv1, _, ho1, hw1⟩ := h.unregister_origin
  unfold tryNextDnsConnection at hr
  obtain ⟨⟨st, x2⟩, hun', hr⟩ := Lib.bind_eq_ok.mp hr
  rw [hun] at hun'
  cases hun'
  obtain ⟨c, hderef, hr⟩ := Lib.bind_eq_ok.mp hr
  rw [Ctx.deref, hv1.alive] at hderef
  cases hderef
  simp only [ne_eq, not_true_eq_false, if_false] at hr
  rw [← hc1] at hcur
  cases hd : x1.conn.dohConnection with
  | none =>
      rw [hd] at hr
      cases hr
  | some doh =>
      have hto : ∀ {ph' : Phase} {y : Ctx}, y.conn = (x1.conn.nextDns doh).2 →
          ph' = (x1.conn.nextDns doh).1 → y.world = x1.world → y.opens = x1.opens →
          attempts y.conn.trace = attempts x1.conn.trace →
          (ph'.released = true ∨ ph' = .goto .error ∧ x1.conn.Doomed) →
          Course x₀.world.dohUtils env start (ph', y) := by
        intro ph' y hyc hyp hyw hyo hya hyr
        rw [hc1] at hyc hyp hya hyr
        refine hretry.course_to (hc1 ▸ hd) ?_ (hyo.trans ho1) hya ?_ hyr
        · rw [Ctx.mid, hyc, hyp, hyw, hm1]
        · rw [hyw]
          exact hw1
      have htype : ∀ t, doh.currentType = t →
          ∀ doh', x1.conn.dohConnection = some doh' → doh'.currentType = t := by
        intro t ht doh' hd'
        rw [hd] at hd'
        cases hd'
        exact ht
      rw [hd] at hr
      dsimp only at hr
      unfold Conn.nextDns at hto
      cases ht : doh.currentType with
      | ipv4Try =>
          rw [ht] at hr hto
          dsimp only at hr hto
          by_cases hrc : doh.dohParser.response.header.flags.rcode ≠ 0
          · rw [if_pos hrc] at hto
            rw [if_neg (by simpa using hrc)] at hr
            injection hr with hr
            exact asking_moves (x := x1.setConn (x1.conn.giveUpIpv4 doh))
              (hv1.setConn rfl rfl Iff.rfl) hcur hs (hto rfl rfl rfl rfl rfl (.inl rfl)) hr
          · rw [if_neg hrc] at hto
            rw [if_pos (by simpa using hrc)] at hr
            exact tryNextIpv4Connection_moves
              ⟨hv1, hcur, htype _ ht, hto rfl rfl rfl rfl rfl (.inl rfl)⟩ hs hr
      | ipv6Try =>
          rw [ht] at hr hto
          dsimp only at hr hto
          by_cases hrc : doh.dohParser.response.header.flags.rcode ≠ 0
          · rw [if_pos hrc] at hto
            rw [if_pos hrc] at hr
            cases hr
            exact ⟨hto rfl rfl rfl rfl rfl (.inr ⟨rfl, doh, hd, ht, hrc⟩),
              hv1.landed_error hcur hs⟩
          · rw [if_neg hrc] at hto
            rw [if_neg hrc] at hr
            exact tryNextIpv6Connection_moves
              ⟨hv1, hcur, htype _ ht, hto rfl rfl rfl rfl rfl (.inl rfl)⟩ hs hr

/-! ## TRY_CONNECTION_IP -/

/-- In a state whose interests are fixed, the client's is that of the state. -/
theorem Handling.client_interest {s : ConnState} {i : Interest × Interest}
    (h : Handling x₀ x ci oi) (hcur : x.conn.current = some s) (hr : s.relays = false)
    (hi : x.conn.interests = i) : ci = i.1 := by
  have hst := Conn.stmState_of_current hcur
  rw [(h.fixed (by rw [hst]; exact hr)).1, hi]

/-- A handler that returns another state, with the origin's item in place
where that state needs it. -/
theorem Handling.landed {s : ConnState} {c : Conn} (h : Handling x₀ x ci oi)
    (hcur : x.conn.current = some s) (hcc : c.current = some s)
    (hfd : c.clientFd = x.conn.clientFd) (hofd : c.originFd = x.conn.originFd)
    (host : c.originStatus = .inactiveStatus ↔ x.conn.originStatus = .inactiveStatus)
    (hne : s ≠ next) (hneed : next.hasOrigin = true → s.hasOrigin = true) :
    Landed x₀ (x.setConn c) next := by
  refine ⟨fun hc => ?_, fun _ => ⟨_, _, h.view.setConn hfd hofd host, fun hn => ?_⟩⟩
  · rw [Ctx.setConn_conn, hcc] at hc
    exact absurd (Option.some.inj hc) hne
  · have hst := Conn.stmState_of_current hcur
    exact h.needed (by rw [hst]; exact hneed hn)

theorem tryConnectionIpOnWriteReady_moves (h : Handling x₀ x ci oi)
    (hcur : x.conn.current = some .tryConnectionIp)
    (hr : tryConnectionIpOnWriteReady env x = .ok (next, x')) :
    Course x₀.world.dohUtils env (.writing, x) (.goto next, x') ∧ Landed x₀ x' next := by
  have hst : x.conn.stmState = .tryConnectionIp := Conn.stmState_of_current hcur
  unfold tryConnectionIpOnWriteReady at hr
  split at hr
  · split at hr
    · next hq =>
        cases hr
        exact ⟨.single (.record (f := id) (by simp) (.tryQuery hcur hq) rfl
            (fun hr => nomatch hr) rfl id),
          h.landed hcur hcur rfl rfl Iff.rfl (by simp) fun _ => rfl⟩
    · next hq =>
        have hq' : x.conn.awaitsQuery = false := by simpa using hq
        dsimp only at hr
        split at hr
        · next hc =>
            obtain ⟨buffer, hb, hr⟩ := Lib.bind_eq_ok.mp hr
            cases hr
            exact ⟨.single (.record (f := registerNewConnection) (by simp)
                (.tryConnect hcur hq' hc hb) rfl (fun hr => nomatch hr) rfl id),
              (h.setMetrics (f := registerNewConnection)).landed hcur hcur rfl rfl Iff.rfl
                (by simp) fun _ => rfl⟩
        · next hc =>
            cases hr
            have hc' : x.conn.connectionRequest.connect = false := Bool.eq_false_iff.mpr hc
            exact ⟨.single (.record (f := registerNewConnection) (by simp)
                (.tryRequest hcur hq' hc') rfl (fun hr => nomatch hr) rfl id),
              (h.setMetrics (f := registerNewConnection)).landed hcur hcur rfl rfl Iff.rfl
                (by simp) fun _ => rfl⟩
  · next hconn =>
    have hconn : env.connected = false := by simpa using hconn
    dsimp only at hr
    split at hr
    · next hd =>
        obtain ⟨hdom, hsome⟩ := hd
        obtain ⟨i, rfl⟩ : ∃ i, oi = some i :=
          Option.isSome_iff_exists.mp (h.needed (by rw [hst]; rfl))
        obtain rfl : ci = opNoop :=
          h.client_interest hcur rfl (Conn.interests_of_current hcur)
        refine tryNextDnsConnection_moves (h.setMetrics (f := increaseFailedConnections)).view
          hcur (by simp) (z := x) .writing ?_ hr
        exact
          { inside := by simp
            held := rfl
            course := .refl
            opens := rfl
            opened := rfl
            originFd := rfl
            asked := rfl
            unconnected := fun _ => hconn
            move := fun doh hdoh => .tryNext hcur hdom hdoh
            doomed := fun hdoom => .inr (.inr ⟨hdoom, .inl ⟨rfl, hconn⟩⟩) }
    · next hd =>
        cases hr
        exact ⟨.single (.record (f := increaseFailedConnections) (by simp) (.tryFail hcur hd)
            rfl (fun hr => nomatch hr) rfl id),
          (h.setMetrics (f := increaseFailedConnections)).view.landed_error hcur (by simp)⟩

/-! ## A buffer to drain -/

theorem onDrained_moves {s after : ConnState} (h : Handling x₀ x ci oi)
    (hcur : x.conn.current = some s)
    (hs : s = .sendDohRequest ∨ s = .sendRequestLine ∨ s = .error)
    (hafter : x.conn.afterDrain = after) (hr : onDrained after x = .ok (next, x')) :
    Course x₀.world.dohUtils env (.writing, x) (.goto next, x') ∧ Landed x₀ x' next := by
  have hst : x.conn.stmState = s := Conn.stmState_of_current hcur
  unfold onDrained at hr
  split at hr
  · next hcan =>
      cases hr
      refine ⟨.single (.record (f := id) (by simp) ?_ rfl (fun hr => nomatch hr) rfl id),
        h.landed hcur hcur rfl rfl Iff.rfl ?_ ?_⟩
      · have hmove := Move.drained (d := x₀.world.dohUtils) (m := x.world.metrics) hcur hs
          (by simpa using hcan)
        rw [hafter] at hmove
        exact hmove
      · rw [← hafter, Conn.afterDrain, hst]
        rcases hs with rfl | rfl | rfl <;> simp
      · rw [← hafter, Conn.afterDrain, hst]
        rcases hs with rfl | rfl | rfl <;> simp [ConnState.hasOrigin]
  · next hcan =>
      cases hr
      rw [hst]
      refine ⟨.single (.record (f := id) (by simp) (.draining hcur hs (by simpa using hcan))
          rfl (fun hr => nomatch hr) rfl id),
        fun _ => ⟨_, h.resting ?_⟩, fun hne => absurd hcur hne⟩
      rw [hst]
      rcases hs with rfl | rfl | rfl <;> rfl

/-! ## AWAIT_DOH_RESPONSE -/

/-- The head of the loop over the reply. -/
structure Awaiting (env : Env) (x₀ : Ctx) (start : Phase × Ctx) (key : SelectorKey)
    (x : Ctx) : Prop where
  handling : Handling x₀ x opNoop (some opRead)
  current : x.conn.current = some .awaitDohResponse
  noError : x.conn.error ≠ some .internalServerError
  course : Course x₀.world.dohUtils env start (.reading key, x)

/-- The verdict on one byte, and the phase it leads to, from the loop. -/
theorem Awaiting.byte {start : Phase × Ctx} {key : SelectorKey} {doh doh' : DohConnection}
    {b : UInt8} {buffer : Buffer} {alloc : Bool} {v : Verdict}
    (h : Awaiting env x₀ start key x) (hd : x.conn.dohConnection = some doh)
    (hcan : bufferCanRead x.conn.originBuffer = true)
    (hread : bufferRead x.conn.originBuffer = .ok (b, buffer))
    (hfin : doh.finished = false) (hfeed : doh.feed alloc b = (doh', v)) :
    Move x₀.world.dohUtils (x.mid (.reading key))
      ⟨((x.conn.fed doh' buffer).judged key doh' v).1,
        ((x.conn.fed doh' buffer).judged key doh' v).2, x.world.metrics⟩ := by
  have hmove : Move x₀.world.dohUtils (x.mid (.reading key)) _ :=
    .awaitByte alloc h.current h.noError hd hfin hcan hread
  rw [hfeed] at hmove
  exact hmove

theorem Awaiting.again {start : Phase × Ctx} {key : SelectorKey} {doh doh' : DohConnection}
    {b : UInt8} {buffer : Buffer} {alloc : Bool}
    (h : Awaiting env x₀ start key x) (hd : x.conn.dohConnection = some doh)
    (hcan : bufferCanRead x.conn.originBuffer = true)
    (hread : bufferRead x.conn.originBuffer = .ok (b, buffer))
    (hfin : doh.finished = false) (hfeed : doh.feed alloc b = (doh', .more)) :
    Awaiting env x₀ start key (x.setConn (x.conn.fed doh' buffer)) :=
  ⟨h.handling.setConn rfl rfl rfl Iff.rfl, h.current, h.noError,
    h.course.tail (.record (f := id) (by simp) (h.byte hd hcan hread hfin hfeed) rfl
      (fun hr => nomatch hr) rfl id)⟩

theorem Awaiting.fail {start : Phase × Ctx} {key : SelectorKey} {doh doh' : DohConnection}
    {b : UInt8} {buffer : Buffer} {alloc : Bool} {e : Errors}
    (h : Awaiting env x₀ start key x) (hd : x.conn.dohConnection = some doh)
    (hcan : bufferCanRead x.conn.originBuffer = true)
    (hread : bufferRead x.conn.originBuffer = .ok (b, buffer))
    (hfin : doh.finished = false) (hfeed : doh.feed alloc b = (doh', .failed e)) :
    Course x₀.world.dohUtils env start
        (.goto .error, (x.setConn (x.conn.fed doh' buffer)).fail e) ∧
      Landed x₀ ((x.setConn (x.conn.fed doh' buffer)).fail e) .error := by
  have hh : Handling x₀ (x.setConn (x.conn.fed doh' buffer)) opNoop (some opRead) :=
    h.handling.setConn rfl rfl rfl Iff.rfl
  exact ⟨h.course.tail (.record (f := id) (by simp) (h.byte hd hcan hread hfin hfeed) rfl
      (fun hr => nomatch hr) rfl id), hh.view.landed_error h.current (by simp)⟩

/-- A reply without answers to the second query is an error. -/
theorem Awaiting.noAnswers_ipv6 {start : Phase × Ctx} {key : SelectorKey}
    {doh doh' : DohConnection} {b : UInt8} {buffer : Buffer} {alloc : Bool}
    (h : Awaiting env x₀ start key x) (hd : x.conn.dohConnection = some doh)
    (hcan : bufferCanRead x.conn.originBuffer = true)
    (hread : bufferRead x.conn.originBuffer = .ok (b, buffer))
    (hfin : doh.finished = false) (hfeed : doh.feed alloc b = (doh', .noAnswers))
    (ht : doh'.currentType = .ipv6Try) :
    Course x₀.world.dohUtils env start
        (.goto .error, (x.setConn (x.conn.fed doh' buffer)).fail .internalServerError) ∧
      Landed x₀ ((x.setConn (x.conn.fed doh' buffer)).fail .internalServerError) .error := by
  have hb := h.byte hd hcan hread hfin hfeed
  have hh : Handling x₀ (x.setConn (x.conn.fed doh' buffer)) opNoop (some opRead) :=
    h.handling.setConn rfl rfl rfl Iff.rfl
  unfold Conn.judged at hb
  dsimp only at hb
  rw [ht] at hb
  exact ⟨h.course.tail (.record (f := id) (by simp) hb rfl (fun hr => nomatch hr) rfl id),
    hh.view.landed_error h.current (by simp)⟩

/-- A reply without answers to the first query: the second one follows at
once. -/
theorem Awaiting.noAnswers_ipv4 {start : Phase × Ctx} {key : SelectorKey}
    {doh doh' : DohConnection} {b : UInt8} {buffer : Buffer} {alloc : Bool}
    (h : Awaiting env x₀ start key x) (hd : x.conn.dohConnection = some doh)
    (hcan : bufferCanRead x.conn.originBuffer = true)
    (hread : bufferRead x.conn.originBuffer = .ok (b, buffer))
    (hfin : doh.finished = false) (hfeed : doh.feed alloc b = (doh', .noAnswers))
    (ht : doh'.currentType = .ipv4Try) {x1 x2 : Ctx} {st : SelectorStatus}
    (hun : selectorUnregisterFd
      ((x.setConn (x.conn.fed doh' buffer)).setConn
        { x.conn.fed doh' buffer with originBuffer := bufferReset buffer })
      x.conn.originFd = .ok (st, x1))
    (hq : queryIpv6 env doh' x1 = (next, x2)) :
    Course x₀.world.dohUtils env start (.goto next, x2) ∧ Landed x₀ x2 next := by
  have hb := h.byte hd hcan hread hfin hfeed
  have hh : Handling x₀ (x.setConn (x.conn.fed doh' buffer)) opNoop (some opRead) :=
    h.handling.setConn rfl rfl rfl Iff.rfl
  unfold Conn.judged at hb
  dsimp only at hb
  rw [ht] at hb
  have hv : View x₀ ((x.setConn (x.conn.fed doh' buffer)).setConn
      { x.conn.fed doh' buffer with originBuffer := bufferReset buffer })
      opNoop (some opRead) := hh.view.setConn rfl rfl Iff.rfl
  obtain ⟨x3, hun3, hc3, hm3, hv3, _, ho3, hw3⟩ := hv.unregister_origin
  have he : x3 = x1 := by
    have hsame := hun3.symm.trans hun
    injection hsame with hsame
    injection hsame
  subst he
  have hcourse : Course x₀.world.dohUtils env start
      (.asking, x3.setConn (x3.conn.giveUpIpv4 doh')) := by
    refine h.course.tail (.release (by simp) rfl ?_ ho3 ?_ (funext hw3)
      (fun hp => nomatch hp) (.inl rfl))
    · rw [Ctx.mid.eq_def (x3.setConn _), Ctx.setConn_world, hm3, Ctx.setConn_conn, hc3]
      exact hb
    · rw [Ctx.setConn_conn, hc3]
      rfl
  have hcur : (x3.setConn (x3.conn.giveUpIpv4 doh')).conn.current
      = some .awaitDohResponse := by
    rw [Ctx.setConn_conn, hc3]
    exact h.current
  have hv4 : View x₀ (x3.setConn (x3.conn.giveUpIpv4 doh')) opNoop none :=
    hv3.setConn rfl rfl Iff.rfl
  exact asking_moves hv4 hcur (by simp) hcourse hq

theorem awaitDohResponseRound_moves {start : Phase × Ctx} {key : SelectorKey}
    (h : Awaiting env x₀ start key x) :
    Lib.Returns (awaitDohResponseRound env x) (Lib.Round.Post (Awaiting env x₀ start key)
      (LoopPost env x₀ start fun x' => Awaiting env x₀ start key x' ∧
        bufferCanRead x'.conn.originBuffer = false)) := by
  have hbyte : ∀ r, bufferRead x.conn.originBuffer = .ok r →
      bufferRead x.conn.originBuffer = .ok r := fun _ h => h
  unfold awaitDohResponseRound
  refine Lib.returns_ite (fun hcan => ?_)
    fun hcan => Lib.returns_ok ⟨h, by simpa using hcan⟩
  cases hd : x.conn.dohConnection with
  | none => exact Lib.returns_error _
  | some doh =>
      dsimp only
      refine Lib.returns_ite (fun hsl => ?_) fun hsl => Lib.returns_ite (fun hhd => ?_)
        fun hhd => Lib.returns_ite (fun hdn => ?_) fun _ => Lib.returns_ok h
      · have hfin : doh.finished = false := by simp [DohConnection.finished, hsl]
        refine Lib.returns_bind hbyte ?_
        rintro ⟨b, buffer⟩ hread
        have hfeed := @DohConnection.feed_statusLine env.callocAnswers doh b hsl
        refine Lib.returns_ite (fun he => ?_) fun he => ?_
        · rw [if_pos he] at hfeed
          exact Lib.returns_ok (h.fail hd hcan hread hfin hfeed)
        · rw [if_neg he] at hfeed
          exact Lib.returns_ok (h.again hd hcan hread hfin hfeed)
      · have hfin : doh.finished = false := by simp [DohConnection.finished, hhd]
        refine Lib.returns_bind hbyte ?_
        rintro ⟨b, buffer⟩ hread
        have hfeed := @DohConnection.feed_headers env.callocAnswers doh b hsl hhd
        refine Lib.returns_ite (fun he => ?_) fun he => ?_
        · rw [if_pos he] at hfeed
          exact Lib.returns_ok (h.fail hd hcan hread hfin hfeed)
        · rw [if_neg he] at hfeed
          exact Lib.returns_ok (h.again hd hcan hread hfin hfeed)
      · have hfin : doh.finished = false := by simp [DohConnection.finished, hdn]
        refine Lib.returns_bind hbyte ?_
        rintro ⟨b, buffer⟩ hread
        have hfeed := @DohConnection.feed_doh env.callocAnswers doh b hsl hhd
        dsimp only
        split
        · next hst =>
            rw [hst] at hfeed
            exact Lib.returns_ok (h.fail hd hcan hread hfin hfeed)
        · next hst =>
            rw [hst] at hfeed
            exact Lib.returns_ok (h.fail hd hcan hread hfin hfeed)
        · next hst =>
            rw [hst] at hfeed
            split
            · next ht =>
                exact Lib.returns_ok (h.noAnswers_ipv6 hd hcan hread hfin hfeed ht)
            · next ht =>
                refine Lib.returns_bind (Q := fun r => selectorUnregisterFd _ _ = .ok r)
                  (fun a ha => ha) ?_
                rintro ⟨st, x1⟩ hun
                refine Lib.returns_bind_any fun _ => ?_
                exact Lib.returns_ok
                  (h.noAnswers_ipv4 hd hcan hread hfin hfeed ht hun rfl)
        · next hst =>
            rw [hst] at hfeed
            have hb := h.byte hd hcan hread hfin hfeed
            exact Lib.returns_ok ⟨⟨h.handling.setConn rfl rfl rfl Iff.rfl,
              h.current, h.noError, h.course.tail (.record (f := id) (by simp) hb rfl
                (fun hr => nomatch hr) rfl id)⟩, rfl⟩
        · next h1 h2 h3 h4 =>
            have hmore : (dohResponseParserFeed env.callocAnswers doh.dohParser b).state.verdict
                = .more := by
              unfold DohResponseState.verdict
              split <;> first | contradiction | rfl
            rw [hmore] at hfeed
            exact Lib.returns_ok (h.again hd hcan hread hfin hfeed)

theorem awaitDohResponseOnReadReady_moves {key : SelectorKey} (h : Handling x₀ x ci oi)
    (hcur : x.conn.current = some .awaitDohResponse)
    (hr : awaitDohResponseOnReadReady env x = .ok (next, x')) :
    Course x₀.world.dohUtils env (.reading key, x) (.goto next, x') ∧ Landed x₀ x' next := by
  have hst : x.conn.stmState = .awaitDohResponse := Conn.stmState_of_current hcur
  have hi : x.conn.interests = (opNoop, opRead) := Conn.interests_of_current hcur
  obtain ⟨i, rfl⟩ : ∃ i, oi = some i :=
    Option.isSome_iff_exists.mp (h.needed (by rw [hst]; rfl))
  obtain rfl : ci = opNoop := h.client_interest hcur rfl hi
  obtain rfl : i = opRead := by
    rw [(h.fixed (by rw [hst]; rfl)).2 i rfl, hi]
  unfold awaitDohResponseOnReadReady at hr
  split at hr
  · next he =>
      cases hr
      exact ⟨.single (.record (f := id) (by simp) (.awaitFailed hcur he) rfl
          (fun hr => nomatch hr) rfl id),
        h.landed hcur hcur rfl rfl Iff.rfl (by simp) fun hc => by cases hc⟩
  · next he =>
      obtain ⟨⟨ret, x1⟩, hloop, hret⟩ := Lib.bind_eq_ok.mp hr
      have hpost := Lib.returns_loop (Awaiting env x₀ (.reading key, x) key)
        (fun _ h1 => awaitDohResponseRound_moves h1) env.fuel x ⟨h, hcur, he, .refl⟩ _ hloop
      cases ret with
      | some n =>
          cases hret
          exact hpost
      | none =>
          obtain ⟨⟨hh, hcur1, he1, hcourse⟩, hcan⟩ := hpost
          have hst1 := Conn.stmState_of_current hcur1
          dsimp only at hret
          split at hret
          · next hclosing =>
              have hlog : View x₀ (x1.log (.shutdown .origin)) opNoop (some opRead) :=
                hh.view.setConn rfl rfl Iff.rfl
              refine tryNextDnsConnection_moves hlog hcur1 (by simp) (z := x1)
                (.reading key) ?_ hret
              exact
                { inside := by simp
                  held := rfl
                  course := hcourse
                  opens := rfl
                  opened := rfl
                  originFd := rfl
                  asked := rfl
                  unconnected := fun hp => nomatch hp
                  move := fun doh hd => .awaitEnd hcur1 he1 hcan hclosing hd
                  doomed := fun hdoom => .inr (.inr ⟨hdoom, .inr ⟨hcur1, hclosing⟩⟩) }
          · next hclosing =>
              rw [hst1] at hret
              cases hret
              refine ⟨hcourse.tail (.record (f := id) (by simp)
                  (.awaitIdle hcur1 he1 hcan hclosing) rfl (fun hr => nomatch hr) rfl id),
                fun _ => ⟨_, hh.resting (by rw [hst1]; rfl)⟩, fun hne => absurd hcur1 hne⟩

/-! ## CONNECTED, CLOSING and EMPTY_BUFFERS -/

/-- The items are set to what the record waits for. -/
theorem View.rest_set {s : ConnState} {j : Interest} {i : Interest × Interest}
    (h : View x₀ x ci (some j)) (hcur : x.conn.current = some s) (hs : s.hasOrigin = true)
    (hi : s.interests x.conn = i) : Resting x₀ (x.setInterests i) (some i.2) := by
  have hst : x.conn.stmState = s := Conn.stmState_of_current hcur
  rw [← Conn.interests_of_current hcur] at hi
  refine ⟨?_, fun _ => rfl, fun hp => ?_, fun k hk => ?_⟩
  · rw [Ctx.setInterests_conn, hi]
    exact h.setInterests i
  · rw [Ctx.setInterests_conn, hst] at hp
    rw [hp] at hs
    cases hs
  · cases hk
    rw [Ctx.setInterests_conn, hi]

/-- The same from a handler that has changed the record. -/
theorem Handling.rest_after {s : ConnState} {c : Conn} {i : Interest × Interest}
    (h : Handling x₀ x ci oi) (hcur : x.conn.current = some s) (hs : s.hasOrigin = true)
    (hcc : c.current = x.conn.current) (hfd : c.clientFd = x.conn.clientFd)
    (hofd : c.originFd = x.conn.originFd)
    (host : c.originStatus = .inactiveStatus ↔ x.conn.originStatus = .inactiveStatus)
    (hi : s.interests c = i) : Resting x₀ ((x.setConn c).setInterests i) (some i.2) := by
  have hst : x.conn.stmState = s := Conn.stmState_of_current hcur
  obtain ⟨j, rfl⟩ : ∃ j, oi = some j :=
    Option.isSome_iff_exists.mp (h.needed (by rw [hst]; exact hs))
  exact (h.view.setConn hfd hofd host).rest_set (hcc.trans hcur) hs hi

/-- A handler that returned the current state. -/
theorem Resting.landed (h : Resting x₀ x oi) (hcur : x.conn.current = some next) :
    Landed x₀ x next :=
  ⟨fun _ => ⟨oi, h⟩, fun hne => absurd hcur hne⟩

@[simp] theorem parseResponse_current (c : Conn) :
    (parseResponse c).current = c.current := rfl

theorem analyzeRead_sockets (key : SelectorKey) (c : Conn) :
    (analyzeRead key c).current = c.current ∧
      (analyzeRead key c).clientFd = c.clientFd ∧
      (analyzeRead key c).originFd = c.originFd ∧
      (analyzeRead key c).originStatus = c.originStatus ∧
      (analyzeRead key c).clientStatus = c.clientStatus :=
  ⟨analyzeRead_keeps Conn.current rfl fun _ => rfl,
    analyzeRead_keeps Conn.clientFd rfl fun _ => rfl,
    analyzeRead_keeps Conn.originFd rfl fun _ => rfl,
    analyzeRead_keeps Conn.originStatus rfl fun _ => rfl,
    analyzeRead_keeps Conn.clientStatus rfl fun _ => rfl⟩

theorem analyzeRead_attempts (key : SelectorKey) (c : Conn) :
    attempts (analyzeRead key c).trace = attempts c.trace :=
  analyzeRead_keeps (fun c => attempts c.trace) rfl fun _ => rfl

theorem closeOrigin_attempts (c : Conn) :
    attempts c.closeOrigin.trace = attempts c.trace := by
  unfold Conn.closeOrigin
  split <;> rfl

theorem closeClient_attempts (c : Conn) :
    attempts c.closeClient.trace = attempts c.trace := by
  unfold Conn.closeClient
  split <;> rfl

theorem originFirst_attempts (c : Conn) :
    attempts c.closeOrigin.closeClient.trace = attempts c.trace :=
  (closeClient_attempts _).trans (closeOrigin_attempts c)

theorem clientFirst_attempts (c : Conn) :
    attempts c.closeClient.closeOrigin.trace = attempts c.trace :=
  (closeOrigin_attempts _).trans (closeClient_attempts c)

theorem connectedOnReadReady_moves {key : SelectorKey} (h : Handling x₀ x ci oi)
    (hcur : x.conn.current = some .connected)
    (hr : connectedOnReadReady key x = .ok (next, x')) :
    Course x₀.world.dohUtils env (.reading key, x) (.goto next, x') ∧ Landed x₀ x' next := by
  obtain ⟨h1, h2, h3, h4, h5⟩ := analyzeRead_sockets key x.conn
  unfold connectedOnReadReady at hr
  simp only [Ctx.setConn_conn, h4, h5] at hr
  split at hr
  · next hcl =>
      cases hr
      exact ⟨.single (.relay (by simp) (.relayEnd hcur hcl) (analyzeRead_attempts key _)
          (by simp)),
        h.landed hcur (h1.trans hcur) h2 h3 (by rw [h4]) (by simp) fun _ => rfl⟩
  · next hcl =>
      have hsc := Conn.stmState_of_current (h1.trans hcur)
      rw [hsc] at hr
      cases hr
      rw [not_or] at hcl
      refine ⟨.single (.relay (by simp) (.relayRead hcur hcl.1 hcl.2)
        (analyzeRead_attempts key _) (by simp)), ?_⟩
      exact (h.rest_after hcur rfl h1 h2 h3 (by rw [h4]) rfl).landed (h1.trans hcur)

theorem connectedOnWriteReady_moves (h : Handling x₀ x ci oi)
    (hcur : x.conn.current = some .connected)
    (hr : connectedOnWriteReady x = .ok (next, x')) :
    Course x₀.world.dohUtils env (.writing, x) (.goto next, x') ∧ Landed x₀ x' next := by
  have hst := Conn.stmState_of_current hcur
  unfold connectedOnWriteReady at hr
  rw [hst] at hr
  cases hr
  exact ⟨.single (.relay (by simp) (.relayWrite hcur) rfl (by simp)),
    (h.rest_after (c := x.conn) hcur rfl rfl rfl rfl Iff.rfl rfl).landed hcur⟩

/-- `set_closing_connection_interests` leaves CLOSING at rest. -/
theorem Handling.rest_closing (h : Handling x₀ x ci oi)
    (hcur : x.conn.current = some .closing) :
    Landed x₀ (setClosingConnectionInterests x) .closing := by
  have hcc : x.conn.closeOrigin.closeClient.current = x.conn.current := by simp
  exact (h.rest_after (c := x.conn.closeOrigin.closeClient) hcur rfl hcc (by simp)
    (by simp) (by simp) (Conn.closingInterests_closed x.conn)).landed (hcc.trans hcur)

theorem closingOnReadReady_moves {key : SelectorKey} (h : Handling x₀ x ci oi)
    (hcur : x.conn.current = some .closing)
    (hr : closingOnReadReady key x = .ok (next, x')) :
    Course x₀.world.dohUtils env (.reading key, x) (.goto next, x') ∧ Landed x₀ x' next := by
  have hst := Conn.stmState_of_current hcur
  have hside : (if key.fd = x.conn.clientFd then (Side.origin, x.conn.clientStatus)
      else (.client, x.conn.originStatus))
      = (if key.fd = x.conn.clientFd then Side.origin else .client,
        if key.fd = x.conn.clientFd then x.conn.clientStatus else x.conn.originStatus) := by
    split <;> rfl
  unfold closingOnReadReady at hr
  dsimp only at hr
  rw [hside, hst] at hr
  dsimp only at hr
  by_cases hcl : (if key.fd = x.conn.clientFd then x.conn.clientStatus
      else x.conn.originStatus) = .closingStatus
  · rw [if_pos hcl] at hr
    by_cases hempty : bufferCanRead x.conn.clientBuffer = false ∧
        bufferCanRead x.conn.originBuffer = false
    · rw [if_pos (by simpa using hempty)] at hr
      cases hr
      refine ⟨.single (.relay (by simp) (.closingDone hcur hcl hempty.1 hempty.2) rfl
        (by simp)), ?_⟩
      exact Handling.landed (h.setMetrics (f := unregisterConnection)) hcur hcur rfl rfl
        Iff.rfl (by simp) fun hc => by cases hc
    · rw [if_neg (by simpa using hempty)] at hr
      cases hr
      have hfull : bufferCanRead x.conn.clientBuffer = true ∨
          bufferCanRead x.conn.originBuffer = true := by
        rcases Bool.eq_false_or_eq_true (bufferCanRead x.conn.clientBuffer) with hc | hc
        · exact .inl hc
        · refine .inr (Bool.not_eq_false _ ▸ fun ho => hempty ⟨hc, ho⟩)
      exact ⟨.single (.relay (by simp) (.closingEmpty hcur hcl hfull) rfl (by simp)),
        h.landed hcur hcur rfl rfl Iff.rfl (by simp) fun _ => rfl⟩
  · rw [if_neg hcl] at hr
    cases hr
    exact ⟨.single (.relay (by simp) (.closingRead hcur hcl) (originFirst_attempts _)
      (by simp)), h.rest_closing hcur⟩

theorem closingOnWriteReady_moves (h : Handling x₀ x ci oi)
    (hcur : x.conn.current = some .closing)
    (hr : closingOnWriteReady x = .ok (next, x')) :
    Course x₀.world.dohUtils env (.writing, x) (.goto next, x') ∧ Landed x₀ x' next := by
  have hst := Conn.stmState_of_current hcur
  unfold closingOnWriteReady at hr
  rw [hst] at hr
  cases hr
  exact ⟨.single (.relay (by simp) (.closingWrite hcur) (originFirst_attempts _)
    (by simp)), h.rest_closing hcur⟩

theorem emptyBuffersOnWriteReady_moves (h : Handling x₀ x ci oi)
    (hcur : x.conn.current = some .emptyBuffers)
    (hr : emptyBuffersOnWriteReady x = .ok (next, x')) :
    Course x₀.world.dohUtils env (.writing, x) (.goto next, x') ∧ Landed x₀ x' next := by
  have hcc : x.conn.closeClient.closeOrigin.current = some .emptyBuffers := by simpa using hcur
  have hrest : Resting x₀ (setEmptyBuffersInterests x)
      (some (emptyBuffersInterests x.conn).2) := by
    refine h.rest_after (c := x.conn.closeClient.closeOrigin) hcur rfl (by simp) (by simp)
      (by simp) (by simp) ?_
    simp [ConnState.interests, emptyBuffersInterests]
  unfold emptyBuffersOnWriteReady at hr
  dsimp only at hr
  split at hr
  · next hcl =>
      cases hr
      refine ⟨.single (.relay (by simp) (.emptyDone hcur hcl.1 hcl.2)
          (clientFirst_attempts _) (by simp)),
        fun hc => ?_, fun _ => ⟨_, _, hrest.view.setMetrics, fun hc => by cases hc⟩⟩
      exact absurd (Option.some.inj (hcc.symm.trans hc)) (by simp)
  · next hcl =>
      have hst : (setEmptyBuffersInterests x).conn.stmState = .emptyBuffers :=
        Conn.stmState_of_current hcc
      rw [hst] at hr
      cases hr
      exact ⟨.single (.relay (by simp) (.emptyWrite hcur hcl) (clientFirst_attempts _)
        (by simp)), hrest.landed hcc⟩

end

end HttpdProxy
