import HttpdProxy.Daemon.Httpd
import HttpdProxy.Lib.Population
import HttpdProxy.Lib.Runs
import HttpdProxy.Proofs.Events

/-!
# The daemon is a population of connections

Between events every connection is at rest with its own items (`Sound`), and
one step of the daemon is a connection accepted, a connection's event, or
neither. A connection in ERROR may still name a descriptor it has given back.
Such a number may be somebody else's by now, and closing it takes his socket
away: the steps that follow are those in which that does not happen
(`Undisturbed`).

Under that condition the daemon refines `Lib.Population` (`step_population`):
what every connection keeps by itself, all of them keep.
-/

namespace HttpdProxy

/-- Connection `c` of cell `id`, as a handler is handed it. -/
def World.ctx (w : World) (id : Nat) (c : Conn) : Ctx :=
  { id := id, conn := c, freed := false, opens := 0, world := w }

structure Sound (w : World) : Prop where
  resting : ∀ id c, w.heap id = .live c → ∃ oi, Rested (w.ctx id c) (w.ctx id c) oi
  carried : ∀ f it id, w.sel.fds f = some it → it.data = .connection id →
    ∃ c, w.heap id = .live c
  unused : ∀ id, w.nextConn ≤ id → w.heap id = .unused
  opened : ∀ f it, w.sel.fds f = some it → w.opened f = true

/-! ## Whose event it is -/

/-- Whose event it is. -/
def Event.actor (w : World) : Event → Option Nat
  | .readable fd _ | .writable fd _ =>
      match w.sel.fds fd with
      | some ⟨_, _, .connection id⟩ => some id
      | _ => none
  | _ => none

/-- The event is one its item waits for; `select` reports no other. -/
def Event.awaited (w : World) : Event → Bool
  | .readable fd _ => (w.sel.fds fd).any (·.interest.read)
  | .writable fd _ => (w.sel.fds fd).any (·.interest.write)
  | _ => false

/-- The sweep closes the connection, if it finds its client. -/
def World.idle (w : World) (c : Conn) : Bool :=
  decide (maxInactiveTime ≤ w.now - c.lastActionTime) && c.clientFd != 1 && c.clientFd != 2

/-- The event is handled on behalf of connection `id` and may close it: in
ERROR all do but a send of a part of the reply. Or the sweep closes it. -/
def Event.closes (w : World) (id : Nat) (c : Conn) (e : Event) : Bool :=
  match e with
  | .readable _ _ => e.actor w == some id && e.awaited w
  | .writable _ env => e.actor w == some id && e.awaited w && !c.repliesInPart env
  | .garbageCollect => decide (collectionInterval ≤ w.now - w.lastCollection) && w.idle c
  | .tick _ => false

/-- The number in `origin_fd` is the connection's own, or nobody's. -/
def World.ownOrigin (w : World) (id : Nat) (c : Conn) : Bool :=
  c.originStatus == .inactiveStatus ||
    match w.sel.fds c.originFd with
    | some it => it.data == .connection id
    | none => true

/-- No connection is closed while the number in its `origin_fd` is another's.
With one connection there is no other (`alone_undisturbed`). -/
def Undisturbed (w : World) (e : Event) : Prop :=
  ∀ id c, w.heap id = .live c → e.closes w id c = true → w.ownOrigin id c = true

section

variable {w w' : World} {id : Nat} {c : Conn} {x : Ctx} {oi : Option Interest}

theorem Sound.lt_nextConn (h : Sound w) (hc : w.heap id ≠ .unused) : id < w.nextConn := by
  rcases Nat.lt_or_ge id w.nextConn with hlt | hge
  · exact hlt
  · exact absurd (h.unused id hge) hc

theorem World.ownOrigin_iff :
    w.ownOrigin id c = true ↔ (c.originStatus ≠ .inactiveStatus →
      ∀ it, w.sel.fds c.originFd = some it → it.data = .connection id) := by
  unfold World.ownOrigin
  rw [Bool.or_eq_true, beq_iff_eq, ← Classical.or_iff_not_imp_left]
  refine or_congr_right ?_
  split
  · next it hit =>
      rw [hit, beq_iff_eq]
      exact ⟨fun hd it' he => Option.some.inj he ▸ hd, fun hall => hall it rfl⟩
  · next hnone => simp [hnone]

/-- A connection that is closed may be: what is left of its origin is its
own. -/
theorem Rested.of_ownOrigin (h : Rested (w.ctx id c) (w.ctx id c) oi)
    (hown : w.ownOrigin id c = true) : Resting (w.ctx id c) (w.ctx id c) oi :=
  h.resting (World.ownOrigin_iff.mp hown)

/-- A connection alone has nobody to be confused with. -/
theorem Sound.ownOrigin_alone (h : Sound w) (hn : w.nextConn ≤ 1) (hc : w.heap id = .live c) :
    w.ownOrigin id c = true := by
  rw [World.ownOrigin_iff]
  intro hact it hit
  obtain ⟨oi, hr⟩ := h.resting id c hc
  cases oi with
  | some i => exact congrArg Item.data (Option.some.inj (hit.symm.trans (hr.standing.origin i rfl).1))
  | none =>
      obtain ⟨j, hj, hd⟩ := (hr.others rfl).resolve_left hact it hit
      obtain ⟨cj, hcj⟩ := h.carried _ it j hit hd
      have hlt : j < w.nextConn := h.lt_nextConn (by rw [hcj]; simp)
      have hlt' : id < w.nextConn := h.lt_nextConn (by rw [hc]; simp)
      exact absurd (show j = id by omega) hj

theorem Sound.undisturbed (h : Sound w) (hn : w.nextConn ≤ 1) (e : Event) : Undisturbed w e :=
  fun _ _ hc _ => h.ownOrigin_alone hn hc

/-! ## One connection's turn -/

/-- Starting over from where a connection has come to rest. -/
theorem Rested.restart {x₀ y : Ctx} (h : Rested x₀ x oi) (hconn : y.conn = x.conn)
    (hid : y.id = x.id) (hsel : y.world.sel = x.world.sel)
    (hopened : y.world.opened = x.world.opened) (halive : y.freed = false) :
    Rested y y oi := by
  obtain ⟨hv, hneed, hbare, hwait, hothers⟩ := h
  refine ⟨⟨halive, ?_, ?_, ?_, ⟨fun _ _ _ => Iff.rfl, rfl, ?_⟩⟩, ?_, ?_, ?_, ?_⟩
  · rw [hsel, hconn, hid]
    exact hv.client
  · rw [hsel, hconn, hid]
    exact hv.origin
  · rw [hsel, hconn, hid]
    exact hv.only
  · rw [hsel, hopened]
    exact hv.frame.opened
  · rw [hconn]
    exact hneed
  · rw [hconn]
    exact hbare
  · rw [hconn]
    exact hwait
  · rw [hsel, hconn, hid]
    exact hothers

/-- A connection is at rest as before where only items of connection `k` were
touched. -/
theorem Rested.untouched {k : Nat} (h : Rested (w.ctx id c) (w.ctx id c) oi) (hk : k ≠ id)
    (hitems : ∀ f it, it.data ≠ .connection k →
      (w'.sel.fds f = some it ↔ w.sel.fds f = some it))
    (hopened : ∀ f it, w'.sel.fds f = some it → w'.opened f = true) :
    Rested (w'.ctx id c) (w'.ctx id c) oi := by
  obtain ⟨hv, hneed, hbare, hwait, hothers⟩ := h
  have hmine : ∀ f it, it.data = .connection id →
      (w'.sel.fds f = some it ↔ w.sel.fds f = some it) := by
    intro f it hd
    refine hitems f it ?_
    rw [hd]
    simpa using hk.symm
  refine ⟨⟨rfl, ?_, ?_, ?_, ⟨fun _ _ _ => Iff.rfl, rfl, hopened⟩⟩, hneed, hbare, hwait, ?_⟩
  · exact (hmine _ _ rfl).mpr hv.client
  · intro i hi
    obtain ⟨ho, hs⟩ := hv.origin i hi
    exact ⟨(hmine _ _ rfl).mpr ho, hs⟩
  · intro f it hf hd
    exact hv.only f it ((hmine f it hd).mp hf) hd
  · intro hi
    refine (hothers hi).imp_right fun hall it hit => ?_
    rcases Decidable.em (it.data = .connection k) with hd | hd
    · exact ⟨k, hk, hd⟩
    · exact hall it ((hitems _ it hd).mp hit)

/-- An event on behalf of connection `id`. -/
def Turned (w : World) (id : Nat) (w' : World) : Prop :=
  ∃ c x, w.heap id = .live c ∧ EventPost (w.ctx id c) (w.ctx id c) x ∧ w' = x.finish

theorem Settled.frame {x₀ : Ctx} {ph : Phase} (h : Settled x₀ x ph) : Frame x₀ x := by
  rcases h with ⟨_, oi, hr⟩ | ⟨_, hg⟩
  · exact hr.standing.frame
  · exact hg.frame

/-- What an event on descriptor `fd` brings a connection: what `read`
returned. -/
def brought (env : Env) (fd : Int) (c : Conn) : Option Act :=
  if fd = c.clientFd then (readInto env c.clientBuffer).map (readAct .client)
  else (readInto env c.originBuffer).map (readAct .origin)

/-- The same turn, with what the outside answered and the event brought. -/
def Served (env : Env) (brought : Conn → Option Act) (w : World) (id : Nat)
    (w' : World) : Prop :=
  ∃ c x, w.heap id = .live c ∧
    EventCourse env (w.ctx id c) (w.ctx id c) (brought c) x ∧ w' = x.finish

theorem Served.turned {env : Env} {got : Conn → Option Act} (h : Served env got w id w') :
    Turned w id w' := by
  obtain ⟨c, x, hc, hcourse, hw⟩ := h
  exact ⟨c, x, hc, hcourse.post, hw⟩

/-- What an event of one connection leaves of the others. -/
theorem Turned.frame (h : Turned w id w') :
    (∀ f it, it.data ≠ .connection id → (w'.sel.fds f = some it ↔ w.sel.fds f = some it)) ∧
      (∀ j, j ≠ id → w'.heap j = w.heap j) ∧ w'.nextConn = w.nextConn ∧
      w'.dohUtils = w.dohUtils ∧ (∀ f it, w'.sel.fds f = some it → w'.opened f = true) := by
  obtain ⟨c, x, _, ⟨ph, _, hset⟩, rfl⟩ := h
  have hf := hset.frame
  have hid : x.id = id := hf.id
  refine ⟨fun f it hne => hf.items f it (hid ▸ hne), fun j hj => ?_, hf.nextConn,
    hf.dohUtils, hf.opened⟩
  change (if j = x.id then _ else x.world.heap j) = w.heap j
  rw [if_neg (hid ▸ hj), hf.heap]
  rfl

theorem Turned.sound (h : Sound w) (ht : Turned w id w') : Sound w' := by
  obtain ⟨hitems, hheap, hnext, _, hopened⟩ := ht.frame
  obtain ⟨c, x, hc, ⟨ph, _, hset⟩, rfl⟩ := ht
  have hid : x.id = id := hset.frame.id
  have hself : x.finish.heap id = if x.freed then .freed x.conn else .live x.conn := by
    change (if id = x.id then _ else x.world.heap id) = _
    rw [if_pos hid.symm]
  have hother : ∀ j d, j ≠ id → x.finish.heap j = .live d →
      ∃ oi, Rested (x.finish.ctx j d) (x.finish.ctx j d) oi := by
    intro j d hj hd
    rw [hheap j hj] at hd
    obtain ⟨oi, hr⟩ := h.resting j d hd
    exact ⟨oi, hr.untouched (Ne.symm hj) hitems hopened⟩
  refine ⟨?_, ?_, ?_, hopened⟩
  · intro j d hd
    rcases Decidable.em (j = id) with rfl | hj
    · rw [hself] at hd
      rcases hset with ⟨_, oi, hr⟩ | ⟨_, hg⟩
      · rw [hr.standing.alive] at hd
        cases hd
        exact ⟨oi, hr.restart rfl hid.symm rfl rfl rfl⟩
      · rw [hg.freed] at hd
        cases hd
    · exact hother j d hj hd
  · intro f it j hf hd
    rcases Decidable.em (j = id) with rfl | hj
    · rcases hset with ⟨_, oi, hr⟩ | ⟨_, hg⟩
      · exact ⟨x.conn, by rw [hself, hr.standing.alive]; rfl⟩
      · exact absurd (hid.symm ▸ hd) (hg.none_left f it hf)
    · rw [hheap j hj]
      refine h.carried f it j ((hitems f it ?_).mp hf) hd
      rw [hd]
      simpa using hj
  · intro j hj
    rw [hnext] at hj
    have hlt : id < w.nextConn := h.lt_nextConn (by rw [hc]; simp)
    rw [hheap j (by omega)]
    exact h.unused j hj

/-! ## A connection is accepted -/

/-- What `accept_new_connection` leaves when it succeeds. -/
structure Accepted (w : World) (fd : Int) (c : Conn) (w' : World) : Prop where
  born : ∃ size now mem, c = createNewConnection fd size now mem
  unused : w.sel.fds fd = none
  heap : w'.heap = fun j => if j = w.nextConn then .live c else w.heap j
  fds : w'.sel.fds = setFd w.sel.fds fd (some (clientItem w.nextConn opRead))
  nextConn : w'.nextConn = w.nextConn + 1
  metrics : w'.metrics = w.metrics
  dohUtils : w'.dohUtils = w.dohUtils
  opened : ∀ f, w'.opened f = if f = fd then true else w.opened f

theorem acceptNewConnection_cases (w : World) (env : Env) :
    acceptNewConnection env w = w ∨
      ∃ fd c, Accepted w fd c (acceptNewConnection env w) := by
  unfold acceptNewConnection
  split
  · exact .inl rfl
  · next fd _ =>
      split
      · next hok =>
          rcases w.sel.register_cases fd .client opRead (.connection w.nextConn) with
            ⟨s, hreg, hnone, _, hfds⟩ | ⟨st, hreg, hst, _⟩
          · simp only [hreg]
            exact .inr ⟨fd, _, ⟨_, _, _, rfl⟩, hnone, rfl, hfds, rfl, rfl, rfl, fun _ => rfl⟩
          · simp only [hreg]
            split
            · next heq => exact absurd (Prod.mk.inj heq).1 hst
            · exact .inl rfl
      · exact .inl rfl

theorem Accepted.items {fd : Int} (h : Accepted w fd c w') (f : Int) (it : Item)
    (hit : it.data ≠ .connection w.nextConn) :
    w'.sel.fds f = some it ↔ w.sel.fds f = some it := by
  rw [h.fds]
  rcases Decidable.em (f = fd) with rfl | hne
  · rw [setFd_self, h.unused]
    simp only [Option.some.injEq, reduceCtorEq, iff_false]
    rintro rfl
    exact hit rfl
  · rw [setFd_of_ne hne]

theorem Accepted.sound {fd : Int} (h : Sound w) (ha : Accepted w fd c w') : Sound w' := by
  have hopened : ∀ f it, w'.sel.fds f = some it → w'.opened f = true := by
    intro f it hf
    rw [ha.opened]
    rw [ha.fds] at hf
    rcases setFd_eq_some hf with ⟨rfl, _⟩ | ⟨hne, hf'⟩
    · exact if_pos rfl
    · rw [if_neg hne]
      exact h.opened f it hf'
  obtain ⟨size, now, mem, rfl⟩ := ha.born
  have hfree : ∀ f it, w.sel.fds f = some it → it.data ≠ .connection w.nextConn := by
    intro f it hf hd
    obtain ⟨d, hlive⟩ := h.carried f it _ hf hd
    rw [h.unused _ (Nat.le_refl _)] at hlive
    cases hlive
  refine ⟨?_, ?_, ?_, hopened⟩
  · intro j d hd
    rw [ha.heap] at hd
    dsimp only at hd
    split at hd
    · next hj =>
        subst hj
        cases hd
        refine ⟨none, ⟨⟨rfl, ?_, (by intro i hi; cases hi), ?_,
          ⟨fun _ _ _ => Iff.rfl, rfl, hopened⟩⟩, ?_, fun _ => rfl, (by intro i hi; cases hi),
          fun _ => .inl rfl⟩⟩
        · change w'.sel.fds fd = _
          rw [ha.fds, setFd_self]
          rfl
        · intro f it hf hd
          change w'.sel.fds f = some it at hf
          rw [ha.fds] at hf
          rcases setFd_eq_some hf with ⟨rfl, _⟩ | ⟨_, hf'⟩
          · exact .inl rfl
          · exact absurd hd (hfree f it hf')
        · intro hc
          cases hc
    · next hj =>
        obtain ⟨oi, hr⟩ := h.resting j d hd
        exact ⟨oi, hr.untouched (Ne.symm hj) ha.items hopened⟩
  · intro f it j hf hd
    rw [ha.heap]
    dsimp only
    split
    · exact ⟨_, rfl⟩
    · next hj =>
        refine h.carried f it j ((ha.items f it ?_).mp hf) hd
        rw [hd]
        simpa using hj
  · intro j hj
    rw [ha.nextConn] at hj
    rw [ha.heap]
    dsimp only
    rw [if_neg (by omega)]
    exact h.unused j (by omega)

/-! ## Steps -/

/-- Nothing a connection could notice has happened. -/
structure Quiet (w w' : World) : Prop where
  sel : w'.sel = w.sel
  opened : w'.opened = w.opened
  heap : w'.heap = w.heap
  nextConn : w'.nextConn = w.nextConn
  metrics : w'.metrics = w.metrics
  dohUtils : w'.dohUtils = w.dohUtils

theorem Quiet.rfl' (w : World) : Quiet w w := ⟨rfl, rfl, rfl, rfl, rfl, rfl⟩

theorem Quiet.sound (h : Sound w) (hq : Quiet w w') : Sound w' := by
  refine ⟨?_, ?_, ?_, ?_⟩
  · intro id c hc
    rw [hq.heap] at hc
    obtain ⟨oi, hr⟩ := h.resting id c hc
    exact ⟨oi, hr.restart rfl rfl hq.sel hq.opened rfl⟩
  · rw [hq.sel, hq.heap]
    exact h.carried
  · rw [hq.nextConn, hq.heap]
    exact h.unused
  · rw [hq.sel, hq.opened]
    exact h.opened

/-- A handler call on behalf of a connection that is found at rest. -/
theorem onBehalfOf_served {env : Env} {got : Conn → Option Act}
    {f : Ctx → Except Fault Ctx} (hc : w.heap id = .live c)
    (hf : ∀ x, f (w.ctx id c) = .ok x →
      EventCourse env (w.ctx id c) (w.ctx id c) (got c) x)
    (hr : onBehalfOf w id f = .ok w') : Served env got w id w' := by
  unfold onBehalfOf at hr
  rw [hc] at hr
  obtain ⟨x, hx, hr⟩ := Lib.bind_eq_ok.mp hr
  cases hr
  exact ⟨c, x, hc, hf x hx, rfl⟩

/-- An item that carries a connection is one of that connection's two. -/
theorem Sound.item_cases (h : Sound w) {fd : Int} {it : Item}
    (hf : w.sel.fds fd = some it) (hd : it.data = .connection id) :
    ∃ c oi, w.heap id = .live c ∧ Rested (w.ctx id c) (w.ctx id c) oi ∧
      ((fd = c.clientFd ∧ it = clientItem id c.interests.1) ∨
        (fd = c.originFd ∧ oi = some c.interests.2 ∧ it = originItem id c.interests.2)) := by
  obtain ⟨c, hc⟩ := h.carried fd it id hf hd
  obtain ⟨oi, hr⟩ := h.resting id c hc
  refine ⟨c, oi, hc, hr, ?_⟩
  rcases hr.standing.only fd it hf hd with rfl | ⟨hsome, rfl⟩
  · exact .inl ⟨rfl, Option.some.inj (hf.symm.trans hr.standing.client)⟩
  · obtain ⟨i, rfl⟩ := Option.isSome_iff_exists.mp hsome
    obtain rfl := hr.waits i rfl
    exact .inr ⟨rfl, rfl, Option.some.inj (hf.symm.trans (hr.standing.origin _ rfl).1)⟩

/-- The event of an item is its connection's. -/
theorem Event.actor_of_item {fd : Int} {it : Item} (hf : w.sel.fds fd = some it)
    (hd : it.data = .connection id) (env : Env) :
    (Event.readable fd env).actor w = some id ∧ (Event.writable fd env).actor w = some id := by
  obtain ⟨i, k, data⟩ := it
  cases hd
  unfold Event.actor
  dsimp only
  rw [hf]
  exact ⟨rfl, rfl⟩

/-- The item an event is for. -/
theorem Event.item_of_actor {e : Event} (h : e.actor w = some id) :
    ∃ fd it env, (e = .readable fd env ∨ e = .writable fd env) ∧ w.sel.fds fd = some it ∧
      it.data = .connection id := by
  cases e with
  | garbageCollect => cases h
  | tick _ => cases h
  | readable fd env | writable fd env =>
      unfold Event.actor at h
      dsimp only at h
      split at h
      · next hf =>
          cases h
          exact ⟨fd, _, env, by simp, hf, rfl⟩
      · cases h

/-- A connection whose event is handled finds the number in `origin_fd` its
own, or nobody's. -/
theorem Undisturbed.reader {fd : Int} {it : Item} {env : Env}
    (hun : Undisturbed w (.readable fd env)) (hf : w.sel.fds fd = some it)
    (hd : it.data = .connection id) (hint : it.interest.read = true)
    (hc : w.heap id = .live c) : w.ownOrigin id c = true := by
  refine hun id c hc ?_
  have hawaited : (Event.readable fd env).awaited w = true := by
    rw [Event.awaited, hf]
    exact hint
  rw [Event.closes, (Event.actor_of_item hf hd env).1, hawaited]
  simp

theorem Undisturbed.writer {fd : Int} {it : Item} {env : Env}
    (hun : Undisturbed w (.writable fd env)) (hf : w.sel.fds fd = some it)
    (hd : it.data = .connection id) (hint : it.interest.write = true)
    (hc : w.heap id = .live c) (hpart : c.repliesInPart env = false) :
    w.ownOrigin id c = true := by
  refine hun id c hc ?_
  have hawaited : (Event.writable fd env).awaited w = true := by
    rw [Event.awaited, hf]
    exact hint
  rw [Event.closes, (Event.actor_of_item hf hd env).2, hawaited, hpart]
  simp

/-- A reported event, other than the sweep. -/
theorem handleRead_cases {env : Env} {fd : Int} {it : Item} (h : Sound w)
    (hun : Undisturbed w (.readable fd env)) (hf : w.sel.fds fd = some it)
    (hint : it.interest.read = true) (hr : handleRead env fd it w = .ok w') :
    Quiet w w' ∨ (∃ f c, Accepted w f c w') ∨
      ∃ id, it.data = .connection id ∧ Served env (brought env fd) w id w' := by
  unfold handleRead at hr
  split at hr
  · cases hr
    rcases acceptNewConnection_cases w env with he | ha
    · rw [he]
      exact .inl (.rfl' w)
    · exact .inr (.inl ha)
  · cases hr
    exact .inl ⟨rfl, rfl, rfl, rfl, rfl, rfl⟩
  · next id hh hd =>
      obtain ⟨c, oi, hc, hrest, ⟨rfl, rfl⟩ | ⟨_, _, rfl⟩⟩ := h.item_cases hf hd
      · have hrest' := hrest.of_ownOrigin (hun.reader hf hd hint hc)
        refine .inr (.inr ⟨id, hd, onBehalfOf_served hc (fun x hx => ?_) hr⟩)
        rw [brought, if_pos rfl]
        exact proxyClientRead_moves hrest' hint rfl hx
      · cases hh
  · next id hh hd =>
      obtain ⟨c, oi, hc, hrest, ⟨_, rfl⟩ | ⟨rfl, rfl, rfl⟩⟩ := h.item_cases hf hd
      · cases hh
      · refine .inr (.inr ⟨id, hd, onBehalfOf_served hc (fun x hx => ?_) hr⟩)
        rw [brought, if_neg (show c.originFd ≠ c.clientFd from hrest.standing.origin_ne_client)]
        exact proxyOriginRead_moves hrest.resting_some hint rfl hx
  · cases hr
  · cases hr
  · cases hr

theorem handleWrite_cases {env : Env} {fd : Int} {it : Item} (h : Sound w)
    (hun : Undisturbed w (.writable fd env)) (hf : w.sel.fds fd = some it)
    (hint : it.interest.write = true) (hr : handleWrite env it w = .ok w') :
    Quiet w w' ∨ ∃ id, it.data = .connection id ∧ Served env (fun _ => none) w id w' := by
  unfold handleWrite at hr
  split at hr
  · cases hr
  · cases hr
  · next id hh hd =>
      obtain ⟨c, oi, hc, hrest, ⟨rfl, rfl⟩ | ⟨_, _, rfl⟩⟩ := h.item_cases hf hd
      · refine .inr ⟨id, hd, onBehalfOf_served hc (fun x hx => ?_) hr⟩
        cases hpart : c.repliesInPart env with
        | true => exact proxyClientWrite_part_moves hrest hpart hx
        | false =>
            have hrest' := hrest.of_ownOrigin (hun.writer hf hd hint hc hpart)
            exact proxyClientWrite_moves hrest' hint hx
      · cases hh
  · next id hh hd =>
      obtain ⟨c, oi, hc, hrest, ⟨_, rfl⟩ | ⟨rfl, rfl, rfl⟩⟩ := h.item_cases hf hd
      · cases hh
      · exact .inr ⟨id, hd, onBehalfOf_served hc
          (fun x hx => proxyOriginWrite_moves hrest.resting_some hint hx) hr⟩
  · cases hr
  · cases hr
  · cases hr
    exact .inl (.rfl' w)

/-! ## The sweep -/

/-- The connection has been idle for too long. -/
def World.expired (w : World) (c : Conn) : Prop :=
  maxInactiveTime ≤ w.now - c.lastActionTime

/-- The sweep has closed and freed connection `id`. -/
def Collected (w : World) (id : Nat) (c : Conn) (w' : World) : Prop :=
  ∃ x, w.heap id = .live c ∧ w.expired c ∧ c.clientFd ≠ 1 ∧ c.clientFd ≠ 2 ∧
    x.conn = c ∧ x.world.metrics = c.uncounted (c.uncounted w.metrics) ∧
    Gone (w.ctx id c) x ∧ w' = x.finish

theorem Collected.turned (h : Collected w id c w') : Turned w id w' := by
  obtain ⟨x, hc, _, _, _, rfl, hm, hg, rfl⟩ := h
  have hmove : Move w.dohUtils ((w.ctx id x.conn).mid .rest) (x.mid .gone) := by
    rw [Ctx.mid, Ctx.mid, hm]
    exact .collect
  exact ⟨x.conn, x, hc, ⟨.gone, .single hmove, .inr ⟨rfl, hg⟩⟩, rfl⟩

theorem Collected.freed (h : Collected w id c w') : w'.heap id = .freed c := by
  obtain ⟨x, _, _, _, _, rfl, _, hg, rfl⟩ := h
  have hid : x.id = id := hg.frame.id
  change (if id = x.id then _ else _) = _
  rw [if_pos hid.symm, hg.freed, if_pos rfl]

theorem Collected.none_left (h : Collected w id c w') (f : Int) (it : Item)
    (hf : w'.sel.fds f = some it) : it.data ≠ .connection id := by
  obtain ⟨x, _, _, _, _, _, _, hg, rfl⟩ := h
  have hid : x.id = id := hg.frame.id
  exact hid ▸ hg.none_left f it hf

theorem Collected.now (h : Collected w id c w') : w'.now = w.now := by
  obtain ⟨x, _, _, _, _, _, _, hg, rfl⟩ := h
  exact hg.frame.now

/-- A finished handler that changed nothing has changed nothing. -/
theorem finish_ctx (hc : w.heap id = .live c) : (w.ctx id c).finish = w := by
  have hheap : (fun j => if j = id then Cell.live c else w.heap j) = w.heap := by
    funext j
    split
    · next hj => rw [hj, hc]
    · rfl
  change { w with heap := fun j => if j = id then Cell.live c else w.heap j } = w
  rw [hheap]

/-- A client's descriptor tells whose it is. -/
theorem Sound.client_item (h : Sound w) (hc : w.heap id = .live c) :
    ∃ i, w.sel.fds c.clientFd = some (clientItem id i) := by
  obtain ⟨oi, hr⟩ := h.resting id c hc
  exact ⟨_, hr.standing.client⟩

/-- What the sweep closes finds the number in its `origin_fd` its own, or
nobody's. -/
def Sweepable (w : World) : Prop :=
  ∀ id c, w.heap id = .live c → w.idle c = true → w.ownOrigin id c = true

theorem World.idle_iff : w.idle c = true ↔ w.expired c ∧ c.clientFd ≠ 1 ∧ c.clientFd ≠ 2 := by
  simp [World.idle, World.expired, and_assoc]

/-- One item of the sweep: the connection whose client it is is closed, if it
has been idle for too long. -/
theorem collect_cases {fd : Int} (h : Sound w) (hown : Sweepable w)
    (hr : collect fd w = .ok w') :
    (w' = w ∧ ∀ j d, w.heap j = .live d → d.clientFd = fd →
      ¬ (w.expired d ∧ fd ≠ 1 ∧ fd ≠ 2)) ∨
    ∃ id c, fd = c.clientFd ∧ Collected w id c w' := by
  unfold collect at hr
  split at hr
  · next i k id hf =>
      split at hr
      · next hfd =>
          cases hr
          refine .inl ⟨rfl, fun j d _ _ hs => ?_⟩
          rcases hfd with hfd | hfd
          · exact hs.2.2 hfd
          · exact hs.2.1 hfd
      · next hfd =>
          rw [not_or] at hfd
          obtain ⟨c, hc⟩ := h.carried fd _ id hf rfl
          obtain ⟨oi, hrest⟩ := h.resting id c hc
          unfold onBehalfOf at hr
          rw [hc] at hr
          obtain ⟨x, hx, hr⟩ := Lib.bind_eq_ok.mp hr
          cases hr
          have hfound : c.clientFd = fd → w.expired c →
              Resting (w.ctx id c) (w.ctx id c) oi := by
            rintro rfl hexp
            exact hrest.of_ownOrigin
              (hown id c hc (World.idle_iff.mpr ⟨hexp, hfd.2, hfd.1⟩))
          rcases connectionGarbageCollect_cases hfound hx with
            ⟨rfl, hnot⟩ | ⟨hcl, hexp, hconn, hm, hg⟩
          · refine .inl ⟨finish_ctx hc, fun j d hd hcl hs => ?_⟩
            obtain ⟨i', hit⟩ := h.client_item hd
            rw [hcl, hf] at hit
            cases hit
            rw [hc] at hd
            cases hd
            exact hnot ⟨hcl, hs.1⟩
          · have hcl : c.clientFd = fd := hcl
            refine .inr ⟨id, c, hcl.symm, x, hc, hexp, ?_, ?_, hconn, hm, hg, rfl⟩
            · rw [hcl]
              exact hfd.2
            · rw [hcl]
              exact hfd.1
  · next hnone =>
      cases hr
      refine .inl ⟨rfl, fun j d hd hcl _ => ?_⟩
      obtain ⟨i', hit⟩ := h.client_item hd
      rw [hcl] at hit
      exact hnone _ _ _ hit

theorem Collected.sweepable (hs : Sweepable w) (h : Collected w id c w') : Sweepable w' := by
  obtain ⟨hitems, hheap, hnext, _, _⟩ := h.turned.frame
  intro j d hd hidle
  have hj : j ≠ id := by
    rintro rfl
    rw [h.freed] at hd
    cases hd
  rw [hheap j hj] at hd
  have hidle : w.idle d = true := by
    unfold World.idle at hidle ⊢
    rwa [h.now] at hidle
  have hown := World.ownOrigin_iff.mp (hs j d hd hidle)
  rw [World.ownOrigin_iff]
  intro hact it hit
  rcases Decidable.em (it.data = .connection id) with hdata | hdata
  · exact absurd hdata (h.none_left _ it hit)
  · exact hown hact it ((hitems _ it hdata).mp hit)

/-- What every collection keeps, the sweep keeps. -/
theorem runGarbageCollector_keeps {I : World → Prop}
    (hI : ∀ w id c w', Sound w → I w → Collected w id c w' → I w') (is : List Nat) :
    ∀ {w : World}, Sound w → Sweepable w → I w → runGarbageCollector is w = .ok w' →
      Sound w' ∧ I w' := by
  induction is with
  | nil =>
      intro w h hs hw hr
      cases hr
      exact ⟨h, hw⟩
  | cons i is ih =>
      intro w h hs hw hr
      obtain ⟨w1, hcol, hrest⟩ := Lib.bind_eq_ok.mp hr
      rcases collect_cases h hs hcol with ⟨rfl, _⟩ | ⟨id, c, _, hc⟩
      · exact ih h hs hw hrest
      · exact ih (hc.turned.sound h) (hc.sweepable hs) (hI w id c w1 h hw hc) hrest

/-! ## A step of the daemon -/

/-- What the outside answers during the event. -/
def Event.env : Event → Option Env
  | .readable _ env | .writable _ env => some env
  | _ => none

/-- What the event brings the connection it is for. -/
def Event.brings (e : Event) (c : Conn) : Option Act :=
  match e with
  | .readable fd env => brought env fd c
  | _ => none

/-- The event is handled on behalf of connection `id`. -/
def Event.Serves (e : Event) (w : World) (id : Nat) (w' : World) : Prop :=
  ∃ env, e.env = some env ∧ Served env e.brings w id w'

theorem Event.Serves.turned {e : Event} (h : e.Serves w id w') : Turned w id w' := by
  obtain ⟨env, _, hs⟩ := h
  exact hs.turned

theorem Undisturbed.sweepable (hun : Undisturbed w .garbageCollect)
    (hdue : collectionInterval ≤ w.now - w.lastCollection) : Sweepable w := by
  intro id c hc hidle
  refine hun id c hc ?_
  rw [Event.closes, decide_eq_true hdue, hidle]
  rfl

/-- A step: nothing a connection notices, an accepted connection, an event of
one connection, or the sweep. -/
theorem step_cases {e : Event} (h : Sound w) (hun : Undisturbed w e)
    (hr : step w e = .ok w') :
    Quiet w w' ∨ (∃ fd c, Accepted w fd c w') ∨
      (∃ id, e.actor w = some id ∧ e.Serves w id w') ∨
      (e = .garbageCollect ∧ Sweepable w ∧ runGarbageCollector (List.range (w.sel.maxFd + 1))
        { w with lastCollection := w.now } = .ok w') := by
  cases e with
  | readable fd env =>
      unfold step at hr
      dsimp only at hr
      split at hr
      · next it hf =>
          split at hr
          · next hint =>
              rcases handleRead_cases h hun hf hint hr with hq | ha | ⟨id, hd, ht⟩
              · exact .inl hq
              · exact .inr (.inl ha)
              · exact .inr (.inr (.inl ⟨id, (Event.actor_of_item hf hd env).1, env, rfl, ht⟩))
          · cases hr
            exact .inl (.rfl' w)
      · cases hr
        exact .inl (.rfl' w)
  | writable fd env =>
      unfold step at hr
      dsimp only at hr
      split at hr
      · next it hf =>
          split at hr
          · next hint =>
              rcases handleWrite_cases h hun hf hint hr with hq | ⟨id, hd, ht⟩
              · exact .inl hq
              · exact .inr (.inr (.inl ⟨id, (Event.actor_of_item hf hd env).2, env, rfl, ht⟩))
          · cases hr
            exact .inl (.rfl' w)
      · cases hr
        exact .inl (.rfl' w)
  | garbageCollect =>
      unfold step at hr
      dsimp only at hr
      split at hr
      · next hdue => exact .inr (.inr (.inr ⟨rfl, hun.sweepable hdue, hr⟩))
      · cases hr
        exact .inl (.rfl' w)
  | tick n =>
      cases hr
      exact .inl ⟨rfl, rfl, rfl, rfl, rfl, rfl⟩

theorem Quiet.sweepable (hq : Quiet w w') (hnow : w'.now = w.now) (h : Sweepable w) :
    Sweepable w' := by
  intro j d hd hidle
  rw [hq.heap] at hd
  unfold World.idle at hidle
  rw [hnow] at hidle
  have hown := h j d hd hidle
  unfold World.ownOrigin at hown ⊢
  rwa [hq.sel]

/-- The induction over what a step can be made of: an invariant of quiet
changes, of accepted connections, of the event that is handled and of
collections is one of the step. -/
theorem step_keeps_served {I : World → Prop} {e : Event}
    (hquiet : ∀ w w', I w → Quiet w w' → I w')
    (haccept : ∀ w fd c w', Sound w → I w → Accepted w fd c w' → I w')
    (hserve : ∀ id, e.actor w = some id → e.Serves w id w' → I w')
    (hcollect : ∀ w id c w', Sound w → I w → Collected w id c w' → I w')
    (h : Sound w) (ha : Undisturbed w e) (hw : I w)
    (hr : step w e = .ok w') : Sound w' ∧ I w' := by
  rcases step_cases h ha hr with hq | ⟨fd, c, hacc⟩ | ⟨id, hact, hs⟩ | ⟨_, hswp, hsweep⟩
  · exact ⟨hq.sound h, hquiet w w' hw hq⟩
  · exact ⟨hacc.sound h, haccept w fd c w' h hw hacc⟩
  · exact ⟨hs.turned.sound h, hserve id hact hs⟩
  · have hq : Quiet w { w with lastCollection := w.now } := ⟨rfl, rfl, rfl, rfl, rfl, rfl⟩
    exact runGarbageCollector_keeps (I := I) hcollect (List.range (w.sel.maxFd + 1))
      (hq.sound h) (hq.sweepable rfl hswp) (hquiet _ _ hw hq) hsweep

/-- The same for what all turns keep. -/
theorem step_keeps {I : World → Prop} {e : Event}
    (hquiet : ∀ w w', I w → Quiet w w' → I w')
    (haccept : ∀ w fd c w', Sound w → I w → Accepted w fd c w' → I w')
    (hturn : ∀ w id w', Sound w → I w → Turned w id w' → I w')
    (h : Sound w) (ha : Undisturbed w e) (hw : I w)
    (hr : step w e = .ok w') : Sound w' ∧ I w' :=
  step_keeps_served hquiet haccept (fun id _ hs => hturn w id w' h hw hs.turned)
    (fun w1 id _ w2 h1 hw1 hc => hturn w1 id w2 h1 hw1 hc.turned) h ha hw hr

/-! ## The population -/

/-- The daemon as a population: a connection is a member from `accept` on, and
stays what it last was once it is freed. -/
def World.population (w : World) : Lib.Population (Phase × Conn) Metrics where
  member id :=
    match w.heap id with
    | .unused => none
    | .live c => some (.rest, c)
    | .freed c => some (.gone, c)
  next := w.nextConn
  shared := w.metrics

theorem member_live (hc : w.heap id = .live c) :
    w.population.member id = some (.rest, c) := by
  rw [World.population]
  dsimp only
  rw [hc]

theorem member_freed (hc : w.heap id = .freed c) :
    w.population.member id = some (.gone, c) := by
  rw [World.population]
  dsimp only
  rw [hc]

/-- What a member is when it is born. -/
def Born (s : Phase × Conn) : Prop :=
  ∃ fd size now mem, s = (.rest, createNewConnection fd size now mem)

/-- What a member does in its turn: an event, from rest to rest or to its
end. -/
def Acts (d : DohUtils) (s : Phase × Conn) (m : Metrics) (s' : Phase × Conn)
    (m' : Metrics) : Prop :=
  s.1 = .rest ∧ (s'.1 = .rest ∨ s'.1 = .gone) ∧ Steps d ⟨s.1, s.2, m⟩ ⟨s'.1, s'.2, m'⟩

theorem Quiet.population (h : Quiet w w') : w'.population = w.population := by
  rw [World.population, World.population, h.heap, h.nextConn, h.metrics]

theorem Accepted.population {fd : Int} (h : Accepted w fd c w') :
    Born (.rest, c) ∧ w'.population = w.population.birth (.rest, c) := by
  obtain ⟨size, now, mem, rfl⟩ := h.born
  refine ⟨⟨fd, size, now, mem, rfl⟩, ?_⟩
  have hmember : w'.population.member = (w.population.birth (.rest,
      createNewConnection fd size now mem)).member := by
    funext j
    simp only [World.population, Lib.Population.birth, h.heap]
    rcases Decidable.em (j = w.nextConn) with rfl | hj
    · rw [if_pos rfl, Function.update_self]
    · rw [if_neg hj, Function.update_of_ne hj]
  exact Lib.Population.ext hmember h.nextConn h.metrics

/-- A handler that has settled has moved its own member. -/
theorem Settled.population {ph : Phase} (hset : Settled (w.ctx id c) x ph)
    (ht : Turned w id x.finish) :
    x.finish.population = w.population.turn id (ph, x.conn) x.finish.metrics := by
  obtain ⟨_, hheap, hnext, _, _⟩ := ht.frame
  have hid : x.id = id := hset.frame.id
  have hself : x.finish.heap id = if x.freed then .freed x.conn else .live x.conn := by
    change (if id = x.id then _ else x.world.heap id) = _
    rw [if_pos hid.symm]
  have hmember : x.finish.population.member
      = (w.population.turn id (ph, x.conn) x.finish.metrics).member := by
    funext j
    simp only [World.population, Lib.Population.turn]
    rcases Decidable.em (j = id) with rfl | hj
    · rw [Function.update_self, hself]
      rcases hset with ⟨rfl, _, hr⟩ | ⟨rfl, hg⟩
      · rw [hr.standing.alive]
        rfl
      · rw [hg.freed]
        rfl
    · rw [Function.update_of_ne hj, hheap j hj]
  exact Lib.Population.ext hmember hnext rfl

theorem Turned.population (h : Turned w id w') :
    ∃ c s', w.heap id = .live c ∧ Acts w.dohUtils (.rest, c) w.metrics s' w'.metrics ∧
      w'.population = w.population.turn id s' w'.metrics := by
  have ht := h
  obtain ⟨c, x, hc, ⟨ph, hsteps, hset⟩, rfl⟩ := h
  have hph : ph = .rest ∨ ph = .gone := hset.imp And.left And.left
  exact ⟨c, (ph, x.conn), hc, ⟨rfl, hph, hsteps⟩, hset.population ht⟩

/-- The refinement: a step of the daemon is a chain of steps of the
population. -/
theorem step_population {e : Event} (h : Sound w) (ha : Undisturbed w e)
    (hr : step w e = .ok w') :
    Sound w' ∧ w'.dohUtils = w.dohUtils ∧
      Lib.Population.Steps Born (Acts w.dohUtils) w.population w'.population := by
  refine step_keeps (I := fun w1 => w1.dohUtils = w.dohUtils ∧
    Lib.Population.Steps Born (Acts w.dohUtils) w.population w1.population)
    ?_ ?_ ?_ h ha ⟨rfl, .refl⟩ hr
  · intro w1 w2 hI hq
    rw [hq.population, hq.dohUtils]
    exact hI
  · intro w1 fd c w2 _ hI hacc
    obtain ⟨hborn, hpop⟩ := hacc.population
    rw [hpop, hacc.dohUtils]
    exact ⟨hI.1, hI.2.tail (.birth hborn)⟩
  · intro w1 id w2 _ hI ht
    obtain ⟨c, s', hc, hact, hpop⟩ := ht.population
    rw [hpop, ht.frame.2.2.2.1]
    rw [hI.1] at hact
    exact ⟨hI.1, hI.2.tail (.turn (member_live hc) hact)⟩

/-! ## Lives -/

/-- Every connection, live or freed, has got where it is by moves. -/
theorem Life.steps {d : DohUtils} {a b : Mid} (h : Life d a.phase a.conn)
    (hs : Steps d a b) : Life d b.phase b.conn := by
  induction hs with
  | refl => exact h
  | tail _ hm ih => exact ih.move hm

end

theorem initWorld_sound (cfg : Config) : Sound (initWorld cfg) := by
  have hnone : ∀ f it id, cfg.selector.fds f = some it → it.data ≠ .connection id := by
    intro f it id
    unfold Config.selector
    have hfold : ∀ (ls : List (Int × FdHandler × Attachment)) (s : Selector),
        (∀ l ∈ ls, ∀ id, l.2.2 ≠ .connection id) →
        (∀ f it, s.fds f = some it → it.data ≠ .connection id) →
        ∀ f it, (ls.foldl (fun s l => (s.register l.1 l.2.1
          (if l.2.1 = .logger then opNoop else opRead) l.2.2).2) s).fds f = some it →
          it.data ≠ .connection id := by
      intro ls
      induction ls with
      | nil => exact fun s _ hs => hs
      | cons l ls ih =>
          intro s hl hs
          refine ih _ (fun l' hl' => hl l' (List.mem_cons_of_mem _ hl')) ?_
          intro f it hf
          dsimp only at hf
          rcases s.register_cases l.1 l.2.1 (if l.2.1 = .logger then opNoop else opRead)
            l.2.2 with ⟨s', hreg, _, _, hfds⟩ | ⟨st, hreg, _, _⟩
          · rw [hreg, hfds] at hf
            rcases setFd_eq_some hf with ⟨rfl, hit⟩ | ⟨_, hf'⟩
            · cases hit
              exact hl l List.mem_cons_self id
            · exact hs f it hf'
          · rw [hreg] at hf
            exact hs f it hf
    exact hfold cfg.listeners selectorNew cfg.no_connection (fun _ _ h => nomatch h) f it
  refine ⟨?_, ?_, ?_, ?_⟩
  · intro id c hc
    cases hc
  · intro f it id hf hd
    exact absurd hd (hnone f it id hf)
  · exact fun _ _ => rfl
  · intro f it hf
    change (cfg.held f || (cfg.selector.fds f).isSome) = true
    rw [show cfg.selector.fds f = some it from hf]
    simp

/-- A run of one connection is undisturbed: at most one was accepted before
each of its steps. -/
theorem alone_undisturbed {cfg : Config} {es : List Event} {w : World}
    (h : Lib.RunsWhen step (fun w _ => w.nextConn ≤ 1) (initWorld cfg) es w) :
    Lib.RunsWhen step Undisturbed (initWorld cfg) es w := by
  refine h.weaken_invariant (I := Sound) (fun w e w' hs hn hr => ?_)
    (fun w e hs hn => hs.undisturbed hn e) (initWorld_sound cfg)
  exact (step_population hs (hs.undisturbed hn e) hr).1

/-- In an undisturbed run every connection is a life of its own. -/
theorem lives {cfg : Config} {es : List Event} {w : World}
    (h : Lib.RunsWhen step Undisturbed (initWorld cfg) es w) :
    Sound w ∧ w.dohUtils = cfg.dohUtils ∧
      w.population.All fun s => Life cfg.dohUtils s.1 s.2 := by
  refine h.invariant (I := fun w => Sound w ∧ w.dohUtils = cfg.dohUtils ∧
    w.population.All fun s => Life cfg.dohUtils s.1 s.2) ?_
    ⟨initWorld_sound cfg, rfl, fun id s hs => by cases hs⟩
  intro w e w' ⟨hsound, hdoh, hall⟩ hun hr
  obtain ⟨hsound', hdoh', hpop⟩ := step_population hsound hun hr
  refine ⟨hsound', hdoh'.trans hdoh, hpop.all ?_ ?_ hall⟩
  · rintro s ⟨fd, size, now, mem, rfl⟩
    exact .accepted fd size now mem
  · rintro s m s' m' hlife ⟨_, _, hsteps⟩
    rw [hdoh] at hsteps
    exact Life.steps (a := ⟨s.1, s.2, m⟩) (b := ⟨s'.1, s'.2, m'⟩) hlife hsteps

/-- The life of a connection, live or freed. -/
theorem life_of_heap {cfg : Config} {es : List Event} {w : World} {id : Nat} {c : Conn}
    (h : Lib.RunsWhen step Undisturbed (initWorld cfg) es w)
    (hc : w.heap id = .live c ∨ w.heap id = .freed c) :
    ∃ ph, (ph = .rest ∨ ph = .gone) ∧ Life cfg.dohUtils ph c := by
  obtain ⟨_, _, hall⟩ := lives h
  rcases hc with hc | hc
  · exact ⟨.rest, .inl rfl, hall id _ (member_live hc)⟩
  · exact ⟨.gone, .inr rfl, hall id _ (member_freed hc)⟩

/-! ## A daemon to run

One proxy socket on a machine that answers nothing by itself: what a concrete
run needs beyond its events. -/

def loopback : Config where
  listeners := [(3, .proxy, .null)]
  held := fun fd => fd == 4
  no_connection := by simp
  dohUtils := initDoh (ascii "localhost") (ascii "127.0.0.1") (ascii "/dns-query") 8053
  disectorsEnabled := false

/-- A daemon with a management socket besides the proxy's. -/
def managed : Config where
  listeners := [(3, .proxy, .null), (4, .management, .null)]
  held := fun _ => false
  no_connection := by simp
  dohUtils := loopback.dohUtils
  disectorsEnabled := false

def Env.silent : Env where
  recv := none
  send := none
  connected := true
  socket := fun _ => none
  callocDoh := true
  callocAnswers := true
  accept := none
  allocConnection := true
  malloc := fun _ => 0
  datagram := none
  fuel := 100

/-- `Undisturbed`, computed. -/
def checkUndisturbed (w : World) (e : Event) : Bool :=
  (List.range w.nextConn).all fun id =>
    match w.heap id with
    | .live c => !e.closes w id c || w.ownOrigin id c
    | _ => true

theorem Sound.undisturbed_of_check {w : World} {e : Event} (h : Sound w)
    (hcheck : checkUndisturbed w e = true) : Undisturbed w e := by
  intro id c hc hcloses
  have hlt : id < w.nextConn := h.lt_nextConn (by rw [hc]; simp)
  have hid := List.all_eq_true.mp hcheck id (List.mem_range.mpr hlt)
  rw [hc] at hid
  simpa [hcloses] using hid

/-- Steps that are checked from a sound world on are undisturbed. -/
theorem Sound.undisturbed_of_checks {P : World → Event → Prop} {es : List Event} {w w' : World}
    (h : Sound w)
    (hr : Lib.RunsWhen step (fun u e => checkUndisturbed u e = true ∧ P u e) w es w') :
    Lib.RunsWhen step (fun u e => Undisturbed u e ∧ P u e) w es w' := by
  refine hr.weaken_invariant (I := Sound) (fun u e u' hs hc hr => ?_)
    (fun u e hs hc => ⟨hs.undisturbed_of_check hc.1, hc.2⟩) h
  exact (step_population hs (hs.undisturbed_of_check hc.1) hr).1

theorem checked_run {cfg : Config} {es : List Event} {w : World}
    (h : Lib.runChecked step checkUndisturbed es (initWorld cfg) = some w) :
    Lib.RunsWhen step Undisturbed (initWorld cfg) es w := by
  have hrun := Lib.runsWhen_of_runChecked
    (C := fun u e => checkUndisturbed u e = true ∧ True) (fun _ _ hc => ⟨hc, trivial⟩) h
  exact ((initWorld_sound cfg).undisturbed_of_checks hrun).weaken fun _ _ _ hc _ => hc.1

/-- What a condition on a live connection says of a world. -/
def World.liveAt (w : World) (id : Nat) (p : Conn → Bool) : Bool :=
  match w.heap id with
  | .live c => p c
  | _ => false

def World.first (w : World) (p : Conn → Bool) : Bool := w.liveAt 0 p

theorem World.liveAt_eq {w : World} {id : Nat} {p : Conn → Bool} (h : w.liveAt id p = true) :
    ∃ c, w.heap id = .live c ∧ p c = true := by
  unfold World.liveAt at h
  split at h
  · next c hc => exact ⟨c, hc, h⟩
  · cases h

/-- A run, computed, and what it has come to. -/
theorem computed_run {cfg : Config} {es : List Event} {p : World → Bool}
    (h : ((Lib.runChecked step checkUndisturbed es (initWorld cfg)).any p) = true) :
    ∃ w, Lib.RunsWhen step Undisturbed (initWorld cfg) es w ∧ p w = true := by
  obtain ⟨w, hw, hp⟩ := (Option.any_eq_true _ _).mp h
  exact ⟨w, checked_run hw, hp⟩

theorem first_run {cfg : Config} {es : List Event} {p : Conn → Bool}
    (h : ((Lib.runChecked step checkUndisturbed es (initWorld cfg)).any (·.first p)) = true) :
    ∃ w c, Lib.RunsWhen step Undisturbed (initWorld cfg) es w ∧ w.heap 0 = .live c ∧
      p c = true := by
  obtain ⟨w, hrun, hp⟩ := computed_run h
  obtain ⟨c, hc, hp⟩ := World.liveAt_eq hp
  exact ⟨w, c, hrun, hc, hp⟩

def getLiteral : Bytes := ascii "GET http://1.2.3.4/ HTTP/1.0\r\n"

/-- Three connections. The first gave both queries up and is in ERROR, with a
part of its reply sent; the number 6 in its `origin_fd` is the origin of the
third by now. The second is relayed, with bytes to send on. The origin of the
third has hung up. -/
def crowd : List Event :=
  [.readable 3 { Env.silent with accept := some 5 },
    .readable 5 { Env.silent with
      recv := some (ascii "GET http://a HTTP/1.0\r\n"), socket := fun _ => some 6 },
    .writable 6 Env.silent,
    .writable 6 { Env.silent with send := some 1000 },
    .readable 6 { Env.silent with recv := some [], socket := fun _ => some 6 },
    .writable 6 Env.silent,
    .writable 6 { Env.silent with send := some 1000 },
    .readable 6 { Env.silent with recv := some [] },
    .readable 3 { Env.silent with accept := some 7 },
    .readable 7 { Env.silent with recv := some getLiteral, socket := fun _ => some 8 },
    .writable 8 Env.silent,
    .writable 8 { Env.silent with send := some 1000 },
    .readable 7 { Env.silent with recv := some (ascii "hi") },
    .readable 3 { Env.silent with accept := some 9 },
    .readable 9 { Env.silent with recv := some getLiteral, socket := fun _ => some 6 },
    .writable 6 Env.silent,
    .writable 6 { Env.silent with send := some 1000 },
    .readable 6 { Env.silent with recv := some (ascii "HTTP/1.0 200 OK\r\n") },
    .readable 6 { Env.silent with recv := some [] },
    .writable 5 { Env.silent with send := some 5 }]

/-- The daemon stops there, and how. -/
def stops (r : Except Fault World) (f : Fault) : Bool :=
  match r with
  | .error g => g == f
  | .ok _ => false

theorem error_of_stops {r : Except Fault World} {f : Fault} (h : stops r f = true) :
    r = .error f := by
  cases r with
  | error g => rw [eq_of_beq h]
  | ok w => cases h

end HttpdProxy
