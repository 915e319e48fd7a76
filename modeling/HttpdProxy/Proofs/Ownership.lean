import HttpdProxy.Protocol.Moves

/-!
# Whose descriptor is whose

`View x₀ x ci oi` is what a handler may rely on about the selector while it
runs for the connection of `x`, which was `x₀` before the event:
the client's item is there, asks for `ci` and carries the connection; the
origin's item asks for `oi`, or there is none, and then nothing stands at the
number the record still holds unless the record says it is inactive; no other
item carries the connection; and nothing that carries another connection has
moved.

Every selector operation a handler makes is one rule here: what it does to
`ci` and `oi`, and that the view is kept.
-/

namespace HttpdProxy

/-! ## Projections of the updates -/

namespace Ctx

variable (x : Ctx) (c : Conn) (s : Selector) (f : Metrics → Metrics)

@[simp] theorem setConn_conn : (x.setConn c).conn = c := rfl
@[simp] theorem setConn_world : (x.setConn c).world = x.world := rfl
@[simp] theorem setConn_id : (x.setConn c).id = x.id := rfl
@[simp] theorem setConn_freed : (x.setConn c).freed = x.freed := rfl
@[simp] theorem setSel_conn : (x.setSel s).conn = x.conn := rfl
@[simp] theorem setSel_sel : (x.setSel s).world.sel = s := rfl
@[simp] theorem setSel_metrics : (x.setSel s).world.metrics = x.world.metrics := rfl
@[simp] theorem setSel_id : (x.setSel s).id = x.id := rfl
@[simp] theorem setSel_freed : (x.setSel s).freed = x.freed := rfl
@[simp] theorem setMetrics_conn : (x.setMetrics f).conn = x.conn := rfl
@[simp] theorem setMetrics_sel : (x.setMetrics f).world.sel = x.world.sel := rfl
@[simp] theorem setMetrics_metrics :
    (x.setMetrics f).world.metrics = f x.world.metrics := rfl
@[simp] theorem setMetrics_id : (x.setMetrics f).id = x.id := rfl
@[simp] theorem setInterest_conn (fd : Int) (i : Interest) :
    (x.setInterest fd i).conn = x.conn := rfl
@[simp] theorem setInterest_id (fd : Int) (i : Interest) :
    (x.setInterest fd i).id = x.id := rfl
@[simp] theorem setInterest_metrics (fd : Int) (i : Interest) :
    (x.setInterest fd i).world.metrics = x.world.metrics := rfl
@[simp] theorem setInterests_conn (i : Interest × Interest) :
    (x.setInterests i).conn = x.conn := rfl
@[simp] theorem setInterests_metrics (i : Interest × Interest) :
    (x.setInterests i).world.metrics = x.world.metrics := rfl
@[simp] theorem log_conn (a : Act) : (x.log a).conn = x.conn.log a := rfl
@[simp] theorem fail_conn (e : Errors) : (x.fail e).conn = x.conn.failed e := rfl
@[simp] theorem touch_conn : x.touch.conn = x.conn.touched x.world.now := rfl

end Ctx

/-! ## The frame -/

/-- Whom a handler runs for, and the world but for what a handler may change
in it. -/
def Ctx.kept (x : Ctx) : Nat × World :=
  (x.id,
    { x.world with
      sel := selectorNew
      opened := fun _ => false
      socketAt := fun _ => 0
      sockets := 0
      metrics := initMetrics })

/-- What a handler that started in `x₀` leaves alone: the items of everybody
else, and the rest of the world. -/
structure Frame (x₀ x : Ctx) : Prop where
  items : ∀ f it, it.data ≠ .connection x.id →
    (x.world.sel.fds f = some it ↔ x₀.world.sel.fds f = some it)
  kept : x.kept = x₀.kept
  opened : ∀ f it, x.world.sel.fds f = some it → x.world.opened f = true

namespace Frame

variable {x₀ x : Ctx} (h : Frame x₀ x)
include h

theorem id : x.id = x₀.id := congrArg (fun k => k.1) h.kept
theorem heap : x.world.heap = x₀.world.heap := congrArg (fun k => k.2.heap) h.kept
theorem nextConn : x.world.nextConn = x₀.world.nextConn :=
  congrArg (fun k => k.2.nextConn) h.kept
theorem dohUtils : x.world.dohUtils = x₀.world.dohUtils :=
  congrArg (fun k => k.2.dohUtils) h.kept
theorem now : x.world.now = x₀.world.now := congrArg (fun k => k.2.now) h.kept

end Frame

/-- The item of a connection's client, and of its origin. -/
def clientItem (id : Nat) (i : Interest) : Item := ⟨i, .client, .connection id⟩
def originItem (id : Nat) (i : Interest) : Item := ⟨i, .origin, .connection id⟩

/-- The two items of a connection, whoever has the number by now that it may
have given back. -/
structure Standing (x₀ x : Ctx) (ci : Interest) (oi : Option Interest) : Prop where
  alive : x.freed = false
  client : x.world.sel.fds x.conn.clientFd = some (clientItem x.id ci)
  origin : ∀ i, oi = some i →
    x.world.sel.fds x.conn.originFd = some (originItem x.id i) ∧
      x.conn.originStatus ≠ .inactiveStatus
  only : ∀ f it, x.world.sel.fds f = some it → it.data = .connection x.id →
    f = x.conn.clientFd ∨ (oi.isSome ∧ f = x.conn.originFd)
  frame : Frame x₀ x

structure View (x₀ x : Ctx) (ci : Interest) (oi : Option Interest) : Prop
    extends Standing x₀ x ci oi where
  stale : oi = none →
    x.conn.originStatus = .inactiveStatus ∨ x.world.sel.fds x.conn.originFd = none

namespace Standing

variable {x₀ : Ctx} {x : Ctx} {ci : Interest} {oi : Option Interest}

/-- The two sockets of a connection are two descriptors. -/
theorem origin_ne_client {i : Interest} (h : Standing x₀ x ci (some i)) :
    x.conn.originFd ≠ x.conn.clientFd := by
  intro he
  obtain ⟨ho, _⟩ := h.origin i rfl
  rw [he, h.client] at ho
  cases ho

theorem setConn {c : Conn} (h : Standing x₀ x ci oi) (hc : c.clientFd = x.conn.clientFd)
    (ho : c.originFd = x.conn.originFd)
    (hs : c.originStatus = .inactiveStatus ↔ x.conn.originStatus = .inactiveStatus) :
    Standing x₀ (x.setConn c) ci oi where
  alive := h.alive
  client := by rw [Ctx.setConn_conn, hc]; exact h.client
  origin i hi := by
    rw [Ctx.setConn_conn, ho, ne_eq, hs]
    exact h.origin i hi
  only := by rw [Ctx.setConn_conn, hc, ho]; exact h.only
  frame := ⟨h.frame.items, h.frame.kept, h.frame.opened⟩

theorem setMetrics {f : Metrics → Metrics} (h : Standing x₀ x ci oi) :
    Standing x₀ (x.setMetrics f) ci oi where
  alive := h.alive
  client := h.client
  origin := h.origin
  only := h.only
  frame := ⟨h.frame.items, h.frame.kept, h.frame.opened⟩

end Standing

namespace View

variable {x₀ : Ctx} {x : Ctx} {ci : Interest} {oi : Option Interest}

theorem setConn {c : Conn} (h : View x₀ x ci oi) (hc : c.clientFd = x.conn.clientFd)
    (ho : c.originFd = x.conn.originFd)
    (hs : c.originStatus = .inactiveStatus ↔ x.conn.originStatus = .inactiveStatus) :
    View x₀ (x.setConn c) ci oi where
  toStanding := h.toStanding.setConn hc ho hs
  stale hi := by
    rw [Ctx.setConn_conn, ho, hs]
    exact h.stale hi

theorem setMetrics {f : Metrics → Metrics} (h : View x₀ x ci oi) :
    View x₀ (x.setMetrics f) ci oi where
  toStanding := h.toStanding.setMetrics
  stale := h.stale

/-! ## Interests -/

/-- An interest set on an item of the connection touches nobody else. -/
theorem frame_setInterest {fd : Int} {i j : Interest} {k : FdHandler} (h : Frame x₀ x)
    (hfd : x.world.sel.fds fd = some ⟨j, k, .connection x.id⟩) :
    Frame x₀ (x.setInterest fd i) where
  items f it hit := by
    simp only [Ctx.setInterest, Ctx.setSel_sel, Selector.setInterest_fds, hfd]
    rcases Decidable.em (f = fd) with rfl | hne
    · rw [setFd_self, ← h.items f it hit, hfd]
      simp only [Option.map_some, Option.some.injEq]
      constructor <;> rintro rfl <;> exact absurd rfl hit
    · rw [setFd_of_ne hne]
      exact h.items f it hit
  kept := h.kept
  opened f it hf := by
    simp only [Ctx.setInterest, Ctx.setSel_sel, Selector.setInterest_fds, hfd] at hf
    rcases setFd_eq_some hf with ⟨rfl, _⟩ | ⟨_, hf'⟩
    · exact h.opened f _ hfd
    · exact h.opened f it hf'

theorem setInterest_client (h : View x₀ x ci oi) (i : Interest) :
    View x₀ (x.setInterest x.conn.clientFd i) i oi where
  alive := h.alive
  client := by
    simp [Ctx.setInterest, Selector.setInterest_fds, h.client, clientItem]
  origin j hj := by
    subst hj
    have hne := h.origin_ne_client
    simp only [Ctx.setInterest, Ctx.setSel_sel, Ctx.setSel_conn, Selector.setInterest_fds]
    rw [setFd_of_ne hne]
    exact h.origin j rfl
  stale hj := by
    refine (h.stale hj).imp_right fun hn => ?_
    have hne : x.conn.originFd ≠ x.conn.clientFd := by
      intro he
      rw [he, h.client] at hn
      cases hn
    simp only [Ctx.setInterest, Ctx.setSel_sel, Ctx.setSel_conn, Selector.setInterest_fds]
    rwa [setFd_of_ne hne]
  only f it hf hd := by
    simp only [Ctx.setInterest, Ctx.setSel_sel, Selector.setInterest_fds] at hf
    rcases setFd_eq_some hf with ⟨rfl, _⟩ | ⟨_, hf'⟩
    · exact .inl rfl
    · exact h.only f it hf' hd
  frame := frame_setInterest h.frame h.client

theorem setInterest_origin {j : Interest} (h : View x₀ x ci (some j)) (i : Interest) :
    View x₀ (x.setInterest x.conn.originFd i) ci (some i) where
  alive := h.alive
  client := by
    have hne := h.origin_ne_client
    simp only [Ctx.setInterest, Ctx.setSel_sel, Ctx.setSel_conn, Selector.setInterest_fds]
    rw [setFd_of_ne hne.symm]
    exact h.client
  origin k hk := by
    cases hk
    obtain ⟨ho, hs⟩ := h.origin j rfl
    refine ⟨?_, hs⟩
    simp [Ctx.setInterest, Selector.setInterest_fds, ho, originItem]
  stale hj := by cases hj
  only f it hf hd := by
    simp only [Ctx.setInterest, Ctx.setSel_sel, Selector.setInterest_fds] at hf
    rcases setFd_eq_some hf with ⟨rfl, _⟩ | ⟨_, hf'⟩
    · exact .inr ⟨rfl, rfl⟩
    · exact (h.only f it hf' hd).imp_right fun hr => ⟨rfl, hr.2⟩
  frame := frame_setInterest h.frame (h.origin j rfl).1

theorem setInterests {j : Interest} (h : View x₀ x ci (some j)) (i : Interest × Interest) :
    View x₀ (x.setInterests i) i.1 (some i.2) :=
  (h.setInterest_client i.1).setInterest_origin i.2

/-- Setting an interest at a number where nothing stands changes nothing. -/
theorem setInterest_none {fd : Int} {i : Interest} (hn : x.world.sel.fds fd = none) :
    x.setInterest fd i = x := by
  have hs : x.world.sel.setInterest fd i = x.world.sel := by
    unfold Selector.setInterest
    split
    · rfl
    · next it h => rw [hn] at h; cases h
  rw [Ctx.setInterest, hs]
  rfl

/-! ## Sockets -/

/-- Nothing stands at a number the kernel has closed. -/
theorem fds_eq_none_of_fresh {fd : Int} (h : Frame x₀ x) (hf : x.world.fresh fd = true) :
    x.world.sel.fds fd = none := by
  cases hfd : x.world.sel.fds fd with
  | none => rfl
  | some it =>
      have ho := h.opened fd it hfd
      simp [World.fresh, ho] at hf

/-- No item stands at a negative number. -/
theorem fds_neg_one (s : Selector) : s.fds (-1) = none := by
  cases hfd : s.fds (-1) with
  | none => rfl
  | some it =>
      have hr := s.used_range (-1) it hfd
      omega

/-- `origin_fd = establish_origin_connection(..)`: no socket, and the record
holds -1; or a socket, at a number nothing stands at. -/
theorem openOrigin_cases (h : View x₀ x ci none) (env : Env) (peer : Peer)
    (addr : Sockaddr) :
    ∃ x', openOrigin env peer addr x = x' ∧ View x₀ x' ci none ∧
      x'.world.metrics = x.world.metrics ∧ x'.world.sel.fds x'.conn.originFd = none ∧
      x'.opens = x.opens + 1 ∧
      (x'.conn = x.conn.unopened peer addr ∧ x'.world = x.world ∧
          (∀ fd, env.socket x.opens = some fd → x.world.fresh fd = false) ∨
        ∃ fd, env.socket x.opens = some fd ∧ 0 ≤ fd ∧ x'.world.opened fd = true ∧
          x'.conn = { x.conn.log (.opened fd peer addr) with originFd := fd }) := by
  have hrefused : ∀ x' : Ctx,
      x' = (({ x with opens := x.opens + 1 }.log (.unopened peer addr)).setConn
        (x.conn.unopened peer addr)) →
      View x₀ x' ci none ∧ x'.world.metrics = x.world.metrics ∧
        x'.world.sel.fds x'.conn.originFd = none ∧ x'.opens = x.opens + 1 ∧
        x'.conn = x.conn.unopened peer addr ∧ x'.world = x.world := by
    intro x' he
    subst he
    refine ⟨⟨⟨h.alive, h.client, (by intro i hi; cases hi), ?_, ?_⟩, ?_⟩, rfl,
      fds_neg_one _, rfl, rfl, rfl⟩
    · intro f it hf hd
      exact .inl ((h.only f it hf hd).resolve_right (by simp))
    · exact ⟨h.frame.items, h.frame.kept,
        h.frame.opened⟩
    · intro _
      exact .inr (fds_neg_one _)
  unfold openOrigin establishOriginConnection
  simp only
  cases hsock : env.socket x.opens with
  | none =>
      obtain ⟨hv, hm, hn, ho, hc, hw⟩ := hrefused _ rfl
      exact ⟨_, rfl, hv, hm, hn, ho, .inl ⟨hc, hw, (by intro fd hfd; cases hfd)⟩⟩
  | some fd =>
      by_cases hf : x.world.fresh fd = true
      · have hn : x.world.sel.fds fd = none := fds_eq_none_of_fresh h.frame hf
        have h0 : 0 ≤ fd := by
          simp only [World.fresh, Bool.and_eq_true, decide_eq_true_eq] at hf
          exact hf.1
        simp only [hf, if_true]
        refine ⟨_, rfl, ⟨⟨h.alive, h.client, (by intro i hi; cases hi), ?_, ?_⟩, ?_⟩, rfl,
          hn, rfl, .inr ⟨fd, rfl, h0, if_pos rfl, rfl⟩⟩
        · intro f it hf' hd
          exact .inl ((h.only f it hf' hd).resolve_right (by simp))
        · refine ⟨h.frame.items, h.frame.kept, ?_⟩
          intro f it hf'
          change (if f = fd then true else x.world.opened f) = true
          split
          · rfl
          · exact h.frame.opened f it hf'
        · intro _
          exact .inr hn
      · simp only [hf]
        obtain ⟨hv, hm, hn, ho, hc, hw⟩ := hrefused _ rfl
        refine ⟨_, rfl, hv, hm, hn, ho, .inl ⟨hc, hw, ?_⟩⟩
        intro fd' hfd
        cases hfd
        simpa using hf

/-- The origin's item is put where nothing stood. -/
theorem added {c : Conn} {s : Selector} {i : Interest} (h : View x₀ x ci none)
    (hc : c.clientFd = x.conn.clientFd) (hst : c.originStatus ≠ .inactiveStatus)
    (hn : x.world.sel.fds c.originFd = none) (ho : x.world.opened c.originFd = true)
    (hs : s.fds = setFd x.world.sel.fds c.originFd (some (originItem x.id i))) :
    View x₀ ((x.setConn c).setSel s) ci (some i) where
  alive := h.alive
  client := by
    have hne : c.originFd ≠ x.conn.clientFd := by
      intro he
      rw [he, h.client] at hn
      cases hn
    rw [Ctx.setSel_sel, Ctx.setSel_conn, Ctx.setConn_conn, hc, hs, setFd_of_ne hne.symm]
    exact h.client
  origin j hj := by
    cases hj
    rw [Ctx.setSel_sel, Ctx.setSel_conn, Ctx.setConn_conn, hs, setFd_self]
    exact ⟨rfl, hst⟩
  stale hj := by cases hj
  only f it hf hd := by
    rw [Ctx.setSel_sel, hs] at hf
    rw [Ctx.setSel_conn, Ctx.setConn_conn, hc]
    rcases setFd_eq_some hf with ⟨rfl, _⟩ | ⟨_, hf'⟩
    · exact .inr ⟨rfl, rfl⟩
    · exact .inl ((h.only f it hf' hd).resolve_right (by simp))
  frame := by
    refine ⟨?_, h.frame.kept, ?_⟩
    · intro f it hit
      rw [Ctx.setSel_sel, hs]
      rcases Decidable.em (f = c.originFd) with rfl | hne
      · rw [setFd_self, ← h.frame.items _ it hit, hn]
        simp only [Option.some.injEq, reduceCtorEq, iff_false]
        rintro rfl
        exact hit rfl
      · rw [setFd_of_ne hne]
        exact h.frame.items f it hit
    · intro f it hf
      rw [Ctx.setSel_sel, hs] at hf
      rcases setFd_eq_some hf with ⟨rfl, _⟩ | ⟨_, hf'⟩
      · exact ho
      · exact h.frame.opened f it hf'

/-- `register_origin_socket` where nothing stands: the item is in, or the
selector refused a number it cannot hold. -/
theorem registerOriginSocket_cases (h : View x₀ x ci none)
    (hn : x.world.sel.fds x.conn.originFd = none)
    (ho : x.world.opened x.conn.originFd = true) :
    ∃ status x', registerOriginSocket x = (status, x') ∧
      x'.conn = { x.conn with originStatus := .activeStatus } ∧
      x'.world.metrics = x.world.metrics ∧
      (status = .success ∧ View x₀ x' ci (some opWrite) ∨
        status ≠ .success ∧ View x₀ x' ci none ∧
          x'.world.sel.fds x'.conn.originFd = none ∧
          invalidFd x.conn.originFd = true) := by
  unfold registerOriginSocket
  simp only [Ctx.setConn_conn, Ctx.setConn_world, Ctx.setConn_id]
  rcases x.world.sel.register_cases x.conn.originFd .origin opWrite (.connection x.id) with
    ⟨s, hreg, _, _, hfds⟩ | ⟨st, hreg, hst, hbad⟩
  · rw [hreg]
    exact ⟨_, _, rfl, rfl, rfl, .inl ⟨rfl, h.added rfl (by simp) hn ho hfds⟩⟩
  · rw [hreg]
    refine ⟨_, _, rfl, rfl, rfl, .inr ⟨hst, ?_, hn, ?_⟩⟩
    · refine ⟨⟨h.alive, h.client, (by intro i hi; cases hi), h.only, ?_⟩, fun _ => .inr hn⟩
      exact ⟨h.frame.items, h.frame.kept, h.frame.opened⟩
    · rw [hn] at hbad
      simpa using hbad

/-! ## Unregistering -/

/-- `selector_unregister_fd` on the origin's own item. -/
theorem unregister_origin {i : Interest} (h : View x₀ x ci (some i)) :
    ∃ x', selectorUnregisterFd x x.conn.originFd = .ok (.success, x') ∧
      x'.conn = x.conn ∧ x'.world.metrics = x.world.metrics ∧ View x₀ x' ci none ∧
      x'.world.sel.fds x'.conn.originFd = none ∧ x'.opens = x.opens ∧
      (∀ f, x'.world.opened f = if f = x.conn.originFd then false else x.world.opened f) := by
  obtain ⟨ho, hs⟩ := h.origin i rfl
  have hv : invalidFd x.conn.originFd = false := by
    have hr := x.world.sel.used_range _ _ ho
    simp only [invalidFd, Bool.or_eq_false_iff, decide_eq_false_iff_not]
    omega
  have hne := h.origin_ne_client
  unfold selectorUnregisterFd
  simp only [hv, ho, originItem, handleClose]
  refine ⟨_, rfl, rfl, rfl, ⟨⟨h.alive, ?_, (by intro j hj; cases hj), ?_, ?_⟩, ?_⟩, ?_,
    rfl, fun _ => rfl⟩
  · rw [Ctx.setSel_sel, Selector.clear_fds]
    exact (setFd_of_ne hne.symm).trans h.client
  · intro f it hf hd
    rw [Ctx.setSel_sel, Selector.clear_fds] at hf
    rcases setFd_eq_some hf with ⟨_, hnone⟩ | ⟨hf1, hf'⟩
    · cases hnone
    · rcases h.only f it hf' hd with hl | ⟨_, hr⟩
      · exact .inl hl
      · exact absurd hr hf1
  · refine ⟨?_, h.frame.kept, ?_⟩
    · intro f it hit
      rw [Ctx.setSel_sel, Selector.clear_fds]
      rcases Decidable.em (f = x.conn.originFd) with rfl | hf1
      · rw [setFd_self, ← h.frame.items _ it hit, ho]
        simp only [reduceCtorEq, Option.some.injEq, false_iff]
        rintro rfl
        exact hit rfl
      · rw [setFd_of_ne hf1]
        exact h.frame.items f it hit
    · intro f it hf
      rw [Ctx.setSel_sel, Selector.clear_fds] at hf
      rcases setFd_eq_some hf with ⟨_, hnone⟩ | ⟨hf1, hf'⟩
      · cases hnone
      · change (if f = x.conn.originFd then false else x.world.opened f) = true
        rw [if_neg hf1]
        exact h.frame.opened f it hf'
  · intro _
    rw [Ctx.setSel_sel, Selector.clear_fds]
    exact .inr (setFd_self _ _ _)
  · rw [Ctx.setSel_sel, Selector.clear_fds]
    exact setFd_self _ _ _

/-- `selector_unregister_fd` at a number where nothing stands. -/
theorem unregister_none {fd : Int} (hn : x.world.sel.fds fd = none) :
    selectorUnregisterFd x fd = .ok (.iargs, x) := by
  unfold selectorUnregisterFd
  split
  · rfl
  · rw [hn]

end View

/-- What a freed connection leaves behind: no item that carries it. -/
structure Gone (x₀ : Ctx) (x : Ctx) : Prop where
  freed : x.freed = true
  none_left : ∀ f it, x.world.sel.fds f = some it → it.data ≠ .connection x.id
  frame : Frame x₀ x

/-- `selector_unregister_fd` on the client's item, once the origin has none:
the connection is freed. -/
theorem View.unregister_client {x₀ : Ctx} {x : Ctx} {ci : Interest}
    (h : View x₀ x ci none) :
    ∃ st x', selectorUnregisterFd x x.conn.clientFd = .ok (st, x') ∧
      x'.conn = x.conn ∧ x'.world.metrics = x.world.metrics ∧ Gone x₀ x' := by
  have hv : invalidFd x.conn.clientFd = false := by
    have hr := x.world.sel.used_range _ _ h.client
    simp only [invalidFd, Bool.or_eq_false_iff, decide_eq_false_iff_not]
    omega
  unfold selectorUnregisterFd
  simp only [hv, h.client, clientItem, handleClose, proxyClientClose, h.alive, if_true]
  refine ⟨_, _, rfl, rfl, rfl, rfl, ?_, ?_, h.frame.kept, ?_⟩
  · intro f it hf hd
    rw [Ctx.setSel_sel, Selector.clear_fds] at hf
    rcases setFd_eq_some hf with ⟨_, hnone⟩ | ⟨hne, hf'⟩
    · cases hnone
    · exact hne ((h.only f it hf' hd).resolve_right (by simp))
  · intro f it hit
    rw [Ctx.setSel_sel, Selector.clear_fds]
    rcases Decidable.em (f = x.conn.clientFd) with rfl | hf1
    · rw [setFd_self, ← h.frame.items _ it hit, h.client]
      simp only [reduceCtorEq, Option.some.injEq, false_iff]
      rintro rfl
      exact hit rfl
    · rw [setFd_of_ne hf1]
      exact h.frame.items f it hit
  · intro f it hf
    rw [Ctx.setSel_sel, Selector.clear_fds] at hf
    rcases setFd_eq_some hf with ⟨_, hnone⟩ | ⟨hf1, hf'⟩
    · cases hnone
    · change (if f = x.conn.clientFd then false else x.world.opened f) = true
      rw [if_neg hf1]
      exact h.frame.opened f it hf'

end HttpdProxy
