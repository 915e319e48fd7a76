import HttpdProxy.Proofs.Daemon
import HttpdProxy.Proofs.Frames

/-!
# Buffers and the memory behind them

`create_new_connection` allocates as many bytes as the current setting says
and gives both buffers the limit `BUFFER_SIZE` all the same. Nothing a handler
does changes a limit or an allocation, whatever descriptors it works on and
whosever they are: `SameSizes` says so of one event, and the buffers of a
connection stay what the setting made them when it was accepted (`step_full`).
-/

namespace HttpdProxy

/-! ## Handlers keep every size -/

def Cell.sizes : Cell → Option ((Nat × Nat) × (Nat × Nat))
  | .unused => none
  | .live c | .freed c => some c.sizes

/-- From `x` to `x'` no buffer of any connection changed its size. -/
structure SameSizes (x x' : Ctx) : Prop where
  id : x'.id = x.id
  conn : x'.conn.sizes = x.conn.sizes
  heap : ∀ j, (x'.world.heap j).sizes = (x.world.heap j).sizes
  nextConn : x'.world.nextConn = x.world.nextConn
  settings : x'.world.settings = x.world.settings

theorem SameSizes.rfl' (x : Ctx) : SameSizes x x := ⟨rfl, rfl, fun _ => rfl, rfl, rfl⟩

theorem SameSizes.trans {x y z : Ctx} (h : SameSizes x y) (h' : SameSizes y z) :
    SameSizes x z where
  id := h'.id.trans h.id
  conn := h'.conn.trans h.conn
  heap j := (h'.heap j).trans (h.heap j)
  nextConn := h'.nextConn.trans h.nextConn
  settings := h'.settings.trans h.settings

/-- A connection that a close handler frees keeps its buffers. -/
theorem handleClose_sizes {x x' : Ctx} {h : FdHandler} {key : SelectorKey}
    (hr : handleClose h key x = .ok x') : SameSizes x x' := by
  cases h with
  | client =>
      have hr' : proxyClientClose key x = .ok x' := hr
      unfold proxyClientClose at hr'
      split at hr'
      · next id _ =>
          split at hr'
          · split at hr'
            · cases hr'
            · cases hr'
              exact ⟨rfl, rfl, fun _ => rfl, rfl, rfl⟩
          · split at hr'
            · next c hc =>
                cases hr'
                refine ⟨rfl, rfl, fun j => ?_, rfl, rfl⟩
                show Cell.sizes (if j = id then _ else _) = _
                by_cases hj : j = id
                · rw [if_pos hj, hj, hc]
                  rfl
                · rw [if_neg hj]
                  rfl
            · cases hr'
      · cases hr'
  | origin | management =>
      cases hr
      exact ⟨rfl, rfl, fun _ => rfl, rfl, rfl⟩
  | proxy | logger =>
      cases hr
      exact .rfl' x

theorem sameSizes_stable (env : Env) : Stable env SameSizes where
  refl := SameSizes.rfl'
  trans := SameSizes.trans
  setConn h := ⟨rfl, h, fun _ => rfl, rfl, rfl⟩
  setMetrics _ _ := ⟨rfl, rfl, fun _ => rfl, rfl, rfl⟩
  setInterest _ _ _ := ⟨rfl, rfl, fun _ => rfl, rfl, rfl⟩
  asked _ := ⟨rfl, rfl, fun _ => rfl, rfl, rfl⟩
  opened _ _ _ _ _ := ⟨rfl, rfl, fun _ => rfl, rfl, rfl⟩
  registered _ := ⟨rfl, rfl, fun _ => rfl, rfl, rfl⟩
  unregistered _ _ _ _ _ hr := by
    have h := handleClose_sizes hr
    exact ⟨h.id, h.conn, h.heap, h.nextConn, h.settings⟩

/-! ## The daemon -/

/-- From `w` to `w'` no buffer of a connection that was there changed its
size, and no connection was added. -/
structure World.SameSizes (w w' : World) : Prop where
  heap : ∀ j, (w'.heap j).sizes = (w.heap j).sizes
  nextConn : w'.nextConn = w.nextConn

theorem onBehalfOf_sizes {w : World} {id : Nat} {f : Ctx → Except Fault Ctx}
    (hf : ∀ x, Respects SameSizes x (f x)) : Lib.Returns (onBehalfOf w id f) w.SameSizes := by
  unfold onBehalfOf
  split
  · next c hc =>
      refine Lib.returns_bind (hf _) fun x hx => Lib.returns_ok ⟨fun j => ?_, hx.nextConn⟩
      show Cell.sizes (if j = x.id then _ else _) = _
      by_cases hj : j = x.id
      · have hid : j = id := hj.trans hx.id
        rw [if_pos hj, hid, hc]
        have hconn : x.conn.sizes = c.sizes := hx.conn
        split
        · exact congrArg some hconn
        · exact congrArg some hconn
      · rw [if_neg hj]
        exact hx.heap j
  · exact Lib.returns_error _

theorem collect_sizes {w : World} (fd : Int) : Lib.Returns (collect fd w) w.SameSizes := by
  unfold collect
  split
  · split
    · exact Lib.returns_ok ⟨fun _ => rfl, rfl⟩
    · exact onBehalfOf_sizes fun x => connectionGarbageCollect_respects (sameSizes_stable Env.silent) fd
  · exact Lib.returns_ok ⟨fun _ => rfl, rfl⟩

theorem runGarbageCollector_sizes (is : List Nat) :
    ∀ w : World, Lib.Returns (runGarbageCollector is w) w.SameSizes := by
  induction is with
  | nil => exact fun w => Lib.returns_ok ⟨fun _ => rfl, rfl⟩
  | cons i is ih =>
      intro w
      refine Lib.returns_bind (collect_sizes (i : Int)) fun u hu => ?_
      refine Lib.Returns.mono (ih u) fun v hv => ?_
      exact ⟨fun j => (hv.heap j).trans (hu.heap j), hv.nextConn.trans hu.nextConn⟩

/-- The descriptor `accept_new_connection` makes a connection for: there is
one to accept, the allocations succeed and the selector takes it. -/
def accepts (env : Env) (w : World) : Bool :=
  match env.accept with
  | none => false
  | some fd =>
      w.fresh fd && env.allocConnection &&
        (w.sel.register fd .client opRead (.connection w.nextConn)).1 == .success

/-- The event makes the daemon accept a connection. -/
def Event.accepts (w : World) : Event → Bool
  | .readable fd env =>
      match w.sel.fds fd with
      | some item => item.interest.read && item.handler == .proxy && HttpdProxy.accepts env w
      | none => false
  | _ => false

/-- The buffers a connection is given under a setting of the buffer size. -/
def givenSizes (buffersSize : UInt64) : (Nat × Nat) × (Nat × Nat) :=
  ((bufferSize, buffersSize.toNat), (bufferSize, buffersSize.toNat))

/-- What an accepted connection is to the sizes. -/
structure World.Grew (w w' : World) : Prop where
  new : (w'.heap w.nextConn).sizes = some (givenSizes w.settings.buffersSize)
  live : ∃ c, w'.heap w.nextConn = .live c
  old : ∀ j, j ≠ w.nextConn → (w'.heap j).sizes = (w.heap j).sizes

theorem acceptNewConnection_sizes (env : Env) (w : World) :
    (accepts env w = true ∧ w.Grew (acceptNewConnection env w)) ∨
      (accepts env w = false ∧ acceptNewConnection env w = w) := by
  unfold accepts acceptNewConnection
  cases env.accept with
  | none => exact .inr ⟨rfl, rfl⟩
  | some fd =>
      simp only
      by_cases hfree : (w.fresh fd && env.allocConnection) = true
      · rw [if_pos hfree, hfree, Bool.true_and]
        rcases hreg : w.sel.register fd .client opRead (.connection w.nextConn) with ⟨st, s⟩
        cases st with
        | success =>
            refine .inl ⟨rfl, ?_, ⟨_, if_pos rfl⟩, fun j hj => ?_⟩
            · show Cell.sizes (if w.nextConn = w.nextConn then _ else _) = _
              rw [if_pos rfl]
              rfl
            · show Cell.sizes (if j = w.nextConn then _ else _) = _
              rw [if_neg hj]
              rfl
        | _ => exact .inr ⟨rfl, rfl⟩
      · rw [if_neg hfree, Bool.eq_false_iff.mpr hfree]
        exact .inr ⟨rfl, rfl⟩

theorem handleRead_sizes {w : World} {env : Env} {fd : Int} {it : Item}
    (h : it.handler ≠ .proxy) : Lib.Returns (handleRead env fd it w) w.SameSizes := by
  unfold handleRead
  split
  · next hh => exact absurd hh h
  · exact Lib.returns_ok ⟨fun _ => rfl, rfl⟩
  · exact onBehalfOf_sizes fun x => proxyClientRead_respects (sameSizes_stable env) _
  · exact onBehalfOf_sizes fun x => proxyOriginRead_respects (sameSizes_stable env) _
  · exact Lib.returns_error _
  · exact Lib.returns_error _
  · exact Lib.returns_error _

theorem handleWrite_sizes {w : World} {env : Env} {it : Item} :
    Lib.Returns (handleWrite env it w) w.SameSizes := by
  unfold handleWrite
  split
  · exact Lib.returns_error _
  · exact Lib.returns_error _
  · exact onBehalfOf_sizes fun x => proxyClientWrite_respects (sameSizes_stable env)
  · exact onBehalfOf_sizes fun x => proxyOriginWrite_respects (sameSizes_stable env)
  · exact Lib.returns_error _
  · exact Lib.returns_error _
  · exact Lib.returns_ok ⟨fun _ => rfl, rfl⟩

/-- What a step does to the sizes: nothing, unless it accepts a
connection. -/
theorem step_sizes {w w' : World} {e : Event} (h : step w e = .ok w') :
    (e.accepts w = true ∧ w.Grew w') ∨ (e.accepts w = false ∧ w.SameSizes w') := by
  cases e with
  | readable fd env =>
      rw [step] at h
      split at h
      · next item hit =>
          simp only [Event.accepts, hit]
          split at h
          · next hread =>
              rw [hread, Bool.true_and]
              by_cases hh : item.handler = .proxy
              · rw [hh, beq_self_eq_true, Bool.true_and]
                have hw : w' = acceptNewConnection env w := by
                  rw [handleRead, hh] at h
                  exact (Except.ok.inj h).symm
                rcases acceptNewConnection_sizes env w with ⟨hacc, hg⟩ | ⟨hacc, hsame⟩
                · exact .inl ⟨hacc, hw ▸ hg⟩
                · rw [hw, hsame]
                  exact .inr ⟨hacc, fun _ => rfl, rfl⟩
              · rw [beq_false_of_ne hh, Bool.false_and]
                exact .inr ⟨rfl, handleRead_sizes hh w' h⟩
          · next hread =>
              rw [Bool.eq_false_iff.mpr hread]
              cases h
              exact .inr ⟨rfl, fun _ => rfl, rfl⟩
      · next hnone =>
          simp only [Event.accepts, hnone]
          cases h
          exact .inr ⟨trivial, fun _ => rfl, rfl⟩
  | writable fd env =>
      refine .inr ⟨rfl, ?_⟩
      rw [step] at h
      split at h
      · split at h
        · exact handleWrite_sizes w' h
        · cases h
          exact ⟨fun _ => rfl, rfl⟩
      · cases h
        exact ⟨fun _ => rfl, rfl⟩
  | garbageCollect =>
      refine .inr ⟨rfl, ?_⟩
      rw [step] at h
      split at h
      · have hgc := runGarbageCollector_sizes _ _ w' h
        exact ⟨hgc.heap, hgc.nextConn⟩
      · cases h
        exact ⟨fun _ => rfl, rfl⟩
  | tick seconds =>
      cases h
      exact .inr ⟨rfl, fun _ => rfl, rfl⟩

/-! ## Capacity and allocation -/

/-- The buffers of a connection are as long as their memory: the capacity is
what was allocated. -/
structure Conn.Backed (c : Conn) : Prop where
  client : c.clientBuffer.limit = c.clientBuffer.alloc
  origin : c.originBuffer.limit = c.originBuffer.alloc

/-- Every connection's are. -/
def World.Backed (w : World) : Prop := ∀ id c, w.heap id = .live c → c.Backed

/-- The limit of `buffer_init`, and the allocation to go with it. -/
def fullSizes : (Nat × Nat) × (Nat × Nat) := ((bufferSize, bufferSize), (bufferSize, bufferSize))

/-- What every cell of a run has under the condition below. -/
def World.Full (w : World) : Prop := ∀ j z, (w.heap j).sizes = some z → z = fullSizes

theorem World.Full.conn {w : World} {id : Nat} {c : Conn} (h : w.Full)
    (hc : w.heap id = .live c) : c.sizes = fullSizes := h id c.sizes (by rw [hc]; rfl)

/-- The four numbers, one by one. -/
theorem Conn.full_iff {c : Conn} :
    c.sizes = fullSizes ↔ (c.clientBuffer.limit = bufferSize ∧ c.clientBuffer.alloc = bufferSize) ∧
      c.originBuffer.limit = bufferSize ∧ c.originBuffer.alloc = bufferSize := by
  simp only [Conn.sizes, Buffer.size, fullSizes, Prod.mk.injEq]

theorem World.Full.backed {w : World} (h : w.Full) : w.Backed := by
  intro id c hc
  obtain ⟨⟨hcl, hca⟩, hol, hoa⟩ := Conn.full_iff.mp (h.conn hc)
  exact ⟨hcl.trans hca.symm, hol.trans hoa.symm⟩

/-- A connection is accepted while the buffer size is `BUFFER_SIZE`. -/
def AcceptsWhole (w : World) (e : Event) : Prop :=
  e.accepts w = true → w.settings.buffersSize = bufferSize.toUInt64

theorem step_full {w w' : World} {e : Event} (hf : w.Full) (hc : AcceptsWhole w e)
    (h : step w e = .ok w') : w'.Full := by
  intro j z hz
  rcases step_sizes h with ⟨hacc, hg⟩ | ⟨-, hs⟩
  · by_cases hj : j = w.nextConn
    · rw [hj, hg.new, hc hacc] at hz
      cases hz
      rfl
    · rw [hg.old j hj] at hz
      exact hf j z hz
  · rw [hs.heap] at hz
    exact hf j z hz

/-- Where a connection is accepted under any other setting, it is not
backed. -/
theorem acceptsWhole_of_backed {w w' : World} {e : Event} (h : step w e = .ok w')
    (hb : w'.Backed) : AcceptsWhole w e := by
  intro hacc
  rcases step_sizes h with ⟨-, hg⟩ | ⟨hno, -⟩
  · obtain ⟨c, hc⟩ := hg.live
    have hz := hg.new
    rw [hc] at hz
    simp only [Cell.sizes, Conn.sizes, Buffer.size, givenSizes, Option.some.injEq,
      Prod.mk.injEq] at hz
    have hcb := (hb _ c hc).client
    rw [hz.1.1, hz.1.2] at hcb
    rw [← UInt64.toNat_inj, ← hcb]
    rfl
  · rw [hno] at hacc
    cases hacc

end HttpdProxy
