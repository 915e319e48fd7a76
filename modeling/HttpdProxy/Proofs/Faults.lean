import HttpdProxy.Proofs.Sweeps

/-!
# What no event runs into

Two failures are nobody's in particular: a freed connection that is looked at
again, and a loop that is not left. The first cannot happen where every
handler finds its own items (`View`): what it closes is its origin, and its
client only on the way out. The second has three places, the loops over the
request line, over the DoH reply and over the answers. Each pays a byte or an
answer a round, with two exceptions: a reply that is complete is not consumed
any further, and the number of the answer is a byte although their count is
two.
-/

namespace HttpdProxy

open Lib (Avoids avoids_ok avoids_error avoids_bind avoids_ite)

/-- The two failures. -/
def Fault.grave : Fault → Bool
  | .useAfterFree | .noReturn => true
  | _ => false

section

variable {f : Fault} (hf : f.grave = true)
include hf

theorem avoids_of_grave {α : Type} {e : Fault} (he : e.grave = false) :
    Avoids f (.error e : Except Fault α) := by
  refine avoids_error fun h => ?_
  rw [h, hf] at he
  cases he

/-! ## What has neither -/

theorem bufferStore_avoids (b : Buffer) (bs : Bytes) : Avoids f (bufferStore b bs) := by
  unfold bufferStore
  split
  · exact avoids_ok _ _
  · exact avoids_of_grave hf rfl

theorem bufferWriteAdv_avoids (b : Buffer) (n : Nat) : Avoids f (bufferWriteAdv b n) := by
  unfold bufferWriteAdv
  split
  · exact avoids_ok _ _
  · exact avoids_of_grave hf rfl

theorem bufferAppend_avoids (b : Buffer) (bs : Bytes) : Avoids f (bufferAppend b bs) :=
  avoids_bind (bufferStore_avoids hf b bs) fun b' _ => bufferWriteAdv_avoids hf b' _

theorem bufferPrint_avoids (b : Buffer) (text : Bytes) : Avoids f (bufferPrint b text) :=
  avoids_bind (bufferStore_avoids hf b _) fun b' _ => bufferWriteAdv_avoids hf b' _

theorem bufferReadAdv_avoids (b : Buffer) (n : Nat) : Avoids f (bufferReadAdv b n) := by
  unfold bufferReadAdv
  split
  · split <;> exact avoids_ok _ _
  · exact avoids_of_grave hf rfl

theorem bufferRead_avoids (b : Buffer) : Avoids f (bufferRead b) := by
  unfold bufferRead
  split
  · exact avoids_bind (bufferReadAdv_avoids hf b 1) fun _ _ => avoids_ok _ _
  · exact avoids_ok _ _

theorem readAnswer_avoids (r : DohResponse) (k : UInt8) : Avoids f (readAnswer r k) := by
  unfold readAnswer
  split
  · exact avoids_of_grave hf rfl
  · split
    · exact avoids_of_grave hf rfl
    · exact avoids_ok _ _

end

/-! ## Closing -/

section

variable {x₀ x x' : Ctx} {ci : Interest} {oi : Option Interest} {env : Env}
  {next : ConnState} {f : Fault}

theorem View.close_avoids (h : View x₀ x ci oi) (f : Fault) :
    Avoids f (closeProxyConnection x) := by
  obtain ⟨x', hx⟩ := h.close_ok
  rw [hx]
  exact avoids_ok _ _

theorem View.deref_avoids (h : View x₀ x ci oi) (f : Fault) : Avoids f x.deref := by
  rw [Ctx.deref, h.alive]
  exact avoids_ok _ _

/-- What follows once the origin has been given back. -/
theorem View.released_avoids {α : Type} {i : Interest}
    {m : SelectorStatus × Ctx → Except Fault α} (h : View x₀ x ci (some i))
    (hm : ∀ r, View x₀ r.2 ci none → Avoids f (m r)) :
    Avoids f (selectorUnregisterFd x x.conn.originFd >>= m) := by
  obtain ⟨x1, hun, _, _, hv, _⟩ := h.unregister_origin
  rw [hun]
  exact avoids_bind (avoids_ok _ _) fun r hr => hm r (Except.ok.inj hr ▸ hv)

/-! ## Arriving -/

theorem onArrival_avoids (hf : f.grave = true) (h : View x₀ x ci oi) (s : ConnState) :
    Avoids f (onArrival env s x) := by
  cases s with
  | sendDohRequest =>
      exact avoids_bind (bufferAppend_avoids hf _ _) fun _ _ => avoids_ok _ _
  | sendRequestLine =>
      exact avoids_bind (bufferAppend_avoids hf _ _) fun _ _ => avoids_ok _ _
  | done =>
      obtain ⟨x', hx⟩ := h.done_ok
      rw [onArrival, hx]
      exact avoids_ok _ _
  | error =>
      refine avoids_bind (avoids_bind (bufferPrint_avoids hf _ _) fun _ _ => avoids_ok _ _)
        fun c _ => ?_
      dsimp only
      split <;> exact avoids_ok _ _
  | parsingRequestLine | tryConnectionIp | awaitDohResponse | connected | closing
  | emptyBuffers => exact avoids_ok _ _

theorem jump_avoids (hf : f.grave = true) (h : Landed x₀ x next) :
    Avoids f (jump env next x) := by
  obtain ⟨ci, oi, hv⟩ : ∃ ci oi, View x₀ x ci oi := by
    by_cases hcur : x.conn.current = some next
    · obtain ⟨oi, hrest⟩ := h.stay hcur
      exact ⟨_, oi, hrest.view⟩
    · obtain ⟨ci, oi, hv, _⟩ := h.leave hcur
      exact ⟨ci, oi, hv⟩
  unfold jump
  refine avoids_bind (hv.deref_avoids f) fun c _ => ?_
  split
  · have hv' : View x₀ (x.setConn (x.conn.entered next)) ci oi := hv.setConn rfl rfl Iff.rfl
    exact onArrival_avoids hf hv' next
  · exact avoids_ok _ _

/-! ## The request line -/

/-- A byte is taken, or the loop is left. -/
theorem parsingHostRound_again {key : SelectorKey} {y : Ctx}
    (h : parsingHostRound env key x = .ok (.again y)) :
    y.conn.clientBuffer.unread.length < x.conn.clientBuffer.unread.length := by
  unfold parsingHostRound at h
  split at h
  · next hcan =>
      obtain ⟨⟨b, buffer⟩, hread, h⟩ := Lib.bind_eq_ok.mp h
      obtain ⟨hu, _⟩ := Buffer.read_ok hcan hread
      dsimp only at h
      split at h
      · cases h
      · split at h
        · cases h
        · cases h
          change buffer.unread.length < _
          rw [hu]
          exact Nat.lt_succ_self _
  · cases h

theorem parsingHostOnReadReady_avoids (hf : f.grave = true) (key : SelectorKey)
    (hfuel : f = .noReturn → x.conn.clientBuffer.unread.length < env.fuel) :
    Avoids f (parsingHostOnReadReady env key x) := by
  refine avoids_bind (Lib.avoids_loop_variant (fun _ => True)
    (fun y => y.conn.clientBuffer.unread.length) (fun y _ => ?_)
    (fun y z _ hr => ⟨trivial, fun _ => parsingHostRound_again hr⟩) _ x trivial
    fun he => hfuel he.symm) fun _ _ => avoids_ok _ _
  unfold parsingHostRound
  split
  · refine avoids_bind (bufferRead_avoids hf _) fun r _ => ?_
    dsimp only
    split
    · exact avoids_ok _ _
    · split <;> exact avoids_ok _ _
  · exact avoids_ok _ _

/-! ## The answers -/

/-- The answers the walk has still to look at. -/
def Conn.unexamined (c : Conn) : Nat :=
  match c.dohConnection with
  | none => 0
  | some doh =>
      doh.dohParser.response.header.ancount.toNat - doh.currentTry.toNat

/-- The answers can be counted in the byte that numbers them. -/
def Conn.Countable (c : Conn) : Prop :=
  ∀ doh, c.dohConnection = some doh → doh.dohParser.response.header.ancount.toNat < 256

theorem tryNextRound_avoids (hf : f.grave = true) (type : UInt16)
    (addrOf : UInt16 → Answer → Sockaddr) : Avoids f (tryNextRound env type addrOf x) := by
  unfold tryNextRound
  split
  · exact avoids_of_grave hf rfl
  · split
    · refine avoids_bind (readAnswer_avoids hf _ _) fun a _ => ?_
      dsimp only
      split
      · exact avoids_ok _ _
      · split <;> exact avoids_ok _ _
    · exact avoids_ok _ _

theorem openOrigin_dohConnection (peer : Peer) (addr : Sockaddr) :
    (openOrigin env peer addr x).conn.dohConnection = x.conn.dohConnection := by
  unfold openOrigin establishOriginConnection
  dsimp only
  split
  · rfl
  · split <;> rfl

/-- An answer is looked at, or the loop is left. -/
theorem tryNextRound_again {type : UInt16} {addrOf : UInt16 → Answer → Sockaddr} {y : Ctx}
    (h : tryNextRound env type addrOf x = .ok (.again y)) (hc : x.conn.Countable) :
    y.conn.Countable ∧ y.conn.unexamined < x.conn.unexamined := by
  unfold tryNextRound at h
  cases hd : x.conn.dohConnection with
  | none =>
      rw [hd] at h
      cases h
  | some doh =>
      rw [hd] at h
      dsimp only at h
      split at h
      · next hlt =>
          obtain ⟨a, _, h⟩ := Lib.bind_eq_ok.mp h
          have hlt256 := hc doh hd
          have hdoh : y.conn.dohConnection
              = some { doh with currentTry := doh.currentTry + 1 } := by
            split at h
            · cases h
              rfl
            · split at h
              · cases h
                exact openOrigin_dohConnection _ _
              · cases h
          refine ⟨fun doh' hd' => ?_, ?_⟩
          · rw [hdoh] at hd'
            cases hd'
            exact hlt256
          · have hnext : (doh.currentTry + 1).toNat = doh.currentTry.toNat + 1 := by
              rw [UInt8.toNat_add, UInt8.toNat_one]
              omega
            have hy : y.conn.unexamined = doh.dohParser.response.header.ancount.toNat
                - (doh.currentTry + 1).toNat := by rw [Conn.unexamined, hdoh]
            have hx : x.conn.unexamined = doh.dohParser.response.header.ancount.toNat
                - doh.currentTry.toNat := by rw [Conn.unexamined, hd]
            omega
      · cases h

theorem walk_avoids (hf : f.grave = true) (type : UInt16)
    (addrOf : UInt16 → Answer → Sockaddr)
    (hfuel : f = .noReturn → x.conn.Countable ∧ 256 ≤ env.fuel) :
    Avoids f (Lib.loop .noReturn (tryNextRound env type addrOf) env.fuel x) := by
  refine Lib.avoids_loop_variant (fun y => f = .noReturn → y.conn.Countable)
    (fun y => y.conn.unexamined) (fun y _ => tryNextRound_avoids hf type addrOf)
    (fun y z hy hr => ⟨fun he => (tryNextRound_again hr (hy he)).1,
      fun he => (tryNextRound_again hr (hy he.symm)).2⟩) _ x (fun he => (hfuel he).1) ?_
  intro he
  obtain ⟨hc, hle⟩ := hfuel he.symm
  unfold Conn.unexamined
  split
  · omega
  · next doh hd =>
      have := hc doh hd
      omega

/-- The end of the walk, either way. -/
theorem tryNextDnsConnection_avoids (hf : f.grave = true) {i : Interest}
    (h : View x₀ x ci (some i))
    (hfuel : f = .noReturn → x.conn.Countable ∧ 256 ≤ env.fuel) :
    Avoids f (tryNextDnsConnection env x) := by
  obtain ⟨x1, hun, hc, _, hv, _⟩ := h.unregister_origin
  have hfuel1 : f = .noReturn → x1.conn.Countable ∧ 256 ≤ env.fuel := by
    rw [hc]
    exact hfuel
  unfold tryNextDnsConnection
  rw [hun]
  refine avoids_bind (avoids_ok _ _) fun r hr => ?_
  cases hr
  refine avoids_bind (hv.deref_avoids f) fun c _ => ?_
  dsimp only
  split
  · exact avoids_ok _ _
  · split
    · exact avoids_of_grave hf rfl
    · split
      · split
        · refine avoids_bind (walk_avoids hf _ _ hfuel1) fun s _ => ?_
          dsimp only
          split
          · exact avoids_ok _ _
          · split
            · exact avoids_of_grave hf rfl
            · exact avoids_ok _ _
        · exact avoids_ok _ _
      · split
        · exact avoids_ok _ _
        · refine avoids_bind (walk_avoids hf _ _ hfuel1) fun s _ => ?_
          dsimp only
          split <;> exact avoids_ok _ _

/-! ## The reply of the DoH server -/

/-- The reply is not complete. -/
def Conn.Incomplete (c : Conn) : Prop :=
  ∀ doh, c.dohConnection = some doh → doh.dohParser.state ≠ .dohResponseDone

theorem awaitDohResponseRound_avoids (hf : f.grave = true) {i : Interest}
    (h : View x₀ x ci (some i)) : Avoids f (awaitDohResponseRound env x) := by
  unfold awaitDohResponseRound
  split
  · split
    · exact avoids_of_grave hf rfl
    · split
      · refine avoids_bind (bufferRead_avoids hf _) fun r _ => ?_
        dsimp only
        split <;> exact avoids_ok _ _
      · split
        · refine avoids_bind (bufferRead_avoids hf _) fun r _ => ?_
          dsimp only
          split <;> exact avoids_ok _ _
        · split
          · refine avoids_bind (bufferRead_avoids hf _) fun r _ => ?_
            dsimp only
            split
            · exact avoids_ok _ _
            · exact avoids_ok _ _
            · split
              · exact avoids_ok _ _
              · -- the only branch that closes anything
                refine View.released_avoids ((h.setConn rfl rfl Iff.rfl).setConn rfl rfl
                  Iff.rfl) fun r hr => ?_
                exact avoids_bind (hr.deref_avoids f) fun _ _ => avoids_ok _ _
            · exact avoids_ok _ _
            · exact avoids_ok _ _
          · exact avoids_ok _ _
  · exact avoids_ok _ _

/-- A byte is taken, or the loop is left. -/
theorem awaitDohResponseRound_again {y : Ctx}
    (h : awaitDohResponseRound env x = .ok (.again y))
    (hc : x.conn.originBuffer.unread ≠ [] → x.conn.Incomplete) :
    y.conn.Incomplete ∧
      y.conn.originBuffer.unread.length < x.conn.originBuffer.unread.length := by
  unfold awaitDohResponseRound at h
  split at h
  · next hcan =>
      have hinc := hc ((Buffer.canRead_iff _).mp hcan)
      have htaken : ∀ {b : UInt8} {buffer : Buffer},
          bufferRead x.conn.originBuffer = .ok (b, buffer) →
          buffer.unread.length < x.conn.originBuffer.unread.length := by
        intro b buffer hread
        rw [(Buffer.read_ok hcan hread).1]
        exact Nat.lt_succ_self _
      cases hd : x.conn.dohConnection with
      | none =>
          rw [hd] at h
          cases h
      | some doh =>
          have hdone := hinc doh hd
          have hstill : ∀ {doh' : DohConnection} {buffer : Buffer},
              doh'.dohParser.state ≠ .dohResponseDone →
              Conn.Incomplete { x.conn with originBuffer := buffer, dohConnection := some doh' } := by
            intro doh' buffer hne doh'' hd''
            cases hd''
            exact hne
          rw [hd] at h
          dsimp only at h
          split at h
          · obtain ⟨⟨b, buffer⟩, hread, h⟩ := Lib.bind_eq_ok.mp h
            dsimp only at h
            split at h
            · cases h
            · cases h
              exact ⟨hstill hdone, htaken hread⟩
          · split at h
            · obtain ⟨⟨b, buffer⟩, hread, h⟩ := Lib.bind_eq_ok.mp h
              dsimp only at h
              split at h
              · cases h
              · cases h
                exact ⟨hstill hdone, htaken hread⟩
            · obtain ⟨⟨b, buffer⟩, hread, h⟩ := Lib.bind_eq_ok.mp h
              dsimp only at h
              cases hp : (dohResponseParserFeed env.callocAnswers doh.dohParser b).state with
              | dohResponseError | responseMemAllocError | dohResponseDone =>
                  rw [hp] at h
                  cases h
              | dohNoAnswers =>
                  rw [hp] at h
                  dsimp only at h
                  split at h
                  · cases h
                  · obtain ⟨_, _, h⟩ := Lib.bind_eq_ok.mp h
                    obtain ⟨_, _, h⟩ := Lib.bind_eq_ok.mp h
                    cases h
              | _ =>
                  rw [hp] at h
                  cases h
                  exact ⟨hstill (by rw [hp]; exact nofun), htaken hread⟩
  · cases h

/-- The loop does not end the origin's stream. -/
theorem awaitDohResponseRound_status :
    Lib.Returns (awaitDohResponseRound env x) (Lib.Round.Post
      (fun y => y.conn.originStatus = x.conn.originStatus)
      fun r => r.1 = none → r.2.conn.originStatus = x.conn.originStatus) := by
  have hbyte : Lib.Returns (bufferRead x.conn.originBuffer) fun _ => True :=
    fun _ _ => trivial
  unfold awaitDohResponseRound
  refine Lib.returns_ite (fun _ => ?_) fun _ => Lib.returns_ok fun _ => rfl
  split
  · exact Lib.returns_error _
  · refine Lib.returns_ite (fun _ => ?_) fun _ => Lib.returns_ite (fun _ => ?_) fun _ =>
      Lib.returns_ite (fun _ => ?_) fun _ => Lib.returns_ok rfl
    · refine Lib.returns_bind hbyte fun r _ => ?_
      exact Lib.returns_ite (fun _ => Lib.returns_ok fun h => nomatch h)
        fun _ => Lib.returns_ok rfl
    · refine Lib.returns_bind hbyte fun r _ => ?_
      exact Lib.returns_ite (fun _ => Lib.returns_ok fun h => nomatch h)
        fun _ => Lib.returns_ok rfl
    · refine Lib.returns_bind hbyte fun r _ => ?_
      dsimp only
      split
      · exact Lib.returns_ok fun h => nomatch h
      · exact Lib.returns_ok fun h => nomatch h
      · split
        · exact Lib.returns_ok fun h => nomatch h
        · refine Lib.returns_bind_any fun u => ?_
          refine Lib.returns_bind_any fun _ => ?_
          exact Lib.returns_ok fun h => nomatch h
      · exact Lib.returns_ok fun _ => rfl
      · exact Lib.returns_ok rfl

/-- What the read handler of AWAIT_DOH_RESPONSE needs in order to return. -/
structure Conn.Consumable (env : Env) (c : Conn) : Prop where
  fuel : c.originBuffer.unread.length < env.fuel
  reply : c.originBuffer.unread ≠ [] → c.Incomplete
  answers : c.originStatus = .closingStatus → c.Countable ∧ 256 ≤ env.fuel

theorem awaitDohResponseOnReadReady_avoids (hf : f.grave = true) (key : SelectorKey)
    (h : Handling x₀ x ci oi) (hcur : x.conn.current = some .awaitDohResponse)
    (hend : x.conn.originStatus = .closingStatus → x.conn.originBuffer.unread = [])
    (hfuel : f = .noReturn → x.conn.Consumable env) :
    Avoids f (awaitDohResponseOnReadReady env x) := by
  have hst : x.conn.stmState = .awaitDohResponse := Conn.stmState_of_current hcur
  have hi : x.conn.interests = (opNoop, opRead) := Conn.interests_of_current hcur
  obtain ⟨i, rfl⟩ : ∃ i, oi = some i :=
    Option.isSome_iff_exists.mp (h.needed (by rw [hst]; rfl))
  obtain rfl : ci = opNoop := h.client_interest hcur rfl hi
  obtain rfl : i = opRead := by
    rw [(h.fixed (by rw [hst]; rfl)).2 i rfl, hi]
  unfold awaitDohResponseOnReadReady
  split
  · exact avoids_ok _ _
  · next he =>
      have hstart : Awaiting env x₀ (.reading key, x) key x := ⟨h, hcur, he, .refl⟩
      refine avoids_bind ?_ fun r hloop => ?_
      · refine Lib.avoids_loop_variant
          (fun y => Awaiting env x₀ (.reading key, x) key y ∧
            (f = .noReturn → y.conn.originBuffer.unread ≠ [] → y.conn.Incomplete))
          (fun y => y.conn.originBuffer.unread.length)
          (fun y hy => awaitDohResponseRound_avoids hf hy.1.handling.view) ?_ _ x
          ⟨hstart, fun hn => (hfuel hn).reply⟩ fun hn => (hfuel hn.symm).fuel
        intro y z hy hr
        have hz : Awaiting env x₀ (.reading key, x) key z :=
          awaitDohResponseRound_moves hy.1 _ hr
        exact ⟨⟨hz, fun hn _ => (awaitDohResponseRound_again hr (hy.2 hn)).1⟩,
          fun hn => (awaitDohResponseRound_again hr (hy.2 hn.symm)).2⟩
      · obtain ⟨ret, x1⟩ := r
        have hpost := Lib.returns_loop (Awaiting env x₀ (.reading key, x) key)
          (fun _ h1 => awaitDohResponseRound_moves h1) env.fuel x hstart _ hloop
        have hstatus := Lib.returns_loop
          (fun y => y.conn.originStatus = x.conn.originStatus)
          (P := fun r => r.1 = none → r.2.conn.originStatus = x.conn.originStatus)
          (fun y hy => by
            refine awaitDohResponseRound_status.mono fun r hr => ?_
            cases r with
            | again z => exact Eq.trans hr hy
            | leave b => exact fun hb => Eq.trans (hr hb) hy) env.fuel x rfl _ hloop
        dsimp only
        cases ret with
        | some n => exact avoids_ok _ _
        | none =>
            dsimp only
            split
            · next hclosing =>
                have hclosing' := (hstatus rfl).symm.trans hclosing
                have hempty : bufferCanRead x.conn.originBuffer = false :=
                  (Buffer.canRead_eq_false_iff _).mpr (hend hclosing')
                have hround : awaitDohResponseRound env x = .ok (.leave (none, x)) := by
                  rw [awaitDohResponseRound, hempty]
                  rfl
                have hsame : x1 = x := by
                  cases hn : env.fuel with
                  | zero =>
                      rw [hn] at hloop
                      cases hloop
                  | succ n =>
                      rw [hn, Lib.loop_leave hround] at hloop
                      cases hloop
                      rfl
                subst hsame
                have hlog : View x₀ (x1.log (.shutdown .origin)) opNoop (some opRead) :=
                  hpost.1.handling.view.setConn rfl rfl Iff.rfl
                exact tryNextDnsConnection_avoids hf hlog
                  fun hn => (hfuel hn).answers hclosing'
            · exact avoids_ok _ _

/-! ## The engine -/

theorem tryConnectionIpOnWriteReady_avoids (hf : f.grave = true) (h : Handling x₀ x ci oi)
    (hcur : x.conn.current = some .tryConnectionIp)
    (hfuel : f = .noReturn → x.conn.Countable ∧ 256 ≤ env.fuel) :
    Avoids f (tryConnectionIpOnWriteReady env x) := by
  have hst : x.conn.stmState = .tryConnectionIp := Conn.stmState_of_current hcur
  unfold tryConnectionIpOnWriteReady
  split
  · split
    · exact avoids_ok _ _
    · dsimp only
      split
      · exact avoids_bind (bufferPrint_avoids hf _ _) fun _ _ => avoids_ok _ _
      · exact avoids_ok _ _
  · dsimp only
    split
    · obtain ⟨i, rfl⟩ : ∃ i, oi = some i :=
        Option.isSome_iff_exists.mp (h.needed (by rw [hst]; rfl))
      exact tryNextDnsConnection_avoids hf
        (h.setMetrics (f := increaseFailedConnections)).view hfuel
    · exact avoids_ok _ _

/-- What the read handlers need in order to return. -/
def Conn.Readable (env : Env) (c : Conn) : ConnState → Prop
  | .parsingRequestLine => c.clientBuffer.unread.length < env.fuel
  | .awaitDohResponse => c.Consumable env
  | _ => True

theorem onReadReady_avoids (hf : f.grave = true) (key : SelectorKey) {s : ConnState}
    (h : Handling x₀ x ci oi) (hcur : x.conn.current = some s)
    (hend : s = .awaitDohResponse → x.conn.originStatus = .closingStatus →
      x.conn.originBuffer.unread = [])
    (hfuel : f = .noReturn → x.conn.Readable env s) :
    Avoids f (onReadReady env key s x) := by
  cases s with
  | parsingRequestLine => exact parsingHostOnReadReady_avoids hf key hfuel
  | awaitDohResponse => exact awaitDohResponseOnReadReady_avoids hf key h hcur (hend rfl) hfuel
  | connected => exact avoids_ite (avoids_ok _ _) (avoids_ok _ _)
  | closing =>
      exact avoids_ite (avoids_ite (avoids_ok _ _) (avoids_ok _ _)) (avoids_ok _ _)
  | tryConnectionIp | sendDohRequest | sendRequestLine | emptyBuffers | done | error =>
      exact avoids_of_grave hf rfl

theorem onWriteReady_avoids (hf : f.grave = true) {s : ConnState} (h : Handling x₀ x ci oi)
    (hcur : x.conn.current = some s)
    (hfuel : f = .noReturn → s = .tryConnectionIp → x.conn.Countable ∧ 256 ≤ env.fuel) :
    Avoids f (onWriteReady env s x) := by
  have hdrained : ∀ next, Avoids f (onDrained next x) :=
    fun _ => avoids_ite (avoids_ok _ _) (avoids_ok _ _)
  cases s with
  | tryConnectionIp =>
      exact tryConnectionIpOnWriteReady_avoids hf h hcur fun hn => hfuel hn rfl
  | sendDohRequest => exact hdrained .awaitDohResponse
  | sendRequestLine => exact hdrained .connected
  | error => exact hdrained .done
  | connected => exact avoids_ok _ _
  | closing => exact avoids_ok _ _
  | emptyBuffers => exact avoids_ite (avoids_ok _ _) (avoids_ok _ _)
  | parsingRequestLine | awaitDohResponse | done => exact avoids_of_grave hf rfl

/-- A read handler and the jump after it. -/
theorem readReady_jump_avoids (hf : f.grave = true) (key : SelectorKey) {s : ConnState}
    (h : Handling x₀ x ci oi) (hcur : x.conn.current = some s)
    (hend : s = .awaitDohResponse → x.conn.originStatus = .closingStatus →
      x.conn.originBuffer.unread = [])
    (hfuel : f = .noReturn → x.conn.Readable env s) :
    Avoids f (onReadReady env key x.conn.stmState x >>= fun r => jump env r.1 r.2) := by
  rw [Conn.stmState_of_current hcur]
  refine avoids_bind (onReadReady_avoids hf key h hcur hend hfuel) fun r hr => ?_
  exact jump_avoids hf (onReadReady_moves h hcur hr).2

theorem stmHandlerRead_avoids (hf : f.grave = true) (key : SelectorKey)
    (h : Handling x₀ x ci oi)
    (hend : x.conn.stmState = .awaitDohResponse → x.conn.originStatus = .closingStatus →
      x.conn.originBuffer.unread = [])
    (hfuel : f = .noReturn → x.conn.Readable env x.conn.stmState) :
    Avoids f (stmHandlerRead env key x) := by
  by_cases hcur : x.conn.current = none
  · have hst : x.conn.stmState = .parsingRequestLine := by rw [Conn.stmState, hcur]; rfl
    have hfirst : handleFirst env x
        = .ok (parsingHostOnArrival (x.setConn (x.conn.entered .parsingRequestLine))) := by
      rw [handleFirst, if_pos hcur]
      rfl
    obtain ⟨h1, _⟩ := @handleFirst_moves _ _ _ _ _ _ key h hfirst
    have hno : ConnState.parsingRequestLine ≠ .awaitDohResponse := by decide
    rw [hst] at hfuel
    unfold stmHandlerRead
    rw [hfirst]
    exact avoids_bind (avoids_ok _ _) fun x1 hx1 => Except.ok.inj hx1 ▸
      readReady_jump_avoids hf key h1 rfl (fun he => absurd he hno) fun hn => hfuel hn
  · obtain ⟨s, hs⟩ := Option.ne_none_iff_exists'.mp hcur
    have hst := Conn.stmState_of_current hs
    rw [hst] at hend hfuel
    unfold stmHandlerRead
    rw [handleFirst, if_neg hcur]
    exact avoids_bind (avoids_ok _ _) fun x1 hx1 => Except.ok.inj hx1 ▸
      readReady_jump_avoids hf key h hs hend hfuel

theorem stmHandlerWrite_avoids (hf : f.grave = true) (h : Handling x₀ x ci oi)
    (hne : x.conn.current ≠ none)
    (hfuel : f = .noReturn → x.conn.stmState = .tryConnectionIp →
      x.conn.Countable ∧ 256 ≤ env.fuel) :
    Avoids f (stmHandlerWrite env x) := by
  obtain ⟨s, hs⟩ := Option.ne_none_iff_exists'.mp hne
  have hst := Conn.stmState_of_current hs
  rw [hst] at hfuel
  unfold stmHandlerWrite
  rw [handleFirst, if_neg hne]
  refine avoids_bind (avoids_ok _ _) fun x1 hx1 => ?_
  cases hx1
  rw [hst]
  refine avoids_bind (onWriteReady_avoids hf h hs hfuel) fun r hr => ?_
  exact jump_avoids hf (onWriteReady_moves h hs hr).2

/-! ## The handlers of the two sockets -/

/-- No byte comes after the end of a reply, and its answers can be counted. -/
structure Conn.Bounded (env : Env) (c : Conn) : Prop where
  reply : c.stmState = .awaitDohResponse → (readInto env c.originBuffer).getD [] ≠ [] →
    c.Incomplete
  answers : c.stmState = .awaitDohResponse ∨ c.stmState = .tryConnectionIp → c.Countable

theorem Resting.touch_view (h : Resting x₀ x oi) :
    View x₀ x.touch x.conn.interests.1 oi := h.view.setConn rfl rfl Iff.rfl

theorem proxyClientRead_avoids (hf : f.grave = true) (key : SelectorKey)
    (h : Resting x₀ x oi) (hint : x.conn.interests.1.read = true) (hsize : x.conn.Sized)
    (hfuel : f = .noReturn → bufferSize < env.fuel) :
    Avoids f (proxyClientRead env key x) := by
  have hst : x.conn.stmState ≠ .awaitDohResponse := by
    intro hst
    rw [Conn.interests, hst] at hint
    cases hint
  have hreadable : ∀ c : Conn, c.stmState = x.conn.stmState →
      c.clientBuffer.limit = bufferSize → f = .noReturn → c.Readable env c.stmState := by
    intro c he hl hn
    have hwrite := c.clientBuffer.write_le
    have hbig := hfuel hn
    rw [he]
    cases hs : x.conn.stmState with
    | parsingRequestLine =>
        change c.clientBuffer.unread.length < env.fuel
        rw [Buffer.unread_length]
        omega
    | awaitDohResponse => exact absurd hs hst
    | _ => exact trivial
  unfold proxyClientRead
  dsimp only
  split
  · exact h.touch_view.close_avoids f
  · have hv : View x₀ (x.touch.log (.eof .client)) x.conn.interests.1 oi :=
      h.view.setConn rfl rfl Iff.rfl
    split
    · exact hv.close_avoids f
    · exact stmHandlerRead_avoids hf key (h.handling.setConn rfl rfl rfl Iff.rfl)
        (fun he => absurd he hst) (hreadable _ rfl hsize.1)
  · refine avoids_bind (bufferAppend_avoids hf _ _) fun buffer hb => ?_
    obtain ⟨_, hl, _⟩ := Buffer.append_spec hb
    exact stmHandlerRead_avoids hf key (h.handling.setConn rfl rfl rfl Iff.rfl)
      (fun he => absurd he hst) (hreadable _ rfl (hl.trans hsize.1))

theorem proxyClientWrite_avoids (hf : f.grave = true) (h : Resting x₀ x oi)
    (hint : x.conn.interests.1.write = true) : Avoids f (proxyClientWrite env x) := by
  have hst : x.conn.stmState ≠ .tryConnectionIp := by
    intro hst
    rw [Conn.interests, hst] at hint
    cases hint
  have hcur : x.conn.current ≠ none := by
    intro hcur
    rw [Conn.interests, Conn.stmState, hcur] at hint
    cases hint
  unfold proxyClientWrite
  dsimp only
  split
  · exact h.touch_view.close_avoids f
  · exact h.touch_view.close_avoids f
  · refine avoids_bind (bufferReadAdv_avoids hf _ _) fun buffer _ => ?_
    exact stmHandlerWrite_avoids hf (h.handling.setMetrics.setConn rfl rfl rfl Iff.rfl) hcur
      fun _ he => absurd he hst

theorem proxyOriginRead_avoids (hf : f.grave = true) (key : SelectorKey) {i : Interest}
    (h : Resting x₀ x (some i)) (hsize : x.conn.Sized)
    (hstage : x.conn.Stage x.conn.stmState)
    (hfuel : f = .noReturn → bufferSize < env.fuel ∧ x.conn.Bounded env) :
    Avoids f (proxyOriginRead env key x) := by
  obtain ⟨_, hact⟩ := h.view.origin i rfl
  have hnp : x.conn.stmState ≠ .parsingRequestLine := fun he => by cases h.bare he
  have hlater : ∀ (c : Conn) (s : ConnState), (s = .awaitDohResponse → c.Consumable env) →
      s ≠ .parsingRequestLine → c.Readable env s := by
    intro c s hc hs
    cases s with
    | parsingRequestLine => exact absurd rfl hs
    | awaitDohResponse => exact hc rfl
    | _ => exact trivial
  unfold proxyOriginRead
  dsimp only
  split
  · exact h.touch_view.close_avoids f
  · have hh : Handling x₀ (x.touch.setConn x.touch.conn.endOfOrigin) _ (some i) :=
      h.handling.setConn rfl rfl rfl ⟨(by intro hc; cases hc), fun hc => absurd hc hact⟩
    have hempty : x.conn.stmState = .awaitDohResponse → x.conn.originBuffer.unread = [] := by
      intro he
      rw [he] at hstage
      exact hstage.2
    refine stmHandlerRead_avoids hf key hh (fun he _ => hempty he) fun hn => ?_
    obtain ⟨hbig, hbound⟩ := hfuel hn
    refine hlater _ _ (fun he => ⟨?_, fun hne => absurd (hempty he) hne, fun _ =>
      ⟨hbound.answers (.inl he), Nat.le_of_lt (Nat.lt_trans (by decide) hbig)⟩⟩) hnp
    change x.conn.originBuffer.unread.length < env.fuel
    rw [hempty he]
    exact Nat.lt_of_le_of_lt (Nat.zero_le _) hbig
  · next bs hne hread =>
      refine avoids_bind (bufferAppend_avoids hf _ _) fun buffer hb => ?_
      obtain ⟨_, hl, _⟩ := Buffer.append_spec hb
      have hactive : x.conn.stmState = .awaitDohResponse →
          x.conn.originStatus ≠ .closingStatus := by
        intro he
        rw [he] at hstage
        rw [hstage.1.both.2]
        simp
      refine stmHandlerRead_avoids hf key (h.handling.setConn rfl rfl rfl Iff.rfl)
        (fun he hc => absurd hc (hactive he)) fun hn => ?_
      obtain ⟨hbig, hbound⟩ := hfuel hn
      refine hlater _ _ (fun he => ⟨?_, fun _ => hbound.reply he ?_, fun hc =>
        absurd hc (hactive he)⟩) hnp
      · change buffer.unread.length < env.fuel
        have hwrite := buffer.write_le
        have hlim : buffer.limit = bufferSize := hl.trans hsize.2
        rw [Buffer.unread_length]
        omega
      · rw [show readInto env x.conn.originBuffer = some bs from hread]
        exact hne

theorem proxyOriginWrite_avoids (hf : f.grave = true) {i : Interest}
    (h : Resting x₀ x (some i))
    (hfuel : f = .noReturn → bufferSize < env.fuel ∧ x.conn.Bounded env) :
    Avoids f (proxyOriginWrite env x) := by
  have hcur := h.current_ne_none
  unfold proxyOriginWrite
  dsimp only
  split
  · next hst =>
      refine stmHandlerWrite_avoids hf (h.handling.setConn rfl rfl rfl Iff.rfl) hcur
        fun hn _ => ?_
      obtain ⟨hbig, hbound⟩ := hfuel hn
      exact ⟨hbound.answers (.inr hst), Nat.le_of_lt (Nat.lt_trans (by decide) hbig)⟩
  · next hnt =>
      split
      · split
        · exact h.touch_view.close_avoids f
        · exact h.touch_view.close_avoids f
        · refine avoids_bind (bufferReadAdv_avoids hf _ _) fun buffer _ => ?_
          exact stmHandlerWrite_avoids hf (h.handling.setMetrics.setConn rfl rfl rfl Iff.rfl)
            hcur fun _ he => absurd he hnt
      · split
        · exact h.touch_view.close_avoids f
        · exact h.touch_view.close_avoids f
        · refine avoids_bind (bufferReadAdv_avoids hf _ _) fun buffer _ => ?_
          exact stmHandlerWrite_avoids hf (h.handling.setMetrics.setConn rfl rfl rfl Iff.rfl)
            hcur fun _ he => absurd he hnt

end

/-! ## The daemon -/

section

variable {w : World} {f : Fault}

theorem onBehalfOf_avoids {id : Nat} {c : Conn} {g : Ctx → Except Fault Ctx}
    (hc : w.heap id = .live c) (hg : Avoids f (g (w.ctx id c))) :
    Avoids f (onBehalfOf w id g) := by
  unfold onBehalfOf
  rw [hc]
  exact avoids_bind hg fun _ _ => avoids_ok _ _

/-- What an event needs in order to return: more rounds than a buffer has
bytes, and a connection that keeps to the bounds. -/
def Event.Bounded (w : World) : Event → Prop
  | .readable fd env | .writable fd env =>
      bufferSize < env.fuel ∧
        ∀ id c, w.heap id = .live c → fd = c.originFd → c.Bounded env
  | _ => True

theorem handleRead_avoids (hf : f.grave = true) {env : Env} {fd : Int} {it : Item}
    (h : Sound w) (hun : Undisturbed w (.readable fd env))
    (hstages : ∀ id c, w.heap id = .live c → c.Sized ∧ c.Stage c.stmState)
    (hfd : w.sel.fds fd = some it) (hint : it.interest.read = true)
    (hfuel : f = .noReturn → (Event.readable fd env).Bounded w) :
    Avoids f (handleRead env fd it w) := by
  unfold handleRead
  split
  · exact avoids_ok _ _
  · exact avoids_ok _ _
  · next id hh hd =>
      obtain ⟨c, oi, hc, hrest, ⟨rfl, rfl⟩ | ⟨_, _, rfl⟩⟩ := h.item_cases hfd hd
      · have hrest' := hrest.of_ownOrigin (hun.reader hfd hd hint hc)
        exact onBehalfOf_avoids hc (proxyClientRead_avoids hf _ hrest' hint
          (hstages id c hc).1 fun hn => (hfuel hn).1)
      · cases hh
  · next id hh hd =>
      obtain ⟨c, oi, hc, hrest, ⟨_, rfl⟩ | ⟨rfl, rfl, rfl⟩⟩ := h.item_cases hfd hd
      · cases hh
      · exact onBehalfOf_avoids hc (proxyOriginRead_avoids hf _ hrest.resting_some
          (hstages id c hc).1 (hstages id c hc).2
          fun hn => ⟨(hfuel hn).1, (hfuel hn).2 id c hc rfl⟩)
  · exact avoids_of_grave hf rfl
  · exact avoids_of_grave hf rfl
  · exact avoids_of_grave hf rfl

theorem handleWrite_avoids (hf : f.grave = true) {env : Env} {fd : Int} {it : Item}
    (h : Sound w) (hun : Undisturbed w (.writable fd env)) (hfd : w.sel.fds fd = some it)
    (hint : it.interest.write = true)
    (hfuel : f = .noReturn → (Event.writable fd env).Bounded w) :
    Avoids f (handleWrite env it w) := by
  unfold handleWrite
  split
  · exact avoids_of_grave hf rfl
  · exact avoids_of_grave hf rfl
  · next id hh hd =>
      obtain ⟨c, oi, hc, hrest, ⟨rfl, rfl⟩ | ⟨_, _, rfl⟩⟩ := h.item_cases hfd hd
      · refine onBehalfOf_avoids hc ?_
        cases hpart : c.repliesInPart env with
        | true =>
            obtain ⟨n, _, _, _, hx⟩ := proxyClientWrite_part (x := w.ctx id c) rfl hpart
            rw [hx]
            exact avoids_bind (bufferReadAdv_avoids hf _ _) fun _ _ => avoids_ok _ _
        | false =>
            have hrest' := hrest.of_ownOrigin (hun.writer hfd hd hint hc hpart)
            exact proxyClientWrite_avoids hf hrest' hint
      · cases hh
  · next id hh hd =>
      obtain ⟨c, oi, hc, hrest, ⟨_, rfl⟩ | ⟨rfl, rfl, rfl⟩⟩ := h.item_cases hfd hd
      · cases hh
      · exact onBehalfOf_avoids hc (proxyOriginWrite_avoids hf hrest.resting_some
          fun hn => ⟨(hfuel hn).1, (hfuel hn).2 id c hc rfl⟩)
  · exact avoids_of_grave hf rfl
  · exact avoids_of_grave hf rfl
  · exact avoids_ok _ _

theorem step_avoids (hf : f.grave = true) {e : Event} (h : Sound w) (hun : Undisturbed w e)
    (hstages : ∀ id c, w.heap id = .live c → c.Sized ∧ c.Stage c.stmState)
    (hfuel : f = .noReturn → e.Bounded w) : Avoids f (step w e) := by
  cases e with
  | readable fd env =>
      unfold step
      dsimp only
      split
      · next it hfd =>
          split
          · next hint => exact handleRead_avoids hf h hun hstages hfd hint hfuel
          · exact avoids_ok _ _
      · exact avoids_ok _ _
  | writable fd env =>
      unfold step
      dsimp only
      split
      · next it hfd =>
          split
          · next hint => exact handleWrite_avoids hf h hun hfd hint hfuel
          · exact avoids_ok _ _
      · exact avoids_ok _ _
  | garbageCollect =>
      unfold step
      dsimp only
      split
      · next hdue =>
          have hq : Quiet w { w with lastCollection := w.now } := ⟨rfl, rfl, rfl, rfl, rfl, rfl⟩
          obtain ⟨w', hr, _⟩ := runGarbageCollector_scans (List.range (w.sel.maxFd + 1))
            (hq.sound h) (hq.sweepable rfl (hun.sweepable hdue))
          rw [hr]
          exact avoids_ok _ _
      · exact avoids_ok _ _
  | tick n => exact avoids_ok _ _

/-- Every connection of a run keeps to its stage. -/
theorem run_stages {cfg : Config} {es : List Event}
    (h : Lib.RunsWhen step Undisturbed (initWorld cfg) es w) (id : Nat) (c : Conn)
    (hc : w.heap id = .live c) : c.Sized ∧ c.Stage c.stmState :=
  ((lives h).2.2 id _ (member_live hc)).stages

end

/-- No event of an undisturbed run reads a connection that was freed. -/
theorem never_uses_freed {cfg : Config} {es : List Event} {w : World} {e : Event}
    (h : Lib.RunsWhen step Undisturbed (initWorld cfg) es w) (hun : Undisturbed w e) :
    step w e ≠ .error .useAfterFree :=
  step_avoids rfl (lives h).1 hun (run_stages h) fun hn => nomatch hn

/-- The origin of the connection that is relayed fails. -/
theorem never_uses_freed_crowd : ∃ w : World,
    w.liveAt 1 (fun c => c.stmState == .connected && c.originFd == 8) = true ∧
      step w (.readable 8 Env.silent) ≠ .error .useAfterFree := by
  obtain ⟨w, h, hp⟩ := @computed_run loopback crowd
    (fun w => w.liveAt 1 (fun c => c.stmState == .connected && c.originFd == 8) &&
      checkUndisturbed w (.readable 8 Env.silent)) (by decide +kernel)
  obtain ⟨hone, hcheck⟩ := (Bool.and_eq_true _ _).mp hp
  exact ⟨w, hone, never_uses_freed h ((lives h).1.undisturbed_of_check hcheck)⟩

/-- Every event of an undisturbed run returns, in as many rounds of a loop as a
buffer has bytes, if no byte follows the end of a DNS reply and the reply
announces fewer answers than a byte can number. -/
theorem handlers_return {cfg : Config} {es : List Event} {w : World} {e : Event}
    (h : Lib.RunsWhen step Undisturbed (initWorld cfg) es w) (hun : Undisturbed w e)
    (hb : e.Bounded w) : step w e ≠ .error .noReturn :=
  step_avoids rfl (lives h).1 hun (run_stages h) fun _ => hb

/-- Waiting for the address of a host. -/
def awaiting : List Event :=
  [.readable 3 { Env.silent with accept := some 5 },
    .readable 5 { Env.silent with
      recv := some (ascii "GET http://a HTTP/1.0\r\n"), socket := fun _ => some 6 },
    .writable 6 Env.silent,
    .writable 6 { Env.silent with send := some 1000 }]

/-- The first byte of the reply. -/
def firstByte : Env := { Env.silent with recv := some (ascii "H"), fuel := 9000 }

/-- Nothing of a reply is known yet. -/
def Conn.expectant (c : Conn) : Bool :=
  match c.dohConnection with
  | none => false
  | some doh => doh.dohParser.state != .dohResponseDone &&
      decide (doh.dohParser.response.header.ancount.toNat < 256)

theorem Conn.bounded_of_expectant {c : Conn} (h : c.expectant = true) (env : Env) :
    c.Bounded env := by
  have hdoh : ∀ doh, c.dohConnection = some doh →
      doh.dohParser.state ≠ .dohResponseDone ∧
        doh.dohParser.response.header.ancount.toNat < 256 := by
    intro doh hd
    rw [Conn.expectant, hd] at h
    simpa using h
  exact ⟨fun _ _ doh hd => (hdoh doh hd).1, fun _ doh hd => (hdoh doh hd).2⟩

theorem handlers_return_first_byte : ∃ w c, w.heap 0 = .live c ∧
    c.stmState = .awaitDohResponse ∧ step w (.readable 6 firstByte) ≠ .error .noReturn := by
  obtain ⟨w, h, hp⟩ := @computed_run loopback awaiting
    (fun w => decide (w.nextConn ≤ 1) &&
      w.first fun c => c.stmState == .awaitDohResponse && c.expectant) (by decide +kernel)
  obtain ⟨hone, hfirst⟩ := (Bool.and_eq_true _ _).mp hp
  have hone := of_decide_eq_true hone
  obtain ⟨c, hc, hwaits⟩ := World.liveAt_eq hfirst
  obtain ⟨hst, hexp⟩ := (Bool.and_eq_true _ _).mp hwaits
  refine ⟨w, c, hc, eq_of_beq hst, handlers_return h ((lives h).1.undisturbed hone _)
    ⟨by decide, fun id d hd _ => ?_⟩⟩
  have hid : id = 0 := by
    have hlt : id < w.nextConn := (lives h).1.lt_nextConn (by rw [hd]; simp)
    omega
  subst hid
  cases hd.symm.trans hc
  exact Conn.bounded_of_expectant hexp _

end HttpdProxy
