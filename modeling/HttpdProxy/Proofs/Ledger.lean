import Mathlib.Algebra.GroupWithZero.Nat
import HttpdProxy.Protocol.Histories
import HttpdProxy.Proofs.Daemon

/-!
# The books of the daemon

`bytes_received`, `bytes_sent` and `historical_connections` are kept beside the
connections, one handler at a time, and what the connections did is in their
histories. The two agree (`ledger_exact`): each counter is the sum of what all
connections ever did, freed ones included, as long as that sum is a number of
64 bits. The event of one connection is entered for that one alone
(`event_isolated`).
-/

namespace HttpdProxy

/-! ## A counter -/

/-- A counter, and what a thing done is worth to it. -/
structure Counter where
  value : Metrics → UInt64
  worth : Act → Nat

/-- What a history is worth. -/
def Counter.total (k : Counter) (t : List Act) : Nat := (t.map k.worth).sum

/-- Adding to a counter that may be full. -/
def addedTo (v : UInt64) (n : Nat) : UInt64 := if v < uint64Max then v + n.toUInt64 else v

/-- What is done by the way is worth nothing, and what counts is added. -/
structure Counter.Fair (k : Counter) : Prop where
  minor : ∀ a, a.minor = true → k.worth a = 0
  credits : ∀ {a b : Mid} {acts : List Act}, Happening a b acts →
    k.value b.metrics = addedTo (k.value a.metrics) (k.total acts)

/-- The bytes that were sent to a side. -/
def Act.sentTo (side : Side) : Act → Nat
  | .sent s bs => if s = side then bs.length else 0
  | _ => 0

/-- A call of `register_new_connection`. -/
def Act.registers : Act → Nat
  | .registered => 1
  | _ => 0

namespace Counter

/-- What was sent to the clients is received, as the daemon counts. -/
def received : Counter := ⟨Metrics.bytesReceived, Act.sentTo .client⟩
def sent : Counter := ⟨Metrics.bytesSent, Act.sentTo .origin⟩
def historical : Counter := ⟨Metrics.historicalConnections, Act.registers⟩

end Counter

theorem addedTo_zero (v : UInt64) : addedTo v 0 = v := by
  unfold addedTo
  split
  · exact UInt64.add_zero v
  · rfl

/-- A counter that is below its end counts on, and one that is at its end has
nothing left to count. -/
theorem addedTo_toNat {v : UInt64} {n o : Nat} (h : v.toNat = o) (hn : o + n < 2 ^ 64) :
    (addedTo v n).toNat = o + n := by
  unfold addedTo
  split
  · rw [UInt64.toNat_add, h, show n.toUInt64.toNat = n % 2 ^ 64 from UInt64.toNat_ofNat',
      Nat.mod_eq_of_lt (show n < 2 ^ 64 by omega), Nat.mod_eq_of_lt hn]
  · next hfull =>
      have hmax : ¬ v.toNat < 2 ^ 64 - 1 := fun hlt =>
        hfull (by rw [UInt64.lt_iff_toNat_lt]; exact hlt)
      omega

section

variable {d : DohUtils} {k : Counter} {a b : Mid}

theorem Counter.Fair.grown (hk : k.Fair) {t t' : List Act} (h : Grown t t') :
    k.total t' = k.total t :=
  h.view fun a t ha => by
    rw [Counter.total, List.map_cons, List.sum_cons, hk.minor a ha, Nat.zero_add]
    rfl

/-- One move. -/
theorem Move.counts (h : Move d a b) (hk : k.Fair) :
    ∃ n, k.total b.conn.trace = k.total a.conn.trace + n ∧
      k.value b.metrics = addedTo (k.value a.metrics) n := by
  obtain ⟨acts, hacts, hg⟩ := h.happens
  refine ⟨k.total acts, ?_, hk.credits hacts⟩
  rw [hk.grown hg, Counter.total, List.map_append, List.sum_append, Nat.add_comm]
  rfl

/-- An event: what the others are worth stays as it is. -/
theorem Steps.counts (hs : Steps d a b) (hk : k.Fair) {o : Nat}
    (ha : o + k.total a.conn.trace < 2 ^ 64 →
      (k.value a.metrics).toNat = o + k.total a.conn.trace) :
    o + k.total b.conn.trace < 2 ^ 64 →
      (k.value b.metrics).toNat = o + k.total b.conn.trace := by
  induction hs with
  | refl => exact ha
  | tail _ hm ih =>
      intro hlt
      obtain ⟨n, hn, hv⟩ := hm.counts hk
      rw [hn, ← Nat.add_assoc] at hlt ⊢
      rw [hv]
      exact addedTo_toNat (ih (by omega)) hlt

end

/-! ## The three counters -/

theorem increaseBytesReceived_eq (n : Nat) (m : Metrics) :
    increaseBytesReceived n m = { m with bytesReceived := addedTo m.bytesReceived n } := by
  unfold increaseBytesReceived addedTo
  split <;> rfl

theorem increaseBytesSent_eq (n : Nat) (m : Metrics) :
    increaseBytesSent n m = { m with bytesSent := addedTo m.bytesSent n } := by
  unfold increaseBytesSent addedTo
  split <;> rfl

theorem registerNewConnection_historical (m : Metrics) :
    (registerNewConnection m).historicalConnections = addedTo m.historicalConnections 1 ∧
      (registerNewConnection m).bytesReceived = m.bytesReceived ∧
      (registerNewConnection m).bytesSent = m.bytesSent := by
  unfold registerNewConnection addedTo
  dsimp only
  split <;> split <;> exact ⟨rfl, rfl, rfl⟩

/-- What becomes of the three counters in one move. -/
theorem Happening.credits {a b : Mid} {acts : List Act} (h : Happening a b acts) :
    b.metrics.bytesReceived
        = addedTo a.metrics.bytesReceived (Counter.received.total acts) ∧
      b.metrics.bytesSent = addedTo a.metrics.bytesSent (Counter.sent.total acts) ∧
      b.metrics.historicalConnections
        = addedTo a.metrics.historicalConnections (Counter.historical.total acts) := by
  have hsame : b.metrics.ledger = a.metrics.ledger →
      b.metrics.bytesReceived = addedTo a.metrics.bytesReceived 0 ∧
        b.metrics.bytesSent = addedTo a.metrics.bytesSent 0 ∧
        b.metrics.historicalConnections = addedTo a.metrics.historicalConnections 0 := by
    intro hl
    simp only [Metrics.ledger, Prod.mk.injEq] at hl
    simp only [addedTo_zero]
    exact ⟨hl.2.1, hl.2.2, hl.1⟩
  cases h with
  | nothing _ hl => exact hsame hl
  | received _ _ _ hl => exact hsame hl
  | ended _ _ hl => exact hsame hl
  | started _ _ hm => exact hsame (congrArg _ hm)
  | entered _ _ _ _ _ hm => exact hsame (congrArg _ hm)
  | asked _ _ _ hm => exact hsame (congrArg _ hm)
  | toClient bs _ hm =>
      rw [hm, increaseBytesReceived_eq]
      exact ⟨rfl, (addedTo_zero _).symm, (addedTo_zero _).symm⟩
  | toOrigin bs _ hm =>
      rw [hm, increaseBytesSent_eq]
      exact ⟨(addedTo_zero _).symm, rfl, (addedTo_zero _).symm⟩
  | registered _ hm =>
      obtain ⟨hh, hr, hs⟩ := registerNewConnection_historical a.metrics
      rw [hm, hh, hr, hs]
      exact ⟨(addedTo_zero _).symm, (addedTo_zero _).symm, rfl⟩

theorem received_fair : Counter.received.Fair where
  minor a ha := by cases a <;> first | rfl | cases ha
  credits h := h.credits.1

theorem sent_fair : Counter.sent.Fair where
  minor a ha := by cases a <;> first | rfl | cases ha
  credits h := h.credits.2.1

theorem historical_fair : Counter.historical.Fair where
  minor a ha := by cases a <;> first | rfl | cases ha
  credits h := h.credits.2.2

/-! ## The daemon -/

section

variable {k : Counter} {w w' : World} {id : Nat}

/-- What all the histories are worth. -/
def World.worth (k : Counter) (w : World) : Nat :=
  w.population.total fun s => k.total s.2.trace

/-- The counter says so, if it can. -/
def World.Balanced (k : Counter) (w : World) : Prop :=
  w.worth k < 2 ^ 64 → (k.value w.metrics).toNat = w.worth k

theorem Quiet.balanced (hq : Quiet w w') (h : w.Balanced k) : w'.Balanced k := by
  rw [World.Balanced, World.worth, hq.population, hq.metrics]
  exact h

theorem Accepted.balanced {fd : Int} {c : Conn} (ha : Accepted w fd c w')
    (h : w.Balanced k) : w'.Balanced k := by
  obtain ⟨⟨fd', size, now, mem, he⟩, hpop⟩ := ha.population
  cases he
  rw [World.Balanced, World.worth, hpop, Lib.Population.total_birth, ha.metrics]
  exact h

theorem Turned.balanced (hk : k.Fair) (hs : Sound w) (ht : Turned w id w')
    (h : w.Balanced k) : w'.Balanced k := by
  obtain ⟨c, s, hc, ⟨_, _, hsteps⟩, hpop⟩ := ht.population
  have hid : id < w.nextConn := hs.lt_nextConn (by rw [hc]; simp)
  have hmember := member_live hc
  have hle := Lib.Population.le_total (f := fun s => k.total s.2.trace) hid hmember
  have hturn := Lib.Population.total_turn (fun s => k.total s.2.trace) s
    w'.metrics hid hmember
  rw [← hpop] at hturn
  change k.total c.trace ≤ w.worth k at hle
  change w'.worth k + k.total c.trace = w.worth k + k.total s.2.trace at hturn
  -- what the others are worth
  have hcounts := hsteps.counts hk (o := w.worth k - k.total c.trace) fun hlt => by
    dsimp only at hlt ⊢
    rw [Nat.sub_add_cancel hle] at hlt ⊢
    exact h hlt
  dsimp only at hcounts
  have hnow : w'.worth k = w.worth k - k.total c.trace + k.total s.2.trace := by omega
  rw [World.Balanced, hnow]
  exact hcounts

theorem run_balanced (hk : k.Fair) (h0 : k.value initMetrics = 0) {cfg : Config}
    {es : List Event} (h : Lib.RunsWhen step Undisturbed (initWorld cfg) es w) :
    w.Balanced k := by
  have hboth : Sound w ∧ w.Balanced k := by
    refine h.invariant (I := fun w => Sound w ∧ w.Balanced k) ?_
      ⟨initWorld_sound cfg, fun _ => ?_⟩
    · intro w e w' ⟨hs, hb⟩ hun hr
      exact step_keeps (I := World.Balanced k) (fun _ _ hb hq => hq.balanced hb)
        (fun _ _ _ _ _ hb ha => ha.balanced hb)
        (fun _ _ _ hs hb ht => ht.balanced hk hs hb) hs hun hb hr
    · rw [show (initWorld cfg).metrics = initMetrics from rfl, h0]
      rfl
  exact hboth.2

end

/-- In every run, `bytes_received` is what was ever sent to the clients,
`bytes_sent` what was ever sent to origins and to the DoH server, and
`historical_connections` how often a connection was registered, each as long
as it is less than 2^64. -/
theorem ledger_exact {cfg : Config} {es : List Event} {w : World}
    (h : Lib.RunsWhen step Undisturbed (initWorld cfg) es w) :
    (w.worth .received < 2 ^ 64 → w.metrics.bytesReceived.toNat = w.worth .received) ∧
      (w.worth .sent < 2 ^ 64 → w.metrics.bytesSent.toNat = w.worth .sent) ∧
      (w.worth .historical < 2 ^ 64 →
        w.metrics.historicalConnections.toNat = w.worth .historical) :=
  ⟨run_balanced received_fair rfl h, run_balanced sent_fair rfl h,
    run_balanced historical_fair rfl h⟩

/-- A tunnel, with the client told of it. -/
theorem ledger_exact_tunnel : ∃ w : World,
    w.metrics.bytesReceived.toNat = connectReply.length ∧
      w.worth .received = connectReply.length := by
  obtain ⟨w, h, hp⟩ := @computed_run loopback
    [.readable 3 { Env.silent with accept := some 5 },
      .readable 5
        { Env.silent with
          recv := some (ascii "CONNECT 127.0.0.1:80 HTTP/1.0\r\n")
          socket := fun _ => some 6 },
      .writable 6 Env.silent,
      .writable 5 { Env.silent with send := some 1000 }]
    (fun w => decide (w.metrics.bytesReceived.toNat = connectReply.length) &&
      decide (w.worth .received < 2 ^ 64)) (by decide +kernel)
  obtain ⟨htold, hlt⟩ := (Bool.and_eq_true _ _).mp hp
  have hexact := (ledger_exact h).1 (of_decide_eq_true hlt)
  exact ⟨w, of_decide_eq_true htold, hexact.symm.trans (of_decide_eq_true htold)⟩

/-! ## Whose event it is -/

/-- The event of a connection is handled on its behalf, if it is waited for,
or not at all. -/
theorem step_served {w w' : World} {id : Nat} {e : Event} (h : Sound w) (hun : Undisturbed w e)
    (hact : e.actor w = some id) (hr : step w e = .ok w') :
    e.awaited w = false ∧ w' = w ∨ ∃ env got, Served env got w id w' := by
  obtain ⟨fd, it, env, he, hf, hd⟩ := Event.item_of_actor hact
  obtain ⟨c, oi, hc, hrest, hside⟩ := h.item_cases hf hd
  have hserve : ∀ {g : Ctx → Except Fault Ctx} (got : Option Act),
      (∀ x, g (w.ctx id c) = .ok x → EventCourse env (w.ctx id c) (w.ctx id c) got x) →
      onBehalfOf w id g = .ok w' → ∃ env got, Served env got w id w' := fun got hg hr =>
    ⟨env, fun _ => got, onBehalfOf_served hc hg hr⟩
  rcases he with rfl | rfl
  · rw [step, hf] at hr
    rw [Event.awaited, hf]
    dsimp only at hr
    split at hr
    · next hint =>
        have hown := hun.reader hf hd hint hc
        rcases hside with ⟨rfl, rfl⟩ | ⟨rfl, rfl, rfl⟩
        · have hrest' := hrest.of_ownOrigin hown
          exact .inr (hserve _ (fun x hx => proxyClientRead_moves hrest' hint rfl hx) hr)
        · have hrest' := hrest.resting_some
          exact .inr (hserve _ (fun x hx => proxyOriginRead_moves hrest' hint rfl hx) hr)
    · next hint =>
        cases hr
        exact .inl ⟨by simpa using hint, rfl⟩
  · rw [step, hf] at hr
    rw [Event.awaited, hf]
    dsimp only at hr
    split at hr
    · next hint =>
        rcases hside with ⟨rfl, rfl⟩ | ⟨rfl, rfl, rfl⟩
        · refine .inr (hserve none (fun x hx => ?_) hr)
          cases hpart : c.repliesInPart env with
          | true => exact proxyClientWrite_part_moves hrest hpart hx
          | false =>
              have hrest' := hrest.of_ownOrigin (hun.writer hf hd hint hc hpart)
              exact proxyClientWrite_moves hrest' hint hx
        · have hrest' := hrest.resting_some
          exact .inr (hserve none (fun x hx => proxyOriginWrite_moves hrest' hint hx) hr)
    · next hint =>
        cases hr
        exact .inl ⟨by simpa using hint, rfl⟩

/-- The event of one connection leaves every other connection, and every
registration of another's, as they are. -/
theorem event_isolated {cfg : Config} {es : List Event} {w w' : World} {id : Nat} {e : Event}
    (h : Lib.RunsWhen step Undisturbed (initWorld cfg) es w) (hun : Undisturbed w e)
    (hact : e.actor w = some id) (hr : step w e = .ok w') :
    (∀ j, j ≠ id → w'.heap j = w.heap j) ∧
      ∀ f it, it.data ≠ .connection id → (w'.sel.fds f = some it ↔ w.sel.fds f = some it) := by
  rcases step_served (lives h).1 hun hact hr with ⟨_, rfl⟩ | ⟨env, got, hs⟩
  · exact ⟨fun _ _ => rfl, fun _ _ _ => Iff.rfl⟩
  · obtain ⟨hitems, hheap, _⟩ := hs.turned.frame
    exact ⟨hheap, hitems⟩

/-- The origin of the connection that is relayed fails, and the one in ERROR
and the one whose origin has hung up do not notice. -/
theorem event_isolated_crowd : ∃ (w w' : World) (it : Item),
    w.liveAt 1 (fun c => c.stmState == .connected) = true ∧
      w.sel.fds 6 = some it ∧ it.data = .connection 2 ∧
      step w (.readable 8 Env.silent) = .ok w' ∧ w'.heap 0 = w.heap 0 ∧
      w'.heap 2 = w.heap 2 ∧ w'.sel.fds 6 = some it := by
  obtain ⟨w, h, hp⟩ := @computed_run loopback crowd
    (fun w => (w.liveAt 1 (fun c => c.stmState == .connected) &&
      (w.sel.fds 6).any (fun it => it.data == .connection 2)) &&
      (checkUndisturbed w (.readable 8 Env.silent) &&
        decide ((Event.readable 8 Env.silent).actor w = some 1)) &&
      (step w (.readable 8 Env.silent)).toBool) (by decide +kernel)
  obtain ⟨hp, hok⟩ := (Bool.and_eq_true _ _).mp hp
  obtain ⟨hstate, hp⟩ := (Bool.and_eq_true _ _).mp hp
  obtain ⟨hone, hsix⟩ := (Bool.and_eq_true _ _).mp hstate
  obtain ⟨hcheck, hact⟩ := (Bool.and_eq_true _ _).mp hp
  obtain ⟨it, hit, hd⟩ := (Option.any_eq_true _ _).mp hsix
  have hd := eq_of_beq hd
  cases hr : step w (.readable 8 Env.silent) with
  | error f =>
      rw [hr] at hok
      cases hok
  | ok w' =>
      obtain ⟨hheap, hitems⟩ := event_isolated h ((lives h).1.undisturbed_of_check hcheck)
        (of_decide_eq_true hact) hr
      exact ⟨w, w', it, hone, hit, hd, hr, hheap 0 (by decide), hheap 2 (by decide),
        (hitems 6 it (by rw [hd]; decide)).mpr hit⟩

end HttpdProxy
