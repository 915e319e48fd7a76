import HttpdProxy.Proofs.Itineraries
import HttpdProxy.Proofs.Ledger

/-!
# No event for nothing

`select` reports a descriptor again and again while it is ready, so that a
handler that left things as they were would be called without end: a stream
that has ended stays readable, a socket with room stays writable. Every event
of a connection is paid for instead, with a byte that is received or sent, the
end of a stream, a socket that is opened or a state that is entered
(`Move.pays`), and each stream ends once. What a connection costs the daemon is
bounded by what passes through it (`events_paid_for`).
-/

namespace HttpdProxy

/-! ## What a trace is worth -/

/-- The bytes that were received and sent. -/
def traffic : List Act → Nat
  | [] => 0
  | .received _ bs :: t | .sent _ bs :: t => bs.length + traffic t
  | _ :: t => traffic t

/-- The sockets that were opened. -/
def sockets : List Act → Nat
  | [] => 0
  | .opened _ _ _ :: t => sockets t + 1
  | _ :: t => sockets t

/-- How often a side's stream ended. -/
def endsOf (side : Side) : List Act → Nat
  | [] => 0
  | .eof s :: t => (if s = side then 1 else 0) + endsOf side t
  | _ :: t => endsOf side t

/-- What an event can be paid with. -/
def Act.worth : Act → Nat
  | .received _ bs | .sent _ bs => bs.length
  | .eof _ | .opened _ _ _ | .enter _ => 1
  | _ => 0

def work : List Act → Nat
  | [] => 0
  | a :: t => a.worth + work t

theorem work_eq (t : List Act) :
    work t = traffic t + sockets t + endsOf .client t + endsOf .origin t +
      (statesEntered t).length := by
  induction t with
  | nil => rfl
  | cons a t ih =>
      rw [work, ih]
      cases a with
      | eof side =>
          cases side
          all_goals
            simp [Act.worth, traffic, sockets, endsOf, statesEntered]
            omega
      | _ =>
          simp only [Act.worth, traffic, sockets, endsOf, statesEntered, List.length_cons]
          omega

theorem work_append (t t' : List Act) : work (t ++ t') = work t + work t' := by
  induction t with
  | nil => exact (Nat.zero_add _).symm
  | cons a t ih => rw [List.cons_append, work, work, ih, Nat.add_assoc]

theorem work_le {t t' : List Act} (h : t <:+ t') : work t ≤ work t' := by
  obtain ⟨acts, rfl⟩ := h
  rw [work_append]
  exact Nat.le_add_left _ _

section

variable {d : DohUtils} {c c' : Conn} {ph ph' : Phase} {m m' : Metrics} {next : ConnState}

/-! ## An event is paid for -/

/-- In the phases of an event that began when the trace was worth `n`: it has
been paid for, or the way from TRY_CONNECTION_IP is still open, on which a
socket is opened or another state entered. -/
def Conn.Pays (n : Nat) (c : Conn) : Phase → Prop
  | .rest | .reading _ => n < work c.trace
  | .writing | .walking | .asking =>
      n < work c.trace ∨ n ≤ work c.trace ∧ c.current = some .tryConnectionIp
  | .goto s =>
      n < work c.trace ∨
        n ≤ work c.trace ∧ c.current = some .tryConnectionIp ∧ s ≠ .tryConnectionIp
  | .gone => n ≤ work c.trace

/-- Paid for once is paid for. -/
theorem Conn.Pays.paid {n : Nat} (h : n < work c.trace) (ph : Phase) : c.Pays n ph := by
  cases ph with
  | rest | reading => exact h
  | writing | walking | asking | goto => exact .inl h
  | gone => exact Nat.le_of_lt h

/-- The first move of an event. -/
theorem Move.pays_first (hm : Move d ⟨.rest, c, m⟩ ⟨ph, c', m'⟩) :
    c'.Pays (work c.trace) ph := by
  cases hm with
  | readClient now _ _ hne _ | readOrigin now _ _ _ hne _ =>
      exact Nat.lt_add_of_pos_left (List.length_pos_of_ne_nil hne)
  | endOfClient now _ _ _ | endOfOrigin now _ _ _ => exact Nat.lt_add_of_pos_left Nat.one_pos
  | writeClient now _ hn hb | writeRequest now _ hn hb | writeOrigin now _ _ _ _ hn hb =>
      refine .inl (Nat.lt_add_of_pos_left ?_)
      change 0 < List.length _
      rw [length_taken hb]
      exact hn
  | readyOrigin now hst =>
      refine .inr ⟨Nat.le_refl _, ?_⟩
      cases hcur : c.current with
      | none =>
          rw [Conn.stmState, hcur] at hst
          cases hst
      | some s =>
          change c.current = _
          rw [hcur, ← hst, Conn.stmState_of_current hcur]
  | close now | collect => exact Nat.le_refl _
  | closeEarly now _ => exact Nat.le_add_left _ _

/-- Answers are gone over and given up on the way to another state. -/
theorem Conn.Pays.nextDns {n : Nat} {doh : DohConnection} (h : c.Pays n .walking) :
    (c.nextDns doh).2.Pays n (c.nextDns doh).1 := by
  unfold Conn.nextDns
  dsimp only
  split
  · split
    · exact h
    · exact h
  · split
    · exact h.imp id fun h => ⟨h.1, h.2, by simp⟩
    · exact h

theorem Conn.Pays.exhausted {n : Nat} {doh : DohConnection} (h : c.Pays n .walking) :
    (c.exhausted doh).2.Pays n (c.exhausted doh).1 := by
  unfold Conn.exhausted
  split
  · exact h
  · exact h.imp id fun h => ⟨h.1, h.2, by simp⟩

/-- The moves that follow. -/
theorem Move.pays {n : Nat} (hin : ph ≠ .rest) (h : c.Pays n ph)
    (hm : Move d ⟨ph, c, m⟩ ⟨ph', c', m'⟩) : c'.Pays n ph' := by
  have hle := work_le hm.suffix
  have hpaid : n < work c.trace → c'.Pays n ph' := fun h =>
    .paid (Nat.lt_of_lt_of_le h hle) ph'
  -- a handler of a state other than TRY_CONNECTION_IP has been paid for
  have helse : ∀ {s}, c.current = some s → s ≠ .tryConnectionIp →
      n < work c.trace ∨ n ≤ work c.trace ∧ c.current = some .tryConnectionIp →
      c'.Pays n ph' := by
    intro s hcur hs h
    refine h.elim hpaid fun ⟨_, htry⟩ => absurd ?_ hs
    exact Option.some.inj (hcur.symm.trans htry)
  cases hm with
  | readClient | endOfClient | writeClient | readOrigin | endOfOrigin | readyOrigin
  | writeRequest | writeOrigin | close | closeEarly | collect => exact absurd rfl hin
  | start | parseByte | parseError | parseDone | parseIdle | awaitFailed | awaitByte
  | awaitIdle | awaitEnd | relayRead | relayEnd | closingRead | closingDone
  | closingEmpty => exact hpaid h
  | tryQuery _ _ | tryConnect _ _ _ _ | tryRequest _ _ _ | tryFail _ _ =>
      exact h.elim hpaid fun h => .inr ⟨Nat.le_trans h.1 hle, h.2, by simp⟩
  | tryNext _ _ _ => exact Conn.Pays.nextDns h
  | walkSkip _ _ _ _ | walkRefused _ _ _ _ =>
      exact h.elim hpaid fun h => .inr ⟨Nat.le_trans h.1 hle, h.2⟩
  | walkOpen _ _ _ _ hr =>
      have hn : n ≤ work c.trace := h.elim Nat.le_of_lt And.left
      refine .paid (Nat.lt_of_le_of_lt hn ?_) _
      cases hr
      all_goals
        change _ < 1 + (0 + work c.trace)
        omega
  | walkEnd _ _ => exact Conn.Pays.exhausted h
  | ask ha =>
      cases ha with
      | refused => exact h.elim hpaid fun h => .inr ⟨Nat.le_trans h.1 hle, h.2, by simp⟩
      | opened hr =>
          have hn : n ≤ work c.trace := h.elim Nat.le_of_lt And.left
          refine .paid (Nat.lt_of_le_of_lt hn ?_) _
          cases hr <;> exact Nat.lt_add_of_pos_left Nat.one_pos
  | drained hcur hs _ | draining hcur hs _ =>
      refine helse hcur ?_ h
      rcases hs with rfl | rfl | rfl <;> simp
  | relayWrite hcur | closingWrite hcur | emptyDone hcur _ _ | emptyWrite hcur _ =>
      exact helse hcur (by simp) h
  | stay hcur =>
      refine h.elim hpaid fun ⟨_, htry, hne⟩ => absurd ?_ hne
      exact Option.some.inj (hcur.symm.trans htry)
  | arrive env hcur _ ha =>
      have hn : n ≤ work c.trace := h.elim Nat.le_of_lt And.left
      rename_i s _
      have hg := arrival_grown ha
      change n < work c'.trace
      have hentered : n < work (c.entered s).trace :=
        Nat.lt_of_le_of_lt hn (Nat.lt_add_of_pos_left Nat.one_pos)
      refine Nat.lt_of_lt_of_le hentered (work_le ?_)
      split at hg
      · rw [hg]
        exact List.suffix_cons _ _
      · exact hg.suffix
  | free _ => exact Nat.le_trans (h.elim Nat.le_of_lt And.left) hle

theorem Course.pays {env : Env} {n : Nat} {a b : Phase × Ctx} (hc : Course d env a b)
    (h : a.2.conn.Pays n a.1) : b.2.conn.Pays n b.1 := by
  induction hc with
  | refl => exact h
  | tail _ hadv ih => exact hadv.move.pays hadv.inside ih

/-- An event leaves more than it found, but for the last. -/
theorem EventCourse.pays {env : Env} {x₀ x x' : Ctx} {got : Option Act}
    (h : EventCourse env x₀ x got x') :
    ∃ ph, Settled x₀ x' ph ∧ x'.conn.Pays (work x.conn.trace) ph := by
  obtain ⟨ph, hset, ⟨b, hentry, hcourse⟩ | ⟨rfl, hclosing⟩⟩ := h
  · exact ⟨ph, hset, hcourse.pays hentry.move.pays_first⟩
  · exact ⟨.gone, hset, hclosing.move.pays_first⟩

/-! ## A stream ends once -/

/-- Whether a stream can still end. -/
def ConnStatus.open (s : ConnStatus) : Nat := if s = .activeStatus then 1 else 0

/-- What ends of the two streams depend on. -/
def Conn.endsView (c : Conn) :=
  (c.clientStatus.open, c.originStatus.open, endsOf .client c.trace, endsOf .origin c.trace,
    sockets c.trace)

/-- The client's stream has ended once at most, and the origin's once for each
socket, the last of which is still to end while the origin is active. -/
def Conn.EndsOnce (c : Conn) (ph : Phase) : Prop :=
  if ph = .gone then endsOf .client c.trace ≤ 1 ∧ endsOf .origin c.trace ≤ sockets c.trace
  else endsOf .client c.trace + c.clientStatus.open ≤ 1 ∧
    endsOf .origin c.trace + c.originStatus.open ≤ sockets c.trace

theorem Conn.EndsOnce.ended (h : c.EndsOnce ph) :
    endsOf .client c.trace ≤ 1 ∧ endsOf .origin c.trace ≤ sockets c.trace := by
  unfold Conn.EndsOnce at h
  split at h
  · exact h
  · omega

theorem Conn.EndsOnce.congr (h : c.EndsOnce ph) (hv : c'.endsView = c.endsView)
    (hph : ph ≠ .gone) : c'.EndsOnce ph' := by
  rw [EndsOnce, if_neg hph] at h
  simp only [Conn.endsView, Prod.mk.injEq] at hv
  obtain ⟨hc, ho, hec, heo, hs⟩ := hv
  unfold Conn.EndsOnce
  rw [hc, ho, hec, heo, hs]
  split <;> omega

theorem closeOrigin_endsView (c : Conn) : c.closeOrigin.endsView = c.endsView := by
  unfold Conn.closeOrigin
  split
  · next h =>
      simp only [Bool.and_eq_true, beq_iff_eq] at h
      rw [Conn.endsView, Conn.endsView, h.2]
      rfl
  · rfl

theorem closeClient_endsView (c : Conn) : c.closeClient.endsView = c.endsView := by
  unfold Conn.closeClient
  split
  · next h =>
      simp only [Bool.and_eq_true, beq_iff_eq] at h
      rw [Conn.endsView, Conn.endsView, h.2]
      rfl
  · rfl

theorem analyzeRead_endsView (key : SelectorKey) (c : Conn) :
    (analyzeRead key c).endsView = c.endsView := by
  refine analyzeRead_keeps Conn.endsView ?_ fun _ => rfl
  unfold parseResponse
  dsimp only
  split <;> rfl

theorem finishRequest_endsView (key : SelectorKey) (c : Conn) :
    (finishRequest key c).endsView = c.endsView := by
  unfold finishRequest
  dsimp only
  split
  · rfl
  · split <;> rfl

theorem arrival_endsView {env : Env} {s : ConnState} (h : c.arrival d env s = .ok c') :
    c'.endsView = c.endsView := by
  cases s with
  | sendDohRequest | sendRequestLine | error =>
      obtain ⟨buffer, _, h⟩ := Lib.bind_eq_ok.mp h
      cases h
      rfl
  | awaitDohResponse =>
      cases h
      unfold initDohState
      split
      · rfl
      · split <;> rfl
  | connected =>
      cases h
      split <;> rfl
  | closing =>
      cases h
      exact (closeClient_endsView _).trans (closeOrigin_endsView c)
  | emptyBuffers =>
      cases h
      exact (closeOrigin_endsView _).trans (closeClient_endsView c)
  | parsingRequestLine | tryConnectionIp | done =>
      cases h
      rfl

/-- A new socket's stream is still to end. -/
theorem Registration.endsOnce {peer : Peer} {addr : Sockaddr} (h : c.EndsOnce ph)
    (hph : ph ≠ .gone) (hr : Registration peer addr c next c') : c'.EndsOnce (.goto next) := by
  rw [Conn.EndsOnce, if_neg hph] at h
  rw [Conn.EndsOnce, if_neg (by simp)]
  have hone : ConnStatus.open .activeStatus = 1 := rfl
  cases hr with
  | rejected fd _ | accepted fd _ =>
      change endsOf .client c.trace + _ ≤ 1 ∧
        endsOf .origin c.trace + ConnStatus.open .activeStatus ≤ sockets c.trace + 1
      exact ⟨h.1, by omega⟩

theorem Attempt.endsOnce {peer : Peer} {addr : Sockaddr} (h : c.EndsOnce ph)
    (hph : ph ≠ .gone) (ha : Attempt peer addr c next c') : c'.EndsOnce (.goto next) := by
  cases ha with
  | refused => exact Conn.EndsOnce.congr (c := c) h rfl hph
  | opened hr => exact hr.endsOnce h hph

/-- Where the client is read past the setup, its stream has not ended. -/
theorem Conn.client_open (hst : c.Stage c.stmState) (hint : c.interests.1.read = true)
    (hge : ConnState.connected.num ≤ c.stmState.num) : c.clientStatus = .activeStatus := by
  unfold Conn.interests at hint
  generalize hs : c.stmState = s at hst hint hge
  cases s with
  | connected => exact hst.1
  | closing =>
      rcases hst.1 with ⟨_, ho⟩ | ⟨hc, _⟩
      · change (c.originStatus.ending && _) = true at hint
        rw [ho] at hint
        cases hint
      · exact hc
  | parsingRequestLine | tryConnectionIp | sendDohRequest | awaitDohResponse
  | sendRequestLine => exact absurd hge (by decide)
  | emptyBuffers | done | error => cases hint

/-- Where the origin is read, its stream has not ended. -/
theorem Conn.origin_open (hst : c.Stage c.stmState) (hint : c.interests.2.read = true) :
    c.originStatus = .activeStatus := by
  unfold Conn.interests at hint
  generalize hs : c.stmState = s at hst hint
  cases s with
  | awaitDohResponse => exact hst.1.both.2
  | connected => exact hst.2
  | closing =>
      rcases hst.1 with ⟨_, ho⟩ | ⟨hc, _⟩
      · exact ho
      · change (c.clientStatus.ending && _) = true at hint
        rw [hc] at hint
        cases hint
  | parsingRequestLine | tryConnectionIp | sendDohRequest | sendRequestLine | emptyBuffers
  | done | error => cases hint

/-- Before the relay the client is there. -/
theorem Conn.client_early (hst : c.Stage c.stmState)
    (hlt : c.stmState.num < ConnState.connected.num) : c.clientStatus = .activeStatus := by
  generalize hs : c.stmState = s at hst hlt
  cases s with
  | parsingRequestLine => exact hst.1.client
  | tryConnectionIp | sendDohRequest | awaitDohResponse | sendRequestLine =>
      exact hst.1.both.1
  | connected | closing | emptyBuffers | done | error => exact absurd hlt (by decide)

theorem endsOnce_move (hst : c.StageOf ph) (h : c.EndsOnce ph)
    (hm : Move d ⟨ph, c, m⟩ ⟨ph', c', m'⟩) : c'.EndsOnce ph' := by
  cases hm with
  | readClient | writeClient | readOrigin | readyOrigin | writeRequest | writeOrigin | close
  | collect | start | parseByte | parseError | parseIdle | tryQuery | tryConnect | tryRequest
  | tryFail | walkSkip | walkRefused | drained | draining | awaitFailed | awaitIdle
  | relayWrite | closingDone | closingEmpty | stay | free =>
      exact h.congr rfl (by simp)
  | endOfClient now hint _ hge =>
      have hopen := Conn.client_open hst hint hge
      rw [Conn.EndsOnce, if_neg (by simp), hopen] at h
      rw [Conn.EndsOnce, if_neg (by simp)]
      change 1 + endsOf .client c.trace + 0 ≤ 1 ∧ 0 + endsOf .origin c.trace + _ ≤ _
      have hone : ConnStatus.open .activeStatus = 1 := rfl
      exact ⟨by omega, by rw [Nat.zero_add]; exact h.2⟩
  | endOfOrigin now hint _ _ =>
      have hopen := Conn.origin_open hst hint
      rw [Conn.EndsOnce, if_neg (by simp), hopen] at h
      rw [Conn.EndsOnce, if_neg (by simp)]
      change 0 + endsOf .client c.trace + _ ≤ 1 ∧ 1 + endsOf .origin c.trace + 0 ≤ _
      have hone : ConnStatus.open .activeStatus = 1 := rfl
      exact ⟨by rw [Nat.zero_add]; exact h.1, by
        change _ ≤ sockets c.trace
        omega⟩
  | closeEarly now hlt =>
      have hopen := Conn.client_early hst hlt
      rw [Conn.EndsOnce, if_neg (by simp), hopen] at h
      rw [Conn.EndsOnce, if_pos rfl]
      change 1 + endsOf .client c.trace ≤ 1 ∧ 0 + endsOf .origin c.trace ≤ sockets c.trace
      have hone : ConnStatus.open .activeStatus = 1 := rfl
      omega
  | @parseDone c c' _ _ b buffer _ _ _ _ _ ha =>
      have hparsed : (c.parsed b buffer).EndsOnce .writing := h.congr rfl (by simp)
      have hnext := ha.endsOnce hparsed (by simp)
      split
      · exact hnext.congr (finishRequest_endsView _ _) (by simp)
      · exact hnext
  | tryNext _ _ _ =>
      refine h.congr ?_ (by simp)
      obtain ⟨e, dc, he⟩ := c.nextDns_eq _
      rw [he]
      rfl
  | @walkOpen c c' _ doh a _ _ _ _ _ hr =>
      have hexamined : (c.examine doh a).EndsOnce .walking := h.congr rfl (by simp)
      exact hr.endsOnce hexamined (by simp)
  | walkEnd _ _ =>
      refine h.congr ?_ (by simp)
      obtain ⟨e, dc, he⟩ := c.exhausted_eq _
      rw [he]
      rfl
  | ask ha => exact ha.endsOnce h (by simp)
  | awaitByte alloc _ _ _ _ _ _ =>
      refine h.congr ?_ (by simp)
      obtain ⟨e, dc, b, he⟩ := Conn.judged_eq (c.fed _ _) _ _ _
      rw [he]
      rfl
  | awaitEnd _ _ _ _ _ =>
      refine h.congr ?_ (by simp)
      obtain ⟨e, dc, he⟩ := (c.log (.shutdown .origin)).nextDns_eq _
      rw [he]
      rfl
  | relayRead _ _ _ | relayEnd _ _ => exact h.congr (analyzeRead_endsView _ _) (by simp)
  | closingRead _ _ | closingWrite _ =>
      exact h.congr ((closeClient_endsView _).trans (closeOrigin_endsView c)) (by simp)
  | emptyDone _ _ _ | emptyWrite _ _ =>
      exact h.congr ((closeOrigin_endsView _).trans (closeClient_endsView c)) (by simp)
  | arrive env _ _ ha =>
      exact h.congr ((arrival_endsView ha).trans rfl) (by simp)

theorem Life.endsOnce (h : Life d ph c) : c.EndsOnce ph := by
  refine h.invariant (I := fun ph c => c.EndsOnce ph) ?_ ?_
  · intro fd size now mem
    rw [Conn.EndsOnce, if_neg (by simp)]
    change endsOf .client [] + 1 ≤ 1 ∧ endsOf .origin [] + 0 ≤ sockets []
    exact ⟨Nat.le_refl _, Nat.le_refl _⟩
  · intro ph c m ph' c' m' hl hI hm
    exact endsOnce_move hl.stages.2 hI hm

end

/-! ## What a connection costs -/

/-- An event is handled on behalf of connection `id`. -/
def turnOf (id : Nat) (w : World) (e : Event) : Nat :=
  if e.awaited w = true ∧ e.actor w = some id then 1 else 0

/-- How many events were handled on behalf of connection `id`. -/
def turns (id : Nat) (es : List Event) (w : World) : Nat := Lib.cost step (turnOf id) es w

/-- What a connection has paid for: the event that frees it need not be. -/
def World.paid (id : Nat) (w : World) : Nat :=
  match w.heap id with
  | .unused => 0
  | .live c => work c.trace
  | .freed c => work c.trace + 1

section

variable {w w' : World} {id : Nat} {c : Conn}

theorem World.paid_live (h : w.heap id = .live c) : w.paid id = work c.trace := by
  rw [World.paid, h]

theorem World.paid_freed (h : w.heap id = .freed c) : w.paid id = work c.trace + 1 := by
  rw [World.paid, h]

theorem Steps.work_le {d : DohUtils} {a b : Mid} (h : Steps d a b) :
    work a.conn.trace ≤ work b.conn.trace := by
  induction h with
  | refl => exact Nat.le_refl _
  | tail _ hm ih => exact Nat.le_trans ih (HttpdProxy.work_le hm.suffix)

theorem Quiet.paid (h : Quiet w w') : w'.paid id = w.paid id := by
  rw [World.paid, World.paid, h.heap]

theorem Accepted.paid {fd : Int} (hs : Sound w) (ha : Accepted w fd c w') :
    w.paid id ≤ w'.paid id := by
  by_cases hid : id = w.nextConn
  · rw [World.paid, hs.unused id (Nat.le_of_eq hid.symm)]
    exact Nat.zero_le _
  · have hsame : w'.heap id = w.heap id := by
      rw [ha.heap]
      exact if_neg hid
    rw [World.paid, World.paid, hsame]

theorem Turned.paid {j : Nat} (ht : Turned w j w') : w.paid id ≤ w'.paid id := by
  obtain ⟨_, hheap, _⟩ := ht.frame
  obtain ⟨c, x, hc, ⟨ph, hsteps, hset⟩, rfl⟩ := ht
  by_cases hid : id = j
  · subst hid
    have hself : x.finish.heap id = if x.freed then .freed x.conn else .live x.conn := by
      change (if id = x.id then _ else x.world.heap id) = _
      rw [if_pos (show x.id = id from hset.frame.id).symm]
    rw [World.paid_live hc]
    have hle : work c.trace ≤ work x.conn.trace := hsteps.work_le
    cases hf : x.freed with
    | false =>
        rw [hf] at hself
        rw [World.paid_live hself]
        exact hle
    | true =>
        rw [hf] at hself
        rw [World.paid_freed hself]
        exact Nat.le_succ_of_le hle
  · rw [World.paid, World.paid, hheap id hid]

/-- An event that is handled is paid for, or frees its connection. -/
theorem Served.pays {env : Env} {got : Conn → Option Act} (h : Served env got w id w') :
    ∃ c c', w.heap id = .live c ∧ (w'.heap id = .live c' ∧ work c.trace < work c'.trace ∨
      w'.heap id = .freed c' ∧ work c.trace ≤ work c'.trace) := by
  obtain ⟨c, x, hc, hcourse, rfl⟩ := h
  obtain ⟨ph, hset, hpays⟩ := hcourse.pays
  have hid : x.id = id := hset.frame.id
  have hself : x.finish.heap id = if x.freed then .freed x.conn else .live x.conn := by
    change (if id = x.id then _ else x.world.heap id) = _
    rw [if_pos hid.symm]
  refine ⟨c, x.conn, hc, ?_⟩
  rcases hset with ⟨rfl, oi, hr⟩ | ⟨rfl, hg⟩
  · rw [hr.standing.alive] at hself
    exact .inl ⟨hself, hpays⟩
  · rw [hg.freed] at hself
    exact .inr ⟨hself, hpays⟩

theorem Served.paid {env : Env} {got : Conn → Option Act} (h : Served env got w id w') :
    w.paid id + 1 ≤ w'.paid id := by
  obtain ⟨c, c', hc, ⟨hc', hlt⟩ | ⟨hc', hle⟩⟩ := h.pays
  · rw [World.paid_live hc, World.paid_live hc']
    exact hlt
  · rw [World.paid_live hc, World.paid_freed hc']
    exact Nat.succ_le_succ hle

theorem step_paid {e : Event} (h : Sound w) (hun : Undisturbed w e)
    (hr : step w e = .ok w') : w.paid id + turnOf id w e ≤ w'.paid id := by
  unfold turnOf
  split
  · next hturn =>
      rcases step_served h hun hturn.2 hr with ⟨hnot, _⟩ | ⟨env, got, hs⟩
      · rw [hturn.1] at hnot
        cases hnot
      · exact hs.paid
  · refine (step_keeps (I := fun w1 => w.paid id ≤ w1.paid id) ?_ ?_ ?_ h hun
      (Nat.le_refl _) hr).2
    · exact fun _ _ hle hq => hq.paid.symm ▸ hle
    · exact fun _ _ _ _ hs hle hacc => Nat.le_trans hle (hacc.paid hs)
    · exact fun _ _ _ _ hle ht => Nat.le_trans hle ht.paid

end

/-- From `c` to `c'` a byte was received or sent, a socket opened, a side's
stream ended or a state entered. -/
def Conn.Moved (c c' : Conn) : Prop :=
  traffic c.trace < traffic c'.trace ∨ sockets c.trace < sockets c'.trace ∨
    endsOf .client c.trace < endsOf .client c'.trace ∨
    endsOf .origin c.trace < endsOf .origin c'.trace ∨
    (statesEntered c.trace).length < (statesEntered c'.trace).length

theorem Conn.moved_of_work {c c' : Conn} (h : work c.trace < work c'.trace) : c.Moved c' := by
  rw [work_eq, work_eq] at h
  unfold Conn.Moved
  omega

/-- The events handled on behalf of a connection number at most the bytes it
received and sent, two for each socket it opened, and fifteen: each moves a
byte, opens a socket, ends a side's stream, enters a state or frees the
connection. -/
theorem events_paid_for {cfg : Config} {es : List Event} {w : World}
    (h : Lib.RunsWhen step Undisturbed (initWorld cfg) es w) (id : Nat) (c : Conn)
    (hc : w.heap id = .live c ∨ w.heap id = .freed c) :
    turns id es (initWorld cfg) ≤ traffic c.trace + 2 * sockets c.trace + 15 ∧
      ∀ e w', Undisturbed w e → e.awaited w = true → e.actor w = some id →
        step w e = .ok w' → (∃ c', w'.heap id = .live c' ∧ c.Moved c') ∨
          ∃ c', w'.heap id = .freed c' := by
  constructor
  · have hcost := h.cost_le (turnOf id) (World.paid id) (I := Sound)
      (fun t e t' hs hun hr => (step_population hs hun hr).1)
      (fun t e t' hs hun hr => step_paid hs hun hr) (initWorld_sound cfg)
    have hpaid : w.paid id ≤ work c.trace + 1 := by
      rcases hc with hc | hc
      · rw [World.paid_live hc]
        exact Nat.le_succ _
      · rw [World.paid_freed hc]
    obtain ⟨ph, _, hlife⟩ := life_of_heap h hc
    obtain ⟨hclient, horigin⟩ := hlife.endsOnce.ended
    have hstates := hlife.travelled.length_le
    rw [work_eq] at hpaid
    change _ + turns id es (initWorld cfg) ≤ _ at hcost
    omega
  · intro e w' hun hawaited hact hr
    rcases step_served (lives h).1 hun hact hr with ⟨hnot, _⟩ | ⟨env, got, hs⟩
    · rw [hawaited] at hnot
      cases hnot
    · obtain ⟨c₀, c', hlive, ⟨hc', hlt⟩ | ⟨hc', _⟩⟩ := hs.pays
      · have hsame : c₀ = c := by
          rcases hc with hc | hc
          · exact Cell.live.inj (hlive.symm.trans hc)
          · cases hlive.symm.trans hc
        exact .inl ⟨c', hc', hsame ▸ Conn.moved_of_work hlt⟩
      · exact .inr ⟨c', hc'⟩

/-- A tunnel whose origin hangs up, reported in vain once more. -/
def halfClosed : List Event :=
  [.readable 3 { Env.silent with accept := some 5 },
    .readable 5
      { Env.silent with
        recv := some (ascii "CONNECT 127.0.0.1:80 HTTP/1.0\r\n")
        socket := fun _ => some 6 },
    .writable 6 Env.silent,
    .writable 5 { Env.silent with send := some 1000 },
    .readable 6 { Env.silent with recv := some [] },
    .readable 6 { Env.silent with recv := some [] }]

/-- The client sends on. -/
def sendsOn : Event := .readable 5 { Env.silent with recv := some (ascii "x") }

theorem events_paid_for_hangup : ∃ (w w' : World) (c : Conn), w.heap 0 = .live c ∧
    turns 0 halfClosed (initWorld loopback) = 4 ∧
    turns 0 halfClosed (initWorld loopback) ≤ traffic c.trace + 2 * sockets c.trace + 15 ∧
    step w sendsOn = .ok w' ∧
    ((∃ c', w'.heap 0 = .live c' ∧ c.Moved c') ∨ ∃ c', w'.heap 0 = .freed c') := by
  obtain ⟨w, h, hp⟩ := @computed_run loopback halfClosed
    (fun w => w.first (fun c => c.stmState == .closing) &&
      (checkUndisturbed w sendsOn && sendsOn.awaited w &&
        decide (sendsOn.actor w = some 0)) &&
      (step w sendsOn).toBool) (by decide +kernel)
  obtain ⟨hp, hok⟩ := (Bool.and_eq_true _ _).mp hp
  obtain ⟨hfirst, hp⟩ := (Bool.and_eq_true _ _).mp hp
  obtain ⟨c, hc, _⟩ := World.liveAt_eq hfirst
  obtain ⟨hp, hact⟩ := (Bool.and_eq_true _ _).mp hp
  obtain ⟨hcheck, hawaited⟩ := (Bool.and_eq_true _ _).mp hp
  cases hr : step w sendsOn with
  | error f =>
      rw [hr] at hok
      cases hok
  | ok w' =>
      obtain ⟨hturns, hpaid⟩ := events_paid_for h 0 c (.inl hc)
      exact ⟨w, w', c, hc, by decide +kernel, hturns, hr,
        hpaid sendsOn w' ((lives h).1.undisturbed_of_check hcheck) hawaited
          (of_decide_eq_true hact) hr⟩

end HttpdProxy
