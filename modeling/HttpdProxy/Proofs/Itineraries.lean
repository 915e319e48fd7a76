import HttpdProxy.Lib.Paths
import HttpdProxy.Protocol.Histories
import HttpdProxy.Protocol.Streams
import HttpdProxy.Proofs.Daemon

/-!
# The way of a connection through its states

Which state can follow which is nowhere written down in the code: `stm.c`
jumps to whatever a handler returns. `leadsTo` is what the handlers return, and
every connection goes along it (`itinerary_is_path`). The one cycle leads from
TRY_CONNECTION_IP over SEND_DOH_REQUEST and AWAIT_DOH_RESPONSE back, and a
query is sent on each time around it. There are two queries to send, so the way
is at most thirteen states long.
-/

namespace HttpdProxy

/-- The states that follow a state. -/
def ConnState.leadsTo : ConnState → List ConnState
  | .parsingRequestLine => [.tryConnectionIp, .error]
  | .tryConnectionIp => [.sendDohRequest, .sendRequestLine, .connected, .error]
  | .sendDohRequest => [.awaitDohResponse]
  | .awaitDohResponse => [.tryConnectionIp, .error]
  | .sendRequestLine => [.connected]
  | .connected => [.closing]
  | .closing => [.emptyBuffers, .done]
  | .emptyBuffers => [.done]
  | .error => [.done]
  | .done => []

/-- A way along the arrows. -/
def Itinerary (l : List ConnState) : Prop :=
  Lib.Path (fun r s => s ∈ r.leadsTo) .parsingRequestLine l

/-- How far along its way a state is, once the queries are paid for. -/
def ConnState.rank : ConnState → Nat
  | .sendDohRequest => 0
  | .parsingRequestLine | .awaitDohResponse => 1
  | .tryConnectionIp => 2
  | .sendRequestLine | .error => 3
  | .connected => 4
  | .closing => 5
  | .emptyBuffers => 6
  | .done => 7

/-- What a query pays for. -/
def ConnState.toll (s : ConnState) : Nat := if s = .sendDohRequest then 3 else 0

theorem ConnState.rank_climbs (r s : ConnState) (h : s ∈ r.leadsTo) :
    r.rank + 1 ≤ s.rank + s.toll := by
  cases r <;> cases s <;> revert h <;> decide

theorem toll_sum (l : List ConnState) :
    (l.map ConnState.toll).sum = 3 * l.count .sendDohRequest := by
  induction l with
  | nil => rfl
  | cons s l ih =>
      rw [List.map_cons, List.sum_cons, ih, List.count_cons, ConnState.toll]
      cases s <;> simp [Nat.mul_add, Nat.add_comm]

/-- As many states as the queries pay for. -/
theorem Itinerary.length_le {l : List ConnState} (h : Itinerary l) :
    l.length ≤ 7 + 3 * l.count .sendDohRequest := by
  cases l with
  | nil => exact Nat.zero_le _
  | cons s l =>
      have hle := Lib.Path.length_le ConnState.rank ConnState.toll (by decide)
        ConnState.rank_climbs h
      have hrank : s.rank ≤ 7 := by cases s <;> decide
      rw [toll_sum] at hle
      omega

section

variable {d : DohUtils} {c c' : Conn} {ph ph' : Phase} {m m' : Metrics} {next : ConnState}

/-! ## Where a handler may go -/

/-- Where the handler of the current state may be going. -/
def Conn.Heads (c : Conn) : Phase → Prop
  | .goto s => c.current = some s ∨ ∃ r, c.current = some r ∧ s ∈ r.leadsTo
  | .walking | .asking =>
      c.current = some .tryConnectionIp ∨ c.current = some .awaitDohResponse
  | _ => True

theorem Conn.heads_error (h : c.Heads .walking) : c.Heads (.goto .error) := by
  rcases h with h | h <;> exact .inr ⟨_, h, by decide⟩

/-- A socket is asked for on the way from TRY_CONNECTION_IP or
AWAIT_DOH_RESPONSE. -/
theorem Conn.heads_tried (h : c.Heads .walking)
    (hn : next = .error ∨ next = .tryConnectionIp) : c.Heads (.goto next) := by
  rcases hn with rfl | rfl
  · exact heads_error h
  · rcases h with h | h
    · exact .inl h
    · exact .inr ⟨_, h, by decide⟩

theorem Registration.leads {peer : Peer} {addr : Sockaddr} (h : Registration peer addr c next c') :
    next = .error ∨ next = .tryConnectionIp := by
  cases h with
  | rejected fd h0 => exact .inl rfl
  | accepted fd h0 => exact .inr rfl

theorem heads_nextDns {doh : DohConnection} (h : c.Heads .walking) :
    (c.nextDns doh).2.Heads (c.nextDns doh).1 := by
  have herror : (c.failed .internalServerError).Heads (.goto .error) :=
    Conn.heads_error (c := c.failed .internalServerError) h
  unfold Conn.nextDns
  dsimp only
  split
  · split
    · exact h
    · exact h
  · split
    · exact herror
    · exact h

theorem heads_exhausted {doh : DohConnection} (h : c.Heads .walking) :
    (c.exhausted doh).2.Heads (c.exhausted doh).1 := by
  unfold Conn.exhausted
  split
  · exact h
  · exact Conn.heads_error (c := c.failed .internalServerError) h

theorem heads_judged {key : SelectorKey} {doh : DohConnection} {v : Verdict}
    (hcur : c.current = some .awaitDohResponse) :
    (c.judged key doh v).2.Heads (c.judged key doh v).1 := by
  have herror : ∀ e, (c.failed e).Heads (.goto .error) :=
    fun e => Conn.heads_error (c := c.failed e) (.inr hcur)
  unfold Conn.judged
  split
  · exact trivial
  · exact trivial
  · exact herror _
  · split
    · exact herror _
    · exact .inr hcur

theorem heads_move (h : c.Heads ph) (hm : Move d ⟨ph, c, m⟩ ⟨ph', c', m'⟩) :
    c'.Heads ph' := by
  cases hm with
  | readClient | endOfClient | writeClient | readOrigin | endOfOrigin | readyOrigin
  | writeRequest | writeOrigin | close | closeEarly | collect | start | parseByte | stay
  | arrive | free => exact trivial
  | parseError hcur _ _ _ => exact .inr ⟨_, hcur, by decide⟩
  | parseDone hcur _ _ _ ha =>
      refine .inr ⟨.parsingRequestLine, ?_, ?_⟩
      · split
        · exact (finishRequest_keeps _ _).2.2.2.1.trans (ha.grown.2.trans hcur)
        · exact ha.grown.2.trans hcur
      · rcases ha.cases_next with rfl | ⟨rfl, _⟩ <;> decide
  | parseIdle hcur _ => exact .inl hcur
  | tryQuery hcur _ => exact .inr ⟨_, hcur, by decide⟩
  | tryConnect hcur _ _ _ => exact .inr ⟨_, hcur, by decide⟩
  | tryRequest hcur _ _ => exact .inr ⟨_, hcur, by decide⟩
  | tryFail hcur _ => exact .inr ⟨_, hcur, by decide⟩
  | tryNext hcur _ _ => exact heads_nextDns (.inl hcur)
  | walkSkip _ _ _ _ => exact h
  | walkRefused _ _ _ _ => exact h
  | walkOpen _ _ _ _ hr =>
      rw [Conn.Heads, hr.grown.2]
      exact Conn.heads_tried (c := c) h hr.leads
  | walkEnd _ _ => exact heads_exhausted h
  | ask ha =>
      rw [Conn.Heads, ha.grown.2]
      exact Conn.heads_tried (c := c) h (ha.cases_next.imp id And.left)
  | drained hcur hst _ =>
      rw [Conn.afterDrain, Conn.stmState_of_current hcur]
      rcases hst with rfl | rfl | rfl
      · exact .inr ⟨_, hcur, by decide⟩
      · exact .inr ⟨_, hcur, by decide⟩
      · exact .inr ⟨_, hcur, by decide⟩
  | draining hcur _ _ => exact .inl hcur
  | awaitFailed hcur _ => exact .inr ⟨_, hcur, by decide⟩
  | awaitByte alloc hcur _ _ _ _ _ => exact heads_judged (c := c.fed _ _) hcur
  | awaitIdle hcur _ _ _ => exact .inl hcur
  | awaitEnd hcur _ _ _ _ => exact heads_nextDns (c := c.log _) (.inr hcur)
  | relayRead hcur _ _ => exact .inl ((analyzeRead_buffers _ _).2.2.2.2.trans hcur)
  | relayEnd hcur _ =>
      exact .inr ⟨_, (analyzeRead_buffers _ _).2.2.2.2.trans hcur, by decide⟩
  | relayWrite hcur => exact .inl hcur
  | closingRead hcur _ => exact .inl (by simpa using hcur)
  | closingDone hcur _ _ _ => exact .inr ⟨_, hcur, by decide⟩
  | closingEmpty hcur _ _ => exact .inr ⟨_, hcur, by decide⟩
  | closingWrite hcur => exact .inl (by simpa using hcur)
  | emptyDone hcur _ _ => exact .inr ⟨.emptyBuffers, by simpa using hcur, by decide⟩
  | emptyWrite hcur _ => exact .inl (by simpa using hcur)

/-! ## The way so far -/

/-- What the trace says of the way. -/
structure Conn.Travelled (c : Conn) : Prop where
  path : Itinerary (statesEntered c.trace)
  here : (statesEntered c.trace).head? = c.current
  asked : queries c.trace = [] ∨ queries c.trace = [1] ∨ queries c.trace = [28, 1]
  each : (queries c.trace).length = (statesEntered c.trace).count .sendDohRequest

theorem statesEntered_minor (a : Act) (t : List Act) (h : a.minor = true) :
    statesEntered (a :: t) = statesEntered t := by
  cases a <;> first | rfl | cases h

theorem queries_minor (a : Act) (t : List Act) (h : a.minor = true) :
    queries (a :: t) = queries t := by
  cases a <;> first | rfl | cases h

/-- Nothing was entered and nothing asked. -/
theorem Conn.Travelled.kept (h : c.Travelled) (hs : statesEntered c'.trace = statesEntered c.trace)
    (hq : queries c'.trace = queries c.trace) (hcur : c'.current = c.current) :
    c'.Travelled := by
  refine ⟨?_, ?_, ?_, ?_⟩
  · rw [hs]
    exact h.path
  · rw [hs, hcur]
    exact h.here
  · rw [hq]
    exact h.asked
  · rw [hs, hq]
    exact h.each

/-- The way goes on along an arrow. -/
theorem Conn.Travelled.extend {s : ConnState} (h : c.Travelled) (hh : c.Heads (.goto s))
    (hne : c.current ≠ some s) : Itinerary (s :: statesEntered c.trace) := by
  obtain ⟨r, hr, hs⟩ := hh.resolve_left hne
  have hhere := h.here
  rw [hr] at hhere
  obtain ⟨l, hl⟩ := List.head?_eq_some_iff.mp hhere
  have hpath := h.path
  rw [hl] at hpath ⊢
  exact Lib.Path.extend hpath hs

/-- The first query is for IPv4, the second for IPv6, and there is no third. -/
theorem Conn.Unasked.asks (h : c.Unasked) :
    queries c.trace = [] ∧ queryType c = 1 ∨ queries c.trace = [1] ∧ queryType c = 28 := by
  rcases h.2 with ⟨hd, hq⟩ | ⟨doh, hd, _, ht, _, hq⟩
  · refine .inl ⟨hq, ?_⟩
    rw [queryType, hd]
  · refine .inr ⟨hq, ?_⟩
    rw [queryType, hd]
    dsimp only
    rw [ht]
    rfl

theorem travelled_move (hl : Life d ph c) (h : c.Travelled) (hh : c.Heads ph)
    (hm : Move d ⟨ph, c, m⟩ ⟨ph', c', m'⟩) : c'.Travelled := by
  obtain ⟨acts, hacts, hg⟩ := hm.happens
  have hstates := hg.view statesEntered_minor
  have hqueries := hg.view queries_minor
  cases hacts with
  | nothing hcur _ => exact h.kept hstates hqueries hcur
  | received side bs hcur _ => exact h.kept hstates hqueries hcur
  | ended side hcur _ => exact h.kept hstates hqueries hcur
  | toClient bs hcur _ => exact h.kept hstates hqueries hcur
  | toOrigin bs hcur _ => exact h.kept hstates hqueries hcur
  | registered hcur _ => exact h.kept hstates hqueries hcur
  | started hnone hcur _ =>
      have hempty : statesEntered c.trace = [] := List.head?_eq_none_iff.mp (h.here.trans hnone)
      have hnow : statesEntered c'.trace = [.parsingRequestLine] :=
        hstates.trans (congrArg _ hempty)
      refine ⟨?_, ?_, ?_, ?_⟩
      · rw [hnow]
        exact .singleton _ _
      · rw [hnow]
        exact hcur.symm
      · rw [hqueries]
        exact h.asked
      · have heach := h.each
        rw [hempty] at heach
        rw [hqueries, hnow]
        exact heach
  | entered s hph hne hns hcur _ =>
      cases hph
      refine ⟨?_, ?_, ?_, ?_⟩
      · rw [hstates]
        exact h.extend hh hne
      · rw [hstates]
        exact hcur.symm
      · rw [hqueries]
        exact h.asked
      · rw [hqueries, hstates]
        refine h.each.trans ?_
        change _ = List.count _ (s :: statesEntered c.trace)
        rw [List.count_cons_of_ne hns]
  | asked hph hne hcur _ =>
      cases hph
      have hpeers := hl.peers
      rw [Conn.PeerAt, if_neg hne] at hpeers
      have hasks := hpeers.2.1.asks
      refine ⟨?_, ?_, ?_, ?_⟩
      · rw [hstates]
        exact h.extend hh hne
      · rw [hstates]
        exact hcur.symm
      · rw [hqueries]
        change queryType c :: queries c.trace = _ ∨ queryType c :: queries c.trace = _ ∨
          queryType c :: queries c.trace = _
        rcases hasks with ⟨hq, ht⟩ | ⟨hq, ht⟩
        · rw [hq, ht]
          exact .inr (.inl rfl)
        · rw [hq, ht]
          exact .inr (.inr rfl)
      · rw [hqueries, hstates]
        change (queries c.trace).length + 1
          = List.count _ (ConnState.sendDohRequest :: statesEntered c.trace)
        rw [List.count_cons_self, h.each]

theorem Life.travelled (h : Life d ph c) : c.Travelled := by
  have hboth : c.Travelled ∧ c.Heads ph := by
    refine h.invariant (I := fun ph c => c.Travelled ∧ c.Heads ph) ?_ ?_
    · intro fd size now mem
      exact ⟨⟨.nil _ _, rfl, .inl rfl, rfl⟩, trivial⟩
    · intro ph c m ph' c' m' hl hI hm
      exact ⟨travelled_move hl hI.1 hI.2 hm, heads_move hI.2 hm⟩
  exact hboth.1

end

/-- Thirteen states at most, and two queries. -/
theorem Conn.Travelled.length_le {c : Conn} (h : c.Travelled) :
    (statesEntered c.trace).length ≤ 13 := by
  have hle := h.path.length_le
  have hasked : (queries c.trace).length ≤ 2 := by
    rcases h.asked with hq | hq | hq <;> rw [hq] <;> decide
  rw [← h.each] at hle
  omega

/-- Every connection of a run, live or freed, has gone along the arrows from
PARSING_REQUEST_LINE to the state it is in, through thirteen states at most. It
has asked the DoH server for nothing, for the IPv4 addresses of its host, or
for those and then the IPv6 addresses, once for every time it was in
SEND_DOH_REQUEST. -/
theorem itinerary_is_path {cfg : Config} {es : List Event} {w : World}
    (h : Lib.RunsWhen step Undisturbed (initWorld cfg) es w) (id : Nat) (c : Conn)
    (hc : w.heap id = .live c ∨ w.heap id = .freed c) :
    Itinerary (statesEntered c.trace) ∧ (statesEntered c.trace).head? = c.current ∧
      (statesEntered c.trace).length ≤ 13 ∧
      (queries c.trace = [] ∨ queries c.trace = [1] ∨ queries c.trace = [28, 1]) ∧
      (queries c.trace).length = (statesEntered c.trace).count .sendDohRequest := by
  obtain ⟨ph, _, hlife⟩ := life_of_heap h hc
  have htravelled := hlife.travelled
  exact ⟨htravelled.path, htravelled.here, htravelled.length_le, htravelled.asked,
    htravelled.each⟩

/-- A connection that gave both queries up: the reply to its first was cut
off, and so was the reply to its second. -/
theorem itinerary_is_path_unresolved : ∃ (w : World) (c : Conn), w.heap 0 = .live c ∧
    queries c.trace = [28, 1] ∧ Itinerary (statesEntered c.trace) := by
  obtain ⟨w, c, h, hc, hp⟩ := @first_run loopback
    [.readable 3 { Env.silent with accept := some 5 },
      .readable 5 { Env.silent with
        recv := some (ascii "GET http://a HTTP/1.0\r\n"), socket := fun _ => some 6 },
      .writable 6 Env.silent,
      .writable 6 { Env.silent with send := some 1000 },
      .readable 6 { Env.silent with recv := some [], socket := fun _ => some 6 },
      .writable 6 Env.silent,
      .writable 6 { Env.silent with send := some 1000 },
      .readable 6 { Env.silent with recv := some [] }]
    (fun c => queries c.trace == [28, 1]) (by decide +kernel)
  exact ⟨w, c, hc, eq_of_beq hp, (itinerary_is_path h 0 c (.inl hc)).1⟩

end HttpdProxy
