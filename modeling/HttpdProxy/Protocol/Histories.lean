import HttpdProxy.Protocol.Peers

/-!
# What a move adds to a history

A move adds to the trace of its connection and takes nothing away. Most of what
it adds is by the way: the sockets it tries, the directions it ends, the bytes
it shows the parsers. Beside that it does one thing at most that counts: a
`read`, a `send`, the registration, or a state that is entered, with the query
that is written on arriving at SEND_DOH_REQUEST. `Move.happens` says which, and
what becomes of the counters.
-/

namespace HttpdProxy

/-- What is done by the way. -/
def Act.minor : Act → Bool
  | .shutdown _ | .opened .. | .unopened .. | .examined .. | .fedSniffer ..
  | .fedStatusLine _ => true
  | _ => false

/-- How often `register_new_connection` was called for a connection. -/
def registrations : List Act → Nat
  | [] => 0
  | .registered :: t => registrations t + 1
  | _ :: t => registrations t

theorem registrations_minor (a : Act) (t : List Act) (h : a.minor = true) :
    registrations (a :: t) = registrations t := by
  cases a <;> first | rfl | cases h

/-- `t'` is `t` with things done by the way. -/
def Grown (t t' : List Act) : Prop := ∃ acts, t' = acts ++ t ∧ ∀ a ∈ acts, a.minor = true

namespace Grown

variable {t t' t'' : List Act}

theorem refl (t : List Act) : Grown t t := ⟨[], rfl, fun _ h => nomatch h⟩

theorem of_eq (h : t' = t) : Grown t t' := h ▸ refl t

theorem log {a : Act} (t : List Act) (ha : a.minor = true) : Grown t (a :: t) :=
  ⟨[a], rfl, fun b hb => by rwa [List.mem_singleton.mp hb]⟩

theorem trans (h : Grown t t') (h' : Grown t' t'') : Grown t t'' := by
  obtain ⟨acts, rfl, hacts⟩ := h
  obtain ⟨acts', rfl, hacts'⟩ := h'
  refine ⟨acts' ++ acts, (List.append_assoc ..).symm, fun a ha => ?_⟩
  rcases List.mem_append.mp ha with ha | ha
  · exact hacts' a ha
  · exact hacts a ha

/-- What does not look at the things done by the way. -/
theorem view {α : Type} {f : List Act → α} (hf : ∀ a t, a.minor = true → f (a :: t) = f t)
    (h : Grown t t') : f t' = f t := by
  obtain ⟨acts, rfl, hacts⟩ := h
  induction acts with
  | nil => rfl
  | cons a acts ih =>
      rw [List.cons_append, hf a _ (hacts a List.mem_cons_self)]
      exact ih fun b hb => hacts b (List.mem_cons_of_mem _ hb)

theorem suffix (h : Grown t t') : t <:+ t' := by
  obtain ⟨acts, rfl, _⟩ := h
  exact List.suffix_append acts t

end Grown

section

variable {d : DohUtils} {c c' : Conn} {s next : ConnState}

/-! ## The pieces of a move -/

theorem closeOrigin_grown (c : Conn) : Grown c.trace c.closeOrigin.trace := by
  unfold Conn.closeOrigin
  split
  · exact .log _ rfl
  · exact .refl _

theorem closeClient_grown (c : Conn) : Grown c.trace c.closeClient.trace := by
  unfold Conn.closeClient
  split
  · exact .log _ rfl
  · exact .refl _

theorem originFirst_grown (c : Conn) : Grown c.trace c.closeOrigin.closeClient.trace :=
  (closeOrigin_grown c).trans (closeClient_grown _)

theorem clientFirst_grown (c : Conn) : Grown c.trace c.closeClient.closeOrigin.trace :=
  (closeClient_grown c).trans (closeOrigin_grown _)

theorem analyzeRead_grown (key : SelectorKey) (c : Conn) :
    Grown c.trace (analyzeRead key c).trace := by
  have hparse : ∀ c, Grown c.trace (parseResponse c).trace := fun _ => .log _ rfl
  have hsniff : ∀ c, Grown c.trace (sniffData key c).trace := fun _ => .log _ rfl
  unfold analyzeRead
  dsimp only
  split <;> split
  · exact (hparse c).trans (hsniff _)
  · exact hparse c
  · exact hsniff c
  · exact .refl _

theorem finishRequest_grown (key : SelectorKey) (c : Conn) :
    Grown c.trace (finishRequest key c).trace := by
  unfold finishRequest
  dsimp only
  split
  · exact .refl _
  · split
    · exact .log _ rfl
    · exact .refl _

theorem Registration.grown {peer : Peer} {addr : Sockaddr}
    (h : Registration peer addr c next c') :
    Grown c.trace c'.trace ∧ c'.current = c.current := by
  cases h <;> exact ⟨.log _ rfl, rfl⟩

theorem Attempt.grown {peer : Peer} {addr : Sockaddr} (h : Attempt peer addr c next c') :
    Grown c.trace c'.trace ∧ c'.current = c.current := by
  cases h with
  | refused => exact ⟨.log _ rfl, rfl⟩
  | opened h => exact h.grown

theorem nextDns_trace (c : Conn) (doh : DohConnection) :
    (c.nextDns doh).2.trace = c.trace ∧ (c.nextDns doh).2.current = c.current := by
  obtain ⟨e, dc, he⟩ := c.nextDns_eq doh
  rw [he]
  exact ⟨rfl, rfl⟩

theorem exhausted_trace (c : Conn) (doh : DohConnection) :
    (c.exhausted doh).2.trace = c.trace ∧ (c.exhausted doh).2.current = c.current := by
  obtain ⟨e, dc, he⟩ := c.exhausted_eq doh
  rw [he]
  exact ⟨rfl, rfl⟩

theorem judged_trace (c : Conn) (key : SelectorKey) (doh : DohConnection) (v : Verdict) :
    (c.judged key doh v).2.trace = c.trace ∧ (c.judged key doh v).2.current = c.current := by
  obtain ⟨e, dc, b, he⟩ := c.judged_eq key doh v
  rw [he]
  exact ⟨rfl, rfl⟩

/-- What arriving at a state writes down: the query, where one is sent. -/
theorem arrival_grown {env : Env} (h : c.arrival d env s = .ok c') :
    if s = .sendDohRequest then c'.trace = .query (queryType c) :: c.trace
    else Grown c.trace c'.trace := by
  cases s with
  | sendDohRequest =>
      obtain ⟨buffer, _, h⟩ := Lib.bind_eq_ok.mp h
      cases h
      rfl
  | awaitDohResponse =>
      cases h
      have hsame : (initDohState env c).trace = c.trace := by
        unfold initDohState
        split
        · rfl
        · split <;> rfl
      rw [if_neg (by simp), hsame]
      exact .refl _
  | sendRequestLine | error =>
      obtain ⟨buffer, _, h⟩ := Lib.bind_eq_ok.mp h
      cases h
      exact .refl _
  | connected =>
      cases h
      rw [if_neg (by simp)]
      split <;> exact .refl _
  | closing =>
      cases h
      exact originFirst_grown c
  | emptyBuffers =>
      cases h
      exact clientFirst_grown c
  | parsingRequestLine | tryConnectionIp | done =>
      cases h
      exact .refl _

/-! ## One move -/

/-- The counters of what was done, which nothing takes back. -/
def Metrics.ledger (m : Metrics) : UInt64 × UInt64 × UInt64 :=
  (m.historicalConnections, m.bytesReceived, m.bytesSent)

/-- The one thing that counts, of those a move does. -/
inductive Happening (a b : Mid) : List Act → Prop where
  | nothing : b.conn.current = a.conn.current → b.metrics.ledger = a.metrics.ledger →
      Happening a b []
  | received (side : Side) (bs : Bytes) : b.conn.current = a.conn.current →
      b.metrics.ledger = a.metrics.ledger → Happening a b [.received side bs]
  | ended (side : Side) : b.conn.current = a.conn.current →
      b.metrics.ledger = a.metrics.ledger → Happening a b [.eof side]
  | toClient (bs : Bytes) : b.conn.current = a.conn.current →
      b.metrics = increaseBytesReceived bs.length a.metrics →
      Happening a b [.sent .client bs]
  | toOrigin (bs : Bytes) : b.conn.current = a.conn.current →
      b.metrics = increaseBytesSent bs.length a.metrics → Happening a b [.sent .origin bs]
  | registered : b.conn.current = a.conn.current →
      b.metrics = registerNewConnection a.metrics → Happening a b [.registered]
  | started : a.conn.current = none → b.conn.current = some .parsingRequestLine →
      b.metrics = a.metrics → Happening a b [.enter .parsingRequestLine]
  | entered (s : ConnState) : a.phase = .goto s → a.conn.current ≠ some s →
      s ≠ .sendDohRequest → b.conn.current = some s → b.metrics = a.metrics →
      Happening a b [.enter s]
  | asked : a.phase = .goto .sendDohRequest → a.conn.current ≠ some .sendDohRequest →
      b.conn.current = some .sendDohRequest → b.metrics = a.metrics →
      Happening a b [.query (queryType a.conn), .enter .sendDohRequest]

theorem unregisterConnection_ledger (m : Metrics) :
    (unregisterConnection m).ledger = m.ledger := by
  unfold unregisterConnection
  split <;> rfl

theorem uncounted_ledger (c : Conn) (m : Metrics) : (c.uncounted m).ledger = m.ledger := by
  unfold Conn.uncounted
  split
  · exact unregisterConnection_ledger m
  · rfl

theorem increaseFailedConnections_ledger (m : Metrics) :
    (increaseFailedConnections m).ledger = m.ledger := by
  unfold increaseFailedConnections
  split <;> rfl

/-- As many bytes are sent as leave the buffer. -/
theorem length_taken {b b' : Buffer} {n : Nat} (h : bufferReadAdv b n = .ok b') :
    (b.unread.take n).length = n := by
  unfold bufferReadAdv at h
  split at h
  · next hle =>
      rw [List.length_take, Buffer.unread_length]
      omega
  · cases h

theorem Move.happens {a b : Mid} (h : Move d a b) :
    ∃ acts, Happening a b acts ∧ Grown (acts ++ a.conn.trace) b.conn.trace := by
  cases h with
  | readClient now _ _ _ _ => exact ⟨_, .received .client _ rfl rfl, .refl _⟩
  | endOfClient now _ _ _ => exact ⟨_, .ended .client rfl rfl, .refl _⟩
  | writeClient now _ _ hb =>
      exact ⟨_, .toClient _ rfl (by rw [length_taken hb]), .refl _⟩
  | readOrigin now _ _ _ _ _ => exact ⟨_, .received .origin _ rfl rfl, .refl _⟩
  | endOfOrigin now _ _ _ => exact ⟨_, .ended .origin rfl rfl, .refl _⟩
  | readyOrigin now _ => exact ⟨_, .nothing rfl rfl, .refl _⟩
  | writeRequest now _ _ hb =>
      exact ⟨_, .toOrigin _ rfl (by rw [length_taken hb]), .refl _⟩
  | writeOrigin now _ _ _ _ _ hb =>
      exact ⟨_, .toOrigin _ rfl (by rw [length_taken hb]), .refl _⟩
  | close now => exact ⟨_, .nothing rfl (uncounted_ledger _ _), .refl _⟩
  | closeEarly now _ => exact ⟨_, .ended .client rfl (uncounted_ledger _ _), .refl _⟩
  | collect =>
      exact ⟨_, .nothing rfl ((uncounted_ledger _ _).trans (uncounted_ledger _ _)), .refl _⟩
  | start enabled hcur => exact ⟨_, .started hcur rfl rfl, .refl _⟩
  | parseByte _ _ _ _ _ => exact ⟨_, .nothing rfl rfl, .refl _⟩
  | parseError _ _ _ _ => exact ⟨_, .nothing rfl rfl, .refl _⟩
  | parseDone _ _ _ _ ha =>
      obtain ⟨hg, hcur⟩ := ha.grown
      dsimp only
      split
      · exact ⟨_, .nothing ((finishRequest_keeps _ _).2.2.2.1.trans hcur) rfl,
          hg.trans (finishRequest_grown _ _)⟩
      · exact ⟨_, .nothing hcur rfl, hg⟩
  | parseIdle _ _ => exact ⟨_, .nothing rfl rfl, .refl _⟩
  | tryQuery _ _ => exact ⟨_, .nothing rfl rfl, .refl _⟩
  | tryConnect _ _ _ _ => exact ⟨_, .registered rfl rfl, .refl _⟩
  | tryRequest _ _ _ => exact ⟨_, .registered rfl rfl, .refl _⟩
  | tryFail _ _ => exact ⟨_, .nothing rfl (increaseFailedConnections_ledger _), .refl _⟩
  | tryNext _ _ _ =>
      exact ⟨_, .nothing (nextDns_trace _ _).2 (increaseFailedConnections_ledger _),
        .of_eq (nextDns_trace _ _).1⟩
  | walkSkip _ _ _ _ => exact ⟨_, .nothing rfl rfl, .log _ rfl⟩
  | walkRefused _ _ _ _ => exact ⟨_, .nothing rfl rfl, (Grown.log _ rfl).trans (.log _ rfl)⟩
  | walkOpen _ _ _ _ hr =>
      obtain ⟨hg, hcur⟩ := hr.grown
      exact ⟨_, .nothing hcur rfl, (Grown.log _ rfl).trans hg⟩
  | walkEnd _ _ =>
      exact ⟨_, .nothing (exhausted_trace _ _).2 rfl, .of_eq (exhausted_trace _ _).1⟩
  | ask ha =>
      obtain ⟨hg, hcur⟩ := ha.grown
      exact ⟨_, .nothing hcur rfl, hg⟩
  | drained _ _ _ => exact ⟨_, .nothing rfl rfl, .refl _⟩
  | draining _ _ _ => exact ⟨_, .nothing rfl rfl, .refl _⟩
  | awaitFailed _ _ => exact ⟨_, .nothing rfl rfl, .refl _⟩
  | awaitByte alloc _ _ _ _ _ _ =>
      exact ⟨_, .nothing (judged_trace _ _ _ _).2 rfl, .of_eq (judged_trace _ _ _ _).1⟩
  | awaitIdle _ _ _ _ => exact ⟨_, .nothing rfl rfl, .refl _⟩
  | awaitEnd _ _ _ _ _ =>
      exact ⟨_, .nothing (nextDns_trace _ _).2 rfl,
        (Grown.log _ rfl).trans (.of_eq (nextDns_trace _ _).1)⟩
  | relayRead _ _ _ =>
      exact ⟨_, .nothing (analyzeRead_buffers _ _).2.2.2.2 rfl, analyzeRead_grown _ _⟩
  | relayEnd _ _ =>
      exact ⟨_, .nothing (analyzeRead_buffers _ _).2.2.2.2 rfl, analyzeRead_grown _ _⟩
  | relayWrite _ => exact ⟨_, .nothing rfl rfl, .refl _⟩
  | closingRead _ _ => exact ⟨_, .nothing (by simp) rfl, originFirst_grown _⟩
  | closingDone _ _ _ _ =>
      exact ⟨_, .nothing rfl (unregisterConnection_ledger _), .log _ rfl⟩
  | closingEmpty _ _ _ => exact ⟨_, .nothing rfl rfl, .refl _⟩
  | closingWrite _ => exact ⟨_, .nothing (by simp) rfl, originFirst_grown _⟩
  | emptyDone _ _ _ =>
      exact ⟨_, .nothing (by simp) (unregisterConnection_ledger _), clientFirst_grown _⟩
  | emptyWrite _ _ => exact ⟨_, .nothing (by simp) rfl, clientFirst_grown _⟩
  | stay _ => exact ⟨_, .nothing rfl rfl, .refl _⟩
  | arrive env hcur hne ha =>
      rename_i c c' m s
      have hg := arrival_grown ha
      have hat : c'.current = some s := arrival_current ha
      by_cases hs : s = .sendDohRequest
      · subst hs
        rw [if_pos rfl] at hg
        exact ⟨_, .asked rfl hcur hat rfl, hg ▸ .refl _⟩
      · rw [if_neg hs] at hg
        exact ⟨_, .entered s rfl hcur hs hat rfl, hg⟩
  | free hcur => exact ⟨_, .entered .done rfl hcur (by simp) rfl rfl, .refl _⟩

/-- A history is never rewritten. -/
theorem Move.suffix {a b : Mid} (h : Move d a b) : a.conn.trace <:+ b.conn.trace := by
  obtain ⟨acts, _, hg⟩ := h.happens
  exact (List.suffix_append acts _).trans hg.suffix

end

end HttpdProxy
