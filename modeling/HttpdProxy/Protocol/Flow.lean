import HttpdProxy.Protocol.Streams

/-!
# No byte is lost on the way

The account of `Protocol/Streams.lean` is kept by every move: what comes in is
added to a buffer and to the bytes received, what goes out is moved from a
buffer to the bytes sent, and a side is shut down when its buffer is empty and
nothing more can come for it.
-/

namespace HttpdProxy

open Conn

section

variable {d : DohUtils} {c c' : Conn} {s next : ConnState}

/-! ## Moves the streams do not depend on -/

theorem Unrelayed.congr (h : c.Unrelayed d) (hx : exchanged c'.trace = exchanged c.trace)
    (hq : ∀ t ∈ shutdownsOf .origin c.trace, c.QueryShut d t → c'.QueryShut d t) :
    c'.Unrelayed d := by
  simp only [exchanged, Prod.mk.injEq] at hx
  obtain ⟨hco, hti, hto, hsc, hso, hent⟩ := hx
  obtain ⟨⟨h1, h2, h3, h4, h5, h6⟩, h7, h8⟩ := h
  refine ⟨⟨hti.trans h1, hto.trans h2, hsc.trans h3, ?_, ?_, ?_⟩, hco.trans h7, ?_⟩
  · rw [hso]
    exact fun t ht => hq t ht (h4 t ht)
  · rw [hent]
    exact h5
  · rw [hent]
    exact h6
  · rw [hent]
    exact h8

/-- Nothing the streams of the host depend on has changed. -/
theorem Unrelayed.kept (h : c.Unrelayed d) (hx : exchanged c'.trace = exchanged c.trace)
    (hh : c'.connectionRequest.host = c.connectionRequest.host) : c'.Unrelayed d := by
  refine Unrelayed.congr h hx fun t _ hq => ⟨hq.1, ?_⟩
  rw [Conn.query, hh]
  exact hq.2

theorem Parsed.kept (h : c.Parsed) (hx : heard c'.trace = heard c.trace)
    (hc : c'.connectionRequest.connect = c.connectionRequest.connect)
    (hb : c'.clientBuffer.unread = c.clientBuffer.unread) : c'.Parsed := by
  simp only [heard, Prod.mk.injEq] at hx
  refine ⟨?_, ?_, ?_⟩
  · rw [hx.1, hc, hb]
    exact h.complete
  · rw [hc, hb]
    exact h.dropped
  · rw [hx.1, hx.2.1]
    exact h.leading

theorem FlowIn.congr (h : c.FlowIn d s) (hv : c'.flowView = c.flowView) : c'.FlowIn d s := by
  simp only [flowView, Prod.mk.injEq] at hv
  obtain ⟨hx, hh, ⟨hsh, hqs⟩, ⟨hcb, hob, hoe, hce⟩, ⟨hcon, hline, hhost, hpar⟩, hcur,
    herr⟩ := hv
  have hquery : ∀ t, c'.query d t = c.query d t := by
    intro t
    rw [Conn.query, Conn.query, hhost]
  have hshut : ∀ t, c.QueryShut d t → c'.QueryShut d t := by
    intro t h
    refine ⟨h.1, ?_⟩
    rw [hquery]
    exact h.2
  have hunr : c.Unrelayed d → c'.Unrelayed d := fun h =>
    Unrelayed.kept h hx hhost
  have hparsed : c.Parsed → c'.Parsed := fun h => Parsed.kept h hh hcon hcb
  simp only [exchanged, heard, Prod.mk.injEq] at hx hh
  obtain ⟨hco, hti, hto, hsc, hso, hent⟩ := hx
  obtain ⟨hci, hcr, htun⟩ := hh
  have hdest : c'.destined = c.destined := by
    rw [destined, destined, hcon, htun, hline, hci]
  have hgreet : c'.greeting = c.greeting := by rw [greeting, greeting, hcon]
  have hrelay : c.Relaying d → c'.Relaying d := by
    intro h
    refine ⟨?_, ?_, ?_, ?_, ?_, ?_, ?_, ?_⟩
    · rw [hci]
      exact h.complete
    · rw [hcr, htun, hci]
      exact h.leading
    · rw [hco, hob, hti, hgreet]
      exact h.toClient
    · rw [hto, hcb, hdest]
      exact h.toTarget
    · rw [hsc, hti, hgreet, hoe]
      exact h.clientShut
    · rw [hso, hdest, hce]
      exact fun t ht => (h.originShut t ht).imp (hshut t) id
    · rw [hent]
      exact h.noError
    · rw [hent]
      exact h.notDone
  cases s with
  | parsingRequestLine =>
      refine ⟨hunr h.1, hcon.trans h.2.connect, hso.trans h.2.originShut,
        (by rw [hcr]; exact h.2.leading), ?_⟩
      have hnone : c'.current = none ↔ c.current = none := by
        rw [← Option.isNone_iff_eq_none, hcur, Option.isNone_iff_eq_none]
      rw [hci, hcb, hpar, ne_eq, hnone]
      exact h.2.eaten
  | tryConnectionIp => exact ⟨hunr h.1, hparsed h.2.1, hsh.trans h.2.2⟩
  | sendDohRequest =>
      refine ⟨hunr h.1, hparsed h.2.1, ?_⟩
      rw [hsh, hob, hquery, Conn.query, hqs]
      exact h.2.2
  | awaitDohResponse =>
      refine ⟨hunr h.1, hparsed h.2.1, ?_⟩
      rw [hsh, hquery, Conn.query, hqs]
      exact h.2.2
  | sendRequestLine =>
      refine ⟨hti.trans h.received, hco.trans h.clientOut, hsc.trans h.clientShut,
        ?_, ?_, ?_, ?_, hparsed h.parsed, hcon.trans h.connect, ?_⟩
      · rw [hso]
        exact fun t ht => hshut t (h.originShut t ht)
      · rw [hent]
        exact h.noError
      · rw [hent]
        exact h.notConnected
      · rw [hent]
        exact h.notDone
      · rw [hto, hob, hline]
        exact h.sent
  | connected => exact hrelay h
  | closing => exact hrelay h
  | emptyBuffers => exact hrelay h
  | done => exact absurd h id
  | error =>
      obtain ⟨⟨h1, h2, h3, h4, h5, h6⟩, h7, h8⟩ := h
      refine ⟨⟨hti.trans h1, hto.trans h2, hsc.trans h3, ?_, ?_, ?_⟩, ?_, ?_⟩
      · rw [hso]
        exact fun t ht => hshut t (h4 t ht)
      · rw [hent]
        exact h5
      · rw [hent]
        exact h6
      · rw [hent]
        exact h7
      · rw [hco, hob, herr]
        exact h8

/-- The same for a connection that is gone, which no state speaks for. -/
theorem Faithful.touched (h : c.Faithful d) (now : Nat) : (c.touched now).Faithful d :=
  ⟨h.toClient, h.toTarget, h.clientShut, h.originShut, h.delivered, h.accounted⟩

theorem Faithful.eof (h : c.Faithful d) (side : Side) :
    (c.log (.eof side)).Faithful d :=
  ⟨h.toClient, h.toTarget, h.clientShut, h.originShut, h.delivered, h.accounted⟩

theorem flowAt_in {ph : Phase} (hph : ph = .rest ∨ (∃ key, ph = .reading key) ∨ ph = .writing)
    (hcur : c.current = some s) (h : c.FlowIn d s) : c.FlowAt d ph := by
  rcases hph with rfl | ⟨_, rfl⟩ | rfl <;>
  · rw [FlowAt, stmState_of_current hcur]
    exact h

theorem flowAt_stay (hcur : c.current = some s) (h : c.FlowIn d s) :
    c.FlowAt d (.goto s) := by
  rw [FlowAt, if_pos hcur]
  exact h

theorem flowAt_leave (hcur : c.current ≠ some s) (h : c.FlowDue d s) :
    c.FlowAt d (.goto s) := by
  rw [FlowAt, if_neg hcur]
  exact h

theorem flowAt_try (h : c.FlowIn d .tryConnectionIp) : c.FlowAt d (.goto .tryConnectionIp) := by
  rw [FlowAt]
  split <;> exact h

/-! ## Bytes come in -/

theorem destined_fromClient {bs : Bytes} {buffer : Buffer} {now : Nat}
    (hc : ∃ line rest, requestHead requestParserInit (clientIn c.trace) = some (line, rest)) :
    ((c.touched now).fromClient bs buffer).destined = c.destined ++ bs := by
  obtain ⟨line, rest, hl⟩ := hc
  unfold destined
  change (if c.connectionRequest.connect then tunnelIn c.trace ++ bs
    else c.connectionRequest.requestLine ++ pastRequestLine (clientIn c.trace ++ bs)) = _
  split
  · rfl
  · rw [pastRequestLine_eq hl, pastRequestLine_eq (requestHead_more bs hl), List.append_assoc]

/-- From the client, who has not ended his stream. -/
theorem Relaying.fromClient {bs : Bytes} {buffer : Buffer} {now : Nat} (h : c.Relaying d)
    (ha : c.clientStatus = .activeStatus) (hb : buffer.unread = c.clientBuffer.unread ++ bs) :
    ((c.touched now).fromClient bs buffer).Relaying d where
  complete := by
    obtain ⟨line, rest, hl⟩ := h.complete
    exact ⟨line, rest ++ bs, requestHead_more bs hl⟩
  leading := by
    obtain ⟨line, rest, hl⟩ := h.complete
    change leadingReads requestParserInit (clientReads c.trace ++ [bs])
      ++ (tunnelIn c.trace ++ bs) = clientIn c.trace ++ bs
    rw [leadingReads_more _ (by rw [clientReads_flatten, hl]; rfl), ← List.append_assoc,
      h.leading]
  toClient := h.toClient
  toTarget := by
    rw [destined_fromClient h.complete, ← h.toTarget, List.append_assoc, ← hb]
    rfl
  clientShut := h.clientShut
  originShut t ht := by
    refine (h.originShut t ht).imp id fun hs => ?_
    rw [ha] at hs
    cases hs.2.1
  noError := h.noError
  notDone := h.notDone

/-- From the host, which has not ended its stream. -/
theorem Relaying.fromOrigin {bs : Bytes} {buffer : Buffer} {now : Nat} (h : c.Relaying d)
    (ht : towardsDoh c.trace = false) (ha : c.originStatus = .activeStatus)
    (hb : buffer.unread = c.originBuffer.unread ++ bs) :
    ((c.touched now).fromOrigin bs buffer).Relaying d := by
  have hin : targetIn ((c.touched now).fromOrigin bs buffer).trace
      = targetIn c.trace ++ bs := by
    change (if towardsDoh c.trace then _ else _) = _
    rw [ht]
    rfl
  refine ⟨h.complete, h.leading, ?_, h.toTarget, ?_, h.originShut, h.noError, h.notDone⟩
  · change clientOut c.trace ++ buffer.unread = c.greeting ++ _
    rw [hin, hb, ← List.append_assoc, ← List.append_assoc, h.toClient]
  · intro t hs
    obtain ⟨hend, _⟩ := h.clientShut t hs
    rw [ha] at hend
    cases hend

/-- From the client, during the request line. -/
theorem Parsing.fromClient {bs : Bytes} {buffer : Buffer} {now : Nat} (h : c.Parsing)
    (hempty : c.clientBuffer.unread = [])
    (hb : buffer.unread = c.clientBuffer.unread ++ bs) :
    ((c.touched now).fromClient bs buffer).Parsing := by
  obtain ⟨hcon, hshut, _, eaten, hin, hnone, hsome⟩ := h
  have hhead : requestHead requestParserInit (clientReads c.trace).flatten = none := by
    rw [clientReads_flatten, hin, hempty, List.append_nil]
    rcases Decidable.em (c.current = none) with hc | hc
    · rw [hnone hc]
      rfl
    · exact (hsome hc).2
  refine ⟨hcon, hshut, ⟨_, [bs], rfl, by simp, hhead⟩, eaten, ?_, hnone, hsome⟩
  change clientIn c.trace ++ bs = eaten ++ buffer.unread
  rw [hin, hb, List.append_assoc]

/-! ## Bytes go out -/

theorem Relaying.sentClient {n : Nat} {buffer : Buffer} {now : Nat} (h : c.Relaying d)
    (hb : buffer.unread = c.originBuffer.unread.drop n) :
    ((c.touched now).toClient (c.originBuffer.unread.take n) buffer).Relaying d where
  complete := h.complete
  leading := h.leading
  toClient := by
    change (clientOut c.trace ++ c.originBuffer.unread.take n) ++ buffer.unread = _
    rw [hb, List.append_assoc, List.take_append_drop]
    exact h.toClient
  toTarget := h.toTarget
  clientShut := h.clientShut
  originShut := h.originShut
  noError := h.noError
  notDone := h.notDone

theorem Refusing.sentClient {n : Nat} {buffer : Buffer} {now : Nat} (h : c.Refusing d)
    (hb : buffer.unread = c.originBuffer.unread.drop n) :
    ((c.touched now).toClient (c.originBuffer.unread.take n) buffer).Refusing d := by
  obtain ⟨⟨h1, h2, h3, h4, h5, h6⟩, h7, h8⟩ := h
  refine ⟨⟨h1, h2, h3, h4, h5, h6⟩, h7, ?_⟩
  change (clientOut c.trace ++ c.originBuffer.unread.take n) ++ buffer.unread = _
  rw [hb, List.append_assoc, List.take_append_drop]
  exact h8

theorem Relaying.sentOrigin {n : Nat} {buffer : Buffer} {now : Nat} (h : c.Relaying d)
    (ht : towardsDoh c.trace = false) (hb : buffer.unread = c.clientBuffer.unread.drop n) :
    ((c.touched now).toOrigin (c.clientBuffer.unread.take n) buffer).Relaying d := by
  refine ⟨h.complete, h.leading, h.toClient, ?_, h.clientShut, h.originShut, h.noError,
    h.notDone⟩
  change (if towardsDoh c.trace then _ else targetOut c.trace ++ c.clientBuffer.unread.take n)
    ++ buffer.unread = _
  rw [ht, if_neg (by simp), hb, List.append_assoc, List.take_append_drop]
  exact h.toTarget

/-- A part of the request line. -/
theorem Announcing.sentOrigin {n : Nat} {buffer : Buffer} {now : Nat}
    (h : c.Announcing d) (ht : towardsDoh c.trace = false)
    (hb : buffer.unread = c.originBuffer.unread.drop n) :
    ((c.touched now).requestToOrigin (c.originBuffer.unread.take n) buffer).Announcing d := by
  obtain ⟨h1, h2, h3, h4, h5, h6, h7, hp, h8, h9⟩ := h
  refine ⟨h1, h2, h3, h4, h5, h6, h7, Parsed.kept hp rfl rfl rfl, h8, ?_⟩
  change (if towardsDoh c.trace then _ else targetOut c.trace ++ c.originBuffer.unread.take n)
    ++ buffer.unread = _
  rw [ht, if_neg (by simp), hb, List.append_assoc, List.take_append_drop]
  exact h9

/-- A part of the query. -/
theorem flowIn_queryOut {n : Nat} {buffer : Buffer} {now : Nat}
    (h : c.FlowIn d .sendDohRequest) (ht : towardsDoh c.trace = true)
    (hb : buffer.unread = c.originBuffer.unread.drop n) :
    ((c.touched now).requestToOrigin (c.originBuffer.unread.take n) buffer).FlowIn d
      .sendDohRequest := by
  obtain ⟨hu, hp, hq⟩ := h
  refine ⟨Unrelayed.kept hu ?_ rfl, Parsed.kept hp rfl rfl rfl, ?_⟩
  · have hout : targetOut ((c.touched now).requestToOrigin (c.originBuffer.unread.take n)
        buffer).trace = targetOut c.trace := if_pos ht
    rw [exchanged, hout]
    rfl
  · change (sentHere c.trace ++ c.originBuffer.unread.take n) ++ buffer.unread = _
    rw [hb, List.append_assoc, List.take_append_drop]
    exact hq

/-! ## Shutting down -/

theorem Relaying.shutClient (h : c.Relaying d) (hb : c.originBuffer.unread = [])
    (he : c.originStatus.ending = true) : (c.log (.shutdown .client)).Relaying d := by
  refine ⟨h.complete, h.leading, h.toClient, h.toTarget, ?_, h.originShut, h.noError,
    h.notDone⟩
  intro t ht
  rcases List.mem_cons.mp (show t ∈ c.trace :: shutdownsOf .client c.trace from ht)
    with rfl | ht
  · refine ⟨he, ?_⟩
    have hout := h.toClient
    rw [hb, List.append_nil] at hout
    exact hout
  · exact h.clientShut t ht

theorem Relaying.shutOrigin (h : c.Relaying d) (ht : towardsDoh c.trace = false)
    (hb : c.clientBuffer.unread = []) (he : c.clientStatus.ending = true) :
    (c.log (.shutdown .origin)).Relaying d := by
  refine ⟨h.complete, h.leading, h.toClient, h.toTarget, h.clientShut, ?_, h.noError,
    h.notDone⟩
  intro t ho
  rcases List.mem_cons.mp (show t ∈ c.trace :: shutdownsOf .origin c.trace from ho)
    with rfl | ho
  · refine .inr ⟨ht, he, ?_⟩
    have hout := h.toTarget
    rw [hb, List.append_nil] at hout
    exact hout
  · exact h.originShut t ho

theorem Relaying.closeOrigin (h : c.Relaying d) : c.closeOrigin.Relaying d := by
  unfold Conn.closeOrigin
  split
  · next hc =>
      simp only [Bool.and_eq_true, Bool.not_eq_true', Buffer.canRead_eq_false_iff,
        beq_iff_eq] at hc
      have hs := Relaying.shutClient h hc.1 (by rw [hc.2]; rfl)
      refine FlowIn.congr (s := .connected) hs ?_
      simp [flowView, log, hc.2, ConnStatus.ending]
  · exact h

theorem Relaying.closeClient (h : c.Relaying d) (ht : towardsDoh c.trace = false) :
    c.closeClient.Relaying d := by
  unfold Conn.closeClient
  split
  · next hc =>
      simp only [Bool.and_eq_true, Bool.not_eq_true', Buffer.canRead_eq_false_iff,
        beq_iff_eq] at hc
      have hs := Relaying.shutOrigin h ht hc.1 (by rw [hc.2]; rfl)
      refine FlowIn.congr (s := .connected) hs ?_
      simp [flowView, log, hc.2, ConnStatus.ending]
  · exact h

@[simp] theorem towardsDoh_closeOrigin (c : Conn) :
    towardsDoh c.closeOrigin.trace = towardsDoh c.trace := by
  unfold Conn.closeOrigin
  split <;> rfl

@[simp] theorem towardsDoh_closeClient (c : Conn) :
    towardsDoh c.closeClient.trace = towardsDoh c.trace := by
  unfold Conn.closeClient
  split <;> rfl

/-! ## Between the states -/

theorem towardsDoh_of_doh (h : c.TowardsDoh d) : towardsDoh c.trace = true := by
  rw [towardsDoh, show lastOpened c.trace = _ from h]
  rfl

theorem towardsDoh_of_target (h : c.TowardsTarget) : towardsDoh c.trace = false := by
  rcases h with ⟨_, _, ho⟩ | ⟨doh, k, a, _, _, _, ho⟩ <;>
  · rw [towardsDoh, ho]
    rfl

theorem Attempt.flow {peer : Peer} {addr : Sockaddr} (h : Attempt peer addr c next c')
    (hcur : c.current ≠ some .error) (hu : c.Unrelayed d) (hp : c.Parsed) :
    c'.FlowAt d (.goto next) := by
  cases h with
  | refused => exact flowAt_leave hcur (Unrelayed.kept hu rfl rfl)
  | opened h =>
      cases h with
      | rejected fd h0 => exact flowAt_leave hcur (Unrelayed.kept hu rfl rfl)
      | accepted fd h0 =>
          exact flowAt_try ⟨Unrelayed.kept hu rfl rfl,
            Parsed.kept hp rfl rfl rfl, rfl⟩

theorem flow_nextDns {doh : DohConnection} (hcur : c.current ≠ some .error)
    (hu : c.Unrelayed d) (hp : c.Parsed) :
    (c.nextDns doh).2.FlowAt d (c.nextDns doh).1 := by
  unfold Conn.nextDns
  dsimp only
  split
  · split
    · exact ⟨Unrelayed.kept hu rfl rfl, Parsed.kept hp rfl rfl rfl⟩
    · exact ⟨hu, hp⟩
  · split
    · exact flowAt_leave hcur (Unrelayed.kept hu rfl rfl)
    · exact ⟨hu, hp⟩

theorem flow_exhausted {doh : DohConnection} (hcur : c.current ≠ some .error)
    (hu : c.Unrelayed d) (hp : c.Parsed) :
    (c.exhausted doh).2.FlowAt d (c.exhausted doh).1 := by
  unfold Conn.exhausted
  split
  · exact ⟨Unrelayed.kept hu rfl rfl, Parsed.kept hp rfl rfl rfl⟩
  · exact flowAt_leave hcur (Unrelayed.kept hu rfl rfl)

/-- The request is built from a record that had none. -/
theorem buildConnectionRequest_tunnels (h : c.connectionRequest.connect = false) :
    (buildConnectionRequest c).connect = true
      ↔ (buildConnectionRequest c).method = ascii "CONNECT" := by
  have hne : ascii "OPTIONS" ≠ ascii "CONNECT" := by decide
  simp only [buildConnectionRequest, h, Bool.or_false, Bool.and_eq_true, Bool.not_eq_true',
    decide_eq_false_iff_not, beq_iff_eq]
  constructor
  · exact And.right
  · rintro hm
    exact ⟨fun hs => hne (hs.1.symm.trans hm), hm⟩

/-- What `finishRequest` does to the streams: a CONNECT drops what came with
the request line. -/
theorem finishRequest_streams (key : SelectorKey) (c : Conn) :
    heard (finishRequest key c).trace = heard c.trace ∧
      exchanged (finishRequest key c).trace = exchanged c.trace ∧
      sentHere (finishRequest key c).trace = sentHere c.trace ∧
      (finishRequest key c).clientBuffer.unread
        = if (buildConnectionRequest c).connect then [] else c.clientBuffer.unread := by
  unfold finishRequest
  dsimp only
  split
  · exact ⟨rfl, rfl, rfl, rfl⟩
  · split <;> exact ⟨rfl, rfl, rfl, rfl⟩

/-- A byte of the request line that does not complete it. -/
theorem flow_parseByte {key : SelectorKey} {b : UInt8} {buffer : Buffer}
    (hcur : c.current = some .parsingRequestLine)
    (hb : c.clientBuffer.unread = b :: buffer.unread)
    (hnot : (c.parsed b buffer).requestParser.state ≠ .requestDone)
    (hu : c.Unrelayed d) (hp : c.Parsing) : (c.parsed b buffer).FlowAt d (.reading key) := by
  obtain ⟨hcon, hshut, hlead, eaten, hin, _, hsome⟩ := hp
  obtain ⟨hpar, hnone⟩ := hsome (by rw [hcur]; simp)
  refine flowAt_in (s := .parsingRequestLine) (.inr (.inl ⟨key, rfl⟩)) hcur
    ⟨Unrelayed.kept hu rfl rfl, hcon, hshut, hlead, eaten ++ [b], ?_, ?_,
      fun _ => ⟨?_, ?_⟩⟩
  · change clientIn c.trace = eaten ++ [b] ++ buffer.unread
    rw [hin, hb, List.append_assoc]
    rfl
  · intro hc
    cases hcur.symm.trans hc
  · rw [List.foldl_append, ← hpar]
    rfl
  · rw [requestHead_append _ hnone, ← hpar, requestHead,
      show requestParserFeed c.requestParser b = (c.parsed b buffer).requestParser from rfl,
      if_neg hnot]
    rfl

/-- The byte that completes the request line: the line is what was fed, and
what follows it is unread. -/
theorem Parsing.completed {b : UInt8} {buffer : Buffer}
    (hcur : c.current = some .parsingRequestLine)
    (hb : c.clientBuffer.unread = b :: buffer.unread)
    (hdone : (c.parsed b buffer).requestParser.state = .requestDone) (hp : c.Parsing) :
    ∃ line, requestHead requestParserInit (clientIn c.trace) = some (line, buffer.unread) ∧
      (c.parsed b buffer).requestParser = line.foldl requestParserFeed requestParserInit := by
  obtain ⟨eaten, hin, _, hsome⟩ := hp.eaten
  obtain ⟨hpar, hnone⟩ := hsome (by rw [hcur]; simp)
  refine ⟨eaten ++ [b], ?_, ?_⟩
  · rw [hin, hb, requestHead_append _ hnone, ← hpar, requestHead]
    rw [show requestParserFeed c.requestParser b = (c.parsed b buffer).requestParser from rfl,
      if_pos hdone]
    rfl
  · rw [List.foldl_append, ← hpar]
    rfl

/-- The request line is complete: what follows it is unread. -/
theorem flow_parseDone {key : SelectorKey} {peer : Peer} {addr : Sockaddr} {b : UInt8}
    {buffer : Buffer} (hcur : c.current = some .parsingRequestLine)
    (hb : c.clientBuffer.unread = b :: buffer.unread)
    (hdone : (c.parsed b buffer).requestParser.state = .requestDone)
    (hu : c.Unrelayed d) (hp : c.Parsing)
    (ha : Attempt peer addr (c.parsed b buffer) next c') :
    (if next ≠ .error then finishRequest key c' else c').FlowAt d (.goto next) := by
  have hne : c.current ≠ some .error := by rw [hcur]; simp
  have hu1 : (c.parsed b buffer).Unrelayed d := Unrelayed.kept hu rfl rfl
  rcases ha.cases_next with rfl | ⟨rfl, fd, rfl⟩
  · rw [if_neg (by simp)]
    cases ha with
    | refused => exact flowAt_leave hne (Unrelayed.kept hu rfl rfl)
    | opened h =>
        cases h with
        | rejected fd h0 => exact flowAt_leave hne (Unrelayed.kept hu rfl rfl)
  · rw [if_pos (by simp)]
    obtain ⟨hh, hx, hsent, hbuf⟩ :=
      finishRequest_streams key ((c.parsed b buffer).opened fd peer addr)
    obtain ⟨line, hhead, _⟩ := Parsing.completed hcur hb hdone hp
    obtain ⟨_, hshut, ⟨rs, more, hreads, hone, hrs⟩, _⟩ := hp
    have hreq : ∀ x, (finishRequest key x).connectionRequest = buildConnectionRequest x :=
      fun x => (finishRequest_keeps key x).2.2.2.2.2.1
    simp only [heard, Prod.mk.injEq] at hh
    refine flowAt_try ⟨Unrelayed.congr hu (hx.trans rfl) ?_, ⟨?_, ?_, ?_⟩, hsent.trans rfl⟩
    · rw [hshut]
      exact fun t ht => absurd ht List.not_mem_nil
    · refine ⟨line, buffer.unread, ?_, fun hcon => ?_⟩
      · rw [hh.1]
        exact hhead
      · rw [hreq] at hcon
        rw [hbuf, hcon]
        rfl
    · intro hcon
      rw [hreq] at hcon
      rw [hbuf, hcon]
      rfl
    · rw [hh.1, hh.2.1]
      change leadingReads requestParserInit (clientReads c.trace) = clientIn c.trace
      rw [← clientReads_flatten, hreads] at hhead ⊢
      exact leadingReads_last hone hrs hhead

/-! ## Arriving -/

theorem Relaying.entered (h : c.Relaying d) (h1 : s ≠ .connected) (h2 : s ≠ .error)
    (h3 : s ≠ .done) : (c.entered s).Relaying d := by
  have htun : tunnelIn (c.entered s).trace = tunnelIn c.trace := by
    cases s <;> first | rfl | exact absurd rfl h1
  have hdest : (c.entered s).destined = c.destined := by
    unfold destined
    rw [htun]
    rfl
  refine ⟨h.complete, ?_, h.toClient, ?_, h.clientShut, ?_, ?_, ?_⟩
  · rw [htun]
    exact h.leading
  · rw [hdest]
    exact h.toTarget
  · rw [hdest]
    exact h.originShut
  · exact fun hm => (List.mem_cons.mp hm).elim (fun he => h2 he.symm) h.noError
  · exact fun hm => (List.mem_cons.mp hm).elim (fun he => h3 he.symm) h.notDone

theorem notMem_entered {r : ConnState} (hne : s ≠ r) (h : r ∉ statesEntered c.trace) :
    r ∉ statesEntered (c.entered s).trace :=
  fun hm => (List.mem_cons.mp hm).elim (fun he => hne he.symm) h

theorem Unrelayed.entered (h : c.Unrelayed d) (h1 : s ≠ .error) (h2 : s ≠ .done)
    (h3 : s ≠ .connected) : (c.entered s).Unrelayed d := by
  obtain ⟨⟨hti, hto, hsc, hso, hnc, hnd⟩, hco, hne⟩ := h
  exact ⟨⟨hti, hto, hsc, hso, notMem_entered h3 hnc, notMem_entered h2 hnd⟩, hco,
    notMem_entered h1 hne⟩

/-- A tunnel is established: nothing is kept of what came with its request. -/
theorem flow_tunnel {buffer : Buffer} (hcon : c.connectionRequest.connect = true)
    (hb : buffer.unread = connectReply) (hu : c.Unrelayed d) (hp : c.Parsed) :
    (((c.log .registered).accepted buffer).entered .connected).Relaying d := by
  obtain ⟨⟨hti, hto, hsc, hso, hnc, hnd⟩, hco, hne⟩ := hu
  obtain ⟨⟨line, rest, hl, _⟩, hdrop, hlead⟩ := hp
  refine ⟨⟨line, rest, hl⟩, ?_, ?_, ?_, ?_, fun t ht => .inl (hso t ht), ?_, ?_⟩
  · change _ ++ [] = _
    rw [List.append_nil]
    exact hlead
  · change clientOut c.trace ++ buffer.unread
      = (if c.connectionRequest.connect then connectReply else []) ++ targetIn c.trace
    rw [hco, hti, hcon, hb, if_pos rfl, List.append_nil, List.nil_append]
  · change targetOut c.trace ++ c.clientBuffer.unread
      = if c.connectionRequest.connect then [] else _
    rw [hto, hdrop hcon, hcon]
    rfl
  · change ∀ t ∈ shutdownsOf .client c.trace, _
    rw [hsc]
    exact fun t ht => absurd ht List.not_mem_nil
  · exact notMem_entered (c := (c.log .registered).accepted buffer) (by simp) hne
  · exact notMem_entered (c := (c.log .registered).accepted buffer) (by simp) hnd

/-- The request line is on its way; what came after it follows. -/
theorem flow_announced (hempty : c.originBuffer.unread = []) (h : c.Announcing d) :
    (c.entered .connected).Relaying d := by
  obtain ⟨hti, hco, hsc, hso, hne, _, hnd, ⟨⟨line, rest, hl, hrest⟩, _, hlead⟩, hcon, hsent⟩ := h
  rw [hempty, List.append_nil] at hsent
  have hdest : (c.entered .connected).destined = c.connectionRequest.requestLine ++ rest := by
    rw [destined, show (c.entered .connected).connectionRequest.connect = _ from hcon,
      if_neg (by simp)]
    change c.connectionRequest.requestLine ++ pastRequestLine (clientIn c.trace) = _
    rw [pastRequestLine_eq hl]
  refine ⟨⟨line, rest, hl⟩, ?_, ?_, ?_, ?_, fun t ht => .inl (hso t ht), ?_, ?_⟩
  · change _ ++ [] = _
    rw [List.append_nil]
    exact hlead
  · change clientOut c.trace ++ c.originBuffer.unread
      = (if c.connectionRequest.connect then connectReply else []) ++ targetIn c.trace
    rw [hco, hti, hempty, hcon]
    rfl
  · rw [hdest, hrest hcon, ← hsent]
    rfl
  · change ∀ t ∈ shutdownsOf .client c.trace, _
    rw [hsc]
    exact fun t ht => absurd ht List.not_mem_nil
  · exact notMem_entered (by simp) hne
  · exact notMem_entered (by simp) hnd

theorem flowIn_arrival {env : Env} (hdue : c.FlowDue d s) (hst : c.Due s) (hne : s ≠ .done)
    (ht : s = .closing ∨ s = .emptyBuffers → towardsDoh c.trace = false)
    (ha : (c.entered s).arrival d env s = .ok c') : c'.FlowIn d s := by
  cases s with
  | parsingRequestLine => exact absurd hst id
  | tryConnectionIp =>
      cases ha
      exact ⟨Unrelayed.entered hdue.1 (by simp) (by simp) (by simp),
        Parsed.kept hdue.2.1 rfl rfl rfl, hdue.2.2⟩
  | sendDohRequest =>
      obtain ⟨buffer, hb, ha⟩ := Lib.bind_eq_ok.mp ha
      obtain ⟨hu, _, _⟩ := Buffer.append_spec hb
      cases ha
      obtain ⟨hun, hp, hsent, hempty⟩ := hdue
      have hun := Unrelayed.entered (s := .sendDohRequest) hun (by simp) (by simp) (by simp)
      refine ⟨Unrelayed.kept hun rfl rfl, Parsed.kept hp rfl rfl rfl, ?_⟩
      change sentHere c.trace ++ buffer.unread = _
      rw [hsent, hu, show (c.entered .sendDohRequest).originBuffer.unread = [] from hempty]
      rfl
  | awaitDohResponse =>
      cases ha
      have hin : (c.entered .awaitDohResponse).FlowIn d .awaitDohResponse :=
        ⟨Unrelayed.entered hdue.1 (by simp) (by simp) (by simp),
          Parsed.kept hdue.2.1 rfl rfl rfl, hdue.2.2⟩
      unfold initDohState
      split
      · exact FlowIn.congr (s := .awaitDohResponse) hin rfl
      · split
        · exact FlowIn.congr (s := .awaitDohResponse) hin rfl
        · exact ⟨Unrelayed.kept hin.1 rfl rfl, Parsed.kept hin.2.1 rfl rfl rfl,
            hin.2.2⟩
  | sendRequestLine =>
      obtain ⟨buffer, hb, ha⟩ := Lib.bind_eq_ok.mp ha
      obtain ⟨hu, _, _⟩ := Buffer.append_spec hb
      cases ha
      obtain ⟨hun, hp, hcon, hempty⟩ := hdue
      obtain ⟨⟨h1, h2, h3, h4, h5, h6⟩, h7, h8⟩ :=
        Unrelayed.entered (s := .sendRequestLine) hun (by simp) (by simp) (by simp)
      refine ⟨h1, h7, h3, h4, h8, h5, h6, Parsed.kept hp rfl rfl rfl, hcon, ?_⟩
      change targetOut c.trace ++ buffer.unread = _
      rw [hu, show targetOut c.trace = [] from h2,
        show (c.entered .sendRequestLine).originBuffer.unread = [] from hempty]
      rfl
  | connected =>
      cases ha
      split
      · exact FlowIn.congr (s := .connected) hdue rfl
      · exact hdue
  | closing =>
      cases ha
      have h := Relaying.entered (s := .closing) hdue (by simp) (by simp) (by simp)
      refine Relaying.closeClient (Relaying.closeOrigin h) ?_
      rw [towardsDoh_closeOrigin]
      exact ht (.inl rfl)
  | emptyBuffers =>
      cases ha
      have h := Relaying.entered (s := .emptyBuffers) hdue (by simp) (by simp) (by simp)
      exact Relaying.closeOrigin (Relaying.closeClient h (ht (.inr rfl)))
  | done => exact absurd rfl hne
  | error =>
      obtain ⟨buffer, hb, ha⟩ := Lib.bind_eq_ok.mp ha
      obtain ⟨hu, _, _⟩ := Buffer.print_spec hb
      cases ha
      obtain ⟨⟨h1, h2, h3, h4, h5, h6⟩, h7, h8⟩ := hdue
      refine ⟨⟨h1, h2, h3, h4, notMem_entered (by simp) h5, notMem_entered (by simp) h6⟩,
        List.mem_cons_self, ?_⟩
      change clientOut c.trace ++ buffer.unread = _
      rw [h7, hu, Buffer.unread_bufferReset]
      rfl

/-- The connection is freed. -/
theorem Over.faithful (h : c.Over d) : (c.entered .done).Faithful d := by
  rcases h with ⟨h, hc, ho⟩ | ⟨h, ho⟩
  · have hclient := h.toClient
    rw [ho, List.append_nil] at hclient
    have htarget := h.toTarget
    rw [hc, List.append_nil] at htarget
    have hf := Relaying.faithful h
    have hno : ConnState.error ∉ statesEntered (c.entered .done).trace :=
      notMem_entered (by simp) h.noError
    refine ⟨?_, hf.toTarget, hf.clientShut, hf.originShut, fun _ _ => ⟨hclient, htarget⟩,
      fun _ => ⟨h.toTarget, h.leading⟩⟩
    rw [if_neg hno]
    exact hclient ▸ List.prefix_rfl
  · have hf := Refusing.faithful h
    have herr : ConnState.error ∈ statesEntered (c.entered .done).trace :=
      List.mem_cons_of_mem _ h.error
    refine ⟨?_, hf.toTarget, hf.clientShut, hf.originShut, fun _ hn => absurd herr hn,
      fun hc => absurd hc (notMem_entered (by simp) h.untargeted.notConnected)⟩
    rw [if_pos herr]
    change clientOut c.trace <+: errorReply c.error
    rw [← h.reply]
    exact List.prefix_append _ _

/-! ## One move -/

theorem flow_readClient {key : SelectorKey} {bs : Bytes} {buffer : Buffer} {now : Nat}
    (hint : c.interests.1.read = true) (hb : buffer.unread = c.clientBuffer.unread ++ bs)
    (hst : c.Stage c.stmState) (h : c.FlowIn d c.stmState) :
    ((c.touched now).fromClient bs buffer).FlowAt d (.reading key) := by
  change ((c.touched now).fromClient bs buffer).FlowIn d c.stmState
  rw [Conn.interests] at hint
  cases hs : c.stmState with
  | parsingRequestLine =>
      rw [hs] at h hst
      exact ⟨Unrelayed.kept h.1 rfl rfl, Parsing.fromClient h.2 hst.2 hb⟩
  | connected =>
      rw [hs] at h hst
      exact Relaying.fromClient h hst.1 hb
  | closing =>
      rw [hs] at h hst hint
      refine Relaying.fromClient h ?_ hb
      rcases hst.1 with ⟨_, ho⟩ | ⟨hc, _⟩
      · simp only [ConnState.interests, closingInterests, Bool.and_eq_true, ho] at hint
        cases hint.1
      · exact hc
  | _ =>
      rw [hs] at hint
      cases hint

theorem flow_endOfClient {key : SelectorKey} {now : Nat}
    (hnum : ConnState.connected.num ≤ c.stmState.num) (h : c.FlowIn d c.stmState) :
    ((c.touched now).endOfClient).FlowAt d (.reading key) := by
  change ((c.touched now).endOfClient).FlowIn d c.stmState
  have hrelay : c.Relaying d → ((c.touched now).endOfClient).Relaying d := fun h =>
    ⟨h.complete, h.leading, h.toClient, h.toTarget, h.clientShut,
      fun t ht => (h.originShut t ht).imp id fun hs => ⟨hs.1, rfl, hs.2.2⟩,
      h.noError, h.notDone⟩
  cases hs : c.stmState with
  | connected =>
      rw [hs] at h
      exact hrelay h
  | closing =>
      rw [hs] at h
      exact hrelay h
  | emptyBuffers =>
      rw [hs] at h
      exact hrelay h
  | done =>
      rw [hs] at h
      exact absurd h id
  | error =>
      rw [hs] at h
      obtain ⟨⟨h1, h2, h3, h4, h5, h6⟩, h7, h8⟩ := h
      exact ⟨⟨h1, h2, h3, h4, h5, h6⟩, h7, h8⟩
  | _ =>
      rw [hs] at hnum
      exact absurd hnum (by decide)

theorem flow_writeClient {n : Nat} {buffer : Buffer} {now : Nat}
    (hint : c.interests.1.write = true)
    (hb : buffer.unread = c.originBuffer.unread.drop n) (h : c.FlowIn d c.stmState) :
    ((c.touched now).toClient (c.originBuffer.unread.take n) buffer).FlowAt d .writing := by
  change ((c.touched now).toClient (c.originBuffer.unread.take n) buffer).FlowIn d c.stmState
  rw [Conn.interests] at hint
  cases hs : c.stmState with
  | connected =>
      rw [hs] at h
      exact Relaying.sentClient h hb
  | closing =>
      rw [hs] at h
      exact Relaying.sentClient h hb
  | emptyBuffers =>
      rw [hs] at h
      exact Relaying.sentClient h hb
  | error =>
      rw [hs] at h
      exact Refusing.sentClient h hb
  | _ =>
      rw [hs] at hint
      cases hint

theorem flow_readOrigin {key : SelectorKey} {bs : Bytes} {buffer : Buffer} {now : Nat}
    (hint : c.interests.2.read = true) (hb : buffer.unread = c.originBuffer.unread ++ bs)
    (hst : c.Stage c.stmState) (hp : c.PeerIn d c.stmState) (h : c.FlowIn d c.stmState) :
    ((c.touched now).fromOrigin bs buffer).FlowAt d (.reading key) := by
  change ((c.touched now).fromOrigin bs buffer).FlowIn d c.stmState
  rw [Conn.interests] at hint
  cases hs : c.stmState with
  | awaitDohResponse =>
      rw [hs] at h hp
      have hin : targetIn ((c.touched now).fromOrigin bs buffer).trace = targetIn c.trace :=
        if_pos (towardsDoh_of_doh hp.2.1)
      refine ⟨Unrelayed.kept h.1 ?_ rfl, Parsed.kept h.2.1 rfl rfl rfl, h.2.2⟩
      rw [exchanged, hin]
      rfl
  | connected =>
      rw [hs] at h hst hp
      exact Relaying.fromOrigin h (towardsDoh_of_target hp) hst.2 hb
  | closing =>
      rw [hs] at h hst hp hint
      refine Relaying.fromOrigin h (towardsDoh_of_target hp) ?_ hb
      rcases hst.1 with ⟨_, ho⟩ | ⟨hc, _⟩
      · exact ho
      · simp only [ConnState.interests, closingInterests, Bool.and_eq_true, hc] at hint
        cases hint.1
  | _ =>
      rw [hs] at hint
      cases hint

theorem flow_endOfOrigin {key : SelectorKey} {now : Nat}
    (hint : c.interests.2.read = true) (h : c.FlowIn d c.stmState) :
    ((c.touched now).endOfOrigin).FlowAt d (.reading key) := by
  change ((c.touched now).endOfOrigin).FlowIn d c.stmState
  rw [Conn.interests] at hint
  have hrelay : c.Relaying d → ((c.touched now).endOfOrigin).Relaying d := fun h =>
    ⟨h.complete, h.leading, h.toClient, h.toTarget, fun t ht => ⟨rfl, (h.clientShut t ht).2⟩,
      h.originShut, h.noError, h.notDone⟩
  cases hs : c.stmState with
  | awaitDohResponse =>
      rw [hs] at h
      exact ⟨Unrelayed.kept h.1 rfl rfl, Parsed.kept h.2.1 rfl rfl rfl, h.2.2⟩
  | connected =>
      rw [hs] at h
      exact hrelay h
  | closing =>
      rw [hs] at h
      exact hrelay h
  | _ =>
      rw [hs] at hint
      cases hint

theorem flow_writeOrigin {n : Nat} {buffer : Buffer} {now : Nat}
    (h1 : c.stmState ≠ .sendRequestLine) (h2 : c.stmState ≠ .sendDohRequest)
    (h3 : c.stmState ≠ .tryConnectionIp) (hint : c.interests.2.write = true)
    (hb : buffer.unread = c.clientBuffer.unread.drop n) (hp : c.PeerIn d c.stmState)
    (h : c.FlowIn d c.stmState) :
    ((c.touched now).toOrigin (c.clientBuffer.unread.take n) buffer).FlowAt d .writing := by
  change ((c.touched now).toOrigin (c.clientBuffer.unread.take n) buffer).FlowIn d c.stmState
  rw [Conn.interests] at hint
  cases hs : c.stmState with
  | tryConnectionIp => exact absurd hs h3
  | sendDohRequest => exact absurd hs h2
  | sendRequestLine => exact absurd hs h1
  | connected =>
      rw [hs] at h hp
      exact Relaying.sentOrigin h (towardsDoh_of_target hp) hb
  | closing =>
      rw [hs] at h hp
      exact Relaying.sentOrigin h (towardsDoh_of_target hp) hb
  | emptyBuffers =>
      rw [hs] at h hp
      exact Relaying.sentOrigin h (towardsDoh_of_target hp) hb
  | _ =>
      rw [hs] at hint
      cases hint

theorem flow_judged {key : SelectorKey} {doh : DohConnection} {v : Verdict}
    (hcur : c.current = some .awaitDohResponse) (h : c.FlowIn d .awaitDohResponse) :
    (c.judged key doh v).2.FlowAt d (c.judged key doh v).1 := by
  have hne : c.current ≠ some .error := by rw [hcur]; simp
  obtain ⟨hu, hp, hq⟩ := h
  unfold Conn.judged
  split
  · exact flowAt_in (.inr (.inl ⟨key, rfl⟩)) hcur ⟨hu, hp, hq⟩
  · exact flowAt_in (s := .awaitDohResponse) (.inr (.inl ⟨key, rfl⟩)) hcur
      ⟨Unrelayed.kept hu rfl rfl, Parsed.kept hp rfl rfl rfl, hq⟩
  · exact flowAt_leave hne (Unrelayed.kept hu rfl rfl)
  · split
    · exact flowAt_leave hne (Unrelayed.kept hu rfl rfl)
    · exact ⟨Unrelayed.kept hu rfl rfl, Parsed.kept hp rfl rfl rfl⟩

/-- The parsers of CONNECTED leave the request, but for the status of its
answer. -/
theorem analyzeRead_request (key : SelectorKey) (c : Conn) :
    ∃ code, (analyzeRead key c).connectionRequest
      = { c.connectionRequest with statusCode := code } := by
  have hparse : ∀ c : Conn, ∃ code, (parseResponse c).connectionRequest
      = { c.connectionRequest with statusCode := code } := by
    intro c
    unfold parseResponse
    dsimp only
    split
    · exact ⟨_, rfl⟩
    · exact ⟨_, rfl⟩
  unfold analyzeRead
  dsimp only
  split <;> split
  · exact hparse c
  · exact hparse c
  · exact ⟨_, rfl⟩
  · exact ⟨_, rfl⟩

theorem analyzeRead_flowView (key : SelectorKey) (c : Conn) :
    (analyzeRead key c).flowView = c.flowView := by
  obtain ⟨code, hreq⟩ := analyzeRead_request key c
  have hx := @analyzeRead_keeps _ (fun c => exchanged c.trace) key c rfl fun _ => rfl
  have hh := @analyzeRead_keeps _ (fun c => heard c.trace) key c rfl fun _ => rfl
  have hs := @analyzeRead_keeps _ (fun c => sentHere c.trace) key c rfl fun _ => rfl
  have hq := @analyzeRead_keeps _ (fun c => queries c.trace) key c rfl fun _ => rfl
  have hp := @analyzeRead_keeps _ Conn.requestParser key c rfl fun _ => rfl
  have he := @analyzeRead_keeps _ Conn.error key c rfl fun _ => rfl
  obtain ⟨h1, h2, h3, h4, h5⟩ := analyzeRead_buffers key c
  simp only [flowView, hreq, hx, hh, hs, hq, hp, he, h1, h2, h3, h4, h5]

theorem flow_move {ph ph' : Phase} {m m' : Metrics} (hl : Life d ph c) (h : c.FlowAt d ph)
    (hm : Move d ⟨ph, c, m⟩ ⟨ph', c', m'⟩) : c'.FlowAt d ph' := by
  obtain ⟨_, hst⟩ := hl.stages
  have hp := hl.peers
  cases hm with
  | readClient now hint _ _ hb => exact flow_readClient hint (Buffer.append_spec hb).1 hst h
  | endOfClient now _ _ hnum => exact flow_endOfClient hnum h
  | writeClient now hint _ hb => exact flow_writeClient hint (Buffer.readAdv_spec hb).1 h
  | readOrigin now hint _ _ _ hb =>
      exact flow_readOrigin hint (Buffer.append_spec hb).1 hst hp h
  | endOfOrigin now hint _ _ => exact flow_endOfOrigin hint h
  | readyOrigin now hs => exact FlowIn.congr (d := d) (c := c) h rfl
  | writeRequest now hs _ hb =>
      rw [FlowAt] at h
      rw [PeerAt] at hp
      rcases hs with hs | hs
      · rw [hs] at h hp
        rw [FlowAt, show ((c.touched now).requestToOrigin _ _).stmState = _ from hs]
        exact Announcing.sentOrigin h (towardsDoh_of_target hp) (Buffer.readAdv_spec hb).1
      · rw [hs] at h hp
        rw [FlowAt, show ((c.touched now).requestToOrigin _ _).stmState = _ from hs]
        exact flowIn_queryOut h (towardsDoh_of_doh hp.2.2) (Buffer.readAdv_spec hb).1
  | writeOrigin now h1 h2 h3 hint _ hb =>
      exact flow_writeOrigin h1 h2 h3 hint (Buffer.readAdv_spec hb).1 hp h
  | close now => exact Faithful.touched (FlowIn.faithful h) now
  | closeEarly now _ => exact Faithful.eof (Faithful.touched (FlowIn.faithful h) now) _
  | collect => exact FlowIn.faithful h
  | start enabled hcur =>
      rw [FlowAt, show c.stmState = .parsingRequestLine by rw [stmState, hcur]; rfl] at h
      obtain ⟨hu, hcon, hshut, hlead, bs, hin, hnil, _⟩ := h
      have hu := Unrelayed.entered (s := .parsingRequestLine) hu (by simp) (by simp) (by simp)
      refine ⟨Unrelayed.kept hu rfl rfl, hcon, hshut, hlead, [], ?_, (by intro hc; cases hc),
        fun _ => ⟨rfl, rfl⟩⟩
      rw [hnil hcur] at hin
      exact hin
  | parseByte hcur hcan hread _ hnot =>
      rw [FlowAt, stmState_of_current hcur] at h
      exact flow_parseByte hcur (Buffer.read_ok hcan hread).1 hnot h.1 h.2
  | parseError hcur _ _ _ =>
      rw [FlowAt, stmState_of_current hcur] at h
      exact flowAt_leave (fun hc => by cases hcur.symm.trans hc)
        (Unrelayed.kept h.1 rfl rfl)
  | parseDone hcur hcan hread hdone ha =>
      rw [FlowAt, stmState_of_current hcur] at h
      exact flow_parseDone hcur (Buffer.read_ok hcan hread).1 hdone h.1 h.2 ha
  | parseIdle hcur _ =>
      rw [FlowAt, stmState_of_current hcur] at h
      exact flowAt_stay hcur h
  | tryQuery hcur _ =>
      rw [FlowAt, stmState_of_current hcur] at h
      rw [StageOf, stmState_of_current hcur] at hst
      exact flowAt_leave (by rw [hcur]; simp) ⟨h.1, h.2.1, h.2.2, hst.2⟩
  | tryConnect hcur _ hcon hb =>
      rw [FlowAt, stmState_of_current hcur] at h
      exact flowAt_leave (fun hc => by cases hcur.symm.trans hc)
        (flow_tunnel hcon (Buffer.print_spec hb).1 h.1 h.2.1)
  | tryRequest hcur _ hcon =>
      rw [FlowAt, stmState_of_current hcur] at h
      rw [StageOf, stmState_of_current hcur] at hst
      exact flowAt_leave (fun hc => by cases hcur.symm.trans hc)
        ⟨Unrelayed.kept h.1 rfl rfl, Parsed.kept h.2.1 rfl rfl rfl, hcon, hst.2⟩
  | tryFail hcur _ =>
      rw [FlowAt, stmState_of_current hcur] at h
      exact flowAt_leave (fun hc => by cases hcur.symm.trans hc)
        (Unrelayed.kept h.1 rfl rfl)
  | tryNext hcur _ _ =>
      rw [FlowAt, stmState_of_current hcur] at h
      exact flow_nextDns (by rw [hcur]; simp) h.1 h.2.1
  | walkSkip _ _ _ _ =>
      exact ⟨Unrelayed.kept h.1 rfl rfl, Parsed.kept h.2 rfl rfl rfl⟩
  | walkRefused _ _ _ _ =>
      exact ⟨Unrelayed.kept h.1 rfl rfl, Parsed.kept h.2 rfl rfl rfl⟩
  | walkOpen _ _ _ _ hr =>
      exact (Attempt.opened hr).flow (c := c.examine _ _) hst.state
        (Unrelayed.kept h.1 rfl rfl) (Parsed.kept h.2 rfl rfl rfl)
  | walkEnd _ _ => exact flow_exhausted hst.state h.1 h.2
  | ask ha => exact ha.flow hst.state h.1 h.2
  | drained hcur hs hcan =>
      rw [FlowAt, stmState_of_current hcur] at h
      rw [afterDrain, stmState_of_current hcur]
      have hempty := (Buffer.canRead_eq_false_iff _).mp hcan
      rcases hs with rfl | rfl | rfl
      · obtain ⟨hu, hp', hq⟩ := h
        rw [hempty, List.append_nil] at hq
        exact flowAt_leave (by rw [hcur]; simp) ⟨hu, hp', hq⟩
      · exact flowAt_leave (by rw [hcur]; simp) (flow_announced hempty h)
      · exact flowAt_leave (by rw [hcur]; simp) (.inr ⟨h, hempty⟩)
  | draining hcur hs _ =>
      rw [FlowAt, stmState_of_current hcur] at h
      exact flowAt_stay hcur h
  | awaitFailed hcur _ =>
      rw [FlowAt, stmState_of_current hcur] at h
      exact flowAt_leave (by rw [hcur]; simp) h.1
  | awaitByte alloc hcur _ _ _ _ _ =>
      rw [FlowAt, stmState_of_current hcur] at h
      exact flow_judged (c := c.fed _ _) hcur ⟨Unrelayed.kept h.1 rfl rfl,
        Parsed.kept h.2.1 rfl rfl rfl, h.2.2⟩
  | awaitIdle hcur _ _ _ =>
      rw [FlowAt, stmState_of_current hcur] at h
      exact flowAt_stay hcur h
  | awaitEnd hcur _ _ _ _ =>
      rw [FlowAt, stmState_of_current hcur] at h
      rw [PeerAt, stmState_of_current hcur] at hp
      obtain ⟨⟨⟨h1, h2, h3, h4, h5, h6⟩, h7, h8⟩, hp', hq⟩ := h
      refine flow_nextDns (c := c.log (.shutdown .origin))
        (fun hc => by cases hcur.symm.trans hc) ⟨⟨h1, h2, h3, ?_, h5, h6⟩, h7, h8⟩
        (Parsed.kept hp' rfl rfl rfl)
      intro t ht
      rcases List.mem_cons.mp (show t ∈ c.trace :: shutdownsOf .origin c.trace from ht)
        with rfl | ht
      · exact ⟨towardsDoh_of_doh hp.2.1, hq⟩
      · exact h4 t ht
  | relayRead hcur hnc hno =>
      rename_i key
      rw [FlowAt, stmState_of_current hcur] at h
      exact flowAt_stay ((analyzeRead_buffers key c).2.2.2.2.trans hcur)
        (FlowIn.congr (s := .connected) h (analyzeRead_flowView key c))
  | relayEnd hcur hend =>
      rename_i key
      rw [FlowAt, stmState_of_current hcur] at h
      exact flowAt_leave (by rw [(analyzeRead_buffers key c).2.2.2.2, hcur]; simp)
        (FlowIn.congr (s := .connected) h (analyzeRead_flowView key c))
  | relayWrite hcur =>
      rw [FlowAt, stmState_of_current hcur] at h
      exact flowAt_stay hcur h
  | closingRead hcur _ =>
      rw [FlowAt, stmState_of_current hcur] at h
      rw [PeerAt, stmState_of_current hcur] at hp
      refine flowAt_stay (by simpa using hcur)
        (Relaying.closeClient (Relaying.closeOrigin h) ?_)
      rw [towardsDoh_closeOrigin]
      exact towardsDoh_of_target hp
  | closingDone hcur heq hcc hco =>
      rename_i key
      rw [FlowAt, stmState_of_current hcur] at h
      rw [PeerAt, stmState_of_current hcur] at hp
      rw [StageOf, stmState_of_current hcur] at hst
      have hc := (Buffer.canRead_eq_false_iff _).mp hcc
      have ho := (Buffer.canRead_eq_false_iff _).mp hco
      refine flowAt_leave (fun hc => by cases hcur.symm.trans hc) (.inl ⟨?_, hc, ho⟩)
      by_cases hk : key.fd = c.clientFd
      · rw [if_pos hk] at heq ⊢
        exact Relaying.shutOrigin h (towardsDoh_of_target hp) hc (by rw [heq]; rfl)
      · rw [if_neg hk] at heq ⊢
        exact Relaying.shutClient h ho (by rw [heq]; rfl)
  | closingEmpty hcur _ _ =>
      rw [FlowAt, stmState_of_current hcur] at h
      exact flowAt_leave (by rw [hcur]; simp) h
  | closingWrite hcur =>
      rw [FlowAt, stmState_of_current hcur] at h
      rw [PeerAt, stmState_of_current hcur] at hp
      refine flowAt_stay (by simpa using hcur)
        (Relaying.closeClient (Relaying.closeOrigin h) ?_)
      rw [towardsDoh_closeOrigin]
      exact towardsDoh_of_target hp
  | emptyDone hcur hc ho =>
      rw [FlowAt, stmState_of_current hcur] at h
      rw [PeerAt, stmState_of_current hcur] at hp
      rw [StageOf, stmState_of_current hcur] at hst
      have hshut := (ended_clientFirst c).shut hst.2
      exact flowAt_leave (by simp [hcur])
        (.inl ⟨Relaying.closeOrigin (Relaying.closeClient h (towardsDoh_of_target hp)),
          hshut.client hc, hshut.origin ho⟩)
  | emptyWrite hcur _ =>
      rw [FlowAt, stmState_of_current hcur] at h
      rw [PeerAt, stmState_of_current hcur] at hp
      exact flowAt_stay (by simpa using hcur)
        (Relaying.closeOrigin (Relaying.closeClient h (towardsDoh_of_target hp)))
  | stay hcur =>
      rw [FlowAt, if_pos hcur] at h
      exact flowAt_in (.inl rfl) hcur h
  | arrive env hcur hne ha =>
      rw [FlowAt, if_neg hcur] at h
      rw [PeerAt, if_neg hcur] at hp
      rw [StageOf, if_neg hcur] at hst
      refine flowAt_in (.inl rfl) (arrival_current ha) (flowIn_arrival h hst hne ?_ ha)
      rintro (rfl | rfl) <;> exact towardsDoh_of_target hp
  | free hcur =>
      rw [FlowAt, if_neg hcur] at h
      exact Over.faithful h

/-- Every life keeps account of what has passed. -/
theorem Life.flow {ph : Phase} (h : Life d ph c) : c.FlowAt d ph := by
  refine h.invariant (I := fun ph c => c.FlowAt d ph) ?_ ?_
  · intro fd size now mem
    refine ⟨⟨⟨rfl, rfl, rfl, ?_, List.not_mem_nil, List.not_mem_nil⟩, rfl, List.not_mem_nil⟩,
      rfl, rfl, ⟨[], [], rfl, by simp, rfl⟩, [], rfl, fun _ => rfl, fun hc => absurd rfl hc⟩
    exact fun t ht => absurd ht List.not_mem_nil
  · intro ph c m ph' c' m' hl hI hm
    exact flow_move hl hI hm

end

end HttpdProxy
