import HttpdProxy.Daemon.ConnectionsManager

/-!
# A connection by itself

What a connection can do between `accept` and `free`, with the selector, the
heap and the other connections left out. A `Mid` is a connection in the middle
of an event: which phase the handler is in, the record, and the counters it
bumps on the way. `Move` is one stretch of a handler; an event is a chain of
moves from `rest` to `rest`, or to `gone`.

Every question about one connection (who its peer is, what it has forwarded,
what it waits for) is answered on moves, one case per move. That the handlers
make no others is `Proofs/Handlers.lean`.
-/

namespace HttpdProxy

/-- Where a handler is: waiting for an event, in the read or the write handler
of the current state, between two answers, about to open a connection to the
DoH server, about to jump to a state, or done with a freed connection. -/
inductive Phase where
  | rest
  | reading (key : SelectorKey)
  | writing
  | walking
  | asking
  | goto (s : ConnState)
  | gone
  deriving DecidableEq, Repr

structure Mid where
  phase : Phase
  conn : Conn
  metrics : Metrics

/-- What a connection waits for in each state: on the client's socket, and on
the origin's where there is one. -/
def ConnState.interests (c : Conn) : ConnState → Interest × Interest
  | .parsingRequestLine => (opRead, opNoop)
  | .tryConnectionIp | .sendDohRequest | .sendRequestLine => (opNoop, opWrite)
  | .awaitDohResponse => (opNoop, opRead)
  | .connected => connectionInterests c
  | .closing => closingInterests c
  | .emptyBuffers => emptyBuffersInterests c
  | .done => (opNoop, opNoop)
  | .error => (opWrite, opNoop)

namespace Conn

/-- What a resting connection waits for. -/
def interests (c : Conn) : Interest × Interest := c.stmState.interests c

theorem stmState_of_current {c : Conn} {s : ConnState} (h : c.current = some s) :
    c.stmState = s := by
  rw [stmState, h]
  rfl

theorem interests_of_current {c : Conn} {s : ConnState} (h : c.current = some s) :
    c.interests = s.interests c := by
  rw [interests, stmState_of_current h]

def failed (c : Conn) (e : Errors) : Conn := { c with error := some e }

/-- No socket could be opened. -/
def unopened (c : Conn) (peer : Peer) (addr : Sockaddr) : Conn :=
  { c.log (.unopened peer addr) with originFd := -1 }

/-- A socket was opened and its registration attempted. -/
def opened (c : Conn) (fd : Int) (peer : Peer) (addr : Sockaddr) : Conn :=
  { c.log (.opened fd peer addr) with originFd := fd, originStatus := .activeStatus }

/-- `parsing_host_on_arrival`. -/
def started (c : Conn) (enabled : Bool) : Conn :=
  { c.entered .parsingRequestLine with
    requestParser := requestParserInit
    sniffer :=
      { snifferParser := snifferParserInit
        sniffEnabled := enabled
        isDone := false } }

/-- The peer the completed request asks for first. -/
def firstPeer (d : DohUtils) (c : Conn) : Peer × Sockaddr :=
  let target := c.requestParser.request.requestTarget
  if target.hostType = .domain then (.doh, d.sockaddr) else (.literal, target.host.sockaddr)

/-- The reply to a CONNECT is in the origin buffer. -/
def accepted (c : Conn) (buffer : Buffer) : Conn :=
  { c with
    connectionRequest := { c.connectionRequest with statusCode := 200 }
    originBuffer := buffer }

end Conn

/-- A socket was opened: the selector registers it, or refuses its number. -/
inductive Registration (peer : Peer) (addr : Sockaddr) (c : Conn) :
    ConnState → Conn → Prop where
  | rejected (fd : Int) :
      0 ≤ fd → Registration peer addr c .error
        ((c.opened fd peer addr).failed .internalServerError)
  | accepted (fd : Int) :
      0 ≤ fd → Registration peer addr c .tryConnectionIp (c.opened fd peer addr)

/-- One attempt at an origin socket that has to succeed. -/
inductive Attempt (peer : Peer) (addr : Sockaddr) (c : Conn) : ConnState → Conn → Prop where
  | refused :
      Attempt peer addr c .error ((c.unopened peer addr).failed .internalServerError)
  | opened {next : ConnState} {c' : Conn} :
      Registration peer addr c next c' → Attempt peer addr c next c'

/-- The record type the walk is after. -/
def DohTry.recordType : DohTry → UInt16
  | .ipv4Try => ipv4Type
  | .ipv6Try => ipv6Type

/-- The address of a record of that type. -/
def DohTry.sockaddr (t : DohTry) (port : UInt16) (a : Answer) : Sockaddr :=
  match t with
  | .ipv4Try => .in4 ⟨port, a.ipv4⟩
  | .ipv6Try => .in6 ⟨port, a.ipv6⟩

/-- What a byte of the DoH reply leads to. -/
inductive Verdict where
  | more
  | complete
  | noAnswers
  | failed (e : Errors)
  deriving DecidableEq, Repr

/-- The verdict of a state of the DNS parser. -/
def DohResponseState.verdict : DohResponseState → Verdict
  | .dohResponseError => .failed .badGateway
  | .responseMemAllocError => .failed .internalServerError
  | .dohNoAnswers => .noAnswers
  | .dohResponseDone => .complete
  | _ => .more

/-- A byte goes to the first of the three parsers that is not done. -/
def DohConnection.feed (alloc : Bool) (doh : DohConnection) (b : UInt8) :
    DohConnection × Verdict :=
  if doh.statusLineParser.state ≠ .statusLineDone then
    let p := statusLineParserFeed doh.statusLineParser b
    ({ doh with statusLineParser := p },
      if p.state = .statusLineError then .failed .badGateway else .more)
  else if doh.headersParser.state ≠ .headersDone then
    let p := headersParserFeed doh.headersParser b
    ({ doh with headersParser := p },
      if p.state = .headersError then .failed .badGateway else .more)
  else
    let p := dohResponseParserFeed alloc doh.dohParser b
    ({ doh with dohParser := p }, p.state.verdict)

namespace DohConnection

theorem feed_statusLine {alloc : Bool} {doh : DohConnection} {b : UInt8}
    (h : doh.statusLineParser.state ≠ .statusLineDone) :
    doh.feed alloc b =
      ({ doh with statusLineParser := statusLineParserFeed doh.statusLineParser b },
        if (statusLineParserFeed doh.statusLineParser b).state = .statusLineError then
          .failed .badGateway
        else .more) := if_pos h

theorem feed_headers {alloc : Bool} {doh : DohConnection} {b : UInt8}
    (hs : ¬ doh.statusLineParser.state ≠ .statusLineDone)
    (h : doh.headersParser.state ≠ .headersDone) :
    doh.feed alloc b =
      ({ doh with headersParser := headersParserFeed doh.headersParser b },
        if (headersParserFeed doh.headersParser b).state = .headersError then
          .failed .badGateway
        else .more) := (if_neg hs).trans (if_pos h)

theorem feed_doh {alloc : Bool} {doh : DohConnection} {b : UInt8}
    (hs : ¬ doh.statusLineParser.state ≠ .statusLineDone)
    (h : ¬ doh.headersParser.state ≠ .headersDone) :
    doh.feed alloc b =
      ({ doh with dohParser := dohResponseParserFeed alloc doh.dohParser b },
        (dohResponseParserFeed alloc doh.dohParser b).state.verdict) :=
  (if_neg hs).trans (if_neg h)

end DohConnection

/-- All three parsers are done: no byte is consumed any more. -/
def DohConnection.finished (doh : DohConnection) : Bool :=
  doh.statusLineParser.state == .statusLineDone &&
    doh.headersParser.state == .headersDone && doh.dohParser.state == .dohResponseDone

namespace Conn

/-- The reply's next byte has been fed. -/
def fed (c : Conn) (doh : DohConnection) (buffer : Buffer) : Conn :=
  { c with originBuffer := buffer, dohConnection := some doh }

/-- Where a verdict on the reply leads. -/
def judged (c : Conn) (key : SelectorKey) (doh : DohConnection) : Verdict → Phase × Conn
  | .more => (.reading key, c)
  | .complete => (.reading key, { c with originBuffer := bufferReset c.originBuffer })
  | .failed e => (.goto .error, c.failed e)
  | .noAnswers =>
      match doh.currentType with
      | .ipv6Try => (.goto .error, c.failed .internalServerError)
      | .ipv4Try =>
          (.asking, { c with originBuffer := bufferReset c.originBuffer }.giveUpIpv4 doh)

/-- `try_next_dns_connection`, past the unregistration. -/
def nextDns (c : Conn) (doh : DohConnection) : Phase × Conn :=
  let responseError := doh.dohParser.response.header.flags.rcode ≠ 0
  match doh.currentType with
  | .ipv4Try => if responseError then (.asking, c.giveUpIpv4 doh) else (.walking, c)
  | .ipv6Try =>
      if responseError then (.goto .error, c.failed .internalServerError)
      else (.walking, c)

/-- What follows a walk that found nothing. -/
def exhausted (c : Conn) (doh : DohConnection) : Phase × Conn :=
  match doh.currentType with
  | .ipv4Try => (.asking, c.giveUpIpv4 doh)
  | .ipv6Try => (.goto .error, c.failed .internalServerError)

/-- Neither touches anything but the error and what is known of the names. -/
theorem nextDns_eq (c : Conn) (doh : DohConnection) :
    ∃ e dc, (c.nextDns doh).2 = { c with error := e, dohConnection := dc } := by
  unfold nextDns
  dsimp only
  split <;> split <;> exact ⟨_, _, rfl⟩

theorem exhausted_eq (c : Conn) (doh : DohConnection) :
    ∃ e dc, (c.exhausted doh).2 = { c with error := e, dohConnection := dc } := by
  unfold exhausted
  split <;> exact ⟨_, _, rfl⟩

theorem judged_eq (c : Conn) (key : SelectorKey) (doh : DohConnection) (v : Verdict) :
    ∃ e dc buffer, (c.judged key doh v).2
      = { c with error := e, dohConnection := dc, originBuffer := buffer } := by
  unfold judged
  split
  · exact ⟨_, _, _, rfl⟩
  · exact ⟨_, _, _, rfl⟩
  · exact ⟨_, _, _, rfl⟩
  · split <;> exact ⟨_, _, _, rfl⟩

/-- Nor lead anywhere but into the walk, to another query or to an error. -/
theorem nextDns_phase (c : Conn) (doh : DohConnection) :
    (c.nextDns doh).1 = .walking ∨ (c.nextDns doh).1 = .asking ∨
      (c.nextDns doh).1 = .goto .error := by
  unfold nextDns
  dsimp only
  split <;> split <;> simp

theorem exhausted_phase (c : Conn) (doh : DohConnection) :
    (c.exhausted doh).1 = .walking ∨ (c.exhausted doh).1 = .asking ∨
      (c.exhausted doh).1 = .goto .error := by
  unfold exhausted
  split <;> simp

/-- The state a drained origin buffer leads to. -/
def afterDrain (c : Conn) : ConnState :=
  match c.stmState with
  | .sendDohRequest => .awaitDohResponse
  | .sendRequestLine => .connected
  | _ => .done

/-- What arriving at a state does to the record. -/
def arrival (d : DohUtils) (env : Env) (c : Conn) : ConnState → Except Fault Conn
  | .sendDohRequest => do
      let type := queryType c
      let buffer ← bufferAppend c.originBuffer
        (buildDohRequest d c.connectionRequest.host.text type)
      .ok ({ c with originBuffer := buffer }.log (.query type))
  | .awaitDohResponse => .ok (initDohState env c)
  | .sendRequestLine => do
      let buffer ← bufferAppend c.originBuffer c.connectionRequest.requestLine
      .ok { c with originBuffer := buffer }
  | .connected => .ok (if !c.connectionRequest.connect then initHttpResponse c else c)
  | .closing => .ok c.closeOrigin.closeClient
  | .emptyBuffers => .ok c.closeClient.closeOrigin
  | .error => writeError c
  | _ => .ok c

/-- The counters `close_proxy_connection` leaves. -/
def uncounted (c : Conn) (m : Metrics) : Metrics :=
  if c.stmState.num ≥ ConnState.sendRequestLine.num then unregisterConnection m else m

end Conn

/-- One move of a connection. -/
inductive Move (d : DohUtils) : Mid → Mid → Prop where
  -- the event: what `read` or `send` did
  | readClient {c : Conn} {m : Metrics} {key : SelectorKey} {bs : Bytes}
      {buffer : Buffer} (now : Nat) :
      c.interests.1.read = true → key.fd = c.clientFd → bs ≠ [] →
      bufferAppend c.clientBuffer bs = .ok buffer →
      Move d ⟨.rest, c, m⟩ ⟨.reading key, (c.touched now).fromClient bs buffer, m⟩
  | endOfClient {c : Conn} {m : Metrics} {key : SelectorKey} (now : Nat) :
      c.interests.1.read = true → key.fd = c.clientFd →
      ConnState.connected.num ≤ c.stmState.num →
      Move d ⟨.rest, c, m⟩ ⟨.reading key, (c.touched now).endOfClient, m⟩
  | writeClient {c : Conn} {m : Metrics} {n : Nat} {buffer : Buffer} (now : Nat) :
      c.interests.1.write = true → 0 < n → bufferReadAdv c.originBuffer n = .ok buffer →
      Move d ⟨.rest, c, m⟩
        ⟨.writing, (c.touched now).toClient (c.originBuffer.unread.take n) buffer,
          increaseBytesReceived n m⟩
  | readOrigin {c : Conn} {m : Metrics} {key : SelectorKey} {bs : Bytes}
      {buffer : Buffer} (now : Nat) :
      c.interests.2.read = true → key.fd = c.originFd → c.originFd ≠ c.clientFd →
      bs ≠ [] → bufferAppend c.originBuffer bs = .ok buffer →
      Move d ⟨.rest, c, m⟩ ⟨.reading key, (c.touched now).fromOrigin bs buffer, m⟩
  | endOfOrigin {c : Conn} {m : Metrics} {key : SelectorKey} (now : Nat) :
      c.interests.2.read = true → key.fd = c.originFd → c.originFd ≠ c.clientFd →
      Move d ⟨.rest, c, m⟩ ⟨.reading key, (c.touched now).endOfOrigin, m⟩
  | readyOrigin {c : Conn} {m : Metrics} (now : Nat) :
      c.stmState = .tryConnectionIp →
      Move d ⟨.rest, c, m⟩ ⟨.writing, c.touched now, m⟩
  | writeRequest {c : Conn} {m : Metrics} {n : Nat} {buffer : Buffer} (now : Nat) :
      c.stmState = .sendRequestLine ∨ c.stmState = .sendDohRequest → 0 < n →
      bufferReadAdv c.originBuffer n = .ok buffer →
      Move d ⟨.rest, c, m⟩
        ⟨.writing, (c.touched now).requestToOrigin (c.originBuffer.unread.take n) buffer,
          increaseBytesSent n m⟩
  | writeOrigin {c : Conn} {m : Metrics} {n : Nat} {buffer : Buffer} (now : Nat) :
      c.stmState ≠ .sendRequestLine → c.stmState ≠ .sendDohRequest →
      c.stmState ≠ .tryConnectionIp → c.interests.2.write = true → 0 < n →
      bufferReadAdv c.clientBuffer n = .ok buffer →
      Move d ⟨.rest, c, m⟩
        ⟨.writing, (c.touched now).toOrigin (c.clientBuffer.unread.take n) buffer,
          increaseBytesSent n m⟩
  | close {c : Conn} {m : Metrics} (now : Nat) :
      Move d ⟨.rest, c, m⟩ ⟨.gone, c.touched now, c.uncounted m⟩
  | closeEarly {c : Conn} {m : Metrics} (now : Nat) :
      c.stmState.num < ConnState.connected.num →
      Move d ⟨.rest, c, m⟩ ⟨.gone, (c.touched now).log (.eof .client), c.uncounted m⟩
  | collect {c : Conn} {m : Metrics} :
      Move d ⟨.rest, c, m⟩ ⟨.gone, c, c.uncounted (c.uncounted m)⟩
  -- the first event
  | start {c : Conn} {m : Metrics} {key : SelectorKey} (enabled : Bool) :
      c.current = none → Move d ⟨.reading key, c, m⟩ ⟨.reading key, c.started enabled, m⟩
  -- PARSING_REQUEST_LINE
  | parseByte {c : Conn} {m : Metrics} {key : SelectorKey} {b : UInt8} {buffer : Buffer} :
      c.current = some .parsingRequestLine → bufferCanRead c.clientBuffer = true →
      bufferRead c.clientBuffer = .ok (b, buffer) →
      checkRequestLineError (c.parsed b buffer).requestParser.state = none →
      (c.parsed b buffer).requestParser.state ≠ .requestDone →
      Move d ⟨.reading key, c, m⟩ ⟨.reading key, c.parsed b buffer, m⟩
  | parseError {c : Conn} {m : Metrics} {key : SelectorKey} {b : UInt8} {buffer : Buffer}
      {e : Errors} :
      c.current = some .parsingRequestLine → bufferCanRead c.clientBuffer = true →
      bufferRead c.clientBuffer = .ok (b, buffer) →
      checkRequestLineError (c.parsed b buffer).requestParser.state = some e →
      Move d ⟨.reading key, c, m⟩ ⟨.goto .error, (c.parsed b buffer).failed e, m⟩
  | parseDone {c c' : Conn} {m : Metrics} {key : SelectorKey} {b : UInt8}
      {buffer : Buffer} {next : ConnState} :
      c.current = some .parsingRequestLine → bufferCanRead c.clientBuffer = true →
      bufferRead c.clientBuffer = .ok (b, buffer) →
      (c.parsed b buffer).requestParser.state = .requestDone →
      Attempt ((c.parsed b buffer).firstPeer d).1 ((c.parsed b buffer).firstPeer d).2
        (c.parsed b buffer) next c' →
      Move d ⟨.reading key, c, m⟩
        ⟨.goto next, if next ≠ .error then finishRequest key c' else c', m⟩
  | parseIdle {c : Conn} {m : Metrics} {key : SelectorKey} :
      c.current = some .parsingRequestLine → bufferCanRead c.clientBuffer = false →
      Move d ⟨.reading key, c, m⟩ ⟨.goto .parsingRequestLine, c, m⟩
  -- TRY_CONNECTION_IP
  | tryQuery {c : Conn} {m : Metrics} :
      c.current = some .tryConnectionIp → c.awaitsQuery = true →
      Move d ⟨.writing, c, m⟩ ⟨.goto .sendDohRequest, c, m⟩
  | tryConnect {c : Conn} {m : Metrics} {buffer : Buffer} :
      c.current = some .tryConnectionIp → c.awaitsQuery = false →
      c.connectionRequest.connect = true →
      bufferPrint (bufferReset c.originBuffer) connectReply = .ok buffer →
      Move d ⟨.writing, c, m⟩
        ⟨.goto .connected, (c.log .registered).accepted buffer, registerNewConnection m⟩
  | tryRequest {c : Conn} {m : Metrics} :
      c.current = some .tryConnectionIp → c.awaitsQuery = false →
      c.connectionRequest.connect = false →
      Move d ⟨.writing, c, m⟩
        ⟨.goto .sendRequestLine, c.log .registered, registerNewConnection m⟩
  | tryFail {c : Conn} {m : Metrics} :
      c.current = some .tryConnectionIp →
      ¬ (c.connectionRequest.hostType = .domain ∧ c.dohConnection.isSome) →
      Move d ⟨.writing, c, m⟩
        ⟨.goto .error, c.failed .internalServerError, increaseFailedConnections m⟩
  | tryNext {c : Conn} {m : Metrics} {doh : DohConnection} :
      c.current = some .tryConnectionIp → c.connectionRequest.hostType = .domain →
      c.dohConnection = some doh →
      Move d ⟨.writing, c, m⟩
        ⟨(c.nextDns doh).1, (c.nextDns doh).2, increaseFailedConnections m⟩
  -- the answers, and the query for the other type
  | walkSkip {c : Conn} {m : Metrics} {doh : DohConnection} {a : Answer} :
      c.dohConnection = some doh →
      doh.currentTry.toNat < doh.dohParser.response.header.ancount.toNat →
      readAnswer doh.dohParser.response doh.currentTry = .ok a →
      a.aType ≠ doh.currentType.recordType →
      Move d ⟨.walking, c, m⟩ ⟨.walking, c.examine doh a, m⟩
  | walkRefused {c : Conn} {m : Metrics} {doh : DohConnection} {a : Answer} :
      c.dohConnection = some doh →
      doh.currentTry.toNat < doh.dohParser.response.header.ancount.toNat →
      readAnswer doh.dohParser.response doh.currentTry = .ok a →
      a.aType = doh.currentType.recordType →
      Move d ⟨.walking, c, m⟩
        ⟨.walking, (c.examine doh a).unopened (.answer doh.currentTry.toNat)
          (doh.currentType.sockaddr c.requestParser.request.requestTarget.port a), m⟩
  | walkOpen {c c' : Conn} {m : Metrics} {doh : DohConnection} {a : Answer}
      {next : ConnState} :
      c.dohConnection = some doh →
      doh.currentTry.toNat < doh.dohParser.response.header.ancount.toNat →
      readAnswer doh.dohParser.response doh.currentTry = .ok a →
      a.aType = doh.currentType.recordType →
      Registration (.answer doh.currentTry.toNat)
        (doh.currentType.sockaddr c.requestParser.request.requestTarget.port a)
        (c.examine doh a) next c' →
      Move d ⟨.walking, c, m⟩ ⟨.goto next, c', m⟩
  | walkEnd {c : Conn} {m : Metrics} {doh : DohConnection} :
      c.dohConnection = some doh →
      ¬ doh.currentTry.toNat < doh.dohParser.response.header.ancount.toNat →
      Move d ⟨.walking, c, m⟩ ⟨(c.exhausted doh).1, (c.exhausted doh).2, m⟩
  | ask {c c' : Conn} {m : Metrics} {next : ConnState} :
      Attempt .doh d.sockaddr c next c' → Move d ⟨.asking, c, m⟩ ⟨.goto next, c', m⟩
  -- SEND_DOH_REQUEST, SEND_REQUEST_LINE and ERROR: a buffer to drain
  | drained {c : Conn} {m : Metrics} {s : ConnState} :
      c.current = some s → s = .sendDohRequest ∨ s = .sendRequestLine ∨ s = .error →
      bufferCanRead c.originBuffer = false →
      Move d ⟨.writing, c, m⟩ ⟨.goto c.afterDrain, c, m⟩
  | draining {c : Conn} {m : Metrics} {s : ConnState} :
      c.current = some s → s = .sendDohRequest ∨ s = .sendRequestLine ∨ s = .error →
      bufferCanRead c.originBuffer = true →
      Move d ⟨.writing, c, m⟩ ⟨.goto s, c, m⟩
  -- AWAIT_DOH_RESPONSE
  | awaitFailed {c : Conn} {m : Metrics} {key : SelectorKey} :
      c.current = some .awaitDohResponse → c.error = some .internalServerError →
      Move d ⟨.reading key, c, m⟩ ⟨.goto .error, c, m⟩
  | awaitByte {c : Conn} {m : Metrics} {key : SelectorKey} {doh : DohConnection}
      {b : UInt8} {buffer : Buffer} (alloc : Bool) :
      c.current = some .awaitDohResponse → c.error ≠ some .internalServerError →
      c.dohConnection = some doh → doh.finished = false →
      bufferCanRead c.originBuffer = true →
      bufferRead c.originBuffer = .ok (b, buffer) →
      Move d ⟨.reading key, c, m⟩
        ⟨((c.fed (doh.feed alloc b).1 buffer).judged key
            (doh.feed alloc b).1 (doh.feed alloc b).2).1,
          ((c.fed (doh.feed alloc b).1 buffer).judged key
            (doh.feed alloc b).1 (doh.feed alloc b).2).2, m⟩
  | awaitIdle {c : Conn} {m : Metrics} {key : SelectorKey} :
      c.current = some .awaitDohResponse → c.error ≠ some .internalServerError →
      bufferCanRead c.originBuffer = false → c.originStatus ≠ .closingStatus →
      Move d ⟨.reading key, c, m⟩ ⟨.goto .awaitDohResponse, c, m⟩
  | awaitEnd {c : Conn} {m : Metrics} {key : SelectorKey} {doh : DohConnection} :
      c.current = some .awaitDohResponse → c.error ≠ some .internalServerError →
      bufferCanRead c.originBuffer = false → c.originStatus = .closingStatus →
      c.dohConnection = some doh →
      Move d ⟨.reading key, c, m⟩
        ⟨((c.log (.shutdown .origin)).nextDns doh).1,
          ((c.log (.shutdown .origin)).nextDns doh).2, m⟩
  -- CONNECTED, CLOSING and EMPTY_BUFFERS
  | relayRead {c : Conn} {m : Metrics} {key : SelectorKey} :
      c.current = some .connected →
      c.clientStatus ≠ .closingStatus → c.originStatus ≠ .closingStatus →
      Move d ⟨.reading key, c, m⟩ ⟨.goto .connected, analyzeRead key c, m⟩
  | relayEnd {c : Conn} {m : Metrics} {key : SelectorKey} :
      c.current = some .connected →
      c.clientStatus = .closingStatus ∨ c.originStatus = .closingStatus →
      Move d ⟨.reading key, c, m⟩ ⟨.goto .closing, analyzeRead key c, m⟩
  | relayWrite {c : Conn} {m : Metrics} :
      c.current = some .connected → Move d ⟨.writing, c, m⟩ ⟨.goto .connected, c, m⟩
  | closingRead {c : Conn} {m : Metrics} {key : SelectorKey} :
      c.current = some .closing →
      (if key.fd = c.clientFd then c.clientStatus else c.originStatus) ≠ .closingStatus →
      Move d ⟨.reading key, c, m⟩ ⟨.goto .closing, c.closeOrigin.closeClient, m⟩
  | closingDone {c : Conn} {m : Metrics} {key : SelectorKey} :
      c.current = some .closing →
      (if key.fd = c.clientFd then c.clientStatus else c.originStatus) = .closingStatus →
      bufferCanRead c.clientBuffer = false → bufferCanRead c.originBuffer = false →
      Move d ⟨.reading key, c, m⟩
        ⟨.goto .done, c.log (.shutdown (if key.fd = c.clientFd then .origin else .client)),
          unregisterConnection m⟩
  | closingEmpty {c : Conn} {m : Metrics} {key : SelectorKey} :
      c.current = some .closing →
      (if key.fd = c.clientFd then c.clientStatus else c.originStatus) = .closingStatus →
      bufferCanRead c.clientBuffer = true ∨ bufferCanRead c.originBuffer = true →
      Move d ⟨.reading key, c, m⟩ ⟨.goto .emptyBuffers, c, m⟩
  | closingWrite {c : Conn} {m : Metrics} :
      c.current = some .closing →
      Move d ⟨.writing, c, m⟩ ⟨.goto .closing, c.closeOrigin.closeClient, m⟩
  | emptyDone {c : Conn} {m : Metrics} :
      c.current = some .emptyBuffers →
      c.closeClient.closeOrigin.clientStatus = .closedStatus →
      c.closeClient.closeOrigin.originStatus = .closedStatus →
      Move d ⟨.writing, c, m⟩
        ⟨.goto .done, c.closeClient.closeOrigin, unregisterConnection m⟩
  | emptyWrite {c : Conn} {m : Metrics} :
      c.current = some .emptyBuffers →
      ¬ (c.closeClient.closeOrigin.clientStatus = .closedStatus ∧
        c.closeClient.closeOrigin.originStatus = .closedStatus) →
      Move d ⟨.writing, c, m⟩ ⟨.goto .emptyBuffers, c.closeClient.closeOrigin, m⟩
  -- `jump`
  | stay {c : Conn} {m : Metrics} {s : ConnState} :
      c.current = some s → Move d ⟨.goto s, c, m⟩ ⟨.rest, c, m⟩
  | arrive {c c' : Conn} {m : Metrics} {s : ConnState} (env : Env) :
      c.current ≠ some s → s ≠ .done →
      (c.entered s).arrival d env s = .ok c' →
      Move d ⟨.goto s, c, m⟩ ⟨.rest, c', m⟩
  | free {c : Conn} {m : Metrics} :
      c.current ≠ some .done → Move d ⟨.goto .done, c, m⟩ ⟨.gone, c.entered .done, m⟩

/-- The phases and records a connection to the DoH configuration `d` can reach
from `accept` on. -/
inductive Life (d : DohUtils) : Phase → Conn → Prop where
  | accepted (fd : Int) (size : UInt64) (now : Nat) (mem : Nat → UInt8) :
      Life d .rest (createNewConnection fd size now mem)
  | move {ph ph' : Phase} {c c' : Conn} {m m' : Metrics} :
      Life d ph c → Move d ⟨ph, c, m⟩ ⟨ph', c', m'⟩ → Life d ph' c'

/-- The invariant rule for a connection's life. What is already known of every
life may be used of the state before a move. -/
theorem Life.invariant {d : DohUtils} {I : Phase → Conn → Prop}
    (hnew : ∀ fd size now mem, I .rest (createNewConnection fd size now mem))
    (hmove : ∀ ph c m ph' c' m', Life d ph c → I ph c →
      Move d ⟨ph, c, m⟩ ⟨ph', c', m'⟩ → I ph' c')
    {ph : Phase} {c : Conn} (h : Life d ph c) : I ph c := by
  induction h with
  | accepted fd size now mem => exact hnew fd size now mem
  | move hl hm ih => exact hmove _ _ _ _ _ _ hl ih hm

end HttpdProxy
