import HttpdProxy.States.Setup

/-!
# The states that relay and end a connection

`connected.c`, `closing.c`, `empty_buffers.c`, `done.c` and `error.c`.
-/

namespace HttpdProxy

/-! ## `connected.c` -/

/-- `set_connection_interests`. -/
def setConnectionInterests (x : Ctx) : Ctx := x.setInterests (connectionInterests x.conn)

/-- `init_http_response`. -/
def initHttpResponse (c : Conn) : Conn :=
  { c with responseLine := { statusLineParser := statusLineParserInit, done := false } }

/-- `connected_on_arrival`. -/
def connectedOnArrival (x : Ctx) : Ctx :=
  setConnectionInterests <|
    if !x.conn.connectionRequest.connect then x.setConn (initHttpResponse x.conn) else x

/-- The loop over the response's first bytes: the parser, whether it is done
with, and what it was fed. -/
def responseLineGo : Bytes → StatusLineParser → StatusLineParser × Bool × Bytes
  | [], p => (p, false, [])
  | b :: bs, p =>
      let p := statusLineParserFeed p b
      if p.state = .statusLineDone ∨ p.state = .statusLineError then (p, true, [b])
      else
        let (p, done, fed) := responseLineGo bs p
        (p, done, b :: fed)

/-- The part of `connected_on_read_ready` that parses the response. The loop
reads `bytes_to_analize` bytes from the read pointer on, whatever is there. -/
def parseResponse (c : Conn) : Conn :=
  let b := c.originBuffer
  let data := (List.range c.bytesToAnalize.toNat).map fun i => b.mem (b.read + i)
  let (p, done, fed) := responseLineGo data c.responseLine.statusLineParser
  { c.log (.fedStatusLine fed) with
    connectionRequest :=
      if done ∧ p.state = .statusLineDone then
        { c.connectionRequest with statusCode := p.statusLine.statusCode }
      else c.connectionRequest
    responseLine := { statusLineParser := p, done := done } }

/-- The two parsers of `connected_on_read_ready` on the bytes just read. -/
def analyzeRead (key : SelectorKey) (c : Conn) : Conn :=
  let c :=
    if !c.connectionRequest.connect && key.fd == c.originFd && !c.responseLine.done then
      parseResponse c
    else c
  if c.sniffer.sniffEnabled && !c.sniffer.isDone then sniffData key c else c

/-- What each of the two parsers leaves alone, the read leaves alone. -/
theorem analyzeRead_keeps {α : Type} (f : Conn → α) {key : SelectorKey} {c : Conn}
    (hparse : f (parseResponse c) = f c) (hsniff : ∀ c, f (sniffData key c) = f c) :
    f (analyzeRead key c) = f c := by
  unfold analyzeRead
  dsimp only
  split <;> split
  · exact (hsniff _).trans hparse
  · exact hparse
  · exact hsniff c
  · rfl

/-- `connected_on_read_ready`. -/
def connectedOnReadReady (key : SelectorKey) (x : Ctx) :
    Except Fault (ConnState × Ctx) :=
  let x := x.setConn (analyzeRead key x.conn)
  if x.conn.clientStatus = .closingStatus ∨ x.conn.originStatus = .closingStatus then
    .ok (.closing, x)
  else .ok (x.conn.stmState, setConnectionInterests x)

/-- `connected_on_write_ready`. -/
def connectedOnWriteReady (x : Ctx) : Except Fault (ConnState × Ctx) :=
  .ok (x.conn.stmState, setConnectionInterests x)

/-! ## `closing.c` -/

/-- `set_closing_connection_interests`. -/
def setClosingConnectionInterests (x : Ctx) : Ctx :=
  (x.setConn x.conn.closeOrigin.closeClient).setInterests (closingInterests x.conn)

/-- `closing_on_arrival`. -/
def closingOnArrival (x : Ctx) : Ctx := setClosingConnectionInterests x

/-- `closing_on_read_ready`. -/
def closingOnReadReady (key : SelectorKey) (x : Ctx) : Except Fault (ConnState × Ctx) :=
  let c := x.conn
  let (alreadyClosed, maybeClose) :=
    if key.fd = c.clientFd then (Side.origin, c.clientStatus)
    else (.client, c.originStatus)
  if maybeClose = .closingStatus then
    if !bufferCanRead c.clientBuffer && !bufferCanRead c.originBuffer then
      .ok (.done, (x.log (.shutdown alreadyClosed)).setMetrics unregisterConnection)
    else .ok (.emptyBuffers, x)
  else .ok (c.stmState, setClosingConnectionInterests x)

/-- `closing_on_write_ready`. -/
def closingOnWriteReady (x : Ctx) : Except Fault (ConnState × Ctx) :=
  .ok (x.conn.stmState, setClosingConnectionInterests x)

/-! ## `empty_buffers.c` -/

/-- `set_empty_buffers_interests`. -/
def setEmptyBuffersInterests (x : Ctx) : Ctx :=
  (x.setConn x.conn.closeClient.closeOrigin).setInterests (emptyBuffersInterests x.conn)

/-- `empty_buffers_on_arrival`. -/
def emptyBuffersOnArrival (x : Ctx) : Ctx := setEmptyBuffersInterests x

/-- `empty_buffers_on_write_ready`. -/
def emptyBuffersOnWriteReady (x : Ctx) : Except Fault (ConnState × Ctx) :=
  let x := setEmptyBuffersInterests x
  if x.conn.clientStatus = .closedStatus ∧ x.conn.originStatus = .closedStatus then
    .ok (.done, x.setMetrics unregisterConnection)
  else .ok (x.conn.stmState, x)

/-! ## `done.c` -/

/-- `done_on_arrival`. -/
def doneOnArrival (x : Ctx) : Except Fault Ctx := do
  let x ← unregisterOrigin x
  let c ← x.deref
  let (_, x) ← selectorUnregisterFd x c.clientFd
  .ok x

/-! ## `error.c` -/

/-- The reason phrases of `error_on_arrival`. -/
def reasonPhrase : Option Errors → String
  | some .badRequest => "BAD REQUEST"
  | some .unauthorized => "UNAUTHORIZED"
  | some .forbidden => "FORBIDDEN"
  | some .notFound => "NOT_FOUND"
  | some .methodNotAllowed => "METHOD_NOT_ALLOWED"
  | some .proxyAuthenticationRequired => "PROXY AUTHENTICATION REQUIRED"
  | some .uriTooLong => "URI TOO LONG"
  | some .internalServerError => "INTERNAL SERVER ERROR"
  | some .notImplemented => "NOT IMPLEMENTED"
  | some .httpVersionNotSupported => "HTTP VERSION NOT SUPPORTED"
  | some .badGateway => "BAD GATEWAY"
  | none => "INTERNAL SERVER ERROR"

/-- The text `write_error` prints. -/
def errorReply (e : Option Errors) : Bytes :=
  ascii "HTTP/1.0 " ++ decimal (e.elim 0 Errors.code) ++ ascii " " ++
    ascii (reasonPhrase e) ++ ascii "\r\n\r\n"

/-- `write_error`. -/
def writeError (c : Conn) : Except Fault Conn := do
  let buffer ← bufferPrint (bufferReset c.originBuffer) (errorReply c.error)
  .ok { c with originBuffer := buffer }

/-- `error_on_arrival`. -/
def errorOnArrival (x : Ctx) : Except Fault Ctx := do
  let c ← writeError x.conn
  let x := (x.setConn c).setInterest c.clientFd opWrite
  if c.originStatus ≠ .inactiveStatus then .ok (x.setInterest c.originFd opNoop)
  else .ok x

/-- `error_on_write_ready`. -/
def errorOnWriteReady (x : Ctx) : Except Fault (ConnState × Ctx) :=
  onDrained .done x

end HttpdProxy
