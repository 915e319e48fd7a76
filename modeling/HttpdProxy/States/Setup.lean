import HttpdProxy.Daemon.DohUtils

/-!
# The states that set a connection up

`parsing_request_line.c`, `try_connection_ip.c`, `send_doh_request.c`,
`await_doh_response.c` and `send_request_line.c`. A handler returns the state
to go to; a loop that ends on `none` has fallen through to what follows it.
-/

namespace HttpdProxy

/-- The two `selector_set_interest` an interest function ends with. -/
def Ctx.setInterests (x : Ctx) (i : Interest × Interest) : Ctx :=
  (x.setInterest x.conn.clientFd i.1).setInterest x.conn.originFd i.2

/-- The loop of `sniff_data`: the parser, whether it is done with, and what it
was fed. -/
def sniffDataGo (owner : DataOwner) (port : UInt16) :
    Bytes → SnifferParser → SnifferParser × Bool × Bytes
  | [], p => (p, false, [])
  | b :: bs, p =>
      let p := snifferParserFeed b p owner port
      if p.state = .sniffDone ∨ p.state = .sniffError then (p, true, [b])
      else
        let (p, isDone, fed) := sniffDataGo owner port bs p
        (p, isDone, b :: fed)

/-- `sniff_data`. -/
def sniffData (key : SelectorKey) (c : Conn) : Conn :=
  let (owner, buffer) :=
    if key.fd = c.clientFd then (DataOwner.clientOwned, c.clientBuffer)
    else (.originOwned, c.originBuffer)
  let data := buffer.unread.take c.bytesToAnalize.toNat
  let (p, isDone, fed) :=
    sniffDataGo owner c.connectionRequest.port data c.sniffer.snifferParser
  { c.log (.fedSniffer owner fed) with
    sniffer :=
      { c.sniffer with snifferParser := p, isDone := isDone || c.sniffer.isDone }
    bytesToAnalize := 0 }

/-! ## `parsing_request_line.c` -/

/-- `parsing_host_on_arrival`. -/
def parsingHostOnArrival (x : Ctx) : Ctx :=
  x.setConn
    { x.conn with
      requestParser := requestParserInit
      sniffer :=
        { snifferParser := snifferParserInit
          sniffEnabled := x.world.settings.disectorsEnabled
          isDone := false } }

/-- `check_request_line_error`. -/
def checkRequestLineError : RequestState → Option Errors
  | .requestErrorUnsupportedMethod => some .notImplemented
  | .requestErrorUnsupportedVersion => some .httpVersionNotSupported
  | .requestError => some .badRequest
  | _ => none

/-- The socket address a literal host was parsed into. -/
def Host.sockaddr : Host → Sockaddr
  | .ipv4 sa => .in4 sa
  | .ipv6 sa => .in6 sa
  | .domain _ => .in4 ⟨0, List.replicate 4 0⟩

/-- The text of `origin_host`: `inet_ntop` is handed the whole socket
address. -/
def originHost : Host → Bytes
  | .ipv4 sa => inetNtop4 sa.memory
  | .ipv6 sa => inetNtop6 (sa.memory.take 16)
  | .domain text => cstr text

/-- `build_connection_request`. -/
def buildConnectionRequest (c : Conn) : ConnectionRequest :=
  let line := c.requestParser.request
  let method := cstr line.method
  let originForm := cstr line.requestTarget.originForm
  let star := method = ascii "OPTIONS" ∧ originForm = []
  let connect := !star && method == ascii "CONNECT" || c.connectionRequest.connect
  let port := htons line.requestTarget.port
  { requestLine :=
      if star then method ++ ascii " * HTTP/1.0\r\n"
      else method ++ ascii " " ++ originForm ++ ascii " HTTP/1.0\r\n"
    method := method
    target :=
      (if line.requestTarget.type = .absoluteForm then ascii "http://" else []) ++
        originHost line.requestTarget.host ++ ascii ":" ++ decimal port.toNat ++
        (if connect then [] else originForm)
    statusCode := c.connectionRequest.statusCode
    connect := connect
    hostType := line.requestTarget.hostType
    host := line.requestTarget.host
    port := port }

/-- `handle_origin_ip_connection`. -/
def handleOriginIpConnection (env : Env) (x : Ctx) : ConnState × Ctx :=
  let x := openOrigin env .literal
    x.conn.requestParser.request.requestTarget.host.sockaddr x
  if x.conn.originFd = -1 then (.error, x.fail .internalServerError)
  else registerOrFail x

/-- The request is built, and what the read brought after it is dropped or
sniffed: the end of `parsing_host_on_read_ready`. -/
def finishRequest (key : SelectorKey) (c : Conn) : Conn :=
  let c := { c with connectionRequest := buildConnectionRequest c }
  if c.connectionRequest.connect then
    { c with clientBuffer := bufferReset c.clientBuffer }
  else
    let c :=
      { c with
        sniffer :=
          { c.sniffer with
            snifferParser :=
              modifySnifferState c.sniffer.snifferParser .sniffHttpAuthorization } }
    if c.sniffer.sniffEnabled && c.bytesToAnalize > 0 && !c.sniffer.isDone then
      sniffData key c
    else c

/-- What a completed request line sets off. -/
def requestDone (env : Env) (key : SelectorKey) (x : Ctx) : ConnState × Ctx :=
  let (next, x) :=
    if x.conn.requestParser.request.requestTarget.hostType = .domain then
      handleOriginDohConnection env x
    else handleOriginIpConnection env x
  if next ≠ .error then (next, x.setConn (finishRequest key x.conn))
  else (next, x)

/-- The connection once one more byte of its request line has been fed. -/
def Conn.parsed (c : Conn) (b : UInt8) (buffer : Buffer) : Conn :=
  { c with
    clientBuffer := buffer
    requestParser := requestParserFeed c.requestParser b
    bytesToAnalize := c.bytesToAnalize - 1 }

/-- One round of `parsing_host_on_read_ready`. -/
def parsingHostRound (env : Env) (key : SelectorKey) (x : Ctx) :
    Except Fault (Lib.Round Ctx (Option ConnState × Ctx)) :=
  if bufferCanRead x.conn.clientBuffer then do
    let (b, buffer) ← bufferRead x.conn.clientBuffer
    let x := x.setConn (x.conn.parsed b buffer)
    let state := x.conn.requestParser.state
    match checkRequestLineError state with
    | some e => .ok (.leave (some .error, x.fail e))
    | none =>
        if state = .requestDone then
          let (next, x) := requestDone env key x
          .ok (.leave (some next, x))
        else .ok (.again x)
  else .ok (.leave (none, x))

/-- `parsing_host_on_read_ready`. -/
def parsingHostOnReadReady (env : Env) (key : SelectorKey) (x : Ctx) :
    Except Fault (ConnState × Ctx) := do
  let (ret, x) ← Lib.loop .noReturn (parsingHostRound env key) env.fuel x
  .ok (ret.getD x.conn.stmState, x)

/-! ## `try_connection_ip.c` -/

/-- `try_connection_ip_on_arrival`. -/
def tryConnectionIpOnArrival (x : Ctx) : Ctx := x.setInterests (opNoop, opWrite)

/-- The socket of the connection is the DoH server's: no query was sent yet,
or the one for IPv6 is still to be sent. -/
def Conn.awaitsQuery (c : Conn) : Bool :=
  c.connectionRequest.hostType == .domain &&
    match c.dohConnection with
    | none => true
    | some doh => !doh.isActive

/-- The reply to a CONNECT. -/
def connectReply : Bytes := ascii "HTTP/1.0 200 OK\r\n\r\n"

/-- `try_connection_ip_on_write_ready`. -/
def tryConnectionIpOnWriteReady (env : Env) (x : Ctx) :
    Except Fault (ConnState × Ctx) :=
  if env.connected then
    if x.conn.awaitsQuery then .ok (.sendDohRequest, x)
    else
      let x := (x.setMetrics registerNewConnection).log .registered
      if x.conn.connectionRequest.connect then do
        let buffer ← bufferPrint (bufferReset x.conn.originBuffer) connectReply
        .ok (.connected, x.setConn
          { x.conn with
            connectionRequest := { x.conn.connectionRequest with statusCode := 200 }
            originBuffer := buffer })
      else .ok (.sendRequestLine, x)
  else
    let x := x.setMetrics increaseFailedConnections
    if x.conn.connectionRequest.hostType = .domain ∧ x.conn.dohConnection.isSome then
      tryNextDnsConnection env x
    else .ok (.error, x.fail .internalServerError)

/-! ## `send_doh_request.c` -/

/-- The type `write_doh_request` asks for. -/
def queryType (c : Conn) : UInt8 :=
  match c.dohConnection with
  | none => 1
  | some doh => if doh.currentType = .ipv4Try then 1 else 28

/-- `send_doh_request_on_arrival`. -/
def sendDohRequestOnArrival (x : Ctx) : Except Fault Ctx := do
  let type := queryType x.conn
  let buffer ← bufferAppend x.conn.originBuffer
    (buildDohRequest x.world.dohUtils x.conn.connectionRequest.host.text type)
  let x := (x.setConn { x.conn with originBuffer := buffer }).log (.query type)
  .ok (x.setInterests (opNoop, opWrite))

/-- `send_doh_request_on_write_ready` and `send_request_line_on_write_ready`:
once the origin buffer is drained, `next`. -/
def onDrained (next : ConnState) (x : Ctx) : Except Fault (ConnState × Ctx) :=
  if !bufferCanRead x.conn.originBuffer then .ok (next, x)
  else .ok (x.conn.stmState, x)

/-- `send_doh_request_on_write_ready`. -/
def sendDohRequestOnWriteReady (x : Ctx) : Except Fault (ConnState × Ctx) :=
  onDrained .awaitDohResponse x

/-! ## `await_doh_response.c` -/

/-- `init_doh_state`, once there is a record to fill. -/
def dohConnectionInit (type : DohTry) : DohConnection where
  isActive := true
  currentTry := 0
  currentType := type
  statusLineParser := statusLineParserInit
  headersParser := headersParserInit
  dohParser := dohResponseParserInit

/-- `init_doh_state`. -/
def initDohState (env : Env) (c : Conn) : Conn :=
  match c.dohConnection with
  | some doh => { c with dohConnection := some (dohConnectionInit doh.currentType) }
  | none =>
      if env.callocDoh then { c with dohConnection := some (dohConnectionInit .ipv4Try) }
      else { c with error := some .internalServerError }

/-- `await_doh_response_on_arrival`. -/
def awaitDohResponseOnArrival (env : Env) (x : Ctx) : Ctx :=
  (x.setConn (initDohState env x.conn)).setInterests (opNoop, opRead)

/-- One round of `await_doh_response_on_read_ready`: the byte goes to the
first of the three parsers that is not done, and to none once all are. -/
def awaitDohResponseRound (env : Env) (x : Ctx) :
    Except Fault (Lib.Round Ctx (Option ConnState × Ctx)) :=
  if bufferCanRead x.conn.originBuffer then
    match x.conn.dohConnection with
    | none => .error .nullDeref
    | some doh =>
        if doh.statusLineParser.state ≠ .statusLineDone then do
          let (b, buffer) ← bufferRead x.conn.originBuffer
          let p := statusLineParserFeed doh.statusLineParser b
          let x := x.setConn
            { x.conn with
              originBuffer := buffer
              dohConnection := some { doh with statusLineParser := p } }
          if p.state = .statusLineError then .ok (.leave (some .error, x.fail .badGateway))
          else .ok (.again x)
        else if doh.headersParser.state ≠ .headersDone then do
          let (b, buffer) ← bufferRead x.conn.originBuffer
          let p := headersParserFeed doh.headersParser b
          let x := x.setConn
            { x.conn with
              originBuffer := buffer
              dohConnection := some { doh with headersParser := p } }
          if p.state = .headersError then .ok (.leave (some .error, x.fail .badGateway))
          else .ok (.again x)
        else if doh.dohParser.state ≠ .dohResponseDone then do
          let (b, buffer) ← bufferRead x.conn.originBuffer
          let p := dohResponseParserFeed env.callocAnswers doh.dohParser b
          let doh := { doh with dohParser := p }
          let x := x.setConn
            { x.conn with originBuffer := buffer, dohConnection := some doh }
          match p.state with
          | .dohResponseError => .ok (.leave (some .error, x.fail .badGateway))
          | .responseMemAllocError =>
              .ok (.leave (some .error, x.fail .internalServerError))
          | .dohNoAnswers =>
              match doh.currentType with
              | .ipv6Try => .ok (.leave (some .error, x.fail .internalServerError))
              | .ipv4Try => do
                  let x := x.setConn
                    { x.conn with originBuffer := bufferReset x.conn.originBuffer }
                  let (_, x) ← selectorUnregisterFd x x.conn.originFd
                  let _ ← x.deref
                  let (next, x) := queryIpv6 env doh x
                  .ok (.leave (some next, x))
          | .dohResponseDone =>
              .ok (.leave (none, x.setConn
                { x.conn with originBuffer := bufferReset x.conn.originBuffer }))
          | _ => .ok (.again x)
        else .ok (.again x)
  else .ok (.leave (none, x))

/-- `await_doh_response_on_read_ready`. -/
def awaitDohResponseOnReadReady (env : Env) (x : Ctx) :
    Except Fault (ConnState × Ctx) :=
  -- the allocation of `init_doh_state` failed
  if x.conn.error = some .internalServerError then .ok (.error, x)
  else do
    let (ret, x) ← Lib.loop .noReturn (awaitDohResponseRound env) env.fuel x
    match ret with
    | some next => .ok (next, x)
    | none =>
        if x.conn.originStatus = .closingStatus then
          tryNextDnsConnection env (x.log (.shutdown .origin))
        else .ok (x.conn.stmState, x)

/-! ## `send_request_line.c` -/

/-- `send_request_line_on_arrival`. -/
def sendRequestLineOnArrival (x : Ctx) : Except Fault Ctx := do
  let buffer ← bufferAppend x.conn.originBuffer x.conn.connectionRequest.requestLine
  .ok ((x.setConn { x.conn with originBuffer := buffer }).setInterests (opNoop, opWrite))

/-- `send_request_line_on_write_ready`. -/
def sendRequestLineOnWriteReady (x : Ctx) : Except Fault (ConnState × Ctx) :=
  onDrained .connected x

end HttpdProxy
