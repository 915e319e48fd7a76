import HttpdProxy.Daemon.Selector
import HttpdProxy.Parsers.Doh
import HttpdProxy.Parsers.Headers
import HttpdProxy.Parsers.RequestLine
import HttpdProxy.Parsers.Sniffer
import HttpdProxy.Parsers.StatusLine
import HttpdProxy.Utils.Buffer

/-!
# `connections_def.h`: a proxied connection

The record a connection lives in, as `calloc` leaves it and as the handlers
fill it. The union `connection_parsers` holds the request line parser up to
CONNECTED and the status line parser from there on, and no handler reads the
one after the other has been stored; the two are separate fields here.

`trace` is not in the C code. It is what the connection has done to the world
outside, newest first: every `read`, `send`, `shutdown` and socket, the
queries, the answers looked at, the states entered. The handlers only ever add
to it.
-/

namespace HttpdProxy

inductive ConnState where
  | parsingRequestLine
  | tryConnectionIp
  | sendDohRequest
  | awaitDohResponse
  | sendRequestLine
  | connected
  | closing
  | emptyBuffers
  | done
  | error
  deriving DecidableEq, Repr

/-- The numbers of `enum connection_state`, which the code compares. -/
def ConnState.num : ConnState → Nat
  | .parsingRequestLine => 0
  | .tryConnectionIp => 1
  | .sendDohRequest => 2
  | .awaitDohResponse => 3
  | .sendRequestLine => 4
  | .connected => 5
  | .closing => 6
  | .emptyBuffers => 7
  | .done => 8
  | .error => 9

inductive ConnStatus where
  | inactiveStatus
  | activeStatus
  | closingStatus
  | closedStatus
  deriving DecidableEq, Repr

/-- `errors_t`; the zero that `calloc` leaves is `none` of these. -/
inductive Errors where
  | badRequest
  | unauthorized
  | forbidden
  | notFound
  | methodNotAllowed
  | proxyAuthenticationRequired
  | uriTooLong
  | internalServerError
  | notImplemented
  | badGateway
  | httpVersionNotSupported
  deriving DecidableEq, Repr

def Errors.code : Errors → Nat
  | .badRequest => 400
  | .unauthorized => 401
  | .forbidden => 403
  | .notFound => 404
  | .methodNotAllowed => 405
  | .proxyAuthenticationRequired => 407
  | .uriTooLong => 414
  | .internalServerError => 500
  | .notImplemented => 501
  | .badGateway => 502
  | .httpVersionNotSupported => 505

inductive DohTry where
  | ipv4Try
  | ipv6Try
  deriving DecidableEq, Repr

structure DohConnection where
  isActive : Bool
  currentTry : UInt8
  currentType : DohTry
  statusLineParser : StatusLineParser
  headersParser : HeadersParser
  dohParser : DohResponseParser
  deriving DecidableEq, Repr

structure ConnectionRequest where
  requestLine : Bytes
  method : Bytes
  target : Bytes
  statusCode : UInt16
  connect : Bool
  hostType : HostType
  host : Host
  port : UInt16
  deriving DecidableEq, Repr

structure Sniffer where
  snifferParser : SnifferParser
  sniffEnabled : Bool
  isDone : Bool
  deriving DecidableEq, Repr

/-- The `struct status_line_t` of `connection_parsers`. -/
structure ResponseLine where
  statusLineParser : StatusLineParser
  done : Bool
  deriving DecidableEq, Repr

inductive Side where
  | client
  | origin
  deriving DecidableEq, Repr

/-- Whom a socket was connected towards: the configured DoH server, the
literal address of the request, an answer of the current response. -/
inductive Peer where
  | doh
  | literal
  | answer (k : Nat)
  deriving DecidableEq, Repr

inductive Sockaddr where
  | in4 (sa : SockaddrIn)
  | in6 (sa : SockaddrIn6)
  deriving DecidableEq, Repr

/-- What a connection does to the world outside. -/
inductive Act where
  | received (side : Side) (bs : Bytes)
  | eof (side : Side)
  | sent (side : Side) (bs : Bytes)
  | shutdown (side : Side)
  | opened (fd : Int) (peer : Peer) (addr : Sockaddr)
  | unopened (peer : Peer) (addr : Sockaddr)
  | query (type : UInt8)
  /-- answer `k` was looked at, of a response that announces `ancount` of them
  and of which `parsed` had been read to their end -/
  | examined (k ancount parsed : Nat) (a : Answer)
  | fedSniffer (owner : DataOwner) (bs : Bytes)
  | fedStatusLine (bs : Bytes)
  | registered
  | enter (s : ConnState)
  deriving DecidableEq, Repr

structure Conn where
  error : Option Errors
  lastActionTime : Nat
  clientFd : Int
  clientStatus : ConnStatus
  dohConnection : Option DohConnection
  originFd : Int
  originStatus : ConnStatus
  /-- `stm.current`, null before the first event -/
  current : Option ConnState
  bytesToAnalize : Int
  requestParser : RequestParser
  responseLine : ResponseLine
  sniffer : Sniffer
  connectionRequest : ConnectionRequest
  originBuffer : Buffer
  clientBuffer : Buffer
  trace : List Act

/-- `stm_state`. -/
def Conn.stmState (c : Conn) : ConnState := c.current.getD .parsingRequestLine

/-- `BUFFER_SIZE`. -/
def bufferSize : Nat := 1024 * 8

/-- `create_new_connection`, where the three allocations succeeded: `mem` is
what they found in memory. -/
def createNewConnection (clientFd : Int) (buffersSize : UInt64) (now : Nat)
    (mem : Nat → UInt8) : Conn where
  error := none
  lastActionTime := now
  clientFd := clientFd
  clientStatus := .activeStatus
  dohConnection := none
  originFd := 0
  originStatus := .inactiveStatus
  current := none
  bytesToAnalize := 0
  requestParser := { request := .zero, state := .requestMethod, i := 0, n := 0 }
  responseLine :=
    { statusLineParser := { statusLineParserInit with n := 0 }
      done := false }
  sniffer :=
    { snifferParser := snifferParserInit
      sniffEnabled := false
      isDone := false }
  connectionRequest :=
    { requestLine := []
      method := []
      target := []
      statusCode := 0
      connect := false
      hostType := .domain
      host := .domain (List.replicate (maxFqdnLength + 1) 0)
      port := 0 }
  originBuffer := bufferInit bufferSize buffersSize.toNat mem
  clientBuffer := bufferInit bufferSize buffersSize.toNat mem
  trace := []

/-! ## Interests

What each state waits for on the two sockets, as its interest function works
it out from the buffers and the statuses. -/

/-- The interests `set_connection_interests` asks for: client, origin. -/
def connectionInterests (c : Conn) : Interest × Interest :=
  (⟨bufferCanWrite c.clientBuffer, bufferCanRead c.originBuffer⟩,
    ⟨bufferCanWrite c.originBuffer, bufferCanRead c.clientBuffer⟩)

/-- `CLOSING_STATUS` or `CLOSED_STATUS`. -/
def ConnStatus.ending (s : ConnStatus) : Bool := s == .closingStatus || s == .closedStatus

/-- The interests `set_closing_connection_interests` asks for. -/
def closingInterests (c : Conn) : Interest × Interest :=
  (⟨c.originStatus.ending && bufferCanWrite c.clientBuffer,
      (c.originStatus.ending || c.clientStatus.ending) && bufferCanRead c.originBuffer⟩,
    ⟨c.clientStatus.ending && bufferCanWrite c.originBuffer,
      (c.originStatus.ending || c.clientStatus.ending) && bufferCanRead c.clientBuffer⟩)

/-- The interests `set_empty_buffers_interests` asks for. -/
def emptyBuffersInterests (c : Conn) : Interest × Interest :=
  (⟨false, bufferCanRead c.originBuffer⟩, ⟨false, bufferCanRead c.clientBuffer⟩)

namespace Conn

def log (a : Act) (c : Conn) : Conn := { c with trace := a :: c.trace }

/-- The half of an interest function that ends the origin's direction: a
drained buffer of a closing origin is closed, and the client told. -/
def closeOrigin (c : Conn) : Conn :=
  if !bufferCanRead c.originBuffer && c.originStatus == .closingStatus then
    { c.log (.shutdown .client) with originStatus := .closedStatus }
  else c

/-- The same for a closing client. -/
def closeClient (c : Conn) : Conn :=
  if !bufferCanRead c.clientBuffer && c.clientStatus == .closingStatus then
    { c.log (.shutdown .origin) with clientStatus := .closedStatus }
  else c

section

variable (c : Conn)

@[simp] theorem closeOrigin_current : c.closeOrigin.current = c.current := by
  unfold closeOrigin
  split <;> rfl

@[simp] theorem closeOrigin_clientFd : c.closeOrigin.clientFd = c.clientFd := by
  unfold closeOrigin
  split <;> rfl

@[simp] theorem closeOrigin_originFd : c.closeOrigin.originFd = c.originFd := by
  unfold closeOrigin
  split <;> rfl

@[simp] theorem closeOrigin_clientStatus :
    c.closeOrigin.clientStatus = c.clientStatus := by
  unfold closeOrigin
  split <;> rfl

@[simp] theorem closeOrigin_clientBuffer :
    c.closeOrigin.clientBuffer = c.clientBuffer := by
  unfold closeOrigin
  split <;> rfl

@[simp] theorem closeOrigin_originBuffer :
    c.closeOrigin.originBuffer = c.originBuffer := by
  unfold closeOrigin
  split <;> rfl

@[simp] theorem closeOrigin_ending :
    c.closeOrigin.originStatus.ending = c.originStatus.ending := by
  unfold closeOrigin
  split
  · next h =>
      simp only [Bool.and_eq_true, beq_iff_eq] at h
      rw [h.2]
      rfl
  · rfl

@[simp] theorem closeOrigin_inactive :
    c.closeOrigin.originStatus = .inactiveStatus ↔ c.originStatus = .inactiveStatus := by
  unfold closeOrigin
  split
  · next h =>
      simp only [Bool.and_eq_true, beq_iff_eq] at h
      rw [h.2]
      simp
  · exact Iff.rfl

@[simp] theorem closeClient_current : c.closeClient.current = c.current := by
  unfold closeClient
  split <;> rfl

@[simp] theorem closeClient_clientFd : c.closeClient.clientFd = c.clientFd := by
  unfold closeClient
  split <;> rfl

@[simp] theorem closeClient_originFd : c.closeClient.originFd = c.originFd := by
  unfold closeClient
  split <;> rfl

@[simp] theorem closeClient_originStatus :
    c.closeClient.originStatus = c.originStatus := by
  unfold closeClient
  split <;> rfl

@[simp] theorem closeClient_clientBuffer :
    c.closeClient.clientBuffer = c.clientBuffer := by
  unfold closeClient
  split <;> rfl

@[simp] theorem closeClient_originBuffer :
    c.closeClient.originBuffer = c.originBuffer := by
  unfold closeClient
  split <;> rfl

@[simp] theorem closeClient_ending :
    c.closeClient.clientStatus.ending = c.clientStatus.ending := by
  unfold closeClient
  split
  · next h =>
      simp only [Bool.and_eq_true, beq_iff_eq] at h
      rw [h.2]
      rfl
  · rfl

/-- Closing a drained side does not change what CLOSING waits for. -/
theorem closingInterests_closed : closingInterests c.closeOrigin.closeClient
    = closingInterests c := by
  simp [closingInterests]

end

end Conn

end HttpdProxy
