import HttpdProxy.Daemon.Metrics
import HttpdProxy.Parsers.PercyRequest

/-!
# `management.c`: the PERCY server

One static buffer receives every datagram, and twelve bytes of it are parsed
whatever the length received. The replies of a request are the list of what
was handed to `sendto`, in order; a failed `sendto` is only logged.
-/

namespace HttpdProxy

def maxMsgLen : Nat := 128
def successStatus : UInt8 := 0x00
def unauthStatus : UInt8 := 0x01
def unsuccesfulStatus : UInt8 := 0x02
def percyVersion : UInt8 := 0x01
def percyResv : UInt8 := 0x00

structure Management where
  requestParser : PercyRequestParser
  buffer : Bytes
  passphrase : Bytes
  deriving DecidableEq, Repr

/-- The static `management` once `init_management` has returned. -/
def initManagement : Management where
  requestParser := percyRequestParserInit
  buffer := List.replicate maxMsgLen 0
  passphrase := ascii "123456"

structure Reply where
  ver : UInt8
  status : UInt8
  resv : UInt8
  value : UInt64
  deriving DecidableEq, Repr

/-- `serialize`: big endian. -/
def serialize (value : UInt64) : Bytes :=
  [(value >>> 56).toUInt8, (value >>> 48).toUInt8, (value >>> 40).toUInt8,
    (value >>> 32).toUInt8, (value >>> 24).toUInt8, (value >>> 16).toUInt8,
    (value >>> 8).toUInt8, value.toUInt8]

/-- `build_reply`: the eleven bytes on the wire. -/
def buildReply (r : Reply) : Bytes := [r.ver, r.status, r.resv] ++ serialize r.value

/-- `retrieval_methods`, as `init_management_functions` fills it. -/
def retrievalMethods (m : Metrics) (s : Settings) : List UInt64 :=
  [m.historicalConnections, m.concurrentConnections, m.bytesSent, m.bytesReceived,
    totalBytesTransferred m, s.buffersSize, s.selectorTimeout, m.failedConnections]

structure ModificationMethod where
  min : UInt16
  max : UInt16
  modificationMethod : UInt16 → Settings → Settings

/-- `modification_methods`. -/
def modificationMethods : List ModificationMethod :=
  [ { min := 0, max := 1, modificationMethod := setDisectorValue },
    { min := 1024, max := 8192, modificationMethod := setBufferSize },
    { min := 4, max := 12, modificationMethod := setSelectorTimeout } ]

/-- `validate_input_value`. -/
def validateInputValue (m : ModificationMethod) (value : UInt16) : Bool :=
  value ≤ m.max && value ≥ m.min

/-- `recvfrom` into the buffer: a failure leaves it as it was, and a datagram
overwrites as many bytes as it has, up to the size of the buffer. -/
def recvfrom (buffer : Bytes) : Option Bytes → Bytes
  | none => buffer
  | some d => d.take maxMsgLen ++ buffer.drop d.length

/-- The loop of `parse_request`: feed until the parser is done or in error. -/
def parseRequestGo : Bytes → PercyRequestParser → Bool × PercyRequestParser
  | [], p => (false, p)
  | c :: cs, p =>
      let p := percyRequestParserFeed p c
      match p.state with
      | .percyRequestError => (false, p)
      | .percyRequestDone => (true, p)
      | _ => parseRequestGo cs p

/-- `parse_request`. -/
def parseRequest (buffer : Bytes) : Bool × PercyRequestParser :=
  parseRequestGo (buffer.take percyRequestSize) percyRequestParserInit

/-- `validate_passphrase`. -/
def validatePassphrase (m : Management) : Bool :=
  m.passphrase.take passPhraseLen == m.requestParser.request.passphrase

def reply (status : UInt8) (value : UInt64) : Reply where
  ver := percyVersion
  status := status
  resv := percyResv
  value := value

/-- The authorised part of `management_read`, or `none` where the `switch`
leaves without having replied. -/
def runMethod (req : RequestPercy) (mt : Metrics) (s : Settings) :
    Option (Reply × Settings) :=
  if req.type = 0 then
    (retrievalMethods mt s)[req.method.toNat]?.map fun v => (reply successStatus v, s)
  else if req.type = 1 then
    modificationMethods[req.method.toNat]?.map fun m =>
      if validateInputValue m req.value then
        (reply successStatus 0, m.modificationMethod req.value s)
      else (reply unsuccesfulStatus 0, s)
  else none

/-- `management_read`. A request that fails the passphrase is answered twice:
the refusal does not return. -/
def managementRead (received : Option Bytes) (mt : Metrics) (m : Management)
    (s : Settings) : List Reply × Management × Settings :=
  let m := { m with buffer := recvfrom m.buffer received }
  let (parsed, p) := parseRequest m.buffer
  let m := { m with requestParser := p }
  if parsed then
    if !validatePassphrase m then
      ([reply unauthStatus 0, reply unsuccesfulStatus 0], m, s)
    else
      match runMethod p.request mt s with
      | some (r, s') => ([r], m, s')
      | none => ([reply unsuccesfulStatus 0], m, s)
  else ([reply unsuccesfulStatus 0], m, s)

end HttpdProxy
