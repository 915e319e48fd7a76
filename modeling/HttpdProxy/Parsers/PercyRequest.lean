import HttpdProxy.Utils.Bytes

/-!
# `percy_request_parser.c`: a management request

Twelve bytes: version, six of passphrase, type, method, reserved, and a
big-endian value of two.
-/

namespace HttpdProxy

def passPhraseLen : Nat := 6
def valueLen : Nat := 2
def percyRequestSize : Nat := 12

structure RequestPercy where
  ver : UInt8
  type : UInt8
  passphrase : Bytes
  method : UInt8
  resv : UInt8
  value : UInt16
  deriving DecidableEq, Repr

inductive PercyRequestState where
  | percyRequestVer
  | percyRequestType
  | percyRequestPassphrase
  | percyRequestMethod
  | percyRequestResv
  | percyRequestValue
  | percyRequestDone
  | percyRequestError
  deriving DecidableEq, Repr

structure PercyRequestParser where
  request : RequestPercy
  state : PercyRequestState
  i : Nat
  n : Nat
  deriving DecidableEq, Repr

/-- `percy_request_parser_init`; `n` is set when a field needs it. -/
def percyRequestParserInit : PercyRequestParser where
  request :=
    { ver := 0
      type := 0
      passphrase := List.replicate passPhraseLen 0
      method := 0
      resv := 0
      value := 0 }
  state := .percyRequestVer
  i := 0
  n := 0

namespace PercyRequestParser

def fail (p : PercyRequestParser) : PercyRequestParser :=
  { p with state := .percyRequestError }

end PercyRequestParser

def isPercyType (x : UInt8) : Bool := x == 0x00 || x == 0x01 || x == 0x02

def isPercyMethod (x : UInt8) : Bool :=
  x == 0x00 || x == 0x01 || x == 0x02 || x == 0x03 || x == 0x04 || x == 0x05 ||
  x == 0x06 || x == 0x07

/-- `p_request_ver`. -/
def pRequestVer (p : PercyRequestParser) (c : UInt8) : PercyRequestParser :=
  if c ≠ 0x01 then p.fail
  else
    { p with
      request := { p.request with ver := c }
      i := 0
      n := passPhraseLen
      state := .percyRequestPassphrase }

/-- `p_request_passphrase`. -/
def pRequestPassphrase (p : PercyRequestParser) (c : UInt8) : PercyRequestParser :=
  let p :=
    { p with
      request := { p.request with passphrase := p.request.passphrase.set p.i c }
      i := p.i + 1 }
  if p.i = p.n then { p with state := .percyRequestType }
  else { p with state := .percyRequestPassphrase }

/-- `p_request_type`. -/
def pRequestType (p : PercyRequestParser) (c : UInt8) : PercyRequestParser :=
  if !isPercyType c then p.fail
  else { p with request := { p.request with type := c }, state := .percyRequestMethod }

/-- `p_request_method`. -/
def pRequestMethod (p : PercyRequestParser) (c : UInt8) : PercyRequestParser :=
  if !isPercyMethod c then p.fail
  else { p with request := { p.request with method := c }, state := .percyRequestResv }

/-- `p_request_resv`. -/
def pRequestResv (p : PercyRequestParser) (c : UInt8) : PercyRequestParser :=
  { p with
    request := { p.request with resv := c }
    i := 0
    n := valueLen
    state := .percyRequestValue }

/-- `p_request_value`. -/
def pRequestValue (p : PercyRequestParser) (c : UInt8) : PercyRequestParser :=
  match p.i with
  | 0 =>
      { p with
        request := { p.request with value := c.toUInt16 <<< 8 }
        i := 1
        state := .percyRequestValue }
  | 1 =>
      { p with
        request := { p.request with value := p.request.value + c.toUInt16 }
        state := .percyRequestDone }
  | _ => p.fail

/-- `percy_request_parser_feed`. -/
def percyRequestParserFeed (p : PercyRequestParser) (c : UInt8) : PercyRequestParser :=
  match p.state with
  | .percyRequestVer => pRequestVer p c
  | .percyRequestType => pRequestType p c
  | .percyRequestPassphrase => pRequestPassphrase p c
  | .percyRequestMethod => pRequestMethod p c
  | .percyRequestResv => pRequestResv p c
  | .percyRequestValue => pRequestValue p c
  | .percyRequestDone | .percyRequestError => p

end HttpdProxy
