import HttpdProxy.Utils.Bytes

/-!
# `percy_response_parser.c`: the reply to a management request

Eleven bytes: version, status, reserved, and a big-endian value of eight. This
is the side of the client.
-/

namespace HttpdProxy

/-- `VALUE_LEN` of the reply. -/
def responseValueLen : Nat := 8

structure PercyResponse where
  ver : UInt8
  status : UInt8
  resv : UInt8
  value : UInt64
  deriving DecidableEq, Repr

inductive PercyResponseState where
  | percyResponseVer
  | percyResponseStatus
  | percyResponseResv
  | percyResponseValue
  | percyResponseDone
  | percyResponseError
  deriving DecidableEq, Repr

structure PercyResponseParser where
  response : PercyResponse
  state : PercyResponseState
  i : Nat
  n : Nat
  deriving DecidableEq, Repr

/-- `percy_response_parser_init`; `i` and `n` are set when the value begins. -/
def percyResponseParserInit : PercyResponseParser where
  response := { ver := 0, status := 0, resv := 0, value := 0 }
  state := .percyResponseVer
  i := 0
  n := 0

/-- `p_response_ver`. -/
def pResponseVer (p : PercyResponseParser) (c : UInt8) : PercyResponseParser :=
  { p with response := { p.response with ver := c }, state := .percyResponseStatus }

/-- `p_response_status`. -/
def pResponseStatus (p : PercyResponseParser) (c : UInt8) : PercyResponseParser :=
  { p with response := { p.response with status := c }, state := .percyResponseResv }

/-- `p_response_resv`. -/
def pResponseResv (p : PercyResponseParser) (c : UInt8) : PercyResponseParser :=
  { p with
    response := { p.response with resv := c }
    i := 0
    n := responseValueLen
    state := .percyResponseValue }

/-- What one byte of the value makes of the bytes before it. -/
def addValueByte (i : Nat) (value : UInt64) (c : UInt8) : UInt64 :=
  match i with
  | 0 => c.toUInt64 <<< 56
  | 1 => value + c.toUInt64 <<< 48
  | 2 => value + c.toUInt64 <<< 40
  | 3 => value + c.toUInt64 <<< 32
  | 4 => value + c.toUInt64 <<< 24
  | 5 => value + c.toUInt64 <<< 16
  | 6 => value + c.toUInt64 <<< 8
  | 7 => value + c.toUInt64
  | _ => value

/-- `p_response_value`: the end is looked for before the byte is taken. -/
def pResponseValue (p : PercyResponseParser) (c : UInt8) : PercyResponseParser :=
  if p.i = p.n then { p with state := .percyResponseDone }
  else
    { p with
      response := { p.response with value := addValueByte p.i p.response.value c }
      i := p.i + 1
      state := .percyResponseValue }

/-- `percy_response_parser_feed`. -/
def percyResponseParserFeed (p : PercyResponseParser) (c : UInt8) : PercyResponseParser :=
  match p.state with
  | .percyResponseVer => pResponseVer p c
  | .percyResponseStatus => pResponseStatus p c
  | .percyResponseResv => pResponseResv p c
  | .percyResponseValue => pResponseValue p c
  | .percyResponseDone | .percyResponseError => p

end HttpdProxy
