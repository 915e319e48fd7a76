import HttpdProxy.Utils.Bytes

/-!
# `headers_parser.c`: the header section of the DoH server's reply

The header lines are checked and counted, not kept. The counter `i` is
compared with the limits of the name and of the value but never moves.
-/

namespace HttpdProxy

def maxHeaderFieldNameLength : Nat := 128
def maxHeaderFieldValueLength : Nat := 1024

inductive HeadersState where
  | headersFieldName
  | headersFieldValue
  | headersFieldValueEnd
  | headersMayBeEnd
  | headersEnd
  | headersDone
  | headersError
  deriving DecidableEq, Repr

structure HeadersParser where
  state : HeadersState
  headersCount : UInt32
  i : Nat
  n : Nat
  deriving DecidableEq, Repr

/-- `headers_parser_init`. -/
def headersParserInit : HeadersParser where
  state := .headersFieldName
  headersCount := 0
  i := 0
  n := maxHeaderFieldNameLength

/-- `h_field_name`. -/
def hFieldName (c : UInt8) (p : HeadersParser) : HeadersParser :=
  if p.i ≥ p.n then { p with state := .headersError }
  else if c = chr ':' then
    { p with
      headersCount := p.headersCount + 1
      i := 0
      n := maxHeaderFieldValueLength
      state := .headersFieldValue }
  else if !isToken c then { p with state := .headersError }
  else { p with state := .headersFieldName }

/-- `h_field_value`. -/
def hFieldValue (c : UInt8) (p : HeadersParser) : HeadersParser :=
  if p.i ≥ p.n then { p with state := .headersError }
  else if c = chr '\r' then { p with state := .headersFieldValueEnd }
  else if isVchar c || isSpace c then { p with state := .headersFieldValue }
  else { p with state := .headersError }

/-- `h_field_value_end`. -/
def hFieldValueEnd (c : UInt8) (p : HeadersParser) : HeadersParser :=
  if c ≠ chr '\n' then { p with state := .headersError }
  else { p with state := .headersMayBeEnd }

/-- `h_may_be_end`. -/
def hMayBeEnd (c : UInt8) (p : HeadersParser) : HeadersParser :=
  if c = chr '\r' then { p with state := .headersEnd }
  else if !isToken c then { p with state := .headersError }
  else { p with i := 0, n := maxHeaderFieldNameLength, state := .headersFieldName }

/-- `h_end`. -/
def hEnd (c : UInt8) (p : HeadersParser) : HeadersParser :=
  if c ≠ chr '\n' then { p with state := .headersError }
  else { p with state := .headersDone }

/-- `headers_parser_feed`. -/
def headersParserFeed (p : HeadersParser) (c : UInt8) : HeadersParser :=
  match p.state with
  | .headersFieldName => hFieldName c p
  | .headersFieldValue => hFieldValue c p
  | .headersFieldValueEnd => hFieldValueEnd c p
  | .headersMayBeEnd => hMayBeEnd c p
  | .headersEnd => hEnd c p
  | .headersDone | .headersError => p

end HttpdProxy
