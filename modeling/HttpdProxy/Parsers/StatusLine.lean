import HttpdProxy.Utils.Bytes

/-!
# `status_line_parser.c`: the status line of an HTTP response

Used twice: on the reply of the DoH server, and on the response of the origin
to learn the status code that is logged.
-/

namespace HttpdProxy

def statusCodeLength : Nat := 3
def maxReasonPhrase : Nat := 50
def statusVersionLength : Nat := 8

structure StatusLine where
  versionMajor : UInt8
  versionMinor : UInt8
  statusCode : UInt16
  reasonPhrase : Bytes
  deriving DecidableEq, Repr

inductive StatusLineState where
  | statusLineVersion
  | statusLineVersionMajor
  | statusLineVersionMinor
  | statusLineStatusCode
  | statusLineReasonPhrase
  | statusLineEnd
  | statusLineDone
  | statusLineError
  | statusLineErrorUnsupportedVersion
  deriving DecidableEq, Repr

structure StatusLineParser where
  statusLine : StatusLine
  state : StatusLineState
  i : Nat
  n : Nat
  deriving DecidableEq, Repr

/-- `status_line_parser_init`. -/
def statusLineParserInit : StatusLineParser where
  statusLine :=
    { versionMajor := 0
      versionMinor := 0
      statusCode := 0
      reasonPhrase := List.replicate maxReasonPhrase 0 }
  state := .statusLineVersion
  i := 0
  n := statusVersionLength

namespace StatusLineParser

def goto (p : StatusLineParser) (s : StatusLineState) (i n : Nat) : StatusLineParser :=
  { p with state := s, i := i, n := n }

def fail (p : StatusLineParser) : StatusLineParser := { p with state := .statusLineError }

end StatusLineParser

/-- `sl_version`. -/
def slVersion (c : UInt8) (p : StatusLineParser) : StatusLineParser :=
  if p.i ≥ p.n ∨ (ascii "HTTP/").getD p.i 0 ≠ c then p.fail
  else if c = chr '/' then p.goto .statusLineVersionMajor 0 2
  else { p with i := p.i + 1, state := .statusLineVersion }

/-- `sl_version_major`. -/
def slVersionMajor (c : UInt8) (p : StatusLineParser) : StatusLineParser :=
  if p.i ≥ p.n then p.fail
  else if c = chr '.' then p.goto .statusLineVersionMinor 0 2
  else if !isDigit c then p.fail
  else
    let num := c - chr '0'
    let major := if p.i = 0 then num else p.statusLine.versionMajor * 10 + num
    { p with
      statusLine := { p.statusLine with versionMajor := major }
      i := p.i + 1
      state := .statusLineVersionMajor }

/-- `sl_version_minor`. -/
def slVersionMinor (c : UInt8) (p : StatusLineParser) : StatusLineParser :=
  if p.i ≥ p.n then p.fail
  else if c = chr ' ' then p.goto .statusLineStatusCode 0 statusCodeLength
  else if !isDigit c then p.fail
  else
    let num := c - chr '0'
    let minor := if p.i = 0 then num else p.statusLine.versionMinor * 10 + num
    { p with
      statusLine := { p.statusLine with versionMinor := minor }
      i := p.i + 1
      state := .statusLineVersionMinor }

/-- `sl_status_code`, whose limit test is a strict one. -/
def slStatusCode (c : UInt8) (p : StatusLineParser) : StatusLineParser :=
  if p.i > p.n then p.fail
  else if p.i = statusCodeLength ∧ c = chr ' ' then
    p.goto .statusLineReasonPhrase 0 maxReasonPhrase
  else if !isDigit c then p.fail
  else
    let num := (c - chr '0').toUInt16
    let statusCode := if p.i = 0 then num else p.statusLine.statusCode * 10 + num
    { p with
      statusLine := { p.statusLine with statusCode := statusCode }
      i := p.i + 1
      state := .statusLineStatusCode }

/-- `sl_reason_phrase`. -/
def slReasonPhrase (c : UInt8) (p : StatusLineParser) : StatusLineParser :=
  if p.i ≥ p.n then p.fail
  else if c = chr '\r' then { p with i := 0, state := .statusLineEnd }
  else if !isReasonPhrase c then p.fail
  else
    { p with
      statusLine :=
        { p.statusLine with reasonPhrase := p.statusLine.reasonPhrase.set p.i c }
      i := p.i + 1
      state := .statusLineReasonPhrase }

/-- `sl_end`. -/
def slEnd (c : UInt8) (p : StatusLineParser) : StatusLineParser :=
  if c ≠ chr '\n' then p.fail else { p with state := .statusLineDone }

/-- `status_line_parser_feed`. -/
def statusLineParserFeed (p : StatusLineParser) (c : UInt8) : StatusLineParser :=
  match p.state with
  | .statusLineVersion => slVersion c p
  | .statusLineVersionMajor => slVersionMajor c p
  | .statusLineVersionMinor => slVersionMinor c p
  | .statusLineStatusCode => slStatusCode c p
  | .statusLineReasonPhrase => slReasonPhrase c p
  | .statusLineEnd => slEnd c p
  | .statusLineDone | .statusLineError | .statusLineErrorUnsupportedVersion => p

end HttpdProxy
