import HttpdProxy.Utils.Net

/-!
# `request_line_parser.c`: the request line of an HTTP request

One byte at a time, nine live states and one shared counter: `i` counts what
the current part has stored and `n` is how much it may. The host is a union in
the C code, first the text of the authority and then, once that text has
parsed as an address, the socket address over the same memory.
-/

namespace HttpdProxy

/-! The limits of `request_line_parser.h`. -/

def maxMethodLength : Nat := 24
def maxFqdnLength : Nat := 0xFF
def schemeLength : Nat := 7
def maxPortLength : Nat := 5
def versionLength : Nat := 8
def maxOriginForm : Nat := 1024

inductive TargetType where
  | absoluteForm
  | authorityForm
  deriving DecidableEq, Repr

inductive HostType where
  | domain
  | ipv4
  | ipv6
  deriving DecidableEq, Repr

/-- The union `host` of a request target, by the member last stored. -/
inductive Host where
  | domain (text : Bytes)
  | ipv4 (sa : SockaddrIn)
  | ipv6 (sa : SockaddrIn6)
  deriving DecidableEq, Repr

/-- The `domain` member: its array, or nothing of use once an address has
been stored over it. -/
def Host.text : Host → Bytes
  | .domain text => text
  | _ => []

structure RequestTarget where
  type : TargetType
  hostType : HostType
  host : Host
  /-- network byte order once assigned; the accumulator of the digits while
  they are read -/
  port : UInt16
  originForm : Bytes
  deriving DecidableEq, Repr

structure RequestLine where
  versionMajor : UInt8
  versionMinor : UInt8
  method : Bytes
  requestTarget : RequestTarget
  deriving DecidableEq, Repr

inductive RequestState where
  | requestMethod
  | requestTargetScheme
  | requestTargetHost
  | requestTargetPort
  | requestTargetOgform
  | requestVersion
  | requestVersionMajor
  | requestVersionMinor
  | requestEnd
  | requestDone
  | requestError
  | requestErrorUnsupportedVersion
  | requestErrorUnsupportedMethod
  deriving DecidableEq, Repr

structure RequestParser where
  request : RequestLine
  state : RequestState
  i : Nat
  n : Nat
  deriving DecidableEq, Repr

/-- The request line as `memset` leaves it. -/
def RequestLine.zero : RequestLine where
  versionMajor := 0
  versionMinor := 0
  method := List.replicate (maxMethodLength + 1) 0
  requestTarget :=
    { type := .absoluteForm
      hostType := .domain
      host := .domain (List.replicate (maxFqdnLength + 1) 0)
      port := 0
      originForm := List.replicate maxOriginForm 0 }

/-- `request_parser_init`. -/
def requestParserInit : RequestParser where
  request := .zero
  state := .requestMethod
  i := 0
  n := maxMethodLength

namespace RequestParser

def target (p : RequestParser) : RequestTarget := p.request.requestTarget

def setTarget (p : RequestParser) (t : RequestTarget) : RequestParser :=
  { p with request := { p.request with requestTarget := t } }

/-- `host.domain[i] = c`, for an `int` index. -/
def setDomain (p : RequestParser) (i : Int) (c : UInt8) : RequestParser :=
  p.setTarget { p.target with host := .domain (setInt p.target.host.text i c) }

/-- `origin_form[i] = c`. -/
def setOriginForm (p : RequestParser) (i : Nat) (c : UInt8) : RequestParser :=
  p.setTarget { p.target with originForm := p.target.originForm.set i c }

/-- `p->i = i`, `p->n = n`, and the state to go to. -/
def goto (p : RequestParser) (s : RequestState) (i n : Nat) : RequestParser :=
  { p with state := s, i := i, n := n }

def fail (p : RequestParser) : RequestParser := { p with state := .requestError }

end RequestParser

/-- `get_method_state`. -/
def getMethodState (p : RequestParser) : RequestParser :=
  if cstr p.request.method != ascii "CONNECT" then
    (p.setTarget { p.target with type := .absoluteForm }).goto
      .requestTargetScheme p.i schemeLength
  else
    (p.setTarget { p.target with type := .authorityForm }).goto
      .requestTargetHost p.i maxFqdnLength

/-- `r_method`. -/
def rMethod (c : UInt8) (p : RequestParser) : RequestParser :=
  if p.i < p.n then
    if isToken c then
      { p with
        request := { p.request with method := p.request.method.set p.i c }
        i := p.i + 1
        state := .requestMethod }
    else if c = chr ' ' then
      getMethodState
        { p with
          request := { p.request with method := p.request.method.set p.i 0 }
          i := 0 }
    else { p with state := .requestErrorUnsupportedMethod }
  else { p with state := .requestErrorUnsupportedMethod }

/-- `r_target_scheme`. -/
def rTargetScheme (c : UInt8) (p : RequestParser) : RequestParser :=
  if p.i ≥ p.n ∨ (ascii "http://").getD p.i 0 ≠ c then p.fail
  else if p.i = p.n - 1 then p.goto .requestTargetHost 0 maxFqdnLength
  else { p with i := p.i + 1, state := .requestTargetScheme }

/-- `parse_ipv6`: the text of the host becomes its address, with port 80. -/
def parseIpv6 (p : RequestParser) : Option RequestParser :=
  match inetPton6 (cstr p.target.host.text) with
  | none => none
  | some addr =>
      some (p.setTarget
        { p.target with
          port := htons 80
          host := .ipv6 { port := htons 80, addr := addr }
          hostType := .ipv6 })

/-- `parse_ipv4`: an address if the text is one, and otherwise a domain. -/
def parseIpv4 (p : RequestParser) : RequestParser :=
  match inetPton4 (cstr p.target.host.text) with
  | none => p.setTarget { p.target with port := htons 80, hostType := .domain }
  | some addr =>
      p.setTarget
        { p.target with
          port := htons 80
          host := .ipv4 { port := htons 80, addr := addr }
          hostType := .ipv4 }

/-- `origin_form[0] = '/'` for any method but `OPTIONS`. -/
def defaultOriginForm (p : RequestParser) : RequestParser :=
  if cstr p.request.method != ascii "OPTIONS" then p.setOriginForm 0 (chr '/') else p

/-- The authority ended at `c`, the first byte of the origin form. -/
def enterOgform (c : UInt8) (p : RequestParser) : RequestParser :=
  (p.setOriginForm 0 c).goto .requestTargetOgform 1 maxOriginForm

/-- The authority ended at a space. -/
def enterVersion (p : RequestParser) : RequestParser :=
  (defaultOriginForm p).goto .requestVersion 0 versionLength

/-- `r_target_host`. -/
def rTargetHost (c : UInt8) (p : RequestParser) : RequestParser :=
  if p.i ≥ p.n then p.fail
  else if p.i = 0 ∧ c = chr '[' then
    { (p.setTarget { p.target with hostType := .ipv6 }) with state := .requestTargetHost }
  else if p.target.hostType = .ipv6 then
    if c = chr ']' then
      -- copied, and overwritten when the authority ends
      { (p.setDomain p.i c) with i := p.i + 1, state := .requestTargetHost }
    else if c = chr ':' ∧ getInt p.target.host.text (p.i - 1) = chr ']' then
      match parseIpv6 (p.setDomain (p.i - 1) 0) with
      | none => (p.setDomain (p.i - 1) 0).fail
      | some p => p.goto .requestTargetPort 0 maxPortLength
    else if endOfAuthority c then
      match parseIpv6 (p.setDomain (p.i - 1) 0) with
      | none => (p.setDomain (p.i - 1) 0).fail
      | some p => enterOgform c p
    else if c = chr ' ' then
      match parseIpv6 (p.setDomain (p.i - 1) 0) with
      | none => (p.setDomain (p.i - 1) 0).fail
      | some p => enterVersion p
    else { (p.setDomain p.i c) with i := p.i + 1, state := .requestTargetHost }
  else if c = chr ':' then (parseIpv4 p).goto .requestTargetPort 0 maxPortLength
  else if endOfAuthority c then enterOgform c (parseIpv4 p)
  else if c = chr ' ' then enterVersion (parseIpv4 p)
  else { (p.setDomain p.i c) with i := p.i + 1, state := .requestTargetHost }

/-- `assign_port`: the port, in network order, also into the address. -/
def assignPort (p : RequestParser) : RequestParser :=
  match p.target.hostType, p.target.host with
  | .ipv4, .ipv4 sa =>
      p.setTarget { p.target with host := .ipv4 { sa with port := p.target.port } }
  | .ipv6, .ipv6 sa =>
      p.setTarget { p.target with host := .ipv6 { sa with port := p.target.port } }
  | _, _ => p

/-- `port = htons(port)` and `assign_port`. -/
def closePort (p : RequestParser) : RequestParser :=
  assignPort (p.setTarget { p.target with port := htons p.target.port })

/-- `r_target_port`. -/
def rTargetPort (c : UInt8) (p : RequestParser) : RequestParser :=
  if p.i ≥ p.n then p.fail
  else if endOfAuthority c then enterOgform c (closePort p)
  else if c = chr ' ' then enterVersion (closePort p)
  else if !isDigit c then p.fail
  else
    let num := (c - chr '0').toUInt16
    let port := if p.i = 0 then num else p.target.port * 10 + num
    { (p.setTarget { p.target with port := port }) with
      i := p.i + 1
      state := .requestTargetPort }

/-- `r_target_ogform`. -/
def rTargetOgform (c : UInt8) (p : RequestParser) : RequestParser :=
  if p.i ≥ p.n then p.fail
  else if c = chr ' ' then p.goto .requestVersion 0 versionLength
  else { (p.setOriginForm p.i c) with i := p.i + 1, state := .requestTargetOgform }

/-- `r_version`. -/
def rVersion (c : UInt8) (p : RequestParser) : RequestParser :=
  if p.i ≥ p.n ∨ (ascii "HTTP/").getD p.i 0 ≠ c then p.fail
  else if c = chr '/' then p.goto .requestVersionMajor 0 2
  else { p with i := p.i + 1, state := .requestVersion }

/-- A digit of a version number, the first of them setting it. -/
def versionDigit (i : Nat) (old c : UInt8) : UInt8 :=
  if i = 0 then c - chr '0' else old * 10 + (c - chr '0')

/-- `r_version_major`. -/
def rVersionMajor (c : UInt8) (p : RequestParser) : RequestParser :=
  if p.i ≥ p.n then { p with state := .requestErrorUnsupportedVersion }
  else if c = chr '.' then p.goto .requestVersionMinor 0 2
  else if !isDigit c then p.fail
  else
    { p with
      request :=
        { p.request with versionMajor := versionDigit p.i p.request.versionMajor c }
      i := p.i + 1
      state := .requestVersionMajor }

/-- `r_version_minor`. -/
def rVersionMinor (c : UInt8) (p : RequestParser) : RequestParser :=
  if p.i ≥ p.n then { p with state := .requestErrorUnsupportedVersion }
  else if c = chr '\r' then { p with i := 0, state := .requestEnd }
  else if !isDigit c then p.fail
  else
    { p with
      request :=
        { p.request with versionMinor := versionDigit p.i p.request.versionMinor c }
      i := p.i + 1
      state := .requestVersionMinor }

/-- `r_end`. -/
def rEnd (c : UInt8) (p : RequestParser) : RequestParser :=
  if c ≠ chr '\n' then p.fail else { p with state := .requestDone }

/-- `request_parser_feed`; the state it returns is the one it stores. -/
def requestParserFeed (p : RequestParser) (c : UInt8) : RequestParser :=
  match p.state with
  | .requestMethod => rMethod c p
  | .requestTargetScheme => rTargetScheme c p
  | .requestTargetHost => rTargetHost c p
  | .requestTargetPort => rTargetPort c p
  | .requestTargetOgform => rTargetOgform c p
  | .requestVersion => rVersion c p
  | .requestVersionMajor => rVersionMajor c p
  | .requestVersionMinor => rVersionMinor c p
  | .requestEnd => rEnd c p
  | .requestDone | .requestError | .requestErrorUnsupportedVersion
  | .requestErrorUnsupportedMethod => p

end HttpdProxy
