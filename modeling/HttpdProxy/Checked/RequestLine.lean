import HttpdProxy.Lib.Checked
import HttpdProxy.Parsers.RequestLine

/-!
# `request_line_parser.c`, with every array access checked

The states that read or store an array, once more, with `none` where the index
is outside it, and where an array without a NUL is passed on as a string. A
literal is an array with its NUL. The states behind the version name do not
touch an array.
-/

namespace HttpdProxy

open Lib (readAt storeAt)

/-- The string an array holds, for a function that reads up to the NUL. -/
def cstr? (a : Bytes) : Option Bytes := if 0 ∈ a then some (cstr a) else none

/-- The array of a literal. -/
def literal (s : String) : Bytes := ascii s ++ [0]

namespace RequestParser

/-- `method[i] = c`. -/
def setMethod? (p : RequestParser) (c : UInt8) : Option RequestParser := do
  let method ← storeAt p.request.method (p.i : Int) c
  some { p with request := { p.request with method := method } }

/-- `host.domain[i] = c`. -/
def setDomain? (p : RequestParser) (i : Int) (c : UInt8) : Option RequestParser := do
  let domain ← storeAt p.target.host.text i c
  some (p.setTarget { p.target with host := .domain domain })

/-- `origin_form[i] = c`. -/
def setOriginForm? (p : RequestParser) (i : Nat) (c : UInt8) : Option RequestParser := do
  let originForm ← storeAt p.target.originForm (i : Int) c
  some (p.setTarget { p.target with originForm := originForm })

end RequestParser

/-- `get_method_state`. -/
def getMethodState? (p : RequestParser) : Option RequestParser := do
  let method ← cstr? p.request.method
  if method != ascii "CONNECT" then
    some ((p.setTarget { p.target with type := .absoluteForm }).goto
      .requestTargetScheme p.i schemeLength)
  else
    some ((p.setTarget { p.target with type := .authorityForm }).goto
      .requestTargetHost p.i maxFqdnLength)

/-- `r_method`. -/
def rMethod? (c : UInt8) (p : RequestParser) : Option RequestParser :=
  if p.i < p.n then
    if isToken c then do
      let p ← p.setMethod? c
      some { p with i := p.i + 1, state := .requestMethod }
    else if c = chr ' ' then do
      let p ← p.setMethod? 0
      getMethodState? { p with i := 0 }
    else some { p with state := .requestErrorUnsupportedMethod }
  else some { p with state := .requestErrorUnsupportedMethod }

/-- `r_target_scheme`. -/
def rTargetScheme? (c : UInt8) (p : RequestParser) : Option RequestParser :=
  if p.i ≥ p.n then some p.fail
  else do
    let s ← readAt (literal "http://") (p.i : Int)
    if s ≠ c then some p.fail
    else if p.i = p.n - 1 then some (p.goto .requestTargetHost 0 maxFqdnLength)
    else some { p with i := p.i + 1, state := .requestTargetScheme }

/-- `parse_ipv6`; the inner `none` is the address that is refused. -/
def parseIpv6? (p : RequestParser) : Option (Option RequestParser) := do
  let text ← cstr? p.target.host.text
  match inetPton6 text with
  | none => some none
  | some addr =>
      some (some (p.setTarget
        { p.target with
          port := htons 80
          host := .ipv6 { port := htons 80, addr := addr }
          hostType := .ipv6 }))

/-- `parse_ipv4`. -/
def parseIpv4? (p : RequestParser) : Option RequestParser := do
  let text ← cstr? p.target.host.text
  match inetPton4 text with
  | none => some (p.setTarget { p.target with port := htons 80, hostType := .domain })
  | some addr =>
      some (p.setTarget
        { p.target with
          port := htons 80
          host := .ipv4 { port := htons 80, addr := addr }
          hostType := .ipv4 })

/-- The authority ended at `c`, the first byte of the origin form. -/
def enterOgform? (c : UInt8) (p : RequestParser) : Option RequestParser := do
  let p ← p.setOriginForm? 0 c
  some (p.goto .requestTargetOgform 1 maxOriginForm)

/-- The authority ended at a space. -/
def enterVersion? (p : RequestParser) : Option RequestParser := do
  let method ← cstr? p.request.method
  let p ← if method != ascii "OPTIONS" then p.setOriginForm? 0 (chr '/') else some p
  some (p.goto .requestVersion 0 versionLength)

/-- What follows an IPv6 literal, whose last byte is overwritten first. -/
def closeLiteral? (p : RequestParser) (next : RequestParser → Option RequestParser) :
    Option RequestParser := do
  let p ← p.setDomain? (p.i - 1) 0
  match ← parseIpv6? p with
  | none => some p.fail
  | some p => next p

/-- `c == ':' && host.domain[i - 1] == ']'`: the byte before is only looked at
when this one is a colon. -/
def afterBracket? (c : UInt8) (p : RequestParser) : Option Bool :=
  if c = chr ':' then (readAt p.target.host.text (p.i - 1)).map (· == chr ']') else some false

/-- `r_target_host`. -/
def rTargetHost? (c : UInt8) (p : RequestParser) : Option RequestParser :=
  if p.i ≥ p.n then some p.fail
  else if p.i = 0 ∧ c = chr '[' then
    some { (p.setTarget { p.target with hostType := .ipv6 }) with state := .requestTargetHost }
  else if p.target.hostType = .ipv6 then
    if c = chr ']' then do
      let p ← p.setDomain? p.i c
      some { p with i := p.i + 1, state := .requestTargetHost }
    else
      (afterBracket? c p).bind fun bracket =>
        if bracket then
          closeLiteral? p fun p => some (p.goto .requestTargetPort 0 maxPortLength)
        else if endOfAuthority c then closeLiteral? p (enterOgform? c)
        else if c = chr ' ' then closeLiteral? p enterVersion?
        else do
          let p ← p.setDomain? p.i c
          some { p with i := p.i + 1, state := .requestTargetHost }
  else if c = chr ':' then do
    let p ← parseIpv4? p
    some (p.goto .requestTargetPort 0 maxPortLength)
  else if endOfAuthority c then do
    let p ← parseIpv4? p
    enterOgform? c p
  else if c = chr ' ' then do
    let p ← parseIpv4? p
    enterVersion? p
  else do
    let p ← p.setDomain? p.i c
    some { p with i := p.i + 1, state := .requestTargetHost }

/-- `r_target_port`. -/
def rTargetPort? (c : UInt8) (p : RequestParser) : Option RequestParser :=
  if p.i ≥ p.n then some p.fail
  else if endOfAuthority c then enterOgform? c (closePort p)
  else if c = chr ' ' then enterVersion? (closePort p)
  else some (rTargetPort c p)

/-- `r_target_ogform`. -/
def rTargetOgform? (c : UInt8) (p : RequestParser) : Option RequestParser :=
  if p.i ≥ p.n then some p.fail
  else if c = chr ' ' then some (p.goto .requestVersion 0 versionLength)
  else do
    let p ← p.setOriginForm? p.i c
    some { p with i := p.i + 1, state := .requestTargetOgform }

/-- `r_version`. -/
def rVersion? (c : UInt8) (p : RequestParser) : Option RequestParser :=
  if p.i ≥ p.n then some p.fail
  else do
    let s ← readAt (literal "HTTP/") (p.i : Int)
    if s ≠ c then some p.fail
    else if c = chr '/' then some (p.goto .requestVersionMajor 0 2)
    else some { p with i := p.i + 1, state := .requestVersion }

/-- `request_parser_feed`. -/
def requestParserFeed? (p : RequestParser) (c : UInt8) : Option RequestParser :=
  match p.state with
  | .requestMethod => rMethod? c p
  | .requestTargetScheme => rTargetScheme? c p
  | .requestTargetHost => rTargetHost? c p
  | .requestTargetPort => rTargetPort? c p
  | .requestTargetOgform => rTargetOgform? c p
  | .requestVersion => rVersion? c p
  | _ => some (requestParserFeed p c)

end HttpdProxy
