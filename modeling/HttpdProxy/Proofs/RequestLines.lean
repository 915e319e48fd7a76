import HttpdProxy.Lib.Feeding
import HttpdProxy.Utils.Filled
import HttpdProxy.Parsers.RequestLine

/-!
# Which request lines are accepted

A well-formed request line is a value of its own here, a `RequestText`, with
the limits that `request_line_parser.h` declares among its fields. Fed to the
parser it is followed part by part: what the parser is in the middle of a part
is a function of the part so far, and every part ends with the delimiter that
sets the counter and the limit of the next.
-/

namespace HttpdProxy

/-! ## Well-formed request lines -/

/-- A letter, a digit, a hyphen or a dot. -/
def isNameByte (c : UInt8) : Bool := isAlpha c || isDigit c || c == chr '-' || c == chr '.'

/-- A host as it is written: a registered name or an IPv4 literal, or an IPv6
literal in brackets. -/
inductive HostText where
  | name (text : Bytes) (bytes : ∀ c ∈ text, isNameByte c = true)
  | bracketed (text addr : Bytes) (parses : inetPton6 text = some addr)

namespace HostText

def bytes : HostText → Bytes
  | .name text _ => text
  | .bracketed text _ _ => chr '[' :: text ++ [chr ']']

/-- How the parser classifies it. -/
def type : HostText → HostType
  | .name text _ => if (inetPton4 text).isSome then .ipv4 else .domain
  | .bracketed _ _ _ => .ipv6

/-- What it is decoded to, with the port (in network order) of the target. -/
def host (port : UInt16) : HostText → Host
  | .name text _ =>
      match inetPton4 text with
      | some addr => .ipv4 { port := port, addr := addr }
      | none => .domain (filled (maxFqdnLength + 1) text)
  | .bracketed _ addr _ => .ipv6 { port := port, addr := addr }

end HostText

/-- The number that decimal digits write. -/
def digitsValue (ds : Bytes) : Nat := ds.foldl (fun v d => v * 10 + (d - chr '0').toNat) 0

/-- A request line within the declared limits. -/
structure RequestText where
  method : Bytes
  host : HostText
  port : Option Bytes
  rest : Bytes
  major : UInt8
  minor : UInt8
  method_token : ∀ c ∈ method, isToken c = true
  method_length : 1 ≤ method.length ∧ method.length ≤ maxMethodLength
  host_length : host.bytes.length ≤ maxFqdnLength
  port_digits : ∀ ds, port = some ds → (∀ d ∈ ds, isDigit d = true) ∧
    1 ≤ ds.length ∧ ds.length ≤ maxPortLength ∧ digitsValue ds ≤ 65535
  rest_start : ∀ c, rest.head? = some c → endOfAuthority c = true
  rest_visible : ∀ c ∈ rest, isVchar c = true
  rest_length : rest.length ≤ maxOriginForm - 1
  rest_connect : method = ascii "CONNECT" → rest = []
  major_digit : isDigit major = true
  minor_digit : isDigit minor = true

namespace RequestText
variable (r : RequestText)

/-- What stands between the method and the host. -/
def scheme : Bytes := if r.method = ascii "CONNECT" then [] else ascii "http://"

def portText : Bytes :=
  match r.port with
  | none => []
  | some ds => chr ':' :: ds

def version : Bytes :=
  ascii "HTTP/" ++ [r.major, chr '.', r.minor]

/-- The line without its last byte. -/
def upToCr : Bytes :=
  r.method ++ [chr ' '] ++ r.scheme ++ r.host.bytes ++ r.portText ++ r.rest ++ [chr ' '] ++
    r.version ++ [chr '\r']

/-- The line as it is sent. -/
def bytes : Bytes := r.upToCr ++ [chr '\n']

/-- The port in network order. -/
def netPort : UInt16 :=
  match r.port with
  | none => htons 80
  | some ds => htons (digitsValue ds).toUInt16

/-- The origin form: what follows the authority, or `/`. -/
def originForm : Bytes :=
  if r.rest = [] then (if r.method = ascii "OPTIONS" then [] else [chr '/']) else r.rest

/-- The request line that the text encodes, its arrays filled up with
zeros. -/
def line : RequestLine where
  versionMajor := r.major - chr '0'
  versionMinor := r.minor - chr '0'
  method := filled (maxMethodLength + 1) r.method
  requestTarget :=
    { type := if r.method = ascii "CONNECT" then .authorityForm else .absoluteForm
      hostType := r.host.type
      host := r.host.host r.netPort
      port := r.netPort
      originForm := filled maxOriginForm r.originForm }

end RequestText

/-- The states in which the parser has stopped. -/
def RequestParser.Stopped (p : RequestParser) : Prop :=
  p.state = .requestDone ∨ p.state = .requestError ∨
    p.state = .requestErrorUnsupportedVersion ∨ p.state = .requestErrorUnsupportedMethod

theorem requestParserFeed_stopped {p : RequestParser} (h : p.Stopped) (c : UInt8) :
    requestParserFeed p c = p := by
  obtain h | h | h | h := h <;> simp [requestParserFeed, h]

/-! ## The method -/

/-- A request line of which only the method is known. -/
def methodLine (method : Bytes) : RequestLine :=
  { RequestLine.zero with method := filled (maxMethodLength + 1) method }

def atMethod (method : Bytes) : RequestParser where
  request := methodLine method
  state := .requestMethod
  i := method.length
  n := maxMethodLength

theorem requestParserInit_eq : requestParserInit = atMethod [] := by
  simp [requestParserInit, atMethod, methodLine, filled_nil, RequestLine.zero]

theorem feed_method {method : Bytes} (htok : ∀ c ∈ method, isToken c = true)
    (hlen : method.length ≤ maxMethodLength) :
    method.foldl requestParserFeed requestParserInit = atMethod method := by
  rw [requestParserInit_eq]
  apply Lib.foldl_accumulates
  intro pre c hpre
  have hc : isToken c = true := htok c (hpre.subset (by simp))
  have hlt : pre.length < maxMethodLength := by
    have := hpre.length_le
    simp at this
    omega
  simp [requestParserFeed, rMethod, atMethod, methodLine, hlt, hc,
    set_filled c rfl (show pre.length < maxMethodLength + 1 by omega)]

/-- No token holds a NUL. -/
theorem token_ne_zero {c : UInt8} (h : isToken c = true) : c ≠ 0 := by
  rintro rfl
  revert h
  decide

theorem cstr_method {method : Bytes} (htok : ∀ c ∈ method, isToken c = true)
    (hlen : method.length ≤ maxMethodLength) :
    cstr (filled (maxMethodLength + 1) method) = method := by
  apply cstr_filled
  · intro h0
    exact token_ne_zero (htok 0 h0) rfl
  · omega

/-! ## The scheme and the host -/

/-- A request line whose authority is being read. -/
def authorityLine (method : Bytes) (type : TargetType) (hostType : HostType) (host : Host)
    (port : UInt16) : RequestLine :=
  { methodLine method with
    requestTarget :=
      { type := type
        hostType := hostType
        host := host
        port := port
        originForm := List.replicate maxOriginForm 0 } }

def atHost (method : Bytes) (type : TargetType) (hostType : HostType) (text : Bytes) :
    RequestParser where
  request := authorityLine method type hostType (.domain (filled (maxFqdnLength + 1) text)) 0
  state := .requestTargetHost
  i := text.length
  n := maxFqdnLength

/-- The type of the target of a method. -/
def targetType (method : Bytes) : TargetType :=
  if method = ascii "CONNECT" then .authorityForm else .absoluteForm

def atScheme (method scheme : Bytes) : RequestParser where
  request := methodLine method
  state := .requestTargetScheme
  i := scheme.length
  n := schemeLength

theorem methodLine_eq (method : Bytes) :
    methodLine method = authorityLine method .absoluteForm .domain
      (.domain (filled (maxFqdnLength + 1) [])) 0 := by
  simp [methodLine, authorityLine, RequestLine.zero, filled_nil]

/-- The space behind a method: it needs room for a NUL that it has no use
for. -/
theorem feed_method_end {method : Bytes} (htok : ∀ c ∈ method, isToken c = true)
    (hlen : method.length < maxMethodLength) :
    requestParserFeed (atMethod method) (chr ' ')
      = if method = ascii "CONNECT" then atHost method .authorityForm .domain []
        else atScheme method [] := by
  have hsp : isToken (chr ' ') = false := by decide
  have hset : (filled (maxMethodLength + 1) method).set method.length 0
      = filled (maxMethodLength + 1) method := set_filled_end rfl (by omega)
  have hcstr := cstr_method htok (by omega)
  by_cases hc : method = ascii "CONNECT"
  · have heq : (method != ascii "CONNECT") = false := by simpa using hc
    simp only [requestParserFeed, rMethod, atMethod, if_pos hlen, hsp, Bool.false_eq_true,
      if_false, if_true, getMethodState, methodLine, hset, hcstr, heq, if_pos hc]
    simp [atHost, authorityLine, methodLine, RequestParser.goto, RequestParser.setTarget,
      RequestParser.target, RequestLine.zero, filled_nil]
  · have hne : (method != ascii "CONNECT") = true := by simpa using hc
    simp only [requestParserFeed, rMethod, atMethod, if_pos hlen, hsp, Bool.false_eq_true,
      if_false, if_true, getMethodState, methodLine, hset, hcstr, hc, hne]
    simp [atScheme, methodLine, RequestParser.goto, RequestParser.setTarget,
      RequestParser.target, RequestLine.zero]

theorem feed_scheme (method : Bytes) :
    (ascii "http://").foldl requestParserFeed (atScheme method [])
      = atHost method .absoluteForm .domain [] := by
  have hrun : ∀ line : RequestLine, (ascii "http://").foldl requestParserFeed
      { request := line, state := .requestTargetScheme, i := 0, n := schemeLength }
      = { request := line, state := .requestTargetHost, i := 0, n := maxFqdnLength } := by
    intro line
    simp [ascii, requestParserFeed, rTargetScheme, schemeLength, RequestParser.goto]
  simp only [atScheme, methodLine_eq, List.length_nil]
  exact hrun _

/-- A byte that a host may hold but that ends no part of it. -/
theorem nameByte_plain {c : UInt8} (h : isNameByte c = true) :
    c ≠ chr '[' ∧ c ≠ chr ':' ∧ endOfAuthority c = false ∧ c ≠ chr ' ' := by
  refine ⟨?_, ?_, ?_, ?_⟩
  · rintro rfl
    revert h
    decide
  · rintro rfl
    revert h
    decide
  · apply Bool.eq_false_iff.mpr
    intro hend
    simp only [endOfAuthority, Bool.or_eq_true, beq_iff_eq] at hend
    obtain (rfl | rfl) | rfl := hend <;> revert h <;> decide
  · rintro rfl
    revert h
    decide

theorem feed_name {method text : Bytes} (type : TargetType)
    (hname : ∀ c ∈ text, isNameByte c = true) (hlen : text.length ≤ maxFqdnLength) :
    text.foldl requestParserFeed (atHost method type .domain [])
      = atHost method type .domain text := by
  apply Lib.foldl_accumulates
  intro pre c hpre
  obtain ⟨hopen, hcolon, hend, hspace⟩ := nameByte_plain (hname c (hpre.subset (by simp)))
  have hlt : pre.length < maxFqdnLength := by
    have := hpre.length_le
    simp at this
    omega
  simp [requestParserFeed, rTargetHost, atHost, authorityLine, RequestParser.target,
    RequestParser.setDomain, RequestParser.setTarget, Host.text, setInt, hopen, hcolon, hend,
    hspace, show ¬ maxFqdnLength ≤ pre.length by omega,
    set_filled c rfl (show pre.length < maxFqdnLength + 1 by omega)]

/-! ## IPv6 literals -/

/-- The bytes an IPv6 literal is made of. -/
def isLiteralByte (c : UInt8) : Bool := (hexValue c).isSome || c == chr ':' || c == chr '.'

theorem inetPton4Go_bytes {text : Bytes} : ∀ {octets : Bytes} {cur : Nat} {saw : Bool}
    {addr : Bytes}, inetPton4Go text octets cur saw = some addr →
    ∀ c ∈ text, isLiteralByte c = true := by
  induction text with
  | nil =>
      intro _ _ _ _ _ c hc
      cases hc
  | cons d text ih =>
      intro octets cur saw addr h c hc
      rw [inetPton4Go] at h
      split at h
      · next hd =>
          have htail : ∀ c ∈ text, isLiteralByte c = true := by
            dsimp only at h
            split at h
            · cases h
            · split at h
              · cases h
              · exact ih h
          cases hc with
          | head => simp [isLiteralByte, hexValue, hd]
          | tail _ hc => exact htail c hc
      · split at h
        · next hdot =>
            split at h
            · cases h
            · cases hc with
              | head => simp [isLiteralByte, hdot.1]
              | tail _ hc => exact ih h c hc
        · cases h

theorem inetPton6Go_bytes {text : Bytes} : ∀ {token out : Bytes} {colon : Option Nat}
    {seen val : Nat} {addr : Bytes}, (∃ pre, token = pre ++ text) →
    inetPton6Go text token out colon seen val = some addr →
    ∀ c ∈ text, isLiteralByte c = true := by
  induction text with
  | nil =>
      intro _ _ _ _ _ _ _ _ c hc
      cases hc
  | cons d text ih =>
      intro token out colon seen val addr htoken h
      obtain ⟨pre, rfl⟩ := htoken
      have htail : ∃ pre', pre ++ d :: text = pre' ++ text := ⟨pre ++ [d], by simp⟩
      suffices hboth : isLiteralByte d = true ∧ ∀ c ∈ text, isLiteralByte c = true by
        intro c hc
        cases hc with
        | head => exact hboth.1
        | tail _ hc => exact hboth.2 c hc
      rw [inetPton6Go] at h
      split at h
      · next v hv =>
          split at h
          · cases h
          · exact ⟨by simp [isLiteralByte, hv], ih htail h⟩
      · split at h
        · next hcolon =>
            refine ⟨by simp [isLiteralByte, hcolon], ?_⟩
            split at h
            · split at h
              · cases h
              · exact ih ⟨[], rfl⟩ h
            · split at h
              · cases h
              · split at h
                · cases h
                · exact ih ⟨[], rfl⟩ h
        · split at h
          · split at h
            · next v4 hv4 =>
                -- a dotted tail is read again, from the start of its token
                have hbytes := inetPton4Go_bytes hv4
                exact ⟨hbytes d (by simp), fun c hc => hbytes c (by simp [hc])⟩
            · cases h
          · cases h

theorem inetPton6_bytes {text addr : Bytes} (h : inetPton6 text = some addr) :
    ∀ c ∈ text, isLiteralByte c = true := by
  unfold inetPton6 at h
  split at h
  · cases h
  · next c rest =>
      split at h
      · next hc =>
          split at h
          · next d tail =>
              split at h
              · intro b hb
                cases hb with
                | head => simp [isLiteralByte, hc]
                | tail _ hb => exact inetPton6Go_bytes ⟨[], rfl⟩ h b hb
              · cases h
          · cases h
      · exact inetPton6Go_bytes ⟨[], rfl⟩ h

/-- A byte of a literal ends no part of it. -/
theorem literalByte_plain {c : UInt8} (h : isLiteralByte c = true) :
    c ≠ chr '[' ∧ c ≠ chr ']' ∧ endOfAuthority c = false ∧ c ≠ chr ' ' ∧ c ≠ 0 := by
  refine ⟨?_, ?_, ?_, ?_, ?_⟩
  · rintro rfl
    revert h
    decide
  · rintro rfl
    revert h
    decide
  · apply Bool.eq_false_iff.mpr
    intro hend
    simp only [endOfAuthority, Bool.or_eq_true, beq_iff_eq] at hend
    obtain (rfl | rfl) | rfl := hend <;> revert h <;> decide
  · rintro rfl
    revert h
    decide
  · rintro rfl
    revert h
    decide

theorem feed_open (method : Bytes) (type : TargetType) :
    requestParserFeed (atHost method type .domain []) (chr '[')
      = atHost method type .ipv6 [] := by
  simp [requestParserFeed, rTargetHost, atHost, authorityLine, RequestParser.target,
    RequestParser.setTarget, maxFqdnLength]

theorem feed_literal {method text : Bytes} (type : TargetType)
    (hlit : ∀ c ∈ text, isLiteralByte c = true) (hlen : text.length ≤ maxFqdnLength) :
    text.foldl requestParserFeed (atHost method type .ipv6 [])
      = atHost method type .ipv6 text := by
  apply Lib.foldl_accumulates
  intro pre c hpre
  obtain ⟨hopen, hclose, hend, hspace, _⟩ := literalByte_plain (hlit c (hpre.subset (by simp)))
  have hlt : pre.length < maxFqdnLength := by
    have := hpre.length_le
    simp at this
    omega
  -- the byte before a colon is no bracket: it is one of the literal, or there is none
  have hbefore : getInt (filled (maxFqdnLength + 1) pre) ((pre.length : Int) - 1)
      ≠ chr ']' := by
    cases hl : pre.getLast? with
    | none =>
        rw [List.getLast?_eq_none_iff.mp hl]
        decide
    | some d =>
        obtain ⟨init, rfl⟩ := List.getLast?_eq_some_iff.mp hl
        have hd := literalByte_plain (hlit d (hpre.subset (by simp)))
        have hidx : ((init ++ [d]).length : Int) - 1 = (init.length : Int) := by simp
        rw [hidx, getInt, if_pos (by omega), Int.toNat_natCast, getD_filled_last rfl]
        exact hd.2.1
  simp [requestParserFeed, rTargetHost, atHost, authorityLine, RequestParser.target,
    RequestParser.setDomain, RequestParser.setTarget, Host.text, setInt, hopen, hclose, hend,
    hspace, hbefore, show ¬ maxFqdnLength ≤ pre.length by omega,
    set_filled c rfl (show pre.length < maxFqdnLength + 1 by omega)]

theorem feed_close {method text : Bytes} (type : TargetType)
    (hlen : text.length < maxFqdnLength) :
    requestParserFeed (atHost method type .ipv6 text) (chr ']')
      = atHost method type .ipv6 (text ++ [chr ']']) := by
  have hopen : chr ']' ≠ chr '[' := by decide
  simp [requestParserFeed, rTargetHost, atHost, authorityLine, RequestParser.target,
    RequestParser.setDomain, RequestParser.setTarget, Host.text, setInt, hopen,
    show ¬ maxFqdnLength ≤ text.length by omega,
    set_filled (chr ']') rfl (show text.length < maxFqdnLength + 1 by omega)]

/-! ## The end of the authority -/

/-- The parser behind a host, before the delimiter that ends it. -/
def atHostEnd (method : Bytes) (type : TargetType) : HostText → RequestParser
  | .name text _ => atHost method type .domain text
  | .bracketed text _ _ => atHost method type .ipv6 (text ++ [chr ']'])

/-- The delimiter of a registered name needs room in the array, as if it were
stored. -/
def HostText.Fits : HostText → Prop
  | .name text _ => text.length < maxFqdnLength
  | .bracketed _ _ _ => True

/-- A request line whose authority is known. -/
def targetLine (method : Bytes) (type : TargetType) (h : HostText) (port : UInt16) :
    RequestLine :=
  authorityLine method type h.type (h.host port) port

theorem feed_host {method : Bytes} {type : TargetType} {h : HostText}
    (hlen : h.bytes.length ≤ maxFqdnLength) :
    h.bytes.foldl requestParserFeed (atHost method type .domain [])
      = atHostEnd method type h := by
  cases h with
  | name text hname => exact feed_name type hname hlen
  | bracketed text addr hparses =>
      have hlit := inetPton6_bytes hparses
      have hlt : text.length < maxFqdnLength := by
        simp [HostText.bytes] at hlen
        omega
      rw [HostText.bytes, List.cons_append, List.foldl_cons, feed_open, List.foldl_append,
        feed_literal type hlit (by omega), List.foldl_cons, List.foldl_nil, feed_close type hlt]
      rfl

theorem nameByte_ne_zero {c : UInt8} (h : isNameByte c = true) : c ≠ 0 := by
  rintro rfl
  revert h
  decide

/-- What `parse_ipv4` makes of a name. -/
theorem parseIpv4_name {method text : Bytes} {type : TargetType}
    (hname : ∀ c ∈ text, isNameByte c = true) (hlen : text.length ≤ maxFqdnLength) :
    parseIpv4 (atHost method type .domain text)
      = { atHost method type .domain text with
          request := targetLine method type (.name text hname) (htons 80) } := by
  have hcstr : cstr (filled (maxFqdnLength + 1) text) = text := by
    apply cstr_filled
    · intro h0
      exact nameByte_ne_zero (hname 0 h0) rfl
    · omega
  cases ha : inetPton4 text <;>
    simp [parseIpv4, atHost, authorityLine, targetLine, HostText.type, HostText.host,
      RequestParser.target, RequestParser.setTarget, Host.text, hcstr, ha]

/-- What `parse_ipv6` makes of a literal, once its bracket is overwritten. -/
theorem parseIpv6_literal {method text addr : Bytes} {type : TargetType}
    (hparses : inetPton6 text = some addr) (hlen : text.length < maxFqdnLength) :
    parseIpv6 ((atHost method type .ipv6 (text ++ [chr ']'])).setDomain
        (((text ++ [chr ']']).length : Int) - 1) 0)
      = some
        { atHost method type .ipv6 (text ++ [chr ']']) with
          request := targetLine method type (.bracketed text addr hparses) (htons 80) } := by
  have hlit := inetPton6_bytes hparses
  have hcstr : cstr (filled (maxFqdnLength + 1) text) = text := by
    apply cstr_filled
    · intro h0
      exact (literalByte_plain (hlit 0 h0)).2.2.2.2 rfl
    · omega
  have hidx : ((text ++ [chr ']']).length : Int) - 1 = (text.length : Int) := by simp
  rw [hidx]
  simp [parseIpv6, atHost, authorityLine, targetLine, HostText.type, HostText.host,
    RequestParser.target, RequestParser.setTarget, RequestParser.setDomain, Host.text, setInt,
    set_filled_zero rfl (show text.length < maxFqdnLength + 1 by omega), hcstr, hparses]

/-- The parser once the host is known. -/
def hostClosed (method : Bytes) (type : TargetType) (h : HostText) : RequestParser :=
  { atHostEnd method type h with request := targetLine method type h (htons 80) }

/-- A byte that ends a host. -/
def EndsHost (c : UInt8) : Prop := c = chr ':' ∨ endOfAuthority c = true ∨ c = chr ' '

theorem EndsHost.plain {c : UInt8} (h : EndsHost c) : c ≠ chr '[' ∧ c ≠ chr ']' := by
  constructor <;> rintro rfl <;> revert h <;> unfold EndsHost <;> decide

theorem EndsHost.space {c : UInt8} (h : EndsHost c) (hcolon : c ≠ chr ':')
    (hend : ¬ endOfAuthority c = true) : c = chr ' ' := by
  rcases h with h | h | h
  · exact absurd h hcolon
  · exact absurd h hend
  · exact h

/-- Where the parser goes from the end of a host, which has been closed. -/
def leaveHost (c : UInt8) (closed : RequestParser) : RequestParser :=
  if c = chr ':' then closed.goto .requestTargetPort 0 maxPortLength
  else if endOfAuthority c then enterOgform c closed
  else enterVersion closed

theorem rTargetHost_name {p : RequestParser} {c : UInt8} (hi : ¬ p.i ≥ p.n)
    (ht : p.target.hostType ≠ .ipv6) (hc : EndsHost c) :
    rTargetHost c p = leaveHost c (parseIpv4 p) := by
  rw [rTargetHost, if_neg hi, if_neg (fun h => hc.plain.1 h.2), if_neg ht, leaveHost]
  by_cases hcolon : c = chr ':'
  · rw [if_pos hcolon, if_pos hcolon]
  · rw [if_neg hcolon, if_neg hcolon]
    by_cases hend : endOfAuthority c = true
    · rw [if_pos hend, if_pos hend]
    · rw [if_neg hend, if_neg hend, if_pos (hc.space hcolon hend)]

theorem rTargetHost_bracketed {p : RequestParser} {c : UInt8} (hi : ¬ p.i ≥ p.n)
    (ht : p.target.hostType = .ipv6)
    (hbracket : c = chr ':' → getInt p.target.host.text (p.i - 1) = chr ']') (hc : EndsHost c) :
    rTargetHost c p = match parseIpv6 (p.setDomain (p.i - 1) 0) with
      | none => (p.setDomain (p.i - 1) 0).fail
      | some closed => leaveHost c closed := by
  rw [rTargetHost, if_neg hi, if_neg (fun h => hc.plain.1 h.2), if_pos ht,
    if_neg hc.plain.2]
  by_cases hcolon : c = chr ':'
  · rw [if_pos ⟨hcolon, hbracket hcolon⟩]
    cases parseIpv6 (p.setDomain (p.i - 1) 0) with
    | none => rfl
    | some closed => simp only [leaveHost, if_pos hcolon]
  · rw [if_neg (fun h => hcolon h.1)]
    by_cases hend : endOfAuthority c = true
    · rw [if_pos hend]
      cases parseIpv6 (p.setDomain (p.i - 1) 0) with
      | none => rfl
      | some closed => simp only [leaveHost, if_neg hcolon, if_pos hend]
    · rw [if_neg hend, if_pos (hc.space hcolon hend)]
      cases parseIpv6 (p.setDomain (p.i - 1) 0) with
      | none => rfl
      | some closed => simp only [leaveHost, if_neg hcolon, if_neg hend]

/-- The delimiters behind a host. -/
theorem rTargetHost_end {method : Bytes} {type : TargetType} {h : HostText} {c : UInt8}
    (hlen : h.bytes.length ≤ maxFqdnLength) (hfits : h.Fits) (hc : EndsHost c) :
    rTargetHost c (atHostEnd method type h) = leaveHost c (hostClosed method type h) := by
  cases h with
  | name text hname =>
      have hlt : text.length < maxFqdnLength := hfits
      have hi : ¬ (atHost method type .domain text).i ≥ (atHost method type .domain text).n := by
        show ¬ text.length ≥ maxFqdnLength
        omega
      rw [atHostEnd, rTargetHost_name hi (by intro he; cases he) hc,
        parseIpv4_name hname (by omega)]
      rfl
  | bracketed text addr hparses =>
      have hlt : text.length + 1 < maxFqdnLength := by
        simp [HostText.bytes] at hlen
        omega
      have hi : ¬ (atHost method type .ipv6 (text ++ [chr ']'])).i
          ≥ (atHost method type .ipv6 (text ++ [chr ']'])).n := by
        show ¬ (text ++ [chr ']']).length ≥ maxFqdnLength
        simp
        omega
      have hbracket : getInt (filled (maxFqdnLength + 1) (text ++ [chr ']']))
          (((text ++ [chr ']']).length : Int) - 1) = chr ']' := by
        have hidx : ((text ++ [chr ']']).length : Int) - 1 = (text.length : Int) := by simp
        rw [hidx, getInt, if_pos (by omega), Int.toNat_natCast, getD_filled_last rfl]
      rw [atHostEnd, rTargetHost_bracketed hi rfl (fun _ => hbracket) hc]
      have hparsed := @parseIpv6_literal method text addr type hparses (by omega)
      have hclosed : parseIpv6 ((atHost method type .ipv6 (text ++ [chr ']'])).setDomain
          ((atHost method type .ipv6 (text ++ [chr ']'])).i - 1) 0)
          = some (hostClosed method type (.bracketed text addr hparses)) := hparsed
      rw [hclosed]

/-- A name that fills the array is refused at its end. -/
theorem rTargetHost_full {method : Bytes} {type : TargetType} {h : HostText} (c : UInt8)
    (hlen : h.bytes.length ≤ maxFqdnLength) (hfits : ¬ h.Fits) :
    (rTargetHost c (atHostEnd method type h)).Stopped ∧
      (rTargetHost c (atHostEnd method type h)).state ≠ .requestDone := by
  cases h with
  | name text hname =>
      have hi : (atHost method type .domain text).i ≥ (atHost method type .domain text).n := by
        show text.length ≥ maxFqdnLength
        simp only [HostText.Fits] at hfits
        omega
      rw [atHostEnd, rTargetHost, if_pos hi]
      simp [RequestParser.Stopped, RequestParser.fail]
  | bracketed text addr hparses => exact absurd trivial hfits

/-! ## The port -/

def atPort (method : Bytes) (type : TargetType) (h : HostText) (digits : Bytes) :
    RequestParser where
  request := authorityLine method type h.type (h.host (htons 80))
    (if digits = [] then htons 80 else (digitsValue digits).toUInt16)
  state := .requestTargetPort
  i := digits.length
  n := maxPortLength

theorem digitsValue_append (ds : Bytes) (d : UInt8) :
    digitsValue (ds ++ [d]) = digitsValue ds * 10 + (d - chr '0').toNat := by
  simp [digitsValue]

/-- A digit ends nothing. -/
theorem digit_plain {d : UInt8} (h : isDigit d = true) :
    endOfAuthority d = false ∧ d ≠ chr ' ' ∧ d ≠ chr '.' ∧ d ≠ chr '\r' := by
  refine ⟨?_, ?_, ?_, ?_⟩
  · apply Bool.eq_false_iff.mpr
    intro hend
    simp only [endOfAuthority, Bool.or_eq_true, beq_iff_eq] at hend
    obtain (rfl | rfl) | rfl := hend <;> revert h <;> decide
  all_goals
    rintro rfl
    revert h
    decide

theorem feed_port {method digits : Bytes} {type : TargetType} {h : HostText}
    (hdig : ∀ d ∈ digits, isDigit d = true) (hlen : digits.length ≤ maxPortLength) :
    digits.foldl requestParserFeed (atPort method type h [])
      = atPort method type h digits := by
  apply Lib.foldl_accumulates
  intro pre d hpre
  have hd := hdig d (hpre.subset (by simp))
  obtain ⟨hend, hspace, _, _⟩ := digit_plain hd
  have hlt : ¬ pre.length ≥ maxPortLength := by
    have := hpre.length_le
    simp at this
    omega
  by_cases hnil : pre = []
  · subst hnil
    simp [requestParserFeed, rTargetPort, atPort, authorityLine, RequestParser.target,
      RequestParser.setTarget, hend, hspace, hd, maxPortLength, digitsValue]
  · simp [requestParserFeed, rTargetPort, atPort, authorityLine, RequestParser.target,
      RequestParser.setTarget, hend, hspace, hd, hlt, hnil, digitsValue_append]

/-- The port reaches the address as well. -/
theorem closePort_atPort {method digits : Bytes} {type : TargetType} {h : HostText}
    (hne : digits ≠ []) :
    closePort (atPort method type h digits)
      = { atPort method type h digits with
          request := targetLine method type h (htons (digitsValue digits).toUInt16) } := by
  cases h with
  | name text hname =>
      cases ha : inetPton4 text <;>
        simp [closePort, assignPort, atPort, authorityLine, targetLine, RequestParser.target,
          RequestParser.setTarget, HostText.type, HostText.host, ha, hne]
  | bracketed text addr hparses =>
      simp [closePort, assignPort, atPort, authorityLine, targetLine, RequestParser.target,
        RequestParser.setTarget, HostText.type, HostText.host, hne]

/-- The delimiter behind a port needs room among its digits. -/
theorem rTargetPort_end {p : RequestParser} {c : UInt8} (hi : ¬ p.i ≥ p.n)
    (hc : endOfAuthority c = true ∨ c = chr ' ') :
    rTargetPort c p = if endOfAuthority c then enterOgform c (closePort p)
      else enterVersion (closePort p) := by
  rw [rTargetPort, if_neg hi]
  by_cases hend : endOfAuthority c = true
  · rw [if_pos hend, if_pos hend]
  · rw [if_neg hend, if_neg hend, if_pos (hc.resolve_left hend)]

/-! ## The origin form and the version -/

/-- The request line with an origin form. -/
def formLine (method : Bytes) (type : TargetType) (h : HostText) (port : UInt16)
    (form : Bytes) : RequestLine :=
  { methodLine method with
    requestTarget :=
      { type := type
        hostType := h.type
        host := h.host port
        port := port
        originForm := filled maxOriginForm form } }

def atForm (line : Bytes → RequestLine) (form : Bytes) : RequestParser where
  request := line form
  state := .requestTargetOgform
  i := form.length
  n := maxOriginForm

def atVersion (line : RequestLine) : RequestParser where
  request := line
  state := .requestVersion
  i := 0
  n := versionLength

/-- The request line with an origin form, for any host. -/
def fullLine (method : Bytes) (type : TargetType) (hostType : HostType) (host : Host)
    (port : UInt16) (form : Bytes) : RequestLine :=
  { methodLine method with
    requestTarget :=
      { type := type
        hostType := hostType
        host := host
        port := port
        originForm := filled maxOriginForm form } }

theorem enterOgform_authority {p : RequestParser} {method : Bytes} {type : TargetType}
    {hostType : HostType} {host : Host} {port : UInt16} (c : UInt8)
    (hp : p.request = authorityLine method type hostType host port) :
    enterOgform c p = atForm (fullLine method type hostType host port) [c] := by
  have hset : (List.replicate maxOriginForm (0 : UInt8)).set 0 c = filled maxOriginForm [c] := by
    rw [← filled_nil]
    exact set_filled c rfl (by decide)
  simp [enterOgform, RequestParser.setOriginForm, RequestParser.setTarget, RequestParser.target,
    RequestParser.goto, hp, authorityLine, fullLine, atForm, hset]

/-- Without an origin form the target gets `/`, or nothing for OPTIONS. -/
theorem enterVersion_authority {p : RequestParser} {method : Bytes} {type : TargetType}
    {hostType : HostType} {host : Host} {port : UInt16} (htok : ∀ c ∈ method, isToken c = true)
    (hlen : method.length ≤ maxMethodLength)
    (hp : p.request = authorityLine method type hostType host port) :
    enterVersion p = atVersion (fullLine method type hostType host port
      (if method = ascii "OPTIONS" then [] else [chr '/'])) := by
  have hset : (List.replicate maxOriginForm (0 : UInt8)).set 0 (chr '/')
      = filled maxOriginForm [chr '/'] := by
    rw [← filled_nil]
    exact set_filled (chr '/') rfl (by decide)
  have hcstr := cstr_method htok hlen
  by_cases ho : method = ascii "OPTIONS"
  · have hbne : (method != ascii "OPTIONS") = false := by simpa using ho
    simp only [enterVersion, defaultOriginForm, hp, authorityLine, methodLine, hcstr, hbne,
      if_pos ho, Bool.false_eq_true, if_false]
    simp [RequestParser.goto, hp, authorityLine, methodLine, fullLine, atVersion, filled_nil]
  · have hbne : (method != ascii "OPTIONS") = true := by simpa using ho
    simp only [enterVersion, defaultOriginForm, hp, authorityLine, methodLine, hcstr, hbne,
      if_neg ho, if_true]
    simp [RequestParser.setOriginForm, RequestParser.setTarget, RequestParser.target,
      RequestParser.goto, hp, authorityLine, methodLine, fullLine, atVersion, hset]

theorem enterOgform_target {p : RequestParser} {method : Bytes} {type : TargetType}
    {h : HostText} {port : UInt16} (c : UInt8)
    (hp : p.request = targetLine method type h port) :
    enterOgform c p = atForm (formLine method type h port) [c] :=
  enterOgform_authority c hp

theorem enterVersion_target {p : RequestParser} {method : Bytes} {type : TargetType}
    {h : HostText} {port : UInt16} (htok : ∀ c ∈ method, isToken c = true)
    (hlen : method.length ≤ maxMethodLength)
    (hp : p.request = targetLine method type h port) :
    enterVersion p = atVersion (formLine method type h port
      (if method = ascii "OPTIONS" then [] else [chr '/'])) :=
  enterVersion_authority htok hlen hp

theorem feed_form {method tail : Bytes} {type : TargetType} {h : HostText} {port : UInt16}
    {c : UInt8} (hvis : ∀ b ∈ tail, isVchar b = true) (hlen : tail.length + 1 < maxOriginForm) :
    tail.foldl requestParserFeed (atForm (formLine method type h port) [c])
      = atForm (formLine method type h port) (c :: tail) := by
  apply @Lib.foldl_accumulates _ _ requestParserFeed
    (fun pre => atForm (formLine method type h port) (c :: pre)) tail
  intro pre b hpre
  have hb : isVchar b = true := hvis b (hpre.subset (by simp))
  have hspace : b ≠ chr ' ' := by
    rintro rfl
    revert hb
    decide
  have hlt : pre.length + 1 < maxOriginForm := by
    have := hpre.length_le
    simp at this
    omega
  have hset : (filled maxOriginForm (c :: pre)).set (pre.length + 1) b
      = filled maxOriginForm (c :: pre ++ [b]) := set_filled b rfl hlt
  simp [requestParserFeed, rTargetOgform, atForm, formLine, RequestParser.setOriginForm,
    RequestParser.setTarget, RequestParser.target, hspace, hset,
    show ¬ maxOriginForm ≤ pre.length + 1 by omega]

theorem feed_form_end {line : Bytes → RequestLine} {form : Bytes}
    (hlen : form.length < maxOriginForm) :
    requestParserFeed (atForm line form) (chr ' ') = atVersion (line form) := by
  simp [requestParserFeed, rTargetOgform, atForm, atVersion, RequestParser.goto,
    show ¬ maxOriginForm ≤ form.length by omega]

theorem feed_version {line : RequestLine} {major minor : UInt8}
    (hmajor : isDigit major = true) (hminor : isDigit minor = true) :
    (ascii "HTTP/" ++ [major, chr '.', minor] ++ [chr '\r']).foldl requestParserFeed
        (atVersion line)
      = { request := { line with
            versionMajor := major - chr '0', versionMinor := minor - chr '0' }
          state := .requestEnd
          i := 0
          n := 2 } := by
  have hname : (ascii "HTTP/").foldl requestParserFeed (atVersion line)
      = { request := line, state := .requestVersionMajor, i := 0, n := 2 } := by
    simp [ascii, requestParserFeed, rVersion, atVersion, versionLength, RequestParser.goto, chr]
  obtain ⟨_, _, hdot, _⟩ := digit_plain hmajor
  obtain ⟨_, _, _, hcr⟩ := digit_plain hminor
  rw [List.append_assoc, List.foldl_append, hname]
  simp [requestParserFeed, rVersionMajor, rVersionMinor, versionDigit, RequestParser.goto,
    hdot, hcr, hmajor, hminor]

/-! ## The whole line -/

namespace RequestText
variable (r : RequestText)

/-- The lengths that leave room for the delimiter. -/
def Fits : Prop :=
  r.method.length < maxMethodLength ∧ r.host.Fits ∧
    ∀ ds, r.port = some ds → ds.length < maxPortLength

/-- The line up to the end of its host. -/
def upToHost : Bytes := r.method ++ [chr ' '] ++ r.scheme ++ r.host.bytes

theorem upToCr_eq : r.upToCr
    = r.upToHost ++ r.portText ++ r.rest ++ [chr ' '] ++ (r.version ++ [chr '\r']) := by
  simp [upToCr, upToHost]

theorem feed_upToHost (hlen : r.method.length < maxMethodLength) :
    r.upToHost.foldl requestParserFeed requestParserInit
      = atHostEnd r.method (targetType r.method) r.host := by
  have hscheme : r.scheme.foldl requestParserFeed
      (requestParserFeed (atMethod r.method) (chr ' '))
      = atHost r.method (targetType r.method) .domain [] := by
    rw [feed_method_end r.method_token hlen, scheme, targetType]
    split
    · rfl
    · exact feed_scheme r.method
  rw [upToHost, List.foldl_append, List.foldl_append, List.foldl_append,
    feed_method r.method_token r.method_length.2, List.foldl_cons, List.foldl_nil, hscheme]
  exact feed_host r.host_length

theorem requestParserFeed_hostEnd {method : Bytes} {type : TargetType} {h : HostText}
    (c : UInt8) :
    requestParserFeed (atHostEnd method type h) c = rTargetHost c (atHostEnd method type h) := by
  cases h <;> rfl

theorem feed_colon {method : Bytes} {type : TargetType} {h : HostText}
    (hlen : h.bytes.length ≤ maxFqdnLength) (hfits : h.Fits) :
    requestParserFeed (atHostEnd method type h) (chr ':') = atPort method type h [] := by
  rw [requestParserFeed_hostEnd, rTargetHost_end hlen hfits (.inl rfl), leaveHost, if_pos rfl]
  simp [hostClosed, RequestParser.goto, atPort, targetLine]

/-- The authority ends at the byte that begins the origin form, or at a
space. -/
theorem feed_authority_end (hfits : r.Fits) {c : UInt8}
    (hc : endOfAuthority c = true ∨ c = chr ' ') :
    (r.portText ++ [c]).foldl requestParserFeed
        (atHostEnd r.method (targetType r.method) r.host)
      = if endOfAuthority c then
          atForm (formLine r.method (targetType r.method) r.host r.netPort) [c]
        else atVersion (formLine r.method (targetType r.method) r.host r.netPort
          (if r.method = ascii "OPTIONS" then [] else [chr '/'])) := by
  obtain ⟨_, hhost, hport⟩ := hfits
  have hleave : ∀ p : RequestParser,
      p.request = targetLine r.method (targetType r.method) r.host r.netPort →
      (if endOfAuthority c then enterOgform c p else enterVersion p)
        = if endOfAuthority c then
            atForm (formLine r.method (targetType r.method) r.host r.netPort) [c]
          else atVersion (formLine r.method (targetType r.method) r.host r.netPort
            (if r.method = ascii "OPTIONS" then [] else [chr '/'])) := by
    intro p hp
    rw [enterOgform_target c hp, enterVersion_target r.method_token r.method_length.2 hp]
  cases hr : r.port with
  | none =>
      have hcolon : c ≠ chr ':' := by
        rintro rfl
        revert hc
        decide
      have hnet : r.netPort = htons 80 := by simp [netPort, hr]
      have htext : r.portText = [] := by simp [portText, hr]
      rw [htext, List.nil_append, List.foldl_cons, List.foldl_nil, requestParserFeed_hostEnd,
        rTargetHost_end r.host_length hhost (.inr hc), leaveHost, if_neg hcolon]
      apply hleave
      rw [hnet]
      rfl
  | some ds =>
      obtain ⟨hdig, hpos, hmax, _⟩ := r.port_digits ds hr
      have hlt := hport ds hr
      have hnet : r.netPort = htons (digitsValue ds).toUInt16 := by simp [netPort, hr]
      have htext : r.portText = chr ':' :: ds := by simp [portText, hr]
      have hne : ds ≠ [] := by
        rintro rfl
        simp at hpos
      have hi : ¬ (atPort r.method (targetType r.method) r.host ds).i
          ≥ (atPort r.method (targetType r.method) r.host ds).n := by
        show ¬ ds.length ≥ maxPortLength
        omega
      rw [htext, List.cons_append, List.foldl_cons, feed_colon r.host_length hhost,
        List.foldl_append, feed_port hdig hmax, List.foldl_cons, List.foldl_nil]
      show rTargetPort c (atPort r.method (targetType r.method) r.host ds) = _
      rw [rTargetPort_end hi hc, closePort_atPort hne]
      apply hleave
      rw [hnet]

theorem feed_target_end (hfits : r.Fits) :
    (r.portText ++ r.rest ++ [chr ' ']).foldl requestParserFeed
        (atHostEnd r.method (targetType r.method) r.host)
      = atVersion (formLine r.method (targetType r.method) r.host r.netPort r.originForm) := by
  cases hrest : r.rest with
  | nil =>
      have hspace : endOfAuthority (chr ' ') = false := by decide
      rw [List.append_nil, feed_authority_end r hfits (.inr rfl), hspace, originForm, hrest]
      simp
  | cons c tail =>
      have hc : endOfAuthority c = true := r.rest_start c (by simp [hrest])
      have hvis : ∀ b ∈ tail, isVchar b = true := by
        intro b hb
        exact r.rest_visible b (by simp [hrest, hb])
      have hlen : tail.length + 1 < maxOriginForm := by
        have := r.rest_length
        simp [hrest, maxOriginForm] at this ⊢
        omega
      have hform : r.originForm = c :: tail := by simp [originForm, hrest]
      have hsplit : r.portText ++ c :: tail ++ [chr ' ']
          = (r.portText ++ [c]) ++ tail ++ [chr ' '] := by simp
      rw [hsplit, List.foldl_append, List.foldl_append, feed_authority_end r hfits (.inl hc),
        if_pos hc, feed_form hvis hlen, List.foldl_cons, List.foldl_nil,
        feed_form_end (by simpa using hlen), hform]

/-- What the parser has made of a line that fits, but for its line feed. -/
theorem feed_upToCr (hfits : r.Fits) :
    r.upToCr.foldl requestParserFeed requestParserInit
      = { request := r.line, state := .requestEnd, i := 0, n := 2 } := by
  have hsplit : r.upToCr = r.upToHost ++ (r.portText ++ r.rest ++ [chr ' ']) ++
      (r.version ++ [chr '\r']) := by simp [upToCr_eq]
  have htarget : (r.upToHost ++ (r.portText ++ r.rest ++ [chr ' '])).foldl
      requestParserFeed requestParserInit
      = atVersion (formLine r.method (targetType r.method) r.host r.netPort r.originForm) := by
    rw [List.foldl_append, feed_upToHost r hfits.1, feed_target_end r hfits]
  rw [hsplit, List.foldl_append, htarget, version, feed_version r.major_digit r.minor_digit]
  rfl

/-- A parser that has refused a prefix of the line does not accept the line. -/
theorem refused (pre more : Bytes) {p : RequestParser} (hsplit : r.bytes = pre ++ more)
    (hp : pre.foldl requestParserFeed requestParserInit = p) (hstop : p.Stopped)
    (hne : p.state ≠ .requestDone) :
    (r.bytes.foldl requestParserFeed requestParserInit).state ≠ .requestDone := by
  rw [hsplit, List.foldl_append, hp, Lib.foldl_stays (requestParserFeed_stopped hstop)]
  exact hne

/-- The line behind its host is not empty. -/
theorem exists_afterHost : ∃ c more, r.bytes = r.upToHost ++ [c] ++ more := by
  have hne : r.portText ++ r.rest ++ [chr ' '] ++ (r.version ++ [chr '\r']) ++ [chr '\n'] ≠ [] := by
    simp
  obtain ⟨c, more, hcons⟩ := List.exists_cons_of_ne_nil hne
  refine ⟨c, more, ?_⟩
  rw [bytes, upToCr_eq, List.append_assoc _ [c], List.singleton_append, ← hcons]
  simp

/-- Nor is what follows its port. -/
theorem exists_afterPort : ∃ c more, r.bytes = r.upToHost ++ (r.portText ++ [c]) ++ more := by
  have hne : r.rest ++ [chr ' '] ++ (r.version ++ [chr '\r']) ++ [chr '\n'] ≠ [] := by simp
  obtain ⟨c, more, hcons⟩ := List.exists_cons_of_ne_nil hne
  refine ⟨c, more, ?_⟩
  have hmore : r.bytes = r.upToHost ++ r.portText ++ (c :: more) := by
    rw [← hcons, bytes, upToCr_eq]
    simp
  rw [hmore]
  simp

theorem not_accepted_of_method (h : ¬ r.method.length < maxMethodLength) :
    (r.bytes.foldl requestParserFeed requestParserInit).state ≠ .requestDone := by
  have hstep : requestParserFeed (atMethod r.method) (chr ' ')
      = { atMethod r.method with state := .requestErrorUnsupportedMethod } := by
    simp [requestParserFeed, rMethod, atMethod, h]
  have hprefix : (r.method ++ [chr ' ']).foldl requestParserFeed requestParserInit
      = { atMethod r.method with state := .requestErrorUnsupportedMethod } := by
    rw [List.foldl_append, feed_method r.method_token r.method_length.2, List.foldl_cons,
      List.foldl_nil, hstep]
  apply r.refused (r.method ++ [chr ' ']) (r.scheme ++ r.host.bytes ++ r.portText ++ r.rest ++
    [chr ' '] ++ r.version ++ [chr '\r', chr '\n']) _ hprefix
  · simp [RequestParser.Stopped]
  · simp
  · simp [bytes, upToCr]

theorem not_accepted_of_host (hlen : r.method.length < maxMethodLength) (h : ¬ r.host.Fits) :
    (r.bytes.foldl requestParserFeed requestParserInit).state ≠ .requestDone := by
  obtain ⟨c, more, hsplit⟩ := r.exists_afterHost
  obtain ⟨hstop, hne⟩ := @rTargetHost_full r.method (targetType r.method) _ c r.host_length h
  apply r.refused _ _ hsplit _ hstop hne
  rw [List.foldl_append, r.feed_upToHost hlen, List.foldl_cons, List.foldl_nil,
    requestParserFeed_hostEnd]

theorem not_accepted_of_port (hlen : r.method.length < maxMethodLength) (hhost : r.host.Fits)
    {ds : Bytes} (hr : r.port = some ds) (h : ¬ ds.length < maxPortLength) :
    (r.bytes.foldl requestParserFeed requestParserInit).state ≠ .requestDone := by
  obtain ⟨c, more, hsplit⟩ := r.exists_afterPort
  obtain ⟨hdig, _, hmax, _⟩ := r.port_digits ds hr
  have hstep : requestParserFeed (atPort r.method (targetType r.method) r.host ds) c
      = (atPort r.method (targetType r.method) r.host ds).fail := by
    simp only [requestParserFeed, rTargetPort, atPort, ge_iff_le,
      show maxPortLength ≤ ds.length by omega, if_true]
  have hprefix : (r.upToHost ++ (r.portText ++ [c])).foldl requestParserFeed requestParserInit
      = (atPort r.method (targetType r.method) r.host ds).fail := by
    rw [List.foldl_append, r.feed_upToHost hlen, portText, hr]
    rw [List.cons_append, List.foldl_cons, feed_colon r.host_length hhost, List.foldl_append,
      feed_port hdig hmax, List.foldl_cons, List.foldl_nil, hstep]
  apply r.refused _ _ hsplit hprefix
  · simp [RequestParser.Stopped, RequestParser.fail]
  · simp [RequestParser.fail]

/-- The line is accepted with its last byte, nothing having stopped the parser
before, and decoded to what it encodes. -/
def Accepted : Prop :=
  Lib.Finishes requestParserFeed RequestParser.Stopped requestParserInit r.bytes ∧
    (r.bytes.foldl requestParserFeed requestParserInit).state = .requestDone ∧
    (r.bytes.foldl requestParserFeed requestParserInit).request = r.line

theorem accepted_of_fits (hfits : r.Fits) : r.Accepted := by
  have hrun := r.feed_upToCr hfits
  have hend : r.bytes.foldl requestParserFeed requestParserInit
      = { request := r.line, state := .requestDone, i := 0, n := 2 } := by
    rw [bytes, List.foldl_append, hrun]
    rfl
  refine ⟨?_, by rw [hend], by rw [hend]⟩
  apply Lib.finishes_of_last
  · intro p c hp
    rw [requestParserFeed_stopped hp]
    exact hp
  · rw [hrun]
    simp [RequestParser.Stopped]
  · rw [hrun]
    simp [RequestParser.Stopped, requestParserFeed, rEnd]

end RequestText

/-- A request line within the declared limits is accepted and decoded exactly
when its method, its registered name and its port are each a byte shorter than
the limit. -/
theorem request_line_accepted_iff (r : RequestText) :
    r.Accepted ↔
      r.method.length < maxMethodLength ∧
      (∀ text hname, r.host = .name text hname → text.length < maxFqdnLength) ∧
      ∀ ds, r.port = some ds → ds.length < maxPortLength := by
  have hhost : r.host.Fits ↔
      ∀ text hname, r.host = .name text hname → text.length < maxFqdnLength := by
    cases r.host with
    | name text hname =>
        constructor
        · intro h text' hname' he
          cases he
          exact h
        · intro h
          exact h text hname rfl
    | bracketed text addr hparses =>
        constructor
        · intro _ text' hname' he
          cases he
        · intro _
          trivial
  rw [← hhost]
  constructor
  · intro h
    by_cases hmethod : r.method.length < maxMethodLength
    · by_cases hfits : r.host.Fits
      · refine ⟨hmethod, hfits, ?_⟩
        intro ds hr
        by_cases hport : ds.length < maxPortLength
        · exact hport
        · exact absurd h.2.1 (r.not_accepted_of_port hmethod hfits hr hport)
      · exact absurd h.2.1 (r.not_accepted_of_host hmethod hfits)
    · exact absurd h.2.1 (r.not_accepted_of_method hmethod)
  · exact r.accepted_of_fits

/-- `GET http://a:10000 HTTP/1.0`. -/
def fiveDigitPort : RequestText where
  method := ascii "GET"
  host := .name (ascii "a") (List.all_eq_true.mp (by decide))
  port := some (ascii "10000")
  rest := []
  major := chr '1'
  minor := chr '0'
  method_token := List.all_eq_true.mp (by decide)
  method_length := by decide
  host_length := by decide
  port_digits := by
    intro ds h
    cases h
    exact ⟨List.all_eq_true.mp (by decide), by decide⟩
  rest_start := by simp
  rest_visible := by simp
  rest_length := by decide
  rest_connect := by decide
  major_digit := by decide
  minor_digit := by decide

theorem five_digit_port_refused :
    fiveDigitPort.bytes = ascii "GET http://a:10000 HTTP/1.0\r\n" ∧
      ¬ fiveDigitPort.Accepted := by
  refine ⟨by decide +kernel, ?_⟩
  intro h
  have hstate : (fiveDigitPort.bytes.foldl requestParserFeed requestParserInit).state
      = .requestError := by decide +kernel
  cases hstate.symm.trans h.2.1

end HttpdProxy
