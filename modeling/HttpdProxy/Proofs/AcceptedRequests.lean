import HttpdProxy.Proofs.StatusLines

/-!
# What the request line parser accepts

Any bytes that drive the parser to its end are a request line of a grammar
that is wider than the declared one, and are decoded as that grammar says. The
method may be empty, the host be any bytes that do not end it, an opening
bracket be repeated and the closing one be anything, a port have no digits, the
origin form be any bytes but a space, and the digits of the version be missing.
-/

namespace HttpdProxy

/-! ## The grammar of the parser -/

/-- A byte that does not end the authority. -/
def isAuthorityByte (c : UInt8) : Bool := !endOfAuthority c && c != chr ' '

/-- A host as the parser takes it: any text up to a colon, or what follows
opening brackets, of which the last byte is dropped. -/
inductive HostSpelling where
  | name (text : Bytes) (plain : ∀ c ∈ text, isAuthorityByte c = true ∧ c ≠ chr ':')
      (no_bracket : text.head? ≠ some (chr '[')) (length : text.length < maxFqdnLength)
  | literal (opens : Nat) (text : Bytes) (last : UInt8) (addr : Bytes)
      (plain : ∀ c ∈ text ++ [last], isAuthorityByte c = true)
      (no_bracket : (text ++ [last]).head? ≠ some (chr '['))
      (length : (text ++ [last]).length < maxFqdnLength)
      (parses : inetPton6 (cstr text) = some addr)

namespace HostSpelling

def bytes : HostSpelling → Bytes
  | .name text _ _ _ => text
  | .literal opens text last _ _ _ _ _ => List.replicate (opens + 1) (chr '[') ++ (text ++ [last])

def type : HostSpelling → HostType
  | .name text _ _ _ => if (inetPton4 (cstr text)).isSome then .ipv4 else .domain
  | .literal _ _ _ _ _ _ _ _ => .ipv6

/-- What it is decoded to, with the port (in network order) of the target. -/
def host (port : UInt16) : HostSpelling → Host
  | .name text _ _ _ =>
      match inetPton4 (cstr text) with
      | some addr => .ipv4 { port := port, addr := addr }
      | none => .domain (filled (maxFqdnLength + 1) text)
  | .literal _ _ _ addr _ _ _ _ => .ipv6 { port := port, addr := addr }

/-- A port follows a bracket, or a name. -/
def TakesPort : HostSpelling → Prop
  | .name _ _ _ _ => True
  | .literal _ _ last _ _ _ _ _ => last = chr ']'

end HostSpelling

def portBytes : Option Bytes → Bytes
  | none => []
  | some ds => chr ':' :: ds

/-- What stands between the space behind the method and the host. -/
def schemeOf (method : Bytes) : Bytes := if method = ascii "CONNECT" then [] else ascii "http://"

/-- The port in network order. Without digits it is what the default port
becomes when it is converted once more. -/
def netPortOf : Option Bytes → UInt16
  | none => htons 80
  | some ds => htons (if ds = [] then htons 80 else (digitsValue ds).toUInt16)

/-- A request line up to the space behind its target. -/
structure RequestFront where
  method : Bytes
  host : HostSpelling
  port : Option Bytes
  rest : Bytes
  method_token : ∀ c ∈ method, isToken c = true
  method_length : method.length < maxMethodLength
  takes_port : port ≠ none → host.TakesPort
  port_digits : ∀ ds, port = some ds → (∀ d ∈ ds, isDigit d = true) ∧ ds.length < maxPortLength
  rest_start : ∀ c, rest.head? = some c → endOfAuthority c = true
  rest_plain : ∀ c ∈ rest, c ≠ chr ' '
  rest_length : rest.length < maxOriginForm

namespace RequestFront
variable (r : RequestFront)

def authority : Bytes := r.host.bytes ++ portBytes r.port

def bytes : Bytes :=
  r.method ++ [chr ' '] ++ schemeOf r.method ++ r.authority ++ r.rest ++ [chr ' ']

/-- The origin form: what follows the authority, or `/`. -/
def form : Bytes :=
  if r.rest = [] then (if r.method = ascii "OPTIONS" then [] else [chr '/']) else r.rest

/-- The request line that is decoded, its version still unknown. -/
def line : RequestLine :=
  fullLine r.method (targetType r.method) r.host.type (r.host.host (netPortOf r.port))
    (netPortOf r.port) r.form

end RequestFront

/-- A request line as the parser takes it. -/
structure AcceptedRequest extends RequestFront where
  major : Bytes
  minor : Bytes
  major_digit : VersionDigit major
  minor_digit : VersionDigit minor

namespace AcceptedRequest
variable (r : AcceptedRequest)

def upToLf : Bytes :=
  r.toRequestFront.bytes ++ ascii "HTTP/" ++ r.major ++ [chr '.'] ++ r.minor ++ [chr '\r']

def bytes : Bytes := r.upToLf ++ [chr '\n']

def line : RequestLine :=
  { r.toRequestFront.line with
    versionMajor := byteValue r.major
    versionMinor := byteValue r.minor }

end AcceptedRequest

/-! ## Where the parser stands -/

namespace RequestParser

def portAt (method : Bytes) (h : HostSpelling) (ds : Bytes) : RequestParser where
  request := authorityLine method (targetType method) h.type (h.host (htons 80))
    (if ds = [] then htons 80 else (digitsValue ds).toUInt16)
  state := .requestTargetPort
  i := ds.length
  n := maxPortLength

def versionAt (line : RequestLine) (k : Nat) : RequestParser where
  request := line
  state := .requestVersion
  i := k
  n := versionLength

def majorAt (line : RequestLine) (ds : Bytes) : RequestParser where
  request := { line with versionMajor := byteValue ds }
  state := .requestVersionMajor
  i := ds.length
  n := 2

def minorAt (line : RequestLine) (major ds : Bytes) : RequestParser where
  request := { line with versionMajor := byteValue major, versionMinor := byteValue ds }
  state := .requestVersionMinor
  i := ds.length
  n := 2

def endAt (r : AcceptedRequest) (s : RequestState) : RequestParser where
  request := r.line
  state := s
  i := 0
  n := 2

/-- The text that has led the parser to where it stands. -/
inductive Reads : Bytes → RequestParser → Prop where
  | method {text method : Bytes} : (∀ c ∈ method, isToken c = true) →
      method.length ≤ maxMethodLength → text = method → Reads text (atMethod method)
  | scheme {text method : Bytes} {k : Nat} : (∀ c ∈ method, isToken c = true) →
      method.length < maxMethodLength → method ≠ ascii "CONNECT" → k < schemeLength →
      text = method ++ [chr ' '] ++ (ascii "http://").take k →
      Reads text (atScheme method ((ascii "http://").take k))
  | name {text method host : Bytes} : (∀ c ∈ method, isToken c = true) →
      method.length < maxMethodLength →
      (∀ c ∈ host, isAuthorityByte c = true ∧ c ≠ chr ':') → host.head? ≠ some (chr '[') →
      host.length ≤ maxFqdnLength →
      text = method ++ [chr ' '] ++ schemeOf method ++ host →
      Reads text (atHost method (targetType method) .domain host)
  | literal {text method host : Bytes} {opens : Nat} : (∀ c ∈ method, isToken c = true) →
      method.length < maxMethodLength → (∀ c ∈ host, isAuthorityByte c = true) →
      host.head? ≠ some (chr '[') → host.length ≤ maxFqdnLength →
      text = method ++ [chr ' '] ++ schemeOf method ++
        (List.replicate (opens + 1) (chr '[') ++ host) →
      Reads text (atHost method (targetType method) .ipv6 host)
  | port {text method ds : Bytes} {h : HostSpelling} : (∀ c ∈ method, isToken c = true) →
      method.length < maxMethodLength → h.TakesPort → (∀ d ∈ ds, isDigit d = true) →
      ds.length ≤ maxPortLength →
      text = method ++ [chr ' '] ++ schemeOf method ++ (h.bytes ++ (chr ':' :: ds)) →
      Reads text (portAt method h ds)
  | form {text : Bytes} {c : UInt8} {tail : Bytes} (r : RequestFront) : r.rest = [] →
      endOfAuthority c = true → (∀ c ∈ tail, c ≠ chr ' ') → tail.length + 1 ≤ maxOriginForm →
      text = r.method ++ [chr ' '] ++ schemeOf r.method ++ r.authority ++ (c :: tail) →
      Reads text (atForm (fullLine r.method (targetType r.method) r.host.type
        (r.host.host (netPortOf r.port)) (netPortOf r.port)) (c :: tail))
  | version {text : Bytes} {k : Nat} (r : RequestFront) : k < 5 →
      text = r.bytes ++ (ascii "HTTP/").take k → Reads text (versionAt r.line k)
  | major {text ds : Bytes} (r : RequestFront) : (∀ d ∈ ds, isDigit d = true) →
      ds.length ≤ 2 → text = r.bytes ++ ascii "HTTP/" ++ ds → Reads text (majorAt r.line ds)
  | minor {text major ds : Bytes} (r : RequestFront) : VersionDigit major →
      (∀ d ∈ ds, isDigit d = true) → ds.length ≤ 2 →
      text = r.bytes ++ ascii "HTTP/" ++ major ++ [chr '.'] ++ ds →
      Reads text (minorAt r.line major ds)
  | ending {text : Bytes} (r : AcceptedRequest) : text ++ [chr '\n'] = r.bytes →
      Reads text (endAt r .requestEnd)
  | done {text : Bytes} (r : AcceptedRequest) (more : Bytes) : text = r.bytes ++ more →
      Reads text (endAt r .requestDone)
  | failed {text : Bytes} {p : RequestParser} : p.Stopped → p.state ≠ .requestDone → Reads text p

theorem reads_fail {text : Bytes} {p : RequestParser} : Reads text p.fail :=
  .failed (.inr (.inl rfl)) (by simp [fail])

theorem reads_unsupportedMethod {text : Bytes} {p : RequestParser} :
    Reads text { p with state := .requestErrorUnsupportedMethod } :=
  .failed (.inr (.inr (.inr rfl))) (by simp)

theorem reads_unsupportedVersion {text : Bytes} {p : RequestParser} :
    Reads text { p with state := .requestErrorUnsupportedVersion } :=
  .failed (.inr (.inr (.inl rfl))) (by simp)

/-! ## The method and the scheme -/

theorem reads_method {method : Bytes} {c : UInt8} (htok : ∀ c ∈ method, isToken c = true) :
    Reads (method ++ [c]) (requestParserFeed (atMethod method) c) := by
  by_cases hlt : method.length < maxMethodLength
  · by_cases hc : isToken c = true
    · have hfeed : requestParserFeed (atMethod method) c = atMethod (method ++ [c]) := by
        simp [requestParserFeed, rMethod, atMethod, methodLine, hlt, hc,
          set_filled c rfl (show method.length < maxMethodLength + 1 by omega)]
      rw [hfeed]
      exact .method (all_append htok hc) (by simp; omega) rfl
    · by_cases hspace : c = chr ' '
      · rw [hspace, feed_method_end htok hlt]
        split
        · next hconnect =>
            have htype : TargetType.authorityForm = targetType method := by
              simp [targetType, hconnect]
            rw [htype]
            exact .name htok hlt (by simp) (by simp) (by simp) (by simp [schemeOf, hconnect])
        · next hconnect =>
            exact .scheme (k := 0) htok hlt hconnect (by decide) (by simp)
      · have hfeed : requestParserFeed (atMethod method) c
            = { atMethod method with state := .requestErrorUnsupportedMethod } := by
          simp [requestParserFeed, rMethod, atMethod, hc, hspace]
        rw [hfeed]
        exact reads_unsupportedMethod
  · have hfeed : requestParserFeed (atMethod method) c
        = { atMethod method with state := .requestErrorUnsupportedMethod } := by
      simp [requestParserFeed, rMethod, atMethod, hlt]
    rw [hfeed]
    exact reads_unsupportedMethod

theorem take_scheme {k : Nat} (hk : k < schemeLength) :
    (ascii "http://").take k ++ [(ascii "http://").getD k 0] = (ascii "http://").take (k + 1) := by
  match k, hk with
  | 0, _ | 1, _ | 2, _ | 3, _ | 4, _ | 5, _ | 6, _ => decide

theorem reads_scheme {method : Bytes} {c : UInt8} {k : Nat}
    (htok : ∀ c ∈ method, isToken c = true) (hlen : method.length < maxMethodLength)
    (hconnect : method ≠ ascii "CONNECT") (hk : k < schemeLength) :
    Reads (method ++ [chr ' '] ++ (ascii "http://").take k ++ [c])
      (requestParserFeed (atScheme method ((ascii "http://").take k)) c) := by
  have hi : ((ascii "http://").take k).length = k := by
    have hlong : (ascii "http://").length = schemeLength := by decide
    rw [List.length_take, hlong]
    omega
  by_cases hc : (ascii "http://").getD k 0 = c
  · rw [← hc, List.append_assoc, take_scheme hk]
    have hgood : ¬ ((atScheme method ((ascii "http://").take k)).i
          ≥ (atScheme method ((ascii "http://").take k)).n ∨
        (ascii "http://").getD (atScheme method ((ascii "http://").take k)).i 0
          ≠ (ascii "http://").getD k 0) := by
      simp only [atScheme, hi, ne_eq, not_true_eq_false, or_false]
      omega
    show Reads _ (rTargetScheme _ (atScheme method ((ascii "http://").take k)))
    rw [rTargetScheme, if_neg hgood]
    simp only [atScheme, hi]
    by_cases hlast : k = schemeLength - 1
    · rw [if_pos hlast, goto, methodLine_eq]
      have htype : TargetType.absoluteForm = targetType method := by
        simp [targetType, hconnect]
      rw [htype]
      refine .name htok hlen (by simp) (by simp) (by simp) ?_
      have htake : (ascii "http://").take (k + 1) = ascii "http://" := by
        rw [hlast]
        decide
      rw [htake, schemeOf, if_neg hconnect, List.append_nil]
    · rw [if_neg hlast]
      have hlt : k + 1 < schemeLength := by omega
      have hnext : (k + 1) = ((ascii "http://").take (k + 1)).length := by
        have hlong : (ascii "http://").length = schemeLength := by decide
        rw [List.length_take, hlong]
        omega
      have hfeed := Reads.scheme htok hlen hconnect hlt rfl
      simp only [atScheme, ← hnext] at hfeed
      exact hfeed
  · have hbad : (atScheme method ((ascii "http://").take k)).i
          ≥ (atScheme method ((ascii "http://").take k)).n ∨
        (ascii "http://").getD (atScheme method ((ascii "http://").take k)).i 0 ≠ c := by
      refine .inr ?_
      simp only [atScheme, hi]
      exact hc
    have hfeed : requestParserFeed (atScheme method ((ascii "http://").take k)) c
        = (atScheme method ((ascii "http://").take k)).fail := by
      show rTargetScheme c _ = _
      rw [rTargetScheme, if_pos hbad]
    rw [hfeed]
    exact reads_fail

/-! ## The end of the authority -/

/-- The authority ends at the byte that begins the origin form, or at a
space. -/
theorem reads_leave {r : RequestFront} {closed : RequestParser} {c : UInt8} (hrest : r.rest = [])
    (hclosed : closed.request = authorityLine r.method (targetType r.method) r.host.type
      (r.host.host (netPortOf r.port)) (netPortOf r.port))
    (hc : endOfAuthority c = true ∨ c = chr ' ') :
    Reads (r.method ++ [chr ' '] ++ schemeOf r.method ++ r.authority ++ [c])
      (if endOfAuthority c then enterOgform c closed else enterVersion closed) := by
  have hlen := r.method_length
  by_cases hend : endOfAuthority c = true
  · rw [if_pos hend, enterOgform_authority c hclosed]
    exact .form r hrest hend (by simp) (by simp [maxOriginForm]) rfl
  · rw [if_neg hend, enterVersion_authority r.method_token (by omega) hclosed]
    have hline : fullLine r.method (targetType r.method) r.host.type
        (r.host.host (netPortOf r.port)) (netPortOf r.port)
        (if r.method = ascii "OPTIONS" then [] else [chr '/']) = r.line := by
      rw [RequestFront.line, RequestFront.form, if_pos hrest]
    rw [hline]
    refine .version (k := 0) r (by omega) ?_
    rw [hc.resolve_left hend, RequestFront.bytes, hrest]
    simp

theorem endOfAuthority_nil : ∀ c, ([] : Bytes).head? = some c → endOfAuthority c = true := by
  simp

/-- A request line that has come as far as its host. -/
def hostFront (method : Bytes) (h : HostSpelling) (htok : ∀ c ∈ method, isToken c = true)
    (hlen : method.length < maxMethodLength) : RequestFront where
  method := method
  host := h
  port := none
  rest := []
  method_token := htok
  method_length := hlen
  takes_port := fun h => absurd rfl h
  port_digits := by simp
  rest_start := endOfAuthority_nil
  rest_plain := by simp
  rest_length := by decide

theorem reads_leaveHost {method : Bytes} {h : HostSpelling} {closed : RequestParser} {c : UInt8}
    (htok : ∀ c ∈ method, isToken c = true) (hlen : method.length < maxMethodLength)
    (hclosed : closed.request = authorityLine method (targetType method) h.type
      (h.host (htons 80)) (htons 80))
    (hc : EndsHost c) (hport : c = chr ':' → h.TakesPort) :
    Reads (method ++ [chr ' '] ++ schemeOf method ++ h.bytes ++ [c]) (leaveHost c closed) := by
  rw [leaveHost]
  by_cases hcolon : c = chr ':'
  · have hat : closed.goto .requestTargetPort 0 maxPortLength = portAt method h [] := by
      rw [goto, hclosed]
      rfl
    rw [if_pos hcolon, hat, hcolon]
    exact .port htok hlen (hport hcolon) (by simp) (by simp) (by simp)
  · rw [if_neg hcolon]
    have hleave := @reads_leave (hostFront method h htok hlen) closed c rfl hclosed
      (hc.resolve_left hcolon)
    simpa [hostFront, RequestFront.authority, portBytes] using hleave

theorem endsHost_of_not {c : UInt8} (h : isAuthorityByte c = false) :
    endOfAuthority c = true ∨ c = chr ' ' := by
  by_cases hend : endOfAuthority c = true
  · exact .inl hend
  · right
    simpa [isAuthorityByte, hend] using h

theorem authorityByte_plain {c : UInt8} (h : isAuthorityByte c = true) :
    ¬ endOfAuthority c = true ∧ c ≠ chr ' ' := by
  constructor
  · intro hend
    simp [isAuthorityByte, hend] at h
  · rintro rfl
    simp [isAuthorityByte] at h

/-- What `parse_ipv4` makes of any name. -/
theorem parseIpv4_request {method text : Bytes} {type : TargetType}
    (plain : ∀ c ∈ text, isAuthorityByte c = true ∧ c ≠ chr ':')
    (no_bracket : text.head? ≠ some (chr '[')) (length : text.length < maxFqdnLength) :
    (parseIpv4 (atHost method type .domain text)).request
      = authorityLine method type (HostSpelling.name text plain no_bracket length).type
          ((HostSpelling.name text plain no_bracket length).host (htons 80)) (htons 80) := by
  cases ha : inetPton4 (cstr text) <;>
    simp [parseIpv4, atHost, authorityLine, HostSpelling.type, HostSpelling.host,
      RequestParser.target, RequestParser.setTarget, Host.text, cstr_filled_eq, ha]

theorem authority_of_not_endsHost {c : UInt8} (h : ¬ EndsHost c) :
    isAuthorityByte c = true ∧ c ≠ chr ':' := by
  refine ⟨?_, fun hcolon => h (.inl hcolon)⟩
  cases hc : isAuthorityByte c with
  | true => rfl
  | false => exact absurd (.inr (endsHost_of_not hc)) h

/-- Any other byte is stored, in a name as behind a bracket. -/
theorem rTargetHost_name_store {method : Bytes} {type : TargetType} {host : Bytes} {c : UInt8}
    (hopen : ¬ (host.length = 0 ∧ c = chr '[')) (hc : ¬ EndsHost c)
    (hlt : host.length < maxFqdnLength) :
    rTargetHost c (atHost method type .domain host) = atHost method type .domain (host ++ [c]) := by
  obtain ⟨hauth, hcolon⟩ := authority_of_not_endsHost hc
  obtain ⟨hend, hspace⟩ := authorityByte_plain hauth
  have hopen' : ¬ (host = [] ∧ c = chr '[') := by
    simpa using hopen
  simp [rTargetHost, atHost, authorityLine, RequestParser.target, RequestParser.setDomain,
    RequestParser.setTarget, Host.text, setInt, hopen', hcolon, hend, hspace,
    show ¬ maxFqdnLength ≤ host.length by omega,
    set_filled c rfl (show host.length < maxFqdnLength + 1 by omega)]

theorem rTargetHost_literal_store {method : Bytes} {type : TargetType} {host : Bytes} {c : UInt8}
    (hopen : ¬ (host.length = 0 ∧ c = chr '[')) (hc : isAuthorityByte c = true)
    (hcolon : ¬ (c = chr ':' ∧
      getInt (filled (maxFqdnLength + 1) host) ((host.length : Int) - 1) = chr ']'))
    (hlt : host.length < maxFqdnLength) :
    rTargetHost c (atHost method type .ipv6 host) = atHost method type .ipv6 (host ++ [c]) := by
  obtain ⟨hend, hspace⟩ := authorityByte_plain hc
  have hopen' : ¬ (host = [] ∧ c = chr '[') := by
    simpa using hopen
  simp [rTargetHost, atHost, authorityLine, RequestParser.target, RequestParser.setDomain,
    RequestParser.setTarget, Host.text, setInt, hopen', hcolon, hend, hspace,
    show ¬ maxFqdnLength ≤ host.length by omega,
    set_filled c rfl (show host.length < maxFqdnLength + 1 by omega)]

/-- No bracket opens a host that has begun otherwise. -/
theorem head_append {host : Bytes} {c : UInt8} (hbracket : host.head? ≠ some (chr '['))
    (hopen : ¬ (host.length = 0 ∧ c = chr '[')) : (host ++ [c]).head? ≠ some (chr '[') := by
  cases host with
  | nil =>
      intro h
      exact hopen ⟨rfl, by simpa using h⟩
  | cons x host => simpa using hbracket

theorem reads_name {method host : Bytes} {c : UInt8} (htok : ∀ c ∈ method, isToken c = true)
    (hlen : method.length < maxMethodLength)
    (hplain : ∀ c ∈ host, isAuthorityByte c = true ∧ c ≠ chr ':')
    (hbracket : host.head? ≠ some (chr '[')) (hmax : host.length ≤ maxFqdnLength) :
    Reads (method ++ [chr ' '] ++ schemeOf method ++ host ++ [c])
      (requestParserFeed (atHost method (targetType method) .domain host) c) := by
  have hfeed : requestParserFeed (atHost method (targetType method) .domain host) c
      = rTargetHost c (atHost method (targetType method) .domain host) := rfl
  have htype : (atHost method (targetType method) .domain host).target.hostType ≠ .ipv6 := by
    intro he
    cases he
  rw [hfeed]
  by_cases hlt : host.length < maxFqdnLength
  · have hi : ¬ (atHost method (targetType method) .domain host).i
        ≥ (atHost method (targetType method) .domain host).n := by
      show ¬ host.length ≥ maxFqdnLength
      omega
    by_cases hends : EndsHost c
    · rw [rTargetHost_name hi htype hends]
      exact reads_leaveHost (h := .name host hplain hbracket hlt) htok hlen
        (parseIpv4_request hplain hbracket hlt) hends (fun _ => trivial)
    · by_cases hopen : host.length = 0 ∧ c = chr '['
      · obtain ⟨hnil, rfl⟩ := hopen
        obtain rfl := List.length_eq_zero_iff.mp hnil
        have hrun := feed_open method (targetType method)
        rw [← hfeed, hrun]
        exact @Reads.literal _ _ _ 0 htok hlen (by simp) (by simp) (by simp) (by simp)
      · rw [rTargetHost_name_store hopen hends hlt]
        exact .name htok hlen (all_append hplain (authority_of_not_endsHost hends))
          (head_append hbracket hopen) (by simp; omega) (by simp)
  · have hi : (atHost method (targetType method) .domain host).i
        ≥ (atHost method (targetType method) .domain host).n := by
      show host.length ≥ maxFqdnLength
      omega
    rw [rTargetHost, if_pos hi]
    exact reads_fail

/-- What `parse_ipv6` makes of what stands behind the brackets: its last byte
is overwritten first. -/
theorem parseIpv6_request {method text : Bytes} {type : TargetType} {last : UInt8}
    (hlen : (text ++ [last]).length < maxFqdnLength) :
    parseIpv6 ((atHost method type .ipv6 (text ++ [last])).setDomain
        (((text ++ [last]).length : Int) - 1) 0)
      = (inetPton6 (cstr text)).map fun addr =>
          { atHost method type .ipv6 (text ++ [last]) with
            request := authorityLine method type .ipv6
              (.ipv6 { port := htons 80, addr := addr }) (htons 80) } := by
  have hlt : text.length < maxFqdnLength + 1 := by
    simp at hlen
    omega
  have hidx : ((text ++ [last]).length : Int) - 1 = (text.length : Int) := by simp
  rw [hidx]
  cases ha : inetPton6 (cstr text) <;>
    simp [parseIpv6, atHost, authorityLine, RequestParser.target, RequestParser.setTarget,
      RequestParser.setDomain, Host.text, setInt, set_filled_zero rfl hlt, cstr_filled_eq, ha]

/-- Brackets without anything in them hold no address. -/
theorem parseIpv6_empty {method : Bytes} {type : TargetType} :
    parseIpv6 ((atHost method type .ipv6 []).setDomain ((([] : Bytes).length : Int) - 1) 0)
      = none := by
  have hempty : inetPton6 (cstr (filled (maxFqdnLength + 1) [])) = none := by
    rw [cstr_filled_eq]
    rfl
  simp [parseIpv6, atHost, authorityLine, RequestParser.target, RequestParser.setTarget,
    RequestParser.setDomain, Host.text, setInt, hempty]

theorem getInt_last {text : Bytes} {last : UInt8} :
    getInt (filled (maxFqdnLength + 1) (text ++ [last])) (((text ++ [last]).length : Int) - 1)
      = last := by
  have hidx : ((text ++ [last]).length : Int) - 1 = (text.length : Int) := by simp
  rw [hidx, getInt, if_pos (by omega), Int.toNat_natCast, getD_filled_last rfl]

theorem reads_literal_end {method host : Bytes} {c : UInt8} {opens : Nat}
    (htok : ∀ c ∈ method, isToken c = true) (hlen : method.length < maxMethodLength)
    (hplain : ∀ c ∈ host, isAuthorityByte c = true) (hbracket : host.head? ≠ some (chr '['))
    (hlt : host.length < maxFqdnLength) (hends : EndsHost c)
    (hcolon : c = chr ':' →
      getInt (filled (maxFqdnLength + 1) host) ((host.length : Int) - 1) = chr ']') :
    Reads (method ++ [chr ' '] ++ schemeOf method ++
        (List.replicate (opens + 1) (chr '[') ++ host) ++ [c])
      (rTargetHost c (atHost method (targetType method) .ipv6 host)) := by
  have hi : ¬ (atHost method (targetType method) .ipv6 host).i
      ≥ (atHost method (targetType method) .ipv6 host).n := by
    show ¬ host.length ≥ maxFqdnLength
    omega
  rw [rTargetHost_bracketed hi rfl hcolon hends]
  rcases List.eq_nil_or_concat host with rfl | ⟨text, last, rfl⟩
  · have hnone := @parseIpv6_empty method (targetType method)
    simp only [atHost] at hnone ⊢
    rw [hnone]
    exact reads_fail
  · rw [List.concat_eq_append] at hplain hbracket hlt hcolon ⊢
    have hparsed := @parseIpv6_request method text (targetType method) last hlt
    cases ha : inetPton6 (cstr text) with
    | none =>
        rw [ha, Option.map_none] at hparsed
        simp only [atHost] at hparsed ⊢
        rw [hparsed]
        exact reads_fail
    | some addr =>
        rw [ha, Option.map_some] at hparsed
        simp only [atHost] at hparsed ⊢
        rw [hparsed]
        refine reads_leaveHost (h := .literal opens text last addr hplain hbracket hlt ha) htok
          hlen rfl hends ?_
        intro hc
        have hlast := hcolon hc
        rw [getInt_last] at hlast
        exact hlast

theorem reads_literal {method host : Bytes} {c : UInt8} {opens : Nat}
    (htok : ∀ c ∈ method, isToken c = true) (hlen : method.length < maxMethodLength)
    (hplain : ∀ c ∈ host, isAuthorityByte c = true) (hbracket : host.head? ≠ some (chr '['))
    (hmax : host.length ≤ maxFqdnLength) :
    Reads (method ++ [chr ' '] ++ schemeOf method ++
        (List.replicate (opens + 1) (chr '[') ++ host) ++ [c])
      (requestParserFeed (atHost method (targetType method) .ipv6 host) c) := by
  have hfeed : requestParserFeed (atHost method (targetType method) .ipv6 host) c
      = rTargetHost c (atHost method (targetType method) .ipv6 host) := rfl
  rw [hfeed]
  by_cases hlt : host.length < maxFqdnLength
  · by_cases hopen : host.length = 0 ∧ c = chr '['
    · obtain ⟨hnil, rfl⟩ := hopen
      obtain rfl := List.length_eq_zero_iff.mp hnil
      have hagain : rTargetHost (chr '[') (atHost method (targetType method) .ipv6 [])
          = atHost method (targetType method) .ipv6 [] := by
        simp [rTargetHost, atHost, authorityLine, RequestParser.target,
          RequestParser.setTarget, maxFqdnLength]
      rw [hagain]
      refine @Reads.literal _ _ _ (opens + 1) htok hlen (by simp) (by simp) (by simp) ?_
      have hmore : List.replicate (opens + 1 + 1) (chr '[')
          = List.replicate (opens + 1) (chr '[') ++ [chr '['] := List.replicate_succ'
      rw [hmore]
      simp
    · by_cases hcolon : c = chr ':' ∧
          getInt (filled (maxFqdnLength + 1) host) ((host.length : Int) - 1) = chr ']'
      · exact reads_literal_end htok hlen hplain hbracket hlt (.inl hcolon.1) fun _ => hcolon.2
      · cases hauth : isAuthorityByte c with
        | false =>
            refine reads_literal_end htok hlen hplain hbracket hlt
              (.inr (endsHost_of_not hauth)) ?_
            rintro rfl
            exact absurd hauth (by decide)
        | true =>
            rw [rTargetHost_literal_store hopen hauth hcolon hlt]
            exact @Reads.literal _ _ _ opens htok hlen (all_append hplain hauth)
              (head_append hbracket hopen) (by simp; omega) (by simp)
  · have hi : (atHost method (targetType method) .ipv6 host).i
        ≥ (atHost method (targetType method) .ipv6 host).n := by
      show host.length ≥ maxFqdnLength
      omega
    rw [rTargetHost, if_pos hi]
    exact reads_fail

/-! ## The port and the origin form -/

/-- The port reaches the address as well. -/
theorem closePort_request {method ds : Bytes} {h : HostSpelling} :
    (closePort (portAt method h ds)).request
      = authorityLine method (targetType method) h.type (h.host (netPortOf (some ds)))
          (netPortOf (some ds)) := by
  cases h with
  | name text plain no_bracket length =>
      cases ha : inetPton4 (cstr text) <;>
        simp [closePort, assignPort, portAt, authorityLine, RequestParser.target,
          RequestParser.setTarget, HostSpelling.type, HostSpelling.host, netPortOf, ha]
  | literal opens text last addr plain no_bracket length parses =>
      simp [closePort, assignPort, portAt, authorityLine, RequestParser.target,
        RequestParser.setTarget, HostSpelling.type, HostSpelling.host, netPortOf]

theorem feed_portAt {method ds : Bytes} {h : HostSpelling} {d : UInt8} (hd : isDigit d = true)
    (hlt : ds.length < maxPortLength) :
    requestParserFeed (portAt method h ds) d = portAt method h (ds ++ [d]) := by
  obtain ⟨hend, hspace, _, _⟩ := digit_plain hd
  by_cases hnil : ds = []
  · subst hnil
    simp [requestParserFeed, rTargetPort, portAt, authorityLine, RequestParser.target,
      RequestParser.setTarget, hend, hspace, hd, maxPortLength, digitsValue]
  · simp [requestParserFeed, rTargetPort, portAt, authorityLine, RequestParser.target,
      RequestParser.setTarget, hend, hspace, hd, hnil, digitsValue_append,
      show ¬ maxPortLength ≤ ds.length by omega]

/-- A request line that has come as far as its port. -/
def portFront (method : Bytes) (h : HostSpelling) (ds : Bytes)
    (htok : ∀ c ∈ method, isToken c = true) (hlen : method.length < maxMethodLength)
    (htakes : h.TakesPort) (hdig : ∀ d ∈ ds, isDigit d = true)
    (hmax : ds.length < maxPortLength) : RequestFront where
  method := method
  host := h
  port := some ds
  rest := []
  method_token := htok
  method_length := hlen
  takes_port := fun _ => htakes
  port_digits := by
    intro ds' he
    cases he
    exact ⟨hdig, hmax⟩
  rest_start := endOfAuthority_nil
  rest_plain := by simp
  rest_length := by decide

theorem reads_port {method ds : Bytes} {h : HostSpelling} {c : UInt8}
    (htok : ∀ c ∈ method, isToken c = true) (hlen : method.length < maxMethodLength)
    (htakes : h.TakesPort) (hdig : ∀ d ∈ ds, isDigit d = true) :
    Reads (method ++ [chr ' '] ++ schemeOf method ++ (h.bytes ++ (chr ':' :: ds)) ++ [c])
      (requestParserFeed (portAt method h ds) c) := by
  have hfeed : requestParserFeed (portAt method h ds) c = rTargetPort c (portAt method h ds) := rfl
  by_cases hlt : ds.length < maxPortLength
  · have hi : ¬ (portAt method h ds).i ≥ (portAt method h ds).n := by
      show ¬ ds.length ≥ maxPortLength
      omega
    by_cases hc : endOfAuthority c = true ∨ c = chr ' '
    · rw [hfeed, rTargetPort_end hi hc]
      exact reads_leave (r := portFront method h ds htok hlen htakes hdig hlt) rfl
        closePort_request hc
    · by_cases hd : isDigit c = true
      · rw [feed_portAt hd hlt]
        exact .port htok hlen htakes (all_append hdig hd) (by simp; omega) (by simp)
      · rw [not_or] at hc
        have hbad : rTargetPort c (portAt method h ds) = (portAt method h ds).fail := by
          rw [rTargetPort, if_neg hi, if_neg hc.1, if_neg hc.2]
          simp [hd]
        rw [hfeed, hbad]
        exact reads_fail
  · have hi : (portAt method h ds).i ≥ (portAt method h ds).n := by
      show ds.length ≥ maxPortLength
      omega
    rw [hfeed, rTargetPort, if_pos hi]
    exact reads_fail

/-- The request line with its origin form. -/
def restFront (r : RequestFront) (rest : Bytes)
    (hstart : ∀ c, rest.head? = some c → endOfAuthority c = true)
    (hplain : ∀ c ∈ rest, c ≠ chr ' ') (hlen : rest.length < maxOriginForm) : RequestFront :=
  { r with rest := rest, rest_start := hstart, rest_plain := hplain, rest_length := hlen }

theorem reads_form {r : RequestFront} {b c : UInt8} {tail : Bytes} (hrest : r.rest = [])
    (hb : endOfAuthority b = true) (htail : ∀ c ∈ tail, c ≠ chr ' ') :
    Reads (r.method ++ [chr ' '] ++ schemeOf r.method ++ r.authority ++ (b :: tail) ++ [c])
      (requestParserFeed (atForm (fullLine r.method (targetType r.method) r.host.type
        (r.host.host (netPortOf r.port)) (netPortOf r.port)) (b :: tail)) c) := by
  by_cases hlt : (b :: tail).length < maxOriginForm
  · by_cases hspace : c = chr ' '
    · rw [hspace, feed_form_end hlt]
      have hplain : ∀ c ∈ b :: tail, c ≠ chr ' ' := by
        intro x hx
        rcases List.mem_cons.mp hx with rfl | hx
        · rintro rfl
          exact absurd hb (by decide)
        · exact htail x hx
      have hstart : ∀ c, (b :: tail).head? = some c → endOfAuthority c = true := by
        intro x hx
        cases hx
        exact hb
      refine .version (k := 0) (restFront r (b :: tail) hstart hplain hlt) (by omega) ?_
      simp [restFront, RequestFront.bytes, RequestFront.authority]
    · have hset : (filled maxOriginForm (b :: tail)).set (b :: tail).length c
          = filled maxOriginForm (b :: tail ++ [c]) := set_filled c rfl hlt
      have hfeed : requestParserFeed (atForm (fullLine r.method (targetType r.method) r.host.type
            (r.host.host (netPortOf r.port)) (netPortOf r.port)) (b :: tail)) c
          = atForm (fullLine r.method (targetType r.method) r.host.type
            (r.host.host (netPortOf r.port)) (netPortOf r.port)) (b :: (tail ++ [c])) := by
        have hi : ¬ maxOriginForm ≤ (b :: tail).length := by omega
        simp only [requestParserFeed, rTargetOgform, atForm, ge_iff_le, if_neg hi, if_neg hspace,
          RequestParser.setOriginForm, RequestParser.setTarget, RequestParser.target, fullLine,
          hset]
        simp
      rw [hfeed]
      exact .form r hrest hb (all_append htail hspace) (by simp at hlt ⊢; omega) (by simp)
  · have hi : maxOriginForm ≤ (b :: tail).length := by omega
    have hfeed : requestParserFeed (atForm (fullLine r.method (targetType r.method) r.host.type
          (r.host.host (netPortOf r.port)) (netPortOf r.port)) (b :: tail)) c
        = (atForm (fullLine r.method (targetType r.method) r.host.type
          (r.host.host (netPortOf r.port)) (netPortOf r.port)) (b :: tail)).fail := by
      simp only [requestParserFeed, rTargetOgform, atForm, ge_iff_le, if_pos hi]
    rw [hfeed]
    exact reads_fail

/-! ## The version -/

theorem versionDigit_append (ds : Bytes) (d : UInt8) :
    versionDigit ds.length (byteValue ds) d = byteValue (ds ++ [d]) := by
  rw [versionDigit, ← StatusLineParser.byteValue_append]
  simp

theorem reads_version {r : RequestFront} {k : Nat} {c : UInt8} (hk : k < 5) :
    Reads (r.bytes ++ (ascii "HTTP/").take k ++ [c])
      (requestParserFeed (versionAt r.line k) c) := by
  have hfeed : requestParserFeed (versionAt r.line k) c = rVersion c (versionAt r.line k) := rfl
  by_cases h : (ascii "HTTP/").getD k 0 = c
  · have hi : ¬ (versionAt r.line k).i ≥ (versionAt r.line k).n := by
      show ¬ k ≥ 8
      omega
    have hgood : ¬ ((versionAt r.line k).i ≥ (versionAt r.line k).n ∨
        (ascii "HTTP/").getD (versionAt r.line k).i 0 ≠ c) :=
      not_or.mpr ⟨hi, not_not_intro h⟩
    rw [hfeed, rVersion, if_neg hgood, List.append_assoc, ← h, take_name hk]
    by_cases hlast : k < 4
    · rw [if_neg (name_not_slash hlast)]
      exact .version (k := k + 1) r (by omega) rfl
    · obtain rfl : k = 4 := by omega
      have hmajor : (versionAt r.line 4).goto .requestVersionMajor 0 2 = majorAt r.line [] := by
        simp [goto, versionAt, majorAt, byteValue, RequestFront.line, fullLine, methodLine,
          RequestLine.zero]
      rw [if_pos (by decide), hmajor]
      exact .major r (by simp) (by simp) (by simp [ascii])
  · have hbad : (versionAt r.line k).i ≥ (versionAt r.line k).n ∨
        (ascii "HTTP/").getD (versionAt r.line k).i 0 ≠ c := .inr h
    rw [hfeed, rVersion, if_pos hbad]
    exact reads_fail

theorem reads_major {r : RequestFront} {ds : Bytes} {c : UInt8}
    (hdig : ∀ d ∈ ds, isDigit d = true) (hlen : ds.length ≤ 2) :
    Reads (r.bytes ++ ascii "HTTP/" ++ ds ++ [c]) (requestParserFeed (majorAt r.line ds) c) := by
  have hfeed : requestParserFeed (majorAt r.line ds) c = rVersionMajor c (majorAt r.line ds) := rfl
  rw [hfeed, rVersionMajor]
  by_cases hlt : ds.length < 2
  · have hi : ¬ (majorAt r.line ds).i ≥ (majorAt r.line ds).n := by
      show ¬ ds.length ≥ 2
      omega
    rw [if_neg hi]
    by_cases hdot : c = chr '.'
    · have hminor : (majorAt r.line ds).goto .requestVersionMinor 0 2 = minorAt r.line ds [] := by
        simp [goto, majorAt, minorAt, byteValue, RequestFront.line, fullLine, methodLine,
          RequestLine.zero]
      rw [if_pos hdot, hminor, hdot]
      exact .minor r ⟨hdig, hlt⟩ (by simp) (by simp) (by simp)
    · rw [if_neg hdot]
      by_cases hd : isDigit c = true
      · simp only [hd, Bool.not_true, Bool.false_eq_true, if_false]
        have hnext := Reads.major r (all_append hdig hd) (by simp; omega) rfl
        simpa [majorAt, versionDigit_append] using hnext
      · simp only [hd, Bool.not_false, if_true]
        exact reads_fail
  · have hi : (majorAt r.line ds).i ≥ (majorAt r.line ds).n := by
      show ds.length ≥ 2
      omega
    rw [if_pos hi]
    exact reads_unsupportedVersion

theorem reads_minor {r : RequestFront} {major ds : Bytes} {c : UInt8}
    (hmajor : VersionDigit major) (hdig : ∀ d ∈ ds, isDigit d = true) (hlen : ds.length ≤ 2) :
    Reads (r.bytes ++ ascii "HTTP/" ++ major ++ [chr '.'] ++ ds ++ [c])
      (requestParserFeed (minorAt r.line major ds) c) := by
  have hfeed : requestParserFeed (minorAt r.line major ds) c
      = rVersionMinor c (minorAt r.line major ds) := rfl
  rw [hfeed, rVersionMinor]
  by_cases hlt : ds.length < 2
  · have hi : ¬ (minorAt r.line major ds).i ≥ (minorAt r.line major ds).n := by
      show ¬ ds.length ≥ 2
      omega
    rw [if_neg hi]
    by_cases hcr : c = chr '\r'
    · rw [if_pos hcr, hcr]
      exact .ending ⟨r, major, ds, hmajor, ⟨hdig, hlt⟩⟩
        (by simp [AcceptedRequest.bytes, AcceptedRequest.upToLf])
    · rw [if_neg hcr]
      by_cases hd : isDigit c = true
      · simp only [hd, Bool.not_true, Bool.false_eq_true, if_false]
        have hnext := Reads.minor r hmajor (all_append hdig hd) (by simp; omega) rfl
        simpa [minorAt, versionDigit_append] using hnext
      · simp only [hd, Bool.not_false, if_true]
        exact reads_fail
  · have hi : (minorAt r.line major ds).i ≥ (minorAt r.line major ds).n := by
      show ds.length ≥ 2
      omega
    rw [if_pos hi]
    exact reads_unsupportedVersion

/-! ## The whole line -/

theorem Reads.step {text : Bytes} {p : RequestParser} (h : Reads text p) (c : UInt8) :
    Reads (text ++ [c]) (requestParserFeed p c) := by
  cases h with
  | method htok _ htext =>
      rw [htext]
      exact reads_method htok
  | scheme htok hlen hconnect hk htext =>
      rw [htext]
      exact reads_scheme htok hlen hconnect hk
  | name htok hlen hplain hbracket hmax htext =>
      rw [htext]
      exact reads_name htok hlen hplain hbracket hmax
  | literal htok hlen hplain hbracket hmax htext =>
      rw [htext]
      exact reads_literal htok hlen hplain hbracket hmax
  | port htok hlen htakes hdig _ htext =>
      rw [htext]
      exact reads_port htok hlen htakes hdig
  | form r hrest hb htail _ htext =>
      rw [htext]
      exact reads_form hrest hb htail
  | version r hk htext =>
      rw [htext]
      exact reads_version hk
  | major r hdig hlen htext =>
      rw [htext]
      exact reads_major hdig hlen
  | minor r hmajor hdig hlen htext =>
      rw [htext]
      exact reads_minor hmajor hdig hlen
  | ending r htext =>
      have hfeed : requestParserFeed (endAt r .requestEnd) c = rEnd c (endAt r .requestEnd) := rfl
      rw [hfeed, rEnd]
      by_cases hlf : c = chr '\n'
      · rw [if_neg (not_not_intro hlf), hlf, htext]
        exact .done r [] (List.append_nil _).symm
      · rw [if_pos hlf]
        exact reads_fail
  | done r more htext =>
      exact .done r (more ++ [c]) (by rw [htext, List.append_assoc])
  | failed hstop hne =>
      rw [requestParserFeed_stopped hstop]
      exact .failed hstop hne

theorem reads (text : Bytes) : Reads text (text.foldl requestParserFeed requestParserInit) := by
  apply Lib.foldl_tells
  · rw [requestParserInit_eq]
    exact .method (by simp) (by simp) rfl
  · intro text p c h
    exact h.step c

def Done (p : RequestParser) : Prop := p.state = .requestDone

instance : DecidablePred Done := fun p => inferInstanceAs (Decidable (p.state = .requestDone))

/-- The last byte is the line feed behind the line. -/
theorem feed_done {p : RequestParser} {c : UInt8}
    (h : (requestParserFeed p c).state = .requestDone) :
    p.state = .requestDone ∨ p.state = .requestEnd ∧ c = chr '\n' := by
  rw [requestParserFeed] at h
  cases hs : p.state with
  | requestMethod =>
      simp only [hs, rMethod, getMethodState] at h
      repeat' split at h
      all_goals simp [goto] at h
  | requestTargetScheme =>
      simp only [hs, rTargetScheme] at h
      repeat' split at h
      all_goals simp [goto, fail] at h
  | requestTargetHost =>
      simp only [hs, rTargetHost] at h
      repeat' split at h
      all_goals simp [goto, fail, enterOgform, enterVersion] at h
  | requestTargetPort =>
      simp only [hs, rTargetPort] at h
      repeat' split at h
      all_goals simp [goto, fail, enterOgform, enterVersion] at h
  | requestTargetOgform =>
      simp only [hs, rTargetOgform] at h
      repeat' split at h
      all_goals simp [goto, fail] at h
  | requestVersion =>
      simp only [hs, rVersion] at h
      repeat' split at h
      all_goals simp [goto, fail] at h
  | requestVersionMajor =>
      simp only [hs, rVersionMajor] at h
      repeat' split at h
      all_goals simp [goto, fail] at h
  | requestVersionMinor =>
      simp only [hs, rVersionMinor] at h
      repeat' split at h
      all_goals simp [fail] at h
  | requestEnd =>
      simp only [hs, rEnd] at h
      split at h
      · simp [fail] at h
      · next hc => exact .inr ⟨rfl, Decidable.not_not.mp hc⟩
  | requestDone => exact .inl rfl
  | requestError | requestErrorUnsupportedVersion | requestErrorUnsupportedMethod =>
      simp only [hs] at h
      cases h

end RequestParser

/-- Whatever the parser accepts is a request line of the wider grammar, and is
decoded as the grammar says. -/
theorem accepted_reads {bs : Bytes}
    (h : Lib.Finishes requestParserFeed RequestParser.Done requestParserInit bs) :
    ∃ r : AcceptedRequest, bs = r.bytes ∧
      (bs.foldl requestParserFeed requestParserInit).request = r.line := by
  have hinit : ¬ requestParserInit.Done := by
    intro hdone
    cases hdone
  obtain ⟨pre, c, rfl, hbefore, hend⟩ := h.exists_last hinit
  rcases RequestParser.feed_done hend with hdone | ⟨hat, rfl⟩
  · exact absurd hdone hbefore
  · have hreads := RequestParser.reads pre
    rw [List.foldl_append, List.foldl_cons, List.foldl_nil]
    generalize pre.foldl requestParserFeed requestParserInit = p at hat hreads
    cases hreads with
    | ending r htext => exact ⟨r, htext, rfl⟩
    | failed hstop _ =>
        rw [RequestParser.Stopped, hat] at hstop
        simp at hstop
    | method _ _ _ | scheme _ _ _ _ _ | name _ _ _ _ _ _ | literal _ _ _ _ _ _
    | port _ _ _ _ _ _ | form _ _ _ _ _ _ | version _ _ _ | major _ _ _ _ | minor _ _ _ _ _
    | done _ _ _ => cases hat

end HttpdProxy
