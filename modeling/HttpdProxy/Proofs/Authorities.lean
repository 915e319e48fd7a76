import Mathlib.Algebra.Group.Nat.Defs
import HttpdProxy.Proofs.AcceptedRequests

/-!
# Where a request goes

The authority of a request line is cut out of its bytes, without the parser,
and compared with the host, the address and the port that the parser has
decoded.
-/

namespace HttpdProxy

/-! ## Cutting a request line -/

def requestMethodOf (bs : Bytes) : Bytes := bs.takeWhile (· != chr ' ')

/-- What follows the space behind the method, and the scheme if there is
one. -/
def requestTargetOf (bs : Bytes) : Bytes :=
  ((bs.dropWhile (· != chr ' ')).drop 1).drop (schemeOf (requestMethodOf bs)).length

/-- The target up to the first of `/`, `?`, `#` and space. -/
def authorityOf (bs : Bytes) : Bytes := (requestTargetOf bs).takeWhile isAuthorityByte

/-- What follows the authority, up to a space. -/
def restOf (bs : Bytes) : Bytes :=
  ((requestTargetOf bs).dropWhile isAuthorityByte).takeWhile (· != chr ' ')

theorem token_ne_space {c : UInt8} (h : isToken c = true) : (c != chr ' ') = true := by
  rw [bne_iff_ne]
  rintro rfl
  revert h
  decide

theorem digit_authority {d : UInt8} (h : isDigit d = true) : isAuthorityByte d = true := by
  obtain ⟨hend, hspace, _, _⟩ := digit_plain h
  simp [isAuthorityByte, hend, hspace]

namespace RequestFront
variable (r : RequestFront)

/-- No byte of the authority ends it. -/
theorem authority_bytes : ∀ c ∈ r.authority, isAuthorityByte c = true := by
  intro c hc
  rcases List.mem_append.mp hc with hc | hc
  · cases hh : r.host with
    | name text plain no_bracket length =>
        rw [hh] at hc
        exact (plain c hc).1
    | literal opens text last addr plain no_bracket length parses =>
        rw [hh] at hc
        rcases List.mem_append.mp hc with hc | hc
        · rw [List.eq_of_mem_replicate hc]
          decide
        · exact plain c hc
  · cases hp : r.port with
    | none => simp [hp, portBytes] at hc
    | some ds =>
        rw [hp] at hc
        rcases List.mem_cons.mp hc with rfl | hc
        · decide
        · exact digit_authority ((r.port_digits ds hp).1 c hc)

end RequestFront

namespace AcceptedRequest
variable (r : AcceptedRequest)

/-- The line behind its rest. -/
def version : Bytes :=
  ascii "HTTP/" ++ r.major ++ [chr '.'] ++ r.minor ++ [chr '\r'] ++ [chr '\n']

theorem bytes_eq : r.bytes = r.method ++ chr ' ' ::
    (schemeOf r.method ++ (r.authority ++ (r.rest ++ chr ' ' :: r.version))) := by
  simp [bytes, upToLf, RequestFront.bytes, version]

theorem requestMethodOf_bytes : requestMethodOf r.bytes = r.method := by
  have hall : ∀ c ∈ r.method, (c != chr ' ') = true := fun c hc =>
    token_ne_space (r.method_token c hc)
  rw [requestMethodOf, bytes_eq, List.takeWhile_append_of_pos hall]
  simp

theorem requestTargetOf_bytes :
    requestTargetOf r.bytes = r.authority ++ (r.rest ++ chr ' ' :: r.version) := by
  have hall : ∀ c ∈ r.method, (c != chr ' ') = true := fun c hc =>
    token_ne_space (r.method_token c hc)
  rw [requestTargetOf, requestMethodOf_bytes, bytes_eq, List.dropWhile_append_of_pos hall]
  simp

/-- The byte behind the authority ends it. -/
theorem rest_cut : ∃ c more, r.rest ++ chr ' ' :: r.version = c :: more ∧
    isAuthorityByte c = false := by
  cases hr : r.rest with
  | nil => exact ⟨chr ' ', r.version, rfl, by decide⟩
  | cons c rest =>
      have hend := r.rest_start c (by rw [hr]; rfl)
      exact ⟨c, rest ++ chr ' ' :: r.version, rfl, by simp [isAuthorityByte, hend]⟩

theorem authorityOf_bytes : authorityOf r.bytes = r.authority := by
  obtain ⟨c, more, hcut, hc⟩ := r.rest_cut
  rw [authorityOf, requestTargetOf_bytes, hcut, List.takeWhile_append_of_pos r.authority_bytes,
    List.takeWhile_cons_of_neg (by simp [hc]), List.append_nil]

theorem restOf_bytes : restOf r.bytes = r.rest := by
  obtain ⟨c, more, hcut, hc⟩ := r.rest_cut
  have hplain : ∀ c ∈ r.rest, (c != chr ' ') = true := fun c hc => by
    rw [bne_iff_ne]
    exact r.rest_plain c hc
  rw [restOf, requestTargetOf_bytes, List.dropWhile_append_of_pos r.authority_bytes, hcut,
    List.dropWhile_cons_of_neg (by simp [hc]), ← hcut, List.takeWhile_append_of_pos hplain]
  simp

end AcceptedRequest

/-! ## Ports -/

theorem htons_htons (x : UInt16) : htons (htons x) = x := by
  apply UInt16.eq_of_toBitVec_eq
  simp only [htons, UInt16.toBitVec_or, UInt16.toBitVec_shiftLeft, UInt16.toBitVec_shiftRight]
  ext i hi
  simp
  grind

/-- The number behind the colon, or 80 when there is none. -/
def portNumber : Option Bytes → Nat
  | none | some [] => 80
  | some (d :: ds) => digitsValue (d :: ds)

/-- The digits of a port, if there is one. -/
def IsPort (port : Option Bytes) : Prop := ∀ ds, port = some ds → ∀ d ∈ ds, isDigit d = true

theorem digit_value_le {d : UInt8} (h : isDigit d = true) : (d - chr '0').toNat ≤ 9 := by
  exact forall_byte (P := fun d => isDigit d = true → (d - chr '0').toNat ≤ 9)
    (by decide +kernel) d h

theorem digitsValue_lt {ds : Bytes} (hdig : ∀ d ∈ ds, isDigit d = true) :
    digitsValue ds < 10 ^ ds.length := by
  refine Lib.foldl_tells (R := fun (text : Bytes) v =>
    (∀ d ∈ text, isDigit d = true) → v < 10 ^ text.length) ?_ ?_ ds hdig
  · intro _
    decide
  · intro text v d ih hall
    have hv := ih fun x hx => hall x (List.mem_append_left _ hx)
    have hd := digit_value_le (hall d (by simp))
    rw [List.length_append, List.length_singleton, Nat.pow_succ]
    omega

/-- The port that is stored is the one that is written, if one is. -/
theorem netPortOf_number {port : Option Bytes}
    (hdig : ∀ ds, port = some ds → (∀ d ∈ ds, isDigit d = true) ∧ ds.length < maxPortLength)
    (hne : port ≠ some []) : (htons (netPortOf port)).toNat = portNumber port := by
  match port, hne with
  | none, _ => decide
  | some (d :: ds), _ =>
      obtain ⟨hall, hlen⟩ := hdig _ rfl
      have hlt := digitsValue_lt hall
      have hpow : 10 ^ (d :: ds).length ≤ 10 ^ 4 := by
        apply Nat.pow_le_pow_right (by omega)
        simp [maxPortLength] at hlen ⊢
        omega
      rw [netPortOf, if_neg (by simp), htons_htons, portNumber]
      apply UInt16.toNat_ofNat_of_lt'
      show digitsValue (d :: ds) < 65536
      omega

/-- A colon without digits: the default port is converted twice. -/
theorem netPortOf_empty : (htons (netPortOf (some []))).toNat = 20480 := by decide

theorem IsPort.getLast {port : Option Bytes} (h : IsPort port) (xs : Bytes)
    (hlast : (xs ++ portBytes port).getLast? = some (chr ':')) :
    port = some [] ∨ port = none ∧ xs.getLast? = some (chr ':') := by
  cases port with
  | none =>
      rw [portBytes, List.append_nil] at hlast
      exact .inr ⟨rfl, hlast⟩
  | some ds =>
      left
      rcases List.eq_nil_or_concat ds with rfl | ⟨ds, d, rfl⟩
      · rfl
      · rw [List.concat_eq_append] at h hlast
        have hd := h _ rfl d (by simp)
        rw [portBytes, ← List.cons_append, ← List.append_assoc, List.getLast?_concat] at hlast
        cases hlast
        exact absurd hd (by decide)

/-! ## The authority that is reached -/

/-- A target goes where the authority says: to the address in brackets, or to
the host up to the first colon, read as an IPv4 address if it is one; and to
the port behind the colon. -/
def Reaches (authority : Bytes) (t : RequestTarget) : Prop :=
  (authority.head? = some (chr '[') → ∃ text port addr,
      authority = chr '[' :: text ++ [chr ']'] ++ portBytes port ∧ IsPort port ∧
      inetPton6 text = some addr ∧ t.hostType = .ipv6 ∧
      t.host = .ipv6 { port := t.port, addr := addr } ∧
      (htons t.port).toNat = portNumber port) ∧
    (authority.head? ≠ some (chr '[') → ∃ text port,
      authority = text ++ portBytes port ∧ chr ':' ∉ text ∧ IsPort port ∧
      (match inetPton4 text with
        | some addr => t.hostType = .ipv4 ∧ t.host = .ipv4 { port := t.port, addr := addr }
        | none => t.hostType = .domain ∧ t.host = .domain (filled (maxFqdnLength + 1) text)) ∧
      (htons t.port).toNat = portNumber port)

/-- The authorities that are read as they are meant: no colon without a port,
and if a bracket opens the host it does so once and is closed. -/
def PlainAuthority (authority : Bytes) : Prop :=
  authority.getLast? ≠ some (chr ':') ∧
    (authority.head? = some (chr '[') →
      authority[1]? ≠ some (chr '[') ∧ chr ']' ∈ authority)

theorem IsPort.no_bracket {port : Option Bytes} (h : IsPort port) : chr ']' ∉ portBytes port := by
  cases port with
  | none => simp [portBytes]
  | some ds =>
      intro hmem
      rcases List.mem_cons.mp hmem with he | hmem
      · exact absurd he (by decide)
      · exact absurd (h ds rfl _ hmem) (by decide)

theorem AcceptedRequest.isPort (r : AcceptedRequest) : IsPort r.port := fun ds h =>
  (r.port_digits ds h).1

/-- The text of an address has no brackets in it. -/
theorem inetPton6_no_bracket {text addr : Bytes} (h : inetPton6 text = some addr) :
    chr ']' ∉ text ∧ chr '[' ∉ text ∧ text ≠ [] := by
  refine ⟨?_, ?_, ?_⟩
  · intro hmem
    exact (literalByte_plain (inetPton6_bytes h _ hmem)).2.1 rfl
  · intro hmem
    exact (literalByte_plain (inetPton6_bytes h _ hmem)).1 rfl
  · rintro rfl
    cases h

/-- Without a NUL the text is the string. -/
theorem cstr_eq {text : Bytes} (h : (0 : UInt8) ∉ text) : cstr text = text := by
  apply Lib.takeWhile_all
  intro c hc
  rw [bne_iff_ne]
  rintro rfl
  exact h hc

theorem IsPort.no_colon {port : Option Bytes} (h : IsPort port) (text : Bytes)
    (hcolon : chr ':' ∉ text) (hlast : (text ++ portBytes port).getLast? = some (chr ':')) :
    port = some [] := by
  rcases h.getLast text hlast with he | ⟨_, htext⟩
  · exact he
  · exact absurd (List.mem_of_getLast? htext) hcolon

theorem reaches_name {r : AcceptedRequest} {text : Bytes}
    {plain : ∀ c ∈ text, isAuthorityByte c = true ∧ c ≠ chr ':'}
    {no_bracket : text.head? ≠ some (chr '[')} {length : text.length < maxFqdnLength}
    (hhost : r.host = .name text plain no_bracket length) (hnul : (0 : UInt8) ∉ r.authority) :
    Reaches r.authority r.line.requestTarget ↔ PlainAuthority r.authority := by
  have hauth : r.authority = text ++ portBytes r.port := by
    rw [RequestFront.authority, hhost]
    rfl
  have hcstr : cstr text = text := by
    apply cstr_eq
    intro hmem
    exact hnul (hauth ▸ List.mem_append_left _ hmem)
  have hhead : r.authority.head? ≠ some (chr '[') := by
    rw [hauth]
    cases text with
    | nil => cases r.port <;> simp [portBytes]; decide
    | cons c text => simpa using no_bracket
  have hcolon : chr ':' ∉ text := fun hmem => (plain _ hmem).2 rfl
  have hport : r.line.requestTarget.port = netPortOf r.port := rfl
  constructor
  · rintro ⟨_, hreach⟩
    refine ⟨?_, fun h => absurd h hhead⟩
    intro hlast
    obtain ⟨text', port', hauth', hcolon', hisPort', _, hnumber⟩ := hreach hhead
    have hempty : r.port = some [] := r.isPort.no_colon text hcolon (hauth ▸ hlast)
    have hempty' : port' = some [] := hisPort'.no_colon text' hcolon' (hauth' ▸ hlast)
    rw [hport, hempty, netPortOf_empty, hempty'] at hnumber
    exact absurd hnumber (by decide)
  · rintro ⟨hlast, _⟩
    refine ⟨fun h => absurd h hhead, fun _ => ?_⟩
    refine ⟨text, r.port, hauth, hcolon, r.isPort, ?_, ?_⟩
    · have htype : r.line.requestTarget.hostType = r.host.type := rfl
      have hval : r.line.requestTarget.host = r.host.host (netPortOf r.port) := rfl
      rw [htype, hval, hport, hhost]
      cases ha : inetPton4 text with
      | some addr => simp [HostSpelling.type, HostSpelling.host, hcstr, ha]
      | none => simp [HostSpelling.type, HostSpelling.host, hcstr, ha]
    · rw [hport]
      apply netPortOf_number r.port_digits
      intro hempty
      apply hlast
      rw [hauth, hempty, portBytes, List.getLast?_concat]

theorem reaches_literal {r : AcceptedRequest} {opens : Nat} {text : Bytes} {last : UInt8}
    {addr : Bytes} {plain : ∀ c ∈ text ++ [last], isAuthorityByte c = true}
    {no_bracket : (text ++ [last]).head? ≠ some (chr '[')}
    {length : (text ++ [last]).length < maxFqdnLength}
    {parses : inetPton6 (cstr text) = some addr}
    (hhost : r.host = .literal opens text last addr plain no_bracket length parses)
    (hnul : (0 : UInt8) ∉ r.authority) :
    Reaches r.authority r.line.requestTarget ↔ PlainAuthority r.authority := by
  have hauth : r.authority
      = chr '[' :: (List.replicate opens (chr '[') ++ (text ++ [last])) ++ portBytes r.port := by
    rw [RequestFront.authority, hhost]
    rfl
  have hcstr : cstr text = text := by
    apply cstr_eq
    intro hmem
    apply hnul
    rw [hauth]
    simp [hmem]
  have haddr : inetPton6 text = some addr := hcstr ▸ parses
  obtain ⟨hclose, hopen, hne⟩ := inetPton6_no_bracket haddr
  have hhead : r.authority.head? = some (chr '[') := by
    rw [hauth]
    rfl
  -- a closing bracket can only be the byte that is dropped
  have hbracket : chr ']' ∈ r.authority ↔ last = chr ']' := by
    have hport := r.isPort.no_bracket
    have hne : chr ']' ≠ chr '[' := by decide
    rw [hauth]
    simp [hclose, hport, hne, eq_comm]
  have hport : r.line.requestTarget.port = netPortOf r.port := rfl
  constructor
  · rintro ⟨hreach, _⟩
    obtain ⟨text', port', addr', hauth', hisPort', haddr', _, _, hnumber⟩ := hreach hhead
    obtain ⟨hclose', hopen', hne'⟩ := inetPton6_no_bracket haddr'
    have hmem : chr ']' ∈ r.authority := by
      rw [hauth']
      simp
    refine ⟨?_, fun _ => ⟨?_, hmem⟩⟩
    · intro hlast
      have hempty : r.port = some [] := by
        rw [hauth] at hlast
        rcases r.isPort.getLast _ hlast with he | ⟨_, htext⟩
        · exact he
        · rw [← List.append_assoc, ← List.cons_append, List.getLast?_concat] at htext
          cases htext
          exact absurd (hbracket.mp hmem) (by decide)
      have hempty' : port' = some [] := by
        rw [hauth'] at hlast
        rcases hisPort'.getLast _ hlast with he | ⟨_, htext⟩
        · exact he
        · rw [List.getLast?_concat] at htext
          exact absurd htext (by decide)
      rw [hport, hempty, netPortOf_empty, hempty'] at hnumber
      exact absurd hnumber (by decide)
    · rw [hauth']
      cases text' with
      | nil => exact absurd rfl hne'
      | cons c text' =>
          intro h
          have hc : c = chr '[' := by simpa using h
          exact hopen' (hc ▸ List.mem_cons_self ..)
  · rintro ⟨hlast, hplain⟩
    obtain ⟨hsecond, hmem⟩ := hplain hhead
    refine ⟨fun _ => ?_, fun h => absurd hhead h⟩
    have hopens : opens = 0 := by
      cases opens with
      | zero => rfl
      | succ k =>
          rw [hauth] at hsecond
          exact absurd (by simp [List.replicate_succ]) hsecond
    refine ⟨text, r.port, addr, ?_, r.isPort, haddr, ?_, ?_, ?_⟩
    · rw [hauth, hopens, hbracket.mp hmem]
      simp
    · have htype : r.line.requestTarget.hostType = r.host.type := rfl
      rw [htype, hhost]
      rfl
    · have hval : r.line.requestTarget.host = r.host.host (netPortOf r.port) := rfl
      rw [hval, hhost, hport]
      rfl
    · rw [hport]
      apply netPortOf_number r.port_digits
      intro hempty
      apply hlast
      rw [hauth, hempty, portBytes, List.getLast?_concat]

/-- A request that is accepted goes where its authority says exactly when the
authority is plain. -/
theorem authority_reached_iff {bs : Bytes}
    (h : Lib.Finishes requestParserFeed RequestParser.Done requestParserInit bs)
    (hnul : (0 : UInt8) ∉ authorityOf bs) :
    Reaches (authorityOf bs)
        (bs.foldl requestParserFeed requestParserInit).request.requestTarget ↔
      PlainAuthority (authorityOf bs) := by
  obtain ⟨r, rfl, hline⟩ := accepted_reads h
  rw [hline, r.authorityOf_bytes]
  rw [r.authorityOf_bytes] at hnul
  cases hhost : r.host with
  | name text plain no_bracket length => exact reaches_name hhost hnul
  | literal opens text last addr plain no_bracket length parses =>
      exact reaches_literal hhost hnul

theorem authority_reached_loopback :
    Reaches (ascii "[::1]:8080")
      ((ascii "GET http://[::1]:8080/ HTTP/1.0\r\n").foldl requestParserFeed
        requestParserInit).request.requestTarget :=
  (@authority_reached_iff (ascii "GET http://[::1]:8080/ HTTP/1.0\r\n")
    ⟨by decide +kernel, by decide +kernel⟩ (by decide +kernel)).mpr
    ⟨by decide +kernel, by decide +kernel⟩

/-- A colon without a port leads to port 20480. -/
theorem colon_without_port :
    Lib.Finishes requestParserFeed RequestParser.Done requestParserInit
        (ascii "GET http://a:/ HTTP/1.0\r\n") ∧
      authorityOf (ascii "GET http://a:/ HTTP/1.0\r\n") = ascii "a:" ∧
      ¬ Reaches (ascii "a:") ((ascii "GET http://a:/ HTTP/1.0\r\n").foldl requestParserFeed
        requestParserInit).request.requestTarget := by
  refine ⟨⟨by decide +kernel, by decide +kernel⟩, by decide +kernel, ?_⟩
  rintro ⟨_, hreach⟩
  obtain ⟨text, port, hauth, hcolon, hisPort, _, hnumber⟩ := hreach (by decide)
  have hlast : (ascii "a:").getLast? = some (chr ':') := by decide
  rw [hauth] at hlast
  have hempty : port = some [] := hisPort.no_colon text hcolon hlast
  have hport : (htons ((ascii "GET http://a:/ HTTP/1.0\r\n").foldl requestParserFeed
      requestParserInit).request.requestTarget.port).toNat = 20480 := by decide +kernel
  rw [hport, hempty] at hnumber
  exact absurd hnumber (by decide)

end HttpdProxy
