import HttpdProxy.Daemon.LoggerUtils
import HttpdProxy.Protocol.Flow
import HttpdProxy.Proofs.Addresses
import HttpdProxy.Proofs.OriginRequests

/-!
# The records of a request

What `build_connection_request` puts into the target of a request, and what
the records that print it look like: how long they are, and how many lines and
fields they have.
-/

namespace HttpdProxy

/-! ## Decimal numbers -/

theorem digitChar_decimal : ∀ k, k < 10 → (Nat.digitChar k).toNat.toUInt8 = decimalDigit k := by
  decide +kernel

/-- The last digit comes off the end. -/
theorem decimal_eq (n : Nat) :
    decimal n = (if n < 10 then [] else decimal (n / 10)) ++ [decimalDigit (n % 10)] := by
  have hmod : n % 10 < 10 := Nat.mod_lt n (by omega)
  unfold decimal
  rw [Nat.toDigits_eq_if (by omega)]
  split
  · next h =>
      rw [Nat.mod_eq_of_lt h]
      simp [digitChar_decimal n h]
  · simp [digitChar_decimal (n % 10) hmod]

theorem decimal_length_le {n k : Nat} (hk : 0 < k) (h : n < 10 ^ k) : (decimal n).length ≤ k := by
  rw [decimal, List.length_map, Nat.length_toDigits_le_iff (by omega) hk]
  exact h

theorem decimal_digits (n : Nat) : ∀ c ∈ decimal n, isDigit c = true := by
  induction n using Nat.strongRecOn with
  | _ n ih =>
      have hmod : n % 10 < 10 := Nat.mod_lt n (by omega)
      intro c hc
      rw [decimal_eq] at hc
      rcases List.mem_append.mp hc with hc | hc
      · split at hc
        · cases hc
        · exact ih (n / 10) (by omega) c hc
      · rw [List.mem_singleton.mp hc]
        exact (decimalDigit_value _ hmod).1

/-! ## The target -/

/-- The host of a target, as it is to be printed: the name, or the address
that is connected to. -/
def hostText : Host → Bytes
  | .domain text => cstr text
  | .ipv4 sa => inetNtop4 sa.addr
  | .ipv6 sa => inetNtop6 sa.addr

/-- The target as it is to be logged. -/
def namedTarget (line : RequestLine) : Bytes :=
  (if line.requestTarget.type = .absoluteForm then ascii "http://" else []) ++
    hostText line.requestTarget.host ++ [chr ':'] ++
    decimal (htons line.requestTarget.port).toNat ++
    (if line.requestTarget.type = .absoluteForm then cstr line.requestTarget.originForm else [])

/-- `connection_request_t.target` and `.method`. -/
def targetSize : Nat := schemeLength + maxFqdnLength + maxPortLength + maxOriginForm + 16
def methodSize : Nat := maxMethodLength

/-- The address coincides with the head of its socket address, which
`inet_ntop` is handed. -/
def Host.Coincides : Host → Prop
  | .domain _ => True
  | .ipv4 sa => sa.addr = sa.memory.take 4
  | .ipv6 sa => sa.addr = sa.memory.take 16

instance : DecidablePred Host.Coincides
  | .domain _ => .isTrue trivial
  | .ipv4 sa => inferInstanceAs (Decidable (sa.addr = sa.memory.take 4))
  | .ipv6 sa => inferInstanceAs (Decidable (sa.addr = sa.memory.take 16))

/-- The sizes that the addresses have. -/
def Host.Sized : Host → Prop
  | .domain _ => True
  | .ipv4 sa => sa.addr.length = 4
  | .ipv6 sa => sa.addr.length = 16

theorem inetNtop4_take (addr : Bytes) : inetNtop4 (addr.take 4) = inetNtop4 addr := by
  match addr with
  | [] | [_] | [_, _] | [_, _, _] => rfl
  | _ :: _ :: _ :: _ :: _ => rfl

/-- The host is named after its address exactly when the two coincide. -/
theorem originHost_eq_iff {host : Host} (h : host.Sized) :
    originHost host = hostText host ↔ host.Coincides := by
  cases host with
  | domain text => exact ⟨fun _ => trivial, fun _ => rfl⟩
  | ipv4 sa =>
      have hlen : (sa.memory.take 4).length = 4 := by
        simp [SockaddrIn.memory, leBytes16]
      constructor
      · intro heq
        have htake : inetNtop4 (sa.memory.take 4) = inetNtop4 sa.addr := by
          rw [inetNtop4_take]
          exact heq
        exact (inetNtop4_inj hlen h htake).symm
      · intro heq
        show inetNtop4 sa.memory = inetNtop4 sa.addr
        rw [← inetNtop4_take, ← show sa.addr = sa.memory.take 4 from heq]
  | ipv6 sa =>
      have haddr : sa.addr.length = 16 := h
      have hlen : (sa.memory.take 16).length = 16 := by
        simp [SockaddrIn6.memory, leBytes16, haddr]
      constructor
      · intro heq
        exact (inetNtop6_inj hlen h heq).symm
      · intro heq
        show inetNtop6 (sa.memory.take 16) = inetNtop6 sa.addr
        rw [← show sa.addr = sa.memory.take 16 from heq]

namespace AcceptedRequest
variable (r : AcceptedRequest)

theorem host_sized : r.line.requestTarget.host.Sized := by
  have hhost : r.line.requestTarget.host = r.host.host (netPortOf r.port) := rfl
  rw [hhost]
  cases r.host with
  | name text plain no_bracket length =>
      rw [HostSpelling.host]
      cases ha : inetPton4 (cstr text) with
      | none => trivial
      | some addr => exact inetPton4_length ha
  | literal opens text last addr plain no_bracket length parses => exact inetPton6_length parses

theorem originHost_length : (originHost r.line.requestTarget.host).length < maxFqdnLength := by
  have hsized := r.host_sized
  have hhost : r.line.requestTarget.host = r.host.host (netPortOf r.port) := rfl
  rw [hhost] at hsized ⊢
  cases hr : r.host with
  | name text plain no_bracket length =>
      rw [hr, HostSpelling.host] at hsized
      rw [HostSpelling.host]
      cases ha : inetPton4 (cstr text) with
      | none =>
          have hle := (List.takeWhile_prefix (l := text) (· != 0)).length_le
          have hstr : originHost (.domain (filled (maxFqdnLength + 1) text)) = cstr text :=
            cstr_filled_eq _ text
          simp only
          rw [hstr, cstr]
          omega
      | some addr =>
          have hlen := inetPton4_length ha
          have htext := @inetNtop4_text_length ((SockaddrIn.memory
            { port := netPortOf r.port, addr := addr }).take 4)
            (by simp [SockaddrIn.memory, leBytes16])
          rw [inetNtop4_take] at htext
          simp only [originHost, maxFqdnLength]
          omega
  | literal opens text last addr plain no_bracket length parses =>
      have hlen := inetPton6_length parses
      have htext := @inetNtop6_text_length ((SockaddrIn6.memory
        { port := netPortOf r.port, addr := addr }).take 16)
        (by simp [SockaddrIn6.memory, leBytes16, hlen])
      simp only [HostSpelling.host, originHost, maxFqdnLength]
      omega

theorem form_length : (cstr r.form).length < maxOriginForm := by
  have hlen := r.rest_length
  have hle := (List.takeWhile_prefix (l := r.form) (· != 0)).length_le
  have hform : r.form.length < maxOriginForm := by
    rw [RequestFront.form]
    split
    · split <;> decide
    · exact hlen
  rw [cstr]
  omega

/-- A CONNECT, and nothing else, is tunnelled. -/
theorem connect_iff {c : Conn} (hline : c.requestParser.request = r.line)
    (hc : c.connectionRequest.connect = false) :
    (buildConnectionRequest c).connect = true ↔ r.method = ascii "CONNECT" := by
  have hmethod : (buildConnectionRequest c).method = r.method := by
    rw [← r.cstr_method, ← hline]
    rfl
  rw [buildConnectionRequest_tunnels hc, hmethod]

/-- What is printed as the target of an accepted request. -/
theorem target_eq {c : Conn} (hline : c.requestParser.request = r.line)
    (hc : c.connectionRequest.connect = false) :
    (buildConnectionRequest c).target
      = schemeOf r.method ++ originHost r.line.requestTarget.host ++ [chr ':'] ++
          decimal (htons r.line.requestTarget.port).toNat ++
          (if r.method = ascii "CONNECT" then [] else cstr r.form) := by
  have hcolon : ascii ":" = [chr ':'] := by decide
  have htype : r.line.requestTarget.type = targetType r.method := rfl
  have hconnect := r.connect_iff hline hc
  have htarget : (buildConnectionRequest c).target
      = (if c.requestParser.request.requestTarget.type = .absoluteForm then ascii "http://"
          else []) ++ originHost c.requestParser.request.requestTarget.host ++ ascii ":" ++
        decimal (htons c.requestParser.request.requestTarget.port).toNat ++
        (if (buildConnectionRequest c).connect then []
          else cstr c.requestParser.request.requestTarget.originForm) := rfl
  rw [htarget, hline, r.cstr_originForm, hcolon, htype, targetType, schemeOf]
  by_cases hm : r.method = ascii "CONNECT"
  · rw [if_pos hm, if_pos hm, if_pos hm, if_pos (hconnect.mpr hm), if_neg (by decide)]
  · have hfalse : ¬ (buildConnectionRequest c).connect = true := fun h => hm (hconnect.mp h)
    rw [if_neg hm, if_neg hm, if_neg hm, if_neg hfalse, if_pos rfl]

theorem namedTarget_eq : namedTarget r.line
    = schemeOf r.method ++ hostText r.line.requestTarget.host ++ [chr ':'] ++
        decimal (htons r.line.requestTarget.port).toNat ++
        (if r.method = ascii "CONNECT" then [] else cstr r.form) := by
  have htype : r.line.requestTarget.type = targetType r.method := rfl
  rw [namedTarget, htype, targetType, schemeOf, r.cstr_originForm]
  by_cases hm : r.method = ascii "CONNECT"
  · rw [if_pos hm, if_pos hm, if_pos hm, if_neg (by decide), if_neg (by decide)]
  · rw [if_neg hm, if_neg hm, if_neg hm, if_pos rfl, if_pos rfl]

end AcceptedRequest

/-! ## The sniffer's credentials -/

/-- The states of a sniffer: fresh, put to look for an authorization, or fed. -/
inductive SnifferReached : SnifferParser → Prop where
  | init : SnifferReached snifferParserInit
  | modify {p : SnifferParser} : SnifferReached p →
      SnifferReached (modifySnifferState p .sniffHttpAuthorization)
  | feed {p : SnifferParser} {c : UInt8} {owner : DataOwner} {port : UInt16} :
      SnifferReached p → SnifferReached (snifferParserFeed c p owner port)

theorem SnifferReached.foldl {p : SnifferParser} (h : SnifferReached p) (owner : DataOwner)
    (port : UInt16) (bs : Bytes) :
    SnifferReached (bs.foldl (fun p c => snifferParserFeed c p owner port) p) := by
  induction bs generalizing p with
  | nil => exact h
  | cons c bs ih => exact ih h.feed

/-- An array of the declared size whose last byte is a NUL. -/
def Ended (size : Nat) (a : Bytes) : Prop := a.length = size + 1 ∧ a[size]? = some 0

theorem Ended.set {size i : Nat} {a : Bytes} {c : UInt8} (h : Ended size a)
    (hi : i < size ∨ c = 0) : Ended size (a.set i c) := by
  obtain ⟨hlen, hend⟩ := h
  refine ⟨by rw [List.length_set, hlen], ?_⟩
  rw [List.getElem?_set]
  split
  · next he =>
      rcases hi with hi | hi
      · omega
      · rw [if_pos (by omega), hi]
  · exact hend

theorem Ended.putAt {size : Nat} {bs : Bytes} : ∀ {a : Bytes} {i : Nat}, Ended size a →
    i + bs.length ≤ size → Ended size (putAt a i bs) := by
  induction bs with
  | nil => exact fun h _ => h
  | cons b bs ih =>
      intro a i h hlen
      rw [List.length_cons] at hlen
      exact ih (h.set (.inl (by omega))) (by omega)

/-- Its string is as short as declared. -/
theorem Ended.cstr_length {size : Nat} {a : Bytes} (h : Ended size a) :
    (cstr a).length ≤ size := by
  obtain ⟨hlen, hend⟩ := h
  have hle := (List.takeWhile_prefix (l := a) (· != 0)).length_le
  by_cases hfull : (cstr a).length = size + 1
  · have hpre : cstr a <+: a := List.takeWhile_prefix (· != 0)
    have hwhole : cstr a = a := hpre.eq_of_length (by rw [hfull, hlen])
    have hall := List.all_eq_true.mp (List.all_takeWhile (l := a) (p := (· != 0)))
    have hmem : (0 : UInt8) ∈ cstr a := by
      rw [hwhole]
      exact List.mem_of_getElem? hend
    exact absurd (hall 0 hmem) (by decide)
  · rw [cstr] at *
    omega

structure Credentials (p : SnifferParser) : Prop where
  user : Ended maxUserLength p.user
  password : Ended maxPasswordLength p.password

theorem Credentials.of_eq {p q : SnifferParser} (h : Credentials p) (hu : q.user = p.user)
    (hp : q.password = p.password) : Credentials q :=
  ⟨hu ▸ h.user, hp ▸ h.password⟩

theorem Credentials.scan {p : SnifferParser} {s : SnifferState} {c : UInt8}
    {eq : SnifferParser → SnifferParser} (h : Credentials p)
    (heq : ∀ q, Credentials q → Credentials (eq q)) : Credentials (p.scan s c eq) := by
  unfold SnifferParser.scan
  split
  · exact h.of_eq rfl rfl
  · simp only
    split
    · exact heq _ (h.of_eq rfl rfl)
    · exact h.of_eq rfl rfl
    · exact h.of_eq rfl rfl

theorem Credentials.http {p : SnifferParser} {c : UInt8} {owner : DataOwner} (h : Credentials p) :
    Credentials (sHttpVersion c p owner) ∧ Credentials (sHttpAuthorization c p owner) ∧
      Credentials (sHttpAuthorizationBasic c p owner) := by
  have hgoto : ∀ s, Credentials (p.goto s) := fun s => h.of_eq rfl rfl
  refine ⟨?_, ?_, ?_⟩
  · unfold sHttpVersion
    split
    · exact hgoto _
    · split
      · exact hgoto _
      · exact h.scan fun q hq => hq.of_eq rfl rfl
  · unfold sHttpAuthorization
    split
    · exact hgoto _
    · exact h.scan fun q hq => hq.of_eq rfl rfl
  · unfold sHttpAuthorizationBasic
    split
    · exact hgoto _
    · split
      · exact hgoto _
      · exact h.scan fun q hq => hq.of_eq rfl rfl

theorem Credentials.parse {p : SnifferParser} (auth : Bytes) (h : Credentials p) :
    Credentials (parseUserAndPassword auth p) := by
  have huser : Ended maxUserLength
      ((putAt p.user 0 (auth.take (min (auth.takeWhile (· != chr ':')).length maxUserLength))).set
        (min (auth.takeWhile (· != chr ':')).length maxUserLength) 0) := by
    apply Ended.set _ (.inr rfl)
    apply h.user.putAt
    rw [List.length_take]
    omega
  have hpassword : ∀ n (text : Bytes), n ≤ maxPasswordLength → text.length = n →
      Ended maxPasswordLength ((putAt p.password 0 text).set n 0) := by
    intro n text hn hlen
    apply Ended.set _ (.inr rfl)
    apply h.password.putAt
    omega
  unfold parseUserAndPassword
  simp only
  split
  · exact ⟨huser, hpassword _ _ (Nat.min_le_right _ _) (by simp)⟩
  · exact ⟨h.user, hpassword _ _ (Nat.min_le_right _ _) (by simp)⟩

theorem Credentials.value {p : SnifferParser} {c : UInt8} {owner : DataOwner}
    (h : Credentials p) : Credentials (sHttpAuthorizationValue c p owner) := by
  have hgoto : ∀ s, Credentials (p.goto s) := fun s => h.of_eq rfl rfl
  unfold sHttpAuthorizationValue
  split
  · exact hgoto _
  · split
    · exact hgoto _
    · split
      · exact hgoto _
      · split
        · unfold decodeAndParseAuth
          split
          · exact h.of_eq rfl rfl
          · next auth _ =>
              exact (Credentials.parse auth (h.of_eq rfl rfl :
                Credentials { p with authValue := p.authValue.set p.i 0 })).of_eq rfl rfl
        · split
          · exact h.of_eq rfl rfl
          · exact hgoto _

theorem Credentials.pop3 {p : SnifferParser} {c : UInt8} {owner : DataOwner} (h : Credentials p) :
    Credentials (sPop3UserUsernameValue c p owner) ∧
      Credentials (sPop3UserPassValue c p owner) := by
  have hgoto : ∀ s, Credentials (p.goto s) := fun s => h.of_eq rfl rfl
  constructor
  · unfold sPop3UserUsernameValue
    split
    · exact hgoto _
    · split
      · exact hgoto _
      · next hlt =>
          split
          · exact hgoto _
          · split
            · exact ⟨h.user.set (.inr rfl), h.password⟩
            · split
              · exact ⟨h.user.set (.inl (by omega)), h.password⟩
              · exact hgoto _
  · unfold sPop3UserPassValue
    split
    · exact hgoto _
    · split
      · exact hgoto _
      · next hlt =>
          split
          · exact hgoto _
          · split
            · exact ⟨h.user, h.password.set (.inr rfl)⟩
            · split
              · exact ⟨h.user, h.password.set (.inl (by omega))⟩
              · exact hgoto _

theorem Credentials.ack {p : SnifferParser} {s : SnifferState} {c : UInt8} {owner : DataOwner}
    {eq : SnifferParser → SnifferParser} (h : Credentials p)
    (heq : ∀ q, Credentials q → Credentials (eq q)) : Credentials (sPop3Ack s c p owner eq) := by
  unfold sPop3Ack
  split
  · exact h.of_eq rfl rfl
  · split
    · exact h.of_eq rfl rfl
    · exact h.scan heq

theorem Credentials.originAck {p : SnifferParser} {c : UInt8} {owner : DataOwner}
    (h : Credentials p) : Credentials (sPop3OriginAck c p owner) := by
  unfold sPop3OriginAck
  split
  · exact h.of_eq rfl rfl
  · exact h.scan fun q hq => hq.of_eq rfl rfl

/-- Feeding the sniffer keeps both strings ended. -/
theorem Credentials.fed {p : SnifferParser} {c : UInt8} {owner : DataOwner} {port : UInt16}
    (h : Credentials p) : Credentials (snifferParserFeed c p owner port) := by
  rw [snifferParserFeed]
  cases p.state with
  | sniffStart =>
      simp only [sStart]
      split
      · exact Credentials.originAck (h.of_eq rfl rfl)
      · split
        · exact (Credentials.http (p := setStringParser p "HTTP/1") (h.of_eq rfl rfl)).1
        · exact h.of_eq rfl rfl
  | sniffHttpVersion => exact h.http.1
  | sniffHttpAuthorization => exact h.http.2.1
  | sniffHttpAuthorizationBasic => exact h.http.2.2
  | sniffHttpAuthorizationValue => exact h.value
  | sniffPop3OriginAck => exact h.originAck
  | sniffPop3UserUsername =>
      simp only [sPop3UserUsername]
      split
      · exact h.of_eq rfl rfl
      · exact h.scan fun q hq => hq.of_eq rfl rfl
  | sniffPop3UserUsernameValue => exact h.pop3.1
  | sniffPop3OriginUserAck => exact h.ack fun q hq => hq.of_eq rfl rfl
  | sniffPop3UserPass =>
      simp only [sPop3UserPass]
      split
      · exact h.of_eq rfl rfl
      · exact h.scan fun q hq => hq.of_eq rfl rfl
  | sniffPop3UserPassValue => exact h.pop3.2
  | sniffPop3OriginPassAck => exact h.ack fun q hq => hq.of_eq rfl rfl
  | sniffDone | sniffError => exact h

theorem SnifferReached.credentials {p : SnifferParser} (h : SnifferReached p) : Credentials p := by
  induction h with
  | init => exact ⟨⟨rfl, rfl⟩, ⟨rfl, rfl⟩⟩
  | modify _ ih => exact ih.of_eq rfl rfl
  | feed _ ih => exact ih.fed

/-! ## The lengths of the records -/

theorem getTime_length (t : Tm) : (getTime t).length ≤ 27 := by
  have hyear := decimal_length_le (by omega) t.year_lt
  simp only [getTime, twoDigits, List.length_append, List.length_cons, List.length_nil]
  omega

theorem decimal_u16_length (x : UInt16) : (decimal x.toNat).length ≤ 5 := by
  have hlt := x.toNat_lt
  exact decimal_length_le (by omega) (by omega)

theorem writeClientAddrNPort_length (client : ClientAddr) :
    (writeClientAddrNPort client).length ≤ 49 := by
  cases client with
  | in4 sa size =>
      have haddr := inetNtop4_text_length size
      have hport := decimal_u16_length (htons sa.port)
      simp only [writeClientAddrNPort, List.length_append, List.length_cons, List.length_nil]
      omega
  | in6 sa size =>
      have haddr := inetNtop6_text_length size
      have hport := decimal_u16_length (htons sa.port)
      simp only [writeClientAddrNPort, List.length_append, List.length_cons, List.length_nil]
      omega

/-- The arrays of a request and the buffers of its records have room, a NUL
included. -/
structure Fits (request : ConnectionRequest) : Prop where
  target : request.target.length < targetSize
  method : request.method.length < methodSize
  access : ∀ t client status,
    (logNewConnection t client { request with statusCode := status }).length < maxBuffer
  credentials : ∀ t p, SnifferReached p → (logUserAndPassword t request p).length < maxBuffer

/-- A short target and a short method leave room in the records. -/
theorem fits_of_lengths {request : ConnectionRequest} (htarget : request.target.length < targetSize)
    (hmethod : request.method.length < methodSize) : Fits request := by
  have hsize : targetSize = 1307 := by decide
  have hmsize : methodSize = 24 := by decide
  have hbuffer : maxBuffer = 2048 := rfl
  refine ⟨htarget, hmethod, ?_, ?_⟩
  · intro t client status
    have htime := getTime_length t
    have haddr := writeClientAddrNPort_length client
    have hstatus := decimal_u16_length status
    have htype : (ascii "A\t").length = 2 := by decide
    simp only [logNewConnection, List.length_append, List.length_cons, List.length_nil, htype]
    omega
  · intro t p hp
    have htime := getTime_length t
    have hport := decimal_u16_length request.port
    have huser := hp.credentials.user.cstr_length
    have hpassword := hp.credentials.password.cstr_length
    have hlimit : maxUserLength = 40 ∧ maxPasswordLength = 40 := ⟨rfl, rfl⟩
    have htype : (if p.sniffedProtocol = .http then ascii "P\tHTTP\t"
        else ascii "P\tPOP3\t").length = 7 := by
      split <;> decide
    simp only [logUserAndPassword, List.length_append, List.length_cons, List.length_nil, htype]
    omega

theorem AcceptedRequest.fits (r : AcceptedRequest) {c : Conn}
    (hline : c.requestParser.request = r.line) (hc : c.connectionRequest.connect = false) :
    Fits (buildConnectionRequest c) := by
  apply fits_of_lengths
  · have hhost := r.originHost_length
    have hport := decimal_u16_length (htons r.line.requestTarget.port)
    have hform := r.form_length
    have hscheme : (schemeOf r.method).length ≤ schemeLength := by
      rw [schemeOf]
      split <;> decide
    have hlast : (if r.method = ascii "CONNECT" then [] else cstr r.form).length
        ≤ (cstr r.form).length := by
      split <;> simp
    rw [r.target_eq hline hc]
    simp only [List.length_append, List.length_singleton, targetSize, schemeLength, maxFqdnLength,
      maxPortLength, maxOriginForm] at *
    omega
  · have hmethod : (buildConnectionRequest c).method = r.method := by
      rw [← r.cstr_method, ← hline]
      rfl
    rw [hmethod]
    exact r.method_length

/-- The target of a request names what was asked for, and everything that is
made of it fits, exactly when the host is a name or an address that coincides
with the head of its socket address. -/
theorem target_named_iff {bs : Bytes} {c : Conn}
    (h : Lib.Finishes requestParserFeed RequestParser.Done requestParserInit bs)
    (hparser : c.requestParser = bs.foldl requestParserFeed requestParserInit)
    (hc : c.connectionRequest.connect = false) :
    (buildConnectionRequest c).target = namedTarget c.requestParser.request ∧
        Fits (buildConnectionRequest c) ↔
      c.requestParser.request.requestTarget.host.Coincides := by
  obtain ⟨r, rfl, hline⟩ := accepted_reads h
  rw [← hparser] at hline
  have hiff := originHost_eq_iff r.host_sized
  rw [hline, r.target_eq hline hc, r.namedTarget_eq, ← hiff]
  constructor
  · intro ⟨heq, _⟩
    have hhead := List.append_cancel_right (List.append_cancel_right (List.append_cancel_right heq))
    exact List.append_cancel_left hhead
  · intro heq
    exact ⟨by rw [heq], r.fits hline hc⟩

theorem target_named_domain :
    (buildConnectionRequest (Conn.parsing (ascii "GET http://a:81/b HTTP/1.0\r\n"))).target
      = ascii "http://a:81/b" :=
  ((@target_named_iff (ascii "GET http://a:81/b HTTP/1.0\r\n") (Conn.parsing _)
    ⟨by decide +kernel, by decide +kernel⟩ rfl rfl).mpr (by decide +kernel)).1.trans
    (by decide +kernel)

/-- An address is logged as the head of its socket address. -/
theorem address_misnamed :
    Lib.Finishes requestParserFeed RequestParser.Done requestParserInit
        (ascii "GET http://127.0.0.1/ HTTP/1.0\r\n") ∧
      ¬ ((buildConnectionRequest (Conn.parsing (ascii "GET http://127.0.0.1/ HTTP/1.0\r\n"))).target
          = namedTarget
              (Conn.parsing (ascii "GET http://127.0.0.1/ HTTP/1.0\r\n")).requestParser.request ∧
        Fits (buildConnectionRequest
          (Conn.parsing (ascii "GET http://127.0.0.1/ HTTP/1.0\r\n")))) := by
  refine ⟨⟨by decide +kernel, by decide +kernel⟩, ?_⟩
  intro ⟨heq, _⟩
  have htarget : (buildConnectionRequest
      (Conn.parsing (ascii "GET http://127.0.0.1/ HTTP/1.0\r\n"))).target
      = ascii "http://2.0.0.80:80/" := by decide +kernel
  have hnamed : namedTarget
      (Conn.parsing (ascii "GET http://127.0.0.1/ HTTP/1.0\r\n")).requestParser.request
      = ascii "http://127.0.0.1:80/" := by decide +kernel
  rw [htarget, hnamed] at heq
  exact absurd heq (by decide)

/-! ## One line for each record -/

/-- One line of `n` fields, each with a tab behind it. -/
def IsRecord (n : Nat) (record : Bytes) : Prop :=
  record.getLast? = some (chr '\n') ∧ record.count (chr '\n') = 1 ∧ record.count (chr '\t') = n

/-- Neither a line feed nor a tab. -/
def Clean (bs : Bytes) : Prop := bs.count (chr '\n') = 0 ∧ bs.count (chr '\t') = 0

instance (bs : Bytes) : Decidable (Clean bs) :=
  inferInstanceAs (Decidable (_ ∧ _))

theorem getLast_line (xs : Bytes) :
    (xs ++ [chr '\t', chr '\n']).getLast? = some (chr '\n') := by
  rw [List.append_cons, List.getLast?_concat]

theorem clean_of_all {P : UInt8 → Prop} {bs : Bytes} (h : ∀ c ∈ bs, P c) (hlf : ¬ P (chr '\n'))
    (htab : ¬ P (chr '\t')) : Clean bs := by
  constructor
  · rw [List.count_eq_zero]
    exact fun hmem => hlf (h _ hmem)
  · rw [List.count_eq_zero]
    exact fun hmem => htab (h _ hmem)

theorem clean_append {xs ys : Bytes} : Clean (xs ++ ys) ↔ Clean xs ∧ Clean ys := by
  simp only [Clean, List.count_append]
  omega

theorem decimal_clean (n : Nat) : Clean (decimal n) :=
  clean_of_all (decimal_digits n) (by decide) (by decide)

theorem token_clean {method : Bytes} (h : ∀ c ∈ method, isToken c = true) : Clean method :=
  clean_of_all h (by decide) (by decide)

theorem twoDigits_clean {n : Nat} (h : n < 100) : Clean (twoDigits n) := by
  have hall : ∀ k, k < 10 → isDigit (chr '0' + k.toUInt8) = true := by decide +kernel
  refine clean_of_all (P := fun c => isDigit c = true) ?_ (by decide) (by decide)
  intro c hc
  rcases List.mem_cons.mp hc with rfl | hc
  · exact hall _ (by omega)
  · rw [List.mem_singleton.mp hc]
    exact hall _ (by omega)

theorem inetNtop4_clean {addr : Bytes} (h : addr.length = 4) : Clean (inetNtop4 addr) := by
  have hread := inetPton4_ntop4 h
  exact clean_of_all (inetPton4Go_bytes hread) (by decide) (by decide)

theorem inetNtop6_clean {addr : Bytes} (h : addr.length = 16) : Clean (inetNtop6 addr) :=
  clean_of_all (inetPton6_bytes (inetPton6_ntop6 h)) (by decide) (by decide)

/-- The time is a field of its own. -/
theorem getTime_fields (t : Tm) :
    (getTime t).count (chr '\n') = 0 ∧ (getTime t).count (chr '\t') = 1 := by
  have hyear := decimal_clean t.year
  have hmon := twoDigits_clean (n := t.mon + 1) (by have := t.mon_lt; omega)
  have hmday := twoDigits_clean (n := t.mday) (by have := t.mday_le; omega)
  have hhour := twoDigits_clean (n := t.hour) (by have := t.hour_lt; omega)
  have hmin := twoDigits_clean (n := t.min) (by have := t.min_lt; omega)
  have hsec := twoDigits_clean (n := t.sec) (by have := t.sec_le; omega)
  simp only [getTime, List.count_append, hyear.1, hyear.2, hmon.1, hmon.2, hmday.1, hmday.2,
    hhour.1, hhour.2, hmin.1, hmin.2, hsec.1, hsec.2]
  decide

/-- So are the address and the port of the client. -/
theorem writeClientAddrNPort_fields (client : ClientAddr) :
    (writeClientAddrNPort client).count (chr '\n') = 0 ∧
      (writeClientAddrNPort client).count (chr '\t') = 2 := by
  cases client with
  | in4 sa size =>
      have haddr := inetNtop4_clean size
      have hport := decimal_clean (htons sa.port).toNat
      simp only [writeClientAddrNPort, List.count_append, haddr.1, haddr.2, hport.1, hport.2]
      decide
  | in6 sa size =>
      have haddr := inetNtop6_clean size
      have hport := decimal_clean (htons sa.port).toNat
      simp only [writeClientAddrNPort, List.count_append, haddr.1, haddr.2, hport.1, hport.2]
      decide

theorem logNewConnection_record {t : Tm} {client : ClientAddr} {request : ConnectionRequest}
    (hmethod : Clean request.method) :
    IsRecord 7 (logNewConnection t client request) ↔ Clean request.target := by
  have htime := getTime_fields t
  have hclient := writeClientAddrNPort_fields client
  have hstatus := decimal_clean request.statusCode.toNat
  have htype : (ascii "A\t").count (chr '\n') = 0 ∧ (ascii "A\t").count (chr '\t') = 1 := by decide
  have htab : [chr '\t'].count (chr '\n') = 0 ∧ [chr '\t'].count (chr '\t') = 1 := by decide
  have hend : [chr '\t', chr '\n'].count (chr '\n') = 1 ∧
      [chr '\t', chr '\n'].count (chr '\t') = 1 := by decide
  have hlast : (logNewConnection t client request).getLast? = some (chr '\n') := getLast_line _
  rw [IsRecord, and_iff_right hlast]
  simp only [logNewConnection, Clean, List.count_append, htime.1, htime.2, hclient.1, hclient.2,
    hstatus.1, hstatus.2, hmethod.1, hmethod.2, htype.1, htype.2, htab.1, htab.2, hend.1, hend.2]
  omega

theorem logUserAndPassword_record {t : Tm} {request : ConnectionRequest} {p : SnifferParser} :
    IsRecord 7 (logUserAndPassword t request p) ↔
      Clean request.target ∧ Clean (cstr p.user) ∧ Clean (cstr p.password) := by
  have htime := getTime_fields t
  have hport := decimal_clean request.port.toNat
  have htype : (if p.sniffedProtocol = .http then ascii "P\tHTTP\t"
        else ascii "P\tPOP3\t").count (chr '\n') = 0 ∧
      (if p.sniffedProtocol = .http then ascii "P\tHTTP\t"
        else ascii "P\tPOP3\t").count (chr '\t') = 2 := by
    split <;> decide
  have htab : [chr '\t'].count (chr '\n') = 0 ∧ [chr '\t'].count (chr '\t') = 1 := by decide
  have hend : [chr '\t', chr '\n'].count (chr '\n') = 1 ∧
      [chr '\t', chr '\n'].count (chr '\t') = 1 := by decide
  have hlast : (logUserAndPassword t request p).getLast? = some (chr '\n') := getLast_line _
  rw [IsRecord, and_iff_right hlast]
  simp only [logUserAndPassword, Clean, List.count_append, htime.1, htime.2, hport.1, hport.2,
    htype.1, htype.2, htab.1, htab.2, hend.1, hend.2]
  omega

/-- The name of a host, if it is one. -/
def Host.name : Host → Bytes
  | .domain text => cstr text
  | .ipv4 _ | .ipv6 _ => []

/-- The name of the host and, unless a tunnel is asked for, the origin form
have neither a line feed nor a tab. -/
def CleanRequest (line : RequestLine) : Prop :=
  Clean line.requestTarget.host.name ∧
    (line.requestTarget.type = .absoluteForm → Clean (cstr line.requestTarget.originForm))

theorem originHost_clean_iff {host : Host} (h : host.Sized) :
    Clean (originHost host) ↔ Clean host.name := by
  have hnil : Clean ([] : Bytes) := by decide
  cases host with
  | domain text => exact Iff.rfl
  | ipv4 sa =>
      have hclean : Clean (inetNtop4 sa.memory) := by
        rw [← inetNtop4_take]
        exact inetNtop4_clean (by simp [SockaddrIn.memory, leBytes16])
      exact ⟨fun _ => hnil, fun _ => hclean⟩
  | ipv6 sa =>
      have haddr : sa.addr.length = 16 := h
      have hclean : Clean (inetNtop6 (sa.memory.take 16)) :=
        inetNtop6_clean (by simp [SockaddrIn6.memory, leBytes16, haddr])
      exact ⟨fun _ => hnil, fun _ => hclean⟩

theorem AcceptedRequest.target_clean_iff (r : AcceptedRequest) {c : Conn}
    (hline : c.requestParser.request = r.line) (hc : c.connectionRequest.connect = false) :
    Clean (buildConnectionRequest c).target ↔ CleanRequest r.line := by
  have hscheme : Clean (schemeOf r.method) := by
    rw [schemeOf]
    split <;> decide
  have hcolon : Clean [chr ':'] := by decide
  have hport := decimal_clean (htons r.line.requestTarget.port).toNat
  have htype : r.line.requestTarget.type = targetType r.method := rfl
  rw [r.target_eq hline hc, CleanRequest, htype, targetType, r.cstr_originForm]
  simp only [clean_append, originHost_clean_iff r.host_sized]
  by_cases hm : r.method = ascii "CONNECT"
  · have hnil : Clean ([] : Bytes) := by decide
    simp [hm, hcolon, hport, hnil, show Clean (schemeOf (ascii "CONNECT")) by decide]
  · simp [hm, hscheme, hcolon, hport]

/-- The records of an accepted request are lines of their own exactly when the
request and the credentials hold no line feed and no tab. -/
theorem records_unforged_iff {bs : Bytes} {c : Conn}
    (h : Lib.Finishes requestParserFeed RequestParser.Done requestParserInit bs)
    (hparser : c.requestParser = bs.foldl requestParserFeed requestParserInit)
    (hc : c.connectionRequest.connect = false) (t : Tm) (client : ClientAddr) (status : UInt16)
    (p : SnifferParser) :
    (IsRecord 7 (logNewConnection t client
        { buildConnectionRequest c with statusCode := status }) ↔
      CleanRequest c.requestParser.request) ∧
    (IsRecord 7 (logUserAndPassword t (buildConnectionRequest c) p) ↔
      CleanRequest c.requestParser.request ∧ Clean (cstr p.user) ∧ Clean (cstr p.password)) := by
  obtain ⟨r, rfl, hline⟩ := accepted_reads h
  rw [← hparser] at hline
  have htarget := r.target_clean_iff hline hc
  have hmethod : Clean (buildConnectionRequest c).method := by
    have heq : (buildConnectionRequest c).method = r.method := by
      rw [← r.cstr_method, ← hline]
      rfl
    rw [heq]
    exact token_clean r.method_token
  rw [hline, ← htarget]
  exact ⟨logNewConnection_record hmethod, logUserAndPassword_record⟩

/-- 2020-06-15T19:56:34Z. -/
def exampleTime : Tm where
  year := 2020
  mon := 5
  mday := 15
  hour := 19
  min := 56
  sec := 34
  year_lt := by decide
  mon_lt := by decide
  mday_le := by decide
  hour_lt := by decide
  min_lt := by decide
  sec_le := by decide

/-- 127.0.0.1, port 54786. -/
def exampleClient : ClientAddr := .in4 ⟨htons 54786, [127, 0, 0, 1]⟩ rfl

theorem record_of_plain_request :
    IsRecord 7 (logNewConnection exampleTime exampleClient
      { buildConnectionRequest (Conn.parsing (ascii "GET http://a/b HTTP/1.0\r\n")) with
        statusCode := 200 }) :=
  (@records_unforged_iff (ascii "GET http://a/b HTTP/1.0\r\n") (Conn.parsing _)
    ⟨by decide +kernel, by decide +kernel⟩ rfl rfl exampleTime exampleClient 200
    snifferParserInit).1.mpr ⟨by decide +kernel, fun _ => by decide +kernel⟩

/-- A sniffer that has seen `a` and a password of two lines. -/
def twoLinePassword : SnifferParser :=
  (ascii "Authorization: Basic YTpiCmM=\r").foldl
    (fun p c => snifferParserFeed c p .clientOwned 80)
    (modifySnifferState snifferParserInit .sniffHttpAuthorization)

theorem password_forges_line :
    SnifferReached twoLinePassword ∧ cstr twoLinePassword.password = ascii "b\nc" ∧
      Lib.Finishes requestParserFeed RequestParser.Done requestParserInit
        (ascii "GET http://a/ HTTP/1.0\r\n") ∧
      ¬ IsRecord 7 (logUserAndPassword exampleTime
        (buildConnectionRequest (Conn.parsing (ascii "GET http://a/ HTTP/1.0\r\n")))
        twoLinePassword) := by
  have hpassword : cstr twoLinePassword.password = ascii "b\nc" := by decide +kernel
  refine ⟨SnifferReached.init.modify.foldl .clientOwned 80 _, hpassword,
    ⟨by decide +kernel, by decide +kernel⟩, ?_⟩
  intro h
  have hclean := (logUserAndPassword_record.mp h).2.2
  rw [hpassword] at hclean
  exact absurd hclean (by decide)

end HttpdProxy
