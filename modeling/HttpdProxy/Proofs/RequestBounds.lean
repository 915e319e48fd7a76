import HttpdProxy.Checked.RequestLine
import HttpdProxy.Proofs.AcceptedRequests

/-!
# The request line parser and its arrays

The counter and the limit of every state keep it inside its arrays, and each
of them has a NUL left whenever it is passed on as a string. The exception is
the byte before the counter, which an IPv6 literal looks at: behind the opening
bracket alone there is no such byte.
-/

namespace HttpdProxy

open Lib (readAt storeAt)

namespace RequestParser

variable {c : UInt8} {p : RequestParser}

/-! ## The accesses -/

theorem setMethod?_eq (h : p.i < p.request.method.length) :
    p.setMethod? c
      = some { p with request := { p.request with method := p.request.method.set p.i c } } := by
  rw [setMethod?, Lib.storeAt_natCast h]
  rfl

theorem setOriginForm?_eq {i : Nat} (h : i < p.target.originForm.length) :
    p.setOriginForm? i c = some (p.setOriginForm i c) := by
  rw [setOriginForm?, Lib.storeAt_natCast h]
  rfl

theorem setDomain?_eq {i : Nat} (h : i < p.target.host.text.length) :
    p.setDomain? i c = some (p.setDomain i c) := by
  rw [setDomain?, Lib.storeAt_natCast h, setDomain, setInt, if_pos (Int.natCast_nonneg i),
    Int.toNat_natCast]
  rfl

theorem cstr?_eq {a : Bytes} (h : 0 ∈ a) : cstr? a = some (cstr a) := if_pos h

theorem parseIpv6?_eq (h : 0 ∈ p.target.host.text) : parseIpv6? p = some (parseIpv6 p) := by
  rw [parseIpv6?, cstr?_eq h, parseIpv6]
  simp only [Option.bind_eq_bind, Option.bind_some]
  cases inetPton6 (cstr p.target.host.text) <;> rfl

theorem parseIpv4?_eq (h : 0 ∈ p.target.host.text) : parseIpv4? p = some (parseIpv4 p) := by
  rw [parseIpv4?, cstr?_eq h, parseIpv4]
  simp only [Option.bind_eq_bind, Option.bind_some]
  cases inetPton4 (cstr p.target.host.text) <;> rfl

/-! ## The end of the authority -/

/-- What the arrays are while the authority is read: the method ends in a NUL
and the origin form has its size. -/
structure Framed (p : RequestParser) : Prop where
  method : 0 ∈ p.request.method
  originForm : p.target.originForm.length = maxOriginForm

theorem enterOgform?_eq (h : p.Framed) : enterOgform? c p = some (enterOgform c p) := by
  rw [enterOgform?, setOriginForm?_eq (by rw [h.originForm]; decide)]
  rfl

theorem enterVersion?_eq (h : p.Framed) : enterVersion? p = some (enterVersion p) := by
  rw [enterVersion?, cstr?_eq h.method, enterVersion, defaultOriginForm]
  simp only [Option.bind_eq_bind, Option.bind_some]
  split
  · rw [setOriginForm?_eq (by rw [h.originForm]; decide)]
    rfl
  · rfl

theorem parseIpv4_framed (h : p.Framed) : (parseIpv4 p).Framed := by
  unfold parseIpv4
  split
  · exact ⟨h.method, h.originForm⟩
  · exact ⟨h.method, h.originForm⟩

theorem parseIpv6_framed {q : RequestParser} (h : p.Framed) (hq : parseIpv6 p = some q) :
    q.Framed := by
  unfold parseIpv6 at hq
  split at hq
  · cases hq
  · cases hq
    exact ⟨h.method, h.originForm⟩

theorem closePort_framed (h : p.Framed) : (closePort p).Framed := by
  unfold closePort assignPort
  split
  · exact ⟨h.method, h.originForm⟩
  · exact ⟨h.method, h.originForm⟩
  · exact ⟨h.method, h.originForm⟩

/-- Behind a byte of the literal there is one to overwrite. -/
theorem closeLiteral?_eq {k : Nat} {next : RequestParser → Option RequestParser} (hk : p.i = k + 1)
    (htext : k < p.target.host.text.length) :
    closeLiteral? p next = match parseIpv6 (p.setDomain (p.i - 1) 0) with
      | none => some (p.setDomain (p.i - 1) 0).fail
      | some q => next q := by
  have hidx : (p.i : Int) - 1 = (k : Int) := by omega
  have hnul : 0 ∈ (p.setDomain (k : Int) 0).target.host.text := by
    show 0 ∈ setInt p.target.host.text (k : Int) 0
    rw [setInt, if_pos (Int.natCast_nonneg k), Int.toNat_natCast]
    exact List.mem_iff_getElem.mpr ⟨k, by rwa [List.length_set], List.getElem_set_self _⟩
  rw [closeLiteral?, hidx, setDomain?_eq htext]
  simp only [Option.bind_eq_bind, Option.bind_some]
  refine (congrArg (Option.bind · _) (parseIpv6?_eq hnul)).trans ?_
  cases parseIpv6 (p.setDomain (k : Int) 0) with
  | none => rfl
  | some q => rfl

theorem afterBracket?_eq {k : Nat} (hk : p.i = k + 1) (htext : k < p.target.host.text.length) :
    afterBracket? c p
      = some (decide (c = chr ':') && decide (getInt p.target.host.text (p.i - 1) = chr ']')) := by
  have hidx : (p.i : Int) - 1 = (k : Int) := by omega
  rw [afterBracket?, hidx, Lib.readAt_natCast, getInt, if_pos (Int.natCast_nonneg k),
    Int.toNat_natCast, List.getD_eq_getElem?_getD, List.getElem?_eq_getElem htext]
  by_cases hcolon : c = chr ':'
  · rw [if_pos hcolon, decide_eq_true hcolon, Bool.true_and]
    rfl
  · rw [if_neg hcolon, decide_eq_false hcolon, Bool.false_and]

theorem closeLiteral?_open {next : RequestParser → Option RequestParser} (hi : p.i = 0) :
    closeLiteral? p next = none := by
  rw [closeLiteral?, setDomain?, Lib.storeAt_negative (by omega)]
  rfl

/-! ## The states -/

theorem rMethod?_eq (hlen : p.request.method.length = maxMethodLength + 1)
    (hn : p.n = maxMethodLength) : rMethod? c p = some (rMethod c p) := by
  unfold rMethod? rMethod
  by_cases hi : p.i < p.n
  · have hroom : p.i < p.request.method.length := by omega
    rw [if_pos hi, if_pos hi, setMethod?_eq hroom, setMethod?_eq hroom]
    by_cases htok : isToken c = true
    · rw [if_pos htok, if_pos htok]
      rfl
    · rw [if_neg htok, if_neg htok]
      by_cases hspace : c = chr ' '
      · have hnul : 0 ∈ p.request.method.set p.i 0 :=
          List.mem_iff_getElem.mpr ⟨p.i, by rwa [List.length_set], List.getElem_set_self _⟩
        rw [if_pos hspace, if_pos hspace]
        simp only [Option.bind_eq_bind, Option.bind_some, getMethodState?, getMethodState,
          cstr?_eq hnul]
        split <;> rfl
      · rw [if_neg hspace, if_neg hspace]
  · rw [if_neg hi, if_neg hi]

/-- A literal is read below its limit, and so before its NUL. -/
theorem readAt_literal {s : String} {i : Nat} (hi : i < (ascii s).length) :
    readAt (literal s) (i : Int) = some ((ascii s).getD i 0) := by
  rw [Lib.readAt_natCast, literal, List.getElem?_append_left hi, List.getD_eq_getElem?_getD,
    List.getElem?_eq_getElem hi]
  rfl

theorem rTargetScheme?_eq (hn : p.n = schemeLength) :
    rTargetScheme? c p = some (rTargetScheme c p) := by
  have hlen : (ascii "http://").length = schemeLength := by decide
  unfold rTargetScheme? rTargetScheme
  by_cases hi : p.i ≥ p.n
  · rw [if_pos hi, if_pos (.inl hi)]
  · rw [if_neg hi, readAt_literal (by omega)]
    simp only [Option.bind_eq_bind, Option.bind_some]
    by_cases hc : (ascii "http://").getD p.i 0 ≠ c
    · rw [if_pos hc, if_pos (.inr hc)]
    · rw [if_neg hc, if_neg (not_or.mpr ⟨hi, hc⟩)]
      split <;> rfl

theorem rVersion?_eq (hi : p.i < 5) : rVersion? c p = some (rVersion c p) := by
  have hlen : (ascii "HTTP/").length = 5 := by decide
  unfold rVersion? rVersion
  by_cases hn : p.i ≥ p.n
  · rw [if_pos hn, if_pos (.inl hn)]
  · rw [if_neg hn, readAt_literal (by omega)]
    simp only [Option.bind_eq_bind, Option.bind_some]
    by_cases hc : (ascii "HTTP/").getD p.i 0 ≠ c
    · rw [if_pos hc, if_pos (.inr hc)]
    · rw [if_neg hc, if_neg (not_or.mpr ⟨hn, hc⟩)]
      split <;> rfl

theorem rTargetOgform?_eq (hlen : p.target.originForm.length = maxOriginForm)
    (hn : p.n = maxOriginForm) : rTargetOgform? c p = some (rTargetOgform c p) := by
  unfold rTargetOgform? rTargetOgform
  by_cases hi : p.i ≥ p.n
  · rw [if_pos hi, if_pos hi]
  · rw [if_neg hi, if_neg hi, setOriginForm?_eq (by omega)]
    split <;> rfl

theorem rTargetPort?_eq (h : p.Framed) : rTargetPort? c p = some (rTargetPort c p) := by
  have hclosed := closePort_framed h
  unfold rTargetPort?
  by_cases hi : p.i ≥ p.n
  · rw [if_pos hi, rTargetPort, if_pos hi]
  · rw [if_neg hi]
    by_cases hend : endOfAuthority c = true
    · rw [if_pos hend, enterOgform?_eq hclosed, rTargetPort, if_neg hi, if_pos hend]
    · rw [if_neg hend]
      by_cases hspace : c = chr ' '
      · rw [if_pos hspace, enterVersion?_eq hclosed, rTargetPort, if_neg hi, if_neg hend,
          if_pos hspace]
      · rw [if_neg hspace]

/-- What the host's array is while it is read: it has its size, and a NUL. -/
structure Hosted (p : RequestParser) : Prop extends p.Framed where
  limit : p.n = maxFqdnLength
  length : p.target.host.text.length = maxFqdnLength + 1
  nul : 0 ∈ p.target.host.text

theorem rTargetHost?_name (h : p.Hosted) (ht : p.target.hostType ≠ .ipv6) :
    rTargetHost? c p = some (rTargetHost c p) := by
  have hparsed := parseIpv4_framed h.toFramed
  unfold rTargetHost? rTargetHost
  by_cases hi : p.i ≥ p.n
  · rw [if_pos hi, if_pos hi]
  · have hroom : p.i < p.target.host.text.length := by
      rw [h.length, ← h.limit]
      omega
    rw [if_neg hi, if_neg hi, if_neg ht, if_neg ht, parseIpv4?_eq h.nul, setDomain?_eq hroom]
    simp only [Option.bind_eq_bind, Option.bind_some, enterOgform?_eq hparsed,
      enterVersion?_eq hparsed]
    repeat' split
    all_goals rfl

/-- Behind the opening brackets of a literal the first byte must not end
it. -/
theorem rTargetHost?_literal (h : p.Hosted) (ht : p.target.hostType = .ipv6)
    (hbare : ¬ (p.i = 0 ∧ EndsHost c)) : rTargetHost? c p = some (rTargetHost c p) := by
  unfold rTargetHost? rTargetHost
  by_cases hi : p.i ≥ p.n
  · rw [if_pos hi, if_pos hi]
  · have hroom : p.i < p.target.host.text.length := by
      rw [h.length, ← h.limit]
      omega
    rw [if_neg hi, if_neg hi, if_pos ht, if_pos ht, setDomain?_eq hroom]
    by_cases hopen : p.i = 0 ∧ c = chr '['
    · rw [if_pos hopen, if_pos hopen]
    · rw [if_neg hopen, if_neg hopen]
      by_cases hclose : c = chr ']'
      · rw [if_pos hclose, if_pos hclose]
        rfl
      · rw [if_neg hclose, if_neg hclose]
        by_cases hzero : p.i = 0
        · have hplain : ¬ EndsHost c := fun hc => hbare ⟨hzero, hc⟩
          simp only [EndsHost, not_or] at hplain
          obtain ⟨hcolon, hend, hspace⟩ := hplain
          rw [afterBracket?, if_neg hcolon, Option.bind_some, if_neg Bool.false_ne_true,
            if_neg hend, if_neg hspace, if_neg (fun hboth => hcolon hboth.1), if_neg hend,
            if_neg hspace]
          rfl
        · obtain ⟨k, hk⟩ := Nat.exists_eq_succ_of_ne_zero hzero
          have hbefore : k < p.target.host.text.length := by omega
          have hframed : (p.setDomain ((p.i : Int) - 1) 0).Framed := ⟨h.method, h.originForm⟩
          rw [afterBracket?_eq hk hbefore, Option.bind_some, closeLiteral?_eq hk hbefore,
            closeLiteral?_eq hk hbefore, closeLiteral?_eq hk hbefore]
          simp only [Bool.and_eq_true, decide_eq_true_eq]
          cases hparse : parseIpv6 (p.setDomain ((p.i : Int) - 1) 0) with
          | none =>
              dsimp only
              repeat' split
              all_goals rfl
          | some q =>
              have hq := parseIpv6_framed hframed hparse
              simp only [enterOgform?_eq hq, enterVersion?_eq hq]
              repeat' split
              all_goals rfl

/-- There is no byte before the first. -/
theorem rTargetHost?_bare (h : p.Hosted) (ht : p.target.hostType = .ipv6) (hi : p.i = 0)
    (hc : EndsHost c) : rTargetHost? c p = none := by
  have hlimit : ¬ p.i ≥ p.n := by
    rw [h.limit, hi]
    decide
  unfold rTargetHost?
  rw [if_neg hlimit, if_neg (fun hopen => hc.plain.1 hopen.2), if_pos ht, if_neg hc.plain.2]
  by_cases hcolon : c = chr ':'
  · have hread : readAt p.target.host.text ((p.i : Int) - 1) = none := by
      rw [readAt, if_neg (by omega)]
    rw [afterBracket?, if_pos hcolon, hread]
    rfl
  · rw [afterBracket?, if_neg hcolon, Option.bind_some, if_neg Bool.false_ne_true,
      closeLiteral?_open hi, closeLiteral?_open hi]
    by_cases hend : endOfAuthority c = true
    · rw [if_pos hend]
    · rw [if_neg hend, if_pos (hc.space hcolon hend)]

/-! ## Where the parser stands -/

/-- The brackets of a literal have been opened, and no byte of it has been
stored. -/
def Opened (p : RequestParser) : Prop :=
  p.state = .requestTargetHost ∧ p.target.hostType = .ipv6 ∧ p.i = 0

theorem framed_authorityLine {method : Bytes} {type : TargetType} {hostType : HostType}
    {host : Host} {port : UInt16} {s : RequestState} {i n : Nat}
    (hlen : method.length < maxMethodLength) :
    RequestParser.Framed
      { request := authorityLine method type hostType host port, state := s, i := i, n := n } :=
  ⟨zero_mem_filled (by omega), List.length_replicate ..⟩

theorem hosted_atHost {method host : Bytes} {type : TargetType} {hostType : HostType}
    (hlen : method.length < maxMethodLength) (hmax : host.length ≤ maxFqdnLength) :
    (atHost method type hostType host).Hosted where
  toFramed := framed_authorityLine hlen
  limit := rfl
  length := filled_length (by omega)
  nul := zero_mem_filled (by omega)

/-- Outside an opened literal every access of a step is in bounds. -/
theorem Reads.feed?_eq {text : Bytes} (h : Reads text p) (hbare : ¬ (p.Opened ∧ EndsHost c)) :
    requestParserFeed? p c = some (requestParserFeed p c) := by
  cases h with
  | method _ hlen _ => exact rMethod?_eq (filled_length (by omega)) rfl
  | scheme => exact rTargetScheme?_eq rfl
  | name _ hlen _ _ hmax _ => exact rTargetHost?_name (hosted_atHost hlen hmax) (by simp [atHost,
      authorityLine, target])
  | literal _ hlen _ _ hmax _ =>
      refine rTargetHost?_literal (hosted_atHost hlen hmax) rfl ?_
      intro hends
      exact hbare ⟨⟨rfl, rfl, hends.1⟩, hends.2⟩
  | port _ hlen _ _ _ _ => exact rTargetPort?_eq (framed_authorityLine hlen)
  | form _ _ _ _ hmax _ => exact rTargetOgform?_eq (filled_length hmax) rfl
  | version _ hk _ => exact rVersion?_eq hk
  | major => rfl
  | minor => rfl
  | ending => rfl
  | done => rfl
  | failed hstop _ =>
      obtain hs | hs | hs | hs := hstop
      all_goals simp only [requestParserFeed?, hs]

/-- A byte that ends an opened literal looks in front of the array. -/
theorem Reads.feed?_opened {text : Bytes} (h : Reads text p) (hopen : p.Opened)
    (hc : EndsHost c) : requestParserFeed? p c = none := by
  obtain ⟨hstate, htype, hi⟩ := hopen
  cases h with
  | literal _ hlen _ _ hmax _ =>
      exact rTargetHost?_bare (hosted_atHost hlen hmax) rfl hi hc
  | name => cases htype
  | failed hstop _ =>
      obtain hs | hs | hs | hs := hstop
      all_goals
        rw [hstate] at hs
        cases hs
  | _ => cases hstate

theorem Reads.feed?_isSome_iff {text : Bytes} (h : Reads text p) :
    (requestParserFeed? p c).isSome = true ↔ ¬ (p.Opened ∧ EndsHost c) := by
  constructor
  · intro hsome hbare
    rw [h.feed?_opened hbare.1 hbare.2] at hsome
    cases hsome
  · intro hbare
    rw [h.feed?_eq hbare]
    rfl

/-- The parser with its accesses checked, over the states that it reaches. -/
theorem checks : Lib.Checks (fun p => ∃ text, Reads text p) requestParserFeed?
    requestParserFeed where
  agrees := by
    intro p c q hp hq
    obtain ⟨text, htext⟩ := hp
    have hsome : (requestParserFeed? p c).isSome = true := by rw [hq]; rfl
    rw [htext.feed?_eq (htext.feed?_isSome_iff.mp hsome)] at hq
    exact Option.some.inj hq
  keeps := by
    intro p c hp
    obtain ⟨text, htext⟩ := hp
    exact ⟨text ++ [c], htext.step c⟩

/-! ## The opened literal -/

/-- What leads to an opened literal: a method, a scheme unless it is a
`CONNECT`, and brackets. -/
def opening (method : Bytes) (opens : Nat) : Bytes :=
  method ++ [chr ' '] ++ schemeOf method ++ List.replicate (opens + 1) (chr '[')

theorem feed_opens (method : Bytes) (type : TargetType) (opens : Nat) :
    (List.replicate (opens + 1) (chr '[')).foldl requestParserFeed (atHost method type .domain [])
      = atHost method type .ipv6 [] := by
  rw [List.replicate_succ, List.foldl_cons, feed_open]
  induction opens with
  | zero => rfl
  | succ k ih =>
      have hagain : requestParserFeed (atHost method type .ipv6 []) (chr '[')
          = atHost method type .ipv6 [] := rfl
      rw [List.replicate_succ, List.foldl_cons, hagain, ih]

theorem feed_opening {method : Bytes} {opens : Nat} (htok : ∀ c ∈ method, isToken c = true)
    (hlen : method.length < maxMethodLength) :
    (opening method opens).foldl requestParserFeed requestParserInit
      = atHost method (targetType method) .ipv6 [] := by
  rw [opening, List.foldl_append, List.foldl_append, List.foldl_append,
    feed_method htok (by omega), List.foldl_cons, List.foldl_nil, feed_method_end htok hlen,
    schemeOf, targetType]
  by_cases hconnect : method = ascii "CONNECT"
  · rw [if_pos hconnect, if_pos hconnect, if_pos hconnect, List.foldl_nil, feed_opens]
  · rw [if_neg hconnect, if_neg hconnect, if_neg hconnect, feed_scheme, feed_opens]

theorem opened_iff (text : Bytes) :
    (text.foldl requestParserFeed requestParserInit).Opened ↔
      ∃ method opens, (∀ c ∈ method, isToken c = true) ∧ method.length < maxMethodLength ∧
        text = opening method opens := by
  constructor
  · intro hopen
    have hreads := reads text
    revert hreads hopen
    generalize text.foldl requestParserFeed requestParserInit = p
    intro hopen hreads
    obtain ⟨hstate, htype, hi⟩ := hopen
    cases hreads with
    | @literal method host opens htok hlen _ _ _ htext =>
        refine ⟨method, opens, htok, hlen, ?_⟩
        rw [htext, List.length_eq_zero_iff.mp hi, List.append_nil, opening]
    | name => cases htype
    | failed hstop _ =>
        obtain hs | hs | hs | hs := hstop
        all_goals
          rw [hstate] at hs
          cases hs
    | _ => cases hstate
  · rintro ⟨method, opens, htok, hlen, rfl⟩
    rw [feed_opening htok hlen]
    exact ⟨rfl, rfl, rfl⟩

/-! ## Runs -/

/-- What is read as a string once the request line is done: the method and the
origin form to be forwarded, and the domain to be resolved. -/
structure Strings (p : RequestParser) : Prop where
  method : 0 ∈ p.request.method
  originForm : 0 ∈ p.target.originForm
  domain : p.target.hostType = .domain → 0 ∈ p.target.host.text

theorem strings_endAt (r : AcceptedRequest) (s : RequestState) : (endAt r s).Strings where
  method := by
    have hlen := r.method_length
    exact zero_mem_filled (by omega)
  originForm := by
    refine zero_mem_filled ?_
    unfold RequestFront.form
    split
    · split
      · decide
      · decide
    · exact r.rest_length
  domain := by
    intro htype
    change r.host.type = .domain at htype
    show 0 ∈ (r.host.host (netPortOf r.port)).text
    cases hhost : r.host with
    | name text plain noBracket length =>
        rw [hhost, HostSpelling.type] at htype
        rw [HostSpelling.host]
        cases haddr : inetPton4 (cstr text) with
        | none =>
            have hroom : text.length < maxFqdnLength + 1 := by omega
            exact zero_mem_filled hroom
        | some addr =>
            rw [haddr] at htype
            cases htype
    | literal =>
        rw [hhost] at htype
        cases htype

end RequestParser

/-- No access of the run is outside its array, nor is any array without a NUL
passed on as a string. -/
def RequestInBounds (text : Bytes) : Prop :=
  ∃ p, text.foldlM requestParserFeed? requestParserInit = some p ∧
    (p.state = .requestDone → p.Strings)

/-- An IPv6 literal that ends right behind its opening brackets. -/
def BareLiteral (text : Bytes) : Prop :=
  ∃ method opens c, (∀ b ∈ method, isToken b = true) ∧ method.length < maxMethodLength ∧
    EndsHost c ∧ RequestParser.opening method opens ++ [c] <+: text

/-- The parser stays inside its arrays on exactly the requests that do not
have one. -/
theorem request_inBounds_iff (text : Bytes) : RequestInBounds text ↔ ¬ BareLiteral text := by
  have hinit : ∃ text, RequestParser.Reads text requestParserInit := ⟨[], RequestParser.reads []⟩
  have hrun : (text.foldlM requestParserFeed? requestParserInit).isSome = true ↔ _ :=
    RequestParser.checks.run_isSome_iff hinit
  constructor
  · rintro ⟨p, hp, -⟩ ⟨method, opens, c, htok, hlen, hc, hpre⟩
    have hstep := hrun.mp (by rw [hp]; rfl) _ c hpre
    rw [RequestParser.Reads.feed?_isSome_iff (RequestParser.reads _)] at hstep
    exact hstep ⟨(RequestParser.opened_iff _).mpr ⟨method, opens, htok, hlen, rfl⟩, hc⟩
  · intro hbare
    have hsome : (text.foldlM requestParserFeed? requestParserInit).isSome = true := by
      refine hrun.mpr ?_
      intro pre c hpre
      rw [RequestParser.Reads.feed?_isSome_iff (RequestParser.reads pre)]
      rintro ⟨hopen, hc⟩
      obtain ⟨method, opens, htok, hlen, rfl⟩ := (RequestParser.opened_iff pre).mp hopen
      exact hbare ⟨method, opens, c, htok, hlen, hc, hpre⟩
    obtain ⟨p, hp⟩ := Option.isSome_iff_exists.mp hsome
    refine ⟨p, hp, ?_⟩
    intro hdone
    have hreads := RequestParser.reads text
    rw [RequestParser.checks.run_eq hinit hp] at hreads
    cases hreads with
    | done r more _ => exact RequestParser.strings_endAt r _
    | failed _ hne => exact absurd hdone hne
    | _ => cases hdone

/-- `GET http://[::1]/` reads `domain[-1]` at the first colon. -/
theorem literal_without_prefix : ¬ RequestInBounds (ascii "GET http://[::1]/ HTTP/1.1\r\n") := by
  rintro ⟨p, hp, -⟩
  revert hp
  have hnone : (ascii "GET http://[::1]/ HTTP/1.1\r\n").foldlM requestParserFeed?
      requestParserInit = none := by decide +kernel
  rw [hnone]
  intro hp
  cases hp

end HttpdProxy
