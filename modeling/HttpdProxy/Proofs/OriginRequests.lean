import HttpdProxy.Proofs.Authorities
import HttpdProxy.States.Setup

/-!
# The request line that the origin is sent

What `build_connection_request` prints is compared with what the client asked
for: the path and the query of its target, on a line of their own.
-/

namespace HttpdProxy

/-- The arrays of `connection_request_t`. -/
def requestLineSize : Nat :=
  maxMethodLength + schemeLength + maxFqdnLength + maxPortLength + maxOriginForm +
    versionLength + 16

/-- A control character. -/
def isControl (c : UInt8) : Bool := c < 0x20 || c == 0x7F

/-- A target without its fragment. -/
def pathAndQuery (rest : Bytes) : Bytes := rest.takeWhile (· != chr '#')

/-- A target without its query and its fragment. -/
def pathOf (rest : Bytes) : Bytes := rest.takeWhile fun c => c != chr '?' && c != chr '#'

/-- The target that the origin is to be sent. -/
def originTarget (method rest : Bytes) : Bytes :=
  if method = ascii "OPTIONS" ∧ pathOf rest = [] then [chr '*']
  else if (pathAndQuery rest).head? = some (chr '/') then pathAndQuery rest
  else chr '/' :: pathAndQuery rest

/-- One well-formed request line for the target of the request, which fits. -/
def SendsRequest (bs line : Bytes) : Prop :=
  ∃ method, method ≠ [] ∧ (∀ c ∈ method, isToken c = true) ∧
    line = method ++ [chr ' '] ++ originTarget (requestMethodOf bs) (restOf bs) ++
      ascii " HTTP/1.0\r\n" ∧
    (∀ c ∈ originTarget (requestMethodOf bs) (restOf bs), isControl c = false ∧ c ≠ chr ' ') ∧
    line.length < requestLineSize

/-- The requests for which that is done: the method is not empty and what
follows the authority is nothing, or a path with no control character and no
fragment. -/
def PlainTarget (bs : Bytes) : Prop :=
  requestMethodOf bs ≠ [] ∧ (restOf bs = [] ∨ (restOf bs).head? = some (chr '/') ∧
    ∀ c ∈ restOf bs, isControl c = false ∧ c ≠ chr '#')

/-- The target that is printed. -/
def printedTarget (method rest : Bytes) : Bytes :=
  if rest = [] then (if method = ascii "OPTIONS" then [chr '*'] else [chr '/']) else cstr rest

theorem cstr_cons {c : UInt8} (text : Bytes) (hc : c ≠ 0) :
    cstr (c :: text) = c :: cstr text := by
  simp [cstr, hc]

theorem endOfAuthority_ne_zero {c : UInt8} (h : endOfAuthority c = true) : c ≠ 0 := by
  rintro rfl
  revert h
  decide

namespace AcceptedRequest
variable (r : AcceptedRequest)

theorem cstr_method : cstr r.line.method = r.method := by
  have hlen := r.method_length
  exact HttpdProxy.cstr_method r.method_token (by omega)

theorem cstr_originForm : cstr r.line.requestTarget.originForm = cstr r.form :=
  cstr_filled_eq maxOriginForm r.form

theorem cstr_form_ne_nil (h : r.rest ≠ []) : cstr r.form ≠ [] := by
  obtain ⟨c, rest, hcons⟩ := List.exists_cons_of_ne_nil h
  have hend := r.rest_start c (by rw [hcons]; rfl)
  rw [RequestFront.form, if_neg h, hcons, cstr_cons rest (endOfAuthority_ne_zero hend)]
  simp

/-- What is printed for an accepted request. -/
theorem requestLine_eq {c : Conn} (hline : c.requestParser.request = r.line) :
    (buildConnectionRequest c).requestLine
      = r.method ++ [chr ' '] ++ printedTarget r.method r.rest ++ ascii " HTTP/1.0\r\n" := by
  have hstar : ascii " * HTTP/1.0\r\n" = [chr ' '] ++ [chr '*'] ++ ascii " HTTP/1.0\r\n" := by
    decide
  have hspace : ascii " " = [chr ' '] := by decide
  simp only [buildConnectionRequest, hline, r.cstr_method, r.cstr_originForm]
  by_cases hrest : r.rest = []
  · by_cases hoptions : r.method = ascii "OPTIONS"
    · have hform : cstr r.form = [] := by
        rw [RequestFront.form, if_pos hrest, if_pos hoptions]
        rfl
      rw [if_pos ⟨hoptions, hform⟩, printedTarget, if_pos hrest, if_pos hoptions, hstar]
      simp
    · have hform : cstr r.form = [chr '/'] := by
        rw [RequestFront.form, if_pos hrest, if_neg hoptions]
        decide
      rw [if_neg (fun h => hoptions h.1), printedTarget, if_pos hrest, if_neg hoptions, hform,
        hspace]
  · have hform : cstr r.form = cstr r.rest := by
      rw [RequestFront.form, if_neg hrest]
    rw [if_neg (fun h => r.cstr_form_ne_nil hrest h.2), printedTarget, if_neg hrest, hform, hspace]

theorem printedTarget_length : (printedTarget r.method r.rest).length < maxOriginForm := by
  have hlen := r.rest_length
  rw [printedTarget]
  split
  · split <;> decide
  · have hle := (List.takeWhile_prefix (l := r.rest) (· != 0)).length_le
    rw [cstr]
    omega

end AcceptedRequest

theorem originTarget_path (method rest : Bytes) :
    originTarget method (chr '/' :: rest) = pathAndQuery (chr '/' :: rest) := by
  have hpath : pathOf (chr '/' :: rest) ≠ [] := by
    rw [pathOf, List.takeWhile_cons_of_pos (by decide)]
    simp
  have hhead : (pathAndQuery (chr '/' :: rest)).head? = some (chr '/') := by
    rw [pathAndQuery, List.takeWhile_cons_of_pos (by decide)]
    rfl
  rw [originTarget, if_neg (fun h => hpath h.2), if_pos hhead]

/-- A query or a fragment never begins the target. -/
theorem originTarget_head (method : Bytes) {c : UInt8} (rest : Bytes)
    (hend : endOfAuthority c = true) (hslash : c ≠ chr '/') :
    (originTarget method (c :: rest)).head? ≠ some c := by
  have hne : c ≠ chr '*' := by
    rintro rfl
    exact absurd hend (by decide)
  have hpath : (pathAndQuery (c :: rest)).head? ≠ some (chr '/') := by
    rw [pathAndQuery]
    by_cases hc : (c != chr '#') = true
    · rw [List.takeWhile_cons_of_pos (p := (· != chr '#')) hc]
      intro h
      cases h
      exact hslash rfl
    · rw [List.takeWhile_cons_of_neg (p := (· != chr '#')) hc]
      simp
  rw [originTarget, if_neg hpath]
  split
  · intro h
    cases h
    exact hne rfl
  · intro h
    cases h
    exact hslash rfl

/-- The printed target is the one that was asked for exactly when the rest of
the request is empty or a plain path. -/
theorem printedTarget_eq_iff {method rest : Bytes}
    (hstart : ∀ c, rest.head? = some c → endOfAuthority c = true) :
    (printedTarget method rest = originTarget method rest ∧
        ∀ c ∈ originTarget method rest, isControl c = false ∧ c ≠ chr ' ') ↔
      rest = [] ∨ rest.head? = some (chr '/') ∧
        ∀ c ∈ rest, isControl c = false ∧ c ≠ chr '#' ∧ c ≠ chr ' ' := by
  cases rest with
  | nil =>
      refine ⟨fun _ => .inl rfl, fun _ => ?_⟩
      by_cases hoptions : method = ascii "OPTIONS"
      · rw [originTarget, if_pos ⟨hoptions, rfl⟩, printedTarget, if_pos rfl, if_pos hoptions]
        refine ⟨rfl, fun c hc => ?_⟩
        obtain rfl : c = chr '*' := List.mem_singleton.mp hc
        exact ⟨by decide, by decide⟩
      · rw [originTarget, if_neg (fun h => hoptions h.1), if_neg (by decide), printedTarget,
          if_pos rfl, if_neg hoptions]
        refine ⟨rfl, fun c hc => ?_⟩
        obtain rfl : c = chr '/' := List.mem_singleton.mp hc
        exact ⟨by decide, by decide⟩
  | cons c rest =>
      have hend : endOfAuthority c = true := hstart c rfl
      have hprinted : printedTarget method (c :: rest) = cstr (c :: rest) := by
        rw [printedTarget, if_neg (List.cons_ne_nil c rest)]
      rw [hprinted]
      by_cases hslash : c = chr '/'
      · have htarget : originTarget method (c :: rest) = pathAndQuery (c :: rest) := by
          rw [hslash]
          exact originTarget_path method rest
        rw [htarget]
        constructor
        · intro ⟨heq, hplain⟩
          -- a NUL and a fragment cut the text at the same place only if there is neither
          have hwhole : cstr (c :: rest) = c :: rest := by
            refine Lib.takeWhile_eq_self ?_ heq
            intro d hd
            have hzero : d = 0 := by simpa using hd
            rw [hzero]
            decide
          rw [heq] at hwhole
          have hall := List.all_eq_true.mp (List.all_takeWhile (l := c :: rest)
            (p := (· != chr '#')))
          refine .inr ⟨by rw [hslash]; rfl, ?_⟩
          intro d hd
          rw [← hwhole] at hd
          exact ⟨(hplain d hd).1, by simpa using hall d hd, (hplain d hd).2⟩
        · intro h
          rcases h with hnil | ⟨-, hall⟩
          · cases hnil
          · have hpath : pathAndQuery (c :: rest) = c :: rest := by
              apply Lib.takeWhile_all
              intro d hd
              rw [bne_iff_ne]
              exact (hall d hd).2.1
            have hstr : cstr (c :: rest) = c :: rest := by
              apply cstr_eq
              intro h0
              exact absurd (hall 0 h0).1 (by decide)
            rw [hpath, hstr]
            exact ⟨rfl, fun d hd => ⟨(hall d hd).1, (hall d hd).2.2⟩⟩
      · constructor
        · intro ⟨heq, _⟩
          have hne := originTarget_head method rest hend hslash
          rw [← heq, cstr_cons rest (endOfAuthority_ne_zero hend)] at hne
          exact absurd rfl hne
        · intro h
          rcases h with hnil | ⟨hhead, -⟩
          · cases hnil
          · cases hhead
            exact absurd rfl hslash

/-- The origin is sent one well-formed request line for an accepted request
exactly when the request is plain. -/
theorem request_line_sent_iff {bs : Bytes} {c : Conn}
    (h : Lib.Finishes requestParserFeed RequestParser.Done requestParserInit bs)
    (hc : c.requestParser = bs.foldl requestParserFeed requestParserInit) :
    SendsRequest bs (buildConnectionRequest c).requestLine ↔ PlainTarget bs := by
  obtain ⟨r, rfl, hline⟩ := accepted_reads h
  rw [← hc] at hline
  rw [SendsRequest, PlainTarget, r.requestMethodOf_bytes, r.restOf_bytes, r.requestLine_eq hline]
  have hiff := @printedTarget_eq_iff r.method r.rest r.rest_start
  have hlen : (r.method ++ [chr ' '] ++ printedTarget r.method r.rest ++
      ascii " HTTP/1.0\r\n").length < requestLineSize := by
    have hm := r.method_length
    have ht := r.printedTarget_length
    have htail : (ascii " HTTP/1.0\r\n").length = 11 := by decide
    simp only [List.length_append, List.length_singleton, htail, requestLineSize, maxMethodLength,
      schemeLength, maxFqdnLength, maxPortLength, maxOriginForm, versionLength] at hm ht ⊢
    omega
  constructor
  · rintro ⟨method, hne, htok, heq, hplain, _⟩
    have hcut : r.method ++ chr ' ' :: printedTarget r.method r.rest
        = method ++ chr ' ' :: originTarget r.method r.rest := by
      have hsame := List.append_cancel_right heq
      simpa using hsame
    have hspace : ¬ (chr ' ' != chr ' ') = true := by decide
    obtain ⟨hm, -, ht⟩ := Lib.cut_unique (P := fun c => (c != chr ' ') = true)
      (fun c hc => token_ne_space (r.method_token c hc)) hspace
      (fun c hc => token_ne_space (htok c hc)) hspace hcut
    refine ⟨hm ▸ hne, ?_⟩
    rcases hiff.mp ⟨ht, hplain⟩ with hnil | ⟨hhead, hall⟩
    · exact .inl hnil
    · exact .inr ⟨hhead, fun c hc => ⟨(hall c hc).1, (hall c hc).2.1⟩⟩
  · rintro ⟨hne, hrest⟩
    have hplain : r.rest = [] ∨ r.rest.head? = some (chr '/') ∧
        ∀ c ∈ r.rest, isControl c = false ∧ c ≠ chr '#' ∧ c ≠ chr ' ' := by
      rcases hrest with hnil | ⟨hhead, hall⟩
      · exact .inl hnil
      · exact .inr ⟨hhead, fun c hc => ⟨(hall c hc).1, (hall c hc).2, r.rest_plain c hc⟩⟩
    obtain ⟨ht, hbytes⟩ := hiff.mpr hplain
    exact ⟨r.method, hne, r.method_token, by rw [ht], hbytes, hlen⟩

/-- A connection whose request line has been read. -/
def Conn.parsing (bs : Bytes) : Conn :=
  { createNewConnection 4 8192 0 (fun _ => 0) with
    requestParser := bs.foldl requestParserFeed requestParserInit }

/-- `GET http://a/b?c HTTP/1.0`. -/
theorem request_line_sent_query :
    SendsRequest (ascii "GET http://a/b?c HTTP/1.0\r\n")
      (buildConnectionRequest
        (Conn.parsing (ascii "GET http://a/b?c HTTP/1.0\r\n"))).requestLine := by
  have hall : (restOf (ascii "GET http://a/b?c HTTP/1.0\r\n")).all
      (fun c => !isControl c && c != chr '#') = true := by decide +kernel
  refine (@request_line_sent_iff (ascii "GET http://a/b?c HTTP/1.0\r\n") (Conn.parsing _)
    ⟨by decide +kernel, by decide +kernel⟩ rfl).mpr
      ⟨by decide +kernel, .inr ⟨by decide +kernel, ?_⟩⟩
  intro c hc
  simpa using List.all_eq_true.mp hall c hc

/-- A line feed in the target begins a header line of the client's own. -/
theorem header_injected :
    Lib.Finishes requestParserFeed RequestParser.Done requestParserInit
        (ascii "GET http://a/\nCookie:b HTTP/1.0\r\n") ∧
      (buildConnectionRequest
          (Conn.parsing (ascii "GET http://a/\nCookie:b HTTP/1.0\r\n"))).requestLine
        = ascii "GET /\nCookie:b HTTP/1.0\r\n" ∧
      ¬ SendsRequest (ascii "GET http://a/\nCookie:b HTTP/1.0\r\n")
        (ascii "GET /\nCookie:b HTTP/1.0\r\n") := by
  refine ⟨⟨by decide +kernel, by decide +kernel⟩, by decide +kernel, ?_⟩
  intro ⟨_, _, _, _, hplain, _⟩
  have htarget : originTarget (requestMethodOf (ascii "GET http://a/\nCookie:b HTTP/1.0\r\n"))
      (restOf (ascii "GET http://a/\nCookie:b HTTP/1.0\r\n")) = ascii "/\nCookie:b" := by
    decide +kernel
  rw [htarget] at hplain
  exact absurd (hplain (chr '\n') (by decide)).1 (by decide)

end HttpdProxy
