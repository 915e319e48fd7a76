import HttpdProxy.Proofs.Daemon
import HttpdProxy.Proofs.DnsResponses
import HttpdProxy.Proofs.HeaderSections
import HttpdProxy.Proofs.StatusLines
import HttpdProxy.Protocol.Replies

/-!
# From the reply to the host's address

A domain is resolved in three steps: the reply is parsed as it arrives, its
answers are looked at one after another, and a socket is opened to one of
them. Together they do what they are for. The parsers are where the reply so
far leads them, however it was cut (`reply_segmentation`); and where the reply
is a status line, header fields and a well-formed message, the host that is
relayed to is at the address of a record of that message, of the type asked
for (`resolution_exact`).
-/

namespace HttpdProxy

/-- A reply to a query. -/
structure DohReply where
  status : LooseStatus
  fields : List HeaderField
  message : Message
  spelled : ∀ f ∈ fields, f.Spelled ∧ f.WithinLimits
  some_field : fields ≠ []
  wellFormed : message.WellFormed

namespace DohReply
variable (r : DohReply)

def head : Bytes := fieldsBytes r.fields ++ [chr '\r', chr '\n']

def bytes : Bytes := r.status.bytes ++ (r.head ++ r.message.bytes)

end DohReply

/-! ## A reply is read -/

theorem StatusLineParser.feed_error {p : StatusLineParser} (h : p.state = .statusLineError)
    (c : UInt8) : statusLineParserFeed p c = p := by
  rw [statusLineParserFeed, h]

/-- A machine that has not stopped asks for more. -/
theorem verdict_more {p : DohResponseParser} (h : ¬ p.Stopped) : p.state.verdict = .more := by
  unfold DohResponseState.verdict
  split
  · next hs => exact absurd (.inr (.inr (.inr hs))) h
  · next hs => exact absurd (.inr (.inr (.inl hs))) h
  · next hs => exact absurd (.inr (.inl hs)) h
  · next hs => exact absurd (.inl hs) h
  · rfl

/-- The way of the DNS parser through a well-formed message, up to the byte
that ends it. -/
theorem front_message {m : Message} (h : m.WellFormed) :
    ∃ front x t as, m.bytes = front ++ [x] ∧
      Lib.Through (dohResponseParserFeed true) (fun p => ¬ p.Stopped) dohResponseParserInit
        front t ∧
      (dohResponseParserFeed true t x).state = .dohResponseDone ∧
      (dohResponseParserFeed true t x).response.header = m.header ∧
      (dohResponseParserFeed true t x).response.answers = some as ∧
      AllAnswered m.answers as := by
  obtain ⟨front, x, t, hsplit, hrun, hlast⟩ := front_opening h.flags
    (Message.ancount_ne_zero h.ancount h.answered) (h.question_labels.mono (by omega))
  obtain ⟨front', x', t', as, i', n', hsplit', hrun', hlast', has⟩ :=
    front_records (h := m.header) true (fun rec hr => (h.records rec hr).readable) [] 0 2
      h.answered (by simp [h.ancount])
  rw [h.ancount] at hlast
  have hstep : Lib.Through (dohResponseParserFeed true) (fun p => ¬ p.Stopped) t [x]
      (dohResponseParserFeed true t x) :=
    .single hrun.last.1 (by rw [hlast]; exact hrun'.start)
  rw [hlast] at hstep
  refine ⟨front ++ [x] ++ front', x', t', as, ?_,
    ((hrun.mono fun _ h => h.1).append hstep).append hrun', ?_, ?_, ?_, has⟩
  · rw [Message.bytes, hsplit, hsplit']
    simp
  · rw [hlast']
  · rw [hlast']
    rfl
  · rw [hlast']
    simp [atRecord, answered]

/-- In the status line of a reply, in its header fields, and in its message. -/
def inStatus (t : DohTry) (p : StatusLineParser) : DohConnection :=
  { dohConnectionInit t with statusLineParser := p }

def inFields (t : DohTry) (s : StatusLineParser) (p : HeadersParser) : DohConnection :=
  { inStatus t s with headersParser := p }

def inMessage (t : DohTry) (s : StatusLineParser) (h : HeadersParser)
    (p : DohResponseParser) : DohConnection :=
  { inFields t s h with dohParser := p }

/-- A whole reply is read to its end and no further, and its answers are
those of the message. -/
theorem reading_reply (r : DohReply) (t : DohTry) (rest : Bytes) :
    ∃ doh as, reading t (r.bytes ++ rest) = (doh, .complete) ∧
      doh.dohParser.response.header = r.message.header ∧
      doh.dohParser.response.answers = some as ∧ AllAnswered r.message.answers as := by
  obtain ⟨front, x, q, as, hsplit, hrun, hdone, hheader, hanswers, has⟩ :=
    front_message r.wellFormed
  have hstatus := loose_finishes r.status
  have hhead : Lib.Finishes headersParserFeed HeadersParser.Done headersParserInit r.head :=
    (headers_finishes_iff _).mpr
      ⟨_, IsHeaderSection.read ⟨r.spelled, rfl⟩ r.some_field, rfl⟩
  generalize hs : r.status.bytes.foldl statusLineParserFeed statusLineParserInit = s
  generalize hh : r.head.foldl headersParserFeed headersParserInit = h
  have hsdone : ¬ s.state ≠ .statusLineDone := fun hne => hne (hs ▸ hstatus.1)
  have hhdone : ¬ h.state ≠ .headersDone := fun hne => hne (hh ▸ hhead.1)
  -- each part asks for more, up to the last byte of the message
  have h1 : Lib.consume (DohConnection.feed true) .more (dohConnectionInit t) r.status.bytes
      = (inStatus t s, .more) := by
    rw [← hs]
    exact Lib.consume_finishes (inStatus t) hstatus
      (fun p c he => StatusLineParser.feed_error he c)
      (fun p he hd => by cases he.symm.trans hd)
      (fun p c hp he => by
        rw [DohConnection.feed_statusLine (show (inStatus t p).statusLineParser.state ≠ _ from hp)]
        exact congrArg _ (if_neg he))
  have h2 : Lib.consume (DohConnection.feed true) .more (inStatus t s) r.head
      = (inFields t s h, .more) := by
    rw [← hh]
    exact Lib.consume_finishes (inFields t s) hhead
      (fun p c he => HeadersParser.feed_error he c)
      (fun p he hd => by cases he.symm.trans hd)
      (fun p c hp he => by
        rw [DohConnection.feed_headers (show ¬ (inFields t s p).statusLineParser.state ≠ _ from
          hsdone) (show (inFields t s p).headersParser.state ≠ _ from hp)]
        exact congrArg _ (if_neg he))
  have hfeed : ∀ p c, (inMessage t s h p).feed true c =
      (inMessage t s h (dohResponseParserFeed true p c),
        (dohResponseParserFeed true p c).state.verdict) :=
    fun p c => DohConnection.feed_doh hsdone hhdone
  have h3 : Lib.consume (DohConnection.feed true) .more (inFields t s h) front
      = (inMessage t s h q, .more) :=
    Lib.consume_through (inMessage t s h) hrun fun p c _ hp => by
      rw [hfeed, verdict_more hp]
  have hlast : (inMessage t s h q).feed true x =
      (inMessage t s h (dohResponseParserFeed true q x), .complete) := by
    rw [hfeed, hdone]
    rfl
  refine ⟨inMessage t s h (dohResponseParserFeed true q x), as, ?_, hheader, hanswers, has⟩
  refine Lib.consume_stopped ?_ (by simp) rest
  rw [DohReply.bytes, hsplit, Lib.consume_more h1, Lib.consume_more h2, Lib.consume_snoc h3,
    hlast]

/-! ## The parsers and the bytes received -/

/-- While a reply is awaited its parsers are where the bytes received lead
them in one piece. -/
theorem reply_segmentation {cfg : Config} {es : List Event} {w : World} {id : Nat} {c : Conn}
    (h : Lib.RunsWhen step Undisturbed (initWorld cfg) es w) (hc : w.heap id = .live c)
    (hs : c.stmState = .awaitDohResponse) (herr : c.error ≠ some .internalServerError) :
    ∃ doh v, c.dohConnection = some doh ∧ (v = .more ∨ v = .complete) ∧
      reading doh.currentType (dohReply c.trace) = (doh, v) := by
  have hlife : Life cfg.dohUtils .rest c := (lives h).2.2 id _ (member_live hc)
  have hreply : c.ReplyIn c.stmState := hlife.replied
  have hstage : c.Stage c.stmState := hlife.stages.2
  rw [hs] at hreply hstage
  obtain ⟨doh, hd, hparses⟩ := hreply.resolve_left herr
  obtain ⟨v, hv, hread⟩ := (hparses.replied hstage.2).parsed
  refine ⟨doh, v, hd, hv, ?_⟩
  rw [hread, ← hparses.fresh]

/-- A short reply. -/
def shortReply : DohReply where
  status :=
    { major := ascii "1"
      minor := ascii "1"
      code := ascii "200"
      reason := ascii "OK"
      major_digit := ⟨by decide +kernel, by decide +kernel⟩
      minor_digit := ⟨by decide +kernel, by decide +kernel⟩
      code_digits := by decide +kernel
      code_length := by decide +kernel
      reason_text := by decide +kernel
      reason_length := by decide +kernel }
  fields := [⟨ascii "A", ascii "b"⟩]
  message := aliasedResponse
  spelled := by
    intro f hf
    cases List.mem_singleton.mp hf
    refine ⟨⟨?_, ?_⟩, ?_, ?_, ?_⟩ <;> decide +kernel
  some_field := by simp
  wellFormed := aliasedResponse_wellFormed

/-- The query is sent, and the first 30 bytes of the reply arrive, in two reads.
The first ends inside the status line. -/
def partlyReplied : List Event :=
  [.readable 3 { Env.silent with accept := some 5 },
    .readable 5
      { Env.silent with
        recv := some (ascii "GET http://a HTTP/1.0\r\n")
        socket := fun _ => some 6 },
    .writable 6 Env.silent,
    .writable 6 { Env.silent with send := some 1000 },
    .readable 6 { Env.silent with recv := some (shortReply.bytes.take 10), fuel := 99 },
    .readable 6
      { Env.silent with recv := some ((shortReply.bytes.drop 10).take 20), fuel := 99 }]

theorem reply_segmentation_partly : ∃ (w : World) (c : Conn) (doh : DohConnection) (v : Verdict),
    w.heap 0 = .live c ∧ c.stmState = .awaitDohResponse ∧ c.dohConnection = some doh ∧
      dohReply c.trace = shortReply.bytes.take 30 ∧
      reading doh.currentType (shortReply.bytes.take 30) = (doh, v) := by
  obtain ⟨w, c, h, hc, hp⟩ := @first_run loopback partlyReplied
    (fun c => c.stmState == .awaitDohResponse && c.error != some .internalServerError &&
      dohReply c.trace == shortReply.bytes.take 30) (by decide +kernel)
  obtain ⟨hp, hbytes⟩ := (Bool.and_eq_true _ _).mp hp
  obtain ⟨hst, herr⟩ := (Bool.and_eq_true _ _).mp hp
  obtain ⟨doh, v, hd, _, hread⟩ := reply_segmentation h hc (eq_of_beq hst) (by simpa using herr)
  rw [eq_of_beq hbytes] at hread
  exact ⟨w, c, doh, v, hc, eq_of_beq hst, hd, eq_of_beq hbytes, hread⟩

/-! ## The host that is relayed to -/

/-- The address in a record, and the query it answers. -/
def RData.leadsTo (port : UInt16) : RData → Option (Sockaddr × List UInt8)
  | .a addr _ => some (.in4 ⟨port, addr⟩, [1])
  | .aaaa addr _ => some (.in6 ⟨port, addr⟩, [28, 1])
  | .cname _ => none

/-- The address decoded from a record of the type asked for. -/
theorem Record.AnsweredBy.leadsTo {rec : Record} {a : Answer} {t : DohTry}
    (h : rec.AnsweredBy a) (ht : a.aType = t.recordType) (port : UInt16) :
    rec.rdata.leadsTo port = some (t.sockaddr port a, t.asked) := by
  obtain ⟨htype, _, _, _, hdata⟩ := h
  rw [ht] at htype
  unfold RData.leadsTo
  split
  · next addr four hr =>
      rw [hr] at htype hdata
      cases t with
      | ipv4Try => rw [DohTry.sockaddr, hdata]; rfl
      | ipv6Try =>
        change ipv6Type = ipv4Type at htype
        exact absurd htype (by decide)
  · next addr sixteen hr =>
      rw [hr] at htype hdata
      cases t with
      | ipv4Try =>
        change ipv4Type = ipv6Type at htype
        exact absurd htype (by decide)
      | ipv6Try => rw [DohTry.sockaddr, hdata]; rfl
  · next name hr =>
      rw [hr] at htype
      cases t with
      | ipv4Try =>
        change ipv4Type = cnameType at htype
        exact absurd htype (by decide)
      | ipv6Try =>
        change ipv6Type = cnameType at htype
        exact absurd htype (by decide)

/-- The states in which the host has been reached. -/
def ConnState.reached : ConnState → Bool
  | .sendRequestLine | .connected | .closing | .emptyBuffers => true
  | _ => false

/-- Where the DoH server replied with a well-formed message, whatever it sent
after it, the host that is relayed to is at the address of one of its records
of the type asked for; and up to that record, if there are not too many to be
counted, each has been looked at, once and in order. -/
theorem resolution_exact {cfg : Config} {es : List Event} {w : World} {id : Nat} {c : Conn}
    (h : Lib.RunsWhen step Undisturbed (initWorld cfg) es w) (hc : w.heap id = .live c)
    (hs : c.stmState.reached = true) (hdom : c.connectionRequest.hostType = .domain)
    {r : DohReply} {rest : Bytes} (hr : dohReply c.trace = r.bytes ++ rest) :
    ∃ k rec addr, r.message.answers[k]? = some rec ∧
      rec.rdata.leadsTo c.requestParser.request.requestTarget.port
        = some (addr, queries c.trace) ∧
      lastOpened c.trace = some (c.originFd, .answer k, addr) ∧
      (r.message.answers.length ≤ 255 →
        examinedHere c.trace = (List.range (k + 1)).reverse) := by
  have hlife : Life cfg.dohUtils .rest c := (lives h).2.2 id _ (member_live hc)
  have hreply : c.ReplyIn c.stmState := hlife.replied
  have hpeer : c.PeerIn cfg.dohUtils c.stmState := hlife.peers
  have hboth : c.TowardsTarget ∧ c.Resolved := by
    generalize c.stmState = s at hs hreply hpeer
    cases s <;> first | exact ⟨hpeer, hreply⟩ | cases hs
  obtain ⟨htarget, hanswers, hlast⟩ := hboth
  obtain ⟨doh, k, a, ⟨_, hd, hact, hq⟩, ha, htype, hopened⟩ :=
    htarget.resolve_left fun hlit => hlit.1 hdom
  obtain ⟨⟨v, _, hread⟩, hcounted⟩ := hanswers doh hd hact
  obtain ⟨doh', as, hread', hheader, has, hall⟩ := reading_reply r doh.currentType rest
  rw [hr, hread'] at hread
  have hparser : doh.dohParser = doh'.dohParser := by
    have he := congrArg (·.1.dohParser) hread
    exact he.symm
  rw [hparser, has] at ha
  replace ha : as[k]? = some a := ha
  have hk : k < r.message.answers.length := by
    rw [← hall.1]
    exact (List.getElem?_eq_some_iff.mp ha).1
  have hrec : r.message.answers[k]? = some r.message.answers[k] := List.getElem?_eq_getElem hk
  refine ⟨k, _, _, hrec, ?_, hopened, fun hle => ?_⟩
  · rw [(hall.2 k _ a hrec ha).leadsTo htype, hq]
  · have hcount : doh.dohParser.response.header.ancount.toNat ≤ 255 := by
      rw [hparser, hheader, r.wellFormed.ancount]
      exact hle
    obtain ⟨_, hexamined⟩ := hcounted hcount
    have hhead := hlast doh hd hact _ k _ hopened
    rw [hexamined] at hhead ⊢
    cases hn : doh.currentTry.toNat with
    | zero =>
        rw [hn] at hhead
        cases hhead
    | succ n =>
        rw [hn, List.range_succ, List.reverse_append] at hhead
        cases hhead
        rfl

/-- The rest of the reply arrives, and the origin accepts. -/
def resolved : List Event :=
  partlyReplied ++
    [.readable 6 { Env.silent with recv := some (shortReply.bytes.drop 30), fuel := 99 },
      .readable 6 { Env.silent with recv := some [], socket := fun _ => some 6 },
      .writable 6 { Env.silent with connected := true }]

theorem resolution_exact_resolved : ∃ (w : World) (c : Conn) (k : Nat) (addr : Sockaddr),
    w.heap 0 = .live c ∧ lastOpened c.trace = some (c.originFd, .answer k, addr) := by
  obtain ⟨w, c, h, hc, hp⟩ := @first_run loopback resolved
    (fun c => c.stmState == .sendRequestLine && c.connectionRequest.hostType == .domain &&
      dohReply c.trace == shortReply.bytes) (by decide +kernel)
  obtain ⟨hst, hreply⟩ := (Bool.and_eq_true _ _).mp hp
  obtain ⟨hst, hdom⟩ := (Bool.and_eq_true _ _).mp hst
  obtain ⟨k, _, addr, _, _, hopened, _⟩ := resolution_exact h hc
    (by rw [eq_of_beq hst]; rfl) (eq_of_beq hdom)
    ((eq_of_beq hreply).trans (List.append_nil _).symm)
  exact ⟨w, c, k, addr, hc, hopened⟩

end HttpdProxy
