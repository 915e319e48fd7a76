import HttpdProxy.Proofs.AcceptedRequests
import HttpdProxy.Proofs.Daemon
import HttpdProxy.Protocol.Flow

/-!
# The request goes to the host, the query to the DoH server

`Life.peers` tells whom a socket leads to by what is in the record. What is
there is what the client's request line was decoded to, and no move changes it
again: `Life.decoded`. Both are put together on the runs of the daemon. A state
is entered at the end of an event, so what it is entered with is what the
connection rests with.
-/

namespace HttpdProxy

open Conn

/-! ## The request line and the record -/

namespace Conn

/-- What the client asked for: as the record and the parser have it, and in
its own bytes. -/
def asked (c : Conn) :=
  (c.connectionRequest.hostType, c.connectionRequest.host, c.requestParser, clientIn c.trace)

/-- The record has what the line the client sent was decoded to. -/
structure Decoded (c : Conn) : Prop where
  requests : c.Requests
  complete : ∃ line rest, requestHead requestParserInit (clientIn c.trace) = some (line, rest) ∧
    c.requestParser = line.foldl requestParserFeed requestParserInit

def DecodedIn (c : Conn) : ConnState → Prop
  | .parsingRequestLine | .done | .error => True
  | _ => c.Decoded

def DecodedAt (c : Conn) : Phase → Prop
  | .rest | .reading _ | .writing => c.DecodedIn c.stmState
  | .walking | .asking => c.Decoded
  | .goto s => c.DecodedIn s
  | .gone => True

end Conn

section

variable {d : DohUtils} {c c' : Conn} {s next : ConnState}

theorem Decoded.congr (h : c.Decoded) (hv : c'.asked = c.asked) : c'.Decoded := by
  simp only [asked, Prod.mk.injEq] at hv
  obtain ⟨hht, hhost, hpar, hin⟩ := hv
  refine ⟨⟨?_, ?_⟩, ?_⟩
  · rw [hht, hpar]
    exact h.requests.hostType
  · rw [hhost, hpar]
    exact h.requests.host
  · rw [hin, hpar]
    exact h.complete

theorem DecodedIn.congr (h : c.DecodedIn s) (hv : c'.asked = c.asked) : c'.DecodedIn s := by
  cases s with
  | parsingRequestLine | done | error => exact trivial
  | _ => exact Decoded.congr h hv

/-- What the client sends after its request line is not part of it. -/
theorem DecodedIn.fromClient {bs : Bytes} {buffer : Buffer} {now : Nat} (h : c.DecodedIn s) :
    ((c.touched now).fromClient bs buffer).DecodedIn s := by
  have hkept : c.Decoded → ((c.touched now).fromClient bs buffer).Decoded := by
    rintro ⟨⟨hht, hhost⟩, line, rest, hl, hpar⟩
    exact ⟨⟨hht, hhost⟩, line, rest ++ bs, requestHead_more bs hl, hpar⟩
  cases s with
  | parsingRequestLine | done | error => exact trivial
  | _ => exact hkept h

@[simp] theorem closeOrigin_asked (c : Conn) : c.closeOrigin.asked = c.asked := by
  unfold closeOrigin
  split <;> rfl

@[simp] theorem closeClient_asked (c : Conn) : c.closeClient.asked = c.asked := by
  unfold closeClient
  split <;> rfl

theorem analyzeRead_asked (key : SelectorKey) (c : Conn) :
    (analyzeRead key c).asked = c.asked := by
  refine analyzeRead_keeps Conn.asked ?_ fun _ => rfl
  unfold parseResponse
  dsimp only
  split <;> rfl

theorem arrival_asked {env : Env} (ha : c.arrival d env s = .ok c') : c'.asked = c.asked := by
  cases s with
  | sendDohRequest =>
      obtain ⟨buffer, _, ha⟩ := Lib.bind_eq_ok.mp ha
      cases ha
      rfl
  | awaitDohResponse =>
      cases ha
      unfold initDohState
      split
      · rfl
      · split <;> rfl
  | sendRequestLine =>
      obtain ⟨buffer, _, ha⟩ := Lib.bind_eq_ok.mp ha
      cases ha
      rfl
  | connected =>
      cases ha
      split <;> rfl
  | error =>
      obtain ⟨buffer, _, ha⟩ := Lib.bind_eq_ok.mp ha
      cases ha
      rfl
  | closing | emptyBuffers =>
      cases ha
      simp
  | parsingRequestLine | tryConnectionIp | done =>
      cases ha
      rfl

/-- A socket asked for on behalf of a decoded request. -/
theorem Attempt.decodedIn {peer : Peer} {addr : Sockaddr} (h : Attempt peer addr c next c')
    (hc : c.Decoded) : c'.DecodedIn next := by
  rcases h.cases_next with rfl | ⟨rfl, fd, rfl⟩
  · exact trivial
  · exact Decoded.congr hc rfl

/-- The states of the DoH walk, and an error. -/
theorem decodedAt_walk {ph : Phase} (hph : ph = .walking ∨ ph = .asking ∨ ph = .goto .error)
    (h : c.Decoded) : c.DecodedAt ph := by
  rcases hph with rfl | rfl | rfl
  · exact h
  · exact h
  · exact trivial

theorem decodedAt_nextDns {doh : DohConnection} (h : c.Decoded) :
    (c.nextDns doh).2.DecodedAt (c.nextDns doh).1 := by
  refine decodedAt_walk (nextDns_phase c doh) ?_
  obtain ⟨_, _, heq⟩ := nextDns_eq c doh
  rw [heq]
  exact Decoded.congr h rfl

theorem decodedAt_judged {key : SelectorKey} {doh : DohConnection} {v : Verdict}
    (hcur : c.current = some .awaitDohResponse) (h : c.Decoded) :
    (c.judged key doh v).2.DecodedAt (c.judged key doh v).1 := by
  have hin : ∀ c' : Conn, c'.current = some .awaitDohResponse → c'.asked = c.asked →
      c'.DecodedAt (.reading key) := by
    intro c' hcur' hv
    rw [DecodedAt, stmState_of_current hcur']
    exact Decoded.congr h hv
  unfold Conn.judged
  split
  · exact hin c hcur rfl
  · exact hin _ hcur rfl
  · exact trivial
  · split
    · exact trivial
    · exact Decoded.congr h rfl

/-- The line is complete: what it was decoded to goes into the record. -/
theorem decoded_parseDone {key : SelectorKey} {peer : Peer} {addr : Sockaddr} {b : UInt8}
    {buffer : Buffer} (hcur : c.current = some .parsingRequestLine)
    (hb : c.clientBuffer.unread = b :: buffer.unread)
    (hdone : (c.parsed b buffer).requestParser.state = .requestDone) (hp : c.Parsing)
    (ha : Attempt peer addr (c.parsed b buffer) next c') :
    (if next ≠ .error then finishRequest key c' else c').DecodedIn next := by
  rcases ha.cases_next with rfl | ⟨rfl, fd, rfl⟩
  · exact trivial
  · rw [if_pos (by simp)]
    obtain ⟨line, hhead, hpar⟩ := Parsing.completed hcur hb hdone hp
    obtain ⟨hh, _⟩ := finishRequest_streams key ((c.parsed b buffer).opened fd peer addr)
    have hin := congrArg Prod.fst hh
    have hreq := (finishRequest_keeps key ((c.parsed b buffer).opened fd peer addr)).2.2.2.2.2.1
    have hkept : (finishRequest key ((c.parsed b buffer).opened fd peer addr)).requestParser
        = (c.parsed b buffer).requestParser := by
      have h := completed_requestParser key ha
      rwa [if_pos (by simp)] at h
    refine ⟨⟨?_, ?_⟩, line, buffer.unread, ?_, hkept.trans hpar⟩
    · rw [hreq, hkept]
      rfl
    · rw [hreq, hkept]
      rfl
    · rw [show clientIn (finishRequest key _).trace = clientIn c.trace from hin]
      exact hhead

theorem decoded_move {ph ph' : Phase} {m m' : Metrics} (hl : Life d ph c)
    (h : c.DecodedAt ph) (hm : Move d ⟨ph, c, m⟩ ⟨ph', c', m'⟩) : c'.DecodedAt ph' := by
  have hat : ∀ {s : ConnState}, c.current = some s → c.DecodedIn c.stmState → c.DecodedIn s :=
    fun hcur h => by rwa [stmState_of_current hcur] at h
  cases hm with
  | readClient now _ _ _ _ => exact DecodedIn.fromClient (c := c) h
  | endOfClient now _ _ _ => exact DecodedIn.congr (c := c) h rfl
  | readOrigin now _ _ _ _ _ => exact DecodedIn.congr (c := c) h rfl
  | endOfOrigin now _ _ _ => exact DecodedIn.congr (c := c) h rfl
  | writeClient now _ _ _ => exact DecodedIn.congr (c := c) h rfl
  | readyOrigin now _ => exact DecodedIn.congr (c := c) h rfl
  | writeRequest now _ _ _ => exact DecodedIn.congr (c := c) h rfl
  | writeOrigin now _ _ _ _ _ _ => exact DecodedIn.congr (c := c) h rfl
  | close now => exact trivial
  | closeEarly now _ => exact trivial
  | collect => exact trivial
  | start enabled hcur => exact trivial
  | parseByte hcur _ _ _ _ =>
      rw [DecodedAt, show (c.parsed _ _).stmState = _ from stmState_of_current hcur]
      exact trivial
  | parseError hcur _ _ _ => exact trivial
  | parseDone hcur hcan hread hdone ha =>
      have hf := hl.flow
      rw [FlowAt, stmState_of_current hcur] at hf
      exact decoded_parseDone hcur (Buffer.read_ok hcan hread).1 hdone hf.2 ha
  | parseIdle hcur _ => exact trivial
  | tryQuery hcur _ => exact hat hcur h
  | tryConnect hcur _ _ _ => exact Decoded.congr (c := c) (hat hcur h) rfl
  | tryRequest hcur _ _ => exact Decoded.congr (c := c) (hat hcur h) rfl
  | tryFail hcur _ => exact trivial
  | tryNext hcur _ _ => exact decodedAt_nextDns (hat hcur h)
  | walkSkip _ _ _ _ => exact Decoded.congr (c := c) h rfl
  | walkRefused _ _ _ _ => exact Decoded.congr (c := c) h rfl
  | walkOpen _ _ _ _ hr => exact (Attempt.opened hr).decodedIn (Decoded.congr (c := c) h rfl)
  | walkEnd _ _ =>
      rename_i doh _ _
      refine decodedAt_walk (exhausted_phase c doh) ?_
      obtain ⟨_, _, heq⟩ := exhausted_eq c doh
      rw [heq]
      exact Decoded.congr (c := c) h rfl
  | ask ha => exact ha.decodedIn h
  | drained hcur hs _ =>
      rw [afterDrain, stmState_of_current hcur]
      have h := hat hcur h
      rcases hs with rfl | rfl | rfl
      · exact h
      · exact h
      · exact trivial
  | draining hcur _ _ => exact hat hcur h
  | awaitFailed hcur _ => exact trivial
  | awaitByte alloc hcur _ _ _ _ _ =>
      exact decodedAt_judged (c := c.fed _ _) hcur (Decoded.congr (c := c) (hat hcur h) rfl)
  | awaitIdle hcur _ _ _ => exact hat hcur h
  | awaitEnd hcur _ _ _ _ => exact decodedAt_nextDns (Decoded.congr (c := c) (hat hcur h) rfl)
  | relayRead hcur _ _ => exact Decoded.congr (hat hcur h) (analyzeRead_asked _ c)
  | relayEnd hcur _ => exact Decoded.congr (hat hcur h) (analyzeRead_asked _ c)
  | relayWrite hcur => exact hat hcur h
  | closingRead hcur _ => exact Decoded.congr (hat hcur h) (by simp)
  | closingDone hcur _ _ _ => exact trivial
  | closingEmpty hcur _ _ => exact hat hcur h
  | closingWrite hcur => exact Decoded.congr (hat hcur h) (by simp)
  | emptyDone hcur _ _ => exact trivial
  | emptyWrite hcur _ => exact Decoded.congr (hat hcur h) (by simp)
  | stay hcur =>
      rw [DecodedAt, stmState_of_current hcur]
      exact h
  | arrive env hcur hne ha =>
      rename_i s
      rw [DecodedAt, stmState_of_current (arrival_current ha)]
      have hs : (c.entered s).DecodedIn s := DecodedIn.congr (c := c) h rfl
      exact DecodedIn.congr hs (arrival_asked ha)
  | free _ => exact trivial

/-- Every life keeps what its request line was decoded to. -/
theorem Life.decoded {ph : Phase} (h : Life d ph c) : c.DecodedAt ph := by
  refine h.invariant (I := fun ph c => c.DecodedAt ph) ?_ ?_
  · intro fd size now mem
    exact trivial
  · intro ph c m ph' c' m' hl hI hm
    exact decoded_move hl hI hm

end

/-! ## Whom the current socket leads to -/

/-- The client sent the request line `r`, and the record has its host. -/
structure Conn.AskedFor (c : Conn) (r : AcceptedRequest) : Prop where
  sent : r.bytes <+: clientIn c.trace
  hostType : c.connectionRequest.hostType = r.host.type
  host : c.connectionRequest.host = r.host.host (netPortOf r.port)

/-- A socket towards the host of the request: towards the address itself, or
towards the one in a record of the response that was walked last. -/
def Conn.LeadsTo (c : Conn) (port : UInt16) (peer : Peer) (addr : Sockaddr) : Host → Prop
  | .ipv4 sa => c.connectionRequest.hostType = .ipv4 ∧ peer = .literal ∧ addr = .in4 sa
  | .ipv6 sa => c.connectionRequest.hostType = .ipv6 ∧ peer = .literal ∧ addr = .in6 sa
  | .domain _ =>
      c.connectionRequest.hostType = .domain ∧ ∃ doh k a, c.dohConnection = some doh ∧
        doh.dohParser.response.answers.bind (·[k]?) = some a ∧ peer = .answer k ∧
        (doh.currentType = .ipv4Try ∧ a.aType = 1 ∧ addr = .in4 ⟨port, a.ipv4⟩ ∨
          doh.currentType = .ipv6Try ∧ a.aType = 28 ∧ addr = .in6 ⟨port, a.ipv6⟩)

theorem HostSpelling.host_cases (h : HostSpelling) (port : UInt16) :
    (h.type = .ipv4 ∧ ∃ sa, h.host port = .ipv4 sa) ∨
      (h.type = .ipv6 ∧ ∃ sa, h.host port = .ipv6 sa) ∨
      (h.type = .domain ∧ ∃ text, h.host port = .domain text) := by
  cases h with
  | name text plain no_bracket length =>
      simp only [HostSpelling.type, HostSpelling.host]
      cases inetPton4 (cstr text) with
      | some addr => exact .inl ⟨rfl, _, rfl⟩
      | none => exact .inr (.inr ⟨rfl, _, rfl⟩)
  | literal opens text last addr plain no_bracket length parses =>
      exact .inr (.inl ⟨rfl, _, rfl⟩)

/-- What the peers are told by and what the client asked for, together. -/
theorem TowardsTarget.leadsTo {c : Conn} {r : AcceptedRequest} (h : c.TowardsTarget)
    (hr : c.AskedFor r)
    (hport : c.requestParser.request.requestTarget.port = netPortOf r.port) :
    ∃ peer addr, lastOpened c.trace = some (c.originFd, peer, addr) ∧
      c.LeadsTo (netPortOf r.port) peer addr c.connectionRequest.host := by
  have hht := hr.hostType
  have hhost := hr.host
  rcases h with ⟨hdom, _, ho⟩ | ⟨doh, k, a, ⟨hdom, hd, _, _⟩, ha, hty, ho⟩
  · refine ⟨_, _, ho, ?_⟩
    rcases r.host.host_cases (netPortOf r.port) with ⟨ht, sa, hsa⟩ | ⟨ht, sa, hsa⟩ | ⟨ht, _⟩
    · rw [hhost, hsa]
      exact ⟨hht.trans ht, rfl, rfl⟩
    · rw [hhost, hsa]
      exact ⟨hht.trans ht, rfl, rfl⟩
    · exact absurd (hht.trans ht) hdom
  · refine ⟨_, _, ho, ?_⟩
    rw [hport]
    rcases r.host.host_cases (netPortOf r.port) with ⟨ht, _⟩ | ⟨ht, _⟩ | ⟨_, text, htext⟩
    · cases hdom.symm.trans (hht.trans ht)
    · cases hdom.symm.trans (hht.trans ht)
    · rw [hhost, htext]
      refine ⟨hdom, doh, k, a, hd, ha, rfl, ?_⟩
      cases ht : doh.currentType with
      | ipv4Try =>
          rw [ht] at hty
          exact .inl ⟨rfl, hty, rfl⟩
      | ipv6Try =>
          rw [ht] at hty
          exact .inr ⟨rfl, hty, rfl⟩

end HttpdProxy
