import HttpdProxy.Protocol.Stages

/-!
# Whom the origin's socket is connected to

TRY_CONNECTION_IP is entered for three reasons: to reach the DoH server, to
reach an answer of its, to reach a literal address. What the handlers go by is
`host_type`, `doh_connection` and `is_active`; what is true is in the trace.
`peers` says that the two agree in every phase of every life.
-/

namespace HttpdProxy

/-! ## Reading the trace -/

/-- The socket opened last, and towards whom. -/
def lastOpened : List Act → Option (Int × Peer × Sockaddr)
  | [] => none
  | .opened fd peer addr :: _ => some (fd, peer, addr)
  | _ :: t => lastOpened t

/-- The types asked for, newest first. -/
def queries : List Act → List UInt8
  | [] => []
  | .query type :: t => type :: queries t
  | _ :: t => queries t

/-- The types asked for when the answers are of type `t`. -/
def DohTry.asked : DohTry → List UInt8
  | .ipv4Try => [1]
  | .ipv6Try => [28, 1]

namespace Conn

/-- Record and parser agree on the request. -/
structure Requests (c : Conn) : Prop where
  hostType : c.connectionRequest.hostType = c.requestParser.request.requestTarget.hostType
  host : c.connectionRequest.host = c.requestParser.request.requestTarget.host

/-- The IPv4 answers are given up: the query for IPv6 is still to be sent. -/
def GivenUp (c : Conn) (doh : DohConnection) : Prop :=
  c.dohConnection = some doh ∧ doh.isActive = false ∧ doh.currentType = .ipv6Try ∧
    doh.dohParser.response.answers = none ∧ queries c.trace = DohTry.asked .ipv4Try

/-- A query is still to be sent: the first, or the one for IPv6. -/
def Unasked (c : Conn) : Prop :=
  c.connectionRequest.hostType = .domain ∧
    (c.dohConnection = none ∧ queries c.trace = [] ∨ ∃ doh, c.GivenUp doh)

/-- It has been written to the origin buffer. -/
def Asking (c : Conn) : Prop :=
  c.connectionRequest.hostType = .domain ∧
    (c.dohConnection = none ∧ queries c.trace = DohTry.asked .ipv4Try ∨
      ∃ doh, c.dohConnection = some doh ∧ doh.isActive = false ∧
        doh.currentType = .ipv6Try ∧ queries c.trace = DohTry.asked .ipv6Try)

/-- There is a response to resolve the domain from. -/
def Resolving (c : Conn) (doh : DohConnection) : Prop :=
  c.connectionRequest.hostType = .domain ∧ c.dohConnection = some doh ∧
    doh.isActive = true ∧ queries c.trace = doh.currentType.asked

/-- The socket is the DoH server's. -/
def TowardsDoh (d : DohUtils) (c : Conn) : Prop :=
  lastOpened c.trace = some (c.originFd, .doh, d.sockaddr)

/-- The socket leads to answer `k` of the current response. -/
def TowardsAnswer (c : Conn) (doh : DohConnection) (k : Nat) (a : Answer) : Prop :=
  doh.dohParser.response.answers.bind (·[k]?) = some a ∧
    a.aType = doh.currentType.recordType ∧
    lastOpened c.trace = some (c.originFd, .answer k,
      doh.currentType.sockaddr c.requestParser.request.requestTarget.port a)

/-- The socket leads to the host of the request. -/
def TowardsTarget (c : Conn) : Prop :=
  (c.connectionRequest.hostType ≠ .domain ∧ c.dohConnection = none ∧
      lastOpened c.trace = some (c.originFd, .literal, c.connectionRequest.host.sockaddr)) ∨
    ∃ doh k a, c.Resolving doh ∧ c.TowardsAnswer doh k a

/-- What the peers depend on. -/
def peerView (c : Conn) :=
  (c.connectionRequest.hostType, c.connectionRequest.host, c.requestParser,
    c.dohConnection, c.originFd, c.error, lastOpened c.trace, queries c.trace)

/-- What is known of the peer in a state. -/
def PeerIn (d : DohUtils) (c : Conn) : ConnState → Prop
  | .parsingRequestLine => c.dohConnection = none ∧ queries c.trace = []
  | .tryConnectionIp => c.Requests ∧ (c.Unasked ∧ c.TowardsDoh d ∨ c.TowardsTarget)
  | .sendDohRequest => c.Requests ∧ c.Asking ∧ c.TowardsDoh d
  | .awaitDohResponse =>
      c.Requests ∧ c.TowardsDoh d ∧
        (c.error = some .internalServerError ∨ ∃ doh, c.Resolving doh)
  | .sendRequestLine | .connected | .closing | .emptyBuffers => c.TowardsTarget
  | .done | .error => True

/-- And on the way to one. -/
def PeerDue (d : DohUtils) (c : Conn) : ConnState → Prop
  | .sendDohRequest => c.Requests ∧ c.Unasked ∧ c.TowardsDoh d
  | .awaitDohResponse => c.Requests ∧ c.TowardsDoh d ∧ c.Asking
  | s => c.PeerIn d s

/-- And in a phase. -/
def PeerAt (d : DohUtils) (c : Conn) : Phase → Prop
  | .rest | .reading _ | .writing => c.PeerIn d c.stmState
  -- the DoH server may be out of reach the second time, with no answers left
  | .walking => c.Requests ∧ ∃ doh, c.Resolving doh ∨ c.GivenUp doh
  | .asking =>
      c.Requests ∧ c.connectionRequest.hostType = .domain ∧ ∃ doh, c.GivenUp doh
  | .goto s => if c.current = some s then c.PeerIn d s else c.PeerDue d s
  | .gone => True

end Conn

open Conn

section

variable {d : DohUtils} {c c' : Conn} {s next : ConnState}

theorem peerAt_in {ph : Phase} (hph : ph = .rest ∨ (∃ key, ph = .reading key) ∨ ph = .writing)
    (hcur : c.current = some s) (h : c.PeerIn d s) : c.PeerAt d ph := by
  rcases hph with rfl | ⟨_, rfl⟩ | rfl <;>
  · rw [PeerAt, stmState_of_current hcur]
    exact h

theorem peerAt_stay (hcur : c.current = some s) (h : c.PeerIn d s) :
    c.PeerAt d (.goto s) := by
  rw [PeerAt, if_pos hcur]
  exact h

theorem peerAt_leave (hcur : c.current ≠ some s) (h : c.PeerDue d s) :
    c.PeerAt d (.goto s) := by
  rw [PeerAt, if_neg hcur]
  exact h

theorem peerAt_error : c.PeerAt d (.goto .error) := by
  rw [PeerAt]
  split <;> exact trivial

theorem peerAt_done : c.PeerAt d (.goto .done) := by
  rw [PeerAt]
  split <;> exact trivial

theorem peerAt_try (h : c.PeerIn d .tryConnectionIp) :
    c.PeerAt d (.goto .tryConnectionIp) := by
  rw [PeerAt]
  split <;> exact h

/-- A move the peers do not depend on. -/
theorem PeerIn.congr (h : c.PeerIn d s) (hv : c'.peerView = c.peerView) : c'.PeerIn d s := by
  simp only [peerView, Prod.mk.injEq] at hv
  obtain ⟨hht, hhost, hpar, hdoh, hfd, herr, ho, hq⟩ := hv
  have htarget : c.TowardsTarget → c'.TowardsTarget := by
    unfold TowardsTarget Resolving TowardsAnswer
    rw [hht, hhost, hpar, hdoh, hfd, ho, hq]
    exact id
  have hrequests : c.Requests → c'.Requests := fun h =>
    ⟨by rw [hht, hpar]; exact h.1, by rw [hhost, hpar]; exact h.2⟩
  cases s with
  | parsingRequestLine =>
      unfold PeerIn
      rw [hdoh, hq]
      exact h
  | tryConnectionIp =>
      refine ⟨hrequests h.1, h.2.imp ?_ htarget⟩
      unfold Unasked GivenUp TowardsDoh
      rw [hht, hdoh, hfd, ho, hq]
      exact id
  | sendDohRequest =>
      refine ⟨hrequests h.1, ?_⟩
      unfold Asking TowardsDoh
      rw [hht, hdoh, hfd, ho, hq]
      exact h.2
  | awaitDohResponse =>
      refine ⟨hrequests h.1, ?_⟩
      unfold Resolving TowardsDoh
      rw [hht, hdoh, hq, herr, hfd, ho]
      exact h.2
  | sendRequestLine => exact htarget h
  | connected => exact htarget h
  | closing => exact htarget h
  | emptyBuffers => exact htarget h
  | done => exact trivial
  | error => exact trivial

@[simp] theorem closeOrigin_peerView (c : Conn) : c.closeOrigin.peerView = c.peerView := by
  unfold closeOrigin
  split <;> rfl

@[simp] theorem closeClient_peerView (c : Conn) : c.closeClient.peerView = c.peerView := by
  unfold closeClient
  split <;> rfl

theorem sniffData_peerView (key : SelectorKey) (c : Conn) :
    (sniffData key c).peerView = c.peerView := rfl

theorem parseResponse_peerView (c : Conn) : (parseResponse c).peerView = c.peerView := by
  unfold parseResponse
  dsimp only
  split <;> rfl

theorem analyzeRead_peerView (key : SelectorKey) (c : Conn) :
    (analyzeRead key c).peerView = c.peerView :=
  analyzeRead_keeps Conn.peerView (parseResponse_peerView c) (sniffData_peerView key)

/-! ## The pieces of a move -/

/-- A socket to the DoH server was asked for, on behalf of a query still to be
sent. -/
theorem Attempt.peerAt_doh (h : Attempt .doh d.sockaddr c next c') (hr : c.Requests)
    (hun : c.Unasked) : c'.PeerAt d (.goto next) := by
  cases h with
  | refused => exact peerAt_error
  | opened h =>
      cases h with
      | rejected fd h0 => exact peerAt_error
      | accepted fd h0 => exact peerAt_try ⟨⟨hr.1, hr.2⟩, .inl ⟨hun, rfl⟩⟩

theorem Attempt.cases_next {peer : Peer} {addr : Sockaddr}
    (h : Attempt peer addr c next c') :
    next = .error ∨ next = .tryConnectionIp ∧ ∃ fd, c' = c.opened fd peer addr := by
  cases h with
  | refused => exact .inl rfl
  | opened h =>
      cases h with
      | rejected fd h0 => exact .inl rfl
      | accepted fd h0 => exact .inr ⟨rfl, fd, rfl⟩

/-- The first socket: to the DoH server for a domain, else to the literal
address. -/
theorem peerAt_parseDone {key : SelectorKey} (hdoh : c.dohConnection = none)
    (hq : queries c.trace = [])
    (ha : Attempt (c.firstPeer d).1 (c.firstPeer d).2 c next c') :
    (if next ≠ .error then finishRequest key c' else c').PeerAt d (.goto next) := by
  rcases ha.cases_next with rfl | ⟨rfl, fd, rfl⟩
  · exact peerAt_error
  · rw [if_pos (by simp)]
    have hview : (finishRequest key (c.opened fd (c.firstPeer d).1 (c.firstPeer d).2)).peerView
        = (c.requestParser.request.requestTarget.hostType,
          c.requestParser.request.requestTarget.host, c.requestParser, none, fd, c.error,
          some (fd, c.firstPeer d), []) := by
      rw [← hdoh, ← hq]
      unfold finishRequest
      dsimp only
      split
      · rfl
      · split <;> rfl
    simp only [peerView, Prod.mk.injEq] at hview
    obtain ⟨hht, hhost, hpar, hd, hfd, _, ho, hqs⟩ := hview
    refine peerAt_try ⟨⟨by rw [hht, hpar], by rw [hhost, hpar]⟩, ?_⟩
    by_cases hdom : c.requestParser.request.requestTarget.hostType = .domain
    · have hfirst : c.firstPeer d = (.doh, d.sockaddr) := if_pos hdom
      refine .inl ⟨⟨hht.trans hdom, .inl ⟨hd, hqs⟩⟩, ?_⟩
      rw [TowardsDoh, ho, hfd, hfirst]
    · have hfirst : c.firstPeer d
          = (.literal, c.requestParser.request.requestTarget.host.sockaddr) := if_neg hdom
      refine .inr (.inl ⟨hht ▸ hdom, hd, ?_⟩)
      rw [ho, hfd, hhost, hfirst]

/-- `try_next_dns_connection` goes over the answers there are, or asks for
the others. -/
theorem peerAt_nextDns {doh : DohConnection} (hr : c.Requests)
    (h : c.Resolving doh ∨ c.GivenUp doh) :
    (c.nextDns doh).2.PeerAt d (c.nextDns doh).1 := by
  unfold Conn.nextDns
  dsimp only
  split
  · next ht =>
      have hres := h.resolve_right fun hg => by cases ht.symm.trans hg.2.2.1
      obtain ⟨hdom, hd, hact, hq⟩ := hres
      split
      · rw [ht] at hq
        exact ⟨⟨hr.1, hr.2⟩, hdom, _, rfl, rfl, rfl, rfl, hq⟩
      · exact ⟨hr, doh, h⟩
  · split
    · exact peerAt_error
    · exact ⟨hr, doh, h⟩

theorem peerAt_exhausted {doh : DohConnection} (hr : c.Requests)
    (h : c.Resolving doh ∨ c.GivenUp doh) :
    (c.exhausted doh).2.PeerAt d (c.exhausted doh).1 := by
  unfold Conn.exhausted
  split
  · next ht =>
      have hres := h.resolve_right fun hg => by cases ht.symm.trans hg.2.2.1
      obtain ⟨hdom, hd, hact, hq⟩ := hres
      rw [ht] at hq
      exact ⟨⟨hr.1, hr.2⟩, hdom, _, rfl, rfl, rfl, rfl, hq⟩
  · exact peerAt_error

/-- A byte of the reply was fed: the response is still the one the query of
the current type was answered with. -/
theorem peerAt_judged {key : SelectorKey} {doh : DohConnection} {v : Verdict}
    (hcur : c.current = some .awaitDohResponse) (hr : c.Requests) (ho : c.TowardsDoh d)
    (h : c.Resolving doh) :
    (c.judged key doh v).2.PeerAt d (c.judged key doh v).1 := by
  obtain ⟨hdom, hd, hact, hq⟩ := h
  unfold Conn.judged
  split
  · exact peerAt_in (.inr (.inl ⟨key, rfl⟩)) hcur ⟨hr, ho, .inr ⟨doh, hdom, hd, hact, hq⟩⟩
  · exact peerAt_in (s := .awaitDohResponse) (.inr (.inl ⟨key, rfl⟩)) hcur
      ⟨⟨hr.1, hr.2⟩, ho, .inr ⟨doh, hdom, hd, hact, hq⟩⟩
  · exact peerAt_error
  · split
    · exact peerAt_error
    · next ht =>
        rw [ht] at hq
        exact ⟨⟨hr.1, hr.2⟩, hdom, _, rfl, rfl, rfl, rfl, hq⟩

/-- Feeding a byte keeps what is asked for. -/
theorem DohConnection.feed_keeps (alloc : Bool) (doh : DohConnection) (b : UInt8) :
    (doh.feed alloc b).1.isActive = doh.isActive ∧
      (doh.feed alloc b).1.currentType = doh.currentType ∧
      (doh.feed alloc b).1.currentTry = doh.currentTry := by
  unfold DohConnection.feed
  split
  · exact ⟨rfl, rfl, rfl⟩
  · split <;> exact ⟨rfl, rfl, rfl⟩

/-- Arriving at a state. -/
theorem peerIn_arrival {env : Env} (hdue : c.PeerDue d s)
    (ha : c.arrival d env s = .ok c') : c'.PeerIn d s := by
  cases s with
  | parsingRequestLine =>
      cases ha
      exact hdue
  | tryConnectionIp =>
      cases ha
      exact hdue
  | sendDohRequest =>
      obtain ⟨buffer, _, ha⟩ := Lib.bind_eq_ok.mp ha
      cases ha
      obtain ⟨hr, ⟨hdom, hun⟩, ho⟩ := hdue
      refine ⟨⟨hr.1, hr.2⟩, ⟨hdom, ?_⟩, ho⟩
      rcases hun with ⟨hd, hq⟩ | ⟨doh, hd, hina, ht, _, hq⟩
      · refine .inl ⟨hd, ?_⟩
        change queryType c :: queries c.trace = _
        rw [hq, queryType, hd]
        rfl
      · refine .inr ⟨doh, hd, hina, ht, ?_⟩
        change queryType c :: queries c.trace = _
        rw [hq, queryType, hd]
        dsimp only
        rw [if_neg (by rw [ht]; simp)]
        rfl
  | awaitDohResponse =>
      cases ha
      obtain ⟨hr, ho, hdom, hask⟩ := hdue
      unfold initDohState
      rcases hask with ⟨hd, hq⟩ | ⟨doh, hd, _, ht, hq⟩
      · rw [hd]
        dsimp only
        split
        · exact ⟨⟨hr.1, hr.2⟩, ho, .inr ⟨_, hdom, rfl, rfl, hq⟩⟩
        · exact ⟨⟨hr.1, hr.2⟩, ho, .inl rfl⟩
      · rw [hd]
        exact ⟨⟨hr.1, hr.2⟩, ho,
          .inr ⟨_, hdom, rfl, rfl, by rw [dohConnectionInit, ht]; exact hq⟩⟩
  | sendRequestLine =>
      obtain ⟨buffer, _, ha⟩ := Lib.bind_eq_ok.mp ha
      cases ha
      exact PeerIn.congr (s := .sendRequestLine) (d := d) (c := c) hdue rfl
  | connected =>
      cases ha
      split
      · exact PeerIn.congr (s := .connected) (d := d) (c := c) hdue rfl
      · exact hdue
  | closing =>
      cases ha
      exact PeerIn.congr (s := .closing) (d := d) (c := c) hdue (by simp)
  | emptyBuffers =>
      cases ha
      exact PeerIn.congr (s := .emptyBuffers) (d := d) (c := c) hdue (by simp)
  | done => exact trivial
  | error => exact trivial

theorem peerDue_entered (h : c.PeerDue d s) : (c.entered s).PeerDue d s := by
  cases s with
  | sendDohRequest => exact ⟨⟨h.1.1, h.1.2⟩, h.2⟩
  | awaitDohResponse => exact ⟨⟨h.1.1, h.1.2⟩, h.2⟩
  | parsingRequestLine => exact h
  | tryConnectionIp => exact PeerIn.congr (s := .tryConnectionIp) (d := d) (c := c) h rfl
  | sendRequestLine => exact h
  | connected => exact h
  | closing => exact h
  | emptyBuffers => exact h
  | done => exact trivial
  | error => exact trivial

/-- A query that is still to be sent is awaited. -/
theorem unasked_awaits (hq : c.awaitsQuery = false) : ¬ (c.Unasked ∧ c.TowardsDoh d) := by
  rintro ⟨⟨hdom, hd⟩, _⟩
  unfold awaitsQuery at hq
  rcases hd with ⟨hd, _⟩ | ⟨doh, hd, hina, _⟩
  · rw [hd] at hq
    simp [hdom] at hq
  · rw [hd] at hq
    simp [hdom, hina] at hq

/-- And where it has an answer, it is not. -/
theorem target_awaits (hq : c.awaitsQuery = true) : ¬ c.TowardsTarget := by
  rintro ht
  unfold awaitsQuery at hq
  rcases ht with ⟨hdom, _⟩ | ⟨doh, k, a, ⟨_, hd, hact, _⟩, _⟩
  · simp [hdom] at hq
  · rw [hd] at hq
    simp [hact] at hq

/-- Answers that were given up are not read. -/
theorem GivenUp.unread {doh : DohConnection} {k : UInt8} {a : Answer} (h : c.GivenUp doh)
    (ha : readAnswer doh.dohParser.response k = .ok a) : False := by
  obtain ⟨_, _, _, hn, _⟩ := h
  rw [readAnswer, hn] at ha
  cases ha

theorem readAnswer_ok {r : DohResponse} {k : UInt8} {a : Answer}
    (h : readAnswer r k = .ok a) : r.answers.bind (·[k.toNat]?) = some a := by
  unfold readAnswer at h
  split at h
  · cases h
  · next answers ha =>
      split at h
      · cases h
      · next a' ha' =>
          cases h
          rw [ha]
          exact ha'

/-! ## One move -/

theorem peerAt_move {ph ph' : Phase} {m m' : Metrics} (h : c.PeerAt d ph)
    (hm : Move d ⟨ph, c, m⟩ ⟨ph', c', m'⟩) : c'.PeerAt d ph' := by
  cases hm with
  | readClient now _ _ _ _ => exact PeerIn.congr (d := d) (c := c) h rfl
  | endOfClient now _ _ _ => exact PeerIn.congr (d := d) (c := c) h rfl
  | writeClient now _ _ _ => exact PeerIn.congr (d := d) (c := c) h rfl
  | readOrigin now _ _ _ _ _ => exact PeerIn.congr (d := d) (c := c) h rfl
  | endOfOrigin now _ _ _ => exact PeerIn.congr (d := d) (c := c) h rfl
  | readyOrigin now _ => exact PeerIn.congr (d := d) (c := c) h rfl
  | writeRequest now _ _ _ => exact PeerIn.congr (d := d) (c := c) h rfl
  | writeOrigin now _ _ _ _ _ _ => exact PeerIn.congr (d := d) (c := c) h rfl
  | close now => exact trivial
  | closeEarly now _ => exact trivial
  | collect => exact trivial
  | start enabled hcur =>
      rw [PeerAt, show c.stmState = .parsingRequestLine by rw [stmState, hcur]; rfl] at h
      exact h
  | parseByte hcur _ _ _ _ =>
      rw [PeerAt, stmState_of_current hcur] at h
      exact peerAt_in (s := .parsingRequestLine) (.inr (.inl ⟨_, rfl⟩)) hcur h
  | parseError hcur _ _ _ => exact peerAt_error
  | parseDone hcur _ _ _ ha =>
      rw [PeerAt, stmState_of_current hcur] at h
      exact peerAt_parseDone (c := c.parsed _ _) h.1 h.2 ha
  | parseIdle hcur _ =>
      rw [PeerAt, stmState_of_current hcur] at h
      exact peerAt_stay hcur h
  | tryQuery hcur hq =>
      rw [PeerAt, stmState_of_current hcur] at h
      exact peerAt_leave (by rw [hcur]; simp) ⟨h.1, h.2.resolve_right (target_awaits hq)⟩
  | tryConnect hcur hq _ _ =>
      rw [PeerAt, stmState_of_current hcur] at h
      have ht := h.2.resolve_left (unasked_awaits hq)
      exact peerAt_leave (fun hc => by cases hcur.symm.trans hc)
        (PeerIn.congr (s := .connected) (d := d) (c := c) ht rfl)
  | tryRequest hcur hq _ =>
      rw [PeerAt, stmState_of_current hcur] at h
      have ht := h.2.resolve_left (unasked_awaits hq)
      exact peerAt_leave (fun hc => by cases hcur.symm.trans hc) ht
  | tryFail hcur _ => exact peerAt_error
  | tryNext hcur _ hd =>
      rw [PeerAt, stmState_of_current hcur] at h
      obtain ⟨hr, ⟨⟨_, hun⟩, _⟩ | ht⟩ := h
      · rcases hun with ⟨hd', _⟩ | ⟨doh, hg⟩
        · cases hd.symm.trans hd'
        · cases hd.symm.trans hg.1
          exact peerAt_nextDns hr (.inr hg)
      · rcases ht with ⟨_, hd', _⟩ | ⟨doh, k, a, hres, _⟩
        · cases hd.symm.trans hd'
        · cases hd.symm.trans hres.2.1
          exact peerAt_nextDns hr (.inl hres)
  | walkSkip hd _ ha _ =>
      obtain ⟨hr, doh, h⟩ := h
      rcases h with ⟨hdom, hd', hact, hq⟩ | hg
      · cases hd.symm.trans hd'
        exact ⟨⟨hr.1, hr.2⟩, _, .inl ⟨hdom, rfl, hact, hq⟩⟩
      · cases hd.symm.trans hg.1
        exact (GivenUp.unread hg ha).elim
  | walkRefused hd _ ha _ =>
      obtain ⟨hr, doh, h⟩ := h
      rcases h with ⟨hdom, hd', hact, hq⟩ | hg
      · cases hd.symm.trans hd'
        exact ⟨⟨hr.1, hr.2⟩, _, .inl ⟨hdom, rfl, hact, hq⟩⟩
      · cases hd.symm.trans hg.1
        exact (GivenUp.unread hg ha).elim
  | walkOpen hd hlt ha hty hreg =>
      obtain ⟨hr, doh, h⟩ := h
      rcases h with ⟨hdom, hd', hact, hq⟩ | hg
      · cases hd.symm.trans hd'
        cases hreg with
        | rejected fd h0 => exact peerAt_error
        | accepted fd h0 =>
            refine peerAt_try ⟨⟨hr.1, hr.2⟩, .inr (.inr ⟨_, _, _, ⟨hdom, rfl, hact, hq⟩,
              ?_, hty, rfl⟩)⟩
            exact readAnswer_ok ha
      · cases hd.symm.trans hg.1
        exact (GivenUp.unread hg ha).elim
  | walkEnd hd _ =>
      obtain ⟨hr, doh, h⟩ := h
      have hd' : c.dohConnection = some doh := h.elim (fun h => h.2.1) fun h => h.1
      cases hd.symm.trans hd'
      exact peerAt_exhausted hr h
  | ask ha =>
      obtain ⟨hr, hdom, doh, hg⟩ := h
      exact ha.peerAt_doh hr ⟨hdom, .inr ⟨doh, hg⟩⟩
  | drained hcur hst _ =>
      rw [PeerAt, stmState_of_current hcur] at h
      rw [afterDrain, stmState_of_current hcur]
      rcases hst with rfl | rfl | rfl
      · exact peerAt_leave (by rw [hcur]; simp) ⟨h.1, h.2.2, h.2.1⟩
      · exact peerAt_leave (by rw [hcur]; simp) h
      · exact peerAt_done
  | draining hcur hst _ =>
      rw [PeerAt, stmState_of_current hcur] at h
      exact peerAt_stay hcur h
  | awaitFailed hcur _ => exact peerAt_error
  | awaitByte alloc hcur herr hd _ _ _ =>
      rw [PeerAt, stmState_of_current hcur] at h
      obtain ⟨hr, ho, hres⟩ := h
      obtain ⟨doh, hdom, hd', hact, hq⟩ := hres.resolve_left herr
      cases hd.symm.trans hd'
      exact peerAt_judged (c := c.fed _ _) hcur ⟨hr.1, hr.2⟩ ho
        ⟨hdom, rfl, (DohConnection.feed_keeps _ _ _).1.trans hact,
          by rw [(DohConnection.feed_keeps _ _ _).2.1]; exact hq⟩
  | awaitIdle hcur _ _ _ =>
      rw [PeerAt, stmState_of_current hcur] at h
      exact peerAt_stay hcur h
  | awaitEnd hcur herr _ _ hd =>
      rw [PeerAt, stmState_of_current hcur] at h
      obtain ⟨hr, ho, hres⟩ := h
      obtain ⟨doh, hdom, hd', hact, hq⟩ := hres.resolve_left herr
      cases hd.symm.trans hd'
      exact peerAt_nextDns (c := c.log (.shutdown .origin)) ⟨hr.1, hr.2⟩
        (.inl ⟨hdom, hd', hact, hq⟩)
  | relayRead hcur _ _ =>
      rw [PeerAt, stmState_of_current hcur] at h
      exact peerAt_stay ((analyzeRead_buffers _ c).2.2.2.2.trans hcur)
        (PeerIn.congr (d := d) (c := c) h (analyzeRead_peerView _ c))
  | relayEnd hcur _ =>
      rw [PeerAt, stmState_of_current hcur] at h
      refine peerAt_leave ?_
        (PeerIn.congr (s := .closing) (d := d) (c := c) h (analyzeRead_peerView _ c))
      rw [(analyzeRead_buffers _ c).2.2.2.2, hcur]
      simp
  | relayWrite hcur =>
      rw [PeerAt, stmState_of_current hcur] at h
      exact peerAt_stay hcur h
  | closingRead hcur _ =>
      rw [PeerAt, stmState_of_current hcur] at h
      exact peerAt_stay (by simpa using hcur) (PeerIn.congr (d := d) (c := c) h (by simp))
  | closingDone hcur _ _ _ => exact peerAt_done
  | closingEmpty hcur _ _ =>
      rw [PeerAt, stmState_of_current hcur] at h
      exact peerAt_leave (by rw [hcur]; simp) h
  | closingWrite hcur =>
      rw [PeerAt, stmState_of_current hcur] at h
      exact peerAt_stay (by simpa using hcur) (PeerIn.congr (d := d) (c := c) h (by simp))
  | emptyDone hcur _ _ => exact peerAt_done
  | emptyWrite hcur _ =>
      rw [PeerAt, stmState_of_current hcur] at h
      exact peerAt_stay (by simpa using hcur) (PeerIn.congr (d := d) (c := c) h (by simp))
  | stay hcur =>
      rw [PeerAt, if_pos hcur] at h
      exact peerAt_in (.inl rfl) hcur h
  | arrive env hcur hne ha =>
      rw [PeerAt, if_neg hcur] at h
      exact peerAt_in (.inl rfl) (arrival_current ha)
        (peerIn_arrival (peerDue_entered h) ha)
  | free _ => exact trivial

/-- Every life keeps track of its peer. -/
theorem Life.peers {ph : Phase} (h : Life d ph c) : c.PeerAt d ph := by
  refine h.invariant (I := fun ph c => c.PeerAt d ph) ?_ ?_
  · intro fd size now mem
    exact ⟨rfl, rfl⟩
  · intro ph c m ph' c' m' _ hI hm
    exact peerAt_move hI hm

end

end HttpdProxy
