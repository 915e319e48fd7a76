import HttpdProxy.Protocol.Moves

/-!
# What a connection is like in each state

The statuses of the two sides and the buffers, per state: while the connection
rests (`Stage`), while a handler of the state runs (`Reading`, `Writing`), and
before it arrives at a state (`Due`). `stages` says that every life keeps to
this; everything the interests of a state promise is read off it.
-/

namespace HttpdProxy

namespace Conn

/-- A closed side has nothing left to be sent to. -/
structure Shut (c : Conn) : Prop where
  client : c.clientStatus = .closedStatus → c.clientBuffer.unread = []
  origin : c.originStatus = .closedStatus → c.originBuffer.unread = []

/-- A closing side has. -/
structure Undrained (c : Conn) : Prop where
  client : c.clientStatus = .closingStatus → c.clientBuffer.unread ≠ []
  origin : c.originStatus = .closingStatus → c.originBuffer.unread ≠ []

/-- Both sides are open. -/
def BothOpen (c : Conn) : Prop :=
  c.clientStatus = .activeStatus ∧ c.originStatus = .activeStatus

/-- One side is ending, the other open. -/
def HalfOpen (c : Conn) : Prop :=
  (c.clientStatus.ending = true ∧ c.originStatus = .activeStatus) ∨
    (c.clientStatus = .activeStatus ∧ c.originStatus.ending = true)

/-- Both sides are ending. -/
def BothEnding (c : Conn) : Prop :=
  c.clientStatus.ending = true ∧ c.originStatus.ending = true

/-- Before there is an origin. -/
structure Early (c : Conn) : Prop where
  client : c.clientStatus = .activeStatus
  origin : c.originStatus = .inactiveStatus
  buffer : c.originBuffer.unread = []
  doh : c.dohConnection = none

/-- The request is known, and the origin buffer free for what comes next. -/
structure Ready (c : Conn) : Prop where
  state : c.current ≠ some .error
  client : c.clientStatus = .activeStatus
  buffer : c.originBuffer.unread = []
  request : c.connectionRequest.requestLine ≠ []

/-- The request is known and both sides are open. -/
structure Opened (c : Conn) : Prop where
  both : c.BothOpen
  request : c.connectionRequest.requestLine ≠ []

/-- At rest in a state. -/
def Stage (c : Conn) : ConnState → Prop
  | .parsingRequestLine => c.Early ∧ c.clientBuffer.unread = []
  | .tryConnectionIp => c.Opened ∧ c.originBuffer.unread = []
  | .sendDohRequest => c.Opened ∧ c.originBuffer.unread ≠ []
  | .awaitDohResponse => c.Opened ∧ c.originBuffer.unread = []
  | .sendRequestLine => c.Opened ∧ c.originBuffer.unread ≠ []
  | .connected => c.BothOpen
  | .closing => c.HalfOpen ∧ c.Shut ∧ c.Undrained
  | .emptyBuffers =>
      c.BothEnding ∧ c.Shut ∧ c.Undrained ∧
        ¬ (c.clientStatus = .closedStatus ∧ c.originStatus = .closedStatus)
  | .done => False
  | .error => c.originBuffer.unread ≠ []

/-- In the read handler of a state. -/
def Reading (c : Conn) (key : SelectorKey) : ConnState → Prop
  | .parsingRequestLine => c.Early
  | .awaitDohResponse =>
      c.clientStatus = .activeStatus ∧ c.connectionRequest.requestLine ≠ [] ∧
        (c.originStatus = .activeStatus ∨
          c.originStatus = .closingStatus ∧ c.originBuffer.unread = [])
  | .connected =>
      c.BothOpen ∨
        c.clientStatus = .closingStatus ∧ c.originStatus = .activeStatus ∨
        c.clientStatus = .activeStatus ∧ c.originStatus = .closingStatus
  | .closing =>
      c.Shut ∧
        (key.fd = c.clientFd ∧ c.originStatus.ending = true ∧
            (c.clientStatus = .activeStatus ∨ c.clientStatus = .closingStatus) ∨
          key.fd ≠ c.clientFd ∧ c.clientStatus.ending = true ∧
            (c.originStatus = .activeStatus ∨ c.originStatus = .closingStatus))
  | _ => False

/-- In the write handler of a state. -/
def Writing (c : Conn) : ConnState → Prop
  | .tryConnectionIp => c.Opened ∧ c.originBuffer.unread = []
  | .sendDohRequest | .sendRequestLine => c.Opened
  | .connected => c.BothOpen
  | .closing => c.HalfOpen ∧ c.Shut
  | .emptyBuffers => c.BothEnding ∧ c.Shut
  | .error => True
  | _ => False

/-- About to arrive at a state. -/
def Due (c : Conn) : ConnState → Prop
  | .parsingRequestLine => False
  | .tryConnectionIp | .awaitDohResponse => c.Opened ∧ c.originBuffer.unread = []
  | .sendDohRequest | .sendRequestLine => c.Opened
  | .connected => c.BothOpen
  | .closing =>
      c.clientStatus = .closingStatus ∧ c.originStatus = .activeStatus ∨
        c.clientStatus = .activeStatus ∧ c.originStatus = .closingStatus
  | .emptyBuffers =>
      c.BothEnding ∧ c.Shut ∧ (c.clientBuffer.unread ≠ [] ∨ c.originBuffer.unread ≠ [])
  | .done | .error => True

/-- The stage of a phase. -/
def StageOf (c : Conn) : Phase → Prop
  | .rest => c.Stage c.stmState
  | .reading key => c.Reading key c.stmState
  | .writing => c.Writing c.stmState
  | .walking | .asking => c.Ready
  | .goto s => if c.current = some s then c.Stage s else c.Due s
  | .gone => True

/-- Both buffers have the size `buffer_init` gave them. -/
def Sized (c : Conn) : Prop :=
  c.clientBuffer.limit = bufferSize ∧ c.originBuffer.limit = bufferSize

/-! ## Ending a direction -/

theorem closeOrigin_cases (c : Conn) :
    (c.originStatus = .closingStatus ∧ c.originBuffer.unread = [] ∧
        c.closeOrigin.originStatus = .closedStatus) ∨
      (¬ (c.originStatus = .closingStatus ∧ c.originBuffer.unread = []) ∧
        c.closeOrigin = c) := by
  unfold closeOrigin
  split
  · next h =>
      simp only [Bool.and_eq_true, Bool.not_eq_true', Buffer.canRead_eq_false_iff,
        beq_iff_eq] at h
      exact .inl ⟨h.2, h.1, rfl⟩
  · next h =>
      simp only [Bool.and_eq_true, Bool.not_eq_true', Buffer.canRead_eq_false_iff,
        beq_iff_eq] at h
      exact .inr ⟨fun hc => h hc.symm, rfl⟩

theorem closeClient_cases (c : Conn) :
    (c.clientStatus = .closingStatus ∧ c.clientBuffer.unread = [] ∧
        c.closeClient.clientStatus = .closedStatus) ∨
      (¬ (c.clientStatus = .closingStatus ∧ c.clientBuffer.unread = []) ∧
        c.closeClient = c) := by
  unfold closeClient
  split
  · next h =>
      simp only [Bool.and_eq_true, Bool.not_eq_true', Buffer.canRead_eq_false_iff,
        beq_iff_eq] at h
      exact .inl ⟨h.2, h.1, rfl⟩
  · next h =>
      simp only [Bool.and_eq_true, Bool.not_eq_true', Buffer.canRead_eq_false_iff,
        beq_iff_eq] at h
      exact .inr ⟨fun hc => h hc.symm, rfl⟩

/-- `c'` is `c` with its drained closing sides closed, in either order. -/
structure Ended (c c' : Conn) : Prop where
  current : c'.current = c.current
  clientBuffer : c'.clientBuffer = c.clientBuffer
  originBuffer : c'.originBuffer = c.originBuffer
  client : (c.clientStatus = .closingStatus ∧ c.clientBuffer.unread = [] ∧
      c'.clientStatus = .closedStatus) ∨
    (¬ (c.clientStatus = .closingStatus ∧ c.clientBuffer.unread = []) ∧
      c'.clientStatus = c.clientStatus)
  origin : (c.originStatus = .closingStatus ∧ c.originBuffer.unread = [] ∧
      c'.originStatus = .closedStatus) ∨
    (¬ (c.originStatus = .closingStatus ∧ c.originBuffer.unread = []) ∧
      c'.originStatus = c.originStatus)

theorem ended_originFirst (c : Conn) : c.Ended c.closeOrigin.closeClient where
  current := by simp
  clientBuffer := by simp
  originBuffer := by simp
  client := by
    have h := closeClient_cases c.closeOrigin
    rw [closeOrigin_clientStatus, closeOrigin_clientBuffer] at h
    refine h.imp id fun hn => ⟨hn.1, ?_⟩
    rw [hn.2, closeOrigin_clientStatus]
  origin := by
    rw [closeClient_originStatus]
    exact (closeOrigin_cases c).imp id fun hn => ⟨hn.1, by rw [hn.2]⟩

theorem ended_clientFirst (c : Conn) : c.Ended c.closeClient.closeOrigin where
  current := by simp
  clientBuffer := by simp
  originBuffer := by simp
  client := by
    rw [closeOrigin_clientStatus]
    exact (closeClient_cases c).imp id fun hn => ⟨hn.1, by rw [hn.2]⟩
  origin := by
    have h := closeOrigin_cases c.closeClient
    rw [closeClient_originStatus, closeClient_originBuffer] at h
    refine h.imp id fun hn => ⟨hn.1, ?_⟩
    rw [hn.2, closeClient_originStatus]

namespace Ended

variable {c c' : Conn} (h : c.Ended c')
include h

theorem shut (hs : c.Shut) : c'.Shut where
  client he := by
    rw [h.clientBuffer]
    rcases h.client with ⟨_, hb, _⟩ | ⟨_, hk⟩
    · exact hb
    · exact hs.client (hk ▸ he)
  origin he := by
    rw [h.originBuffer]
    rcases h.origin with ⟨_, hb, _⟩ | ⟨_, hk⟩
    · exact hb
    · exact hs.origin (hk ▸ he)

theorem undrained : c'.Undrained where
  client he := by
    rw [h.clientBuffer]
    rcases h.client with ⟨_, _, hc⟩ | ⟨hn, hk⟩
    · rw [hc] at he
      cases he
    · exact fun hb => hn ⟨hk ▸ he, hb⟩
  origin he := by
    rw [h.originBuffer]
    rcases h.origin with ⟨_, _, hc⟩ | ⟨hn, hk⟩
    · rw [hc] at he
      cases he
    · exact fun hb => hn ⟨hk ▸ he, hb⟩

theorem client_ending : c'.clientStatus.ending = c.clientStatus.ending := by
  rcases h.client with ⟨hs, _, hc⟩ | ⟨_, hk⟩
  · rw [hs, hc]
    rfl
  · rw [hk]

theorem origin_ending : c'.originStatus.ending = c.originStatus.ending := by
  rcases h.origin with ⟨hs, _, hc⟩ | ⟨_, hk⟩
  · rw [hs, hc]
    rfl
  · rw [hk]

theorem client_active (ha : c.clientStatus = .activeStatus) :
    c'.clientStatus = .activeStatus := by
  rcases h.client with ⟨hs, _, _⟩ | ⟨_, hk⟩
  · rw [hs] at ha
    cases ha
  · rw [hk, ha]

theorem origin_active (ha : c.originStatus = .activeStatus) :
    c'.originStatus = .activeStatus := by
  rcases h.origin with ⟨hs, _, _⟩ | ⟨_, hk⟩
  · rw [hs] at ha
    cases ha
  · rw [hk, ha]

theorem halfOpen (hh : c.HalfOpen) : c'.HalfOpen := by
  rcases hh with ⟨hc, ho⟩ | ⟨hc, ho⟩
  · exact .inl ⟨h.client_ending.trans hc, h.origin_active ho⟩
  · exact .inr ⟨h.client_active hc, h.origin_ending.trans ho⟩

theorem bothEnding (hh : c.BothEnding) : c'.BothEnding :=
  ⟨h.client_ending.trans hh.1, h.origin_ending.trans hh.2⟩

end Ended

theorem ending_cases {s : ConnStatus} (h : s.ending = true) :
    s = .closingStatus ∨ s = .closedStatus := by
  cases s <;> first | exact .inl rfl | exact .inr rfl | cases h

end Conn

open Conn

section

variable {d : DohUtils} {c c' : Conn} {s next : ConnState}

/-! ## The pieces of a move -/

theorem stageOf_stay (hcur : c.current = some s) (h : c.Stage s) : c.StageOf (.goto s) := by
  rw [StageOf, if_pos hcur]
  exact h

theorem stageOf_leave (hcur : c.current ≠ some s) (h : c.Due s) : c.StageOf (.goto s) := by
  rw [StageOf, if_neg hcur]
  exact h

theorem stageOf_reading {key : SelectorKey} (hcur : c.current = some s)
    (h : c.Reading key s) : c.StageOf (.reading key) := by
  rw [StageOf, stmState_of_current hcur]
  exact h

theorem stageOf_error (hcur : c.current ≠ some .error) : c.StageOf (.goto .error) :=
  stageOf_leave hcur trivial

/-- A socket is asked for: the buffers and the request are as they were. -/
theorem Registration.stages {peer : Peer} {addr : Sockaddr}
    (h : Registration peer addr c next c') (hr : c.Ready) :
    (c.Sized → c'.Sized) ∧ c'.StageOf (.goto next) := by
  cases h with
  | rejected fd h0 => exact ⟨id, stageOf_error hr.state⟩
  | accepted fd h0 =>
      refine ⟨id, ?_⟩
      have hopen : (c.opened fd peer addr).Opened := ⟨⟨hr.client, rfl⟩, hr.request⟩
      by_cases hcur : (c.opened fd peer addr).current = some .tryConnectionIp
      · exact stageOf_stay hcur ⟨hopen, hr.buffer⟩
      · exact stageOf_leave hcur ⟨hopen, hr.buffer⟩

theorem Attempt.stages {peer : Peer} {addr : Sockaddr}
    (h : Attempt peer addr c next c') (hr : c.Ready) :
    (c.Sized → c'.Sized) ∧ c'.StageOf (.goto next) := by
  cases h with
  | refused => exact ⟨id, stageOf_error hr.state⟩
  | opened h => exact h.stages hr

theorem buildConnectionRequest_requestLine (c : Conn) :
    (buildConnectionRequest c).requestLine ≠ [] := by
  unfold buildConnectionRequest
  dsimp only
  split <;> simp [ascii]

/-- What `finishRequest` leaves of the buffers and the statuses. -/
theorem finishRequest_keeps (key : SelectorKey) (c : Conn) :
    (finishRequest key c).clientStatus = c.clientStatus ∧
      (finishRequest key c).originStatus = c.originStatus ∧
      (finishRequest key c).originBuffer = c.originBuffer ∧
      (finishRequest key c).current = c.current ∧
      (finishRequest key c).clientBuffer.limit = c.clientBuffer.limit ∧
      (finishRequest key c).connectionRequest = buildConnectionRequest c ∧
      (finishRequest key c).dohConnection = c.dohConnection ∧
      (finishRequest key c).clientFd = c.clientFd ∧
      (finishRequest key c).originFd = c.originFd := by
  unfold finishRequest
  dsimp only
  split
  · exact ⟨rfl, rfl, rfl, rfl, rfl, rfl, rfl, rfl, rfl⟩
  · split <;> exact ⟨rfl, rfl, rfl, rfl, rfl, rfl, rfl, rfl, rfl⟩

/-- A completed request line stays in the parser. -/
theorem completed_requestParser {peer : Peer} {addr : Sockaddr} (key : SelectorKey)
    (ha : Attempt peer addr c next c') :
    (if next ≠ .error then finishRequest key c' else c').requestParser = c.requestParser := by
  have hattempt : c'.requestParser = c.requestParser := by
    cases ha with
    | refused => rfl
    | opened ha => cases ha <;> rfl
  rw [← hattempt]
  split
  · unfold HttpdProxy.finishRequest
    dsimp only
    split
    · rfl
    · split <;> rfl
  · rfl

/-- The first socket of a connection. -/
theorem stages_parseDone {peer : Peer} {addr : Sockaddr} {key : SelectorKey}
    (hcur : c.current = some .parsingRequestLine) (he : c.Early)
    (ha : Attempt peer addr c next c') :
    (c.Sized → (if next ≠ .error then finishRequest key c' else c').Sized) ∧
      (if next ≠ .error then finishRequest key c' else c').StageOf (.goto next) := by
  have hne : c.current ≠ some .error := by rw [hcur]; simp
  have hdone : ∀ fd, (c.Sized → (finishRequest key (c.opened fd peer addr)).Sized) ∧
      (finishRequest key (c.opened fd peer addr)).StageOf (.goto .tryConnectionIp) := by
    intro fd
    obtain ⟨h1, h2, h3, h4, h5, h6, _⟩ := finishRequest_keeps key (c.opened fd peer addr)
    refine ⟨fun hs => ⟨h5.trans hs.1, by rw [h3]; exact hs.2⟩, stageOf_leave ?_ ?_⟩
    · rw [h4]
      change c.current ≠ _
      rw [hcur]
      simp
    · refine ⟨⟨⟨h1.trans he.client, h2⟩, ?_⟩, by rw [h3]; exact he.buffer⟩
      rw [h6]
      exact buildConnectionRequest_requestLine _
  cases ha with
  | refused => exact ⟨id, stageOf_error hne⟩
  | opened hr =>
      cases hr with
      | rejected fd h0 => exact ⟨id, stageOf_error hne⟩
      | accepted fd h0 => exact hdone fd

theorem stages_nextDns {doh : DohConnection} (hr : c.Ready) :
    (c.Sized → (c.nextDns doh).2.Sized) ∧ (c.nextDns doh).2.StageOf (c.nextDns doh).1 := by
  unfold Conn.nextDns
  dsimp only
  split
  · split
    · exact ⟨id, hr.state, hr.client, hr.buffer, hr.request⟩
    · exact ⟨id, hr⟩
  · split
    · exact ⟨id, stageOf_error hr.state⟩
    · exact ⟨id, hr⟩

theorem stages_exhausted {doh : DohConnection} (hr : c.Ready) :
    (c.Sized → (c.exhausted doh).2.Sized) ∧
      (c.exhausted doh).2.StageOf (c.exhausted doh).1 := by
  unfold Conn.exhausted
  split
  · exact ⟨id, hr.state, hr.client, hr.buffer, hr.request⟩
  · exact ⟨id, stageOf_error hr.state⟩

/-- A byte of the reply was fed: the buffer lost it. -/
theorem stages_judged {key : SelectorKey} {doh : DohConnection} {v : Verdict}
    (hcur : c.current = some .awaitDohResponse) (hr : c.Reading key .awaitDohResponse) :
    (c.Sized → (c.judged key doh v).2.Sized) ∧
      (c.judged key doh v).2.StageOf (c.judged key doh v).1 := by
  have hne : c.current ≠ some .error := by rw [hcur]; simp
  obtain ⟨hc, hreq, ho⟩ := hr
  unfold Conn.judged
  split
  · exact ⟨id, stageOf_reading hcur ⟨hc, hreq, ho⟩⟩
  · exact ⟨id, stageOf_reading (s := .awaitDohResponse) hcur
      ⟨hc, hreq, ho.imp id fun hb => ⟨hb.1, rfl⟩⟩⟩
  · exact ⟨id, stageOf_error hne⟩
  · split
    · exact ⟨id, stageOf_error hne⟩
    · exact ⟨id, hne, hc, rfl, hreq⟩

/-- Arriving at a state stays in it. -/
theorem arrival_current {env : Env} (ha : c.arrival d env s = .ok c') :
    c'.current = c.current := by
  cases s with
  | sendDohRequest =>
      obtain ⟨buffer, _, ha⟩ := Lib.bind_eq_ok.mp ha
      cases ha
      rfl
  | awaitDohResponse =>
      cases ha
      unfold initDohState
      split
      · rfl
      · split <;> rfl
  | sendRequestLine =>
      obtain ⟨buffer, _, ha⟩ := Lib.bind_eq_ok.mp ha
      cases ha
      rfl
  | connected =>
      cases ha
      split <;> rfl
  | closing =>
      cases ha
      simp
  | emptyBuffers =>
      cases ha
      simp
  | error =>
      obtain ⟨buffer, _, ha⟩ := Lib.bind_eq_ok.mp ha
      cases ha
      rfl
  | _ =>
      cases ha
      rfl

theorem due_entered (h : c.Due s) : (c.entered s).Due s := by
  cases s with
  | tryConnectionIp => exact ⟨⟨h.1.both, h.1.request⟩, h.2⟩
  | awaitDohResponse => exact ⟨⟨h.1.both, h.1.request⟩, h.2⟩
  | sendDohRequest => exact ⟨h.both, h.request⟩
  | sendRequestLine => exact ⟨h.both, h.request⟩
  | emptyBuffers => exact ⟨h.1, ⟨h.2.1.client, h.2.1.origin⟩, h.2.2⟩
  | _ => exact h

/-- Arriving at a state turns what was due into its stage. -/
theorem stages_arrival {env : Env} (hdue : c.Due s) (hne : s ≠ .done)
    (ha : c.arrival d env s = .ok c') : (c.Sized → c'.Sized) ∧ c'.Stage s := by
  cases s with
  | parsingRequestLine => exact absurd hdue id
  | tryConnectionIp =>
      cases ha
      exact ⟨id, hdue⟩
  | sendDohRequest =>
      obtain ⟨buffer, hb, ha⟩ := Lib.bind_eq_ok.mp ha
      obtain ⟨hu, hl, _⟩ := Buffer.append_spec hb
      cases ha
      refine ⟨fun hs => ⟨hs.1, hl.trans hs.2⟩, ⟨hdue.both, hdue.request⟩, ?_⟩
      change buffer.unread ≠ []
      rw [hu]
      simp [buildDohRequest, ascii]
  | awaitDohResponse =>
      cases ha
      unfold initDohState
      split
      · exact ⟨id, ⟨⟨hdue.1.both, hdue.1.request⟩, hdue.2⟩⟩
      · split <;> exact ⟨id, ⟨⟨hdue.1.both, hdue.1.request⟩, hdue.2⟩⟩
  | sendRequestLine =>
      obtain ⟨buffer, hb, ha⟩ := Lib.bind_eq_ok.mp ha
      obtain ⟨hu, hl, _⟩ := Buffer.append_spec hb
      cases ha
      refine ⟨fun hs => ⟨hs.1, hl.trans hs.2⟩, ⟨hdue.both, hdue.request⟩, ?_⟩
      change buffer.unread ≠ []
      rw [hu]
      exact List.append_ne_nil_of_right_ne_nil _ hdue.request
  | connected =>
      cases ha
      split <;> exact ⟨id, hdue⟩
  | closing =>
      cases ha
      have hshut : c.Shut := by
        rcases hdue with ⟨hc, ho⟩ | ⟨hc, ho⟩ <;> constructor <;> intro h <;>
          simp [hc, ho] at h
      have hhalf : c.HalfOpen := hdue.imp (fun h => ⟨by rw [h.1]; rfl, h.2⟩)
        fun h => ⟨h.1, by rw [h.2]; rfl⟩
      have he := ended_originFirst c
      refine ⟨fun hs => ?_, he.halfOpen hhalf, he.shut hshut, he.undrained⟩
      rw [Sized, he.clientBuffer, he.originBuffer]
      exact hs
  | emptyBuffers =>
      cases ha
      obtain ⟨hboth, hshut, hfull⟩ := hdue
      have he := ended_clientFirst c
      refine ⟨fun hs => ?_, he.bothEnding hboth, he.shut hshut, he.undrained, ?_⟩
      · rw [Sized, he.clientBuffer, he.originBuffer]
        exact hs
      · rintro ⟨hc, ho⟩
        have h1 := (he.shut hshut).client hc
        have h2 := (he.shut hshut).origin ho
        rw [he.clientBuffer] at h1
        rw [he.originBuffer] at h2
        exact hfull.elim (fun h => h h1) fun h => h h2
  | done => exact absurd rfl hne
  | error =>
      obtain ⟨buffer, hb, ha⟩ := Lib.bind_eq_ok.mp ha
      obtain ⟨hu, hl, _⟩ := Buffer.print_spec hb
      cases ha
      refine ⟨fun hs => ⟨hs.1, hl.trans hs.2⟩, ?_⟩
      change buffer.unread ≠ []
      rw [hu]
      simp [errorReply, ascii]

/-! ## Reads and writes -/

/-- Bytes from the client, in a state that reads them. -/
theorem stages_readClient {key : SelectorKey} {bs : Bytes} {buffer : Buffer} {now : Nat}
    (hint : c.interests.1.read = true) (hkey : key.fd = c.clientFd)
    (h : c.Stage c.stmState) :
    ((c.touched now).fromClient bs buffer).Reading key c.stmState := by
  rw [Conn.interests] at hint
  cases hs : c.stmState with
  | parsingRequestLine =>
      rw [hs] at h
      exact ⟨h.1.client, h.1.origin, h.1.buffer, h.1.doh⟩
  | connected =>
      rw [hs] at h
      exact .inl h
  | closing =>
      rw [hs] at h hint
      obtain ⟨hhalf, hshut, _⟩ := h
      have hoe : c.originStatus.ending = true := by
        simp only [ConnState.interests, closingInterests, Bool.and_eq_true] at hint
        exact hint.1
      have hca : c.clientStatus = .activeStatus := by
        rcases hhalf with ⟨_, ho⟩ | ⟨hc, _⟩
        · rw [ho] at hoe
          cases hoe
        · exact hc
      refine ⟨⟨fun hc => ?_, hshut.origin⟩, .inl ⟨hkey, hoe, .inl hca⟩⟩
      rw [show ((c.touched now).fromClient bs buffer).clientStatus = c.clientStatus from rfl,
        hca] at hc
      cases hc
  | _ =>
      rw [hs] at hint
      cases hint

/-- The end of the client's stream, from CONNECTED on. -/
theorem stages_endOfClient {key : SelectorKey} {now : Nat}
    (hint : c.interests.1.read = true) (hkey : key.fd = c.clientFd)
    (hnum : ConnState.connected.num ≤ c.stmState.num) (h : c.Stage c.stmState) :
    ((c.touched now).endOfClient).Reading key c.stmState := by
  rw [Conn.interests] at hint
  cases hs : c.stmState with
  | connected =>
      rw [hs] at h
      exact .inr (.inl ⟨rfl, h.2⟩)
  | closing =>
      rw [hs] at h hint
      obtain ⟨hhalf, hshut, _⟩ := h
      have hoe : c.originStatus.ending = true := by
        simp only [ConnState.interests, closingInterests, Bool.and_eq_true] at hint
        exact hint.1
      exact ⟨⟨(by intro hc; cases hc), hshut.origin⟩, .inl ⟨hkey, hoe, .inr rfl⟩⟩
  | parsingRequestLine =>
      rw [hs] at hnum
      exact absurd hnum (by decide)
  | _ =>
      rw [hs] at hint
      cases hint

theorem stages_readOrigin {key : SelectorKey} {bs : Bytes} {buffer : Buffer} {now : Nat}
    (hint : c.interests.2.read = true) (hkey : key.fd = c.originFd)
    (hne : c.originFd ≠ c.clientFd) (h : c.Stage c.stmState) :
    ((c.touched now).fromOrigin bs buffer).Reading key c.stmState := by
  rw [Conn.interests] at hint
  cases hs : c.stmState with
  | awaitDohResponse =>
      rw [hs] at h
      exact ⟨h.1.both.1, h.1.request, .inl h.1.both.2⟩
  | connected =>
      rw [hs] at h
      exact .inl h
  | closing =>
      rw [hs] at h hint
      obtain ⟨hhalf, hshut, _⟩ := h
      have hce : c.clientStatus.ending = true := by
        simp only [ConnState.interests, closingInterests, Bool.and_eq_true] at hint
        exact hint.1
      have hoa : c.originStatus = .activeStatus := by
        rcases hhalf with ⟨_, ho⟩ | ⟨hc, _⟩
        · exact ho
        · rw [hc] at hce
          cases hce
      refine ⟨⟨hshut.client, fun ho => ?_⟩, .inr ⟨?_, hce, .inl hoa⟩⟩
      · rw [show ((c.touched now).fromOrigin bs buffer).originStatus = c.originStatus from rfl,
          hoa] at ho
        cases ho
      · rw [hkey]
        exact hne
  | _ =>
      rw [hs] at hint
      cases hint

theorem stages_endOfOrigin {key : SelectorKey} {now : Nat}
    (hint : c.interests.2.read = true) (hkey : key.fd = c.originFd)
    (hne : c.originFd ≠ c.clientFd) (h : c.Stage c.stmState) :
    ((c.touched now).endOfOrigin).Reading key c.stmState := by
  rw [Conn.interests] at hint
  cases hs : c.stmState with
  | awaitDohResponse =>
      rw [hs] at h
      exact ⟨h.1.both.1, h.1.request, .inr ⟨rfl, h.2⟩⟩
  | connected =>
      rw [hs] at h
      exact .inr (.inr ⟨h.1, rfl⟩)
  | closing =>
      rw [hs] at h hint
      obtain ⟨hhalf, hshut, _⟩ := h
      have hce : c.clientStatus.ending = true := by
        simp only [ConnState.interests, closingInterests, Bool.and_eq_true] at hint
        exact hint.1
      refine ⟨⟨hshut.client, (by intro ho; cases ho)⟩, .inr ⟨?_, hce, .inr rfl⟩⟩
      rw [hkey]
      exact hne
  | _ =>
      rw [hs] at hint
      cases hint

/-- Bytes left the origin buffer for the client. -/
theorem stages_writeClient {bs : Bytes} {n : Nat} {buffer : Buffer} {now : Nat}
    (hint : c.interests.1.write = true) (hb : bufferReadAdv c.originBuffer n = .ok buffer)
    (h : c.Stage c.stmState) : ((c.touched now).toClient bs buffer).Writing c.stmState := by
  obtain ⟨hu, _, _⟩ := Buffer.readAdv_spec hb
  have hshut : c.Shut → ((c.touched now).toClient bs buffer).Shut := by
    intro hs
    refine ⟨hs.client, fun ho => ?_⟩
    change buffer.unread = []
    rw [hu, hs.origin ho, List.drop_nil]
  rw [Conn.interests] at hint
  cases hs : c.stmState with
  | connected =>
      rw [hs] at h
      exact h
  | closing =>
      rw [hs] at h
      exact ⟨h.1, hshut h.2.1⟩
  | emptyBuffers =>
      rw [hs] at h
      exact ⟨h.1, hshut h.2.1⟩
  | error => exact trivial
  | _ =>
      rw [hs] at hint
      cases hint

/-- Bytes left the client buffer for the origin. -/
theorem stages_writeOrigin {bs : Bytes} {n : Nat} {buffer : Buffer} {now : Nat}
    (h1 : c.stmState ≠ .sendRequestLine) (h2 : c.stmState ≠ .sendDohRequest)
    (h3 : c.stmState ≠ .tryConnectionIp) (hint : c.interests.2.write = true)
    (hb : bufferReadAdv c.clientBuffer n = .ok buffer) (h : c.Stage c.stmState) :
    ((c.touched now).toOrigin bs buffer).Writing c.stmState := by
  obtain ⟨hu, _, _⟩ := Buffer.readAdv_spec hb
  have hshut : c.Shut → ((c.touched now).toOrigin bs buffer).Shut := by
    intro hs
    refine ⟨fun hc => ?_, hs.origin⟩
    change buffer.unread = []
    rw [hu, hs.client hc, List.drop_nil]
  rw [Conn.interests] at hint
  cases hs : c.stmState with
  | tryConnectionIp => exact absurd hs h3
  | sendDohRequest => exact absurd hs h2
  | sendRequestLine => exact absurd hs h1
  | connected =>
      rw [hs] at h
      exact h
  | closing =>
      rw [hs] at h
      exact ⟨h.1, hshut h.2.1⟩
  | emptyBuffers =>
      rw [hs] at h
      exact ⟨h.1, hshut h.2.1⟩
  | _ =>
      rw [hs] at hint
      cases hint

/-! ## One move -/

/-- `sniff_data` and the parsers of CONNECTED leave sockets and buffers. -/
theorem analyzeRead_buffers (key : SelectorKey) (c : Conn) :
    (analyzeRead key c).clientBuffer = c.clientBuffer ∧
      (analyzeRead key c).originBuffer = c.originBuffer ∧
      (analyzeRead key c).clientStatus = c.clientStatus ∧
      (analyzeRead key c).originStatus = c.originStatus ∧
      (analyzeRead key c).current = c.current :=
  ⟨analyzeRead_keeps Conn.clientBuffer rfl fun _ => rfl,
    analyzeRead_keeps Conn.originBuffer rfl fun _ => rfl,
    analyzeRead_keeps Conn.clientStatus rfl fun _ => rfl,
    analyzeRead_keeps Conn.originStatus rfl fun _ => rfl,
    analyzeRead_keeps Conn.current rfl fun _ => rfl⟩

theorem stages_move {ph ph' : Phase} {m m' : Metrics} (hs : c.Sized) (h : c.StageOf ph)
    (hm : Move d ⟨ph, c, m⟩ ⟨ph', c', m'⟩) : c'.Sized ∧ c'.StageOf ph' := by
  cases hm with
  | readClient now hint hkey _ hb =>
      obtain ⟨_, hl, _⟩ := Buffer.append_spec hb
      exact ⟨⟨hl.trans hs.1, hs.2⟩, stages_readClient hint hkey h⟩
  | endOfClient now hint hkey hnum => exact ⟨hs, stages_endOfClient hint hkey hnum h⟩
  | writeClient now hint _ hb =>
      obtain ⟨_, hl, _⟩ := Buffer.readAdv_spec hb
      exact ⟨⟨hs.1, hl.trans hs.2⟩, stages_writeClient hint hb h⟩
  | readOrigin now hint hkey hne _ hb =>
      obtain ⟨_, hl, _⟩ := Buffer.append_spec hb
      exact ⟨⟨hs.1, hl.trans hs.2⟩, stages_readOrigin hint hkey hne h⟩
  | endOfOrigin now hint hkey hne => exact ⟨hs, stages_endOfOrigin hint hkey hne h⟩
  | readyOrigin now hst =>
      refine ⟨hs, ?_⟩
      rw [StageOf, hst] at h
      rw [StageOf, show (c.touched now).stmState = _ from hst]
      exact ⟨⟨h.1.both, h.1.request⟩, h.2⟩
  | writeRequest now hst _ hb =>
      obtain ⟨_, hl, _⟩ := Buffer.readAdv_spec hb
      refine ⟨⟨hs.1, hl.trans hs.2⟩, ?_⟩
      rcases hst with hst | hst
      · rw [StageOf, hst] at h
        rw [StageOf, show ((c.touched now).requestToOrigin _ _).stmState = _ from hst]
        exact ⟨h.1.both, h.1.request⟩
      · rw [StageOf, hst] at h
        rw [StageOf, show ((c.touched now).requestToOrigin _ _).stmState = _ from hst]
        exact ⟨h.1.both, h.1.request⟩
  | writeOrigin now h1 h2 h3 hint _ hb =>
      obtain ⟨_, hl, _⟩ := Buffer.readAdv_spec hb
      exact ⟨⟨hl.trans hs.1, hs.2⟩, stages_writeOrigin h1 h2 h3 hint hb h⟩
  | close now => exact ⟨hs, trivial⟩
  | closeEarly now _ => exact ⟨hs, trivial⟩
  | collect => exact ⟨hs, trivial⟩
  | start enabled hcur =>
      rw [StageOf, show c.stmState = .parsingRequestLine by rw [stmState, hcur]; rfl] at h
      exact ⟨hs, h.client, h.origin, h.buffer, h.doh⟩
  | parseByte hcur hcan hread _ _ =>
      obtain ⟨_, hl, _⟩ := Buffer.read_ok hcan hread
      rw [StageOf, stmState_of_current hcur] at h
      exact ⟨⟨hl.trans hs.1, hs.2⟩, stageOf_reading (s := .parsingRequestLine) hcur
        ⟨h.client, h.origin, h.buffer, h.doh⟩⟩
  | parseError hcur hcan hread _ =>
      obtain ⟨_, hl, _⟩ := Buffer.read_ok hcan hread
      refine ⟨⟨hl.trans hs.1, hs.2⟩, stageOf_error (fun hc => ?_)⟩
      cases hcur.symm.trans hc
  | parseDone hcur hcan hread _ ha =>
      obtain ⟨_, hl, _⟩ := Buffer.read_ok hcan hread
      rw [StageOf, stmState_of_current hcur] at h
      have hp := @stages_parseDone (c.parsed _ _) _ _ _ _ ‹_› hcur
        ⟨h.client, h.origin, h.buffer, h.doh⟩ ha
      exact ⟨hp.1 ⟨hl.trans hs.1, hs.2⟩, hp.2⟩
  | parseIdle hcur hcan =>
      rw [StageOf, stmState_of_current hcur] at h
      exact ⟨hs, stageOf_stay hcur ⟨h, (Buffer.canRead_eq_false_iff _).mp hcan⟩⟩
  | tryQuery hcur _ =>
      rw [StageOf, stmState_of_current hcur] at h
      exact ⟨hs, stageOf_leave (by rw [hcur]; simp) h.1⟩
  | tryConnect hcur _ _ hb =>
      obtain ⟨_, hl, _⟩ := Buffer.print_spec hb
      rw [StageOf, stmState_of_current hcur] at h
      refine ⟨⟨hs.1, hl.trans hs.2⟩, stageOf_leave (fun hc => ?_) h.1.both⟩
      cases hcur.symm.trans hc
  | tryRequest hcur _ _ =>
      rw [StageOf, stmState_of_current hcur] at h
      refine ⟨hs, stageOf_leave (fun hc => ?_) ⟨h.1.both, h.1.request⟩⟩
      cases hcur.symm.trans hc
  | tryFail hcur _ => exact ⟨hs, stageOf_error (fun hc => by cases hcur.symm.trans hc)⟩
  | tryNext hcur _ _ =>
      rw [StageOf, stmState_of_current hcur] at h
      have hr : c.Ready := ⟨by rw [hcur]; simp, h.1.both.1, h.2, h.1.request⟩
      exact ⟨(stages_nextDns hr).1 hs, (stages_nextDns hr).2⟩
  | walkSkip _ _ _ _ => exact ⟨hs, h.state, h.client, h.buffer, h.request⟩
  | walkRefused _ _ _ _ => exact ⟨hs, h.state, h.client, h.buffer, h.request⟩
  | walkOpen _ _ _ _ hr =>
      have hp := hr.stages ⟨h.state, h.client, h.buffer, h.request⟩
      exact ⟨hp.1 hs, hp.2⟩
  | walkEnd _ _ => exact ⟨(stages_exhausted h).1 hs, (stages_exhausted h).2⟩
  | ask ha => exact ⟨(ha.stages h).1 hs, (ha.stages h).2⟩
  | drained hcur hst hcan =>
      refine ⟨hs, ?_⟩
      rw [StageOf, stmState_of_current hcur] at h
      rw [afterDrain, stmState_of_current hcur]
      rcases hst with rfl | rfl | rfl
      · exact stageOf_leave (by rw [hcur]; simp)
          ⟨h, (Buffer.canRead_eq_false_iff _).mp hcan⟩
      · exact stageOf_leave (by rw [hcur]; simp) h.both
      · exact stageOf_leave (by rw [hcur]; simp) trivial
  | draining hcur hst hcan =>
      refine ⟨hs, ?_⟩
      rw [StageOf, stmState_of_current hcur] at h
      rw [Buffer.canRead_iff] at hcan
      rcases hst with rfl | rfl | rfl
      · exact stageOf_stay hcur ⟨h, hcan⟩
      · exact stageOf_stay hcur ⟨h, hcan⟩
      · exact stageOf_stay hcur hcan
  | awaitFailed hcur _ => exact ⟨hs, stageOf_error (by rw [hcur]; simp)⟩
  | awaitByte alloc hcur _ _ _ hcan hread =>
      obtain ⟨hu, hl, _⟩ := Buffer.read_ok hcan hread
      rw [StageOf, stmState_of_current hcur] at h
      obtain ⟨hc, hreq, ho⟩ := h
      have ho : c.originStatus = .activeStatus := by
        refine ho.resolve_right fun hb => ?_
        rw [hu] at hb
        exact absurd hb.2 (by simp)
      exact ⟨(stages_judged (c := c.fed _ _) hcur ⟨hc, hreq, .inl ho⟩).1
          ⟨hs.1, hl.trans hs.2⟩,
        (stages_judged (c := c.fed _ _) hcur ⟨hc, hreq, .inl ho⟩).2⟩
  | awaitIdle hcur _ hcan hne =>
      rw [StageOf, stmState_of_current hcur] at h
      obtain ⟨hc, hreq, ho⟩ := h
      have ho := ho.resolve_right fun hb => hne hb.1
      exact ⟨hs, stageOf_stay hcur
        ⟨⟨⟨hc, ho⟩, hreq⟩, (Buffer.canRead_eq_false_iff _).mp hcan⟩⟩
  | awaitEnd hcur _ hcan _ _ =>
      rw [StageOf, stmState_of_current hcur] at h
      have hr : (c.log (.shutdown .origin)).Ready :=
        ⟨(fun hc => by cases hcur.symm.trans hc), h.1,
          (Buffer.canRead_eq_false_iff _).mp hcan, h.2.1⟩
      exact ⟨(stages_nextDns hr).1 hs, (stages_nextDns hr).2⟩
  | relayRead hcur hnc hno =>
      rename_i key
      rw [StageOf, stmState_of_current hcur] at h
      obtain ⟨h1, h2, h3, h4, h5⟩ := analyzeRead_buffers key c
      refine ⟨by rw [Sized, h1, h2]; exact hs, stageOf_stay (h5.trans hcur) ?_⟩
      rcases h with h | ⟨hc, _⟩ | ⟨_, ho⟩
      · exact ⟨h3.trans h.1, h4.trans h.2⟩
      · exact absurd hc hnc
      · exact absurd ho hno
  | relayEnd hcur hend =>
      rename_i key
      rw [StageOf, stmState_of_current hcur] at h
      obtain ⟨h1, h2, h3, h4, h5⟩ := analyzeRead_buffers key c
      refine ⟨by rw [Sized, h1, h2]; exact hs,
        stageOf_leave (by rw [h5, hcur]; simp) ?_⟩
      rw [Due, h3, h4]
      rcases h with h | h
      · rw [h.1, h.2] at hend
        simp at hend
      · exact h
  | relayWrite hcur =>
      rw [StageOf, stmState_of_current hcur] at h
      exact ⟨hs, stageOf_stay hcur h⟩
  | closingRead hcur hne =>
      rw [StageOf, stmState_of_current hcur] at h
      obtain ⟨hshut, hside⟩ := h
      have he := ended_originFirst c
      have hhalf : c.HalfOpen := by
        rcases hside with ⟨hk, ho, hc⟩ | ⟨hk, hc, ho⟩
        · rw [if_pos hk] at hne
          exact .inr ⟨hc.resolve_right hne, ho⟩
        · rw [if_neg hk] at hne
          exact .inl ⟨hc, ho.resolve_right hne⟩
      refine ⟨by rw [Sized, he.clientBuffer, he.originBuffer]; exact hs,
        stageOf_stay (he.current.trans hcur)
          ⟨he.halfOpen hhalf, he.shut hshut, he.undrained⟩⟩
  | closingDone hcur _ _ _ =>
      exact ⟨hs, stageOf_leave (fun hc => by cases hcur.symm.trans hc) trivial⟩
  | closingEmpty hcur heq hfull =>
      rw [StageOf, stmState_of_current hcur] at h
      obtain ⟨hshut, hside⟩ := h
      refine ⟨hs, stageOf_leave (by rw [hcur]; simp) ⟨?_, hshut, ?_⟩⟩
      · rcases hside with ⟨hk, ho, _⟩ | ⟨hk, hc, _⟩
        · rw [if_pos hk] at heq
          exact ⟨by rw [heq]; rfl, ho⟩
        · rw [if_neg hk] at heq
          exact ⟨hc, by rw [heq]; rfl⟩
      · rw [Buffer.canRead_iff, Buffer.canRead_iff] at hfull
        exact hfull
  | closingWrite hcur =>
      rw [StageOf, stmState_of_current hcur] at h
      have he := ended_originFirst c
      exact ⟨by rw [Sized, he.clientBuffer, he.originBuffer]; exact hs,
        stageOf_stay (he.current.trans hcur)
          ⟨he.halfOpen h.1, he.shut h.2, he.undrained⟩⟩
  | emptyDone hcur _ _ =>
      have he := ended_clientFirst c
      refine ⟨by rw [Sized, he.clientBuffer, he.originBuffer]; exact hs,
        stageOf_leave ?_ trivial⟩
      rw [he.current, hcur]
      simp
  | emptyWrite hcur hnot =>
      rw [StageOf, stmState_of_current hcur] at h
      have he := ended_clientFirst c
      exact ⟨by rw [Sized, he.clientBuffer, he.originBuffer]; exact hs,
        stageOf_stay (he.current.trans hcur)
          ⟨he.bothEnding h.1, he.shut h.2, he.undrained, hnot⟩⟩
  | stay hcur =>
      rw [StageOf, if_pos hcur] at h
      rw [StageOf, stmState_of_current hcur]
      exact ⟨hs, h⟩
  | arrive env hcur hne ha =>
      rw [StageOf, if_neg hcur] at h
      obtain ⟨hsize, hstage⟩ := stages_arrival (due_entered h) hne ha
      rw [StageOf, stmState_of_current (arrival_current ha)]
      exact ⟨hsize hs, hstage⟩
  | free _ => exact ⟨hs, trivial⟩

/-- Every life keeps to the stages. -/
theorem Life.stages {ph : Phase} (h : Life d ph c) : c.Sized ∧ c.StageOf ph := by
  refine h.invariant (I := fun ph c => c.Sized ∧ c.StageOf ph) ?_ ?_
  · intro fd size now mem
    exact ⟨⟨rfl, rfl⟩, ⟨rfl, rfl, rfl, rfl⟩, rfl⟩
  · intro ph c m ph' c' m' _ hI hm
    exact stages_move hI.1 hI.2 hm

end

end HttpdProxy
