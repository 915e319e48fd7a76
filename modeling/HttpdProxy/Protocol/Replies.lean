import HttpdProxy.Lib.Judging
import HttpdProxy.Protocol.Flow
import HttpdProxy.Protocol.Histories

/-!
# What is made of a reply of the DoH server

The reply arrives in pieces, each of them parsed as it arrives and thrown away,
and what is known of it is in the state of three parsers. `replied` says what
that state is: the one the reply leads to when it is read in one piece, from
the last query on. The answers are then looked at in the order in which they
came, and the socket belongs to the one looked at last.
-/

namespace HttpdProxy

/-! ## Reading the trace -/

/-- The bytes received from the DoH server since the last query. -/
def dohReply : List Act → Bytes
  | [] => []
  | .query _ :: _ => []
  | .received .origin bs :: t => if towardsDoh t then dohReply t ++ bs else dohReply t
  | _ :: t => dohReply t

/-- The answers looked at since the last query, newest first. -/
def examinedHere : List Act → List Nat
  | [] => []
  | .query _ :: _ => []
  | .examined k _ _ _ :: t => k :: examinedHere t
  | _ :: t => examinedHere t

/-- What the parsers make of the reply to a query, with every allocation
made. -/
def reading (t : DohTry) (reply : Bytes) : DohConnection × Verdict :=
  Lib.consume (DohConnection.feed true) .more (dohConnectionInit t) reply

namespace Conn

/-- Nothing is known of a reply. -/
structure Unreplied (c : Conn) : Prop where
  reply : dohReply c.trace = []
  examined : examinedHere c.trace = []

/-- The reply so far has been read, but for what is in the buffer; what is
behind its end is not. -/
structure Parses (c : Conn) (doh : DohConnection) : Prop where
  parsed : ∃ eaten rest v, dohReply c.trace = eaten ++ rest ∧
    reading doh.currentType eaten = (doh, v) ∧
    (v = .more ∧ rest = c.originBuffer.unread ∨ v = .complete ∧ doh.finished = true)
  fresh : doh.currentTry = 0
  examined : examinedHere c.trace = []

/-- The reply has been read, and its answers are looked at in order. -/
structure Replied (c : Conn) (doh : DohConnection) : Prop where
  parsed : ∃ v, (v = .more ∨ v = .complete) ∧
    reading doh.currentType (dohReply c.trace) = ({ doh with currentTry := 0 }, v)
  counted : doh.dohParser.response.header.ancount.toNat ≤ 255 →
    doh.currentTry.toNat ≤ doh.dohParser.response.header.ancount.toNat ∧
      examinedHere c.trace = (List.range doh.currentTry.toNat).reverse

/-- The answers in use are those of the reply. -/
def Answers (c : Conn) : Prop :=
  ∀ doh, c.dohConnection = some doh → doh.isActive = true → c.Replied doh

/-- And the socket is that of the answer looked at last. -/
structure Resolved (c : Conn) : Prop where
  answers : c.Answers
  last : ∀ doh, c.dohConnection = some doh → doh.isActive = true →
    ∀ fd k addr, lastOpened c.trace = some (fd, .answer k, addr) →
      (examinedHere c.trace).head? = some k

/-- What is known of the reply in a state. -/
def ReplyIn (c : Conn) : ConnState → Prop
  | .parsingRequestLine | .done | .error => True
  | .sendDohRequest => c.Unreplied
  | .awaitDohResponse => c.error = some .internalServerError ∨
      ∃ doh, c.dohConnection = some doh ∧ c.Parses doh
  | .tryConnectionIp | .sendRequestLine | .connected | .closing | .emptyBuffers => c.Resolved

/-- And on the way to one. -/
def ReplyDue (c : Conn) : ConnState → Prop
  | .sendDohRequest => True
  | .awaitDohResponse => c.Unreplied
  | s => c.ReplyIn s

/-- And in a phase. -/
def ReplyAt (c : Conn) : Phase → Prop
  | .rest | .reading _ | .writing => c.ReplyIn c.stmState
  | .walking => c.Answers
  | .asking | .gone => True
  | .goto s => if c.current = some s then c.ReplyIn s else c.ReplyDue s

/-- What the reply depends on, its bytes in the buffer apart. -/
def replyView (c : Conn) :=
  (c.dohConnection, lastOpened c.trace, dohReply c.trace, examinedHere c.trace, c.error)

end Conn

open Conn

section

variable {d : DohUtils} {c c' : Conn} {ph ph' : Phase} {m m' : Metrics} {s next : ConnState}

/-! ## Bytes of a reply -/

theorem dohResponseParserFeed_alloc (alloc : Bool) (p : DohResponseParser) (b : UInt8) :
    dohResponseParserFeed alloc p b = dohResponseParserFeed true p b ∨
      (dohResponseParserFeed alloc p b).state = .responseMemAllocError := by
  cases alloc with
  | true => exact .inl rfl
  | false =>
      cases hs : p.state with
      | responseHeaderAncount =>
          unfold dohResponseParserFeed
          rw [hs]
          dsimp only
          unfold rHeaderAncount field16
          split
          · exact .inl rfl
          · dsimp only
            split
            · exact .inl rfl
            · exact .inr rfl
          · exact .inl rfl
      | _ =>
          left
          unfold dohResponseParserFeed
          rw [hs]

/-- Where the allocation is not what fails, it was made. -/
theorem feed_alloc {alloc : Bool} {doh : DohConnection} {b : UInt8}
    (h : (doh.feed alloc b).2 ≠ .failed .internalServerError) :
    doh.feed alloc b = doh.feed true b := by
  by_cases hs : doh.statusLineParser.state ≠ .statusLineDone
  · rw [DohConnection.feed_statusLine hs, DohConnection.feed_statusLine hs]
  · by_cases hh : doh.headersParser.state ≠ .headersDone
    · rw [DohConnection.feed_headers hs hh, DohConnection.feed_headers hs hh]
    · rw [DohConnection.feed_doh hs hh] at h ⊢
      rw [DohConnection.feed_doh hs hh]
      rcases dohResponseParserFeed_alloc alloc doh.dohParser b with he | he
      · rw [he]
      · rw [he] at h
        exact absurd rfl h

/-- Nothing is asked for behind the end of the response. -/
theorem feed_complete {alloc : Bool} {doh : DohConnection} {b : UInt8}
    (h : (doh.feed alloc b).2 = .complete) : (doh.feed alloc b).1.finished = true := by
  by_cases hs : doh.statusLineParser.state ≠ .statusLineDone
  · rw [DohConnection.feed_statusLine hs] at h
    dsimp only at h
    split at h <;> cases h
  · by_cases hh : doh.headersParser.state ≠ .headersDone
    · rw [DohConnection.feed_headers hs hh] at h
      dsimp only at h
      split at h <;> cases h
    · rw [DohConnection.feed_doh hs hh] at h ⊢
      dsimp only at h
      unfold DohResponseState.verdict at h
      split at h
      · cases h
      · cases h
      · cases h
      · next hdone => simp [DohConnection.finished, hdone, Decidable.not_not.mp hs,
          Decidable.not_not.mp hh]
      · cases h

/-! ## The pieces of a move -/

theorem Conn.Replied.congr {doh : DohConnection} (h : c.Replied doh)
    (hr : dohReply c'.trace = dohReply c.trace)
    (he : examinedHere c'.trace = examinedHere c.trace) : c'.Replied doh :=
  ⟨by rw [hr]; exact h.parsed, by rw [he]; exact h.counted⟩

theorem Conn.Answers.congr (h : c.Answers) (hv : c'.replyView = c.replyView) : c'.Answers := by
  simp only [replyView, Prod.mk.injEq] at hv
  obtain ⟨hd, _, hr, he, _⟩ := hv
  intro doh hdoh hact
  exact (h doh (hd ▸ hdoh) hact).congr hr he

theorem Conn.Resolved.congr (h : c.Resolved) (hv : c'.replyView = c.replyView) :
    c'.Resolved := by
  refine ⟨h.answers.congr hv, ?_⟩
  simp only [replyView, Prod.mk.injEq] at hv
  obtain ⟨hd, ho, _, he, _⟩ := hv
  rw [hd, ho, he]
  exact h.last

theorem Conn.ReplyIn.congr (h : c.ReplyIn s) (hv : c'.replyView = c.replyView)
    (hbuf : s = .awaitDohResponse → c'.originBuffer.unread = c.originBuffer.unread) :
    c'.ReplyIn s := by
  have hview := hv
  simp only [replyView, Prod.mk.injEq] at hview
  obtain ⟨hd, _, hr, he, herr⟩ := hview
  cases s with
  | parsingRequestLine | done | error => exact trivial
  | sendDohRequest => exact ⟨hr.trans h.1, he.trans h.2⟩
  | awaitDohResponse =>
      refine h.imp (herr.trans ·) ?_
      rintro ⟨doh, hdoh, hp⟩
      refine ⟨doh, hd.trans hdoh, ?_, hp.fresh, he.trans hp.examined⟩
      rw [hr, hbuf rfl]
      exact hp.parsed
  | tryConnectionIp | sendRequestLine | connected | closing | emptyBuffers =>
      exact Resolved.congr h hv

theorem replyAt_in (hph : ph = .rest ∨ (∃ key, ph = .reading key) ∨ ph = .writing)
    (hcur : c.current = some s) (h : c.ReplyIn s) : c.ReplyAt ph := by
  rcases hph with rfl | ⟨_, rfl⟩ | rfl <;>
  · rw [ReplyAt, stmState_of_current hcur]
    exact h

theorem replyAt_stay (hcur : c.current = some s) (h : c.ReplyIn s) : c.ReplyAt (.goto s) := by
  rw [ReplyAt, if_pos hcur]
  exact h

theorem replyAt_leave (hcur : c.current ≠ some s) (h : c.ReplyDue s) : c.ReplyAt (.goto s) := by
  rw [ReplyAt, if_neg hcur]
  exact h

theorem replyAt_error : c.ReplyAt (.goto .error) := by
  rw [ReplyAt]
  split <;> exact trivial

theorem replyAt_done : c.ReplyAt (.goto .done) := by
  rw [ReplyAt]
  split <;> exact trivial

theorem replyAt_try (h : c.Resolved) : c.ReplyAt (.goto .tryConnectionIp) := by
  rw [ReplyAt]
  split <;> exact h

/-- No answers are in use. -/
theorem resolved_of_inactive (h : ∀ doh, c.dohConnection = some doh → doh.isActive = false) :
    c.Resolved := by
  have hnone : ∀ doh, c.dohConnection = some doh → doh.isActive = true → False := by
    intro doh hd hact
    rw [h doh hd] at hact
    cases hact
  exact ⟨fun doh hd hact => (hnone doh hd hact).elim,
    fun doh hd hact => (hnone doh hd hact).elim⟩

theorem replyAt_nextDns {doh : DohConnection} (h : c.Answers) :
    (c.nextDns doh).2.ReplyAt (c.nextDns doh).1 := by
  unfold Conn.nextDns
  dsimp only
  split
  · split
    · exact trivial
    · exact h
  · split
    · exact replyAt_error
    · exact h

theorem replyAt_exhausted {doh : DohConnection} :
    (c.exhausted doh).2.ReplyAt (c.exhausted doh).1 := by
  unfold Conn.exhausted
  split
  · exact trivial
  · exact replyAt_error

/-- What was made of a reply, once it has ended. -/
theorem Conn.Parses.replied {doh : DohConnection} (h : c.Parses doh)
    (hempty : c.originBuffer.unread = []) : c.Replied doh := by
  obtain ⟨eaten, rest, v, hr, hread, hv⟩ := h.parsed
  have hsame : ({ doh with currentTry := 0 } : DohConnection) = doh := by
    rw [← h.fresh]
  refine ⟨?_, fun _ => ?_⟩
  · rw [hsame, hr]
    rcases hv with ⟨rfl, rfl⟩ | ⟨rfl, _⟩
    · rw [hempty, List.append_nil]
      exact ⟨.more, .inl rfl, hread⟩
    · exact ⟨.complete, .inr rfl, Lib.consume_stopped hread (by simp) rest⟩
  · rw [h.fresh, h.examined]
    exact ⟨Nat.zero_le _, rfl⟩

/-- One answer more is looked at. -/
theorem Conn.Answers.examine {doh : DohConnection} {a : Answer} (h : c.Answers)
    (hd : c.dohConnection = some doh)
    (hlt : doh.currentTry.toNat < doh.dohParser.response.header.ancount.toNat) :
    (c.examine doh a).Answers := by
  intro doh' hdoh' hact
  cases hdoh'
  obtain ⟨hparsed, hcounted⟩ := h doh hd hact
  refine ⟨hparsed, fun hle => ?_⟩
  replace hle : doh.dohParser.response.header.ancount.toNat ≤ 255 := hle
  obtain ⟨_, hexamined⟩ := hcounted hle
  have hnext : (doh.currentTry + 1).toNat = doh.currentTry.toNat + 1 := by
    rw [UInt8.toNat_add]
    exact Nat.mod_eq_of_lt (by
      change doh.currentTry.toNat + 1 < 256
      omega)
  change (doh.currentTry + 1).toNat ≤ _ ∧ doh.currentTry.toNat :: examinedHere c.trace = _
  refine ⟨by rw [hnext]; exact hlt, ?_⟩
  rw [hexamined]
  change _ = (List.range (doh.currentTry + 1).toNat).reverse
  rw [hnext, List.range_succ, List.reverse_append]
  rfl

/-- A socket to the answer just looked at. -/
theorem Registration.replyAt {doh : DohConnection} {a : Answer} {addr : Sockaddr}
    (h : c.Answers) (hd : c.dohConnection = some doh)
    (hlt : doh.currentTry.toNat < doh.dohParser.response.header.ancount.toNat)
    (hr : Registration (.answer doh.currentTry.toNat) addr (c.examine doh a) next c') :
    c'.ReplyAt (.goto next) := by
  have hanswers := h.examine (a := a) hd hlt
  cases hr with
  | rejected fd _ => exact replyAt_error
  | accepted fd _ =>
      refine replyAt_try ⟨fun doh' hd' hact => (hanswers doh' hd' hact).congr rfl rfl, ?_⟩
      intro doh' _ _ fd' k addr' hlast
      cases hlast
      rfl

/-- A socket to the DoH server, with no answers in use. -/
theorem Attempt.replyAt {peer : Peer} {addr : Sockaddr}
    (h : ∀ doh, c.dohConnection = some doh → doh.isActive = false)
    (ha : Attempt peer addr c next c') : c'.ReplyAt (.goto next) := by
  cases ha with
  | refused => exact replyAt_error
  | opened hr =>
      cases hr with
      | rejected fd _ => exact replyAt_error
      | accepted fd _ => exact replyAt_try (resolved_of_inactive h)

/-- A byte of the reply goes from the buffer to the parsers. -/
theorem replyAt_judged {key : SelectorKey} {alloc : Bool} {doh : DohConnection} {b : UInt8}
    {buffer : Buffer} (hcur : c.current = some .awaitDohResponse) (h : c.Parses doh)
    (hopen : doh.finished = false) (hunread : c.originBuffer.unread = b :: buffer.unread) :
    ((c.fed (doh.feed alloc b).1 buffer).judged key (doh.feed alloc b).1
      (doh.feed alloc b).2).2.ReplyAt
    ((c.fed (doh.feed alloc b).1 buffer).judged key (doh.feed alloc b).1
      (doh.feed alloc b).2).1 := by
  obtain ⟨eaten, rest, v, hr, hread, hv⟩ := h.parsed
  obtain ⟨rfl, hrest⟩ := hv.resolve_right fun ⟨_, hfin⟩ => by
    rw [hfin] at hopen
    cases hopen
  have htype : (doh.feed alloc b).1.currentType = doh.currentType :=
    (DohConnection.feed_keeps alloc doh b).2.1
  have hfresh : (doh.feed alloc b).1.currentTry = 0 :=
    (DohConnection.feed_keeps alloc doh b).2.2.trans h.fresh
  -- what the byte adds to what has been read
  have hadd : (doh.feed alloc b).2 ≠ .failed .internalServerError →
      reading (doh.feed alloc b).1.currentType (eaten ++ [b]) = doh.feed alloc b := by
    intro hne
    rw [htype, feed_alloc hne]
    exact Lib.consume_snoc hread b
  have hsplit : dohReply c.trace = (eaten ++ [b]) ++ buffer.unread := by
    rw [hr, hrest, hunread, List.append_assoc]
    rfl
  have hparses : ∀ (v : Verdict) (unread : Bytes), (doh.feed alloc b).2 = v →
      (v = .more ∧ buffer.unread = unread ∨ v = .complete) →
      ∃ eaten rest v, dohReply c.trace = eaten ++ rest ∧
        reading (doh.feed alloc b).1.currentType eaten = ((doh.feed alloc b).1, v) ∧
        (v = .more ∧ rest = unread ∨ v = .complete ∧ (doh.feed alloc b).1.finished = true) := by
    intro v unread hverdict hv
    refine ⟨eaten ++ [b], buffer.unread, v, hsplit, ?_, ?_⟩
    · rw [hadd (by rw [hverdict]; rintro rfl; simp at hv), ← hverdict]
    · exact hv.imp id fun hc => ⟨hc, feed_complete (hverdict.trans hc)⟩
  unfold Conn.judged
  split
  · next hmore =>
      refine replyAt_in (.inr (.inl ⟨key, rfl⟩)) hcur (.inr ⟨_, rfl, ?_, hfresh, h.examined⟩)
      exact hparses .more _ hmore (.inl ⟨rfl, rfl⟩)
  · next hcomplete =>
      refine replyAt_in (s := .awaitDohResponse) (.inr (.inl ⟨key, rfl⟩)) hcur
        (.inr ⟨_, rfl, ?_, hfresh, h.examined⟩)
      exact hparses .complete _ hcomplete (.inr rfl)
  · exact replyAt_error
  · split
    · exact replyAt_error
    · exact trivial

/-- Bytes of the reply arrive. -/
theorem replyIn_readOrigin {key : SelectorKey} {bs : Bytes} {buffer : Buffer} {now : Nat}
    (hp : c.PeerIn d c.stmState) (h : c.ReplyIn c.stmState)
    (hint : c.interests.2.read = true) (hb : bufferAppend c.originBuffer bs = .ok buffer) :
    ((c.touched now).fromOrigin bs buffer).ReplyAt (.reading key) := by
  have hunread := (Buffer.append_spec hb).1
  change Conn.ReplyIn _ c.stmState
  unfold Conn.interests at hint
  generalize c.stmState = s at hp h hint
  cases s with
  | awaitDohResponse =>
      have hreply : dohReply ((c.touched now).fromOrigin bs buffer).trace
          = dohReply c.trace ++ bs := if_pos (towardsDoh_of_doh hp.2.1)
      refine h.imp id ?_
      rintro ⟨doh, hd, hparses⟩
      obtain ⟨eaten, rest, v, hr, hread, hv⟩ := hparses.parsed
      refine ⟨doh, hd, ⟨eaten, rest ++ bs, v, ?_, hread, hv.imp ?_ id⟩, hparses.fresh,
        hparses.examined⟩
      · rw [hreply, hr, List.append_assoc]
      · rintro ⟨hmore, rfl⟩
        exact ⟨hmore, hunread.symm⟩
  | connected | closing =>
      have hreply : dohReply ((c.touched now).fromOrigin bs buffer).trace = dohReply c.trace :=
        if_neg (Bool.eq_false_iff.mp (towardsDoh_of_target hp))
      refine Resolved.congr (c := c) h ?_
      rw [replyView, replyView, hreply]
      rfl
  | parsingRequestLine | tryConnectionIp | sendDohRequest | sendRequestLine | emptyBuffers
  | done | error => cases hint

theorem unawaited_of_write (hint : c.interests.1.write = true) :
    c.stmState ≠ .awaitDohResponse := by
  intro hs
  rw [Conn.interests, hs] at hint
  cases hint

theorem finishRequest_replyView (key : SelectorKey) (c : Conn) :
    (finishRequest key c).replyView = c.replyView := by
  unfold finishRequest
  dsimp only
  split
  · rfl
  · split <;> rfl

theorem closeOrigin_replyView (c : Conn) : c.closeOrigin.replyView = c.replyView := by
  unfold closeOrigin
  split <;> rfl

theorem closeClient_replyView (c : Conn) : c.closeClient.replyView = c.replyView := by
  unfold closeClient
  split <;> rfl

theorem analyzeRead_replyView (key : SelectorKey) (c : Conn) :
    (analyzeRead key c).replyView = c.replyView := by
  refine analyzeRead_keeps Conn.replyView ?_ fun _ => rfl
  unfold parseResponse
  dsimp only
  split <;> rfl

/-- Arriving at a state. -/
theorem replyIn_arrival {env : Env} (hst : c.Due s) (h : c.ReplyDue s)
    (ha : c.arrival d env s = .ok c') : c'.ReplyIn s := by
  cases s with
  | parsingRequestLine | done | error => exact trivial
  | tryConnectionIp =>
      cases ha
      exact h
  | sendDohRequest =>
      obtain ⟨buffer, _, ha⟩ := Lib.bind_eq_ok.mp ha
      cases ha
      exact ⟨rfl, rfl⟩
  | awaitDohResponse =>
      cases ha
      have hstart : ∀ t, ∃ eaten rest v, dohReply c.trace = eaten ++ rest ∧
          reading (dohConnectionInit t).currentType eaten = (dohConnectionInit t, v) ∧
          (v = .more ∧ rest = c.originBuffer.unread ∨
            v = .complete ∧ (dohConnectionInit t).finished = true) := by
        intro t
        refine ⟨[], [], .more, h.reply, rfl, .inl ⟨rfl, ?_⟩⟩
        exact hst.2.symm
      unfold initDohState
      split
      · exact .inr ⟨_, rfl, hstart _, rfl, h.examined⟩
      · split
        · exact .inr ⟨_, rfl, hstart _, rfl, h.examined⟩
        · exact .inl rfl
  | sendRequestLine =>
      obtain ⟨buffer, _, ha⟩ := Lib.bind_eq_ok.mp ha
      cases ha
      exact Resolved.congr (c := c) h rfl
  | connected =>
      cases ha
      split
      · exact Resolved.congr (c := c) h rfl
      · exact h
  | closing =>
      cases ha
      exact Resolved.congr (c := c) h
        ((closeClient_replyView _).trans (closeOrigin_replyView c))
  | emptyBuffers =>
      cases ha
      exact Resolved.congr (c := c) h
        ((closeOrigin_replyView _).trans (closeClient_replyView c))

theorem replyDue_entered (h : c.ReplyDue s) : (c.entered s).ReplyDue s := by
  cases s with
  | parsingRequestLine | done | error | sendDohRequest => exact trivial
  | awaitDohResponse => exact ⟨h.1, h.2⟩
  | tryConnectionIp | sendRequestLine | connected | closing | emptyBuffers =>
      exact Resolved.congr (c := c) h rfl

theorem replyAt_move (hst : c.StageOf ph) (hp : c.PeerAt d ph) (h : c.ReplyAt ph)
    (hm : Move d ⟨ph, c, m⟩ ⟨ph', c', m'⟩) : c'.ReplyAt ph' := by
  cases hm with
  | readClient | endOfClient | endOfOrigin | readyOrigin | writeOrigin =>
      exact Conn.ReplyIn.congr (c := c) h rfl fun _ => rfl
  | writeClient now hint _ _ =>
      exact Conn.ReplyIn.congr (c := c) h rfl fun hs =>
        absurd hs (unawaited_of_write (c := c) hint)
  | writeRequest now hs _ _ =>
      refine Conn.ReplyIn.congr (c := c) h rfl fun hawait => ?_
      replace hawait : c.stmState = .awaitDohResponse := hawait
      rw [hawait] at hs
      rcases hs with hs | hs <;> cases hs
  | readOrigin now hint _ _ _ hb => exact replyIn_readOrigin hp h hint hb
  | close | closeEarly | collect | free => exact trivial
  | start enabled hcur => exact trivial
  | parseByte hcur _ _ _ _ =>
      exact replyAt_in (s := .parsingRequestLine) (.inr (.inl ⟨_, rfl⟩)) hcur trivial
  | parseError hcur _ _ _ => exact replyAt_error
  | parseDone hcur _ _ _ ha =>
      rw [PeerAt, stmState_of_current hcur] at hp
      have hnext := ha.replyAt (fun doh hd => by cases hp.1.symm.trans hd)
      split
      · next hne =>
          rcases ha.cases_next with rfl | ⟨rfl, fd, rfl⟩
          · exact absurd rfl hne
          · refine replyAt_try (Resolved.congr (resolved_of_inactive ?_)
              (finishRequest_replyView _ _))
            intro doh hd
            cases hp.1.symm.trans hd
      · exact hnext
  | parseIdle hcur _ => exact replyAt_stay hcur trivial
  | tryQuery hcur _ => exact replyAt_leave (by rw [hcur]; simp) trivial
  | tryConnect hcur _ _ _ =>
      rw [ReplyAt, stmState_of_current hcur] at h
      exact replyAt_leave (fun hc => by cases hcur.symm.trans hc)
        (Resolved.congr (c := c) h rfl)
  | tryRequest hcur _ _ =>
      rw [ReplyAt, stmState_of_current hcur] at h
      exact replyAt_leave (fun hc => by cases hcur.symm.trans hc)
        (Resolved.congr (c := c) h rfl)
  | tryFail hcur _ => exact replyAt_error
  | tryNext hcur _ _ =>
      rw [ReplyAt, stmState_of_current hcur] at h
      exact replyAt_nextDns h.answers
  | walkSkip hd hlt _ _ => exact Conn.Answers.examine h hd hlt
  | walkRefused hd hlt _ _ =>
      rename_i a _ _
      exact Conn.Answers.congr (Conn.Answers.examine (a := a) h hd hlt) rfl
  | walkOpen hd hlt _ _ hr => exact hr.replyAt h hd hlt
  | walkEnd _ _ => exact replyAt_exhausted
  | ask ha =>
      obtain ⟨_, _, doh, hg⟩ := hp
      refine ha.replyAt fun doh' hd => ?_
      cases hg.1.symm.trans hd
      exact hg.2.1
  | drained hcur hs _ =>
      rw [ReplyAt, stmState_of_current hcur] at h
      rw [afterDrain, stmState_of_current hcur]
      rcases hs with rfl | rfl | rfl
      · exact replyAt_leave (by rw [hcur]; simp) h
      · exact replyAt_leave (by rw [hcur]; simp) h
      · exact replyAt_done
  | draining hcur _ _ =>
      rw [ReplyAt, stmState_of_current hcur] at h
      exact replyAt_stay hcur h
  | awaitFailed hcur _ => exact replyAt_error
  | awaitByte alloc hcur herr hd hopen hcan hb =>
      rw [ReplyAt, stmState_of_current hcur] at h
      obtain ⟨doh, hd', hparses⟩ := h.resolve_left herr
      cases hd.symm.trans hd'
      exact replyAt_judged hcur hparses hopen (Buffer.read_ok hcan hb).1
  | awaitIdle hcur _ _ _ =>
      rw [ReplyAt, stmState_of_current hcur] at h
      exact replyAt_stay hcur h
  | awaitEnd hcur herr hcan _ hd =>
      rw [ReplyAt, stmState_of_current hcur] at h
      obtain ⟨doh, hd', hparses⟩ := h.resolve_left herr
      cases hd.symm.trans hd'
      refine replyAt_nextDns (c := c.log _) fun doh' hdoh' _ => ?_
      cases hd.symm.trans hdoh'
      exact (hparses.replied ((Buffer.canRead_eq_false_iff _).mp hcan)).congr rfl rfl
  | relayRead hcur _ _ =>
      rw [ReplyAt, stmState_of_current hcur] at h
      exact replyAt_stay ((analyzeRead_buffers _ c).2.2.2.2.trans hcur)
        (Resolved.congr (c := c) h (analyzeRead_replyView _ c))
  | relayEnd hcur _ =>
      rw [ReplyAt, stmState_of_current hcur] at h
      refine replyAt_leave ?_ (Resolved.congr (c := c) h (analyzeRead_replyView _ c))
      rw [(analyzeRead_buffers _ c).2.2.2.2, hcur]
      simp
  | relayWrite hcur =>
      rw [ReplyAt, stmState_of_current hcur] at h
      exact replyAt_stay hcur h
  | closingRead hcur _ | closingWrite hcur =>
      rw [ReplyAt, stmState_of_current hcur] at h
      exact replyAt_stay (by simpa using hcur) (Resolved.congr (c := c) h
        ((closeClient_replyView _).trans (closeOrigin_replyView c)))
  | closingDone hcur _ _ _ => exact replyAt_done
  | closingEmpty hcur _ _ =>
      rw [ReplyAt, stmState_of_current hcur] at h
      exact replyAt_leave (by rw [hcur]; simp) h
  | emptyDone hcur _ _ => exact replyAt_done
  | emptyWrite hcur _ =>
      rw [ReplyAt, stmState_of_current hcur] at h
      exact replyAt_stay (by simpa using hcur) (Resolved.congr (c := c) h
        ((closeOrigin_replyView _).trans (closeClient_replyView c)))
  | stay hcur =>
      rw [ReplyAt, if_pos hcur] at h
      exact replyAt_in (.inl rfl) hcur h
  | arrive env hcur hne ha =>
      rw [ReplyAt, if_neg hcur] at h
      rw [StageOf, if_neg hcur] at hst
      exact replyAt_in (.inl rfl) (arrival_current ha)
        (replyIn_arrival (due_entered hst) (replyDue_entered h) ha)

/-- Every life makes of a reply what it says. -/
theorem Life.replied (h : Life d ph c) : c.ReplyAt ph := by
  refine h.invariant (I := fun ph c => c.ReplyAt ph) ?_ ?_
  · intro fd size now mem
    exact trivial
  · intro ph c m ph' c' m' hl hI hm
    exact replyAt_move hl.stages.2 hl.peers hI hm

end

end HttpdProxy
