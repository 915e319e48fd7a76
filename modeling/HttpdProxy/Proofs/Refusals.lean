import HttpdProxy.Proofs.Itineraries
import HttpdProxy.Protocol.Flow

/-!
# What an error reply is the fault of

Eleven statuses can be written and five are. Which one a client is told says
how far its request came: 400, 501 and 505 that the request line was refused
and no socket asked for; 502 that the DoH server was asked and its reply is
one that a parser refuses; 500 that a socket was asked for, and the rest
failed. Nothing was exchanged with the host in any case (`errors_explained`).
-/

namespace HttpdProxy

/-- One of the three parsers refuses the reply. -/
def DohConnection.Refused (doh : DohConnection) : Prop :=
  doh.statusLineParser.state = .statusLineError ∨ doh.headersParser.state = .headersError ∨
    doh.dohParser.state = .dohResponseError

/-- What an error is the fault of: the request, the DoH server, or anything
else on the way to the host. -/
inductive Conn.Blames (c : Conn) : Errors → Prop where
  | request {e : Errors} :
      checkRequestLineError c.requestParser.state = some e → attempts c.trace = 0 → c.Blames e
  | server {doh : DohConnection} :
      c.connectionRequest.hostType = .domain → queries c.trace ≠ [] → 0 < attempts c.trace →
      c.dohConnection = some doh → doh.Refused → c.Blames .badGateway
  | proxy : 0 < attempts c.trace → c.Blames .internalServerError

namespace Conn

def Explained (c : Conn) : Prop := ∃ e, c.error = some e ∧ c.Blames e

/-- An error reply that was given up or sent. -/
structure Dismissed (c : Conn) : Prop where
  explained : c.Explained
  received : targetIn c.trace = []
  sent : targetOut c.trace = []

/-- What is known of the error in a state, or on the way there. -/
def ErrorIn (c : Conn) : ConnState → Prop
  | .parsingRequestLine => attempts c.trace = 0
  | .error => c.Explained
  | .done => .error ∈ statesEntered c.trace → c.Dismissed
  | _ => 0 < attempts c.trace

def ErrorAt (c : Conn) : Phase → Prop
  | .rest | .reading _ | .writing => c.ErrorIn c.stmState
  | .walking | .asking => 0 < attempts c.trace
  | .goto s => c.ErrorIn s
  | .gone => .error ∈ statesEntered c.trace → c.Dismissed

/-- What the error depends on. -/
def errorView (c : Conn) :=
  (c.error, c.requestParser, c.connectionRequest.hostType, c.dohConnection,
    attempts c.trace, queries c.trace)

end Conn

open Conn

section

variable {d : DohUtils} {c c' : Conn} {ph ph' : Phase} {m m' : Metrics} {s next : ConnState}

theorem Conn.Explained.congr (h : c.Explained) (hv : c'.errorView = c.errorView) :
    c'.Explained := by
  simp only [errorView, Prod.mk.injEq] at hv
  obtain ⟨herr, hparser, hhost, hdoh, hatt, hq⟩ := hv
  obtain ⟨e, he, hb⟩ := h
  refine ⟨e, herr.trans he, ?_⟩
  cases hb with
  | request hcheck hnone => exact .request (by rw [hparser]; exact hcheck) (hatt.trans hnone)
  | server hdom hasked htried hd href =>
      exact .server (hhost.trans hdom) (by rw [hq]; exact hasked) (hatt.symm ▸ htried)
        (hdoh.trans hd) href
  | proxy htried => exact .proxy (hatt.symm ▸ htried)

/-- Where the error itself is not in question, the sockets decide. -/
theorem Conn.ErrorIn.tried (h : c.ErrorIn s) (h1 : s ≠ .parsingRequestLine) (h2 : s ≠ .error)
    (h3 : s ≠ .done) : 0 < attempts c.trace := by
  cases s <;> first | exact h | contradiction

theorem errorIn_of_tried (h : 0 < attempts c.trace) (h1 : s ≠ .parsingRequestLine)
    (h2 : s ≠ .error) (h3 : s ≠ .done) : c.ErrorIn s := by
  cases s <;> first | exact h | contradiction

theorem errorAt_in (hph : ph = .rest ∨ (∃ key, ph = .reading key) ∨ ph = .writing)
    (hcur : c.current = some s) (h : c.ErrorIn s) : c.ErrorAt ph := by
  rcases hph with rfl | ⟨_, rfl⟩ | rfl <;>
  · rw [ErrorAt, stmState_of_current hcur]
    exact h

/-- A move within a state that is not `done`. -/
theorem Conn.ErrorIn.congr (h : c.ErrorIn s) (hv : c'.errorView = c.errorView)
    (hs : s ≠ .done) : c'.ErrorIn s := by
  have hatt : attempts c'.trace = attempts c.trace := congrArg (·.2.2.2.2.1) hv
  by_cases hp : s = .parsingRequestLine
  · subst hp
    exact hatt.trans h
  · by_cases he : s = .error
    · subst he
      exact Explained.congr h hv
    · exact errorIn_of_tried (hatt.symm ▸ h.tried hp he hs) hp he hs

/-- A move to another such state that asks for no socket. -/
theorem errorAt_same (hatt : attempts c'.trace = attempts c.trace) (h : 0 < attempts c.trace)
    (h1 : s ≠ .parsingRequestLine) (h2 : s ≠ .error) (h3 : s ≠ .done) :
    c'.ErrorAt (.goto s) := errorIn_of_tried (hatt.symm ▸ h) h1 h2 h3

theorem DohTry.asked_ne_nil (t : DohTry) : t.asked ≠ [] := by
  cases t <;> simp [DohTry.asked]

theorem explained_failed (h : 0 < attempts c.trace) :
    (c.failed .internalServerError).Explained := ⟨_, rfl, .proxy h⟩

/-! ## The pieces of a move -/

theorem Registration.explains {peer : Peer} {addr : Sockaddr}
    (hr : Registration peer addr c next c') : c'.ErrorIn next := by
  cases hr with
  | rejected fd _ => exact explained_failed (Nat.succ_pos _)
  | accepted fd _ => exact Nat.succ_pos _

theorem Attempt.explains {peer : Peer} {addr : Sockaddr}
    (ha : Attempt peer addr c next c') : c'.ErrorIn next := by
  cases ha with
  | refused => exact explained_failed (Nat.succ_pos _)
  | opened hr => exact hr.explains

theorem errorAt_nextDns {doh : DohConnection} (h : 0 < attempts c.trace) :
    (c.nextDns doh).2.ErrorAt (c.nextDns doh).1 := by
  unfold Conn.nextDns
  dsimp only
  split
  · split
    · exact h
    · exact h
  · split
    · exact explained_failed h
    · exact h

theorem errorAt_exhausted {doh : DohConnection} (h : 0 < attempts c.trace) :
    (c.exhausted doh).2.ErrorAt (c.exhausted doh).1 := by
  unfold Conn.exhausted
  split
  · exact h
  · exact explained_failed h

/-- A byte the parsers refuse, or cannot store. -/
theorem feed_failed {alloc : Bool} {doh : DohConnection} {b : UInt8} {e : Errors}
    (h : (doh.feed alloc b).2 = .failed e) :
    e = .badGateway ∧ (doh.feed alloc b).1.Refused ∨ e = .internalServerError := by
  by_cases hs : doh.statusLineParser.state ≠ .statusLineDone
  · rw [DohConnection.feed_statusLine hs] at h ⊢
    dsimp only at h
    split at h
    · next herr =>
        cases h
        exact .inl ⟨rfl, .inl herr⟩
    · cases h
  · by_cases hh : doh.headersParser.state ≠ .headersDone
    · rw [DohConnection.feed_headers hs hh] at h ⊢
      dsimp only at h
      split at h
      · next herr =>
          cases h
          exact .inl ⟨rfl, .inr (.inl herr)⟩
      · cases h
    · rw [DohConnection.feed_doh hs hh] at h ⊢
      dsimp only at h
      unfold DohResponseState.verdict at h
      split at h
      · next herr =>
          cases h
          exact .inl ⟨rfl, .inr (.inr herr)⟩
      · cases h
        exact .inr rfl
      all_goals cases h

theorem errorAt_judged {key : SelectorKey} {doh : DohConnection} {v : Verdict}
    (hcur : c.current = some .awaitDohResponse) (h : 0 < attempts c.trace)
    (hfailed : ∀ e, v = .failed e → (c.failed e).Explained) :
    (c.judged key doh v).2.ErrorAt (c.judged key doh v).1 := by
  unfold Conn.judged
  split
  · exact errorAt_in (.inr (.inl ⟨key, rfl⟩)) hcur h
  · exact errorAt_in (s := .awaitDohResponse) (.inr (.inl ⟨key, rfl⟩)) hcur h
  · exact hfailed _ rfl
  · split
    · exact explained_failed h
    · exact h

theorem arrival_errorView {env : Env} (h : c.arrival d env s = .ok c') :
    attempts c'.trace = attempts c.trace ∧
      (s = .error → c'.errorView = c.errorView) := by
  refine ⟨arrival_attempts h, ?_⟩
  rintro rfl
  obtain ⟨buffer, _, h⟩ := Lib.bind_eq_ok.mp h
  cases h
  rfl

/-! ## Where no error was replied -/

/-- In every other state of a connection that rests, ERROR was not entered. -/
theorem noError_of_flow (h : c.FlowIn d s) (hs : s ≠ .error) :
    .error ∉ statesEntered c.trace := by
  cases s with
  | parsingRequestLine | tryConnectionIp | sendDohRequest | awaitDohResponse => exact h.1.noError
  | sendRequestLine | connected | closing | emptyBuffers => exact h.noError
  | done => exact h.elim
  | error => exact absurd rfl hs

/-- A connection at rest in ERROR has exchanged nothing with the host. -/
theorem dismissed_of_rest (hf : c.FlowIn d s) (h : c.ErrorIn s) :
    .error ∈ statesEntered c.trace → c.Dismissed := by
  intro hin
  by_cases hs : s = .error
  · subst hs
    exact ⟨h, hf.untargeted.received, hf.untargeted.sent⟩
  · exact absurd hin (noError_of_flow hf hs)

/-- Nor does what happens to it at the end change that. -/
theorem Conn.Dismissed.congr (h : c.Dismissed) (hv : c'.errorView = c.errorView)
    (hr : targetIn c'.trace = targetIn c.trace) (hs : targetOut c'.trace = targetOut c.trace) :
    c'.Dismissed :=
  ⟨h.explained.congr hv, hr.trans h.received, hs.trans h.sent⟩

/-- What is over in DONE was over before it. -/
theorem errorIn_done (h : .error ∉ statesEntered c.trace) : c.ErrorIn .done :=
  fun hin => absurd hin h

theorem errorAt_move (hst : c.StageOf ph) (hp : c.PeerAt d ph) (hf : c.FlowAt d ph)
    (h : c.ErrorAt ph) (hm : Move d ⟨ph, c, m⟩ ⟨ph', c', m'⟩) : c'.ErrorAt ph' := by
  -- at rest in a state, and in its handlers
  have hrest : ph = .rest → c.stmState ≠ .done := by
    rintro rfl hdone
    rw [StageOf, hdone] at hst
    exact hst
  have hin : ∀ {s}, c.current = some s →
      ph = .rest ∨ (∃ key, ph = .reading key) ∨ ph = .writing → c.ErrorIn s := by
    intro s hcur hph
    rw [← stmState_of_current hcur]
    rcases hph with rfl | ⟨_, rfl⟩ | rfl <;> exact h
  have htried : ∀ {s}, c.current = some s →
      ph = .rest ∨ (∃ key, ph = .reading key) ∨ ph = .writing →
      s ≠ .parsingRequestLine → s ≠ .error → s ≠ .done → 0 < attempts c.trace :=
    fun hcur hph h1 h2 h3 => (hin hcur hph).tried h1 h2 h3
  cases hm with
  | readClient | endOfClient | writeClient | readOrigin | endOfOrigin | readyOrigin
  | writeRequest | writeOrigin => exact Conn.ErrorIn.congr (c := c) h rfl (hrest rfl)
  | close now => exact fun hin => (dismissed_of_rest hf h hin).congr rfl rfl rfl
  | closeEarly now _ => exact fun hin => (dismissed_of_rest hf h hin).congr rfl rfl rfl
  | collect => exact fun hin => dismissed_of_rest hf h hin
  | start enabled hcur =>
      have hnone : attempts c.trace = 0 := by
        rw [ErrorAt, show c.stmState = .parsingRequestLine by rw [stmState, hcur]; rfl] at h
        exact h
      exact hnone
  | parseByte hcur _ _ _ _ =>
      exact errorAt_in (s := .parsingRequestLine) (.inr (.inl ⟨_, rfl⟩)) hcur
        (hin hcur (.inr (.inl ⟨_, rfl⟩)))
  | parseError hcur _ _ hcheck =>
      exact ⟨_, rfl, .request hcheck (hin hcur (.inr (.inl ⟨_, rfl⟩)))⟩
  | parseDone hcur _ _ _ ha =>
      have hnext := ha.explains
      split
      · next hne =>
          rcases ha.cases_next with rfl | ⟨rfl, _⟩
          · exact absurd rfl hne
          · exact errorAt_same (finishRequest_attempts _ _) hnext (by simp) (by simp) (by simp)
      · exact hnext
  | parseIdle hcur _ => exact hin hcur (.inr (.inl ⟨_, rfl⟩))
  | tryQuery hcur _ | tryConnect hcur _ _ _ | tryRequest hcur _ _ =>
      exact htried hcur (.inr (.inr rfl)) (by simp) (by simp) (by simp)
  | tryFail hcur _ =>
      exact explained_failed (htried hcur (.inr (.inr rfl)) (by simp) (by simp) (by simp))
  | tryNext hcur _ _ =>
      exact errorAt_nextDns (htried hcur (.inr (.inr rfl)) (by simp) (by simp) (by simp))
  | walkSkip _ _ _ _ => exact h
  | walkRefused _ _ _ _ => exact Nat.succ_pos _
  | walkOpen _ _ _ _ hr => exact hr.explains
  | walkEnd _ _ => exact errorAt_exhausted h
  | ask ha => exact ha.explains
  | drained hcur hs _ =>
      have hnow := hin hcur (.inr (.inr rfl))
      rw [FlowAt, stmState_of_current hcur] at hf
      rw [afterDrain, stmState_of_current hcur]
      rcases hs with rfl | rfl | rfl
      · exact hnow
      · exact hnow
      · exact fun _ => ⟨hnow, hf.untargeted.received, hf.untargeted.sent⟩
  | draining hcur _ _ => exact hin hcur (.inr (.inr rfl))
  | awaitFailed hcur herr =>
      exact ⟨_, herr,
        .proxy (htried hcur (.inr (.inl ⟨_, rfl⟩)) (by simp) (by simp) (by simp))⟩
  | awaitByte alloc hcur herr hd _ _ _ =>
      have ht := htried hcur (.inr (.inl ⟨_, rfl⟩)) (by simp) (by simp) (by simp)
      rw [PeerAt, stmState_of_current hcur] at hp
      obtain ⟨_, _, hres⟩ := hp
      obtain ⟨doh, hdom, hd', _, hq⟩ := hres.resolve_left herr
      cases hd.symm.trans hd'
      refine errorAt_judged (c := c.fed _ _) hcur ht fun e hv => ⟨e, rfl, ?_⟩
      rcases feed_failed hv with ⟨rfl, href⟩ | rfl
      · refine .server hdom ?_ ht rfl href
        change queries c.trace ≠ []
        rw [hq]
        exact DohTry.asked_ne_nil _
      · exact .proxy ht
  | awaitIdle hcur _ _ _ => exact hin hcur (.inr (.inl ⟨_, rfl⟩))
  | awaitEnd hcur _ _ _ _ =>
      exact errorAt_nextDns (c := c.log _)
        (htried hcur (.inr (.inl ⟨_, rfl⟩)) (by simp) (by simp) (by simp))
  | relayRead hcur _ _ | relayEnd hcur _ =>
      exact errorAt_same (analyzeRead_attempts _ _)
        (htried hcur (.inr (.inl ⟨_, rfl⟩)) (by simp) (by simp) (by simp))
        (by simp) (by simp) (by simp)
  | relayWrite hcur => exact hin hcur (.inr (.inr rfl))
  | closingRead hcur _ =>
      exact errorAt_same (originFirst_attempts c)
        (htried hcur (.inr (.inl ⟨_, rfl⟩)) (by simp) (by simp) (by simp))
        (by simp) (by simp) (by simp)
  | closingDone hcur _ _ _ =>
      rw [FlowAt, stmState_of_current hcur] at hf
      exact errorIn_done hf.noError
  | closingEmpty hcur _ _ => exact hin hcur (.inr (.inl ⟨_, rfl⟩))
  | closingWrite hcur =>
      exact errorAt_same (originFirst_attempts c)
        (htried hcur (.inr (.inr rfl)) (by simp) (by simp) (by simp))
        (by simp) (by simp) (by simp)
  | emptyDone hcur _ _ =>
      rw [FlowAt, stmState_of_current hcur] at hf
      refine errorIn_done ?_
      rw [(clientFirst_grown c).view statesEntered_minor]
      exact hf.noError
  | emptyWrite hcur _ =>
      exact errorAt_same (clientFirst_attempts c)
        (htried hcur (.inr (.inr rfl)) (by simp) (by simp) (by simp))
        (by simp) (by simp) (by simp)
  | stay hcur =>
      exact errorAt_in (.inl rfl) hcur h
  | arrive env hcur hne ha =>
      rename_i s
      obtain ⟨hatt, hview⟩ := arrival_errorView ha
      refine errorAt_in (.inl rfl) (arrival_current ha) ?_
      by_cases he : s = .error
      · subst he
        exact Explained.congr (c := c) h (hview rfl)
      · by_cases hs : s = .parsingRequestLine
        · subst hs
          exact hatt.trans h
        · exact errorIn_of_tried (hatt.symm ▸ Conn.ErrorIn.tried (c := c) h hs he hne) hs he hne
  | free _ =>
      intro hin
      rcases List.mem_cons.mp hin with he | hin
      · cases he
      · exact (h hin).congr rfl rfl rfl

theorem Life.errorAt (h : Life d ph c) : c.ErrorAt ph := by
  refine h.invariant (I := fun ph c => c.ErrorAt ph) ?_ ?_
  · intro fd size now mem
    exact rfl
  · intro ph c m ph' c' m' hl hI hm
    exact errorAt_move hl.stages.2 hl.peers hl.flow hI hm

theorem Life.dismissed (h : Life d ph c) (hph : ph = .rest ∨ ph = .gone)
    (hin : .error ∈ statesEntered c.trace) : c.Dismissed := by
  rcases hph with rfl | rfl
  · exact dismissed_of_rest h.flow h.errorAt hin
  · exact h.errorAt hin

end

/-- The request line is to blame exactly where no socket was asked for. -/
theorem Conn.Blames.unasked_iff {c : Conn} {e : Errors} (h : c.Blames e) :
    attempts c.trace = 0 ↔
      e = .badRequest ∨ e = .notImplemented ∨ e = .httpVersionNotSupported := by
  cases h with
  | request hcheck hnone =>
      refine iff_of_true hnone ?_
      unfold checkRequestLineError at hcheck
      split at hcheck <;> cases hcheck <;> simp
  | server _ _ htried _ _ => exact iff_of_false (by omega) (by simp)
  | proxy htried => exact iff_of_false (by omega) (by simp)

/-- A client that is refused is told why: by 400, 501 or 505 that its request
line was, and then no socket was asked for; by 502 that the DoH server was
asked, and replied what a parser refuses; by 500 that a socket was asked for
and the rest failed. The host was sent nothing, and nothing of the host's was
read. -/
theorem errors_explained {cfg : Config} {es : List Event} {w : World}
    (h : Lib.RunsWhen step Undisturbed (initWorld cfg) es w) (id : Nat) (c : Conn)
    (hc : w.heap id = .live c ∨ w.heap id = .freed c)
    (he : .error ∈ statesEntered c.trace) :
    ∃ e, c.error = some e ∧ c.Blames e ∧
      (attempts c.trace = 0 ↔
        e = .badRequest ∨ e = .notImplemented ∨ e = .httpVersionNotSupported) ∧
      clientOut c.trace <+: errorReply (some e) ∧
      targetOut c.trace = [] ∧ targetIn c.trace = [] := by
  obtain ⟨ph, hph, hlife⟩ := life_of_heap h hc
  obtain ⟨⟨e, herr, hblames⟩, hin, hout⟩ := hlife.dismissed hph he
  refine ⟨e, herr, hblames, hblames.unasked_iff, ?_, hout, hin⟩
  have hfaithful : c.Faithful cfg.dohUtils := by
    rcases hph with rfl | rfl
    · exact FlowIn.faithful hlife.flow
    · exact hlife.flow
  have hreply := hfaithful.toClient
  rwa [if_pos he, herr] at hreply

/-- A request line whose major version has two digits, while a connection that
gave both queries up waits to send the rest of its reply. -/
def twoRefused : List Event :=
  crowd ++ [.readable 3 { Env.silent with accept := some 10 },
    .readable 10 { Env.silent with recv := some (ascii "GET http://a HTTP/10.0\r\n") }]

theorem errors_explained_version : ∃ (w : World) (unresolved refused : Conn),
    w.heap 0 = .live unresolved ∧ unresolved.Blames .internalServerError ∧
      attempts unresolved.trace ≠ 0 ∧
    w.heap 3 = .live refused ∧ refused.Blames .httpVersionNotSupported ∧
      attempts refused.trace = 0 := by
  obtain ⟨w, h, hp⟩ := @computed_run loopback twoRefused
    (fun w => w.liveAt 0 (fun c => c.error == some .internalServerError &&
        (statesEntered c.trace).contains .error) &&
      w.liveAt 3 (fun c => c.error == some .httpVersionNotSupported &&
        (statesEntered c.trace).contains .error)) (by decide +kernel)
  obtain ⟨hunresolved, hrefused⟩ := (Bool.and_eq_true _ _).mp hp
  obtain ⟨c, hc, hp⟩ := World.liveAt_eq hunresolved
  obtain ⟨c', hc', hp'⟩ := World.liveAt_eq hrefused
  obtain ⟨herr, hin⟩ := (Bool.and_eq_true _ _).mp hp
  obtain ⟨herr', hin'⟩ := (Bool.and_eq_true _ _).mp hp'
  obtain ⟨e, he, hblames, hasked, _⟩ := errors_explained h 0 c (.inl hc)
    (List.contains_iff_mem.mp hin)
  obtain ⟨e', he', hblames', hasked', _⟩ := errors_explained h 3 c' (.inl hc')
    (List.contains_iff_mem.mp hin')
  cases he.symm.trans (eq_of_beq herr)
  cases he'.symm.trans (eq_of_beq herr')
  refine ⟨w, c, c', hc, hblames, ?_, hc', hblames', hasked'.mpr (.inr (.inr rfl))⟩
  exact fun hnone => by simpa using hasked.mp hnone

end HttpdProxy
