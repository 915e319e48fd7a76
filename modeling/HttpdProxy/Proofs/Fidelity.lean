import HttpdProxy.Proofs.Daemon
import HttpdProxy.Protocol.Flow

/-!
# The relay is faithful

`Life.flow` on the runs of the daemon: what a connection has sent, on either
side, is a prefix of what that side is owed; a side is shut down when it has
all of it; and a connection that ends by itself has delivered everything.
-/

namespace HttpdProxy

open Conn

section

variable {d : DohUtils} {c c' : Conn}

/-! ## The method -/

/-- The tunnel flag is the method's. -/
def Conn.Tunnels (c : Conn) : Prop :=
  c.connectionRequest.connect = true ↔ c.connectionRequest.method = ascii "CONNECT"

/-- What the tunnel flag and the method depend on. -/
def Conn.tunnelView (c : Conn) := (c.connectionRequest.connect, c.connectionRequest.method)

theorem Conn.Tunnels.kept (h : c.Tunnels) (hv : c'.tunnelView = c.tunnelView) :
    c'.Tunnels := by
  simp only [tunnelView, Prod.mk.injEq] at hv
  rw [Tunnels, hv.1, hv.2]
  exact h

theorem Attempt.tunnelView {peer : Peer} {addr : Sockaddr} {next : ConnState}
    (h : Attempt peer addr c next c') : c'.tunnelView = c.tunnelView := by
  cases h with
  | refused => rfl
  | opened h => cases h <;> rfl

theorem nextDns_tunnelView (c : Conn) (doh : DohConnection) :
    (c.nextDns doh).2.tunnelView = c.tunnelView := by
  obtain ⟨_, _, heq⟩ := Conn.nextDns_eq c doh
  rw [heq, Conn.tunnelView, Conn.tunnelView]

theorem exhausted_tunnelView (c : Conn) (doh : DohConnection) :
    (c.exhausted doh).2.tunnelView = c.tunnelView := by
  obtain ⟨_, _, heq⟩ := Conn.exhausted_eq c doh
  rw [heq, Conn.tunnelView, Conn.tunnelView]

theorem judged_tunnelView (c : Conn) (key : SelectorKey) (doh : DohConnection) (v : Verdict) :
    (c.judged key doh v).2.tunnelView = c.tunnelView := by
  obtain ⟨_, _, _, heq⟩ := Conn.judged_eq c key doh v
  rw [heq, Conn.tunnelView, Conn.tunnelView]

theorem closeOrigin_tunnelView (c : Conn) : c.closeOrigin.tunnelView = c.tunnelView := by
  unfold Conn.closeOrigin
  split <;> rfl

theorem closeClient_tunnelView (c : Conn) : c.closeClient.tunnelView = c.tunnelView := by
  unfold Conn.closeClient
  split <;> rfl

theorem arrival_tunnelView {env : Env} {s : ConnState} (ha : c.arrival d env s = .ok c') :
    c'.tunnelView = c.tunnelView := by
  cases s with
  | sendDohRequest =>
      obtain ⟨buffer, _, ha⟩ := Lib.bind_eq_ok.mp ha
      cases ha
      rfl
  | awaitDohResponse =>
      cases ha
      unfold initDohState
      split
      · rfl
      · split <;> rfl
  | sendRequestLine =>
      obtain ⟨buffer, _, ha⟩ := Lib.bind_eq_ok.mp ha
      cases ha
      rfl
  | connected =>
      cases ha
      split <;> rfl
  | closing =>
      cases ha
      exact (closeClient_tunnelView _).trans (closeOrigin_tunnelView c)
  | emptyBuffers =>
      cases ha
      exact (closeOrigin_tunnelView _).trans (closeClient_tunnelView c)
  | error =>
      obtain ⟨buffer, _, ha⟩ := Lib.bind_eq_ok.mp ha
      cases ha
      rfl
  | _ =>
      cases ha
      rfl

theorem tunnels_move {ph ph' : Phase} {m m' : Metrics} (hl : Life d ph c) (h : c.Tunnels)
    (hm : Move d ⟨ph, c, m⟩ ⟨ph', c', m'⟩) : c'.Tunnels := by
  cases hm with
  | parseDone hcur _ _ _ ha =>
      have hf := hl.flow
      rw [FlowAt, stmState_of_current hcur] at hf
      have hview := ha.tunnelView
      split
      · rw [Tunnels, (finishRequest_keeps _ _).2.2.2.2.2.1]
        refine buildConnectionRequest_tunnels ?_
        exact (Prod.mk.inj hview).1.trans hf.2.connect
      · exact h.kept hview
  | tryNext _ _ _ => exact h.kept (nextDns_tunnelView c _)
  | walkOpen _ _ _ _ hr => exact h.kept (Attempt.opened hr).tunnelView
  | walkEnd _ _ => exact h.kept (exhausted_tunnelView c _)
  | ask ha => exact h.kept ha.tunnelView
  | awaitByte alloc _ _ _ _ _ _ => exact h.kept (judged_tunnelView _ _ _ _)
  | awaitEnd _ _ _ _ _ => exact h.kept (nextDns_tunnelView _ _)
  | relayRead hcur hnc hno =>
      rename_i key
      obtain ⟨code, hreq⟩ := analyzeRead_request key c
      exact h.kept (by rw [Conn.tunnelView, hreq, Conn.tunnelView])
  | relayEnd hcur hend =>
      rename_i key
      obtain ⟨code, hreq⟩ := analyzeRead_request key c
      exact h.kept (by rw [Conn.tunnelView, hreq, Conn.tunnelView])
  | closingRead _ _ =>
      exact h.kept ((closeClient_tunnelView _).trans (closeOrigin_tunnelView c))
  | closingWrite _ =>
      exact h.kept ((closeClient_tunnelView _).trans (closeOrigin_tunnelView c))
  | emptyDone _ _ _ =>
      exact h.kept ((closeOrigin_tunnelView _).trans (closeClient_tunnelView c))
  | emptyWrite _ _ =>
      exact h.kept ((closeOrigin_tunnelView _).trans (closeClient_tunnelView c))
  | arrive env hcur hne ha =>
      rename_i s
      have hview : (c.entered s).tunnelView = c.tunnelView := rfl
      exact h.kept ((arrival_tunnelView ha).trans hview)
  | _ => exact h.kept rfl

theorem Life.tunnels {ph : Phase} (h : Life d ph c) : c.Tunnels := by
  refine h.invariant (I := fun _ c => c.Tunnels) ?_ ?_
  · intro fd size now mem
    constructor
    · intro hc
      cases hc
    · intro hm
      cases hm
  · intro ph c m ph' c' m' hl hI hm
    exact tunnels_move hl hI hm

/-! ## Where the request line ends -/

/-- What follows the request line follows a CR LF. -/
theorem pastRequestLine_crlf (bs : Bytes) (h : pastRequestLine bs ≠ []) :
    ∃ text, bs = text ++ ascii "\r\n" ++ pastRequestLine bs := by
  cases hr : requestHead requestParserInit bs with
  | none =>
      rw [pastRequestLine, hr] at h
      exact absurd rfl h
  | some lr =>
      obtain ⟨line, rest⟩ := lr
      rw [pastRequestLine_eq hr]
      rcases requestHead_crlf (by simp [requestParserInit]) hr with ⟨he, _⟩ | ⟨text, rfl⟩
      · cases he
      · exact ⟨text, requestHead_split hr⟩

end

/-! ## The runs of the daemon -/

/-- What was sent to the two sides of a connection, against what came from
them. -/
structure Fidelity (d : DohUtils) (c : Conn) : Prop where
  refused : .error ∈ statesEntered c.trace → clientOut c.trace <+: errorReply c.error
  answered : .error ∉ statesEntered c.trace → clientOut c.trace <+:
    (if c.connectionRequest.method = ascii "CONNECT" then ascii "HTTP/1.0 200 OK\r\n\r\n"
      else []) ++ targetIn c.trace
  requested : c.connectionRequest.method ≠ ascii "CONNECT" → targetOut c.trace <+:
    c.connectionRequest.requestLine ++ pastRequestLine (clientIn c.trace)
  pastLine : pastRequestLine (clientIn c.trace) ≠ [] → ∃ text,
    clientIn c.trace = text ++ ascii "\r\n" ++ pastRequestLine (clientIn c.trace)
  -- whatever was still to come for a side that was shut down never came
  clientShut : ∀ t ∈ shutdownsOf .client c.trace,
    clientOut t = c.greeting ++ targetIn c.trace
  originShut : ∀ t ∈ shutdownsOf .origin c.trace,
    if towardsDoh t then sentHere t = c.query d t else targetOut t = c.destined
  delivered : .done ∈ statesEntered c.trace → .error ∉ statesEntered c.trace →
    clientOut c.trace = c.greeting ++ targetIn c.trace ∧ targetOut c.trace = c.destined

theorem Faithful.fidelity {d : DohUtils} {c : Conn} (hf : c.Faithful d) (ht : c.Tunnels) :
    Fidelity d c := by
  refine ⟨fun he => ?_, fun he => ?_, fun hm => ?_, pastRequestLine_crlf _, hf.clientShut,
    hf.originShut, hf.delivered⟩
  · have hto := hf.toClient
    rwa [if_pos he] at hto
  · have hto := hf.toClient
    rw [if_neg he, greeting] at hto
    simp only [ht.eq] at hto
    exact hto
  · have hto := hf.toTarget
    rwa [destined, if_neg (fun hc => hm (ht.mp hc))] at hto

/-- A connection, open or closed, keeps its account. -/
theorem runs_faithful {cfg : Config} {es : List Event} {w : World} {id : Nat} {c : Conn}
    (h : Lib.RunsWhen step Undisturbed (initWorld cfg) es w)
    (hc : w.heap id = .live c ∨ w.heap id = .freed c) :
    c.Faithful cfg.dohUtils ∧ c.Tunnels := by
  obtain ⟨_, _, hlives⟩ := lives h
  rcases hc with hc | hc
  · have hl := hlives id _ (member_live hc)
    exact ⟨FlowIn.faithful hl.flow, hl.tunnels⟩
  · have hl := hlives id _ (member_freed hc)
    exact ⟨hl.flow, hl.tunnels⟩

/-- In every run, of a connection that is open or has been closed. -/
theorem relay_fidelity {cfg : Config} {es : List Event} {w : World} {id : Nat} {c : Conn}
    (h : Lib.RunsWhen step Undisturbed (initWorld cfg) es w)
    (hc : w.heap id = .live c ∨ w.heap id = .freed c) : Fidelity cfg.dohUtils c := by
  obtain ⟨hf, ht⟩ := runs_faithful h hc
  exact Faithful.fidelity hf ht

/-- A request and half of its answer, sent in parts. -/
theorem relay_fidelity_get :
    ∃ (w : World) (c : Conn), w.heap 0 = .live c ∧ Fidelity loopback.dohUtils c ∧
      targetOut c.trace = ascii "GET / HTTP/1.0\r\n\r\n" ∧ clientOut c.trace = ascii "hel" := by
  obtain ⟨w, c, h, hc, hp⟩ := @first_run loopback
    [.readable 3 { Env.silent with accept := some 5 },
      .readable 5
        { Env.silent with
          recv := some (ascii "GET http://127.0.0.1:80/ HTTP/1.0\r\n\r\n")
          socket := fun _ => some 6 },
      .writable 6 Env.silent,
      .writable 6 { Env.silent with send := some 7 },
      .writable 6 { Env.silent with send := some 20 },
      .writable 6 { Env.silent with send := some 2 },
      .readable 6 { Env.silent with recv := some (ascii "hello") },
      .writable 5 { Env.silent with send := some 3 }]
    (fun c => targetOut c.trace == ascii "GET / HTTP/1.0\r\n\r\n" &&
      clientOut c.trace == ascii "hel") (by decide +kernel)
  rw [Bool.and_eq_true, beq_iff_eq, beq_iff_eq] at hp
  exact ⟨w, c, hc, relay_fidelity h (.inl hc), hp⟩

end HttpdProxy
