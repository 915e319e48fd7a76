import HttpdProxy.Protocol.Peers

/-!
# What passes between the client and the host

`origin_buffer` carries, in turn, the DoH query, the DoH response, the request
line, the reply to a CONNECT, the origin's data and the error reply. What is in
it is told here in terms of what the trace says was read and sent: in each
state, the bytes sent on a side and those still in its buffer are together
exactly what that side is to be sent.
-/

namespace HttpdProxy

/-! ## Where the request line ends -/

/-- The bytes up to the one that completes the request line, and the bytes
after it. -/
def requestHead (p : RequestParser) : Bytes → Option (Bytes × Bytes)
  | [] => none
  | b :: bs =>
      if (requestParserFeed p b).state = .requestDone then some ([b], bs)
      else (requestHead (requestParserFeed p b) bs).map fun h => (b :: h.1, h.2)

theorem requestHead_append {p : RequestParser} {bs : Bytes} (more : Bytes)
    (h : requestHead p bs = none) :
    requestHead p (bs ++ more)
      = (requestHead (bs.foldl requestParserFeed p) more).map fun h => (bs ++ h.1, h.2) := by
  induction bs generalizing p with
  | nil => simp
  | cons b bs ih =>
      rw [requestHead] at h
      split at h
      · cases h
      · next hne =>
          rw [List.cons_append, requestHead, if_neg hne, ih (Option.map_eq_none_iff.mp h),
            Option.map_map]
          rfl

theorem requestHead_more {p : RequestParser} {bs line rest : Bytes} (more : Bytes)
    (h : requestHead p bs = some (line, rest)) :
    requestHead p (bs ++ more) = some (line, rest ++ more) := by
  induction bs generalizing p line with
  | nil => cases h
  | cons b bs ih =>
      rw [requestHead] at h
      rw [List.cons_append, requestHead]
      split at h
      · next hdone =>
          cases h
          rw [if_pos hdone]
      · next hne =>
          obtain ⟨⟨l, r⟩, hl, he⟩ := Option.map_eq_some_iff.mp h
          cases he
          rw [if_neg hne, ih hl]
          rfl

theorem requestHead_split {p : RequestParser} {bs line rest : Bytes}
    (h : requestHead p bs = some (line, rest)) : bs = line ++ rest := by
  induction bs generalizing p line with
  | nil => cases h
  | cons b bs ih =>
      rw [requestHead] at h
      split at h
      · cases h
        rfl
      · obtain ⟨⟨l, r⟩, hl, he⟩ := Option.map_eq_some_iff.mp h
        cases he
        rw [ih hl]
        rfl

/-- The line feed that completes a request line follows a carriage return. -/
theorem requestParserFeed_end (p : RequestParser) (b : UInt8) :
    ((requestParserFeed p b).state = .requestDone → p.state ≠ .requestDone →
        p.state = .requestEnd ∧ b = chr '\n') ∧
      ((requestParserFeed p b).state = .requestEnd → b = chr '\r') := by
  fun_cases requestParserFeed p b
  case case10 h | case11 h | case12 h | case13 h => simp [h]
  all_goals
    simp only [rMethod, rTargetScheme, rTargetHost, rTargetPort, rTargetOgform, rVersion,
      rVersionMajor, rVersionMinor, rEnd, getMethodState, RequestParser.goto,
      RequestParser.fail, enterOgform, enterVersion]
    repeat' split
    all_goals simp_all

theorem requestHead_crlf {p : RequestParser} {bs line rest : Bytes}
    (hp : p.state ≠ .requestDone) (h : requestHead p bs = some (line, rest)) :
    (p.state = .requestEnd ∧ line = [chr '\n']) ∨
      ∃ text, line = text ++ [chr '\r', chr '\n'] := by
  induction bs generalizing p line with
  | nil => cases h
  | cons b bs ih =>
      rw [requestHead] at h
      split at h
      · next hdone =>
          cases h
          obtain ⟨he, rfl⟩ := (requestParserFeed_end p b).1 hdone hp
          exact .inl ⟨he, rfl⟩
      · next hne =>
          obtain ⟨⟨l, r⟩, hl, he⟩ := Option.map_eq_some_iff.mp h
          cases he
          rcases ih hne hl with ⟨hend, rfl⟩ | ⟨text, rfl⟩
          · rw [(requestParserFeed_end p b).2 hend]
            exact .inr ⟨[], rfl⟩
          · exact .inr ⟨b :: text, rfl⟩

/-- The client's bytes after the CR LF of its request line. -/
def pastRequestLine (bs : Bytes) : Bytes :=
  ((requestHead requestParserInit bs).map Prod.snd).getD []

theorem pastRequestLine_eq {bs line rest : Bytes}
    (h : requestHead requestParserInit bs = some (line, rest)) :
    pastRequestLine bs = rest := by
  rw [pastRequestLine, h]
  rfl

/-- The reads up to the one that completes the request line. -/
def leadingReads (p : RequestParser) : List Bytes → Bytes
  | [] => []
  | bs :: more =>
      if (requestHead p bs).isSome then bs
      else bs ++ leadingReads (bs.foldl requestParserFeed p) more

theorem leadingReads_append {p : RequestParser} {rs : List Bytes} (more : List Bytes)
    (h : requestHead p rs.flatten = none) :
    leadingReads p (rs ++ more)
      = rs.flatten ++ leadingReads (rs.flatten.foldl requestParserFeed p) more := by
  induction rs generalizing p with
  | nil => rfl
  | cons bs rs ih =>
      rw [List.flatten_cons] at h ⊢
      have hbs : requestHead p bs = none := by
        cases hr : requestHead p bs with
        | none => rfl
        | some lr =>
            obtain ⟨line, rest⟩ := lr
            rw [requestHead_more _ hr] at h
            cases h
      rw [requestHead_append _ hbs] at h
      rw [List.cons_append, leadingReads, hbs, ih (Option.map_eq_none_iff.mp h),
        List.foldl_append, List.append_assoc]
      rfl

/-- The read that completes the request line is the last of those up to it. -/
theorem leadingReads_last {p : RequestParser} {rs more : List Bytes} {lr : Bytes × Bytes}
    (hone : more.length ≤ 1) (hrs : requestHead p rs.flatten = none)
    (h : requestHead p (rs ++ more).flatten = some lr) :
    leadingReads p (rs ++ more) = (rs ++ more).flatten := by
  rw [leadingReads_append _ hrs]
  rw [List.flatten_append] at h ⊢
  rw [requestHead_append _ hrs] at h
  cases more with
  | nil => rfl
  | cons bs more =>
      obtain rfl := List.eq_nil_of_length_eq_zero (Nat.le_zero.mp (Nat.le_of_succ_le_succ hone))
      rw [List.flatten_singleton] at h ⊢
      obtain ⟨hl, hs, _⟩ := Option.map_eq_some_iff.mp h
      rw [leadingReads, hs]
      rfl

theorem leadingReads_more {p : RequestParser} {rs : List Bytes} (more : List Bytes)
    (h : (requestHead p rs.flatten).isSome = true) :
    leadingReads p (rs ++ more) = leadingReads p rs := by
  induction rs generalizing p with
  | nil => cases h
  | cons bs rs ih =>
      rw [List.cons_append, leadingReads, leadingReads]
      split
      · rfl
      · next hn =>
          rw [Bool.not_eq_true, Option.isSome_eq_false_iff, Option.isNone_iff_eq_none] at hn
          rw [List.flatten_cons, requestHead_append _ hn, Option.isSome_map] at h
          rw [ih h]

/-! ## Reading the trace -/

/-- The socket opened last is the DoH server's. -/
def towardsDoh (t : List Act) : Bool := (lastOpened t).any (·.2.1 == .doh)

/-- The bytes received from the client. -/
def clientIn : List Act → Bytes
  | [] => []
  | .received .client bs :: t => clientIn t ++ bs
  | _ :: t => clientIn t

/-- They one read at a time, oldest first. -/
def clientReads : List Act → List Bytes
  | [] => []
  | .received .client bs :: t => clientReads t ++ [bs]
  | _ :: t => clientReads t

/-- The bytes sent to the client. -/
def clientOut : List Act → Bytes
  | [] => []
  | .sent .client bs :: t => clientOut t ++ bs
  | _ :: t => clientOut t

/-- The bytes received from the host: from an origin that is not the DoH
server. -/
def targetIn : List Act → Bytes
  | [] => []
  | .received .origin bs :: t => if towardsDoh t then targetIn t else targetIn t ++ bs
  | _ :: t => targetIn t

/-- The bytes sent to the host. -/
def targetOut : List Act → Bytes
  | [] => []
  | .sent .origin bs :: t => if towardsDoh t then targetOut t else targetOut t ++ bs
  | _ :: t => targetOut t

/-- The bytes sent on the socket opened last. -/
def sentHere : List Act → Bytes
  | [] => []
  | .opened _ _ _ :: _ => []
  | .sent .origin bs :: t => sentHere t ++ bs
  | _ :: t => sentHere t

/-- The client's bytes since CONNECTED was entered. -/
def tunnelIn : List Act → Bytes
  | [] => []
  | .enter .connected :: _ => []
  | .received .client bs :: t => tunnelIn t ++ bs
  | _ :: t => tunnelIn t

/-- What had happened when a side was shut down, each time it was. -/
def shutdownsOf (side : Side) : List Act → List (List Act)
  | [] => []
  | .shutdown s :: t => if s = side then t :: shutdownsOf side t else shutdownsOf side t
  | _ :: t => shutdownsOf side t

/-- The states that were entered. -/
def statesEntered : List Act → List ConnState
  | [] => []
  | .enter s :: t => s :: statesEntered t
  | _ :: t => statesEntered t

/-- What the client has said. -/
def heard (t : List Act) := (clientIn t, clientReads t, tunnelIn t)

/-- What the proxy and the host have. -/
def exchanged (t : List Act) :=
  (clientOut t, targetIn t, targetOut t, shutdownsOf .client t, shutdownsOf .origin t,
    statesEntered t)

theorem clientReads_flatten (t : List Act) : (clientReads t).flatten = clientIn t := by
  fun_induction clientReads t
  case case2 ih => simp [clientIn, ih]
  case case3 hne ih =>
    rw [ih, clientIn]
    exact hne
  case case1 => rfl

namespace Conn

/-- What a client that asked for a tunnel is told first. -/
def greeting (c : Conn) : Bytes := if c.connectionRequest.connect then connectReply else []

/-- What is to be sent to the host: what came through the tunnel, or the
request, with its first line as the proxy writes it. -/
def destined (c : Conn) : Bytes :=
  if c.connectionRequest.connect then tunnelIn c.trace
  else c.connectionRequest.requestLine ++ pastRequestLine (clientIn c.trace)

/-- The query that was sent last, of those in `t`. -/
def query (d : DohUtils) (c : Conn) (t : List Act) : Bytes :=
  buildDohRequest d c.connectionRequest.host.text ((queries t).headD 0)

/-- The DoH server was shut down, with its query sent. -/
def QueryShut (d : DohUtils) (c : Conn) (t : List Act) : Prop :=
  towardsDoh t = true ∧ sentHere t = c.query d t

/-- Nothing was exchanged with the host. -/
structure Untargeted (d : DohUtils) (c : Conn) : Prop where
  received : targetIn c.trace = []
  sent : targetOut c.trace = []
  clientShut : shutdownsOf .client c.trace = []
  originShut : ∀ t ∈ shutdownsOf .origin c.trace, c.QueryShut d t
  notConnected : .connected ∉ statesEntered c.trace
  notDone : .done ∉ statesEntered c.trace

/-- Nor was anything sent to the client. -/
structure Unrelayed (d : DohUtils) (c : Conn) : Prop where
  untargeted : c.Untargeted d
  clientOut : clientOut c.trace = []
  noError : .error ∉ statesEntered c.trace

/-- The request line is being read: its bytes so far have been fed to the
parser, once there is one. -/
structure Parsing (c : Conn) : Prop where
  connect : c.connectionRequest.connect = false
  originShut : shutdownsOf .origin c.trace = []
  leading : ∃ rs more, clientReads c.trace = rs ++ more ∧ more.length ≤ 1 ∧
    requestHead requestParserInit rs.flatten = none
  eaten : ∃ bs, clientIn c.trace = bs ++ c.clientBuffer.unread ∧
    (c.current = none → bs = []) ∧
    (c.current ≠ none → c.requestParser = bs.foldl requestParserFeed requestParserInit ∧
      requestHead requestParserInit bs = none)

/-- The request line has been read; what came with it of the rest is in the
client buffer, unless a tunnel was asked for. -/
structure Parsed (c : Conn) : Prop where
  complete : ∃ line rest, requestHead requestParserInit (clientIn c.trace) = some (line, rest) ∧
    (c.connectionRequest.connect = false → rest = c.clientBuffer.unread)
  dropped : c.connectionRequest.connect = true → c.clientBuffer.unread = []
  leading : leadingReads requestParserInit (clientReads c.trace) = clientIn c.trace

/-- The request line is on its way. -/
structure Announcing (d : DohUtils) (c : Conn) : Prop where
  received : targetIn c.trace = []
  clientOut : clientOut c.trace = []
  clientShut : shutdownsOf .client c.trace = []
  originShut : ∀ t ∈ shutdownsOf .origin c.trace, c.QueryShut d t
  noError : .error ∉ statesEntered c.trace
  notConnected : .connected ∉ statesEntered c.trace
  notDone : .done ∉ statesEntered c.trace
  parsed : c.Parsed
  connect : c.connectionRequest.connect = false
  sent : targetOut c.trace ++ c.originBuffer.unread = c.connectionRequest.requestLine

/-- Client and host are relayed to each other. -/
structure Relaying (d : DohUtils) (c : Conn) : Prop where
  complete : ∃ line rest, requestHead requestParserInit (clientIn c.trace) = some (line, rest)
  leading : leadingReads requestParserInit (clientReads c.trace) ++ tunnelIn c.trace
    = clientIn c.trace
  toClient : clientOut c.trace ++ c.originBuffer.unread = c.greeting ++ targetIn c.trace
  toTarget : targetOut c.trace ++ c.clientBuffer.unread = c.destined
  clientShut : ∀ t ∈ shutdownsOf .client c.trace,
    c.originStatus.ending = true ∧ clientOut t = c.greeting ++ targetIn c.trace
  originShut : ∀ t ∈ shutdownsOf .origin c.trace, c.QueryShut d t ∨
    towardsDoh t = false ∧ c.clientStatus.ending = true ∧ targetOut t = c.destined
  noError : .error ∉ statesEntered c.trace
  notDone : .done ∉ statesEntered c.trace

/-- An error reply is on its way. -/
structure Refusing (d : DohUtils) (c : Conn) : Prop where
  untargeted : c.Untargeted d
  error : .error ∈ statesEntered c.trace
  reply : clientOut c.trace ++ c.originBuffer.unread = errorReply c.error

/-- What has passed, in a state. -/
def FlowIn (d : DohUtils) (c : Conn) : ConnState → Prop
  | .parsingRequestLine => c.Unrelayed d ∧ c.Parsing
  | .tryConnectionIp => c.Unrelayed d ∧ c.Parsed ∧ sentHere c.trace = []
  | .sendDohRequest =>
      c.Unrelayed d ∧ c.Parsed ∧
        sentHere c.trace ++ c.originBuffer.unread = c.query d c.trace
  | .awaitDohResponse => c.Unrelayed d ∧ c.Parsed ∧ sentHere c.trace = c.query d c.trace
  | .sendRequestLine => c.Announcing d
  | .connected | .closing | .emptyBuffers => c.Relaying d
  | .done => False
  | .error => c.Refusing d

/-- Nothing is left to be sent. -/
def Over (d : DohUtils) (c : Conn) : Prop :=
  (c.Relaying d ∧ c.clientBuffer.unread = [] ∧ c.originBuffer.unread = []) ∨
    (c.Refusing d ∧ c.originBuffer.unread = [])

/-- On the way to a state. -/
def FlowDue (d : DohUtils) (c : Conn) : ConnState → Prop
  | .sendDohRequest =>
      c.Unrelayed d ∧ c.Parsed ∧ sentHere c.trace = [] ∧ c.originBuffer.unread = []
  | .sendRequestLine =>
      c.Unrelayed d ∧ c.Parsed ∧ c.connectionRequest.connect = false ∧
        c.originBuffer.unread = []
  | .connected => (c.entered .connected).Relaying d
  | .done => c.Over d
  | .error => c.Unrelayed d
  | s => c.FlowIn d s

/-- What the proxy owes both ends, whatever has happened. -/
structure Faithful (d : DohUtils) (c : Conn) : Prop where
  toClient : clientOut c.trace <+:
    if .error ∈ statesEntered c.trace then errorReply c.error
    else c.greeting ++ targetIn c.trace
  toTarget : targetOut c.trace <+: c.destined
  clientShut : ∀ t ∈ shutdownsOf .client c.trace,
    clientOut t = c.greeting ++ targetIn c.trace
  originShut : ∀ t ∈ shutdownsOf .origin c.trace,
    if towardsDoh t then sentHere t = c.query d t else targetOut t = c.destined
  delivered : .done ∈ statesEntered c.trace → .error ∉ statesEntered c.trace →
    clientOut c.trace = c.greeting ++ targetIn c.trace ∧ targetOut c.trace = c.destined
  accounted : .connected ∈ statesEntered c.trace →
    targetOut c.trace ++ c.clientBuffer.unread = c.destined ∧
      leadingReads requestParserInit (clientReads c.trace) ++ tunnelIn c.trace
        = clientIn c.trace

/-- In a phase. -/
def FlowAt (d : DohUtils) (c : Conn) : Phase → Prop
  | .rest | .reading _ | .writing => c.FlowIn d c.stmState
  | .walking | .asking => c.Unrelayed d ∧ c.Parsed
  | .goto s => if c.current = some s then c.FlowIn d s else c.FlowDue d s
  | .gone => c.Faithful d

/-- What the streams depend on. -/
def flowView (c : Conn) :=
  (exchanged c.trace, heard c.trace, (sentHere c.trace, queries c.trace),
    (c.clientBuffer.unread, c.originBuffer.unread, c.originStatus.ending,
      c.clientStatus.ending),
    (c.connectionRequest.connect, c.connectionRequest.requestLine,
      c.connectionRequest.host, c.requestParser),
    c.current.isNone, c.error)

end Conn

open Conn

section

variable {d : DohUtils} {c c' : Conn} {s next : ConnState}

/-! ## What a state has to show -/

theorem Unrelayed.faithful (h : c.Unrelayed d) : c.Faithful d where
  toClient := by
    rw [h.clientOut]
    exact List.nil_prefix
  toTarget := by
    rw [h.untargeted.sent]
    exact List.nil_prefix
  clientShut := by
    rw [h.untargeted.clientShut]
    exact fun t ht => absurd ht List.not_mem_nil
  originShut t ht := by
    obtain ⟨hdoh, hq⟩ := h.untargeted.originShut t ht
    rw [if_pos hdoh]
    exact hq
  delivered hd := absurd hd h.untargeted.notDone
  accounted hc := absurd hc h.untargeted.notConnected

theorem Announcing.faithful (h : c.Announcing d) : c.Faithful d where
  toClient := by
    rw [h.clientOut]
    exact List.nil_prefix
  toTarget := by
    rw [destined, h.connect, if_neg (by simp), ← h.sent, List.append_assoc]
    exact List.prefix_append _ _
  clientShut := by
    rw [h.clientShut]
    exact fun t ht => absurd ht List.not_mem_nil
  originShut t ht := by
    obtain ⟨hdoh, hq⟩ := h.originShut t ht
    rw [if_pos hdoh]
    exact hq
  delivered hd := absurd hd h.notDone
  accounted hc := absurd hc h.notConnected

/-- A relayed connection, whether it is done or not. -/
theorem Relaying.faithful (h : c.Relaying d) : c.Faithful d where
  toClient := by
    rw [if_neg h.noError, ← h.toClient]
    exact List.prefix_append _ _
  toTarget := by
    rw [← h.toTarget]
    exact List.prefix_append _ _
  clientShut t ht := (h.clientShut t ht).2
  originShut t ht := by
    rcases h.originShut t ht with ⟨hdoh, hq⟩ | ⟨hdoh, _, hout⟩
    · rw [if_pos hdoh]
      exact hq
    · rw [hdoh, if_neg (by simp)]
      exact hout
  delivered hd := absurd hd h.notDone
  accounted _ := ⟨h.toTarget, h.leading⟩

theorem Refusing.faithful (h : c.Refusing d) : c.Faithful d where
  toClient := by
    rw [if_pos h.error, ← h.reply]
    exact List.prefix_append _ _
  toTarget := by
    rw [h.untargeted.sent]
    exact List.nil_prefix
  clientShut := by
    rw [h.untargeted.clientShut]
    exact fun t ht => absurd ht List.not_mem_nil
  originShut t ht := by
    obtain ⟨hdoh, hq⟩ := h.untargeted.originShut t ht
    rw [if_pos hdoh]
    exact hq
  delivered hd := absurd hd h.untargeted.notDone
  accounted hc := absurd hc h.untargeted.notConnected

theorem FlowIn.faithful (h : c.FlowIn d s) : c.Faithful d := by
  cases s with
  | parsingRequestLine => exact Unrelayed.faithful h.1
  | tryConnectionIp => exact Unrelayed.faithful h.1
  | sendDohRequest => exact Unrelayed.faithful h.1
  | awaitDohResponse => exact Unrelayed.faithful h.1
  | sendRequestLine => exact Announcing.faithful h
  | connected => exact Relaying.faithful h
  | closing => exact Relaying.faithful h
  | emptyBuffers => exact Relaying.faithful h
  | done => exact absurd h id
  | error => exact Refusing.faithful h

end

end HttpdProxy
