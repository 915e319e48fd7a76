import HttpdProxy.Proofs.Aborts
import HttpdProxy.Proofs.Capacity

/-!
# No store leaves the memory of a buffer

Five texts are stored into the buffers of a connection: what `read` brings,
the reply to a CONNECT, the error reply, and, once an attempt at a socket has
succeeded, a DoH request or a request line. Where a buffer is as long as its
memory, the first fits the room it was read into and the next two fit an empty
buffer. Nothing in the code looks at the length of the last two: they fit if
they are no longer than the room that is left (`TextFits`).
-/

namespace HttpdProxy

open Lib (Avoids avoids_ok avoids_error avoids_bind avoids_ite)

/-! ## Stores that fit -/

section

variable {b : Buffer} {bs : Bytes}

theorem append_ok (hb : b.limit = b.alloc) (h : bs.length ≤ b.room) :
    ∃ b', bufferAppend b bs = .ok b' := by
  have hw := b.write_le
  have hle : b.write + bs.length ≤ b.limit := by
    unfold Buffer.room at h
    omega
  exact ⟨_, Lib.bind_eq_ok.mpr ⟨_, if_pos (by rw [← hb]; exact hle), dif_pos hle⟩⟩

theorem append_fits (hb : b.limit = b.alloc) (h : bs.length ≤ b.room) :
    Avoids .overrun (bufferAppend b bs) := by
  obtain ⟨b', hb'⟩ := append_ok hb h
  rw [hb']
  exact avoids_ok _ _

theorem append_overrun (hb : b.limit = b.alloc) (h : b.room < bs.length) :
    bufferAppend b bs = .error .overrun := by
  have hgt : ¬ b.write + bs.length ≤ b.alloc := by
    unfold Buffer.room at h
    omega
  rw [bufferAppend, bufferStore, if_neg hgt]
  rfl

/-- A text printed into an empty buffer. -/
theorem print_ok (hb : b.limit = b.alloc) (h : bs.length < b.limit) :
    ∃ b', bufferPrint (bufferReset b) bs = .ok b' := by
  have hstore : (bufferReset b).write + (bs ++ [0]).length ≤ (bufferReset b).alloc := by
    change 0 + _ ≤ b.alloc
    rw [List.length_append, List.length_singleton, ← hb]
    omega
  have hadv : (bufferReset b).write + bs.length ≤ (bufferReset b).limit := by
    change 0 + _ ≤ b.limit
    omega
  exact ⟨_, Lib.bind_eq_ok.mpr ⟨_, if_pos hstore, dif_pos hadv⟩⟩

theorem print_fits (hb : b.limit = b.alloc) (h : bs.length < b.limit) :
    Avoids .overrun (bufferPrint (bufferReset b) bs) := by
  obtain ⟨b', hb'⟩ := print_ok hb h
  rw [hb']
  exact avoids_ok _ _

theorem readInto_length {env : Env} (h : readInto env b = some bs) : bs.length ≤ b.room := by
  obtain ⟨recv, -, rfl⟩ := Option.map_eq_some_iff.mp h
  exact List.length_take_le _ _

theorem errorReply_length (e : Option Errors) : (errorReply e).length < bufferSize := by
  cases e with
  | none => decide +kernel
  | some e => cases e <;> decide +kernel

end

/-! ## Which handlers ask for a text -/

/-- The states a socket that was asked for leads to. -/
def ConnState.asked (s : ConnState) : Prop := s = .tryConnectionIp ∨ s = .error

/-- A handler goes where no request is stored, or stays in its state. -/
def Plain (r : ConnState × Ctx) : Prop :=
  (r.1 ≠ .sendDohRequest ∧ r.1 ≠ .sendRequestLine) ∨ r.1 = r.2.conn.stmState

theorem Plain.of_asked {s : ConnState} {x : Ctx} (h : s.asked) : Plain (s, x) := by
  rcases h with rfl | rfl <;> exact .inl ⟨by simp, by simp⟩

section

variable {x : Ctx} {env : Env}

theorem registerOrFail_next : (registerOrFail x).1.asked := by
  unfold registerOrFail
  dsimp only
  split
  · exact .inr rfl
  · exact .inl rfl

theorem handleOriginDohConnection_next : (handleOriginDohConnection env x).1.asked := by
  unfold handleOriginDohConnection
  dsimp only
  split
  · exact .inr rfl
  · exact registerOrFail_next

theorem handleOriginIpConnection_next : (handleOriginIpConnection env x).1.asked := by
  unfold handleOriginIpConnection
  dsimp only
  split
  · exact .inr rfl
  · exact registerOrFail_next

theorem requestDone_next (key : SelectorKey) : (requestDone env key x).1.asked := by
  have hnext : (if x.conn.requestParser.request.requestTarget.hostType = .domain then
      handleOriginDohConnection env x else handleOriginIpConnection env x).1.asked := by
    split
    · exact handleOriginDohConnection_next
    · exact handleOriginIpConnection_next
  unfold requestDone
  dsimp only
  generalize (if x.conn.requestParser.request.requestTarget.hostType = .domain then
    handleOriginDohConnection env x else handleOriginIpConnection env x) = r at hnext ⊢
  split <;> exact hnext

/-- Where a loop is left for a state, it is one of these. -/
abbrev LeavesAsked (m : Except Fault (Lib.Round Ctx (Option ConnState × Ctx))) : Prop :=
  Lib.Returns m (Lib.Round.Post (fun _ => True) fun r => ∀ n, r.1 = some n → n.asked)

theorem loop_next {body : Ctx → Except Fault (Lib.Round Ctx (Option ConnState × Ctx))}
    (hbody : ∀ y, LeavesAsked (body y)) (fuel : Nat) :
    Lib.Returns (Lib.loop .noReturn body fuel x) fun r => ∀ n, r.1 = some n → n.asked :=
  Lib.returns_loop (fun _ => True) (fun y _ => hbody y) fuel x trivial

theorem tryNextRound_next (type : UInt16) (addrOf : UInt16 → Answer → Sockaddr) :
    LeavesAsked (tryNextRound env type addrOf x) := by
  unfold tryNextRound
  split
  · exact Lib.returns_error _
  · split
    · refine Lib.returns_bind_any fun a => ?_
      dsimp only
      split
      · exact Lib.returns_ok trivial
      · split
        · exact Lib.returns_ok trivial
        · refine Lib.returns_ok fun n hn => ?_
          cases hn
          exact registerOrFail_next
    · exact Lib.returns_ok fun n hn => by cases hn

theorem tryNextDnsConnection_next :
    Lib.Returns (tryNextDnsConnection env x) fun r => r.1.asked := by
  unfold tryNextDnsConnection
  refine Lib.returns_bind_any fun u => ?_
  refine Lib.returns_bind_any fun c => ?_
  dsimp only
  split
  · exact Lib.returns_ok (.inr rfl)
  · split
    · exact Lib.returns_error _
    · split
      · split
        · unfold tryNextIpv4Connection
          refine Lib.returns_bind (loop_next (fun y => tryNextRound_next _ _) _) fun r hr => ?_
          dsimp only
          split
          · next n hn => exact Lib.returns_ok (hr n hn)
          · split
            · exact Lib.returns_error _
            · exact Lib.returns_ok handleOriginDohConnection_next
        · exact Lib.returns_ok handleOriginDohConnection_next
      · split
        · exact Lib.returns_ok (.inr rfl)
        · unfold tryNextIpv6Connection
          refine Lib.returns_bind (loop_next (fun y => tryNextRound_next _ _) _) fun r hr => ?_
          dsimp only
          split
          · next n hn => exact Lib.returns_ok (hr n hn)
          · exact Lib.returns_ok (.inr rfl)

theorem parsingHostRound_next (key : SelectorKey) :
    LeavesAsked (parsingHostRound env key x) := by
  unfold parsingHostRound
  split
  · refine Lib.returns_bind_any fun r => ?_
    dsimp only
    split
    · refine Lib.returns_ok fun n hn => ?_
      cases hn
      exact .inr rfl
    · split
      · refine Lib.returns_ok fun n hn => ?_
        cases hn
        exact requestDone_next key
      · exact Lib.returns_ok trivial
  · exact Lib.returns_ok fun n hn => by cases hn

theorem awaitDohResponseRound_next : LeavesAsked (awaitDohResponseRound env x) := by
  have hfailed : ∀ y : Ctx, LeavesAsked (.ok (.leave (some .error, y))) :=
    fun y => Lib.returns_ok fun n hn => Option.some.inj hn ▸ .inr rfl
  unfold awaitDohResponseRound
  split
  · split
    · exact Lib.returns_error _
    · split
      · refine Lib.returns_bind_any fun r => ?_
        dsimp only
        split
        · exact hfailed _
        · exact Lib.returns_ok trivial
      · split
        · refine Lib.returns_bind_any fun r => ?_
          dsimp only
          split
          · exact hfailed _
          · exact Lib.returns_ok trivial
        · split
          · refine Lib.returns_bind_any fun r => ?_
            dsimp only
            split
            · exact hfailed _
            · exact hfailed _
            · split
              · exact hfailed _
              · refine Lib.returns_bind_any fun u => ?_
                refine Lib.returns_bind_any fun c => ?_
                refine Lib.returns_ok fun n hn => ?_
                cases hn
                exact handleOriginDohConnection_next
            · exact Lib.returns_ok fun n hn => by cases hn
            · exact Lib.returns_ok trivial
          · exact Lib.returns_ok trivial
  · exact Lib.returns_ok fun n hn => by cases hn

theorem onReadReady_plain (key : SelectorKey) (s : ConnState) :
    Lib.Returns (onReadReady env key s x) Plain := by
  cases s with
  | parsingRequestLine =>
      change Lib.Returns (parsingHostOnReadReady env key x) Plain
      unfold parsingHostOnReadReady
      refine Lib.returns_bind (loop_next (fun y => parsingHostRound_next key) _) fun r hr => ?_
      obtain ⟨ret, y⟩ := r
      refine Lib.returns_ok ?_
      cases ret with
      | none => exact .inr rfl
      | some n => exact .of_asked (hr n rfl)
  | awaitDohResponse =>
      change Lib.Returns (awaitDohResponseOnReadReady env x) Plain
      unfold awaitDohResponseOnReadReady
      split
      · exact Lib.returns_ok (.of_asked (.inr rfl))
      · refine Lib.returns_bind (loop_next (fun y => awaitDohResponseRound_next) _) fun r hr => ?_
        obtain ⟨ret, y⟩ := r
        cases ret with
        | some n => exact Lib.returns_ok (.of_asked (hr n rfl))
        | none =>
            dsimp only
            split
            · exact Lib.Returns.mono tryNextDnsConnection_next fun r hr => .of_asked hr
            · exact Lib.returns_ok (.inr rfl)
  | connected =>
      change Lib.Returns (connectedOnReadReady key x) Plain
      unfold connectedOnReadReady
      dsimp only
      split
      · exact Lib.returns_ok (.inl ⟨by simp, by simp⟩)
      · exact Lib.returns_ok (.inr rfl)
  | closing =>
      change Lib.Returns (closingOnReadReady key x) Plain
      unfold closingOnReadReady
      dsimp only
      generalize (if key.fd = x.conn.clientFd then (Side.origin, x.conn.clientStatus)
        else (.client, x.conn.originStatus)) = ends
      split
      · split <;> exact Lib.returns_ok (.inl ⟨by simp, by simp⟩)
      · exact Lib.returns_ok (.inr (by
          simp [setClosingConnectionInterests, Conn.stmState]))
  | tryConnectionIp | sendDohRequest | sendRequestLine | emptyBuffers | done | error =>
      exact Lib.returns_error _

theorem onDrained_plain {next : ConnState} (h : next ≠ .sendDohRequest ∧ next ≠ .sendRequestLine) :
    Lib.Returns (onDrained next x) Plain := by
  unfold onDrained
  split
  · exact Lib.returns_ok (.inl h)
  · exact Lib.returns_ok (.inr rfl)

theorem onWriteReady_plain {s : ConnState} (h : s ≠ .tryConnectionIp ∨ env.connected = false) :
    Lib.Returns (onWriteReady env s x) Plain := by
  cases s with
  | tryConnectionIp =>
      have hno := h.resolve_left fun hne => hne rfl
      change Lib.Returns (tryConnectionIpOnWriteReady env x) Plain
      unfold tryConnectionIpOnWriteReady
      rw [if_neg (by rw [hno]; simp)]
      dsimp only
      split
      · exact Lib.Returns.mono tryNextDnsConnection_next fun r hr => .of_asked hr
      · exact Lib.returns_ok (.of_asked (.inr rfl))
  | sendDohRequest => exact onDrained_plain ⟨by simp, by simp⟩
  | sendRequestLine => exact onDrained_plain ⟨by simp, by simp⟩
  | error => exact onDrained_plain ⟨by simp, by simp⟩
  | connected => exact Lib.returns_ok (.inr rfl)
  | closing =>
      exact Lib.returns_ok (.inr (by simp [setClosingConnectionInterests, Conn.stmState]))
  | emptyBuffers =>
      change Lib.Returns (emptyBuffersOnWriteReady x) Plain
      unfold emptyBuffersOnWriteReady
      dsimp only
      split
      · exact Lib.returns_ok (.inl ⟨by simp, by simp⟩)
      · exact Lib.returns_ok (.inr rfl)
  | parsingRequestLine | awaitDohResponse | done => exact Lib.returns_error _

end

/-! ## The lengths of the texts -/

/-- How long a DoH request is: the fixed lines, the path and the host, the
digits of the content length, and the message with the name in it. -/
def dohRequestLength (d : DohUtils) (domain : Bytes) : Nat :=
  let text := cstr domain
  let ending := if getInt domain (text.length - 1 : Int) ≠ chr '.' then 2 else 1
  let message := 16 + min (text.length + ending) maxQueryLength
  116 + d.path.length + d.host.length + (decimal (message % 256)).length + message

theorem dohQueryGo_length (text : Bytes) : ∀ (query : Bytes) (label : Nat) (count : UInt8)
    (j : Nat), (dohQueryGo text query label count j).1.length = query.length ∧
      (dohQueryGo text query label count j).2.2.2 = text.length + j := by
  induction text with
  | nil => exact fun query label count j => ⟨rfl, (Nat.zero_add j).symm⟩
  | cons c rest ih =>
      intro query label count j
      unfold dohQueryGo
      split
      · obtain ⟨hlen, hj⟩ := ih (query.set j c) label (count + 1) (j + 1)
        exact ⟨hlen.trans List.length_set, by rw [hj, List.length_cons]; omega⟩
      · obtain ⟨hlen, hj⟩ := ih (query.set label count) j 0 (j + 1)
        exact ⟨hlen.trans List.length_set, by rw [hj, List.length_cons]; omega⟩

theorem dohQuery_length (domain : Bytes) : (dohQuery domain).length =
    min ((cstr domain).length +
      if getInt domain ((cstr domain).length - 1 : Int) ≠ chr '.' then 2 else 1)
      maxQueryLength := by
  obtain ⟨hlen, hj⟩ := dohQueryGo_length (cstr domain) (List.replicate maxQueryLength 0) 0 0 1
  rw [List.length_replicate] at hlen
  unfold dohQuery
  dsimp only
  split
  · rw [List.length_take, List.length_set, List.length_set, hlen, hj]
  · rw [List.length_take, List.length_set, hlen, hj]

theorem buildDohRequest_length (d : DohUtils) (domain : Bytes) (queryType : UInt8) :
    (buildDohRequest d domain queryType).length = dohRequestLength d domain := by
  have hfixed : (ascii "POST ").length = 5 ∧ (ascii " HTTP/1.0\r\n").length = 11 ∧
      (ascii "Host: ").length = 6 ∧ (ascii "\r\n").length = 2 ∧
      (ascii "accept: application/dns-message\r\n").length = 33 ∧
      (ascii "content-type: application/dns-message\r\n").length = 39 ∧
      (ascii "content-length: ").length = 16 ∧ (ascii "\r\n\r\n").length = 4 ∧
      dnsRequestHeader.length = 12 := by decide +kernel
  obtain ⟨h1, h2, h3, h4, h5, h6, h7, h8, h9⟩ := hfixed
  unfold buildDohRequest dohRequestLength
  simp only [List.length_append, h1, h2, h3, h4, h5, h6, h7, h8, h9, dohQuery_length,
    List.length_cons, List.length_nil, UInt8.toNat_ofNat', Nat.toUInt8_eq]
  generalize min _ maxQueryLength = q
  rw [show 12 + q + 4 = 16 + q by omega, show 2 ^ 8 = 256 by rfl]
  omega

namespace Conn

/-- How many bytes a connection stores for its origin once the attempt at a
socket has succeeded: a query, a request line, or neither for a CONNECT. -/
def textLength (d : DohUtils) (c : Conn) : Nat :=
  if c.awaitsQuery then dohRequestLength d c.connectionRequest.host.text
  else if c.connectionRequest.connect then 0
  else c.connectionRequest.requestLine.length

/-- The origin buffer as the write handler of an item hands it on. -/
def originLeft (env : Env) (c : Conn) : FdHandler → Option Buffer
  | .origin => some c.originBuffer
  | .client =>
      match sendFrom env c.originBuffer with
      | none | some 0 => none
      | some n => (bufferReadAdv c.originBuffer n).toOption
  | _ => none

end Conn

/-- Where the event finds the attempt at a socket successful, what is stored
for the origin is no longer than the room its buffer has left. -/
def TextFits (w : World) : Event → Prop
  | .writable fd env =>
      ∀ it id c b, w.sel.fds fd = some it → it.interest.write = true →
        it.data = .connection id → w.heap id = .live c → c.stmState = .tryConnectionIp →
        env.connected = true → c.originLeft env it.handler = some b →
        c.textLength w.dohUtils ≤ b.room
  | _ => True

/-! ## Arrivals -/

/-- The text an arrival stores behind what the origin buffer holds. -/
def Ctx.arrivalText (x : Ctx) : ConnState → Bytes
  | .sendDohRequest =>
      buildDohRequest x.world.dohUtils x.conn.connectionRequest.host.text (queryType x.conn)
  | .sendRequestLine => x.conn.connectionRequest.requestLine
  | _ => []

section

variable {x : Ctx} {env : Env}

theorem onArrival_fits {s : ConnState} (hsize : x.conn.sizes = fullSizes)
    (htext : (x.arrivalText s).length ≤ x.conn.originBuffer.room) :
    Avoids .overrun (onArrival env s x) := by
  obtain ⟨-, hlimit, halloc⟩ := Conn.full_iff.mp hsize
  have hb := hlimit.trans halloc.symm
  cases s with
  | sendDohRequest => exact avoids_bind (append_fits hb htext) fun _ _ => avoids_ok _ _
  | sendRequestLine => exact avoids_bind (append_fits hb htext) fun _ _ => avoids_ok _ _
  | done => exact doneOnArrival_quiet rfl
  | error =>
      have hprint : Avoids .overrun
          (bufferPrint (bufferReset x.conn.originBuffer) (errorReply x.conn.error)) :=
        print_fits hb (by rw [hlimit]; exact errorReply_length _)
      refine avoids_bind (avoids_bind hprint fun _ _ => avoids_ok _ _) fun c _ => ?_
      dsimp only
      exact avoids_ite (avoids_ok _ _) (avoids_ok _ _)
  | parsingRequestLine | tryConnectionIp | awaitDohResponse | connected | closing
  | emptyBuffers => exact avoids_ok _ _

/-- A jump stores what fits, where it does not stay. -/
theorem jump_fits {next : ConnState} (hsize : x.conn.sizes = fullSizes)
    (htext : Plain (next, x) ∨ (x.arrivalText next).length ≤ x.conn.originBuffer.room) :
    Avoids .overrun (jump env next x) := by
  unfold jump
  refine avoids_bind (deref_quiet rfl) fun c hc => ?_
  split
  · next hne =>
      have hconn : c = x.conn := by
        unfold Ctx.deref at hc
        split at hc
        · cases hc
        · exact (Except.ok.inj hc).symm
      refine onArrival_fits hsize ?_
      rcases htext with (⟨hdoh, hline⟩ | hstay) | hfit
      · cases next <;> first | exact Nat.zero_le _ | exact absurd rfl hdoh | exact absurd rfl hline
      · have hstay : next = x.conn.stmState := hstay
        cases next with
        | sendDohRequest | sendRequestLine =>
            refine absurd ?_ hne
            rw [hconn]
            exact Conn.current_of_stmState (by simp) hstay
        | _ => exact Nat.zero_le _
      · exact hfit
  · exact avoids_ok _ _

theorem handleFirst_sizes {y : Ctx} (h : handleFirst env x = .ok y) : y.conn.sizes = x.conn.sizes :=
  (handleFirst_respects (sameSizes_stable _) y h).conn

theorem handleFirst_fits : Avoids .overrun (handleFirst env x) := by
  unfold handleFirst
  split <;> exact avoids_ok _ _

theorem onReadReady_fits (key : SelectorKey) (s : ConnState) :
    Avoids .overrun (onReadReady env key s x) := by
  cases s with
  | parsingRequestLine => exact parsingHostOnReadReady_quiet rfl key
  | awaitDohResponse => exact awaitDohResponseOnReadReady_quiet rfl
  | connected =>
      change Avoids .overrun (connectedOnReadReady key x)
      unfold connectedOnReadReady
      dsimp only
      exact avoids_ite (avoids_ok _ _) (avoids_ok _ _)
  | closing =>
      change Avoids .overrun (closingOnReadReady key x)
      unfold closingOnReadReady
      dsimp only
      generalize (if key.fd = x.conn.clientFd then (Side.origin, x.conn.clientStatus)
        else (.client, x.conn.originStatus)) = ends
      exact avoids_ite (avoids_ite (avoids_ok _ _) (avoids_ok _ _)) (avoids_ok _ _)
  | tryConnectionIp | sendDohRequest | sendRequestLine | emptyBuffers | done | error =>
      exact avoids_error (by decide)

/-- The reply to a CONNECT aside, which is printed where an attempt has
succeeded, no write handler stores anything. -/
theorem onWriteReady_fits {s : ConnState} (h : s ≠ .tryConnectionIp ∨ env.connected = false) :
    Avoids .overrun (onWriteReady env s x) := by
  have hdrained : ∀ next, Avoids .overrun (onDrained next x) :=
    fun next => avoids_ite (avoids_ok _ _) (avoids_ok _ _)
  cases s with
  | tryConnectionIp =>
      have hno := h.resolve_left fun hne => hne rfl
      change Avoids .overrun (tryConnectionIpOnWriteReady env x)
      unfold tryConnectionIpOnWriteReady
      rw [if_neg (by rw [hno]; simp)]
      exact avoids_ite (tryNextDnsConnection_quiet rfl) (avoids_ok _ _)
  | sendDohRequest | sendRequestLine | error => exact hdrained _
  | connected | closing => exact avoids_ok _ _
  | emptyBuffers => exact avoids_ite (avoids_ok _ _) (avoids_ok _ _)
  | parsingRequestLine | awaitDohResponse | done => exact avoids_error (by decide)

theorem stmHandlerRead_fits (key : SelectorKey) (hsize : x.conn.sizes = fullSizes) :
    Avoids .overrun (stmHandlerRead env key x) := by
  unfold stmHandlerRead
  refine avoids_bind handleFirst_fits fun y hy => ?_
  have hsizey := (handleFirst_sizes hy).trans hsize
  refine avoids_bind (onReadReady_fits key _) fun r hr => ?_
  have hkeep : r.2.conn.sizes = y.conn.sizes :=
    (onReadReady_respects (sameSizes_stable _) key y.conn.stmState r hr).conn
  exact jump_fits (hkeep.trans hsizey) (.inl (onReadReady_plain key _ r hr))

end

/-! ## The attempt that has succeeded -/

section

variable {x : Ctx} {env : Env}

/-- Once the attempt at a socket has succeeded, the text goes behind what the
origin buffer holds. -/
theorem tryConnectionIp_connected (hsize : x.conn.sizes = fullSizes)
    (hconnected : env.connected = true) :
    ∃ next y, tryConnectionIpOnWriteReady env x = .ok (next, y) ∧
      next ≠ .tryConnectionIp ∧ y.conn.current = x.conn.current ∧ y.freed = x.freed ∧
      (y.arrivalText next).length = x.conn.textLength x.world.dohUtils ∧
      (x.conn.textLength x.world.dohUtils = 0 ∨ y.conn.originBuffer = x.conn.originBuffer) := by
  unfold tryConnectionIpOnWriteReady Conn.textLength
  rw [if_pos hconnected]
  by_cases hquery : x.conn.awaitsQuery = true
  · rw [if_pos hquery, if_pos hquery]
    exact ⟨.sendDohRequest, x, rfl, by simp, rfl, rfl, buildDohRequest_length _ _ _, .inr rfl⟩
  · rw [if_neg hquery, if_neg hquery]
    dsimp only
    have hreq : ((x.setMetrics registerNewConnection).log .registered).conn.connectionRequest
        = x.conn.connectionRequest := rfl
    rw [hreq]
    by_cases hconnect : x.conn.connectionRequest.connect = true
    · rw [if_pos hconnect, if_pos hconnect]
      obtain ⟨-, hlimit, halloc⟩ := Conn.full_iff.mp hsize
      have hroom : connectReply.length < x.conn.originBuffer.limit := by
        rw [hlimit]
        decide +kernel
      obtain ⟨b, hb⟩ := print_ok (hlimit.trans halloc.symm) hroom
      exact ⟨.connected, _, Lib.bind_eq_ok.mpr ⟨b, hb, rfl⟩, by simp, rfl, rfl, rfl, .inl rfl⟩
    · rw [if_neg hconnect, if_neg hconnect]
      exact ⟨.sendRequestLine, _, rfl, by simp, rfl, rfl, rfl, .inr rfl⟩

/-- A text that is longer than the room is stored outside. -/
theorem jump_overrun {next : ConnState} (hsize : x.conn.sizes = fullSizes)
    (halive : x.freed = false) (hcur : x.conn.current ≠ some next)
    (hlong : x.conn.originBuffer.room < (x.arrivalText next).length) :
    jump env next x = .error .overrun := by
  obtain ⟨-, hlimit, halloc⟩ := Conn.full_iff.mp hsize
  have hb := hlimit.trans halloc.symm
  have hderef : x.deref = .ok x.conn := by rw [Ctx.deref, halive]; rfl
  rw [jump, hderef]
  change (if x.conn.current ≠ some next then arriveAt env next x else .ok x) = _
  rw [if_pos hcur]
  cases next with
  | sendDohRequest =>
      have hover := append_overrun hb hlong
      change (bufferAppend x.conn.originBuffer (x.arrivalText .sendDohRequest) >>= _) = _
      rw [hover]
      rfl
  | sendRequestLine =>
      have hover := append_overrun hb hlong
      change (bufferAppend x.conn.originBuffer (x.arrivalText .sendRequestLine) >>= _) = _
      rw [hover]
      rfl
  | _ => exact absurd hlong (Nat.not_lt_zero _)

/-- The one store of the write handlers that can leave the memory. -/
theorem stmHandlerWrite_overrun_iff (hsize : x.conn.sizes = fullSizes)
    (halive : x.freed = false) :
    stmHandlerWrite env x = .error .overrun ↔
      x.conn.stmState = .tryConnectionIp ∧ env.connected = true ∧
        x.conn.originBuffer.room < x.conn.textLength x.world.dohUtils := by
  by_cases htry : x.conn.stmState = .tryConnectionIp ∧ env.connected = true
  · obtain ⟨hstate, hconnected⟩ := htry
    have hcur := Conn.current_of_stmState (by simp) hstate.symm
    obtain ⟨next, y, hready, hnext, hkeep, hfreed, htext, hbuffer⟩ :=
      tryConnectionIp_connected hsize hconnected
    have hsizey : y.conn.sizes = fullSizes :=
      (tryConnectionIpOnWriteReady_respects (sameSizes_stable _) _ hready).conn.trans hsize
    have hcury : y.conn.current ≠ some next := by
      rw [hkeep, hcur]
      exact fun he => hnext (Option.some.inj he).symm
    have hrun : stmHandlerWrite env x = jump env next y := by
      have hfirst : handleFirst env x = .ok x := if_neg (by rw [hcur]; simp)
      have hwrite : onWriteReady env x.conn.stmState x = .ok (next, y) := by
        rw [hstate]
        exact hready
      rw [stmHandlerWrite, hfirst]
      change (onWriteReady env x.conn.stmState x >>= fun r => jump env r.1 r.2) = _
      rw [hwrite]
      rfl
    rw [hrun]
    constructor
    · intro hover
      refine ⟨hstate, hconnected, Nat.lt_of_not_le fun hfit => ?_⟩
      refine jump_fits hsizey (.inr ?_) hover
      rcases hbuffer with hzero | hsame
      · rw [htext, hzero]
        exact Nat.zero_le _
      · rw [htext, hsame]
        exact hfit
    · rintro ⟨-, -, hlong⟩
      refine jump_overrun hsizey (hfreed.trans halive) hcury ?_
      have hsame := hbuffer.resolve_left (by omega)
      rw [htext, hsame]
      exact hlong
  · refine iff_of_false ?_ fun h => htry ⟨h.1, h.2.1⟩
    refine avoids_bind handleFirst_fits fun y hy => ?_
    have hsizey := (handleFirst_sizes hy).trans hsize
    have hplain : y.conn.stmState ≠ .tryConnectionIp ∨ env.connected = false := by
      rw [handleFirst_stmState hy]
      by_cases hs : x.conn.stmState = .tryConnectionIp
      · exact .inr (Bool.eq_false_iff.mpr fun hc => htry ⟨hs, hc⟩)
      · exact .inl hs
    refine avoids_bind (onWriteReady_fits hplain) fun r hr => ?_
    have hkeep : r.2.conn.sizes = y.conn.sizes :=
      (onWriteReady_respects (sameSizes_stable _) y.conn.stmState r hr).conn
    exact jump_fits (hkeep.trans hsizey) (.inl (onWriteReady_plain hplain r hr))

end

/-! ## The handlers of the sockets -/

section

variable {x : Ctx} {env : Env}

theorem proxyClientRead_fits (key : SelectorKey) (hsize : x.conn.sizes = fullSizes) :
    Avoids .overrun (proxyClientRead env key x) := by
  obtain ⟨⟨hlimit, halloc⟩, -⟩ := Conn.full_iff.mp hsize
  unfold proxyClientRead
  dsimp only
  split
  · exact closeProxyConnection_quiet rfl
  · exact avoids_ite (closeProxyConnection_quiet rfl) (stmHandlerRead_fits key hsize)
  · next bs _ hread =>
      have hfit := append_fits (hlimit.trans halloc.symm) (readInto_length hread)
      refine avoids_bind hfit fun b hb => stmHandlerRead_fits key ?_
      have hkeep : (x.touch.conn.fromClient bs b).sizes = x.conn.sizes :=
        setBuffers_sizes (append_size hb) rfl
      exact hkeep.trans hsize

theorem proxyOriginRead_fits (key : SelectorKey) (hsize : x.conn.sizes = fullSizes) :
    Avoids .overrun (proxyOriginRead env key x) := by
  obtain ⟨-, hlimit, halloc⟩ := Conn.full_iff.mp hsize
  unfold proxyOriginRead
  dsimp only
  split
  · exact closeProxyConnection_quiet rfl
  · exact stmHandlerRead_fits key hsize
  · next bs _ hread =>
      have hfit := append_fits (hlimit.trans halloc.symm) (readInto_length hread)
      refine avoids_bind hfit fun b hb => stmHandlerRead_fits key ?_
      have hkeep : (x.touch.conn.fromOrigin bs b).sizes = x.conn.sizes :=
        setBuffers_sizes rfl (append_size hb)
      exact hkeep.trans hsize

/-- A write handler leaves the memory where the attempt at the socket has
succeeded and the text is longer than the room that is left. -/
def Ctx.Overruns (env : Env) (x : Ctx) (h : FdHandler) : Prop :=
  x.conn.stmState = .tryConnectionIp ∧ env.connected = true ∧
    ∃ b, x.conn.originLeft env h = some b ∧ b.room < x.conn.textLength x.world.dohUtils

theorem proxyClientWrite_overrun_iff (hsize : x.conn.sizes = fullSizes)
    (halive : x.freed = false) :
    proxyClientWrite env x = .error .overrun ↔ x.Overruns env .client := by
  have htouch : x.touch.conn.originBuffer = x.conn.originBuffer := rfl
  unfold proxyClientWrite Ctx.Overruns Conn.originLeft
  dsimp only
  rw [htouch]
  rcases sendFrom env x.conn.originBuffer with _ | _ | n
  · exact iff_of_false (closeProxyConnection_quiet rfl) (by simp)
  · exact iff_of_false (closeProxyConnection_quiet rfl) (by simp)
  · change (bufferReadAdv x.conn.originBuffer (n + 1) >>= fun b => stmHandlerWrite env
        ((x.touch.setMetrics (increaseBytesReceived (n + 1))).setConn
          (x.touch.conn.toClient (x.conn.originBuffer.unread.take (n + 1)) b))) = _ ↔
      _ ∧ _ ∧ ∃ b, (bufferReadAdv x.conn.originBuffer (n + 1)).toOption = some b ∧ _
    have hquiet := bufferReadAdv_quiet (f := .overrun) rfl x.conn.originBuffer (n + 1)
    cases hadv : bufferReadAdv x.conn.originBuffer (n + 1) with
    | error f =>
        rw [hadv] at hquiet
        exact iff_of_false (avoids_bind hquiet fun _ hb => by cases hb)
          (by simp [Except.toOption])
    | ok b =>
        have hkeep : (x.touch.conn.toClient (x.conn.originBuffer.unread.take (n + 1)) b).sizes
            = x.conn.sizes := setBuffers_sizes rfl (readAdv_size hadv)
        refine Iff.trans (stmHandlerWrite_overrun_iff
          (x := (x.touch.setMetrics _).setConn (x.touch.conn.toClient _ b))
          (hkeep.trans hsize) halive) ?_
        simp only [Except.toOption, Option.some.injEq, exists_eq_left']
        rfl

theorem proxyOriginWrite_overrun_iff (hsize : x.conn.sizes = fullSizes)
    (halive : x.freed = false) :
    proxyOriginWrite env x = .error .overrun ↔ x.Overruns env .origin := by
  have hno : ∀ (f : Metrics → Metrics) (c : Conn), c.sizes = fullSizes →
      c.stmState ≠ .tryConnectionIp →
      stmHandlerWrite env ((x.touch.setMetrics f).setConn c) ≠ .error .overrun := by
    intro f c hc hs hover
    exact hs ((stmHandlerWrite_overrun_iff
      (x := (x.touch.setMetrics f).setConn c) hc halive).mp hover).1
  unfold proxyOriginWrite
  dsimp only
  by_cases hstate : x.conn.stmState = .tryConnectionIp
  · rw [if_pos (show x.touch.conn.stmState = .tryConnectionIp from hstate)]
    refine Iff.trans (stmHandlerWrite_overrun_iff (x := x.touch) hsize halive) ?_
    simp only [Ctx.Overruns, Conn.originLeft, Option.some.injEq, exists_eq_left']
    rfl
  · rw [if_neg (show ¬ x.touch.conn.stmState = .tryConnectionIp from hstate)]
    refine iff_of_false ?_ fun h => hstate h.1
    split
    · split
      · exact closeProxyConnection_quiet rfl
      · exact closeProxyConnection_quiet rfl
      · refine avoids_bind (bufferReadAdv_quiet rfl _ _) fun b hb => hno _ _ ?_ hstate
        have hkeep : ∀ bs, (x.touch.conn.requestToOrigin bs b).sizes = x.conn.sizes :=
          fun bs => setBuffers_sizes rfl (readAdv_size hb)
        exact (hkeep _).trans hsize
    · split
      · exact closeProxyConnection_quiet rfl
      · exact closeProxyConnection_quiet rfl
      · refine avoids_bind (bufferReadAdv_quiet rfl _ _) fun b hb => hno _ _ ?_ hstate
        have hkeep : ∀ bs, (x.touch.conn.toOrigin bs b).sizes = x.conn.sizes :=
          fun bs => setBuffers_sizes (readAdv_size hb) rfl
        exact (hkeep _).trans hsize

end

/-! ## The daemon -/

section

variable {w : World}

theorem onBehalfOf_fits {id : Nat} {f : Ctx → Except Fault Ctx} (hfull : w.Full)
    (hf : ∀ x : Ctx, x.conn.sizes = fullSizes → Avoids .overrun (f x)) :
    Avoids .overrun (onBehalfOf w id f) := by
  unfold onBehalfOf
  split
  · next c hc => exact avoids_bind (hf _ (hfull.conn hc)) fun _ _ => avoids_ok _ _
  · exact avoids_error (by decide)

theorem handleRead_fits {env : Env} {fd : Int} {it : Item} (hfull : w.Full) :
    Avoids .overrun (handleRead env fd it w) := by
  unfold handleRead
  split
  · exact avoids_ok _ _
  · exact avoids_ok _ _
  · exact onBehalfOf_fits hfull fun x hx => proxyClientRead_fits _ hx
  · exact onBehalfOf_fits hfull fun x hx => proxyOriginRead_fits _ hx
  · exact avoids_error (by decide)
  · exact avoids_error (by decide)
  · exact avoids_error (by decide)

/-- On behalf of a connection that is there, a handler overruns where it does
by itself. -/
theorem onBehalfOf_overrun_iff {id : Nat} {f : Ctx → Except Fault Ctx} :
    onBehalfOf w id f = .error .overrun ↔
      ∃ c, w.heap id = .live c ∧ f (w.ctx id c) = .error .overrun := by
  unfold onBehalfOf
  split
  · next c hc =>
      rw [hc]
      change (f (w.ctx id c) >>= _) = _ ↔ _
      cases hrun : f (w.ctx id c) with
      | ok y => exact iff_of_false (avoids_ok _ _) fun ⟨d, hd, hf⟩ => by cases hd; cases hrun ▸ hf
      | error e =>
          refine ⟨fun h => ⟨c, rfl, hrun.trans (congrArg _ (Except.error.inj h))⟩, ?_⟩
          rintro ⟨d, hd, hf⟩
          cases hd
          exact congrArg _ (Except.error.inj (hrun.symm.trans hf))
  · next hno =>
      refine iff_of_false (avoids_error (by decide)) ?_
      rintro ⟨c, hc, -⟩
      exact hno c hc

theorem handleWrite_overrun_iff {env : Env} {it : Item} (hfull : w.Full) :
    handleWrite env it w = .error .overrun ↔
      ∃ id c, it.data = .connection id ∧ w.heap id = .live c ∧
        (w.ctx id c).Overruns env it.handler := by
  have hown : ∀ {id : Nat} {h : FdHandler} {f : Ctx → Except Fault Ctx},
      (∀ x : Ctx, x.conn.sizes = fullSizes → x.freed = false →
        (f x = .error .overrun ↔ x.Overruns env h)) →
      (onBehalfOf w id f = .error .overrun ↔ ∃ j c, Attachment.connection id = .connection j ∧
        w.heap j = .live c ∧ (w.ctx j c).Overruns env h) := by
    intro id h f hf
    rw [onBehalfOf_overrun_iff]
    constructor
    · rintro ⟨c, hc, hover⟩
      exact ⟨id, c, rfl, hc, (hf _ (hfull.conn hc) rfl).mp hover⟩
    · rintro ⟨j, c, hj, hc, hover⟩
      cases hj
      exact ⟨c, hc, (hf _ (hfull.conn hc) rfl).mpr hover⟩
  have hnone : ∀ {r : Except Fault World} {d : Attachment} {h : FdHandler},
      Avoids .overrun r → (h ≠ .client ∧ h ≠ .origin ∨ ∀ j, d ≠ .connection j) →
      (r = .error .overrun ↔ ∃ j c, d = .connection j ∧ w.heap j = .live c ∧
        (w.ctx j c).Overruns env h) := by
    intro r d h hr hd
    refine iff_of_false hr ?_
    rintro ⟨j, c, hj, -, -, -, b, hleft, -⟩
    rcases hd with ⟨hcl, hor⟩ | hd
    · cases h <;> first | exact absurd rfl hcl | exact absurd rfl hor | cases hleft
    · exact hd j hj
  obtain ⟨interest, h, d⟩ := it
  unfold handleWrite
  cases h with
  | client =>
      cases d with
      | connection id => exact hown fun x hx hal => proxyClientWrite_overrun_iff hx hal
      | _ => exact hnone (avoids_error (by decide)) (.inr (by simp))
  | origin =>
      cases d with
      | connection id => exact hown fun x hx hal => proxyOriginWrite_overrun_iff hx hal
      | _ => exact hnone (avoids_error (by decide)) (.inr (by simp))
  | proxy | management => exact hnone (avoids_error (by decide)) (.inl (by simp))
  | logger => exact hnone (avoids_ok _ _) (.inl (by simp))

theorem runGarbageCollector_fits (is : List Nat) :
    ∀ w, Avoids .overrun (runGarbageCollector is w) := by
  induction is with
  | nil => exact fun w => avoids_ok _ _
  | cons i is ih =>
      refine fun w => avoids_bind ?_ fun u _ => ih u
      unfold collect
      split
      · refine avoids_ite (avoids_ok _ _) ?_
        unfold onBehalfOf
        split
        · refine avoids_bind ?_ fun _ _ => avoids_ok _ _
          exact avoids_ite (closeProxyConnection_quiet rfl) (avoids_ok _ _)
        · exact avoids_error (by decide)
      · exact avoids_ok _ _

/-- A step stores outside the memory of a buffer exactly where a text that is
asked for does not fit. -/
theorem step_overrun_iff (hfull : w.Full) (e : Event) :
    step w e = .error .overrun ↔ ¬ TextFits w e := by
  cases e with
  | readable fd env =>
      refine iff_of_false ?_ (not_not_intro trivial)
      unfold step
      dsimp only
      split
      · exact avoids_ite (handleRead_fits hfull) (avoids_ok _ _)
      · exact avoids_ok _ _
  | garbageCollect =>
      refine iff_of_false ?_ (not_not_intro trivial)
      exact avoids_ite (runGarbageCollector_fits _ _) (avoids_ok _ _)
  | tick _ => exact iff_of_false (avoids_ok _ _) (not_not_intro trivial)
  | writable fd env =>
      have hstep : step w (.writable fd env) = .error .overrun ↔
          ∃ it, w.sel.fds fd = some it ∧ it.interest.write = true ∧
            handleWrite env it w = .error .overrun := by
        unfold step
        dsimp only
        split
        · next it hit =>
            rw [hit]
            by_cases hint : it.interest.write = true
            · rw [if_pos hint]
              exact ⟨fun h => ⟨it, rfl, hint, h⟩, fun ⟨_, he, _, h⟩ => Option.some.inj he ▸ h⟩
            · rw [if_neg hint]
              refine iff_of_false (avoids_ok _ _) ?_
              rintro ⟨_, he, hw, -⟩
              cases he
              exact hint hw
        · next hnone =>
            rw [hnone]
            exact iff_of_false (avoids_ok _ _) (by simp)
      rw [hstep]
      constructor
      · rintro ⟨it, hit, hint, hover⟩ hfits
        obtain ⟨id, c, hd, hc, hstate, hconnected, b, hb, hlong⟩ :=
          (handleWrite_overrun_iff hfull).mp hover
        exact absurd (hfits it id c b hit hint hd hc hstate hconnected hb) (Nat.not_le_of_lt hlong)
      · intro hno
        by_contra hsafe
        refine hno fun it id c b hit hint hd hc hstate hconnected hb => ?_
        exact Nat.le_of_not_lt fun hlong => hsafe ⟨it, hit, hint,
          (handleWrite_overrun_iff hfull).mpr
            ⟨id, c, hd, hc, hstate, hconnected, b, hb, hlong⟩⟩

/-- Accepting a connection does not fail. -/
theorem accepts_step {e : Event} (h : e.accepts w = true) : ∃ w', step w e = .ok w' := by
  cases e with
  | readable fd env =>
      cases hit : w.sel.fds fd with
      | none => simp [Event.accepts, hit] at h
      | some it =>
          simp only [Event.accepts, hit, Bool.and_eq_true, beq_iff_eq] at h
          obtain ⟨⟨hint, hproxy⟩, _⟩ := h
          have hstep : step w (.readable fd env) = handleRead env fd it w := by
            simp only [step, hit, if_pos hint]
          rw [handleRead, hproxy] at hstep
          exact ⟨_, hstep⟩
  | writable _ _ | garbageCollect | tick _ => cases h

end

/-- Nothing is stored outside the memory of a buffer, and after the step the
capacity of every buffer is what was allocated for it. -/
def InBounds (w : World) (e : Event) : Prop :=
  step w e ≠ .error .overrun ∧ ∀ w', step w e = .ok w' → w'.Backed

theorem inBounds_iff {w : World} (hfull : w.Full) (e : Event) :
    InBounds w e ↔ AcceptsWhole w e ∧ TextFits w e := by
  have hover := step_overrun_iff hfull e
  constructor
  · rintro ⟨hno, hback⟩
    refine ⟨fun hacc => ?_, Classical.not_not.mp fun hfit => hno (hover.mpr hfit)⟩
    obtain ⟨w', hs⟩ := accepts_step hacc
    exact acceptsWhole_of_backed hs (hback w' hs) hacc
  · rintro ⟨hacc, hfit⟩
    exact ⟨fun h => hover.mp h hfit, fun w' hs => (step_full hfull hacc hs).backed⟩

/-- Throughout a run of the daemon every store is inside the memory of its
buffer, which is as long as its capacity, if and only if every connection is
accepted while the buffer size is `BUFFER_SIZE` and what is stored for an
origin fits. -/
theorem buffers_backed_iff (cfg : Config) (es : List Event) :
    Lib.Throughout step InBounds es (initWorld cfg) ↔
      Lib.Throughout step (fun w e => AcceptsWhole w e ∧ TextFits w e) es (initWorld cfg) :=
  Lib.throughout_congr (J := World.Full) (fun _ e hf => inBounds_iff hf e)
    (fun _ _ _ hf hc hs => step_full hf hc.1 hs) (fun _ _ hz => by cases hz)

/-! ### A smaller buffer -/

/-- Set the buffer size to 1024. -/
def shrinkRequest : Bytes := [1] ++ ascii "123456" ++ [1, 1, 0, 4, 0]

def shrinkAndAccept : List Event :=
  [.readable 4 { Env.silent with datagram := some shrinkRequest },
    .readable 3 { Env.silent with accept := some 5 }]

/-- The client sends more than was allocated, and no more than the capacity. -/
def overrun : Event := .readable 5 { Env.silent with recv := some (List.replicate 1025 65) }

/-- After the buffer size has been set to 1024, an accepted connection has
buffers of capacity 8192 in 1024 bytes of memory, and the first read of more
is stored outside. -/
theorem shrunk_buffers_overrun :
    ∃ (w : World) (c : Conn), Lib.Runs step (initWorld managed) shrinkAndAccept w ∧
      w.heap 0 = .live c ∧ c.clientBuffer.limit = 8192 ∧ c.clientBuffer.alloc = 1024 ∧
      ¬ w.Backed ∧ step w overrun = .error .overrun := by
  have hcheck : ((Lib.runChecked step (fun _ _ => true) shrinkAndAccept
      (initWorld managed)).any fun w =>
        w.first (fun c => c.clientBuffer.limit == 8192 && c.clientBuffer.alloc == 1024) &&
          stops (step w overrun) .overrun) = true := by decide +kernel
  obtain ⟨w, hrun, hp⟩ := Lib.exists_runs hcheck
  rw [Bool.and_eq_true] at hp
  obtain ⟨hp, hover⟩ := hp
  obtain ⟨c, hc, hp⟩ := World.liveAt_eq hp
  simp only [Bool.and_eq_true, beq_iff_eq] at hp
  refine ⟨w, c, hrun, hc, hp.1, hp.2, fun hb => ?_, error_of_stops hover⟩
  have hcb := (hb 0 c hc).client
  omega

end HttpdProxy
