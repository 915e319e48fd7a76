import HttpdProxy.Proofs.Lives
import HttpdProxy.Proofs.Fidelity
import HttpdProxy.Protocol.SnifferTap
import HttpdProxy.Protocol.StatusTap

/-!
# The sniffer and the status line parser on the wire

The invariants of `Protocol/StatusTap.lean` and `Protocol/SnifferTap.lean` on
the runs of the daemon: in a run all of whose reads meet the condition of a
parser, the parser is fed what was received, in order and each byte once. A
run where one does not shows each parser being fed bytes again.
-/

namespace HttpdProxy

open Conn

/-! ## The reads of a run -/

/-- Whatever the event brings a connection meets `W`. -/
def Reads (W : World → Env → Conn → Act → Prop) (w : World) (e : Event) : Prop :=
  ∀ id c act env, e.actor w = some id → w.heap id = .live c → e.env = some env →
    e.brings c = some act → W w env c act

/-- The same, computed. -/
def checkReads (p : World → Env → Conn → Act → Bool) (w : World) (e : Event) : Bool :=
  match e.actor w, e.env with
  | some id, some env =>
      match w.heap id with
      | .live c => (e.brings c).all (p w env c)
      | _ => true
  | _, _ => true

theorem reads_of_checkReads {W : World → Env → Conn → Act → Prop}
    {p : World → Env → Conn → Act → Bool} {w : World} {e : Event}
    (hp : ∀ w env c act, p w env c act = true → W w env c act)
    (h : checkReads p w e = true) : Reads W w e := by
  intro id c act env hact hc henv hbrings
  unfold checkReads at h
  rw [hact, henv] at h
  dsimp only at h
  rw [hc] at h
  dsimp only at h
  rw [hbrings] at h
  exact hp w env c act h

section

variable {d : DohUtils} {w : World} {id : Nat} {c : Conn} {env : Env}

/-- The first move of an event, in a sound world. -/
theorem Sound.watched {W : Conn → Act → Prop} {got : Option Act} {b : Phase × Ctx}
    (hsound : Sound w) (hc : w.heap id = .live c) (hW : ∀ act, got = some act → W c act)
    (hentry : Entry d (w.ctx id c) got b) :
    Watched W ((w.ctx id c).mid .rest) (b.2.mid b.1) := by
  intro _ key hkey
  obtain ⟨oi, hrest⟩ := hsound.resting id c hc
  rcases hentry.enters with hw | ⟨key', act, _, hgot, htr⟩
  · exact absurd (hw.symm.trans hkey) (by simp)
  · refine ⟨act, htr, hW act hgot, fun hs => ?_⟩
    have hs : c.stmState = .connected := hs
    have horg : (w.ctx id c).conn.stmState.hasOrigin = true := by
      change c.stmState.hasOrigin = true
      rw [hs]
      rfl
    obtain ⟨i, rfl⟩ := Option.isSome_iff_exists.mp (hrest.needed horg)
    exact hrest.standing.origin_ne_client

/-- No later move of an event reads. -/
theorem Advance.watched {W : Conn → Act → Prop} {a b : Phase × Ctx} (h : Advance d env a b) :
    Watched W (a.2.mid a.1) (b.2.mid b.1) := fun hr => absurd hr h.inside

end

/-! ## The status line -/

/-- In every run whose reads keep level with the status line parser. -/
theorem status_line_fed {cfg : Config} {es : List Event} {w : World} {id : Nat} {c : Conn}
    (h : Lib.RunsWhen step
      (fun w e => Undisturbed w e ∧ Reads (fun _ _ => StatusLevel) w e) (initWorld cfg) es w)
    (hc : w.heap id = .live c ∨ w.heap id = .freed c) :
    c.StatusTapped ∧ (w.heap id = .live c → c.stmState = .connected →
      c.connectionRequest.method ≠ ascii "CONNECT" → c.responseLine.done = false →
      fedStatus c.trace = targetIn c.trace) := by
  have hlives := lives_when (V := Watched StatusLevel) (fun _ _ hC => hC.1)
    (fun a b _ hb _ key hk => absurd (hb.symm.trans hk) (by simp))
    (fun w e id c env hsound _ _ hC hact hlive henv b hentry =>
      ⟨hsound.watched hlive (fun act hb => hC.2 id c act env hact hlive henv hb) hentry,
        fun _ _ _ hadv => hadv.watched⟩) h
  obtain ⟨_, _, hlives⟩ := hlives
  refine ⟨?_, fun hc hs hm hd => ?_⟩
  · rcases hc with hc | hc
    · exact ((hlives id c).1 hc).fed.1
    · exact ((hlives id c).2 hc).fed.1
  · have hl := (hlives id c).1 hc
    have hfed : c.FedIn c.stmState := hl.fed.2
    rw [hs] at hfed
    refine hfed ?_ hd
    cases hcon : c.connectionRequest.connect with
    | false => rfl
    | true => exact absurd (hl.life.tunnels.mp hcon) hm

/-- A run whose reads meet a condition, computed. -/
theorem first_reads {W : World → Env → Conn → Act → Prop}
    {p : World → Env → Conn → Act → Bool} {cfg : Config} {es : List Event} {q : Conn → Bool}
    (hp : ∀ w env c act, p w env c act = true → W w env c act)
    (h : ((Lib.runChecked step (fun w e => checkUndisturbed w e && checkReads p w e) es
      (initWorld cfg)).any (·.first q)) = true) :
    ∃ w c, Lib.RunsWhen step (fun w e => Undisturbed w e ∧ Reads W w e) (initWorld cfg) es w ∧
      w.heap 0 = .live c ∧ q c = true := by
  obtain ⟨w, hw, hq⟩ := (Option.any_eq_true _ _).mp h
  obtain ⟨c, hc, hq⟩ := World.liveAt_eq hq
  have hrun := Lib.runsWhen_of_runChecked
    (C := fun u e => checkUndisturbed u e = true ∧ Reads W u e) (fun w e hcheck => by
      rw [Bool.and_eq_true] at hcheck
      exact ⟨hcheck.1, reads_of_checkReads hp hcheck.2⟩) hw
  exact ⟨w, c, (initWorld_sound cfg).undisturbed_of_checks hrun, hc, hq⟩

def checkStatusLevel (c : Conn) : Act → Bool
  | .received .origin _ => c.originBuffer.unread.isEmpty
  | .eof .origin => decide (c.bytesToAnalize ≤ 0)
  | _ => true

theorem statusLevel_of_check (c : Conn) (act : Act) (h : checkStatusLevel c act = true) :
    c.StatusLevel act := by
  unfold StatusLevel
  split
  · exact fun _ => List.isEmpty_iff.mp h
  · exact fun _ => of_decide_eq_true h
  · exact trivial

/-- A request on its way to a host, up to the state CONNECTED. -/
def relayed (port : String) : List Event :=
  [.readable 3 { Env.silent with accept := some 5 },
    .readable 5
      { Env.silent with
        recv := some (ascii ("GET http://127.0.0.1:" ++ port ++ "/ HTTP/1.0\r\n"))
        socket := fun _ => some 6 },
    .writable 6 Env.silent,
    .writable 6 { Env.silent with send := some 20 }]

/-- The answer in two parts, the first sent on before the second is read. -/
theorem status_line_fed_parts :
    ∃ (w : World) (c : Conn), w.heap 0 = .live c ∧ c.StatusTapped ∧
      fedStatus c.trace = ascii "HTTP/1.0" ∧ fedStatus c.trace = targetIn c.trace := by
  obtain ⟨w, c, h, hc, hq⟩ := @first_reads (fun _ _ => StatusLevel)
    (fun _ _ => checkStatusLevel) loopback
    (relayed "80" ++
      [.readable 6 { Env.silent with recv := some (ascii "HTTP") },
        .writable 5 { Env.silent with send := some 4 },
        .readable 6 { Env.silent with recv := some (ascii "/1.0") }])
    (fun c => c.stmState == .connected && !c.responseLine.done &&
      c.connectionRequest.method != ascii "CONNECT" && fedStatus c.trace == ascii "HTTP/1.0")
    (fun _ _ => statusLevel_of_check) (by decide +kernel)
  simp only [Bool.and_eq_true, beq_iff_eq, bne_iff_ne, ne_eq, Bool.not_eq_true'] at hq
  obtain ⟨⟨⟨hs, hd⟩, hm⟩, hf⟩ := hq
  obtain ⟨ht, hall⟩ := status_line_fed h (.inl hc)
  exact ⟨w, c, hc, ht, hf, hall hc hs hm hd⟩

/-- The first part has not been sent on when the second is read: it is fed
again. -/
theorem status_line_fed_again :
    ∃ (es : List Event) (w : World) (c : Conn), Lib.Runs step (initWorld loopback) es w ∧
      w.heap 0 = .live c ∧ c.connectionRequest.connect = false ∧
      targetIn c.trace = ascii "HTTP/1.0" ∧ fedStatus c.trace = ascii "HTTPH" ∧
      ¬ c.StatusTapped := by
  obtain ⟨w, c, h, hc, hq⟩ := @first_run loopback
    (relayed "80" ++
      [.readable 6 { Env.silent with recv := some (ascii "HTTP") },
        .readable 6 { Env.silent with recv := some (ascii "/1.0") }])
    (fun c => c.connectionRequest.connect == false && targetIn c.trace == ascii "HTTP/1.0" &&
      fedStatus c.trace == ascii "HTTPH") (by decide +kernel)
  simp only [Bool.and_eq_true, beq_iff_eq] at hq
  refine ⟨_, w, c, h.runs, hc, hq.1.1, hq.1.2, hq.2, fun ht => ?_⟩
  have hpre := ht.fed
  rw [hq.1.2, hq.2] at hpre
  exact absurd hpre (by decide)

/-! ## The sniffer -/

/-- What comes after the request line in one read with it is sniffed: the
request is not a CONNECT, whose read is cut there, and it gets its socket. -/
def Completes (w : World) (env : Env) (c : Conn) : Act → Prop
  | .received .client bs =>
      c.stmState = .parsingRequestLine → c.current = none ∨ c.sniffer.sniffEnabled = true →
      ∀ line rest, requestHead requestParserInit (clientIn c.trace ++ bs) = some (line, rest) →
        rest ≠ [] →
        cstr (line.foldl requestParserFeed requestParserInit).request.method
            ≠ ascii "CONNECT" ∧
          ∃ fd, env.socket 0 = some fd ∧ w.fresh fd = true ∧ invalidFd fd = false
  | _ => True

/-- A read the sniffer sees all of, once. -/
def SniffReady (w : World) (env : Env) (c : Conn) (act : Act) : Prop :=
  c.SniffLevel act ∧ Completes w env c act

section

variable {d : DohUtils} {env : Env}

/-- A read leaves the state and the sniffer; while the request line is read it
is the client's. -/
theorem Move.reads {a b : Mid} (hm : Move d a b) (ha : a.phase = .rest)
    (hb : ∃ key, b.phase = .reading key) :
    b.conn.current = a.conn.current ∧ b.conn.sniffer = a.conn.sniffer ∧
      (a.conn.stmState = .parsingRequestLine →
        ∃ bs, b.conn.trace = .received .client bs :: a.conn.trace) := by
  obtain ⟨key, hb⟩ := hb
  cases hm with
  | readClient now _ _ _ _ => exact ⟨rfl, rfl, fun _ => ⟨_, rfl⟩⟩
  | endOfClient now _ _ hnum =>
      refine ⟨rfl, rfl, fun hs => ?_⟩
      rw [hs] at hnum
      exact absurd hnum (by decide)
  | readOrigin now hint _ _ _ _ =>
      refine ⟨rfl, rfl, fun hs => ?_⟩
      rw [Conn.interests, hs] at hint
      cases hint
  | endOfOrigin now hint _ _ =>
      refine ⟨rfl, rfl, fun hs => ?_⟩
      rw [Conn.interests, hs] at hint
      cases hint
  | writeClient | readyOrigin | writeRequest | writeOrigin | close | closeEarly | collect =>
      cases hb
  | _ => cases ha

/-- Only a read handler stays in the read handler, and it leaves what the
client said, the sockets asked for and, once there is a state, the sniffer's
switch. -/
theorem Move.reading {a b : Mid} (hm : Move d a b) (hne : a.phase ≠ .rest)
    (hb : ∃ key, b.phase = .reading key) :
    (∃ key, a.phase = .reading key) ∧ clientIn b.conn.trace = clientIn a.conn.trace ∧
      attempts b.conn.trace = attempts a.conn.trace ∧
      (a.conn.current ≠ none → b.conn.current = a.conn.current ∧
        b.conn.sniffer.sniffEnabled = a.conn.sniffer.sniffEnabled) := by
  obtain ⟨key, hb⟩ := hb
  cases hm with
  | start enabled hcur => exact ⟨⟨_, rfl⟩, rfl, rfl, fun hc => absurd hcur hc⟩
  | parseByte _ _ _ _ _ => exact ⟨⟨_, rfl⟩, rfl, rfl, fun _ => ⟨rfl, rfl⟩⟩
  | awaitByte alloc _ _ _ _ _ _ =>
      obtain ⟨_, _, _, heq⟩ := judged_eq (Conn.fed _ _ _) _ _ _
      rw [heq]
      exact ⟨⟨_, rfl⟩, rfl, rfl, fun _ => ⟨rfl, rfl⟩⟩
  | readClient => exact absurd rfl hne
  | endOfClient => exact absurd rfl hne
  | readOrigin => exact absurd rfl hne
  | endOfOrigin => exact absurd rfl hne
  | tryNext =>
      rcases nextDns_phase _ _ with hp | hp | hp <;> cases hp.symm.trans hb
  | walkEnd =>
      rcases exhausted_phase _ _ with hp | hp | hp <;> cases hp.symm.trans hb
  | awaitEnd =>
      rcases nextDns_phase _ _ with hp | hp | hp <;> cases hp.symm.trans hb
  | _ => cases hb

/-- The same of the course up to a read handler. -/
theorem Course.reading {a b : Phase × Ctx} (h : Course d env a b)
    (hb : ∃ key, b.1 = .reading key) :
    (∃ key, a.1 = .reading key) ∧ clientIn b.2.conn.trace = clientIn a.2.conn.trace ∧
      b.2.opens = a.2.opens ∧ b.2.world.opened = a.2.world.opened ∧
      (a.2.conn.current ≠ none → b.2.conn.current = a.2.conn.current ∧
        b.2.conn.sniffer.sniffEnabled = a.2.conn.sniffer.sniffEnabled) := by
  induction h with
  | refl => exact ⟨hb, rfl, rfl, rfl, fun _ => ⟨rfl, rfl⟩⟩
  | @tail a' b' _ hadv ih =>
      obtain ⟨hread, hin, hatt, hkeep⟩ := Move.reading hadv.move hadv.inside hb
      have hatt : attempts b'.2.conn.trace = attempts a'.2.conn.trace := hatt
      obtain ⟨key, hkey⟩ := hb
      have hwithin := congrArg Phase.within hkey
      have hreleased := congrArg Phase.released hkey
      obtain ⟨hstart, hin', hopens, hopened, hkeep'⟩ := ih hread
      have hasked := hadv.asked hwithin
      have hworld := hadv.opened hwithin
      rw [show Phase.released _ = false from hreleased, Bool.false_and,
        if_neg Bool.false_ne_true] at hworld
      refine ⟨hstart, hin.trans hin', ?_, hworld.trans hopened, fun hc => ?_⟩
      · omega
      · obtain ⟨hcur, hon⟩ := hkeep' hc
        have hne := hcur ▸ hc
        exact ⟨(hkeep hne).1.trans hcur, (hkeep hne).2.trans hon⟩

/-- The byte that completes the request line, in the read handler. -/
theorem Move.completes {a b : Mid} (hl : Life d a.phase a.conn) (hm : Move d a b)
    (hr : ∃ key, a.phase = .reading key)
    (hcur : a.conn.current = some .parsingRequestLine)
    (hdone : b.conn.requestParser.state = .requestDone)
    (hpast : pastRequestLine (clientIn a.conn.trace) ≠ []) :
    attempts b.conn.trace ≠ attempts a.conn.trace ∧
      ∃ line rest, requestHead requestParserInit (clientIn a.conn.trace) = some (line, rest) ∧
        b.conn.requestParser = line.foldl requestParserFeed requestParserInit := by
  obtain ⟨key, hr⟩ := hr
  have hf := hl.flow
  rw [hr, FlowAt, stmState_of_current hcur] at hf
  cases hm with
  | start _ hnone => exact absurd (hnone.symm.trans hcur) (by simp)
  | parseByte _ _ _ _ hne => exact absurd hdone hne
  | parseError _ _ _ he =>
      rw [show (Conn.parsed _ _ _).requestParser.state = _ from hdone] at he
      cases he
  | parseDone hc hcan hread hd ha =>
      rename_i c c' m key b buffer next
      obtain ⟨line, hhead, hpar⟩ :=
        Parsing.completed hc (Buffer.read_ok hcan hread).1 hd hf.2
      refine ⟨?_, line, _, hhead, (completed_requestParser key ha).trans hpar⟩
      have hatt := ha.attempts
      change attempts (if next ≠ .error then finishRequest key c' else c').trace
        ≠ attempts c.trace
      have hsame : attempts (if next ≠ .error then finishRequest key c' else c').trace
          = attempts c'.trace := by
        split
        · exact finishRequest_attempts key c'
        · rfl
      rw [hsame, hatt]
      exact Nat.succ_ne_self _
  | parseIdle _ hcan =>
      exfalso
      obtain ⟨eaten, hin, _, hsome⟩ := hf.2.eaten
      rw [(Buffer.canRead_eq_false_iff _).mp hcan, List.append_nil] at hin
      refine hpast ?_
      rw [pastRequestLine, hin, (hsome (by rw [hcur]; simp)).2]
      rfl
  | awaitFailed h | awaitByte _ h | awaitIdle h | awaitEnd h | relayRead h | relayEnd h
  | closingRead h | closingDone h | closingEmpty h => exact absurd (h.symm.trans hcur) (by simp)
  | _ => cases hr

/-- The request line that is completed is the one the read was ready for. -/
theorem Entry.completed {w : World} {id : Nat} {c : Conn} {got : Option Act}
    {b a a' : Phase × Ctx} (hl : Life d .rest c)
    (hW : ∀ act, got = some act → Completes w env c act)
    (hentry : Entry d (w.ctx id c) got b) (hcourse : Course d env b a)
    (hadv : Advance d env a a') : Completed (a.2.mid a.1) (a'.2.mid a'.1) := by
  intro hread hcur hon hdone hpast
  obtain ⟨hreading, hin, hopens, hopened, hkeep⟩ := Course.reading hcourse hread
  have hla : Life d a.1 a.2.conn :=
    Life.steps (a := ⟨.rest, c, w.metrics⟩) (b := a.2.mid a.1) hl
      (.head hentry.move hcourse.steps)
  obtain ⟨hatt, line, rest, hhead, hpar⟩ :=
    Move.completes hla hadv.move hread hcur hdone hpast
  obtain ⟨hkept, hsniffer, hclient⟩ := Move.reads hentry.move rfl hreading
  have hkept : b.2.conn.current = c.current := hkept
  have hold : c.stmState = .parsingRequestLine ∧
      (c.current = none ∨ c.sniffer.sniffEnabled = true) := by
    rcases Decidable.em (c.current = none) with hnone | hsome
    · exact ⟨by rw [stmState, hnone]; rfl, .inl hnone⟩
    · obtain ⟨hsame, hswitch⟩ := hkeep (hkept ▸ hsome)
      refine ⟨stmState_of_current (hkept.symm.trans (hsame.symm.trans hcur)), .inr ?_⟩
      exact (congrArg Sniffer.sniffEnabled hsniffer).symm.trans (hswitch.symm.trans hon)
  obtain ⟨bs, htr⟩ := hclient hold.1
  have htr : b.2.conn.trace = .received .client bs :: c.trace := htr
  have hgot : got = some (.received .client bs) := by
    obtain ⟨key, hkey⟩ := hreading
    rcases hentry.enters with hw | ⟨_, act, _, hgot, hact⟩
    · exact absurd (hw.symm.trans hkey) (by simp)
    · rw [hgot, (List.cons.inj (htr.symm.trans hact)).1]
  have hbs : clientIn b.2.conn.trace = clientIn c.trace ++ bs := by rw [htr]; rfl
  obtain ⟨hmethod, fd, hfd, hfresh, hvalid⟩ := hW _ hgot hold.1 hold.2 line rest
    (by rw [← hbs, ← hin]; exact hhead) (by rwa [pastRequestLine_eq hhead] at hpast)
  refine ⟨fun hgoto => ?_, ?_⟩
  · have hgrant : a.2.grant env = some fd := by
      rw [Ctx.grant, hopens, hentry.opens]
      change (env.socket 0).filter a.2.world.fresh = _
      rw [hfd, Option.filter_some, World.fresh, hopened, hentry.opened]
      exact if_pos hfresh
    rw [(hadv.answered hatt).2 hgoto fd hgrant] at hvalid
    cases hvalid
  · rw [hpar]
    exact hmethod

end

/-- In every run whose reads the sniffer can follow. -/
theorem sniffer_fed {cfg : Config} {es : List Event} {w : World} {id : Nat} {c : Conn}
    (h : Lib.RunsWhen step (fun w e => Undisturbed w e ∧ Reads SniffReady w e)
      (initWorld cfg) es w)
    (hc : w.heap id = .live c ∨ w.heap id = .freed c) : c.Sniffed := by
  obtain ⟨_, _, hlives⟩ := lives_when
    (V := fun a b => Watched SniffLevel a b ∧ Completed a b) (fun _ _ hC => hC.1)
    (fun a b ha hb => ⟨fun _ key hk => absurd (hb.symm.trans hk) (by simp),
      fun ⟨key, hk⟩ => absurd (ha.symm.trans hk) (by simp)⟩)
    (fun w e id c env hsound hd hl hC hact hlive henv b hentry => by
      have hW := fun act hb => hC.2 id c act env hact hlive henv hb
      refine ⟨⟨hsound.watched hlive (fun act hb => (hW act hb).1) hentry,
        fun ⟨key, hk⟩ => by cases hk⟩, fun a a' hcourse hadv => ⟨hadv.watched, ?_⟩⟩
      rw [show (w.ctx id c).world.dohUtils = cfg.dohUtils from hd] at hentry hcourse hadv
      exact Entry.completed hl.life (fun act hb => (hW act hb).2) hentry hcourse hadv) h
  rcases hc with hc | hc
  · exact SniffIn.sniffed (LifeWhen.sniffed ((hlives id c).1 hc))
  · exact LifeWhen.sniffed ((hlives id c).2 hc)

/-- A daemon that sniffs. -/
def sniffingLoopback : Config := { loopback with disectorsEnabled := true }

def checkSniffReady (w : World) (env : Env) (c : Conn) : Act → Bool
  | .received side bs =>
      c.stmState != .closing && (c.received side).unread.isEmpty &&
        (side == .origin || c.stmState != .parsingRequestLine ||
          ((requestHead requestParserInit (clientIn c.trace ++ bs)).all fun h =>
            cstr (h.1.foldl requestParserFeed requestParserInit).request.method
                != ascii "CONNECT" &&
              (env.socket 0).any fun fd => w.fresh fd && !invalidFd fd))
  | _ => true

theorem sniffReady_of_check (w : World) (env : Env) (c : Conn) (act : Act)
    (h : checkSniffReady w env c act = true) : SniffReady w env c act := by
  cases act with
  | received side bs =>
      simp only [checkSniffReady, Bool.and_eq_true, bne_iff_ne, List.isEmpty_iff] at h
      obtain ⟨⟨hclosing, hempty⟩, hline⟩ := h
      refine ⟨fun _ => ⟨hclosing, fun _ => hempty⟩, ?_⟩
      cases side with
      | origin => exact trivial
      | client =>
          intro hs _ line rest hhead _
          simp only [hs, hhead, Option.all_some, Bool.or_eq_true, Bool.and_eq_true, bne_iff_ne,
            beq_iff_eq, ne_eq, not_true_eq_false, or_false, reduceCtorEq, false_or] at hline
          obtain ⟨hmethod, hsocket⟩ := hline
          obtain ⟨fd, hfd, hok⟩ := (Option.any_eq_true _ _).mp hsocket
          simp only [Bool.and_eq_true, Bool.not_eq_true'] at hok
          exact ⟨hmethod, fd, hfd, hok⟩
  | _ => exact ⟨trivial, trivial⟩

/-- A client whose bytes are sent on one read at a time. -/
theorem sniffer_fed_twice :
    ∃ (w : World) (c : Conn), w.heap 0 = .live c ∧ c.Sniffed ∧ c.Sniffs ∧
      sniffed c.trace = tagged .clientOwned (ascii "ABCD") := by
  obtain ⟨w, c, h, hc, hq⟩ := @first_reads SniffReady checkSniffReady sniffingLoopback
    (relayed "80" ++
      [.readable 5 { Env.silent with recv := some (ascii "AB") },
        .writable 6 { Env.silent with send := some 2 },
        .readable 5 { Env.silent with recv := some (ascii "CD") }])
    (fun c => c.sniffer.sniffEnabled && !c.sniffer.isDone &&
      sniffed c.trace == tagged .clientOwned (ascii "ABCD"))
    sniffReady_of_check (by decide +kernel)
  simp only [Bool.and_eq_true, beq_iff_eq, Bool.not_eq_true'] at hq
  exact ⟨w, c, hc, sniffer_fed h (.inl hc), hq.1, hq.2⟩

/-- The first bytes have not been sent on when the second are read: they are
fed again. -/
theorem sniffer_fed_again :
    ∃ (es : List Event) (w : World) (c : Conn),
      Lib.Runs step (initWorld sniffingLoopback) es w ∧ w.heap 0 = .live c ∧ c.Sniffs ∧
      sniffable c.trace = tagged .clientOwned (ascii "ABCD") ∧
      sniffed c.trace = tagged .clientOwned (ascii "ABAB") ∧ ¬ c.Sniffed := by
  obtain ⟨w, c, h, hc, hq⟩ := @first_run sniffingLoopback
    (relayed "80" ++
      [.readable 5 { Env.silent with recv := some (ascii "AB") },
        .readable 5 { Env.silent with recv := some (ascii "CD") }])
    (fun c => c.sniffer.sniffEnabled && !c.sniffer.isDone &&
      sniffable c.trace == tagged .clientOwned (ascii "ABCD") &&
      sniffed c.trace == tagged .clientOwned (ascii "ABAB")) (by decide +kernel)
  simp only [Bool.and_eq_true, beq_iff_eq, Bool.not_eq_true'] at hq
  obtain ⟨⟨hon, hable⟩, hfed⟩ := hq
  refine ⟨_, w, c, h.runs, hc, hon, hable, hfed, fun hs => ?_⟩
  have heq := (hs hon.1).2 hon.2
  rw [hable, hfed] at heq
  exact absurd heq (by decide)

end HttpdProxy
