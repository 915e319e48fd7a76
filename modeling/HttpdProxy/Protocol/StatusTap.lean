import HttpdProxy.Protocol.Flow
import HttpdProxy.Protocol.Watched

/-!
# What the status line parser is fed

In CONNECTED every read from the host hands the bytes at the read pointer of
the origin buffer to the status line parser, as many as the last read counted.
Where the buffer was empty before the read, and no count is left over at the
end of the stream, these are the bytes just received. The invariant is kept by
every move that meets this condition.
-/

namespace HttpdProxy

open Conn

/-! ## Reading the trace -/

/-- The bytes the status line parser was fed. -/
def fedStatus : List Act → Bytes
  | [] => []
  | .fedStatusLine bs :: t => fedStatus t ++ bs
  | _ :: t => fedStatus t

/-- They one call at a time, with what had happened before. -/
def statusFeeds : List Act → List (Bytes × List Act)
  | [] => []
  | .fedStatusLine bs :: t => (bs, t) :: statusFeeds t
  | _ :: t => statusFeeds t

namespace Conn

/-- The bytes the loop of `connected_on_read_ready` is about to go over. -/
def pendingStatus (c : Conn) : Bytes :=
  (List.range c.bytesToAnalize.toNat).map fun i => c.originBuffer.mem (c.originBuffer.read + i)

/-- The status line of the answer is still to be parsed. -/
def AwaitsStatus (c : Conn) : Prop :=
  c.stmState = .connected ∧ c.connectionRequest.connect = false ∧ c.responseLine.done = false

/-- A read that is made with an empty origin buffer, or with nothing counted
where it finds the end of the stream. -/
def StatusLevel (c : Conn) : Act → Prop
  | .received .origin _ => c.AwaitsStatus → c.originBuffer.unread = []
  | .eof .origin => c.AwaitsStatus → c.bytesToAnalize ≤ 0
  | _ => True

/-- What the parser was fed came from the host, and was unread when it was
fed: what had been received less what had been sent on. -/
structure StatusTapped (c : Conn) : Prop where
  fed : fedStatus c.trace <+: targetIn c.trace
  bounded : ∀ f ∈ statusFeeds c.trace,
    (clientOut f.2).length + f.1.length ≤ (targetIn f.2).length

/-- The parser has been fed everything. -/
def Level (c : Conn) : Prop :=
  c.connectionRequest.connect = false → c.responseLine.done = false →
    fedStatus c.trace = targetIn c.trace

/-- In the read handler of CONNECTED: the parser has been fed everything but
what was just read. -/
def LevelBut (c : Conn) (key : SelectorKey) : Prop :=
  c.connectionRequest.connect = false → c.responseLine.done = false →
    if key.fd = c.originFd then
      fedStatus c.trace ++ c.pendingStatus = targetIn c.trace ∧
        (clientOut c.trace).length + c.pendingStatus.length ≤ (targetIn c.trace).length
    else fedStatus c.trace = targetIn c.trace

/-- What has been fed, in a state. -/
def FedIn (c : Conn) : ConnState → Prop
  | .connected => c.Level
  | .closing | .emptyBuffers | .done | .error => True
  | _ => fedStatus c.trace = []

/-- On the way to a state. -/
def FedDue (c : Conn) : ConnState → Prop
  | .connected => fedStatus c.trace = targetIn c.trace
  | s => c.FedIn s

/-- In a phase. -/
def FedAt (c : Conn) : Phase → Prop
  | .rest | .writing => c.FedIn c.stmState
  | .reading key => if c.stmState = .connected then c.LevelBut key else c.FedIn c.stmState
  | .walking | .asking => fedStatus c.trace = []
  | .goto s => if c.current = some s then c.FedIn s else c.FedDue s
  | .gone => True

/-- What the feeding depends on. -/
def statusView (c : Conn) :=
  (fedStatus c.trace, statusFeeds c.trace, targetIn c.trace, c.responseLine.done,
    c.connectionRequest.connect)

end Conn

section

variable {d : DohUtils} {c c' : Conn} {s next : ConnState}

theorem StatusTapped.congr (h : c.StatusTapped) (hv : c'.statusView = c.statusView) :
    c'.StatusTapped := by
  simp only [statusView, Prod.mk.injEq] at hv
  obtain ⟨hf, hfs, hin, _⟩ := hv
  refine ⟨?_, ?_⟩
  · rw [hf, hin]
    exact h.fed
  · rw [hfs]
    exact h.bounded

theorem FedIn.congr (h : c.FedIn s) (hv : c'.statusView = c.statusView) : c'.FedIn s := by
  simp only [statusView, Prod.mk.injEq] at hv
  obtain ⟨hf, _, hin, hdone, hcon⟩ := hv
  cases s with
  | connected =>
      intro hc hd
      rw [hf, hin]
      exact h (hcon.symm.trans hc) (hdone.symm.trans hd)
  | closing => exact trivial
  | emptyBuffers => exact trivial
  | done => exact trivial
  | error => exact trivial
  | _ => exact hf.trans h

theorem fedAt_reading {key : SelectorKey} (hne : c.stmState ≠ .connected)
    (h : c.FedIn c.stmState) : c.FedAt (.reading key) := by
  rw [FedAt, if_neg hne]
  exact h

theorem FedAt.reading {key : SelectorKey} (h : c.FedAt (.reading key))
    (hcur : c.current = some s) (hs : s ≠ .connected) : c.FedIn s := by
  rw [FedAt, stmState_of_current hcur, if_neg hs] at h
  exact h

theorem FedAt.writing (h : c.FedAt .writing) (hcur : c.current = some s) : c.FedIn s := by
  rw [FedAt, stmState_of_current hcur] at h
  exact h

theorem fedAt_stay (hcur : c.current = some s) (h : c.FedIn s) : c.FedAt (.goto s) := by
  rw [FedAt, if_pos hcur]
  exact h

/-- To a state other than CONNECTED. -/
theorem fedAt_goto (hs : s ≠ .connected) (h : c.FedIn s) : c.FedAt (.goto s) := by
  have hdue : c.FedDue s := by
    cases s with
    | connected => exact absurd rfl hs
    | _ => exact h
  rw [FedAt]
  split
  · exact h
  · exact hdue

theorem fedAt_connected (hcur : c.current ≠ some .connected)
    (h : fedStatus c.trace = targetIn c.trace) : c.FedAt (.goto .connected) := by
  rw [FedAt, if_neg hcur]
  exact h

theorem fedAt_error : c.FedAt (.goto .error) := fedAt_goto (by simp) trivial

/-! ## The reads of CONNECTED -/

/-- The loop feeds all it goes over, or stops when the parser is done. -/
theorem responseLineGo_fed (bs : Bytes) (p : StatusLineParser) :
    (responseLineGo bs p).2.2 <+: bs ∧
      ((responseLineGo bs p).2.1 = false → (responseLineGo bs p).2.2 = bs) := by
  induction bs generalizing p with
  | nil => exact ⟨List.nil_prefix, fun _ => rfl⟩
  | cons b bs ih =>
      obtain ⟨hpre, hall⟩ := ih (statusLineParserFeed p b)
      rw [responseLineGo]
      dsimp only
      split
      · exact ⟨List.prefix_cons_inj b |>.mpr List.nil_prefix, fun hd => by cases hd⟩
      · refine ⟨(List.prefix_cons_inj b).mpr hpre, fun hd => ?_⟩
        exact congrArg (b :: ·) (hall hd)

/-- An empty buffer that is appended to holds what was appended from its read
pointer on. -/
theorem pending_of_read {b buffer : Buffer} {bs : Bytes} (hempty : b.unread = [])
    (hb : bufferAppend b bs = .ok buffer) :
    (List.range bs.length).map (fun i => buffer.mem (buffer.read + i)) = bs := by
  have hu : buffer.unread = bs := by
    rw [(Buffer.append_spec hb).1, hempty, List.nil_append]
  have hlen : buffer.write - buffer.read = bs.length := by
    rw [← Buffer.unread_length, hu]
  rw [← hlen]
  exact hu

/-- From the host, into an empty buffer. -/
theorem Level.fromOrigin {bs : Bytes} {buffer : Buffer} {now : Nat} {key : SelectorKey}
    (hs : c.stmState = .connected) (hkey : key.fd = c.originFd)
    (ht : towardsDoh c.trace = false) (hrelay : c.Relaying d)
    (hempty : c.AwaitsStatus → c.originBuffer.unread = [])
    (hb : bufferAppend c.originBuffer bs = .ok buffer) (h : c.Level) :
    ((c.touched now).fromOrigin bs buffer).LevelBut key := by
  intro hcon hdone
  have hcon : c.connectionRequest.connect = false := hcon
  have hempty := hempty ⟨hs, hcon, hdone⟩
  have hpending : ((c.touched now).fromOrigin bs buffer).pendingStatus = bs := by
    have han : (c.touched now).analyzes = true := by
      rw [analyzes, show (c.touched now).stmState = _ from hs]
      rfl
    have hcount : ((c.touched now).fromOrigin bs buffer).bytesToAnalize = (bs.length : Int) :=
      if_pos han
    rw [pendingStatus, hcount]
    exact pending_of_read hempty hb
  have hin : targetIn ((c.touched now).fromOrigin bs buffer).trace = targetIn c.trace ++ bs := by
    have hnot : ¬ towardsDoh c.trace = true := by
      rw [ht]
      exact Bool.false_ne_true
    exact if_neg hnot
  have hout := hrelay.toClient
  rw [hempty, List.append_nil, greeting, hcon, if_neg Bool.false_ne_true, List.nil_append] at hout
  have hkey : key.fd = ((c.touched now).fromOrigin bs buffer).originFd := hkey
  rw [if_pos hkey, hpending, hin]
  constructor
  · change fedStatus c.trace ++ bs = _
    rw [h hcon hdone]
  · change (clientOut c.trace).length + bs.length ≤ _
    exact Nat.le_of_eq (by rw [hout, List.length_append])

/-- The host's stream ended, with nothing counted. -/
theorem Level.endOfOrigin {now : Nat} {key : SelectorKey} (hs : c.stmState = .connected)
    (hrelay : c.Relaying d) (hzero : c.AwaitsStatus → c.bytesToAnalize ≤ 0) (h : c.Level) :
    ((c.touched now).endOfOrigin).LevelBut key := by
  intro hcon hdone
  have hcon : c.connectionRequest.connect = false := hcon
  have hzero := hzero ⟨hs, hcon, hdone⟩
  have hpending : ((c.touched now).endOfOrigin).pendingStatus = [] := by
    have hcount : ((c.touched now).endOfOrigin).bytesToAnalize.toNat = 0 :=
      Int.toNat_of_nonpos hzero
    rw [pendingStatus, hcount]
    rfl
  have hout := congrArg List.length hrelay.toClient
  rw [greeting, hcon, if_neg Bool.false_ne_true, List.nil_append, List.length_append] at hout
  split
  · rw [hpending, List.append_nil]
    refine ⟨h hcon hdone, ?_⟩
    change (clientOut c.trace).length + 0 ≤ (targetIn c.trace).length
    omega
  · exact h hcon hdone

/-- What the client sends is not looked at. -/
theorem Level.aside {key : SelectorKey} (hkey : key.fd ≠ c.originFd) (h : c.Level) :
    c.LevelBut key := by
  intro hcon hdone
  rw [if_neg hkey]
  exact h hcon hdone

theorem parseResponse_fed (c : Conn) :
    ∃ fed, (parseResponse c).trace = .fedStatusLine fed :: c.trace ∧ fed <+: c.pendingStatus ∧
      ((parseResponse c).responseLine.done = false → fed = c.pendingStatus) ∧
      (parseResponse c).connectionRequest.connect = c.connectionRequest.connect := by
  obtain ⟨hpre, hall⟩ := responseLineGo_fed c.pendingStatus c.responseLine.statusLineParser
  refine ⟨_, rfl, hpre, hall, ?_⟩
  unfold parseResponse
  dsimp only
  split <;> rfl

/-- The read handler of CONNECTED feeds what was just read. -/
theorem analyzeRead_fed {key : SelectorKey} (ht : c.StatusTapped) (h : c.LevelBut key) :
    (analyzeRead key c).StatusTapped ∧ (analyzeRead key c).Level := by
  have hparse : (!c.connectionRequest.connect && key.fd == c.originFd && !c.responseLine.done)
      = true → (parseResponse c).StatusTapped ∧ (parseResponse c).Level := by
    intro hc
    simp only [Bool.and_eq_true, Bool.not_eq_true', beq_iff_eq] at hc
    have hlevel := h hc.1.1 hc.2
    rw [if_pos hc.1.2] at hlevel
    obtain ⟨fed, htr, hpre, hall, _⟩ := parseResponse_fed c
    have hf : fedStatus (parseResponse c).trace = fedStatus c.trace ++ fed := by rw [htr]; rfl
    have hin : targetIn (parseResponse c).trace = targetIn c.trace := by rw [htr]; rfl
    refine ⟨⟨?_, ?_⟩, fun _ hdone => ?_⟩
    · rw [hf, hin, ← hlevel.1]
      exact (List.prefix_append_right_inj _).mpr hpre
    · rw [htr]
      intro f hm
      rcases List.mem_cons.mp (show f ∈ (fed, c.trace) :: statusFeeds c.trace from hm)
        with rfl | hm
      · exact Nat.le_trans (Nat.add_le_add_left hpre.length_le _) hlevel.2
      · exact ht.bounded f hm
    · rw [hf, hin, hall hdone]
      exact hlevel.1
  have hnot : ¬ (!c.connectionRequest.connect && key.fd == c.originFd && !c.responseLine.done)
      = true → c.Level := by
    intro hc hcon hdone
    have hlevel := h hcon hdone
    rwa [if_neg (fun hkey => hc (by simp [hcon, hdone, hkey]))] at hlevel
  unfold analyzeRead
  dsimp only
  split
  · next hc =>
      obtain ⟨ht', hl'⟩ := hparse hc
      split
      · exact ⟨StatusTapped.congr ht' rfl, FedIn.congr (s := .connected) hl' rfl⟩
      · exact ⟨ht', hl'⟩
  · next hc =>
      have hl' := hnot hc
      split
      · exact ⟨StatusTapped.congr ht rfl, FedIn.congr (s := .connected) hl' rfl⟩
      · exact ⟨ht, hl'⟩

/-! ## Between the states -/

theorem Attempt.fed {peer : Peer} {addr : Sockaddr} (h : Attempt peer addr c next c')
    (hf : fedStatus c.trace = []) : c'.FedAt (.goto next) := by
  cases h with
  | refused => exact fedAt_error
  | opened h =>
      cases h with
      | rejected fd h0 => exact fedAt_error
      | accepted fd h0 => exact fedAt_goto (by simp) hf

theorem fedAt_nextDns {doh : DohConnection} (hf : fedStatus c.trace = []) :
    (c.nextDns doh).2.FedAt (c.nextDns doh).1 := by
  unfold Conn.nextDns
  dsimp only
  split
  · split <;> exact hf
  · split
    · exact fedAt_error
    · exact hf

theorem fedAt_exhausted {doh : DohConnection} (hf : fedStatus c.trace = []) :
    (c.exhausted doh).2.FedAt (c.exhausted doh).1 := by
  unfold Conn.exhausted
  split
  · exact hf
  · exact fedAt_error

theorem fedAt_judged {key : SelectorKey} {doh : DohConnection} {v : Verdict}
    (hcur : c.current = some .awaitDohResponse) (hf : fedStatus c.trace = []) :
    (c.judged key doh v).2.FedAt (c.judged key doh v).1 := by
  have hin : ∀ c' : Conn, c'.current = some .awaitDohResponse → fedStatus c'.trace = [] →
      c'.FedAt (.reading key) := by
    intro c' hcur' hf'
    refine fedAt_reading ?_ ?_ <;> rw [stmState_of_current hcur']
    · simp
    · exact hf'
  unfold Conn.judged
  split
  · exact hin c hcur hf
  · exact hin _ hcur hf
  · exact fedAt_error
  · split
    · exact fedAt_error
    · exact hf

/-- Arriving at a state feeds nothing; CONNECTED is entered with a fresh
parser. -/
theorem fedIn_arrival {env : Env} (hdue : c.FedDue s) (ha : c.arrival d env s = .ok c') :
    c'.FedIn s := by
  cases s with
  | sendDohRequest =>
      obtain ⟨buffer, _, ha⟩ := Lib.bind_eq_ok.mp ha
      cases ha
      exact hdue
  | awaitDohResponse =>
      cases ha
      unfold initDohState
      split
      · exact hdue
      · split <;> exact hdue
  | sendRequestLine =>
      obtain ⟨buffer, _, ha⟩ := Lib.bind_eq_ok.mp ha
      cases ha
      exact hdue
  | connected =>
      cases ha
      intro _ _
      split <;> exact hdue
  | parsingRequestLine =>
      cases ha
      exact hdue
  | tryConnectionIp =>
      cases ha
      exact hdue
  | _ => exact trivial

/-! ## One move -/

theorem StatusTapped.grown (h : c.StatusTapped) (hf : fedStatus c'.trace = fedStatus c.trace)
    (hfs : statusFeeds c'.trace = statusFeeds c.trace)
    (hin : targetIn c.trace <+: targetIn c'.trace) : c'.StatusTapped := by
  refine ⟨?_, ?_⟩
  · rw [hf]
    exact h.fed.trans hin
  · rw [hfs]
    exact h.bounded

theorem targetIn_received (c : Conn) (bs : Bytes) (buffer : Buffer) :
    targetIn c.trace <+: targetIn (c.fromOrigin bs buffer).trace := by
  change _ <+: if towardsDoh c.trace then _ else _
  split
  · exact List.prefix_refl _
  · exact List.prefix_append _ _

theorem closeOrigin_statusView (c : Conn) : c.closeOrigin.statusView = c.statusView := by
  unfold Conn.closeOrigin
  split <;> rfl

theorem closeClient_statusView (c : Conn) : c.closeClient.statusView = c.statusView := by
  unfold Conn.closeClient
  split <;> rfl

theorem Attempt.statusView {peer : Peer} {addr : Sockaddr} (h : Attempt peer addr c next c') :
    c'.statusView = c.statusView := by
  cases h with
  | refused => rfl
  | opened h => cases h <;> rfl

theorem finishRequest_fed (key : SelectorKey) (c : Conn) :
    fedStatus (finishRequest key c).trace = fedStatus c.trace ∧
      statusFeeds (finishRequest key c).trace = statusFeeds c.trace ∧
      targetIn (finishRequest key c).trace = targetIn c.trace := by
  unfold finishRequest
  dsimp only
  split
  · exact ⟨rfl, rfl, rfl⟩
  · split <;> exact ⟨rfl, rfl, rfl⟩

theorem arrival_fed {env : Env} (ha : c.arrival d env s = .ok c') :
    fedStatus c'.trace = fedStatus c.trace ∧ statusFeeds c'.trace = statusFeeds c.trace ∧
      targetIn c'.trace = targetIn c.trace := by
  cases s with
  | sendDohRequest =>
      obtain ⟨buffer, _, ha⟩ := Lib.bind_eq_ok.mp ha
      cases ha
      exact ⟨rfl, rfl, rfl⟩
  | awaitDohResponse =>
      cases ha
      unfold initDohState
      split
      · exact ⟨rfl, rfl, rfl⟩
      · split <;> exact ⟨rfl, rfl, rfl⟩
  | sendRequestLine =>
      obtain ⟨buffer, _, ha⟩ := Lib.bind_eq_ok.mp ha
      cases ha
      exact ⟨rfl, rfl, rfl⟩
  | connected =>
      cases ha
      split <;> exact ⟨rfl, rfl, rfl⟩
  | closing =>
      cases ha
      have hview := (closeClient_statusView _).trans (closeOrigin_statusView c)
      simp only [statusView, Prod.mk.injEq] at hview
      exact ⟨hview.1, hview.2.1, hview.2.2.1⟩
  | emptyBuffers =>
      cases ha
      have hview := (closeOrigin_statusView _).trans (closeClient_statusView c)
      simp only [statusView, Prod.mk.injEq] at hview
      exact ⟨hview.1, hview.2.1, hview.2.2.1⟩
  | error =>
      obtain ⟨buffer, _, ha⟩ := Lib.bind_eq_ok.mp ha
      cases ha
      exact ⟨rfl, rfl, rfl⟩
  | _ =>
      cases ha
      exact ⟨rfl, rfl, rfl⟩

theorem tapped_move {ph ph' : Phase} {m m' : Metrics} (h : c.StatusTapped) (hfed : c.FedAt ph)
    (hm : Move d ⟨ph, c, m⟩ ⟨ph', c', m'⟩) : c'.StatusTapped := by
  cases hm with
  | readOrigin now _ _ _ _ _ =>
      exact StatusTapped.grown h rfl rfl (targetIn_received (c.touched now) _ _)
  | parseDone _ _ _ _ ha =>
      have ht := StatusTapped.congr h ha.statusView
      split
      · obtain ⟨hf, hfs, hin⟩ := finishRequest_fed _ _
        exact StatusTapped.grown ht hf hfs (hin ▸ List.prefix_refl _)
      · exact ht
  | tryNext _ _ _ =>
      obtain ⟨_, _, heq⟩ := nextDns_eq c _
      rw [heq]
      exact StatusTapped.congr h rfl
  | walkOpen _ _ _ _ hr => exact StatusTapped.congr h (Attempt.opened hr).statusView
  | walkEnd _ _ =>
      obtain ⟨_, _, heq⟩ := exhausted_eq c _
      rw [heq]
      exact StatusTapped.congr h rfl
  | ask ha => exact StatusTapped.congr h ha.statusView
  | awaitByte alloc _ _ _ _ _ _ =>
      obtain ⟨_, _, _, heq⟩ := judged_eq (c.fed _ _) _ _ _
      rw [heq]
      exact StatusTapped.congr h rfl
  | awaitEnd _ _ _ _ _ =>
      obtain ⟨_, _, heq⟩ := nextDns_eq (c.log (.shutdown .origin)) _
      rw [heq]
      exact StatusTapped.congr h rfl
  | relayRead hcur _ _ =>
      rw [FedAt, if_pos (stmState_of_current hcur)] at hfed
      exact (analyzeRead_fed h hfed).1
  | relayEnd hcur _ =>
      rw [FedAt, if_pos (stmState_of_current hcur)] at hfed
      exact (analyzeRead_fed h hfed).1
  | closingRead _ _ =>
      exact StatusTapped.congr h ((closeClient_statusView _).trans (closeOrigin_statusView c))
  | closingWrite _ =>
      exact StatusTapped.congr h ((closeClient_statusView _).trans (closeOrigin_statusView c))
  | emptyDone _ _ _ =>
      exact StatusTapped.congr h ((closeOrigin_statusView _).trans (closeClient_statusView c))
  | emptyWrite _ _ =>
      exact StatusTapped.congr h ((closeOrigin_statusView _).trans (closeClient_statusView c))
  | arrive env _ _ ha =>
      obtain ⟨hf, hfs, hin⟩ := arrival_fed ha
      exact StatusTapped.grown (c := c.entered _) ⟨h.fed, h.bounded⟩ hf hfs
        (hin ▸ List.prefix_refl _)
  | _ => exact StatusTapped.congr h rfl

/-- Outside CONNECTED it does not matter what comes in. -/
theorem FedIn.aside (h : c.FedIn s) (hs : s ≠ .connected)
    (hf : fedStatus c'.trace = fedStatus c.trace) : c'.FedIn s := by
  cases s with
  | connected => exact absurd rfl hs
  | closing => exact trivial
  | emptyBuffers => exact trivial
  | done => exact trivial
  | error => exact trivial
  | _ => exact hf.trans h

/-- A read. -/
theorem fed_read {key : SelectorKey} {m m' : Metrics} (hl : Life d .rest c)
    (h : c.FedIn c.stmState) (hm : Move d ⟨.rest, c, m⟩ ⟨.reading key, c', m'⟩)
    (hw : Watched StatusLevel ⟨.rest, c, m⟩ ⟨.reading key, c', m'⟩) :
    c'.FedAt (.reading key) := by
  obtain ⟨act, htr, hlevel, hapart⟩ := hw rfl key rfl
  have hrelay : c.FlowIn d c.stmState := hl.flow
  have hpeer : c.PeerIn d c.stmState := hl.peers
  have hst : c'.stmState = c.stmState := by
    cases hm <;> rfl
  have hfed : fedStatus c'.trace = fedStatus c.trace := by
    cases hm <;> rfl
  rw [FedAt]
  split
  · next hs =>
      rw [hst] at hs
      have hne := hapart hs
      rw [hs] at hrelay hpeer h
      cases hm with
      | readClient now _ hkey _ _ =>
          exact Level.aside (fun he => hne (he.symm.trans hkey))
            (FedIn.congr (s := .connected) h rfl)
      | endOfClient now _ hkey _ =>
          exact Level.aside (fun he => hne (he.symm.trans hkey))
            (FedIn.congr (s := .connected) h rfl)
      | readOrigin now _ hkey _ _ hb =>
          cases htr
          exact Level.fromOrigin hs hkey (towardsDoh_of_target hpeer) hrelay hlevel hb h
      | endOfOrigin now _ hkey _ =>
          cases htr
          exact Level.endOfOrigin hs hrelay hlevel h
  · next hs =>
      rw [hst] at hs ⊢
      exact FedIn.aside h hs hfed

theorem fed_move {ph ph' : Phase} {m m' : Metrics} (hl : Life d ph c)
    (ht : c.StatusTapped) (h : c.FedAt ph) (hm : Move d ⟨ph, c, m⟩ ⟨ph', c', m'⟩)
    (hw : Watched StatusLevel ⟨ph, c, m⟩ ⟨ph', c', m'⟩) : c'.FedAt ph' := by
  have hf := hl.flow
  cases hm with
  | readClient now h1 h2 h3 h4 => exact fed_read hl h (.readClient now h1 h2 h3 h4) hw
  | endOfClient now h1 h2 h3 => exact fed_read hl h (.endOfClient now h1 h2 h3) hw
  | readOrigin now h1 h2 h3 h4 h5 => exact fed_read hl h (.readOrigin now h1 h2 h3 h4 h5) hw
  | endOfOrigin now h1 h2 h3 => exact fed_read hl h (.endOfOrigin now h1 h2 h3) hw
  | writeClient now _ _ _ => exact FedIn.congr (c := c) h rfl
  | readyOrigin now _ => exact FedIn.congr (c := c) h rfl
  | writeRequest now _ _ _ => exact FedIn.congr (c := c) h rfl
  | writeOrigin now _ _ _ _ _ _ => exact FedIn.congr (c := c) h rfl
  | close now => exact trivial
  | closeEarly now _ => exact trivial
  | collect => exact trivial
  | start enabled hcur =>
      have hs : c.stmState = .parsingRequestLine := by rw [stmState, hcur]; rfl
      rw [FedAt, hs] at h
      exact fedAt_reading (by simp [stmState, started, entered]) h
  | parseByte hcur _ _ _ _ =>
      have h := FedAt.reading h hcur (by simp)
      refine fedAt_reading ?_ ?_ <;> rw [show (c.parsed _ _).stmState = _ from
        stmState_of_current hcur]
      · simp
      · exact h
  | parseError _ _ _ _ => exact fedAt_error
  | parseDone hcur _ _ _ ha =>
      have h := FedAt.reading h hcur (by simp)
      rcases ha.cases_next with rfl | ⟨rfl, fd, rfl⟩
      · exact fedAt_error
      · rw [if_pos (by simp)]
        exact fedAt_goto (by simp) ((finishRequest_fed _ _).1.trans h)
  | parseIdle hcur _ => exact fedAt_stay hcur (FedAt.reading h hcur (by simp))
  | tryQuery hcur _ =>
      exact fedAt_goto (by simp) (FedAt.writing (s := .tryConnectionIp) h hcur)
  | tryConnect hcur _ _ _ =>
      rw [FlowAt, stmState_of_current hcur] at hf
      have hfed : fedStatus c.trace = [] := FedAt.writing h hcur
      exact fedAt_connected (fun hc => by cases hcur.symm.trans hc)
        (hfed.trans hf.1.untargeted.received.symm)
  | tryRequest hcur _ _ =>
      exact fedAt_goto (by simp) (FedAt.writing (s := .tryConnectionIp) h hcur)
  | tryFail _ _ => exact fedAt_error
  | tryNext hcur _ _ => exact fedAt_nextDns (FedAt.writing h hcur)
  | walkSkip _ _ _ _ => exact h
  | walkRefused _ _ _ _ => exact h
  | walkOpen _ _ _ _ hr => exact (Attempt.opened hr).fed h
  | walkEnd _ _ => exact fedAt_exhausted h
  | ask ha => exact ha.fed h
  | drained hcur hs _ =>
      rw [FlowAt, stmState_of_current hcur] at hf
      rw [afterDrain, stmState_of_current hcur]
      rcases hs with rfl | rfl | rfl
      · exact fedAt_goto (by simp) (FedAt.writing (s := .sendDohRequest) h hcur)
      · have hfed : fedStatus c.trace = [] := FedAt.writing h hcur
        exact fedAt_connected (by simp [hcur]) (hfed.trans hf.received.symm)
      · exact fedAt_goto (by simp) trivial
  | draining hcur hs _ => exact fedAt_stay hcur (FedAt.writing h hcur)
  | awaitFailed _ _ => exact fedAt_error
  | awaitByte alloc hcur _ _ _ _ _ =>
      exact fedAt_judged (c := c.fed _ _) hcur (FedAt.reading h hcur (by simp))
  | awaitIdle hcur _ _ _ => exact fedAt_stay hcur (FedAt.reading h hcur (by simp))
  | awaitEnd hcur _ _ _ _ =>
      exact fedAt_nextDns (c := c.log (.shutdown .origin)) (FedAt.reading h hcur (by simp))
  | relayRead hcur _ _ =>
      rw [FedAt, if_pos (stmState_of_current hcur)] at h
      exact fedAt_stay ((analyzeRead_buffers _ c).2.2.2.2.trans hcur) (analyzeRead_fed ht h).2
  | relayEnd hcur _ => exact fedAt_goto (by simp) trivial
  | relayWrite hcur => exact fedAt_stay hcur (FedAt.writing h hcur)
  | closingRead _ _ => exact fedAt_goto (by simp) trivial
  | closingDone _ _ _ _ => exact fedAt_goto (by simp) trivial
  | closingEmpty _ _ _ => exact fedAt_goto (by simp) trivial
  | closingWrite _ => exact fedAt_goto (by simp) trivial
  | emptyDone _ _ _ => exact fedAt_goto (by simp) trivial
  | emptyWrite _ _ => exact fedAt_goto (by simp) trivial
  | stay hcur =>
      rw [FedAt, if_pos hcur] at h
      rw [FedAt, stmState_of_current hcur]
      exact h
  | arrive env hcur hne ha =>
      rw [FedAt, if_neg hcur] at h
      rw [FedAt, stmState_of_current (arrival_current ha)]
      exact fedIn_arrival (c := c.entered _) h ha
  | free _ => exact trivial

/-- Every life whose reads keep level feeds the parser what it received. -/
theorem LifeWhen.fed {ph : Phase} (h : LifeWhen d (Watched StatusLevel) ph c) :
    c.StatusTapped ∧ c.FedAt ph := by
  refine h.invariant (I := fun ph c => c.StatusTapped ∧ c.FedAt ph) ?_ ?_
  · intro fd size now mem
    exact ⟨⟨List.nil_prefix, fun f hf => absurd hf List.not_mem_nil⟩, rfl⟩
  · intro ph c m ph' c' m' hl hI hm hw
    exact ⟨tapped_move hI.1 hI.2 hm, fed_move hl hI.1 hI.2 hm hw⟩

end

end HttpdProxy
