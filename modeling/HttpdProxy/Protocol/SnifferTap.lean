import HttpdProxy.Protocol.Flow
import HttpdProxy.Protocol.Watched

/-!
# What the sniffer is fed

`sniff_data` takes as many bytes as the last read counted, from the read
pointer of the buffer that was read into. They are the bytes just received
where the buffer was empty before the read. Bytes received after the request
line in one read with it, and bytes received in CLOSING, have conditions of
their own. The invariant is kept by every move that meets them.
-/

namespace HttpdProxy

open Conn

/-! ## Reading the trace -/

/-- Bytes, with the side they came from. -/
def tagged (owner : DataOwner) (bs : Bytes) : List (DataOwner × UInt8) := bs.map (owner, ·)

/-- What the sniffer was fed. -/
def sniffed : List Act → List (DataOwner × UInt8)
  | [] => []
  | .fedSniffer owner bs :: t => sniffed t ++ tagged owner bs
  | _ :: t => sniffed t

/-- What it is to be fed: what came from the client after its request line, and
from the host, in the order in which it was received. -/
def sniffable : List Act → List (DataOwner × UInt8)
  | [] => []
  | .received .client bs :: t =>
      sniffable t ++ tagged .clientOwned
        ((pastRequestLine (clientIn t ++ bs)).drop (pastRequestLine (clientIn t)).length)
  | .received .origin bs :: t =>
      if towardsDoh t then sniffable t else sniffable t ++ tagged .originOwned bs
  | _ :: t => sniffable t

namespace Conn

/-- The sniffer is on, and has not seen enough. -/
def Sniffs (c : Conn) : Prop := c.sniffer.sniffEnabled = true ∧ c.sniffer.isDone = false

/-- The buffer a side is read into. -/
def received (c : Conn) : Side → Buffer
  | .client => c.clientBuffer
  | .origin => c.originBuffer

/-- A read the sniffer can follow: into an empty buffer in CONNECTED, and not
in CLOSING. -/
def SniffLevel (c : Conn) : Act → Prop
  | .received side _ => c.Sniffs →
      c.stmState ≠ .closing ∧ (c.stmState = .connected → (c.received side).unread = [])
  | _ => True

/-- What the sniffer was fed is what it is to be fed, until it has seen
enough. -/
def Sniffed (c : Conn) : Prop :=
  c.sniffer.sniffEnabled = true →
    sniffed c.trace <+: sniffable c.trace ∧
      (c.sniffer.isDone = false → sniffed c.trace = sniffable c.trace)

/-- No count is left over for it. -/
def Idle (c : Conn) : Prop := c.Sniffed ∧ (c.Sniffs → c.bytesToAnalize = 0)

/-- There was nothing to sniff yet. -/
structure Unsniffed (c : Conn) : Prop where
  sniffed : sniffed c.trace = []
  sniffable : sniffable c.trace = []
  count : c.bytesToAnalize = 0
  pending : c.sniffer.isDone = false

/-- While the request line is read the count is what is unread, and only what
comes after the line is to be sniffed. -/
structure Unfed (c : Conn) (key : SelectorKey) : Prop where
  sniffed : sniffed c.trace = []
  sniffable : sniffable c.trace = tagged .clientOwned (pastRequestLine (clientIn c.trace))
  count : c.bytesToAnalize = c.clientBuffer.unread.length
  pending : c.sniffer.isDone = false
  key : key.fd = c.clientFd

/-- The bytes `sniff_data` is about to go over, with the side they came
from. -/
def pendingSniff (c : Conn) (key : SelectorKey) : List (DataOwner × UInt8) :=
  if key.fd = c.clientFd then
    tagged .clientOwned (c.clientBuffer.unread.take c.bytesToAnalize.toNat)
  else tagged .originOwned (c.originBuffer.unread.take c.bytesToAnalize.toNat)

/-- In the read handler of CONNECTED. -/
def SniffedBut (c : Conn) (key : SelectorKey) : Prop :=
  c.sniffer.sniffEnabled = true →
    sniffed c.trace <+: sniffable c.trace ∧
      (c.sniffer.isDone = false →
        sniffed c.trace ++ c.pendingSniff key = sniffable c.trace)

/-- What has been sniffed, in a state. -/
def SniffIn (c : Conn) : ConnState → Prop
  | .parsingRequestLine => c.Unsniffed
  | .done | .error => c.Sniffed
  | _ => c.Idle

/-- In the read handler of a state. -/
def SniffReading (c : Conn) (key : SelectorKey) : ConnState → Prop
  | .parsingRequestLine => c.Unfed key
  | .connected => c.SniffedBut key
  | s => c.SniffIn s

/-- In a phase. -/
def SniffAt (c : Conn) : Phase → Prop
  | .rest | .writing => c.SniffIn c.stmState
  | .reading key => c.SniffReading key c.stmState
  | .walking | .asking => c.Idle
  | .goto s => c.SniffIn s
  | .gone => c.Sniffed

/-- What the sniffing depends on. -/
def sniffView (c : Conn) :=
  (sniffed c.trace, sniffable c.trace, c.sniffer.sniffEnabled, c.sniffer.isDone,
    c.bytesToAnalize)

end Conn

/-- A request line with more after it is completed: the sniffer sees what is
left of a read unless the request is a CONNECT, or fails for want of a
socket. -/
def Completed (a b : Mid) : Prop :=
  (∃ key, a.phase = .reading key) → a.conn.current = some .parsingRequestLine →
    a.conn.sniffer.sniffEnabled = true →
    (b.conn.requestParser.state = .requestDone) →
    pastRequestLine (clientIn a.conn.trace) ≠ [] →
    b.phase ≠ .goto .error ∧
      cstr b.conn.requestParser.request.method ≠ ascii "CONNECT"

section

variable {d : DohUtils} {c c' : Conn} {s next : ConnState}

theorem Sniffed.congr (h : c.Sniffed) (hv : c'.sniffView = c.sniffView) : c'.Sniffed := by
  simp only [sniffView, Prod.mk.injEq] at hv
  obtain ⟨hs, ha, he, hd, _⟩ := hv
  rw [Sniffed, hs, ha, he, hd]
  exact h

theorem Idle.congr (h : c.Idle) (hv : c'.sniffView = c.sniffView) : c'.Idle := by
  refine ⟨Sniffed.congr h.1 hv, ?_⟩
  simp only [sniffView, Prod.mk.injEq] at hv
  obtain ⟨_, _, he, hd, hb⟩ := hv
  rw [Sniffs, he, hd, hb]
  exact h.2

theorem SniffIn.congr (h : c.SniffIn s) (hv : c'.sniffView = c.sniffView) : c'.SniffIn s := by
  cases s with
  | parsingRequestLine =>
      simp only [sniffView, Prod.mk.injEq] at hv
      obtain ⟨hs, ha, _, hd, hb⟩ := hv
      exact ⟨hs.trans h.sniffed, ha.trans h.sniffable, hb.trans h.count, hd.trans h.pending⟩
  | done => exact Sniffed.congr h hv
  | error => exact Sniffed.congr h hv
  | _ => exact Idle.congr h hv

theorem Unsniffed.sniffed' (h : c.Unsniffed) : c.Sniffed := by
  intro _
  rw [h.sniffed, h.sniffable]
  exact ⟨List.prefix_refl _, fun _ => rfl⟩

theorem SniffIn.sniffed (h : c.SniffIn s) : c.Sniffed := by
  cases s with
  | parsingRequestLine => exact Unsniffed.sniffed' h
  | done => exact h
  | error => exact h
  | _ => exact h.1

/-! ## What comes in -/

theorem tagged_append (owner : DataOwner) (xs ys : Bytes) :
    tagged owner (xs ++ ys) = tagged owner xs ++ tagged owner ys := List.map_append ..

/-- Once the request line is complete all the client sends is to be sniffed. -/
theorem sniffable_fromClient {bs : Bytes} {buffer : Buffer}
    (hc : ∃ line rest, requestHead requestParserInit (clientIn c.trace) = some (line, rest)) :
    sniffable (c.fromClient bs buffer).trace
      = sniffable c.trace ++ tagged .clientOwned bs := by
  obtain ⟨line, rest, hl⟩ := hc
  change sniffable c.trace ++ tagged .clientOwned
    ((pastRequestLine (clientIn c.trace ++ bs)).drop
      (pastRequestLine (clientIn c.trace)).length) = _
  rw [pastRequestLine_eq hl, pastRequestLine_eq (requestHead_more bs hl), List.drop_left]

/-- And before there is one, what comes after it. -/
theorem sniffable_parsing {bs : Bytes} {buffer : Buffer}
    (hnone : requestHead requestParserInit (clientIn c.trace) = none)
    (hs : sniffable c.trace = []) :
    sniffable (c.fromClient bs buffer).trace
      = tagged .clientOwned (pastRequestLine (clientIn c.trace ++ bs)) := by
  have hpast : pastRequestLine (clientIn c.trace) = [] := by
    rw [pastRequestLine, hnone]
    rfl
  change sniffable c.trace ++ tagged .clientOwned
    ((pastRequestLine (clientIn c.trace ++ bs)).drop
      (pastRequestLine (clientIn c.trace)).length) = _
  rw [hpast, hs]
  rfl

theorem sniffable_fromOrigin {bs : Bytes} {buffer : Buffer} (ht : towardsDoh c.trace = false) :
    sniffable (c.fromOrigin bs buffer).trace
      = sniffable c.trace ++ tagged .originOwned bs := by
  change (if towardsDoh c.trace then _ else _) = _
  rw [ht]
  rfl

/-- A side that is not sniffed may bring anything. -/
theorem Sniffed.more {bs : List (DataOwner × UInt8)} (h : c.Sniffed)
    (hs : sniffed c'.trace = sniffed c.trace)
    (ha : sniffable c'.trace = sniffable c.trace ++ bs) (hon : c'.sniffer = c.sniffer)
    (hnot : ¬ c.Sniffs) : c'.Sniffed := by
  rw [Sniffed, hs, ha, hon]
  intro he
  refine ⟨(h he).1.trans (List.prefix_append _ _), fun hd => absurd ⟨he, hd⟩ hnot⟩

theorem pendingSniff_client {key : SelectorKey} {bs : Bytes} (hkey : key.fd = c.clientFd)
    (hb : c.clientBuffer.unread = bs) (hn : c.bytesToAnalize = (bs.length : Int)) :
    c.pendingSniff key = tagged .clientOwned bs := by
  rw [pendingSniff, if_pos hkey, hb, hn, Int.toNat_natCast, List.take_length]

theorem pendingSniff_origin {key : SelectorKey} {bs : Bytes} (hkey : key.fd ≠ c.clientFd)
    (hb : c.originBuffer.unread = bs) (hn : c.bytesToAnalize = (bs.length : Int)) :
    c.pendingSniff key = tagged .originOwned bs := by
  rw [pendingSniff, if_neg hkey, hb, hn, Int.toNat_natCast, List.take_length]

theorem pendingSniff_none {key : SelectorKey} (hn : c.bytesToAnalize = 0) :
    c.pendingSniff key = [] := by
  rw [pendingSniff, hn]
  split <;> rfl

/-- Nothing was read. -/
theorem Idle.but {key : SelectorKey} (h : c.Idle) : c.SniffedBut key := by
  intro he
  obtain ⟨hpre, heq⟩ := h.1 he
  refine ⟨hpre, fun hd => ?_⟩
  rw [pendingSniff_none (h.2 ⟨he, hd⟩), List.append_nil]
  exact heq hd

/-- Bytes were read in CONNECTED into a buffer that was empty if the sniffer
sees them. -/
theorem Idle.read {key : SelectorKey} {bs : List (DataOwner × UInt8)} (h : c.Idle)
    (hs : sniffed c'.trace = sniffed c.trace)
    (ha : sniffable c'.trace = sniffable c.trace ++ bs) (hon : c'.sniffer = c.sniffer)
    (hpending : c.Sniffs → c'.pendingSniff key = bs) : c'.SniffedBut key := by
  rw [SniffedBut, hs, ha, hon]
  intro he
  obtain ⟨hpre, heq⟩ := h.1 he
  refine ⟨hpre.trans (List.prefix_append _ _), fun hd => ?_⟩
  rw [hpending ⟨he, hd⟩, heq hd]

theorem Idle.more {bs : List (DataOwner × UInt8)} (h : c.Idle)
    (hs : sniffed c'.trace = sniffed c.trace)
    (ha : sniffable c'.trace = sniffable c.trace ++ bs) (hon : c'.sniffer = c.sniffer)
    (hnot : ¬ c.Sniffs) : c'.Idle := by
  refine ⟨Sniffed.more h.1 hs ha hon hnot, fun hs' => absurd ?_ hnot⟩
  rwa [Sniffs, hon] at hs'

theorem counted {bs : Bytes} {buffer : Buffer} {now : Nat}
    (hs : c.stmState = .parsingRequestLine ∨ c.stmState = .connected) :
    ((c.touched now).fromClient bs buffer).bytesToAnalize = (bs.length : Int) ∧
      ((c.touched now).fromOrigin bs buffer).bytesToAnalize = (bs.length : Int) := by
  have han : (c.touched now).analyzes = true := by
    rw [analyzes, show (c.touched now).stmState = c.stmState from rfl]
    rcases hs with hs | hs <;> rw [hs] <;> rfl
  exact ⟨if_pos han, if_pos han⟩

theorem sniff_readClient {key : SelectorKey} {bs : Bytes} {buffer : Buffer} {now : Nat}
    (hint : c.interests.1.read = true) (hkey : key.fd = c.clientFd)
    (hb : bufferAppend c.clientBuffer bs = .ok buffer) (hst : c.Stage c.stmState)
    (hf : c.FlowIn d c.stmState) (hlevel : c.SniffLevel (.received .client bs))
    (h : c.SniffIn c.stmState) :
    ((c.touched now).fromClient bs buffer).SniffAt (.reading key) := by
  have hunread := (Buffer.append_spec hb).1
  change ((c.touched now).fromClient bs buffer).SniffReading key c.stmState
  rw [Conn.interests] at hint
  cases hs : c.stmState with
  | parsingRequestLine =>
      rw [hs] at h hf hst
      rw [hst.2, List.nil_append] at hunread
      obtain ⟨eaten, hin, hnil, hpar⟩ := hf.2.eaten
      rw [hst.2, List.append_nil] at hin
      have hnone : requestHead requestParserInit (clientIn c.trace) = none := by
        rw [hin]
        rcases Decidable.em (c.current = none) with hc | hc
        · rw [hnil hc]
          rfl
        · exact (hpar hc).2
      refine ⟨h.sniffed, sniffable_parsing (c := c.touched now) hnone h.sniffable, ?_, h.pending,
        hkey⟩
      rw [(counted (.inl hs)).1]
      exact congrArg (fun l => (List.length l : Int)) hunread.symm
  | connected =>
      rw [hs] at h hf
      refine Idle.read h rfl (sniffable_fromClient (c := c.touched now) hf.complete) rfl
        fun hsn => ?_
      rw [show c.clientBuffer.unread = [] from (hlevel hsn).2 hs, List.nil_append] at hunread
      exact pendingSniff_client hkey hunread (counted (.inr hs)).1
  | closing =>
      rw [hs] at h hf
      exact Idle.more h rfl (sniffable_fromClient (c := c.touched now) hf.complete) rfl
        fun hsn => (hlevel hsn).1 hs
  | _ =>
      rw [hs] at hint
      cases hint

theorem sniff_readOrigin {key : SelectorKey} {bs : Bytes} {buffer : Buffer} {now : Nat}
    (hint : c.interests.2.read = true) (hkey : key.fd = c.originFd)
    (hne : c.originFd ≠ c.clientFd) (hb : bufferAppend c.originBuffer bs = .ok buffer)
    (hp : c.PeerIn d c.stmState) (hlevel : c.SniffLevel (.received .origin bs))
    (h : c.SniffIn c.stmState) :
    ((c.touched now).fromOrigin bs buffer).SniffAt (.reading key) := by
  have hunread := (Buffer.append_spec hb).1
  change ((c.touched now).fromOrigin bs buffer).SniffReading key c.stmState
  rw [Conn.interests] at hint
  cases hs : c.stmState with
  | awaitDohResponse =>
      rw [hs] at h hp
      have hsame : sniffable ((c.touched now).fromOrigin bs buffer).trace = sniffable c.trace :=
        if_pos (towardsDoh_of_doh hp.2.1)
      have hcount : ((c.touched now).fromOrigin bs buffer).bytesToAnalize = c.bytesToAnalize := by
        refine if_neg ?_
        rw [analyzes, show (c.touched now).stmState = _ from hs]
        simp
      refine Idle.congr h ?_
      rw [sniffView, hsame, hcount]
      rfl
  | connected =>
      rw [hs] at h hp
      refine Idle.read h rfl
        (sniffable_fromOrigin (c := c.touched now) (towardsDoh_of_target hp)) rfl fun hsn => ?_
      rw [show c.originBuffer.unread = [] from (hlevel hsn).2 hs, List.nil_append] at hunread
      exact pendingSniff_origin (fun he => hne (hkey.symm.trans he)) hunread
        (counted (.inr hs)).2
  | closing =>
      rw [hs] at h hp
      exact Idle.more h rfl
        (sniffable_fromOrigin (c := c.touched now) (towardsDoh_of_target hp)) rfl
        fun hsn => (hlevel hsn).1 hs
  | _ =>
      rw [hs] at hint
      cases hint

/-- The end of a stream. -/
theorem sniff_end {key : SelectorKey} (hs : c.stmState ≠ .parsingRequestLine)
    (hst : c'.stmState = c.stmState) (hv : c'.sniffView = c.sniffView)
    (h : c.SniffIn c.stmState) : c'.SniffAt (.reading key) := by
  have h' := SniffIn.congr h hv
  rw [SniffAt, hst]
  cases hc : c.stmState with
  | parsingRequestLine => exact absurd hc hs
  | connected =>
      rw [hc] at h'
      exact Idle.but h'
  | _ =>
      rw [hc] at h'
      exact h'

/-! ## The request line -/

/-- After an error the parser stays where it is. -/
theorem requestHead_failed {p : RequestParser} {e : Errors} (bs : Bytes)
    (h : checkRequestLineError p.state = some e) : requestHead p bs = none := by
  induction bs with
  | nil => rfl
  | cons b bs ih =>
      have hfeed : requestParserFeed p b = p := by
        unfold requestParserFeed
        split <;> first | rfl | (next hs => rw [hs] at h; cases h)
      have hne : p.state ≠ .requestDone := by
        intro hs
        rw [hs] at h
        cases h
      rw [requestHead, hfeed, if_neg hne, ih]
      rfl

/-- The loop feeds all it goes over, or stops when the sniffer has seen
enough. -/
theorem sniffDataGo_fed (owner : DataOwner) (port : UInt16) (bs : Bytes) (p : SnifferParser) :
    (sniffDataGo owner port bs p).2.2 <+: bs ∧
      ((sniffDataGo owner port bs p).2.1 = false → (sniffDataGo owner port bs p).2.2 = bs) := by
  induction bs generalizing p with
  | nil => exact ⟨List.nil_prefix, fun _ => rfl⟩
  | cons b bs ih =>
      obtain ⟨hpre, hall⟩ := ih (snifferParserFeed b p owner port)
      rw [sniffDataGo]
      dsimp only
      split
      · exact ⟨(List.prefix_cons_inj b).mpr List.nil_prefix, fun hd => by cases hd⟩
      · refine ⟨(List.prefix_cons_inj b).mpr hpre, fun hd => ?_⟩
        exact congrArg (b :: ·) (hall hd)

theorem sniffData_fed (key : SelectorKey) (c : Conn) :
    ∃ fed, sniffed (sniffData key c).trace = sniffed c.trace ++ fed ∧
      fed <+: c.pendingSniff key ∧
      ((sniffData key c).sniffer.isDone = false → fed = c.pendingSniff key) := by
  unfold pendingSniff
  split
  · next hkey =>
      obtain ⟨hpre, hall⟩ := sniffDataGo_fed .clientOwned c.connectionRequest.port
        (c.clientBuffer.unread.take c.bytesToAnalize.toNat) c.sniffer.snifferParser
      refine ⟨_, ?_, hpre.map _, fun hd => congrArg (tagged .clientOwned) (hall ?_)⟩
      · unfold sniffData
        rw [if_pos hkey]
        rfl
      · unfold sniffData at hd
        rw [if_pos hkey] at hd
        exact (Bool.or_eq_false_iff.mp hd).1
  · next hkey =>
      obtain ⟨hpre, hall⟩ := sniffDataGo_fed .originOwned c.connectionRequest.port
        (c.originBuffer.unread.take c.bytesToAnalize.toNat) c.sniffer.snifferParser
      refine ⟨_, ?_, hpre.map _, fun hd => congrArg (tagged .originOwned) (hall ?_)⟩
      · unfold sniffData
        rw [if_neg hkey]
        rfl
      · unfold sniffData at hd
        rw [if_neg hkey] at hd
        exact (Bool.or_eq_false_iff.mp hd).1

/-- `sniff_data` catches up, and leaves no count. -/
theorem SniffedBut.idle {key : SelectorKey} (h : c.SniffedBut key) (hs : c.Sniffs) :
    (sniffData key c).Idle := by
  obtain ⟨fed, hfed, hpre, hall⟩ := sniffData_fed key c
  have hsame : sniffable (sniffData key c).trace = sniffable c.trace := rfl
  have heq := (h hs.1).2 hs.2
  refine ⟨fun _ => ⟨?_, fun hd => ?_⟩, fun _ => rfl⟩
  · rw [hfed, hsame, ← heq]
    exact (List.prefix_append_right_inj _).mpr hpre
  · rw [hfed, hsame, hall hd]
    exact heq

/-- The read handler of CONNECTED. -/
theorem SniffedBut.analyzeRead {key : SelectorKey} (h : c.SniffedBut key) :
    (analyzeRead key c).Idle := by
  have hsniff : ∀ c : Conn, c.SniffedBut key →
      (if c.sniffer.sniffEnabled && !c.sniffer.isDone then sniffData key c else c).Idle := by
    intro c h
    split
    · next hc =>
        simp only [Bool.and_eq_true, Bool.not_eq_true'] at hc
        exact SniffedBut.idle h hc
    · next hc =>
        have hnot : ¬ c.Sniffs := fun hs => hc (by simp [hs.1, hs.2])
        refine ⟨fun he => ?_, fun hs => absurd hs hnot⟩
        exact ⟨(h he).1, fun hd => absurd ⟨he, hd⟩ hnot⟩
  unfold HttpdProxy.analyzeRead
  dsimp only
  refine hsniff _ ?_
  split
  · exact h
  · exact h

/-- What is left of the read is sniffed, or there is none, or it is dropped
with the request of a tunnel. -/
theorem Unfed.finishRequest {key : SelectorKey} (h : c.Unfed key)
    (hcon : c.connectionRequest.connect = false)
    (hpast : pastRequestLine (clientIn c.trace) = c.clientBuffer.unread)
    (hmore : c.sniffer.sniffEnabled = true → c.clientBuffer.unread ≠ [] →
      cstr c.requestParser.request.method ≠ ascii "CONNECT") :
    (finishRequest key c).Idle := by
  have hsn : sniffable c.trace = tagged .clientOwned c.clientBuffer.unread := by
    rw [h.sniffable, hpast]
  have hnone : ∀ c' : Conn, c'.sniffView = c.sniffView →
      (c.sniffer.sniffEnabled = true → c.clientBuffer.unread = []) → c'.Idle := by
    intro c' hv hnil
    refine Idle.congr ⟨fun he => ?_, fun hs => ?_⟩ hv
    · rw [h.sniffed, hsn, hnil he]
      exact ⟨List.prefix_refl _, fun _ => rfl⟩
    · rw [h.count, hnil hs.1]
      rfl
  unfold HttpdProxy.finishRequest
  dsimp only
  split
  · next hc =>
      refine hnone _ rfl fun he => Decidable.byContradiction fun hne => hmore he hne ?_
      exact (buildConnectionRequest_tunnels hcon).mp hc
  · split
    · next hc =>
        simp only [Bool.and_eq_true, Bool.not_eq_true'] at hc
        refine SniffedBut.idle (fun _ => ⟨?_, fun _ => ?_⟩) ⟨hc.1.1, hc.2⟩
        · change sniffed c.trace <+: _
          rw [h.sniffed]
          exact List.nil_prefix
        · change sniffed c.trace ++ c.pendingSniff key = sniffable c.trace
          rw [pendingSniff_client h.key rfl h.count, h.sniffed, hsn]
          rfl
    · next hc =>
        refine hnone _ rfl fun he => ?_
        have hcount : c.bytesToAnalize = (c.clientBuffer.unread.length : Int) := h.count
        have hpos : ¬ 0 < c.bytesToAnalize := fun hp => hc (by simp [he, hp, h.pending])
        exact List.eq_nil_of_length_eq_zero (by omega)

/-- One more byte of the request line. -/
theorem Unfed.parsed {key : SelectorKey} {b : UInt8} {buffer : Buffer}
    (hb : c.clientBuffer.unread = b :: buffer.unread) (h : c.Unfed key) :
    (c.parsed b buffer).Unfed key := by
  refine ⟨h.sniffed, h.sniffable, ?_, h.pending, h.key⟩
  change c.bytesToAnalize - 1 = (buffer.unread.length : Int)
  rw [h.count, hb, List.length_cons]
  omega

/-- All there was belonged to the request line. -/
theorem Unfed.idle {key : SelectorKey} (hcur : c.current = some .parsingRequestLine)
    (hempty : c.clientBuffer.unread = []) (hp : c.Parsing) (h : c.Unfed key) :
    c.Unsniffed := by
  obtain ⟨eaten, hin, _, hsome⟩ := hp.eaten
  rw [hempty, List.append_nil] at hin
  refine ⟨h.sniffed, ?_, ?_, h.pending⟩
  · rw [h.sniffable, pastRequestLine, hin, (hsome (by rw [hcur]; simp)).2]
    rfl
  · rw [h.count, hempty]
    rfl

/-- A request line that is refused never ends. -/
theorem sniff_parseError {key : SelectorKey} {b : UInt8} {buffer : Buffer} {e : Errors}
    (hcur : c.current = some .parsingRequestLine)
    (hb : c.clientBuffer.unread = b :: buffer.unread)
    (he : checkRequestLineError (c.parsed b buffer).requestParser.state = some e)
    (hp : c.Parsing) (h : c.Unfed key) : ((c.parsed b buffer).failed e).Sniffed := by
  obtain ⟨eaten, hin, _, hsome⟩ := hp.eaten
  obtain ⟨hpar, hnone⟩ := hsome (by rw [hcur]; simp)
  have hpast : pastRequestLine (clientIn c.trace) = [] := by
    have hne : (c.parsed b buffer).requestParser.state ≠ .requestDone := by
      intro hs
      rw [hs] at he
      cases he
    rw [pastRequestLine, hin, hb, requestHead_append _ hnone, ← hpar, requestHead,
      show requestParserFeed c.requestParser b = (c.parsed b buffer).requestParser from rfl,
      if_neg hne, requestHead_failed _ he]
    rfl
  intro _
  rw [show sniffed ((c.parsed b buffer).failed e).trace = _ from h.sniffed,
    show sniffable ((c.parsed b buffer).failed e).trace = _ from h.sniffable, hpast]
  exact ⟨List.prefix_refl _, fun _ => rfl⟩

/-- The request line is complete. -/
theorem sniff_parseDone {key : SelectorKey} {peer : Peer} {addr : Sockaddr} {b : UInt8}
    {buffer : Buffer} (hcur : c.current = some .parsingRequestLine)
    (hb : c.clientBuffer.unread = b :: buffer.unread)
    (hdone : (c.parsed b buffer).requestParser.state = .requestDone)
    (hp : c.Parsing) (h : c.Unfed key)
    (ha : Attempt peer addr (c.parsed b buffer) next c')
    (hmore : c.sniffer.sniffEnabled = true → buffer.unread ≠ [] → next ≠ .error ∧
      cstr (c.parsed b buffer).requestParser.request.method ≠ ascii "CONNECT") :
    (if next ≠ .error then finishRequest key c' else c').SniffIn next := by
  obtain ⟨line, hhead, _⟩ := Parsing.completed hcur hb hdone hp
  have hunfed : (c.parsed b buffer).Unfed key := Unfed.parsed hb h
  have hpast : pastRequestLine (clientIn c.trace) = buffer.unread := pastRequestLine_eq hhead
  rcases ha.cases_next with rfl | ⟨rfl, fd, rfl⟩
  · rw [if_neg (by simp)]
    have hsame : c'.sniffView = (c.parsed b buffer).sniffView := by
      cases ha with
      | refused => rfl
      | opened ha => cases ha; rfl
    refine Sniffed.congr (fun he => ?_) hsame
    have hnil : buffer.unread = [] :=
      Decidable.byContradiction fun hne => (hmore he hne).1 rfl
    rw [hunfed.sniffed, hunfed.sniffable, show pastRequestLine (clientIn (c.parsed b buffer).trace)
      = _ from hpast, hnil]
    exact ⟨List.prefix_refl _, fun _ => rfl⟩
  · rw [if_pos (by simp)]
    refine Unfed.finishRequest (c := (c.parsed b buffer).opened fd peer addr)
      ⟨hunfed.sniffed, hunfed.sniffable, hunfed.count, hunfed.pending, hunfed.key⟩ hp.connect
      hpast fun he hne => ?_
    exact (hmore he hne).2

/-! ## One move -/

theorem closeOrigin_sniffView (c : Conn) : c.closeOrigin.sniffView = c.sniffView := by
  unfold Conn.closeOrigin
  split <;> rfl

theorem closeClient_sniffView (c : Conn) : c.closeClient.sniffView = c.sniffView := by
  unfold Conn.closeClient
  split <;> rfl

theorem arrival_sniffView {env : Env} (ha : c.arrival d env s = .ok c') :
    c'.sniffView = c.sniffView := by
  cases s with
  | sendDohRequest =>
      obtain ⟨buffer, _, ha⟩ := Lib.bind_eq_ok.mp ha
      cases ha
      rfl
  | awaitDohResponse =>
      cases ha
      unfold initDohState
      split
      · rfl
      · split <;> rfl
  | sendRequestLine =>
      obtain ⟨buffer, _, ha⟩ := Lib.bind_eq_ok.mp ha
      cases ha
      rfl
  | connected =>
      cases ha
      split <;> rfl
  | closing =>
      cases ha
      exact (closeClient_sniffView _).trans (closeOrigin_sniffView c)
  | emptyBuffers =>
      cases ha
      exact (closeOrigin_sniffView _).trans (closeClient_sniffView c)
  | error =>
      obtain ⟨buffer, _, ha⟩ := Lib.bind_eq_ok.mp ha
      cases ha
      rfl
  | _ =>
      cases ha
      rfl

/-- Into the states of the DoH walk, or to an error. -/
theorem sniffAt_idle {ph : Phase} (hph : ph = .walking ∨ ph = .asking ∨ ph = .goto .error)
    (h : c.Idle) : c.SniffAt ph := by
  rcases hph with rfl | rfl | rfl
  · exact h
  · exact h
  · exact h.1

theorem sniff_nextDns {doh : DohConnection} (h : c.Idle) :
    (c.nextDns doh).2.SniffAt (c.nextDns doh).1 := by
  refine sniffAt_idle (nextDns_phase c doh) ?_
  obtain ⟨_, _, heq⟩ := nextDns_eq c doh
  rw [heq]
  exact Idle.congr h rfl

theorem sniff_judged {key : SelectorKey} {doh : DohConnection} {v : Verdict}
    (hcur : c.current = some .awaitDohResponse) (h : c.Idle) :
    (c.judged key doh v).2.SniffAt (c.judged key doh v).1 := by
  have hin : ∀ c' : Conn, c'.current = some .awaitDohResponse → c'.sniffView = c.sniffView →
      c'.SniffAt (.reading key) := by
    intro c' hcur' hv
    rw [SniffAt, stmState_of_current hcur']
    exact Idle.congr h hv
  unfold Conn.judged
  split
  · exact hin c hcur rfl
  · exact hin _ hcur rfl
  · exact Sniffed.congr h.1 rfl
  · split
    · exact Sniffed.congr h.1 rfl
    · exact Idle.congr h rfl

theorem Attempt.sniff {peer : Peer} {addr : Sockaddr} (h : Attempt peer addr c next c')
    (hi : c.Idle) : c'.SniffIn next := by
  cases h with
  | refused => exact Sniffed.congr hi.1 rfl
  | opened h =>
      cases h with
      | rejected fd h0 => exact Sniffed.congr hi.1 rfl
      | accepted fd h0 => exact Idle.congr hi rfl

theorem sniff_move {ph ph' : Phase} {m m' : Metrics} (hl : Life d ph c) (h : c.SniffAt ph)
    (hm : Move d ⟨ph, c, m⟩ ⟨ph', c', m'⟩)
    (hw : Watched SniffLevel ⟨ph, c, m⟩ ⟨ph', c', m'⟩)
    (hc : Completed ⟨ph, c, m⟩ ⟨ph', c', m'⟩) : c'.SniffAt ph' := by
  have hf := hl.flow
  have hp := hl.peers
  have hst := hl.stages.2
  have hat : ∀ {s : ConnState}, c.current = some s → c.SniffIn c.stmState → c.SniffIn s :=
    fun hcur h => by rwa [stmState_of_current hcur] at h
  have hreading : ∀ {s : ConnState} {key : SelectorKey}, c.current = some s →
      c.SniffReading key c.stmState → c.SniffReading key s :=
    fun hcur h => by rwa [stmState_of_current hcur] at h
  cases hm with
  | readClient now hint hkey _ hb =>
      obtain ⟨act, htr, hlevel, _⟩ := hw rfl _ rfl
      cases htr
      exact sniff_readClient hint hkey hb hst hf hlevel h
  | endOfClient now hint hkey hnum =>
      refine sniff_end (c := c) ?_ rfl rfl h
      intro hs
      rw [hs] at hnum
      exact absurd hnum (by decide)
  | readOrigin now hint hkey hne _ hb =>
      obtain ⟨act, htr, hlevel, _⟩ := hw rfl _ rfl
      cases htr
      exact sniff_readOrigin hint hkey hne hb hp hlevel h
  | endOfOrigin now hint hkey hne =>
      refine sniff_end (c := c) ?_ rfl rfl h
      intro hs
      rw [Conn.interests, hs] at hint
      cases hint
  | writeClient now _ _ _ => exact SniffIn.congr (c := c) h rfl
  | readyOrigin now _ => exact SniffIn.congr (c := c) h rfl
  | writeRequest now _ _ _ => exact SniffIn.congr (c := c) h rfl
  | writeOrigin now _ _ _ _ _ _ => exact SniffIn.congr (c := c) h rfl
  | close now => exact Sniffed.congr (SniffIn.sniffed h) rfl
  | closeEarly now _ => exact Sniffed.congr (SniffIn.sniffed h) rfl
  | collect => exact SniffIn.sniffed h
  | start enabled hcur =>
      have hs : c.stmState = .parsingRequestLine := by rw [stmState, hcur]; rfl
      rw [SniffAt, hs] at h
      exact ⟨h.sniffed, h.sniffable, h.count, rfl, h.key⟩
  | parseByte hcur hcan hread _ _ =>
      rw [SniffAt, show (c.parsed _ _).stmState = _ from stmState_of_current hcur]
      exact Unfed.parsed (Buffer.read_ok hcan hread).1 (hreading hcur h)
  | parseError hcur hcan hread he =>
      rw [FlowAt, stmState_of_current hcur] at hf
      exact sniff_parseError hcur (Buffer.read_ok hcan hread).1 he hf.2 (hreading hcur h)
  | parseDone hcur hcan hread hdone ha =>
      rename_i c1 key b buffer next
      rw [FlowAt, stmState_of_current hcur] at hf
      have hb := (Buffer.read_ok hcan hread).1
      obtain ⟨line, hhead, _⟩ := Parsing.completed hcur hb hdone hf.2
      refine sniff_parseDone hcur hb hdone hf.2 (hreading hcur h) ha fun he hne => ?_
      have hpar := completed_requestParser key ha
      have hpast := pastRequestLine_eq hhead
      obtain ⟨hnext, hmethod⟩ := hc ⟨key, rfl⟩ hcur he
        ((congrArg RequestParser.state hpar).trans hdone) (by rw [hpast]; exact hne)
      rw [hpar] at hmethod
      exact ⟨fun hn => hnext (congrArg Phase.goto hn), hmethod⟩
  | parseIdle hcur hcan =>
      rw [FlowAt, stmState_of_current hcur] at hf
      exact Unfed.idle hcur ((Buffer.canRead_eq_false_iff _).mp hcan) hf.2 (hreading hcur h)
  | tryQuery hcur _ => exact hat hcur h
  | tryConnect hcur _ _ _ => exact Idle.congr (c := c) (hat hcur h) rfl
  | tryRequest hcur _ _ => exact Idle.congr (c := c) (hat hcur h) rfl
  | tryFail hcur _ => exact Sniffed.congr (SniffIn.sniffed h) rfl
  | tryNext hcur _ _ => exact sniff_nextDns (hat hcur h)
  | walkSkip _ _ _ _ => exact Idle.congr (c := c) h rfl
  | walkRefused _ _ _ _ => exact Idle.congr (c := c) h rfl
  | walkOpen _ _ _ _ hr => exact (Attempt.opened hr).sniff (Idle.congr (c := c) h rfl)
  | walkEnd _ _ =>
      rename_i doh _ _
      refine sniffAt_idle (exhausted_phase c doh) ?_
      obtain ⟨_, _, heq⟩ := exhausted_eq c doh
      rw [heq]
      exact Idle.congr (c := c) h rfl
  | ask ha => exact ha.sniff h
  | drained hcur hs _ =>
      rw [afterDrain, stmState_of_current hcur]
      have h := hat hcur h
      rcases hs with rfl | rfl | rfl
      · exact h
      · exact h
      · exact h
  | draining hcur hs _ => exact hat hcur h
  | awaitFailed hcur _ => exact (hreading hcur h).1
  | awaitByte alloc hcur _ _ _ _ _ =>
      exact sniff_judged (c := c.fed _ _) hcur (Idle.congr (c := c) (hreading hcur h) rfl)
  | awaitIdle hcur _ _ _ => exact hreading hcur h
  | awaitEnd hcur _ _ _ _ =>
      exact sniff_nextDns (Idle.congr (c := c) (hreading hcur h) rfl)
  | relayRead hcur _ _ => exact SniffedBut.analyzeRead (hreading hcur h)
  | relayEnd hcur _ => exact SniffedBut.analyzeRead (hreading hcur h)
  | relayWrite hcur => exact hat hcur h
  | closingRead hcur _ =>
      exact Idle.congr (hreading hcur h)
        ((closeClient_sniffView _).trans (closeOrigin_sniffView c))
  | closingDone hcur _ _ _ => exact Sniffed.congr (hreading hcur h).1 rfl
  | closingEmpty hcur _ _ => exact hreading hcur h
  | closingWrite hcur =>
      exact Idle.congr (hat hcur h) ((closeClient_sniffView _).trans (closeOrigin_sniffView c))
  | emptyDone hcur _ _ =>
      exact Sniffed.congr (hat hcur h).1
        ((closeOrigin_sniffView _).trans (closeClient_sniffView c))
  | emptyWrite hcur _ =>
      exact Idle.congr (hat hcur h) ((closeOrigin_sniffView _).trans (closeClient_sniffView c))
  | stay hcur =>
      rw [SniffAt, stmState_of_current hcur]
      exact h
  | arrive env hcur hne ha =>
      rename_i s
      rw [SniffAt, stmState_of_current (arrival_current ha)]
      have h' : (c.entered s).SniffIn s := SniffIn.congr (c := c) h rfl
      exact SniffIn.congr h' (arrival_sniffView ha)
  | free _ => exact SniffIn.sniffed (s := .done) h

/-- Every life whose reads the sniffer can follow feeds it what it received. -/
theorem LifeWhen.sniffed {ph : Phase}
    (h : LifeWhen d (fun a b => Watched SniffLevel a b ∧ Completed a b) ph c) :
    c.SniffAt ph := by
  refine h.invariant (I := fun ph c => c.SniffAt ph) ?_ ?_
  · intro fd size now mem
    exact ⟨rfl, rfl, rfl, rfl⟩
  · intro ph c m ph' c' m' hl hI hm hv
    exact sniff_move hl hI hm hv.1 hv.2

end

end HttpdProxy
