import HttpdProxy.Proofs.Daemon
import HttpdProxy.Protocol.Stages

/-!
# What a connection waits for it can use

`set_connection_interests` and its siblings never ask for a `read` into a full
buffer, which would look like the end of a stream, nor for a `send` of an empty
one, which closes the connection; and they always ask for something.
-/

namespace HttpdProxy

open Conn

section

variable {c : Conn}

/-- A buffer that is not full or not empty: with any capacity it is one of
the two. -/
theorem canWrite_or_canRead {b : Buffer} (h : b.limit = bufferSize) :
    bufferCanWrite b = true ∨ bufferCanRead b = true := by
  rcases Bool.eq_false_or_eq_true (bufferCanRead b) with hr | hr
  · exact .inr hr
  · refine .inl (Buffer.canWrite_of_unread_nil ((Buffer.canRead_eq_false_iff b).mp hr) ?_)
    rw [h]
    decide

theorem room_of_empty {b : Buffer} (h : b.limit = bufferSize) (hu : b.unread = []) :
    0 < b.room := by
  rw [Buffer.room_of_unread_nil hu, h]
  decide

/-- The interests of a resting connection, against its buffers. -/
structure Usable (c : Conn) : Prop where
  clientRead : c.interests.1.read = true → 0 < c.clientBuffer.room
  originRead : c.interests.2.read = true → 0 < c.originBuffer.room
  clientWrite : c.interests.1.write = true → c.originBuffer.unread ≠ []
  originWrite : c.interests.2.write = true → c.stmState ≠ .tryConnectionIp →
    (if c.stmState = .sendRequestLine ∨ c.stmState = .sendDohRequest then c.originBuffer
      else c.clientBuffer).unread ≠ []
  awake : c.interests.1 ≠ opNoop ∨ c.stmState.hasOrigin = true ∧ c.interests.2 ≠ opNoop

theorem usable_of {i : Interest × Interest} (hi : c.interests = i)
    (h1 : i.1.read = true → 0 < c.clientBuffer.room)
    (h2 : i.2.read = true → 0 < c.originBuffer.room)
    (h3 : i.1.write = true → c.originBuffer.unread ≠ [])
    (h4 : i.2.write = true → c.stmState ≠ .tryConnectionIp →
      (if c.stmState = .sendRequestLine ∨ c.stmState = .sendDohRequest then c.originBuffer
        else c.clientBuffer).unread ≠ [])
    (h5 : i.1 ≠ opNoop ∨ c.stmState.hasOrigin = true ∧ i.2 ≠ opNoop) : Usable c := by
  subst hi
  exact ⟨h1, h2, h3, h4, h5⟩

/-- Interests that follow the buffers by themselves. -/
theorem usable_relay {i : Interest × Interest} (hi : c.interests = i)
    (hreq : ¬ (c.stmState = .sendRequestLine ∨ c.stmState = .sendDohRequest))
    (h1 : i.1.read = true → bufferCanWrite c.clientBuffer = true)
    (h2 : i.2.read = true → bufferCanWrite c.originBuffer = true)
    (h3 : i.1.write = true → bufferCanRead c.originBuffer = true)
    (h4 : i.2.write = true → bufferCanRead c.clientBuffer = true)
    (h5 : i.1 ≠ opNoop ∨ c.stmState.hasOrigin = true ∧ i.2 ≠ opNoop) : Usable c := by
  refine usable_of hi (fun h => (Buffer.canWrite_iff _).mp (h1 h))
    (fun h => (Buffer.canWrite_iff _).mp (h2 h)) (fun h => (Buffer.canRead_iff _).mp (h3 h))
    (fun h _ => ?_) h5
  rw [if_neg hreq]
  exact (Buffer.canRead_iff _).mp (h4 h)

/-- An interest that is not empty. -/
theorem ne_opNoop {i : Interest} (h : i.read = true ∨ i.write = true) : i ≠ opNoop := by
  rintro rfl
  exact h.elim (fun h => by cases h) fun h => by cases h

theorem Life.usable {d : DohUtils} (h : Life d .rest c) : Usable c := by
  obtain ⟨hsized, hstage⟩ := h.stages
  rw [StageOf] at hstage
  have hi : c.interests = c.stmState.interests c := rfl
  cases hs : c.stmState with
  | parsingRequestLine =>
      rw [hs] at hi hstage
      exact usable_of hi (fun _ => room_of_empty hsized.1 hstage.2) (fun h => by cases h)
        (fun h => by cases h) (fun h => by cases h) (.inl (ne_opNoop (.inl rfl)))
  | tryConnectionIp =>
      rw [hs] at hi
      exact usable_of hi (fun h => by cases h) (fun h => by cases h) (fun h => by cases h)
        (fun _ hne => absurd hs hne) (.inr ⟨by rw [hs]; rfl, ne_opNoop (.inr rfl)⟩)
  | sendDohRequest =>
      rw [hs] at hi hstage
      refine usable_of hi (fun h => by cases h) (fun h => by cases h) (fun h => by cases h)
        (fun _ _ => ?_) (.inr ⟨by rw [hs]; rfl, ne_opNoop (.inr rfl)⟩)
      rw [if_pos (.inr hs)]
      exact hstage.2
  | awaitDohResponse =>
      rw [hs] at hi hstage
      exact usable_of hi (fun h => by cases h) (fun _ => room_of_empty hsized.2 hstage.2)
        (fun h => by cases h) (fun h => by cases h)
        (.inr ⟨by rw [hs]; rfl, ne_opNoop (.inl rfl)⟩)
  | sendRequestLine =>
      rw [hs] at hi hstage
      refine usable_of hi (fun h => by cases h) (fun h => by cases h) (fun h => by cases h)
        (fun _ _ => ?_) (.inr ⟨by rw [hs]; rfl, ne_opNoop (.inr rfl)⟩)
      rw [if_pos (.inl hs)]
      exact hstage.2
  | connected =>
      rw [hs] at hi
      refine usable_relay hi (by simp [hs]) id id id id ?_
      rcases canWrite_or_canRead hsized.1 with hc | hc
      · exact .inl (ne_opNoop (.inl hc))
      · exact .inr ⟨by rw [hs]; rfl, ne_opNoop (.inr hc)⟩
  | closing =>
      rw [hs] at hi hstage
      refine usable_relay hi (by simp [hs]) ?_ ?_ ?_ ?_ ?_ <;>
        simp only [ConnState.interests, closingInterests, Bool.and_eq_true]
      · exact And.right
      · exact And.right
      · exact And.right
      · exact And.right
      · have horg : c.stmState.hasOrigin = true := by rw [hs]; rfl
        rcases hstage.1 with ⟨hc, ho⟩ | ⟨hc, ho⟩
        · rcases canWrite_or_canRead hsized.2 with hb | hb
          · exact .inr ⟨horg, ne_opNoop (.inl (by simp [hc, hb]))⟩
          · exact .inl (ne_opNoop (.inr (by simp [hc, hb])))
        · rcases canWrite_or_canRead hsized.1 with hb | hb
          · exact .inl (ne_opNoop (.inl (by simp [ho, hb])))
          · exact .inr ⟨horg, ne_opNoop (.inr (by simp [ho, hb]))⟩
  | emptyBuffers =>
      rw [hs] at hi hstage
      obtain ⟨⟨hce, hoe⟩, _, hun, hnot⟩ := hstage
      refine usable_relay hi (by simp [hs]) (fun h => by cases h) (fun h => by cases h)
        id id ?_
      rcases ending_cases hce with hc | hc
      · exact .inr ⟨by rw [hs]; rfl,
          ne_opNoop (.inr ((Buffer.canRead_iff _).mpr (hun.client hc)))⟩
      · rcases ending_cases hoe with ho | ho
        · exact .inl (ne_opNoop (.inr ((Buffer.canRead_iff _).mpr (hun.origin ho))))
        · exact absurd ⟨hc, ho⟩ hnot
  | done =>
      rw [hs] at hstage
      exact absurd hstage id
  | error =>
      rw [hs] at hi hstage
      exact usable_of hi (fun h => by cases h) (fun h => by cases h) (fun _ => hstage)
        (fun h => by cases h) (.inl (ne_opNoop (.inr rfl)))

end

/-- The interests in the selector on behalf of connection `c` of cell `id`,
against the buffers its four handlers read into and send from. -/
structure Productive (w : World) (id : Nat) (c : Conn) : Prop where
  clientRead : ∀ i, w.sel.fds c.clientFd = some (clientItem id i) → i.read = true →
    0 < c.clientBuffer.room
  originRead : ∀ i, w.sel.fds c.originFd = some (originItem id i) → i.read = true →
    0 < c.originBuffer.room
  clientWrite : ∀ i, w.sel.fds c.clientFd = some (clientItem id i) → i.write = true →
    c.originBuffer.unread ≠ []
  originWrite : ∀ i, w.sel.fds c.originFd = some (originItem id i) → i.write = true →
    c.stmState ≠ .tryConnectionIp →
    (if c.stmState = .sendRequestLine ∨ c.stmState = .sendDohRequest then c.originBuffer
      else c.clientBuffer).unread ≠ []
  client : ∃ i, w.sel.fds c.clientFd = some (clientItem id i)
  awake : ∃ i, i ≠ opNoop ∧ (w.sel.fds c.clientFd = some (clientItem id i) ∨
    w.sel.fds c.originFd = some (originItem id i))

/-- Between events every connection's interests are productive. -/
theorem interests_productive {cfg : Config} {es : List Event} {w : World} {id : Nat}
    {c : Conn} (h : Lib.RunsWhen step Undisturbed (initWorld cfg) es w)
    (hc : w.heap id = .live c) : Productive w id c := by
  obtain ⟨hsound, _, hlives⟩ := lives h
  have hu : Usable c := Life.usable (hlives id _ (member_live hc))
  obtain ⟨oi, hrest⟩ := hsound.resting id c hc
  have hclient : w.sel.fds c.clientFd = some (clientItem id c.interests.1) :=
    hrest.standing.client
  have hci : ∀ i, w.sel.fds c.clientFd = some (clientItem id i) → i = c.interests.1 := by
    intro i hi
    rw [hclient] at hi
    cases hi
    rfl
  have hoi : ∀ i, w.sel.fds c.originFd = some (originItem id i) → i = c.interests.2 := by
    intro i hi
    rcases hrest.standing.only _ _ hi rfl with he | ⟨hsome, _⟩
    · rw [show c.originFd = c.clientFd from he, hclient] at hi
      cases hi
    · obtain ⟨j, rfl⟩ := Option.isSome_iff_exists.mp hsome
      have ho : w.sel.fds c.originFd = some (originItem id j) := (hrest.standing.origin j rfl).1
      rw [ho] at hi
      cases hi
      exact hrest.waits i rfl
  refine ⟨fun i hi => ?_, fun i hi => ?_, fun i hi => ?_, fun i hi => ?_, ⟨_, hclient⟩, ?_⟩
  · rw [hci i hi]
    exact hu.clientRead
  · rw [hoi i hi]
    exact hu.originRead
  · rw [hci i hi]
    exact hu.clientWrite
  · rw [hoi i hi]
    exact hu.originWrite
  · rcases hu.awake with hn | ⟨horg, hn⟩
    · exact ⟨_, hn, .inl hclient⟩
    · obtain ⟨j, rfl⟩ := Option.isSome_iff_exists.mp (hrest.needed horg)
      have hj := hrest.waits j rfl
      exact ⟨_, hn, .inr (hj ▸ (hrest.standing.origin j rfl).1)⟩

/-- Beside one in ERROR, a connection that is relayed and one whose origin has
hung up. -/
theorem interests_productive_crowd :
    ∃ (w : World) (relayed halfClosed : Conn),
      w.heap 1 = .live relayed ∧ relayed.stmState = .connected ∧ Productive w 1 relayed ∧
      w.heap 2 = .live halfClosed ∧ halfClosed.stmState = .closing ∧
        Productive w 2 halfClosed := by
  obtain ⟨w, h, hp⟩ := @computed_run loopback crowd
    (fun w => w.liveAt 1 (·.stmState == .connected) && w.liveAt 2 (·.stmState == .closing))
    (by decide +kernel)
  obtain ⟨hp1, hp2⟩ := (Bool.and_eq_true _ _).mp hp
  obtain ⟨c1, hc1, hst1⟩ := World.liveAt_eq hp1
  obtain ⟨c2, hc2, hst2⟩ := World.liveAt_eq hp2
  exact ⟨w, c1, c2, hc1, eq_of_beq hst1, interests_productive h hc1, hc2, eq_of_beq hst2,
    interests_productive h hc2⟩

end HttpdProxy
