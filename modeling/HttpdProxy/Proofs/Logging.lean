import HttpdProxy.Daemon.Logger
import HttpdProxy.Lib.Runs

/-!
# What becomes of log records

What an output has taken and what its buffer holds are together one stream,
and the stream should be whole records in the order they were logged. It is,
as long as a direct `write` takes all of a record or nothing of it, and takes
it only while nothing waits in the buffer: then each event extends the stream
by at most one whole record, at its end. `logger_log` checks neither.
-/

namespace HttpdProxy

/-- The bytes an output has taken, and those that wait in its buffer. -/
def LogOutput.stream (o : LogOutput) : Bytes := o.written ++ o.buffer.unread

/-- The record an event logs at an output. -/
def LogEvent.records (fd : OutputFd) : LogEvent → List Bytes
  | .log record level _ => if level.fd = fd then [record] else []
  | .writable .. => []

/-- The records logged at an output, in call order. -/
def recordsAt (fd : OutputFd) (es : List LogEvent) : List Bytes :=
  es.flatMap (LogEvent.records fd)

/-- What is to be kept of them: a record is dropped only where `write` would
block and the buffer has no room for it. -/
def LogEvent.kept (fd : OutputFd) (l : Logger) : LogEvent → List Bytes
  | .log record level r =>
      if level.fd = fd ∧ (r = .again → record.length ≤ (l.output fd).buffer.room) then [record]
      else []
  | .writable .. => []

/-- What is to be kept of the records of a run. -/
def keptRecords (fd : OutputFd) (es : List LogEvent) (l : Logger) : List Bytes :=
  Lib.told Logger.step (LogEvent.kept fd) es l

/-- After the events `es` the stream is the records that could be written or
stored, whole and in call order. -/
structure WholeRecords (fd : OutputFd) (l₀ : Logger) (es : List LogEvent) (l : Logger) : Prop where
  stream : (l.output fd).stream = (keptRecords fd es l₀).flatten
  order : (keptRecords fd es l₀).Sublist (recordsAt fd es)

/-- A direct `write` would block, or takes all of the record while nothing
waits. -/
def TakesWhole (l : Logger) : LogEvent → Prop
  | .log record level (.wrote n) =>
      record.length ≤ n ∧ (record = [] ∨ (l.output level.fd).buffer.unread = [])
  | .log _ _ .failed => False
  | _ => True

/-! ## One event -/

section

variable {o o' : LogOutput} {record : Bytes} {r : WriteResult}

/-- A record extends the stream by itself where it is kept, and not at all
where there is no room for it. -/
theorem loggerLog_stream (h : loggerLog record r o = .ok o')
    (hw : ∀ n, r = .wrote n → record.length ≤ n ∧ (record = [] ∨ o.buffer.unread = []))
    (hf : r ≠ .failed) :
    o'.stream = o.stream ++ if r = .again → record.length ≤ o.buffer.room then record else [] := by
  cases r with
  | wrote n =>
      cases h
      obtain ⟨hle, hempty⟩ := hw n rfl
      rw [if_pos (fun hr => by cases hr)]
      show (o.written ++ record.take n) ++ o.buffer.unread = (o.written ++ o.buffer.unread) ++ record
      rw [List.take_of_length_le hle]
      rcases hempty with hnil | hnil
      · rw [hnil, List.append_nil, List.append_nil]
      · rw [hnil, List.append_nil, List.append_nil]
  | failed => exact absurd rfl hf
  | again =>
      rw [loggerLog] at h
      split at h
      · next hroom =>
          cases h
          rw [if_neg (fun hr => absurd (hr rfl) (Nat.not_le_of_lt hroom)), List.append_nil]
      · next hroom =>
          obtain ⟨buffer, hb, ho⟩ := Lib.bind_eq_ok.mp h
          cases ho
          rw [if_pos (fun _ => Nat.le_of_not_lt hroom)]
          show o.written ++ buffer.unread = (o.written ++ o.buffer.unread) ++ record
          rw [(Buffer.append_spec hb).1, List.append_assoc]

/-- Draining moves bytes along the stream. -/
theorem loggerOnWriteReady_stream (h : loggerOnWriteReady r o = .ok o') :
    o'.stream = o.stream := by
  cases r with
  | wrote n =>
      obtain ⟨buffer, hb, ho⟩ := Lib.bind_eq_ok.mp h
      cases ho
      show (o.written ++ o.buffer.unread.take n) ++ buffer.unread = o.written ++ o.buffer.unread
      have hlen : (o.buffer.unread.take n).length = min n o.buffer.unread.length :=
        List.length_take
      have hdrop : o.buffer.unread.drop (min n o.buffer.unread.length)
          = o.buffer.unread.drop n := by
        rcases Nat.le_total n o.buffer.unread.length with hle | hle
        · rw [Nat.min_eq_left hle]
        · rw [Nat.min_eq_right hle, List.drop_length, List.drop_of_length_le hle]
      rw [(Buffer.readAdv_spec hb).1, hlen, hdrop, List.append_assoc, List.take_append_drop]
  | again | failed =>
      cases h
      rfl

end

/-- What one event does to the stream of an output. -/
theorem step_stream {l l' : Logger} {e : LogEvent} {fd : OutputFd} (hc : TakesWhole l e)
    (hs : l.step e = .ok l') :
    (l'.output fd).stream = (l.output fd).stream ++ (e.kept fd l).flatten := by
  cases e with
  | log record level r =>
      obtain ⟨o, ho, hl⟩ := Lib.bind_eq_ok.mp hs
      cases hl
      rw [Logger.output_setOutput, LogEvent.kept]
      by_cases hfd : fd = level.fd
      · subst hfd
        have hstream := loggerLog_stream ho (fun n hn => by subst hn; exact hc)
          (fun hn => by subst hn; exact hc)
        rw [if_pos rfl, hstream]
        simp only [true_and]
        split
        · rw [List.flatten_singleton]
        · rfl
      · rw [if_neg hfd, if_neg fun hk => hfd hk.1.symm, List.flatten_nil, List.append_nil]
  | writable f r =>
      obtain ⟨o, ho, hl⟩ := Lib.bind_eq_ok.mp hs
      cases hl
      rw [Logger.output_setOutput, LogEvent.kept, List.flatten_nil, List.append_nil]
      by_cases hfd : fd = f
      · subst hfd
        rw [if_pos rfl]
        exact loggerOnWriteReady_stream ho
      · rw [if_neg hfd]

/-! ## Whole runs -/

/-- Nothing is kept that was not logged, and in the same order. -/
theorem keptRecords_sublist (fd : OutputFd) (es : List LogEvent) :
    ∀ l : Logger, (keptRecords fd es l).Sublist (recordsAt fd es) := by
  induction es with
  | nil => exact fun l => List.Sublist.refl _
  | cons e es ih =>
      intro l
      have hone : (e.kept fd l).Sublist (e.records fd) := by
        cases e with
        | log record level r =>
            rw [LogEvent.kept, LogEvent.records]
            split
            · next hk => simp [hk.1]
            · exact List.nil_sublist _
        | writable f r => exact List.Sublist.refl _
      rw [keptRecords, Lib.told, recordsAt, List.flatMap_cons]
      refine hone.append ?_
      split
      · exact List.nil_sublist _
      · next l' _ => exact ih l'

/-- In every run in which direct writes would block or take whole records while
nothing waits, each output's stream is, in call order, the records that were
written or had room in the buffer, each of them whole. -/
theorem logs_whole_records {mem : OutputFd → Nat → UInt8} {es : List LogEvent}
    {l : Logger} (h : Lib.RunsWhen Logger.step TakesWhole (initLogger mem) es l)
    (fd : OutputFd) : WholeRecords fd (initLogger mem) es l := by
  refine ⟨?_, keptRecords_sublist fd es (initLogger mem)⟩
  refine h.told (R := fun l records => (l.output fd).stream = records.flatten) ?_ ?_
  · intro l e l' records hr hc hs
    rw [step_stream hc hs, hr, List.flatten_append]
  · cases fd <;> rfl

/-- No event stops the logger, whatever `write` returns: what is stored fits,
and what is drained was there. -/
theorem logger_step_ok {l : Logger}
    (hl : ∀ fd, (l.output fd).buffer.limit = (l.output fd).buffer.alloc)
    (e : LogEvent) : ∃ l', l.step e = .ok l' := by
  cases e with
  | log record level r =>
      have hr : ∃ o, loggerLog record r (l.output level.fd) = .ok o := by
        cases r with
        | wrote n => exact ⟨_, rfl⟩
        | failed => exact ⟨_, rfl⟩
        | again =>
            by_cases hroom : (l.output level.fd).buffer.room < record.length
            · exact ⟨_, if_pos hroom⟩
            · have hwl := (l.output level.fd).buffer.write_le
              have hle : (l.output level.fd).buffer.write + record.length
                  ≤ (l.output level.fd).buffer.limit := by
                unfold Buffer.room at hroom
                omega
              have hb : bufferAppend (l.output level.fd).buffer record = .ok _ :=
                Lib.bind_eq_ok.mpr ⟨_, if_pos (by rw [← hl]; exact hle), dif_pos hle⟩
              exact ⟨_, (if_neg hroom).trans (Lib.bind_eq_ok.mpr ⟨_, hb, rfl⟩)⟩
      obtain ⟨o, ho⟩ := hr
      exact ⟨_, Lib.bind_eq_ok.mpr ⟨o, ho, rfl⟩⟩
  | writable fd r =>
      have hr : ∃ o, loggerOnWriteReady r (l.output fd) = .ok o := by
        cases r with
        | wrote n =>
            obtain ⟨b, hb⟩ := Buffer.readAdv_ok (b := (l.output fd).buffer)
              (n := ((l.output fd).buffer.unread.take n).length) (List.length_take_le' _ _)
            exact ⟨_, Lib.bind_eq_ok.mpr ⟨b, hb, rfl⟩⟩
        | again => exact ⟨_, rfl⟩
        | failed => exact ⟨_, rfl⟩
      obtain ⟨o, ho⟩ := hr
      exact ⟨_, Lib.bind_eq_ok.mpr ⟨o, ho, rfl⟩⟩

/-! ### A record cut, and two in the wrong order -/

/-- The first of two bytes is taken, and nobody keeps the other. -/
def cutShort : List LogEvent := [.log (ascii "ab") .levelInfo (.wrote 1)]

/-- The first record waits while the second is written past it. -/
def overtaken : List LogEvent :=
  [.log (ascii "a") .levelInfo .again, .log (ascii "b") .levelInfo (.wrote 1)]

/-- What a run leaves in the first output's stream. -/
theorem run_of_stream {es : List LogEvent} {bs : Bytes}
    (h : ((Lib.runChecked Logger.step (fun _ _ => true) es (initLogger fun _ _ => 0)).any
      fun l => l.stdout.stream == bs) = true) :
    ∃ l, Lib.Runs Logger.step (initLogger fun _ _ => 0) es l ∧ l.stdout.stream = bs := by
  obtain ⟨l, hrun, hp⟩ := Lib.exists_runs h
  exact ⟨l, hrun, eq_of_beq hp⟩

/-- Both runs break the law at the first output. -/
theorem logs_cut_and_overtaken :
    (∃ l, Lib.Runs Logger.step (initLogger fun _ _ => 0) cutShort l ∧
      ¬ WholeRecords .stdoutFileno (initLogger fun _ _ => 0) cutShort l) ∧
    (∃ l, Lib.Runs Logger.step (initLogger fun _ _ => 0) overtaken l ∧
      ¬ WholeRecords .stdoutFileno (initLogger fun _ _ => 0) overtaken l) := by
  have hcut : ascii "a" ≠
      (keptRecords .stdoutFileno cutShort (initLogger fun _ _ => 0)).flatten := by decide +kernel
  have hovertaken : ascii "ba" ≠
      (keptRecords .stdoutFileno overtaken (initLogger fun _ _ => 0)).flatten := by decide +kernel
  obtain ⟨l, hrun, hstream⟩ := @run_of_stream cutShort (ascii "a") (by decide +kernel)
  obtain ⟨l', hrun', hstream'⟩ := @run_of_stream overtaken (ascii "ba") (by decide +kernel)
  exact ⟨⟨l, hrun, fun h => hcut (hstream.symm.trans h.stream)⟩,
    ⟨l', hrun', fun h => hovertaken (hstream'.symm.trans h.stream)⟩⟩

instance (l : Logger) : (e : LogEvent) → Decidable (TakesWhole l e)
  | .log _ _ (.wrote _) => inferInstanceAs (Decidable (_ ∧ (_ ∨ _)))
  | .log _ _ .failed => inferInstanceAs (Decidable False)
  | .log _ _ .again | .writable .. => inferInstanceAs (Decidable True)

/-- A record that waits, one there is no room for while it does, and one
written whole after the first is drained in two writes. -/
def drained : List LogEvent :=
  [.log (ascii "ab") .levelInfo .again, .log (List.replicate 1023 0) .levelDebug .again,
    .writable .stdoutFileno (.wrote 1), .writable .stdoutFileno .again,
    .writable .stdoutFileno (.wrote 1), .log (ascii "cd") .levelWarn (.wrote 2)]

theorem logs_whole_records_drained :
    ∃ l : Logger, (l.output .stdoutFileno).stream = ascii "abcd" ∧
      WholeRecords .stdoutFileno (initLogger fun _ _ => 0) drained l := by
  obtain ⟨l, hl⟩ := Option.isSome_iff_exists.mp
    (show (Lib.runChecked Logger.step (fun l e => decide (TakesWhole l e)) drained
      (initLogger fun _ _ => 0)).isSome = true by decide +kernel)
  have hrun : Lib.RunsWhen Logger.step TakesWhole (initLogger fun _ _ => 0) drained l :=
    Lib.runsWhen_of_runChecked (fun _ _ h => of_decide_eq_true h) hl
  have hkept : (keptRecords .stdoutFileno drained (initLogger fun _ _ => 0)).flatten
      = ascii "abcd" := by decide +kernel
  have hwhole := logs_whole_records hrun .stdoutFileno
  exact ⟨l, hwhole.stream.trans hkept, hwhole⟩

end HttpdProxy
