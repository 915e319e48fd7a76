import HttpdProxy.Proofs.Keywords
import HttpdProxy.Utils.Filled

/-!
# POP3 logins

What the sniffer makes of a POP3 login: the greeting, the user line, the
origin's answer, the password line, and the last answer. The limit of a name
and of a password is checked before the byte that would end the line, so one as
long as the array is refused at the carriage return behind it.
-/

namespace HttpdProxy

/-- The port at which POP3 is looked for. -/
def pop3Port : UInt16 := 110

/-- A POP3 login: what the two sides send, up to the origin's last answer. -/
structure Pop3Login where
  greetingOk : Spelling (ascii "+OK")
  greetingText : Bytes
  before : List (DataOwner × UInt8)
  lines : List Bytes
  userWord : Spelling (ascii "USER")
  name : Bytes
  userOk : Spelling (ascii "+OK")
  userText : Bytes
  passWord : Spelling (ascii "PASS")
  password : Bytes
  passOk : Spelling (ascii "+OK")
  before_lines : bytesOf .clientOwned before = lines.flatMap (· ++ crlf)
  no_user : ∀ line ∈ lines, ¬ lower (ascii "USER") <:+: lower line
  name_visible : ∀ c ∈ name, isVchar c = true
  name_nonempty : 1 ≤ name.length
  name_length : name.length ≤ maxUserLength
  password_visible : ∀ c ∈ password, isVchar c = true
  password_nonempty : 1 ≤ password.length
  password_length : password.length ≤ maxPasswordLength

namespace Pop3Login
variable (d : Pop3Login)

/-- The greeting, and what is exchanged before the login. -/
def opening : List (DataOwner × UInt8) :=
  tagged .originOwned d.greetingOk.bytes ++ (tagged .originOwned d.greetingText ++ d.before)

def userLine : List (DataOwner × UInt8) :=
  tagged .clientOwned d.userWord.bytes ++ tagged .clientOwned ([chr ' '] ++ d.name ++ crlf)

def userReply : List (DataOwner × UInt8) :=
  tagged .originOwned d.userOk.bytes ++ tagged .originOwned (d.userText ++ crlf)

def passLine : List (DataOwner × UInt8) :=
  tagged .clientOwned d.passWord.bytes ++ tagged .clientOwned ([chr ' '] ++ d.password ++ crlf)

/-- The dialogue of a login that the origin accepts. -/
def dialogue : List (DataOwner × UInt8) :=
  d.opening ++ d.userLine ++ d.userReply ++ d.passLine ++ tagged .originOwned d.passOk.bytes

/-- The origin refuses the name, and `more` follows. -/
def userRefused (err : Spelling (ascii "-ERR")) (more : List (DataOwner × UInt8)) :
    List (DataOwner × UInt8) :=
  d.opening ++ d.userLine ++ (tagged .originOwned err.bytes ++ more)

/-- The origin refuses the password, and `more` follows. -/
def passRefused (err : Spelling (ascii "-ERR")) (more : List (DataOwner × UInt8)) :
    List (DataOwner × UInt8) :=
  d.opening ++ d.userLine ++ d.userReply ++ d.passLine ++ (tagged .originOwned err.bytes ++ more)

end Pop3Login

/-! ## One state after the other -/

/-- A failed parser stays failed. -/
theorem error_stays {port : UInt16} {p : SnifferParser} (h : p.state = .sniffError)
    (text : List (DataOwner × UInt8)) : Lib.Through (sniffFeed port) NotDone p text p := by
  have hnot : NotDone p := by
    intro hd
    rw [SniffDone, h] at hd
    cases hd
  refine .stays hnot fun x _ => ?_
  unfold sniffFeed snifferParserFeed
  rw [h]

/-- A visible byte is no space and ends no line. -/
theorem vchar_plain {c : UInt8} (h : isVchar c = true) :
    (isSpace c || c == chr '\r') = false ∧ c ≠ chr '\n' := by
  revert h
  exact forall_byte (P := fun c => isVchar c = true →
    (isSpace c || c == chr '\r') = false ∧ c ≠ chr '\n') (by decide +kernel) c

theorem visible_nonzero {text : Bytes} (h : ∀ c ∈ text, isVchar c = true) : (0 : UInt8) ∉ text :=
  fun hz => absurd (h 0 hz) (by decide)

/-- A field that the client sends after a keyword: `store` is the parser behind
the bytes stored, `finish` the one behind the line. -/
structure Collects (limit : Nat) (store finish : Bytes → SnifferParser) : Prop where
  notDone : ∀ text, NotDone (store text)
  fed : ∀ text c, sniffFeed pop3Port (store text) (.clientOwned, c)
    = if text.length ≥ limit then (store text).goto .sniffError
      else if isSpace c || c == chr '\r' then store text
      else if c = chr '\n' then finish text
      else if isVchar c then store (text ++ [c])
      else (store text).goto .sniffError

namespace Collects
variable {limit : Nat} {store finish : Bytes → SnifferParser} {text : Bytes} {c : UInt8}

theorem blank (h : Collects limit store finish) (hlen : text.length < limit)
    (hc : (isSpace c || c == chr '\r') = true) :
    sniffFeed pop3Port (store text) (.clientOwned, c) = store text := by
  rw [h.fed, if_neg (Nat.not_le.mpr hlen), if_pos hc]

theorem stored (h : Collects limit store finish) (hlen : text.length < limit)
    (hc : isVchar c = true) :
    sniffFeed pop3Port (store text) (.clientOwned, c) = store (text ++ [c]) := by
  obtain ⟨hblank, hlf⟩ := vchar_plain hc
  rw [h.fed, if_neg (Nat.not_le.mpr hlen), hblank, if_neg (by decide), if_neg hlf, if_pos hc]

theorem ended (h : Collects limit store finish) (hlen : text.length < limit) :
    sniffFeed pop3Port (store text) (.clientOwned, chr '\n') = finish text := by
  rw [h.fed, if_neg (Nat.not_le.mpr hlen), if_neg (by decide), if_pos rfl]

theorem full (h : Collects limit store finish) (hlen : text.length = limit) :
    (sniffFeed pop3Port (store text) (.clientOwned, c)).state = .sniffError := by
  rw [h.fed, if_pos (Nat.le_of_eq hlen.symm)]
  rfl

theorem stores (h : Collects limit store finish) (hpos : 0 < limit)
    (hvis : ∀ c ∈ text, isVchar c = true) (hlen : text.length ≤ limit) :
    Lib.Through (sniffFeed pop3Port) NotDone (store []) (tagged .clientOwned ([chr ' '] ++ text))
      (store text) := by
  refine Lib.Through.map ?_
  refine .cons (h.notDone []) ?_
  rw [show sniffFeed pop3Port (store []) (.clientOwned, chr ' ') = store [] from
    h.blank hpos (by decide)]
  show Lib.Through _ _ (store []) text (store text)
  refine Lib.Through.accumulates ?_ (fun pre _ => h.notDone pre)
  intro pre x hpre
  have hle := hpre.length_le
  rw [List.length_append, List.length_singleton] at hle
  exact h.stored (by omega) (hvis x (hpre.subset (by simp)))

/-- A field shorter than the limit is read up to the end of its line. -/
theorem line (h : Collects limit store finish) (hvis : ∀ c ∈ text, isVchar c = true)
    (hlen : text.length < limit) (hfinish : NotDone (finish text)) :
    Lib.Through (sniffFeed pop3Port) NotDone (store [])
      (tagged .clientOwned ([chr ' '] ++ text ++ crlf)) (finish text) := by
  rw [tagged_append]
  refine (h.stores (by omega) hvis (by omega)).append ?_
  refine .cons (x := (DataOwner.clientOwned, chr '\r')) (h.notDone text) ?_
  rw [h.blank hlen (by decide), ← h.ended hlen]
  rw [← h.ended hlen] at hfinish
  exact .single (h.notDone text) hfinish

/-- A field of the limit's length fails the parser. -/
theorem too_long (h : Collects limit store finish) (hvis : ∀ c ∈ text, isVchar c = true)
    (hpos : 0 < limit) (hlen : text.length = limit) :
    ∃ q, Lib.Through (sniffFeed pop3Port) NotDone (store [])
        (tagged .clientOwned ([chr ' '] ++ text ++ crlf)) q ∧ q.state = .sniffError := by
  have hfull := h.full (c := chr '\r') hlen
  refine ⟨_, ?_, hfull⟩
  rw [tagged_append]
  refine (h.stores hpos hvis (by omega)).append ?_
  exact .cons (x := (DataOwner.clientOwned, chr '\r')) (h.notDone text) (error_stays hfull _)

end Collects

/-! ## The two fields -/

/-- The parser behind the bytes of a name. -/
def nameStore (base : SnifferParser) (text : Bytes) : SnifferParser :=
  { base with
    state := .sniffPop3UserUsernameValue
    user := filled (maxUserLength + 1) text
    i := text.length }

/-- The parser behind the line of a name. -/
def nameFinish (base : SnifferParser) (text : Bytes) : SnifferParser :=
  { base with
    state := .sniffPop3OriginUserAck
    user := filled (maxUserLength + 1) text
    stringParser := some (parserInit (parserUtilsStrcmpi (ascii "+OK")))
    i := text.length }

/-- The parser behind the bytes of a password. -/
def passStore (base : SnifferParser) (text : Bytes) : SnifferParser :=
  { base with
    state := .sniffPop3UserPassValue
    password := filled (maxPasswordLength + 1) text
    i := text.length }

/-- The parser behind the line of a password. -/
def passFinish (base : SnifferParser) (text : Bytes) : SnifferParser :=
  { base with
    state := .sniffPop3OriginPassAck
    password := filled (maxPasswordLength + 1) text
    stringParser := some (parserInit (parserUtilsStrcmpi (ascii "+OK")))
    i := text.length }

theorem name_collects (base : SnifferParser) :
    Collects maxUserLength (nameStore base) (nameFinish base) where
  notDone := fun text h => by cases h
  fed := by
    intro text c
    have hi : (nameStore base text).i = text.length := rfl
    show sPop3UserUsernameValue c (nameStore base text) .clientOwned = _
    rw [sPop3UserUsernameValue, if_neg (by decide), hi]
    by_cases hfull : text.length ≥ maxUserLength
    · rw [if_pos hfull, if_pos hfull]
    · have hlt : text.length < maxUserLength + 1 := by omega
      rw [if_neg hfull, if_neg hfull]
      simp only [nameStore, nameFinish, setStringParser, SnifferParser.goto,
        set_filled c rfl hlt, set_filled_end rfl hlt, List.length_append, List.length_singleton]

theorem pass_collects (base : SnifferParser) :
    Collects maxPasswordLength (passStore base) (passFinish base) where
  notDone := fun text h => by cases h
  fed := by
    intro text c
    have hi : (passStore base text).i = text.length := rfl
    show sPop3UserPassValue c (passStore base text) .clientOwned = _
    rw [sPop3UserPassValue, if_neg (by decide), hi]
    by_cases hfull : text.length ≥ maxPasswordLength
    · rw [if_pos hfull, if_pos hfull]
    · have hlt : text.length < maxPasswordLength + 1 := by omega
      rw [if_neg hfull, if_neg hfull]
      simp only [passStore, passFinish, setStringParser, SnifferParser.goto,
        set_filled c rfl hlt, set_filled_end rfl hlt, List.length_append, List.length_singleton]

/-- The parser knows a name. -/
def named (name : Bytes) : SnifferParser :=
  { snifferParserInit with user := filled (maxUserLength + 1) name, i := name.length }

/-- The origin has accepted the name. -/
def nameAcked (name : Bytes) : SnifferParser := { named name with i := 0 }

/-- The parser knows a name and a password. -/
def credited (name password : Bytes) : SnifferParser :=
  { nameAcked name with
    password := filled (maxPasswordLength + 1) password
    i := password.length }

/-! ## The keywords -/

theorem ok_inLine : InLine (ascii "+OK") := ⟨by decide, by decide, by decide⟩

theorem user_inLine : InLine (ascii "USER") := ⟨by decide, by decide, by decide⟩

theorem pass_inLine : InLine (ascii "PASS") := ⟨by decide, by decide, by decide⟩

variable {p : SnifferParser} {x : DataOwner × UInt8} {c : UInt8}

/-- What follows an `+OK` of the origin. -/
def greeted (p : SnifferParser) : SnifferParser :=
  (setStringParser p "USER").goto .sniffPop3UserUsername

def userAcked (p : SnifferParser) : SnifferParser :=
  (setStringParser { p with i := 0 } "PASS").goto .sniffPop3UserPass

def passAcked (p : SnifferParser) : SnifferParser :=
  { p with i := 0, sniffedProtocol := .pop3, state := .sniffDone }

/-- What follows a keyword of the client. -/
def toName (p : SnifferParser) : SnifferParser :=
  { p with i := 0, state := .sniffPop3UserUsernameValue }

def toPassword (p : SnifferParser) : SnifferParser :=
  { p with i := 0, state := .sniffPop3UserPassValue }

theorem originAck_fed (h : p.state = .sniffPop3OriginAck) :
    sniffFeed pop3Port p (.originOwned, c) = p.scan .sniffPop3OriginAck c greeted := by
  unfold sniffFeed snifferParserFeed
  rw [h]
  rfl

theorem username_fed (hx : x.1 = .clientOwned) (h : p.state = .sniffPop3UserUsername) :
    sniffFeed pop3Port p x = p.scan .sniffPop3UserUsername x.2 toName := by
  unfold sniffFeed snifferParserFeed
  rw [h, hx]
  rfl

theorem username_skips (hx : x.1 ≠ .clientOwned) (h : p.state = .sniffPop3UserUsername) :
    sniffFeed pop3Port p x = p := by
  obtain ⟨owner, c⟩ := x
  cases owner with
  | clientOwned => exact absurd rfl hx
  | originOwned =>
      unfold sniffFeed snifferParserFeed
      rw [h]
      show p.goto .sniffPop3UserUsername = p
      rw [← h]
      rfl

theorem userAck_fed (hc : c ≠ chr '-') (h : p.state = .sniffPop3OriginUserAck) :
    sniffFeed pop3Port p (.originOwned, c) = p.scan .sniffPop3OriginUserAck c userAcked := by
  unfold sniffFeed snifferParserFeed
  rw [h]
  show sPop3Ack .sniffPop3OriginUserAck c p .originOwned userAcked = _
  rw [sPop3Ack, if_neg (by decide), if_neg hc]

theorem userPass_fed (hx : x.1 = .clientOwned) (h : p.state = .sniffPop3UserPass) :
    sniffFeed pop3Port p x = p.scan .sniffPop3UserPass x.2 toPassword := by
  unfold sniffFeed snifferParserFeed
  rw [h, hx]
  rfl

theorem userPass_skips (hx : x.1 ≠ .clientOwned) (h : p.state = .sniffPop3UserPass) :
    sniffFeed pop3Port p x = p := by
  obtain ⟨owner, c⟩ := x
  cases owner with
  | clientOwned => exact absurd rfl hx
  | originOwned =>
      unfold sniffFeed snifferParserFeed
      rw [h]
      show p.goto .sniffPop3UserPass = p
      rw [← h]
      rfl

theorem passAck_fed (hc : c ≠ chr '-') (h : p.state = .sniffPop3OriginPassAck) :
    sniffFeed pop3Port p (.originOwned, c) = p.scan .sniffPop3OriginPassAck c passAcked := by
  unfold sniffFeed snifferParserFeed
  rw [h]
  show sPop3Ack .sniffPop3OriginPassAck c p .originOwned passAcked = _
  rw [sPop3Ack, if_neg (by decide), if_neg hc]

/-- A minus where an answer is awaited. -/
theorem minus_fed (h : p.state = .sniffPop3OriginUserAck ∨ p.state = .sniffPop3OriginPassAck) :
    (sniffFeed pop3Port p (.originOwned, chr '-')).state = .sniffError := by
  unfold sniffFeed snifferParserFeed
  rcases h with h | h
  · rw [h]
    rfl
  · rw [h]
    rfl

theorem no_minus (hc : toLower c ∈ lower (ascii "+OK")) : c ≠ chr '-' := by
  rintro rfl
  exact absurd hc (by decide)

/-- A scan does not depend on the state it began in, when what it leads to does
not. -/
theorem scan_goto {s s' : SnifferState} {eq : SnifferParser → SnifferParser}
    (heq : ∀ p, eq (p.goto s') = eq p) : (p.goto s').scan s c eq = p.scan s c eq := by
  unfold SnifferParser.scan
  have hset : ∀ sp, { p.goto s' with stringParser := some sp }
      = ({ p with stringParser := some sp } : SnifferParser).goto s' := fun _ => rfl
  cases hsp : p.stringParser with
  | none =>
      rw [show (p.goto s').stringParser = none from hsp]
      rfl
  | some sp =>
      rw [show (p.goto s').stringParser = some sp from hsp]
      simp only [hset, heq]
      cases (parserFeed sp c).e1 with
      | eq => rfl
      | neq => rfl
      | mayEq => rfl

/-! ## The dialogue, line by line -/

open SnifferParser (Scanning scanned)

namespace Pop3Login
variable (d : Pop3Login)

/-- A fresh parser takes the first byte as one of the greeting. -/
theorem start_fed (c : UInt8) : sniffFeed pop3Port snifferParserInit (.originOwned, c)
    = sniffFeed pop3Port ((setStringParser snifferParserInit "+OK").goto .sniffPop3OriginAck)
        (.originOwned, c) := by
  have hack := originAck_fed (c := c)
    (p := (setStringParser snifferParserInit "+OK").goto .sniffPop3OriginAck) rfl
  rw [hack, scan_goto fun _ => rfl]
  rfl

theorem opened : ∃ q, Lib.Through (sniffFeed pop3Port) NotDone snifferParserInit d.opening q ∧
    Scanning snifferParserInit .sniffPop3UserUsername (ascii "USER") 0 q := by
  have hbegin : Scanning snifferParserInit .sniffPop3OriginAck (ascii "+OK") 0
      ((setStringParser snifferParserInit "+OK").goto .sniffPop3OriginAck) := ⟨.mayEq, rfl⟩
  have hok := hbegin.found (Q := NotDone) d.greetingOk ok_inLine
    (fun c _ p hp => originAck_fed hp) (fun p hp => notDone_of_state (by decide) hp)
    (fun hd => by cases hd)
  have hgreeted : Scanning snifferParserInit .sniffPop3UserUsername (ascii "USER") 0
      (greeted (scanned snifferParserInit .sniffPop3OriginAck (ascii "+OK"))) := ⟨.mayEq, rfl⟩
  have hlines : bytesOf .clientOwned (tagged .originOwned d.greetingText ++ d.before)
      = d.lines.flatMap (· ++ crlf) := by
    rw [bytesOf_append, bytesOf_other (by decide), List.nil_append, d.before_lines]
  obtain ⟨q, hrest, hq⟩ := hgreeted.lines (fun x _ hx p hp => username_fed hx hp)
    (fun x _ hx p hp => username_skips hx hp) user_inLine hlines d.no_user
  refine ⟨q, ?_, hq⟩
  have hrun := hok.append (hrest.mono fun p hp => notDone_of_state (by decide) hp)
  obtain ⟨pre, x, hlast⟩ := d.greetingOk.exists_last (by decide)
  have hne : tagged .originOwned d.greetingOk.bytes ≠ [] := by
    rw [hlast]
    simp [tagged]
  unfold opening
  cases hsplit : d.greetingOk.bytes with
  | nil =>
      rw [hsplit] at hne
      exact absurd rfl hne
  | cons c rest =>
      rw [hsplit] at hrun
      cases hrun with
      | cons _ hrun =>
          rw [← start_fed] at hrun
          exact .cons (fun hd => by cases hd) hrun

/-- A field shorter than the limit takes the parser to the answer. -/
theorem user_line {q : SnifferParser}
    (h : Scanning snifferParserInit .sniffPop3UserUsername (ascii "USER") 0 q)
    (hlen : d.name.length < maxUserLength) :
    ∃ t, Lib.Through (sniffFeed pop3Port) NotDone q d.userLine t ∧
      Scanning (named d.name) .sniffPop3OriginUserAck (ascii "+OK") 0 t := by
  have hword := h.found (Q := NotDone) d.userWord user_inLine
    (fun c _ p hp => username_fed (x := (DataOwner.clientOwned, c)) rfl hp)
    (fun p hp => notDone_of_state (by decide) hp) (fun hd => by cases hd)
  have hfield := (name_collects (scanned snifferParserInit .sniffPop3UserUsername
    (ascii "USER"))).line d.name_visible hlen (fun hd => by cases hd)
  exact ⟨_, hword.append hfield, .mayEq, rfl⟩

/-- A name of the limit's length fails the parser. -/
theorem user_line_long {q : SnifferParser}
    (h : Scanning snifferParserInit .sniffPop3UserUsername (ascii "USER") 0 q)
    (hlen : d.name.length = maxUserLength) :
    ∃ t, Lib.Through (sniffFeed pop3Port) NotDone q d.userLine t ∧ t.state = .sniffError := by
  have hword := h.found (Q := NotDone) d.userWord user_inLine
    (fun c _ p hp => username_fed (x := (DataOwner.clientOwned, c)) rfl hp)
    (fun p hp => notDone_of_state (by decide) hp) (fun hd => by cases hd)
  obtain ⟨t, hfield, ht⟩ := (name_collects (scanned snifferParserInit .sniffPop3UserUsername
    (ascii "USER"))).too_long d.name_visible (by decide) hlen
  exact ⟨t, hword.append hfield, ht⟩

theorem user_reply {q : SnifferParser}
    (h : Scanning (named d.name) .sniffPop3OriginUserAck (ascii "+OK") 0 q) :
    ∃ t, Lib.Through (sniffFeed pop3Port) NotDone q d.userReply t ∧
      Scanning (nameAcked d.name) .sniffPop3UserPass (ascii "PASS") 0 t := by
  have hok := h.found (Q := NotDone) d.userOk ok_inLine
    (fun c hc p hp => userAck_fed (no_minus hc) hp)
    (fun p hp => notDone_of_state (by decide) hp) (fun hd => by cases hd)
  have hacked : Scanning (nameAcked d.name) .sniffPop3UserPass (ascii "PASS") 0
      (userAcked (scanned (named d.name) .sniffPop3OriginUserAck (ascii "+OK"))) := ⟨.mayEq, rfl⟩
  have hlines : bytesOf .clientOwned (tagged .originOwned (d.userText ++ crlf))
      = ([] : List Bytes).flatMap (· ++ crlf) := bytesOf_other (by decide)
  obtain ⟨t, hrest, ht⟩ := hacked.lines (fun x _ hx p hp => userPass_fed hx hp)
    (fun x _ hx p hp => userPass_skips hx hp) pass_inLine hlines
    (fun line hl => absurd hl (List.not_mem_nil))
  exact ⟨t, hok.append (hrest.mono fun p hp => notDone_of_state (by decide) hp), ht⟩

theorem pass_line {q : SnifferParser}
    (h : Scanning (nameAcked d.name) .sniffPop3UserPass (ascii "PASS") 0 q)
    (hlen : d.password.length < maxPasswordLength) :
    ∃ t, Lib.Through (sniffFeed pop3Port) NotDone q d.passLine t ∧
      Scanning (credited d.name d.password) .sniffPop3OriginPassAck (ascii "+OK") 0 t := by
  have hword := h.found (Q := NotDone) d.passWord pass_inLine
    (fun c _ p hp => userPass_fed (x := (DataOwner.clientOwned, c)) rfl hp)
    (fun p hp => notDone_of_state (by decide) hp) (fun hd => by cases hd)
  have hfield := (pass_collects (scanned (nameAcked d.name) .sniffPop3UserPass
    (ascii "PASS"))).line d.password_visible hlen (fun hd => by cases hd)
  exact ⟨_, hword.append hfield, .mayEq, rfl⟩

/-- A password of the limit's length fails the parser. -/
theorem pass_line_long {q : SnifferParser}
    (h : Scanning (nameAcked d.name) .sniffPop3UserPass (ascii "PASS") 0 q)
    (hlen : d.password.length = maxPasswordLength) :
    ∃ t, Lib.Through (sniffFeed pop3Port) NotDone q d.passLine t ∧ t.state = .sniffError := by
  have hword := h.found (Q := NotDone) d.passWord pass_inLine
    (fun c _ p hp => userPass_fed (x := (DataOwner.clientOwned, c)) rfl hp)
    (fun p hp => notDone_of_state (by decide) hp) (fun hd => by cases hd)
  obtain ⟨t, hfield, ht⟩ := (pass_collects (scanned (nameAcked d.name)
    .sniffPop3UserPass (ascii "PASS"))).too_long d.password_visible (by decide) hlen
  exact ⟨t, hword.append hfield, ht⟩

/-- Up to the origin's answer to the name: it is awaited, or the name was too
long. -/
theorem name_sent : ∃ t, Lib.Through (sniffFeed pop3Port) NotDone snifferParserInit
      (d.opening ++ d.userLine) t ∧
    if d.name.length < maxUserLength then
      Scanning (named d.name) .sniffPop3OriginUserAck (ascii "+OK") 0 t
    else t.state = .sniffError := by
  obtain ⟨q, hopen, hq⟩ := d.opened
  split
  · next hlen =>
      obtain ⟨t, hline, ht⟩ := d.user_line hq hlen
      exact ⟨t, hopen.append hline, ht⟩
  · next hlen =>
      have hmax := d.name_length
      obtain ⟨t, hline, ht⟩ := d.user_line_long hq (by omega)
      exact ⟨t, hopen.append hline, ht⟩

/-- Up to the origin's answer to the password: it is awaited, or one of the two
was too long. -/
theorem password_sent : ∃ t, Lib.Through (sniffFeed pop3Port) NotDone snifferParserInit
      (d.opening ++ d.userLine ++ d.userReply ++ d.passLine) t ∧
    if d.name.length < maxUserLength ∧ d.password.length < maxPasswordLength then
      Scanning (credited d.name d.password) .sniffPop3OriginPassAck (ascii "+OK") 0 t
    else t.state = .sniffError := by
  obtain ⟨q, hname, hq⟩ := d.name_sent
  by_cases hlen : d.name.length < maxUserLength
  · rw [if_pos hlen] at hq
    obtain ⟨r, hreply, hr⟩ := d.user_reply hq
    by_cases hpass : d.password.length < maxPasswordLength
    · obtain ⟨t, hline, ht⟩ := d.pass_line hr hpass
      refine ⟨t, (hname.append hreply).append hline, ?_⟩
      rwa [if_pos ⟨hlen, hpass⟩]
    · have hmax := d.password_length
      obtain ⟨t, hline, ht⟩ := d.pass_line_long hr (by omega)
      refine ⟨t, (hname.append hreply).append hline, ?_⟩
      rwa [if_neg fun h => hpass h.2]
  · rw [if_neg hlen] at hq
    refine ⟨q, (hname.append (error_stays hq _)).append (error_stays hq _), ?_⟩
    rwa [if_neg fun h => hlen h.1]

end Pop3Login

/-! ## The verdict -/

/-- The parser fails on the text, and is done nowhere in it. -/
def Refused (text : List (DataOwner × UInt8)) : Prop :=
  (text.foldl (sniffFeed pop3Port) snifferParserInit).state = .sniffError ∧
    ∀ k, ¬ SniffDone ((text.take k).foldl (sniffFeed pop3Port) snifferParserInit)

/-- The bytes that an `-ERR` begins with fail a parser that awaits an answer,
or that has failed. -/
theorem err_fed {q : SnifferParser} {text : List (DataOwner × UInt8)}
    (h : Lib.Through (sniffFeed pop3Port) NotDone snifferParserInit text q)
    (hq : q.state = .sniffPop3OriginUserAck ∨ q.state = .sniffPop3OriginPassAck ∨
      q.state = .sniffError)
    (err : Spelling (ascii "-ERR")) (more : List (DataOwner × UInt8)) :
    Refused (text ++ (tagged .originOwned err.bytes ++ more)) := by
  have hrest : ∃ t, Lib.Through (sniffFeed pop3Port) NotDone q
      (tagged .originOwned err.bytes ++ more) t ∧ t.state = .sniffError := by
    by_cases herror : q.state = .sniffError
    · exact ⟨q, error_stays herror _, herror⟩
    · have hspelled := err.spelled
      cases hbytes : err.bytes with
      | nil =>
          rw [hbytes] at hspelled
          cases hspelled
      | cons c rest =>
          rw [hbytes] at hspelled
          have hminus : c = chr '-' := by
            have hc : toLower c = toLower (chr '-') := (List.cons.inj hspelled).1
            rcases either_case.mpr hc with h | h
            · exact h
            · exact h
          subst hminus
          have hawait : q.state = .sniffPop3OriginUserAck ∨ q.state = .sniffPop3OriginPassAck := by
            rcases hq with h | h | h
            · exact .inl h
            · exact .inr h
            · exact absurd h herror
          have hfail := minus_fed hawait
          exact ⟨_, .cons h.last (error_stays hfail _), hfail⟩
  obtain ⟨t, hrest, ht⟩ := hrest
  have hrun := h.append hrest
  refine ⟨by rw [hrun.foldl, ht], fun k => hrun.within k⟩

namespace Pop3Login
variable (d : Pop3Login)

/-- The credentials are extracted: the parser is done with the origin's last
answer and has the name and the password, and is not when the origin refuses
one of them. -/
def Extracts : Prop :=
  (Lib.Finishes (sniffFeed pop3Port) SniffDone snifferParserInit d.dialogue ∧
    cstr (d.dialogue.foldl (sniffFeed pop3Port) snifferParserInit).user = d.name ∧
    cstr (d.dialogue.foldl (sniffFeed pop3Port) snifferParserInit).password = d.password) ∧
  ∀ err more, Refused (d.userRefused err more) ∧ Refused (d.passRefused err more)

theorem refused (err : Spelling (ascii "-ERR")) (more : List (DataOwner × UInt8)) :
    Refused (d.userRefused err more) ∧ Refused (d.passRefused err more) := by
  obtain ⟨q, hname, hq⟩ := d.name_sent
  obtain ⟨t, hpass, ht⟩ := d.password_sent
  constructor
  · refine err_fed hname ?_ err more
    split at hq
    · exact .inl hq.state
    · exact .inr (.inr hq)
  · refine err_fed hpass ?_ err more
    split at ht
    · exact .inr (.inl ht.state)
    · exact .inr (.inr ht)

/-- The login that the parser follows to its end. -/
theorem accepted (hname : d.name.length < maxUserLength)
    (hpass : d.password.length < maxPasswordLength) :
    Lib.Finishes (sniffFeed pop3Port) SniffDone snifferParserInit d.dialogue ∧
      d.dialogue.foldl (sniffFeed pop3Port) snifferParserInit
        = passAcked (scanned (credited d.name d.password) .sniffPop3OriginPassAck
            (ascii "+OK")) := by
  obtain ⟨t, hrun, ht⟩ := d.password_sent
  rw [if_pos ⟨hname, hpass⟩] at ht
  obtain ⟨pre, x, q, hlast, hpre, hx⟩ := ht.spelled d.passOk ok_inLine.nonempty
    (fun c hc p hp => passAck_fed (no_minus hc) hp)
  have hall := hrun.append (hpre.mono fun p hp => notDone_of_state (by decide) hp)
  have hsplit : d.dialogue = (d.opening ++ d.userLine ++ d.userReply ++ d.passLine ++
      tagged .originOwned pre) ++ [(.originOwned, x)] := by
    unfold dialogue
    rw [hlast, tagged_append, ← List.append_assoc]
    rfl
  rw [hsplit]
  refine ⟨hall.finishes (fun _ h => h) ?_, ?_⟩
  · rw [hx]
    rfl
  · rw [List.foldl_append, hall.foldl, List.foldl_cons, List.foldl_nil, hx]

end Pop3Login

/-- The credentials of a login are extracted exactly when the name and the
password are each shorter than their arrays allow. -/
theorem pop3_login_extracted_iff (d : Pop3Login) :
    d.Extracts ↔ d.name.length < maxUserLength ∧ d.password.length < maxPasswordLength := by
  constructor
  · intro ⟨⟨hfin, _⟩, _⟩
    by_cases hlen : d.name.length < maxUserLength ∧ d.password.length < maxPasswordLength
    · exact hlen
    · obtain ⟨t, hrun, ht⟩ := d.password_sent
      rw [if_neg hlen] at ht
      have hall := hrun.append (error_stays ht (tagged .originOwned d.passOk.bytes))
      have hend := hfin.1
      unfold Pop3Login.dialogue at hend
      rw [hall.foldl, SniffDone, ht] at hend
      cases hend
  · intro ⟨hname, hpass⟩
    obtain ⟨hfin, hend⟩ := d.accepted hname hpass
    refine ⟨⟨hfin, ?_, ?_⟩, d.refused⟩
    · rw [hend]
      exact cstr_filled (visible_nonzero d.name_visible) (by omega)
    · rw [hend]
      exact cstr_filled (visible_nonzero d.password_visible) (by omega)

/-- A keyword as the protocol writes it. -/
def plainSpelling (word : Bytes) : Spelling word := ⟨word, rfl⟩

/-- A login with a name as long as the array. -/
def longNameLogin : Pop3Login where
  greetingOk := plainSpelling _
  greetingText := ascii " ready\r\n"
  before := []
  lines := []
  userWord := plainSpelling _
  name := List.replicate 40 (chr 'u')
  userOk := plainSpelling _
  userText := []
  passWord := plainSpelling _
  password := ascii "secret"
  passOk := plainSpelling _
  before_lines := rfl
  no_user := fun line hl => absurd hl List.not_mem_nil
  name_visible := List.all_eq_true.mp (by decide)
  name_nonempty := by decide
  name_length := by decide
  password_visible := List.all_eq_true.mp (by decide)
  password_nonempty := by decide
  password_length := by decide

theorem long_name_not_extracted : ¬ longNameLogin.Extracts := by
  intro h
  have hdone := h.1.1.1
  revert hdone
  decide +kernel

end HttpdProxy
