import HttpdProxy.Lib.Delimited
import HttpdProxy.Lib.Feeding
import HttpdProxy.Utils.Filled
import HttpdProxy.Parsers.StatusLine
import HttpdProxy.Proofs.RequestLines

/-!
# Which status lines are accepted

Two grammars are set side by side. A `StatusText` is a status line as
`status_line_parser.h` declares it. A `LooseStatus` is a status line as the
parser takes it: a digit of the version may be missing, and the reason is made
of fewer bytes, and of fewer kinds of bytes. The parser is followed part by
part through the second grammar, and the two are then compared.
-/

namespace HttpdProxy

/-! ## The two grammars -/

/-- `HTAB / SP / VCHAR / obs-text`. -/
def isReasonText (c : UInt8) : Bool := isSpace c || isVchar c || c ≥ 0x80

/-- A status line within the declared limits. -/
structure StatusText where
  major : UInt8
  minor : UInt8
  code : Bytes
  reason : Bytes
  major_digit : isDigit major = true
  minor_digit : isDigit minor = true
  code_digits : ∀ d ∈ code, isDigit d = true
  code_length : code.length = statusCodeLength
  reason_text : ∀ c ∈ reason, isReasonText c = true
  reason_length : reason.length ≤ maxReasonPhrase

/-- How a status line is sent. -/
def statusBytes (major minor code reason : Bytes) : Bytes :=
  ascii "HTTP/" ++ major ++ [chr '.'] ++ minor ++ [chr ' '] ++ code ++ [chr ' '] ++ reason ++
    [chr '\r'] ++ [chr '\n']

namespace StatusText
variable (t : StatusText)

def bytes : Bytes := statusBytes [t.major] [t.minor] t.code t.reason

/-- The status line that the text encodes. -/
def line : StatusLine where
  versionMajor := t.major - chr '0'
  versionMinor := t.minor - chr '0'
  statusCode := (digitsValue t.code).toUInt16
  reasonPhrase := filled maxReasonPhrase t.reason

end StatusText

/-- What a digit of the version may be: a digit, or nothing. -/
def VersionDigit (ds : Bytes) : Prop := (∀ d ∈ ds, isDigit d = true) ∧ ds.length < 2

/-- A status line as the parser takes it. -/
structure LooseStatus where
  major : Bytes
  minor : Bytes
  code : Bytes
  reason : Bytes
  major_digit : VersionDigit major
  minor_digit : VersionDigit minor
  code_digits : ∀ d ∈ code, isDigit d = true
  code_length : code.length = statusCodeLength
  reason_text : ∀ c ∈ reason, isReasonPhrase c = true
  reason_length : reason.length < maxReasonPhrase

def LooseStatus.bytes (t : LooseStatus) : Bytes := statusBytes t.major t.minor t.code t.reason

/-! ## Following the parser -/

/-- The name of the protocol, byte by byte. -/
theorem take_name {k : Nat} (hk : k < 5) :
    (ascii "HTTP/").take k ++ [(ascii "HTTP/").getD k 0] = (ascii "HTTP/").take (k + 1) := by
  match k, hk with
  | 0, _ | 1, _ | 2, _ | 3, _ | 4, _ => decide

theorem name_not_slash {k : Nat} (hk : k < 4) : (ascii "HTTP/").getD k 0 ≠ chr '/' := by
  match k, hk with
  | 0, _ | 1, _ | 2, _ | 3, _ => decide

theorem all_append {P : UInt8 → Prop} {text : Bytes} {c : UInt8} (h : ∀ x ∈ text, P x)
    (hc : P c) : ∀ x ∈ text ++ [c], P x := by
  intro x hx
  rcases List.mem_append.mp hx with hx | hx
  · exact h x hx
  · rw [List.mem_singleton.mp hx]
    exact hc

/-- The number that digits write, as the parser reckons it in a byte. -/
def byteValue (ds : Bytes) : UInt8 := ds.foldl (fun v d => v * 10 + (d - chr '0')) 0

/-- A status line of which so much is known. -/
def readLine (major minor code reason : Bytes) : StatusLine where
  versionMajor := byteValue major
  versionMinor := byteValue minor
  statusCode := (digitsValue code).toUInt16
  reasonPhrase := filled maxReasonPhrase reason

def LooseStatus.line (t : LooseStatus) : StatusLine := readLine t.major t.minor t.code t.reason

namespace StatusLineParser

def atVersion (k : Nat) : StatusLineParser where
  statusLine := readLine [] [] [] []
  state := .statusLineVersion
  i := k
  n := statusVersionLength

def atMajor (ds : Bytes) : StatusLineParser where
  statusLine := readLine ds [] [] []
  state := .statusLineVersionMajor
  i := ds.length
  n := 2

def atMinor (major ds : Bytes) : StatusLineParser where
  statusLine := readLine major ds [] []
  state := .statusLineVersionMinor
  i := ds.length
  n := 2

def atCode (major minor ds : Bytes) : StatusLineParser where
  statusLine := readLine major minor ds []
  state := .statusLineStatusCode
  i := ds.length
  n := statusCodeLength

def atReason (major minor code text : Bytes) : StatusLineParser where
  statusLine := readLine major minor code text
  state := .statusLineReasonPhrase
  i := text.length
  n := maxReasonPhrase

def atEnd (major minor code reason : Bytes) (s : StatusLineState) : StatusLineParser where
  statusLine := readLine major minor code reason
  state := s
  i := 0
  n := maxReasonPhrase

theorem init_eq : statusLineParserInit = atVersion 0 := by
  simp [statusLineParserInit, atVersion, readLine, byteValue, digitsValue,
    filled_nil]

/-- The first digit sets the number, the others are added to it. -/
theorem byteValue_append (ds : Bytes) (d : UInt8) :
    (if ds = [] then d - chr '0' else byteValue ds * 10 + (d - chr '0'))
      = byteValue (ds ++ [d]) := by
  cases ds with
  | nil => simp [byteValue]
  | cons x xs => simp [byteValue]

theorem codeValue_append (ds : Bytes) (d : UInt8) :
    (if ds = [] then (d - chr '0').toUInt16
      else (digitsValue ds).toUInt16 * 10 + (d - chr '0').toUInt16)
      = (digitsValue (ds ++ [d])).toUInt16 := by
  rw [digitsValue_append]
  split
  · next hnil => simp [hnil, digitsValue]
  · simp

theorem feed_name {k : Nat} {c : UInt8} (h : (ascii "HTTP/").getD k 0 = c) (hk : k < 4) :
    statusLineParserFeed (atVersion k) c = atVersion (k + 1) := by
  have hslash : c ≠ chr '/' := by
    rw [← h]
    exact name_not_slash hk
  have hget : (ascii "HTTP/")[k]?.getD 0 = c := by simpa using h
  simp [statusLineParserFeed, slVersion, atVersion, hget, hslash, statusVersionLength,
    show ¬ 8 ≤ k by omega]

theorem feed_name_end :
    statusLineParserFeed (atVersion 4) (chr '/') = atMajor [] := by
  decide

theorem feed_major {ds : Bytes} {d : UInt8} (hd : isDigit d = true) (hlen : ds.length < 2) :
    statusLineParserFeed (atMajor ds) d = atMajor (ds ++ [d]) := by
  have hdot := (digit_plain hd).2.2.1
  simp [statusLineParserFeed, slVersionMajor, atMajor, readLine, hd, hdot,
    ← byteValue_append, show ¬ 2 ≤ ds.length by omega]

theorem feed_major_end {ds : Bytes} (hlen : ds.length < 2) :
    statusLineParserFeed (atMajor ds) (chr '.') = atMinor ds [] := by
  simp [statusLineParserFeed, slVersionMajor, atMajor, atMinor, goto,
    show ¬ 2 ≤ ds.length by omega]

theorem feed_minor {major ds : Bytes} {d : UInt8} (hd : isDigit d = true)
    (hlen : ds.length < 2) :
    statusLineParserFeed (atMinor major ds) d = atMinor major (ds ++ [d]) := by
  have hspace := (digit_plain hd).2.1
  simp [statusLineParserFeed, slVersionMinor, atMinor, readLine, hd, hspace,
    ← byteValue_append, show ¬ 2 ≤ ds.length by omega]

theorem feed_minor_end {major ds : Bytes} (hlen : ds.length < 2) :
    statusLineParserFeed (atMinor major ds) (chr ' ') = atCode major ds [] := by
  simp [statusLineParserFeed, slVersionMinor, atMinor, atCode, goto,
    show ¬ 2 ≤ ds.length by omega]

theorem feed_code {major minor ds : Bytes} {d : UInt8} (hd : isDigit d = true)
    (hlen : ds.length ≤ statusCodeLength) :
    statusLineParserFeed (atCode major minor ds) d = atCode major minor (ds ++ [d]) := by
  have hspace := (digit_plain hd).2.1
  simp [statusLineParserFeed, slStatusCode, atCode, readLine, hd, hspace,
    ← codeValue_append, show ¬ statusCodeLength < ds.length by omega]

theorem feed_code_end {major minor code : Bytes} (hlen : code.length = statusCodeLength) :
    statusLineParserFeed (atCode major minor code) (chr ' ') = atReason major minor code [] := by
  simp [statusLineParserFeed, slStatusCode, atCode, atReason, goto, hlen]

theorem feed_reason {major minor code text : Bytes} {c : UInt8} (hc : isReasonPhrase c = true)
    (hlen : text.length < maxReasonPhrase) :
    statusLineParserFeed (atReason major minor code text) c
      = atReason major minor code (text ++ [c]) := by
  have hcr : c ≠ chr '\r' := by
    rintro rfl
    revert hc
    decide
  simp [statusLineParserFeed, slReasonPhrase, atReason, readLine, hc, hcr,
    show ¬ maxReasonPhrase ≤ text.length by omega, set_filled c rfl hlen]

theorem feed_reason_end {major minor code text : Bytes} (hlen : text.length < maxReasonPhrase) :
    statusLineParserFeed (atReason major minor code text) (chr '\r')
      = atEnd major minor code text .statusLineEnd := by
  simp [statusLineParserFeed, slReasonPhrase, atReason, atEnd,
    show ¬ maxReasonPhrase ≤ text.length by omega]

theorem feed_end {major minor code reason : Bytes} :
    statusLineParserFeed (atEnd major minor code reason .statusLineEnd) (chr '\n')
      = atEnd major minor code reason .statusLineDone := by
  simp [statusLineParserFeed, slEnd, atEnd]

/-! ## What has been read -/

/-- The text that has led the parser to where it stands. -/
inductive Reads : Bytes → StatusLineParser → Prop where
  | version {text : Bytes} {k : Nat} : k < 5 → text = (ascii "HTTP/").take k →
      Reads text (atVersion k)
  | major {text ds : Bytes} : (∀ d ∈ ds, isDigit d = true) → ds.length ≤ 2 →
      text = ascii "HTTP/" ++ ds → Reads text (atMajor ds)
  | minor {text major ds : Bytes} : VersionDigit major → (∀ d ∈ ds, isDigit d = true) →
      ds.length ≤ 2 → text = ascii "HTTP/" ++ major ++ [chr '.'] ++ ds →
      Reads text (atMinor major ds)
  | code {text major minor ds : Bytes} : VersionDigit major → VersionDigit minor →
      (∀ d ∈ ds, isDigit d = true) →
      text = ascii "HTTP/" ++ major ++ [chr '.'] ++ minor ++ [chr ' '] ++ ds →
      Reads text (atCode major minor ds)
  | reason {text major minor code reason : Bytes} : VersionDigit major → VersionDigit minor →
      (∀ d ∈ code, isDigit d = true) → code.length = statusCodeLength →
      (∀ c ∈ reason, isReasonPhrase c = true) → reason.length ≤ maxReasonPhrase →
      text = ascii "HTTP/" ++ major ++ [chr '.'] ++ minor ++ [chr ' '] ++ code ++ [chr ' '] ++
        reason → Reads text (atReason major minor code reason)
  | ending {text : Bytes} (t : LooseStatus) : text ++ [chr '\n'] = t.bytes →
      Reads text (atEnd t.major t.minor t.code t.reason .statusLineEnd)
  | done {text : Bytes} (t : LooseStatus) (more : Bytes) : text = t.bytes ++ more →
      Reads text (atEnd t.major t.minor t.code t.reason .statusLineDone)
  | failed {text : Bytes} {p : StatusLineParser} : p.state = .statusLineError → Reads text p

/-- A byte that fails the parser. -/
theorem reads_fails {text : Bytes} {p : StatusLineParser} {c : UInt8}
    (h : statusLineParserFeed p c = p.fail) : Reads text (statusLineParserFeed p c) := by
  rw [h]
  exact .failed rfl

/-- The bytes of the name, one after the other. -/
theorem reads_version {k : Nat} {c : UInt8} (hk : k < 5) :
    Reads ((ascii "HTTP/").take k ++ [c]) (statusLineParserFeed (atVersion k) c) := by
  by_cases h : (ascii "HTTP/").getD k 0 = c
  · have htake : (ascii "HTTP/").take k ++ [c] = (ascii "HTTP/").take (k + 1) := by
      rw [← h]
      exact take_name hk
    rw [htake]
    by_cases hlast : k < 4
    · rw [feed_name h hlast]
      exact .version (by omega) rfl
    · obtain rfl : k = 4 := by omega
      have hc : c = chr '/' := h.symm
      rw [hc, feed_name_end]
      exact .major (by simp) (by simp) (by decide)
  · have hbad : (atVersion k).i ≥ (atVersion k).n ∨ (ascii "HTTP/").getD (atVersion k).i 0 ≠ c :=
      .inr h
    refine reads_fails ?_
    show slVersion c (atVersion k) = _
    rw [slVersion, if_pos hbad]

theorem reads_major {ds : Bytes} {c : UInt8} (hdig : ∀ d ∈ ds, isDigit d = true)
    (hlen : ds.length ≤ 2) :
    Reads (ascii "HTTP/" ++ ds ++ [c]) (statusLineParserFeed (atMajor ds) c) := by
  by_cases hlt : ds.length < 2
  · by_cases hdot : c = chr '.'
    · rw [hdot, feed_major_end hlt]
      exact .minor ⟨hdig, hlt⟩ (by simp) (by simp) (by simp)
    · by_cases hd : isDigit c = true
      · rw [feed_major hd hlt]
        exact .major (all_append hdig hd) (by simp; omega) (by simp)
      · refine reads_fails ?_
        simp [statusLineParserFeed, slVersionMajor, atMajor, hdot, hd]
  · refine reads_fails ?_
    simp [statusLineParserFeed, slVersionMajor, atMajor, show 2 ≤ ds.length by omega]

theorem reads_minor {major ds : Bytes} {c : UInt8} (hmajor : VersionDigit major)
    (hdig : ∀ d ∈ ds, isDigit d = true) (hlen : ds.length ≤ 2) :
    Reads (ascii "HTTP/" ++ major ++ [chr '.'] ++ ds ++ [c])
      (statusLineParserFeed (atMinor major ds) c) := by
  by_cases hlt : ds.length < 2
  · by_cases hspace : c = chr ' '
    · rw [hspace, feed_minor_end hlt]
      exact .code hmajor ⟨hdig, hlt⟩ (by simp) (by simp)
    · by_cases hd : isDigit c = true
      · rw [feed_minor hd hlt]
        exact .minor hmajor (all_append hdig hd) (by simp; omega) (by simp)
      · refine reads_fails ?_
        simp [statusLineParserFeed, slVersionMinor, atMinor, hspace, hd]
  · refine reads_fails ?_
    simp [statusLineParserFeed, slVersionMinor, atMinor, show 2 ≤ ds.length by omega]

/-- The limit lets a fourth digit in, but no space follows it. -/
theorem reads_code {major minor ds : Bytes} {c : UInt8} (hmajor : VersionDigit major)
    (hminor : VersionDigit minor) (hdig : ∀ d ∈ ds, isDigit d = true) :
    Reads (ascii "HTTP/" ++ major ++ [chr '.'] ++ minor ++ [chr ' '] ++ ds ++ [c])
      (statusLineParserFeed (atCode major minor ds) c) := by
  by_cases hle : ds.length ≤ statusCodeLength
  · by_cases hend : ds.length = statusCodeLength ∧ c = chr ' '
    · rw [hend.2, feed_code_end hend.1]
      exact .reason hmajor hminor hdig hend.1 (by simp) (by simp) (by simp)
    · by_cases hd : isDigit c = true
      · rw [feed_code hd hle]
        exact .code hmajor hminor (all_append hdig hd) (by simp)
      · refine reads_fails ?_
        simp [statusLineParserFeed, slStatusCode, atCode, hend, hd]
  · refine reads_fails ?_
    simp [statusLineParserFeed, slStatusCode, atCode, show statusCodeLength < ds.length by omega]

theorem reads_reason {major minor code reason : Bytes} {c : UInt8} (hmajor : VersionDigit major)
    (hminor : VersionDigit minor) (hcode : ∀ d ∈ code, isDigit d = true)
    (hlen : code.length = statusCodeLength) (htext : ∀ c ∈ reason, isReasonPhrase c = true)
    (hmax : reason.length ≤ maxReasonPhrase) :
    Reads (ascii "HTTP/" ++ major ++ [chr '.'] ++ minor ++ [chr ' '] ++ code ++ [chr ' '] ++
        reason ++ [c])
      (statusLineParserFeed (atReason major minor code reason) c) := by
  by_cases hlt : reason.length < maxReasonPhrase
  · by_cases hcr : c = chr '\r'
    · rw [hcr, feed_reason_end hlt]
      exact .ending ⟨major, minor, code, reason, hmajor, hminor, hcode, hlen, htext, hlt⟩ rfl
    · by_cases hc : isReasonPhrase c = true
      · rw [feed_reason hc hlt]
        exact .reason hmajor hminor hcode hlen (all_append htext hc) (by simp; omega) (by simp)
      · refine reads_fails ?_
        simp [statusLineParserFeed, slReasonPhrase, atReason, hcr, hc]
  · refine reads_fails ?_
    simp [statusLineParserFeed, slReasonPhrase, atReason,
      show maxReasonPhrase ≤ reason.length by omega]

theorem Reads.step {text : Bytes} {p : StatusLineParser} (h : Reads text p) (c : UInt8) :
    Reads (text ++ [c]) (statusLineParserFeed p c) := by
  cases h with
  | version hk htext =>
      rw [htext]
      exact reads_version hk
  | major hdig hlen htext =>
      rw [htext]
      exact reads_major hdig hlen
  | minor hmajor hdig hlen htext =>
      rw [htext]
      exact reads_minor hmajor hdig hlen
  | code hmajor hminor hdig htext =>
      rw [htext]
      exact reads_code hmajor hminor hdig
  | reason hmajor hminor hcode hlen hreason hmax htext =>
      rw [htext]
      exact reads_reason hmajor hminor hcode hlen hreason hmax
  | ending t htext =>
      by_cases hlf : c = chr '\n'
      · rw [hlf, feed_end, htext]
        exact .done t [] (List.append_nil _).symm
      · refine reads_fails ?_
        simp [statusLineParserFeed, slEnd, atEnd, hlf]
  | done t more htext =>
      exact .done t (more ++ [c]) (by rw [htext, List.append_assoc])
  | failed hfail =>
      have hfeed : statusLineParserFeed p c = p := by
        rw [statusLineParserFeed, hfail]
      rw [hfeed]
      exact .failed hfail

theorem reads (text : Bytes) :
    Reads text (text.foldl statusLineParserFeed statusLineParserInit) := by
  apply Lib.foldl_tells
  · rw [init_eq]
    exact .version (by omega) rfl
  · intro text p c h
    exact h.step c

/-! ## What is accepted -/

def Done (p : StatusLineParser) : Prop := p.state = .statusLineDone

theorem feed_done {p : StatusLineParser} (h : p.Done) (c : UInt8) :
    (statusLineParserFeed p c).Done := by
  rw [statusLineParserFeed, h]
  exact h

theorem feed_upToLf (t : LooseStatus) :
    (ascii "HTTP/" ++ t.major ++ [chr '.'] ++ t.minor ++ [chr ' '] ++ t.code ++ [chr ' '] ++
        t.reason ++ [chr '\r']).foldl statusLineParserFeed statusLineParserInit
      = atEnd t.major t.minor t.code t.reason .statusLineEnd := by
  have hname : (ascii "HTTP/").foldl statusLineParserFeed statusLineParserInit = atMajor [] := by
    decide
  have hmajor : t.major.foldl statusLineParserFeed (atMajor []) = atMajor t.major := by
    apply Lib.foldl_accumulates
    intro pre d hpre
    have hlen := hpre.length_le
    have hmax := t.major_digit.2
    simp at hlen
    exact feed_major (t.major_digit.1 d (hpre.subset (by simp))) (by omega)
  have hminor : t.minor.foldl statusLineParserFeed (atMinor t.major [])
      = atMinor t.major t.minor := by
    apply Lib.foldl_accumulates
    intro pre d hpre
    have hlen := hpre.length_le
    have hmax := t.minor_digit.2
    simp at hlen
    exact feed_minor (t.minor_digit.1 d (hpre.subset (by simp))) (by omega)
  have hcode : t.code.foldl statusLineParserFeed (atCode t.major t.minor [])
      = atCode t.major t.minor t.code := by
    apply Lib.foldl_accumulates
    intro pre d hpre
    have hlen := hpre.length_le
    have hmax := t.code_length
    simp at hlen
    exact feed_code (t.code_digits d (hpre.subset (by simp))) (by omega)
  have hreason : t.reason.foldl statusLineParserFeed (atReason t.major t.minor t.code [])
      = atReason t.major t.minor t.code t.reason := by
    apply Lib.foldl_accumulates
    intro pre c hpre
    have hlen := hpre.length_le
    have hmax := t.reason_length
    simp at hlen
    exact feed_reason (t.reason_text c (hpre.subset (by simp))) (by omega)
  simp only [List.foldl_append, List.foldl_cons, List.foldl_nil, hname, hmajor,
    feed_major_end t.major_digit.2, hminor, feed_minor_end t.minor_digit.2, hcode,
    feed_code_end t.code_length, hreason, feed_reason_end t.reason_length]

theorem feed_loose (t : LooseStatus) :
    t.bytes.foldl statusLineParserFeed statusLineParserInit
      = atEnd t.major t.minor t.code t.reason .statusLineDone := by
  rw [LooseStatus.bytes, statusBytes, List.foldl_append, feed_upToLf, List.foldl_cons,
    List.foldl_nil, feed_end]

end StatusLineParser

open StatusLineParser

theorem loose_finishes (t : LooseStatus) :
    Lib.Finishes statusLineParserFeed StatusLineParser.Done statusLineParserInit t.bytes := by
  apply Lib.finishes_of_last
  · exact fun p c hp => feed_done hp c
  · rw [feed_upToLf]
    intro hdone
    cases hdone
  · rw [feed_upToLf, feed_end]
    rfl

/-- The parser accepts the second grammar, and nothing else. -/
theorem status_line_finishes_iff (bs : Bytes) :
    Lib.Finishes statusLineParserFeed StatusLineParser.Done statusLineParserInit bs ↔
      ∃ t : LooseStatus, bs = t.bytes := by
  constructor
  · intro h
    have hdone : (bs.foldl statusLineParserFeed statusLineParserInit).state = .statusLineDone :=
      h.1
    have hreads := StatusLineParser.reads bs
    generalize bs.foldl statusLineParserFeed statusLineParserInit = p at hdone hreads
    cases hreads with
    | done t more htext =>
        have hsame : bs ++ [] = t.bytes ++ more := by rw [List.append_nil, htext]
        exact ⟨t, (h.unique (loose_finishes t) hsame).1⟩
    | failed hfail =>
        rw [hfail] at hdone
        cases hdone
    | version _ _ | major _ _ _ | minor _ _ _ _ | code _ _ _ _ | reason _ _ _ _ _ _ _
    | ending _ _ => cases hdone
  · rintro ⟨t, rfl⟩
    exact loose_finishes t

/-! ## The two grammars compared -/

/-- A status line is cut in one way into its parts. -/
theorem statusBytes_inj {major minor code reason major' minor' code' reason' : Bytes}
    (hmajor : ∀ d ∈ major, isDigit d = true) (hminor : ∀ d ∈ minor, isDigit d = true)
    (hcode : ∀ d ∈ code, isDigit d = true) (hmajor' : ∀ d ∈ major', isDigit d = true)
    (hminor' : ∀ d ∈ minor', isDigit d = true) (hcode' : ∀ d ∈ code', isDigit d = true)
    (h : statusBytes major minor code reason = statusBytes major' minor' code' reason') :
    major = major' ∧ minor = minor' ∧ code = code' ∧ reason = reason' := by
  have hdot : ¬ isDigit (chr '.') = true := by decide
  have hspace : ¬ isDigit (chr ' ') = true := by decide
  simp only [statusBytes, List.append_assoc, List.append_cancel_left_eq, List.cons_append,
    List.nil_append] at h
  obtain ⟨hma, -, h⟩ := Lib.cut_unique hmajor hdot hmajor' hdot h
  obtain ⟨hmi, -, h⟩ := Lib.cut_unique hminor hspace hminor' hspace h
  obtain ⟨hco, -, h⟩ := Lib.cut_unique hcode hspace hcode' hspace h
  exact ⟨hma, hmi, hco, List.append_cancel_right h⟩

theorem digit_singleton {d : UInt8} (h : isDigit d = true) : ∀ x ∈ [d], isDigit x = true := by
  intro x hx
  rw [List.mem_singleton.mp hx]
  exact h

/-- What a status line has to have for the parser to take it. -/
def StatusText.Plain (t : StatusText) : Prop :=
  t.reason.length < maxReasonPhrase ∧ ∀ c ∈ t.reason, isReasonPhrase c = true

/-- The line as the parser takes it. -/
def StatusText.loose (t : StatusText) (h : t.Plain) : LooseStatus where
  major := [t.major]
  minor := [t.minor]
  code := t.code
  reason := t.reason
  major_digit := ⟨digit_singleton t.major_digit, by simp⟩
  minor_digit := ⟨digit_singleton t.minor_digit, by simp⟩
  code_digits := t.code_digits
  code_length := t.code_length
  reason_text := h.2
  reason_length := h.1

theorem StatusText.plain_of_loose {t : StatusText} {s : LooseStatus} (h : t.bytes = s.bytes) :
    t.Plain ∧ s.major = [t.major] ∧ s.minor = [t.minor] := by
  obtain ⟨hmajor, hminor, -, hreason⟩ := statusBytes_inj (digit_singleton t.major_digit)
    (digit_singleton t.minor_digit) t.code_digits s.major_digit.1 s.minor_digit.1
    s.code_digits h
  refine ⟨?_, hmajor.symm, hminor.symm⟩
  rw [StatusText.Plain, hreason]
  exact ⟨s.reason_length, s.reason_text⟩

theorem VersionDigit.exists_singleton {ds : Bytes} (h : VersionDigit ds) (hne : ds ≠ []) :
    ∃ d, ds = [d] ∧ isDigit d = true := by
  obtain ⟨hdig, hlen⟩ := h
  match ds, hne, hlen with
  | [d], _, _ => exact ⟨d, rfl, hdig d (by simp)⟩

theorem reasonPhrase_text : ∀ c, isReasonPhrase c = true → isReasonText c = true :=
  forall_byte (by decide +kernel)

/-- A line of the second grammar with both digits is one of the first. -/
theorem LooseStatus.exists_text (s : LooseStatus) (hmajor : s.major ≠ [])
    (hminor : s.minor ≠ []) :
    ∃ t : StatusText, s.bytes = t.bytes ∧ s.line = t.line := by
  obtain ⟨ma, hma, hmad⟩ := s.major_digit.exists_singleton hmajor
  obtain ⟨mi, hmi, hmid⟩ := s.minor_digit.exists_singleton hminor
  have hlen := s.reason_length
  refine ⟨⟨ma, mi, s.code, s.reason, hmad, hmid, s.code_digits, s.code_length,
    fun c hc => reasonPhrase_text c (s.reason_text c hc), by omega⟩, ?_, ?_⟩
  · rw [LooseStatus.bytes, hma, hmi]
    rfl
  · rw [LooseStatus.line, hma, hmi]
    simp [readLine, StatusText.line, byteValue]

/-- A byte of the reason is stored only where the array has room. -/
theorem reason_stored_inside (bs : Bytes) (c : UInt8)
    (hat : (bs.foldl statusLineParserFeed statusLineParserInit).state = .statusLineReasonPhrase)
    (hstays : (statusLineParserFeed (bs.foldl statusLineParserFeed statusLineParserInit) c).state
      = .statusLineReasonPhrase) :
    (bs.foldl statusLineParserFeed statusLineParserInit).i < maxReasonPhrase := by
  have hreads := StatusLineParser.reads bs
  generalize bs.foldl statusLineParserFeed statusLineParserInit = p at hat hstays hreads
  cases hreads with
  | @reason major minor code reason _ _ _ _ _ _ _ =>
      by_cases hlt : reason.length < maxReasonPhrase
      · exact hlt
      · have hfeed : statusLineParserFeed (atReason major minor code reason) c
            = (atReason major minor code reason).fail := by
          simp [statusLineParserFeed, slReasonPhrase, atReason,
            show maxReasonPhrase ≤ reason.length by omega]
        rw [hfeed] at hstays
        cases hstays
  | failed hfail =>
      rw [hfail] at hat
      cases hat
  | version _ _ | major _ _ _ | minor _ _ _ _ | code _ _ _ _ | ending _ _ | done _ _ _ =>
      cases hat

/-- A status line is accepted with its last byte exactly when it is one, it is
decoded to what it encodes, and no byte of it is stored outside the array of
the reason. -/
def StatusLineExact (bs : Bytes) : Prop :=
  (Lib.Finishes statusLineParserFeed StatusLineParser.Done statusLineParserInit bs ↔
      ∃ t : StatusText, bs = t.bytes) ∧
    (∀ t : StatusText, bs = t.bytes →
      Lib.Finishes statusLineParserFeed StatusLineParser.Done statusLineParserInit bs →
      (bs.foldl statusLineParserFeed statusLineParserInit).statusLine = t.line) ∧
    ∀ pre c, pre ++ [c] <+: bs →
      (pre.foldl statusLineParserFeed statusLineParserInit).state = .statusLineReasonPhrase →
      (statusLineParserFeed (pre.foldl statusLineParserFeed statusLineParserInit) c).state
        = .statusLineReasonPhrase →
      (pre.foldl statusLineParserFeed statusLineParserInit).i < maxReasonPhrase

/-- The parser does so for a text exactly when the reason of a status line is
short and plain, and no digit of the version is missing from a line that would
otherwise pass. -/
theorem status_line_exact_iff (bs : Bytes) :
    StatusLineExact bs ↔
      (∀ t : StatusText, bs = t.bytes → t.Plain) ∧
      ∀ t : LooseStatus, bs = t.bytes → t.major ≠ [] ∧ t.minor ≠ [] := by
  constructor
  · intro ⟨haccepts, _, _⟩
    constructor
    · intro t ht
      obtain ⟨s, hs⟩ := (status_line_finishes_iff bs).mp (haccepts.mpr ⟨t, ht⟩)
      exact (StatusText.plain_of_loose (ht.symm.trans hs)).1
    · intro s hs
      obtain ⟨t, ht⟩ := haccepts.mp ((status_line_finishes_iff bs).mpr ⟨s, hs⟩)
      obtain ⟨-, hmajor, hminor⟩ := StatusText.plain_of_loose (ht.symm.trans hs)
      constructor
      · simp [hmajor]
      · simp [hminor]
  · intro ⟨hplain, hdigits⟩
    refine ⟨?_, ?_, ?_⟩
    · constructor
      · intro hfin
        obtain ⟨s, hs⟩ := (status_line_finishes_iff bs).mp hfin
        obtain ⟨hmajor, hminor⟩ := hdigits s hs
        obtain ⟨t, ht, -⟩ := s.exists_text hmajor hminor
        exact ⟨t, hs.trans ht⟩
      · intro ⟨t, ht⟩
        exact (status_line_finishes_iff bs).mpr ⟨t.loose (hplain t ht), ht⟩
    · intro t ht _
      have hloose : bs = (t.loose (hplain t ht)).bytes := ht
      rw [hloose, feed_loose]
      simp [atEnd, readLine, StatusText.loose, StatusText.line, byteValue]
    · intro pre c _
      exact reason_stored_inside pre c

theorem isDigit_one : isDigit (chr '1') = true := by decide

/-- `HTTP/1.1 418 I'm a teapot`. -/
def teapot : StatusText where
  major := chr '1'
  minor := chr '1'
  code := ascii "418"
  reason := ascii "I'm a teapot"
  major_digit := isDigit_one
  minor_digit := isDigit_one
  code_digits := List.all_eq_true.mp (by decide)
  code_length := by decide
  reason_text := List.all_eq_true.mp (by decide)
  reason_length := by decide

theorem apostrophe_refused :
    teapot.bytes = ascii "HTTP/1.1 418 I'm a teapot\r\n" ∧ ¬ StatusLineExact teapot.bytes := by
  refine ⟨by decide +kernel, ?_⟩
  intro h
  have hdone := (h.1.mpr ⟨teapot, rfl⟩).1
  have hstate : (teapot.bytes.foldl statusLineParserFeed statusLineParserInit).state
      = .statusLineError := by decide +kernel
  cases hstate.symm.trans hdone

end HttpdProxy
