import HttpdProxy.Proofs.AccessLog
import HttpdProxy.Proofs.Base64
import HttpdProxy.Proofs.Keywords

/-!
# HTTP Basic credentials

What the sniffer makes of the header lines of a request, up to the carriage
return of the first authorization. Every line feed takes the scanner for the
header's name back to the start, since no keyword has one.
-/

namespace HttpdProxy

open SnifferParser (Scanning scanned)

/-- The arrays have the sizes they are declared with. -/
structure SnifferParser.Sized (p : SnifferParser) : Prop where
  user : p.user.length = maxUserLength + 1
  password : p.password.length = maxPasswordLength + 1
  authValue : p.authValue.length = maxAuthValueLength + 1

theorem snifferParserInit_sized : snifferParserInit.Sized :=
  ⟨List.length_replicate, List.length_replicate, List.length_replicate⟩

theorem scan_authValue {p : SnifferParser} {s : SnifferState} {c : UInt8}
    {eq : SnifferParser → SnifferParser}
    (heq : ∀ q, (eq q).authValue.length = q.authValue.length) :
    (p.scan s c eq).authValue.length = p.authValue.length := by
  unfold SnifferParser.scan
  split
  · rfl
  · simp only
    split
    · exact heq _
    · rfl
    · rfl

/-- No byte resizes the array of the value. -/
theorem fed_authValue {p : SnifferParser} {c : UInt8} {owner : DataOwner} {port : UInt16} :
    (snifferParserFeed c p owner port).authValue.length = p.authValue.length := by
  unfold snifferParserFeed
  split <;>
    simp only [sStart, sHttpVersion, sHttpAuthorization, sHttpAuthorizationBasic,
      sHttpAuthorizationValue, decodeAndParseAuth, parseUserAndPassword, sPop3OriginAck,
      sPop3UserUsername, sPop3UserUsernameValue, sPop3OriginUserAck, sPop3Ack, sPop3UserPass,
      sPop3UserPassValue, sPop3OriginPassAck] <;>
    grind [scan_authValue, setStringParser, SnifferParser.goto]

/-- The sizes hold of every state of the sniffer. -/
theorem SnifferReached.sized {p : SnifferParser} (h : SnifferReached p) : p.Sized := by
  refine ⟨h.credentials.user.1, h.credentials.password.1, ?_⟩
  induction h with
  | init => exact snifferParserInit_sized.authValue
  | modify _ ih => exact ih
  | feed _ ih => rw [fed_authValue, ih]

/-- Header lines, the last of them an authorization up to its carriage
return. -/
structure BasicLogin where
  lines : List Bytes
  header : Spelling (ascii "AUTHORIZATION:")
  gap : Bytes
  scheme : Spelling (ascii "BASIC")
  blanks : Bytes
  user : Bytes
  password : Bytes
  no_authorization : ∀ line ∈ lines, ¬ lower (ascii "AUTHORIZATION:") <:+: lower line
  gap_spaces : ∀ c ∈ gap, isSpace c = true
  blank_spaces : ∀ c ∈ blanks, isSpace c = true
  no_colon : chr ':' ∉ user
  user_length : user.length ≤ maxUserLength
  password_length : password.length ≤ maxPasswordLength

namespace BasicLogin
variable (d : BasicLogin)

/-- What is encoded. -/
def credentials : Bytes := d.user ++ chr ':' :: d.password

/-- The line up to its carriage return. -/
def authorization : List (DataOwner × UInt8) :=
  tagged .clientOwned d.header.bytes ++ (tagged .clientOwned d.gap ++
    (tagged .clientOwned d.scheme.bytes ++ (tagged .clientOwned d.blanks ++
      tagged .clientOwned (base64Text d.credentials))))

def sent : List (DataOwner × UInt8) :=
  tagged .clientOwned (d.lines.flatMap (· ++ crlf)) ++ d.authorization ++
    [(.clientOwned, chr '\r')]

end BasicLogin

/-! ## The three states -/

variable {port : UInt16} {p : SnifferParser} {x : DataOwner × UInt8} {c : UInt8}

theorem authorization_inLine : InLine (ascii "AUTHORIZATION:") :=
  ⟨by decide, by decide, by decide⟩

theorem basic_inLine : InLine (ascii "BASIC") := ⟨by decide, by decide, by decide⟩

/-- What follows the name of the header, and the scheme. -/
def toScheme (p : SnifferParser) : SnifferParser :=
  (setStringParser p "BASIC").goto .sniffHttpAuthorizationBasic

def toValue (p : SnifferParser) : SnifferParser :=
  { p with i := 0, state := .sniffHttpAuthorizationValue }

theorem authorization_fed (hx : x.1 = .clientOwned) (h : p.state = .sniffHttpAuthorization) :
    sniffFeed port p x = p.scan .sniffHttpAuthorization x.2 toScheme := by
  unfold sniffFeed snifferParserFeed
  rw [h, hx]
  rfl

theorem basic_fed (hx : x.1 = .clientOwned) (hc : x.2 ≠ chr '\r')
    (h : p.state = .sniffHttpAuthorizationBasic) :
    sniffFeed port p x = p.scan .sniffHttpAuthorizationBasic x.2 toValue := by
  unfold sniffFeed snifferParserFeed
  rw [h, hx]
  show sHttpAuthorizationBasic x.2 p .clientOwned = _
  rw [sHttpAuthorizationBasic, if_neg (by decide), if_neg hc]
  rfl

/-- The parser behind the characters of a value. -/
def valueStore (base : SnifferParser) (text : Bytes) : SnifferParser :=
  { base with
    state := .sniffHttpAuthorizationValue
    authValue := text ++ base.authValue.drop text.length
    i := text.length }

theorem value_blank {base : SnifferParser} {text : Bytes} (hlen : text.length < maxAuthValueLength)
    (hc : isSpace c = true) :
    sniffFeed port (valueStore base text) (.clientOwned, c) = valueStore base text := by
  show sHttpAuthorizationValue c (valueStore base text) .clientOwned = _
  have hi : (valueStore base text).i = text.length := rfl
  rw [sHttpAuthorizationValue, if_neg (by decide), hi, if_neg (Nat.not_le.mpr hlen), if_pos hc]
  rfl

theorem isBase64_plain (hc : isBase64 c = true) : ¬ isSpace c = true ∧ c ≠ chr '\r' := by
  revert hc
  exact forall_byte (P := fun c => isBase64 c = true → ¬ isSpace c = true ∧ c ≠ chr '\r')
    (by decide +kernel) c

/-- The next byte is stored behind a text that overwrites an array. -/
theorem set_overwritten {a text : Bytes} (c : UInt8) (h : text.length < a.length) :
    (text ++ a.drop text.length).set text.length c
      = (text ++ [c]) ++ a.drop (text ++ [c]).length := by
  rw [List.set_append_right _ _ (Nat.le_refl _), Nat.sub_self, List.drop_eq_getElem_cons h,
    List.set_cons_zero]
  simp

theorem value_stored {base : SnifferParser} {text : Bytes} (hbase : base.Sized)
    (hlen : text.length < maxAuthValueLength) (hc : isBase64 c = true) :
    sniffFeed port (valueStore base text) (.clientOwned, c) = valueStore base (text ++ [c]) := by
  show sHttpAuthorizationValue c (valueStore base text) .clientOwned = _
  have hi : (valueStore base text).i = text.length := rfl
  obtain ⟨hspace, hcr⟩ := isBase64_plain hc
  have hroom : text.length < base.authValue.length := by
    rw [hbase.authValue]
    omega
  rw [sHttpAuthorizationValue, if_neg (by decide), hi, if_neg (Nat.not_le.mpr hlen),
    if_neg hspace, if_neg hcr, if_pos hc]
  simp only [valueStore, set_overwritten c hroom, List.length_append, List.length_singleton]

/-! ## The credentials -/

theorem putAt_overwrites {front rest bs : Bytes} {i : Nat} (hi : i = front.length)
    (h : bs.length ≤ rest.length) :
    putAt (front ++ rest) i bs = front ++ bs ++ rest.drop bs.length := by
  induction bs generalizing front rest i with
  | nil => simp [putAt]
  | cons b bs ih =>
      cases rest with
      | nil => simp at h
      | cons r rest =>
          subst hi
          have hset : (front ++ r :: rest).set front.length b = (front ++ [b]) ++ rest := by
            simp
          rw [putAt, hset, ih (by simp) (by simpa using h)]
          simp

/-- A text is copied to the start of an array, and a NUL behind it. -/
theorem copied {a text : Bytes} {n : Nat} (hn : n = text.length) (h : n < a.length) :
    ((putAt a 0 text).set n 0).take (n + 1) = text ++ [0] := by
  subst hn
  have hput : putAt a 0 text = text ++ a.drop text.length := by
    have hwhole := @putAt_overwrites [] a text 0 rfl (Nat.le_of_lt h)
    simpa using hwhole
  rw [hput, set_overwritten 0 h]
  exact List.take_left' (by simp)

/-- The bytes before the first colon, and those behind it. -/
theorem parse_credentials {user password : Bytes} (hp : p.Sized) (hcolon : chr ':' ∉ user)
    (hu : user.length ≤ maxUserLength) (hw : password.length ≤ maxPasswordLength) :
    (parseUserAndPassword (user ++ chr ':' :: password) p).user.take (user.length + 1)
        = user ++ [0] ∧
      (parseUserAndPassword (user ++ chr ':' :: password) p).password.take (password.length + 1)
        = password ++ [0] := by
  have hcut : (user ++ chr ':' :: password).takeWhile (· != chr ':') = user := by
    have hall : ∀ c ∈ user, (c != chr ':') = true := by
      intro c hc
      rw [bne_iff_ne]
      rintro rfl
      exact hcolon hc
    rw [List.takeWhile_append_of_pos hall, List.takeWhile_cons_of_neg (by decide),
      List.append_nil]
  have hlen : (user ++ chr ':' :: password).length = user.length + 1 + password.length := by
    simp
    omega
  have htext : (List.range password.length).map
      (fun k => (user ++ chr ':' :: password).getD (user.length + 1 + k) 0) = password := by
    apply List.ext_getElem
    · simp
    · intro k hk hk'
      simp [List.getElem?_append_right, Nat.add_assoc, Nat.add_comm 1 k, hk']
  have hmin : min user.length maxUserLength = user.length := Nat.min_eq_left hu
  have hleft : user.length + 1 + password.length - (user.length + 1) = password.length := by
    omega
  unfold parseUserAndPassword
  simp only [hcut, hlen, hmin, hleft, Nat.min_eq_left hw, List.take_left',
    if_pos (show user.length < user.length + 1 + password.length by omega),
    if_pos (show user.length + 1 ≤ user.length + 1 + password.length by omega), htext]
  constructor
  · exact copied rfl (by rw [hp.user]; omega)
  · exact copied rfl (by rw [hp.password]; omega)

/-- The carriage return behind a value. -/
theorem value_ended {base : SnifferParser} {user password : Bytes} (hbase : base.Sized)
    (hcolon : chr ':' ∉ user) (hu : user.length ≤ maxUserLength)
    (hw : password.length ≤ maxPasswordLength)
    (hlen : (base64Text (user ++ chr ':' :: password)).length < maxAuthValueLength) :
    ∃ q, sniffFeed port (valueStore base (base64Text (user ++ chr ':' :: password)))
        (.clientOwned, chr '\r') = q ∧ SniffDone q ∧ q.sniffedProtocol = .http ∧
      q.user.take (user.length + 1) = user ++ [0] ∧
      q.password.take (password.length + 1) = password ++ [0] := by
  obtain ⟨text, htext⟩ : ∃ text, text = base64Text (user ++ chr ':' :: password) := ⟨_, rfl⟩
  rw [← htext] at hlen ⊢
  have hroom : text.length < base.authValue.length := by
    rw [hbase.authValue]
    omega
  have hset := set_overwritten 0 hroom
  have hvalue : ((valueStore base text).authValue.set text.length 0).take text.length = text := by
    show ((text ++ base.authValue.drop text.length).set text.length 0).take text.length = text
    rw [hset, List.append_assoc]
    exact List.take_left' rfl
  have hi : (valueStore base text).i = text.length := rfl
  have hstep : sniffFeed port (valueStore base text) (.clientOwned, chr '\r')
      = { parseUserAndPassword (user ++ chr ':' :: password)
            { valueStore base text with
              authValue := (valueStore base text).authValue.set text.length 0 } with
          sniffedProtocol := .http
          state := .sniffDone } := by
    show sHttpAuthorizationValue (chr '\r') (valueStore base text) .clientOwned = _
    rw [sHttpAuthorizationValue, if_neg (by decide), hi, if_neg (Nat.not_le.mpr hlen),
      if_neg (by decide), if_pos rfl, decodeAndParseAuth]
    simp only [hi, hvalue]
    rw [htext, base64Decode_text (by simp)]
  have hsized : ({ valueStore base text with
      authValue := (valueStore base text).authValue.set text.length 0 } : SnifferParser).Sized := by
    refine ⟨hbase.user, hbase.password, ?_⟩
    show ((text ++ base.authValue.drop text.length).set text.length 0).length = _
    rw [List.length_set, List.length_append, List.length_drop, ← hbase.authValue]
    omega
  obtain ⟨huser, hpassword⟩ := parse_credentials hsized hcolon hu hw
  exact ⟨_, hstep, rfl, rfl, huser, hpassword⟩

namespace BasicLogin
variable (d : BasicLogin)

theorem text_length : (base64Text d.credentials).length < maxAuthValueLength := by
  have hu := d.user_length
  have hw := d.password_length
  have hlen : d.credentials.length = d.user.length + 1 + d.password.length := by
    simp [credentials]
    omega
  rw [base64Text_length, hlen]
  unfold maxUserLength at hu
  unfold maxPasswordLength at hw
  unfold maxAuthValueLength
  omega

/-- The lines before the authorization, and its name. -/
theorem name_found (port : UInt16) (p : SnifferParser) :
    Lib.Through (sniffFeed port) NotDone (modifySnifferState p .sniffHttpAuthorization)
      (tagged .clientOwned (d.lines.flatMap (· ++ crlf)) ++ tagged .clientOwned d.header.bytes)
      (toScheme (scanned p .sniffHttpAuthorization (ascii "AUTHORIZATION:"))) := by
  have hbegin : Scanning p .sniffHttpAuthorization (ascii "AUTHORIZATION:") 0
      (modifySnifferState p .sniffHttpAuthorization) := ⟨.mayEq, rfl⟩
  have hlines := bytesOf_tagged .clientOwned (d.lines.flatMap (· ++ crlf))
  have hskip : ∀ x ∈ tagged .clientOwned (d.lines.flatMap (· ++ crlf)), x.1 ≠ .clientOwned →
      ∀ p : SnifferParser, p.state = .sniffHttpAuthorization → sniffFeed port p x = p := by
    intro x hx hne
    obtain ⟨c, _, rfl⟩ := List.mem_map.mp hx
    exact absurd rfl hne
  obtain ⟨q, hrun, hq⟩ := hbegin.lines (fun x _ hx p hp => authorization_fed hx hp) hskip
    authorization_inLine hlines d.no_authorization
  have hword := hq.found (Q := NotDone) d.header authorization_inLine
    (fun c _ p hp => @authorization_fed port p (.clientOwned, c) rfl hp)
    (fun p hp => notDone_of_state (by decide) hp) (fun hd => by cases hd)
  exact (hrun.mono fun p hp => notDone_of_state (by decide) hp).append hword

/-- The scheme, behind spaces. -/
theorem scheme_found (port : UInt16) (base : SnifferParser) :
    Lib.Through (sniffFeed port) NotDone (toScheme base)
      (tagged .clientOwned d.gap ++ tagged .clientOwned d.scheme.bytes)
      (toValue (scanned base .sniffHttpAuthorizationBasic (ascii "BASIC"))) := by
  have hbegin : Scanning base .sniffHttpAuthorizationBasic (ascii "BASIC") 0 (toScheme base) :=
    ⟨.mayEq, rfl⟩
  have hspace : ∀ c : UInt8, isSpace c = true → c ≠ chr '\r' ∧ toLower c ∉ lower (ascii "BASIC") :=
    fun c => forall_byte (P := fun c => isSpace c = true →
      c ≠ chr '\r' ∧ toLower c ∉ lower (ascii "BASIC")) (by decide +kernel) c
  have hgap : ∀ front, front <+: tagged .clientOwned d.gap →
      Lib.scan (lower (ascii "BASIC")) 0 (lower (bytesOf .clientOwned front)) = 0 := by
    intro front hfront
    apply Lib.scan_separators
    intro b hb
    obtain ⟨c, hc, rfl⟩ := List.mem_map.mp hb
    obtain ⟨x, hx, rfl⟩ := List.mem_map.mp hc
    obtain ⟨e, he, rfl⟩ := List.mem_map.mp (hfront.subset (List.mem_filter.mp hx).1)
    exact (hspace e (d.gap_spaces e he)).2
  have hscan : ∀ x ∈ tagged .clientOwned d.gap, x.1 = .clientOwned → ∀ p : SnifferParser,
      p.state = .sniffHttpAuthorizationBasic →
        sniffFeed port p x = p.scan .sniffHttpAuthorizationBasic x.2 toValue := by
    intro x hx hside p hp
    obtain ⟨e, he, rfl⟩ := List.mem_map.mp hx
    exact basic_fed hside (hspace e (d.gap_spaces e he)).1 hp
  obtain ⟨q, hrun, hq⟩ := hbegin.through hscan
    (fun x hx hne => by
      obtain ⟨c, _, rfl⟩ := List.mem_map.mp hx
      exact absurd rfl hne)
    (fun front hfront => by
      rw [hgap front hfront]
      decide)
  rw [hgap _ (List.prefix_refl _)] at hq
  have hword := hq.found (Q := NotDone) d.scheme basic_inLine
    (fun c hc p hp => @basic_fed port p (.clientOwned, c) rfl
      (by rintro rfl; exact absurd hc (by decide)) hp)
    (fun p hp => notDone_of_state (by decide) hp) (fun hd => by cases hd)
  exact (hrun.mono fun p hp => notDone_of_state (by decide) hp).append hword

/-- The value, behind spaces. -/
theorem value_collected (port : UInt16) {base : SnifferParser} (hbase : base.Sized) :
    Lib.Through (sniffFeed port) NotDone (toValue base)
      (tagged .clientOwned d.blanks ++ tagged .clientOwned (base64Text d.credentials))
      (valueStore base (base64Text d.credentials)) := by
  have hnot : ∀ text, NotDone (valueStore base text) := fun text hd => by cases hd
  have hstart : toValue base = valueStore base [] := rfl
  have hblanks : Lib.Through (sniffFeed port) NotDone (valueStore base [])
      (tagged .clientOwned d.blanks) (valueStore base []) := by
    refine .stays (hnot []) fun x hx => ?_
    obtain ⟨c, hc, rfl⟩ := List.mem_map.mp hx
    exact value_blank (by decide) (d.blank_spaces c hc)
  rw [hstart]
  refine hblanks.append (Lib.Through.map ?_)
  show Lib.Through _ _ (valueStore base []) (base64Text d.credentials) (valueStore base _)
  refine Lib.Through.accumulates ?_ fun pre _ => hnot pre
  intro pre x hpre
  have hle := hpre.length_le
  have hmax := d.text_length
  rw [List.length_append, List.length_singleton] at hle
  exact value_stored hbase (by omega) (base64Text_chars _ x (hpre.subset (by simp))).1

end BasicLogin

/-- The credentials of the first authorization are extracted at the carriage
return of its line. -/
theorem basic_credentials_extracted (d : BasicLogin) (port : UInt16) {p : SnifferParser}
    (hp : p.Sized) :
    Lib.Finishes (sniffFeed port) SniffDone (modifySnifferState p .sniffHttpAuthorization)
        d.sent ∧
      let q := d.sent.foldl (sniffFeed port) (modifySnifferState p .sniffHttpAuthorization)
      q.sniffedProtocol = .http ∧ q.user.take (d.user.length + 1) = d.user ++ [0] ∧
        q.password.take (d.password.length + 1) = d.password ++ [0] := by
  have hscanned : ∀ {base : SnifferParser} (s : SnifferState) (word : Bytes), base.Sized →
      (toScheme (scanned base s word)).Sized ∧ (scanned base s word).Sized :=
    fun _ _ hb => ⟨⟨hb.user, hb.password, hb.authValue⟩, ⟨hb.user, hb.password, hb.authValue⟩⟩
  have hname := d.name_found port p
  have hfirst := (hscanned .sniffHttpAuthorization (ascii "AUTHORIZATION:") hp).2
  have hscheme := d.scheme_found port
    (scanned p .sniffHttpAuthorization (ascii "AUTHORIZATION:"))
  have hsecond := (hscanned .sniffHttpAuthorizationBasic (ascii "BASIC") hfirst).2
  have hvalue := d.value_collected port hsecond
  have hrun := (hname.append hscheme).append hvalue
  obtain ⟨q, hend, hdone, hhttp, huser, hpassword⟩ := @value_ended port _ _ _ hsecond
    d.no_colon d.user_length d.password_length d.text_length
  have hsent : d.sent = (tagged .clientOwned (d.lines.flatMap (· ++ crlf)) ++
      tagged .clientOwned d.header.bytes ++ (tagged .clientOwned d.gap ++
      tagged .clientOwned d.scheme.bytes) ++ (tagged .clientOwned d.blanks ++
      tagged .clientOwned (base64Text d.credentials))) ++ [(.clientOwned, chr '\r')] := by
    simp only [BasicLogin.sent, BasicLogin.authorization, List.append_assoc]
  rw [hsent]
  constructor
  · refine hrun.finishes (fun _ h => h) ?_
    rw [BasicLogin.credentials, hend]
    exact hdone
  · rw [List.foldl_append, hrun.foldl, List.foldl_cons, List.foldl_nil, BasicLogin.credentials,
      hend]
    exact ⟨hhttp, huser, hpassword⟩

/-- Two header lines, and an authorization in mixed case. -/
def mixedCaseLogin : BasicLogin where
  lines := [ascii "Host: a.org", ascii "Accept: */*"]
  header := ⟨ascii "AuThorization:", by decide⟩
  gap := ascii " "
  scheme := ⟨ascii "basic", by decide⟩
  blanks := ascii "  "
  user := ascii "Aladdin"
  password := ascii "open sesame"
  no_authorization := List.forall_mem_cons.mpr ⟨fun h => absurd h.length_le (by decide),
    List.forall_mem_cons.mpr ⟨fun h => absurd h.length_le (by decide), List.forall_mem_nil _⟩⟩
  gap_spaces := List.all_eq_true.mp (by decide)
  blank_spaces := List.all_eq_true.mp (by decide)
  no_colon := by decide
  user_length := by decide
  password_length := by decide

theorem mixed_case_extracted :
    Lib.Finishes (sniffFeed 80) SniffDone
        (modifySnifferState snifferParserInit .sniffHttpAuthorization) mixedCaseLogin.sent ∧
      (mixedCaseLogin.sent.foldl (sniffFeed 80)
        (modifySnifferState snifferParserInit .sniffHttpAuthorization)).user.take 8
          = ascii "Aladdin" ++ [0] := by
  have h := basic_credentials_extracted mixedCaseLogin 80 snifferParserInit_sized
  exact ⟨h.1, h.2.2.1⟩

end HttpdProxy
