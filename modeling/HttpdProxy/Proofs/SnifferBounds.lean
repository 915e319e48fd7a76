import HttpdProxy.Checked.Sniffer
import HttpdProxy.Proofs.BasicCredentials

/-!
# The sniffer and its arrays

Every store of the sniffer is within its array, on any bytes of either side.
The one thing that can go wrong is the decoded authorization: without a colon
in it the index ends behind the text, the length of the password wraps around,
and bytes behind the allocation are copied.
-/

namespace HttpdProxy

open Lib (readAt storeAt readBlock subtract)

/-! ## The colon -/

theorem colonIndex?_eq (authorization : Bytes) : ∀ k i, authorization.length = i + k →
    colonIndex? authorization i
      = some (i + ((authorization.drop i).takeWhile (· != chr ':')).length) := by
  intro k
  induction k with
  | zero =>
      intro i hk
      rw [colonIndex?, if_neg (by omega), List.drop_of_length_le (by omega)]
      rfl
  | succ k ih =>
      intro i hk
      have hi : i < authorization.length := by omega
      have hread : readAt authorization (i : Int) = some authorization[i] := by
        rw [Lib.readAt_natCast, List.getElem?_eq_getElem hi]
      rw [colonIndex?, if_pos hi, hread, List.drop_eq_getElem_cons hi]
      simp only
      by_cases hc : authorization[i] = chr ':'
      · rw [if_neg (not_not_intro hc), List.takeWhile_cons_of_neg (by simp [hc])]
        rfl
      · rw [if_pos hc, ih (i + 1) (by omega), List.takeWhile_cons_of_pos (by simp [hc]),
          List.length_cons]
        congr 1
        omega

theorem takeWhile_colon (authorization : Bytes) :
    (authorization.takeWhile (· != chr ':')).length ≤ authorization.length ∧
    (chr ':' ∈ authorization ↔
      (authorization.takeWhile (· != chr ':')).length < authorization.length) := by
  induction authorization with
  | nil => simp
  | cons c rest ih =>
      by_cases hc : c = chr ':'
      · rw [List.takeWhile_cons_of_neg (by simp [hc])]
        simp [hc]
      · have hne : ¬ chr ':' = c := fun h => hc h.symm
        rw [List.takeWhile_cons_of_pos (by simp [hc]), List.length_cons, List.length_cons,
          List.mem_cons, ih.2]
        simp only [hne, false_or]
        omega

/-! ## The copies -/

theorem copyText?_eq_some {dst bs r : Bytes} (h : copyText? dst bs = some r) :
    r = (putAt dst 0 bs).set bs.length 0 := by
  unfold copyText? at h
  split at h
  · have hr := (Lib.storeAt_eq_some h).2.2
    rwa [Int.toNat_natCast] at hr
  · cases h

theorem copyText?_fits {dst bs : Bytes} (h : bs.length < dst.length) :
    copyText? dst bs = some ((putAt dst 0 bs).set bs.length 0) := by
  rw [copyText?, if_pos (by omega), Lib.storeAt_natCast (by rwa [putAt_length])]

/-- A block that lies in the text is what the model reads byte by byte. -/
theorem range_getD {a : Bytes} {off size : Nat} (h : off + size ≤ a.length) :
    (List.range size).map (fun k => a.getD (off + k) 0) = (a.drop off).take size := by
  apply List.ext_getElem
  · simp
    omega
  · intro k hk hk'
    simp at hk
    simp [show off + k < a.length by omega]

theorem min_eq_if (m n : Nat) : min m n = if m > n then n else m := by
  split <;> omega

theorem copyUser?_eq {authorization user r : Bytes} {i : Nat} (hi : i < authorization.length)
    (h : copyUser? authorization i user = some r) :
    r = (putAt user 0 (authorization.take (min i maxUserLength))).set (min i maxUserLength) 0 := by
  rw [copyUser?, if_pos hi] at h
  obtain ⟨text, htext, hcopy⟩ := Option.bind_eq_some_iff.mp h
  obtain ⟨hle, rfl⟩ := Lib.readBlock_eq_some htext
  have hr := copyText?_eq_some hcopy
  have hshort : min i maxUserLength ≤ authorization.length := by omega
  rw [List.drop_zero, ← min_eq_if, List.length_take, Nat.min_eq_left hshort] at hr
  exact hr

theorem copyUser?_isSome {authorization user : Bytes} {i : Nat}
    (huser : user.length = maxUserLength + 1) : (copyUser? authorization i user).isSome = true := by
  rw [copyUser?]
  split
  · next hi =>
      have hread : readBlock authorization 0 (if i > maxUserLength then maxUserLength else i)
          = some (authorization.take (min i maxUserLength)) := by
        rw [← min_eq_if, readBlock, if_pos (by omega), List.drop_zero]
      rw [hread, Option.bind_some, copyText?_fits]
      · rfl
      · rw [List.length_take, huser]
        omega
  · rfl

theorem copyPassword?_eq {authorization password r : Bytes} {i : Nat}
    (h : copyPassword? authorization i password = some r) :
    i ≤ authorization.length ∧
    r = (putAt password 0 ((List.range (min (authorization.length - i) maxPasswordLength)).map
      fun k => authorization.getD (i + k) 0)).set
        (min (authorization.length - i) maxPasswordLength) 0 := by
  obtain ⟨left, hleft, h⟩ := Option.bind_eq_some_iff.mp h
  obtain ⟨text, htext, hcopy⟩ := Option.bind_eq_some_iff.mp h
  obtain ⟨hle, rfl⟩ := Lib.subtract_eq_some hleft
  obtain ⟨hblock, rfl⟩ := Lib.readBlock_eq_some htext
  have hr := copyText?_eq_some hcopy
  rw [← min_eq_if] at hblock hr
  have hshort : min (authorization.length - i) maxPasswordLength ≤ authorization.length - i := by
    omega
  rw [List.length_take, List.length_drop, Nat.min_eq_left hshort] at hr
  refine ⟨hle, ?_⟩
  rw [range_getD hblock]
  exact hr

/-- The copy of the password is right unless its length wraps around. -/
theorem copyPassword?_isSome_iff {authorization password : Bytes} {i : Nat}
    (hpassword : password.length = maxPasswordLength + 1) :
    (copyPassword? authorization i password).isSome = true ↔ i ≤ authorization.length := by
  unfold copyPassword?
  by_cases hi : i ≤ authorization.length
  · refine iff_of_true ?_ hi
    have hread : readBlock authorization i
          (if authorization.length - i > maxPasswordLength then maxPasswordLength
            else authorization.length - i)
        = some ((authorization.drop i).take
          (min (authorization.length - i) maxPasswordLength)) := by
      rw [← min_eq_if, readBlock, if_pos (by omega)]
    rw [subtract, if_pos hi]
    simp only [Option.bind_eq_bind, Option.bind_some]
    rw [hread, Option.bind_some, copyText?_fits]
    · rfl
    · rw [List.length_take, hpassword]
      omega
  · refine iff_of_false ?_ hi
    rw [subtract, if_neg hi]
    exact Bool.false_ne_true

/-! ## The split -/

/-- What is split at a colon is split as the model does it. -/
theorem parseUserAndPassword?_eq {authorization : Bytes} {p q : SnifferParser}
    (h : parseUserAndPassword? authorization p = some q) :
    parseUserAndPassword authorization p = q := by
  have hindex := colonIndex?_eq authorization authorization.length 0 (by omega)
  rw [Nat.zero_add, List.drop_zero] at hindex
  unfold parseUserAndPassword? at h
  unfold parseUserAndPassword
  rw [hindex] at h
  simp only [Option.bind_eq_bind, Option.bind_some] at h ⊢
  generalize (authorization.takeWhile (· != chr ':')).length = i at h ⊢
  obtain ⟨user, huser, h⟩ := Option.bind_eq_some_iff.mp h
  obtain ⟨password, hpassword, h⟩ := Option.bind_eq_some_iff.mp h
  obtain ⟨hle, hw⟩ := copyPassword?_eq hpassword
  have hu := copyUser?_eq (by omega) huser
  rw [if_pos (show i < authorization.length by omega), if_pos hle, ← hu, ← hw]
  exact Option.some.inj h

/-- The split stays in its arrays exactly when there is a colon. -/
theorem parseUserAndPassword?_isSome_iff {authorization : Bytes} {p : SnifferParser}
    (hp : p.Sized) :
    (parseUserAndPassword? authorization p).isSome = true ↔ chr ':' ∈ authorization := by
  have hindex := colonIndex?_eq authorization authorization.length 0 (by omega)
  rw [Nat.zero_add, List.drop_zero] at hindex
  have hmem := (takeWhile_colon authorization).2
  generalize (authorization.takeWhile (· != chr ':')).length = i at hindex hmem
  obtain ⟨user, huser⟩ := Option.isSome_iff_exists.mp
    (@copyUser?_isSome authorization p.user i hp.user)
  have hpassword := @copyPassword?_isSome_iff authorization p.password (i + 1) hp.password
  unfold parseUserAndPassword?
  rw [hindex]
  simp only [Option.bind_eq_bind, Option.bind_some, huser]
  rw [hmem, Option.isSome_bind, ← Nat.succ_le_iff, ← hpassword]
  cases copyPassword? authorization (i + 1) p.password <;> simp

/-! ## The states that store -/

/-- One byte of one side, with its accesses checked. -/
def sniffFeed? (port : UInt16) (p : SnifferParser) (x : DataOwner × UInt8) :
    Option SnifferParser := snifferParserFeed? x.2 p x.1 port

theorem decodeAndParseAuth?_eq {p q : SnifferParser} (h : decodeAndParseAuth? p = some q) :
    decodeAndParseAuth p = q := by
  obtain ⟨value, hvalue, h⟩ := Option.bind_eq_some_iff.mp h
  obtain ⟨_, rfl⟩ := Lib.readBlock_eq_some hvalue
  rw [List.drop_zero] at h
  unfold decodeAndParseAuth
  cases hauth : base64Decode (p.authValue.take p.i) with
  | none =>
      rw [hauth] at h
      exact Option.some.inj h
  | some auth =>
      rw [hauth] at h
      obtain ⟨r, hr, h⟩ := Option.bind_eq_some_iff.mp h
      simp only [parseUserAndPassword?_eq hr]
      exact Option.some.inj h

/-- The end of a value stays in its arrays unless what has been decoded lacks
a colon. -/
theorem decodeAndParseAuth?_isSome_iff {p : SnifferParser} (hp : p.Sized)
    (hi : p.i ≤ maxAuthValueLength) :
    (decodeAndParseAuth? p).isSome = true ↔
      ∀ authorization, base64Decode (p.authValue.take p.i) = some authorization →
        chr ':' ∈ authorization := by
  have hvalue : readBlock p.authValue 0 p.i = some (p.authValue.take p.i) := by
    rw [readBlock, if_pos (by rw [hp.authValue]; omega), List.drop_zero]
  unfold decodeAndParseAuth?
  rw [hvalue]
  simp only [Option.bind_eq_bind, Option.bind_some]
  cases hauth : base64Decode (p.authValue.take p.i) with
  | none => exact iff_of_true rfl fun _ h => by cases h
  | some authorization =>
      rw [Option.isSome_bind]
      have hsplit := @parseUserAndPassword?_isSome_iff authorization p hp
      constructor
      · intro h auth he
        cases he
        apply hsplit.mp
        cases hparse : parseUserAndPassword? authorization p with
        | none =>
            rw [hparse] at h
            cases h
        | some q => rfl
      · intro h
        obtain ⟨q, hq⟩ := Option.isSome_iff_exists.mp (hsplit.mpr (h authorization rfl))
        rw [hq]
        rfl

variable {c : UInt8} {p : SnifferParser} {owner : DataOwner}

theorem sPop3UserUsernameValue?_eq (hp : p.Sized) :
    sPop3UserUsernameValue? c p owner = some (sPop3UserUsernameValue c p owner) := by
  unfold sPop3UserUsernameValue? sPop3UserUsernameValue
  by_cases howner : owner = .originOwned
  · rw [if_pos howner, if_pos howner]
  · rw [if_neg howner, if_neg howner]
    by_cases hi : p.i ≥ maxUserLength
    · rw [if_pos hi, if_pos hi]
    · have hstore : ∀ b, storeAt p.user (p.i : Int) b = some (p.user.set p.i b) :=
        fun b => Lib.storeAt_natCast (by rw [hp.user]; omega)
      rw [if_neg hi, if_neg hi, hstore, hstore]
      by_cases hblank : (isSpace c || c == chr '\r') = true
      · rw [if_pos hblank, if_pos hblank]
      · rw [if_neg hblank, if_neg hblank]
        by_cases hend : c = chr '\n'
        · rw [if_pos hend, if_pos hend]
          rfl
        · rw [if_neg hend, if_neg hend]
          split <;> rfl

theorem sPop3UserPassValue?_eq (hp : p.Sized) :
    sPop3UserPassValue? c p owner = some (sPop3UserPassValue c p owner) := by
  unfold sPop3UserPassValue? sPop3UserPassValue
  by_cases howner : owner = .originOwned
  · rw [if_pos howner, if_pos howner]
  · rw [if_neg howner, if_neg howner]
    by_cases hi : p.i ≥ maxPasswordLength
    · rw [if_pos hi, if_pos hi]
    · have hstore : ∀ b, storeAt p.password (p.i : Int) b = some (p.password.set p.i b) :=
        fun b => Lib.storeAt_natCast (by rw [hp.password]; omega)
      rw [if_neg hi, if_neg hi, hstore, hstore]
      by_cases hblank : (isSpace c || c == chr '\r') = true
      · rw [if_pos hblank, if_pos hblank]
      · rw [if_neg hblank, if_neg hblank]
        by_cases hend : c = chr '\n'
        · rw [if_pos hend, if_pos hend]
          rfl
        · rw [if_neg hend, if_neg hend]
          split <;> rfl

/-- The header's value: its bytes are stored, and a carriage return of the
client ends it. -/
theorem sHttpAuthorizationValue?_eq (hp : p.Sized) :
    sHttpAuthorizationValue? c p owner
      = if owner = .clientOwned ∧ c = chr '\r' ∧ p.i < maxAuthValueLength then
          decodeAndParseAuth? { p with authValue := p.authValue.set p.i 0 }
        else some (sHttpAuthorizationValue c p owner) := by
  unfold sHttpAuthorizationValue? sHttpAuthorizationValue
  by_cases howner : owner = .originOwned
  · rw [if_pos howner, if_pos howner, if_neg (by rw [howner]; simp)]
  · have hclient : owner = .clientOwned := by
      cases owner with
      | clientOwned => rfl
      | originOwned => exact absurd rfl howner
    rw [if_neg howner, if_neg howner]
    by_cases hi : p.i ≥ maxAuthValueLength
    · rw [if_pos hi, if_pos hi, if_neg (by omega)]
    · have hstore : ∀ b, storeAt p.authValue (p.i : Int) b = some (p.authValue.set p.i b) :=
        fun b => Lib.storeAt_natCast (by rw [hp.authValue]; omega)
      rw [if_neg hi, if_neg hi, hstore, hstore]
      by_cases hblank : isSpace c = true
      · have hnot : c ≠ chr '\r' := by
          rintro rfl
          exact absurd hblank (by decide)
        rw [if_pos hblank, if_pos hblank, if_neg (fun h => hnot h.2.1)]
      · rw [if_neg hblank, if_neg hblank]
        by_cases hend : c = chr '\r'
        · rw [if_pos hend, if_pos hend, if_pos ⟨hclient, hend, by omega⟩]
          rfl
        · have hnot : ¬ (owner = .clientOwned ∧ c = chr '\r' ∧ p.i < maxAuthValueLength) :=
            fun h => hend h.2.1
          rw [if_neg hend, if_neg hend, if_neg hnot]
          split <;> rfl

theorem sHttpAuthorizationValue_end (h : owner = .clientOwned ∧ c = chr '\r' ∧
    p.i < maxAuthValueLength) :
    sHttpAuthorizationValue c p owner
      = decodeAndParseAuth { p with authValue := p.authValue.set p.i 0 } := by
  obtain ⟨rfl, rfl, hi⟩ := h
  rw [sHttpAuthorizationValue, if_neg (by decide), if_neg (by omega), if_neg (by decide),
    if_pos rfl]

/-- A checked byte does what the byte does. -/
theorem sniffFeed_checks (port : UInt16) :
    Lib.Checks SnifferReached (sniffFeed? port) (sniffFeed port) where
  agrees := by
    intro p x q hp h
    have hsized := hp.sized
    unfold sniffFeed? snifferParserFeed? at h
    unfold sniffFeed snifferParserFeed
    split at h
    · next hs =>
        rw [sHttpAuthorizationValue?_eq hsized] at h
        rw [hs]
        split at h
        · next hend => exact (sHttpAuthorizationValue_end hend).trans (decodeAndParseAuth?_eq h)
        · exact Option.some.inj h
    · next hs =>
        rw [sPop3UserUsernameValue?_eq hsized] at h
        rw [hs]
        exact Option.some.inj h
    · next hs =>
        rw [sPop3UserPassValue?_eq hsized] at h
        rw [hs]
        exact Option.some.inj h
    · exact Option.some.inj h
  keeps := fun _ _ hp => hp.feed

/-! ## Runs -/

/-- A value that a carriage return of the client ends decodes to a text with a
colon, if it decodes. -/
def SplitsAtColon (p : SnifferParser) (x : DataOwner × UInt8) : Prop :=
  p.state = .sniffHttpAuthorizationValue → x = (.clientOwned, chr '\r') →
  p.i < maxAuthValueLength → ∀ authorization,
  base64Decode (p.authValue.take p.i) = some authorization → chr ':' ∈ authorization

theorem sniffFeed?_isSome_iff {port : UInt16} {p : SnifferParser} (hp : SnifferReached p)
    (x : DataOwner × UInt8) :
    (sniffFeed? port p x).isSome = true ↔ SplitsAtColon p x := by
  have hsized := hp.sized
  obtain ⟨owner, c⟩ := x
  unfold sniffFeed? snifferParserFeed? SplitsAtColon
  split
  · next hs =>
      rw [sHttpAuthorizationValue?_eq hsized]
      split
      · next hend =>
          obtain ⟨howner, hc, hi⟩ := hend
          have hset : SnifferParser.Sized { p with authValue := p.authValue.set p.i 0 } :=
            ⟨hsized.user, hsized.password, by rw [List.length_set]; exact hsized.authValue⟩
          rw [decodeAndParseAuth?_isSome_iff hset (Nat.le_of_lt hi)]
          have htake : (p.authValue.set p.i 0).take p.i = p.authValue.take p.i :=
            List.take_set_of_le (Nat.le_refl _)
          simp only [htake]
          constructor
          · intro h _ _ _
            exact h
          · intro h
            exact h hs (by rw [show owner = _ from howner, show c = _ from hc]) hi
      · next hend =>
          refine iff_of_true rfl ?_
          intro _ hx hi
          cases hx
          exact absurd ⟨rfl, rfl, hi⟩ hend
  · next hs =>
      rw [sPop3UserUsernameValue?_eq hsized]
      exact iff_of_true rfl fun h => by rw [hs] at h; cases h
  · next hs =>
      rw [sPop3UserPassValue?_eq hsized]
      exact iff_of_true rfl fun h => by rw [hs] at h; cases h
  · next hvalue _ _ => exact iff_of_true rfl fun h => absurd h hvalue

/-- On any bytes of the two sides, the sniffer stays in its arrays and wraps
no length around exactly when every value that it decodes has a colon. -/
theorem sniffer_inBounds_iff (port : UInt16) (text : List (DataOwner × UInt8)) :
    (text.foldlM (sniffFeed? port) snifferParserInit).isSome = true ↔
      ∀ pre x, pre ++ [x] <+: text →
        SplitsAtColon (pre.foldl (sniffFeed port) snifferParserInit) x := by
  rw [(sniffFeed_checks port).run_isSome_iff .init]
  have hreached : ∀ pre, SnifferReached (List.foldl (sniffFeed port) snifferParserInit pre) := by
    intro pre
    exact Lib.foldl_tells (R := fun _ p => SnifferReached p) .init (fun _ _ _ h => h.feed) pre
  constructor
  · intro h pre x hpre
    exact (sniffFeed?_isSome_iff (hreached pre) x).mp (h pre x hpre)
  · intro h pre x hpre
    exact (sniffFeed?_isSome_iff (hreached pre) x).mpr (h pre x hpre)

/-- `dXNlcg==` is `user`: the length of its password wraps around. -/
theorem authorization_without_colon :
    ¬ ((tagged .clientOwned
      (ascii "GET / HTTP/1.1\nAuthorization: Basic dXNlcg==\r")).foldlM (sniffFeed? 80)
        snifferParserInit).isSome = true := by
  decide +kernel

end HttpdProxy
