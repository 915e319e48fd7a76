import HttpdProxy.Daemon.Management
import Mathlib.Data.List.GetD

/-!
# What a management request is answered with

The server parses the first twelve bytes of its buffer. This file names the
fields these bytes hold, says once what `management_read` answers to them, and
measures the answer against the protocol: a request with the right passphrase
is answered as section 4 of the protocol asks, one with a wrong passphrase
never is, and a datagram shorter than a request is completed by the bytes an
earlier one left behind.
-/

namespace HttpdProxy

/-! ## The fields of a request -/

def verOf (b : Bytes) : UInt8 := b.getD 0 0
def passphraseOf (b : Bytes) : Bytes := (b.drop 1).take passPhraseLen
def typeOf (b : Bytes) : UInt8 := b.getD 7 0
def methodOf (b : Bytes) : UInt8 := b.getD 8 0
def resvOf (b : Bytes) : UInt8 := b.getD 9 0
def valueOf (b : Bytes) : UInt16 := (b.getD 10 0).toUInt16 <<< 8 + (b.getD 11 0).toUInt16

def requestOf (b : Bytes) : RequestPercy where
  ver := verOf b
  type := typeOf b
  passphrase := passphraseOf b
  method := methodOf b
  resv := resvOf b
  value := valueOf b

/-- The bytes the request parser accepts. -/
def Acceptable (b : Bytes) : Prop := verOf b = 1 ∧ typeOf b ≤ 2 ∧ methodOf b ≤ 7

instance (b : Bytes) : Decidable (Acceptable b) :=
  inferInstanceAs (Decidable (_ ∧ _ ∧ _))

theorem isPercyType_iff (x : UInt8) : isPercyType x = true ↔ x ≤ 2 := by
  simp only [isPercyType, Bool.or_eq_true, beq_iff_eq, UInt8.le_iff_toNat_le,
    ← UInt8.toNat_inj]
  simp only [UInt8.reduceToNat]
  omega

theorem isPercyMethod_iff (x : UInt8) : isPercyMethod x = true ↔ x ≤ 7 := by
  simp only [isPercyMethod, Bool.or_eq_true, beq_iff_eq, UInt8.le_iff_toNat_le,
    ← UInt8.toNat_inj]
  simp only [UInt8.reduceToNat]
  omega

theorem exists_twelve {b : Bytes} (h : b.length = percyRequestSize) :
    ∃ b0 b1 b2 b3 b4 b5 b6 b7 b8 b9 b10 b11 : UInt8,
      b = [b0, b1, b2, b3, b4, b5, b6, b7, b8, b9, b10, b11] := by
  match b, h with
  | [b0, b1, b2, b3, b4, b5, b6, b7, b8, b9, b10, b11], _ =>
      exact ⟨b0, b1, b2, b3, b4, b5, b6, b7, b8, b9, b10, b11, rfl⟩

/-- The parser takes twelve bytes exactly when they are acceptable, and then
its request has their fields. -/
theorem parseRequestGo_twelve {b : Bytes} (h : b.length = percyRequestSize) :
    (parseRequestGo b percyRequestParserInit).1 = decide (Acceptable b) ∧
    (Acceptable b → (parseRequestGo b percyRequestParserInit).2.request = requestOf b) := by
  obtain ⟨b0, b1, b2, b3, b4, b5, b6, b7, b8, b9, b10, b11, rfl⟩ := exists_twelve h
  by_cases hv : b0 = 1
  · by_cases ht : isPercyType b7 = true
    · by_cases hm : isPercyMethod b8 = true
      · have hacc : Acceptable [b0, b1, b2, b3, b4, b5, b6, b7, b8, b9, b10, b11] :=
          ⟨hv, (isPercyType_iff b7).mp ht, (isPercyMethod_iff b8).mp hm⟩
        subst hv
        simp [hacc, parseRequestGo, percyRequestParserFeed, percyRequestParserInit, pRequestVer,
          pRequestPassphrase, pRequestType, pRequestMethod, pRequestResv, pRequestValue,
          passPhraseLen, valueLen, ht, hm, requestOf, verOf, typeOf, passphraseOf, methodOf,
          resvOf, valueOf]
      · have hacc : ¬ Acceptable [b0, b1, b2, b3, b4, b5, b6, b7, b8, b9, b10, b11] :=
          fun ha => hm ((isPercyMethod_iff b8).mpr ha.2.2)
        subst hv
        simp [hacc, parseRequestGo, percyRequestParserFeed, percyRequestParserInit, pRequestVer,
          pRequestPassphrase, pRequestType, pRequestMethod, PercyRequestParser.fail,
          passPhraseLen, ht, hm]
    · have hacc : ¬ Acceptable [b0, b1, b2, b3, b4, b5, b6, b7, b8, b9, b10, b11] :=
        fun ha => ht ((isPercyType_iff b7).mpr ha.2.1)
      subst hv
      simp [hacc, parseRequestGo, percyRequestParserFeed, percyRequestParserInit, pRequestVer,
        pRequestPassphrase, pRequestType, PercyRequestParser.fail, passPhraseLen, ht]
  · have hacc : ¬ Acceptable [b0, b1, b2, b3, b4, b5, b6, b7, b8, b9, b10, b11] :=
      fun ha => hv ha.1
    simp [hacc, parseRequestGo, percyRequestParserFeed, percyRequestParserInit, pRequestVer,
      PercyRequestParser.fail, hv]

/-! ## The answer -/

/-- What is answered to the twelve bytes `b`, and the settings afterwards. -/
def answer (passphrase b : Bytes) (mt : Metrics) (s : Settings) : List Reply × Settings :=
  if Acceptable b then
    if passphraseOf b = passphrase then
      match runMethod (requestOf b) mt s with
      | some (r, s') => ([r], s')
      | none => ([reply unsuccesfulStatus 0], s)
    else ([reply unauthStatus 0, reply unsuccesfulStatus 0], s)
  else ([reply unsuccesfulStatus 0], s)

/-- The passphrase the server compares with. -/
def Management.configured (m : Management) : Bytes := m.passphrase.take passPhraseLen

theorem managementRead_answer {received : Option Bytes} {mt : Metrics} {m : Management}
    {s : Settings} (h : percyRequestSize ≤ (recvfrom m.buffer received).length) :
    (managementRead received mt m s).1
      = (answer m.configured ((recvfrom m.buffer received).take percyRequestSize) mt s).1 ∧
    (managementRead received mt m s).2.2
      = (answer m.configured ((recvfrom m.buffer received).take percyRequestSize) mt s).2 := by
  have hlen : ((recvfrom m.buffer received).take percyRequestSize).length
      = percyRequestSize := by
    rw [List.length_take]
    omega
  obtain ⟨hok, hreq⟩ := parseRequestGo_twelve hlen
  generalize hb : (recvfrom m.buffer received).take percyRequestSize = b at hok hreq
  simp only [managementRead, parseRequest, hb]
  generalize hp : parseRequestGo b percyRequestParserInit = p at hok hreq
  obtain ⟨parsed, p⟩ := p
  simp only at hok hreq
  subst hok
  by_cases ha : Acceptable b
  · have hr := hreq ha
    by_cases hpass : passphraseOf b = m.configured
    · have hcmp : (m.passphrase.take passPhraseLen == (requestOf b).passphrase) = true := by
        rw [beq_iff_eq]
        exact hpass.symm
      simp only [answer, ha, decide_true, if_true, validatePassphrase, hr, hcmp, hpass]
      cases runMethod (requestOf b) mt s with
      | none => simp
      | some r => simp
    · have hcmp : (m.passphrase.take passPhraseLen == (requestOf b).passphrase) = false := by
        rw [beq_eq_false_iff_ne]
        exact fun he => hpass he.symm
      simp [answer, ha, validatePassphrase, hr, hcmp, hpass]
  · simp [answer, ha]

theorem managementRead_state (received : Option Bytes) (mt : Metrics) (m : Management)
    (s : Settings) :
    (managementRead received mt m s).2.1.buffer = recvfrom m.buffer received ∧
    (managementRead received mt m s).2.1.passphrase = m.passphrase := by
  unfold managementRead
  simp only
  split
  · split
    · exact ⟨rfl, rfl⟩
    · split <;> exact ⟨rfl, rfl⟩
  · exact ⟨rfl, rfl⟩

/-! ## What the protocol asks

Replies are read off the wire: a reply is eleven bytes, its second the status,
its last eight a big-endian value. -/

/-- The number big-endian digits stand for. -/
def bigEndian (bs : Bytes) : Nat := bs.foldl (fun n b => n * 256 + b.toNat) 0

/-- One reply was sent, with this status. -/
def RepliedStatus (wire : List Bytes) (status : UInt8) : Prop :=
  ∃ r : Bytes, wire = [r] ∧ r.length = 11 ∧ r.getD 1 0 = status

/-- One reply was sent, with status X'00' and this value. -/
def RepliedValue (wire : List Bytes) (value : UInt64) : Prop :=
  ∃ r : Bytes, wire = [r] ∧ r.length = 11 ∧ r.getD 1 0 = 0 ∧
    bigEndian (r.drop 3) = value.toNat

/-- The metric or setting a retrieval method returns (section 4.2). -/
def retrieval (mt : Metrics) (s : Settings) (method : UInt8) : UInt64 :=
  match method.toNat with
  | 0 => mt.historicalConnections
  | 1 => mt.concurrentConnections
  | 2 => mt.bytesSent
  | 3 => mt.bytesReceived
  | 4 => mt.bytesReceived + mt.bytesSent
  | 5 => s.buffersSize
  | 6 => s.selectorTimeout
  | _ => mt.failedConnections

/-- The settings after a modification, if its value is in the range the
method documents (section 4.3). -/
def modification (s : Settings) (method : UInt8) (value : Nat) : Option Settings :=
  match method.toNat with
  | 0 => if value ≤ 1 then some { s with disectorsEnabled := value = 1 } else none
  | 1 =>
      if 1024 ≤ value ∧ value ≤ 8192 then some { s with buffersSize := value.toUInt64 }
      else none
  | 2 =>
      if 4 ≤ value ∧ value ≤ 12 then some { s with selectorTimeout := value.toUInt64 }
      else none
  | _ => none

/-- The value field, as the number on the wire. -/
def valueSent (d : Bytes) : Nat := bigEndian ((d.drop 10).take 2)

/-- A twelve-byte datagram of version X'01'. -/
def IsRequest (d : Bytes) : Prop := d.length = percyRequestSize ∧ verOf d = 1

/-- What goes out on the wire for a datagram. -/
def wireOf (received : Option Bytes) (mt : Metrics) (m : Management) (s : Settings) :
    List Bytes := (managementRead received mt m s).1.map buildReply

/-- The request `d` was handled as sections 4.2 to 4.4 of the protocol
ask. -/
structure Specified (d : Bytes) (mt : Metrics) (m : Management) (s : Settings) : Prop where
  refused : passphraseOf d ≠ m.configured →
    RepliedStatus (wireOf (some d) mt m s) 1 ∧ (managementRead (some d) mt m s).2.2 = s
  retrieved : passphraseOf d = m.configured → typeOf d = 0 → methodOf d ≤ 7 →
    RepliedValue (wireOf (some d) mt m s) (retrieval mt s (methodOf d)) ∧
    (managementRead (some d) mt m s).2.2 = s
  modified : passphraseOf d = m.configured → typeOf d = 1 →
    ∀ s' : Settings, modification s (methodOf d) (valueSent d) = some s' →
    RepliedStatus (wireOf (some d) mt m s) 0 ∧ (managementRead (some d) mt m s).2.2 = s'
  rejected : passphraseOf d = m.configured → ¬ (typeOf d = 0 ∧ methodOf d ≤ 7) →
    ¬ (typeOf d = 1 ∧ (modification s (methodOf d) (valueSent d)).isSome = true) →
    RepliedStatus (wireOf (some d) mt m s) 2 ∧ (managementRead (some d) mt m s).2.2 = s
  /-- A buffer size or timeout that was set is retrieved by methods 5 and 6,
  whatever the metrics are by then. -/
  readBack : passphraseOf d = m.configured → typeOf d = 1 →
    methodOf d = 1 ∨ methodOf d = 2 →
    (modification s (methodOf d) (valueSent d)).isSome = true →
    ∀ (d' : Bytes) (mt' : Metrics), IsRequest d' → passphraseOf d' = m.configured →
      typeOf d' = 0 → methodOf d' = methodOf d + 4 →
      RepliedValue
        (wireOf (some d') mt' (managementRead (some d) mt m s).2.1
          (managementRead (some d) mt m s).2.2)
        (valueSent d).toUInt64

theorem recvfrom_request {d b : Bytes} (h : d.length = percyRequestSize) :
    (recvfrom b (some d)).take percyRequestSize = d := by
  have hd : d.take maxMsgLen = d := List.take_of_length_le (by rw [h]; decide)
  rw [recvfrom, hd, ← h, List.take_left]

/-- What is answered to a datagram of the size of a request depends on it
alone. -/
theorem managementRead_request {d : Bytes} (h : d.length = percyRequestSize) (mt : Metrics)
    (m : Management) (s : Settings) :
    (managementRead (some d) mt m s).1 = (answer m.configured d mt s).1 ∧
    (managementRead (some d) mt m s).2.2 = (answer m.configured d mt s).2 := by
  have hd : d.take maxMsgLen = d := List.take_of_length_le (by rw [h]; decide)
  have hlen : percyRequestSize ≤ (recvfrom m.buffer (some d)).length := by
    rw [recvfrom, hd, List.length_append]
    omega
  have hread := @managementRead_answer _ mt _ s hlen
  rwa [recvfrom_request h] at hread

theorem buildReply_status (status : UInt8) (value : UInt64) :
    (buildReply (reply status value)).length = 11 ∧
    (buildReply (reply status value)).getD 1 0 = status := ⟨rfl, rfl⟩

theorem toUInt8_toNat (v : UInt64) : v.toUInt8.toNat = v.toNat % 256 := rfl

theorem bigEndian_serialize (v : UInt64) : bigEndian (serialize v) = v.toNat := by
  have htop : v.toNat / 2 ^ 56 % 256 = v.toNat / 2 ^ 56 := by
    have hlt := v.toNat_lt
    omega
  -- one more byte, pushed behind those above it
  have hpush : ∀ k, v.toNat / 2 ^ (k + 8) * 256 + v.toNat / 2 ^ k % 256
      = v.toNat / 2 ^ k := by
    intro k
    rw [Nat.pow_add, ← Nat.div_div_eq_div_mul]
    exact Nat.div_add_mod' _ _
  simp only [bigEndian, serialize, List.foldl_cons, List.foldl_nil, toUInt8_toNat,
    UInt64.toNat_shiftRight, UInt64.reduceToNat, Nat.reduceMod, Nat.shiftRight_eq_div_pow]
  rw [Nat.zero_mul, Nat.zero_add, htop, hpush 48, hpush 40, hpush 32, hpush 24, hpush 16,
    hpush 8]
  exact Nat.div_add_mod' _ _

theorem buildReply_value (status : UInt8) (value : UInt64) :
    bigEndian ((buildReply (reply status value)).drop 3) = value.toNat :=
  bigEndian_serialize value

theorem valueOf_valueSent {d : Bytes} (h : d.length = percyRequestSize) :
    (valueOf d).toNat = valueSent d := by
  obtain ⟨b0, b1, b2, b3, b4, b5, b6, b7, b8, b9, b10, b11, rfl⟩ := exists_twelve h
  have h10 := b10.toNat_lt
  have h11 := b11.toNat_lt
  simp [valueOf, valueSent, bigEndian, UInt16.toNat_add, UInt16.toNat_shiftLeft,
    Nat.shiftLeft_eq]
  omega

theorem toUInt64_of_toNat {v : UInt16} {n : Nat} (h : v.toNat = n) :
    v.toUInt64 = n.toUInt64 := by
  subst h
  apply UInt64.toNat_inj.mp
  simp

theorem retrievalMethods_method (mt : Metrics) (s : Settings) {method : UInt8}
    (hm : method ≤ 7) : (retrievalMethods mt s)[method.toNat]? = some (retrieval mt s method) := by
  have hle : method.toNat ≤ 7 := UInt8.le_iff_toNat_le.mp hm
  unfold retrieval
  generalize method.toNat = k at hle
  match k, hle with
  | 0, _ | 1, _ | 2, _ | 3, _ | 4, _ | 5, _ | 6, _ | 7, _ => rfl

/-- The table of modification methods against the ranges of section 4.3. -/
theorem modificationMethods_method (s : Settings) (method : UInt8) {v : UInt16} {n : Nat}
    (hv : v.toNat = n) :
    (modificationMethods[method.toNat]?.map fun m =>
        if validateInputValue m v then (reply successStatus 0, m.modificationMethod v s)
        else (reply unsuccesfulStatus 0, s))
      = match modification s method n with
        | some s' => some (reply successStatus 0, s')
        | none => if method ≤ 2 then some (reply unsuccesfulStatus 0, s) else none := by
  have h64 := toUInt64_of_toNat hv
  simp only [modification, UInt8.le_iff_toNat_le]
  generalize method.toNat = k
  match k with
  | 0 =>
      by_cases hle : n ≤ 1
      · have hval : v ≤ 1 := UInt16.le_iff_toNat_le.mpr (by rw [hv]; exact hle)
        have hset : (v != 0) = decide (n = 1) := by
          rw [Bool.eq_iff_iff, bne_iff_ne, ne_eq, decide_eq_true_eq, ← UInt16.toNat_inj, hv]
          simp only [UInt16.toNat_zero]
          omega
        simp [modificationMethods, validateInputValue, hval, hle, setDisectorValue, hset]
      · have hval : ¬ v ≤ 1 := by
          rw [UInt16.le_iff_toNat_le, hv]
          exact hle
        simp [modificationMethods, validateInputValue, hval, hle]
  | 1 =>
      by_cases hin : 1024 ≤ n ∧ n ≤ 8192
      · have hval : v ≤ 8192 ∧ 1024 ≤ v := by
          rw [UInt16.le_iff_toNat_le, UInt16.le_iff_toNat_le, hv]
          exact ⟨hin.2, hin.1⟩
        simp [modificationMethods, validateInputValue, hval, hin, setBufferSize, h64]
      · have hval : ¬ (v ≤ 8192 ∧ 1024 ≤ v) := by
          rw [UInt16.le_iff_toNat_le, UInt16.le_iff_toNat_le, hv]
          exact fun hc => hin ⟨hc.2, hc.1⟩
        simp [modificationMethods, validateInputValue, hval, hin]
  | 2 =>
      by_cases hin : 4 ≤ n ∧ n ≤ 12
      · have hval : v ≤ 12 ∧ 4 ≤ v := by
          rw [UInt16.le_iff_toNat_le, UInt16.le_iff_toNat_le, hv]
          exact ⟨hin.2, hin.1⟩
        simp [modificationMethods, validateInputValue, hval, hin, setSelectorTimeout, h64]
      · have hval : ¬ (v ≤ 12 ∧ 4 ≤ v) := by
          rw [UInt16.le_iff_toNat_le, UInt16.le_iff_toNat_le, hv]
          exact fun hc => hin ⟨hc.2, hc.1⟩
        simp [modificationMethods, validateInputValue, hval, hin]
  | k + 3 =>
      have hk : ¬ k + 3 ≤ UInt8.toNat 2 := by
        show ¬ k + 3 ≤ 2
        omega
      simp [modificationMethods]

theorem runMethod_retrieval {d : Bytes} (mt : Metrics) (s : Settings) (ht : typeOf d = 0)
    (hm : methodOf d ≤ 7) :
    runMethod (requestOf d) mt s
      = some (reply successStatus (retrieval mt s (methodOf d)), s) := by
  have hty : (requestOf d).type = 0 := ht
  rw [runMethod, if_pos hty, requestOf, retrievalMethods_method mt s hm, Option.map_some]

theorem runMethod_modification {d : Bytes} (mt : Metrics) (s : Settings)
    (h : d.length = percyRequestSize) (ht : typeOf d = 1) :
    runMethod (requestOf d) mt s
      = match modification s (methodOf d) (valueSent d) with
        | some s' => some (reply successStatus 0, s')
        | none => if methodOf d ≤ 2 then some (reply unsuccesfulStatus 0, s) else none := by
  have h0 : (requestOf d).type ≠ 0 := by
    show typeOf d ≠ 0
    rw [ht]
    decide
  rw [runMethod, if_neg h0, if_pos (show (requestOf d).type = 1 from ht)]
  exact modificationMethods_method s (methodOf d) (valueOf_valueSent h)

/-! ## The answers, case by case -/

section answers

variable {pass d : Bytes} {mt : Metrics} {s : Settings}

theorem answer_refused (ha : Acceptable d) (hp : passphraseOf d ≠ pass) :
    answer pass d mt s = ([reply unauthStatus 0, reply unsuccesfulStatus 0], s) := by
  rw [answer, if_pos ha, if_neg hp]

theorem answer_unparsed (ha : ¬ Acceptable d) :
    answer pass d mt s = ([reply unsuccesfulStatus 0], s) := by
  rw [answer, if_neg ha]

theorem answer_retrieval (hv : verOf d = 1) (hp : passphraseOf d = pass)
    (ht : typeOf d = 0) (hm : methodOf d ≤ 7) :
    answer pass d mt s = ([reply successStatus (retrieval mt s (methodOf d))], s) := by
  have ha : Acceptable d := ⟨hv, by rw [ht]; decide, hm⟩
  rw [answer, if_pos ha, if_pos hp, runMethod_retrieval mt s ht hm]

theorem modification_method {method : UInt8} {value : Nat} {s' : Settings}
    (h : modification s method value = some s') : method ≤ 2 := by
  rw [UInt8.le_iff_toNat_le]
  unfold modification at h
  split at h
  · next hm => rw [hm]; decide
  · next hm => rw [hm]; decide
  · next hm => rw [hm]; decide
  · cases h

theorem answer_modified {s' : Settings} (hr : IsRequest d) (hp : passphraseOf d = pass)
    (ht : typeOf d = 1) (hs : modification s (methodOf d) (valueSent d) = some s') :
    answer pass d mt s = ([reply successStatus 0], s') := by
  have hm := modification_method hs
  have ha : Acceptable d := ⟨hr.2, by rw [ht]; decide, UInt8.le_trans hm (by decide)⟩
  rw [answer, if_pos ha, if_pos hp, runMethod_modification mt s hr.1 ht, hs]

theorem answer_rejected (hr : IsRequest d) (hp : passphraseOf d = pass)
    (h0 : ¬ (typeOf d = 0 ∧ methodOf d ≤ 7))
    (h1 : ¬ (typeOf d = 1 ∧ (modification s (methodOf d) (valueSent d)).isSome = true)) :
    answer pass d mt s = ([reply unsuccesfulStatus 0], s) := by
  by_cases ha : Acceptable d
  · have ht0 : typeOf d ≠ 0 := fun ht => h0 ⟨ht, ha.2.2⟩
    rw [answer, if_pos ha, if_pos hp]
    by_cases ht1 : typeOf d = 1
    · have hnone : modification s (methodOf d) (valueSent d) = none := by
        cases hs : modification s (methodOf d) (valueSent d) with
        | none => rfl
        | some s' => exact absurd ⟨ht1, by rw [hs]; rfl⟩ h1
      rw [runMethod_modification mt s hr.1 ht1, hnone]
      by_cases hm : methodOf d ≤ 2
      · simp only [if_pos hm]
      · simp only [if_neg hm]
    · have h0' : (requestOf d).type ≠ 0 := ht0
      have h1' : (requestOf d).type ≠ 1 := ht1
      rw [runMethod, if_neg h0', if_neg h1']
  · exact answer_unparsed ha

end answers

/-! ## Exactly the authorised requests are handled as specified -/

theorem wireOf_answer {d : Bytes} (h : d.length = percyRequestSize) (mt : Metrics)
    (m : Management) (s : Settings) :
    wireOf (some d) mt m s = (answer m.configured d mt s).1.map buildReply := by
  rw [wireOf, (managementRead_request h mt m s).1]

theorem repliedStatus_one {wire : List Bytes} {status : UInt8}
    (h : wire = [reply status 0].map buildReply) : RepliedStatus wire status :=
  ⟨_, h, (buildReply_status status 0).1, (buildReply_status status 0).2⟩

theorem repliedValue_one {wire : List Bytes} {value : UInt64}
    (h : wire = [reply successStatus value].map buildReply) : RepliedValue wire value :=
  ⟨_, h, (buildReply_status successStatus value).1, (buildReply_status successStatus value).2,
    buildReply_value successStatus value⟩

theorem retrieval_modified {s s' : Settings} {method method' : UInt8} {value : Nat}
    (mt : Metrics) (hm : method = 1 ∨ method = 2) (hm' : method' = method + 4)
    (hs : modification s method value = some s') :
    retrieval mt s' method' = value.toUInt64 := by
  rcases hm with rfl | rfl
  · subst hm'
    have hs1 : (if 1024 ≤ value ∧ value ≤ 8192 then
        some { s with buffersSize := value.toUInt64 } else none) = some s' := hs
    split at hs1
    · cases hs1
      rfl
    · cases hs1
  · subst hm'
    have hs2 : (if 4 ≤ value ∧ value ≤ 12 then
        some { s with selectorTimeout := value.toUInt64 } else none) = some s' := hs
    split at hs2
    · cases hs2
      rfl
    · cases hs2

theorem specified_of_authorised {d : Bytes} {mt : Metrics} {m : Management} {s : Settings}
    (hr : IsRequest d) (hp : passphraseOf d = m.configured) : Specified d mt m s where
  refused := fun hne => absurd hp hne
  retrieved := by
    intro _ ht hm
    have ha := @answer_retrieval _ _ mt s hr.2 hp ht hm
    refine ⟨repliedValue_one ?_, ?_⟩
    · rw [wireOf_answer hr.1, ha]
    · rw [(managementRead_request hr.1 mt m s).2, ha]
  modified := by
    intro _ ht s' hs
    have ha := @answer_modified _ _ mt _ _ hr hp ht hs
    refine ⟨repliedStatus_one ?_, ?_⟩
    · rw [wireOf_answer hr.1, ha]
      rfl
    · rw [(managementRead_request hr.1 mt m s).2, ha]
  rejected := by
    intro _ h0 h1
    have ha := @answer_rejected _ _ mt _ hr hp h0 h1
    refine ⟨repliedStatus_one ?_, ?_⟩
    · rw [wireOf_answer hr.1, ha]
      rfl
    · rw [(managementRead_request hr.1 mt m s).2, ha]
  readBack := by
    intro _ ht hm hsome d' mt' hr' hp' ht' hm'
    obtain ⟨s', hs⟩ := Option.isSome_iff_exists.mp hsome
    have ha := @answer_modified _ _ mt _ _ hr hp ht hs
    have hs' : (managementRead (some d) mt m s).2.2 = s' := by
      rw [(managementRead_request hr.1 mt m s).2, ha]
    have hconf : (managementRead (some d) mt m s).2.1.configured = m.configured := by
      rw [Management.configured, (managementRead_state (some d) mt m s).2]
      rfl
    have hle : methodOf d' ≤ 7 := by
      rw [hm']
      rcases hm with h | h <;> rw [h] <;> decide
    have hret := @answer_retrieval _ _ mt' s' hr'.2 hp' ht' hle
    rw [retrieval_modified mt' hm hm' hs] at hret
    refine repliedValue_one ?_
    rw [wireOf_answer hr'.1, hconf, hs', hret]

/-- A request of version X'01' is handled as the protocol asks exactly when
it carries the configured passphrase: one that does not is refused and then
answered once more, or not refused at all where its type or its method is
unknown. -/
theorem request_specified_iff (d : Bytes) (mt : Metrics) (m : Management) (s : Settings)
    (hr : IsRequest d) : Specified d mt m s ↔ passphraseOf d = m.configured := by
  constructor
  · intro h
    by_cases hp : passphraseOf d = m.configured
    · exact hp
    · obtain ⟨⟨r, hw, -, hst⟩, -⟩ := h.refused hp
      rw [wireOf_answer hr.1] at hw
      by_cases ha : Acceptable d
      · rw [answer_refused ha hp] at hw
        cases hw
      · rw [answer_unparsed ha] at hw
        cases hw
        cases hst
  · exact specified_of_authorised hr

/-- A retrieval of the buffer size with the right passphrase. -/
def authorisedRequest : Bytes := [1] ++ ascii "123456" ++ [0, 5, 0, 0, 0]

/-- The same request with another passphrase. -/
def unauthorisedRequest : Bytes := [1] ++ ascii "000000" ++ [0, 5, 0, 0, 0]

theorem request_answered_twice :
    IsRequest unauthorisedRequest ∧
    ¬ Specified unauthorisedRequest initMetrics initManagement ⟨true, 8192, 8⟩ := by
  refine ⟨⟨rfl, rfl⟩, fun h => ?_⟩
  obtain ⟨⟨r, hw, -, -⟩, -⟩ := h.refused (by decide)
  rw [wireOf_answer rfl, answer_refused (by decide) (by decide)] at hw
  cases hw

theorem request_specified_iff_authorised :
    Specified authorisedRequest initMetrics initManagement ⟨true, 8192, 8⟩ :=
  (request_specified_iff authorisedRequest initMetrics initManagement ⟨true, 8192, 8⟩
    ⟨rfl, rfl⟩).mpr rfl

/-! ## What earlier datagrams leave behind

A history is the datagrams received so far, each with the metrics of its
moment. -/

/-- What is received in one call of `management_read`, and the metrics
then. -/
structure Receipt where
  datagram : Option Bytes
  metrics : Metrics

def serve (st : Management × Settings) (e : Receipt) : Management × Settings :=
  (managementRead e.datagram e.metrics st.1 st.2).2

/-- The server and the settings after a history. -/
def served (s : Settings) (history : List Receipt) : Management × Settings :=
  history.foldl serve (initManagement, s)

/-- The passphrase of `init_management`. -/
def secret : Bytes := ascii "123456"

theorem served_kept (s : Settings) (history : List Receipt) :
    (served s history).1.buffer.length = maxMsgLen ∧
    (served s history).1.passphrase = secret := by
  have hrun : ∀ (history : List Receipt) (st : Management × Settings),
      st.1.buffer.length = maxMsgLen → st.1.passphrase = secret →
      (history.foldl serve st).1.buffer.length = maxMsgLen ∧
      (history.foldl serve st).1.passphrase = secret := by
    intro history
    induction history with
    | nil => exact fun st hb hp => ⟨hb, hp⟩
    | cons e history ih =>
        intro st hb hp
        obtain ⟨hbuf, hpass⟩ := managementRead_state e.datagram e.metrics st.1 st.2
        refine ih (serve st e) ?_ (hpass.trans hp)
        show (managementRead e.datagram e.metrics st.1 st.2).2.1.buffer.length = maxMsgLen
        rw [hbuf]
        cases e.datagram with
        | none => exact hb
        | some d =>
            simp only [recvfrom, List.length_append, List.length_take, List.length_drop, hb]
            omega
  exact hrun history (initManagement, s) rfl rfl

/-- The twelve bytes parsed when `received` arrives after a history. -/
def parsedAfter (s : Settings) (history : List Receipt) (received : Option Bytes) : Bytes :=
  (recvfrom (served s history).1.buffer received).take percyRequestSize

/-- What is answered to `received` after a history, and the settings then. -/
def answeredAfter (s : Settings) (history : List Receipt) (mt : Metrics)
    (received : Option Bytes) : List Reply × Settings :=
  let st := served s history
  let (replies, _, s') := managementRead received mt st.1 st.2
  (replies, s')

theorem answeredAfter_eq (s : Settings) (history : List Receipt) (mt : Metrics)
    (received : Option Bytes) :
    answeredAfter s history mt received
      = answer secret (parsedAfter s history received) mt (served s history).2 := by
  obtain ⟨hbuf, hpass⟩ := served_kept s history
  have hlen : percyRequestSize ≤ (recvfrom (served s history).1.buffer received).length := by
    cases received with
    | none =>
        rw [recvfrom, hbuf]
        decide
    | some d =>
        simp only [recvfrom, List.length_append, List.length_take, List.length_drop, hbuf,
          percyRequestSize, maxMsgLen]
        omega
  have hconf : (served s history).1.configured = secret := by
    rw [Management.configured, hpass]
    rfl
  obtain ⟨h1, h2⟩ := @managementRead_answer _ mt _ (served s history).2 hlen
  rw [hconf] at h1 h2
  exact Prod.ext h1 h2

/-- The datagram carries the passphrase in its bytes 1 to 6. -/
def Carries (received : Option Bytes) : Prop :=
  ∃ d : Bytes, received = some d ∧ passphraseOf d = secret

/-- In the runs from these settings, what `received` is answered, and what it
changes, depends on it alone: only a datagram that carries the passphrase is
granted anything, and after two histories that left the same settings the
same datagram is answered alike. -/
structure SelfContained (s : Settings) (received : Option Bytes) : Prop where
  authenticated : ∀ (history : List Receipt) (mt : Metrics),
    (∃ r ∈ (answeredAfter s history mt received).1, r.status = successStatus) ∨
      (answeredAfter s history mt received).2 ≠ (served s history).2 → Carries received
  alike : ∀ (history history' : List Receipt) (mt : Metrics),
    (served s history).2 = (served s history').2 →
    answeredAfter s history mt received = answeredAfter s history' mt received

/-- No value whose high byte is `hi` is in the range of the method. -/
def OutOfRange (method hi : UInt8) : Prop :=
  (method = 0 ∧ hi ≠ 0) ∨ (method = 1 ∧ (hi < 4 ∨ 32 < hi)) ∨ (method = 2 ∧ hi ≠ 0)

/-- The bytes of a datagram that decide its answer by themselves: all twelve,
or as many as it takes for the rest to be irrelevant. -/
def Decisive (d : Bytes) : Prop :=
  12 ≤ d.length ∨
  (1 ≤ d.length ∧ verOf d ≠ 1) ∨
  (8 ≤ d.length ∧ (2 < typeOf d ∨ (typeOf d = 2 ∧ passphraseOf d = secret))) ∨
  (9 ≤ d.length ∧ (passphraseOf d ≠ secret ∨ typeOf d ≠ 1 ∨ 2 < methodOf d)) ∨
  (d.length = 11 ∧ OutOfRange (methodOf d) (d.getD 10 0))

/-! ### Fields of a datagram completed by leftovers -/

section append

variable {d r : Bytes}

theorem verOf_append (h : 1 ≤ d.length) : verOf (d ++ r) = verOf d :=
  List.getD_append d r 0 0 h

theorem typeOf_append (h : 8 ≤ d.length) : typeOf (d ++ r) = typeOf d :=
  List.getD_append d r 0 7 h

theorem methodOf_append (h : 9 ≤ d.length) : methodOf (d ++ r) = methodOf d :=
  List.getD_append d r 0 8 h

theorem passphraseOf_append (h : 7 ≤ d.length) : passphraseOf (d ++ r) = passphraseOf d := by
  rw [passphraseOf, List.drop_append_of_le_length (by omega),
    List.take_append_of_le_length]
  · rfl
  · rw [List.length_drop]
    show 6 ≤ d.length - 1
    omega

theorem valueSent_append (h : d.length = 11) (lo : UInt8) :
    valueSent (d ++ [lo]) = (d.getD 10 0).toNat * 256 + lo.toNat := by
  match d, h with
  | [_, _, _, _, _, _, _, _, _, _, b10], _ => simp [valueSent, bigEndian]

end append

theorem modification_outOfRange {s : Settings} {method hi : UInt8} (lo : UInt8)
    (h : OutOfRange method hi) : modification s method (hi.toNat * 256 + lo.toNat) = none := by
  have hlo := lo.toNat_lt
  rcases h with ⟨rfl, hhi⟩ | ⟨rfl, hhi⟩ | ⟨rfl, hhi⟩
  · have hpos : hi.toNat ≠ 0 := fun h0 => hhi (UInt8.toNat_inj.mp h0)
    show (if _ then _ else _) = _
    rw [if_neg (by omega)]
  · show (if _ then _ else _) = _
    rw [if_neg]
    rcases hhi with hlt | hlt
    · have := UInt8.lt_iff_toNat_lt.mp hlt
      simp only [UInt8.reduceToNat] at this
      omega
    · have := UInt8.lt_iff_toNat_lt.mp hlt
      simp only [UInt8.reduceToNat] at this
      omega
  · have hpos : hi.toNat ≠ 0 := fun h0 => hhi (UInt8.toNat_inj.mp h0)
    show (if _ then _ else _) = _
    rw [if_neg (by omega)]

theorem parsedAfter_long {d : Bytes} (s : Settings) (history : List Receipt)
    (h : percyRequestSize ≤ d.length) :
    parsedAfter s history (some d) = d.take percyRequestSize := by
  rw [parsedAfter, recvfrom, List.take_append_of_le_length, List.take_take]
  · rfl
  · rw [List.length_take]
    exact Nat.le_min.mpr ⟨by decide, h⟩

/-- What completes a short datagram: the bytes of the buffer after its
length. -/
def leftover (s : Settings) (history : List Receipt) (n : Nat) : Bytes :=
  ((served s history).1.buffer.drop n).take (percyRequestSize - n)

theorem parsedAfter_short {d : Bytes} (s : Settings) (history : List Receipt)
    (h : d.length ≤ percyRequestSize) :
    parsedAfter s history (some d) = d ++ leftover s history d.length := by
  have hd : d.take maxMsgLen = d :=
    List.take_of_length_le (Nat.le_trans h (by decide))
  rw [parsedAfter, recvfrom, hd, List.take_append, List.take_of_length_le h, leftover]

theorem leftover_length (s : Settings) (history : List Receipt) {n : Nat}
    (h : n ≤ percyRequestSize) : n + (leftover s history n).length = percyRequestSize := by
  have hb := (served_kept s history).1
  rw [leftover, List.length_take, List.length_drop, hb]
  simp only [percyRequestSize, maxMsgLen] at h ⊢
  omega

/-! ### A decisive datagram is answered by itself -/

theorem answer_other {b : Bytes} {mt : Metrics} {s : Settings}
    (hl : b.length = percyRequestSize) (hp : passphraseOf b = secret)
    (h0 : typeOf b ≠ 0) (h1 : typeOf b = 1 → modification s (methodOf b) (valueSent b) = none) :
    answer secret b mt s = ([reply unsuccesfulStatus 0], s) := by
  by_cases hv : verOf b = 1
  · refine answer_rejected ⟨hl, hv⟩ hp (fun h => h0 h.1) ?_
    intro h
    rw [h1 h.1] at h
    cases h.2
  · exact answer_unparsed fun ha => hv ha.1

/-- With type and method received, all that is left to decide is the value
of a modification. -/
theorem answer_append_method {d r r' : Bytes} (h9 : 9 ≤ d.length)
    (hrest : passphraseOf d ≠ secret ∨ typeOf d ≠ 1 ∨ 2 < methodOf d)
    (hl : (d ++ r).length = percyRequestSize) (hl' : (d ++ r').length = percyRequestSize)
    (mt : Metrics) (s : Settings) :
    answer secret (d ++ r) mt s = answer secret (d ++ r') mt s := by
  have hv : ∀ r : Bytes, verOf (d ++ r) = verOf d := fun r => verOf_append (by omega)
  have ht : ∀ r : Bytes, typeOf (d ++ r) = typeOf d := fun r => typeOf_append (by omega)
  have hm : ∀ r : Bytes, methodOf (d ++ r) = methodOf d := fun r => methodOf_append h9
  have hp : ∀ r : Bytes, passphraseOf (d ++ r) = passphraseOf d :=
    fun r => passphraseOf_append (by omega)
  have hacc : ∀ r : Bytes, Acceptable (d ++ r) ↔ Acceptable d := by
    intro r
    rw [Acceptable, Acceptable, hv, ht, hm]
  by_cases ha : Acceptable d
  · by_cases hpass : passphraseOf d = secret
    · by_cases h0 : typeOf d = 0
      · have hret : ∀ r : Bytes, answer secret (d ++ r) mt s
            = ([reply successStatus (retrieval mt s (methodOf d))], s) := by
          intro r
          have h := @answer_retrieval secret (d ++ r) mt s
          rw [hv, ht, hm, hp] at h
          exact h ha.1 hpass h0 ha.2.2
        rw [hret r, hret r']
      · have hrej : ∀ r : Bytes, (d ++ r).length = percyRequestSize →
            answer secret (d ++ r) mt s = ([reply unsuccesfulStatus 0], s) := by
          intro r hl
          refine answer_other hl ((hp r).trans hpass) (by rw [ht]; exact h0) ?_
          intro h1
          rw [ht] at h1
          rcases hrest with hne | hne | hgt
          · exact absurd hpass hne
          · exact absurd h1 hne
          · cases hmod : modification s (methodOf (d ++ r)) (valueSent (d ++ r)) with
            | none => rfl
            | some s' =>
                have hle := modification_method hmod
                rw [hm] at hle
                exact absurd hgt (UInt8.not_lt.mpr hle)
        rw [hrej r hl, hrej r' hl']
    · have href : ∀ r : Bytes, answer secret (d ++ r) mt s
          = ([reply unauthStatus 0, reply unsuccesfulStatus 0], s) :=
        fun r => answer_refused ((hacc r).mpr ha) (by rw [hp]; exact hpass)
      rw [href r, href r']
  · rw [answer_unparsed (fun h => ha ((hacc r).mp h)),
      answer_unparsed (fun h => ha ((hacc r').mp h))]

theorem answer_append {d r r' : Bytes} (hd : Decisive d)
    (hl : (d ++ r).length = percyRequestSize) (hl' : (d ++ r').length = percyRequestSize)
    (hshort : d.length < 12) (mt : Metrics) (s : Settings) :
    answer secret (d ++ r) mt s = answer secret (d ++ r') mt s := by
  rcases hd with h12 | ⟨h1, hv⟩ | ⟨h8, ht⟩ | ⟨h9, hrest⟩ | ⟨h11, hout⟩
  · omega
  · have hun : ∀ r : Bytes, answer secret (d ++ r) mt s = ([reply unsuccesfulStatus 0], s) :=
      fun r => answer_unparsed fun ha => hv ((verOf_append h1).symm.trans ha.1)
    rw [hun r, hun r']
  · have hun : ∀ r : Bytes, (d ++ r).length = percyRequestSize →
        answer secret (d ++ r) mt s = ([reply unsuccesfulStatus 0], s) := by
      intro r hl
      rcases ht with hgt | ⟨h2, hp⟩
      · refine answer_unparsed fun ha => ?_
        have hle := ha.2.1
        rw [typeOf_append h8] at hle
        exact absurd hgt (UInt8.not_lt.mpr hle)
      · have htype : typeOf (d ++ r) = 2 := (typeOf_append h8).trans h2
        refine answer_other hl ((passphraseOf_append (by omega)).trans hp) ?_ ?_
        · rw [htype]
          decide
        · intro h
          rw [htype] at h
          cases h
    rw [hun r hl, hun r' hl']
  · exact answer_append_method h9 hrest hl hl' mt s
  · by_cases hrest : passphraseOf d ≠ secret ∨ typeOf d ≠ 1 ∨ 2 < methodOf d
    · exact answer_append_method (by omega) hrest hl hl' mt s
    · have hp : passphraseOf d = secret :=
        Decidable.byContradiction fun hne => hrest (.inl hne)
      have ht : typeOf d = 1 := Decidable.byContradiction fun hne => hrest (.inr (.inl hne))
      have hrej : ∀ r : Bytes, (d ++ r).length = percyRequestSize →
          answer secret (d ++ r) mt s = ([reply unsuccesfulStatus 0], s) := by
        intro r hl
        refine answer_other hl ((passphraseOf_append (by omega)).trans hp) ?_ ?_
        · rw [typeOf_append (by omega), ht]
          decide
        · intro _
          obtain ⟨lo, rfl⟩ : ∃ lo, r = [lo] := by
            rw [List.length_append, h11] at hl
            exact List.length_eq_one_iff.mp (by simp only [percyRequestSize] at hl; omega)
          rw [methodOf_append (by omega), valueSent_append h11 lo]
          exact modification_outOfRange lo hout
      rw [hrej r hl, hrej r' hl']

/-- Nothing is granted but to a request with the passphrase. -/
theorem answer_granted {b : Bytes} {mt : Metrics} {s : Settings}
    (h : (∃ r ∈ (answer secret b mt s).1, r.status = successStatus) ∨
      (answer secret b mt s).2 ≠ s) : Acceptable b ∧ passphraseOf b = secret := by
  by_cases ha : Acceptable b
  · by_cases hp : passphraseOf b = secret
    · exact ⟨ha, hp⟩
    · rw [answer_refused ha hp] at h
      rcases h with ⟨r, hr, hst⟩ | hne
      · simp only [List.mem_cons, List.not_mem_nil, or_false] at hr
        rcases hr with rfl | rfl <;> cases hst
      · exact absurd rfl hne
  · rw [answer_unparsed ha] at h
    rcases h with ⟨r, hr, hst⟩ | hne
    · simp only [List.mem_cons, List.not_mem_nil, or_false] at hr
      cases hr
      cases hst
    · exact absurd rfl hne

theorem selfContained_of_decisive {d : Bytes} (s : Settings) (hd : Decisive d) :
    SelfContained s (some d) where
  authenticated := by
    intro history mt h
    rw [answeredAfter_eq] at h
    obtain ⟨ha, hp⟩ := answer_granted h
    refine ⟨d, rfl, ?_⟩
    by_cases hlong : percyRequestSize ≤ d.length
    · rw [parsedAfter_long s history hlong, passphraseOf, List.drop_take, List.take_take] at hp
      exact hp
    · rw [parsedAfter_short s history (by omega)] at ha hp
      have h7 : 7 ≤ d.length := by
        rcases hd with h12 | ⟨h1, hv⟩ | ⟨h8, -⟩ | ⟨h9, -⟩ | ⟨h11, -⟩
        · exact absurd h12 hlong
        · exact absurd ((verOf_append h1).symm.trans ha.1) hv
        · omega
        · omega
        · omega
      exact (passphraseOf_append h7).symm.trans hp
  alike := by
    intro history history' mt hset
    rw [answeredAfter_eq, answeredAfter_eq, hset]
    by_cases hlong : percyRequestSize ≤ d.length
    · rw [parsedAfter_long s history hlong, parsedAfter_long s history' hlong]
    · have hle : d.length ≤ percyRequestSize := by omega
      rw [parsedAfter_short s history hle, parsedAfter_short s history' hle]
      refine answer_append hd ?_ ?_ (by simp only [percyRequestSize] at hlong; omega) mt _
      · rw [List.length_append, leftover_length s history hle]
      · rw [List.length_append, leftover_length s history' hle]

/-! ### Any other is completed by what an earlier one left -/

/-- A history that leaves the bytes of `t` after the first in the buffer and
changes nothing else: its version is wrong. -/
def leaving (t : Bytes) : List Receipt :=
  [{ datagram := some (0 :: t.tail), metrics := initMetrics }]

section leaving

variable {d t : Bytes} {s : Settings}

theorem parsedAfter_leaving (ht : t.length = percyRequestSize) (h1 : 1 ≤ d.length)
    (h12 : d.length ≤ percyRequestSize) :
    parsedAfter s (leaving t) (some d) = d ++ t.drop d.length := by
  obtain ⟨t0, t1, t2, t3, t4, t5, t6, t7, t8, t9, t10, t11, rfl⟩ := exists_twelve ht
  obtain ⟨n, hn⟩ : ∃ n, d.length = n + 1 := ⟨d.length - 1, by omega⟩
  rw [parsedAfter_short s _ h12, leftover]
  have hbuf : (served s (leaving [t0, t1, t2, t3, t4, t5, t6, t7, t8, t9, t10, t11])).1.buffer
      = [0, t1, t2, t3, t4, t5, t6, t7, t8, t9, t10, t11] ++ List.replicate 116 0 :=
    (managementRead_state _ _ _ _).1
  have hle : n ≤ 11 := by
    simp only [percyRequestSize] at h12
    omega
  rw [hbuf, hn, List.drop_append_of_le_length (by simp; omega), List.take_left']
  · rfl
  · rw [List.length_drop]
    rfl

theorem served_leaving (ht : t.length = percyRequestSize) : (served s (leaving t)).2 = s := by
  have hl : (0 :: t.tail : Bytes).length = percyRequestSize := by
    rw [List.length_cons, List.length_tail, ht]
    rfl
  have hread := (managementRead_request hl initMetrics initManagement s).2
  have h0 : ¬ Acceptable (0 :: t.tail) := fun ha => absurd (show (0 : UInt8) = 1 from ha.1)
    (by decide)
  rw [answer_unparsed h0] at hread
  exact hread

/-- Two completions that are answered differently. -/
theorem not_selfContained {t' : Bytes} (h1 : 1 ≤ d.length)
    (h12 : d.length ≤ percyRequestSize) (ht : t.length = percyRequestSize)
    (ht' : t'.length = percyRequestSize)
    (hne : answer secret (d ++ t.drop d.length) initMetrics s
      ≠ answer secret (d ++ t'.drop d.length) initMetrics s) :
    ¬ SelfContained s (some d) := by
  intro h
  have hset : (served s (leaving t)).2 = (served s (leaving t')).2 := by
    rw [served_leaving ht, served_leaving ht']
  have heq := h.alike (leaving t) (leaving t') initMetrics hset
  rw [answeredAfter_eq, answeredAfter_eq, parsedAfter_leaving ht h1 h12,
    parsedAfter_leaving ht' h1 h12, served_leaving ht, served_leaving ht'] at heq
  exact hne heq

theorem getD_spliced (d t : Bytes) (i : Nat) (h : d.length ≤ i) :
    (d ++ t.drop d.length).getD i 0 = t.getD i 0 := by
  rw [List.getD_append_right _ _ _ _ h, List.getD_eq_getElem?_getD,
    List.getD_eq_getElem?_getD, List.getElem?_drop, Nat.add_sub_cancel' h]

theorem length_spliced (ht : t.length = percyRequestSize) (h12 : d.length ≤ percyRequestSize) :
    (d ++ t.drop d.length).length = percyRequestSize := by
  rw [List.length_append, List.length_drop, ht]
  omega

end leaving

/-- A request that is acceptable, of type X'00' or with a wrong passphrase,
is not answered like one that is not acceptable. -/
theorem answer_ne_unparsed {b b' : Bytes} {mt : Metrics} {s : Settings} (ha : Acceptable b)
    (h : passphraseOf b ≠ secret ∨ typeOf b = 0) (ha' : ¬ Acceptable b') :
    answer secret b' mt s ≠ answer secret b mt s := by
  rw [answer_unparsed ha']
  by_cases hp : passphraseOf b = secret
  · have h0 : typeOf b = 0 := h.resolve_left fun hne => hne hp
    rw [answer_retrieval ha.1 hp h0 ha.2.2]
    intro heq
    cases congrArg (fun x => x.1.map Reply.status) heq
  · rw [answer_refused ha hp]
    intro heq
    cases heq

theorem answer_modification {b : Bytes} {mt : Metrics} {s : Settings} (hr : IsRequest b)
    (hp : passphraseOf b = secret) (ht : typeOf b = 1) :
    answer secret b mt s
      = match modification s (methodOf b) (valueSent b) with
        | some s' => ([reply successStatus 0], s')
        | none => ([reply unsuccesfulStatus 0], s) := by
  cases hs : modification s (methodOf b) (valueSent b) with
  | none =>
      refine answer_other hr.1 hp (by rw [ht]; decide) fun _ => hs
  | some s' => exact answer_modified hr hp ht hs

/-- Two modifications that do not do the same are not answered alike. -/
theorem answer_modification_ne {b b' : Bytes} {mt : Metrics} {s : Settings}
    (hr : IsRequest b) (hp : passphraseOf b = secret) (ht : typeOf b = 1)
    (hr' : IsRequest b') (hp' : passphraseOf b' = secret) (ht' : typeOf b' = 1)
    (hne : modification s (methodOf b) (valueSent b)
      ≠ modification s (methodOf b') (valueSent b')) :
    answer secret b mt s ≠ answer secret b' mt s := by
  rw [answer_modification hr hp ht, answer_modification hr' hp' ht']
  intro heq
  cases hs : modification s (methodOf b) (valueSent b) with
  | none =>
      cases hs' : modification s (methodOf b') (valueSent b') with
      | none => exact hne (hs.trans hs'.symm)
      | some u =>
          rw [hs, hs'] at heq
          cases heq
  | some u =>
      cases hs' : modification s (methodOf b') (valueSent b') with
      | none =>
          rw [hs, hs'] at heq
          cases heq
      | some u' =>
          rw [hs, hs'] at heq
          cases heq
          exact hne (hs.trans hs'.symm)

theorem answer_authorised (mt : Metrics) (s : Settings) :
    answer secret authorisedRequest mt s = ([reply successStatus s.buffersSize], s) :=
  answer_retrieval rfl rfl rfl (by decide)

theorem not_selfContained_nothing (s : Settings) {received : Option Bytes}
    (h : received = none ∨ received = some []) : ¬ SelfContained s received := by
  have hrecv : ∀ b : Bytes, recvfrom b received = b := by
    intro b
    rcases h with rfl | rfl <;> rfl
  intro hs
  have hr : authorisedRequest.length = percyRequestSize := rfl
  have hset : (served s []).2
      = (served s [{ datagram := some authorisedRequest, metrics := initMetrics }]).2 := by
    have hread := (managementRead_request hr initMetrics initManagement s).2
    rw [show initManagement.configured = secret from rfl, answer_authorised] at hread
    exact hread.symm
  have heq := hs.alike [] _ initMetrics hset
  rw [answeredAfter_eq, answeredAfter_eq, parsedAfter, parsedAfter, hrecv, hrecv] at heq
  have hbuf : (served s [{ datagram := some authorisedRequest, metrics := initMetrics }]).1.buffer
      = authorisedRequest ++ List.replicate 116 0 := (managementRead_state _ _ _ _).1
  have h0 : ¬ Acceptable (List.take authorisedRequest.length (served s []).1.buffer) :=
    fun ha => absurd (show (0 : UInt8) = 1 from ha.1) (by decide)
  rw [hbuf, ← hr, List.take_left, answer_authorised, answer_unparsed h0] at heq
  cases congrArg (fun x => x.1.map Reply.status) heq

theorem not_decisive {d : Bytes} (h : ¬ Decisive d) :
    d.length ≤ 11 ∧ (1 ≤ d.length → verOf d = 1) ∧
    (8 ≤ d.length → typeOf d ≤ 2 ∧ (typeOf d = 2 → passphraseOf d ≠ secret)) ∧
    (9 ≤ d.length → passphraseOf d = secret ∧ typeOf d = 1 ∧ methodOf d ≤ 2) ∧
    (d.length = 11 → ¬ OutOfRange (methodOf d) (d.getD 10 0)) := by
  simp only [Decisive, not_or, not_and, Classical.not_not, UInt8.not_lt] at h
  obtain ⟨h12, h1, h8, h9, h11⟩ := h
  exact ⟨by omega, h1, fun h => h8 h, fun h => h9 h, h11⟩

theorem not_selfContained_of_seven {d : Bytes} (s : Settings) (h1 : 1 ≤ d.length)
    (h7 : d.length ≤ 7) (hv : verOf d = 1) : ¬ SelfContained s (some d) := by
  let t : Bytes := [0, 0, 0, 0, 0, 0, 0, 3, 0, 0, 0, 0]
  let t' : Bytes := List.replicate 12 0
  have h12 : d.length ≤ percyRequestSize := Nat.le_trans h7 (by decide)
  refine not_selfContained (t := t) (d := d) (s := s) h1 h12 rfl (rfl : t'.length = _) ?_
  have ht : typeOf (d ++ t.drop d.length) = 3 := getD_spliced d t 7 h7
  have ht' : typeOf (d ++ t'.drop d.length) = 0 := getD_spliced d t' 7 h7
  have hm' : methodOf (d ++ t'.drop d.length) = 0 := getD_spliced d t' 8 (by omega)
  refine answer_ne_unparsed ⟨(verOf_append h1).trans hv, ?_, ?_⟩ (.inr ht') ?_
  · rw [ht']
    decide
  · rw [hm']
    decide
  · intro ha
    have hle := ha.2.1
    rw [ht] at hle
    exact absurd hle (by decide)

theorem not_selfContained_of_eight {d : Bytes} (s : Settings) (h8 : d.length = 8)
    (hv : verOf d = 1) (ht : typeOf d ≤ 2) (h2 : typeOf d = 2 → passphraseOf d ≠ secret) :
    ¬ SelfContained s (some d) := by
  let t : Bytes := [0, 0, 0, 0, 0, 0, 0, 0, 8, 0, 0, 0]
  let t' : Bytes := List.replicate 12 0
  have h12 : d.length ≤ percyRequestSize := by rw [h8]; decide
  refine not_selfContained (t := t) (d := d) (s := s) (by omega) h12 rfl
    (rfl : t'.length = _) ?_
  have hty : ∀ r : Bytes, typeOf (d ++ r) = typeOf d := fun r => typeOf_append (by omega)
  have hpa : ∀ r : Bytes, passphraseOf (d ++ r) = passphraseOf d :=
    fun r => passphraseOf_append (by omega)
  have hm : methodOf (d ++ t.drop d.length) = 8 := getD_spliced d t 8 (by omega)
  have hm' : methodOf (d ++ t'.drop d.length) = 0 := getD_spliced d t' 8 (by omega)
  have hun : ¬ Acceptable (d ++ t.drop d.length) := by
    intro ha
    have hle := ha.2.2
    rw [hm] at hle
    exact absurd hle (by decide)
  have hver : verOf (d ++ t'.drop d.length) = 1 := (verOf_append (by omega)).trans hv
  have hacc : Acceptable (d ++ t'.drop d.length) := by
    refine ⟨hver, ?_, ?_⟩
    · rw [hty]
      exact ht
    · rw [hm']
      decide
  by_cases hgood : passphraseOf d ≠ secret ∨ typeOf d = 0
  · refine answer_ne_unparsed hacc ?_ hun
    rw [hpa, hty]
    exact hgood
  · -- a modification of method X'00' with value 0 is granted
    have hp : passphraseOf d = secret := Classical.not_not.mp fun hne => hgood (.inl hne)
    have h1 : typeOf d = 1 := by
      have h0 : typeOf d ≠ 0 := fun h => hgood (.inr h)
      have hn2 : typeOf d ≠ 2 := fun h => h2 h hp
      have hle := UInt8.le_iff_toNat_le.mp ht
      rw [ne_eq, ← UInt8.toNat_inj] at h0 hn2
      rw [← UInt8.toNat_inj]
      simp only [UInt8.reduceToNat] at hle h0 hn2 ⊢
      omega
    have hlen : (d ++ t'.drop d.length).length = percyRequestSize := length_spliced rfl h12
    have hval : valueSent (d ++ t'.drop d.length) = 0 := by
      rw [h8, valueSent, List.drop_append, h8, List.drop_of_length_le (by omega)]
      rfl
    rw [answer_unparsed hun, answer_modification ⟨hlen, hver⟩ ((hpa _).trans hp)
      ((hty _).trans h1), hm', hval]
    intro heq
    cases congrArg (fun x => x.1.map Reply.status) heq

theorem not_selfContained_of_modification {d : Bytes} (s : Settings) (h9 : 9 ≤ d.length)
    (h11 : d.length ≤ 11) (hv : verOf d = 1) (hp : passphraseOf d = secret)
    (ht : typeOf d = 1) {t t' : Bytes} (htl : t.length = percyRequestSize)
    (htl' : t'.length = percyRequestSize)
    (hne : modification s (methodOf d) (valueSent (d ++ t.drop d.length))
      ≠ modification s (methodOf d) (valueSent (d ++ t'.drop d.length))) :
    ¬ SelfContained s (some d) := by
  have h12 : d.length ≤ percyRequestSize := Nat.le_trans h11 (by decide)
  refine not_selfContained (by omega) h12 htl htl' ?_
  have hver : ∀ r : Bytes, verOf (d ++ r) = 1 := fun r => (verOf_append (by omega)).trans hv
  have hty : ∀ r : Bytes, typeOf (d ++ r) = 1 := fun r => (typeOf_append (by omega)).trans ht
  have hpa : ∀ r : Bytes, passphraseOf (d ++ r) = secret :=
    fun r => (passphraseOf_append (by omega)).trans hp
  have hme : ∀ r : Bytes, methodOf (d ++ r) = methodOf d := fun r => methodOf_append h9
  refine answer_modification_ne ⟨length_spliced htl h12, hver _⟩ (hpa _) (hty _)
    ⟨length_spliced htl' h12, hver _⟩ (hpa _) (hty _) ?_
  rw [hme, hme]
  exact hne

theorem valueSent_spliced {d t : Bytes} (h : d.length ≤ 10) :
    valueSent (d ++ t.drop d.length) = valueSent t := by
  rw [valueSent, List.drop_append, List.drop_of_length_le h, List.drop_drop, List.nil_append,
    Nat.add_sub_cancel' h, valueSent]

theorem le_two {x : UInt8} (h : x ≤ 2) : x = 0 ∨ x = 1 ∨ x = 2 := by
  have hle := UInt8.le_iff_toNat_le.mp h
  simp only [← UInt8.toNat_inj]
  simp only [UInt8.reduceToNat] at hle ⊢
  omega

/-- In the range of every method there are a value and its successor that do
not do the same. -/
theorem modification_depends (s : Settings) {method hi : UInt8} (hm : method ≤ 2)
    (h : ¬ OutOfRange method hi) : ∃ lo lo' : UInt8,
      modification s method (hi.toNat * 256 + lo.toNat)
        ≠ modification s method (hi.toNat * 256 + lo'.toNat) := by
  simp only [OutOfRange, not_or, not_and, Classical.not_not, UInt8.not_lt] at h
  obtain ⟨h0, h1, h2⟩ := h
  rcases le_two hm with rfl | rfl | rfl
  · refine ⟨0, 2, ?_⟩
    simp [h0 rfl, modification]
  · obtain ⟨hlo, hhi⟩ := h1 rfl
    have h4 := UInt8.le_iff_toNat_le.mp hlo
    have h32 := UInt8.le_iff_toNat_le.mp hhi
    simp only [UInt8.reduceToNat] at h4 h32
    refine ⟨0, 1, ?_⟩
    show (if _ then some _ else none) ≠ (if _ then some _ else none)
    simp only [UInt8.reduceToNat]
    rw [if_pos (by omega)]
    split
    · intro heq
      simp only [Option.some.injEq, Settings.mk.injEq, ← UInt64.toNat_inj] at heq
      have hv := heq.2.1
      simp at hv
      omega
    · intro heq
      cases heq
  · refine ⟨0, 4, ?_⟩
    simp [h2 rfl, modification]

/-- A short datagram that is not decisive: its answer is in the bytes an
earlier one left. -/
theorem decisive_of_selfContained {d : Bytes} {s : Settings}
    (h : SelfContained s (some d)) : Decisive d := by
  by_cases hd : Decisive d
  · exact hd
  obtain ⟨hlen, h1, h8, h9, h11⟩ := not_decisive hd
  have hpos : 1 ≤ d.length := by
    cases d with
    | nil => exact absurd h (not_selfContained_nothing s (.inr rfl))
    | cons b d => simp
  have hv := h1 hpos
  exfalso
  by_cases h7 : d.length ≤ 7
  · exact not_selfContained_of_seven s hpos h7 hv h
  obtain ⟨ht, h2⟩ := h8 (by omega)
  by_cases heq8 : d.length = 8
  · exact not_selfContained_of_eight s heq8 hv ht h2 h
  obtain ⟨hp, ht1, hm⟩ := h9 (by omega)
  by_cases heq11 : d.length = 11
  · obtain ⟨lo, lo', hne⟩ := modification_depends s hm (h11 heq11)
    refine @not_selfContained_of_modification _ s (by omega) (by omega) hv hp ht1
      (List.replicate 11 0 ++ [lo]) (List.replicate 11 0 ++ [lo']) rfl rfl ?_ h
    rw [heq11]
    show modification s (methodOf d) (valueSent (d ++ [lo]))
      ≠ modification s (methodOf d) (valueSent (d ++ [lo']))
    rw [valueSent_append heq11, valueSent_append heq11]
    exact hne
  · -- the whole value is in the leftovers: one out of every range, one in range
    obtain ⟨v, hvl, hne⟩ : ∃ v : Bytes, v.length = 2 ∧
        modification s (methodOf d) 65535 ≠ modification s (methodOf d) (bigEndian v) := by
      rcases le_two hm with hm0 | hm1 | hm2
      · exact ⟨[0, 0], rfl, by simp [hm0, modification, bigEndian]⟩
      · exact ⟨[4, 0], rfl, by simp [hm1, modification, bigEndian]⟩
      · exact ⟨[0, 4], rfl, by simp [hm2, modification, bigEndian]⟩
    refine @not_selfContained_of_modification d s (by omega) (by omega) hv hp ht1
      (List.replicate 10 0 ++ [255, 255]) (List.replicate 10 0 ++ v) rfl ?_ ?_ h
    · rw [List.length_append, hvl]
      rfl
    · rw [valueSent_spliced (by omega), valueSent_spliced (by omega)]
      have hval : valueSent (List.replicate 10 0 ++ v) = bigEndian v := by
        rw [valueSent, List.drop_left' (by simp), List.take_of_length_le (by omega)]
      rw [hval]
      exact hne

/-- Whether a datagram is granted what it asks by itself, whatever was
received before, is a matter of its length and of its first fields: it is so
exactly for the decisive ones. -/
theorem request_selfContained_iff (s : Settings) (received : Option Bytes) :
    SelfContained s received ↔ ∃ d : Bytes, received = some d ∧ Decisive d := by
  constructor
  · intro h
    cases received with
    | none => exact absurd h (not_selfContained_nothing s (.inl rfl))
    | some d => exact ⟨d, rfl, decisive_of_selfContained h⟩
  · rintro ⟨d, rfl, hd⟩
    exact selfContained_of_decisive s hd

/-- After a retrieval with the right passphrase, an empty datagram is answered
with the value it asked for. -/
theorem empty_datagram_granted :
    ¬ Carries (some []) ∧
    (answeredAfter ⟨true, 8192, 8⟩
        [{ datagram := some authorisedRequest, metrics := initMetrics }] initMetrics
        (some [])).1 = [reply successStatus 8192] ∧
    ¬ SelfContained ⟨true, 8192, 8⟩ (some []) := by
  refine ⟨?_, ?_, not_selfContained_nothing _ (.inr rfl)⟩
  · rintro ⟨d, hd, hp⟩
    cases hd
    cases hp
  · decide +kernel

end HttpdProxy
