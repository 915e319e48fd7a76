import HttpdProxy.Client.Httpdctl
import HttpdProxy.Proofs.Management
import HttpdProxy.Proofs.RequestLines

/-!
# The setting applied and the number typed

A number typed at the value prompt of `httpdctl` is cut twice, to the width of
an `int` and to the sixteen bits of the request, and the range is checked only
behind the cuts, by the server. So a number out of range can become one in
range, and be applied.
-/

namespace HttpdProxy

/-- A line of digits at a prompt, and whatever has been typed behind it. -/
structure DigitLine where
  digits : Bytes
  more : Bytes
  all_digits : ∀ d ∈ digits, isDigit d = true
  fits : digits.length ≤ maxBuff

namespace DigitLine

def bytes (l : DigitLine) : Bytes := l.digits ++ chr '\n' :: l.more

/-- The number that the line denotes. -/
def number (l : DigitLine) : Nat := digitsValue l.digits

end DigitLine

/-! ## The number that is sent -/

theorem int32_step (aux : Int32) (d : UInt8) :
    (aux * 10 + (d - chr '0').toUInt32.toInt32).toUInt32
      = aux.toUInt32 * 10 + (d - chr '0').toUInt32 := by
  rw [Int32.toUInt32_add, Int32.toUInt32_mul]
  rfl

theorem digit_not_lf {d : UInt8} (h : isDigit d = true) : d ≠ chr '\n' := by
  rintro rfl
  exact absurd h (by decide)

/-- The digits of a line, behind `i` that have been taken, accumulate modulo
the width of an `int`. -/
theorem accumulate_digits {rest : Bytes} (hrest : rest = [] ∨ rest.head? = some (chr '\n')) :
    ∀ (ds : Bytes) (i : Nat) (aux : Int32), (∀ d ∈ ds, isDigit d = true) → (i = 0 → aux = 0) →
    ∃ x, accumulate i aux (ds ++ rest) = some x ∧
      x.toUInt32 = ds.foldl (fun v d => v * 10 + (d - chr '0').toUInt32) aux.toUInt32 := by
  intro ds
  induction ds with
  | nil =>
      intro i aux _ _
      refine ⟨aux, ?_, rfl⟩
      cases rest with
      | nil => rfl
      | cons c more =>
          have hc : c = chr '\n' := by simpa using hrest
          rw [List.nil_append, accumulate, if_pos hc]
  | cons d ds ih =>
      intro i aux hdig hzero
      have hd : isDigit d = true := hdig d (List.mem_cons_self ..)
      let digit := (d - chr '0').toUInt32.toInt32
      obtain ⟨x, hx, hvalue⟩ := ih (i + 1) (if i = 0 then digit else aux * 10 + digit)
        (fun e he => hdig e (List.mem_cons_of_mem d he)) (by omega)
      have hsum : (if i = 0 then digit else aux * 10 + digit).toUInt32
          = aux.toUInt32 * 10 + (d - chr '0').toUInt32 := by
        by_cases hi : i = 0
        · rw [if_pos hi, hzero hi, ← int32_step, Int32.zero_mul, Int32.zero_add]
        · rw [if_neg hi, int32_step]
      refine ⟨x, ?_, ?_⟩
      · rw [List.cons_append, accumulate, if_neg (digit_not_lf hd), if_pos hd]
        exact hx
      · rw [hvalue, hsum, List.foldl_cons]

theorem foldl_uint32 (ds : Bytes) (n : Nat) :
    ds.foldl (fun v d => v * 10 + (d - chr '0').toUInt32) n.toUInt32
      = (ds.foldl (fun v d => v * 10 + (d - chr '0').toNat) n).toUInt32 := by
  induction ds generalizing n with
  | nil => rfl
  | cons d ds ih =>
      have hstep : n.toUInt32 * 10 + (d - chr '0').toUInt32
          = (n * 10 + (d - chr '0').toNat).toUInt32 := by
        apply UInt32.toNat.inj
        simp [UInt32.toNat_add, UInt32.toNat_mul]
      rw [List.foldl_cons, List.foldl_cons, hstep, ih]

/-- A line of digits is never refused, and is read as its number modulo the
width of an `int`. -/
theorem accumulate_line (l : DigitLine) :
    accumulate 0 0 (readTyped l.bytes) = some l.number.toUInt32.toInt32 := by
  have htake : readTyped l.bytes
      = l.digits ++ (chr '\n' :: l.more).take (maxBuff - l.digits.length) := by
    rw [readTyped, DigitLine.bytes, List.take_append, List.take_of_length_le l.fits]
  have hrest : (chr '\n' :: l.more).take (maxBuff - l.digits.length) = [] ∨
      ((chr '\n' :: l.more).take (maxBuff - l.digits.length)).head? = some (chr '\n') := by
    cases maxBuff - l.digits.length with
    | zero => exact .inl rfl
    | succ k => exact .inr rfl
  obtain ⟨x, hx, hvalue⟩ := accumulate_digits hrest l.digits 0 0 l.all_digits fun _ => rfl
  have hnumber : x.toUInt32 = l.number.toUInt32 := hvalue.trans (foldl_uint32 l.digits 0)
  rw [htake, hx, ← hnumber, Int32.toInt32_toUInt32]

theorem toUint16_number (n : Nat) : toUint16 n.toUInt32.toInt32 = n.toUInt16 := by
  apply UInt16.toNat.inj
  simp [toUint16]

/-! ## The request -/

/-- The request that sets a value: the passphrase, and the modification
`method`. -/
def settingRequest (method : UInt8) (value : UInt16) : Bytes :=
  1 :: ascii "123456" ++ [1, method, 0, (value >>> 8).toUInt8, value.toUInt8]

theorem buildRequest_setting {buffer : Bytes} (h : requestSize ≤ buffer.length) (value : UInt16) :
    (buildRequest buffer 9 value).take requestSize = settingRequest 0 value ∧
    (buildRequest buffer 10 value).take requestSize = settingRequest 1 value ∧
    (buildRequest buffer 11 value).take requestSize = settingRequest 2 value := by
  have hlen : (buffer.take requestSize).length = percyRequestSize := by
    rw [List.length_take, Nat.min_eq_left h]
    rfl
  obtain ⟨b0, b1, b2, b3, b4, b5, b6, b7, b8, b9, b10, b11, hhead⟩ := exists_twelve hlen
  rw [← List.take_append_drop requestSize buffer, hhead]
  refine ⟨rfl, rfl, ?_⟩
  simp [buildRequest]
  rfl

/-- The options that modify a setting. -/
def IsModification (option : Nat) : Prop := 9 ≤ option ∧ option ≤ 11

instance (option : Nat) : Decidable (IsModification option) :=
  inferInstanceAs (Decidable (_ ∧ _))

/-- The method of a modifying option. -/
def settingMethod (option : Nat) : UInt8 := (option - 9).toUInt8

theorem IsModification.cases {option : Nat} (h : IsModification option) :
    option = 9 ∨ option = 10 ∨ option = 11 := by
  simp only [IsModification] at h
  omega

/-- A modifying option and a number are both taken. -/
theorem processInput_setting {choice : DigitLine} (hchoice : IsModification choice.number)
    (l : DigitLine) :
    processInput (readTyped choice.bytes) l.bytes
      = some (choice.number.toUInt32.toInt32, l.number.toUInt32.toInt32) := by
  have hmodifies : ¬ (choice.number.toUInt32.toInt32 ≥ 1 ∧ choice.number.toUInt32.toInt32 ≤ 8) ∧
      choice.number.toUInt32.toInt32 ≥ 9 ∧ choice.number.toUInt32.toInt32 ≤ 11 := by
    rcases hchoice.cases with h | h | h
    all_goals
      rw [h]
      decide
  have hvalue : getValue l.bytes = some l.number.toUInt32.toInt32 := accumulate_line l
  rw [processInput, accumulate_line choice]
  simp only
  rw [if_neg hmodifies.1, if_pos hmodifies.2, hvalue, Option.map_some]

/-- What goes out for the number of an option and a value. -/
theorem sendRequest_setting {buff : Bytes} (hbuff : buff.length = maxBuff) {choice : DigitLine}
    (hchoice : IsModification choice.number) (l : DigitLine) :
    sendRequest buff choice.bytes l.bytes
      = some (settingRequest (settingMethod choice.number) l.number.toUInt16) := by
  have hlen : requestSize ≤ (putAt buff 0 (readTyped choice.bytes)).length := by
    rw [putAt_length, hbuff]
    decide
  obtain ⟨h9, h10, h11⟩ := buildRequest_setting hlen l.number.toUInt16
  rw [sendRequest, processInput_setting hchoice l, Option.map_some]
  simp only [toUint16_number]
  rcases hchoice.cases with h | h | h
  · rw [h]
    exact congrArg some h9
  · rw [h]
    exact congrArg some h10
  · rw [h]
    exact congrArg some h11

/-! ## The setting that is applied -/

/-- The ranges that the prompts of `httpdctl` and section 4.3 of the protocol
give. -/
def InDocumentedRange (option n : Nat) : Prop :=
  option = 9 ∧ n ≤ 1 ∨ option = 10 ∧ 1024 ≤ n ∧ n ≤ 8192 ∨ option = 11 ∧ 4 ≤ n ∧ n ≤ 12

instance (option n : Nat) : Decidable (InDocumentedRange option n) :=
  inferInstanceAs (Decidable (_ ∨ _ ∨ _))

theorem modification_isSome_iff {option : Nat} (h : IsModification option) (s : Settings)
    (n : Nat) :
    (modification s (settingMethod option) n).isSome = true ↔ InDocumentedRange option n := by
  rcases h.cases with rfl | rfl | rfl
  · have hmethod : (settingMethod 9).toNat = 0 := rfl
    rw [modification, hmethod, InDocumentedRange]
    simp
  · have hmethod : (settingMethod 10).toNat = 1 := rfl
    rw [modification, hmethod, InDocumentedRange]
    simp
  · have hmethod : (settingMethod 11).toNat = 2 := rfl
    rw [modification, hmethod, InDocumentedRange]
    simp

theorem settingRequest_isRequest (method : UInt8) (value : UInt16) :
    IsRequest (settingRequest method value) := ⟨rfl, rfl⟩

theorem valueSent_setting (method : UInt8) (value : UInt16) :
    valueSent (settingRequest method value) = value.toNat := by
  have hv := value.toNat_lt
  have hbytes : valueSent (settingRequest method value)
      = (value >>> 8).toUInt8.toNat * 256 + value.toUInt8.toNat := by
    simp [valueSent, settingRequest, bigEndian, ascii]
  rw [hbytes]
  simp [Nat.shiftRight_eq_div_pow]
  omega

/-- The server's answer to the request that sets a value. -/
theorem managementRead_setting {m : Management} (hpass : m.configured = ascii "123456")
    (mt : Metrics) (s : Settings) (method : UInt8) (value : UInt16) :
    match modification s method value.toNat with
    | some s' =>
        RepliedStatus (wireOf (some (settingRequest method value)) mt m s) 0 ∧
        (managementRead (some (settingRequest method value)) mt m s).2.2 = s'
    | none =>
        RepliedStatus (wireOf (some (settingRequest method value)) mt m s) 2 ∧
        (managementRead (some (settingRequest method value)) mt m s).2.2 = s := by
  have hr := settingRequest_isRequest method value
  have hp : passphraseOf (settingRequest method value) = m.configured := hpass.symm
  have ht : typeOf (settingRequest method value) = 1 := rfl
  have hm : methodOf (settingRequest method value) = method := rfl
  have hv := valueSent_setting method value
  obtain ⟨hreplies, hsettings⟩ := managementRead_request hr.1 mt m s
  cases hmod : modification s method value.toNat with
  | some s' =>
      have hans := @answer_modified m.configured _ mt s s' hr hp ht (by rw [hm, hv, hmod])
      rw [hans] at hreplies hsettings
      refine ⟨⟨_, ?_, buildReply_status successStatus 0⟩, hsettings⟩
      rw [wireOf, hreplies, List.map_singleton]
  | none =>
      have hans := @answer_rejected m.configured _ mt s hr hp (by simp [ht])
        (by rw [hm, hv, hmod]; simp)
      rw [hans] at hreplies hsettings
      refine ⟨⟨_, ?_, buildReply_status unsuccesfulStatus 0⟩, hsettings⟩
      rw [wireOf, hreplies, List.map_singleton]

/-- What became of the line typed for an option is what the operator asked
for: the number in range is applied, and any other changes nothing. -/
structure AppliesTyped (option : Nat) (l : DigitLine) (sent : Option Bytes) (mt : Metrics)
    (m : Management) (s : Settings) : Prop where
  applied : ∀ s', modification s (settingMethod option) l.number = some s' →
    ∃ d, sent = some d ∧ (managementRead (some d) mt m s).2.2 = s'
  unchanged : modification s (settingMethod option) l.number = none →
    sent = none ∨ ∃ d, sent = some d ∧ RepliedStatus (wireOf (some d) mt m s) 2 ∧
      (managementRead (some d) mt m s).2.2 = s

/-- The last sixteen bits of the number decide alone, so the right thing
happens exactly to the numbers in range and to those whose last sixteen bits
are out of it. -/
theorem setting_applied_iff {buff : Bytes} (hbuff : buff.length = maxBuff) {choice : DigitLine}
    (hchoice : IsModification choice.number) (l : DigitLine) {m : Management}
    (hpass : m.configured = ascii "123456") (mt : Metrics) (s : Settings) :
    AppliesTyped choice.number l (sendRequest buff choice.bytes l.bytes) mt m s ↔
      InDocumentedRange choice.number l.number ∨
        ¬ InDocumentedRange choice.number (l.number % 2 ^ 16) := by
  have hsent := sendRequest_setting hbuff hchoice l
  have hread := managementRead_setting hpass mt s (settingMethod choice.number) l.number.toUInt16
  have hcut : l.number.toUInt16.toNat = l.number % 2 ^ 16 := UInt16.toNat_ofNat'
  rw [hcut] at hread
  rw [hsent, ← modification_isSome_iff hchoice s, ← modification_isSome_iff hchoice s]
  constructor
  · intro h
    cases htyped : modification s (settingMethod choice.number) l.number with
    | some s' => exact .inl rfl
    | none =>
        right
        intro hsome
        obtain ⟨s', hs'⟩ := Option.isSome_iff_exists.mp hsome
        rw [hs'] at hread
        rcases h.unchanged htyped with hnone | ⟨d, hd, ⟨r, hr, _, hstatus⟩, _⟩
        · cases hnone
        · cases hd
          obtain ⟨r', hr', _, hstatus'⟩ := hread.1
          rw [hr', List.cons.injEq] at hr
          rw [← hr.1, hstatus'] at hstatus
          exact absurd hstatus (by decide)
  · intro h
    refine ⟨?_, ?_⟩
    · intro s' hs'
      have hin := (modification_isSome_iff hchoice s l.number).mp (by rw [hs']; rfl)
      have hsmall : l.number % 2 ^ 16 = l.number := by
        simp only [InDocumentedRange] at hin
        omega
      rw [hsmall, hs'] at hread
      exact ⟨_, rfl, hread.2⟩
    · intro htyped
      have hout : modification s (settingMethod choice.number) (l.number % 2 ^ 16) = none := by
        rcases h with hin | hout
        · rw [htyped] at hin
          cases hin
        · simpa using hout
      rw [hout] at hread
      exact .inr ⟨_, rfl, hread⟩

/-- A line with these digits and nothing behind it. -/
def digitLine (digits : Bytes) (all_digits : ∀ d ∈ digits, isDigit d = true)
    (fits : digits.length ≤ maxBuff) : DigitLine where
  digits := digits
  more := []
  all_digits := all_digits
  fits := fits

/-- Option 10. -/
def optionTen : DigitLine :=
  digitLine (ascii "10") (List.all_eq_true.mp (by decide)) (by decide)

def size4096 : DigitLine :=
  digitLine (ascii "4096") (List.all_eq_true.mp (by decide)) (by decide)

def size66560 : DigitLine :=
  digitLine (ascii "66560") (List.all_eq_true.mp (by decide)) (by decide)

/-- 4096 is a size in range. -/
theorem size4096_applied :
    AppliesTyped optionTen.number size4096
      (sendRequest (List.replicate maxBuff 0) optionTen.bytes size4096.bytes) initMetrics
      initManagement ⟨true, 8192, 8⟩ :=
  (setting_applied_iff (List.length_replicate ..) (by decide) size4096 rfl initMetrics
    ⟨true, 8192, 8⟩).mpr (.inl (by decide))

/-- 66560 is not, but its last sixteen bits are 1024. -/
theorem size66560_applied_as_1024 :
    ¬ AppliesTyped optionTen.number size66560
      (sendRequest (List.replicate maxBuff 0) optionTen.bytes size66560.bytes) initMetrics
      initManagement ⟨true, 8192, 8⟩ := by
  have hsent : sendRequest (List.replicate maxBuff 0) optionTen.bytes size66560.bytes
      = some (settingRequest 1 1024) :=
    sendRequest_setting (List.length_replicate ..) (by decide) size66560
  have hset : (managementRead (some (settingRequest 1 1024)) initMetrics initManagement
      ⟨true, 8192, 8⟩).2.2.buffersSize = 1024 := by
    decide +kernel
  intro h
  rw [hsent] at h
  rcases h.unchanged (by decide) with hnone | ⟨d, hd, _, hsame⟩
  · cases hnone
  · rw [Option.some.injEq] at hd
    rw [hd, hsame] at hset
    exact absurd hset (by decide)

end HttpdProxy
