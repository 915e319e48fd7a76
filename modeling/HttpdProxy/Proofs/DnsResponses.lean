import HttpdProxy.Lib.Feeding
import HttpdProxy.Utils.Filled
import HttpdProxy.Proofs.Addresses
import HttpdProxy.Protocol.DnsMessages

/-!
# What the DNS parser makes of a message

Every field of a message is read by counting its bytes with `i`, so every
state of the parser but the label lengths is a counted block. The blocks of a
record all work on the answer at `answer_index`; put together they read a
record up to the byte that moves the index.
-/

namespace HttpdProxy

/-! ## The blocks of the header and of the question -/

/-- The parser has stopped. -/
def DohResponseParser.Stopped (p : DohResponseParser) : Prop :=
  p.state = .dohResponseDone ∨ p.state = .dohNoAnswers ∨ p.state = .responseMemAllocError ∨
    p.state = .dohResponseError

theorem dohResponseParserFeed_stopped {alloc : Bool} {p : DohResponseParser} (h : p.Stopped)
    (c : UInt8) : dohResponseParserFeed alloc p c = p := by
  obtain h | h | h | h := h <;> simp [dohResponseParserFeed, h]

/-- What two bytes make of a number. -/
def word (i : Nat) (v : UInt16) (c : UInt8) : UInt16 := if i = 0 then hi16 c else v + c.toUInt16

/-- What four bytes make of a number. -/
def dword (i : Nat) (v : UInt32) (c : UInt8) : UInt32 :=
  match i with
  | 0 => c.toUInt32 <<< 24
  | 1 => v + c.toUInt32 <<< 16
  | 2 => v + c.toUInt32 <<< 8
  | _ => v + c.toUInt32

theorem gathered_word (v x : UInt16) : Lib.gathered word 0 v (be16 x) = x := by
  exact be16_value x

theorem gathered_dword (v x : UInt32) : Lib.gathered dword 0 v (be32 x) = x := by
  exact be32_value x

/-- Before the first answer: the parser has not stopped and has not come to an
answer. -/
def Before (p : DohResponseParser) : Prop :=
  ¬ p.Stopped ∧ p.state ≠ .responseAnswerNameLabelLength

section
variable (alloc : Bool)

/-- The parser in a field of the header. -/
def inHeader (s : DohResponseState) (i : Nat) (h : DnsHeader) (answers : Option (List Answer)) :
    DohResponseParser where
  response := { DohResponse.zero with header := h, answers := answers }
  state := s
  i := i
  n := 2

theorem inHeader_before {s : DohResponseState} {i : Nat} {h : DnsHeader}
    {answers : Option (List Answer)}
    (hs : s ∈ [DohResponseState.responseHeaderId, .responseHeaderFlags, .responseHeaderQdcount,
      .responseHeaderAncount, .responseHeaderNscount, .responseHeaderArcount]) :
    Before (inHeader s i h answers) := by
  simp only [List.mem_cons, List.not_mem_nil, or_false] at hs
  rcases hs with rfl | rfl | rfl | rfl | rfl | rfl <;>
    simp [Before, DohResponseParser.Stopped, inHeader]

theorem counted_id (answers : Option (List Answer)) (h : DnsHeader) :
    Lib.Counted (dohResponseParserFeed alloc) Before 2
      (fun i x => inHeader .responseHeaderId i { h with id := x } answers) word
      (fun x => inHeader .responseHeaderFlags 0 { h with id := x } answers) :=
  .pair (fun _ _ => rfl) (fun _ _ => rfl) fun _ _ _ => inHeader_before (by simp)

/-- What the two bytes of the flags make of them. -/
def flagsByte (i : Nat) (f : DnsFlags) (c : UInt8) : DnsFlags :=
  if i = 0 then
    { f with qr := (DnsFlags.ofBytes c 0).qr, opcode := (DnsFlags.ofBytes c 0).opcode,
             aa := (DnsFlags.ofBytes c 0).aa, tc := (DnsFlags.ofBytes c 0).tc,
             rd := (DnsFlags.ofBytes c 0).rd }
  else
    { f with ra := (DnsFlags.ofBytes 0 c).ra, z := (DnsFlags.ofBytes 0 c).z,
             rcode := (DnsFlags.ofBytes 0 c).rcode }

theorem counted_flags (answers : Option (List Answer)) (h : DnsHeader) :
    Lib.Counted (dohResponseParserFeed alloc) Before 2
      (fun i f => inHeader .responseHeaderFlags i { h with flags := f } answers) flagsByte
      (fun f => inHeader .responseHeaderQdcount 0 { h with flags := f } answers) :=
  .pair (fun _ _ => rfl) (fun _ _ => rfl) fun _ _ _ => inHeader_before (by simp)

theorem counted_qdcount (answers : Option (List Answer)) (h : DnsHeader) :
    Lib.Counted (dohResponseParserFeed alloc) Before 2
      (fun i x => inHeader .responseHeaderQdcount i { h with qdcount := x } answers) word
      (fun x => inHeader .responseHeaderAncount 0 { h with qdcount := x } answers) :=
  .pair (fun _ _ => rfl) (fun _ _ => rfl) fun _ _ _ => inHeader_before (by simp)

/-- Behind ANCOUNT: without answers, without memory for them, or on. -/
def afterAncount (alloc : Bool) (h : DnsHeader) : DohResponseParser :=
  if h.ancount = 0 then inHeader .dohNoAnswers 0 h none
  else if alloc then
    inHeader .responseHeaderNscount 0 h (some (List.replicate h.ancount.toNat .zero))
  else inHeader .responseMemAllocError 0 h none

theorem counted_ancount (h : DnsHeader) :
    Lib.Counted (dohResponseParserFeed alloc) Before 2
      (fun i x => inHeader .responseHeaderAncount i { h with ancount := x } none) word
      (fun x => afterAncount alloc { h with ancount := x }) :=
  .pair (fun _ _ => rfl) (fun _ _ => rfl) fun _ _ _ => inHeader_before (by simp)

theorem counted_nscount (answers : Option (List Answer)) (h : DnsHeader) :
    Lib.Counted (dohResponseParserFeed alloc) Before 2
      (fun i x => inHeader .responseHeaderNscount i { h with nscount := x } answers) word
      (fun x => inHeader .responseHeaderArcount 0 { h with nscount := x } answers) :=
  .pair (fun _ _ => rfl) (fun _ _ => rfl) fun _ _ _ => inHeader_before (by simp)

theorem counted_arcount (answers : Option (List Answer)) (h : DnsHeader) :
    Lib.Counted (dohResponseParserFeed alloc) Before 2
      (fun i x => inHeader .responseHeaderArcount i { h with arcount := x } answers) word
      (fun x => inHeader .responseQuestionQnameLabelLength 1 { h with arcount := x } answers) :=
  .pair (fun _ _ => rfl) (fun _ _ => rfl) fun _ _ _ => inHeader_before (by simp)

/-- `qname[qname_size++] = c`. -/
def DnsQuestion.push (c : UInt8) (q : DnsQuestion) : DnsQuestion :=
  { q with qname := q.qname.set q.qnameSize.toNat c, qnameSize := q.qnameSize + 1 }

/-- The parser in the question. -/
def inQuestion (r : DohResponse) (s : DohResponseState) (i n : Nat) (q : DnsQuestion) :
    DohResponseParser where
  response := { r with question := q }
  state := s
  i := i
  n := n

theorem inQuestion_before {r : DohResponse} {s : DohResponseState} {i n : Nat} {q : DnsQuestion}
    (hs : s ∈ [DohResponseState.responseQuestionQnameLabelLength, .responseQuestionQnameLabel,
      .responseQuestionQtype, .responseQuestionQclass]) :
    Before (inQuestion r s i n q) := by
  simp only [List.mem_cons, List.not_mem_nil, or_false] at hs
  rcases hs with rfl | rfl | rfl | rfl <;>
    simp [Before, DohResponseParser.Stopped, inQuestion]

theorem counted_qnameLabel (r : DohResponse) (m : Nat) :
    Lib.Counted (dohResponseParserFeed alloc) Before m
      (fun i q => inQuestion r .responseQuestionQnameLabel i m q) (fun _ q c => q.push c)
      (fun q => inQuestion r .responseQuestionQnameLabelLength m m (q.push (chr '.'))) where
  step := by
    intro i q c hi
    simp only [dohResponseParserFeed, inQuestion, rQuestionQnameLabel, pushQname,
      DohResponseParser.setQuestion, ge_iff_le, show ¬ m ≤ i by omega, if_false,
      show ¬ i + 1 = m by omega]
    rfl
  leaves := by
    intro i q c hi
    simp only [dohResponseParserFeed, inQuestion, rQuestionQnameLabel, pushQname,
      DohResponseParser.setQuestion, ge_iff_le, show ¬ m ≤ i by omega, if_false, hi, if_true]
    rfl
  within := fun _ _ _ => inQuestion_before (by simp)

theorem counted_qtype (r : DohResponse) (q : DnsQuestion) :
    Lib.Counted (dohResponseParserFeed alloc) Before 2
      (fun i x => inQuestion r .responseQuestionQtype i 2 { q with qtype := x }) word
      (fun x => inQuestion r .responseQuestionQclass 0 2 { q with qtype := x }) :=
  .pair (fun _ _ => rfl) (fun _ _ => rfl) fun _ _ _ => inQuestion_before (by simp)

theorem counted_qclass (r : DohResponse) (q : DnsQuestion) :
    Lib.Counted (dohResponseParserFeed alloc) Before 2
      (fun i x => inQuestion r .responseQuestionQclass i 2 { q with qclass := x }) word
      (fun x => inQuestion r .responseAnswerNameLabelLength 0 2 { q with qclass := x }) :=
  .pair (fun _ _ => rfl) (fun _ _ => rfl) fun _ _ _ => inQuestion_before (by simp)

/-! ## The header and the question -/

/-- The header, when there are answers and room for them. -/
theorem through_header {h : DnsHeader} (hflags : h.flags.InRange) (hcount : h.ancount ≠ 0) :
    Lib.Through (dohResponseParserFeed true) Before dohResponseParserInit h.bytes
      (inHeader .responseQuestionQnameLabelLength 1 h
        (some (List.replicate h.ancount.toNat .zero))) := by
  have hword : ∀ x : UInt16, (be16 x).length = 2 := fun _ => rfl
  have hlast : ∀ answers, Before (inHeader .responseQuestionQnameLabelLength 1 h answers) := by
    intro answers
    simp [Before, DohResponseParser.Stopped, inHeader]
  let zero := DohResponse.zero.header
  have h1 := (counted_id true none zero).whole (hword h.id) (by omega) 0
    (inHeader_before (by simp))
  rw [gathered_word] at h1
  have h2 := (counted_flags true none { zero with id := h.id }).whole
    (show [h.flags.firstByte, h.flags.secondByte].length = 2 from rfl) (by omega) zero.flags
    (inHeader_before (by simp))
  have hgather : Lib.gathered flagsByte 0 zero.flags [h.flags.firstByte, h.flags.secondByte]
      = h.flags := DnsFlags.ofBytes_bytes hflags
  rw [hgather] at h2
  have h3 := (counted_qdcount true none
    { zero with id := h.id, flags := h.flags }).whole (hword h.qdcount) (by omega) 0
    (inHeader_before (by simp))
  rw [gathered_word] at h3
  have h4 := (counted_ancount true
    { zero with id := h.id, flags := h.flags, qdcount := h.qdcount }).whole (hword h.ancount)
    (by omega) 0
  rw [gathered_word] at h4
  simp only [afterAncount, if_neg hcount, if_true] at h4
  have h4 := h4 (inHeader_before (by simp))
  have h5 := (counted_nscount true (some (List.replicate h.ancount.toNat .zero))
    { zero with id := h.id, flags := h.flags, qdcount := h.qdcount, ancount := h.ancount }).whole
    (hword h.nscount) (by omega) 0 (inHeader_before (by simp))
  rw [gathered_word] at h5
  have h6 := (counted_arcount true (some (List.replicate h.ancount.toNat .zero))
    { h with arcount := 0 }).whole (hword h.arcount) (by omega) 0
  rw [gathered_word] at h6
  exact ((((h1.append h2).append h3).append h4).append h5).append (h6 (hlast _))

/-- The text of a sequence of labels, each with a dot behind it. -/
def dottedLabels (labels : List Bytes) : Bytes := labels.flatMap fun l => l ++ [chr '.']

def DnsQuestion.pushAll (cs : Bytes) (q : DnsQuestion) : DnsQuestion :=
  cs.foldl (fun q c => q.push c) q

theorem through_qnameLabels (r : DohResponse) {labels : List Bytes}
    (hlabels : LabelsWithin 255 labels) : ∀ (i n : Nat) (q : DnsQuestion), ∃ i' n',
    Lib.Through (dohResponseParserFeed alloc) Before
      (inQuestion r .responseQuestionQnameLabelLength i n q) (labels.flatMap labelBytes)
      (inQuestion r .responseQuestionQnameLabelLength i' n' (q.pushAll (dottedLabels labels))) := by
  induction labels with
  | nil => exact fun i n q => ⟨i, n, .nil (inQuestion_before (by simp))⟩
  | cons l labels ih =>
      intro i n q
      obtain ⟨hpos, hle⟩ := hlabels l (by simp)
      have hne : l.length.toUInt8 ≠ 0 := by
        intro h0
        have hnat := byte_toNat (n := l.length) (by omega)
        rw [h0] at hnat
        have : (0 : UInt8).toNat = 0 := rfl
        omega
      have hopen : dohResponseParserFeed alloc
          (inQuestion r .responseQuestionQnameLabelLength i n q) l.length.toUInt8
          = inQuestion r .responseQuestionQnameLabel 0 l.length q := by
        simp only [dohResponseParserFeed, inQuestion, rQuestionQnameLabelLength, if_neg hne,
          DohResponseParser.goto, byte_toNat (n := l.length) (by omega)]
      have hlabel := (counted_qnameLabel alloc r l.length).whole rfl (by omega) q
        (inQuestion_before (by simp))
      rw [Lib.gathered_const, ← hopen] at hlabel
      obtain ⟨i', n', hrest⟩ := ih (fun l hl => hlabels l (by simp [hl])) l.length l.length
        ((l.foldl (fun q c => q.push c) q).push (chr '.'))
      refine ⟨i', n', ?_⟩
      have hdots : (q.pushAll (dottedLabels (l :: labels)))
          = ((l.foldl (fun q c => q.push c) q).push (chr '.')).pushAll (dottedLabels labels) := by
        simp [DnsQuestion.pushAll, dottedLabels, List.foldl_append]
      rw [hdots, List.flatMap_cons]
      exact Lib.Through.append (.cons (inQuestion_before (by simp)) hlabel) hrest

/-- The whole question, up to the byte that ends it. -/
theorem front_question (r : DohResponse) {q : Question} (hlabels : LabelsWithin 255 q.labels)
    (i n : Nat) (dq : DnsQuestion) : ∃ front x t, q.bytes = front ++ [x] ∧
      Lib.Through (dohResponseParserFeed alloc) Before
        (inQuestion r .responseQuestionQnameLabelLength i n dq) front t ∧
      dohResponseParserFeed alloc t x = inQuestion r .responseAnswerNameLabelLength 0 2
        { dq.pushAll (dottedLabels q.labels) with qtype := q.qtype, qclass := q.qclass } := by
  obtain ⟨i', n', hname⟩ := through_qnameLabels alloc r hlabels i n dq
  let named := dq.pushAll (dottedLabels q.labels)
  have hroot : dohResponseParserFeed alloc
      (inQuestion r .responseQuestionQnameLabelLength i' n' named) 0
      = inQuestion r .responseQuestionQtype 0 2 named := rfl
  have htype := (counted_qtype alloc r named).whole (show (be16 q.qtype).length = 2 from rfl)
    (by omega) named.qtype (inQuestion_before (by simp))
  rw [gathered_word] at htype
  obtain ⟨front, x, t, hsplit, hrun, hlast⟩ :=
    (counted_qclass alloc r { named with qtype := q.qtype }).front
      (show (be16 q.qclass).length = 2 from rfl) (by omega) named.qclass
  rw [gathered_word] at hlast
  refine ⟨q.labels.flatMap labelBytes ++ [0] ++ be16 q.qtype ++ front, x, t, ?_, ?_, hlast⟩
  · rw [Question.bytes, hsplit]
    simp
  · have hzero : Lib.Through (dohResponseParserFeed alloc) Before _ [0] _ :=
      .single hname.last (hroot ▸ inQuestion_before (by simp))
    rw [hroot] at hzero
    exact ((hname.append hzero).append htype).append hrun

/-! ## The blocks of a record -/

/-- The response with `answers[answer_index]` stored. -/
def DohResponse.put (r : DohResponse) (a : Answer) : DohResponse :=
  { r with answers := r.answers.map fun as => as.set r.answerIndex.toNat a }

/-- There is an answer at `answer_index`. -/
def DohResponse.Room (r : DohResponse) : Prop :=
  ∃ as, r.answers = some as ∧ r.answerIndex.toNat < as.length

/-- The parser in a record. -/
def inAnswer (r : DohResponse) (s : DohResponseState) (i n : Nat) (a : Answer) :
    DohResponseParser where
  response := r.put a
  state := s
  i := i
  n := n

/-- In the record at the index that the response has. -/
def Within (r : DohResponse) (p : DohResponseParser) : Prop :=
  ¬ p.Stopped ∧ p.response.answerIndex = r.answerIndex

theorem inAnswer_within {r : DohResponse} {s : DohResponseState} {i n : Nat} {a : Answer}
    (hs : s ∈ [DohResponseState.responseAnswerNameLabelLength, .responseAnswerNameLabel,
      .responseAnswerNamePointer, .responseAnswerType, .responseAnswerClass, .responseAnswerTtl,
      .responseAnswerRdlength, .responseAnswerIpv4Rdata, .responseAnswerIpv6Rdata,
      .responseAnswerCnameLabelRdata, .responseAnswerCnameLabelLengthRdata,
      .responseAnswerCnamePointerRdata]) :
    Within r (inAnswer r s i n a) := by
  simp only [List.mem_cons, List.not_mem_nil, or_false] at hs
  rcases hs with rfl | rfl | rfl | rfl | rfl | rfl | rfl | rfl | rfl | rfl | rfl | rfl <;>
    simp [Within, DohResponseParser.Stopped, inAnswer, DohResponse.put]

theorem modifyAnswer_inAnswer {r : DohResponse} (hroom : r.Room) (s : DohResponseState)
    (i n : Nat) (a : Answer) (f : Answer → Answer) :
    (inAnswer r s i n a).modifyAnswer f = inAnswer r s i n (f a) := by
  obtain ⟨as, has, hlt⟩ := hroom
  have hmodify : (as.set r.answerIndex.toNat a).modify r.answerIndex.toNat f
      = as.set r.answerIndex.toNat (f a) := by
    apply List.ext_getElem?
    intro k
    by_cases hk : r.answerIndex.toNat = k
    · subst hk
      simp [List.getElem?_modify_eq, List.getElem?_set_self hlt]
    · simp [List.getElem?_set_ne hk, hk]
  simp [DohResponseParser.modifyAnswer, inAnswer, DohResponse.put, has, hmodify]

theorem answer_inAnswer {r : DohResponse} (hroom : r.Room) (s : DohResponseState)
    (i n : Nat) (a : Answer) : (inAnswer r s i n a).answer = a := by
  obtain ⟨as, has, hlt⟩ := hroom
  simp [DohResponseParser.answer, inAnswer, DohResponse.put, has, List.getElem?_set_self hlt]

section
variable {r : DohResponse} (hroom : r.Room)
include hroom

theorem counted_nameLabel (m : Nat) :
    Lib.Counted (dohResponseParserFeed alloc) (Within r) m
      (fun i a => inAnswer r .responseAnswerNameLabel i m a) (fun _ a c => a.pushName c)
      (fun a => inAnswer r .responseAnswerNameLabelLength m m (a.pushName (chr '.'))) where
  step := by
    intro i a c hi
    show rAnswerNameLabel (inAnswer r .responseAnswerNameLabel i m a) c = _
    rw [rAnswerNameLabel, modifyAnswer_inAnswer hroom]
    simp only [inAnswer, ge_iff_le, show ¬ m ≤ i by omega, if_false, show ¬ i + 1 = m by omega]
  leaves := by
    intro i a c hi
    have hdot := modifyAnswer_inAnswer hroom .responseAnswerNameLabel m m (a.pushName c)
      (Answer.pushName (chr '.'))
    show rAnswerNameLabel (inAnswer r .responseAnswerNameLabel i m a) c = _
    rw [rAnswerNameLabel, modifyAnswer_inAnswer hroom]
    simp only [inAnswer, ge_iff_le, show ¬ m ≤ i by omega, if_false, hi, if_true] at hdot ⊢
    rw [hdot]
  within := fun _ _ _ => inAnswer_within (by simp)

theorem counted_type (a : Answer) :
    Lib.Counted (dohResponseParserFeed alloc) (Within r) 2
      (fun i x => inAnswer r .responseAnswerType i 2 { a with aType := x }) word
      (fun x => inAnswer r .responseAnswerClass 0 2 { a with aType := x }) := by
  refine .pair ?_ ?_ fun _ _ _ => inAnswer_within (by simp)
  · intro x c
    show rAnswerType (inAnswer r .responseAnswerType 0 2 { a with aType := x }) c = _
    rw [rAnswerType, modifyAnswer_inAnswer hroom]
    rfl
  · intro x c
    show rAnswerType (inAnswer r .responseAnswerType 1 2 { a with aType := x }) c = _
    rw [rAnswerType, modifyAnswer_inAnswer hroom, modifyAnswer_inAnswer hroom]
    rfl

theorem counted_class (a : Answer) :
    Lib.Counted (dohResponseParserFeed alloc) (Within r) 2
      (fun i x => inAnswer r .responseAnswerClass i 2 { a with aClass := x }) word
      (fun x => inAnswer r .responseAnswerTtl 0 4 { a with aClass := x }) := by
  refine .pair ?_ ?_ fun _ _ _ => inAnswer_within (by simp)
  · intro x c
    show rAnswerClass (inAnswer r .responseAnswerClass 0 2 { a with aClass := x }) c = _
    rw [rAnswerClass, modifyAnswer_inAnswer hroom]
    rfl
  · intro x c
    show rAnswerClass (inAnswer r .responseAnswerClass 1 2 { a with aClass := x }) c = _
    rw [rAnswerClass, modifyAnswer_inAnswer hroom, modifyAnswer_inAnswer hroom]
    rfl

theorem counted_ttl (a : Answer) :
    Lib.Counted (dohResponseParserFeed alloc) (Within r) 4
      (fun i x => inAnswer r .responseAnswerTtl i 4 { a with aTtl := x }) dword
      (fun x => inAnswer r .responseAnswerRdlength 0 2 { a with aTtl := x }) where
  step := by
    intro i x c hi
    show rAnswerTtl (inAnswer r .responseAnswerTtl i 4 { a with aTtl := x }) c = _
    obtain rfl | rfl | rfl : i = 0 ∨ i = 1 ∨ i = 2 := by omega
    all_goals
      rw [rAnswerTtl]
      simp only [modifyAnswer_inAnswer hroom]
      rfl
  leaves := by
    intro i x c hi
    show rAnswerTtl (inAnswer r .responseAnswerTtl i 4 { a with aTtl := x }) c = _
    obtain rfl : i = 3 := by omega
    rw [rAnswerTtl]
    simp only [modifyAnswer_inAnswer hroom]
    rfl
  within := fun _ _ _ => inAnswer_within (by simp)

/-- Behind RDLENGTH the type of the record decides. -/
def atRData (r : DohResponse) (a : Answer) : DohResponseParser :=
  if a.aType = ipv4Type then inAnswer r .responseAnswerIpv4Rdata 0 4 a
  else if a.aType = ipv6Type then inAnswer r .responseAnswerIpv6Rdata 0 16 a
  else if a.aType = cnameType then
    inAnswer r .responseAnswerCnameLabelLengthRdata 0 maxCnameLength a
  else inAnswer r .dohResponseError 0 2 a

theorem counted_rdlength (a : Answer) :
    Lib.Counted (dohResponseParserFeed alloc) (Within r) 2
      (fun i x => inAnswer r .responseAnswerRdlength i 2 { a with aRdLength := x }) word
      (fun x => atRData r { a with aRdLength := x }) := by
  refine .pair ?_ ?_ fun _ _ _ => inAnswer_within (by simp)
  · intro x c
    show rAnswerRdlength (inAnswer r .responseAnswerRdlength 0 2 { a with aRdLength := x }) c = _
    rw [rAnswerRdlength, modifyAnswer_inAnswer hroom]
    rfl
  · intro x c
    show rAnswerRdlength (inAnswer r .responseAnswerRdlength 1 2 { a with aRdLength := x }) c = _
    rw [rAnswerRdlength, modifyAnswer_inAnswer hroom, modifyAnswer_inAnswer hroom]
    simp only [field16, answer_inAnswer hroom]
    rfl

/-- The response once the answer at the index is complete. -/
def DohResponse.advance (r : DohResponse) : DohResponse :=
  { r with answerIndex := r.answerIndex + 1 }

/-- The state behind a record. -/
def DohResponse.nextState (r : DohResponse) : DohResponseState :=
  if r.answerIndex + 1 = r.header.ancount then .dohResponseDone
  else .responseAnswerNameLabelLength

/-- The parser behind a record. -/
def behindAnswer (r : DohResponse) (a : Answer) (i n : Nat) : DohResponseParser where
  response := (r.put a).advance
  state := r.nextState
  i := i
  n := n

omit hroom in
theorem nextAnswer_inAnswer (s : DohResponseState) (i n : Nat) (a : Answer) :
    (inAnswer r s i n a).nextAnswer = behindAnswer r a i n := by
  by_cases hlast : r.answerIndex + 1 = r.header.ancount <;>
    simp [DohResponseParser.nextAnswer, inAnswer, behindAnswer, DohResponse.nextState,
      DohResponse.advance, DohResponse.put, DohResponseParser.header, hlast]

theorem counted_ipv4 :
    Lib.Counted (dohResponseParserFeed alloc) (Within r) 4
      (fun i a => inAnswer r .responseAnswerIpv4Rdata i 4 a) (fun _ a c => a.pushDecimal c)
      (fun a => behindAnswer r a.closeIpv4 4 4) where
  step := by
    intro i a c hi
    show rAnswerIpv4Rdata (inAnswer r .responseAnswerIpv4Rdata i 4 a) c = _
    rw [rAnswerIpv4Rdata, modifyAnswer_inAnswer hroom]
    simp only [inAnswer, ge_iff_le, show ¬ 4 ≤ i by omega, if_false, show ¬ i + 1 = 4 by omega]
  leaves := by
    intro i a c hi
    have hclose := modifyAnswer_inAnswer hroom .responseAnswerIpv4Rdata 4 4 (a.pushDecimal c)
      Answer.closeIpv4
    show rAnswerIpv4Rdata (inAnswer r .responseAnswerIpv4Rdata i 4 a) c = _
    rw [rAnswerIpv4Rdata, modifyAnswer_inAnswer hroom, ← nextAnswer_inAnswer, ← hclose]
    simp only [inAnswer, ge_iff_le, show ¬ 4 ≤ i by omega, if_false, hi, if_true]
  within := fun _ _ _ => inAnswer_within (by simp)

theorem counted_ipv6 :
    Lib.Counted (dohResponseParserFeed alloc) (Within r) 16
      (fun i a => inAnswer r .responseAnswerIpv6Rdata i 16 a)
      (fun i a c => { a with aip := a.aip.set i c })
      (fun a => behindAnswer r a.closeIpv6 16 16) where
  step := by
    intro i a c hi
    show rAnswerIpv6Rdata (inAnswer r .responseAnswerIpv6Rdata i 16 a) c = _
    rw [rAnswerIpv6Rdata, modifyAnswer_inAnswer hroom]
    simp only [inAnswer, ge_iff_le, show ¬ 16 ≤ i by omega, if_false, show ¬ i + 1 = 16 by omega]
  leaves := by
    intro i a c hi
    have hclose := modifyAnswer_inAnswer hroom .responseAnswerIpv6Rdata 16 16
      { a with aip := a.aip.set i c } Answer.closeIpv6
    show rAnswerIpv6Rdata (inAnswer r .responseAnswerIpv6Rdata i 16 a) c = _
    rw [rAnswerIpv6Rdata, modifyAnswer_inAnswer hroom, ← nextAnswer_inAnswer, ← hclose]
    simp only [inAnswer, ge_iff_le, show ¬ 16 ≤ i by omega, if_false, hi, if_true]
  within := fun _ _ _ => inAnswer_within (by simp)

omit hroom in
theorem counted_cnameLabel (m : Nat) :
    Lib.Counted (dohResponseParserFeed alloc) (Within r) m
      (fun i a => inAnswer r .responseAnswerCnameLabelRdata i m a) (fun _ a _ => a)
      (fun a => inAnswer r .responseAnswerCnameLabelLengthRdata m m a) where
  step := by
    intro i a c hi
    simp only [dohResponseParserFeed, inAnswer, rAnswerCnameLabelRdata, ge_iff_le,
      show ¬ m ≤ i by omega, if_false, show ¬ i + 1 = m by omega]
  leaves := by
    intro i a c hi
    simp only [dohResponseParserFeed, inAnswer, rAnswerCnameLabelRdata, ge_iff_le,
      show ¬ m ≤ i by omega, if_false, hi, if_true]
  within := fun _ _ _ => inAnswer_within (by simp)

/-! ## A record -/

/-- Nothing but the name of the answer has been stored. -/
def Answer.OnlyName (a : Answer) : Prop :=
  { a with name := Answer.zero.name, namePtr := false, nameLength := 0, aOffset := 0 }
    = Answer.zero

omit hroom in
theorem Answer.OnlyName.pushNames {a : Answer} (h : a.OnlyName) (cs : Bytes) :
    (cs.foldl (fun a c => a.pushName c) a).OnlyName := by
  induction cs generalizing a with
  | nil => exact h
  | cons c cs ih => exact @ih (a.pushName c) h

omit hroom in
/-- What the data of an answer is before it is read. -/
theorem Answer.OnlyName.data {a : Answer} (h : a.OnlyName) :
    a.arData = List.replicate inet6Addrstrlen 0 ∧ a.aRdataLength = 0 ∧
      a.aip = List.replicate 16 0 := by
  have hzero : { a with name := Answer.zero.name, namePtr := false, nameLength := 0, aOffset := 0 }
      = Answer.zero := h
  exact ⟨congrArg Answer.arData hzero, congrArg Answer.aRdataLength hzero,
    congrArg Answer.aip hzero⟩

omit hroom in
theorem feed_nameLabelLength {c : UInt8} (hc : c ≠ 0) (hmark : c >>> 6 ≠ 3) (i n : Nat)
    (a : Answer) :
    dohResponseParserFeed alloc (inAnswer r .responseAnswerNameLabelLength i n a) c
      = inAnswer r .responseAnswerNameLabel 0 c.toNat a := by
  simp only [dohResponseParserFeed, inAnswer, rAnswerNameLabelLength, if_neg hc, if_neg hmark,
    DohResponseParser.goto]

theorem feed_namePointer {hi : UInt8} (marked : hi >>> 6 = 3) (lo : UInt8) (i n : Nat)
    (a : Answer) :
    dohResponseParserFeed alloc (inAnswer r .responseAnswerNameLabelLength i n a) hi
      = inAnswer r .responseAnswerNamePointer 1 2
          { a with aOffset := (hi.toUInt16 &&& 0x3F) <<< 8 } ∧
    dohResponseParserFeed alloc (inAnswer r .responseAnswerNamePointer 1 2
        { a with aOffset := (hi.toUInt16 &&& 0x3F) <<< 8 }) lo
      = inAnswer r .responseAnswerType 0 2
          { a with aOffset := (hi.toUInt16 &&& 0x3F) <<< 8 + lo.toUInt16, namePtr := true } := by
  have hne : hi ≠ 0 := by
    rintro rfl
    exact absurd marked (by decide)
  constructor
  · show rAnswerNameLabelLength (inAnswer r .responseAnswerNameLabelLength i n a) hi = _
    rw [rAnswerNameLabelLength, if_neg hne, if_pos marked, modifyAnswer_inAnswer hroom]
    rfl
  · show rAnswerNamePointer (inAnswer r .responseAnswerNamePointer 1 2
      { a with aOffset := (hi.toUInt16 &&& 0x3F) <<< 8 }) lo = _
    rw [rAnswerNamePointer, modifyAnswer_inAnswer hroom]
    rfl

/-- The labels of a record's name. -/
theorem through_nameLabels {labels : List Bytes} (hlabels : LabelsWithin 191 labels) :
    ∀ (i n : Nat) (a : Answer), a.OnlyName → ∃ i' n' a', a'.OnlyName ∧
      Lib.Through (dohResponseParserFeed alloc) (Within r)
        (inAnswer r .responseAnswerNameLabelLength i n a) (labels.flatMap labelBytes)
        (inAnswer r .responseAnswerNameLabelLength i' n' a') := by
  induction labels with
  | nil => exact fun i n a ha => ⟨i, n, a, ha, .nil (inAnswer_within (by simp))⟩
  | cons l labels ih =>
      intro i n a ha
      obtain ⟨hpos, hle⟩ := hlabels l (by simp)
      have hstops := not_stopsLabels hpos hle (by omega)
      have hopen := feed_nameLabelLength (r := r) alloc (fun h => hstops (.inl h))
        (fun h => hstops (marked_stops h)) i n a
      rw [byte_toNat (by omega)] at hopen
      have hlabel := (counted_nameLabel alloc hroom l.length).whole rfl (by omega) a
        (inAnswer_within (by simp))
      rw [Lib.gathered_const, ← hopen] at hlabel
      obtain ⟨i', n', a', ha', hrest⟩ := ih (fun l hl => hlabels l (by simp [hl])) l.length
        l.length _ (Answer.OnlyName.pushNames (ha.pushNames l) [chr '.'])
      refine ⟨i', n', a', ha', ?_⟩
      rw [List.flatMap_cons]
      exact Lib.Through.append (.cons (inAnswer_within (by simp)) hlabel) hrest

/-- The whole name, in any of its three forms. -/
theorem through_name {name : DnsName} (hlabels : LabelsWithin 191 name.labels) (i n : Nat)
    {a : Answer} (ha : a.OnlyName) : ∃ a', a'.OnlyName ∧
      Lib.Through (dohResponseParserFeed alloc) (Within r)
        (inAnswer r .responseAnswerNameLabelLength i n a) name.bytes
        (inAnswer r .responseAnswerType 0 2 a') := by
  obtain ⟨i', n', a', ha', hrun⟩ := through_nameLabels alloc hroom hlabels i n a ha
  cases hend : name.ending with
  | root =>
      have hroot : dohResponseParserFeed alloc
          (inAnswer r .responseAnswerNameLabelLength i' n' a') 0
          = inAnswer r .responseAnswerType 0 2 a' := rfl
      refine ⟨a', ha', ?_⟩
      rw [DnsName.bytes, hend]
      have hzero : Lib.Through (dohResponseParserFeed alloc) (Within r) _ [0] _ :=
        .single hrun.last (hroot ▸ inAnswer_within (by simp))
      rw [hroot] at hzero
      exact hrun.append hzero
  | pointer hi lo marked =>
      obtain ⟨hhi, hlo⟩ := feed_namePointer alloc hroom marked lo i' n' a'
      refine ⟨{ a' with aOffset := (hi.toUInt16 &&& 0x3F) <<< 8 + lo.toUInt16, namePtr := true },
        ha', ?_⟩
      rw [DnsName.bytes, hend]
      refine hrun.append (.cons hrun.last ?_)
      rw [hhi, ← hlo]
      exact .single (inAnswer_within (by simp)) (hlo ▸ inAnswer_within (by simp))

/-- The fields between the name and the data. -/
theorem front_fixed (rec : Record) (a : Answer) : ∃ front x t,
    rec.fixed ++ be16 rec.rdLength = front ++ [x] ∧
      Lib.Through (dohResponseParserFeed alloc) (Within r)
        (inAnswer r .responseAnswerType 0 2 a) front t ∧
      dohResponseParserFeed alloc t x = atRData r
        { a with aType := rec.rdata.type, aClass := rec.aClass, aTtl := rec.ttl,
                 aRdLength := rec.rdLength } := by
  have htype := (counted_type alloc hroom a).whole
    (show (be16 rec.rdata.type).length = 2 from rfl) (by omega) a.aType (inAnswer_within (by simp))
  rw [gathered_word] at htype
  have hclass := (counted_class alloc hroom { a with aType := rec.rdata.type }).whole
    (show (be16 rec.aClass).length = 2 from rfl) (by omega) a.aClass (inAnswer_within (by simp))
  rw [gathered_word] at hclass
  have httl := (counted_ttl alloc hroom
    { a with aType := rec.rdata.type, aClass := rec.aClass }).whole
    (show (be32 rec.ttl).length = 4 from rfl) (by omega) a.aTtl (inAnswer_within (by simp))
  rw [gathered_dword] at httl
  obtain ⟨front, x, t, hsplit, hrun, hlast⟩ := (counted_rdlength alloc hroom
    { a with aType := rec.rdata.type, aClass := rec.aClass, aTtl := rec.ttl }).front
    (show (be16 rec.rdLength).length = 2 from rfl) (by omega) a.aRdLength
  rw [gathered_word] at hlast
  refine ⟨rec.fixed ++ front, x, t, ?_, ?_, hlast⟩
  · rw [hsplit, List.append_assoc]
  · exact ((htype.append hclass).append httl).append hrun

/-- The text that the octets of an address have made so far. -/
def Answer.Texted (a : Answer) (text : Bytes) : Prop :=
  a.arData = filled inet6Addrstrlen text ∧ a.aRdataLength.toNat = text.length

omit hroom in
theorem Answer.Texted.pushDecimal {a : Answer} {text : Bytes} (h : a.Texted text) (c : UInt8)
    (hlen : text.length ≤ 12) :
    (a.pushDecimal c).Texted (text ++ (decimal c.toNat ++ [chr '.'])) := by
  obtain ⟨hdata, hnat⟩ := h
  have hc := decimal_length c
  constructor
  · rw [Answer.pushDecimal, hdata]
    exact putAt_filled hnat (by simp [inet6Addrstrlen]; omega)
  · have hsmall : (decimal c.toNat).length.toUInt16.toNat = (decimal c.toNat).length :=
      UInt16.toNat_ofNat_of_lt (show _ < 65536 by omega)
    simp only [Answer.pushDecimal, UInt16.toNat_add, hnat, hsmall, List.length_append,
      List.length_singleton, UInt16.reduceToNat]
    omega

omit hroom in
/-- The address is read back from its own text. -/
theorem Answer.Texted.closeIpv4 {a : Answer} {text addr : Bytes}
    (h : a.Texted (text ++ [chr '.'])) (hlen : text.length < inet6Addrstrlen)
    (hz : (0 : UInt8) ∉ text) (hparses : inetPton4 text = some addr) (h4 : addr.length = 4) :
    a.closeIpv4.ipv4 = addr := by
  obtain ⟨hdata, hnat⟩ := h
  have hone : (1 : UInt16) ≤ a.aRdataLength := by
    rw [UInt16.le_iff_toNat_le, hnat]
    simp
  have hidx : (a.aRdataLength - 1).toNat = text.length := by
    rw [UInt16.toNat_sub_of_le _ _ hone, hnat]
    simp
  simp only [Answer.closeIpv4, Answer.ipv4, hdata, set_filled_zero hidx (hidx ▸ hlen),
    cstr_filled hz hlen, hparses]
  rw [List.take_left' h4]

omit hroom in
theorem Answer.Texted.octets {a : Answer} (h : a.Texted []) (b c d e : UInt8) :
    ([b, c, d, e].foldl (fun a c => a.pushDecimal c) a).closeIpv4.ipv4 = [b, c, d, e] := by
  have hb := decimal_length b
  have hc := decimal_length c
  have hd := decimal_length d
  have he := decimal_length e
  have h1 := h.pushDecimal b (by simp)
  have h2 := h1.pushDecimal c (by simp; omega)
  have h3 := h2.pushDecimal d (by simp; omega)
  have h4 := h3.pushDecimal e (by simp; omega)
  have hdotted : ([] ++ (decimal b.toNat ++ [chr '.']) ++ (decimal c.toNat ++ [chr '.']) ++
      (decimal d.toNat ++ [chr '.']) ++ (decimal e.toNat ++ [chr '.']))
      = dotted b c d e ++ [chr '.'] := by
    simp [dotted]
  rw [hdotted] at h4
  refine h4.closeIpv4 ?_ ?_ (inetPton4_dotted b c d e) rfl
  · simp [dotted, inet6Addrstrlen]
    omega
  · have hdot : (0 : UInt8) ≠ chr '.' := by decide
    simp [dotted, decimal_ne_zero, hdot]

omit hroom in
theorem gathered_aip {xs : Bytes} : ∀ {pre : Bytes} {i : Nat} {a : Answer}, i = pre.length →
    pre.length + xs.length ≤ 16 → a.aip = filled 16 pre →
    Lib.gathered (fun i a c => { a with aip := a.aip.set i c }) i a xs
      = { a with aip := filled 16 (pre ++ xs) } := by
  induction xs with
  | nil =>
      intro pre i a _ _ haip
      rw [List.append_nil, ← haip]
      rfl
  | cons x xs ih =>
      intro pre i a hi hlen haip
      rw [List.length_cons] at hlen
      have hset : a.aip.set i x = filled 16 (pre ++ [x]) := by
        rw [haip]
        exact set_filled x hi (by omega)
      rw [Lib.gathered, @ih (pre ++ [x]) (i + 1) _ (by simp [hi]) (by simp; omega) hset]
      simp

omit hroom in
theorem feed_cnameLabelLength {c : UInt8} (hc : c ≠ 0) (hmark : c >>> 6 ≠ 3) (i n : Nat)
    (a : Answer) :
    dohResponseParserFeed alloc (inAnswer r .responseAnswerCnameLabelLengthRdata i n a) c
      = inAnswer r .responseAnswerCnameLabelRdata 0 c.toNat a := by
  simp only [dohResponseParserFeed, inAnswer, rAnswerCnameLabelLengthRdata, if_neg hc,
    if_neg hmark, DohResponseParser.goto]

omit hroom in
theorem feed_cnamePointer {hi : UInt8} (marked : hi >>> 6 = 3) (lo : UInt8) (i n : Nat)
    (a : Answer) :
    dohResponseParserFeed alloc (inAnswer r .responseAnswerCnameLabelLengthRdata i n a) hi
      = inAnswer r .responseAnswerCnamePointerRdata 1 2 a ∧
    dohResponseParserFeed alloc (inAnswer r .responseAnswerCnamePointerRdata 1 2 a) lo
      = behindAnswer r a 0 2 := by
  have hne : hi ≠ 0 := by
    rintro rfl
    exact absurd marked (by decide)
  constructor
  · show rAnswerCnameLabelLengthRdata
      (inAnswer r .responseAnswerCnameLabelLengthRdata i n a) hi = _
    rw [rAnswerCnameLabelLengthRdata, if_neg hne, if_pos marked]
    rfl
  · rw [← nextAnswer_inAnswer .responseAnswerCnamePointerRdata]
    rfl

omit hroom in
/-- The labels of a CNAME's data. -/
theorem through_cnameLabels {labels : List Bytes} (hlabels : LabelsWithin 191 labels) :
    ∀ (i n : Nat) (a : Answer), ∃ i' n',
      Lib.Through (dohResponseParserFeed alloc) (Within r)
        (inAnswer r .responseAnswerCnameLabelLengthRdata i n a) (labels.flatMap labelBytes)
        (inAnswer r .responseAnswerCnameLabelLengthRdata i' n' a) := by
  induction labels with
  | nil => exact fun i n a => ⟨i, n, .nil (inAnswer_within (by simp))⟩
  | cons l labels ih =>
      intro i n a
      obtain ⟨hpos, hle⟩ := hlabels l (by simp)
      have hstops := not_stopsLabels hpos hle (by omega)
      have hopen := feed_cnameLabelLength (r := r) alloc (fun h => hstops (.inl h))
        (fun h => hstops (marked_stops h)) i n a
      rw [byte_toNat (by omega)] at hopen
      have hlabel := (counted_cnameLabel alloc l.length).whole rfl (by omega) a
        (inAnswer_within (r := r) (by simp))
      rw [Lib.gathered_const, ← hopen] at hlabel
      have hsame : l.foldl (fun a _ => a) a = a := Lib.foldl_stays (fun _ => rfl) l
      rw [hsame] at hlabel
      obtain ⟨i', n', hrest⟩ := ih (fun l hl => hlabels l (by simp [hl])) l.length l.length a
      refine ⟨i', n', ?_⟩
      rw [List.flatMap_cons]
      exact Lib.Through.append (.cons (inAnswer_within (by simp)) hlabel) hrest

/-- The fields of the answer that the fixed part of the record gives. -/
def Answer.SameFixed (a a' : Answer) : Prop :=
  a'.aType = a.aType ∧ a'.aClass = a.aClass ∧ a'.aTtl = a.aTtl ∧ a'.aRdLength = a.aRdLength

omit hroom in
theorem Answer.sameFixed_octets (a : Answer) (octets : Bytes) :
    a.SameFixed (octets.foldl (fun a c => a.pushDecimal c) a).closeIpv4 := by
  have hpush : ∀ (octets : Bytes) (a : Answer),
      a.SameFixed (octets.foldl (fun a c => a.pushDecimal c) a) := by
    intro octets
    induction octets with
    | nil => exact fun a => ⟨rfl, rfl, rfl, rfl⟩
    | cons c octets ih =>
        intro a
        simpa [Answer.SameFixed, Answer.pushDecimal] using ih (a.pushDecimal c)
  simpa [Answer.SameFixed, Answer.closeIpv4] using hpush octets a

/-- The address in the data is the one decoded. -/
def RData.DecodedTo : RData → Answer → Prop
  | .a addr _, answer => answer.ipv4 = addr
  | .aaaa addr _, answer => answer.ipv6 = addr
  | .cname _, _ => True

/-- The data of a record, up to the byte that ends it. -/
theorem front_rdata {rd : RData} (hlabels : LabelsWithin 191 rd.labels) {a : Answer}
    (htype : a.aType = rd.type) (htext : a.Texted []) (haip : a.aip = filled 16 []) :
    ∃ front x t a' i n, rd.bytes = front ++ [x] ∧
      Lib.Through (dohResponseParserFeed alloc) (Within r) (atRData r a) front t ∧
      dohResponseParserFeed alloc t x = behindAnswer r a' i n ∧ a.SameFixed a' ∧
      rd.DecodedTo a' := by
  cases rd with
  | a addr four =>
      obtain ⟨front, x, t, hsplit, hrun, hlast⟩ := (counted_ipv4 alloc hroom).front four
        (by omega) a
      rw [Lib.gathered_const] at hlast
      have hstart : atRData r a = inAnswer r .responseAnswerIpv4Rdata 0 4 a := if_pos htype
      obtain ⟨b, c, d, e, rfl⟩ := four_bytes four
      refine ⟨front, x, t, _, 4, 4, hsplit, ?_, hlast, ?_, ?_⟩
      · rw [hstart]
        exact hrun
      · exact a.sameFixed_octets [b, c, d, e]
      · exact htext.octets b c d e
  | aaaa addr sixteen =>
      obtain ⟨front, x, t, hsplit, hrun, hlast⟩ := (counted_ipv6 alloc hroom).front sixteen
        (by omega) a
      have hgather := @gathered_aip addr [] 0 a rfl (by simp [sixteen]) haip
      rw [List.nil_append, filled_full sixteen] at hgather
      rw [hgather] at hlast
      have hstart : atRData r a = inAnswer r .responseAnswerIpv6Rdata 0 16 a := by
        have htype : a.aType = ipv6Type := htype
        rw [atRData, if_neg (by rw [htype]; decide), if_pos htype]
      refine ⟨front, x, t, _, 16, 16, hsplit, ?_, hlast, ⟨rfl, rfl, rfl, rfl⟩, rfl⟩
      rw [hstart]
      exact hrun
  | cname name =>
      have hstart : atRData r a
          = inAnswer r .responseAnswerCnameLabelLengthRdata 0 maxCnameLength a := by
        have htype : a.aType = cnameType := htype
        rw [atRData, if_neg (by rw [htype]; decide), if_neg (by rw [htype]; decide), if_pos htype]
      obtain ⟨i', n', hrun⟩ := through_cnameLabels (r := r) alloc hlabels 0
        maxCnameLength a
      cases hend : name.ending with
      | root =>
          refine ⟨name.labels.flatMap labelBytes, 0, _, a, i', n', ?_, hstart ▸ hrun, ?_,
            ⟨rfl, rfl, rfl, rfl⟩, trivial⟩
          · rw [RData.bytes, DnsName.bytes, hend]
            rfl
          · rw [← nextAnswer_inAnswer]
            rfl
      | pointer hi lo marked =>
          obtain ⟨hhi, hlo⟩ := feed_cnamePointer (r := r) alloc marked lo i' n' a
          have hhiRun := Lib.Through.single hrun.last
            (hhi ▸ inAnswer_within (by simp) : Within r (dohResponseParserFeed alloc _ hi))
          rw [hhi] at hhiRun
          refine ⟨name.labels.flatMap labelBytes ++ [hi], lo, _, a, 0, 2, ?_,
            hstart ▸ hrun.append hhiRun, hlo, ⟨rfl, rfl, rfl, rfl⟩, trivial⟩
          rw [RData.bytes, DnsName.bytes, hend]
          simp [NameEnd.bytes]

/-- The answer holds what the record says, its name apart. -/
def Record.AnsweredBy (rec : Record) (a : Answer) : Prop :=
  a.aType = rec.rdata.type ∧ a.aClass = rec.aClass ∧ a.aTtl = rec.ttl ∧
    a.aRdLength = rec.rdLength ∧ rec.rdata.DecodedTo a

/-- The labels that the parser reads as such. -/
def Record.Readable (rec : Record) : Prop :=
  LabelsWithin 191 rec.name.labels ∧ LabelsWithin 191 rec.rdata.labels

/-- A whole record, up to the byte that moves the index. -/
theorem front_record {rec : Record} (hread : rec.Readable) (i n : Nat) :
    ∃ front x t a i' n', rec.bytes = front ++ [x] ∧
      Lib.Through (dohResponseParserFeed alloc) (Within r)
        (inAnswer r .responseAnswerNameLabelLength i n .zero) front t ∧
      dohResponseParserFeed alloc t x = behindAnswer r a i' n' ∧ rec.AnsweredBy a := by
  obtain ⟨a, ha, hname⟩ := through_name alloc hroom hread.1 i n
    (show Answer.zero.OnlyName from rfl)
  obtain ⟨front, x, t, hsplit, hrun, hlast⟩ := front_fixed alloc hroom rec a
  let fixed : Answer := { a with aType := rec.rdata.type, aClass := rec.aClass, aTtl := rec.ttl,
                                 aRdLength := rec.rdLength }
  obtain ⟨hdata, hlen, haip⟩ := ha.data
  have htext : fixed.Texted [] := by
    refine ⟨?_, ?_⟩
    · rw [filled_nil]
      exact hdata
    · show a.aRdataLength.toNat = _
      rw [hlen]
      rfl
  have haip : fixed.aip = filled 16 [] := by
    rw [filled_nil]
    exact haip
  obtain ⟨front', x', t', a', i', n', hsplit', hrun', hlast', hsame, hdecoded⟩ :=
    front_rdata alloc hroom hread.2 (show fixed.aType = rec.rdata.type from rfl) htext haip
  have hstep := Lib.Through.single hrun.last (hlast ▸ hrun'.start)
  rw [hlast] at hstep
  refine ⟨rec.name.bytes ++ front ++ [x] ++ front', x', t', a', i', n', ?_,
    ((hname.append hrun).append hstep).append hrun', hlast', hsame.1, hsame.2.1, hsame.2.2.1,
    hsame.2.2.2, hdecoded⟩
  rw [Record.bytes, hsplit', List.append_assoc rec.name.bytes, hsplit]
  simp

end

/-! ## All records -/

/-- The response with some answers complete and room for others. -/
def answered (h : DnsHeader) (q : DnsQuestion) (complete : List Answer) (left : Nat) :
    DohResponse where
  header := h
  question := q
  answers := some (complete ++ List.replicate left .zero)
  answerIndex := complete.length.toUInt16

section
variable {h : DnsHeader} {q : DnsQuestion} {complete : List Answer} {left : Nat}

theorem answered_index (hcount : complete.length + left = h.ancount.toNat) :
    (answered h q complete left).answerIndex.toNat = complete.length := by
  have hlt := h.ancount.toNat_lt
  exact UInt16.toNat_ofNat_of_lt (show _ < 65536 by omega)

theorem answered_room (hcount : complete.length + (left + 1) = h.ancount.toNat) :
    (answered h q complete (left + 1)).Room := by
  refine ⟨_, rfl, ?_⟩
  rw [answered_index hcount]
  simp

theorem answered_put (hcount : complete.length + (left + 1) = h.ancount.toNat) (a : Answer) :
    ((answered h q complete (left + 1)).put a).advance = answered h q (complete ++ [a]) left := by
  simp only [DohResponse.put, DohResponse.advance, answered_index hcount]
  simp [answered, List.set_append_right, List.replicate_succ]

theorem answered_put_zero (hcount : complete.length + (left + 1) = h.ancount.toNat) :
    (answered h q complete (left + 1)).put .zero = answered h q complete (left + 1) := by
  simp only [DohResponse.put, answered_index hcount]
  simp [answered, List.set_append_right, List.replicate_succ]

theorem answered_nextState (hcount : complete.length + (left + 1) = h.ancount.toNat) :
    (answered h q complete (left + 1)).nextState
      = if left = 0 then .dohResponseDone else .responseAnswerNameLabelLength := by
  have hlt := h.ancount.toNat_lt
  have hidx : (complete.length.toUInt16 + 1 = h.ancount) ↔ left = 0 := by
    rw [← UInt16.toNat_inj]
    have hsmall : complete.length.toUInt16.toNat = complete.length :=
      UInt16.toNat_ofNat_of_lt (show _ < 65536 by omega)
    simp only [UInt16.toNat_add, hsmall, UInt16.reduceToNat]
    omega
  by_cases hleft : left = 0
  · rw [if_pos hleft]
    exact if_pos (hidx.mpr hleft)
  · rw [if_neg hleft]
    exact if_neg fun he => hleft (hidx.mp he)

/-- The parser at the start of a record. -/
def atRecord (r : DohResponse) (i n : Nat) : DohResponseParser where
  response := r
  state := .responseAnswerNameLabelLength
  i := i
  n := n

/-- A record read from its start: the index stays until its last byte, which
leads to the start of the next, or to the end. -/
theorem front_atRecord {rec : Record} (hread : rec.Readable)
    (hcount : complete.length + (left + 1) = h.ancount.toNat) (i n : Nat) :
    ∃ front x t a i' n', rec.bytes = front ++ [x] ∧
      Lib.Through (dohResponseParserFeed alloc) (Within (answered h q complete (left + 1)))
        (atRecord (answered h q complete (left + 1)) i n) front t ∧
      dohResponseParserFeed alloc t x
        = { atRecord (answered h q (complete ++ [a]) left) i' n' with
            state := if left = 0 then .dohResponseDone else .responseAnswerNameLabelLength } ∧
      rec.AnsweredBy a := by
  obtain ⟨front, x, t, a, i', n', hsplit, hrun, hlast, ha⟩ :=
    front_record alloc (answered_room (q := q) hcount) hread i n
  refine ⟨front, x, t, a, i', n', hsplit, ?_, ?_, ha⟩
  · rw [inAnswer, answered_put_zero hcount] at hrun
    exact hrun
  · rw [hlast, behindAnswer, answered_put hcount, answered_nextState hcount]
    rfl

/-- Records and answers, in order. -/
def AllAnswered (rs : List Record) (as : List Answer) : Prop :=
  as.length = rs.length ∧
    ∀ (k : Nat) (rec : Record) (a : Answer), rs[k]? = some rec → as[k]? = some a →
      rec.AnsweredBy a

theorem AllAnswered.cons {rec : Record} {a : Answer} {rs : List Record} {as : List Answer}
    (ha : rec.AnsweredBy a) (h : AllAnswered rs as) : AllAnswered (rec :: rs) (a :: as) := by
  refine ⟨by simp [h.1], ?_⟩
  intro k rec' a' hrec ha'
  cases k with
  | zero =>
      cases hrec
      cases ha'
      exact ha
  | succ k => exact h.2 k rec' a' hrec ha'

/-- All records of a message, up to its last byte. -/
theorem front_records {rs : List Record} (hread : ∀ rec ∈ rs, rec.Readable) :
    ∀ (complete : List Answer) (i n : Nat), rs ≠ [] →
      complete.length + rs.length = h.ancount.toNat →
      ∃ front x t as i' n', rs.flatMap Record.bytes = front ++ [x] ∧
        Lib.Through (dohResponseParserFeed alloc) (fun p => ¬ p.Stopped)
          (atRecord (answered h q complete rs.length) i n) front t ∧
        dohResponseParserFeed alloc t x
          = { atRecord (answered h q (complete ++ as) 0) i' n' with state := .dohResponseDone } ∧
        AllAnswered rs as := by
  induction rs with
  | nil => exact fun _ _ _ hne => absurd rfl hne
  | cons rec rs ih =>
      intro complete i n _ hcount
      rw [List.length_cons] at hcount
      obtain ⟨front, x, t, a, i', n', hsplit, hrun, hlast, ha⟩ :=
        front_atRecord (q := q) alloc (hread rec (by simp)) hcount i n
      have hrun := hrun.mono fun _ h => h.1
      cases hrs : rs with
      | nil =>
          subst hrs
          refine ⟨front, x, t, [a], i', n', by simp [hsplit], hrun, hlast, ?_⟩
          exact .cons ha ⟨rfl, by simp⟩
      | cons rec' rs' =>
          have hne : rs ≠ [] := by simp [hrs]
          obtain ⟨front', x', t', as, i'', n'', hsplit', hrun', hlast', has⟩ :=
            ih (fun rec hr => hread rec (by simp [hr])) (complete ++ [a]) i' n' hne
              (by simp; omega)
          rw [← hrs]
          have hlast : dohResponseParserFeed alloc t x
              = atRecord (answered h q (complete ++ [a]) rs.length) i' n' := by
            rw [hlast, if_neg (by simp [hrs])]
            rfl
          have hstep : Lib.Through (dohResponseParserFeed alloc) (fun p => ¬ p.Stopped) t [x]
              (dohResponseParserFeed alloc t x) :=
            .single hrun.last (by rw [hlast]; exact hrun'.start)
          rw [hlast] at hstep
          refine ⟨front ++ [x] ++ front', x', t', a :: as, i'', n'', ?_,
            (hrun.append hstep).append hrun', ?_, .cons ha has⟩
          · rw [List.flatMap_cons, hsplit, hsplit']
            simp
          · rw [hlast']
            simp

end

end

/-! ## Well-formed messages -/

/-- The labels and lengths of the DNS format, and an RDLENGTH that is the
length of the data. -/
structure Record.WellFormed (rec : Record) : Prop where
  name_labels : LabelsWithin 63 rec.name.labels
  name_length : rec.name.bytes.length ≤ 255
  data_labels : LabelsWithin 63 rec.rdata.labels
  data_length : rec.rdata.bytes.length ≤ 255
  rdLength : rec.rdLength.toNat = rec.rdata.bytes.length

theorem Record.WellFormed.readable {rec : Record} (h : rec.WellFormed) : rec.Readable :=
  ⟨h.name_labels.mono (by omega), h.data_labels.mono (by omega)⟩

/-- A response with one question and at least one answer. -/
structure Message.WellFormed (m : Message) : Prop where
  flags : m.header.flags.InRange
  qdcount : m.header.qdcount = 1
  ancount : m.header.ancount.toNat = m.answers.length
  answered : m.answers ≠ []
  question_labels : LabelsWithin 63 m.question.labels
  question_length : (m.question.labels.flatMap labelBytes).length + 1 ≤ 255
  records : ∀ rec ∈ m.answers, rec.WellFormed

/-- The question as the parser keeps it: the name in text, a dot behind every
label, in an array of zeros. -/
def Question.decoded (q : Question) : DnsQuestion where
  qnameSize := (dottedLabels q.labels).length.toUInt8
  qname := filled maxQuestionQnameLength (dottedLabels q.labels)
  qtype := q.qtype
  qclass := q.qclass

theorem dottedLabels_length (labels : List Bytes) :
    (dottedLabels labels).length = (labels.flatMap labelBytes).length := by
  induction labels with
  | nil => rfl
  | cons l labels ih =>
      simp only [dottedLabels, List.flatMap_cons, List.length_append, labelBytes] at ih ⊢
      rw [ih]
      simp

theorem pushAll_filled {cs : Bytes} : ∀ {text : Bytes} {q : DnsQuestion},
    text.length + cs.length < 255 → q.qname = filled maxQuestionQnameLength text →
    q.qnameSize = text.length.toUInt8 →
    q.pushAll cs = { q with
      qname := filled maxQuestionQnameLength (text ++ cs)
      qnameSize := (text ++ cs).length.toUInt8 } := by
  induction cs with
  | nil =>
      intro text q _ hname hsize
      rw [List.append_nil, ← hname, ← hsize]
      rfl
  | cons c cs ih =>
      intro text q hlen hname hsize
      rw [List.length_cons] at hlen
      have hidx : q.qnameSize.toNat = text.length := by
        rw [hsize, byte_toNat (by omega)]
      have hset : (q.push c).qname = filled maxQuestionQnameLength (text ++ [c]) := by
        show q.qname.set q.qnameSize.toNat c = _
        rw [hname]
        exact set_filled c hidx (by simp [maxQuestionQnameLength]; omega)
      have hnext : (q.push c).qnameSize = (text ++ [c]).length.toUInt8 := by
        show q.qnameSize + 1 = _
        rw [hsize]
        simp
      have hrest := @ih (text ++ [c]) (q.push c) (by simp; omega) hset hnext
      show (q.push c).pushAll cs = _
      rw [hrest]
      simp [DnsQuestion.push]

/-- The question of a fresh parser. -/
theorem pushAll_zero {q : Question} (hlen : (q.labels.flatMap labelBytes).length + 1 ≤ 255) :
    { DohResponse.zero.question.pushAll (dottedLabels q.labels) with
        qtype := q.qtype, qclass := q.qclass } = q.decoded := by
  have hpush := @pushAll_filled (dottedLabels q.labels) [] DohResponse.zero.question
    (by rw [List.length_nil, dottedLabels_length]; omega)
    (by simp [DohResponse.zero, filled_nil]) rfl
  rw [hpush]
  rfl

/-- The answers a header promises. -/
theorem Message.ancount_ne_zero {m : Message}
    (hlen : m.header.ancount.toNat = m.answers.length) (hne : m.answers ≠ []) :
    m.header.ancount ≠ 0 := by
  intro h0
  rw [h0] at hlen
  exact hne (List.length_eq_zero_iff.mp hlen.symm)

/-- The parser's way through the header and the question of any message it can
read, up to the byte that ends the question. -/
theorem front_opening {m : Message} (hflags : m.header.flags.InRange)
    (hcount : m.header.ancount ≠ 0) (hlabels : LabelsWithin 255 m.question.labels) :
    ∃ front x t, m.header.bytes ++ m.question.bytes = front ++ [x] ∧
      Lib.Through (dohResponseParserFeed true) Before dohResponseParserInit front t ∧
      dohResponseParserFeed true t x = atRecord (answered m.header
        { DohResponse.zero.question.pushAll (dottedLabels m.question.labels) with
            qtype := m.question.qtype, qclass := m.question.qclass } []
        m.header.ancount.toNat) 0 2 := by
  obtain ⟨front, x, t, hsplit, hrun, hlast⟩ := front_question true
    (inHeader .responseQuestionQnameLabelLength 1 m.header
      (some (List.replicate m.header.ancount.toNat .zero))).response hlabels 1 2
    DohResponse.zero.question
  refine ⟨m.header.bytes ++ front, x, t, ?_, ?_, hlast⟩
  · rw [hsplit, List.append_assoc]
  · exact (through_header hflags hcount).append hrun

/-- Every well-formed response is read to its last byte and decoded. -/
theorem response_decoded {m : Message} (h : m.WellFormed) :
    Lib.Finishes (dohResponseParserFeed true) DohResponseParser.Stopped dohResponseParserInit
      m.bytes ∧
    ∃ p, m.bytes.foldl (dohResponseParserFeed true) dohResponseParserInit = p ∧
      p.state = .dohResponseDone ∧ p.response.header = m.header ∧
      p.response.question = m.question.decoded ∧
      ∃ as, p.response.answers = some as ∧ AllAnswered m.answers as := by
  have hcount := Message.ancount_ne_zero h.ancount h.answered
  obtain ⟨front, x, t, hsplit, hrun, hlast⟩ :=
    front_opening h.flags hcount (h.question_labels.mono (by omega))
  rw [pushAll_zero h.question_length, h.ancount] at hlast
  obtain ⟨front', x', t', as, i', n', hsplit', hrun', hlast', has⟩ :=
    front_records (h := m.header) (q := m.question.decoded) true
      (fun rec hr => (h.records rec hr).readable) [] 0 2 h.answered (by simp [h.ancount])
  have hstep : Lib.Through (dohResponseParserFeed true) (fun p => ¬ p.Stopped) t [x]
      (dohResponseParserFeed true t x) :=
    .single hrun.last.1 (by rw [hlast]; exact hrun'.start)
  rw [hlast] at hstep
  have hall := ((hrun.mono fun _ h => h.1).append hstep).append hrun'
  have hbytes : m.bytes = front ++ [x] ++ front' ++ [x'] := by
    rw [Message.bytes, hsplit, hsplit', ← List.append_assoc]
  constructor
  · rw [hbytes]
    exact hall.finishes (fun _ h => h) (by rw [hlast']; exact .inl rfl)
  · refine ⟨_, rfl, ?_⟩
    rw [hbytes, List.foldl_append, hall.foldl, List.foldl_cons, List.foldl_nil, hlast']
    exact ⟨rfl, rfl, rfl, as, by simp [atRecord, answered], has⟩

theorem pointer_marked : (0xC0 : UInt8) >>> 6 = 3 := rfl

theorem address_four : ([1, 2, 3, 4] : Bytes).length = 4 := rfl

/-- `a` is an alias of a name that the message has no address for, and its own
address is 1.2.3.4. -/
def aliasedResponse : Message where
  header :=
    { id := 7
      flags := { qr := 1, opcode := 0, aa := 0, tc := 0, rd := 1, ra := 1, z := 0, rcode := 0 }
      qdcount := 1
      ancount := 2
      nscount := 0
      arcount := 0 }
  question := { labels := [ascii "a"], qtype := 1, qclass := 1 }
  answers :=
    [{ name := { labels := [], ending := .pointer 0xC0 0x0C pointer_marked }
       aClass := 1
       ttl := 300
       rdLength := 4
       rdata := .cname { labels := [ascii "b"], ending := .pointer 0xC0 0x0C pointer_marked } },
     { name := { labels := [ascii "a"], ending := .root }
       aClass := 1
       ttl := 60
       rdLength := 4
       rdata := .a [1, 2, 3, 4] address_four }]

theorem aliasedResponse_wellFormed : aliasedResponse.WellFormed where
  flags := by unfold DnsFlags.InRange; decide
  qdcount := by decide
  ancount := by decide
  answered := by simp [aliasedResponse]
  question_labels := by unfold LabelsWithin; decide
  question_length := by decide
  records := by
    intro rec hrec
    simp only [aliasedResponse, List.mem_cons, List.not_mem_nil, or_false] at hrec
    rcases hrec with rfl | rfl <;> refine ⟨?_, ?_, ?_, ?_, ?_⟩ <;> try unfold LabelsWithin
    all_goals decide

theorem response_decoded_aliased :
    ∃ p, aliasedResponse.bytes.foldl (dohResponseParserFeed true) dohResponseParserInit = p ∧
      p.state = .dohResponseDone := by
  obtain ⟨_, p, hp, hstate, _⟩ := response_decoded aliasedResponse_wellFormed
  exact ⟨p, hp, hstate⟩

end HttpdProxy
