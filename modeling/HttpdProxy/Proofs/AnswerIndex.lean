import HttpdProxy.Parsers.Doh
import HttpdProxy.Lib.Feeding

/-!
# The answers of a DNS reply and their index

Once ANCOUNT is read and the answers are allocated, four handlers can end a
record and move `answer_index` on, and a dozen others store into
`answers[answer_index]`. None of them touches how many answers there are, and
the comparison with ANCOUNT behind each increment keeps the index inside: it
counts the records that have ended, and reaches ANCOUNT in the done state
alone.
-/

namespace HttpdProxy

namespace DohResponseParser

/-! ## Records that end -/

/-- Whether a byte ends an answer record: it is the last one of an address, or
of the name in the data of a CNAME. -/
def endsRecord (p : DohResponseParser) (c : UInt8) : Bool :=
  match p.state with
  | .responseAnswerIpv4Rdata => p.i + 1 == 4
  | .responseAnswerIpv6Rdata => p.i + 1 == 16
  | .responseAnswerCnameLabelLengthRdata => c == 0
  | .responseAnswerCnamePointerRdata => true
  | _ => false

/-- The records that a text ends, with `calloc` succeeding. -/
def recordsEnded (p : DohResponseParser) : Bytes → Nat
  | [] => 0
  | c :: text =>
      (if p.endsRecord c then 1 else 0) + recordsEnded (dohResponseParserFeed true p c) text

theorem recordsEnded_append (p : DohResponseParser) (text : Bytes) (c : UInt8) :
    p.recordsEnded (text ++ [c])
      = p.recordsEnded text
        + if (text.foldl (dohResponseParserFeed true) p).endsRecord c then 1 else 0 := by
  induction text generalizing p with
  | nil =>
      rw [List.nil_append, List.foldl_nil, recordsEnded, recordsEnded, recordsEnded, Nat.add_comm]
  | cons b text ih =>
      rw [List.cons_append, recordsEnded, ih, recordsEnded, List.foldl_cons, Nat.add_assoc]

/-! ## What the answers are accounted by -/

/-- From `response_header_nscount` on. -/
def PastAncount (s : DohResponseState) : Prop :=
  s ∉ [DohResponseState.responseHeaderId, .responseHeaderFlags, .responseHeaderQdcount,
    .responseHeaderAncount, .dohNoAnswers, .responseMemAllocError]

instance : DecidablePred PastAncount := fun s =>
  inferInstanceAs (Decidable (s ∉ [DohResponseState.responseHeaderId, .responseHeaderFlags,
    .responseHeaderQdcount, .responseHeaderAncount, .dohNoAnswers, .responseMemAllocError]))

/-- How many answers there are, how many were announced and which one is
read. -/
def accounts (p : DohResponseParser) : Option Nat × UInt16 × UInt16 :=
  (p.response.answers.map List.length, p.header.ancount, p.response.answerIndex)

@[simp] theorem accounts_goto (p : DohResponseParser) (s : DohResponseState) (i n : Nat) :
    (p.goto s i n).accounts = p.accounts := rfl

@[simp] theorem accounts_fail (p : DohResponseParser) : p.fail.accounts = p.accounts := rfl

@[simp] theorem accounts_modifyAnswer (p : DohResponseParser) (f : Answer → Answer) :
    (p.modifyAnswer f).accounts = p.accounts := by
  unfold accounts modifyAnswer
  cases p.response.answers with
  | none => rfl
  | some as => simp only [Option.map_some, List.length_modify]; rfl

/-- Where the counter stands in the data of a record. -/
def InData (p : DohResponseParser) : Prop :=
  match p.state with
  | .responseAnswerIpv4Rdata => p.i < 4 ∧ p.n = 4
  | .responseAnswerIpv6Rdata => p.i < 16 ∧ p.n = 16
  | .responseAnswerCnamePointerRdata => p.i = 1
  | _ => True

/-- A step that ends no record. -/
structure Carries (p q : DohResponseParser) : Prop where
  accounts : q.accounts = p.accounts
  inData : q.InData
  past : PastAncount q.state
  unfinished : q.state ≠ .dohResponseDone

/-- The states whose handlers count nothing that ends a record. -/
def Plain (s : DohResponseState) : Prop :=
  PastAncount s ∧ s ∉ [DohResponseState.dohResponseDone, .responseAnswerIpv4Rdata,
    .responseAnswerIpv6Rdata, .responseAnswerCnamePointerRdata]

instance : DecidablePred Plain := fun s =>
  inferInstanceAs (Decidable (PastAncount s ∧ s ∉ [DohResponseState.dohResponseDone,
    .responseAnswerIpv4Rdata, .responseAnswerIpv6Rdata, .responseAnswerCnamePointerRdata]))

theorem carries_to {p q : DohResponseParser} (s : DohResponseState) (hs : q.state = s)
    (hopen : PastAncount s ∧ s ≠ .dohResponseDone) (haccounts : q.accounts = p.accounts)
    (hdata : q.InData) : Carries p q := by
  subst hs
  exact ⟨haccounts, hdata, hopen.1, hopen.2⟩

theorem carries_of_plain {p q : DohResponseParser} (s : DohResponseState) (hs : q.state = s)
    (hplain : Plain s) (haccounts : q.accounts = p.accounts) : Carries p q := by
  subst hs
  obtain ⟨hpast, hnot⟩ := hplain
  simp only [List.mem_cons, List.not_mem_nil, or_false, not_or] at hnot
  obtain ⟨hdone, hipv4, hipv6, hpointer⟩ := hnot
  refine carries_to q.state rfl ⟨hpast, hdone⟩ haccounts ?_
  unfold InData
  split
  · next h => exact absurd h hipv4
  · next h => exact absurd h hipv6
  · next h => exact absurd h hpointer
  · trivial

theorem carries_fail {p q : DohResponseParser} (h : q.accounts = p.accounts) :
    Carries p q.fail :=
  carries_of_plain .dohResponseError rfl (by decide) h

theorem carries_field16 {p first second : DohResponseParser} {s : DohResponseState}
    (hs : Plain s) (hfirst : first.accounts = p.accounts) (hsecond : Carries p second) :
    Carries p (field16 p s first second) := by
  unfold field16
  split
  · exact carries_of_plain s rfl hs hfirst
  · exact hsecond
  · exact carries_fail rfl

/-! ## The handlers -/

section
variable (p : DohResponseParser) (c : UInt8)

theorem rHeaderNscount_carries : Carries p (rHeaderNscount p c) :=
  carries_field16 (by decide) rfl (carries_of_plain .responseHeaderArcount rfl (by decide) rfl)

theorem rHeaderArcount_carries : Carries p (rHeaderArcount p c) :=
  carries_field16 (by decide) rfl
    (carries_of_plain .responseQuestionQnameLabelLength rfl (by decide) rfl)

theorem rQuestionQnameLabelLength_carries : Carries p (rQuestionQnameLabelLength p c) := by
  unfold rQuestionQnameLabelLength
  split
  · exact carries_of_plain .responseQuestionQtype rfl (by decide) rfl
  · exact carries_of_plain .responseQuestionQnameLabel rfl (by decide) rfl

theorem rQuestionQnameLabel_carries : Carries p (rQuestionQnameLabel p c) := by
  unfold rQuestionQnameLabel
  split
  · exact carries_fail rfl
  · dsimp only
    split
    · exact carries_of_plain .responseQuestionQnameLabelLength rfl (by decide) rfl
    · exact carries_of_plain .responseQuestionQnameLabel rfl (by decide) rfl

theorem rQuestionQtype_carries : Carries p (rQuestionQtype p c) :=
  carries_field16 (by decide) rfl (carries_of_plain .responseQuestionQclass rfl (by decide) rfl)

theorem rQuestionQclass_carries : Carries p (rQuestionQclass p c) :=
  carries_field16 (by decide) rfl
    (carries_of_plain .responseAnswerNameLabelLength rfl (by decide) rfl)

theorem rAnswerNameLabelLength_carries : Carries p (rAnswerNameLabelLength p c) := by
  unfold rAnswerNameLabelLength
  split
  · exact carries_of_plain .responseAnswerType rfl (by decide) rfl
  · split
    · exact carries_of_plain .responseAnswerNamePointer rfl (by decide)
        (accounts_modifyAnswer p _)
    · exact carries_of_plain .responseAnswerNameLabel rfl (by decide) rfl

theorem rAnswerNameLabel_carries : Carries p (rAnswerNameLabel p c) := by
  have hpush : ({ p.modifyAnswer (Answer.pushName c) with i := p.i + 1 }).accounts = p.accounts :=
    accounts_modifyAnswer p _
  unfold rAnswerNameLabel
  split
  · exact carries_fail rfl
  · dsimp only
    split
    · refine carries_of_plain .responseAnswerNameLabelLength rfl (by decide) ?_
      exact (accounts_modifyAnswer _ _).trans hpush
    · exact carries_of_plain .responseAnswerNameLabel rfl (by decide) hpush

theorem rAnswerNamePointer_carries : Carries p (rAnswerNamePointer p c) := by
  unfold rAnswerNamePointer
  split
  · exact carries_of_plain .responseAnswerType rfl (by decide) (accounts_modifyAnswer p _)
  · exact carries_fail rfl

theorem rAnswerType_carries : Carries p (rAnswerType p c) :=
  carries_field16 (by decide) (accounts_modifyAnswer p _)
    (carries_of_plain .responseAnswerClass rfl (by decide) (accounts_modifyAnswer p _))

theorem rAnswerClass_carries : Carries p (rAnswerClass p c) :=
  carries_field16 (by decide) (accounts_modifyAnswer p _)
    (carries_of_plain .responseAnswerTtl rfl (by decide) (accounts_modifyAnswer p _))

theorem rAnswerTtl_carries : Carries p (rAnswerTtl p c) := by
  unfold rAnswerTtl
  split
  · exact carries_of_plain .responseAnswerTtl rfl (by decide) (accounts_modifyAnswer p _)
  · exact carries_of_plain .responseAnswerTtl rfl (by decide) (accounts_modifyAnswer p _)
  · exact carries_of_plain .responseAnswerTtl rfl (by decide) (accounts_modifyAnswer p _)
  · exact carries_of_plain .responseAnswerRdlength rfl (by decide) (accounts_modifyAnswer p _)
  · exact carries_fail rfl

/-- The type of the record decides what its data is counted against. -/
theorem rAnswerRdlength_carries : Carries p (rAnswerRdlength p c) := by
  unfold rAnswerRdlength
  refine carries_field16 (by decide) (accounts_modifyAnswer p _) ?_
  dsimp only
  split
  · exact carries_to .responseAnswerIpv4Rdata rfl (by decide) (accounts_modifyAnswer p _)
      ⟨Nat.zero_lt_succ 3, rfl⟩
  · split
    · exact carries_to .responseAnswerIpv6Rdata rfl (by decide) (accounts_modifyAnswer p _)
        ⟨Nat.zero_lt_succ 15, rfl⟩
    · split
      · exact carries_of_plain .responseAnswerCnameLabelLengthRdata rfl (by decide)
          (accounts_modifyAnswer p _)
      · exact carries_of_plain .dohResponseError rfl (by decide) (accounts_modifyAnswer p _)

theorem rAnswerCnameLabelRdata_carries : Carries p (rAnswerCnameLabelRdata p c) := by
  unfold rAnswerCnameLabelRdata
  split
  · exact carries_fail rfl
  · dsimp only
    split
    · exact carries_of_plain .responseAnswerCnameLabelLengthRdata rfl (by decide) rfl
    · exact carries_of_plain .responseAnswerCnameLabelRdata rfl (by decide) rfl

variable {p c}

/-- A byte of an IPv4 address, which the last of them ends with the record. -/
theorem rAnswerIpv4Rdata_cases (hi : p.i < 4) (hn : p.n = 4) :
    (p.i + 1 ≠ 4 ∧ Carries p (rAnswerIpv4Rdata p c)) ∨
      (p.i + 1 = 4 ∧ ∃ r : DohResponseParser, r.accounts = p.accounts ∧
        rAnswerIpv4Rdata p c = r.nextAnswer) := by
  have hpush : ({ p.modifyAnswer (Answer.pushDecimal c) with i := p.i + 1 }).accounts
      = p.accounts := accounts_modifyAnswer p _
  unfold rAnswerIpv4Rdata
  rw [if_neg (by omega)]
  dsimp only
  have hlimit : (p.modifyAnswer (Answer.pushDecimal c)).n = 4 := hn
  rw [hlimit]
  by_cases hlast : p.i + 1 = 4
  · rw [if_pos hlast]
    refine .inr ⟨hlast, _, ?_, rfl⟩
    exact (accounts_modifyAnswer _ _).trans hpush
  · rw [if_neg hlast]
    have hnext : p.i + 1 < 4 := by omega
    exact .inl ⟨hlast, carries_to .responseAnswerIpv4Rdata rfl (by decide) hpush ⟨hnext, rfl⟩⟩

theorem rAnswerIpv6Rdata_cases (hi : p.i < 16) (hn : p.n = 16) :
    (p.i + 1 ≠ 16 ∧ Carries p (rAnswerIpv6Rdata p c)) ∨
      (p.i + 1 = 16 ∧ ∃ r : DohResponseParser, r.accounts = p.accounts ∧
        rAnswerIpv6Rdata p c = r.nextAnswer) := by
  have hpush : ({ p.modifyAnswer fun a => { a with aip := a.aip.set p.i c } with
      i := p.i + 1 }).accounts = p.accounts := accounts_modifyAnswer p _
  unfold rAnswerIpv6Rdata
  rw [if_neg (by omega)]
  dsimp only
  have hlimit : (p.modifyAnswer fun a => { a with aip := a.aip.set p.i c }).n = 16 := hn
  rw [hlimit]
  by_cases hlast : p.i + 1 = 16
  · rw [if_pos hlast]
    refine .inr ⟨hlast, _, ?_, rfl⟩
    exact (accounts_modifyAnswer _ _).trans hpush
  · rw [if_neg hlast]
    have hnext : p.i + 1 < 16 := by omega
    exact .inl ⟨hlast, carries_to .responseAnswerIpv6Rdata rfl (by decide) hpush ⟨hnext, rfl⟩⟩

theorem rAnswerCnameLabelLengthRdata_cases :
    (c ≠ 0 ∧ Carries p (rAnswerCnameLabelLengthRdata p c)) ∨
      (c = 0 ∧ rAnswerCnameLabelLengthRdata p c = p.nextAnswer) := by
  unfold rAnswerCnameLabelLengthRdata
  by_cases hc : c = 0
  · exact .inr ⟨hc, if_pos hc⟩
  · rw [if_neg hc]
    refine .inl ⟨hc, ?_⟩
    split
    · exact carries_to .responseAnswerCnamePointerRdata rfl (by decide) rfl rfl
    · exact carries_of_plain .responseAnswerCnameLabelRdata rfl (by decide) rfl

/-- What a step past ANCOUNT does: it carries on, or it ends a record. -/
theorem feed_past (hpast : PastAncount p.state) (hopen : p.state ≠ .dohResponseDone)
    (hdata : p.InData) :
    (p.endsRecord c = false ∧ Carries p (dohResponseParserFeed true p c)) ∨
      (p.endsRecord c = true ∧ ∃ r : DohResponseParser, r.accounts = p.accounts ∧
        dohResponseParserFeed true p c = r.nextAnswer) := by
  unfold dohResponseParserFeed
  cases hs : p.state with
  | responseHeaderNscount => exact .inl ⟨by rw [endsRecord, hs], rHeaderNscount_carries p c⟩
  | responseHeaderArcount => exact .inl ⟨by rw [endsRecord, hs], rHeaderArcount_carries p c⟩
  | responseQuestionQnameLabelLength =>
      exact .inl ⟨by rw [endsRecord, hs], rQuestionQnameLabelLength_carries p c⟩
  | responseQuestionQnameLabel =>
      exact .inl ⟨by rw [endsRecord, hs], rQuestionQnameLabel_carries p c⟩
  | responseQuestionQtype => exact .inl ⟨by rw [endsRecord, hs], rQuestionQtype_carries p c⟩
  | responseQuestionQclass => exact .inl ⟨by rw [endsRecord, hs], rQuestionQclass_carries p c⟩
  | responseAnswerNameLabelLength =>
      exact .inl ⟨by rw [endsRecord, hs], rAnswerNameLabelLength_carries p c⟩
  | responseAnswerNameLabel => exact .inl ⟨by rw [endsRecord, hs], rAnswerNameLabel_carries p c⟩
  | responseAnswerNamePointer =>
      exact .inl ⟨by rw [endsRecord, hs], rAnswerNamePointer_carries p c⟩
  | responseAnswerType => exact .inl ⟨by rw [endsRecord, hs], rAnswerType_carries p c⟩
  | responseAnswerClass => exact .inl ⟨by rw [endsRecord, hs], rAnswerClass_carries p c⟩
  | responseAnswerTtl => exact .inl ⟨by rw [endsRecord, hs], rAnswerTtl_carries p c⟩
  | responseAnswerRdlength => exact .inl ⟨by rw [endsRecord, hs], rAnswerRdlength_carries p c⟩
  | responseAnswerCnameLabelRdata =>
      exact .inl ⟨by rw [endsRecord, hs], rAnswerCnameLabelRdata_carries p c⟩
  | responseAnswerIpv4Rdata =>
      rw [InData, hs] at hdata
      rw [endsRecord, hs]
      dsimp only
      rw [beq_eq_false_iff_ne, beq_iff_eq]
      exact rAnswerIpv4Rdata_cases hdata.1 hdata.2
  | responseAnswerIpv6Rdata =>
      rw [InData, hs] at hdata
      rw [endsRecord, hs]
      dsimp only
      rw [beq_eq_false_iff_ne, beq_iff_eq]
      exact rAnswerIpv6Rdata_cases hdata.1 hdata.2
  | responseAnswerCnameLabelLengthRdata =>
      rw [endsRecord, hs]
      dsimp only
      rw [beq_eq_false_iff_ne, beq_iff_eq]
      refine rAnswerCnameLabelLengthRdata_cases.imp_right ?_
      intro ⟨hc, hnext⟩
      exact ⟨hc, p, rfl, hnext⟩
  | responseAnswerCnamePointerRdata =>
      rw [InData, hs] at hdata
      dsimp only at hdata
      refine .inr ⟨by rw [endsRecord, hs], { p with i := 0 }, rfl, ?_⟩
      dsimp only
      rw [rAnswerCnamePointerRdata, hdata]
      rfl
  | dohResponseError =>
      refine .inl ⟨by rw [endsRecord, hs], ?_⟩
      exact carries_of_plain .dohResponseError hs (by decide) rfl
  | dohResponseDone => exact absurd hs hopen
  | _ =>
      rw [hs] at hpast
      exact absurd hpast (by decide)

end

/-! ## Every reply -/

/-- What holds once `count` answers are allocated, `completed` records having
ended. -/
structure AnswersKept (count : UInt16) (completed : Nat) (p : DohResponseParser) : Prop where
  answers : ∃ as, p.response.answers = some as ∧ as.length = count.toNat
  ancount : p.header.ancount = count
  completed : p.response.answerIndex.toNat = completed
  inside : p.state ≠ .dohResponseDone → p.response.answerIndex.toNat < count.toNat
  done : p.state = .dohResponseDone ↔ p.response.answerIndex = count

theorem AnswersKept.of_accounts {p q : DohResponseParser} {count : UInt16} {completed : Nat}
    (h : AnswersKept count completed p) (hopen : p.state ≠ .dohResponseDone)
    (hcarry : Carries p q) : AnswersKept count completed q := by
  have haccounts := hcarry.accounts
  simp only [accounts, Prod.mk.injEq] at haccounts
  obtain ⟨hlength, hancount, hindex⟩ := haccounts
  obtain ⟨as, has, hlen⟩ := h.answers
  rw [has, Option.map_some, Option.map_eq_some_iff] at hlength
  obtain ⟨bs, hbs, hsame⟩ := hlength
  have hinside := h.inside hopen
  refine ⟨⟨bs, hbs, by rw [hsame, hlen]⟩, by rw [hancount, h.ancount], by rw [hindex, h.completed],
    fun _ => by rw [hindex]; exact hinside, iff_of_false hcarry.unfinished ?_⟩
  rw [hindex]
  intro heq
  rw [heq] at hinside
  exact Nat.lt_irrefl _ hinside

/-- Behind a record the index moves on, and is compared with ANCOUNT. -/
theorem AnswersKept.nextAnswer {p r : DohResponseParser} {count : UInt16} {completed : Nat}
    (h : AnswersKept count completed p) (hopen : p.state ≠ .dohResponseDone)
    (haccounts : r.accounts = p.accounts) : AnswersKept count (completed + 1) r.nextAnswer := by
  simp only [accounts, Prod.mk.injEq] at haccounts
  obtain ⟨hlength, hancount, hindex⟩ := haccounts
  obtain ⟨as, has, hlen⟩ := h.answers
  rw [has, Option.map_some, Option.map_eq_some_iff] at hlength
  obtain ⟨bs, hbs, hsame⟩ := hlength
  have hinside := h.inside hopen
  have hcount := count.toNat_lt
  have hnext : (r.response.answerIndex + 1).toNat = completed + 1 := by
    rw [hindex, UInt16.toNat_add, h.completed]
    rw [h.completed] at hinside
    exact Nat.mod_eq_of_lt (by show completed + 1 < 65536; omega)
  have hanc : r.header.ancount = count := by rw [hancount, h.ancount]
  have hlast : (r.response.answerIndex + 1 = r.header.ancount) ↔ completed + 1 = count.toNat := by
    rw [hanc, ← hnext]
    exact UInt16.toNat_inj.symm
  rw [h.completed] at hinside
  unfold DohResponseParser.nextAnswer
  dsimp only
  split
  · next hend =>
    exact ⟨⟨bs, hbs, by rw [hsame, hlen]⟩, hanc, hnext, fun hne => absurd rfl hne,
      iff_of_true rfl (Eq.trans hend hanc)⟩
  · next hend =>
    change ¬ r.response.answerIndex + 1 = r.header.ancount at hend
    rw [hlast] at hend
    refine ⟨⟨bs, hbs, by rw [hsame, hlen]⟩, hanc, hnext, ?_, ?_⟩
    · intro _
      show (r.response.answerIndex + 1).toNat < count.toNat
      omega
    · refine iff_of_false DohResponseState.noConfusion ?_
      intro heq
      change r.response.answerIndex + 1 = count at heq
      rw [← hanc, hlast] at heq
      exact hend heq

theorem nextAnswer_past (r : DohResponseParser) :
    PastAncount r.nextAnswer.state ∧ r.nextAnswer.InData := by
  have hdone : PastAncount .dohResponseDone := by decide
  have hlabel : PastAncount .responseAnswerNameLabelLength := by decide
  unfold DohResponseParser.nextAnswer
  dsimp only
  split
  · exact ⟨hdone, trivial⟩
  · exact ⟨hlabel, trivial⟩

/-- ANCOUNT, as it stands in the header. -/
def ancountIn (text : Bytes) : UInt16 := hi16 (text.getD 6 0) + (text.getD 7 0).toUInt16

theorem ancountIn_append {text : Bytes} (h : 8 ≤ text.length) (c : UInt8) :
    ancountIn (text ++ [c]) = ancountIn text := by
  have hget : ∀ k, k < 8 → (text ++ [c]).getD k 0 = text.getD k 0 := by
    intro k hk
    rw [List.getD_eq_getElem?_getD, List.getD_eq_getElem?_getD, List.getElem?_append_left (by omega)]
  rw [ancountIn, ancountIn, hget 6 (by omega), hget 7 (by omega)]

/-- Behind ANCOUNT the text has been read up to its value. -/
theorem ancountIn_last {text : Bytes} (h : text.length = 7) (c : UInt8) :
    ancountIn (text ++ [c]) = hi16 (text.getD 6 0) + c.toUInt16 := by
  have hlast : (text ++ [c]).getD text.length 0 = c := by simp
  rw [h] at hlast
  rw [ancountIn, hlast, List.getD_eq_getElem?_getD, List.getElem?_append_left (by omega),
    ← List.getD_eq_getElem?_getD]

/-- Where the fields up to ANCOUNT begin. -/
def Starts (s : DohResponseState) (start : Nat) : Prop :=
  (s, start) ∈ [(DohResponseState.responseHeaderId, 0), (.responseHeaderFlags, 2),
    (.responseHeaderQdcount, 4), (.responseHeaderAncount, 6)]

instance (s : DohResponseState) (start : Nat) : Decidable (Starts s start) :=
  inferInstanceAs (Decidable ((s, start) ∈ [(DohResponseState.responseHeaderId, 0),
    (.responseHeaderFlags, 2), (.responseHeaderQdcount, 4), (.responseHeaderAncount, 6)]))

/-- Where a text has led the parser. -/
inductive Counts (text : Bytes) (p : DohResponseParser) : Prop where
  | early (s : DohResponseState) (start i : Nat) : p.state = s → p.i = i → Starts s start → i ≤ 1 →
      text.length = start + i → p.response.answerIndex = 0 →
      dohResponseParserInit.recordsEnded text = 0 →
      (text.length = 7 → p.header.ancount = hi16 (text.getD 6 0)) → Counts text p
  | none : p.state = .dohNoAnswers → Counts text p
  | kept : 8 ≤ text.length → PastAncount p.state → p.InData →
      AnswersKept (ancountIn text) (dohResponseParserInit.recordsEnded text) p → Counts text p

/-- A field of two bytes of the header. -/
theorem counts_field16 {text : Bytes} {p first second : DohResponseParser} {c : UInt8} {start : Nat}
    {s : DohResponseState} (hs : Starts s start) (hi : p.i ≤ 1) (hlen : text.length = start + p.i)
    (hindex : first.response.answerIndex = 0)
    (hzero : dohResponseParserInit.recordsEnded (text ++ [c]) = 0)
    (hcount : start = 6 → first.header.ancount = hi16 c)
    (hsecond : p.i = 1 → Counts (text ++ [c]) second) :
    Counts (text ++ [c]) (field16 p s first second) := by
  unfold field16
  split
  · next h0 =>
      have hlast : (text ++ [c]).getD text.length 0 = c := by simp
      have hmore : (text ++ [c]).length = start + 1 := by
        rw [List.length_append, hlen, h0]
        rfl
      have hnext : p.i + 1 = 1 := by rw [h0]
      refine .early s start 1 rfl hnext hs (Nat.le_refl 1) hmore hindex hzero ?_
      intro h7
      have h6 : text.length = 6 := by omega
      rw [h6] at hlast
      rw [hlast]
      rw [hmore] at h7
      exact hcount (by omega)
  · next h1 => exact hsecond h1
  · next h0 h1 =>
      have hne0 : p.i ≠ 0 := h0
      have hne1 : p.i ≠ 1 := h1
      omega

/-- Behind ANCOUNT: no answers, or as many as it says. -/
theorem counts_ancount {text : Bytes} {p : DohResponseParser} {c : UInt8}
    (hi : p.i ≤ 1) (hlen : text.length = 6 + p.i) (hindex : p.response.answerIndex = 0)
    (hzero : dohResponseParserInit.recordsEnded (text ++ [c]) = 0)
    (hcount : text.length = 7 → p.header.ancount = hi16 (text.getD 6 0)) :
    Counts (text ++ [c]) (rHeaderAncount true p c) := by
  refine counts_field16 (by decide) hi hlen hindex hzero (fun _ => rfl) ?_
  intro h1
  have h7 : text.length = 7 := by omega
  have hvalue : p.header.ancount + c.toUInt16 = ancountIn (text ++ [c]) := by
    rw [hcount h7, ancountIn_last h7]
  dsimp only
  split
  · exact .none rfl
  · next hne =>
      change p.header.ancount + c.toUInt16 ≠ 0 at hne
      have hpos : 0 < (ancountIn (text ++ [c])).toNat := by
        rw [← hvalue]
        exact Nat.pos_of_ne_zero fun h0 => hne (UInt16.toNat.inj h0)
      rw [if_pos rfl]
      have hmore : (text ++ [c]).length = 8 := by
        rw [List.length_append, h7]
        rfl
      refine .kept (by omega) ?_ trivial ⟨⟨_, rfl, ?_⟩, hvalue, ?_, ?_, ?_⟩
      · show PastAncount .responseHeaderNscount
        decide
      · rw [List.length_replicate, ← hvalue]
        rfl
      · rw [hzero]
        exact congrArg UInt16.toNat hindex
      · intro _
        show p.response.answerIndex.toNat < _
        rw [hindex]
        exact hpos
      · refine iff_of_false DohResponseState.noConfusion ?_
        intro heq
        change p.response.answerIndex = _ at heq
        rw [← heq, hindex] at hpos
        exact Nat.lt_irrefl _ hpos

theorem Counts.step {text : Bytes} {p : DohResponseParser} (h : Counts text p)
    (hp : text.foldl (dohResponseParserFeed true) dohResponseParserInit = p) (c : UInt8) :
    Counts (text ++ [c]) (dohResponseParserFeed true p c) := by
  have hended := recordsEnded_append dohResponseParserInit text c
  rw [hp] at hended
  cases h with
  | early s start i hs hpi hstart hi hlen hindex hzero hcount =>
      have hmore : (text ++ [c]).length = text.length + 1 := List.length_append
      unfold Starts at hstart
      simp only [List.mem_cons, Prod.mk.injEq, List.not_mem_nil, or_false] at hstart
      subst hpi
      have hplain : p.endsRecord c = false := by
        rcases hstart with ⟨rfl, _⟩ | ⟨rfl, _⟩ | ⟨rfl, _⟩ | ⟨rfl, _⟩ <;> rw [endsRecord, hs]
      rw [hplain, hzero, if_neg Bool.false_ne_true, Nat.add_zero] at hended
      unfold dohResponseParserFeed
      rw [hs]
      rcases hstart with ⟨rfl, rfl⟩ | ⟨rfl, rfl⟩ | ⟨rfl, rfl⟩ | ⟨rfl, rfl⟩
      · refine counts_field16 (by decide) hi hlen hindex hended (by omega) ?_
        intro h1
        exact .early .responseHeaderFlags 2 0 rfl rfl (by decide) (by omega) (by omega) hindex
          hended (by omega)
      · refine counts_field16 (by decide) hi hlen hindex hended (by omega) ?_
        intro h1
        exact .early .responseHeaderQdcount 4 0 rfl rfl (by decide) (by omega) (by omega) hindex
          hended (by omega)
      · refine counts_field16 (by decide) hi hlen hindex hended (by omega) ?_
        intro h1
        exact .early .responseHeaderAncount 6 0 rfl rfl (by decide) (by omega) (by omega) hindex
          hended (by omega)
      · exact counts_ancount hi hlen hindex hended hcount
  | none hs =>
      refine .none ?_
      rw [dohResponseParserFeed, hs]
      exact hs
  | kept hlen hpast hdata hkept =>
      have hmore : 8 ≤ (text ++ [c]).length := by
        rw [List.length_append]
        omega
      rw [← ancountIn_append hlen c] at hkept
      by_cases hdone : p.state = .dohResponseDone
      · have hstay : dohResponseParserFeed true p c = p := by rw [dohResponseParserFeed, hdone]
        have hno : p.endsRecord c = false := by rw [endsRecord, hdone]
        rw [hno] at hended
        rw [hstay]
        exact .kept hmore hpast hdata (by rw [hended]; exact hkept)
      · rcases feed_past (c := c) hpast hdone hdata with ⟨hno, hcarry⟩ | ⟨hyes, r, hr, hnext⟩
        · rw [hno] at hended
          exact .kept hmore hcarry.past hcarry.inData
            (by rw [hended]; exact hkept.of_accounts hdone hcarry)
        · rw [hyes] at hended
          rw [hnext]
          exact .kept hmore (nextAnswer_past r).1 (nextAnswer_past r).2
            (by rw [hended]; exact hkept.nextAnswer hdone hr)

theorem counts (text : Bytes) :
    Counts text (text.foldl (dohResponseParserFeed true) dohResponseParserInit) := by
  have hstart : Counts [] dohResponseParserInit :=
    .early .responseHeaderId 0 0 rfl rfl (by decide) (by omega) rfl rfl rfl (by simp)
  have hstep : ∀ (text : Bytes) (p : DohResponseParser) (c : UInt8),
      text.foldl (dohResponseParserFeed true) dohResponseParserInit = p ∧ Counts text p →
      (text ++ [c]).foldl (dohResponseParserFeed true) dohResponseParserInit
        = dohResponseParserFeed true p c ∧ Counts (text ++ [c]) (dohResponseParserFeed true p c) := by
    intro text p c hp
    refine ⟨?_, hp.2.step hp.1 c⟩
    rw [List.foldl_append, hp.1]
    rfl
  exact (Lib.foldl_tells (R := fun text p =>
    text.foldl (dohResponseParserFeed true) dohResponseParserInit = p ∧ Counts text p)
    ⟨rfl, hstart⟩ hstep text).2

/-- Past ANCOUNT, with memory for the answers, their number stays the one in
the header, and the index is that of the record being read: it counts the
records that have ended, and leaves the answers only in the done state. -/
theorem answers_kept (text : Bytes)
    (hpast : PastAncount (text.foldl (dohResponseParserFeed true) dohResponseParserInit).state) :
    AnswersKept (ancountIn text) (dohResponseParserInit.recordsEnded text)
      (text.foldl (dohResponseParserFeed true) dohResponseParserInit) := by
  have h := counts text
  cases h with
  | early s start i hs _ hstart =>
      unfold Starts at hstart
      simp only [List.mem_cons, Prod.mk.injEq, List.not_mem_nil, or_false] at hstart
      rw [hs] at hpast
      rcases hstart with ⟨rfl, _⟩ | ⟨rfl, _⟩ | ⟨rfl, _⟩ | ⟨rfl, _⟩ <;> exact absurd hpast (by decide)
  | none hs =>
      rw [hs] at hpast
      exact absurd hpast (by decide)
  | kept _ _ _ hkept => exact hkept

/-- One answer announced, and read with a pointer for its name: an A record
that ends with its fourth byte. -/
def oneAnswer : Bytes :=
  [0, 0, 128, 0, 0, 1, 0, 1, 0, 0, 0, 0, 0, 0, 1, 0, 1, 192, 12, 0, 1, 0, 1, 0, 0, 0, 60, 0, 4,
    10, 0, 0, 7]

theorem answers_kept_one : PastAncount
    (oneAnswer.foldl (dohResponseParserFeed true) dohResponseParserInit).state ∧
    AnswersKept (ancountIn oneAnswer) (dohResponseParserInit.recordsEnded oneAnswer)
      (oneAnswer.foldl (dohResponseParserFeed true) dohResponseParserInit) := by
  have hpast : PastAncount
      (oneAnswer.foldl (dohResponseParserFeed true) dohResponseParserInit).state := by
    decide +kernel
  exact ⟨hpast, answers_kept oneAnswer hpast⟩

end DohResponseParser

end HttpdProxy
