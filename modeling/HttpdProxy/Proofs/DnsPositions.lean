import HttpdProxy.Proofs.DnsResponses

/-!
# Where the DNS parser stands

Read the other way round, the blocks of the parser give the grammar of what it
reads: one question whatever QDCOUNT says, labels of any length that is not
the mark of a pointer, and data whose length comes from the type, not from
RDLENGTH. Here this is told of the states that store into an array, and of the
last one: a text that leads to such a state is a part of a message, cut where
that state reads.
-/

namespace HttpdProxy

/-- The parser has come to the end. -/
def DohResponseParser.Done (p : DohResponseParser) : Prop := p.state = .dohResponseDone

/-- A message that the parser can read. -/
structure Message.Readable (m : Message) : Prop where
  flags : m.header.flags.InRange
  ancount : m.header.ancount.toNat = m.answers.length
  answered : m.answers ≠ []
  question : LabelsWithin 255 m.question.labels
  records : ∀ rec ∈ m.answers, rec.Readable

/-- The states that store into an array, and the end. -/
def DohResponseParser.Storing (p : DohResponseParser) : Prop :=
  p.state ∈ [DohResponseState.responseQuestionQnameLabel, .responseAnswerNameLabel,
    .responseAnswerIpv4Rdata, .responseAnswerIpv6Rdata, .dohResponseDone]

/-- A length byte and the label behind it. -/
theorem exists_label {c : UInt8} {l : Bytes} (hne : c ≠ 0) (hlen : l.length = c.toNat) :
    c :: l = labelBytes l ∧ 1 ≤ l.length := by
  have hpos : c.toNat ≠ 0 := fun h0 => hne (UInt8.toNat.inj h0)
  refine ⟨?_, by omega⟩
  rw [labelBytes, hlen]
  simp

theorem LabelsWithin.append {limit : Nat} {ls : List Bytes} {l : Bytes}
    (h : LabelsWithin limit ls) (hpos : 1 ≤ l.length) (hle : l.length ≤ limit) :
    LabelsWithin limit (l :: ls) := by
  intro l' hl'
  rcases List.mem_cons.mp hl' with rfl | hl'
  · exact ⟨hpos, hle⟩
  · exact h l' hl'

/-- The text ends in a label of the question's name. -/
def QnameCut (r : DohResponse) (dq : DnsQuestion) (text : Bytes) (t : DohResponseParser) : Prop :=
  ∃ labels c xs, LabelsWithin 255 labels ∧ c ≠ 0 ∧ xs.length < c.toNat ∧
    text = labels.flatMap labelBytes ++ c :: xs ∧
    t = inQuestion r .responseQuestionQnameLabel xs.length c.toNat
      (dq.pushAll (dottedLabels labels ++ xs))

section
variable {alloc : Bool} {t : DohResponseParser} (ht : t.Storing)
include ht

/-- A state that stores nothing is not where a text has led. -/
theorem ne_of_not_storing {p : DohResponseParser} {s : DohResponseState} (hs : p.state = s)
    (hnot : s ∉ [DohResponseState.responseQuestionQnameLabel, .responseAnswerNameLabel,
      .responseAnswerIpv4Rdata, .responseAnswerIpv6Rdata, .dohResponseDone]) : t ≠ p := by
  rintro rfl
  exact hnot (hs ▸ ht)

/-- A block of two bytes is a number. -/
theorem pass_word {Q : DohResponseParser → Prop} {block : Nat → UInt16 → DohResponseParser}
    {leave : UInt16 → DohResponseParser}
    (hblock : Lib.Counted (dohResponseParserFeed alloc) Q 2 block word leave)
    (s : DohResponseState) (hs : ∀ i x, (block i x).state = s)
    (hnot : s ∉ [DohResponseState.responseQuestionQnameLabel, .responseAnswerNameLabel,
      .responseAnswerIpv4Rdata, .responseAnswerIpv6Rdata, .dohResponseDone]) {text : Bytes}
    (d : UInt16) (h : text.foldl (dohResponseParserFeed alloc) (block 0 d) = t) :
    ∃ x rest, text = be16 x ++ rest ∧ rest.foldl (dohResponseParserFeed alloc) (leave x) = t := by
  rcases hblock.cut_or_whole (by omega) h with ⟨_, hcut⟩ | ⟨bs, rest, hlen, rfl, hrest⟩
  · exact absurd hcut (ne_of_not_storing ht (hs _ _) hnot)
  · obtain ⟨c, e, rfl⟩ := two_bytes hlen
    obtain ⟨x, hx⟩ := exists_be16 c e
    rw [← hx, gathered_word] at hrest
    exact ⟨x, rest, by rw [hx], hrest⟩

/-! ## The header and the question -/

/-- A parser that has stopped elsewhere does not go on. -/
theorem not_leads_of_stopped {p : DohResponseParser} {text : Bytes} {s : DohResponseState}
    (hstop : p.Stopped) (hs : p.state = s)
    (hnot : s ∉ [DohResponseState.responseQuestionQnameLabel, .responseAnswerNameLabel,
      .responseAnswerIpv4Rdata, .responseAnswerIpv6Rdata, .dohResponseDone]) :
    text.foldl (dohResponseParserFeed alloc) p ≠ t := by
  rw [Lib.foldl_stays (dohResponseParserFeed_stopped hstop)]
  exact (ne_of_not_storing ht hs hnot).symm

/-- The header: the parser goes on only with answers and with room for them. -/
theorem pass_header {text : Bytes}
    (h : text.foldl (dohResponseParserFeed alloc) dohResponseParserInit = t) :
    alloc = true ∧ ∃ (hd : DnsHeader) (rest : Bytes), hd.flags.InRange ∧ hd.ancount ≠ 0 ∧
      text = hd.bytes ++ rest ∧
      rest.foldl (dohResponseParserFeed alloc)
        (inHeader .responseQuestionQnameLabelLength 1 hd
          (some (List.replicate hd.ancount.toNat .zero))) = t := by
  let zero := DohResponse.zero.header
  obtain ⟨id, rest, rfl, h1⟩ := pass_word ht (counted_id alloc none zero) .responseHeaderId
    (fun _ _ => rfl) (by decide) 0 h
  rcases (counted_flags alloc none { zero with id := id }).cut_or_whole (by omega)
    (d := zero.flags) h1 with ⟨_, hcut⟩ | ⟨bs, rest, hlen, rfl, h2⟩
  · exact absurd hcut (ne_of_not_storing ht (s := .responseHeaderFlags) rfl (by decide))
  obtain ⟨c, e, rfl⟩ := two_bytes hlen
  obtain ⟨hrange, hfirst, hsecond⟩ := DnsFlags.bytes_ofBytes c e
  have hgather : Lib.gathered flagsByte 0 zero.flags [c, e] = DnsFlags.ofBytes c e := rfl
  rw [hgather] at h2
  obtain ⟨qdcount, rest, rfl, h3⟩ := pass_word ht
    (counted_qdcount alloc none { zero with id := id, flags := DnsFlags.ofBytes c e })
    .responseHeaderQdcount (fun _ _ => rfl) (by decide) 0 h2
  let opened := { zero with id := id, flags := DnsFlags.ofBytes c e, qdcount := qdcount }
  obtain ⟨ancount, rest, rfl, h4⟩ := pass_word ht (counted_ancount alloc opened)
    .responseHeaderAncount (fun _ _ => rfl) (by decide) 0 h3
  have hgo : ancount ≠ 0 ∧ alloc = true := by
    constructor
    · rintro rfl
      exact not_leads_of_stopped ht (s := .dohNoAnswers) (.inr (.inl rfl)) rfl (by decide) h4
    · cases halloc : alloc with
      | true => rfl
      | false =>
          subst halloc
          by_cases hzero : ancount = 0
          · subst hzero
            exact absurd h4
              (not_leads_of_stopped ht (s := .dohNoAnswers) (.inr (.inl rfl)) rfl (by decide))
          · rw [afterAncount, if_neg hzero] at h4
            exact absurd h4 (not_leads_of_stopped ht (s := .responseMemAllocError)
              (.inr (.inr (.inl rfl))) rfl (by decide))
  obtain ⟨hcount, rfl⟩ := hgo
  rw [afterAncount, if_neg hcount, if_pos rfl] at h4
  let room : Option (List Answer) := some (List.replicate ancount.toNat .zero)
  obtain ⟨nscount, rest, rfl, h5⟩ :=
    pass_word ht (counted_nscount true room { opened with ancount := ancount })
      .responseHeaderNscount (fun _ _ => rfl) (by decide) 0 h4
  obtain ⟨arcount, rest, rfl, h6⟩ := pass_word ht
    (counted_arcount true room { opened with ancount := ancount, nscount := nscount })
    .responseHeaderArcount (fun _ _ => rfl) (by decide) 0 h5
  refine ⟨rfl, { opened with ancount := ancount, nscount := nscount, arcount := arcount }, rest,
    hrange, hcount, ?_, h6⟩
  simp [DnsHeader.bytes, opened, hfirst, hsecond]

/-- The name of the question: the text ends in one of its labels, or goes on
behind it. -/
theorem cut_or_qname (r : DohResponse) : ∀ (k : Nat) (text : Bytes), text.length ≤ k →
    ∀ (i n : Nat) (dq : DnsQuestion),
    text.foldl (dohResponseParserFeed alloc) (inQuestion r .responseQuestionQnameLabelLength i n dq)
      = t →
    QnameCut r dq text t ∨
    ∃ labels rest, LabelsWithin 255 labels ∧ text = labels.flatMap labelBytes ++ 0 :: rest ∧
      rest.foldl (dohResponseParserFeed alloc)
        (inQuestion r .responseQuestionQtype 0 2 (dq.pushAll (dottedLabels labels))) = t := by
  intro k
  have hnotLength : ∀ i n dq, t ≠ inQuestion r .responseQuestionQnameLabelLength i n dq := by
    intro i n dq
    exact ne_of_not_storing ht (s := .responseQuestionQnameLabelLength) rfl (by decide)
  induction k with
  | zero =>
      intro text hk i n dq h
      rw [List.length_eq_zero_iff.mp (Nat.le_zero.mp hk), List.foldl_nil] at h
      exact absurd h.symm (hnotLength _ _ _)
  | succ k ih =>
      intro text hk i n dq h
      cases text with
      | nil => exact absurd h.symm (hnotLength _ _ _)
      | cons c rest =>
          rw [List.foldl_cons] at h
          by_cases hc : c = 0
          · subst hc
            exact .inr ⟨[], rest, by simp [LabelsWithin], rfl, h⟩
          · have hopen : dohResponseParserFeed alloc
                (inQuestion r .responseQuestionQnameLabelLength i n dq) c
                = inQuestion r .responseQuestionQnameLabel 0 c.toNat dq := by
              simp only [dohResponseParserFeed, inQuestion, rQuestionQnameLabelLength, if_neg hc,
                DohResponseParser.goto]
            have hpos : 0 < c.toNat := Nat.pos_of_ne_zero fun h0 => hc (UInt8.toNat.inj h0)
            have hlt := c.toNat_lt
            rw [hopen] at h
            rcases (counted_qnameLabel alloc r c.toNat).cut_or_whole hpos h with
              ⟨hcut, hend⟩ | ⟨l, more, hlen, rfl, hmore⟩
            · rw [Lib.gathered_const] at hend
              exact .inl ⟨[], c, rest, by simp [LabelsWithin], hc, hcut, rfl, hend⟩
            · obtain ⟨hlabel, hl⟩ := exists_label hc hlen
              rw [Lib.gathered_const] at hmore
              have hdots : ∀ ls : List Bytes, dottedLabels (l :: ls)
                  = (l ++ [chr '.']) ++ dottedLabels ls := fun _ => rfl
              have hpush : ∀ cs : Bytes, ((l.foldl (fun q c => q.push c) dq).push (chr '.')).pushAll
                  cs = dq.pushAll (l ++ [chr '.'] ++ cs) := by
                intro cs
                simp [DnsQuestion.pushAll, List.foldl_append]
              rcases ih more (by simp at hk; omega) _ _ _ hmore with
                ⟨ls, e, xs, hlabels, he, hxs, rfl, hend⟩ | ⟨ls, rest', hlabels, rfl, hgo⟩
              · refine .inl ⟨l :: ls, e, xs, hlabels.append hl (by omega), he, hxs, ?_, ?_⟩
                · rw [List.flatMap_cons, ← hlabel]
                  simp
                · rw [hend, hpush, hdots, List.append_assoc (l ++ [chr '.'])]
              · refine .inr ⟨l :: ls, rest', hlabels.append hl (by omega), ?_, ?_⟩
                · rw [List.flatMap_cons, ← hlabel]
                  simp
                · rw [hpush] at hgo
                  rwa [hdots]

/-- The question: the text ends in its name, or goes on behind it. -/
theorem cut_or_question (r : DohResponse) {text : Bytes} {i n : Nat} {dq : DnsQuestion}
    (h : text.foldl (dohResponseParserFeed alloc)
      (inQuestion r .responseQuestionQnameLabelLength i n dq) = t) :
    QnameCut r dq text t ∨
    ∃ (q : Question) (rest : Bytes), LabelsWithin 255 q.labels ∧ text = q.bytes ++ rest ∧
      rest.foldl (dohResponseParserFeed alloc)
        (inQuestion r .responseAnswerNameLabelLength 0 2
          { dq.pushAll (dottedLabels q.labels) with qtype := q.qtype, qclass := q.qclass }) = t := by
  rcases cut_or_qname ht r text.length text (by omega) _ _ _ h with
    hcut | ⟨labels, rest, hlabels, rfl, hname⟩
  · exact .inl hcut
  · let named := dq.pushAll (dottedLabels labels)
    obtain ⟨qtype, rest, rfl, htype⟩ := pass_word ht (counted_qtype alloc r named)
      .responseQuestionQtype (fun _ _ => rfl) (by decide) named.qtype hname
    obtain ⟨qclass, rest, rfl, hclass⟩ :=
      pass_word ht (counted_qclass alloc r { named with qtype := qtype }) .responseQuestionQclass
        (fun _ _ => rfl) (by decide) named.qclass htype
    refine .inr ⟨{ labels := labels, qtype := qtype, qclass := qclass }, rest, hlabels, ?_, hclass⟩
    simp [Question.bytes]

end

/-! ## The records -/

/-- The array for a name has its size, and the counter is what is left of the
length of the text that was stored. -/
def Answer.Named (a : Answer) (text : Bytes) : Prop :=
  a.name.length = maxAnswerNameLength ∧ a.nameLength.toNat = text.length % 256

theorem Answer.Named.pushName {a : Answer} {text : Bytes} (h : a.Named text) (c : UInt8) :
    (a.pushName c).Named (text ++ [c]) := by
  obtain ⟨hname, hlen⟩ := h
  refine ⟨by rw [Answer.pushName, List.length_set, hname], ?_⟩
  rw [Answer.pushName, UInt8.toNat_add, hlen, List.length_append]
  exact Nat.mod_add_mod _ _ _

theorem Answer.Named.pushNames {xs : Bytes} : ∀ {a : Answer} {text : Bytes}, a.Named text →
    (xs.foldl (fun a c => a.pushName c) a).Named (text ++ xs) := by
  induction xs with
  | nil =>
      intro a text h
      rwa [List.append_nil]
  | cons x xs ih =>
      intro a text h
      have hrest := ih (h.pushName x)
      rw [List.append_assoc] at hrest
      exact hrest

/-- The text ends in a label of a record's name. -/
def NameCut (r : DohResponse) (text : Bytes) (t : DohResponseParser) : Prop :=
  ∃ (labels : List Bytes) (c : UInt8) (xs : Bytes) (a : Answer), LabelsWithin 191 labels ∧ c ≠ 0 ∧ c >>> 6 ≠ 3 ∧ xs.length < c.toNat ∧
    text = labels.flatMap labelBytes ++ c :: xs ∧ a.Named (dottedLabels labels ++ xs) ∧
    t = inAnswer r .responseAnswerNameLabel xs.length c.toNat a

/-- The text ends in the address of a record. -/
inductive DataCut (r : DohResponse) (t : DohResponseParser) : Prop where
  | ipv4 (a : Answer) (xs : Bytes) : a.Texted [] → xs.length < 4 →
      t = inAnswer r .responseAnswerIpv4Rdata xs.length 4
        (xs.foldl (fun a c => a.pushDecimal c) a) → DataCut r t
  | ipv6 (a : Answer) (i : Nat) : a.arData.length = inet6Addrstrlen → a.aip.length = 16 →
      i < 16 → t = inAnswer r .responseAnswerIpv6Rdata i 16 a → DataCut r t

/-- How the parser reads a name: `L` is where it expects the length of a label,
some labels having been read, and `E` is behind the name. -/
structure ReadsName (alloc : Bool) (t : DohResponseParser)
    (L : List Bytes → DohResponseParser → Prop) (E : DohResponseParser → Prop) : Prop where
  reading : ∀ ls p, L ls p → t ≠ p
  root : ∀ ls p, L ls p → E (dohResponseParserFeed alloc p 0)
  pointer : ∀ ls p (c d : UInt8), L ls p → c >>> 6 = 3 → t ≠ dohResponseParserFeed alloc p c ∧
    E (dohResponseParserFeed alloc (dohResponseParserFeed alloc p c) d)
  label : ∀ ls p (c : UInt8) (xs : Bytes), L ls p → c ≠ 0 → c >>> 6 ≠ 3 → xs.length = c.toNat →
    L (ls ++ [xs]) (xs.foldl (dohResponseParserFeed alloc) (dohResponseParserFeed alloc p c))

theorem not_marked {c : UInt8} (h : c >>> 6 ≠ 3) : c.toNat ≤ 191 := by
  have hlt := c.toNat_lt
  have hshift : (c >>> 6).toNat = c.toNat / 64 := by
    simp [Nat.shiftRight_eq_div_pow]
  have hne : c.toNat / 64 ≠ 3 := by
    intro he
    rw [he] at hshift
    exact h (UInt8.toNat.inj hshift)
  omega

/-- A name: the text ends in one of its labels, or goes on behind it. -/
theorem ReadsName.cut_or_whole {alloc : Bool} {t : DohResponseParser}
    {L : List Bytes → DohResponseParser → Prop} {E : DohResponseParser → Prop}
    (hr : ReadsName alloc t L E) : ∀ (k : Nat) (text : Bytes), text.length ≤ k → ∀ ls p, L ls p →
    text.foldl (dohResponseParserFeed alloc) p = t →
    (∃ (labels : List Bytes) (c : UInt8) (xs : Bytes) (p' : DohResponseParser),
      LabelsWithin 191 labels ∧ c ≠ 0 ∧ c >>> 6 ≠ 3 ∧ xs.length < c.toNat ∧
      text = labels.flatMap labelBytes ++ c :: xs ∧ L (ls ++ labels) p' ∧
      t = xs.foldl (dohResponseParserFeed alloc) (dohResponseParserFeed alloc p' c)) ∨
    ∃ (name : DnsName) (rest : Bytes) (p' : DohResponseParser), LabelsWithin 191 name.labels ∧
      text = name.bytes ++ rest ∧ E p' ∧ rest.foldl (dohResponseParserFeed alloc) p' = t := by
  intro k
  induction k with
  | zero =>
      intro text hk ls p hp h
      rw [List.length_eq_zero_iff.mp (Nat.le_zero.mp hk), List.foldl_nil] at h
      exact absurd h.symm (hr.reading ls p hp)
  | succ k ih =>
      intro text hk ls p hp h
      cases text with
      | nil => exact absurd h.symm (hr.reading ls p hp)
      | cons c rest =>
          rw [List.foldl_cons] at h
          by_cases hc : c = 0
          · subst hc
            exact .inr ⟨⟨[], .root⟩, rest, _, by simp [LabelsWithin], rfl, hr.root ls p hp, h⟩
          · by_cases hmark : c >>> 6 = 3
            · cases rest with
              | nil => exact absurd h.symm (hr.pointer ls p c 0 hp hmark).1
              | cons d rest =>
                  exact .inr ⟨⟨[], .pointer c d hmark⟩, rest, _, by simp [LabelsWithin], rfl,
                    (hr.pointer ls p c d hp hmark).2, h⟩
            · have hle := not_marked hmark
              by_cases hcut : rest.length < c.toNat
              · refine .inl ⟨[], c, rest, p, by simp [LabelsWithin], hc, hmark, hcut, rfl, ?_,
                  h.symm⟩
                rwa [List.append_nil]
              · have hlen : (rest.take c.toNat).length = c.toNat := by
                  rw [List.length_take]
                  omega
                obtain ⟨hlabel, hpos⟩ := exists_label hc hlen
                have hnext := hr.label ls p c _ hp hc hmark hlen
                rw [← List.take_append_drop c.toNat rest, List.foldl_append] at h
                have hshort : (rest.drop c.toNat).length ≤ k := by
                  rw [List.length_drop]
                  rw [List.length_cons] at hk
                  omega
                have hsplit : ∀ tail : Bytes, rest.drop c.toNat = tail →
                    c :: rest = labelBytes (rest.take c.toNat) ++ tail := by
                  intro tail htail
                  rw [← hlabel, ← htail, List.cons_append, List.take_append_drop]
                rcases ih _ hshort _ _ hnext h with
                  ⟨labels, e, xs, p', hlabels, he, hmark', hxs, htext, hp', hend⟩ |
                  ⟨name, rest', p', hlabels, htext, hE, hgo⟩
                · refine .inl ⟨rest.take c.toNat :: labels, e, xs, p',
                    hlabels.append hpos (by omega), he, hmark', hxs, ?_, ?_, hend⟩
                  · rw [hsplit _ htext, List.flatMap_cons, List.append_assoc]
                  · rwa [List.append_assoc] at hp'
                · refine .inr ⟨⟨rest.take c.toNat :: name.labels, name.ending⟩, rest', p',
                    hlabels.append hpos (by omega), ?_, hE, hgo⟩
                  rw [hsplit _ htext]
                  simp [DnsName.bytes]

section
variable {alloc : Bool} {t : DohResponseParser} (ht : t.Storing) {r : DohResponse}
include ht

/-- The name of a record. -/
theorem readsName_record (hroom : r.Room) :
    ReadsName alloc t
      (fun ls p => ∃ i n a, a.OnlyName ∧ a.Named (dottedLabels ls) ∧
        p = inAnswer r .responseAnswerNameLabelLength i n a)
      (fun p => ∃ a, a.OnlyName ∧ p = inAnswer r .responseAnswerType 0 2 a) where
  reading := by
    rintro ls p ⟨i, n, a, _, _, rfl⟩
    exact ne_of_not_storing ht (s := .responseAnswerNameLabelLength) rfl (by decide)
  root := by
    rintro ls p ⟨i, n, a, ha, _, rfl⟩
    exact ⟨a, ha, rfl⟩
  pointer := by
    rintro ls p c d ⟨i, n, a, ha, _, rfl⟩ hmark
    obtain ⟨hhi, hlo⟩ := feed_namePointer alloc hroom hmark d i n a
    rw [hhi, hlo]
    refine ⟨ne_of_not_storing ht (s := .responseAnswerNamePointer) rfl (by decide), _, ?_, rfl⟩
    exact ha
  label := by
    rintro ls p c xs ⟨i, n, a, ha, hnamed, rfl⟩ hc hmark hlen
    have hpos : 0 < c.toNat := Nat.pos_of_ne_zero fun h0 => hc (UInt8.toNat.inj h0)
    rw [feed_nameLabelLength alloc hc hmark,
      (counted_nameLabel alloc hroom c.toNat).behind hlen hpos a, Lib.gathered_const]
    have hdots : dottedLabels (ls ++ [xs]) = dottedLabels ls ++ xs ++ [chr '.'] := by
      simp [dottedLabels]
    refine ⟨_, _, _, (ha.pushNames xs).pushNames [chr '.'], ?_, rfl⟩
    rw [hdots]
    exact (hnamed.pushNames).pushName (chr '.')

/-- The name in the data of a CNAME. -/
theorem readsName_cname (a : Answer) :
    ReadsName alloc t
      (fun _ p => ∃ i n, p = inAnswer r .responseAnswerCnameLabelLengthRdata i n a)
      (fun p => ∃ i n, p = behindAnswer r a i n) where
  reading := by
    rintro ls p ⟨i, n, rfl⟩
    exact ne_of_not_storing ht (s := .responseAnswerCnameLabelLengthRdata) rfl (by decide)
  root := by
    rintro ls p ⟨i, n, rfl⟩
    exact ⟨i, n, nextAnswer_inAnswer _ _ _ _⟩
  pointer := by
    rintro ls p c d ⟨i, n, rfl⟩ hmark
    obtain ⟨hhi, hlo⟩ := feed_cnamePointer (r := r) alloc hmark d i n a
    rw [hhi, hlo]
    exact ⟨ne_of_not_storing ht (s := .responseAnswerCnamePointerRdata) rfl (by decide), 0, 2, rfl⟩
  label := by
    rintro ls p c xs ⟨i, n, rfl⟩ hc hmark hlen
    have hpos : 0 < c.toNat := Nat.pos_of_ne_zero fun h0 => hc (UInt8.toNat.inj h0)
    rw [feed_cnameLabelLength alloc hc hmark,
      (counted_cnameLabel alloc c.toNat).behind hlen hpos a, Lib.gathered_const]
    exact ⟨_, _, congrArg _ (Lib.foldl_stays (fun _ => rfl) xs)⟩

/-- The data of a record of a known type. -/
theorem cut_or_rdata (hroom : r.Room) {a : Answer} {text : Bytes} (htexted : a.Texted [])
    (haip : a.aip.length = 16)
    (h : text.foldl (dohResponseParserFeed alloc) (atRData r a) = t) :
    DataCut r t ∨ ∃ (rd : RData) (rest : Bytes) (a' : Answer) (i n : Nat), rd.type = a.aType ∧
      LabelsWithin 191 rd.labels ∧ text = rd.bytes ++ rest ∧
      rest.foldl (dohResponseParserFeed alloc) (behindAnswer r a' i n) = t := by
  have hnone : LabelsWithin 191 [] := by simp [LabelsWithin]
  rw [atRData] at h
  split at h
  · next htype =>
      rcases (counted_ipv4 alloc hroom).cut_or_whole (by omega) h with
        ⟨hcut, hend⟩ | ⟨addr, rest, hlen, rfl, hrest⟩
      · rw [Lib.gathered_const] at hend
        exact .inl (.ipv4 a text htexted hcut hend)
      · exact .inr ⟨.a addr hlen, rest, _, 4, 4, htype.symm, hnone, rfl, hrest⟩
  · split at h
    · next htype =>
        rcases (counted_ipv6 alloc hroom).cut_or_whole (by omega) h with
          ⟨hcut, hend⟩ | ⟨addr, rest, hlen, rfl, hrest⟩
        · have hkept : ∀ (xs : Bytes) (i : Nat) (a : Answer), a.arData.length = inet6Addrstrlen →
              a.aip.length = 16 →
              (Lib.gathered (fun i a c => { a with aip := a.aip.set i c }) i a xs).arData.length
                = inet6Addrstrlen ∧
              (Lib.gathered (fun i a c => { a with aip := a.aip.set i c }) i a xs).aip.length
                = 16 := by
            intro xs
            induction xs with
            | nil => exact fun _ _ hdata hlen => ⟨hdata, hlen⟩
            | cons x xs ih =>
                intro i a hdata hlen
                rw [Lib.gathered]
                exact ih _ _ hdata (by rw [List.length_set, hlen])
          have hdata : a.arData.length = inet6Addrstrlen := by
            rw [htexted.1, filled_nil, List.length_replicate]
          obtain ⟨hdata', haip'⟩ := hkept text 0 a hdata haip
          exact .inl (.ipv6 _ text.length hdata' haip' hcut hend)
        · exact .inr ⟨.aaaa addr hlen, rest, _, 16, 16, htype.symm, hnone, rfl, hrest⟩
    · split at h
      · next htype =>
          rcases (readsName_cname ht a).cut_or_whole text.length text (by omega) [] _
            ⟨0, maxCnameLength, rfl⟩ h with
            ⟨labels, c, xs, p', _, hc, hmark, hxs, _, ⟨i, n, rfl⟩, hend⟩ |
            ⟨name, rest, p', hlabels, rfl, ⟨i, n, rfl⟩, hrest⟩
          · rw [feed_cnameLabelLength alloc hc hmark] at hend
            rcases (counted_cnameLabel (r := r) alloc c.toNat).cut_or_whole (by omega) hend.symm
              with ⟨_, hcut⟩ | ⟨ys, _, hlen, rfl, _⟩
            · exact absurd hcut
                (ne_of_not_storing ht (s := .responseAnswerCnameLabelRdata) rfl (by decide))
            · rw [List.length_append] at hxs
              omega
          · exact .inr ⟨.cname name, rest, a, i, n, htype.symm, hlabels, rfl, hrest⟩
      · exact absurd h (not_leads_of_stopped ht (s := .dohResponseError)
          (.inr (.inr (.inr rfl))) rfl (by decide))

theorem cut_or_record (hroom : r.Room) {i n : Nat} {text : Bytes}
    (h : text.foldl (dohResponseParserFeed alloc)
      (inAnswer r .responseAnswerNameLabelLength i n .zero) = t) :
    NameCut r text t ∨ DataCut r t ∨
    ∃ (rec : Record) (rest : Bytes) (a : Answer) (i' n' : Nat), rec.Readable ∧
      text = rec.bytes ++ rest ∧
      rest.foldl (dohResponseParserFeed alloc) (behindAnswer r a i' n') = t := by
  rcases (readsName_record ht hroom).cut_or_whole text.length text (by omega) [] _
    ⟨i, n, .zero, rfl, ⟨List.length_replicate .., rfl⟩, rfl⟩ h with
    ⟨labels, c, xs, p', hlabels, hc, hmark, hxs, htext, ⟨i', n', a, _, hnamed, rfl⟩, hend⟩ |
    ⟨name, rest, p', hlabels, rfl, ⟨a, honly, rfl⟩, hname⟩
  · refine .inl ⟨labels, c, xs, _, hlabels, hc, hmark, hxs, htext, hnamed.pushNames, ?_⟩
    rw [feed_nameLabelLength alloc hc hmark] at hend
    rcases (counted_nameLabel alloc hroom c.toNat).cut_or_whole (by omega) hend.symm with
      ⟨_, hcut⟩ | ⟨ys, _, hlen, rfl, _⟩
    · rwa [Lib.gathered_const] at hcut
    · rw [List.length_append] at hxs
      omega
  · obtain ⟨hdata, hzero, haip⟩ := honly.data
    obtain ⟨type, rest, rfl, htype⟩ := pass_word ht (counted_type alloc hroom a)
      .responseAnswerType (fun _ _ => rfl) (by decide) a.aType hname
    obtain ⟨aClass, rest, rfl, hclass⟩ := pass_word ht
      (counted_class alloc hroom { a with aType := type }) .responseAnswerClass (fun _ _ => rfl)
      (by decide) a.aClass htype
    rcases (counted_ttl alloc hroom { a with aType := type, aClass := aClass }).cut_or_whole
      (by omega) (d := a.aTtl) hclass with ⟨_, hcut⟩ | ⟨bs, rest, hlen, rfl, httl⟩
    · exact absurd hcut (ne_of_not_storing ht (s := .responseAnswerTtl) rfl (by decide))
    obtain ⟨b, c, d, e, rfl⟩ := four_bytes hlen
    obtain ⟨ttl, hbytes⟩ := exists_be32 b c d e
    rw [← hbytes, gathered_dword] at httl
    obtain ⟨rdLength, rest, rfl, hrdata⟩ := pass_word ht (counted_rdlength alloc hroom
      { a with aType := type, aClass := aClass, aTtl := ttl }) .responseAnswerRdlength
      (fun _ _ => rfl) (by decide) a.aRdLength httl
    have htexted : a.Texted [] := by
      refine ⟨by rw [filled_nil, hdata], ?_⟩
      rw [hzero]
      rfl
    let fixed : Answer := { a with aType := type, aClass := aClass, aTtl := ttl,
                                   aRdLength := rdLength }
    have hfixed : fixed.Texted [] := htexted
    have haip16 : fixed.aip.length = 16 := by
      show a.aip.length = 16
      rw [haip, List.length_replicate]
    rcases cut_or_rdata ht hroom hfixed haip16 hrdata with
      hcut | ⟨rd, rest, a', i', n', hrd, hlabels', rfl, hrest⟩
    · exact .inr (.inl hcut)
    · have hrd : rd.type = type := hrd
      let whole : Record := { name := name, aClass := aClass, ttl := ttl, rdLength := rdLength,
                              rdata := rd }
      refine .inr (.inr ⟨whole, rest, a', i', n', ⟨hlabels, hlabels'⟩, ?_, hrest⟩)
      simp [whole, Record.bytes, Record.fixed, hrd, hbytes]

omit ht in
/-- A record is read from its start into an empty answer. -/
theorem atRecord_eq {h : DnsHeader} {q : DnsQuestion} {complete : List Answer} {left : Nat}
    (hcount : complete.length + (left + 1) = h.ancount.toNat) (i n : Nat) :
    atRecord (answered h q complete (left + 1)) i n
      = inAnswer (answered h q complete (left + 1)) .responseAnswerNameLabelLength i n .zero := by
  rw [inAnswer, answered_put_zero hcount]
  rfl

/-- Some records whole, and the text ends in the next; or all of them, and the
parser is done. -/
theorem cut_or_records {h : DnsHeader} {q : DnsQuestion} : ∀ (left : Nat) (complete : List Answer)
    (i n : Nat) (text : Bytes), complete.length + (left + 1) = h.ancount.toNat →
    text.foldl (dohResponseParserFeed alloc) (atRecord (answered h q complete (left + 1)) i n) = t →
    ∃ (rs : List Record) (rest : Bytes), (∀ rec ∈ rs, rec.Readable) ∧
      text = rs.flatMap Record.bytes ++ rest ∧
      ((rs.length < left + 1 ∧ ∃ r : DohResponse, r.Room ∧ (NameCut r rest t ∨ DataCut r t)) ∨
        (rs.length = left + 1 ∧ t.Done)) := by
  intro left
  induction left with
  | zero =>
      intro complete i n text hcount hend
      rw [atRecord_eq hcount] at hend
      rcases cut_or_record ht (answered_room hcount) hend with
        hcut | hcut | ⟨rec, rest, a, i', n', hread, rfl, hrest⟩
      · exact ⟨[], text, by simp, rfl, .inl ⟨by simp, _, answered_room hcount, .inl hcut⟩⟩
      · exact ⟨[], text, by simp, rfl, .inl ⟨by simp, _, answered_room hcount, .inr hcut⟩⟩
      · have hdone : (behindAnswer (answered h q complete 1) a i' n').Done := by
          rw [behindAnswer, DohResponseParser.Done, answered_nextState hcount]
          rfl
        rw [Lib.foldl_stays (dohResponseParserFeed_stopped (.inl hdone))] at hrest
        exact ⟨[rec], rest, by simpa using hread, by simp, .inr ⟨rfl, hrest ▸ hdone⟩⟩
  | succ left ih =>
      intro complete i n text hcount hend
      rw [atRecord_eq hcount] at hend
      rcases cut_or_record ht (answered_room hcount) hend with
        hcut | hcut | ⟨rec, rest, a, i', n', hread, rfl, hrest⟩
      · exact ⟨[], text, by simp, rfl, .inl ⟨by simp, _, answered_room hcount, .inl hcut⟩⟩
      · exact ⟨[], text, by simp, rfl, .inl ⟨by simp, _, answered_room hcount, .inr hcut⟩⟩
      · rw [behindAnswer, answered_put hcount, answered_nextState hcount, if_neg (by omega)]
          at hrest
        obtain ⟨rs, rest', hall, rfl, hwhere⟩ := ih (complete ++ [a]) i' n' rest (by simp; omega) hrest
        refine ⟨rec :: rs, rest', ?_, by simp, ?_⟩
        · intro whole hwhole
          rcases List.mem_cons.mp hwhole with rfl | hwhole
          · exact hread
          · exact hall whole hwhole
        · rw [List.length_cons]
          rcases hwhere with ⟨hlt, hcut⟩ | ⟨hlen, hdone⟩
          · exact .inl ⟨by omega, hcut⟩
          · exact .inr ⟨by omega, hdone⟩

end

/-! ## The whole message -/

/-- Where a text stands that leads to such a state. -/
inductive Position (text : Bytes) (t : DohResponseParser) : Prop where
  | qname (hd : DnsHeader) (r : DohResponse) (rest : Bytes) : hd.flags.InRange →
      hd.ancount ≠ 0 → text = hd.bytes ++ rest → QnameCut r DohResponse.zero.question rest t →
      Position text t
  | record (m : Message) (r : DohResponse) (rest : Bytes) : m.header.flags.InRange →
      m.answers.length < m.header.ancount.toNat → LabelsWithin 255 m.question.labels →
      (∀ rec ∈ m.answers, rec.Readable) → text = m.bytes ++ rest → r.Room →
      NameCut r rest t ∨ DataCut r t → Position text t
  | done (m : Message) (rest : Bytes) : m.Readable → text = m.bytes ++ rest → t.Done →
      Position text t

/-- A text that leads a fresh parser to a state that stores, or to the end. -/
theorem position_of_leads {alloc : Bool} {t : DohResponseParser} (ht : t.Storing) {text : Bytes}
    (h : text.foldl (dohResponseParserFeed alloc) dohResponseParserInit = t) :
    alloc = true ∧ Position text t := by
  obtain ⟨rfl, hd, rest, hflags, hcount, rfl, hheader⟩ := pass_header ht h
  refine ⟨rfl, ?_⟩
  rcases @cut_or_question true t ht
    (inHeader .responseQuestionQnameLabelLength 1 hd
      (some (List.replicate hd.ancount.toNat .zero))).response _ 1 2 DohResponse.zero.question
      hheader with hcut | ⟨q, rest, hlabels, rfl, hquestion⟩
  · exact .qname hd _ rest hflags hcount rfl hcut
  · have hpos : hd.ancount.toNat ≠ 0 := fun h0 => hcount (UInt16.toNat.inj h0)
    obtain ⟨left, hleft⟩ := Nat.exists_eq_succ_of_ne_zero hpos
    have hstart : ∀ dq, inQuestion (inHeader .responseQuestionQnameLabelLength 1 hd
        (some (List.replicate hd.ancount.toNat .zero))).response .responseAnswerNameLabelLength 0 2
        dq = atRecord (answered hd dq [] (left + 1)) 0 2 := by
      intro dq
      rw [hleft]
      rfl
    rw [hstart] at hquestion
    obtain ⟨rs, rest, hread, rfl, hwhere⟩ :=
      cut_or_records ht left [] 0 2 rest (by simp [hleft]) hquestion
    let m : Message := { header := hd, question := q, answers := rs }
    have hbytes : hd.bytes ++ (q.bytes ++ (rs.flatMap Record.bytes ++ rest)) = m.bytes ++ rest := by
      simp [m, Message.bytes]
    rcases hwhere with ⟨hlt, r, hroom, hcut⟩ | ⟨hlen, hdone⟩
    · exact .record m r rest hflags (by rw [hleft]; exact hlt) hlabels hread hbytes hroom hcut
    · refine .done m rest ⟨hflags, ?_, ?_, hlabels, hread⟩ hbytes hdone
      · rw [hleft, hlen]
      · rintro rfl
        cases hlen

end HttpdProxy
