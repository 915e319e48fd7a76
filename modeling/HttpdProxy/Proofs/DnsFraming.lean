import HttpdProxy.Proofs.DnsPositions

/-!
# Which messages the DNS parser accepts

A text finishes the parser when it is a message that the parser can read: from
where the parser stands at the end, the text is taken apart into one. Such a
message is framed as the sender meant it exactly when three things do not
matter that the parser leaves aside: QDCOUNT, the limit on the length of a
label, and RDLENGTH.
-/

namespace HttpdProxy

theorem Before.not_done {p : DohResponseParser} (h : Before p) : ¬ p.Done :=
  fun hd => h.1 (.inl hd)

/-! ## The grammar -/

/-- A message that the parser can read is read to its last byte. -/
theorem finishes_of_readable {m : Message} (h : m.Readable) :
    Lib.Finishes (dohResponseParserFeed true) DohResponseParser.Done dohResponseParserInit
      m.bytes := by
  have hcount := Message.ancount_ne_zero h.ancount h.answered
  obtain ⟨front, x, t, hsplit, hrun, hlast⟩ := front_opening h.flags hcount h.question
  rw [h.ancount] at hlast
  obtain ⟨front', x', t', as, i', n', hsplit', hrun', hlast', _⟩ :=
    front_records (h := m.header) true h.records [] 0 2 h.answered (by simp [h.ancount])
  have hbytes : m.bytes = (front ++ [x]) ++ (front' ++ [x']) := by
    rw [Message.bytes, hsplit, hsplit']
  have hopening : Lib.Through (dohResponseParserFeed true) (fun p => ¬ p.Done)
      dohResponseParserInit (front ++ [x]) _ :=
    (hrun.mono fun _ hb => hb.not_done).append (.single hrun.last.not_done
      (by rw [hlast]; simp [DohResponseParser.Done, atRecord]))
  rw [hlast] at hopening
  rw [hbytes]
  exact hopening.before_finishes (fun _ hp => hp)
    ((hrun'.mono fun p hp hd => hp (.inl hd)).finishes (fun _ hp => hp) (by rw [hlast']; rfl))

/-- What finishes a fresh parser is a message that it can read. -/
theorem readable_of_finishes {alloc : Bool} {text : Bytes}
    (h : Lib.Finishes (dohResponseParserFeed alloc) DohResponseParser.Done dohResponseParserInit
      text) :
    alloc = true ∧ ∃ m : Message, m.Readable ∧ text = m.bytes := by
  have hend := h.1
  have hstoring : (text.foldl (dohResponseParserFeed alloc) dohResponseParserInit).Storing := by
    unfold DohResponseParser.Storing
    rw [hend]
    decide
  obtain ⟨rfl, hposition⟩ := position_of_leads hstoring rfl
  cases hposition with
  | qname hd r rest _ _ _ hcut =>
      obtain ⟨labels, c, xs, _, _, _, _, heq⟩ := hcut
      rw [heq] at hend
      cases hend
  | record m r rest _ _ _ _ _ _ hcut =>
      rcases hcut with ⟨labels, c, xs, a, _, _, _, _, _, _, heq⟩ | hcut
      · rw [heq] at hend
        cases hend
      · cases hcut with
        | ipv4 a xs _ _ heq =>
            rw [heq] at hend
            cases hend
        | ipv6 a i _ _ _ heq =>
            rw [heq] at hend
            cases hend
  | done m rest hread htext _ =>
      have hwhole := finishes_of_readable hread
      rw [htext] at h
      have hsplit : m.bytes ++ rest = m.bytes ++ rest ++ [] := (List.append_nil _).symm
      have hsame := (Lib.Finishes.unique hwhole h hsplit).2
      exact ⟨rfl, m, hread, by rw [htext, hsame, List.append_nil]⟩

/-! ## What the sender meant -/

/-- A record as the format has it: data of any type, as long as RDLENGTH
says. -/
structure RawRecord where
  name : DnsName
  type : UInt16
  aClass : UInt16
  ttl : UInt32
  rdata : Bytes

def RawRecord.bytes (raw : RawRecord) : Bytes :=
  raw.name.bytes ++ be16 raw.type ++ be16 raw.aClass ++ be32 raw.ttl ++
    be16 raw.rdata.length.toUInt16 ++ raw.rdata

/-- Labels of at most 63 bytes, in the data of a CNAME too. -/
structure RawRecord.WellFormed (raw : RawRecord) : Prop where
  labels : LabelsWithin 63 raw.name.labels
  length : raw.rdata.length < 65536
  cname : raw.type = cnameType →
    ∃ target : DnsName, LabelsWithin 63 target.labels ∧ raw.rdata = target.bytes

/-- The parser goes from one record to the next with the last byte of each
part. -/
def ReadsRecords (alloc : Bool) : DohResponseParser → List Bytes → Prop
  | _, [] => True
  | p, part :: parts =>
      Lib.Finishes (dohResponseParserFeed alloc)
        (fun p' => p'.response.answerIndex ≠ p.response.answerIndex) p part ∧
      ReadsRecords alloc (part.foldl (dohResponseParserFeed alloc) p) parts

/-- The bytes are a header, QDCOUNT questions and ANCOUNT records, and the
parser reads every record where it is. -/
def WellFramed (alloc : Bool) (bs : Bytes) : Prop :=
  ∃ (h : DnsHeader) (qs : List Question) (raws : List RawRecord),
    h.flags.InRange ∧ qs.length = h.qdcount.toNat ∧ raws.length = h.ancount.toNat ∧
    (∀ q ∈ qs, LabelsWithin 63 q.labels) ∧ (∀ raw ∈ raws, raw.WellFormed) ∧
    bs = (h.bytes ++ qs.flatMap Question.bytes) ++ raws.flatMap RawRecord.bytes ∧
    Lib.Finishes (dohResponseParserFeed alloc)
      (fun p => p.state = .responseAnswerNameLabelLength) dohResponseParserInit
      (h.bytes ++ qs.flatMap Question.bytes) ∧
    ReadsRecords alloc
      ((h.bytes ++ qs.flatMap Question.bytes).foldl (dohResponseParserFeed alloc)
        dohResponseParserInit) (raws.map RawRecord.bytes)

/-- One question, labels of at most 63 bytes, and RDLENGTH the length of the
data. -/
def Message.Fitting (m : Message) : Prop :=
  m.header.qdcount = 1 ∧ LabelsWithin 63 m.question.labels ∧
    ∀ rec ∈ m.answers, LabelsWithin 63 rec.name.labels ∧ LabelsWithin 63 rec.rdata.labels ∧
      rec.rdLength.toNat = rec.rdata.bytes.length

/-- Only one way of cutting the records is the parser's. -/
theorem ReadsRecords.unique {alloc : Bool} {parts : List Bytes} :
    ∀ {parts' : List Bytes} {p : DohResponseParser}, ReadsRecords alloc p parts →
      ReadsRecords alloc p parts' → parts.length = parts'.length →
      parts.flatten = parts'.flatten → parts = parts' := by
  induction parts with
  | nil =>
      intro parts' p _ _ hlen _
      exact (List.length_eq_zero_iff.mp hlen.symm).symm
  | cons part parts ih =>
      intro parts' p h h' hlen he
      cases parts' with
      | nil => cases hlen
      | cons part' parts' =>
          rw [List.flatten_cons, List.flatten_cons] at he
          obtain ⟨rfl, hrest⟩ := h.1.unique h'.1 he
          rw [ih h.2 h'.2 (by simpa using hlen) hrest]

theorem readsRecords_answers {h : DnsHeader} {q : DnsQuestion} {rs : List Record}
    (hread : ∀ rec ∈ rs, rec.Readable) : ∀ (complete : List Answer) (i n : Nat),
    complete.length + rs.length = h.ancount.toNat →
    ReadsRecords true (atRecord (answered h q complete rs.length) i n)
      (rs.map Record.bytes) := by
  induction rs with
  | nil => exact fun _ _ _ _ => trivial
  | cons rec rs ih =>
      intro complete i n hcount
      rw [List.length_cons] at hcount
      rw [List.length_cons]
      obtain ⟨front, x, t, a, i', n', hsplit, hrun, hlast, _⟩ :=
        front_atRecord (q := q) true (hread rec (by simp)) hcount i n
      have hindex : (answered h q (complete ++ [a]) rs.length).answerIndex
          ≠ (answered h q complete (rs.length + 1)).answerIndex := by
        intro he
        have hlen := congrArg UInt16.toNat he
        rw [answered_index hcount, answered_index (by simp; omega)] at hlen
        simp at hlen
      refine ⟨?_, ?_⟩
      · rw [hsplit]
        refine hrun.finishes (fun p hp hne => hne hp.2) ?_
        rw [hlast]
        exact hindex
      · rw [hsplit, List.foldl_append, hrun.foldl, List.foldl_cons, List.foldl_nil, hlast]
        cases rs with
        | nil => trivial
        | cons rec' rs' =>
            exact ih (fun rec hr => hread rec (by simp [hr])) (complete ++ [a]) i' n'
              (by simp at hcount ⊢; omega)

/-- A record as the sender has it, when RDLENGTH is right. -/
def Record.raw (rec : Record) : RawRecord where
  name := rec.name
  type := rec.rdata.type
  aClass := rec.aClass
  ttl := rec.ttl
  rdata := rec.rdata.bytes

theorem Record.raw_bytes {rec : Record} (h : rec.rdLength.toNat = rec.rdata.bytes.length) :
    rec.raw.bytes = rec.bytes := by
  have hlen : rec.rdata.bytes.length.toUInt16 = rec.rdLength := by
    rw [← h]
    simp
  simp [RawRecord.bytes, Record.raw, Record.bytes, Record.fixed, hlen]

theorem Record.raw_wellFormed {rec : Record} (hname : LabelsWithin 63 rec.name.labels)
    (hdata : LabelsWithin 63 rec.rdata.labels)
    (h : rec.rdLength.toNat = rec.rdata.bytes.length) : rec.raw.WellFormed where
  labels := hname
  length := by
    have hlt := rec.rdLength.toNat_lt
    show rec.rdata.bytes.length < 65536
    omega
  cname := by
    intro htype
    have htype : rec.rdata.type = cnameType := htype
    cases hrd : rec.rdata with
    | a addr four =>
        rw [hrd] at htype
        exact absurd htype (by simp [RData.type, ipv4Type, cnameType])
    | aaaa addr sixteen =>
        rw [hrd] at htype
        exact absurd htype (by simp [RData.type, ipv6Type, cnameType])
    | cname name =>
        rw [hrd] at hdata
        exact ⟨name, hdata, by simp [Record.raw, hrd, RData.bytes]⟩

/-- Two readings of the bytes of one record agree. -/
theorem fitting_of_bytes_eq {rec : Record} {raw : RawRecord} (hread : rec.Readable)
    (hraw : raw.WellFormed) (he : raw.bytes = rec.bytes) :
    LabelsWithin 63 rec.name.labels ∧ LabelsWithin 63 rec.rdata.labels ∧
      rec.rdLength.toNat = rec.rdata.bytes.length := by
  have hsplit : raw.name.bytes ++ (be16 raw.type ++ (be16 raw.aClass ++ (be32 raw.ttl ++
      (be16 raw.rdata.length.toUInt16 ++ raw.rdata))))
      = rec.name.bytes ++ (be16 rec.rdata.type ++ (be16 rec.aClass ++ (be32 rec.ttl ++
        (be16 rec.rdLength ++ rec.rdata.bytes)))) := by
    simpa [RawRecord.bytes, Record.bytes, Record.fixed] using he
  obtain ⟨hname, hrest⟩ := DnsName.bytes_unique (hraw.labels.mono (by omega)) hread.1 hsplit
  obtain ⟨htype, hrest⟩ := List.append_inj hrest rfl
  obtain ⟨_, hrest⟩ := List.append_inj hrest rfl
  obtain ⟨_, hrest⟩ := List.append_inj hrest rfl
  obtain ⟨hlen, hdata⟩ := List.append_inj hrest rfl
  have htype := be16_injective htype
  have hlen := be16_injective hlen
  refine ⟨hname ▸ hraw.labels, ?_, ?_⟩
  · cases hrd : rec.rdata with
    | a addr four => simp [RData.labels, LabelsWithin]
    | aaaa addr sixteen => simp [RData.labels, LabelsWithin]
    | cname name =>
        obtain ⟨target, htarget, hbytes⟩ := hraw.cname (by rw [htype, hrd]; rfl)
        have hnames : target.bytes ++ [] = name.bytes ++ [] := by
          rw [← hbytes, hdata, hrd]
          rfl
        have hwithin : LabelsWithin 191 name.labels := by
          have := hread.2
          rwa [hrd] at this
        obtain ⟨rfl, _⟩ := DnsName.bytes_unique (htarget.mono (by omega)) hwithin hnames
        exact htarget
  · have hlength := hraw.length
    rw [← hlen, ← hdata]
    exact UInt16.toNat_ofNat_of_lt (show _ < 65536 by omega)

theorem Question.bytes_ne_nil (q : Question) : q.bytes ≠ [] := by
  simp [Question.bytes]

/-- Questions that make up the bytes of one are that one. -/
theorem question_unique {qs : List Question} {q : Question}
    (hqs : ∀ q' ∈ qs, LabelsWithin 63 q'.labels) (hq : LabelsWithin 255 q.labels)
    (he : qs.flatMap Question.bytes = q.bytes) :
    qs.length = 1 ∧ LabelsWithin 63 q.labels := by
  cases qs with
  | nil => exact absurd he.symm q.bytes_ne_nil
  | cons q' qs =>
      have hq' := hqs q' (by simp)
      have hsplit : q'.labels.flatMap labelBytes ++ 0 :: (be16 q'.qtype ++ (be16 q'.qclass ++
          qs.flatMap Question.bytes))
          = q.labels.flatMap labelBytes ++ 0 :: (be16 q.qtype ++ (be16 q.qclass ++ [])) := by
        simpa [Question.bytes] using he
      obtain ⟨hlabels, _, hrest⟩ :=
        labels_unique (by omega) (hq'.mono (by omega)) hq (.inl rfl) (.inl rfl) hsplit
      obtain ⟨_, hrest⟩ := List.append_inj hrest rfl
      obtain ⟨_, hrest⟩ := List.append_inj hrest rfl
      refine ⟨?_, hlabels ▸ hq'⟩
      cases qs with
      | nil => rfl
      | cons q'' qs =>
          rw [List.flatMap_cons] at hrest
          exact absurd (List.append_eq_nil_iff.mp hrest).1 q''.bytes_ne_nil

/-- Where the parser is behind the header and the question. -/
theorem finishes_opening {m : Message} (h : m.Readable) :
    ∃ dq, (m.header.bytes ++ m.question.bytes).foldl (dohResponseParserFeed true)
        dohResponseParserInit = atRecord (answered m.header dq [] m.answers.length) 0 2 ∧
      Lib.Finishes (dohResponseParserFeed true)
        (fun p => p.state = .responseAnswerNameLabelLength) dohResponseParserInit
        (m.header.bytes ++ m.question.bytes) := by
  have hcount := Message.ancount_ne_zero h.ancount h.answered
  obtain ⟨front, x, t, hsplit, hrun, hlast⟩ := front_opening h.flags hcount h.question
  rw [h.ancount] at hlast
  have hfold : (m.header.bytes ++ m.question.bytes).foldl (dohResponseParserFeed true)
      dohResponseParserInit = dohResponseParserFeed true t x := by
    rw [hsplit, List.foldl_append, hrun.foldl, List.foldl_cons, List.foldl_nil]
  have hfin : Lib.Finishes (dohResponseParserFeed true)
      (fun p => p.state = .responseAnswerNameLabelLength) dohResponseParserInit
      (m.header.bytes ++ m.question.bytes) := by
    rw [hsplit]
    exact hrun.finishes (fun p hp => hp.2) (by rw [hlast]; rfl)
  exact ⟨_, hfold.trans hlast, hfin⟩

theorem wellFramed_iff_fitting {m : Message} (h : m.Readable) :
    WellFramed true m.bytes ↔ m.Fitting := by
  obtain ⟨dq, hopening, hfinishes⟩ := finishes_opening h
  have hanswers := readsRecords_answers (h := m.header) (q := dq) h.records [] 0 2
    (by simp [h.ancount])
  rw [← hopening] at hanswers
  constructor
  · rintro ⟨hd, qs, raws, hflags, hqs, hraws, hqlabels, hwell, hbytes, hopen, hreads⟩
    have hsame : (hd.bytes ++ qs.flatMap Question.bytes) ++ raws.flatMap RawRecord.bytes
        = (m.header.bytes ++ m.question.bytes) ++ m.answers.flatMap Record.bytes := by
      rw [← hbytes, Message.bytes]
    obtain ⟨hopenEq, hrest⟩ := hopen.unique hfinishes hsame
    obtain ⟨hheader, hquestions⟩ := List.append_inj hopenEq
      (by rw [DnsHeader.bytes_length, DnsHeader.bytes_length])
    obtain rfl := DnsHeader.bytes_injective hflags h.flags hheader
    obtain ⟨hone, hlabels⟩ := question_unique hqlabels h.question hquestions
    rw [hopenEq] at hreads
    have hparts := ReadsRecords.unique hreads hanswers
      (by rw [List.length_map, List.length_map, hraws, h.ancount])
      (by rw [← List.flatMap_def, ← List.flatMap_def, hrest])
    refine ⟨?_, hlabels, ?_⟩
    · apply UInt16.toNat.inj
      rw [← hqs, hone]
      rfl
    · intro rec hrec
      obtain ⟨k, hk, hget⟩ := List.mem_iff_getElem.mp hrec
      have hk' : k < raws.length := by
        rw [hraws, h.ancount]
        exact hk
      have heq : raws[k].bytes = rec.bytes := by
        have := congrArg (fun l => l[k]?) hparts
        simpa [hk, hk', hget] using this
      exact fitting_of_bytes_eq (h.records rec hrec) (hwell _ (List.getElem_mem hk')) heq
  · rintro ⟨hqd, hqlabels, hrecs⟩
    have hmap : (m.answers.map Record.raw).map RawRecord.bytes
        = m.answers.map Record.bytes := by
      rw [List.map_map]
      apply List.map_congr_left
      intro rec hrec
      exact Record.raw_bytes (hrecs rec hrec).2.2
    have hflat : (m.answers.map Record.raw).flatMap RawRecord.bytes
        = m.answers.flatMap Record.bytes := by
      rw [List.flatMap_def, hmap, ← List.flatMap_def]
    have hone : [m.question].flatMap Question.bytes = m.question.bytes := by simp
    refine ⟨m.header, [m.question], m.answers.map Record.raw, h.flags, ?_, ?_, ?_, ?_, ?_, ?_, ?_⟩
    · rw [hqd]
      rfl
    · rw [List.length_map, h.ancount]
    · simpa using hqlabels
    · intro raw hmem
      obtain ⟨rec, hrec, rfl⟩ := List.mem_map.mp hmem
      obtain ⟨hname, hdata, hlen⟩ := hrecs rec hrec
      exact Record.raw_wellFormed hname hdata hlen
    · rw [hone, hflat, Message.bytes]
    · rw [hone]
      exact hfinishes
    · rw [hone, hmap]
      exact hanswers

/-- Whatever the parser accepts is a message that it can read, consumed to its
last byte, and it is framed as the sender meant it exactly when the message has
one question, labels of at most 63 bytes and an RDLENGTH that is the length of
the data of every record. -/
theorem accepted_framed_iff {alloc : Bool} {bs : Bytes}
    (h : (bs.foldl (dohResponseParserFeed alloc) dohResponseParserInit).state
      = .dohResponseDone) :
    ∃ (m : Message) (surplus : Bytes), m.Readable ∧ bs = m.bytes ++ surplus ∧
      Lib.Finishes (dohResponseParserFeed alloc) DohResponseParser.Done dohResponseParserInit
        m.bytes ∧
      (WellFramed alloc m.bytes ↔ m.Fitting) := by
  obtain ⟨consumed, surplus, rfl, hfin⟩ := Lib.exists_finishes
    (show DohResponseParser.Done (bs.foldl (dohResponseParserFeed alloc) _) from h)
  obtain ⟨rfl, m, hread, rfl⟩ := readable_of_finishes hfin
  exact ⟨m, surplus, hread, rfl, hfin, wellFramed_iff_fitting hread⟩

/-- An A record whose RDLENGTH is 5: the byte behind the address belongs to
it. -/
def longRecord : Message where
  header :=
    { id := 7
      flags := { qr := 1, opcode := 0, aa := 0, tc := 0, rd := 1, ra := 1, z := 0, rcode := 0 }
      qdcount := 1
      ancount := 1
      nscount := 0
      arcount := 0 }
  question := { labels := [ascii "a"], qtype := 1, qclass := 1 }
  answers :=
    [{ name := { labels := [], ending := .pointer 0xC0 0x0C pointer_marked }
       aClass := 1
       ttl := 60
       rdLength := 5
       rdata := .a [1, 2, 3, 4] address_four }]

theorem longRecord_readable : longRecord.Readable where
  flags := by unfold DnsFlags.InRange; decide
  ancount := by decide
  answered := by simp [longRecord]
  question := by unfold LabelsWithin; decide
  records := by
    intro rec hrec
    simp only [longRecord, List.mem_singleton] at hrec
    subst hrec
    exact ⟨by unfold LabelsWithin; decide, by unfold LabelsWithin; decide⟩

theorem accepted_framed_iff_long :
    ∃ (m : Message) (surplus : Bytes), m.Readable ∧ longRecord.bytes = m.bytes ++ surplus ∧
      (WellFramed true m.bytes ↔ m.Fitting) := by
  obtain ⟨m, surplus, hread, hbytes, _, hiff⟩ :=
    @accepted_framed_iff true longRecord.bytes (finishes_of_readable longRecord_readable).1
  exact ⟨m, surplus, hread, hbytes, hiff⟩

theorem long_record_misread :
    Lib.Finishes (dohResponseParserFeed true) DohResponseParser.Done dohResponseParserInit
      longRecord.bytes ∧ ¬ WellFramed true longRecord.bytes := by
  refine ⟨finishes_of_readable longRecord_readable, ?_⟩
  rw [wellFramed_iff_fitting longRecord_readable]
  intro h
  have hlen := (h.2.2 _ (List.mem_singleton.mpr rfl)).2.2
  revert hlen
  decide

end HttpdProxy
