import HttpdProxy.Parsers.Doh

/-!
# DNS messages

The message format as the comment of `doh_parser.h` lays it out: a header of
twelve bytes, questions and resource records, with names that are sequences of
labels ending in a zero byte or in a compression pointer. A message here is a
value, and `bytes` is how it is sent.
-/

namespace HttpdProxy

/-! ## Numbers -/

/-- A 16-bit number, high byte first. -/
def be16 (x : UInt16) : Bytes := [(x >>> 8).toUInt8, x.toUInt8]

/-- A 32-bit number, high byte first. -/
def be32 (x : UInt32) : Bytes :=
  [(x >>> 24).toUInt8, (x >>> 16).toUInt8, (x >>> 8).toUInt8, x.toUInt8]

theorem be16_value (x : UInt16) : hi16 (x >>> 8).toUInt8 + x.toUInt8.toUInt16 = x := by
  have hx := x.toNat_lt
  apply UInt16.toNat.inj
  simp [hi16, Nat.shiftLeft_eq, Nat.shiftRight_eq_div_pow]
  omega

theorem exists_be16 (c d : UInt8) : ∃ x, be16 x = [c, d] := by
  refine ⟨hi16 c + d.toUInt16, ?_⟩
  have hc := c.toNat_lt
  have hd := d.toNat_lt
  simp only [be16, List.cons.injEq, and_true]
  constructor
  · apply UInt8.toNat.inj
    simp [hi16, Nat.shiftLeft_eq, Nat.shiftRight_eq_div_pow]
    omega
  · apply UInt8.toNat.inj
    simp [hi16, Nat.shiftLeft_eq]

theorem be32_value (x : UInt32) :
    (x >>> 24).toUInt8.toUInt32 <<< 24 + (x >>> 16).toUInt8.toUInt32 <<< 16 +
      (x >>> 8).toUInt8.toUInt32 <<< 8 + x.toUInt8.toUInt32 = x := by
  have hx := x.toNat_lt
  apply UInt32.toNat.inj
  simp [Nat.shiftLeft_eq, Nat.shiftRight_eq_div_pow]
  omega

theorem two_bytes {bs : Bytes} (h : bs.length = 2) : ∃ b c, bs = [b, c] := by
  match bs, h with
  | [b, c], _ => exact ⟨b, c, rfl⟩

theorem four_bytes {bs : Bytes} (h : bs.length = 4) : ∃ b c d e, bs = [b, c, d, e] := by
  match bs, h with
  | [b, c, d, e], _ => exact ⟨b, c, d, e, rfl⟩

theorem exists_be32 (b c d e : UInt8) : ∃ x, be32 x = [b, c, d, e] := by
  have hb := b.toNat_lt
  have hc := c.toNat_lt
  have hd := d.toNat_lt
  have he := e.toNat_lt
  let n := b.toNat * 2 ^ 24 + c.toNat * 2 ^ 16 + d.toNat * 2 ^ 8 + e.toNat
  have hn : (UInt32.ofNat n).toNat = n := by
    apply UInt32.toNat_ofNat_of_lt
    show b.toNat * 2 ^ 24 + c.toNat * 2 ^ 16 + d.toNat * 2 ^ 8 + e.toNat < 4294967296
    omega
  refine ⟨UInt32.ofNat n, ?_⟩
  simp only [be32, List.cons.injEq, and_true]
  refine ⟨?_, ?_, ?_, ?_⟩ <;> apply UInt8.toNat.inj <;>
    simp only [UInt32.toNat_toUInt8, UInt32.toNat_shiftRight, hn, Nat.shiftRight_eq_div_pow] <;>
    simp [n] <;> omega

theorem be16_injective {x y : UInt16} (h : be16 x = be16 y) : x = y := by
  rw [← be16_value x, ← be16_value y]
  simp only [be16, List.cons.injEq, and_true] at h
  rw [h.1, h.2]

/-! ## Flags -/

namespace DnsFlags

/-- Every flag fits its bit field. -/
def InRange (f : DnsFlags) : Prop :=
  f.qr < 2 ∧ f.opcode < 16 ∧ f.aa < 2 ∧ f.tc < 2 ∧ f.rd < 2 ∧ f.ra < 2 ∧ f.z < 8 ∧ f.rcode < 16

def firstByte (f : DnsFlags) : UInt8 :=
  f.qr <<< 7 ||| f.opcode <<< 3 ||| f.aa <<< 2 ||| f.tc <<< 1 ||| f.rd

def secondByte (f : DnsFlags) : UInt8 := f.ra <<< 7 ||| f.z <<< 4 ||| f.rcode

/-- The flags in two bytes. -/
def ofBytes (c d : UInt8) : DnsFlags where
  qr := c >>> 7 &&& 0x01
  opcode := c >>> 3 &&& 0x0F
  aa := c >>> 2 &&& 0x01
  tc := c >>> 1 &&& 0x01
  rd := c &&& 0x01
  ra := d >>> 7 &&& 0x01
  z := d >>> 4 &&& 0x07
  rcode := d &&& 0x0F

/-- The flags of the first byte. -/
def first (qr opcode aa tc rd : UInt8) : DnsFlags where
  qr := qr
  opcode := opcode
  aa := aa
  tc := tc
  rd := rd
  ra := 0
  z := 0
  rcode := 0

/-- The flags of the second byte. -/
def second (ra z rcode : UInt8) : DnsFlags where
  qr := 0
  opcode := 0
  aa := 0
  tc := 0
  rd := 0
  ra := ra
  z := z
  rcode := rcode

theorem ofBytes_first_nat : ∀ qr, qr < 2 → ∀ opcode, opcode < 16 → ∀ aa, aa < 2 →
    ∀ tc, tc < 2 → ∀ rd, rd < 2 →
    ofBytes (first (UInt8.ofNat qr) (UInt8.ofNat opcode) (UInt8.ofNat aa) (UInt8.ofNat tc)
      (UInt8.ofNat rd)).firstByte 0
      = first (UInt8.ofNat qr) (UInt8.ofNat opcode) (UInt8.ofNat aa) (UInt8.ofNat tc)
        (UInt8.ofNat rd) := by
  decide +kernel

theorem ofBytes_second_nat : ∀ ra, ra < 2 → ∀ z, z < 8 → ∀ rcode, rcode < 16 →
    ofBytes 0 (second (UInt8.ofNat ra) (UInt8.ofNat z) (UInt8.ofNat rcode)).secondByte
      = second (UInt8.ofNat ra) (UInt8.ofNat z) (UInt8.ofNat rcode) := by
  decide +kernel

theorem ofBytes_bytes {f : DnsFlags} (h : f.InRange) :
    ofBytes f.firstByte f.secondByte = f := by
  obtain ⟨hqr, hop, haa, htc, hrd, hra, hz, hrc⟩ := h
  have h1 := ofBytes_first_nat f.qr.toNat (UInt8.lt_iff_toNat_lt.mp hqr) f.opcode.toNat
    (UInt8.lt_iff_toNat_lt.mp hop) f.aa.toNat (UInt8.lt_iff_toNat_lt.mp haa) f.tc.toNat
    (UInt8.lt_iff_toNat_lt.mp htc) f.rd.toNat (UInt8.lt_iff_toNat_lt.mp hrd)
  have h2 := ofBytes_second_nat f.ra.toNat (UInt8.lt_iff_toNat_lt.mp hra) f.z.toNat
    (UInt8.lt_iff_toNat_lt.mp hz) f.rcode.toNat (UInt8.lt_iff_toNat_lt.mp hrc)
  simp only [UInt8.ofNat_toNat] at h1 h2
  cases f
  simp only [ofBytes, first, second, firstByte, secondByte, DnsFlags.mk.injEq] at h1 h2 ⊢
  exact ⟨h1.1, h1.2.1, h1.2.2.1, h1.2.2.2.1, h1.2.2.2.2.1, h2.2.2.2.2.2.1, h2.2.2.2.2.2.2.1,
    h2.2.2.2.2.2.2.2⟩

theorem firstByte_ofBytes_nat : ∀ c, c < 256 →
    (ofBytes (UInt8.ofNat c) 0).firstByte = UInt8.ofNat c ∧
      (UInt8.ofNat c >>> 7 &&& 0x01) < 2 ∧ (UInt8.ofNat c >>> 3 &&& 0x0F) < 16 ∧
      (UInt8.ofNat c >>> 2 &&& 0x01) < 2 ∧ (UInt8.ofNat c >>> 1 &&& 0x01) < 2 ∧
      (UInt8.ofNat c &&& 0x01) < 2 := by
  decide +kernel

theorem secondByte_ofBytes_nat : ∀ d, d < 256 →
    (ofBytes 0 (UInt8.ofNat d)).secondByte = UInt8.ofNat d ∧
      (UInt8.ofNat d >>> 7 &&& 0x01) < 2 ∧ (UInt8.ofNat d >>> 4 &&& 0x07) < 8 ∧
      (UInt8.ofNat d &&& 0x0F) < 16 := by
  decide +kernel

/-- Any two bytes are flags. -/
theorem bytes_ofBytes (c d : UInt8) :
    (ofBytes c d).InRange ∧ (ofBytes c d).firstByte = c ∧ (ofBytes c d).secondByte = d := by
  have h1 := firstByte_ofBytes_nat c.toNat c.toNat_lt
  have h2 := secondByte_ofBytes_nat d.toNat d.toNat_lt
  simp only [UInt8.ofNat_toNat] at h1 h2
  obtain ⟨hfirst, hqr, hop, haa, htc, hrd⟩ := h1
  obtain ⟨hsecond, hra, hz, hrc⟩ := h2
  exact ⟨⟨hqr, hop, haa, htc, hrd, hra, hz, hrc⟩, hfirst, hsecond⟩

end DnsFlags

/-! ## Names -/

/-- A label is sent behind its length. -/
def labelBytes (label : Bytes) : Bytes := label.length.toUInt8 :: label

/-- Every label has a byte, and at most `limit`. -/
def LabelsWithin (limit : Nat) (labels : List Bytes) : Prop :=
  ∀ l ∈ labels, 1 ≤ l.length ∧ l.length ≤ limit

theorem LabelsWithin.mono {limit limit' : Nat} {labels : List Bytes}
    (h : LabelsWithin limit labels) (hle : limit ≤ limit') : LabelsWithin limit' labels := by
  intro l hl
  have := h l hl
  omega

/-- What ends a name: the zero byte of the root, or a compression pointer,
which begins with two set bits. -/
inductive NameEnd where
  | root
  | pointer (hi lo : UInt8) (marked : hi >>> 6 = 3)

def NameEnd.bytes : NameEnd → Bytes
  | .root => [0]
  | .pointer hi lo _ => [hi, lo]

/-- A name: a sequence of labels and what ends it. -/
structure DnsName where
  labels : List Bytes
  ending : NameEnd

def DnsName.bytes (n : DnsName) : Bytes := n.labels.flatMap labelBytes ++ n.ending.bytes

theorem byte_toNat {n : Nat} (h : n < 256) : n.toUInt8.toNat = n :=
  UInt8.toNat_ofNat_of_lt h

/-- A byte that no label of at most `limit` bytes begins with. -/
def StopsLabels (limit : Nat) (c : UInt8) : Prop := c = 0 ∨ limit < c.toNat

theorem not_stopsLabels {limit : Nat} {l : Bytes} (hpos : 1 ≤ l.length) (hle : l.length ≤ limit)
    (hlimit : limit ≤ 255) : ¬ StopsLabels limit l.length.toUInt8 := by
  have hnat : l.length.toUInt8.toNat = l.length := byte_toNat (by omega)
  intro h
  rcases h with h | h
  · rw [h] at hnat
    have hzero : (0 : UInt8).toNat = 0 := rfl
    omega
  · omega

theorem marked_stops {hi : UInt8} (h : hi >>> 6 = 3) : StopsLabels 191 hi := by
  right
  have hnat : (hi >>> 6).toNat = 3 := by rw [h]; rfl
  have hshift : (hi >>> 6).toNat = hi.toNat / 64 := by
    simp [Nat.shiftRight_eq_div_pow]
  omega

/-- A sequence of labels can be told from what follows it. -/
theorem labels_unique {limit : Nat} (hlimit : limit ≤ 255) {ls ls' : List Bytes} {c d : UInt8}
    {x y : Bytes} (h : LabelsWithin limit ls) (h' : LabelsWithin limit ls')
    (hc : StopsLabels limit c) (hd : StopsLabels limit d)
    (he : ls.flatMap labelBytes ++ c :: x = ls'.flatMap labelBytes ++ d :: y) :
    ls = ls' ∧ c = d ∧ x = y := by
  induction ls generalizing ls' with
  | nil =>
      cases ls' with
      | nil => simpa using he
      | cons l' ls' =>
          obtain ⟨hpos, hle⟩ := h' l' (by simp)
          simp only [List.flatMap_nil, List.nil_append, List.flatMap_cons, labelBytes,
            List.cons_append, List.cons.injEq] at he
          exact absurd (he.1 ▸ hc) (not_stopsLabels hpos hle hlimit)
  | cons l ls ih =>
      obtain ⟨hpos, hle⟩ := h l (by simp)
      cases ls' with
      | nil =>
          simp only [List.flatMap_nil, List.nil_append, List.flatMap_cons, labelBytes,
            List.cons_append, List.cons.injEq] at he
          exact absurd (he.1 ▸ hd) (not_stopsLabels hpos hle hlimit)
      | cons l' ls' =>
          obtain ⟨hpos', hle'⟩ := h' l' (by simp)
          simp only [List.flatMap_cons, labelBytes, List.cons_append, List.append_assoc,
            List.cons.injEq] at he
          have hlen : l.length = l'.length := by
            have hnat : l.length.toUInt8.toNat = l.length := byte_toNat (by omega)
            have hnat' : l'.length.toUInt8.toNat = l'.length := byte_toNat (by omega)
            rw [← hnat, ← hnat', he.1]
          obtain ⟨hl, hrest⟩ := List.append_inj he.2 hlen
          obtain ⟨hls, hcd⟩ := ih (fun l hl => h l (by simp [hl])) (fun l hl => h' l (by simp [hl]))
            hrest
          exact ⟨by rw [hl, hls], hcd⟩

/-- A name can be told from what follows it. -/
theorem DnsName.bytes_unique {m n : DnsName} {x y : Bytes} (hm : LabelsWithin 191 m.labels)
    (hn : LabelsWithin 191 n.labels) (he : m.bytes ++ x = n.bytes ++ y) : m = n ∧ x = y := by
  obtain ⟨ls, e⟩ := m
  obtain ⟨ls', e'⟩ := n
  simp only [DnsName.bytes, List.append_assoc] at he
  cases e with
  | root =>
      cases e' with
      | root =>
          obtain ⟨rfl, _, rfl⟩ := labels_unique (by omega) hm hn (.inl rfl) (.inl rfl) he
          exact ⟨rfl, rfl⟩
      | pointer hi lo marked =>
          obtain ⟨_, rfl, _⟩ := labels_unique (by omega) hm hn (.inl rfl) (marked_stops marked) he
          exact absurd marked (by decide)
  | pointer hi lo marked =>
      cases e' with
      | root =>
          obtain ⟨_, rfl, _⟩ := labels_unique (by omega) hm hn (marked_stops marked) (.inl rfl) he
          exact absurd marked (by decide)
      | pointer hi' lo' marked' =>
          obtain ⟨rfl, rfl, hrest⟩ :=
            labels_unique (by omega) hm hn (marked_stops marked) (marked_stops marked') he
          cases hrest
          exact ⟨rfl, rfl⟩

/-! ## Questions, records and messages -/

structure Question where
  labels : List Bytes
  qtype : UInt16
  qclass : UInt16

/-- The name of a question is the first of a message, so it ends in the
root. -/
def Question.bytes (q : Question) : Bytes :=
  q.labels.flatMap labelBytes ++ [0] ++ be16 q.qtype ++ be16 q.qclass

/-- The data of the record types that the parser knows. -/
inductive RData where
  | a (addr : Bytes) (four : addr.length = 4)
  | aaaa (addr : Bytes) (sixteen : addr.length = 16)
  | cname (name : DnsName)

namespace RData

def type : RData → UInt16
  | .a _ _ => ipv4Type
  | .aaaa _ _ => ipv6Type
  | .cname _ => cnameType

def bytes : RData → Bytes
  | .a addr _ => addr
  | .aaaa addr _ => addr
  | .cname name => name.bytes

/-- The labels in the data. -/
def labels : RData → List Bytes
  | .cname name => name.labels
  | _ => []

end RData

structure Record where
  name : DnsName
  aClass : UInt16
  ttl : UInt32
  rdLength : UInt16
  rdata : RData

namespace Record

/-- The fields between the name and RDLENGTH. -/
def fixed (r : Record) : Bytes := be16 r.rdata.type ++ be16 r.aClass ++ be32 r.ttl

def bytes (r : Record) : Bytes := r.name.bytes ++ r.fixed ++ be16 r.rdLength ++ r.rdata.bytes

end Record

structure Message where
  header : DnsHeader
  question : Question
  answers : List Record

def DnsHeader.bytes (h : DnsHeader) : Bytes :=
  be16 h.id ++ [h.flags.firstByte, h.flags.secondByte] ++ be16 h.qdcount ++ be16 h.ancount ++
    be16 h.nscount ++ be16 h.arcount

def Message.bytes (m : Message) : Bytes :=
  m.header.bytes ++ m.question.bytes ++ m.answers.flatMap Record.bytes

theorem DnsHeader.bytes_length (h : DnsHeader) : h.bytes.length = 12 := by
  simp [DnsHeader.bytes, be16]

theorem DnsHeader.bytes_injective {h h' : DnsHeader} (hf : h.flags.InRange)
    (hf' : h'.flags.InRange) (he : h.bytes = h'.bytes) : h = h' := by
  have hsplit : ∀ g : DnsHeader, g.bytes = be16 g.id ++ ([g.flags.firstByte, g.flags.secondByte]
      ++ (be16 g.qdcount ++ (be16 g.ancount ++ (be16 g.nscount ++ be16 g.arcount)))) := by
    intro g
    simp [DnsHeader.bytes]
  rw [hsplit, hsplit] at he
  obtain ⟨hid, he⟩ := List.append_inj he rfl
  obtain ⟨hflags, he⟩ := List.append_inj he rfl
  obtain ⟨hqd, he⟩ := List.append_inj he rfl
  obtain ⟨han, he⟩ := List.append_inj he rfl
  obtain ⟨hns, har⟩ := List.append_inj he rfl
  simp only [List.cons.injEq, and_true] at hflags
  have hflag : h.flags = h'.flags := by
    rw [← DnsFlags.ofBytes_bytes hf, ← DnsFlags.ofBytes_bytes hf', hflags.1, hflags.2]
  cases h
  cases h'
  simp only [DnsHeader.mk.injEq]
  exact ⟨be16_injective hid, hflag, be16_injective hqd, be16_injective han, be16_injective hns,
    be16_injective har⟩

end HttpdProxy
