import HttpdProxy.Utils.Net

/-!
# `doh_parser.c`: the DNS message of a DoH reply

The parser walks the message byte by byte, with `i` counting inside the
current field and `n` its length. What it keeps is the header, the question
and an array of answers, allocated with `calloc` when ANCOUNT is known; a null
array is `none`. An access `answers[answer_index]` that falls outside the
array is recorded as no change.

`calloc` may fail, so the feed takes what it would answer.
-/

namespace HttpdProxy

def maxQuestionQnameLength : Nat := 255
def maxAnswerNameLength : Nat := 255
def inet6Addrstrlen : Nat := 46
def maxCnameLength : Nat := 255

def ipv4Type : UInt16 := 1
def ipv6Type : UInt16 := 28
def cnameType : UInt16 := 5

/-- One answer record. `name` is the array of the union `a_name`, and
`namePtr` whether its pointer member was stored over it; `aip` is the union of
the two address types, the IPv4 address being its first four bytes. -/
structure Answer where
  name : Bytes
  namePtr : Bool
  nameLength : UInt8
  aOffset : UInt16
  aType : UInt16
  aClass : UInt16
  aTtl : UInt32
  aRdLength : UInt16
  aRdataLength : UInt16
  arData : Bytes
  aip : Bytes
  deriving DecidableEq, Repr

/-- A record as `calloc` leaves it. -/
def Answer.zero : Answer where
  name := List.replicate maxAnswerNameLength 0
  namePtr := false
  nameLength := 0
  aOffset := 0
  aType := 0
  aClass := 0
  aTtl := 0
  aRdLength := 0
  aRdataLength := 0
  arData := List.replicate inet6Addrstrlen 0
  aip := List.replicate 16 0

/-- `aip.ipv4`. -/
def Answer.ipv4 (a : Answer) : Bytes := a.aip.take 4

/-- `aip.ipv6`. -/
def Answer.ipv6 (a : Answer) : Bytes := a.aip

structure DnsFlags where
  qr : UInt8
  opcode : UInt8
  aa : UInt8
  tc : UInt8
  rd : UInt8
  ra : UInt8
  z : UInt8
  rcode : UInt8
  deriving DecidableEq, Repr

structure DnsHeader where
  id : UInt16
  flags : DnsFlags
  qdcount : UInt16
  ancount : UInt16
  nscount : UInt16
  arcount : UInt16
  deriving DecidableEq, Repr

structure DnsQuestion where
  qnameSize : UInt8
  qname : Bytes
  qtype : UInt16
  qclass : UInt16
  deriving DecidableEq, Repr

structure DohResponse where
  header : DnsHeader
  question : DnsQuestion
  answers : Option (List Answer)
  answerIndex : UInt16
  deriving DecidableEq, Repr

/-- The response as `memset` leaves it. -/
def DohResponse.zero : DohResponse where
  header :=
    { id := 0
      flags :=
        { qr := 0, opcode := 0, aa := 0, tc := 0, rd := 0, ra := 0, z := 0, rcode := 0 }
      qdcount := 0
      ancount := 0
      nscount := 0
      arcount := 0 }
  question :=
    { qnameSize := 0
      qname := List.replicate maxQuestionQnameLength 0
      qtype := 0
      qclass := 0 }
  answers := none
  answerIndex := 0

inductive DohResponseState where
  | responseHeaderId
  | responseHeaderFlags
  | responseHeaderQdcount
  | responseHeaderAncount
  | responseHeaderNscount
  | responseHeaderArcount
  | responseQuestionQnameLabelLength
  | responseQuestionQnameLabel
  | responseQuestionQtype
  | responseQuestionQclass
  | responseAnswerNameLabelLength
  | responseAnswerNameLabel
  | responseAnswerNamePointer
  | responseAnswerType
  | responseAnswerClass
  | responseAnswerTtl
  | responseAnswerRdlength
  | responseAnswerIpv4Rdata
  | responseAnswerIpv6Rdata
  | responseAnswerCnameLabelRdata
  | responseAnswerCnameLabelLengthRdata
  | responseAnswerCnamePointerRdata
  | dohResponseDone
  | dohNoAnswers
  | responseMemAllocError
  | dohResponseError
  deriving DecidableEq, Repr

structure DohResponseParser where
  response : DohResponse
  state : DohResponseState
  i : Nat
  n : Nat
  deriving DecidableEq, Repr

/-- `doh_response_parser_init`. -/
def dohResponseParserInit : DohResponseParser where
  response := .zero
  state := .responseHeaderId
  i := 0
  n := 2

/-- `doh_response_parser_destroy`: the answers are freed, the rest stays. -/
def dohResponseParserDestroy (p : DohResponseParser) : DohResponseParser :=
  { p with response := { p.response with answers := none } }

namespace DohResponseParser

def header (p : DohResponseParser) : DnsHeader := p.response.header

def setHeader (p : DohResponseParser) (h : DnsHeader) : DohResponseParser :=
  { p with response := { p.response with header := h } }

def setQuestion (p : DohResponseParser) (q : DnsQuestion) : DohResponseParser :=
  { p with response := { p.response with question := q } }

def goto (p : DohResponseParser) (s : DohResponseState) (i n : Nat) : DohResponseParser :=
  { p with state := s, i := i, n := n }

def fail (p : DohResponseParser) : DohResponseParser :=
  { p with state := .dohResponseError }

/-- An update of `answers[answer_index]`. -/
def modifyAnswer (p : DohResponseParser) (f : Answer → Answer) : DohResponseParser :=
  { p with
    response :=
      { p.response with
        answers := p.response.answers.map fun as =>
          as.modify p.response.answerIndex.toNat f } }

/-- `answers[answer_index]`. -/
def answer (p : DohResponseParser) : Answer :=
  ((p.response.answers.getD [])[p.response.answerIndex.toNat]?).getD .zero

/-- A record ended: `++answer_index == ancount` decides whether another one
follows. -/
def nextAnswer (p : DohResponseParser) : DohResponseParser :=
  let p := { p with response := { p.response with answerIndex := p.response.answerIndex + 1 } }
  if p.response.answerIndex = p.header.ancount then { p with state := .dohResponseDone }
  else { p with state := .responseAnswerNameLabelLength }

end DohResponseParser

/-- The high byte of a 16-bit field. -/
def hi16 (c : UInt8) : UInt16 := c.toUInt16 <<< 8

/-- A 16-bit field in two bytes: the first is shifted up, the second added,
and any other count is an error. -/
def field16 (p : DohResponseParser) (s : DohResponseState)
    (first second : DohResponseParser) : DohResponseParser :=
  match p.i with
  | 0 => { first with i := p.i + 1, state := s }
  | 1 => second
  | _ => p.fail

/-- `r_header_id`. -/
def rHeaderId (p : DohResponseParser) (c : UInt8) : DohResponseParser :=
  field16 p .responseHeaderId (p.setHeader { p.header with id := hi16 c })
    ((p.setHeader { p.header with id := p.header.id + c.toUInt16 }).goto
      .responseHeaderFlags 0 2)

/-- `r_header_flags`. -/
def rHeaderFlags (p : DohResponseParser) (c : UInt8) : DohResponseParser :=
  field16 p .responseHeaderFlags
    (p.setHeader { p.header with
      flags := { p.header.flags with
        qr := c >>> 7 &&& 0x01
        opcode := c >>> 3 &&& 0x0F
        aa := c >>> 2 &&& 0x01
        tc := c >>> 1 &&& 0x01
        rd := c &&& 0x01 } })
    ((p.setHeader { p.header with
      flags := { p.header.flags with
        ra := c >>> 7 &&& 0x01
        z := c >>> 4 &&& 0x07
        rcode := c &&& 0x0F } }).goto .responseHeaderQdcount 0 2)

/-- `r_header_qdcount`. -/
def rHeaderQdcount (p : DohResponseParser) (c : UInt8) : DohResponseParser :=
  field16 p .responseHeaderQdcount (p.setHeader { p.header with qdcount := hi16 c })
    ((p.setHeader { p.header with qdcount := p.header.qdcount + c.toUInt16 }).goto
      .responseHeaderAncount 0 2)

/-- `r_header_ancount`, which allocates the answers. -/
def rHeaderAncount (alloc : Bool) (p : DohResponseParser) (c : UInt8) :
    DohResponseParser :=
  field16 p .responseHeaderAncount (p.setHeader { p.header with ancount := hi16 c })
    (let p := p.setHeader { p.header with ancount := p.header.ancount + c.toUInt16 }
     if p.header.ancount = 0 then p.goto .dohNoAnswers 0 2
     else if alloc then
       { p.goto .responseHeaderNscount 0 2 with
         response := { p.response with
           answers := some (List.replicate p.header.ancount.toNat .zero) } }
     else
       { p.goto .responseMemAllocError 0 2 with
         response := { p.response with answers := none } })

/-- `r_header_nscount`. -/
def rHeaderNscount (p : DohResponseParser) (c : UInt8) : DohResponseParser :=
  field16 p .responseHeaderNscount (p.setHeader { p.header with nscount := hi16 c })
    ((p.setHeader { p.header with nscount := p.header.nscount + c.toUInt16 }).goto
      .responseHeaderArcount 0 2)

/-- `r_header_arcount`. -/
def rHeaderArcount (p : DohResponseParser) (c : UInt8) : DohResponseParser :=
  field16 p .responseHeaderArcount (p.setHeader { p.header with arcount := hi16 c })
    { p.setHeader { p.header with arcount := p.header.arcount + c.toUInt16 } with
      state := .responseQuestionQnameLabelLength }

/-- `r_question_qname_label_length`. -/
def rQuestionQnameLabelLength (p : DohResponseParser) (c : UInt8) : DohResponseParser :=
  if c = 0 then p.goto .responseQuestionQtype 0 2
  else p.goto .responseQuestionQnameLabel 0 c.toNat

/-- `qname[qname_size++] = c`. -/
def pushQname (p : DohResponseParser) (c : UInt8) : DohResponseParser :=
  p.setQuestion
    { p.response.question with
      qname := p.response.question.qname.set p.response.question.qnameSize.toNat c
      qnameSize := p.response.question.qnameSize + 1 }

/-- `r_question_qname_label`. -/
def rQuestionQnameLabel (p : DohResponseParser) (c : UInt8) : DohResponseParser :=
  if p.i ≥ p.n then p.fail
  else
    let p := { pushQname p c with i := p.i + 1 }
    if p.i = p.n then
      { pushQname p (chr '.') with state := .responseQuestionQnameLabelLength }
    else { p with state := .responseQuestionQnameLabel }

/-- `r_question_qtype`. -/
def rQuestionQtype (p : DohResponseParser) (c : UInt8) : DohResponseParser :=
  field16 p .responseQuestionQtype
    (p.setQuestion { p.response.question with qtype := hi16 c })
    ((p.setQuestion
      { p.response.question with qtype := p.response.question.qtype + c.toUInt16 }).goto
      .responseQuestionQclass 0 2)

/-- `r_question_qclass`. -/
def rQuestionQclass (p : DohResponseParser) (c : UInt8) : DohResponseParser :=
  field16 p .responseQuestionQclass
    (p.setQuestion { p.response.question with qclass := hi16 c })
    { p.setQuestion
        { p.response.question with qclass := p.response.question.qclass + c.toUInt16 } with
      i := 0
      state := .responseAnswerNameLabelLength }

/-- `r_answer_name_label_length`. -/
def rAnswerNameLabelLength (p : DohResponseParser) (c : UInt8) : DohResponseParser :=
  if c = 0 then p.goto .responseAnswerType 0 2
  else if c >>> 6 = 0x03 then
    (p.modifyAnswer fun a => { a with aOffset := (c.toUInt16 &&& 0x3F) <<< 8 }).goto
      .responseAnswerNamePointer 1 2
  else p.goto .responseAnswerNameLabel 0 c.toNat

/-- `a_name.name[name_length++] = c`. -/
def Answer.pushName (c : UInt8) (a : Answer) : Answer :=
  { a with name := a.name.set a.nameLength.toNat c, nameLength := a.nameLength + 1 }

/-- `r_answer_name_label`. -/
def rAnswerNameLabel (p : DohResponseParser) (c : UInt8) : DohResponseParser :=
  if p.i ≥ p.n then p.fail
  else
    let p := { p.modifyAnswer (Answer.pushName c) with i := p.i + 1 }
    if p.i = p.n then
      { p.modifyAnswer (Answer.pushName (chr '.')) with
        state := .responseAnswerNameLabelLength }
    else { p with state := .responseAnswerNameLabel }

/-- `r_answer_name_pointer`. -/
def rAnswerNamePointer (p : DohResponseParser) (c : UInt8) : DohResponseParser :=
  match p.i with
  | 1 =>
      (p.modifyAnswer fun a =>
        { a with aOffset := a.aOffset + c.toUInt16, namePtr := true }).goto
        .responseAnswerType 0 2
  | _ => p.fail

/-- `r_answer_type`. -/
def rAnswerType (p : DohResponseParser) (c : UInt8) : DohResponseParser :=
  field16 p .responseAnswerType (p.modifyAnswer fun a => { a with aType := hi16 c })
    ((p.modifyAnswer fun a => { a with aType := a.aType + c.toUInt16 }).goto
      .responseAnswerClass 0 2)

/-- `r_answer_class`. -/
def rAnswerClass (p : DohResponseParser) (c : UInt8) : DohResponseParser :=
  field16 p .responseAnswerClass (p.modifyAnswer fun a => { a with aClass := hi16 c })
    ((p.modifyAnswer fun a => { a with aClass := a.aClass + c.toUInt16 }).goto
      .responseAnswerTtl 0 4)

/-- `r_answer_ttl`. -/
def rAnswerTtl (p : DohResponseParser) (c : UInt8) : DohResponseParser :=
  match p.i with
  | 0 =>
      (p.modifyAnswer fun a => { a with aTtl := c.toUInt32 <<< 24 }).goto
        .responseAnswerTtl 1 p.n
  | 1 =>
      (p.modifyAnswer fun a => { a with aTtl := a.aTtl + c.toUInt32 <<< 16 }).goto
        .responseAnswerTtl 2 p.n
  | 2 =>
      (p.modifyAnswer fun a => { a with aTtl := a.aTtl + c.toUInt32 <<< 8 }).goto
        .responseAnswerTtl 3 p.n
  | 3 =>
      (p.modifyAnswer fun a => { a with aTtl := a.aTtl + c.toUInt32 }).goto
        .responseAnswerRdlength 0 2
  | _ => p.fail

/-- `r_answer_rdlength`, which also dispatches on the type of the record. -/
def rAnswerRdlength (p : DohResponseParser) (c : UInt8) : DohResponseParser :=
  field16 p .responseAnswerRdlength
    (p.modifyAnswer fun a => { a with aRdLength := hi16 c })
    (let p := p.modifyAnswer fun a => { a with aRdLength := a.aRdLength + c.toUInt16 }
     if p.answer.aType = ipv4Type then p.goto .responseAnswerIpv4Rdata 0 4
     else if p.answer.aType = ipv6Type then p.goto .responseAnswerIpv6Rdata 0 16
     else if p.answer.aType = cnameType then
       p.goto .responseAnswerCnameLabelLengthRdata 0 maxCnameLength
     else { p with i := 0, state := .dohResponseError })

/-- One byte of an A record's data: its decimal text and a dot are appended to
`ar_data`. -/
def Answer.pushDecimal (c : UInt8) (a : Answer) : Answer :=
  let text := decimal c.toNat
  { a with
    -- `sprintf` ends the text with a NUL, which the dot then overwrites
    arData := putAt a.arData a.aRdataLength.toNat (text ++ [chr '.'])
    aRdataLength := a.aRdataLength + text.length.toUInt16 + 1 }

/-- The end of an A record: the last dot becomes the NUL of the text, and the
text is read back into the address. -/
def Answer.closeIpv4 (a : Answer) : Answer :=
  let arData := a.arData.set (a.aRdataLength - 1).toNat 0
  { a with
    aRdataLength := a.aRdataLength - 1
    arData := arData
    aip :=
      match inetPton4 (cstr arData) with
      | some addr => addr ++ a.aip.drop 4
      | none => a.aip }

/-- `r_answer_ipv4_rdata`. -/
def rAnswerIpv4Rdata (p : DohResponseParser) (c : UInt8) : DohResponseParser :=
  if p.i ≥ p.n then p.fail
  else
    let p := { p.modifyAnswer (Answer.pushDecimal c) with i := p.i + 1 }
    if p.i = p.n then (p.modifyAnswer Answer.closeIpv4).nextAnswer
    else { p with state := .responseAnswerIpv4Rdata }

/-- The end of an AAAA record: the text of the address, which has always
room. -/
def Answer.closeIpv6 (a : Answer) : Answer :=
  { a with
    aRdataLength := 45
    arData := putAt a.arData 0 (inetNtop6 a.aip ++ [0]) }

/-- `r_answer_ipv6_rdata`. -/
def rAnswerIpv6Rdata (p : DohResponseParser) (c : UInt8) : DohResponseParser :=
  if p.i ≥ p.n then p.fail
  else
    let p := { p.modifyAnswer fun a => { a with aip := a.aip.set p.i c } with i := p.i + 1 }
    if p.i = p.n then (p.modifyAnswer Answer.closeIpv6).nextAnswer
    else { p with state := .responseAnswerIpv6Rdata }

/-- `r_answer_cname_label_length_rdata`; the data of a CNAME is not kept. -/
def rAnswerCnameLabelLengthRdata (p : DohResponseParser) (c : UInt8) :
    DohResponseParser :=
  if c = 0 then p.nextAnswer
  else if c >>> 6 = 0x03 then p.goto .responseAnswerCnamePointerRdata 1 2
  else p.goto .responseAnswerCnameLabelRdata 0 c.toNat

/-- `r_answer_cname_label_rdata`. -/
def rAnswerCnameLabelRdata (p : DohResponseParser) (_ : UInt8) : DohResponseParser :=
  if p.i ≥ p.n then p.fail
  else
    let p := { p with i := p.i + 1 }
    if p.i = p.n then { p with state := .responseAnswerCnameLabelLengthRdata }
    else { p with state := .responseAnswerCnameLabelRdata }

/-- `r_answer_cname_pointer_rdata`. -/
def rAnswerCnamePointerRdata (p : DohResponseParser) (_ : UInt8) : DohResponseParser :=
  match p.i with
  | 1 => { p with i := 0 }.nextAnswer
  | _ => p.fail

/-- `doh_response_parser_feed`. -/
def dohResponseParserFeed (alloc : Bool) (p : DohResponseParser) (c : UInt8) :
    DohResponseParser :=
  match p.state with
  | .responseHeaderId => rHeaderId p c
  | .responseHeaderFlags => rHeaderFlags p c
  | .responseHeaderQdcount => rHeaderQdcount p c
  | .responseHeaderAncount => rHeaderAncount alloc p c
  | .responseHeaderNscount => rHeaderNscount p c
  | .responseHeaderArcount => rHeaderArcount p c
  | .responseQuestionQnameLabelLength => rQuestionQnameLabelLength p c
  | .responseQuestionQnameLabel => rQuestionQnameLabel p c
  | .responseQuestionQtype => rQuestionQtype p c
  | .responseQuestionQclass => rQuestionQclass p c
  | .responseAnswerNameLabelLength => rAnswerNameLabelLength p c
  | .responseAnswerNameLabel => rAnswerNameLabel p c
  | .responseAnswerNamePointer => rAnswerNamePointer p c
  | .responseAnswerType => rAnswerType p c
  | .responseAnswerClass => rAnswerClass p c
  | .responseAnswerTtl => rAnswerTtl p c
  | .responseAnswerRdlength => rAnswerRdlength p c
  | .responseAnswerIpv4Rdata => rAnswerIpv4Rdata p c
  | .responseAnswerIpv6Rdata => rAnswerIpv6Rdata p c
  | .responseAnswerCnameLabelRdata => rAnswerCnameLabelRdata p c
  | .responseAnswerCnameLabelLengthRdata => rAnswerCnameLabelLengthRdata p c
  | .responseAnswerCnamePointerRdata => rAnswerCnamePointerRdata p c
  | .dohResponseDone | .dohNoAnswers | .responseMemAllocError | .dohResponseError => p

end HttpdProxy
