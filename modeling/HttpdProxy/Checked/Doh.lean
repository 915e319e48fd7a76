import HttpdProxy.Lib.Checked
import HttpdProxy.Parsers.Doh

/-!
# `doh_parser.c`, with every store into its arrays checked

The states that store into the name of the question, and into the name and the
data of the current answer, once more, with `none` where there is no such
answer, where the index is outside the array and where an 8-bit length wraps
around. The other states do not store into an array.
-/

namespace HttpdProxy

open Lib (storeAt)

/-- `x++` of a `uint8_t`. -/
def increment? (x : UInt8) : Option UInt8 := if x.toNat + 1 < 256 then some (x + 1) else none

/-- `memcpy(a + off, bs, ..)`. -/
def storeBlock (a : Bytes) (off : Nat) (bs : Bytes) : Option Bytes :=
  if off + bs.length ≤ a.length then some (putAt a off bs) else none

/-- An update of `answers[answer_index]`. -/
def DohResponseParser.modifyAnswer? (p : DohResponseParser) (f : Answer → Option Answer) :
    Option DohResponseParser := do
  let as ← p.response.answers
  let a ← as[p.response.answerIndex.toNat]?
  let a ← f a
  some { p with
    response := { p.response with answers := some (as.set p.response.answerIndex.toNat a) } }

/-- `qname[qname_size++] = c`. -/
def DnsQuestion.push? (c : UInt8) (q : DnsQuestion) : Option DnsQuestion := do
  let qname ← storeAt q.qname (q.qnameSize.toNat : Int) c
  let qnameSize ← increment? q.qnameSize
  some { q with qname := qname, qnameSize := qnameSize }

/-- `r_question_qname_label`. -/
def rQuestionQnameLabel? (p : DohResponseParser) (c : UInt8) : Option DohResponseParser :=
  if p.i ≥ p.n then some p.fail
  else do
    let q ← p.response.question.push? c
    let p := { p.setQuestion q with i := p.i + 1 }
    if p.i = p.n then do
      let q ← p.response.question.push? (chr '.')
      some { p.setQuestion q with state := .responseQuestionQnameLabelLength }
    else some { p with state := .responseQuestionQnameLabel }

/-- `a_name.name[name_length++] = c`. -/
def Answer.pushName? (c : UInt8) (a : Answer) : Option Answer := do
  let name ← storeAt a.name (a.nameLength.toNat : Int) c
  let nameLength ← increment? a.nameLength
  some { a with name := name, nameLength := nameLength }

/-- `r_answer_name_label`. -/
def rAnswerNameLabel? (p : DohResponseParser) (c : UInt8) : Option DohResponseParser :=
  if p.i ≥ p.n then some p.fail
  else do
    let p ← p.modifyAnswer? (Answer.pushName? c)
    let p := { p with i := p.i + 1 }
    if p.i = p.n then do
      let p ← p.modifyAnswer? (Answer.pushName? (chr '.'))
      some { p with state := .responseAnswerNameLabelLength }
    else some { p with state := .responseAnswerNameLabel }

/-- One byte of an A record's data. -/
def Answer.pushDecimal? (c : UInt8) (a : Answer) : Option Answer := do
  let text := decimal c.toNat
  -- `sprintf` stores the text and a NUL, and the dot goes over the NUL
  let arData ← storeBlock a.arData a.aRdataLength.toNat (text ++ [0])
  let arData ← storeAt arData ((a.aRdataLength + text.length.toUInt16).toNat : Int) (chr '.')
  some { a with arData := arData, aRdataLength := a.aRdataLength + text.length.toUInt16 + 1 }

/-- The end of an A record. -/
def Answer.closeIpv4? (a : Answer) : Option Answer := do
  let arData ← storeAt a.arData ((a.aRdataLength - 1).toNat : Int) 0
  some { a with
    aRdataLength := a.aRdataLength - 1
    arData := arData
    aip :=
      match inetPton4 (cstr arData) with
      | some addr => addr ++ a.aip.drop 4
      | none => a.aip }

/-- `r_answer_ipv4_rdata`. -/
def rAnswerIpv4Rdata? (p : DohResponseParser) (c : UInt8) : Option DohResponseParser :=
  if p.i ≥ p.n then some p.fail
  else do
    let p ← p.modifyAnswer? (Answer.pushDecimal? c)
    let p := { p with i := p.i + 1 }
    if p.i = p.n then do
      let p ← p.modifyAnswer? Answer.closeIpv4?
      some p.nextAnswer
    else some { p with state := .responseAnswerIpv4Rdata }

/-- One byte of an AAAA record's data. -/
def Answer.pushIpv6? (i : Nat) (c : UInt8) (a : Answer) : Option Answer := do
  let aip ← storeAt a.aip (i : Int) c
  some { a with aip := aip }

/-- The end of an AAAA record. -/
def Answer.closeIpv6? (a : Answer) : Option Answer := do
  let arData ← storeBlock a.arData 0 (inetNtop6 a.aip ++ [0])
  some { a with aRdataLength := 45, arData := arData }

/-- `r_answer_ipv6_rdata`. -/
def rAnswerIpv6Rdata? (p : DohResponseParser) (c : UInt8) : Option DohResponseParser :=
  if p.i ≥ p.n then some p.fail
  else do
    let p' ← p.modifyAnswer? (Answer.pushIpv6? p.i c)
    let p := { p' with i := p.i + 1 }
    if p.i = p.n then do
      let p ← p.modifyAnswer? Answer.closeIpv6?
      some p.nextAnswer
    else some { p with state := .responseAnswerIpv6Rdata }

/-- `doh_response_parser_feed`, with `calloc` succeeding. -/
def dohResponseParserFeed? (p : DohResponseParser) (c : UInt8) : Option DohResponseParser :=
  match p.state with
  | .responseQuestionQnameLabel => rQuestionQnameLabel? p c
  | .responseAnswerNameLabel => rAnswerNameLabel? p c
  | .responseAnswerIpv4Rdata => rAnswerIpv4Rdata? p c
  | .responseAnswerIpv6Rdata => rAnswerIpv6Rdata? p c
  | _ => some (dohResponseParserFeed true p c)

end HttpdProxy
