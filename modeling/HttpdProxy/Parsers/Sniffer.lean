import HttpdProxy.Utils.Base64
import HttpdProxy.Utils.StringParser

/-!
# `sniffer_parser.c`: credentials seen on the wire

The sniffer is fed every relayed byte together with the side it came from. It
looks for an HTTP `Authorization: Basic` header or for a POP3 login, by the
port of the request.
-/

namespace HttpdProxy

def maxAuthValueLength : Nat := 1024
def maxUserLength : Nat := 40
def maxPasswordLength : Nat := 40

/-- `CLIENT_OWNED` and `ORIGIN_OWNED`. -/
inductive DataOwner where
  | clientOwned
  | originOwned
  deriving DecidableEq, Repr

inductive SnifferState where
  | sniffStart
  | sniffHttpVersion
  | sniffHttpAuthorization
  | sniffHttpAuthorizationBasic
  | sniffHttpAuthorizationValue
  | sniffPop3OriginAck
  | sniffPop3UserUsername
  | sniffPop3UserUsernameValue
  | sniffPop3OriginUserAck
  | sniffPop3UserPass
  | sniffPop3UserPassValue
  | sniffPop3OriginPassAck
  | sniffDone
  | sniffError
  deriving DecidableEq, Repr

inductive SniffedProtocol where
  | pop3
  | http
  deriving DecidableEq, Repr

/-- `string_parser` is `none` while `parser_is_set` is false. -/
structure SnifferParser where
  state : SnifferState
  user : Bytes
  password : Bytes
  authValue : Bytes
  sniffedProtocol : SniffedProtocol
  stringParser : Option StringParser
  i : Nat
  deriving DecidableEq, Repr

/-- `sniffer_parser_init`. -/
def snifferParserInit : SnifferParser where
  state := .sniffStart
  user := List.replicate (maxUserLength + 1) 0
  password := List.replicate (maxPasswordLength + 1) 0
  authValue := List.replicate (maxAuthValueLength + 1) 0
  sniffedProtocol := .pop3
  stringParser := none
  i := 0

/-- `set_string_parser`. -/
def setStringParser (p : SnifferParser) (s : String) : SnifferParser :=
  { p with stringParser := some (parserInit (parserUtilsStrcmpi (ascii s))) }

/-- `modify_sniffer_state`. -/
def modifySnifferState (p : SnifferParser) (newState : SnifferState) : SnifferParser :=
  setStringParser { p with state := newState } "AUTHORIZATION:"

namespace SnifferParser

def goto (p : SnifferParser) (s : SnifferState) : SnifferParser := { p with state := s }

/-- One byte through the string parser: `eq` is taken on a complete match, a
failed match resets the parser, and the state stays `s`. -/
def scan (p : SnifferParser) (s : SnifferState) (c : UInt8)
    (eq : SnifferParser → SnifferParser) : SnifferParser :=
  match p.stringParser with
  | none => p.goto .sniffError
  | some sp =>
      let sp := parserFeed sp c
      match sp.e1 with
      | .eq => eq { p with stringParser := some sp }
      | .neq => { p with stringParser := some (parserReset sp), state := s }
      | .mayEq => { p with stringParser := some sp, state := s }

end SnifferParser

/-- `s_http_version`. -/
def sHttpVersion (c : UInt8) (p : SnifferParser) (owner : DataOwner) : SnifferParser :=
  if owner = .originOwned then p.goto .sniffError
  else if c = chr '\r' then p.goto .sniffError
  else p.scan .sniffHttpVersion c fun p =>
    (setStringParser p "AUTHORIZATION:").goto .sniffHttpAuthorization

/-- `s_http_authorization`. -/
def sHttpAuthorization (c : UInt8) (p : SnifferParser) (owner : DataOwner) :
    SnifferParser :=
  if owner = .originOwned then p.goto .sniffError
  else p.scan .sniffHttpAuthorization c fun p =>
    (setStringParser p "BASIC").goto .sniffHttpAuthorizationBasic

/-- `s_http_authorization_basic`. -/
def sHttpAuthorizationBasic (c : UInt8) (p : SnifferParser) (owner : DataOwner) :
    SnifferParser :=
  if owner = .originOwned then p.goto .sniffError
  else if c = chr '\r' then p.goto .sniffError
  else p.scan .sniffHttpAuthorizationBasic c fun p =>
    { p with i := 0, state := .sniffHttpAuthorizationValue }

/-- `parse_user_and_password`; with no colon the password length wraps below
zero and is cut to the maximum, and the bytes copied lie past the decoded
ones, where the model reads zeros. -/
def parseUserAndPassword (auth : Bytes) (p : SnifferParser) : SnifferParser :=
  let i := (auth.takeWhile (· != chr ':')).length
  let size := min i maxUserLength
  let p :=
    if i < auth.length then
      { p with user := (putAt p.user 0 (auth.take size)).set size 0 }
    else p
  let left := if i + 1 ≤ auth.length then auth.length - (i + 1) else maxPasswordLength
  let size := min left maxPasswordLength
  let text := (List.range size).map fun k => auth.getD (i + 1 + k) 0
  { p with password := (putAt p.password 0 text).set size 0 }

/-- `decode_and_parse_auth`. -/
def decodeAndParseAuth (p : SnifferParser) : SnifferParser :=
  match base64Decode (p.authValue.take p.i) with
  | none => p.goto .sniffError
  | some auth =>
      { parseUserAndPassword auth p with sniffedProtocol := .http, state := .sniffDone }

/-- `s_http_authorization_value`. -/
def sHttpAuthorizationValue (c : UInt8) (p : SnifferParser) (owner : DataOwner) :
    SnifferParser :=
  if owner = .originOwned then p.goto .sniffError
  else if p.i ≥ maxAuthValueLength then p.goto .sniffError
  else if isSpace c then p.goto .sniffHttpAuthorizationValue
  else if c = chr '\r' then
    decodeAndParseAuth { p with authValue := p.authValue.set p.i 0 }
  else if isBase64 c then
    { p with
      authValue := p.authValue.set p.i c
      i := p.i + 1
      state := .sniffHttpAuthorizationValue }
  else p.goto .sniffError

/-- `s_pop3_origin_ack`. -/
def sPop3OriginAck (c : UInt8) (p : SnifferParser) (owner : DataOwner) : SnifferParser :=
  if owner = .clientOwned then p.goto .sniffError
  else p.scan .sniffPop3OriginAck c fun p =>
    (setStringParser p "USER").goto .sniffPop3UserUsername

/-- `s_start`. -/
def sStart (c : UInt8) (p : SnifferParser) (owner : DataOwner) (port : UInt16) :
    SnifferParser :=
  if port = 110 then sPop3OriginAck c (setStringParser p "+OK") owner
  else if port = 80 then sHttpVersion c (setStringParser p "HTTP/1") owner
  else p.goto .sniffStart

/-- `s_pop3_user_username`. -/
def sPop3UserUsername (c : UInt8) (p : SnifferParser) (owner : DataOwner) :
    SnifferParser :=
  if owner = .originOwned then p.goto .sniffPop3UserUsername
  else p.scan .sniffPop3UserUsername c fun p =>
    { p with i := 0, state := .sniffPop3UserUsernameValue }

/-- `s_pop3_user_username_value`. -/
def sPop3UserUsernameValue (c : UInt8) (p : SnifferParser) (owner : DataOwner) :
    SnifferParser :=
  if owner = .originOwned then p.goto .sniffPop3UserUsernameValue
  else if p.i ≥ maxUserLength then p.goto .sniffError
  else if isSpace c || c == chr '\r' then p.goto .sniffPop3UserUsernameValue
  else if c = chr '\n' then
    (setStringParser { p with user := p.user.set p.i 0 } "+OK").goto .sniffPop3OriginUserAck
  else if isVchar c then
    { p with
      user := p.user.set p.i c
      i := p.i + 1
      state := .sniffPop3UserUsernameValue }
  else p.goto .sniffError

/-- `s_pop3_origin_user_ack` and `s_pop3_origin_pass_ack`: the byte goes
through the string parser before a `-` is looked at. -/
def sPop3Ack (s : SnifferState) (c : UInt8) (p : SnifferParser) (owner : DataOwner)
    (eq : SnifferParser → SnifferParser) : SnifferParser :=
  if owner = .clientOwned then p.goto s
  else if c = chr '-' then
    { p with stringParser := p.stringParser.map (parserFeed · c), state := .sniffError }
  else p.scan s c eq

/-- `s_pop3_origin_user_ack`. -/
def sPop3OriginUserAck (c : UInt8) (p : SnifferParser) (owner : DataOwner) :
    SnifferParser :=
  sPop3Ack .sniffPop3OriginUserAck c p owner fun p =>
    (setStringParser { p with i := 0 } "PASS").goto .sniffPop3UserPass

/-- `s_pop3_user_pass`. -/
def sPop3UserPass (c : UInt8) (p : SnifferParser) (owner : DataOwner) : SnifferParser :=
  if owner = .originOwned then p.goto .sniffPop3UserPass
  else p.scan .sniffPop3UserPass c fun p =>
    { p with i := 0, state := .sniffPop3UserPassValue }

/-- `s_pop3_user_pass_value`. -/
def sPop3UserPassValue (c : UInt8) (p : SnifferParser) (owner : DataOwner) :
    SnifferParser :=
  if owner = .originOwned then p.goto .sniffError
  else if p.i ≥ maxPasswordLength then p.goto .sniffError
  else if isSpace c || c == chr '\r' then p.goto .sniffPop3UserPassValue
  else if c = chr '\n' then
    (setStringParser { p with password := p.password.set p.i 0 } "+OK").goto
      .sniffPop3OriginPassAck
  else if isVchar c then
    { p with
      password := p.password.set p.i c
      i := p.i + 1
      state := .sniffPop3UserPassValue }
  else p.goto .sniffError

/-- `s_pop3_origin_pass_ack`. -/
def sPop3OriginPassAck (c : UInt8) (p : SnifferParser) (owner : DataOwner) :
    SnifferParser :=
  sPop3Ack .sniffPop3OriginPassAck c p owner fun p =>
    { p with i := 0, sniffedProtocol := .pop3, state := .sniffDone }

/-- `sniffer_parser_feed`. -/
def snifferParserFeed (c : UInt8) (p : SnifferParser) (owner : DataOwner)
    (port : UInt16) : SnifferParser :=
  match p.state with
  | .sniffStart => sStart c p owner port
  | .sniffHttpVersion => sHttpVersion c p owner
  | .sniffHttpAuthorization => sHttpAuthorization c p owner
  | .sniffHttpAuthorizationBasic => sHttpAuthorizationBasic c p owner
  | .sniffHttpAuthorizationValue => sHttpAuthorizationValue c p owner
  | .sniffPop3OriginAck => sPop3OriginAck c p owner
  | .sniffPop3UserUsername => sPop3UserUsername c p owner
  | .sniffPop3UserUsernameValue => sPop3UserUsernameValue c p owner
  | .sniffPop3OriginUserAck => sPop3OriginUserAck c p owner
  | .sniffPop3UserPass => sPop3UserPass c p owner
  | .sniffPop3UserPassValue => sPop3UserPassValue c p owner
  | .sniffPop3OriginPassAck => sPop3OriginPassAck c p owner
  | .sniffDone | .sniffError => p

end HttpdProxy
