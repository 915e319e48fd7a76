import HttpdProxy.Lib.Checked
import HttpdProxy.Parsers.Sniffer

/-!
# `sniffer_parser.c`, with every array access checked

The states that gather a value, and the split of the decoded authorization,
once more, with `none` where an access leaves its array or a length wraps
around. The other states do not touch the arrays.
-/

namespace HttpdProxy

open Lib (readAt storeAt readBlock subtract)

/-- The loop of `parse_user_and_password` that looks for the colon. -/
def colonIndex? (authorization : Bytes) (i : Nat) : Option Nat :=
  if i < authorization.length then
    match readAt authorization (i : Int) with
    | none => none
    | some c => if c ≠ chr ':' then colonIndex? authorization (i + 1) else some i
  else some i
termination_by authorization.length - i

/-- `memcpy(dst, bs, size)` and `dst[size] = 0`. -/
def copyText? (dst bs : Bytes) : Option Bytes :=
  if bs.length ≤ dst.length then storeAt (putAt dst 0 bs) (bs.length : Int) 0 else none

/-- The user, copied when there is a colon at `i`. -/
def copyUser? (authorization : Bytes) (i : Nat) (user : Bytes) : Option Bytes :=
  let size := if i > maxUserLength then maxUserLength else i
  if i < authorization.length then (readBlock authorization 0 size).bind (copyText? user)
  else some user

/-- The password, copied from `i` on. -/
def copyPassword? (authorization : Bytes) (i : Nat) (password : Bytes) : Option Bytes := do
  let left ← subtract authorization.length i
  let size := if left > maxPasswordLength then maxPasswordLength else left
  let text ← readBlock authorization i size
  copyText? password text

/-- `parse_user_and_password`. -/
def parseUserAndPassword? (authorization : Bytes) (p : SnifferParser) : Option SnifferParser := do
  let i ← colonIndex? authorization 0
  let user ← copyUser? authorization i p.user
  let password ← copyPassword? authorization (i + 1) p.password
  some { p with user := user, password := password }

/-- `decode_and_parse_auth`. -/
def decodeAndParseAuth? (p : SnifferParser) : Option SnifferParser := do
  let value ← readBlock p.authValue 0 p.i
  match base64Decode value with
  | none => some (p.goto .sniffError)
  | some auth => do
      let p ← parseUserAndPassword? auth p
      some { p with sniffedProtocol := .http, state := .sniffDone }

/-- `s_http_authorization_value`. -/
def sHttpAuthorizationValue? (c : UInt8) (p : SnifferParser) (owner : DataOwner) :
    Option SnifferParser :=
  if owner = .originOwned then some (p.goto .sniffError)
  else if p.i ≥ maxAuthValueLength then some (p.goto .sniffError)
  else if isSpace c then some (p.goto .sniffHttpAuthorizationValue)
  else if c = chr '\r' then do
    let authValue ← storeAt p.authValue (p.i : Int) 0
    decodeAndParseAuth? { p with authValue := authValue }
  else if isBase64 c then do
    let authValue ← storeAt p.authValue (p.i : Int) c
    some { p with
      authValue := authValue
      i := p.i + 1
      state := .sniffHttpAuthorizationValue }
  else some (p.goto .sniffError)

/-- `s_pop3_user_username_value`. -/
def sPop3UserUsernameValue? (c : UInt8) (p : SnifferParser) (owner : DataOwner) :
    Option SnifferParser :=
  if owner = .originOwned then some (p.goto .sniffPop3UserUsernameValue)
  else if p.i ≥ maxUserLength then some (p.goto .sniffError)
  else if isSpace c || c == chr '\r' then some (p.goto .sniffPop3UserUsernameValue)
  else if c = chr '\n' then do
    let user ← storeAt p.user (p.i : Int) 0
    some ((setStringParser { p with user := user } "+OK").goto .sniffPop3OriginUserAck)
  else if isVchar c then do
    let user ← storeAt p.user (p.i : Int) c
    some { p with
      user := user
      i := p.i + 1
      state := .sniffPop3UserUsernameValue }
  else some (p.goto .sniffError)

/-- `s_pop3_user_pass_value`. -/
def sPop3UserPassValue? (c : UInt8) (p : SnifferParser) (owner : DataOwner) :
    Option SnifferParser :=
  if owner = .originOwned then some (p.goto .sniffError)
  else if p.i ≥ maxPasswordLength then some (p.goto .sniffError)
  else if isSpace c || c == chr '\r' then some (p.goto .sniffPop3UserPassValue)
  else if c = chr '\n' then do
    let password ← storeAt p.password (p.i : Int) 0
    some ((setStringParser { p with password := password } "+OK").goto .sniffPop3OriginPassAck)
  else if isVchar c then do
    let password ← storeAt p.password (p.i : Int) c
    some { p with
      password := password
      i := p.i + 1
      state := .sniffPop3UserPassValue }
  else some (p.goto .sniffError)

/-- `sniffer_parser_feed`. -/
def snifferParserFeed? (c : UInt8) (p : SnifferParser) (owner : DataOwner) (port : UInt16) :
    Option SnifferParser :=
  match p.state with
  | .sniffHttpAuthorizationValue => sHttpAuthorizationValue? c p owner
  | .sniffPop3UserUsernameValue => sPop3UserUsernameValue? c p owner
  | .sniffPop3UserPassValue => sPop3UserPassValue? c p owner
  | _ => some (snifferParserFeed c p owner port)

end HttpdProxy
