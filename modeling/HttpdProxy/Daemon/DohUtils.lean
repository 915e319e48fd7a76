import HttpdProxy.Daemon.World
import HttpdProxy.Lib.Checked

/-!
# `doh_utils.c`: the query, and the walk over the answers

A domain is resolved by opening a connection to the DoH server, and the
answers are then tried one after another, each on a socket of its own. The two
loops over the answers differ in the record type, in the address they read and
in what happens once the answers run out, and are one loop here.

A loop over the answers ends on `none`; a `return` from inside it is `some`
of the state returned.
-/

namespace HttpdProxy

def maxQueryLength : Nat := 300

/-- The loop of `build_doh_request` over the domain: the array `query`, the
index `label` points at, the length of the label and `j`. -/
def dohQueryGo : Bytes → Bytes → Nat → UInt8 → Nat → Bytes × Nat × UInt8 × Nat
  | [], query, label, count, j => (query, label, count, j)
  | c :: rest, query, label, count, j =>
      if c ≠ chr '.' then dohQueryGo rest (query.set j c) label (count + 1) (j + 1)
      else dohQueryGo rest (query.set label count) j 0 (j + 1)

/-- The name part of the query: the first `j` bytes of `query`. -/
def dohQuery (domain : Bytes) : Bytes :=
  let text := cstr domain
  let (query, label, count, j) := dohQueryGo text (List.replicate maxQueryLength 0) 0 0 1
  -- for an empty domain this reads the byte before the array, which is zero
  let (query, j) :=
    if getInt domain (text.length - 1 : Int) ≠ chr '.' then (query.set j 0, j + 1)
    else (query, j)
  (query.set label count).take j

/-- The header of a query: only the recursion flag and QDCOUNT are set. -/
def dnsRequestHeader : Bytes := [0, 0, 1, 0, 0, 1, 0, 0, 0, 0, 0, 0]

/-- `build_doh_request`: the bytes it leaves at `dst`. -/
def buildDohRequest (d : DohUtils) (domain : Bytes) (queryType : UInt8) : Bytes :=
  let query := dohQuery domain
  let contentLength : UInt8 := (dnsRequestHeader.length + query.length + 4).toUInt8
  ascii "POST " ++ d.path ++ ascii " HTTP/1.0\r\n" ++
    ascii "Host: " ++ d.host ++ ascii "\r\n" ++
    ascii "accept: application/dns-message\r\n" ++
    ascii "content-type: application/dns-message\r\n" ++
    ascii "content-length: " ++ decimal contentLength.toNat ++ ascii "\r\n\r\n" ++
    dnsRequestHeader ++ query ++ [0, queryType] ++ [0, 1]

/-- The size that `build_doh_request` returns: what `sprintf` printed, the
header, `j` bytes of the query, and the type and the class. -/
def buildDohRequestSize (d : DohUtils) (domain : Bytes) : Nat :=
  let query := dohQuery domain
  let contentLength : UInt8 := (dnsRequestHeader.length + query.length + 4).toUInt8
  let len := (ascii "POST " ++ d.path ++ ascii " HTTP/1.0\r\n" ++
    ascii "Host: " ++ d.host ++ ascii "\r\n" ++
    ascii "accept: application/dns-message\r\n" ++
    ascii "content-type: application/dns-message\r\n" ++
    ascii "content-length: " ++ decimal contentLength.toNat ++ ascii "\r\n\r\n").length
  len + dnsRequestHeader.length + query.length + 2 + 2

/-- The loop of `build_doh_request` with its accesses checked: over what is left of
the host string, its NUL included. -/
def dohQueryGo? : Bytes → Bytes → Nat → UInt8 → Nat → Option (Bytes × Nat × UInt8 × Nat)
  | [], _, _, _, _ => none
  | c :: rest, query, label, count, j =>
      if c = 0 then some (query, label, count, j)
      else if c ≠ chr '.' then do
        let query ← Lib.storeAt query j c
        dohQueryGo? rest query label (count + 1) (j + 1)
      else do
        let query ← Lib.storeAt query label count
        dohQueryGo? rest query j 0 (j + 1)

/-- And the name part of the query, up to its copy. -/
def dohQuery? (domain : Bytes) : Option Bytes := do
  let text := cstr domain ++ [0]
  let (query, label, count, j) ← dohQueryGo? text (List.replicate maxQueryLength 0) 0 0 1
  let last ← Lib.readAt text ((cstr domain).length - 1 : Int)
  let (query, j) ←
    if last ≠ chr '.' then (Lib.storeAt query j 0).map fun query => (query, j + 1)
    else some (query, j)
  let query ← Lib.storeAt query label count
  let query ← Lib.storeAt query j 0
  Lib.readBlock query 0 j

/-- What follows a socket that was opened, or not, for `origin_fd`: register
it, or report the failure. -/
def registerOrFail (x : Ctx) : ConnState × Ctx :=
  let (status, x) := registerOriginSocket x
  if status ≠ .success then (.error, x.fail .internalServerError)
  else (.tryConnectionIp, x)

/-- `connection->origin_fd = establish_origin_connection(..)`. -/
def openOrigin (env : Env) (peer : Peer) (addr : Sockaddr) (x : Ctx) : Ctx :=
  let (fd, x) := establishOriginConnection env peer addr x
  x.setConn { x.conn with originFd := fd }

/-- `handle_origin_doh_connection`. -/
def handleOriginDohConnection (env : Env) (x : Ctx) : ConnState × Ctx :=
  let x := openOrigin env .doh x.world.dohUtils.sockaddr x
  if x.conn.originFd < 0 then (.error, x.fail .internalServerError)
  else registerOrFail x

/-- The answers are given up: the parser is destroyed, and the next query is
for the other type. -/
def Conn.giveUpIpv4 (c : Conn) (doh : DohConnection) : Conn :=
  { c with
    dohConnection := some
      { doh with
        dohParser := dohResponseParserDestroy doh.dohParser
        isActive := false
        currentType := .ipv6Try } }

/-- The answers are given up and the DoH server is asked again, on a new
connection. -/
def queryIpv6 (env : Env) (doh : DohConnection) (x : Ctx) : ConnState × Ctx :=
  handleOriginDohConnection env (x.setConn (x.conn.giveUpIpv4 doh))

/-- `doh_response.answers[k]`. -/
def readAnswer (r : DohResponse) (k : UInt8) : Except Fault Answer :=
  match r.answers with
  | none => .error .nullDeref
  | some answers =>
      match answers[k.toNat]? with
      | none => .error .outOfBounds
      | some a => .ok a

/-- An answer is taken to be looked at. -/
def Conn.examine (c : Conn) (doh : DohConnection) (a : Answer) : Conn :=
  let response := doh.dohParser.response
  { c.log (.examined doh.currentTry.toNat response.header.ancount.toNat
      response.answerIndex.toNat a) with
    dohConnection := some { doh with currentTry := doh.currentTry + 1 } }

/-- One round of the loops over the answers. -/
def tryNextRound (env : Env) (type : UInt16) (addrOf : UInt16 → Answer → Sockaddr)
    (x : Ctx) : Except Fault (Lib.Round Ctx (Option ConnState × Ctx)) :=
  match x.conn.dohConnection with
  | none => .error .nullDeref
  | some doh =>
      if doh.currentTry.toNat < doh.dohParser.response.header.ancount.toNat then do
        let k := doh.currentTry
        let current ← readAnswer doh.dohParser.response k
        let x := x.setConn (x.conn.examine doh current)
        if current.aType ≠ type then .ok (.again x)
        else
          let port := x.conn.requestParser.request.requestTarget.port
          let x := openOrigin env (.answer k.toNat) (addrOf port current) x
          if x.conn.originFd = -1 then .ok (.again x)
          else
            let (next, x) := registerOrFail x
            .ok (.leave (some next, x))
      else .ok (.leave (none, x))

/-- `try_next_ipv4_connection`. -/
def tryNextIpv4Connection (env : Env) (x : Ctx) : Except Fault (ConnState × Ctx) := do
  let (ret, x) ← Lib.loop .noReturn
    (tryNextRound env ipv4Type fun port a => .in4 ⟨port, a.ipv4⟩) env.fuel x
  match ret with
  | some next => .ok (next, x)
  | none =>
      match x.conn.dohConnection with
      | none => .error .nullDeref
      | some doh => .ok (queryIpv6 env doh x)

/-- `try_next_ipv6_connection`. -/
def tryNextIpv6Connection (env : Env) (x : Ctx) : Except Fault (ConnState × Ctx) := do
  let (ret, x) ← Lib.loop .noReturn
    (tryNextRound env ipv6Type fun port a => .in6 ⟨port, a.ipv6⟩) env.fuel x
  match ret with
  | some next => .ok (next, x)
  | none => .ok (.error, x.fail .internalServerError)

/-- `try_next_dns_connection`. -/
def tryNextDnsConnection (env : Env) (x : Ctx) : Except Fault (ConnState × Ctx) := do
  -- the first time it is the DoH server's socket, later that of a failed answer
  let (status, x) ← selectorUnregisterFd x x.conn.originFd
  let c ← x.deref
  if status ≠ .success then .ok (.error, x.fail .internalServerError)
  else
    match c.dohConnection with
    | none => .error .nullDeref
    | some doh =>
        let responseError := doh.dohParser.response.header.flags.rcode ≠ 0
        match doh.currentType with
        | .ipv4Try =>
            if !responseError then tryNextIpv4Connection env x
            else .ok (queryIpv6 env doh x)
        | .ipv6Try =>
            if responseError then .ok (.error, x.fail .internalServerError)
            else tryNextIpv6Connection env x

end HttpdProxy
