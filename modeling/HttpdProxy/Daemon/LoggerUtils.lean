import Mathlib.Algebra.Group.Nat.Defs
import HttpdProxy.Daemon.Connection

/-!
# `logger_utils.c`: the records of the access log and of the credentials

What `sprintf` puts into the buffer of a record, piece by piece. The pieces
that are strings of the connection are printed up to their NUL.
-/

namespace HttpdProxy

/-- `MAX_BUFFER`. -/
def maxBuffer : Nat := 2048

/-- The fields of `struct tm` that are printed, as `localtime` fills them. -/
structure Tm where
  year : Nat
  mon : Nat
  mday : Nat
  hour : Nat
  min : Nat
  sec : Nat
  year_lt : year < 10 ^ 10
  mon_lt : mon < 12
  mday_le : mday ≤ 31
  hour_lt : hour < 24
  min_lt : min < 60
  sec_le : sec ≤ 60

/-- `%m` and the like: two digits. -/
def twoDigits (n : Nat) : Bytes := [chr '0' + (n / 10).toUInt8, chr '0' + (n % 10).toUInt8]

/-- `get_time`: `%Y-%m-%dT%H:%M:%SZ` and a tab. -/
def getTime (t : Tm) : Bytes :=
  decimal t.year ++ [chr '-'] ++ twoDigits (t.mon + 1) ++ [chr '-'] ++ twoDigits t.mday ++
    [chr 'T'] ++ twoDigits t.hour ++ [chr ':'] ++ twoDigits t.min ++ [chr ':'] ++
    twoDigits t.sec ++ [chr 'Z', chr '\t']

/-- `client_addr`, of one of the two families. -/
inductive ClientAddr where
  | in4 (sa : SockaddrIn) (size : sa.addr.length = 4)
  | in6 (sa : SockaddrIn6) (size : sa.addr.length = 16)

/-- `write_client_addr_n_port`. -/
def writeClientAddrNPort : ClientAddr → Bytes
  | .in4 sa _ => inetNtop4 sa.addr ++ [chr '\t'] ++ decimal (htons sa.port).toNat ++ [chr '\t']
  | .in6 sa _ => inetNtop6 sa.addr ++ [chr '\t'] ++ decimal (htons sa.port).toNat ++ [chr '\t']

/-- `log_new_connection`. -/
def logNewConnection (t : Tm) (client : ClientAddr) (request : ConnectionRequest) : Bytes :=
  getTime t ++ ascii "A\t" ++ writeClientAddrNPort client ++ request.method ++ [chr '\t'] ++
    request.target ++ [chr '\t'] ++ decimal request.statusCode.toNat ++ [chr '\t', chr '\n']

/-- `log_user_and_password`. -/
def logUserAndPassword (t : Tm) (request : ConnectionRequest) (p : SnifferParser) : Bytes :=
  getTime t ++ (if p.sniffedProtocol = .http then ascii "P\tHTTP\t" else ascii "P\tPOP3\t") ++
    request.target ++ [chr '\t'] ++ decimal request.port.toNat ++ [chr '\t'] ++
    cstr p.user ++ [chr '\t'] ++ cstr p.password ++ [chr '\t', chr '\n']

end HttpdProxy
