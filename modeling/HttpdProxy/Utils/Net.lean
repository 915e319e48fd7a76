import HttpdProxy.Utils.Bytes

/-!
# Addresses: `inet_pton`, `inet_ntop` and the socket addresses

The parsers and the DoH resolver lean on the C library for the textual form of
addresses. The four conversions are written here as the library documents
them: dotted decimal with no leading zeros, and the colon form of IPv6 with at
most one `::` and an optional dotted tail. Socket addresses keep the layout
the code relies on when it hands one of them over as if it were an address.
-/

namespace HttpdProxy

/-- `struct sockaddr_in`: the port in network order and the four address
bytes. -/
structure SockaddrIn where
  port : UInt16
  addr : Bytes
  deriving DecidableEq, Repr

/-- `struct sockaddr_in6`, flow and scope being always zero. -/
structure SockaddrIn6 where
  port : UInt16
  addr : Bytes
  deriving DecidableEq, Repr

/-- A 16-bit field as it lies in memory on a little-endian host. -/
def leBytes16 (x : UInt16) : Bytes := [x.toUInt8, (x >>> 8).toUInt8]

/-- The memory of a `sockaddr_in`, whose `sin_family` is `AF_INET`. -/
def SockaddrIn.memory (s : SockaddrIn) : Bytes :=
  leBytes16 2 ++ leBytes16 s.port ++ s.addr ++ List.replicate 8 0

/-- The memory of a `sockaddr_in6`, whose `sin6_family` is `AF_INET6`. -/
def SockaddrIn6.memory (s : SockaddrIn6) : Bytes :=
  leBytes16 10 ++ leBytes16 s.port ++ List.replicate 4 0 ++ s.addr ++
    List.replicate 4 0

/-! ## Text to address -/

/-- The scan of a dotted address: the octets closed so far, the one being
read, and whether it has a digit yet. -/
def inetPton4Go : Bytes → Bytes → Nat → Bool → Option Bytes
  | [], octets, cur, sawDigit =>
      if octets.length = 3 ∧ sawDigit then some (octets ++ [cur.toUInt8]) else none
  | c :: rest, octets, cur, sawDigit =>
      if isDigit c then
        let new := cur * 10 + (c - chr '0').toNat
        if sawDigit ∧ cur = 0 then none
        else if new > 255 then none
        else inetPton4Go rest octets new true
      else if c = chr '.' ∧ sawDigit then
        if octets.length = 3 then none
        else inetPton4Go rest (octets ++ [cur.toUInt8]) 0 false
      else none

/-- `inet_pton(AF_INET, text, ..)`. -/
def inetPton4 (text : Bytes) : Option Bytes := inetPton4Go text [] 0 false

def hexValue (c : UInt8) : Option Nat :=
  if isDigit c then some (c - chr '0').toNat
  else if c ≥ chr 'a' && c ≤ chr 'f' then some ((c - chr 'a').toNat + 10)
  else if c ≥ chr 'A' && c ≤ chr 'F' then some ((c - chr 'A').toNat + 10)
  else none

/-- Close the scan of an IPv6 address: pad at the `::`, and require sixteen
bytes. -/
def inetPton6End (out : Bytes) (colon : Option Nat) : Option Bytes :=
  match colon with
  | none => if out.length = 16 then some out else none
  | some at_ =>
      if out.length ≥ 16 then none
      else some (out.take at_ ++ List.replicate (16 - out.length) 0 ++ out.drop at_)

/-- The scan of an IPv6 address: the text from the current token on, the bytes
written, where the `::` stood, the digits seen of the current group and its
value. -/
def inetPton6Go : Bytes → Bytes → Bytes → Option Nat → Nat → Nat → Option Bytes
  | [], _, out, colon, seen, val =>
      if seen > 0 then
        if out.length + 2 > 16 then none
        else inetPton6End (out ++ [(val / 256).toUInt8, (val % 256).toUInt8]) colon
      else inetPton6End out colon
  | c :: rest, token, out, colon, seen, val =>
      match hexValue c with
      | some d =>
          if seen = 4 then none
          else inetPton6Go rest token out colon (seen + 1) (val * 16 + d)
      | none =>
          if c = chr ':' then
            if seen = 0 then
              if colon.isSome then none
              else inetPton6Go rest rest out (some out.length) 0 0
            else if rest = [] then none
            else if out.length + 2 > 16 then none
            else
              inetPton6Go rest rest (out ++ [(val / 256).toUInt8, (val % 256).toUInt8])
                colon 0 0
          else if c = chr '.' ∧ out.length + 4 ≤ 16 then
            match inetPton4 token with
            | some v4 => inetPton6End (out ++ v4) colon
            | none => none
          else none

/-- `inet_pton(AF_INET6, text, ..)`. -/
def inetPton6 (text : Bytes) : Option Bytes :=
  match text with
  | [] => none
  | c :: rest =>
      if c = chr ':' then
        match rest with
        | d :: _ => if d = chr ':' then inetPton6Go rest rest [] none 0 0 else none
        | [] => none
      else inetPton6Go text text [] none 0 0

/-! ## Address to text -/

/-- `inet_ntop(AF_INET, ..)`. -/
def inetNtop4 (addr : Bytes) : Bytes :=
  match addr with
  | a :: b :: c :: d :: _ =>
      decimal a.toNat ++ [chr '.'] ++ decimal b.toNat ++ [chr '.'] ++
        decimal c.toNat ++ [chr '.'] ++ decimal d.toNat
  | _ => []

/-- The eight groups of an IPv6 address. -/
def words16 : Bytes → List Nat
  | a :: b :: rest => (a.toNat * 256 + b.toNat) :: words16 rest
  | _ => []

/-- The length of the run of zero groups at the head. -/
def zeroRun (ws : List Nat) : Nat := (ws.takeWhile (· == 0)).length

/-- Where the longest run of zero groups starts and how long it is, the first
of equals; runs of one group do not count. -/
def longestRun : Nat → List Nat → Option (Nat × Nat)
  | _, [] => none
  | i, w :: ws =>
      let here := zeroRun (w :: ws)
      match longestRun (i + 1) ws with
      | some (base, len) => if here ≥ len then some (i, here) else some (base, len)
      | none => if here ≥ 2 then some (i, here) else none

def hexDigits (n : Nat) : Bytes := (Nat.toDigits 16 n).map fun c => c.toNat.toUInt8

def joinColon : List Bytes → Bytes
  | [] => []
  | [w] => w
  | w :: ws => w ++ [chr ':'] ++ joinColon ws

/-- `inet_ntop(AF_INET6, ..)`. -/
def inetNtop6 (addr : Bytes) : Bytes :=
  let ws := words16 addr
  match longestRun 0 ws with
  | none => joinColon (ws.map hexDigits)
  | some (base, len) =>
      if base = 0 ∧ (len = 6 ∨ (len = 5 ∧ ws.getD 5 0 = 0xffff)) then
        (if len = 6 then ascii "::" else ascii "::ffff:") ++ inetNtop4 (addr.drop 12)
      else
        joinColon ((ws.take base).map hexDigits) ++ ascii "::" ++
          joinColon ((ws.drop (base + len)).map hexDigits)

end HttpdProxy
