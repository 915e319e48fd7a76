/-!
# Bytes and C strings

The programs handle bytes, and now and then a NUL-terminated array of them.
An array is the list of its bytes, all of them, whatever part of it the C code
has filled in; `cstr` is the string such an array holds, up to its first NUL.
Literals of the source are written as the source writes them and read through
`ascii`.
-/

namespace HttpdProxy

abbrev Bytes := List UInt8

/-- The bytes of a literal. -/
def ascii (s : String) : Bytes := s.toList.map fun c => c.toNat.toUInt8

/-- One character of a literal. -/
def chr (c : Char) : UInt8 := c.toNat.toUInt8

/-- The C string an array holds: its bytes up to the first NUL. -/
def cstr (a : Bytes) : Bytes := a.takeWhile (· != 0)

/-- What `sprintf` prints for `%d` and `%u` of a number that is not
negative. -/
def decimal (n : Nat) : Bytes := (Nat.toDigits 10 n).map fun c => c.toNat.toUInt8

/-- `a[off..] = bs`; what falls outside the array is not recorded. -/
def putAt (a : Bytes) (off : Nat) : Bytes → Bytes
  | [] => a
  | b :: bs => putAt (a.set off b) (off + 1) bs

/-- `a[i]` for an `int` index; outside the array nothing is known of the
byte, and the model reads a zero. -/
def getInt (a : Bytes) (i : Int) : UInt8 :=
  if 0 ≤ i then a.getD i.toNat 0 else 0

/-- `a[i] = c` for an `int` index; a store outside the array leaves it as it
is. -/
def setInt (a : Bytes) (i : Int) (c : UInt8) : Bytes :=
  if 0 ≤ i then a.set i.toNat c else a

/-! The character classes of `parser_utils.h`. -/

def isDigit (x : UInt8) : Bool := x ≥ chr '0' && x ≤ chr '9'

def isAlpha (x : UInt8) : Bool :=
  (x ≥ chr 'a' && x ≤ chr 'z') || (x ≥ chr 'A' && x ≤ chr 'Z')

def isToken (x : UInt8) : Bool :=
  x == chr '!' || x == chr '#' || x == chr '$' || x == chr '%' || x == chr '&' ||
  x == chr '\'' || x == chr '*' || x == chr '+' || x == chr '-' || x == chr '.' ||
  x == chr '^' || x == chr '_' || x == 0x60 || x == chr '|' || x == chr '~' ||
  isDigit x || isAlpha x

def endOfAuthority (x : UInt8) : Bool := x == chr '/' || x == chr '#' || x == chr '?'

def isReasonPhrase (x : UInt8) : Bool :=
  x == chr ' ' || x == chr '\t' || isAlpha x || isDigit x

def isSpace (x : UInt8) : Bool := x == chr ' ' || x == chr '\t'

def isVchar (x : UInt8) : Bool := x ≥ 0x21 && x ≤ 0x7E

def isBase64 (x : UInt8) : Bool :=
  isDigit x || isAlpha x || x == chr '+' || x == chr '/' || x == chr '='

/-- What holds of the 256 bytes holds of every byte. -/
theorem forall_byte {P : UInt8 → Prop} (h : ∀ n : Fin 256, P (UInt8.ofFin n)) (c : UInt8) :
    P c :=
  h c.toFin

/-- `htons` and `ntohs` on a little-endian host. -/
def htons (x : UInt16) : UInt16 := x <<< 8 ||| x >>> 8

end HttpdProxy
