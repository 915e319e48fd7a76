import HttpdProxy.Utils.Bytes

/-!
# `httpdctl.c`: the client of the management service

The operator types the number of an option and, for the three options that
modify a setting, a value. Both are read with one `read` into an array and
accumulated in an `int`, which is 32 bits wide and wraps; the value then goes
to `build_request` through a parameter of 16 bits.
-/

namespace HttpdProxy

def maxBuff : Nat := 1024

/-- What a `read` of one line puts into an array of `MAX_BUFF` bytes. -/
def readTyped (typed : Bytes) : Bytes := typed.take maxBuff

/-- The loop of `process_input` and of `process_value`: the digits before a
line feed, `aux` being their number so far; any other byte is refused. -/
def accumulate : Nat → Int32 → Bytes → Option Int32
  | _, aux, [] => some aux
  | i, aux, c :: rest =>
      let digit := (c - chr '0').toUInt32.toInt32
      if c = chr '\n' then some aux
      else if isDigit c then
        accumulate (i + 1) (if i = 0 then digit else aux * 10 + digit) rest
      else none

/-- `process_value`. -/
def processValue (buff : Bytes) : Option Int32 := accumulate 0 0 buff

/-- `get_value`: the option only chooses the text of the prompt. -/
def getValue (typed : Bytes) : Option Int32 := processValue (readTyped typed)

/-- `process_input`: the option and the value, the second line being read only
by the options that need it. -/
def processInput (buff typed : Bytes) : Option (Int32 × Int32) :=
  match accumulate 0 0 buff with
  | none => none
  | some option =>
      if option ≥ 1 ∧ option ≤ 8 then some (option, 0)
      else if option ≥ 9 ∧ option ≤ 11 then (getValue typed).map fun value => (option, value)
      else none

/-- The type, method and value bytes of a request. -/
def putMethod (buffer : Bytes) (type method hi lo : UInt8) : Bytes :=
  (((buffer.set 7 type).set 8 method).set 10 hi).set 11 lo

/-- `build_request`; an unknown option leaves the bytes of the method as they
were. -/
def buildRequest (buffer : Bytes) (option : Int32) (value : UInt16) : Bytes :=
  let buffer := putAt (buffer.set 0 1) 1 (ascii "123456")
  let buffer := buffer.set 9 0
  let hi := (value >>> 8).toUInt8
  let lo := value.toUInt8
  match option.toInt with
  | 1 => putMethod buffer 0 0 0 0
  | 2 => putMethod buffer 0 1 0 0
  | 3 => putMethod buffer 0 2 0 0
  | 4 => putMethod buffer 0 3 0 0
  | 5 => putMethod buffer 0 4 0 0
  | 6 => putMethod buffer 0 5 0 0
  | 7 => putMethod buffer 0 6 0 0
  | 8 => putMethod buffer 0 7 0 0
  | 9 => putMethod buffer 1 0 hi lo
  | 10 => putMethod buffer 1 1 hi lo
  | 11 => putMethod buffer 1 2 hi lo
  | _ => buffer

/-- `sizeof(struct request_percy)` of `httpdctl.c`. -/
def requestSize : Nat := 12

/-- The conversion of an `int` to `uint16_t`. -/
def toUint16 (value : Int32) : UInt16 := value.toUInt32.toUInt16

/-- One round of the loop of `main`: the option line is read over `buff`, and
the datagram sent is the head of the same array. -/
def sendRequest (buff line typed : Bytes) : Option Bytes :=
  (processInput (readTyped line) typed).map fun (option, value) =>
    (buildRequest (putAt buff 0 (readTyped line)) option (toUint16 value)).take requestSize

end HttpdProxy
