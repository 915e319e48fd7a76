import HttpdProxy.Utils.Bytes

/-!
# `base64.c`: decoding

`base64_decode` makes two passes: it counts the bytes of the alphabet, and
then decodes them four at a time, ignoring every other byte and stopping at
the first block with padding. `malloc` is taken to succeed.
-/

namespace HttpdProxy

/-- `dtable[c]`, or `none` for the 0x80 of a byte outside the alphabet; the
padding counts as a zero. -/
def dtable (c : UInt8) : Option UInt8 :=
  if c ≥ chr 'A' && c ≤ chr 'Z' then some (c - chr 'A')
  else if c ≥ chr 'a' && c ≤ chr 'z' then some (c - chr 'a' + 26)
  else if isDigit c then some (c - chr '0' + 52)
  else if c = chr '+' then some 62
  else if c = chr '/' then some 63
  else if c = chr '=' then some 0
  else none

/-- The three bytes of a block of four. -/
def decodeBlock (b0 b1 b2 b3 : UInt8) : Bytes :=
  [b0 <<< 2 ||| b1 >>> 4, b1 <<< 4 ||| b2 >>> 2, b2 <<< 6 ||| b3]

/-- The decoding pass: the bytes written, the block being filled and the
padding seen. -/
def base64Pass : Bytes → Bytes → Bytes → Nat → Option Bytes
  | [], out, _, _ => some out
  | c :: rest, out, block, pad =>
      match dtable c with
      | none => base64Pass rest out block pad
      | some tmp =>
          let pad := if c = chr '=' then pad + 1 else pad
          match block with
          | [b0, b1, b2] =>
              let out := out ++ decodeBlock b0 b1 b2 tmp
              if pad = 0 then base64Pass rest out [] pad
              else if pad = 1 then some (out.take (out.length - 1))
              else if pad = 2 then some (out.take (out.length - 2))
              else none
          | _ => base64Pass rest out (block ++ [tmp]) pad

/-- `base64_decode`. -/
def base64Decode (src : Bytes) : Option Bytes :=
  let count := (src.filter fun c => (dtable c).isSome).length
  if count = 0 ∨ count % 4 ≠ 0 then none else base64Pass src [] [] 0

end HttpdProxy
