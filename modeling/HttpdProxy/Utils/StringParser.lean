import HttpdProxy.Utils.Bytes

/-!
# `parser.c` and the string matchers of `parser_utils.c`

A `parser` interprets a table of states and transitions; each transition has a
condition (a byte, or `ANY`), a destination and an action that sets the type
of the event returned. The sniffer only ever runs the tables that
`parser_utils_strcmpi` builds, whose actions are the three constructors of
`StringCmpEvent`; no class of characters is ever used, so a condition past
0xFF that is not `ANY` never holds.
-/

namespace HttpdProxy

inductive StringCmpEvent where
  | mayEq
  | eq
  | neq
  deriving DecidableEq, Repr

/-- `ANY`. -/
def anyByte : Nat := 512

structure Transition where
  when_ : Nat
  dest : Nat
  act1 : StringCmpEvent
  deriving DecidableEq, Repr

structure ParserDefinition where
  states : List (List Transition)
  startState : Nat
  deriving DecidableEq, Repr

/-- `struct parser`; `e1` is the type of the event last returned, which a
state with no matching transition returns again. -/
structure StringParser where
  definition : ParserDefinition
  state : Nat
  e1 : StringCmpEvent
  deriving DecidableEq, Repr

def parserInit (d : ParserDefinition) : StringParser where
  definition := d
  state := d.startState
  e1 := .mayEq

def parserReset (p : StringParser) : StringParser :=
  { p with state := p.definition.startState }

def Transition.matches (t : Transition) (c : UInt8) : Bool :=
  if t.when_ ≤ 0xFF then c.toNat == t.when_ else t.when_ == anyByte

/-- `parser_feed`: the first transition that matches is taken. -/
def parserFeed (p : StringParser) (c : UInt8) : StringParser :=
  match (p.definition.states.getD p.state []).find? (·.matches c) with
  | some t => { p with state := t.dest, e1 := t.act1 }
  | none => p

def toLower (c : UInt8) : UInt8 := if c ≥ chr 'A' && c ≤ chr 'Z' then c + 32 else c

def toUpper (c : UInt8) : UInt8 := if c ≥ chr 'a' && c ≤ chr 'z' then c - 32 else c

/-- `parser_utils_strcmpi`: state `i` expects byte `i` of `s` in either case,
state `n` is the complete match and state `n + 1` the sink of failed ones. -/
def parserUtilsStrcmpi (s : Bytes) : ParserDefinition where
  states :=
    (s.zipIdx.map fun (c, i) =>
      let last := i + 1 = s.length
      let dest := if last then s.length else i + 1
      let act := if last then StringCmpEvent.eq else .mayEq
      [ { when_ := (toLower c).toNat, dest := dest, act1 := act },
        { when_ := (toUpper c).toNat, dest := dest, act1 := act },
        { when_ := anyByte, dest := s.length + 1, act1 := .neq } ]) ++
    [ [{ when_ := anyByte, dest := s.length + 1, act1 := .neq }],
      [{ when_ := anyByte, dest := s.length + 1, act1 := .neq }] ]
  startState := 0

end HttpdProxy
