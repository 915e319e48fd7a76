import HttpdProxy.Daemon.Management
import HttpdProxy.Lib.Feeding
import HttpdProxy.Parsers.PercyResponse

/-!
# What the client makes of a reply

The client feeds the eleven bytes of a reply to its parser. The eight shifts
put the value back together, and all four fields come out as they were sent.
The parser itself does not notice: it looks for the end of the value before it
takes a byte, so only a twelfth byte would bring it to the end.
-/

namespace HttpdProxy

/-- The client's view of a reply. -/
def responseOf (r : Reply) : PercyResponse where
  ver := r.ver
  status := r.status
  resv := r.resv
  value := r.value

namespace PercyResponseParser

def Done (p : PercyResponseParser) : Prop := p.state = .percyResponseDone

/-- In the value, of which `i` bytes have been taken. -/
def inValue (r : PercyResponse) (i : Nat) (value : UInt64) : PercyResponseParser where
  response := { r with value := value }
  state := .percyResponseValue
  i := i
  n := responseValueLen

theorem inValue_not_done (r : PercyResponse) (i : Nat) (value : UInt64) :
    ¬ (inValue r i value).Done :=
  fun h => PercyResponseState.noConfusion h

end PercyResponseParser

open PercyResponseParser

/-- The bytes of the value go on through states of the value: the byte that
fills it is no different. -/
theorem feed_inValue {r : PercyResponse} {i : Nat} {value : UInt64} {c : UInt8}
    (hi : i < responseValueLen) :
    percyResponseParserFeed (inValue r i value) c = inValue r (i + 1) (addValueByte i value c) := by
  show pResponseValue (inValue r i value) c = _
  rw [pResponseValue, if_neg (show ¬ (inValue r i value).i = (inValue r i value).n from
    Nat.ne_of_lt hi)]
  rfl

theorem feed_inValue_full (r : PercyResponse) (value : UInt64) (c : UInt8) :
    (percyResponseParserFeed (inValue r responseValueLen value) c).Done := rfl

theorem through_value {r : PercyResponse} {bs : Bytes} : ∀ {i : Nat} {value : UInt64},
    i + bs.length ≤ responseValueLen →
    Lib.Through percyResponseParserFeed (fun p => ¬ p.Done) (inValue r i value) bs
      (inValue r (i + bs.length) (Lib.gathered addValueByte i value bs)) := by
  induction bs with
  | nil => exact fun _ => .nil (inValue_not_done r _ _)
  | cons c bs ih =>
      intro i value hle
      rw [List.length_cons] at hle
      have hrest := @ih (i + 1) (addValueByte i value c) (by omega)
      rw [← feed_inValue (by omega)] at hrest
      have hcount : i + (c :: bs).length = i + 1 + bs.length := by
        rw [List.length_cons]
        omega
      rw [hcount]
      exact .cons (inValue_not_done r _ _) hrest

/-- Taken together, the bytes of a value are the value: no sum carries into
the next byte. -/
theorem gathered_serialize (value v : UInt64) :
    Lib.gathered addValueByte 0 value (serialize v) = v := by
  have hv := v.toNat_lt
  apply UInt64.toNat.inj
  simp [Lib.gathered, serialize, addValueByte, Nat.shiftLeft_eq, Nat.shiftRight_eq_div_pow]
  omega

/-- The whole reply, through states that are not the end. -/
theorem through_reply (r : Reply) :
    Lib.Through percyResponseParserFeed (fun p => ¬ p.Done) percyResponseParserInit (buildReply r)
      (inValue (responseOf r) responseValueLen r.value) := by
  have hhead : Lib.Through percyResponseParserFeed (fun p => ¬ p.Done) percyResponseParserInit
      [r.ver, r.status, r.resv] (inValue (responseOf r) 0 0) := by
    refine .cons ?_ (.cons ?_ (.cons ?_ (.nil ?_)))
    all_goals exact fun h => PercyResponseState.noConfusion h
  have hvalue := @through_value (responseOf r) (serialize r.value) 0 0 (Nat.le_refl _)
  rw [gathered_serialize] at hvalue
  exact hhead.append hvalue

/-- The reply decodes: the parser comes to its end with the last byte, and
not before, and its fields are those that were sent. -/
def ReplyDecodes (r : Reply) : Prop :=
  Lib.Finishes percyResponseParserFeed PercyResponseParser.Done percyResponseParserInit
    (buildReply r) ∧
  ((buildReply r).foldl percyResponseParserFeed percyResponseParserInit).response = responseOf r

/-- No reply brings the parser to its end, though every field is right and any
byte more would. -/
theorem reply_never_decodes (r : Reply) :
    ¬ ReplyDecodes r ∧
    ((buildReply r).foldl percyResponseParserFeed percyResponseParserInit).response
      = responseOf r ∧
    ∀ c, Lib.Finishes percyResponseParserFeed PercyResponseParser.Done percyResponseParserInit
      (buildReply r ++ [c]) := by
  have hrun := through_reply r
  refine ⟨?_, ?_, ?_⟩
  · intro h
    have hend := h.1.1
    rw [hrun.foldl] at hend
    exact inValue_not_done _ _ _ hend
  · rw [hrun.foldl]
    rfl
  · intro c
    exact hrun.finishes (fun _ hp => hp) (feed_inValue_full _ _ c)

/-- The reply to a request that has been carried out: VER 1, STATUS, RESV and
VALUE 0. -/
theorem success_reply_not_decoded : ¬ ReplyDecodes (reply successStatus 0) := by
  intro h
  have hend : ((buildReply (reply successStatus 0)).foldl percyResponseParserFeed
      percyResponseParserInit).state = .percyResponseValue := by decide
  exact PercyResponseState.noConfusion (hend.symm.trans h.1.1)

end HttpdProxy
