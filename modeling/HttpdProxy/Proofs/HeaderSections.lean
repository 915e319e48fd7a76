import Mathlib.Algebra.Group.Nat.Defs
import HttpdProxy.Lib.Feeding
import HttpdProxy.Parsers.Headers

/-!
# Which header sections are accepted

The parser keeps nothing of a header section but the number of its fields. A
`HeadersText` is what it has read: the fields that are complete, and how far
the next line has come. `HeadersText.read` is the parser with that memory, and
the parser follows it state by state. The limits that `headers_parser.h`
declares are then a property of the text that has been read.
-/

namespace HttpdProxy

/-! ## Fields and sections -/

structure HeaderField where
  name : Bytes
  value : Bytes
  deriving DecidableEq, Repr

/-- Visible ASCII, space or tab. -/
def isFieldText (c : UInt8) : Bool := isVchar c || isSpace c

namespace HeaderField

def bytes (f : HeaderField) : Bytes := f.name ++ [chr ':'] ++ f.value ++ [chr '\r', chr '\n']

/-- The bytes a field is made of. -/
def Spelled (f : HeaderField) : Prop :=
  (∀ c ∈ f.name, isToken c = true) ∧ ∀ c ∈ f.value, isFieldText c = true

/-- The declared limits, and a name that is not empty. -/
def WithinLimits (f : HeaderField) : Prop :=
  1 ≤ f.name.length ∧ f.name.length ≤ maxHeaderFieldNameLength ∧
    f.value.length ≤ maxHeaderFieldValueLength

end HeaderField

/-- The lines of a section. -/
def fieldsBytes (fs : List HeaderField) : Bytes := fs.flatMap HeaderField.bytes

/-- A header section. -/
def IsHeaderSection (fs : List HeaderField) (bs : Bytes) : Prop :=
  (∀ f ∈ fs, f.Spelled ∧ f.WithinLimits) ∧ bs = fieldsBytes fs ++ [chr '\r', chr '\n']

/-! ## Reading with a memory -/

/-- How far the line behind the complete fields has come. -/
inductive HeaderTail where
  | name (name : Bytes)
  | value (f : HeaderField)
  | valueEnd (f : HeaderField)
  | sectionEnd
  | done
  deriving DecidableEq, Repr

structure HeadersText where
  fields : List HeaderField
  tail : HeaderTail
  deriving DecidableEq, Repr

def HeaderTail.bytes : HeaderTail → Bytes
  | .name text => text
  | .value f => f.name ++ [chr ':'] ++ f.value
  | .valueEnd f => f.name ++ [chr ':'] ++ f.value ++ [chr '\r']
  | .sectionEnd => [chr '\r']
  | .done => [chr '\r', chr '\n']

/-- What the tail has shown so far is within the limits. -/
def HeaderTail.WithinLimits : HeaderTail → Prop
  | .name text => text.length ≤ maxHeaderFieldNameLength
  | .value f | .valueEnd f => f.WithinLimits
  | .sectionEnd | .done => True

namespace HeadersText

def bytes (t : HeadersText) : Bytes := fieldsBytes t.fields ++ t.tail.bytes

def WithinLimits (t : HeadersText) : Prop :=
  (∀ f ∈ t.fields, f.WithinLimits) ∧ t.tail.WithinLimits

/-- One byte more, if a line may go on with it. Behind the first line a name
is not empty; a line that ends the section is not the first. -/
def push (t : HeadersText) (c : UInt8) : Option HeadersText :=
  match t.tail with
  | .name text =>
      if c = chr ':' then
        if text = [] ∧ t.fields ≠ [] then none
        else some { t with tail := .value { name := text, value := [] } }
      else if isToken c then some { t with tail := .name (text ++ [c]) }
      else if c = chr '\r' ∧ text = [] ∧ t.fields ≠ [] then
        some { t with tail := .sectionEnd }
      else none
  | .value f =>
      if c = chr '\r' then some { t with tail := .valueEnd f }
      else if isFieldText c then
        some { t with tail := .value { f with value := f.value ++ [c] } }
      else none
  | .valueEnd f =>
      if c = chr '\n' then some { fields := t.fields ++ [f], tail := .name [] } else none
  | .sectionEnd => if c = chr '\n' then some { t with tail := .done } else none
  | .done => none

def start : HeadersText where
  fields := []
  tail := .name []

/-- The text cut into lines, as far as it is one. -/
def read (bs : Bytes) : Option HeadersText :=
  bs.foldl (fun t c => t.bind (push · c)) (some start)

theorem read_append (bs : Bytes) (c : UInt8) : read (bs ++ [c]) = (read bs).bind (push · c) := by
  rw [read, List.foldl_append, List.foldl_cons, List.foldl_nil, read]

/-- What a byte does to a text, case by case. -/
inductive Pushes : HeadersText → UInt8 → HeadersText → Prop where
  | colon {fields : List HeaderField} {text : Bytes} : ¬ (text = [] ∧ fields ≠ []) →
      Pushes ⟨fields, .name text⟩ (chr ':') ⟨fields, .value ⟨text, []⟩⟩
  | token {fields : List HeaderField} {text : Bytes} {c : UInt8} : isToken c = true →
      Pushes ⟨fields, .name text⟩ c ⟨fields, .name (text ++ [c])⟩
  | last {fields : List HeaderField} : fields ≠ [] →
      Pushes ⟨fields, .name []⟩ (chr '\r') ⟨fields, .sectionEnd⟩
  | text {fields : List HeaderField} {f : HeaderField} {c : UInt8} : isFieldText c = true →
      Pushes ⟨fields, .value f⟩ c ⟨fields, .value ⟨f.name, f.value ++ [c]⟩⟩
  | valueEnd {fields : List HeaderField} {f : HeaderField} :
      Pushes ⟨fields, .value f⟩ (chr '\r') ⟨fields, .valueEnd f⟩
  | lineEnd {fields : List HeaderField} {f : HeaderField} :
      Pushes ⟨fields, .valueEnd f⟩ (chr '\n') ⟨fields ++ [f], .name []⟩
  | done {fields : List HeaderField} :
      Pushes ⟨fields, .sectionEnd⟩ (chr '\n') ⟨fields, .done⟩

theorem pushes_of_push {t t' : HeadersText} {c : UInt8} (h : t.push c = some t') :
    Pushes t c t' := by
  obtain ⟨fields, tail⟩ := t
  cases tail with
  | name text =>
      simp only [push] at h
      split at h
      · next hc =>
          split at h
          · cases h
          · next hne =>
              cases h
              rw [hc]
              exact .colon hne
      · split at h
        · next htok =>
            cases h
            exact .token htok
        · split at h
          · next hc =>
              obtain ⟨rfl, rfl, hne⟩ := hc
              cases h
              exact .last hne
          · cases h
  | value f =>
      simp only [push] at h
      split at h
      · next hc =>
          cases h
          rw [hc]
          exact .valueEnd
      · split at h
        · next htext =>
            cases h
            exact .text htext
        · cases h
  | valueEnd f =>
      simp only [push] at h
      split at h
      · next hc =>
          cases h
          rw [hc]
          exact .lineEnd
      · cases h
  | sectionEnd =>
      simp only [push] at h
      split at h
      · next hc =>
          cases h
          rw [hc]
          exact .done
      · cases h
  | done => cases h

theorem token_plain {c : UInt8} (h : isToken c = true) : c ≠ chr ':' ∧ c ≠ chr '\r' := by
  constructor
  · rintro rfl
    revert h
    decide
  · rintro rfl
    revert h
    decide

theorem fieldText_plain {c : UInt8} (h : isFieldText c = true) : c ≠ chr '\r' := by
  rintro rfl
  revert h
  decide

theorem push_of_pushes {t t' : HeadersText} {c : UInt8} (h : Pushes t c t') :
    t.push c = some t' := by
  cases h with
  | colon hne => simp [push, hne]
  | token htok => simp [push, htok, token_plain htok]
  | last hne =>
      have hcr : isToken (chr '\r') = false := by decide
      have hcolon : chr '\r' ≠ chr ':' := by decide
      simp [push, hne, hcr, hcolon]
  | text htext => simp [push, htext, fieldText_plain htext]
  | valueEnd => simp [push]
  | lineEnd => simp [push]
  | done => simp [push]

/-- No byte of the text is lost. -/
theorem Pushes.bytes {t t' : HeadersText} {c : UInt8} (h : Pushes t c t') :
    t'.bytes = t.bytes ++ [c] := by
  cases h <;> simp [HeadersText.bytes, HeaderTail.bytes, fieldsBytes, HeaderField.bytes]

/-- The fields so far are made of the right bytes, and a line but the first
has a name. -/
def Spelled (t : HeadersText) : Prop :=
  (∀ f ∈ t.fields, f.Spelled) ∧
    match t.tail with
    | .name text => ∀ c ∈ text, isToken c = true
    | .value f | .valueEnd f => f.Spelled
    | .sectionEnd | .done => t.fields ≠ []

theorem Pushes.spelled {t t' : HeadersText} {c : UInt8} (h : Pushes t c t')
    (hs : t.Spelled) : t'.Spelled := by
  obtain ⟨hfields, htail⟩ := hs
  cases h with
  | colon _ => exact ⟨hfields, htail, by simp⟩
  | token htok =>
      refine ⟨hfields, ?_⟩
      intro c hc
      rcases List.mem_append.mp hc with hc | hc
      · exact htail c hc
      · rw [List.mem_singleton.mp hc]
        exact htok
  | last hne => exact ⟨hfields, hne⟩
  | text htext =>
      refine ⟨hfields, htail.1, ?_⟩
      intro c hc
      rcases List.mem_append.mp hc with hc | hc
      · exact htail.2 c hc
      · rw [List.mem_singleton.mp hc]
        exact htext
  | valueEnd => exact ⟨hfields, htail⟩
  | lineEnd =>
      refine ⟨?_, by simp⟩
      intro f hf
      rcases List.mem_append.mp hf with hf | hf
      · exact hfields f hf
      · rw [List.mem_singleton.mp hf]
        exact htail
  | done => exact ⟨hfields, htail⟩

/-- A limit that has been passed stays passed. -/
theorem Pushes.withinLimits {t t' : HeadersText} {c : UInt8} (h : Pushes t c t')
    (hw : t'.WithinLimits) : t.WithinLimits := by
  obtain ⟨hfields, htail⟩ := hw
  cases h with
  | colon _ => exact ⟨hfields, htail.2.1⟩
  | token _ =>
      refine ⟨hfields, ?_⟩
      simp only [HeaderTail.WithinLimits, List.length_append] at htail ⊢
      omega
  | last _ => exact ⟨hfields, by simp [HeaderTail.WithinLimits]⟩
  | text _ =>
      refine ⟨hfields, ?_⟩
      simp only [HeaderTail.WithinLimits, HeaderField.WithinLimits, List.length_append] at htail ⊢
      omega
  | valueEnd => exact ⟨hfields, htail⟩
  | lineEnd =>
      exact ⟨fun f hf => hfields f (List.mem_append_left _ hf),
        hfields _ (List.mem_append_right _ (List.mem_singleton_self _))⟩
  | done => exact ⟨hfields, trivial⟩

theorem read_bytes {bs : Bytes} {t : HeadersText} (h : read bs = some t) :
    t.bytes = bs ∧ t.Spelled := by
  refine Lib.foldl_tells (R := fun bs t =>
    ∀ u : HeadersText, t = some u → u.bytes = bs ∧ u.Spelled) ?_ ?_ bs t h
  · intro u hu
    cases hu
    exact ⟨rfl, by simp [start, Spelled]⟩
  · intro bs t c ih u hu
    obtain ⟨u', ht, hpush⟩ := Option.bind_eq_some_iff.mp hu
    have hp := pushes_of_push hpush
    obtain ⟨hbytes, hspelled⟩ := ih u' ht
    exact ⟨by rw [hp.bytes, hbytes], hp.spelled hspelled⟩

/-- A text that could be read on could be read so far, within the limits if
the longer one was. -/
theorem read_prefix {bs more : Bytes} {t' : HeadersText} (h : read (bs ++ more) = some t') :
    ∃ t, read bs = some t ∧ (t'.WithinLimits → t.WithinLimits) := by
  induction more generalizing bs with
  | nil =>
      rw [List.append_nil] at h
      exact ⟨t', h, id⟩
  | cons c more ih =>
      rw [List.append_cons] at h
      obtain ⟨u, hu, hlimits⟩ := ih h
      rw [read_append] at hu
      obtain ⟨t, ht, hpush⟩ := Option.bind_eq_some_iff.mp hu
      exact ⟨t, ht, fun hw => (pushes_of_push hpush).withinLimits (hlimits hw)⟩

/-! ## The parser follows -/

def state (t : HeadersText) : HeadersState :=
  match t.tail with
  | .name text => if text = [] ∧ t.fields ≠ [] then .headersMayBeEnd else .headersFieldName
  | .value _ => .headersFieldValue
  | .valueEnd _ => .headersFieldValueEnd
  | .sectionEnd => .headersEnd
  | .done => .headersDone

/-- The fields whose colon has been read. -/
def count (t : HeadersText) : Nat :=
  match t.tail with
  | .value _ | .valueEnd _ => t.fields.length + 1
  | .name _ | .sectionEnd | .done => t.fields.length

end HeadersText

/-- Where the parser stands when it has read the text. The counter that the
limits are compared with is always zero. -/
structure HeadersParser.Follows (p : HeadersParser) (t : HeadersText) : Prop where
  state : p.state = t.state
  count : p.headersCount = UInt32.ofNat t.count
  counter : p.i = 0
  limit : 0 < p.n

open HeadersText

theorem headers_follow {p : HeadersParser} {t t' : HeadersText} {c : UInt8} (hp : p.Follows t)
    (h : Pushes t c t') : (headersParserFeed p c).Follows t' := by
  obtain ⟨hstate, hcount, hi, hn⟩ := hp
  have hlimit : ¬ p.i ≥ p.n := by omega
  cases h with
  | colon hne =>
      simp only [HeadersText.state, if_neg hne] at hstate
      rw [headersParserFeed, hstate]
      simp only [hFieldName, if_neg hlimit, if_true]
      exact ⟨rfl, by simp [hcount, HeadersText.count], rfl, Nat.succ_pos _⟩
  | @token fields text c htok =>
      have hcolon := (token_plain htok).1
      by_cases hbegin : text = [] ∧ fields ≠ []
      · simp only [HeadersText.state, if_pos hbegin] at hstate
        rw [headersParserFeed, hstate]
        simp only [hMayBeEnd, if_neg (token_plain htok).2, htok, Bool.not_true, Bool.false_eq_true,
          if_false]
        exact ⟨by simp [HeadersText.state], hcount, rfl, Nat.succ_pos _⟩
      · simp only [HeadersText.state, if_neg hbegin] at hstate
        rw [headersParserFeed, hstate]
        simp only [hFieldName, if_neg hlimit, if_neg hcolon, htok, Bool.not_true,
          Bool.false_eq_true, if_false]
        exact ⟨by simp [HeadersText.state], hcount, hi, hn⟩
  | last hne =>
      simp only [HeadersText.state, hne, ne_eq, not_false_eq_true, and_self, if_true] at hstate
      rw [headersParserFeed, hstate]
      simp only [hMayBeEnd, if_true]
      exact ⟨rfl, hcount, hi, hn⟩
  | text htext =>
      have htext' : (isVchar c || isSpace c) = true := htext
      rw [headersParserFeed, hstate]
      simp only [HeadersText.state, hFieldValue, if_neg hlimit, if_neg (fieldText_plain htext),
        htext', if_true]
      exact ⟨rfl, hcount, hi, hn⟩
  | valueEnd =>
      rw [headersParserFeed, hstate]
      simp only [HeadersText.state, hFieldValue, if_neg hlimit, if_true]
      exact ⟨rfl, hcount, hi, hn⟩
  | lineEnd =>
      rw [headersParserFeed, hstate]
      simp only [HeadersText.state, hFieldValueEnd, ne_eq, not_true_eq_false, if_false]
      exact ⟨by simp [HeadersText.state], by simp [hcount, HeadersText.count], hi, hn⟩
  | done =>
      rw [headersParserFeed, hstate]
      simp only [HeadersText.state, hEnd, ne_eq, not_true_eq_false, if_false]
      exact ⟨rfl, hcount, hi, hn⟩

/-- A byte that the text does not go on with is refused. -/
theorem headers_refuse {p : HeadersParser} {t : HeadersText} {c : UInt8} (hp : p.Follows t)
    (h : t.push c = none) (hdone : t.tail ≠ .done) :
    (headersParserFeed p c).state = .headersError := by
  obtain ⟨hstate, hcount, hi, hn⟩ := hp
  have hlimit : ¬ p.i ≥ p.n := by omega
  obtain ⟨fields, tail⟩ := t
  cases tail with
  | name text =>
      have htoken : ¬ isToken c = true := by
        intro htok
        simp [push, htok, token_plain htok] at h
      by_cases hbegin : text = [] ∧ fields ≠ []
      · have hcr : c ≠ chr '\r' := by
          rintro rfl
          simp [push, hbegin, htoken] at h
          exact absurd h (by decide)
        simp only [HeadersText.state, if_pos hbegin] at hstate
        rw [headersParserFeed, hstate]
        simp only [hMayBeEnd, if_neg hcr, htoken, Bool.not_false, if_true]
      · have hcolon : c ≠ chr ':' := by
          rintro rfl
          simp [push, hbegin] at h
        simp only [HeadersText.state, if_neg hbegin] at hstate
        rw [headersParserFeed, hstate]
        simp only [hFieldName, if_neg hlimit, if_neg hcolon, htoken, Bool.not_false, if_true]
  | value f =>
      simp only [push] at h
      split at h
      · cases h
      · next hcr =>
          split at h
          · cases h
          · next htext =>
              have htext' : ¬ (isVchar c || isSpace c) = true := htext
              rw [headersParserFeed, hstate]
              simp only [HeadersText.state, hFieldValue, if_neg hlimit, if_neg hcr, if_neg htext']
  | valueEnd f =>
      simp only [push] at h
      split at h
      · cases h
      · next hlf =>
          rw [headersParserFeed, hstate]
          simp only [HeadersText.state, hFieldValueEnd, ne_eq, hlf, not_false_eq_true, if_true]
  | sectionEnd =>
      simp only [push] at h
      split at h
      · cases h
      · next hlf =>
          rw [headersParserFeed, hstate]
          simp only [HeadersText.state, hEnd, ne_eq, hlf, not_false_eq_true, if_true]
  | done => exact absurd rfl hdone

namespace HeadersParser

def Done (p : HeadersParser) : Prop := p.state = .headersDone

theorem feed_done {p : HeadersParser} (h : p.Done) (c : UInt8) : headersParserFeed p c = p := by
  rw [headersParserFeed, h]

theorem feed_error {p : HeadersParser} (h : p.state = .headersError) (c : UInt8) :
    headersParserFeed p c = p := by
  rw [headersParserFeed, h]

/-- The parser has read the text with its memory, or it has stopped. -/
theorem reads (bs : Bytes) :
    (∃ t, read bs = some t ∧ (bs.foldl headersParserFeed headersParserInit).Follows t) ∨
      read bs = none ∧
        ((bs.foldl headersParserFeed headersParserInit).Done ∨
          (bs.foldl headersParserFeed headersParserInit).state = .headersError) := by
  refine Lib.foldl_tells (R := fun bs (p : HeadersParser) =>
    (∃ t, read bs = some t ∧ p.Follows t) ∨
      read bs = none ∧ (p.Done ∨ p.state = .headersError)) ?_ ?_ bs
  · refine .inl ⟨start, rfl, ?_⟩
    exact ⟨by simp [HeadersText.state, start, headersParserInit], rfl, rfl, Nat.succ_pos _⟩
  · intro bs p c ih
    rw [read_append]
    rcases ih with ⟨t, ht, hp⟩ | ⟨hnone, hstop⟩
    · rw [ht, Option.bind_some]
      cases hpush : t.push c with
      | some t' => exact .inl ⟨t', rfl, headers_follow hp (pushes_of_push hpush)⟩
      | none =>
          refine .inr ⟨rfl, ?_⟩
          by_cases hdone : t.tail = .done
          · have hd : p.Done := by
              rw [Done, hp.state, HeadersText.state, hdone]
            rw [feed_done hd c]
            exact .inl hd
          · exact .inr (headers_refuse hp hpush hdone)
    · refine .inr ⟨by rw [hnone, Option.bind_none], ?_⟩
      rcases hstop with hd | he
      · rw [feed_done hd c]
        exact .inl hd
      · rw [feed_error he c]
        exact .inr he

theorem Follows.done_iff {p : HeadersParser} {t : HeadersText} (h : p.Follows t) :
    p.Done ↔ t.tail = .done := by
  rw [Done, h.state]
  obtain ⟨fields, tail⟩ := t
  cases tail with
  | name text =>
      simp only [HeadersText.state]
      split <;> simp
  | value _ | valueEnd _ | sectionEnd | done => simp [HeadersText.state]

theorem Follows.not_error {p : HeadersParser} {t : HeadersText} (h : p.Follows t) :
    p.state ≠ .headersError := by
  rw [h.state]
  obtain ⟨fields, tail⟩ := t
  cases tail with
  | name text =>
      simp only [HeadersText.state]
      split <;> simp
  | value _ | valueEnd _ | sectionEnd | done => simp [HeadersText.state]

end HeadersParser

/-- The parser is done with the last byte of a text that is complete. -/
theorem headers_finishes_iff (bs : Bytes) :
    Lib.Finishes headersParserFeed HeadersParser.Done headersParserInit bs ↔
      ∃ t, read bs = some t ∧ t.tail = .done := by
  have hinit : ¬ headersParserInit.Done := by
    intro hdone
    cases hdone
  constructor
  · intro h
    obtain ⟨pre, c, rfl, hbefore, hend⟩ := h.exists_last hinit
    rcases HeadersParser.reads pre with ⟨t, ht, hp⟩ | ⟨_, hdone | herror⟩
    · have htail : t.tail ≠ .done := fun he => hbefore (hp.done_iff.mpr he)
      rw [read_append, ht, Option.bind_some]
      cases hpush : t.push c with
      | some t' =>
          exact ⟨t', rfl, (headers_follow hp (pushes_of_push hpush)).done_iff.mp hend⟩
      | none =>
          have herr := headers_refuse hp hpush htail
          rw [HeadersParser.Done, herr] at hend
          cases hend
    · exact absurd hdone hbefore
    · rw [HeadersParser.feed_error herror c] at hend
      exact absurd hend hbefore
  · intro ⟨t, ht, htail⟩
    rcases List.eq_nil_or_concat bs with rfl | ⟨pre, c, rfl⟩
    · cases ht
      cases htail
    · rw [List.concat_eq_append] at ht ⊢
      rw [read_append] at ht
      obtain ⟨u, hu, hpush⟩ := Option.bind_eq_some_iff.mp ht
      rcases HeadersParser.reads pre with ⟨u', hu', hp⟩ | ⟨hnone, _⟩
      · cases hu.symm.trans hu'
        apply Lib.finishes_of_last
        · intro p c hp
          rw [HeadersParser.feed_done hp]
          exact hp
        · rw [hp.done_iff]
          intro hdone
          rw [push, hdone] at hpush
          cases hpush
        · exact (headers_follow hp (pushes_of_push hpush)).done_iff.mpr htail
      · cases hnone.symm.trans hu

/-! ## Sections are read -/

namespace HeadersText

/-- A byte behind what could be read. -/
def pushRead (t : Option HeadersText) (c : UInt8) : Option HeadersText := t.bind (push · c)

theorem pushRead_some {t t' : HeadersText} {c : UInt8} (h : Pushes t c t') :
    pushRead (some t) c = some t' := by
  rw [pushRead, Option.bind_some, push_of_pushes h]

theorem read_field {fields : List HeaderField} {f : HeaderField} (hs : f.Spelled)
    (hname : f.name ≠ []) :
    f.bytes.foldl pushRead (some ⟨fields, .name []⟩) = some ⟨fields ++ [f], .name []⟩ := by
  have hn : f.name.foldl pushRead (some ⟨fields, .name []⟩) = some ⟨fields, .name f.name⟩ := by
    apply @Lib.foldl_accumulates _ _ pushRead (fun text => some ⟨fields, .name text⟩)
    intro pre c hpre
    exact pushRead_some (.token (hs.1 c (hpre.subset (by simp))))
  have hv : f.value.foldl pushRead (some ⟨fields, .value ⟨f.name, []⟩⟩)
      = some ⟨fields, .value f⟩ := by
    apply @Lib.foldl_accumulates _ _ pushRead (fun text => some ⟨fields, .value ⟨f.name, text⟩⟩)
    intro pre c hpre
    exact pushRead_some (.text (hs.2 c (hpre.subset (by simp))))
  simp only [HeaderField.bytes, List.foldl_append, List.foldl_cons, List.foldl_nil, hn,
    pushRead_some (.colon (fun h => hname h.1)), hv, pushRead_some .valueEnd,
    pushRead_some .lineEnd]

theorem read_fields {fs gs : List HeaderField}
    (h : ∀ f ∈ gs, f.Spelled ∧ f.name ≠ []) :
    (fieldsBytes gs).foldl pushRead (some ⟨fs, .name []⟩) = some ⟨fs ++ gs, .name []⟩ := by
  induction gs generalizing fs with
  | nil => simp [fieldsBytes]
  | cons f gs ih =>
      obtain ⟨hs, hname⟩ := h f (List.mem_cons_self ..)
      have hrest := @ih (fs ++ [f]) (fun g hg => h g (List.mem_cons_of_mem f hg))
      rw [List.append_assoc, List.singleton_append] at hrest
      rw [fieldsBytes, List.flatMap_cons, List.foldl_append, read_field hs hname, ← hrest]
      rfl

end HeadersText

theorem HeaderField.WithinLimits.name_ne_nil {f : HeaderField} (h : f.WithinLimits) :
    f.name ≠ [] := by
  intro hnil
  have hpos := h.1
  rw [hnil] at hpos
  simp at hpos

theorem IsHeaderSection.read {fs : List HeaderField} {bs : Bytes} (h : IsHeaderSection fs bs)
    (hne : fs ≠ []) : HeadersText.read bs = some ⟨fs, .done⟩ := by
  obtain ⟨hall, rfl⟩ := h
  have hfields : (fieldsBytes fs).foldl pushRead (some start) = some ⟨fs, .name []⟩ :=
    read_fields (fun f hf => ⟨(hall f hf).1, (hall f hf).2.name_ne_nil⟩)
  show (fieldsBytes fs ++ _).foldl pushRead (some start) = _
  rw [List.foldl_append, hfields, List.foldl_cons, List.foldl_cons, List.foldl_nil,
    pushRead_some (.last hne), pushRead_some .done]

/-- A text that is not complete can be completed, within the limits if it is
within them. -/
theorem HeadersText.completed {t : HeadersText} (hs : t.Spelled) (hw : t.WithinLimits)
    (hdone : t.tail ≠ .done) :
    ∃ fs more, more ≠ [] ∧ IsHeaderSection fs (t.bytes ++ more) := by
  obtain ⟨fields, tail⟩ := t
  have hall : ∀ f ∈ fields, f.Spelled ∧ f.WithinLimits := fun f hf => ⟨hs.1 f hf, hw.1 f hf⟩
  have hlast : ∀ f : HeaderField, f.Spelled → f.WithinLimits →
      ∀ g ∈ fields ++ [f], g.Spelled ∧ g.WithinLimits := by
    intro f hfs hfw g hg
    rcases List.mem_append.mp hg with hg | hg
    · exact hall g hg
    · rw [List.mem_singleton.mp hg]
      exact ⟨hfs, hfw⟩
  cases tail with
  | name text =>
      by_cases hnil : text = []
      · refine ⟨fields, [chr '\r', chr '\n'], by simp, hall, ?_⟩
        simp [HeadersText.bytes, HeaderTail.bytes, hnil]
      · have hpos : 1 ≤ text.length := List.length_pos_iff.mpr hnil
        refine ⟨fields ++ [⟨text, []⟩], chr ':' :: [chr '\r', chr '\n', chr '\r', chr '\n'],
          by simp, hlast ⟨text, []⟩ ⟨hs.2, by simp⟩ ⟨hpos, hw.2, Nat.zero_le _⟩, ?_⟩
        simp [HeadersText.bytes, HeaderTail.bytes, fieldsBytes, HeaderField.bytes]
  | value f =>
      refine ⟨fields ++ [f], [chr '\r', chr '\n', chr '\r', chr '\n'], by simp,
        hlast f hs.2 hw.2, ?_⟩
      simp [HeadersText.bytes, HeaderTail.bytes, fieldsBytes, HeaderField.bytes]
  | valueEnd f =>
      refine ⟨fields ++ [f], [chr '\n', chr '\r', chr '\n'], by simp, hlast f hs.2 hw.2, ?_⟩
      simp [HeadersText.bytes, HeaderTail.bytes, fieldsBytes, HeaderField.bytes]
  | sectionEnd =>
      refine ⟨fields, [chr '\n'], by simp, hall, ?_⟩
      simp [HeadersText.bytes, HeaderTail.bytes]
  | done => exact absurd rfl hdone

/-! ## The parser and the grammar -/

/-- A header section is accepted with its last byte exactly when it is one,
its fields are counted, and a text at which the parser has not stopped is the
beginning of a section. -/
def HeadersExact (bs : Bytes) : Prop :=
  (Lib.Finishes headersParserFeed HeadersParser.Done headersParserInit bs ↔
      ∃ fs, IsHeaderSection fs bs) ∧
    (∀ fs, IsHeaderSection fs bs →
      Lib.Finishes headersParserFeed HeadersParser.Done headersParserInit bs →
      (bs.foldl headersParserFeed headersParserInit).headersCount.toNat = fs.length) ∧
    ((bs.foldl headersParserFeed headersParserInit).state ≠ .headersDone →
      (bs.foldl headersParserFeed headersParserInit).state ≠ .headersError →
      ∃ fs more, more ≠ [] ∧ IsHeaderSection fs (bs ++ more))

/-- The line end alone is a section without fields. -/
theorem empty_section : IsHeaderSection [] [chr '\r', chr '\n'] :=
  ⟨by simp, by simp [fieldsBytes]⟩

theorem empty_section_not_exact : ¬ HeadersExact [chr '\r', chr '\n'] := by
  intro h
  have hfin := (h.1.mpr ⟨[], empty_section⟩).1
  cases hfin

/-- A text that could be read and is the beginning of a section is within the
limits. -/
theorem IsHeaderSection.withinLimits {fs : List HeaderField} {bs more : Bytes}
    {t : HeadersText} (h : IsHeaderSection fs (bs ++ more)) (ht : HeadersText.read bs = some t)
    (hempty : bs ≠ [chr '\r', chr '\n']) : t.WithinLimits := by
  by_cases hne : fs = []
  · obtain ⟨-, hbs⟩ := h
    subst hne
    -- of the two bytes of the empty section none can be read
    match bs, hbs with
    | [], _ =>
        cases ht
        exact ⟨by simp [start], Nat.zero_le _⟩
    | [c], hbs =>
        have hc : c = chr '\r' := by
          simp [fieldsBytes] at hbs
          exact hbs.1
        subst hc
        cases ht
    | c :: d :: rest, hbs =>
        have hcd : c :: d :: rest = [chr '\r', chr '\n'] := by
          simp [fieldsBytes] at hbs
          simp [hbs]
        exact absurd hcd hempty
  · obtain ⟨u, hu, hlimits⟩ := HeadersText.read_prefix (h.read hne)
    cases hu.symm.trans ht
    exact hlimits ⟨fun f hf => (h.1 f hf).2, trivial⟩

theorem HeadersText.isHeaderSection {bs : Bytes} {t : HeadersText}
    (ht : HeadersText.read bs = some t) (hdone : t.tail = .done) (hw : t.WithinLimits) :
    IsHeaderSection t.fields bs := by
  obtain ⟨hbytes, hs⟩ := HeadersText.read_bytes ht
  refine ⟨fun f hf => ⟨hs.1 f hf, hw.1 f hf⟩, ?_⟩
  rw [← hbytes, HeadersText.bytes, hdone, HeaderTail.bytes]

/-- The count of the fields, modulo the width of the counter. -/
theorem headers_count {bs : Bytes} {t : HeadersText} (ht : HeadersText.read bs = some t)
    (hdone : t.tail = .done) :
    (bs.foldl headersParserFeed headersParserInit).headersCount.toNat
      = t.fields.length % 2 ^ 32 := by
  rcases HeadersParser.reads bs with ⟨u, hu, hp⟩ | ⟨hnone, _⟩
  · cases hu.symm.trans ht
    rw [hp.count, HeadersText.count, hdone]
    simp
  · cases hnone.symm.trans ht

/-- The parser does so for a text exactly when the text is not the empty
section and what can be read of it is within the limits: no name is empty, no
name and no value too long, and the fields can be counted. -/
theorem headers_exact_iff (bs : Bytes) :
    HeadersExact bs ↔
      bs ≠ [chr '\r', chr '\n'] ∧
      ∀ t, HeadersText.read bs = some t →
        t.WithinLimits ∧ (t.tail = .done → t.fields.length < 2 ^ 32) := by
  constructor
  · intro h
    have hempty : bs ≠ [chr '\r', chr '\n'] := by
      rintro rfl
      exact empty_section_not_exact h
    refine ⟨hempty, ?_⟩
    intro t ht
    obtain ⟨haccepts, hcounts, hgoes⟩ := h
    by_cases hdone : t.tail = .done
    · have hfin := (headers_finishes_iff bs).mpr ⟨t, ht, hdone⟩
      obtain ⟨fs, hfs⟩ := haccepts.mp hfin
      have hne : fs ≠ [] := by
        rintro rfl
        exact hempty hfs.2
      cases (hfs.read hne).symm.trans ht
      refine ⟨⟨fun f hf => (hfs.1 f hf).2, trivial⟩, ?_⟩
      intro _
      have hcount := hcounts fs hfs hfin
      rw [headers_count ht hdone] at hcount
      have hmod : fs.length % 2 ^ 32 = fs.length := hcount
      show fs.length < 2 ^ 32
      omega
    · refine ⟨?_, fun he => absurd he hdone⟩
      rcases HeadersParser.reads bs with ⟨u, hu, hp⟩ | ⟨hnone, _⟩
      · cases hu.symm.trans ht
        obtain ⟨fs, more, _, hfs⟩ := hgoes (fun hd => hdone (hp.done_iff.mp hd)) hp.not_error
        exact hfs.withinLimits ht hempty
      · cases hnone.symm.trans ht
  · intro ⟨hempty, hlimits⟩
    refine ⟨?_, ?_, ?_⟩
    · constructor
      · intro hfin
        obtain ⟨t, ht, hdone⟩ := (headers_finishes_iff bs).mp hfin
        exact ⟨t.fields, HeadersText.isHeaderSection ht hdone (hlimits t ht).1⟩
      · intro ⟨fs, hfs⟩
        have hne : fs ≠ [] := by
          rintro rfl
          exact hempty hfs.2
        exact (headers_finishes_iff bs).mpr ⟨_, hfs.read hne, rfl⟩
    · intro fs hfs hfin
      have hne : fs ≠ [] := by
        rintro rfl
        exact hempty hfs.2
      have hread := hfs.read hne
      have hsmall := (hlimits _ hread).2 rfl
      rw [headers_count hread rfl]
      exact Nat.mod_eq_of_lt hsmall
    · intro hdone herror
      rcases HeadersParser.reads bs with ⟨t, ht, hp⟩ | ⟨_, hd | he⟩
      · obtain ⟨hbytes, hs⟩ := HeadersText.read_bytes ht
        rw [← hbytes]
        exact HeadersText.completed hs (hlimits t ht).1 fun htail =>
          hdone (hp.done_iff.mpr htail)
      · exact absurd hd hdone
      · exact absurd he herror

/-- A line that begins with its colon is a field for the parser. -/
theorem nameless_field_accepted : ¬ HeadersExact (ascii ":\r\n\r\n") := by
  intro h
  have hread : HeadersText.read (ascii ":\r\n\r\n") = some ⟨[⟨[], []⟩], .done⟩ := by decide
  obtain ⟨fs, hfs⟩ := h.1.mp ((headers_finishes_iff _).mpr ⟨_, hread, rfl⟩)
  have hne : fs ≠ [] := by
    rintro rfl
    have hlen := congrArg List.length hfs.2
    revert hlen
    decide
  cases (hfs.read hne).symm.trans hread
  have hpos := (hfs.1 ⟨[], []⟩ (List.mem_singleton_self _)).2.1
  simp at hpos

end HttpdProxy
