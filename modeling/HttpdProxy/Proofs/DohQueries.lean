import HttpdProxy.Daemon.DohUtils
import HttpdProxy.Proofs.AccessLog
import HttpdProxy.Proofs.DnsFraming

/-!
# The query that is sent to the DoH server

`build_doh_request` writes the length of a label when it knows it, in front of
the label. What it makes of a host is told by the labels between the dots; a
dot at the end adds none. The request is framed when no label is empty and the
length of the message fits the byte it is kept in.
-/

namespace HttpdProxy

/-! ## The loop over the domain -/

/-- One byte of the domain: the labels that are complete, and the one that is
being copied. -/
def splitStep (s : List Bytes × Bytes) (c : UInt8) : List Bytes × Bytes :=
  if c = chr '.' then (s.1 ++ [s.2], []) else (s.1, s.2 ++ [c])

def splitDots (text : Bytes) : List Bytes × Bytes := text.foldl splitStep ([], [])

/-- The labels of a host: a dot at the end adds none. -/
def queryLabels (text : Bytes) : List Bytes :=
  if (splitDots text).2 = [] ∧ text ≠ [] then (splitDots text).1
  else (splitDots text).1 ++ [(splitDots text).2]

/-- The array while a label is copied: a byte for its length is left out. -/
def queryArray (s : List Bytes × Bytes) : Bytes :=
  filled maxQueryLength (s.1.flatMap labelBytes ++ 0 :: s.2)

/-- How much of the array is used. -/
def queryUsed (s : List Bytes × Bytes) : Nat :=
  (s.1.flatMap labelBytes).length + 1 + s.2.length

theorem queryUsed_step (s : List Bytes × Bytes) (c : UInt8) :
    queryUsed (splitStep s c) = queryUsed s + 1 := by
  unfold splitStep queryUsed
  split
  · simp [labelBytes]
    omega
  · simp
    omega

theorem queryUsed_foldl (text : Bytes) (s : List Bytes × Bytes) :
    queryUsed (text.foldl splitStep s) = queryUsed s + text.length := by
  induction text generalizing s with
  | nil => rfl
  | cons c text ih =>
      rw [List.foldl_cons, ih, queryUsed_step, List.length_cons]
      omega

/-- The length of a label is stored in front of it. -/
theorem set_length {size : Nat} {pre cur : Bytes} {b : UInt8} :
    (filled size (pre ++ 0 :: cur)).set pre.length b = filled size (pre ++ b :: cur) := by
  simp [filled]

/-- Behind a text an array holds zeros. -/
theorem filled_zero {size : Nat} {text : Bytes} (h : text.length < size) :
    filled size (text ++ [0]) = filled size text := by
  rw [← set_filled 0 rfl h]
  exact set_filled_end rfl h

/-- A label, closed. -/
theorem close_label {s : List Bytes × Bytes} :
    (queryArray s).set (s.1.flatMap labelBytes).length s.2.length.toUInt8
      = filled maxQueryLength ((s.1 ++ [s.2]).flatMap labelBytes) := by
  rw [queryArray, set_length]
  simp [labelBytes]

theorem closed_length (s : List Bytes × Bytes) :
    ((s.1 ++ [s.2]).flatMap labelBytes).length = queryUsed s := by
  rw [List.flatMap_append, List.flatMap_singleton, List.length_append, labelBytes,
    List.length_cons, queryUsed]
  omega

theorem opened_length (s : List Bytes × Bytes) :
    (s.1.flatMap labelBytes ++ 0 :: s.2).length = queryUsed s := by
  rw [List.length_append, List.length_cons, queryUsed]
  omega

/-- The loop copies the labels, each behind its length. -/
theorem dohQueryGo_eq (text : Bytes) (s : List Bytes × Bytes)
    (h : queryUsed s + text.length < maxQueryLength) :
    dohQueryGo text (queryArray s) (s.1.flatMap labelBytes).length s.2.length.toUInt8
        (queryUsed s)
      = (queryArray (text.foldl splitStep s),
          ((text.foldl splitStep s).1.flatMap labelBytes).length,
          (text.foldl splitStep s).2.length.toUInt8, queryUsed (text.foldl splitStep s)) := by
  induction text generalizing s with
  | nil => rfl
  | cons c text ih =>
      rw [List.length_cons] at h
      have hnext := queryUsed_step s c
      have hrest := ih (splitStep s c) (by omega)
      rw [hnext] at hrest
      rw [dohQueryGo, List.foldl_cons]
      by_cases hc : c = chr '.'
      · have hstep : splitStep s c = (s.1 ++ [s.2], []) := if_pos hc
        rw [hstep] at hrest ⊢
        rw [if_neg (not_not_intro hc), close_label, ← hrest]
        have hroom : ((s.1 ++ [s.2]).flatMap labelBytes).length < maxQueryLength := by
          rw [closed_length]
          omega
        have harray : queryArray (s.1 ++ [s.2], [])
            = filled maxQueryLength ((s.1 ++ [s.2]).flatMap labelBytes) := filled_zero hroom
        rw [harray, closed_length]
        rfl
      · have hstep : splitStep s c = (s.1, s.2 ++ [c]) := if_neg hc
        rw [hstep] at hrest ⊢
        have harray : (queryArray s).set (queryUsed s) c = queryArray (s.1, s.2 ++ [c]) := by
          have hset := @set_filled maxQueryLength _ _ c (opened_length s).symm (by omega)
          rw [queryArray, hset, queryArray, List.append_assoc]
          rfl
        have hcount : s.2.length.toUInt8 + 1 = (s.2 ++ [c]).length.toUInt8 := by
          simp
        rw [if_pos hc, harray, hcount]
        exact hrest

theorem splitDots_used (text : Bytes) : queryUsed (splitDots text) = 1 + text.length :=
  queryUsed_foldl text ([], [])

/-- The loop, from its start. -/
theorem dohQueryGo_start {text : Bytes} (h : text.length ≤ 254) :
    dohQueryGo text (List.replicate maxQueryLength 0) 0 0 1
      = (queryArray (splitDots text), ((splitDots text).1.flatMap labelBytes).length,
          (splitDots text).2.length.toUInt8, queryUsed (splitDots text)) := by
  have hstart : queryArray ([], []) = List.replicate maxQueryLength 0 := by
    rw [queryArray, ← filled_nil]
    exact filled_zero (by decide)
  rw [← hstart]
  apply dohQueryGo_eq text ([], [])
  show 1 + text.length < 300
  omega

/-! ## The query -/

theorem splitDots_concat (text : Bytes) (c : UInt8) :
    splitDots (text ++ [c]) = splitStep (splitDots text) c := by
  rw [splitDots, List.foldl_append]
  rfl

/-- The byte before the NUL. -/
theorem getInt_before_nul {domain text : Bytes} {c : UInt8} (h : cstr domain = text ++ [c]) :
    getInt domain ((cstr domain).length - 1 : Int) = c := by
  have hpre : cstr domain <+: domain := List.takeWhile_prefix _
  rw [h] at hpre ⊢
  obtain ⟨rest, rfl⟩ := hpre
  have hidx : ((text ++ [c]).length - 1 : Int) = (text.length : Int) := by
    rw [List.length_append, List.length_singleton]
    omega
  rw [hidx, getInt, if_pos (by omega)]
  simp

/-- A dot before the NUL is what leaves no label open. -/
theorem last_dot (domain : Bytes) :
    getInt domain ((cstr domain).length - 1 : Int) = chr '.' ↔
      (splitDots (cstr domain)).2 = [] ∧ cstr domain ≠ [] := by
  rcases List.eq_nil_or_concat (cstr domain) with hnil | ⟨text, c, hcat⟩
  · rw [hnil]
    constructor
    · intro h
      have hzero : getInt domain ((([] : Bytes).length : Int) - 1) = 0 := rfl
      rw [hzero] at h
      exact absurd h (by decide)
    · intro h
      exact absurd rfl h.2
  · rw [List.concat_eq_append] at hcat
    rw [getInt_before_nul hcat, hcat, splitDots_concat]
    unfold splitStep
    split
    · next hc => simp [hc]
    · next hc => simp [hc]

theorem take_filled {size n : Nat} {text : Bytes} (h : n = text.length) :
    (filled size text).take n = text := by
  subst h
  exact List.take_left' rfl

/-- The query is the labels of the host and a zero. -/
theorem dohQuery_eq {domain : Bytes} (h : (cstr domain).length ≤ 254) :
    dohQuery domain = (queryLabels (cstr domain)).flatMap labelBytes ++ [0] := by
  have hused := splitDots_used (cstr domain)
  have hmax : maxQueryLength = 300 := rfl
  unfold dohQuery queryLabels
  simp only [dohQueryGo_start h]
  obtain ⟨s, hs⟩ : ∃ s, s = splitDots (cstr domain) := ⟨_, rfl⟩
  rw [← hs] at hused ⊢
  by_cases hdot : getInt domain ((cstr domain).length - 1 : Int) = chr '.'
  · have hopen := (last_dot domain).mp hdot
    rw [← hs] at hopen
    rw [if_neg (not_not_intro hdot), if_pos hopen]
    simp only
    rw [queryArray, set_length, take_filled, hopen.1]
    · rfl
    · rw [← opened_length, List.length_append, List.length_append, List.length_cons,
        List.length_cons]
  · have hopen := mt (last_dot domain).mpr hdot
    rw [← hs] at hopen
    have hroot : (queryArray s).set (queryUsed s) 0
        = filled maxQueryLength (s.1.flatMap labelBytes ++ 0 :: (s.2 ++ [0])) := by
      have hset := @set_filled maxQueryLength _ _ 0 (opened_length s).symm (by omega)
      rw [queryArray, hset, List.append_assoc]
      rfl
    rw [if_pos hdot, if_neg hopen]
    simp only
    rw [hroot, set_length, take_filled]
    · simp [labelBytes]
    · have hlen := opened_length s
      rw [List.length_append, List.length_cons] at hlen ⊢
      rw [List.length_append, List.length_singleton]
      omega

/-! ## Empty labels -/

/-- No label before the end of the host is empty. -/
def NoEmptyLabel (text : Bytes) : Prop :=
  text.head? ≠ some (chr '.') ∧ ¬ [chr '.', chr '.'] <:+: text

instance : DecidablePred NoEmptyLabel := fun text =>
  inferInstanceAs (Decidable (text.head? ≠ some (chr '.') ∧ ¬ [chr '.', chr '.'] <:+: text))

/-- One byte more empties a label where it is a dot at the start or behind a
dot. -/
theorem noEmptyLabel_concat (text : Bytes) (c : UInt8) : NoEmptyLabel (text ++ [c]) ↔
    NoEmptyLabel text ∧ ¬ (c = chr '.' ∧ (text = [] ∨ [chr '.'] <:+ text)) := by
  have hdouble : [chr '.', chr '.'] <:+: text ++ [c] ↔
      [chr '.', chr '.'] <:+: text ∨ (c = chr '.' ∧ [chr '.'] <:+ text) := by
    rw [List.infix_concat_iff, List.suffix_concat_iff]
    constructor
    · rintro ((h | ⟨t, ht, hsuf⟩) | h)
      · cases h
      · have hsplit : [chr '.'] ++ [chr '.'] = t ++ [c] := ht
        obtain ⟨rfl, hc⟩ := List.append_inj' hsplit rfl
        exact .inr ⟨(List.cons.inj hc).1.symm, hsuf⟩
      · exact .inl h
    · rintro (h | ⟨rfl, hsuf⟩)
      · exact .inr h
      · exact .inl (.inr ⟨[chr '.'], rfl, hsuf⟩)
  unfold NoEmptyLabel
  rw [hdouble]
  cases text with
  | nil =>
      have hnone : ¬ [chr '.'] <:+ ([] : Bytes) := by decide
      have hshort : ¬ [chr '.', chr '.'] <:+: ([] : Bytes) := by decide
      simp [hnone, hshort]
  | cons d text =>
      simp only [List.cons_append, List.head?_cons, reduceCtorEq, false_or, not_or]
      exact and_assoc.symm

theorem splitDots_labels (text : Bytes) :
    ((∀ l ∈ (splitDots text).1, l ≠ []) ↔ NoEmptyLabel text) ∧
      ((splitDots text).2 = [] ↔ text = [] ∨ [chr '.'] <:+ text) := by
  refine Lib.foldl_tells
    (R := fun text (s : List Bytes × Bytes) => ((∀ l ∈ s.1, l ≠ []) ↔ NoEmptyLabel text) ∧
      (s.2 = [] ↔ text = [] ∨ [chr '.'] <:+ text)) ?_ ?_ text
  · exact ⟨by simp [NoEmptyLabel], by simp⟩
  · intro text s c ⟨hlabels, hopen⟩
    have hlast : (text ++ [c] = [] ∨ [chr '.'] <:+ text ++ [c]) ↔ c = chr '.' := by
      rw [List.singleton_suffix_append_singleton_iff, or_iff_right (by simp)]
      exact eq_comm
    rw [noEmptyLabel_concat, hlast, ← hlabels, ← hopen]
    unfold splitStep
    by_cases hc : c = chr '.'
    · simp [hc, or_imp, forall_and]
    · simp [hc]

/-- The labels of a host that has a name, and none of them empty. -/
theorem queryLabels_nonempty (text : Bytes) :
    (∀ l ∈ queryLabels text, l ≠ []) ↔ text ≠ [] ∧ NoEmptyLabel text := by
  obtain ⟨hlabels, hopen⟩ := splitDots_labels text
  unfold queryLabels
  split
  · next h => rw [hlabels, and_iff_right h.2]
  · next h =>
      rw [List.forall_mem_append, hlabels]
      by_cases hnil : text = []
      · have hnone : (splitDots text).2 = [] := hopen.mpr (.inl hnil)
        simp [hnil, show (splitDots ([] : Bytes)).2 = [] from rfl]
      · have hsome : (splitDots text).2 ≠ [] := fun hs => h ⟨hs, hnil⟩
        simp [hnil, hsome]

/-- How long the query is: two bytes longer than the host, or one when a dot
ends it. -/
theorem queryLabels_length {text : Bytes} (hne : text ≠ []) :
    ((queryLabels text).flatMap labelBytes).length + 1
      = text.length + if [chr '.'] <:+ text then 1 else 2 := by
  have hused := splitDots_used text
  have hopen := (splitDots_labels text).2
  rw [or_iff_right hne] at hopen
  unfold queryLabels
  by_cases hdot : [chr '.'] <:+ text
  · have hnone := hopen.mpr hdot
    have hlen := opened_length (splitDots text)
    rw [hnone, List.length_append, List.length_singleton] at hlen
    rw [if_pos ⟨hnone, hne⟩, if_pos hdot]
    omega
  · rw [if_neg fun h => hdot (hopen.mp h.1), if_neg hdot, closed_length]
    omega

/-! ## The request -/

/-- What is printed in front of a message of `n` bytes. -/
def dohHead (d : DohUtils) (n : Nat) : Bytes :=
  ascii "POST " ++ d.path ++ ascii " HTTP/1.0\r\n" ++
    ascii "Host: " ++ d.host ++ ascii "\r\n" ++
    ascii "accept: application/dns-message\r\n" ++
    ascii "content-type: application/dns-message\r\n" ++
    ascii "content-length: " ++ decimal n ++ ascii "\r\n\r\n"

/-- The header of a query with one question. -/
def queryHeader : DnsHeader :=
  { DohResponse.zero.header with
    flags := { DohResponse.zero.header.flags with rd := 1 }
    qdcount := 1 }

/-- The question for the addresses of a name. -/
def queryQuestion (labels : List Bytes) (queryType : UInt8) : Question where
  labels := labels
  qtype := queryType.toUInt16
  qclass := 1

/-- The message that asks it. -/
def queryMessage (labels : List Bytes) (queryType : UInt8) : Bytes :=
  queryHeader.bytes ++ (queryQuestion labels queryType).bytes

/-- The request is a head that tells the length of the message behind it, and
that message is a query for a name of non-empty labels. -/
def FramesQuery (d : DohUtils) (domain : Bytes) (queryType : UInt8) : Prop :=
  ∃ labels, LabelsWithin 255 labels ∧ buildDohRequest d domain queryType
    = dohHead d (queryMessage labels queryType).length ++ queryMessage labels queryType

/-- The request is framed, its size is told, and every access to the host
string and to the query was inside them. -/
structure DohFramed (d : DohUtils) (domain : Bytes) (queryType : UInt8) : Prop where
  framed : FramesQuery d domain queryType
  size : buildDohRequestSize d domain = (buildDohRequest d domain queryType).length
  inside : dohQuery? domain = some (dohQuery domain)

theorem be16_byte (b : UInt8) : be16 b.toUInt16 = [0, b] :=
  forall_byte (P := fun b => be16 b.toUInt16 = [0, b]) (by decide +kernel) b

theorem queryMessage_eq (labels : List Bytes) (queryType : UInt8) :
    queryMessage labels queryType
      = dnsRequestHeader ++ (labels.flatMap labelBytes ++ [0]) ++ [0, queryType] ++ [0, 1] := by
  have hheader : queryHeader.bytes = dnsRequestHeader := by decide
  have hclass : be16 1 = [0, 1] := by decide
  rw [queryMessage, hheader, Question.bytes]
  simp only [queryQuestion, be16_byte, hclass, List.append_assoc]

/-- The length that is told is cut to a byte. -/
theorem buildDohRequest_eq (d : DohUtils) (domain : Bytes) (queryType : UInt8) :
    buildDohRequest d domain queryType
      = dohHead d (dnsRequestHeader.length + (dohQuery domain).length + 4).toUInt8.toNat ++
        (dnsRequestHeader ++ dohQuery domain ++ [0, queryType] ++ [0, 1]) := by
  simp only [buildDohRequest, dohHead, List.append_assoc]

theorem buildDohRequest_size (d : DohUtils) (domain : Bytes) (queryType : UInt8) :
    buildDohRequestSize d domain = (buildDohRequest d domain queryType).length := by
  rw [buildDohRequest_eq]
  simp only [buildDohRequestSize, dohHead, List.length_append, List.length_cons, List.length_nil]
  omega

theorem digitsValue_decimal (n : Nat) : digitsValue (decimal n) = n := by
  induction n using Nat.strongRecOn with
  | _ n ih =>
      have hmod : n % 10 < 10 := Nat.mod_lt n (by omega)
      rw [decimal_eq, digitsValue_append, (decimalDigit_value _ hmod).2.1]
      split
      · next h =>
          rw [show digitsValue [] = 0 from rfl]
          omega
      · next h =>
          rw [ih (n / 10) (by omega)]
          omega

/-- A head tells one length, and ends in one place. -/
theorem dohHead_unique {d : DohUtils} {m n : Nat} {x y : Bytes}
    (h : dohHead d m ++ x = dohHead d n ++ y) : m = n ∧ x = y := by
  have hdigit : ∀ (k : Nat), ∀ c ∈ decimal k, c ≠ chr '\r' := by
    rintro k c hc rfl
    exact absurd (decimal_digits k _ hc) (by decide)
  simp only [dohHead, List.append_assoc, List.append_cancel_left_eq] at h
  have hcr : ascii "\r\n\r\n" = chr '\r' :: ascii "\n\r\n" := by decide
  rw [hcr, List.cons_append, List.cons_append] at h
  obtain ⟨hnum, _, hrest⟩ := Lib.cut_unique (hdigit m) (not_not_intro rfl) (hdigit n)
    (not_not_intro rfl) h
  have hvalue := congrArg digitsValue hnum
  rw [digitsValue_decimal, digitsValue_decimal] at hvalue
  exact ⟨hvalue, List.append_cancel_left hrest⟩

/-! ## What is touched -/

/-- The loop goes through where the query has room for the text, and does what
it does without checks. -/
theorem dohQueryGo?_eq {text : Bytes} : ∀ {query : Bytes} {label : Nat} {count : UInt8} {j : Nat},
    (∀ c ∈ text, c ≠ 0) → label < query.length → j + text.length ≤ query.length →
    dohQueryGo? (text ++ [0]) query label count j = some (dohQueryGo text query label count j) := by
  induction text with
  | nil => exact fun _ _ _ => rfl
  | cons c text ih =>
      intro query label count j hplain hlabel hj
      rw [List.forall_mem_cons] at hplain
      rw [List.length_cons] at hj
      have hroom : j < query.length := by omega
      rw [List.cons_append, dohQueryGo?, if_neg hplain.1, dohQueryGo]
      split
      · rw [Lib.storeAt_natCast hroom, Option.bind_eq_bind, Option.bind_some]
        exact ih hplain.2 (by simpa using hlabel) (by simp; omega)
      · rw [Lib.storeAt_natCast hlabel, Option.bind_eq_bind, Option.bind_some]
        exact ih hplain.2 (by simpa using hroom) (by simp; omega)

/-- The byte before the NUL is read inside the host string. -/
theorem readAt_before_nul {domain : Bytes} (hne : cstr domain ≠ []) :
    Lib.readAt (cstr domain ++ [0]) ((cstr domain).length - 1 : Int)
      = some (getInt domain ((cstr domain).length - 1 : Int)) := by
  rcases List.eq_nil_or_concat (cstr domain) with hnil | ⟨text, c, hcat⟩
  · exact absurd hnil hne
  · rw [List.concat_eq_append] at hcat
    rw [getInt_before_nul hcat, hcat]
    have hidx : ((text ++ [c]).length - 1 : Int) = (text.length : Int) := by
      rw [List.length_append, List.length_singleton]
      omega
    rw [hidx, Lib.readAt_natCast]
    simp

/-- What follows the loop: a byte for the root, the length of the last label and
the copy. -/
theorem closeQuery?_eq {query : Bytes} {label j : Nat} {count : UInt8}
    (hlabel : label < query.length) (hj : j < query.length) :
    (do
      let query ← Lib.storeAt query label count
      let query ← Lib.storeAt query j 0
      Lib.readBlock query 0 j) = some ((query.set label count).take j) := by
  have hstored : j < (query.set label count).length := by simpa using hj
  have hread : Lib.readBlock ((query.set label count).set j 0) 0 j
      = some ((query.set label count).take j) := by
    rw [Lib.readBlock, if_pos (by simp; omega), List.drop_zero,
      List.take_set_of_le (Nat.le_refl j)]
  simp only [Lib.storeAt_natCast hlabel, Lib.storeAt_natCast hstored, Option.bind_eq_bind,
    Option.bind_some, hread]

/-- The accesses to a host that is not empty. -/
theorem dohQuery?_eq {domain : Bytes} (h : (cstr domain).length ≤ 254)
    (hne : cstr domain ≠ []) : dohQuery? domain = some (dohQuery domain) := by
  have hsize : (List.replicate maxQueryLength (0 : UInt8)).length = 300 := List.length_replicate
  have hused := splitDots_used (cstr domain)
  have hplain : ∀ c ∈ cstr domain, c ≠ 0 := by
    intro c hc
    simpa using List.all_eq_true.mp List.all_takeWhile c hc
  have hloop := @dohQueryGo?_eq (cstr domain) (List.replicate maxQueryLength 0) 0 0 1 hplain
    (by omega) (by omega)
  rw [dohQueryGo_start h] at hloop
  obtain ⟨s, hs⟩ : ∃ s, s = splitDots (cstr domain) := ⟨_, rfl⟩
  rw [← hs] at hused hloop
  have hlen := opened_length s
  have harray : (queryArray s).length = 300 := filled_length (by rw [hlen, maxQueryLength]; omega)
  rw [List.length_append, List.length_cons] at hlen
  unfold dohQuery? dohQuery
  simp only [hloop, dohQueryGo_start h, ← hs, readAt_before_nul hne, Option.bind_eq_bind,
    Option.bind_some]
  split
  · rw [Lib.storeAt_natCast (by omega), Option.map_some, Option.bind_some]
    exact closeQuery?_eq (by rw [List.length_set]; omega) (by rw [List.length_set]; omega)
  · exact closeQuery?_eq (by omega) (by omega)

/-! ## When the request is framed -/

/-- A label is shorter than what the labels are sent as. -/
theorem label_length_lt {labels : List Bytes} {l : Bytes} (h : l ∈ labels) :
    l.length < (labels.flatMap labelBytes).length := by
  obtain ⟨before, after, rfl⟩ := List.append_of_mem h
  rw [List.flatMap_append, List.flatMap_cons, List.length_append, List.length_append, labelBytes,
    List.length_cons]
  omega

theorem queryLabels_short {text l : Bytes} (h : text.length ≤ 254) (hl : l ∈ queryLabels text) :
    l.length ≤ 255 := by
  have hlt := label_length_lt hl
  by_cases hne : text = []
  · subst hne
    have hone : ((queryLabels []).flatMap labelBytes).length = 1 := by decide
    omega
  · have hlen := queryLabels_length hne
    split at hlen
    · omega
    · omega

/-- A sequence of labels that is sent as one without empty labels has none. -/
theorem labels_nonempty_of_eq {ls ms : List Bytes} (hshort : ∀ l ∈ ls, l.length ≤ 255)
    (hm : LabelsWithin 255 ms)
    (h : ls.flatMap labelBytes ++ [0] = ms.flatMap labelBytes ++ [0]) : ∀ l ∈ ls, l ≠ [] := by
  induction ls generalizing ms with
  | nil => exact List.forall_mem_nil _
  | cons l ls ih =>
      rw [List.forall_mem_cons] at hshort ⊢
      rw [List.flatMap_cons, List.append_assoc, labelBytes, List.cons_append] at h
      cases ms with
      | nil =>
          have hlen := congrArg List.length h
          simp at hlen
      | cons m ms =>
          obtain ⟨hpos, hle⟩ := hm m (List.mem_cons_self ..)
          rw [List.flatMap_cons, List.append_assoc, labelBytes, List.cons_append,
            List.cons.injEq] at h
          have hsame : l.length = m.length := by
            rw [← byte_toNat (Nat.lt_succ_of_le hshort.1), h.1, byte_toNat (by omega)]
          obtain ⟨_, hrest⟩ := List.append_inj h.2 hsame
          refine ⟨fun hnil => ?_, ih hshort.2 (fun k hk => hm k (List.mem_cons_of_mem m hk)) hrest⟩
          rw [hnil, List.length_nil] at hsame
          omega

theorem queryMessage_length (labels : List Bytes) (queryType : UInt8) :
    (queryMessage labels queryType).length = (labels.flatMap labelBytes).length + 17 := by
  rw [queryMessage_eq]
  simp only [List.length_append, List.length_cons, List.length_nil]
  rw [show dnsRequestHeader.length = 12 from rfl]
  omega

/-- What `build_doh_request` emits, in the terms of the labels. -/
theorem buildDohRequest_labels (d : DohUtils) {domain : Bytes} (queryType : UInt8)
    (h : (cstr domain).length ≤ 254) : buildDohRequest d domain queryType
      = dohHead d ((queryMessage (queryLabels (cstr domain)) queryType).length).toUInt8.toNat ++
        queryMessage (queryLabels (cstr domain)) queryType := by
  have hlen : dnsRequestHeader.length + (dohQuery domain).length + 4
      = (queryMessage (queryLabels (cstr domain)) queryType).length := by
    rw [queryMessage_length, dohQuery_eq h, List.length_append, List.length_singleton]
    rw [show dnsRequestHeader.length = 12 from rfl]
    omega
  rw [buildDohRequest_eq, hlen, queryMessage_eq, dohQuery_eq h]

theorem framesQuery_iff (d : DohUtils) {domain : Bytes} (queryType : UInt8)
    (h : (cstr domain).length ≤ 254) : FramesQuery d domain queryType ↔
      cstr domain ≠ [] ∧ NoEmptyLabel (cstr domain) ∧
        (cstr domain).length + (if [chr '.'] <:+ cstr domain then 17 else 18) ≤ 255 := by
  have hshort := fun l hl => @queryLabels_short (cstr domain) l h hl
  have hlength : cstr domain ≠ [] →
      (queryMessage (queryLabels (cstr domain)) queryType).length
        = (cstr domain).length + if [chr '.'] <:+ cstr domain then 17 else 18 := by
    intro hne
    have hlen := queryLabels_length hne
    rw [queryMessage_length]
    split at hlen
    · next hdot => rw [if_pos hdot]; omega
    · next hdot => rw [if_neg hdot]; omega
  unfold FramesQuery
  rw [buildDohRequest_labels d queryType h]
  constructor
  · intro ⟨labels, hwithin, heq⟩
    obtain ⟨hnum, hmessage⟩ := dohHead_unique heq
    rw [← hmessage] at hnum
    rw [queryMessage_eq, queryMessage_eq] at hmessage
    have hnames := List.append_cancel_left
      (List.append_cancel_right (List.append_cancel_right hmessage))
    obtain ⟨hne, hempty⟩ := (queryLabels_nonempty (cstr domain)).mp
      (labels_nonempty_of_eq hshort hwithin hnames)
    refine ⟨hne, hempty, ?_⟩
    rw [← hlength hne, ← hnum]
    exact Nat.le_of_lt_succ (UInt8.toNat_lt _)
  · intro ⟨hne, hempty, hlen⟩
    refine ⟨queryLabels (cstr domain), ?_, ?_⟩
    · intro l hl
      have hnonempty := (queryLabels_nonempty (cstr domain)).mpr ⟨hne, hempty⟩ l hl
      exact ⟨List.length_pos_iff.mpr hnonempty, hshort l hl⟩
    · rw [byte_toNat (by rw [hlength hne]; omega)]

theorem dohFramed_iff (d : DohUtils) {domain : Bytes} (queryType : UInt8)
    (h : (cstr domain).length ≤ 254) : DohFramed d domain queryType ↔
      cstr domain ≠ [] ∧ NoEmptyLabel (cstr domain) ∧
        (cstr domain).length + (if [chr '.'] <:+ cstr domain then 17 else 18) ≤ 255 := by
  constructor
  · intro hf
    exact (framesQuery_iff d queryType h).mp hf.framed
  · intro hc
    exact ⟨(framesQuery_iff d queryType h).mpr hc, buildDohRequest_size d domain queryType,
      dohQuery?_eq h hc.1⟩

/-- The hosts of the requests that are accepted are of the length that the
query is made for. -/
theorem domain_length {bs domain : Bytes}
    (h : Lib.Finishes requestParserFeed RequestParser.Done requestParserInit bs)
    (hhost : (bs.foldl requestParserFeed requestParserInit).request.requestTarget.host
      = .domain domain) : (cstr domain).length ≤ 254 := by
  obtain ⟨r, _, hline⟩ := accepted_reads h
  rw [hline] at hhost
  have hspell : r.host.host (netPortOf r.port) = .domain domain := hhost
  cases hr : r.host with
  | name text plain no_bracket length =>
      rw [hr, HostSpelling.host] at hspell
      split at hspell
      · cases hspell
      · obtain rfl := (Host.domain.inj hspell).symm
        rw [cstr_filled_eq]
        have hle : (cstr text).length ≤ text.length := (List.takeWhile_prefix _).length_le
        have hmax : maxFqdnLength = 255 := rfl
        omega
  | literal opens text last addr plain no_bracket length parses =>
      rw [hr] at hspell
      cases hspell

/-- The request for the host of an accepted request line is framed exactly when
the host has a byte, no empty label before its end, and a message whose length
fits a byte. -/
theorem doh_request_framed_iff {bs domain : Bytes}
    (h : Lib.Finishes requestParserFeed RequestParser.Done requestParserInit bs)
    (hhost : (bs.foldl requestParserFeed requestParserInit).request.requestTarget.host
      = .domain domain) (d : DohUtils) (queryType : UInt8) :
    DohFramed d domain queryType ↔
      cstr domain ≠ [] ∧ NoEmptyLabel (cstr domain) ∧
        (cstr domain).length + (if [chr '.'] <:+ cstr domain then 17 else 18) ≤ 255 :=
  dohFramed_iff d queryType (domain_length h hhost)

/-- A server to ask. -/
def exampleDoh : DohUtils where
  host := ascii "localhost"
  path := ascii "/getnsrecord"
  isipv4 := true
  addr := [127, 0, 0, 1]
  port := htons 8053

theorem doh_request_framed_dotted :
    DohFramed exampleDoh (filled (maxFqdnLength + 1) (ascii "a.org.")) 1 :=
  (@doh_request_framed_iff (ascii "GET http://a.org./ HTTP/1.0\r\n") _
    ⟨by decide +kernel, by decide +kernel⟩ (by decide +kernel) exampleDoh 1).mpr
    (by rw [cstr_filled_eq]; decide +kernel)

/-- Two dots end the name in the middle of the host. -/
theorem empty_label_misframed :
    Lib.Finishes requestParserFeed RequestParser.Done requestParserInit
        (ascii "GET http://a..b/ HTTP/1.0\r\n") ∧
      ((ascii "GET http://a..b/ HTTP/1.0\r\n").foldl requestParserFeed
          requestParserInit).request.requestTarget.host
        = .domain (filled (maxFqdnLength + 1) (ascii "a..b")) ∧
      ¬ DohFramed exampleDoh (filled (maxFqdnLength + 1) (ascii "a..b")) 1 := by
  refine ⟨⟨by decide +kernel, by decide +kernel⟩, by decide +kernel, ?_⟩
  rw [dohFramed_iff _ _ (by rw [cstr_filled_eq]; decide +kernel), cstr_filled_eq]
  decide +kernel

/-! ## Names there and back -/

/-- A domain name, with or without a dot behind it. -/
structure DomainName where
  labels : List Bytes
  dotted : Bool
  nonempty : labels ≠ []
  label_length : LabelsWithin 63 labels
  label_plain : ∀ l ∈ labels, ∀ c ∈ l, c ≠ chr '.' ∧ c ≠ 0
  length : ([chr '.'].intercalate labels).length ≤ 253

namespace DomainName
variable (n : DomainName)

/-- The name without the dot. -/
def name : Bytes := [chr '.'].intercalate n.labels

def text : Bytes := n.name ++ if n.dotted then [chr '.'] else []

theorem name_dotted : n.name ++ [chr '.'] = dottedLabels n.labels := by
  have hgen : ∀ labels : List Bytes, labels ≠ [] →
      [chr '.'].intercalate labels ++ [chr '.'] = dottedLabels labels := by
    intro labels
    induction labels with
    | nil => exact fun hne => absurd rfl hne
    | cons l labels ih =>
        intro _
        cases labels with
        | nil => simp [dottedLabels]
        | cons m labels =>
            have hrest := ih (by simp)
            rw [List.intercalate_cons_cons, List.append_assoc, List.append_assoc, hrest]
            simp [dottedLabels]
  exact hgen n.labels n.nonempty

end DomainName

/-- A label is copied as it is. -/
theorem foldl_label {l : Bytes} (h : ∀ c ∈ l, c ≠ chr '.') (ls : List Bytes) (cur : Bytes) :
    l.foldl splitStep (ls, cur) = (ls, cur ++ l) := by
  induction l generalizing cur with
  | nil => rw [List.append_nil]; rfl
  | cons c l ih =>
      rw [List.forall_mem_cons] at h
      have hstep : splitStep (ls, cur) c = (ls, cur ++ [c]) := if_neg h.1
      rw [List.foldl_cons, hstep, ih h.2, List.append_assoc]
      rfl

theorem foldl_dotted {labels : List Bytes} (h : ∀ l ∈ labels, ∀ c ∈ l, c ≠ chr '.')
    (ls : List Bytes) : (dottedLabels labels).foldl splitStep (ls, []) = (ls ++ labels, []) := by
  induction labels generalizing ls with
  | nil => rw [List.append_nil]; rfl
  | cons l labels ih =>
      rw [List.forall_mem_cons] at h
      have hclose : splitStep (ls, [] ++ l) (chr '.') = (ls ++ [l], []) := if_pos rfl
      rw [dottedLabels, List.flatMap_cons, List.foldl_append, List.foldl_append,
        foldl_label h.1, List.foldl_cons, List.foldl_nil, hclose]
      have hrest := ih h.2 (ls ++ [l])
      rw [dottedLabels] at hrest
      rw [hrest, List.append_assoc]
      rfl

/-- The labels of a name are those that are sent. -/
theorem DomainName.queryLabels_eq (n : DomainName) : queryLabels n.text = n.labels := by
  have hdots : splitDots (n.name ++ [chr '.']) = (n.labels, []) := by
    rw [n.name_dotted]
    exact foldl_dotted (fun l hl c hc => (n.label_plain l hl c hc).1) []
  unfold DomainName.text
  cases n.dotted with
  | true =>
      rw [if_pos rfl]
      unfold queryLabels
      rw [hdots]
      rw [if_pos ⟨rfl, by simp⟩]
  | false =>
      rw [splitDots_concat] at hdots
      have hclose : splitStep (splitDots n.name) (chr '.')
          = ((splitDots n.name).1 ++ [(splitDots n.name).2], []) := if_pos rfl
      rw [hclose] at hdots
      have hlabels : (splitDots n.name).1 ++ [(splitDots n.name).2] = n.labels :=
        congrArg Prod.fst hdots
      have hlast : (splitDots n.name).2 ≠ [] := by
        intro hnil
        have hmem : [] ∈ n.labels := by
          rw [← hlabels, hnil]
          simp
        have hpos := (n.label_length [] hmem).1
        rw [List.length_nil] at hpos
        omega
      rw [if_neg (by decide), List.append_nil]
      unfold queryLabels
      rw [if_neg fun h => hlast h.1]
      exact hlabels

theorem DomainName.sent_length (n : DomainName) :
    (n.labels.flatMap labelBytes).length = n.name.length + 1 := by
  rw [← dottedLabels_length, ← n.name_dotted, List.length_append]
  rfl

/-- The question that is sent for a name is decoded to the name, with a dot
behind it, at the question's last byte. -/
theorem query_name_decoded (n : DomainName) {domain : Bytes} (hdomain : cstr domain = n.text)
    (d : DohUtils) (queryType : UInt8) : ∃ k question,
    buildDohRequest d domain queryType = dohHead d k ++ (dnsRequestHeader ++ question) ∧
      ∀ (alloc : Bool) (p : DohResponseParser), p.state = .responseQuestionQnameLabelLength →
        p.response.question = DohResponse.zero.question →
        Lib.Finishes (dohResponseParserFeed alloc)
            (fun p => p.state = .responseAnswerNameLabelLength) p question ∧
          let q := (question.foldl (dohResponseParserFeed alloc) p).response.question
          q.qname = filled maxQuestionQnameLength (n.name ++ [chr '.']) ∧
            q.qnameSize.toNat = (n.name ++ [chr '.']).length ∧ q.qtype = queryType.toUInt16 ∧
            q.qclass = 1 := by
  have hname : n.name.length ≤ 253 := n.length
  have hdot : n.text.length ≤ 254 := by
    rw [DomainName.text, List.length_append]
    have hone : (if n.dotted = true then [chr '.'] else []).length ≤ 1 := by
      split
      · exact Nat.le_refl 1
      · exact Nat.zero_le 1
    omega
  have hsent := buildDohRequest_labels d queryType (by rw [hdomain]; exact hdot)
  have hheader : queryHeader.bytes = dnsRequestHeader := by decide
  rw [hdomain, n.queryLabels_eq, queryMessage, hheader] at hsent
  refine ⟨_, _, hsent, ?_⟩
  intro alloc p hstate hempty
  have hp : p = inQuestion p.response .responseQuestionQnameLabelLength p.i p.n
      DohResponse.zero.question := by
    rw [inQuestion, ← hstate, ← hempty]
  have hlabels : LabelsWithin 255 (queryQuestion n.labels queryType).labels :=
    n.label_length.mono (by omega)
  obtain ⟨front, x, t, hsplit, hrun, hlast⟩ := front_question alloc p.response hlabels p.i p.n
    DohResponse.zero.question
  have hsize : ((queryQuestion n.labels queryType).labels.flatMap labelBytes).length + 1 ≤ 255 := by
    show (n.labels.flatMap labelBytes).length + 1 ≤ 255
    rw [n.sent_length]
    omega
  rw [pushAll_zero hsize] at hlast
  rw [← hp] at hrun
  rw [hsplit]
  constructor
  · exact hrun.finishes (fun s hs => hs.2) (by rw [hlast]; rfl)
  · rw [List.foldl_append, hrun.foldl, List.foldl_cons, List.foldl_nil, hlast]
    refine ⟨?_, ?_, rfl, rfl⟩
    · rw [n.name_dotted]
      rfl
    · show (dottedLabels n.labels).length.toUInt8.toNat = _
      rw [← n.name_dotted]
      apply byte_toNat
      rw [List.length_append, List.length_singleton]
      omega

/-- `a.org.` -/
def dottedName : DomainName where
  labels := [ascii "a", ascii "org"]
  dotted := true
  nonempty := by simp
  label_length := List.forall_mem_cons.mpr ⟨by decide, List.forall_mem_singleton.mpr (by decide)⟩
  label_plain := by
    refine List.forall_mem_cons.mpr ⟨?_, List.forall_mem_singleton.mpr ?_⟩
    · simp [ascii, chr]
    · simp [ascii, chr]
  length := by decide

theorem query_name_decoded_dotted :
    ∃ question, question = [1] ++ ascii "a" ++ [3] ++ ascii "org" ++ [0, 0, 1, 0, 1] ∧
      buildDohRequest exampleDoh (filled (maxFqdnLength + 1) (ascii "a.org.")) 1
        = dohHead exampleDoh 23 ++ (dnsRequestHeader ++ question) ∧
      Lib.Finishes (dohResponseParserFeed true)
        (fun p => p.state = .responseAnswerNameLabelLength)
        { dohResponseParserInit with state := .responseQuestionQnameLabelLength } question := by
  obtain ⟨k, question, hsent, hdecoded⟩ := query_name_decoded dottedName
    (show cstr (filled (maxFqdnLength + 1) (ascii "a.org.")) = _ by
      rw [cstr_filled_eq]; decide +kernel) exampleDoh 1
  have hbytes : buildDohRequest exampleDoh (filled (maxFqdnLength + 1) (ascii "a.org.")) 1
      = dohHead exampleDoh 23 ++ (dnsRequestHeader ++
        ([1] ++ ascii "a" ++ [3] ++ ascii "org" ++ [0, 0, 1, 0, 1])) := by
    decide +kernel
  obtain ⟨rfl, hmessage⟩ := dohHead_unique (hsent.symm.trans hbytes)
  obtain rfl := List.append_cancel_left hmessage
  exact ⟨_, rfl, hbytes, (hdecoded true _ rfl rfl).1⟩

end HttpdProxy
