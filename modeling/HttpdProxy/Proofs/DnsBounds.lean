import HttpdProxy.Checked.Doh
import HttpdProxy.Proofs.DnsPositions

/-!
# The DNS parser and its arrays

The texts of the addresses always have room. The text of a name has a dot
behind every label, is stored in an array of 255 bytes and counted in 8 bits,
and nothing limits it: the parser stays inside its arrays exactly as long as
no name of the message has more text than that.
-/

namespace HttpdProxy

open Lib (storeAt)

/-! ## The stores of a name -/

/-- A store behind the text of a name, in an array of 255 bytes. -/
theorem storeNext_eq {β : Type} {a : Bytes} {size c : UInt8} {f : Bytes → UInt8 → β}
    (h : a.length = 255) :
    ((storeAt a (size.toNat : Int) c).bind fun a => (increment? size).bind fun n => some (f a n))
      = if size.toNat < 255 then some (f (a.set size.toNat c) (size + 1)) else none := by
  by_cases hlt : size.toNat < 255
  · rw [if_pos hlt, Lib.storeAt_natCast (by omega), Option.bind_some, increment?,
      if_pos (by omega), Option.bind_some]
  · have hout : storeAt a (size.toNat : Int) c = none := by
      rw [storeAt, if_neg]
      rw [Int.toNat_natCast]
      omega
    rw [if_neg hlt, hout, Option.bind_none]

theorem DnsQuestion.push?_eq {q : DnsQuestion} (h : q.qname.length = maxQuestionQnameLength)
    (c : UInt8) : q.push? c = if q.qnameSize.toNat < 255 then some (q.push c) else none :=
  storeNext_eq h

theorem Answer.pushName?_eq {a : Answer} (h : a.name.length = maxAnswerNameLength) (c : UInt8) :
    a.pushName? c = if a.nameLength.toNat < 255 then some (a.pushName c) else none :=
  storeNext_eq h

/-- An answer that is there is updated. -/
theorem modifyAnswer?_inAnswer {r : DohResponse} (hroom : r.Room) (s : DohResponseState) (i n : Nat)
    (a : Answer) (f : Answer → Option Answer) :
    (inAnswer r s i n a).modifyAnswer? f = (f a).map fun b => inAnswer r s i n b := by
  obtain ⟨as, has, hlt⟩ := hroom
  have hanswers : (inAnswer r s i n a).response.answers = some (as.set r.answerIndex.toNat a) := by
    simp [inAnswer, DohResponse.put, has]
  have hindex : (inAnswer r s i n a).response.answerIndex = r.answerIndex := rfl
  rw [DohResponseParser.modifyAnswer?, hanswers, hindex]
  simp only [Option.bind_eq_bind, Option.bind_some, List.getElem?_set_self hlt]
  cases f a with
  | none => rfl
  | some b =>
      rw [Option.bind_some, Option.map_some, List.set_set]
      simp [inAnswer, DohResponse.put, has]

/-- A byte of a label of the question's name, and the dot behind the last. -/
theorem feed?_qnameLabel (r : DohResponse) {i n : Nat} (q : DnsQuestion) (c : UInt8) (hi : i < n) :
    dohResponseParserFeed? (inQuestion r .responseQuestionQnameLabel i n q) c
      = (q.push? c).bind fun q =>
          if i + 1 = n then
            (q.push? (chr '.')).map (inQuestion r .responseQuestionQnameLabelLength n n)
          else some (inQuestion r .responseQuestionQnameLabel (i + 1) n q) := by
  have hnot : ¬ (inQuestion r .responseQuestionQnameLabel i n q).i
      ≥ (inQuestion r .responseQuestionQnameLabel i n q).n := by
    show ¬ i ≥ n
    omega
  show rQuestionQnameLabel? (inQuestion r .responseQuestionQnameLabel i n q) c = _
  rw [rQuestionQnameLabel?, if_neg hnot]
  show (q.push? c).bind _ = _
  congr 1
  funext q'
  by_cases hlast : i + 1 = n
  · rw [if_pos hlast]
    refine (if_pos hlast).trans ?_
    show (q'.push? (chr '.')).bind _ = _
    cases q'.push? (chr '.') with
    | none => rfl
    | some q'' =>
        rw [Option.bind_some, Option.map_some, ← hlast]
        rfl
  · rw [if_neg hlast]
    exact if_neg hlast

/-- The same for the name of a record. -/
theorem feed?_nameLabel {r : DohResponse} (hroom : r.Room) {i n : Nat} (a : Answer) (c : UInt8)
    (hi : i < n) :
    dohResponseParserFeed? (inAnswer r .responseAnswerNameLabel i n a) c
      = (a.pushName? c).bind fun a =>
          if i + 1 = n then
            (a.pushName? (chr '.')).map (inAnswer r .responseAnswerNameLabelLength n n)
          else some (inAnswer r .responseAnswerNameLabel (i + 1) n a) := by
  have hnot : ¬ (inAnswer r .responseAnswerNameLabel i n a).i
      ≥ (inAnswer r .responseAnswerNameLabel i n a).n := by
    show ¬ i ≥ n
    omega
  show rAnswerNameLabel? (inAnswer r .responseAnswerNameLabel i n a) c = _
  rw [rAnswerNameLabel?, if_neg hnot, modifyAnswer?_inAnswer hroom]
  cases a.pushName? c with
  | none => rfl
  | some a' =>
      rw [Option.map_some, Option.bind_some]
      simp only [Option.bind_eq_bind, Option.bind_some]
      by_cases hlast : i + 1 = n
      · rw [if_pos hlast]
        refine (if_pos hlast).trans ?_
        show ((inAnswer r .responseAnswerNameLabel (i + 1) n a').modifyAnswer? _).bind _ = _
        rw [modifyAnswer?_inAnswer hroom]
        cases a'.pushName? (chr '.') with
        | none => rfl
        | some a'' =>
            rw [Option.map_some, Option.bind_some, Option.map_some, ← hlast]
            rfl
      · rw [if_neg hlast]
        exact if_neg hlast

/-- How the checked parser stores a name: between labels, and within a label of
`n` bytes of which `i` have been stored. -/
structure StoresName {D : Type} (limit : Nat) (Sized : D → Prop) (size : D → Nat)
    (push : UInt8 → D → D) (between within : Nat → Nat → D → DohResponseParser) : Prop where
  opens : ∀ i n d c, c ≠ 0 → c.toNat ≤ limit →
    dohResponseParserFeed? (between i n d) c = some (within 0 c.toNat d)
  stores : ∀ i n d c, Sized d → i + 1 < n → dohResponseParserFeed? (within i n d) c
    = if size d < 255 then some (within (i + 1) n (push c d)) else none
  closes : ∀ i n d c, Sized d → i + 1 = n → dohResponseParserFeed? (within i n d) c
    = if size d + 1 < 255 then some (between n n (push (chr '.') (push c d))) else none
  sized : ∀ d c, Sized d → Sized (push c d)
  grows : ∀ d c, size d < 255 → size (push c d) = size d + 1

/-- An 8-bit length below 255 grows by one. -/
theorem increment_toNat {x : UInt8} (h : x.toNat < 255) : (x + 1).toNat = x.toNat + 1 := by
  rw [UInt8.toNat_add]
  exact Nat.mod_eq_of_lt (by show x.toNat + 1 < 256; omega)

theorem storesName_question (r : DohResponse) :
    StoresName 255 (fun q => q.qname.length = maxQuestionQnameLength) (fun q => q.qnameSize.toNat)
      DnsQuestion.push (inQuestion r .responseQuestionQnameLabelLength)
      (inQuestion r .responseQuestionQnameLabel) where
  opens := by
    intro i n q c hc _
    simp only [dohResponseParserFeed?, dohResponseParserFeed, inQuestion,
      rQuestionQnameLabelLength, if_neg hc, DohResponseParser.goto]
  stores := by
    intro i n q c hq hi
    rw [feed?_qnameLabel r q c (by omega), q.push?_eq hq]
    simp only [if_neg (show ¬ i + 1 = n by omega)]
    split
    · rfl
    · rfl
  closes := by
    intro i n q c hq hi
    rw [feed?_qnameLabel r q c (by omega), q.push?_eq hq]
    simp only [if_pos hi]
    by_cases hlt : q.qnameSize.toNat < 255
    · have hsize : (q.push c).qnameSize.toNat = q.qnameSize.toNat + 1 := increment_toNat hlt
      rw [if_pos hlt, Option.bind_some, (q.push c).push?_eq (by
        rw [DnsQuestion.push, List.length_set, hq]), hsize]
      split
      · rfl
      · rfl
    · rw [if_neg hlt, if_neg (by omega)]
      rfl
  sized := by
    intro q c hq
    rw [DnsQuestion.push, List.length_set, hq]
  grows := fun _ _ => increment_toNat

theorem storesName_record {r : DohResponse} (hroom : r.Room) :
    StoresName 191 (fun a => a.name.length = maxAnswerNameLength) (fun a => a.nameLength.toNat)
      Answer.pushName (inAnswer r .responseAnswerNameLabelLength)
      (inAnswer r .responseAnswerNameLabel) where
  opens := by
    intro i n a c hc hle
    have hmark : c >>> 6 ≠ 3 := by
      intro hmark
      rcases marked_stops hmark with h | h
      · exact hc h
      · omega
    show some (dohResponseParserFeed true (inAnswer r .responseAnswerNameLabelLength i n a) c) = _
    rw [feed_nameLabelLength true hc hmark]
  stores := by
    intro i n a c ha hi
    rw [feed?_nameLabel hroom a c (by omega), a.pushName?_eq ha]
    simp only [if_neg (show ¬ i + 1 = n by omega)]
    split
    · rfl
    · rfl
  closes := by
    intro i n a c ha hi
    rw [feed?_nameLabel hroom a c (by omega), a.pushName?_eq ha]
    simp only [if_pos hi]
    by_cases hlt : a.nameLength.toNat < 255
    · have hsize : (a.pushName c).nameLength.toNat = a.nameLength.toNat + 1 := increment_toNat hlt
      rw [if_pos hlt, Option.bind_some, (a.pushName c).pushName?_eq (by
        rw [Answer.pushName, List.length_set, ha]), hsize]
      split
      · rfl
      · rfl
    · rw [if_neg hlt, if_neg (by omega)]
      rfl
  sized := by
    intro a c ha
    rw [Answer.pushName, List.length_set, ha]
  grows := fun _ _ => increment_toNat

/-! ## The stores of an address -/

theorem storeBlock_eq {a bs : Bytes} {off : Nat} (h : off + bs.length ≤ a.length) :
    storeBlock a off bs = some (putAt a off bs) := if_pos h

/-- The decimals of a byte have room behind those of three others. -/
theorem Answer.Texted.pushDecimal?_eq {a : Answer} {text : Bytes} (h : a.Texted text) (c : UInt8)
    (hlen : text.length ≤ 12) : a.pushDecimal? c = some (a.pushDecimal c) := by
  obtain ⟨hdata, hnat⟩ := h
  have hc := decimal_length c
  have hsize : inet6Addrstrlen = 46 := rfl
  have hfull : a.arData.length = inet6Addrstrlen := by
    rw [hdata]
    exact filled_length (by omega)
  have hsmall : (decimal c.toNat).length.toUInt16.toNat = (decimal c.toNat).length :=
    UInt16.toNat_ofNat_of_lt (show _ < 65536 by omega)
  have hend : (a.aRdataLength + (decimal c.toNat).length.toUInt16).toNat
      = (text ++ decimal c.toNat).length := by
    rw [UInt16.toNat_add, hnat, hsmall, List.length_append]
    exact Nat.mod_eq_of_lt (by show _ < 65536; omega)
  have hput : ∀ b : UInt8, putAt a.arData a.aRdataLength.toNat (decimal c.toNat ++ [b])
      = filled inet6Addrstrlen (text ++ decimal c.toNat ++ [b]) := by
    intro b
    rw [hdata, putAt_filled hnat (by rw [List.length_append, List.length_singleton]; omega),
      List.append_assoc]
  have hblock : storeBlock a.arData a.aRdataLength.toNat (decimal c.toNat ++ [0])
      = some (putAt a.arData a.aRdataLength.toNat (decimal c.toNat ++ [0])) := by
    refine storeBlock_eq ?_
    rw [hfull, hnat, List.length_append, List.length_singleton]
    omega
  have hroom : (text ++ decimal c.toNat).length
      < (filled inet6Addrstrlen (text ++ decimal c.toNat ++ [0])).length := by
    rw [filled_length (by simp only [List.length_append, List.length_singleton]; omega),
      List.length_append]
    omega
  rw [Answer.pushDecimal?, Answer.pushDecimal]
  simp only [Option.bind_eq_bind]
  rw [hblock, Option.bind_some, hput, hend, Lib.storeAt_natCast hroom, Option.bind_some, hput,
    set_filled_last rfl]

theorem Answer.Texted.pushDecimals {xs : Bytes} : ∀ {a : Answer} {text : Bytes}, a.Texted text →
    text.length + 4 * xs.length ≤ 16 → ∃ text', text'.length ≤ text.length + 4 * xs.length ∧
      (xs.foldl (fun a c => a.pushDecimal c) a).Texted text' := by
  induction xs with
  | nil => exact fun h _ => ⟨_, by omega, h⟩
  | cons x xs ih =>
      intro a text h hlen
      rw [List.length_cons] at hlen
      have hx := decimal_length x
      have hmore : (text ++ (decimal x.toNat ++ [chr '.'])).length ≤ text.length + 4 := by
        simp only [List.length_append, List.length_singleton]
        omega
      obtain ⟨text', hle, htexted⟩ := ih (h.pushDecimal x (by omega)) (by omega)
      exact ⟨text', by rw [List.length_cons]; omega, htexted⟩

theorem Answer.Texted.closeIpv4?_eq {a : Answer} {text : Bytes} (h : a.Texted text)
    (hpos : 1 ≤ text.length) (hlen : text.length ≤ inet6Addrstrlen) : a.closeIpv4? = some a.closeIpv4 := by
  obtain ⟨hdata, hnat⟩ := h
  have hone : (1 : UInt16) ≤ a.aRdataLength := by
    rw [UInt16.le_iff_toNat_le, hnat]
    exact hpos
  have hidx : (a.aRdataLength - 1).toNat = text.length - 1 := by
    rw [UInt16.toNat_sub_of_le _ _ hone, hnat]
    rfl
  have hroom : (a.aRdataLength - 1).toNat < a.arData.length := by
    rw [hdata, filled_length hlen, hidx]
    omega
  rw [Answer.closeIpv4?, Lib.storeAt_natCast hroom]
  rfl

theorem feed?_ipv4 {r : DohResponse} (hroom : r.Room) {i : Nat} (hi : i < 4) {a : Answer}
    {text : Bytes} (h : a.Texted text) (hlen : text.length ≤ 12) (c : UInt8) :
    dohResponseParserFeed? (inAnswer r .responseAnswerIpv4Rdata i 4 a) c
      = some (dohResponseParserFeed true (inAnswer r .responseAnswerIpv4Rdata i 4 a) c) := by
  have hnot : ¬ (inAnswer r .responseAnswerIpv4Rdata i 4 a).i
      ≥ (inAnswer r .responseAnswerIpv4Rdata i 4 a).n := by
    show ¬ i ≥ 4
    omega
  have hx := decimal_length c
  show rAnswerIpv4Rdata? (inAnswer r .responseAnswerIpv4Rdata i 4 a) c = _
  rw [rAnswerIpv4Rdata?, if_neg hnot, modifyAnswer?_inAnswer hroom, h.pushDecimal?_eq c hlen,
    Option.map_some]
  simp only [Option.bind_eq_bind, Option.bind_some]
  by_cases hlast : i + 1 = 4
  · rw [(counted_ipv4 true hroom).leaves i a c hlast]
    refine (if_pos hlast).trans ?_
    have hnext := h.pushDecimal c hlen
    have hclose := hnext.closeIpv4?_eq
      (by simp only [List.length_append, List.length_singleton]; omega)
      (by simp only [List.length_append, List.length_singleton, inet6Addrstrlen]; omega)
    show ((inAnswer r .responseAnswerIpv4Rdata (i + 1) 4 (a.pushDecimal c)).modifyAnswer? _).bind _
      = _
    rw [modifyAnswer?_inAnswer hroom, hclose, Option.map_some, Option.bind_some, hlast,
      nextAnswer_inAnswer]
  · rw [(counted_ipv4 true hroom).step i a c (by omega)]
    exact if_neg hlast

theorem feed?_ipv6 {r : DohResponse} (hroom : r.Room) {i : Nat} (hi : i < 16) {a : Answer}
    (hdata : a.arData.length = inet6Addrstrlen) (haip : a.aip.length = 16) (c : UInt8) :
    dohResponseParserFeed? (inAnswer r .responseAnswerIpv6Rdata i 16 a) c
      = some (dohResponseParserFeed true (inAnswer r .responseAnswerIpv6Rdata i 16 a) c) := by
  have hnot : ¬ (inAnswer r .responseAnswerIpv6Rdata i 16 a).i
      ≥ (inAnswer r .responseAnswerIpv6Rdata i 16 a).n := by
    show ¬ i ≥ 16
    omega
  have hpush : a.pushIpv6? i c = some { a with aip := a.aip.set i c } := by
    rw [Answer.pushIpv6?, Lib.storeAt_natCast (by omega)]
    rfl
  show rAnswerIpv6Rdata? (inAnswer r .responseAnswerIpv6Rdata i 16 a) c = _
  rw [rAnswerIpv6Rdata?, if_neg hnot, modifyAnswer?_inAnswer hroom]
  show ((a.pushIpv6? i c).map _).bind _ = _
  rw [hpush, Option.map_some, Option.bind_some]
  by_cases hlast : i + 1 = 16
  · rw [(counted_ipv6 true hroom).leaves i a c hlast]
    refine (if_pos hlast).trans ?_
    let filled : Answer := { a with aip := a.aip.set i c }
    have hlen : filled.aip.length = 16 := by
      show (a.aip.set i c).length = 16
      rw [List.length_set, haip]
    have htext := inetNtop6_text_length hlen
    have hclose : filled.closeIpv6? = some filled.closeIpv6 := by
      rw [Answer.closeIpv6?, storeBlock_eq]
      · rfl
      · show 0 + (inetNtop6 filled.aip ++ [0]).length ≤ a.arData.length
        rw [hdata, List.length_append, List.length_singleton]
        show 0 + ((inetNtop6 filled.aip).length + 1) ≤ 46
        omega
    show ((inAnswer r .responseAnswerIpv6Rdata (i + 1) 16 filled).modifyAnswer? _).bind _ = _
    rw [modifyAnswer?_inAnswer hroom, hclose, Option.map_some, Option.bind_some, hlast]
    exact congrArg some (nextAnswer_inAnswer _ _ _ _)
  · rw [(counted_ipv6 true hroom).step i a c (by omega)]
    exact if_neg hlast

/-! ## Names that are too long -/

/-- How much is stored of labels, the last of which may be cut short: there is
a dot behind each that is whole. -/
def storedLength (labels : List Bytes) (c : UInt8) (xs : Bytes) : Nat :=
  (dottedLabels labels).length + xs.length + if xs.length = c.toNat then 1 else 0

/-- Labels with a text of more than 255 bytes; the last may be cut short. -/
def Overlong (limit : Nat) (text : Bytes) : Prop :=
  ∃ labels c xs, LabelsWithin limit labels ∧ c ≠ 0 ∧ c.toNat ≤ limit ∧ xs.length ≤ c.toNat ∧
    text = labels.flatMap labelBytes ++ c :: xs ∧ 255 < storedLength labels c xs

namespace StoresName

variable {D : Type} {limit : Nat} {Sized : D → Prop} {size : D → Nat} {push : UInt8 → D → D}
  {between within : Nat → Nat → D → DohResponseParser}

/-- What a label that has been stored, or a part of it, tells of the size. -/
theorem label (h : StoresName limit Sized size push between within) {n : Nat} {xs : Bytes} :
    ∀ {i : Nat} {d : D} {p : DohResponseParser}, Sized d → i + xs.length ≤ n → xs ≠ [] →
      xs.foldlM dohResponseParserFeed? (within i n d) = some p →
      size d + xs.length + (if i + xs.length = n then 1 else 0) ≤ 255 ∧
        (i + xs.length = n → ∃ d', Sized d' ∧ size d' = size d + xs.length + 1 ∧
          p = between n n d') := by
  induction xs with
  | nil => exact fun _ _ hne => absurd rfl hne
  | cons x xs ih =>
      intro i d p hd hle _ hrun
      rw [List.length_cons] at hle
      rw [List.foldlM_cons] at hrun
      obtain ⟨p', hp', hrest⟩ := Option.bind_eq_some_iff.mp hrun
      by_cases hlast : i + 1 = n
      · obtain rfl : xs = [] := List.length_eq_zero_iff.mp (by omega)
        rw [h.closes i n d x hd hlast] at hp'
        split at hp'
        · next hlt =>
            have hgrown := h.grows d x (by omega)
            have hdot := h.grows (push x d) (chr '.') (by omega)
            cases hp'
            cases hrest
            refine ⟨?_, fun _ => ⟨_, h.sized _ _ (h.sized d x hd), ?_, rfl⟩⟩
            · rw [if_pos (show i + [x].length = n from hlast)]
              show size d + 1 + 1 ≤ 255
              omega
            · rw [hdot, hgrown]
              rfl
        · cases hp'
      · rw [h.stores i n d x hd (by omega)] at hp'
        split at hp'
        · next hlt =>
            have hgrown := h.grows d x hlt
            cases hp'
            cases xs with
            | nil =>
                refine ⟨?_, fun heq => absurd heq hlast⟩
                rw [if_neg (show ¬ i + [x].length = n from hlast)]
                show size d + 1 + 0 ≤ 255
                omega
            | cons y ys =>
                obtain ⟨hfits, hwhole⟩ := ih (h.sized d x hd) (by omega) (by simp) hrest
                have hlen : (x :: y :: ys).length = (y :: ys).length + 1 := rfl
                have hcount : i + 1 + (y :: ys).length = i + (x :: y :: ys).length := by omega
                have hmore : size d + 1 + (y :: ys).length = size d + (x :: y :: ys).length := by
                  omega
                rw [hcount, hgrown, hmore] at hfits
                rw [hcount, hgrown, hmore] at hwhole
                exact ⟨hfits, hwhole⟩
        · cases hp'

theorem labels (h : StoresName limit Sized size push between within) (hlimit : limit ≤ 255)
    {ls : List Bytes} : ∀ {i n : Nat} {d : D} {p : DohResponseParser}, Sized d →
      LabelsWithin limit ls →
      (ls.flatMap labelBytes).foldlM dohResponseParserFeed? (between i n d) = some p →
      ∃ i' n' d', Sized d' ∧ size d' = size d + (dottedLabels ls).length ∧
        (ls ≠ [] → size d' ≤ 255) ∧ p = between i' n' d' := by
  induction ls with
  | nil =>
      intro i n d p hd _ hrun
      cases hrun
      exact ⟨i, n, d, hd, rfl, fun hne => absurd rfl hne, rfl⟩
  | cons l ls ih =>
      intro i n d p hd hlabels hrun
      obtain ⟨hpos, hle⟩ := hlabels l (by simp)
      have hnat : l.length.toUInt8.toNat = l.length := byte_toNat (by omega)
      have hne : l.length.toUInt8 ≠ 0 := by
        intro h0
        rw [h0] at hnat
        have hzero : (0 : UInt8).toNat = 0 := rfl
        omega
      rw [List.flatMap_cons, labelBytes, List.cons_append, List.foldlM_cons,
        h.opens i n d _ hne (by omega), hnat] at hrun
      have hrun' : (l ++ ls.flatMap labelBytes).foldlM dohResponseParserFeed?
          (within 0 l.length d) = some p := hrun
      rw [List.foldlM_append] at hrun'
      obtain ⟨p', hp', hrest⟩ := Option.bind_eq_some_iff.mp hrun'
      obtain ⟨hfits, hwhole⟩ := h.label hd (by omega) (by rintro rfl; simp at hpos) hp'
      rw [if_pos (Nat.zero_add _)] at hfits
      obtain ⟨d', hd', hsize, rfl⟩ := hwhole (Nat.zero_add _)
      obtain ⟨i', n', d'', hd'', hsize', hfits', hp⟩ :=
        ih hd' (fun l hl => hlabels l (by simp [hl])) hrest
      have hdots : (dottedLabels (l :: ls)).length = l.length + 1 + (dottedLabels ls).length := by
        simp only [dottedLabels, List.flatMap_cons, List.length_append, List.length_singleton]
      refine ⟨i', n', d'', hd'', by omega, ?_, hp⟩
      intro _
      cases ls with
      | nil =>
          have hnil : (dottedLabels []).length = 0 := rfl
          omega
      | cons l' ls' => exact hfits' (by simp)

/-- Labels with too much text are not stored. -/
theorem overlong (h : StoresName limit Sized size push between within) (hlimit : limit ≤ 255)
    {i n : Nat} {d : D} (hd : Sized d) (hsize : size d = 0) {text : Bytes}
    (htext : Overlong limit text) : text.foldlM dohResponseParserFeed? (between i n d) = none := by
  obtain ⟨ls, c, xs, hlabels, hc, hle, hxs, rfl, hlong⟩ := htext
  rw [List.foldlM_append]
  cases hrun : (ls.flatMap labelBytes).foldlM dohResponseParserFeed? (between i n d) with
  | none => rfl
  | some p =>
      obtain ⟨i', n', d', hd', hsize', hfits, rfl⟩ := h.labels hlimit hd hlabels hrun
      show (c :: xs).foldlM dohResponseParserFeed? (between i' n' d') = none
      rw [List.foldlM_cons, h.opens _ _ _ c hc hle]
      show xs.foldlM dohResponseParserFeed? (within 0 c.toNat d') = none
      unfold storedLength at hlong
      cases hrest : xs.foldlM dohResponseParserFeed? (within 0 c.toNat d') with
      | none => rfl
      | some q =>
          exfalso
          have hpos : c.toNat ≠ 0 := fun h0 => hc (UInt8.toNat.inj h0)
          cases xs with
          | nil =>
              rw [if_neg (show ¬ ([] : Bytes).length = c.toNat by
                rw [List.length_nil]; omega)] at hlong
              have hne : ls ≠ [] := by
                rintro rfl
                simp [dottedLabels] at hlong
              have hlast := hfits hne
              rw [List.length_nil] at hlong
              omega
          | cons x xs =>
              have hlast := (h.label hd' (by omega) (by simp) hrest).1
              rw [Nat.zero_add] at hlast
              omega

/-- A byte that is not stored makes the text too long. -/
theorem feed?_cases (h : StoresName limit Sized size push between within) {c : UInt8} {d : D}
    {labels : List Bytes} {xs : Bytes} (hlabels : LabelsWithin limit labels) (hc : c ≠ 0)
    (hle : c.toNat ≤ limit) (hxs : xs.length < c.toNat) (hd : Sized d)
    (hsize : size d ≤ (dottedLabels labels ++ xs).length) (x : UInt8) :
    dohResponseParserFeed? (within xs.length c.toNat d) x
        = some (if xs.length + 1 = c.toNat then
            between c.toNat c.toNat (push (chr '.') (push x d))
          else within (xs.length + 1) c.toNat (push x d)) ∨
      (dohResponseParserFeed? (within xs.length c.toNat d) x = none ∧
        Overlong limit (labels.flatMap labelBytes ++ c :: xs ++ [x])) := by
  have htext : labels.flatMap labelBytes ++ c :: xs ++ [x]
      = labels.flatMap labelBytes ++ c :: (xs ++ [x]) := by simp
  have hmore : (xs ++ [x]).length = xs.length + 1 := List.length_append
  rw [List.length_append] at hsize
  by_cases hlast : xs.length + 1 = c.toNat
  · rw [if_pos hlast, h.closes _ _ d x hd hlast]
    split
    · exact .inl rfl
    · refine .inr ⟨rfl, labels, c, xs ++ [x], hlabels, hc, hle, by omega, htext, ?_⟩
      rw [storedLength, if_pos (by omega)]
      omega
  · rw [if_neg hlast, h.stores _ _ d x hd (by omega)]
    split
    · exact .inl rfl
    · refine .inr ⟨rfl, labels, c, xs ++ [x], hlabels, hc, hle, by omega, htext, ?_⟩
      rw [storedLength, if_neg (by omega)]
      omega

end StoresName

/-! ## Every reply -/

/-- The question's name, or that of a record behind some that are whole, has a
text of more than 255 bytes. -/
def HasOverlongName (text : Bytes) : Prop :=
  (∃ (hd : DnsHeader) (name : Bytes), hd.flags.InRange ∧ hd.ancount ≠ 0 ∧ Overlong 255 name ∧
    hd.bytes ++ name <+: text) ∨
  ∃ (m : Message) (name : Bytes), m.header.flags.InRange ∧
    m.answers.length < m.header.ancount.toNat ∧ LabelsWithin 255 m.question.labels ∧
    (∀ rec ∈ m.answers, rec.Readable) ∧ Overlong 191 name ∧ m.bytes ++ name <+: text

theorem pushAll_sized {cs : Bytes} : ∀ {q : DnsQuestion} {size : Nat},
    q.qname.length = maxQuestionQnameLength → q.qnameSize.toNat ≤ size →
    (q.pushAll cs).qname.length = maxQuestionQnameLength ∧
      (q.pushAll cs).qnameSize.toNat ≤ size + cs.length := by
  induction cs with
  | nil => exact fun hname hsize => ⟨hname, hsize⟩
  | cons c cs ih =>
      intro q size hname hsize
      have hstep : (q.push c).qnameSize.toNat ≤ size + 1 := by
        rw [DnsQuestion.push, UInt8.toNat_add]
        exact Nat.le_trans (Nat.mod_le _ _) (Nat.add_le_add_right hsize 1)
      have hroom : (q.push c).qname.length = maxQuestionQnameLength := by
        rw [DnsQuestion.push, List.length_set, hname]
      obtain ⟨hname', hsize'⟩ := ih hroom hstep
      refine ⟨hname', ?_⟩
      rw [List.length_cons]
      exact Nat.le_trans hsize' (by omega)

/-- The states that store nothing are not checked. -/
theorem feed?_of_not_storing {p : DohResponseParser} (h : ¬ p.Storing) (c : UInt8) :
    dohResponseParserFeed? p c = some (dohResponseParserFeed true p c) := by
  unfold dohResponseParserFeed?
  split
  · next hs => exact absurd (by rw [DohResponseParser.Storing, hs]; decide) h
  · next hs => exact absurd (by rw [DohResponseParser.Storing, hs]; decide) h
  · next hs => exact absurd (by rw [DohResponseParser.Storing, hs]; decide) h
  · next hs => exact absurd (by rw [DohResponseParser.Storing, hs]; decide) h
  · rfl

theorem feed?_dataCut {r : DohResponse} {p : DohResponseParser} (hroom : r.Room) (h : DataCut r p)
    (c : UInt8) : dohResponseParserFeed? p c = some (dohResponseParserFeed true p c) := by
  cases h with
  | ipv4 a xs htexted hlen hp =>
      have hroom' : ([] : Bytes).length + 4 * xs.length ≤ 16 := by
        rw [List.length_nil]
        omega
      obtain ⟨text, hle, htext⟩ := htexted.pushDecimals hroom'
      rw [List.length_nil] at hle
      rw [hp]
      exact feed?_ipv4 hroom hlen htext (by omega) c
  | ipv6 a i hdata haip hi hp =>
      rw [hp]
      exact feed?_ipv6 hroom hi hdata haip c

theorem feed?_qnameCut {r : DohResponse} {rest : Bytes} {p : DohResponseParser}
    (h : QnameCut r DohResponse.zero.question rest p) (c : UInt8) :
    dohResponseParserFeed? p c = some (dohResponseParserFeed true p c) ∨
      (dohResponseParserFeed? p c = none ∧ Overlong 255 (rest ++ [c])) := by
  obtain ⟨labels, n, xs, hlabels, hn, hxs, rfl, rfl⟩ := h
  let q := DohResponse.zero.question.pushAll (dottedLabels labels ++ xs)
  obtain ⟨hname, hsize⟩ := @pushAll_sized (dottedLabels labels ++ xs) DohResponse.zero.question 0
    (List.length_replicate ..) (Nat.le_refl 0)
  rw [Nat.zero_add] at hsize
  have hmax := n.toNat_lt
  rcases (storesName_question r).feed?_cases hlabels hn (by omega) hxs hname hsize c with
    hstored | hfailed
  · left
    rw [hstored]
    by_cases hlast : xs.length + 1 = n.toNat
    · rw [if_pos hlast]
      exact congrArg some ((counted_qnameLabel true r n.toNat).leaves xs.length q c hlast).symm
    · rw [if_neg hlast]
      exact congrArg some
        ((counted_qnameLabel true r n.toNat).step xs.length q c (by omega)).symm
  · exact .inr hfailed

theorem feed?_nameCut {r : DohResponse} {rest : Bytes} {p : DohResponseParser} (hroom : r.Room)
    (h : NameCut r rest p) (c : UInt8) :
    dohResponseParserFeed? p c = some (dohResponseParserFeed true p c) ∨
      (dohResponseParserFeed? p c = none ∧ Overlong 191 (rest ++ [c])) := by
  obtain ⟨labels, n, xs, a, hlabels, hn, hmark, hxs, rfl, ⟨hname, hlen⟩, rfl⟩ := h
  have hsize : a.nameLength.toNat ≤ (dottedLabels labels ++ xs).length := by
    rw [hlen]
    exact Nat.mod_le _ _
  rcases (storesName_record hroom).feed?_cases hlabels hn (not_marked hmark) hxs hname hsize c with
    hstored | hfailed
  · left
    rw [hstored]
    by_cases hlast : xs.length + 1 = n.toNat
    · rw [if_pos hlast]
      exact congrArg some ((counted_nameLabel true hroom n.toNat).leaves xs.length a c hlast).symm
    · rw [if_neg hlast]
      exact congrArg some
        ((counted_nameLabel true hroom n.toNat).step xs.length a c (by omega)).symm
  · exact .inr hfailed

/-- What a step of the run over any text does, checked. -/
theorem dns_feed?_cases (text : Bytes) (c : UInt8) :
    dohResponseParserFeed? (text.foldl (dohResponseParserFeed true) dohResponseParserInit) c
        = some (dohResponseParserFeed true
            (text.foldl (dohResponseParserFeed true) dohResponseParserInit) c) ∨
      (dohResponseParserFeed? (text.foldl (dohResponseParserFeed true) dohResponseParserInit) c
          = none ∧ HasOverlongName (text ++ [c])) := by
  by_cases hs : (text.foldl (dohResponseParserFeed true) dohResponseParserInit).Storing
  · obtain ⟨-, hposition⟩ := position_of_leads hs rfl
    cases hposition with
    | qname hd r rest hflags hcount htext hcut =>
        refine (feed?_qnameCut hcut c).imp_right ?_
        intro ⟨hnone, hlong⟩
        have hsplit : hd.bytes ++ (rest ++ [c]) = text ++ [c] := by rw [htext, List.append_assoc]
        exact ⟨hnone, .inl ⟨hd, rest ++ [c], hflags, hcount, hlong, ⟨[], by
          rw [List.append_nil, hsplit]⟩⟩⟩
    | record m r rest hflags hlt hlabels hread htext hroom hcut =>
        rcases hcut with hcut | hcut
        · refine (feed?_nameCut hroom hcut c).imp_right ?_
          intro ⟨hnone, hlong⟩
          have hsplit : m.bytes ++ (rest ++ [c]) = text ++ [c] := by rw [htext, List.append_assoc]
          exact ⟨hnone, .inr ⟨m, rest ++ [c], hflags, hlt, hlabels, hread, hlong, ⟨[], by
            rw [List.append_nil, hsplit]⟩⟩⟩
        · exact .inl (feed?_dataCut hroom hcut c)
    | done m rest _ _ hdone =>
        refine .inl ?_
        unfold dohResponseParserFeed?
        rw [hdone]
  · exact .inl (feed?_of_not_storing hs c)

theorem dns_checks : Lib.Checks
    (fun p => ∃ text : Bytes, p = text.foldl (dohResponseParserFeed true) dohResponseParserInit)
    dohResponseParserFeed? (dohResponseParserFeed true) where
  agrees := by
    rintro p c q ⟨text, rfl⟩ hq
    rcases dns_feed?_cases text c with heq | ⟨hnone, _⟩
    · rw [heq] at hq
      exact Option.some.inj hq
    · rw [hnone] at hq
      cases hq
  keeps := by
    rintro p c ⟨text, rfl⟩
    refine ⟨text ++ [c], ?_⟩
    rw [List.foldl_append]
    rfl

/-- The records in front of one that is cut. -/
theorem leads_records {h : DnsHeader} {q : DnsQuestion} {left : Nat} {rs : List Record}
    (hread : ∀ rec ∈ rs, rec.Readable) : ∀ (complete : List Answer) (i n : Nat),
      complete.length + (rs.length + (left + 1)) = h.ancount.toNat →
      ∃ as i' n', as.length = rs.length ∧
        (rs.flatMap Record.bytes).foldl (dohResponseParserFeed true)
          (atRecord (answered h q complete (rs.length + (left + 1))) i n)
          = atRecord (answered h q (complete ++ as) (left + 1)) i' n' := by
  induction rs with
  | nil =>
      intro complete i n _
      refine ⟨[], i, n, rfl, ?_⟩
      rw [List.length_nil, Nat.zero_add, List.append_nil]
      rfl
  | cons rec rs ih =>
      intro complete i n hcount
      rw [List.length_cons] at hcount
      have hcount' : complete.length + (rs.length + (left + 1) + 1) = h.ancount.toNat := by omega
      obtain ⟨front, x, t, a, i', n', hsplit, hrun, hlast, _⟩ :=
        front_atRecord (q := q) true (hread rec (by simp)) hcount' i n
      obtain ⟨as, i'', n'', hlen, hrest⟩ := ih (fun rec hr => hread rec (by simp [hr]))
        (complete ++ [a]) i' n' (by rw [List.length_append, List.length_singleton]; omega)
      refine ⟨a :: as, i'', n'', by rw [List.length_cons, List.length_cons, hlen], ?_⟩
      have hleft : (rec :: rs).length + (left + 1) = rs.length + (left + 1) + 1 := by
        rw [List.length_cons]
        omega
      rw [if_neg (by omega)] at hlast
      have hnext : dohResponseParserFeed true t x
          = atRecord (answered h q (complete ++ [a]) (rs.length + (left + 1))) i' n' := hlast
      rw [hleft, List.flatMap_cons, List.foldl_append, hsplit, List.foldl_append, hrun.foldl,
        List.foldl_cons, List.foldl_nil, hnext, hrest, List.append_assoc]
      rfl

/-- Fed the header and the question, and the records in front, the parser is at
the start of the next. -/
theorem leads_message {m : Message} (hflags : m.header.flags.InRange)
    (hlt : m.answers.length < m.header.ancount.toNat) (hlabels : LabelsWithin 255 m.question.labels)
    (hread : ∀ rec ∈ m.answers, rec.Readable) : ∃ r i n, DohResponse.Room r ∧
      m.bytes.foldl (dohResponseParserFeed true) dohResponseParserInit
        = inAnswer r .responseAnswerNameLabelLength i n .zero := by
  have hcount : m.header.ancount ≠ 0 := by
    intro h0
    rw [h0] at hlt
    exact Nat.not_lt_zero _ hlt
  obtain ⟨left, hleft⟩ : ∃ left, m.answers.length + (left + 1) = m.header.ancount.toNat :=
    ⟨m.header.ancount.toNat - m.answers.length - 1, by omega⟩
  obtain ⟨front, x, t, hsplit, hrun, hlast⟩ := front_opening hflags hcount hlabels
  rw [← hleft] at hlast
  let q : DnsQuestion :=
    { DohResponse.zero.question.pushAll (dottedLabels m.question.labels) with
      qtype := m.question.qtype, qclass := m.question.qclass }
  obtain ⟨as, i, n, hlen, hrecords⟩ := leads_records (q := q) hread [] 0 2
    (show ([] : List Answer).length + (m.answers.length + (left + 1)) = m.header.ancount.toNat by
      rw [List.length_nil, Nat.zero_add, hleft])
  have hroomCount : ([] ++ as).length + (left + 1) = m.header.ancount.toNat := by
    rw [List.nil_append, hlen, hleft]
  refine ⟨answered m.header q ([] ++ as) (left + 1), i, n, answered_room hroomCount, ?_⟩
  rw [Message.bytes, hsplit, List.foldl_append, List.foldl_append, hrun.foldl, List.foldl_cons,
    List.foldl_nil, hlast]
  exact hrecords.trans (atRecord_eq hroomCount i n)

/-- The parser stays inside its arrays, and its lengths do not wrap around, on
exactly the replies that have no such name. -/
theorem dns_inBounds_iff (text : Bytes) :
    (text.foldlM dohResponseParserFeed? dohResponseParserInit).isSome = true ↔
      ¬ HasOverlongName text := by
  have hinit : ∃ text : Bytes, dohResponseParserInit
      = text.foldl (dohResponseParserFeed true) dohResponseParserInit := ⟨[], rfl⟩
  constructor
  · intro hsome hlong
    obtain ⟨p, hp⟩ := Option.isSome_iff_exists.mp hsome
    rcases hlong with ⟨hd, name, hflags, hcount, hname, rest, rfl⟩ |
      ⟨m, name, hflags, hlt, hlabels, hread, hname, rest, rfl⟩
    · rw [List.append_assoc, List.foldlM_append] at hp
      obtain ⟨p', hp', hrest⟩ := Option.bind_eq_some_iff.mp hp
      have hlead := dns_checks.run_eq hinit hp'
      rw [(through_header hflags hcount).foldl] at hlead
      rw [← hlead, List.foldlM_append] at hrest
      obtain ⟨p'', hp'', _⟩ := Option.bind_eq_some_iff.mp hrest
      have hnone := (storesName_question (inHeader .responseQuestionQnameLabelLength 1 hd
        (some (List.replicate hd.ancount.toNat .zero))).response).overlong (Nat.le_refl 255)
        (i := 1) (n := 2) (d := DohResponse.zero.question) (List.length_replicate ..) rfl hname
      have hsame : inHeader .responseQuestionQnameLabelLength 1 hd
          (some (List.replicate hd.ancount.toNat .zero))
          = inQuestion (inHeader .responseQuestionQnameLabelLength 1 hd
              (some (List.replicate hd.ancount.toNat .zero))).response
              .responseQuestionQnameLabelLength 1 2 DohResponse.zero.question := rfl
      rw [hsame, hnone] at hp''
      cases hp''
    · rw [List.append_assoc, List.foldlM_append] at hp
      obtain ⟨p', hp', hrest⟩ := Option.bind_eq_some_iff.mp hp
      have hlead := dns_checks.run_eq hinit hp'
      obtain ⟨r, i, n, hroom, hstart⟩ := leads_message hflags hlt hlabels hread
      rw [hstart] at hlead
      rw [← hlead, List.foldlM_append] at hrest
      obtain ⟨p'', hp'', _⟩ := Option.bind_eq_some_iff.mp hrest
      have hnone := (storesName_record hroom).overlong (by omega) (i := i) (n := n) (d := .zero)
        (List.length_replicate ..) rfl hname
      rw [hnone] at hp''
      cases hp''
  · intro hshort
    refine (dns_checks.run_isSome_iff hinit).mpr ?_
    intro pre c hpre
    rcases dns_feed?_cases pre c with heq | ⟨_, hlong⟩
    · rw [heq]
      rfl
    · refine absurd ?_ hshort
      rcases hlong with ⟨hd, name, hflags, hcount, hname, hbefore⟩ |
        ⟨m, name, hflags, hlt, hlabels, hread, hname, hbefore⟩
      · exact .inl ⟨hd, name, hflags, hcount, hname, hbefore.trans hpre⟩
      · exact .inr ⟨m, name, hflags, hlt, hlabels, hread, hname, hbefore.trans hpre⟩

/-- A question whose name is four labels of 63 bytes: the fourth dot is stored
behind the array. -/
def fourLabels : Bytes :=
  [0, 0, 128, 0, 0, 1, 0, 1, 0, 0, 0, 0] ++
    (List.replicate 4 (63 :: List.replicate 63 (chr 'a'))).flatten

theorem four_labels_outside :
    ¬ (fourLabels.foldlM dohResponseParserFeed? dohResponseParserInit).isSome = true := by
  decide +kernel

end HttpdProxy
