import HttpdProxy.Lib.Scanning
import HttpdProxy.Parsers.Sniffer
import HttpdProxy.Protocol.SnifferTap

/-!
# The sniffer looks for a keyword

Six states of the sniffer look for a keyword in what one side sends. The table
that `parser_utils_strcmpi` builds is a scanner that goes back to the start
after a false one, and the byte it takes there is the byte of `Lib.advance`.
-/

namespace HttpdProxy

/-! ## Letter case -/

theorem toLower_toNat : ∀ c : UInt8, (toLower c).toNat
    = if 65 ≤ c.toNat ∧ c.toNat ≤ 90 then c.toNat + 32 else c.toNat :=
  fun c => forall_byte (P := fun c => (toLower c).toNat
    = if 65 ≤ c.toNat ∧ c.toNat ≤ 90 then c.toNat + 32 else c.toNat) (by decide +kernel) c

theorem toUpper_toNat : ∀ c : UInt8, (toUpper c).toNat
    = if 97 ≤ c.toNat ∧ c.toNat ≤ 122 then c.toNat - 32 else c.toNat :=
  fun c => forall_byte (P := fun c => (toUpper c).toNat
    = if 97 ≤ c.toNat ∧ c.toNat ≤ 122 then c.toNat - 32 else c.toNat) (by decide +kernel) c

/-- The two bytes a transition is taken on are the cases of one letter. -/
theorem either_case {c k : UInt8} :
    (c = toLower k ∨ c = toUpper k) ↔ toLower c = toLower k := by
  rw [← UInt8.toNat_inj, ← UInt8.toNat_inj, ← UInt8.toNat_inj, toLower_toNat, toLower_toNat,
    toUpper_toNat]
  split
  · split
    · split
      · omega
      · omega
    · split
      · omega
      · omega
  · split
    · split
      · omega
      · omega
    · split
      · omega
      · omega

def lower (bs : Bytes) : Bytes := bs.map toLower

theorem lower_append (xs ys : Bytes) : lower (xs ++ ys) = lower xs ++ lower ys :=
  List.map_append ..

theorem lower_length (bs : Bytes) : (lower bs).length = bs.length := List.length_map ..

theorem lower_mono {xs ys : Bytes} (h : xs <+: ys) : lower xs <+: lower ys := h.map toLower

/-- A word, in any letter case. -/
structure Spelling (word : Bytes) where
  bytes : Bytes
  spelled : lower bytes = lower word

namespace Spelling
variable {word : Bytes} (w : Spelling word)

theorem length_eq : w.bytes.length = word.length := by
  have h := congrArg List.length w.spelled
  rwa [lower_length, lower_length] at h

theorem exists_last (h : word ≠ []) : ∃ pre x, w.bytes = pre ++ [x] := by
  rcases List.eq_nil_or_concat w.bytes with hnil | ⟨pre, x, he⟩
  · have hlen := w.length_eq
    rw [hnil] at hlen
    exact absurd (List.length_eq_zero_iff.mp hlen.symm) h
  · exact ⟨pre, x, by rw [he, List.concat_eq_append]⟩

end Spelling

/-! ## Lines -/

def crlf : Bytes := [chr '\r', chr '\n']

/-- A word that lies within a line. -/
structure InLine (word : Bytes) : Prop where
  nonempty : word ≠ []
  no_cr : chr '\r' ∉ lower word
  no_lf : chr '\n' ∉ lower word

/-- Lines without the word do not have it across their ends. -/
theorem InLine.not_in_lines {word : Bytes} {lines : List Bytes} (h : InLine word)
    (hnot : ∀ line ∈ lines, ¬ lower word <:+: lower line) :
    ¬ lower word <:+: lower (lines.flatMap (· ++ crlf)) := by
  have hnil : ¬ lower word <:+: [] := by
    intro hin
    have hempty : lower word = [] := List.eq_nil_of_infix_nil hin
    exact h.nonempty (List.map_eq_nil_iff.mp hempty)
  induction lines with
  | nil => exact hnil
  | cons line lines ih =>
      intro hin
      have hsplit : lower ((line :: lines).flatMap (· ++ crlf))
          = lower line ++ chr '\r' :: ([] ++ chr '\n' :: lower (lines.flatMap (· ++ crlf))) := by
        rw [List.flatMap_cons, lower_append, lower_append, List.append_assoc]
        rfl
      rw [hsplit] at hin
      rcases Lib.infix_append_separator h.no_cr hin with hline | hrest
      · exact hnot line (List.mem_cons_self ..) hline
      · rcases Lib.infix_append_separator h.no_lf hrest with hnone | hlines
        · exact hnil hnone
        · exact ih (fun l hl => hnot l (List.mem_cons_of_mem line hl)) hlines

theorem lines_end (lines : List Bytes) :
    lines.flatMap (· ++ crlf) = [] ∨ ∃ front, lines.flatMap (· ++ crlf) = front ++ [chr '\n'] := by
  rcases List.eq_nil_or_concat lines with rfl | ⟨front, line, rfl⟩
  · exact .inl rfl
  · refine .inr ⟨front.flatMap (· ++ crlf) ++ (line ++ [chr '\r']), ?_⟩
    rw [List.concat_eq_append, List.flatMap_append, List.flatMap_singleton]
    simp [crlf]

/-! ## The table of `parser_utils_strcmpi` -/

/-- The table's states are the positions of the word. -/
theorem strcmpi_state {word : Bytes} {i : Nat} {k : UInt8} (hk : word[i]? = some k) :
    (parserUtilsStrcmpi word).states.getD i []
      = [ { when_ := (toLower k).toNat
            dest := i + 1
            act1 := if i + 1 = word.length then StringCmpEvent.eq else .mayEq },
          { when_ := (toUpper k).toNat
            dest := i + 1
            act1 := if i + 1 = word.length then StringCmpEvent.eq else .mayEq },
          { when_ := anyByte, dest := word.length + 1, act1 := .neq } ] := by
  obtain ⟨hi, rfl⟩ := List.getElem?_eq_some_iff.mp hk
  have hdest : (if i + 1 = word.length then word.length else i + 1) = i + 1 := by
    split <;> omega
  unfold parserUtilsStrcmpi
  rw [List.getD_eq_getElem?_getD, List.getElem?_append_left (by simpa using hi)]
  simp [hdest, hi]

/-- One byte through the table, at a position of the word. -/
theorem parserFeed_strcmpi {word : Bytes} {i : Nat} {e : StringCmpEvent} {c : UInt8}
    (hi : i < word.length) :
    parserFeed ⟨parserUtilsStrcmpi word, i, e⟩ c
      = if Lib.advance (lower word) i (toLower c) = 0 then
          ⟨parserUtilsStrcmpi word, word.length + 1, .neq⟩
        else ⟨parserUtilsStrcmpi word, i + 1,
          if i + 1 = word.length then .eq else .mayEq⟩ := by
  have hk : word[i]? = some word[i] := List.getElem?_eq_getElem hi
  have hadv : Lib.advance (lower word) i (toLower c) = 0 ↔ ¬ toLower c = toLower word[i] := by
    unfold Lib.advance lower
    rw [List.getElem?_map, hk]
    simp [eq_comm]
  have hle : ∀ b : UInt8, b.toNat ≤ 0xFF := fun b => by have := b.toNat_lt; omega
  unfold parserFeed
  simp only [strcmpi_state hk, hadv]
  by_cases hcase : toLower c = toLower word[i]
  · rw [if_neg (not_not_intro hcase)]
    rcases either_case.mpr hcase with rfl | rfl
    · simp [Transition.matches, List.find?, hle]
    · by_cases hsame : toUpper word[i] = toLower word[i]
      · simp [Transition.matches, List.find?, hle, hsame]
      · have hne : ((toUpper word[i]).toNat == (toLower word[i]).toNat) = false := by
          rwa [beq_eq_false_iff_ne, Ne, UInt8.toNat_inj]
        simp [Transition.matches, List.find?, hle, hne]
  · rw [if_pos hcase]
    have hneither := mt either_case.mp hcase
    rw [not_or] at hneither
    have hlower : (c.toNat == (toLower word[i]).toNat) = false := by
      rw [beq_eq_false_iff_ne, Ne, UInt8.toNat_inj]
      exact hneither.1
    have hupper : (c.toNat == (toUpper word[i]).toNat) = false := by
      rw [beq_eq_false_iff_ne, Ne, UInt8.toNat_inj]
      exact hneither.2
    simp [Transition.matches, List.find?, hle, hlower, hupper, anyByte]

/-! ## The states that look for a keyword -/

/-- One byte of one side. -/
def sniffFeed (port : UInt16) (p : SnifferParser) (x : DataOwner × UInt8) : SnifferParser :=
  snifferParserFeed x.2 p x.1 port

def SniffDone (p : SnifferParser) : Prop := p.state = .sniffDone

instance : DecidablePred SniffDone := fun p => inferInstanceAs (Decidable (p.state = .sniffDone))

def NotDone (p : SnifferParser) : Prop := ¬ SniffDone p

theorem notDone_of_state {p : SnifferParser} {s : SnifferState} (hs : s ≠ .sniffDone)
    (h : p.state = s) : NotDone p := by
  intro hd
  exact hs (h.symm.trans hd)

/-- What one side sent. -/
def bytesOf (side : DataOwner) (text : List (DataOwner × UInt8)) : Bytes :=
  (text.filter fun x => x.1 = side).map (·.2)

theorem bytesOf_tagged (side : DataOwner) (bs : Bytes) : bytesOf side (tagged side bs) = bs := by
  have hall : (tagged side bs).filter (fun x => x.1 = side) = tagged side bs := by
    rw [List.filter_eq_self]
    intro x hx
    obtain ⟨c, _, rfl⟩ := List.mem_map.mp hx
    simp
  rw [bytesOf, hall, tagged, List.map_map]
  exact List.map_id bs

theorem bytesOf_other {side owner : DataOwner} {bs : Bytes} (h : owner ≠ side) :
    bytesOf side (tagged owner bs) = [] := by
  have hnone : (tagged owner bs).filter (fun x => x.1 = side) = [] := by
    rw [List.filter_eq_nil_iff]
    intro x hx
    obtain ⟨c, _, rfl⟩ := List.mem_map.mp hx
    simpa using h
  rw [bytesOf, hnone, List.map_nil]

theorem bytesOf_append (side : DataOwner) (xs ys : List (DataOwner × UInt8)) :
    bytesOf side (xs ++ ys) = bytesOf side xs ++ bytesOf side ys := by
  rw [bytesOf, List.filter_append, List.map_append]
  rfl

namespace SnifferParser

/-- The parser looks for the word in state `s`, and has seen `i` bytes of
it. -/
def Scanning (base : SnifferParser) (s : SnifferState) (word : Bytes) (i : Nat)
    (p : SnifferParser) : Prop :=
  ∃ e, p = { base with state := s, stringParser := some ⟨parserUtilsStrcmpi word, i, e⟩ }

/-- What the parser is when it has seen the word. -/
def scanned (base : SnifferParser) (s : SnifferState) (word : Bytes) : SnifferParser :=
  { base with state := s, stringParser := some ⟨parserUtilsStrcmpi word, word.length, .eq⟩ }

variable {base p : SnifferParser} {s : SnifferState} {word : Bytes} {i : Nat} {c : UInt8}
  {side : DataOwner} {port : UInt16} {eq : SnifferParser → SnifferParser}

theorem Scanning.state (h : Scanning base s word i p) : p.state = s := by
  obtain ⟨e, rfl⟩ := h
  rfl

/-- A byte that does not end the word. -/
theorem Scanning.step (h : Scanning base s word i p) (hi : i < word.length)
    (hlt : Lib.advance (lower word) i (toLower c) < word.length) :
    Scanning base s word (Lib.advance (lower word) i (toLower c)) (p.scan s c eq) := by
  obtain ⟨e, rfl⟩ := h
  unfold scan
  simp only [parserFeed_strcmpi hi]
  unfold Lib.advance at hlt ⊢
  split
  · next hgo =>
      rw [if_pos hgo] at hlt
      rw [if_neg (by omega), if_neg (by omega)]
      exact ⟨.mayEq, rfl⟩
  · exact ⟨.neq, rfl⟩

/-- The byte that ends the word. -/
theorem Scanning.last (h : Scanning base s word i p) (hi : i < word.length)
    (hend : Lib.advance (lower word) i (toLower c) = word.length) :
    p.scan s c eq = eq (scanned base s word) := by
  obtain ⟨e, rfl⟩ := h
  have hne : word.length ≠ 0 := by omega
  have hi1 : i + 1 = word.length := by
    unfold Lib.advance at hend
    split at hend
    · exact hend
    · omega
  unfold scan
  simp only [parserFeed_strcmpi hi, hend, if_neg hne, if_pos hi1]
  rw [hi1]
  rfl

/-- A text that does not have the word: the other side's bytes are not looked
at. -/
theorem Scanning.through {text : List (DataOwner × UInt8)} (h : Scanning base s word i p)
    (hscan : ∀ x ∈ text, x.1 = side → ∀ p : SnifferParser, p.state = s →
      sniffFeed port p x = p.scan s x.2 eq)
    (hskip : ∀ x ∈ text, x.1 ≠ side → ∀ p : SnifferParser, p.state = s → sniffFeed port p x = p)
    (hin : ∀ pre, pre <+: text →
      Lib.scan (lower word) i (lower (bytesOf side pre)) < word.length) :
    ∃ q, Lib.Through (sniffFeed port) (fun p => p.state = s) p text q ∧
      Scanning base s word (Lib.scan (lower word) i (lower (bytesOf side text))) q := by
  induction text generalizing p i with
  | nil => exact ⟨p, .nil h.state, h⟩
  | cons x text ih =>
      have hi : i < word.length := hin [] List.nil_prefix
      have hscan' := fun y hy => hscan y (List.mem_cons_of_mem x hy)
      have hskip' := fun y hy => hskip y (List.mem_cons_of_mem x hy)
      by_cases hx : x.1 = side
      · have hbytes : ∀ pre, bytesOf side (x :: pre) = x.2 :: bytesOf side pre := by
          intro pre
          simp [bytesOf, hx]
        have hone := hin [x] ((List.prefix_cons_inj x).mpr List.nil_prefix)
        rw [hbytes] at hone
        have hstep := @Scanning.step base p s word i x.2 eq h hi hone
        rw [← hscan x (List.mem_cons_self ..) hx p h.state] at hstep
        obtain ⟨q, hrun, hq⟩ := ih hstep hscan' hskip' fun pre hpre => by
          have hlong := hin (x :: pre) ((List.prefix_cons_inj x).mpr hpre)
          rwa [hbytes] at hlong
        rw [hbytes]
        exact ⟨q, .cons h.state hrun, hq⟩
      · have hbytes : ∀ pre, bytesOf side (x :: pre) = bytesOf side pre := by
          intro pre
          simp [bytesOf, hx]
        obtain ⟨q, hrun, hq⟩ := ih h hscan' hskip' fun pre hpre => by
          have hlong := hin (x :: pre) ((List.prefix_cons_inj x).mpr hpre)
          rwa [hbytes] at hlong
        rw [hbytes]
        refine ⟨q, .cons h.state ?_, hq⟩
        rwa [hskip x (List.mem_cons_self ..) hx p h.state]

/-- Lines that do not have the word leave the parser at the start of it, when
the word has no line feed. -/
theorem Scanning.lines {text : List (DataOwner × UInt8)} {lines : List Bytes}
    (h : Scanning base s word 0 p)
    (hscan : ∀ x ∈ text, x.1 = side → ∀ p : SnifferParser, p.state = s →
      sniffFeed port p x = p.scan s x.2 eq)
    (hskip : ∀ x ∈ text, x.1 ≠ side → ∀ p : SnifferParser, p.state = s → sniffFeed port p x = p)
    (hword : InLine word) (hlines : bytesOf side text = lines.flatMap (· ++ crlf))
    (hnot : ∀ line ∈ lines, ¬ lower word <:+: lower line) :
    ∃ q, Lib.Through (sniffFeed port) (fun p => p.state = s) p text q ∧
      Scanning base s word 0 q := by
  have hlower : lower word ≠ [] := by simpa [lower] using hword.nonempty
  have hin := hword.not_in_lines hnot
  rw [← hlines] at hin
  obtain ⟨q, hrun, hq⟩ := h.through hscan hskip fun pre hpre => by
    have hsub : lower (bytesOf side pre) <+: lower (bytesOf side text) :=
      ((hpre.filter _).map _).map _
    have hlt := (Lib.scan_without hlower fun hpre => hin (hpre.trans hsub.isInfix)).1
    rwa [lower_length] at hlt
  refine ⟨q, hrun, ?_⟩
  rcases lines_end lines with hnil | ⟨front, hfront⟩
  · rw [hlines, hnil] at hq
    exact hq
  · rw [hlines, hfront, lower_append] at hq
    have hback : Lib.scan (lower word) 0 (lower front ++ [chr '\n']) = 0 :=
      Lib.scan_line hword.no_lf
    rwa [show lower [chr '\n'] = [chr '\n'] from rfl, hback] at hq

/-- The word itself, from its start. -/
theorem Scanning.spelled (h : Scanning base s word 0 p) (w : Spelling word) (hword : word ≠ [])
    (hscan : ∀ c, toLower c ∈ lower word → ∀ p : SnifferParser, p.state = s →
      sniffFeed port p (side, c) = p.scan s c eq) :
    ∃ pre x q, w.bytes = pre ++ [x] ∧
      Lib.Through (sniffFeed port) (fun p => p.state = s) p (tagged side pre) q ∧
      sniffFeed port q (side, x) = eq (scanned base s word) := by
  obtain ⟨pre, x, hlast⟩ := w.exists_last hword
  have hlen : pre.length + 1 = word.length := by
    rw [← w.length_eq, hlast]
    simp
  have hspell : lower pre ++ [toLower x] = lower word := by
    rw [← w.spelled, hlast, lower_append]
    rfl
  have hmem : ∀ y ∈ tagged side pre, toLower y.2 ∈ lower word := by
    intro y hy
    obtain ⟨c, hc, rfl⟩ := List.mem_map.mp hy
    rw [← hspell]
    exact List.mem_append_left _ (List.mem_map_of_mem hc)
  obtain ⟨q, hrun, hq⟩ := @Scanning.through base p s word 0 side port eq (tagged side pre) h
    (fun y hy hside p hp => by
      obtain ⟨c, _, rfl⟩ := List.mem_map.mp hy
      exact hscan c (hmem _ hy) p hp)
    (fun y hy hside => by
      obtain ⟨c, _, rfl⟩ := List.mem_map.mp hy
      exact absurd rfl hside)
    (fun front hfront => by
      have hpre : bytesOf side front <+: pre := by
        have hsub := (hfront.filter fun x => x.1 = side).map (·.2)
        rwa [show ((tagged side pre).filter fun x => x.1 = side).map (·.2) = pre from
          bytesOf_tagged side pre] at hsub
      have hle := hpre.length_le
      rw [Lib.scan_spelled ((lower_mono hpre).trans ⟨[toLower x], hspell⟩), lower_length]
      omega)
  rw [bytesOf_tagged, Lib.scan_spelled ⟨[toLower x], hspell⟩, lower_length] at hq
  refine ⟨pre, x, q, hlast, hrun, ?_⟩
  rw [hscan x (by rw [← hspell]; simp) q hq.state]
  apply hq.last (by omega)
  have hadv : Lib.advance (lower word) (lower pre).length (toLower x) = (lower pre).length + 1 :=
    Lib.advance_spelled ⟨[], by rw [List.append_nil, hspell]⟩
  rw [lower_length] at hadv
  omega

/-- The parser behind the word. -/
theorem Scanning.found {Q : SnifferParser → Prop} (h : Scanning base s word 0 p)
    (w : Spelling word) (hword : InLine word)
    (hscan : ∀ c, toLower c ∈ lower word → ∀ p : SnifferParser, p.state = s →
      sniffFeed port p (side, c) = p.scan s c eq)
    (hs : ∀ p : SnifferParser, p.state = s → Q p) (hend : Q (eq (scanned base s word))) :
    Lib.Through (sniffFeed port) Q p (tagged side w.bytes) (eq (scanned base s word)) := by
  obtain ⟨pre, x, q, hlast, hrun, hx⟩ := h.spelled w hword.nonempty hscan
  rw [hlast, tagged_append]
  rw [← hx] at hend ⊢
  have hq := hrun.mono hs
  exact hq.append (.single hq.last hend)

end SnifferParser

end HttpdProxy
