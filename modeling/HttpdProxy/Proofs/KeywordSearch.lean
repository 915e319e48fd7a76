import HttpdProxy.Proofs.Keywords

/-!
# The keyword scan and the search for a substring

The states that look for a keyword feed the string parser one byte at a time
and reset it after a mismatch. The byte of the mismatch is not tried again, nor
anything before it, so the scan finds the first occurrence of its keyword only
when no false start reaches into it.
-/

namespace HttpdProxy

/-- `MAX_STATES`. -/
def maxStates : Nat := 64

/-- A pattern that `parser_utils_strcmpi` has room for; `s` is a C string. -/
structure Keyword where
  text : Bytes
  nonempty : text ≠ []
  no_nul : 0 ∉ text
  fits : text.length ≤ maxStates - 2

/-- The loop of the states that look for a keyword: after how many bytes
`STRING_CMP_EQ` is reported for the first time. -/
def keywordReport : StringParser → Bytes → Option Nat
  | _, [] => none
  | p, c :: stream =>
      let p := parserFeed p c
      match p.e1 with
      | .eq => some 1
      | .neq => (keywordReport (parserReset p) stream).map (· + 1)
      | .mayEq => (keywordReport p stream).map (· + 1)

/-- The table is a scanner that goes back to its start, in any letter case. -/
theorem keywordReport_strcmpi {word : Bytes} (stream : Bytes) :
    ∀ {i : Nat} {e : StringCmpEvent}, i < word.length →
    keywordReport ⟨parserUtilsStrcmpi word, i, e⟩ stream
      = Lib.firstFull (lower word) i (lower stream) := by
  induction stream with
  | nil => exact fun _ => rfl
  | cons c stream ih =>
      intro i e hi
      have hlower : lower (c :: stream) = toLower c :: lower stream := rfl
      rw [keywordReport, hlower, Lib.firstFull, parserFeed_strcmpi hi, lower_length]
      by_cases hback : Lib.advance (lower word) i (toLower c) = 0
      · have hreset := @ih 0 .neq (by omega)
        rw [if_pos hback, if_neg (show ¬ Lib.advance (lower word) i (toLower c) = word.length by
          omega), hback, ← hreset]
        rfl
      · have hgo : Lib.advance (lower word) i (toLower c) = i + 1 := by
          unfold Lib.advance at hback ⊢
          split at hback
          · next hx => rw [if_pos hx]
          · exact absurd rfl hback
        rw [if_neg hback, hgo]
        by_cases hlast : i + 1 = word.length
        · simp only [if_pos hlast]
        · have hnext := @ih (i + 1) .mayEq (by omega)
          simp only [if_neg hlast]
          rw [hnext]

/-- What a state that looks for a keyword does with a stream is told by the
loop: it stays, scanning, up to the byte that is reported. -/
theorem SnifferParser.Scanning.until_report {base : SnifferParser} {s : SnifferState}
    {word : Bytes} {eq : SnifferParser → SnifferParser} (stream : Bytes) :
    ∀ {i n : Nat} {e : StringCmpEvent} {p : SnifferParser}, Scanning base s word i p →
    i < word.length → keywordReport ⟨parserUtilsStrcmpi word, i, e⟩ stream = some n →
    ∃ pre x q, stream.take n = pre ++ [x] ∧
      Lib.Through (fun p c => SnifferParser.scan p s c eq) (fun p => p.state = s) p pre q ∧
      q.scan s x eq = eq (scanned base s word) := by
  induction stream with
  | nil =>
      intro i n e p _ _ hn
      cases hn
  | cons c stream ih =>
      intro i n e p h hi hn
      rw [keywordReport_strcmpi _ hi] at hn
      have hlower : lower (c :: stream) = toLower c :: lower stream := rfl
      rw [hlower, Lib.firstFull, lower_length] at hn
      split at hn
      · next hfull =>
          rw [Option.some.injEq] at hn
          rw [← hn]
          exact ⟨[], c, p, rfl, .nil h.state, h.last hi hfull⟩
      · next hnot =>
          have hlt : Lib.advance (lower word) i (toLower c) < word.length := by
            have hle : Lib.advance (lower word) i (toLower c) ≤ (lower word).length :=
              Lib.advance_le (by rwa [lower_length])
            rw [lower_length] at hle
            omega
          obtain ⟨k, hk, rfl⟩ := Option.map_eq_some_iff.mp hn
          rw [← keywordReport_strcmpi (e := e) _ hlt] at hk
          obtain ⟨pre, x, q, htake, hrun, hq⟩ := ih (h.step hi hlt) hlt hk
          exact ⟨c :: pre, x, q, by rw [List.take_succ_cons, htake]; rfl, .cons h.state hrun, hq⟩

/-- The scan is a substring search: it reports its keyword with the last byte
of the first occurrence, whatever the letter case, and with no other. -/
def SearchesFor (k : Keyword) (stream : Bytes) : Prop :=
  keywordReport (parserInit (parserUtilsStrcmpi k.text)) stream
    = Lib.firstEnd (lower k.text) (lower stream)

/-- It is one exactly on the streams in which no false start reaches into the
first occurrence. -/
theorem keywordScan_search_iff (k : Keyword) (stream : Bytes) :
    SearchesFor k stream ↔ Lib.Unobscured (lower k.text) (lower stream) := by
  have hpos := List.length_pos_iff.mpr k.nonempty
  have hne : lower k.text ≠ [] := by
    rw [← List.length_pos_iff, lower_length]
    exact hpos
  have hreport : keywordReport (parserInit (parserUtilsStrcmpi k.text)) stream
      = Lib.firstFull (lower k.text) 0 (lower stream) := keywordReport_strcmpi stream hpos
  rw [SearchesFor, hreport]
  exact Lib.firstFull_eq_firstEnd_iff hne (lower stream)

def userKeyword : Keyword where
  text := ascii "USER"
  nonempty := by decide
  no_nul := by decide
  fits := by decide

/-- The first `u` is taken for the beginning, and the second for a mismatch. -/
theorem user_overlooked : ¬ SearchesFor userKeyword (ascii "uuser ana") := by
  have hmissed : keywordReport (parserInit (parserUtilsStrcmpi userKeyword.text))
      (ascii "uuser ana") = none := by decide +kernel
  have hthere : Lib.firstEnd (lower userKeyword.text) (lower (ascii "uuser ana")) = some 5 := by
    decide +kernel
  rw [SearchesFor, hmissed, hthere]
  intro h
  cases h

end HttpdProxy
