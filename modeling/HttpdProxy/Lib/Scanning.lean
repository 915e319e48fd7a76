import HttpdProxy.Lib.Feeding

/-!
# Scanning a stream for a word

A scanner that only remembers how much of its word the last symbols spell: a
symbol that does not go on with the word takes it back to the start, and that
symbol is not tried again. Such a scanner may overlook a word that begins in a
false start. It does not overlook one at the start of a line, when no symbol of
the word ends a line.
-/

namespace HttpdProxy.Lib

universe u
variable {α : Type u} [DecidableEq α] {word text : List α} {i : Nat} {x : α}

/-- How much of the word is spelled after one more symbol. -/
def advance (word : List α) (i : Nat) (x : α) : Nat :=
  if word[i]? = some x then i + 1 else 0

/-- How much of the word is spelled after a text. -/
def scan (word : List α) (i : Nat) (text : List α) : Nat := text.foldl (advance word) i

theorem scan_cons : scan word i (x :: text) = scan word (advance word i x) text := rfl

theorem advance_le (hi : i < word.length) : advance word i x ≤ word.length := by
  unfold advance
  split
  · omega
  · omega

/-- The word goes on. -/
theorem advance_spelled {pre : List α} (h : pre ++ [x] <+: word) :
    advance word pre.length x = pre.length + 1 := by
  obtain ⟨post, rfl⟩ := h
  simp [advance]

theorem scan_spelled (h : text <+: word) : scan word 0 text = text.length := by
  have hstep : ∀ pre x, pre ++ [x] <+: text →
      advance word pre.length x = (pre ++ [x]).length := by
    intro pre x hpre
    rw [advance_spelled (hpre.trans h), List.length_append, List.length_singleton]
  exact foldl_accumulates hstep

/-- A symbol that the word does not have takes the scanner back. -/
theorem advance_separator (h : x ∉ word) : advance word i x = 0 := by
  unfold advance
  rw [if_neg]
  intro he
  exact h (List.mem_of_getElem? he)

/-- In a text without the word the scanner stays inside it, at the part of it
that the text ends with. -/
theorem scan_without (hword : word ≠ []) (h : ¬ word <:+: text) :
    scan word 0 text < word.length ∧ word.take (scan word 0 text) <:+ text := by
  suffices hgen : ¬ word <:+: text →
      scan word 0 text < word.length ∧ word.take (scan word 0 text) <:+ text from hgen h
  refine foldl_tells (R := fun text i => ¬ word <:+: text → i < word.length ∧ word.take i <:+ text)
    ?_ ?_ text
  · intro _
    exact ⟨List.length_pos_iff.mpr hword, List.nil_suffix⟩
  · intro text i x ih hnot
    obtain ⟨hi, hsuf⟩ := ih fun hin => hnot (hin.trans (List.prefix_append text [x]).isInfix)
    unfold advance
    split
    · next hx =>
        have htake : word.take (i + 1) = word.take i ++ [x] := by
          rw [List.take_add_one, hx]
          rfl
        have hend : word.take (i + 1) <:+ text ++ [x] := by
          obtain ⟨front, rfl⟩ := hsuf
          exact ⟨front, by rw [htake, List.append_assoc]⟩
        refine ⟨?_, hend⟩
        by_cases hlast : i + 1 < word.length
        · exact hlast
        · rw [List.take_of_length_le (by omega)] at hend
          exact absurd hend.isInfix hnot
    · exact ⟨by omega, List.nil_suffix⟩

/-- A text that ends in a separator leaves the scanner at the start. -/
theorem scan_line (h : x ∉ word) : scan word i (text ++ [x]) = 0 := by
  unfold scan
  rw [List.foldl_append, List.foldl_cons, List.foldl_nil]
  exact advance_separator h

/-- Separators leave the scanner at the start. -/
theorem scan_separators (h : ∀ x ∈ text, x ∉ word) : scan word 0 text = 0 := by
  induction text with
  | nil => rfl
  | cons x text ih =>
      rw [scan_cons, advance_separator (h x (List.mem_cons_self ..))]
      exact ih fun y hy => h y (List.mem_cons_of_mem x hy)

omit [DecidableEq α] in
/-- A word with no separator of its own lies in one of two texts around one. -/
theorem infix_append_separator {before after : List α} (h : x ∉ word)
    (hin : word <:+: before ++ x :: after) : word <:+: before ∨ word <:+: after := by
  obtain ⟨pre, post, he⟩ := hin
  rw [List.append_assoc] at he
  rcases List.append_eq_append_iff.mp he with ⟨mid, rfl, hmid⟩ | ⟨mid, rfl, hmid⟩
  · rcases List.append_eq_append_iff.mp hmid with ⟨tail, rfl, htail⟩ | ⟨tail, rfl, htail⟩
    · exact .inl ⟨pre, tail, by simp⟩
    · cases tail with
      | nil =>
          rw [List.append_nil] at hmid ⊢
          exact .inl ⟨pre, [], by simp⟩
      | cons y tail =>
          rw [List.cons_append, List.cons.injEq] at htail
          exact absurd (by rw [htail.1]; simp) h
  · cases mid with
    | nil =>
        cases word with
        | nil => exact .inr List.nil_infix
        | cons y word =>
            rw [List.nil_append, List.cons_append, List.cons.injEq] at hmid
            exact absurd (by rw [hmid.1]; simp) h
    | cons y mid =>
        rw [List.cons_append, List.cons.injEq] at hmid
        exact .inr ⟨mid, post, by rw [hmid.2]; simp⟩

/-! ## The first occurrence and the first report -/

/-- After how many symbols the scanner has seen the whole word, for the first
time. -/
def firstFull (word : List α) : Nat → List α → Option Nat
  | _, [] => none
  | i, x :: text =>
      if advance word i x = word.length then some 1
      else (firstFull word (advance word i x) text).map (· + 1)

/-- Where the first occurrence of the word in the text ends. -/
def firstEnd (word text : List α) : Option Nat :=
  (List.range (text.length + 1)).find? fun n => decide (word <:+ text.take n)

theorem firstEnd_eq_some_iff {n : Nat} :
    firstEnd word text = some n ↔
      n ≤ text.length ∧ word <:+ text.take n ∧ ∀ k < n, ¬ word <:+ text.take k := by
  rw [firstEnd, List.find?_range_eq_some]
  simp only [decide_eq_true_eq, List.mem_range, Bool.not_eq_true', decide_eq_false_iff_not]
  constructor
  · rintro ⟨hend, hle, hbefore⟩
    exact ⟨by omega, hend, hbefore⟩
  · rintro ⟨hle, hend, hbefore⟩
    exact ⟨hend, by omega, hbefore⟩

theorem firstFull_eq_some_iff {n : Nat} (hi : i < word.length) :
    firstFull word i text = some n ↔
      n ≤ text.length ∧ Finishes (advance word) (· = word.length) i (text.take n) := by
  induction text generalizing i n with
  | nil =>
      rw [firstFull, List.take_nil, finishes_nil_iff]
      simp
      omega
  | cons x text ih =>
      rw [firstFull]
      cases n with
      | zero =>
          rw [List.take_zero, finishes_nil_iff]
          split
          · simp
            omega
          · simp
            omega
      | succ n =>
          rw [List.take_succ_cons, finishes_cons_iff]
          split
          · next hfull =>
              rw [finishes_of_final (P := (· = word.length)) hfull]
              constructor
              · rintro h
                cases h
                exact ⟨by simp, by omega, List.take_zero⟩
              · rintro ⟨hle, _, htake⟩
                have hlen := congrArg List.length htake
                simp only [List.length_take, List.length_nil, List.length_cons] at hlen hle
                obtain rfl : n = 0 := by omega
                rfl
          · next hnot =>
              have hlt : advance word i x < word.length := by
                have := advance_le (x := x) hi
                omega
              rw [Option.map_eq_some_iff]
              constructor
              · rintro ⟨k, hk, hkn⟩
                obtain ⟨hle, hfin⟩ := (ih hlt).mp hk
                obtain rfl : k = n := by omega
                exact ⟨by simpa using hle, by omega, hfin⟩
              · rintro ⟨hle, _, hfin⟩
                exact ⟨n, (ih hlt).mpr ⟨by simpa using hle, hfin⟩, rfl⟩

/-- What the scanner counts is the end of the text. -/
theorem take_scan_suffix (word text : List α) :
    word.take (scan word 0 text) <:+ text := by
  refine foldl_tells (R := fun text i => word.take i <:+ text) ?_ ?_ text
  · exact List.take_zero (l := word) ▸ List.nil_suffix
  · intro text i x hsuf
    unfold advance
    split
    · next hx =>
        obtain ⟨front, hfront⟩ := hsuf
        refine ⟨front, ?_⟩
        rw [← hfront, List.take_add_one, hx, List.append_assoc]
        rfl
    · exact List.nil_suffix

/-- The count goes up by one or falls to zero, so it goes up all the way over
a text of no more symbols than it counts. -/
theorem scan_rises {k : Nat} (h : scan word i text = k) (hk : text.length ≤ k) :
    i + text.length = k := by
  induction text generalizing i with
  | nil => exact h
  | cons x text ih =>
      rw [List.length_cons] at hk ⊢
      have hrest := ih h (by omega)
      unfold advance at hrest
      split at hrest
      · omega
      · omega

/-- A try that fails: some of the word, and a symbol that does not go on with
it. -/
def FalseStart (word try_ : List α) : Prop :=
  ∃ i x, i < word.length ∧ try_ = word.take i ++ [x] ∧ word[i]? ≠ some x

theorem scan_falseStart {try_ : List α} (h : FalseStart word try_) : scan word 0 try_ = 0 := by
  obtain ⟨k, x, hk, rfl, hx⟩ := h
  have hspelled : scan word 0 (word.take k) = k := by
    rw [scan_spelled (List.take_prefix k word), List.length_take]
    omega
  rw [scan, List.foldl_append]
  show advance word (scan word 0 (word.take k)) x = 0
  rw [hspelled, advance, if_neg hx]

theorem scan_falseStarts {tries : List (List α)} (h : ∀ t ∈ tries, FalseStart word t) :
    scan word 0 tries.flatten = 0 := by
  induction tries with
  | nil => rfl
  | cons t tries ih =>
      rw [List.flatten_cons, scan, List.foldl_append]
      show tries.flatten.foldl (advance word) (scan word 0 t) = 0
      rw [scan_falseStart (h t (List.mem_cons_self ..))]
      exact ih fun t ht => h t (List.mem_cons_of_mem _ ht)

/-- A text without the word is false starts, and as much of the word as the
scanner has counted. -/
theorem exists_falseStarts (h : ¬ word <:+: text) : ∃ tries : List (List α),
    (∀ t ∈ tries, FalseStart word t) ∧
    text = tries.flatten ++ word.take (scan word 0 text) := by
  refine foldl_tells (R := fun text i => ¬ word <:+: text → ∃ tries : List (List α),
    (∀ t ∈ tries, FalseStart word t) ∧ text = tries.flatten ++ word.take i) ?_ ?_ text h
  · intro _
    exact ⟨[], by simp, rfl⟩
  · intro text i x ih hnot
    obtain ⟨tries, htries, he⟩ := ih fun hin =>
      hnot (hin.trans (List.prefix_append text [x]).isInfix)
    have hi : i < word.length := by
      by_cases hlt : i < word.length
      · exact hlt
      · rw [List.take_of_length_le (by omega)] at he
        exact absurd ⟨tries.flatten, [x], by rw [he]⟩ hnot
    unfold advance
    split
    · next hx =>
        refine ⟨tries, htries, ?_⟩
        rw [List.take_add_one, hx, ← List.append_assoc, ← he]
        rfl
    · next hx =>
        refine ⟨tries ++ [word.take i ++ [x]], ?_, ?_⟩
        · intro t ht
          rcases List.mem_append.mp ht with ht | ht
          · exact htries t ht
          · exact ⟨i, x, hi, List.mem_singleton.mp ht, hx⟩
        · rw [List.take_zero, List.append_nil, List.flatten_append, List.flatten_singleton,
            ← List.append_assoc, ← he]

/-- Every symbol before the first occurrence belongs to a false start that is
over by then. -/
def Unobscured (word text : List α) : Prop :=
  ∀ n, firstEnd word text = some n → ∃ tries : List (List α),
    (∀ t ∈ tries, FalseStart word t) ∧ text.take (n - word.length) = tries.flatten

/-- In a text in which the word ends at `n` first, the scanner is at its start
where the word begins exactly when nothing before it obscures it. -/
theorem scan_eq_zero_iff (hword : word ≠ []) {n : Nat} (hn : firstEnd word text = some n) :
    scan word 0 (text.take (n - word.length)) = 0 ↔
      ∃ tries : List (List α), (∀ t ∈ tries, FalseStart word t) ∧
        text.take (n - word.length) = tries.flatten := by
  obtain ⟨hle, hend, hbefore⟩ := firstEnd_eq_some_iff.mp hn
  have hpos := List.length_pos_iff.mpr hword
  have hlen := hend.length_le
  rw [List.length_take] at hlen
  constructor
  · intro hzero
    have hnot : ¬ word <:+: text.take (n - word.length) := by
      rintro ⟨pre, post, he⟩
      have hshort := congrArg List.length he
      simp only [List.length_append, List.length_take] at hshort
      refine hbefore (pre.length + word.length) (by omega) ⟨pre, ?_⟩
      have htake := congrArg (List.take (pre.length + word.length)) he
      rw [List.take_left' (by simp), List.take_take, Nat.min_eq_left (by omega)] at htake
      exact htake
    obtain ⟨tries, htries, he⟩ := exists_falseStarts hnot
    rw [hzero, List.take_zero, List.append_nil] at he
    exact ⟨tries, htries, he⟩
  · rintro ⟨tries, htries, he⟩
    rw [he]
    exact scan_falseStarts htries

/-- The scanner reports the first occurrence, and nothing else, exactly in the
texts whose first occurrence is not obscured. -/
theorem firstFull_eq_firstEnd_iff (hword : word ≠ []) (text : List α) :
    firstFull word 0 text = firstEnd word text ↔ Unobscured word text := by
  have hpos := List.length_pos_iff.mpr hword
  -- a report is an occurrence
  have hsound : ∀ n, scan word 0 (text.take n) = word.length → word <:+ text.take n := by
    intro n hfull
    have hsuf := take_scan_suffix word (text.take n)
    rwa [hfull, List.take_length] at hsuf
  cases hn : firstEnd word text with
  | none =>
      have hnone : firstFull word 0 text = none := by
        rw [Option.eq_none_iff_forall_ne_some]
        intro n hreport
        obtain ⟨hle, hfull, hbefore⟩ := (firstFull_eq_some_iff hpos).mp hreport
        have hnot := List.find?_eq_none.mp hn n (List.mem_range.mpr (by omega))
        exact hnot (decide_eq_true (hsound n hfull))
      rw [hnone]
      exact iff_of_true rfl fun n h => by rw [hn] at h; cases h
  | some n =>
      obtain ⟨hle, hend, hbefore⟩ := firstEnd_eq_some_iff.mp hn
      have hlen := hend.length_le
      rw [List.length_take] at hlen
      have hsplit : text.take n = text.take (n - word.length) ++ word := by
        obtain ⟨front, hfront⟩ := hend
        have hfl := congrArg List.length hfront
        rw [List.length_append, List.length_take] at hfl
        have htake := congrArg (List.take (n - word.length)) hfront
        rw [List.take_left' (by omega), List.take_take, Nat.min_eq_left (by omega)] at htake
        rw [← htake, hfront]
      have hcount : firstFull word 0 text = some n ↔
          scan word 0 (text.take (n - word.length)) = 0 := by
        rw [firstFull_eq_some_iff hpos]
        constructor
        · rintro ⟨_, hfull, _⟩
          rw [hsplit, List.foldl_append] at hfull
          have hrise := scan_rises hfull (Nat.le_refl _)
          show scan word 0 _ = 0
          unfold scan
          omega
        · intro hzero
          refine ⟨hle, ?_, ?_⟩
          · rw [hsplit, List.foldl_append]
            show scan word (scan word 0 _) word = _
            rw [hzero]
            exact scan_spelled (List.prefix_refl word)
          · intro k hk hfull
            rw [List.length_take] at hk
            rw [List.take_take, Nat.min_eq_left (by omega)] at hfull
            exact hbefore k (by omega) (hsound k hfull)
      rw [hcount, scan_eq_zero_iff hword hn]
      constructor
      · intro h m hm
        rw [hn, Option.some.injEq] at hm
        rw [← hm]
        exact h
      · intro h
        exact h n hn

end HttpdProxy.Lib
