/-!
# Machines fed one symbol at a time

A parser is a function that takes the next symbol in its state, and its run
over a text is a left fold. What such a run does is told part by part: while
the symbols of one part arrive the state is a function of the part so far
(`foldl_accumulates`), and a text *finishes* a machine when its last symbol,
and none before it, takes it into a state it stops in.
-/

namespace HttpdProxy.Lib

universe u v
variable {σ : Type u} {α : Type v} {feed : σ → α → σ} {P : σ → Prop}

/-- Where every symbol of a text adds itself to what the state tells of the
text, the whole text does. -/
theorem foldl_accumulates {state : List α → σ} {text : List α}
    (h : ∀ pre x, pre ++ [x] <+: text → feed (state pre) x = state (pre ++ [x])) :
    text.foldl feed (state []) = state text := by
  suffices hgen : ∀ post pre, pre ++ post = text →
      post.foldl feed (state pre) = state text from hgen text [] rfl
  intro post
  induction post with
  | nil =>
      intro pre he
      rw [List.append_nil] at he
      rw [List.foldl_nil, he]
  | cons x post ih =>
      intro pre he
      have hpre : pre ++ [x] <+: text := ⟨post, by rw [List.append_assoc]; exact he⟩
      rw [List.foldl_cons, h pre x hpre]
      exact ih (pre ++ [x]) (by rw [List.append_assoc]; exact he)

/-- A state that no symbol changes is the state after any text. -/
theorem foldl_stays {s : σ} (h : ∀ x, feed s x = s) (text : List α) :
    text.foldl feed s = s := by
  induction text with
  | nil => rfl
  | cons x text ih => rw [List.foldl_cons, h x, ih]

/-- What holds of no text, and passes from a text to the text with one symbol
more, holds of every text and of the state it leads to. -/
theorem foldl_tells {R : List α → σ → Prop} {s : σ} (hnil : R [] s)
    (hstep : ∀ text t x, R text t → R (text ++ [x]) (feed t x)) (text : List α) :
    R text (text.foldl feed s) := by
  suffices hgen : ∀ post pre t, R pre t → R (pre ++ post) (post.foldl feed t) from
    hgen text [] s hnil
  intro post
  induction post with
  | nil =>
      intro pre t h
      rw [List.append_nil]
      exact h
  | cons x post ih =>
      intro pre t h
      have hrest := ih (pre ++ [x]) (feed t x) (hstep pre t x h)
      rw [List.append_assoc] at hrest
      exact hrest

/-- The text takes the machine into a final state with its last symbol, and
not before. -/
def Finishes (feed : σ → α → σ) (P : σ → Prop) (s : σ) (text : List α) : Prop :=
  P (text.foldl feed s) ∧ ∀ k, k < text.length → ¬ P ((text.take k).foldl feed s)

theorem finishes_nil_iff {s : σ} : Finishes feed P s [] ↔ P s := by
  constructor
  · intro h
    exact h.1
  · intro h
    exact ⟨h, fun k hk => absurd hk (Nat.not_lt_zero k)⟩

theorem finishes_cons_iff {s : σ} {x : α} {text : List α} :
    Finishes feed P s (x :: text) ↔ ¬ P s ∧ Finishes feed P (feed s x) text := by
  constructor
  · intro ⟨hend, hbefore⟩
    refine ⟨hbefore 0 (by simp), hend, ?_⟩
    intro k hk
    exact hbefore (k + 1) (by simpa using hk)
  · intro ⟨hs, hend, hbefore⟩
    refine ⟨hend, ?_⟩
    intro k hk
    cases k with
    | zero => exact hs
    | succ k => exact hbefore k (by simpa using hk)

/-- A machine in a final state is finished by nothing more. -/
theorem finishes_of_final {s : σ} {text : List α} (hs : P s) :
    Finishes feed P s text ↔ text = [] := by
  cases text with
  | nil => simp [finishes_nil_iff, hs]
  | cons x text => simp [finishes_cons_iff, hs]

/-- The last symbol of a text that finishes a machine that is not finished. -/
theorem Finishes.exists_last {s : σ} {text : List α} (h : Finishes feed P s text)
    (hs : ¬ P s) : ∃ pre x, text = pre ++ [x] ∧ ¬ P (pre.foldl feed s) ∧
      P (feed (pre.foldl feed s) x) := by
  rcases List.eq_nil_or_concat text with rfl | ⟨pre, x, rfl⟩
  · exact absurd (finishes_nil_iff.mp h) hs
  · have hend := h.1
    have hbefore := h.2 pre.length (by simp)
    rw [List.concat_eq_append] at hend hbefore ⊢
    rw [List.foldl_append] at hend
    rw [List.take_left] at hbefore
    exact ⟨pre, x, rfl, hbefore, hend⟩

/-- Final states do not let go: a text finishes the machine when the machine
is final after it and was not just before. -/
theorem finishes_of_last {s : σ} {text : List α} {x : α}
    (hstay : ∀ s x, P s → P (feed s x)) (hbefore : ¬ P (text.foldl feed s))
    (hend : P (feed (text.foldl feed s) x)) : Finishes feed P s (text ++ [x]) := by
  have hkeep : ∀ (more : List α) s, P s → P (more.foldl feed s) := by
    intro more
    induction more with
    | nil => exact fun s hs => hs
    | cons x more ih => exact fun s hs => ih (feed s x) (hstay s x hs)
  refine ⟨by rw [List.foldl_append]; exact hend, ?_⟩
  intro k hk hP
  have hle : k ≤ text.length := by simp at hk; omega
  rw [List.take_append_of_le_length hle] at hP
  apply hbefore
  rw [← List.take_append_drop k text, List.foldl_append]
  exact hkeep _ _ hP

/-- What is left of a text after some of its symbols finishes the machine they
lead to. -/
theorem Finishes.after {s : σ} {pre rest : List α} (h : Finishes feed P s (pre ++ rest)) :
    Finishes feed P (pre.foldl feed s) rest := by
  refine ⟨?_, ?_⟩
  · rw [← List.foldl_append]
    exact h.1
  · intro k hk
    have hbefore := h.2 (pre.length + k) (by simp; omega)
    rwa [List.take_length_add_append, List.foldl_append] at hbefore

/-- While no fewer than `m` symbols finish the machine, a text that does has a
block of `m` at its head. -/
theorem Finishes.take_block {s : σ} {text : List α} (h : Finishes feed P s text) {m : Nat}
    (hmore : ∀ xs : List α, xs.length < m → ¬ P (xs.foldl feed s)) :
    ∃ xs rest, xs.length = m ∧ text = xs ++ rest ∧ Finishes feed P (xs.foldl feed s) rest := by
  have hlen : m ≤ text.length := by
    by_cases hlt : text.length < m
    · exact absurd h.1 (hmore text hlt)
    · omega
  refine ⟨text.take m, text.drop m, ?_, (List.take_append_drop m text).symm, ?_⟩
  · rw [List.length_take]
    omega
  · apply Finishes.after
    rwa [List.take_append_drop]

/-- A text that ends in a final state has a first one on its way. -/
theorem exists_finishes {s : σ} {text : List α} (h : P (text.foldl feed s)) :
    ∃ pre rest, text = pre ++ rest ∧ Finishes feed P s pre := by
  induction text generalizing s with
  | nil => exact ⟨[], [], rfl, finishes_nil_iff.mpr h⟩
  | cons x text ih =>
      by_cases hs : P s
      · exact ⟨[], x :: text, rfl, finishes_nil_iff.mpr hs⟩
      · obtain ⟨pre, rest, rfl, hpre⟩ := ih h
        exact ⟨x :: pre, rest, rfl, finishes_cons_iff.mpr ⟨hs, hpre⟩⟩

/-- Only one head of a text finishes the machine. -/
theorem Finishes.unique {s : σ} {xs ys us vs : List α} (hx : Finishes feed P s xs)
    (hy : Finishes feed P s ys) (he : xs ++ us = ys ++ vs) : xs = ys ∧ us = vs := by
  have hlen : xs.length = ys.length := by
    rcases Nat.lt_trichotomy xs.length ys.length with hlt | heq | hlt
    · have hpre : ys.take xs.length = xs := by
        rw [← List.take_append_of_le_length (Nat.le_of_lt hlt), ← he, List.take_left']
        rfl
      have hend := hx.1
      rw [← hpre] at hend
      exact absurd hend (hy.2 xs.length hlt)
    · exact heq
    · have hpre : xs.take ys.length = ys := by
        rw [← List.take_append_of_le_length (Nat.le_of_lt hlt), he, List.take_left']
        rfl
      have hend := hy.1
      rw [← hpre] at hend
      exact absurd hend (hx.2 ys.length hlt)
  exact List.append_inj he hlen

/-! ## Runs through states of one kind -/

/-- The text leads from one state to another through states that all meet
`Q`. -/
inductive Through (feed : σ → α → σ) (Q : σ → Prop) : σ → List α → σ → Prop where
  | nil {s : σ} : Q s → Through feed Q s [] s
  | cons {s t : σ} {x : α} {text : List α} :
      Q s → Through feed Q (feed s x) text t → Through feed Q s (x :: text) t

namespace Through
variable {Q : σ → Prop} {s t u : σ} {xs ys : List α}

theorem foldl (h : Through feed Q s xs t) : xs.foldl feed s = t := by
  induction h with
  | nil _ => rfl
  | cons _ _ ih => exact ih

theorem start (h : Through feed Q s xs t) : Q s := by
  cases h with
  | nil hs => exact hs
  | cons hs _ => exact hs

theorem last (h : Through feed Q s xs t) : Q t := by
  induction h with
  | nil hs => exact hs
  | cons _ _ ih => exact ih

theorem append (h : Through feed Q s xs t) (h' : Through feed Q t ys u) :
    Through feed Q s (xs ++ ys) u := by
  induction h with
  | nil _ => exact h'
  | cons hs _ ih => exact .cons hs (ih h')

theorem single {x : α} (hs : Q s) (ht : Q (feed s x)) : Through feed Q s [x] (feed s x) :=
  .cons hs (.nil ht)

theorem mono {Q' : σ → Prop} (h : Through feed Q s xs t) (himp : ∀ s, Q s → Q' s) :
    Through feed Q' s xs t := by
  induction h with
  | nil hs => exact .nil (himp _ hs)
  | cons hs _ ih => exact .cons (himp _ hs) ih

/-- Symbols that add themselves to what the state tells of them. -/
theorem accumulates {state : List α → σ} {text : List α}
    (hstep : ∀ pre x, pre ++ [x] <+: text → feed (state pre) x = state (pre ++ [x]))
    (hall : ∀ pre, pre <+: text → Q (state pre)) :
    Through feed Q (state []) text (state text) := by
  suffices hgen : ∀ post pre, pre ++ post = text →
      Through feed Q (state pre) post (state text) from hgen text [] rfl
  intro post
  induction post with
  | nil =>
      intro pre he
      rw [List.append_nil] at he
      subst he
      exact .nil (hall pre (List.prefix_refl pre))
  | cons x post ih =>
      intro pre he
      have hpre : pre ++ [x] <+: text := ⟨post, by rw [List.append_assoc]; exact he⟩
      refine .cons (hall pre ⟨x :: post, he⟩) ?_
      rw [hstep pre x hpre]
      exact ih (pre ++ [x]) (by rw [List.append_assoc]; exact he)

/-- Symbols that change nothing. -/
theorem stays {text : List α} (hs : Q s) (h : ∀ x ∈ text, feed s x = s) :
    Through feed Q s text s := by
  induction text with
  | nil => exact .nil hs
  | cons x text ih =>
      refine .cons hs ?_
      rw [h x (List.mem_cons_self ..)]
      exact ih fun y hy => h y (List.mem_cons_of_mem x hy)

/-- The states on the way. -/
theorem within (h : Through feed Q s xs t) (k : Nat) : Q ((xs.take k).foldl feed s) := by
  induction h generalizing k with
  | nil hs =>
      rw [List.take_nil]
      exact hs
  | cons hs _ ih =>
      cases k with
      | zero => exact hs
      | succ k => exact ih k

/-- A run on symbols that are translated first. -/
theorem map {β : Type v} {f : β → α} {text : List β}
    (h : Through (fun s y => feed s (f y)) Q s text t) : Through feed Q s (text.map f) t := by
  induction h with
  | nil hs => exact .nil hs
  | cons hs _ ih => exact .cons hs ih

/-- A run through states that are not final, and then a symbol that finishes
the machine. -/
theorem finishes {x : α} (h : Through feed Q s xs t) (hnot : ∀ s, Q s → ¬ P s)
    (hend : P (feed t x)) : Finishes feed P s (xs ++ [x]) := by
  induction h with
  | nil hs => exact finishes_cons_iff.mpr ⟨hnot _ hs, finishes_nil_iff.mpr hend⟩
  | cons hs _ ih => exact finishes_cons_iff.mpr ⟨hnot _ hs, ih hend⟩

/-- A run through states that are not final, before a text that finishes the
machine. -/
theorem before_finishes (h : Through feed Q s xs t) (hnot : ∀ s, Q s → ¬ P s)
    (hrest : Finishes feed P t ys) : Finishes feed P s (xs ++ ys) := by
  induction h with
  | nil _ => exact hrest
  | cons hs _ ih => exact finishes_cons_iff.mpr ⟨hnot _ hs, ih hrest⟩

end Through

/-! ## Counted blocks

Many parsers read a field of known length by counting its symbols. Such a
block is described by the states it goes through, each with its count and with
the data gathered so far, by what a symbol adds to the data, and by the state
behind its last symbol. -/

section Counted

universe w
variable {D : Type w} {Q : σ → Prop} {m : Nat} {block : Nat → D → σ}
  {gather : Nat → D → α → D} {leave : D → σ}

/-- What a block has gathered from symbols that begin at a count. -/
def gathered (gather : Nat → D → α → D) : Nat → D → List α → D
  | _, d, [] => d
  | i, d, x :: xs => gathered gather (i + 1) (gather i d x) xs

theorem gathered_const {f : D → α → D} {i : Nat} {d : D} {xs : List α} :
    gathered (fun _ => f) i d xs = xs.foldl f d := by
  induction xs generalizing i d with
  | nil => rfl
  | cons x xs ih => rw [gathered, ih, List.foldl_cons]

structure Counted (feed : σ → α → σ) (Q : σ → Prop) (m : Nat) (block : Nat → D → σ)
    (gather : Nat → D → α → D) (leave : D → σ) : Prop where
  step : ∀ i d x, i + 1 < m → feed (block i d) x = block (i + 1) (gather i d x)
  leaves : ∀ i d x, i + 1 = m → feed (block i d) x = leave (gather i d x)
  within : ∀ i d, i < m → Q (block i d)

namespace Counted

/-- A block of two symbols. -/
theorem pair (hfirst : ∀ d x, feed (block 0 d) x = block 1 (gather 0 d x))
    (hsecond : ∀ d x, feed (block 1 d) x = leave (gather 1 d x))
    (hwithin : ∀ i d, i < 2 → Q (block i d)) : Counted feed Q 2 block gather leave where
  step := by
    intro i d x hi
    obtain rfl : i = 0 := by omega
    exact hfirst d x
  leaves := by
    intro i d x hi
    obtain rfl : i = 1 := by omega
    exact hsecond d x
  within := hwithin

theorem through (h : Counted feed Q m block gather leave) {xs : List α} :
    ∀ {i : Nat} {d : D}, i + xs.length < m →
      Through feed Q (block i d) xs (block (i + xs.length) (gathered gather i d xs)) := by
  induction xs with
  | nil => exact fun hlt => .nil (h.within _ _ hlt)
  | cons x xs ih =>
      intro i d hlt
      rw [List.length_cons] at hlt
      have hrest := @ih (i + 1) (gather i d x) (by omega)
      rw [← h.step i d x (by omega)] at hrest
      have hcount : i + (x :: xs).length = i + 1 + xs.length := by
        rw [List.length_cons]
        omega
      rw [hcount]
      exact .cons (h.within _ _ (by omega)) hrest

/-- A whole block, up to its last symbol. -/
theorem front (h : Counted feed Q m block gather leave) {xs : List α} (hlen : xs.length = m)
    (hpos : 0 < m) (d : D) :
    ∃ front x t, xs = front ++ [x] ∧ Through feed Q (block 0 d) front t ∧
      feed t x = leave (gathered gather 0 d xs) := by
  suffices hgen : ∀ (xs : List α) (i : Nat) (d : D), i + xs.length = m → xs ≠ [] →
      ∃ front x t, xs = front ++ [x] ∧ Through feed Q (block i d) front t ∧
        feed t x = leave (gathered gather i d xs) by
    refine hgen xs 0 d (by omega) ?_
    rintro rfl
    simp at hlen
    omega
  intro xs
  induction xs with
  | nil => exact fun _ _ _ hne => absurd rfl hne
  | cons x xs ih =>
      intro i d hlen _
      cases xs with
      | nil =>
          simp at hlen
          exact ⟨[], x, block i d, rfl, .nil (h.within _ _ (by omega)), h.leaves i d x hlen⟩
      | cons y ys =>
          simp only [List.length_cons] at hlen ih
          obtain ⟨front, z, t, hsplit, hrun, hlast⟩ :=
            ih (i + 1) (gather i d x) (by omega) (by simp)
          rw [← h.step i d x (by omega)] at hrun
          refine ⟨x :: front, z, t, by rw [hsplit]; rfl, .cons (h.within _ _ (by omega)) hrun, ?_⟩
          rw [hlast]
          rfl

/-- A whole block, and the state behind it. -/
theorem whole (h : Counted feed Q m block gather leave) {xs : List α} (hlen : xs.length = m)
    (hpos : 0 < m) (d : D) (hq : Q (leave (gathered gather 0 d xs))) :
    Through feed Q (block 0 d) xs (leave (gathered gather 0 d xs)) := by
  obtain ⟨front, x, t, hsplit, hrun, hlast⟩ := h.front hlen hpos d
  rw [← hlast] at hq ⊢
  rw [hsplit]
  exact hrun.append (.single hrun.last hq)

/-- Inside a block. -/
theorem inside (h : Counted feed Q m block gather leave) {xs : List α} (hlt : xs.length < m)
    (d : D) : Q (xs.foldl feed (block 0 d)) := by
  have hrun : Through feed Q (block 0 d) xs _ := h.through (by omega)
  rw [hrun.foldl]
  exact hrun.last

/-- Behind a block. -/
theorem behind (h : Counted feed Q m block gather leave) {xs : List α} (hlen : xs.length = m)
    (hpos : 0 < m) (d : D) : xs.foldl feed (block 0 d) = leave (gathered gather 0 d xs) := by
  obtain ⟨front, x, t, hfront, hrun, hlast⟩ := h.front hlen hpos d
  rw [← hlast, ← hrun.foldl, hfront, List.foldl_append, List.foldl_cons, List.foldl_nil]

/-- A text that is fed to a block ends inside it, or has a whole block at its
head. -/
theorem cut_or_whole (h : Counted feed Q m block gather leave) (hpos : 0 < m) {d : D}
    {text : List α} {t : σ} (ht : text.foldl feed (block 0 d) = t) :
    (text.length < m ∧ t = block text.length (gathered gather 0 d text)) ∨
      ∃ xs rest, xs.length = m ∧ text = xs ++ rest ∧
        rest.foldl feed (leave (gathered gather 0 d xs)) = t := by
  by_cases hlt : text.length < m
  · have hrun : Through feed Q (block 0 d) text _ := h.through (by omega)
    rw [Nat.zero_add] at hrun
    exact .inl ⟨hlt, ht.symm.trans hrun.foldl⟩
  · have hlen : (text.take m).length = m := by
      rw [List.length_take]
      omega
    refine .inr ⟨text.take m, text.drop m, hlen, (List.take_append_drop m text).symm, ?_⟩
    rw [← h.behind hlen hpos d, ← List.foldl_append, List.take_append_drop]
    exact ht

/-- A text that finishes a machine inside a block begins with the block. -/
theorem take (h : Counted feed Q m block gather leave) (hpos : 0 < m)
    (hnot : ∀ s, Q s → ¬ P s) {d : D} {text : List α}
    (hfin : Finishes feed P (block 0 d) text) :
    ∃ xs rest, xs.length = m ∧ text = xs ++ rest ∧
      Finishes feed P (leave (gathered gather 0 d xs)) rest := by
  obtain ⟨xs, rest, hlen, hsplit, hrest⟩ :=
    hfin.take_block fun xs hlt => hnot _ (h.inside hlt d)
  rw [h.behind hlen hpos d] at hrest
  exact ⟨xs, rest, hlen, hsplit, hrest⟩

end Counted

end Counted

end HttpdProxy.Lib
