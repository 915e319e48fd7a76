import HttpdProxy.Lib.Feeding

/-!
# Machines that judge as they are fed

A machine may say with every symbol whether it wants another. `consume` feeds
it a text until it says anything else, and what the machine makes of a text is
that of its pieces, one after the other (`consume_append`): however the text
is cut, the machine is in the same state behind it.
-/

namespace HttpdProxy.Lib

universe u v w
variable {σ : Type u} {α : Type v} {ν : Type w} [DecidableEq ν] {feed : σ → α → σ × ν}
  {more : ν}

/-- What the machine makes of a text: the state it stops in, and what it says
there. -/
def consume (feed : σ → α → σ × ν) (more : ν) : σ → List α → σ × ν
  | s, [] => (s, more)
  | s, x :: xs =>
      if (feed s x).2 = more then consume feed more (feed s x).1 xs else feed s x

theorem consume_append (s : σ) (xs ys : List α) :
    consume feed more s (xs ++ ys) =
      if (consume feed more s xs).2 = more then
        consume feed more (consume feed more s xs).1 ys
      else consume feed more s xs := by
  induction xs generalizing s with
  | nil => rw [List.nil_append, consume, if_pos rfl]
  | cons x xs ih =>
      rw [List.cons_append, consume, consume]
      by_cases hx : (feed s x).2 = more
      · rw [if_pos hx, if_pos hx, ih]
      · rw [if_neg hx, if_neg hx, if_neg hx]

/-- While it asks for more it is handed on. -/
theorem consume_more {s t : σ} {xs : List α} (h : consume feed more s xs = (t, more))
    (ys : List α) : consume feed more s (xs ++ ys) = consume feed more t ys := by
  rw [consume_append, h, if_pos rfl]

/-- What follows what stopped it is left alone. -/
theorem consume_stopped {s t : σ} {v : ν} {xs : List α}
    (h : consume feed more s xs = (t, v)) (hv : v ≠ more) (ys : List α) :
    consume feed more s (xs ++ ys) = (t, v) := by
  rw [consume_append, h, if_neg hv]

/-- One symbol more. -/
theorem consume_snoc {s t : σ} {xs : List α} (h : consume feed more s xs = (t, more)) (x : α) :
    consume feed more s (xs ++ [x]) = feed t x := by
  rw [consume_more h, consume, consume]
  split
  · next hx => rw [← hx]
  · rfl

/-- A part of a larger machine: through states in which the part asks for more,
the whole does what the part does. -/
theorem consume_through {τ : Type u} {part : τ → α → τ} {Q : τ → Prop} (embed : τ → σ)
    {p q : τ} {xs : List α} (h : Through part Q p xs q)
    (hstep : ∀ p x, Q p → Q (part p x) → feed (embed p) x = (embed (part p x), more)) :
    consume feed more (embed p) xs = (embed q, more) := by
  induction h with
  | nil _ => rfl
  | @cons p q x xs hp hrest ih =>
      have hx := hstep p x hp hrest.start
      rw [consume, hx, if_pos rfl, ih]

/-- A part that is finished by a text, and never lets go of an error, has made
none on the way. -/
theorem consume_finishes {τ : Type u} {part : τ → α → τ} {P E : τ → Prop} (embed : τ → σ)
    {p : τ} {xs : List α} (h : Finishes part P p xs) (htrap : ∀ p x, E p → part p x = p)
    (hnot : ∀ p, E p → ¬ P p)
    (hstep : ∀ p x, ¬ P p → ¬ E (part p x) → feed (embed p) x = (embed (part p x), more)) :
    consume feed more (embed p) xs = (embed (xs.foldl part p), more) := by
  induction xs generalizing p with
  | nil => rfl
  | cons x xs ih =>
      obtain ⟨hp, hrest⟩ := finishes_cons_iff.mp h
      have hfine : ¬ E (part p x) := by
        intro he
        have hend := hrest.1
        rw [foldl_stays fun y => htrap _ y he] at hend
        exact hnot _ he hend
      have hx := hstep p x hp hfine
      rw [consume, hx, if_pos rfl, ih hrest]
      rfl

end HttpdProxy.Lib
