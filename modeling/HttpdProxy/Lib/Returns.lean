/-!
# What a fallible computation returns, and loops on a budget

Two small calculi the rest of the development rests on. Neither knows what is
computed.

`Returns m P` is a partial-correctness judgment on `Except`: if `m` returns,
the value is in `P`; a computation that fails satisfies it vacuously. It
composes along `bind` and along the loop below, so a specification is read off
a program one construct at a time.

`loop` runs the body of a loop until it leaves, on a budget of rounds. An
invariant says what it returns (`returns_loop`), and a variant when the budget
is enough (`avoids_loop_variant`).
-/

namespace HttpdProxy.Lib

universe u v w
variable {ε : Type u} {α β : Type v} {σ : Type w}

/-- Whenever `m` returns, what it returns satisfies `P`. -/
def Returns (m : Except ε α) (P : α → Prop) : Prop := ∀ a, m = .ok a → P a

theorem returns_ok {P : α → Prop} {a : α} (h : P a) :
    Returns (.ok a : Except ε α) P := by
  intro b hb
  cases hb
  exact h

theorem returns_error {P : α → Prop} (e : ε) :
    Returns (.error e : Except ε α) P := by
  intro b hb
  cases hb

theorem Returns.mono {m : Except ε α} {P Q : α → Prop} (h : Returns m P)
    (hPQ : ∀ a, P a → Q a) : Returns m Q := fun a ha => hPQ a (h a ha)

theorem returns_bind {m : Except ε α} {f : α → Except ε β} {Q : α → Prop}
    {P : β → Prop} (hm : Returns m Q) (hf : ∀ a, Q a → Returns (f a) P) :
    Returns (m >>= f) P := by
  intro b hb
  cases h : m with
  | error e => rw [h] at hb; cases hb
  | ok a => rw [h] at hb; exact hf a (hm a h) b hb

theorem returns_bind_any {m : Except ε α} {f : α → Except ε β} {P : β → Prop}
    (hf : ∀ a, Returns (f a) P) : Returns (m >>= f) P :=
  returns_bind (Q := fun _ => True) (fun _ _ => trivial) fun a _ => hf a

theorem returns_ite {c : Prop} [Decidable c] {m n : Except ε α} {P : α → Prop}
    (hm : c → Returns m P) (hn : ¬ c → Returns n P) :
    Returns (if c then m else n) P := by
  split
  · next h => exact hm h
  · next h => exact hn h

/-- A bind that returned: the two halves, taken apart. -/
theorem bind_eq_ok {m : Except ε α} {f : α → Except ε β} {b : β} :
    (m >>= f) = .ok b ↔ ∃ a, m = .ok a ∧ f a = .ok b := by
  cases m with
  | error e => simp [bind, Except.bind]
  | ok a => simp [bind, Except.bind]

theorem ok_of_toOption {m : Except ε α} {a : α} (h : m.toOption = some a) : m = .ok a := by
  cases m with
  | error e => cases h
  | ok b =>
      cases h
      rfl

/-! ## Failures that do not occur

`Avoids e m` says that `m` does not fail with `e`; a computation made of parts
that avoid a failure avoids it. -/

def Avoids (e : ε) (m : Except ε α) : Prop := m ≠ .error e

theorem avoids_ok (e : ε) (a : α) : Avoids e (.ok a) := by
  intro h
  cases h

theorem avoids_error {e e' : ε} (h : e' ≠ e) : Avoids e (.error e' : Except ε α) := by
  intro he
  exact h (Except.error.inj he)

theorem avoids_bind {e : ε} {m : Except ε α} {f : α → Except ε β} (hm : Avoids e m)
    (hf : ∀ a, m = .ok a → Avoids e (f a)) : Avoids e (m >>= f) := by
  intro he
  cases h : m with
  | error e' =>
      rw [h] at he
      have he' : e' = e := Except.error.inj he
      exact hm (by rw [h, he'])
  | ok a =>
      rw [h] at he
      exact hf a h he

theorem avoids_ite {e : ε} {p : Prop} [Decidable p] {a b : Except ε α} (ha : Avoids e a)
    (hb : Avoids e b) : Avoids e (if p then a else b) := by
  split
  · exact ha
  · exact hb

/-! ## Loops -/

/-- One round of a loop body: go round again, or leave the loop. -/
inductive Round (σ : Type w) (β : Type v) where
  | again (s : σ)
  | leave (b : β)

/-- What a round establishes: `I` if the loop goes on, `P` if it is left. -/
def Round.Post (I : σ → Prop) (P : β → Prop) : Round σ β → Prop
  | .again s => I s
  | .leave b => P b

/-- Run `body` from `s` until it leaves, for at most `fuel` rounds. The
failure `out` stands for a loop that has not left by then. -/
def loop (out : ε) (body : σ → Except ε (Round σ β)) :
    Nat → σ → Except ε β
  | 0, _ => .error out
  | fuel + 1, s =>
      match body s with
      | .error e => .error e
      | .ok (.leave b) => .ok b
      | .ok (.again s') => loop out body fuel s'

variable {out : ε} {body : σ → Except ε (Round σ β)}

theorem loop_again {fuel : Nat} {s s' : σ} (h : body s = .ok (.again s')) :
    loop out body (fuel + 1) s = loop out body fuel s' := by
  rw [loop, h]

theorem loop_leave {fuel : Nat} {s : σ} {b : β} (h : body s = .ok (.leave b)) :
    loop out body (fuel + 1) s = .ok b := by
  rw [loop, h]

theorem loop_error {fuel : Nat} {s : σ} {e : ε} (h : body s = .error e) :
    loop out body (fuel + 1) s = .error e := by
  rw [loop, h]

/-- The invariant rule: `I` holds at the head of every round, and whatever
the body leaves with is in `P`. -/
theorem returns_loop (I : σ → Prop) {P : β → Prop}
    (hbody : ∀ s, I s → Returns (body s) (Round.Post I P)) :
    ∀ (fuel : Nat) (s : σ), I s → Returns (loop out body fuel s) P := by
  intro fuel
  induction fuel with
  | zero => intro s _; exact returns_error out
  | succ n ih =>
      intro s hs
      cases hr : body s with
      | error e => rw [loop_error hr]; exact returns_error e
      | ok r =>
          have h := hbody s hs r hr
          cases r with
          | again s' => rw [loop_again hr]; exact ih s' h
          | leave b => rw [loop_leave hr]; exact returns_ok h

/-- The variant rule for failures: a loop whose rounds keep `I` avoids what
they avoid. That it is not left in time is such a failure too, where every
round that goes round again pays out of `μ` and the budget is above it. -/
theorem avoids_loop_variant {e : ε} (I : σ → Prop) (μ : σ → Nat)
    (hbody : ∀ s, I s → Avoids e (body s))
    (hagain : ∀ s s', I s → body s = .ok (.again s') → I s' ∧ (out = e → μ s' < μ s)) :
    ∀ (fuel : Nat) (s : σ), I s → (out = e → μ s < fuel) →
      Avoids e (loop out body fuel s) := by
  intro fuel
  induction fuel with
  | zero =>
      intro s _ hμ
      exact avoids_error fun he => Nat.not_lt_zero _ (hμ he)
  | succ n ih =>
      intro s hs hμ
      cases hr : body s with
      | error e' =>
          rw [loop_error hr]
          intro he
          exact hbody s hs (hr.trans (by rw [Except.error.inj he]))
      | ok r =>
          cases r with
          | again s' =>
              rw [loop_again hr]
              obtain ⟨hI, hlt⟩ := hagain s s' hs hr
              refine ih s' hI fun he => ?_
              have := hlt he
              have := hμ he
              omega
          | leave b => rw [loop_leave hr]; exact avoids_ok e b

/-- A loop avoids what its rounds avoid and running out of budget is not. -/
theorem avoids_loop {e : ε} (hout : out ≠ e) (hbody : ∀ s, Avoids e (body s))
    (fuel : Nat) (s : σ) : Avoids e (loop out body fuel s) :=
  avoids_loop_variant (fun _ => True) (fun _ => 0) (fun s _ => hbody s)
    (fun _ _ _ _ => ⟨trivial, fun he => absurd he hout⟩) fuel s trivial
    fun he => absurd he hout

end HttpdProxy.Lib
