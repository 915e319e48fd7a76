import Mathlib.Algebra.GroupWithZero.Nat
import Mathlib.Data.List.Chain

/-!
# Paths

The states a machine has been in, newest first, are a path along its edges. A
machine whose edges climb, except where a toll is paid, cannot have come
further than its height and its tolls allow.
-/

namespace HttpdProxy.Lib

universe u
variable {σ : Type u}

/-- A path along `edge`, newest first, that began in `start`. -/
structure Path (edge : σ → σ → Prop) (start : σ) (l : List σ) : Prop where
  chain : l.IsChain fun s r => edge r s
  first : ∀ s ∈ l.getLast?, s = start

namespace Path

variable {edge : σ → σ → Prop} {start r s : σ} {l : List σ}

theorem nil (edge : σ → σ → Prop) (start : σ) : Path edge start [] :=
  ⟨.nil, fun _ h => nomatch h⟩

theorem singleton (edge : σ → σ → Prop) (start : σ) : Path edge start [start] :=
  ⟨.singleton start, fun _ h => (Option.some.inj h).symm⟩

theorem extend (h : Path edge start (r :: l)) (he : edge r s) :
    Path edge start (s :: r :: l) where
  chain := .cons_cons he h.chain
  first t ht := h.first t (by rwa [List.getLast?_cons_cons] at ht)

/-- Every edge climbs by one at least, counting the toll of where it leads. -/
theorem length_le (rank toll : σ → Nat) (hstart : 1 ≤ rank start + toll start)
    (hedge : ∀ r s, edge r s → rank r + 1 ≤ rank s + toll s) :
    ∀ {l : List σ} {s : σ}, Path edge start (s :: l) →
      (s :: l).length ≤ rank s + ((s :: l).map toll).sum := by
  intro l
  induction l with
  | nil =>
      intro s h
      obtain rfl : s = start := h.first s rfl
      simpa using hstart
  | cons r l ih =>
      intro s h
      obtain ⟨he, hchain⟩ := List.isChain_cons_cons.mp h.chain
      have hrest := ih ⟨hchain, fun t ht => h.first t (by rwa [List.getLast?_cons_cons])⟩
      have hclimb := hedge r s he
      rw [List.map_cons, List.sum_cons, List.length_cons]
      omega

end Path

end HttpdProxy.Lib
