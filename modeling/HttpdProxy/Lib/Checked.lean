/-!
# Array accesses that are checked

In C nothing stops an access outside an array. Here the same access is a
partial operation, and a step whose accesses are all checked is a partial
step: it fails where the program leaves an array, and otherwise does what the
step without checks does. A run of checked steps fails exactly when one of the
steps it comes to does.
-/

namespace HttpdProxy.Lib

universe u v
variable {α : Type u} {σ : Type v}

/-! ## Accesses -/

/-- `a[i]`, read. -/
def readAt (a : List α) (i : Int) : Option α := if 0 ≤ i then a[i.toNat]? else none

/-- `a[i] = x`. -/
def storeAt (a : List α) (i : Int) (x : α) : Option (List α) :=
  if 0 ≤ i ∧ i.toNat < a.length then some (a.set i.toNat x) else none

/-- `a + off`, read for `size` symbols. -/
def readBlock (a : List α) (off size : Nat) : Option (List α) :=
  if off + size ≤ a.length then some ((a.drop off).take size) else none

/-- The difference of two unsigned numbers, where it does not wrap around. -/
def subtract (m n : Nat) : Option Nat := if n ≤ m then some (m - n) else none

variable {a b : List α} {i : Nat} {x : α}

theorem readAt_natCast : readAt a (i : Int) = a[i]? := by
  rw [readAt, if_pos (Int.natCast_nonneg i), Int.toNat_natCast]

theorem storeAt_natCast (h : i < a.length) : storeAt a (i : Int) x = some (a.set i x) := by
  rw [storeAt, if_pos ⟨Int.natCast_nonneg i, h⟩, Int.toNat_natCast]

theorem storeAt_eq_some {k : Int} (h : storeAt a k x = some b) :
    0 ≤ k ∧ k.toNat < a.length ∧ b = a.set k.toNat x := by
  unfold storeAt at h
  split at h
  · next hk =>
      cases h
      exact ⟨hk.1, hk.2, rfl⟩
  · cases h

theorem storeAt_negative {k : Int} (h : k < 0) : storeAt a k x = none := by
  rw [storeAt, if_neg (by omega)]

theorem readBlock_eq_some {off size : Nat} (h : readBlock a off size = some b) :
    off + size ≤ a.length ∧ b = (a.drop off).take size := by
  unfold readBlock at h
  split at h
  · next hle =>
      cases h
      exact ⟨hle, rfl⟩
  · cases h

theorem subtract_eq_some {m n d : Nat} (h : subtract m n = some d) : n ≤ m ∧ d = m - n := by
  unfold subtract at h
  split at h
  · next hle =>
      cases h
      exact ⟨hle, rfl⟩
  · cases h

/-! ## Steps -/

/-- In the states of an invariant a checked step does what the step does, or
fails. -/
structure Checks (I : σ → Prop) (feed? : σ → α → Option σ) (feed : σ → α → σ) : Prop where
  agrees : ∀ s x t, I s → feed? s x = some t → feed s x = t
  keeps : ∀ s x, I s → I (feed s x)

variable {I : σ → Prop} {feed? : σ → α → Option σ} {feed : σ → α → σ}

/-- A run of checked steps that does not fail is a run. -/
theorem Checks.run_eq (h : Checks I feed? feed) {s t : σ} {xs : List α} (hs : I s)
    (hrun : xs.foldlM feed? s = some t) : xs.foldl feed s = t := by
  induction xs generalizing s with
  | nil => exact Option.some.inj hrun
  | cons x xs ih =>
      rw [List.foldlM_cons] at hrun
      obtain ⟨s', hs', hrest⟩ := Option.bind_eq_some_iff.mp hrun
      have hstep := h.agrees s x s' hs hs'
      have hI := h.keeps s x hs
      rw [List.foldl_cons]
      rw [hstep] at hI ⊢
      exact ih hI hrest

/-- A run of checked steps goes through exactly when every step that it comes
to does. -/
theorem Checks.run_isSome_iff (h : Checks I feed? feed) {s : σ} {xs : List α} (hs : I s) :
    (xs.foldlM feed? s).isSome = true ↔
      ∀ pre x, pre ++ [x] <+: xs → (feed? (pre.foldl feed s) x).isSome = true := by
  induction xs generalizing s with
  | nil =>
      refine iff_of_true rfl ?_
      intro pre x hpre
      exact absurd (List.prefix_nil.mp hpre) (by simp)
  | cons x xs ih =>
      rw [List.foldlM_cons]
      have hI := h.keeps s x hs
      constructor
      · intro hrun pre y hpre
        obtain ⟨t, ht⟩ := Option.isSome_iff_exists.mp hrun
        obtain ⟨s', hs', hrest⟩ := Option.bind_eq_some_iff.mp ht
        cases pre with
        | nil =>
            have hy := (List.cons_prefix_cons.mp hpre).1
            rw [List.foldl_nil, hy, hs']
            rfl
        | cons z pre =>
            obtain ⟨hz, hmore⟩ := List.cons_prefix_cons.mp hpre
            rw [h.agrees s x s' hs hs'] at hI
            rw [List.foldl_cons, hz, h.agrees s x s' hs hs']
            exact (ih hI).mp (by rw [hrest]; rfl) pre y hmore
      · intro hall
        have hfirst := hall [] x ((List.prefix_cons_inj x).mpr List.nil_prefix)
        obtain ⟨s', hs'⟩ := Option.isSome_iff_exists.mp hfirst
        rw [List.foldl_nil] at hs'
        rw [h.agrees s x s' hs hs'] at hI
        rw [hs']
        refine (ih hI).mpr ?_
        intro pre y hpre
        have hstep := hall (x :: pre) y ((List.prefix_cons_inj x).mpr hpre)
        rwa [List.foldl_cons, h.agrees s x s' hs hs'] at hstep

end HttpdProxy.Lib
