/-!
# Texts cut at a delimiter

A text is read up to the first symbol of some kind. Where that cut is made does
not depend on how the text was put together.
-/

namespace HttpdProxy.Lib

universe u
variable {α : Type u} {P : α → Prop}

/-- There is one cut at the first symbol outside `P`. -/
theorem cut_unique {xs ys us vs : List α} {d e : α} (hx : ∀ x ∈ xs, P x) (hd : ¬ P d)
    (hy : ∀ y ∈ ys, P y) (he : ¬ P e) (h : xs ++ d :: us = ys ++ e :: vs) :
    xs = ys ∧ d = e ∧ us = vs := by
  induction xs generalizing ys with
  | nil =>
      cases ys with
      | nil =>
          rw [List.nil_append, List.nil_append, List.cons.injEq] at h
          exact ⟨rfl, h.1, h.2⟩
      | cons y ys =>
          rw [List.nil_append, List.cons_append, List.cons.injEq] at h
          have hyp : P y := hy y (List.mem_cons_self ..)
          rw [← h.1] at hyp
          exact absurd hyp hd
  | cons x xs ih =>
      cases ys with
      | nil =>
          rw [List.nil_append, List.cons_append, List.cons.injEq] at h
          have hxp : P x := hx x (List.mem_cons_self ..)
          rw [h.1] at hxp
          exact absurd hxp he
      | cons y ys =>
          rw [List.cons_append, List.cons_append, List.cons.injEq] at h
          obtain ⟨rfl, h⟩ := h
          obtain ⟨rfl, hde, huv⟩ := ih (fun z hz => hx z (List.mem_cons_of_mem x hz))
            (fun z hz => hy z (List.mem_cons_of_mem x hz)) h
          exact ⟨rfl, hde, huv⟩

/-- Without a delimiter there is no cut. -/
theorem takeWhile_all {p : α → Bool} {text : List α} (h : ∀ c ∈ text, p c = true) :
    text.takeWhile p = text := by
  have htake := @List.takeWhile_append_of_pos _ p text [] h
  rw [List.append_nil, List.takeWhile_nil, List.append_nil] at htake
  exact htake

/-- Two cuts at different symbols fall together only at the end. -/
theorem takeWhile_eq_self {p q : α → Bool} {text : List α}
    (hpq : ∀ c, p c = false → q c = true) (h : text.takeWhile p = text.takeWhile q) :
    text.takeWhile p = text := by
  induction text with
  | nil => rfl
  | cons c text ih =>
      cases hp : p c with
      | true =>
          cases hq : q c with
          | true =>
              rw [List.takeWhile_cons_of_pos hp, List.takeWhile_cons_of_pos hq] at h
              rw [List.takeWhile_cons_of_pos hp, ih (List.cons.inj h).2]
          | false =>
              rw [List.takeWhile_cons_of_pos hp, List.takeWhile_cons_of_neg (by simp [hq])] at h
              cases h
      | false =>
          rw [List.takeWhile_cons_of_neg (by simp [hp]), List.takeWhile_cons_of_pos (hpq c hp)] at h
          cases h

end HttpdProxy.Lib
