import HttpdProxy.Utils.Bytes

/-!
# Arrays filled from the left

The parsers copy what they read into arrays that `memset` or `calloc` has set
to zero. Such an array is its text and then zeros.
-/

namespace HttpdProxy

/-- No store resizes an array. -/
theorem putAt_length (a : Bytes) (off : Nat) (bs : Bytes) : (putAt a off bs).length = a.length := by
  induction bs generalizing a off with
  | nil => rfl
  | cons b bs ih => rw [putAt, ih, List.length_set]

/-- An array of `size` bytes that begins with `text` and is zero after it. -/
def filled (size : Nat) (text : Bytes) : Bytes :=
  text ++ List.replicate (size - text.length) 0

theorem filled_length {size : Nat} {text : Bytes} (h : text.length ≤ size) :
    (filled size text).length = size := by
  rw [filled, List.length_append, List.length_replicate]
  omega

/-- While it is not full there is a NUL in it. -/
theorem zero_mem_filled {size : Nat} {text : Bytes} (h : text.length < size) :
    (0 : UInt8) ∈ filled size text :=
  List.mem_append_right _ (List.mem_replicate.mpr ⟨by omega, rfl⟩)

theorem filled_nil (size : Nat) : filled size [] = List.replicate size 0 := by
  simp [filled]

/-- The next byte is stored behind the text. -/
theorem set_filled {size : Nat} {text : Bytes} {i : Nat} (c : UInt8) (hi : i = text.length)
    (h : i < size) : (filled size text).set i c = filled size (text ++ [c]) := by
  subst hi
  obtain ⟨k, hk⟩ : ∃ k, size - text.length = k + 1 := ⟨size - text.length - 1, by omega⟩
  have hk' : size - (text.length + 1) = k := by omega
  simp [filled, hk, hk', List.set_append_right, List.replicate_succ]

/-- Its last byte is taken back. -/
theorem set_filled_zero {size : Nat} {text : Bytes} {c : UInt8} {i : Nat}
    (hi : i = text.length) (h : i < size) :
    (filled size (text ++ [c])).set i 0 = filled size text := by
  subst hi
  obtain ⟨k, hk⟩ : ∃ k, size - text.length = k + 1 := ⟨size - text.length - 1, by omega⟩
  have hk' : size - (text.length + 1) = k := by omega
  simp [filled, hk, hk', List.set_append_right, List.replicate_succ]

theorem set_filled_end {size : Nat} {text : Bytes} {i : Nat} (hi : i = text.length)
    (h : i < size) : (filled size text).set i 0 = filled size text := by
  subst hi
  obtain ⟨k, hk⟩ : ∃ k, size - text.length = k + 1 := ⟨size - text.length - 1, by omega⟩
  simp [filled, hk, List.set_append_right, List.replicate_succ]

/-- The text is the string that the array holds. -/
theorem cstr_filled {size : Nat} {text : Bytes} (hz : (0 : UInt8) ∉ text)
    (h : text.length < size) : cstr (filled size text) = text := by
  obtain ⟨k, hk⟩ : ∃ k, size - text.length = k + 1 := ⟨size - text.length - 1, by omega⟩
  have hall : ∀ c ∈ text, (c != 0) = true := by
    intro c hc
    have hne : c ≠ 0 := fun he => hz (he ▸ hc)
    simp [hne]
  unfold cstr filled
  rw [hk, List.replicate_succ, List.takeWhile_append_of_pos hall]
  simp

/-- The zeros behind the text add nothing to its string. -/
theorem cstr_filled_eq (size : Nat) (text : Bytes) : cstr (filled size text) = cstr text := by
  have hall : ∀ k, cstr (text ++ List.replicate k 0) = cstr text := by
    intro k
    induction text with
    | nil => cases k <;> simp [cstr, List.replicate_succ]
    | cons c text ih =>
        by_cases hc : c = 0
        · simp [cstr, hc]
        · simpa [cstr, hc] using ih
  exact hall _

/-- Its last byte is stored over. -/
theorem set_filled_last {size : Nat} {text : Bytes} {b c : UInt8} {i : Nat} (hi : i = text.length) :
    (filled size (text ++ [b])).set i c = filled size (text ++ [c]) := by
  subst hi
  simp [filled]

theorem getD_filled_last {size : Nat} {text : Bytes} {c : UInt8} {i : Nat}
    (hi : i = text.length) : (filled size (text ++ [c])).getD i 0 = c := by
  subst hi
  simp [filled]

theorem putAt_filled {size : Nat} {text xs : Bytes} {i : Nat} (hi : i = text.length)
    (h : text.length + xs.length ≤ size) :
    putAt (filled size text) i xs = filled size (text ++ xs) := by
  induction xs generalizing text i with
  | nil => rw [putAt, List.append_nil]
  | cons x xs ih =>
      rw [List.length_cons] at h
      rw [putAt, set_filled x hi (by omega), ih (by simp [hi]) (by simp; omega)]
      simp

theorem filled_full {size : Nat} {text : Bytes} (h : text.length = size) :
    filled size text = text := by
  simp [filled, h]

end HttpdProxy
