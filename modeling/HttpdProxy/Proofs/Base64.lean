import HttpdProxy.Utils.Base64

/-!
# Padded base64, and what `base64_decode` makes of it

`base64Text` is the encoding with padding and without line breaks. Its text is
decoded block by block, and only the last block may be padded.
-/

namespace HttpdProxy

/-- `base64_table`. -/
def base64Table : Bytes :=
  ascii "ABCDEFGHIJKLMNOPQRSTUVWXYZabcdefghijklmnopqrstuvwxyz0123456789+/"

/-- The character of six bits. -/
def base64Char (n : UInt8) : UInt8 := base64Table.getD n.toNat 0

/-- Padded base64. -/
def base64Text : Bytes → Bytes
  | [] => []
  | [a] => [base64Char (a >>> 2), base64Char ((a &&& 0x03) <<< 4), chr '=', chr '=']
  | [a, b] =>
      [base64Char (a >>> 2), base64Char ((a &&& 0x03) <<< 4 ||| b >>> 4),
        base64Char ((b &&& 0x0f) <<< 2), chr '=']
  | a :: b :: c :: rest =>
      [base64Char (a >>> 2), base64Char ((a &&& 0x03) <<< 4 ||| b >>> 4),
        base64Char ((b &&& 0x0f) <<< 2 ||| c >>> 6), base64Char (c &&& 0x3f)] ++ base64Text rest

/-! ## Six bits -/

/-- A character of the alphabet, and none that is skipped or ends a value. -/
theorem base64Char_spec {n : UInt8} (h : n < 64) :
    dtable (base64Char n) = some n ∧ base64Char n ≠ chr '=' ∧ isBase64 (base64Char n) = true := by
  revert h
  exact forall_byte (P := fun n => n < 64 → dtable (base64Char n) = some n ∧
    base64Char n ≠ chr '=' ∧ isBase64 (base64Char n) = true) (by decide +kernel) n

/-- The parts of six bits that a byte is cut into, where they are kept and how
they are put together again. -/
structure ByteParts (b : UInt8) : Prop where
  high : b >>> 2 < 64
  low : b &&& 0x3f < 64
  lt_iff : b < 64 ↔ b >>> 6 = 0
  two_below : ((b &&& 0x03) <<< 4) >>> 6 = 0
  four_below : ((b &&& 0x0f) <<< 2) >>> 6 = 0
  four_above : (b >>> 4) >>> 6 = 0
  two_above : (b >>> 6) >>> 6 = 0
  first : (b >>> 2) <<< 2 ||| ((b &&& 0x03) <<< 4) >>> 4 = b
  first_rest : (b >>> 4) >>> 4 = 0
  second : (b >>> 4) <<< 4 ||| ((b &&& 0x0f) <<< 2) >>> 2 = b
  second_before : ((b &&& 0x03) <<< 4) <<< 4 = 0
  second_rest : (b >>> 6) >>> 2 = 0
  third : (b >>> 6) <<< 6 ||| b &&& 0x3f = b
  third_before : ((b &&& 0x0f) <<< 2) <<< 6 = 0

theorem byteParts (b : UInt8) : ByteParts b := by
  have hall := forall_byte (P := fun b => b >>> 2 < 64 ∧ b &&& 0x3f < 64 ∧
    (b < 64 ↔ b >>> 6 = 0) ∧ ((b &&& 0x03) <<< 4) >>> 6 = 0 ∧ ((b &&& 0x0f) <<< 2) >>> 6 = 0 ∧
    (b >>> 4) >>> 6 = 0 ∧ (b >>> 6) >>> 6 = 0 ∧
    (b >>> 2) <<< 2 ||| ((b &&& 0x03) <<< 4) >>> 4 = b ∧ (b >>> 4) >>> 4 = 0 ∧
    (b >>> 4) <<< 4 ||| ((b &&& 0x0f) <<< 2) >>> 2 = b ∧ ((b &&& 0x03) <<< 4) <<< 4 = 0 ∧
    (b >>> 6) >>> 2 = 0 ∧ (b >>> 6) <<< 6 ||| b &&& 0x3f = b ∧ ((b &&& 0x0f) <<< 2) <<< 6 = 0)
    (by decide +kernel) b
  obtain ⟨h1, h2, h3, h4, h5, h6, h7, h8, h9, h10, h11, h12, h13, h14⟩ := hall
  exact ⟨h1, h2, h3, h4, h5, h6, h7, h8, h9, h10, h11, h12, h13, h14⟩

theorem two_four (a b : UInt8) : (a &&& 0x03) <<< 4 ||| b >>> 4 < 64 := by
  rw [(byteParts _).lt_iff, UInt8.shiftRight_or, (byteParts a).two_below,
    (byteParts b).four_above]
  rfl

theorem four_two (b c : UInt8) : (b &&& 0x0f) <<< 2 ||| c >>> 6 < 64 := by
  rw [(byteParts _).lt_iff, UInt8.shiftRight_or, (byteParts b).four_below,
    (byteParts c).two_above]
  rfl

/-- The three bytes are put together from their parts. -/
theorem first_byte (a b : UInt8) :
    (a >>> 2) <<< 2 ||| ((a &&& 0x03) <<< 4 ||| b >>> 4) >>> 4 = a := by
  rw [UInt8.shiftRight_or, (byteParts b).first_rest, UInt8.or_zero]
  exact (byteParts a).first

theorem second_byte (a b c : UInt8) :
    ((a &&& 0x03) <<< 4 ||| b >>> 4) <<< 4 ||| ((b &&& 0x0f) <<< 2 ||| c >>> 6) >>> 2 = b := by
  rw [UInt8.shiftLeft_or, UInt8.shiftRight_or, (byteParts a).second_before,
    (byteParts c).second_rest, UInt8.zero_or, UInt8.or_zero]
  exact (byteParts b).second

theorem third_byte (b c : UInt8) :
    ((b &&& 0x0f) <<< 2 ||| c >>> 6) <<< 6 ||| c &&& 0x3f = c := by
  rw [UInt8.shiftLeft_or, (byteParts b).third_before, UInt8.zero_or]
  exact (byteParts c).third

/-! ## The two passes -/

/-- Characters that do not fill the block. -/
theorem base64Pass_char {n : UInt8} {rest out block : Bytes} (hn : n < 64)
    (hlen : block.length < 3) :
    base64Pass (base64Char n :: rest) out block 0 = base64Pass rest out (block ++ [n]) 0 := by
  obtain ⟨hd, hpad, _⟩ := base64Char_spec hn
  rw [base64Pass, hd]
  simp only [if_neg hpad]
  split
  · next h => simp at hlen
  · rfl

/-- A block without padding. -/
theorem base64Pass_block {n₀ n₁ n₂ n₃ : UInt8} {rest out : Bytes} (h₀ : n₀ < 64) (h₁ : n₁ < 64)
    (h₂ : n₂ < 64) (h₃ : n₃ < 64) :
    base64Pass ([base64Char n₀, base64Char n₁, base64Char n₂, base64Char n₃] ++ rest) out [] 0
      = base64Pass rest (out ++ decodeBlock n₀ n₁ n₂ n₃) [] 0 := by
  obtain ⟨hd, hpad, _⟩ := base64Char_spec h₃
  simp only [List.cons_append, List.nil_append]
  rw [base64Pass_char h₀ (by decide), base64Pass_char h₁ (by simp), base64Pass_char h₂ (by simp),
    base64Pass, hd]
  simp [hpad]

/-- A last block with one padding character. -/
theorem base64Pass_pad {n₀ n₁ n₂ : UInt8} {out : Bytes} (h₀ : n₀ < 64) (h₁ : n₁ < 64)
    (h₂ : n₂ < 64) :
    base64Pass [base64Char n₀, base64Char n₁, base64Char n₂, chr '='] out [] 0
      = some (out ++ [n₀ <<< 2 ||| n₁ >>> 4, n₁ <<< 4 ||| n₂ >>> 2]) := by
  rw [base64Pass_char h₀ (by decide), base64Pass_char h₁ (by simp), base64Pass_char h₂ (by simp),
    base64Pass, show dtable (chr '=') = some 0 from rfl]
  simp [decodeBlock, List.take_length_add_append]

/-- A last block with two. -/
theorem base64Pass_pad_pad {n₀ n₁ : UInt8} {out : Bytes} (h₀ : n₀ < 64) (h₁ : n₁ < 64) :
    base64Pass [base64Char n₀, base64Char n₁, chr '=', chr '='] out [] 0
      = some (out ++ [n₀ <<< 2 ||| n₁ >>> 4]) := by
  rw [base64Pass_char h₀ (by decide), base64Pass_char h₁ (by simp), base64Pass,
    show dtable (chr '=') = some 0 from rfl]
  simp [base64Pass, show dtable (chr '=') = some 0 from rfl, decodeBlock,
    List.take_length_add_append]

theorem base64Pass_text (bs out : Bytes) :
    base64Pass (base64Text bs) out [] 0 = some (out ++ bs) := by
  induction bs using base64Text.induct generalizing out with
  | case1 => rw [base64Text, base64Pass, List.append_nil]
  | case2 a =>
      have hmid := two_four a 0
      rw [show (0 : UInt8) >>> 4 = 0 from rfl, UInt8.or_zero] at hmid
      have hfirst := first_byte a 0
      rw [show (0 : UInt8) >>> 4 = 0 from rfl, UInt8.or_zero] at hfirst
      rw [base64Text, base64Pass_pad_pad (byteParts a).high hmid, hfirst]
  | case3 a b =>
      have hlow := four_two b 0
      rw [show (0 : UInt8) >>> 6 = 0 from rfl, UInt8.or_zero] at hlow
      have hsecond := second_byte a b 0
      rw [show (0 : UInt8) >>> 6 = 0 from rfl, UInt8.or_zero] at hsecond
      rw [base64Text, base64Pass_pad (byteParts a).high (two_four a b) hlow, first_byte, hsecond]
  | case4 a b c rest ih =>
      rw [base64Text, base64Pass_block (byteParts a).high (two_four a b) (four_two b c) (byteParts c).low, ih,
        decodeBlock, first_byte, second_byte, third_byte, List.append_assoc]
      rfl

/-- Every character of the text is one of base64, and is counted. -/
theorem base64Text_chars (bs : Bytes) :
    ∀ c ∈ base64Text bs, isBase64 c = true ∧ (dtable c).isSome = true := by
  have hchar : ∀ n : UInt8, n < 64 →
      isBase64 (base64Char n) = true ∧ (dtable (base64Char n)).isSome = true := by
    intro n hn
    obtain ⟨hd, _, hb⟩ := base64Char_spec hn
    exact ⟨hb, by rw [hd]; rfl⟩
  have hpad : isBase64 (chr '=') = true ∧ (dtable (chr '=')).isSome = true := ⟨rfl, rfl⟩
  induction bs using base64Text.induct with
  | case1 =>
      intro c hc
      rw [base64Text] at hc
      cases hc
  | case2 a =>
      have hmid := two_four a 0
      rw [show (0 : UInt8) >>> 4 = 0 from rfl, UInt8.or_zero] at hmid
      rw [base64Text]
      simp only [List.forall_mem_cons]
      exact ⟨hchar _ (byteParts a).high, hchar _ hmid, hpad, hpad, List.forall_mem_nil _⟩
  | case3 a b =>
      have hlow := four_two b 0
      rw [show (0 : UInt8) >>> 6 = 0 from rfl, UInt8.or_zero] at hlow
      rw [base64Text]
      simp only [List.forall_mem_cons]
      exact ⟨hchar _ (byteParts a).high, hchar _ (two_four a b), hchar _ hlow, hpad,
        List.forall_mem_nil _⟩
  | case4 a b c rest ih =>
      rw [base64Text]
      simp only [List.forall_mem_append, List.forall_mem_cons]
      exact ⟨⟨hchar _ (byteParts a).high, hchar _ (two_four a b), hchar _ (four_two b c),
        hchar _ (byteParts c).low, List.forall_mem_nil _⟩, ih⟩

theorem base64Text_length (bs : Bytes) : (base64Text bs).length = 4 * ((bs.length + 2) / 3) := by
  induction bs using base64Text.induct with
  | case1 => simp [base64Text]
  | case2 a => simp [base64Text]
  | case3 a b => simp [base64Text]
  | case4 a b c rest ih =>
      rw [base64Text, List.length_append, ih]
      simp only [List.length_cons, List.length_nil]
      omega

/-- What was encoded is decoded. -/
theorem base64Decode_text {bs : Bytes} (h : bs ≠ []) : base64Decode (base64Text bs) = some bs := by
  have hpos := List.length_pos_iff.mpr h
  have hall : (base64Text bs).filter (fun c => (dtable c).isSome) = base64Text bs :=
    List.filter_eq_self.mpr fun c hc => (base64Text_chars bs c hc).2
  unfold base64Decode
  rw [hall, base64Text_length, if_neg (by omega), base64Pass_text, List.nil_append]

end HttpdProxy
