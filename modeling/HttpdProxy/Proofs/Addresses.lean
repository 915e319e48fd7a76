import HttpdProxy.Utils.Net

/-!
# Addresses and their text

`inet_pton` reads back what `inet_ntop` has printed, so two addresses with one
text are one address, and the text is short and made of digits, colons and
dots.
-/

namespace HttpdProxy

/-! ## Addresses through their decimal text -/

/-- The character of a decimal digit. -/
def decimalDigit (k : Nat) : UInt8 := (48 + k).toUInt8

theorem decimal_byte : ∀ n, n < 256 →
    decimal n = if n < 10 then [decimalDigit n]
      else if n < 100 then [decimalDigit (n / 10), decimalDigit (n % 10)]
      else [decimalDigit (n / 100), decimalDigit (n / 10 % 10), decimalDigit (n % 10)] := by
  decide +kernel

theorem decimalDigit_value : ∀ k, k < 10 →
    isDigit (decimalDigit k) = true ∧ (decimalDigit k - chr '0').toNat = k ∧
      decimalDigit k ≠ 0 := by
  decide +kernel

theorem inetPton4Go_digit {k : Nat} (hk : k < 10) (rest octets : Bytes) (cur : Nat) (saw : Bool) :
    inetPton4Go (decimalDigit k :: rest) octets cur saw
      = if saw ∧ cur = 0 then none
        else if cur * 10 + k > 255 then none
        else inetPton4Go rest octets (cur * 10 + k) true := by
  obtain ⟨hdigit, hvalue, _⟩ := decimalDigit_value k hk
  rw [inetPton4Go, if_pos hdigit, hvalue]

/-- An octet is read back. -/
theorem inetPton4Go_octet {n : Nat} (hn : n < 256) (rest octets : Bytes) :
    inetPton4Go (decimal n ++ rest) octets 0 false = inetPton4Go rest octets n true := by
  rw [decimal_byte n hn]
  by_cases h1 : n < 10
  · rw [if_pos h1, List.singleton_append, inetPton4Go_digit h1]
    simp
    omega
  · by_cases h2 : n < 100
    · have hn10 : n / 10 * 10 + n % 10 = n := by omega
      rw [if_neg h1, if_pos h2, List.cons_append, inetPton4Go_digit (by omega),
        List.singleton_append]
      rw [if_neg (by simp), if_neg (by omega), inetPton4Go_digit (by omega),
        if_neg (by simp; omega), if_neg (by omega)]
      rw [Nat.zero_mul, Nat.zero_add, hn10]
    · have hn100 : (n / 100 * 10 + n / 10 % 10) * 10 + n % 10 = n := by omega
      rw [if_neg h1, if_neg h2, List.cons_append, inetPton4Go_digit (by omega),
        List.cons_append, List.singleton_append]
      rw [if_neg (by simp), if_neg (by omega), inetPton4Go_digit (by omega),
        if_neg (by simp; omega), if_neg (by omega), inetPton4Go_digit (by omega),
        if_neg (by simp; omega), if_neg (by omega)]
      rw [Nat.zero_mul, Nat.zero_add, hn100]

theorem inetPton4Go_dot {rest octets : Bytes} {n : Nat} (h : octets.length ≠ 3) :
    inetPton4Go (chr '.' :: rest) octets n true
      = inetPton4Go rest (octets ++ [n.toUInt8]) 0 false := by
  have hdot : isDigit (chr '.') = false := by decide
  rw [inetPton4Go, if_neg (by simp [hdot]), if_pos ⟨rfl, rfl⟩, if_neg h]

/-- The decimal text of an address, with a dot behind every octet but the
last. -/
def dotted (a b c d : UInt8) : Bytes :=
  decimal a.toNat ++ chr '.' :: (decimal b.toNat ++ chr '.' :: (decimal c.toNat ++ chr '.' ::
    decimal d.toNat))

theorem inetPton4_dotted (a b c d : UInt8) :
    inetPton4 (dotted a b c d) = some [a, b, c, d] := by
  have hlast := inetPton4Go_octet d.toNat_lt [] [a, b, c]
  rw [List.append_nil] at hlast
  rw [inetPton4, dotted, inetPton4Go_octet a.toNat_lt, inetPton4Go_dot (by simp),
    inetPton4Go_octet b.toNat_lt, inetPton4Go_dot (by simp), inetPton4Go_octet c.toNat_lt,
    inetPton4Go_dot (by simp)]
  simp only [Nat.toUInt8_eq, UInt8.ofNat_toNat, List.nil_append, List.cons_append] at hlast ⊢
  rw [hlast]
  simp [inetPton4Go]

theorem decimal_length (c : UInt8) : (decimal c.toNat).length ≤ 3 := by
  rw [decimal_byte c.toNat c.toNat_lt]
  split
  · simp
  · split <;> simp

theorem decimal_ne_zero (c : UInt8) : (0 : UInt8) ∉ decimal c.toNat := by
  have hdigit : ∀ k, k < 10 → (0 : UInt8) ≠ decimalDigit k :=
    fun k hk => (decimalDigit_value k hk).2.2.symm
  have hc := c.toNat_lt
  rw [decimal_byte c.toNat c.toNat_lt]
  intro hmem
  split at hmem
  · next h1 =>
      rw [List.mem_singleton] at hmem
      exact hdigit _ h1 hmem
  · split at hmem
    · simp only [List.mem_cons, List.not_mem_nil, or_false] at hmem
      rcases hmem with hmem | hmem <;> exact hdigit _ (by omega) hmem
    · simp only [List.mem_cons, List.not_mem_nil, or_false] at hmem
      rcases hmem with hmem | hmem | hmem <;> exact hdigit _ (by omega) hmem

/-! ## Hexadecimal groups -/

/-- The character of a hexadecimal digit. -/
def hexChar (k : Nat) : UInt8 := (Nat.digitChar k).toNat.toUInt8

theorem hexChar_value : ∀ k, k < 16 → hexValue (hexChar k) = some k := by
  decide +kernel

theorem hexDigits_eq (n : Nat) :
    hexDigits n = (if n < 16 then [] else hexDigits (n / 16)) ++ [hexChar (n % 16)] := by
  unfold hexDigits
  rw [Nat.toDigits_eq_if (by omega)]
  split
  · next h => simp [hexChar, Nat.mod_eq_of_lt h]
  · simp [hexChar]

theorem hexDigits_length {n : Nat} (h : n < 65536) :
    1 ≤ (hexDigits n).length ∧ (hexDigits n).length ≤ 4 := by
  constructor
  · rw [hexDigits_eq]
    simp
  · rw [hexDigits, List.length_map, Nat.length_toDigits_le_iff (by omega) (by omega)]
    exact h

/-- The value of digits behind a value. -/
def hexNumber (v : Nat) (ds : Bytes) : Nat := ds.foldl (fun v d => v * 16 + (hexValue d).getD 0) v

theorem hexDigits_spec (n : Nat) :
    hexNumber 0 (hexDigits n) = n ∧ ∀ d ∈ hexDigits n, (hexValue d).isSome = true := by
  induction n using Nat.strongRecOn with
  | _ n ih =>
      have hmod : n % 16 < 16 := Nat.mod_lt n (by omega)
      have hlast := hexChar_value (n % 16) hmod
      rw [hexDigits_eq]
      split
      · next h =>
          constructor
          · have hval := hexChar_value n h
            simp [hexNumber, Nat.mod_eq_of_lt h, hval]
          · intro d hd
            rw [List.nil_append, List.mem_singleton] at hd
            rw [hd, hlast]
            rfl
      · obtain ⟨hval, hall⟩ := ih (n / 16) (by omega)
        constructor
        · rw [hexNumber, List.foldl_append] at *
          rw [hval]
          simp [hlast]
          omega
        · intro d hd
          rcases List.mem_append.mp hd with hd | hd
          · exact hall d hd
          · rw [List.mem_singleton.mp hd, hlast]
            rfl

/-- Digits are added to the group that is being read. -/
theorem inetPton6Go_digits {ds : Bytes} (rest token out : Bytes) (colon : Option Nat) :
    ∀ {seen val : Nat}, (∀ d ∈ ds, (hexValue d).isSome = true) → seen + ds.length ≤ 4 →
      inetPton6Go (ds ++ rest) token out colon seen val
        = inetPton6Go rest token out colon (seen + ds.length) (hexNumber val ds) := by
  induction ds with
  | nil => simp [hexNumber]
  | cons d ds ih =>
      intro seen val hall hlen
      rw [List.length_cons] at hlen
      obtain ⟨v, hv⟩ := Option.isSome_iff_exists.mp (hall d (List.mem_cons_self ..))
      rw [List.cons_append, inetPton6Go, hv]
      simp only
      rw [if_neg (by omega), ih (fun x hx => hall x (List.mem_cons_of_mem d hx)) (by omega)]
      have hcount : seen + 1 + ds.length = seen + (d :: ds).length := by
        rw [List.length_cons]
        omega
      rw [hcount]
      simp [hexNumber, hv]

/-- The two bytes of a group. -/
def groupBytes (w : Nat) : Bytes := [(w / 256).toUInt8, (w % 256).toUInt8]

theorem inetPton6Go_group {w : Nat} (hw : w < 65536) (rest token out : Bytes)
    (colon : Option Nat) :
    inetPton6Go (hexDigits w ++ rest) token out colon 0 0
      = inetPton6Go rest token out colon (hexDigits w).length w := by
  obtain ⟨hval, hall⟩ := hexDigits_spec w
  have hlen := (hexDigits_length hw).2
  rw [inetPton6Go_digits rest token out colon hall (by omega), hval, Nat.zero_add]

/-- A colon behind a group closes it. -/
theorem inetPton6Go_colon {rest token out : Bytes} {colon : Option Nat} {seen w : Nat}
    (hseen : 1 ≤ seen) (hrest : rest ≠ []) (hout : out.length + 2 ≤ 16) :
    inetPton6Go (chr ':' :: rest) token out colon seen w
      = inetPton6Go rest rest (out ++ groupBytes w) colon 0 0 := by
  have hhex : hexValue (chr ':') = none := by decide
  rw [inetPton6Go, hhex]
  simp only [if_true]
  rw [if_neg (by omega), if_neg hrest, if_neg (by omega)]
  rfl

/-- A second colon stands for a run of zeros. -/
theorem inetPton6Go_gap (rest token out : Bytes) :
    inetPton6Go (chr ':' :: rest) token out none 0 0
      = inetPton6Go rest rest out (some out.length) 0 0 := by
  have hhex : hexValue (chr ':') = none := by decide
  rw [inetPton6Go, hhex]
  simp

theorem hexDigits_ne_nil (w : Nat) : hexDigits w ≠ [] := by
  rw [hexDigits_eq]
  simp

theorem joinColon_cons (w v : Bytes) (ws : List Bytes) :
    joinColon (w :: v :: ws) = w ++ chr ':' :: joinColon (v :: ws) := by
  rw [joinColon]
  · simp
  · simp

theorem joinColon_ne_nil (w : Nat) (ws : List Nat) :
    joinColon ((w :: ws).map hexDigits) ≠ [] := by
  cases ws with
  | nil => exact hexDigits_ne_nil w
  | cons v ws =>
      rw [List.map_cons, List.map_cons, joinColon_cons]
      simp

/-- Groups to the end of the text. -/
theorem inetPton6Go_groups {ws : List Nat} (hall : ∀ w ∈ ws, w < 65536) :
    ∀ {token out : Bytes} {colon : Option Nat}, out.length + 2 * ws.length ≤ 16 →
      inetPton6Go (joinColon (ws.map hexDigits)) token out colon 0 0
        = inetPton6End (out ++ ws.flatMap groupBytes) colon := by
  induction ws with
  | nil =>
      intro token out colon _
      simp [joinColon, inetPton6Go]
  | cons w ws ih =>
      intro token out colon hlen
      have hw := hall w (List.mem_cons_self ..)
      have hpos := (hexDigits_length hw).1
      rw [List.length_cons] at hlen
      cases ws with
      | nil =>
          have hgroup := inetPton6Go_group hw [] token out colon
          rw [List.append_nil] at hgroup
          have hjoin : joinColon ([w].map hexDigits) = hexDigits w := rfl
          rw [hjoin, hgroup, inetPton6Go, if_pos (by omega), if_neg (by omega)]
          simp [groupBytes]
      | cons v ws =>
          rw [List.map_cons, List.map_cons, joinColon_cons, inetPton6Go_group hw, ← List.map_cons,
            inetPton6Go_colon hpos (joinColon_ne_nil v ws) (by omega),
            ih (fun x hx => hall x (List.mem_cons_of_mem w hx)) (by simp [groupBytes] at *; omega)]
          simp

/-- Groups before the gap. -/
theorem inetPton6Go_before {ws : List Nat} (hall : ∀ w ∈ ws, w < 65536) (hne : ws ≠ [])
    (tail : Bytes) :
    ∀ {token out : Bytes}, out.length + 2 * ws.length ≤ 16 →
      inetPton6Go (joinColon (ws.map hexDigits) ++ chr ':' :: chr ':' :: tail) token out none 0 0
        = inetPton6Go tail tail (out ++ ws.flatMap groupBytes)
            (some (out ++ ws.flatMap groupBytes).length) 0 0 := by
  induction ws with
  | nil => exact absurd rfl hne
  | cons w ws ih =>
      intro token out hlen
      have hw := hall w (List.mem_cons_self ..)
      have hpos := (hexDigits_length hw).1
      rw [List.length_cons] at hlen
      cases ws with
      | nil =>
          have hjoin : joinColon ([w].map hexDigits) = hexDigits w := rfl
          rw [hjoin, inetPton6Go_group hw, inetPton6Go_colon hpos (by simp) (by omega),
            inetPton6Go_gap]
          simp
      | cons v ws =>
          rw [List.map_cons, List.map_cons, joinColon_cons, List.append_assoc, List.cons_append,
            inetPton6Go_group hw, inetPton6Go_colon hpos (by simp) (by omega), ← List.map_cons,
            ih (fun x hx => hall x (List.mem_cons_of_mem w hx)) (by simp)
              (by simp [groupBytes] at *; omega)]
          simp

/-- A dotted tail is read again as an IPv4 address. -/
theorem inetPton6Go_dotted (a b c d : UInt8) {out : Bytes} {colon : Option Nat}
    (hout : out.length + 4 ≤ 16) :
    inetPton6Go (dotted a b c d) (dotted a b c d) out colon 0 0
      = inetPton6End (out ++ [a, b, c, d]) colon := by
  have hhex : ∀ k, k < 10 → (hexValue (decimalDigit k)).isSome = true := by decide +kernel
  have hall : ∀ x ∈ decimal a.toNat, (hexValue x).isSome = true := by
    have ha := a.toNat_lt
    intro x hx
    rw [decimal_byte a.toNat a.toNat_lt] at hx
    split at hx
    · rw [List.mem_singleton.mp hx]
      exact hhex _ (by omega)
    · split at hx
      · simp only [List.mem_cons, List.not_mem_nil, or_false] at hx
        rcases hx with rfl | rfl <;> exact hhex _ (by omega)
      · simp only [List.mem_cons, List.not_mem_nil, or_false] at hx
        rcases hx with rfl | rfl | rfl <;> exact hhex _ (by omega)
  have hlen := decimal_length a
  have hdot : hexValue (chr '.') = none := by decide
  have hcolon : chr '.' ≠ chr ':' := by decide
  have hread := inetPton4_dotted a b c d
  have hgo : ∀ token, inetPton4 token = some [a, b, c, d] →
      inetPton6Go (dotted a b c d) token out colon 0 0
        = inetPton6End (out ++ [a, b, c, d]) colon := by
    intro token htoken
    rw [dotted, inetPton6Go_digits _ token out colon hall (by omega), inetPton6Go, hdot]
    simp only
    rw [if_neg hcolon, if_pos ⟨trivial, hout⟩, htoken]
  exact hgo _ hread

/-! ## Runs of zeros -/

theorem zeroRun_spec (ws : List Nat) :
    zeroRun ws ≤ ws.length ∧ ws.take (zeroRun ws) = List.replicate (zeroRun ws) 0 := by
  induction ws with
  | nil => simp [zeroRun]
  | cons w ws ih =>
      by_cases hw : w = 0
      · have hrun : zeroRun (w :: ws) = zeroRun ws + 1 := by simp [zeroRun, hw]
        rw [hrun, hw]
        simp [List.replicate_succ, ih.1, ih.2]
      · have hrun : zeroRun (w :: ws) = 0 := by simp [zeroRun, hw]
        rw [hrun]
        simp

/-- The run that is printed as a gap is a run of zeros. -/
theorem longestRun_spec {ws : List Nat} : ∀ {i base len : Nat},
    longestRun i ws = some (base, len) →
      i ≤ base ∧ 2 ≤ len ∧ base - i + len ≤ ws.length ∧
        (ws.drop (base - i)).take len = List.replicate len 0 := by
  induction ws with
  | nil =>
      intro i base len h
      cases h
  | cons w ws ih =>
      intro i base len h
      obtain ⟨hle, hzero⟩ := zeroRun_spec (w :: ws)
      rw [longestRun] at h
      cases hrest : longestRun (i + 1) ws with
      | none =>
          rw [hrest] at h
          simp only at h
          split at h
          · next htwo =>
              cases h
              refine ⟨Nat.le_refl i, htwo, by omega, ?_⟩
              rw [Nat.sub_self, List.drop_zero]
              exact hzero
          · cases h
      | some best =>
          obtain ⟨base', len'⟩ := best
          obtain ⟨hbase, htwo, hin, hzeros⟩ := ih hrest
          rw [hrest] at h
          simp only at h
          split at h
          · cases h
            refine ⟨Nat.le_refl i, by omega, by omega, ?_⟩
            rw [Nat.sub_self, List.drop_zero]
            exact hzero
          · cases h
            have hnext : base - i = base - (i + 1) + 1 := by omega
            refine ⟨by omega, htwo, by rw [List.length_cons]; omega, ?_⟩
            rw [hnext, List.drop_succ_cons]
            exact hzeros

/-- The groups of an address are its bytes, two by two. -/
theorem words16_spec : ∀ {k : Nat} {addr : Bytes}, addr.length = 2 * k →
    (words16 addr).flatMap groupBytes = addr ∧ (words16 addr).length = k ∧
      ∀ w ∈ words16 addr, w < 65536
  | 0, [], _ => by simp [words16]
  | k + 1, a :: b :: rest, h => by
      obtain ⟨hbytes, hlen, hall⟩ := @words16_spec k rest (by simp at h; omega)
      have ha := a.toNat_lt
      have hb := b.toNat_lt
      have hhi : (a.toNat * 256 + b.toNat) / 256 = a.toNat := by omega
      have hlo : (a.toNat * 256 + b.toNat) % 256 = b.toNat := by omega
      refine ⟨?_, ?_, ?_⟩
      · rw [words16, List.flatMap_cons, hbytes, groupBytes, hhi, hlo]
        simp
      · rw [words16, List.length_cons, hlen]
      · intro w hw
        rw [words16] at hw
        rcases List.mem_cons.mp hw with rfl | hw
        · omega
        · exact hall w hw
  | _ + 1, [_], h => by simp at h; omega

theorem flatMap_groupBytes_length (ws : List Nat) :
    (ws.flatMap groupBytes).length = 2 * ws.length := by
  induction ws with
  | nil => rfl
  | cons w ws ih =>
      rw [List.flatMap_cons, List.length_append, ih, List.length_cons, groupBytes]
      simp
      omega

theorem flatMap_groupBytes_zeros (len : Nat) :
    (List.replicate len 0).flatMap groupBytes = List.replicate (2 * len) 0 := by
  induction len with
  | zero => rfl
  | succ len ih =>
      have htwo : 2 * (len + 1) = 2 * len + 1 + 1 := by omega
      rw [List.replicate_succ, List.flatMap_cons, ih, htwo, List.replicate_succ,
        List.replicate_succ, groupBytes]
      rfl

/-- The end of the scan puts the zeros back. -/
theorem inetPton6End_gap {before after : Bytes} {len : Nat}
    (hlen : before.length + 2 * len + after.length = 16) (hpos : 0 < len) :
    inetPton6End (before ++ after) (some before.length)
      = some (before ++ List.replicate (2 * len) 0 ++ after) := by
  have hshort : ¬ (before ++ after).length ≥ 16 := by
    rw [List.length_append]
    omega
  have hgap : 16 - (before ++ after).length = 2 * len := by
    rw [List.length_append]
    omega
  rw [inetPton6End, if_neg hshort, hgap, List.take_left, List.drop_left]

/-- A text that begins with the gap. -/
theorem inetPton6_gap (tail : Bytes) :
    inetPton6 (chr ':' :: chr ':' :: tail) = inetPton6Go tail tail [] (some 0) 0 0 := by
  rw [inetPton6, if_pos rfl]
  simp only [if_true]
  rw [inetPton6Go_gap]
  rfl

/-- A text that begins with a group. -/
theorem inetPton6_group {w : Nat} (rest : Bytes) :
    inetPton6 (hexDigits w ++ rest)
      = inetPton6Go (hexDigits w ++ rest) (hexDigits w ++ rest) [] none 0 0 := by
  have hall := (hexDigits_spec w).2
  cases hd : hexDigits w with
  | nil => exact absurd hd (hexDigits_ne_nil w)
  | cons c ds =>
      have hc : c ≠ chr ':' := by
        rintro rfl
        have hhex := hall (chr ':') (by rw [hd]; simp)
        revert hhex
        decide
      rw [List.cons_append, inetPton6.eq_def]
      simp only [if_neg hc]

theorem inetPton6_groups {w : Nat} {ws : List Nat} (rest : Bytes) :
    inetPton6 (joinColon ((w :: ws).map hexDigits) ++ rest)
      = inetPton6Go (joinColon ((w :: ws).map hexDigits) ++ rest)
          (joinColon ((w :: ws).map hexDigits) ++ rest) [] none 0 0 := by
  cases ws with
  | nil => exact inetPton6_group rest
  | cons v ws =>
      rw [List.map_cons, List.map_cons, joinColon_cons, List.append_assoc]
      exact inetPton6_group _

/-! ## Addresses are read back -/

theorem inetNtop4_eq {addr : Bytes} (h : addr.length = 4) :
    ∃ a b c d, addr = [a, b, c, d] ∧ inetNtop4 addr = dotted a b c d := by
  match addr, h with
  | [a, b, c, d], _ => exact ⟨a, b, c, d, rfl, by simp [inetNtop4, dotted]⟩

theorem inetPton4_ntop4 {addr : Bytes} (h : addr.length = 4) :
    inetPton4 (inetNtop4 addr) = some addr := by
  obtain ⟨a, b, c, d, rfl, htext⟩ := inetNtop4_eq h
  rw [htext]
  exact inetPton4_dotted a b c d

/-- The groups around the gap, and the zeros that stand for it. -/
theorem split_gap {ws : List Nat} {base len : Nat}
    (hzeros : (ws.drop base).take len = List.replicate len 0) :
    ws.flatMap groupBytes = (ws.take base).flatMap groupBytes ++
      List.replicate (2 * len) 0 ++ (ws.drop (base + len)).flatMap groupBytes := by
  have hsplit : ws = ws.take base ++ (List.replicate len 0 ++ ws.drop (base + len)) := by
    rw [← hzeros, ← List.drop_drop, List.take_append_drop, List.take_append_drop]
  calc ws.flatMap groupBytes
      = (ws.take base ++ (List.replicate len 0 ++ ws.drop (base + len))).flatMap groupBytes := by
        rw [← hsplit]
    _ = _ := by
        rw [List.flatMap_append, List.flatMap_append, flatMap_groupBytes_zeros,
          List.append_assoc]

/-- The text with a gap, its groups printed as they are. -/
theorem inetPton6_gapped {ws : List Nat} {base len : Nat} (hall : ∀ w ∈ ws, w < 65536)
    (hws : ws.length = 8) (hin : base + len ≤ 8) (hpos : 0 < len)
    (hzeros : (ws.drop base).take len = List.replicate len 0) :
    inetPton6 (joinColon ((ws.take base).map hexDigits) ++ ascii "::" ++
        joinColon ((ws.drop (base + len)).map hexDigits))
      = some (ws.flatMap groupBytes) := by
  have hbefore : ∀ w ∈ ws.take base, w < 65536 := fun w hw => hall w (List.mem_of_mem_take hw)
  have hafter : ∀ w ∈ ws.drop (base + len), w < 65536 := fun w hw =>
    hall w (List.mem_of_mem_drop hw)
  have hlenb : (ws.take base).length = base := by
    rw [List.length_take]
    omega
  have hlena : (ws.drop (base + len)).length = 8 - (base + len) := by
    rw [List.length_drop, hws]
  have hgap : ascii "::" = [chr ':', chr ':'] := by decide
  have htail : ∀ token : Bytes,
      inetPton6Go (joinColon ((ws.drop (base + len)).map hexDigits)) token
        ((ws.take base).flatMap groupBytes)
        (some ((ws.take base).flatMap groupBytes).length) 0 0
      = some (ws.flatMap groupBytes) := by
    intro token
    rw [inetPton6Go_groups hafter (by rw [flatMap_groupBytes_length, hlenb, hlena]; omega),
      @inetPton6End_gap _ _ len
        (by rw [flatMap_groupBytes_length, flatMap_groupBytes_length, hlenb, hlena]; omega) hpos,
      split_gap hzeros]
  rw [hgap, List.append_assoc, List.cons_append, List.singleton_append]
  cases hb : ws.take base with
  | nil =>
      rw [hb] at htail
      have hjoin : joinColon (([] : List Nat).map hexDigits) = [] := rfl
      rw [hjoin, List.nil_append, inetPton6_gap]
      exact htail _
  | cons w before =>
      rw [hb] at htail hbefore hlenb
      rw [inetPton6_groups, inetPton6Go_before hbefore (by simp) _ (by rw [hlenb]; simp; omega),
        List.nil_append]
      exact htail _

/-- Twelve zeros and an IPv4 address. -/
theorem inetPton6_compatible {addr rest : Bytes} (hsplit : addr = List.replicate (2 * 6) 0 ++ rest)
    (h : addr.length = 16) : inetPton6 (ascii "::" ++ inetNtop4 (addr.drop 12)) = some addr := by
  have hrest : rest.length = 4 := by
    rw [hsplit, List.length_append, List.length_replicate] at h
    omega
  have hdrop : addr.drop 12 = rest := by
    rw [hsplit]
    exact List.drop_left' (by simp)
  obtain ⟨a, b, c, d, hrest', htext⟩ := inetNtop4_eq hrest
  have hgap : ascii "::" = [chr ':', chr ':'] := by decide
  have hend := @inetPton6End_gap [] rest 6 (by rw [hrest]; rfl) (by omega)
  rw [hdrop, htext, hgap, List.cons_append, List.singleton_append, inetPton6_gap,
    inetPton6Go_dotted a b c d (by simp), ← hrest', hsplit]
  exact hend

/-- Ten zeros, the group `ffff` and an IPv4 address. -/
theorem inetPton6_mapped {addr rest : Bytes}
    (hsplit : addr = List.replicate (2 * 5) 0 ++ (groupBytes 0xffff ++ rest))
    (h : addr.length = 16) :
    inetPton6 (ascii "::ffff:" ++ inetNtop4 (addr.drop 12)) = some addr := by
  have hrest : rest.length = 4 := by
    rw [hsplit, List.length_append, List.length_append, List.length_replicate, groupBytes] at h
    simp at h
    omega
  have hdrop : addr.drop 12 = rest := by
    rw [hsplit, ← List.append_assoc]
    exact List.drop_left' (by simp [groupBytes])
  obtain ⟨a, b, c, d, hrest', htext⟩ := inetNtop4_eq hrest
  have hgap : ascii "::ffff:" = chr ':' :: chr ':' :: (hexDigits 0xffff ++ [chr ':']) := by decide
  have hend := @inetPton6End_gap [] (groupBytes 0xffff ++ rest) 5
    (by rw [List.length_append, hrest]; rfl) (by omega)
  have hpos : 1 ≤ (hexDigits 0xffff).length := by decide
  have hne : dotted a b c d ≠ [] := by simp [dotted]
  rw [hdrop, htext, hgap, List.cons_append, List.cons_append, inetPton6_gap, List.append_assoc,
    List.singleton_append, inetPton6Go_group (by omega), inetPton6Go_colon hpos hne (by simp),
    inetPton6Go_dotted a b c d (by decide), ← hrest', List.nil_append, hsplit]
  exact hend

/-- `inet_pton` reads back what `inet_ntop` prints. -/
theorem inetPton6_ntop6 {addr : Bytes} (h : addr.length = 16) :
    inetPton6 (inetNtop6 addr) = some addr := by
  obtain ⟨hbytes, hws, hall⟩ := @words16_spec 8 addr h
  rw [inetNtop6]
  cases hrun : longestRun 0 (words16 addr) with
  | none =>
      simp only
      cases hw : words16 addr with
      | nil =>
          rw [hw] at hws
          cases hws
      | cons w ws =>
          rw [hw] at hbytes hws hall
          have hgroups := @inetPton6_groups w ws []
          rw [List.append_nil] at hgroups
          rw [hgroups, inetPton6Go_groups hall (by simp at hws ⊢; omega), List.nil_append, hbytes,
            inetPton6End, if_pos h]
  | some best =>
      obtain ⟨base, len⟩ := best
      obtain ⟨-, htwo, hin, hzeros⟩ := longestRun_spec hrun
      rw [Nat.sub_zero] at hin hzeros
      rw [hws] at hin
      simp only
      split
      · next hmapped =>
          obtain ⟨rfl, hlen⟩ := hmapped
          have hsplit := split_gap hzeros
          rw [hbytes, List.take_zero, List.flatMap_nil, List.nil_append, Nat.zero_add] at hsplit
          rcases hlen with rfl | ⟨rfl, hffff⟩
          · rw [if_pos rfl]
            exact inetPton6_compatible hsplit h
          · rw [if_neg (by omega)]
            have hlt : 5 < (words16 addr).length := by omega
            have hget : (words16 addr)[5] = 0xffff := by
              rw [← hffff]
              simp [List.getD_eq_getElem?_getD, hlt]
            have hdrop : (words16 addr).drop 5 = 0xffff :: (words16 addr).drop 6 := by
              rw [← hget]
              exact List.drop_eq_getElem_cons hlt
            rw [hdrop, List.flatMap_cons] at hsplit
            exact inetPton6_mapped hsplit h
      · rw [inetPton6_gapped hall hws hin (by omega) hzeros, hbytes]

theorem inetNtop4_inj {x y : Bytes} (hx : x.length = 4) (hy : y.length = 4)
    (h : inetNtop4 x = inetNtop4 y) : x = y := by
  have hread := inetPton4_ntop4 hx
  rw [h, inetPton4_ntop4 hy] at hread
  exact (Option.some.inj hread).symm

theorem inetNtop6_inj {x y : Bytes} (hx : x.length = 16) (hy : y.length = 16)
    (h : inetNtop6 x = inetNtop6 y) : x = y := by
  have hread := inetPton6_ntop6 hx
  rw [h, inetPton6_ntop6 hy] at hread
  exact (Option.some.inj hread).symm

/-! ## Lengths -/

theorem inetPton4Go_length {text : Bytes} : ∀ {octets : Bytes} {cur : Nat} {saw : Bool}
    {addr : Bytes}, inetPton4Go text octets cur saw = some addr → addr.length = 4 := by
  induction text with
  | nil =>
      intro octets cur saw addr h
      rw [inetPton4Go] at h
      split at h
      · next hclosed =>
          cases h
          simp [hclosed.1]
      · cases h
  | cons c text ih =>
      intro octets cur saw addr h
      rw [inetPton4Go] at h
      split at h
      · simp only at h
        split at h
        · cases h
        · split at h
          · cases h
          · exact ih h
      · split at h
        · split at h
          · cases h
          · exact ih h
        · cases h

theorem inetPton4_length {text addr : Bytes} (h : inetPton4 text = some addr) :
    addr.length = 4 :=
  inetPton4Go_length h

theorem inetPton6End_length {out addr : Bytes} {colon : Option Nat}
    (h : inetPton6End out colon = some addr) : addr.length = 16 := by
  unfold inetPton6End at h
  split at h
  · split at h
    · next hlen =>
        cases h
        exact hlen
    · cases h
  · split at h
    · cases h
    · cases h
      simp only [List.length_append, List.length_take, List.length_replicate, List.length_drop]
      omega

theorem inetPton6Go_length {text : Bytes} : ∀ {token out : Bytes} {colon : Option Nat}
    {seen val : Nat} {addr : Bytes}, inetPton6Go text token out colon seen val = some addr →
    addr.length = 16 := by
  induction text with
  | nil =>
      intro token out colon seen val addr h
      rw [inetPton6Go] at h
      split at h
      · split at h
        · cases h
        · exact inetPton6End_length h
      · exact inetPton6End_length h
  | cons c text ih =>
      intro token out colon seen val addr h
      rw [inetPton6Go] at h
      split at h
      · split at h
        · cases h
        · exact ih h
      · split at h
        · split at h
          · split at h
            · cases h
            · exact ih h
          · split at h
            · cases h
            · split at h
              · cases h
              · exact ih h
        · split at h
          · split at h
            · exact inetPton6End_length h
            · cases h
          · cases h

theorem inetPton6_length {text addr : Bytes} (h : inetPton6 text = some addr) :
    addr.length = 16 := by
  unfold inetPton6 at h
  split at h
  · cases h
  · split at h
    · split at h
      · split at h
        · exact inetPton6Go_length h
        · cases h
      · cases h
    · exact inetPton6Go_length h

theorem inetNtop4_text_length {addr : Bytes} (h : addr.length = 4) :
    (inetNtop4 addr).length ≤ 15 := by
  obtain ⟨a, b, c, d, -, htext⟩ := inetNtop4_eq h
  have ha := decimal_length a
  have hb := decimal_length b
  have hc := decimal_length c
  have hd := decimal_length d
  rw [htext, dotted]
  simp
  omega

theorem joinColon_length {ws : List Nat} (hall : ∀ w ∈ ws, w < 65536) :
    (joinColon (ws.map hexDigits)).length ≤ 5 * ws.length := by
  induction ws with
  | nil => simp [joinColon]
  | cons w ws ih =>
      have hw := (hexDigits_length (hall w (List.mem_cons_self ..))).2
      have hrest := ih fun x hx => hall x (List.mem_cons_of_mem w hx)
      cases ws with
      | nil =>
          show (hexDigits w).length ≤ _
          simp
          omega
      | cons v ws =>
          rw [List.map_cons, List.map_cons, joinColon_cons, ← List.map_cons, List.length_append,
            List.length_cons]
          simp only [List.length_cons] at hrest ⊢
          omega

theorem inetNtop6_text_length {addr : Bytes} (h : addr.length = 16) :
    (inetNtop6 addr).length ≤ 42 := by
  obtain ⟨-, hws, hall⟩ := @words16_spec 8 addr h
  rw [inetNtop6]
  cases hrun : longestRun 0 (words16 addr) with
  | none =>
      have hlen := joinColon_length hall
      simp only
      omega
  | some best =>
      obtain ⟨base, len⟩ := best
      simp only
      split
      · have htail := @inetNtop4_text_length (addr.drop 12) (by rw [List.length_drop, h])
        have hgap : (ascii "::").length = 2 := by decide
        have hffff : (ascii "::ffff:").length = 7 := by decide
        split <;> rw [List.length_append] <;> omega
      · have hbefore := @joinColon_length ((words16 addr).take base) fun w hw =>
          hall w (List.mem_of_mem_take hw)
        have hafter := @joinColon_length ((words16 addr).drop (base + len)) fun w hw =>
          hall w (List.mem_of_mem_drop hw)
        have hgap : (ascii "::").length = 2 := by decide
        rw [List.length_take] at hbefore
        rw [List.length_drop] at hafter
        rw [List.length_append, List.length_append, hgap]
        omega

end HttpdProxy
