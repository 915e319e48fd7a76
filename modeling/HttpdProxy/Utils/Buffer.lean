import HttpdProxy.Lib.Returns
import HttpdProxy.Utils.Bytes

/-!
# `buffer.c`: a byte queue with direct access

A `buffer` is a stretch of memory with a read and a write pointer. Pointers
are offsets from `data`; `mem` is the memory from `data` on, whatever it
holds, and `alloc` is how much of it was allocated. `buffer.h` states the
invariant `R <= W <= limit`, and the type carries it, together with the one
fact that the compaction in `buffer_read_adv` buys: an empty buffer is always
rewound to its start.

`unread` is what the buffer means: the bytes between the two pointers, in
order. Every operation is described by what it does to it, and nothing past
this file looks at `mem`.
-/

namespace HttpdProxy

/-- How the daemon stops short of returning from a handler: `abort()`, a
failed `assert`, a dereference of a null or of a freed pointer, an index
outside an array, a store past the memory of a buffer, a loop that is not
left. -/
inductive Fault where
  | abort
  | assertion
  | nullDeref
  | useAfterFree
  | outOfBounds
  | overrun
  | noReturn
  deriving DecidableEq, Repr

structure Buffer where
  mem : Nat → UInt8
  alloc : Nat
  limit : Nat
  read : Nat
  write : Nat
  read_le : read ≤ write
  write_le : write ≤ limit
  rewound : read = write → write = 0

namespace Buffer

/-- The bytes written and not yet read. -/
def unread (b : Buffer) : Bytes :=
  (List.range (b.write - b.read)).map fun i => b.mem (b.read + i)

/-- Room left at the write pointer. -/
def room (b : Buffer) : Nat := b.limit - b.write

end Buffer

/-- `buffer_init` on `alloc` freshly allocated bytes. -/
def bufferInit (n alloc : Nat) (mem : Nat → UInt8) : Buffer where
  mem := mem
  alloc := alloc
  limit := n
  read := 0
  write := 0
  read_le := Nat.le_refl 0
  write_le := Nat.zero_le n
  rewound := fun _ => rfl

def bufferReset (b : Buffer) : Buffer where
  mem := b.mem
  alloc := b.alloc
  limit := b.limit
  read := 0
  write := 0
  read_le := Nat.le_refl 0
  write_le := Nat.zero_le b.limit
  rewound := fun _ => rfl

def bufferCanWrite (b : Buffer) : Bool := b.write < b.limit

def bufferCanRead (b : Buffer) : Bool := b.read < b.write

/-- Bytes stored from the write pointer on, by `read`, `memcpy` or
`sprintf`; what is allocated bounds them, not the limit. -/
def bufferStore (b : Buffer) (bs : Bytes) : Except Fault Buffer :=
  if b.write + bs.length ≤ b.alloc then
    .ok
      { b with
        mem := fun i =>
          if b.write ≤ i ∧ i < b.write + bs.length then bs.getD (i - b.write) 0
          else b.mem i }
  else .error .overrun

def bufferWriteAdv (b : Buffer) (n : Nat) : Except Fault Buffer :=
  if h : b.write + n ≤ b.limit then
    .ok
      { b with
        write := b.write + n
        read_le := Nat.le_trans b.read_le (Nat.le_add_right _ _)
        write_le := h
        rewound := fun he => by
          have hr := b.read_le
          have hw := b.rewound
          omega }
  else .error .assertion

def bufferReadAdv (b : Buffer) (n : Nat) : Except Fault Buffer :=
  if h : b.read + n ≤ b.write then
    if he : b.read + n = b.write then
      -- a cheap compaction: nothing is left to move
      .ok (bufferReset b)
    else
      .ok
        { b with
          read := b.read + n
          read_le := h
          rewound := fun h' => absurd h' he }
  else .error .assertion

/-- `buffer_read`: the next byte, or a zero from an empty buffer. -/
def bufferRead (b : Buffer) : Except Fault (UInt8 × Buffer) :=
  if bufferCanRead b then do
    let b' ← bufferReadAdv b 1
    .ok (b.mem b.read, b')
  else .ok (0, b)

/-- A store at `write_ptr` and the `write_adv` that follows it. -/
def bufferAppend (b : Buffer) (bs : Bytes) : Except Fault Buffer := do
  let b ← bufferStore b bs
  bufferWriteAdv b bs.length

/-- `sprintf` at `write_ptr`, which ends the text with a NUL, and the
`write_adv` of the length it returned. -/
def bufferPrint (b : Buffer) (text : Bytes) : Except Fault Buffer := do
  let b ← bufferStore b (text ++ [0])
  bufferWriteAdv b text.length

/-! ## What the operations do to the unread bytes -/

namespace Buffer

@[simp] theorem unread_length (b : Buffer) : b.unread.length = b.write - b.read := by
  simp [unread]

@[simp] theorem unread_bufferInit (n alloc : Nat) (mem : Nat → UInt8) :
    (bufferInit n alloc mem).unread = [] := rfl

@[simp] theorem unread_bufferReset (b : Buffer) : (bufferReset b).unread = [] := rfl

theorem canRead_iff (b : Buffer) : bufferCanRead b = true ↔ b.unread ≠ [] := by
  rw [bufferCanRead, decide_eq_true_iff, ← List.length_pos_iff, unread_length]
  omega

theorem canRead_eq_false_iff (b : Buffer) :
    bufferCanRead b = false ↔ b.unread = [] := by
  rw [Bool.eq_false_iff, ne_eq, canRead_iff]
  exact Decidable.not_not

/-- An empty buffer with any capacity at all can be written. -/
theorem canWrite_of_unread_nil {b : Buffer} (h : b.unread = []) (hl : 0 < b.limit) :
    bufferCanWrite b = true := by
  have hlen : b.write - b.read = 0 := by rw [← unread_length, h]; rfl
  have hle := b.read_le
  have hw := b.rewound (by omega)
  simp [bufferCanWrite, hw, hl]

theorem canWrite_iff (b : Buffer) : bufferCanWrite b = true ↔ 0 < b.room := by
  rw [bufferCanWrite, decide_eq_true_iff, room]
  omega

/-- An empty buffer offers its whole capacity. -/
theorem room_of_unread_nil {b : Buffer} (h : b.unread = []) : b.room = b.limit := by
  have hlen : b.write - b.read = 0 := by rw [← unread_length, h]; rfl
  have hle := b.read_le
  have hw := b.rewound (by omega)
  simp [room, hw]

/-- A store and a `write_adv` over part of it: the bytes queue up behind the
ones already there. -/
theorem writeAdv_store {b b' b'' : Buffer} {bs : Bytes} {n : Nat}
    (hs : bufferStore b bs = .ok b') (hw : bufferWriteAdv b' n = .ok b'')
    (hn : n ≤ bs.length) :
    b''.unread = b.unread ++ bs.take n ∧ b''.limit = b.limit ∧ b''.alloc = b.alloc := by
  unfold bufferStore at hs
  split at hs
  · injection hs with hs
    subst hs
    unfold bufferWriteAdv at hw
    split at hw
    · injection hw with hw
      subst hw
      refine ⟨?_, rfl, rfl⟩
      have hr := b.read_le
      apply List.ext_getElem
      · simp [unread]
        omega
      · intro i h1 h2
        simp only [unread, List.length_map, List.length_range] at h1
        simp only [unread, List.getElem_map, List.getElem_range]
        rcases Nat.lt_or_ge i (b.write - b.read) with hi | hi
        · rw [List.getElem_append_left (by simpa using hi), if_neg (by omega)]
          simp
        · rw [List.getElem_append_right (by simpa using hi), if_pos (by omega),
            List.getD_eq_getElem?_getD, List.getElem?_eq_getElem (by omega),
            Option.getD_some, List.getElem_take]
          congr 1
          simp
          omega
    · cases hw
  · cases hs

theorem append_spec {b b' : Buffer} {bs : Bytes} (h : bufferAppend b bs = .ok b') :
    b'.unread = b.unread ++ bs ∧ b'.limit = b.limit ∧ b'.alloc = b.alloc := by
  obtain ⟨b1, hs, hw⟩ := Lib.bind_eq_ok.mp h
  have h' := writeAdv_store hs hw (Nat.le_refl _)
  rwa [List.take_length] at h'

theorem print_spec {b b' : Buffer} {text : Bytes} (h : bufferPrint b text = .ok b') :
    b'.unread = b.unread ++ text ∧ b'.limit = b.limit ∧ b'.alloc = b.alloc := by
  obtain ⟨b1, hs, hw⟩ := Lib.bind_eq_ok.mp h
  have h' := writeAdv_store hs hw (by simp)
  rwa [List.take_left'] at h'
  rfl

theorem readAdv_spec {b b' : Buffer} {n : Nat} (h : bufferReadAdv b n = .ok b') :
    b'.unread = b.unread.drop n ∧ b'.limit = b.limit ∧ b'.alloc = b.alloc := by
  unfold bufferReadAdv at h
  split at h
  · next hle =>
      split at h
      · next he =>
          injection h with h
          subst h
          refine ⟨?_, rfl, rfl⟩
          rw [unread_bufferReset, List.drop_eq_nil_of_le]
          simp
          omega
      · next he =>
          injection h with h
          subst h
          refine ⟨?_, rfl, rfl⟩
          apply List.ext_getElem
          · simp [unread]
            omega
          · intro i h1 h2
            simp [unread, Nat.add_assoc]
  · cases h

theorem readAdv_ok {b : Buffer} {n : Nat} (h : n ≤ b.unread.length) :
    ∃ b', bufferReadAdv b n = .ok b' := by
  have hle := b.read_le
  rw [unread_length] at h
  unfold bufferReadAdv
  rw [dif_pos (by omega)]
  split
  · exact ⟨_, rfl⟩
  · exact ⟨_, rfl⟩

/-- Reading one byte takes the head off the queue. -/
theorem read_spec {b : Buffer} {c : UInt8} {cs : Bytes} (h : b.unread = c :: cs) :
    ∃ b', bufferRead b = .ok (c, b') ∧ b'.unread = cs ∧ b'.limit = b.limit ∧
      b'.alloc = b.alloc := by
  have hlen : b.write - b.read = cs.length + 1 := by rw [← unread_length, h]; rfl
  obtain ⟨b', hb'⟩ := readAdv_ok (b := b) (n := 1) (by rw [h]; simp)
  obtain ⟨hu, hl, ha⟩ := readAdv_spec hb'
  refine ⟨b', ?_, by rw [hu, h]; rfl, hl, ha⟩
  have hc : b.mem b.read = c := by
    have hg : b.unread[0]? = some c := by rw [h]; rfl
    simpa [unread, show 0 < b.write - b.read by omega] using hg
  have hcan : bufferCanRead b = true := by
    rw [canRead_iff, h]
    exact List.cons_ne_nil c cs
  rw [bufferRead, if_pos hcan, hb', ← hc]
  rfl

theorem read_ok {b b' : Buffer} {c : UInt8} (hcan : bufferCanRead b = true)
    (h : bufferRead b = .ok (c, b')) :
    b.unread = c :: b'.unread ∧ b'.limit = b.limit ∧ b'.alloc = b.alloc := by
  rw [canRead_iff] at hcan
  obtain ⟨c1, cs, hu⟩ := List.exists_cons_of_ne_nil hcan
  obtain ⟨b1, hr, h1, hl, ha⟩ := read_spec hu
  rw [h] at hr
  cases hr
  exact ⟨by rw [hu, h1], hl, ha⟩

end Buffer

end HttpdProxy
