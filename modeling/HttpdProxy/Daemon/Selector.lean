import HttpdProxy.Utils.Bytes

/-!
# `selector.c`: the table of registered descriptors

The selector is a table indexed by descriptor number. The close handler that
`selector_unregister_fd` runs belongs to whoever registered the item, so it is
not here but where connections are known; this file has the table.

`fd_size` is 1025 from `selector_new` on and every accepted number is below
`ITEMS_MAX_SIZE`, so the table never has to grow. That a used item lies in the
range a round scans is carried by the type.

`calls` is not in the C code: the calls that changed the table, oldest first.
-/

namespace HttpdProxy

/-- `FD_SETSIZE`. -/
def itemsMaxSize : Int := 1024

def invalidFd (fd : Int) : Bool := fd < 0 || fd ≥ itemsMaxSize

structure Interest where
  read : Bool
  write : Bool
  deriving DecidableEq, Repr

def opNoop : Interest := ⟨false, false⟩
def opRead : Interest := ⟨true, false⟩
def opWrite : Interest := ⟨false, true⟩

/-- The `fd_handler` tables of the daemon. -/
inductive FdHandler where
  | proxy
  | management
  | logger
  | client
  | origin
  deriving DecidableEq, Repr

/-- The `data` of an item: `NULL`, a buffer of the logger, a connection. -/
inductive Attachment where
  | null
  | logBuffer
  | connection (id : Nat)
  deriving DecidableEq, Repr

structure Item where
  interest : Interest
  handler : FdHandler
  data : Attachment
  deriving DecidableEq, Repr

inductive SelectorStatus where
  | success
  | iargs
  | fdinuse
  deriving DecidableEq, Repr

/-- A call that changes the table. -/
inductive SelectorCall where
  | register (fd : Int) (handler : FdHandler) (interest : Interest) (data : Attachment)
  | unregister (fd : Int)
  | setInterest (fd : Int) (i : Interest)
  deriving DecidableEq, Repr

structure Selector where
  fds : Int → Option Item
  maxFd : Nat
  calls : List SelectorCall
  used_range : ∀ fd it, fds fd = some it → 0 ≤ fd ∧ fd < itemsMaxSize ∧ fd ≤ maxFd

/-- `selector_new`. -/
def selectorNew : Selector where
  fds := fun _ => none
  maxFd := 0
  calls := []
  used_range := fun _ _ h => nomatch h

/-- The table with one entry replaced. -/
def setFd (fds : Int → Option Item) (fd : Int) (it : Option Item) : Int → Option Item :=
  fun f => if f = fd then it else fds f

@[simp] theorem setFd_self (fds : Int → Option Item) (fd : Int) (it : Option Item) :
    setFd fds fd it fd = it := if_pos rfl

theorem setFd_of_ne {fds : Int → Option Item} {fd f : Int} {it : Option Item}
    (h : f ≠ fd) : setFd fds fd it f = fds f := if_neg h

theorem setFd_eq_some {fds : Int → Option Item} {fd f : Int} {it : Option Item}
    {it' : Item} (h : setFd fds fd it f = some it') :
    (f = fd ∧ it = some it') ∨ (f ≠ fd ∧ fds f = some it') := by
  unfold setFd at h
  split at h
  · next he => exact .inl ⟨he, h⟩
  · next hne => exact .inr ⟨hne, h⟩

/-- `items_max_fd`: the last item in use among the first `n + 1`. -/
def itemsMaxFd (fds : Int → Option Item) : Nat → Nat
  | 0 => 0
  | n + 1 => if (fds (n + 1 : Nat)).isSome then n + 1 else itemsMaxFd fds n

theorem le_itemsMaxFd {fds : Int → Option Item} {n : Nat} {fd : Nat} {it : Item}
    (h : fds fd = some it) (hle : fd ≤ n) : fd ≤ itemsMaxFd fds n := by
  induction n with
  | zero =>
      rw [itemsMaxFd]
      exact hle
  | succ n ih =>
      rw [itemsMaxFd]
      split
      · exact hle
      · next hn =>
          have hne : fd ≠ n + 1 := by
            intro he
            rw [← he, h] at hn
            exact hn rfl
          exact ih (by omega)

namespace Selector

/-- `selector_register`. -/
def register (s : Selector) (fd : Int) (handler : FdHandler) (interest : Interest)
    (data : Attachment) : SelectorStatus × Selector :=
  if hv : invalidFd fd then (.iargs, s)
  else
    match s.fds fd with
    | some _ => (.fdinuse, s)
    | none =>
        (.success,
          { fds := setFd s.fds fd (some ⟨interest, handler, data⟩)
            maxFd := max s.maxFd fd.toNat
            calls := s.calls ++ [.register fd handler interest data]
            used_range := fun f it h => by
              rcases setFd_eq_some h with ⟨rfl, _⟩ | ⟨_, h'⟩
              · simp only [invalidFd, Bool.or_eq_true, decide_eq_true_eq, not_or] at hv
                omega
              · have hr := s.used_range f it h'
                omega })

/-- The end of `selector_unregister_fd`, after the close handler. -/
def clear (s : Selector) (fd : Int) : Selector where
  fds := setFd s.fds fd none
  maxFd := itemsMaxFd (setFd s.fds fd none) s.maxFd
  calls := s.calls ++ [.unregister fd]
  used_range := fun f it h => by
    rcases setFd_eq_some h with ⟨_, h'⟩ | ⟨hne, h'⟩
    · cases h'
    · obtain ⟨h0, hlt, hle⟩ := s.used_range f it h'
      obtain ⟨n, rfl⟩ := Int.eq_ofNat_of_zero_le h0
      have hn : n ≤ itemsMaxFd (setFd s.fds fd none) s.maxFd :=
        le_itemsMaxFd h (by omega)
      omega

/-- `selector_set_interest`. -/
def setInterest (s : Selector) (fd : Int) (i : Interest) : Selector :=
  match hf : s.fds fd with
  | none => s
  | some it =>
      { fds := setFd s.fds fd (some { it with interest := i })
        maxFd := s.maxFd
        calls := s.calls ++ [.setInterest fd i]
        used_range := fun f it' h => by
          rcases setFd_eq_some h with ⟨rfl, _⟩ | ⟨_, h'⟩
          · exact s.used_range f it hf
          · exact s.used_range f it' h' }

/-! ## What the operations do to the table -/

@[simp] theorem clear_fds (s : Selector) (fd : Int) :
    (s.clear fd).fds = setFd s.fds fd none := rfl

theorem setInterest_fds (s : Selector) (fd : Int) (i : Interest) :
    (s.setInterest fd i).fds =
      setFd s.fds fd ((s.fds fd).map fun it => { it with interest := i }) := by
  unfold setInterest
  split
  · next h =>
      funext f
      unfold setFd
      split
      · next he => rw [he, h]; rfl
      · rfl
  · next it h => simp only [h, Option.map_some]

/-- A registration: the number was legal and free, and is now taken; or the
table is as it was. -/
theorem register_cases (s : Selector) (fd : Int) (handler : FdHandler)
    (interest : Interest) (data : Attachment) :
    (∃ s', s.register fd handler interest data = (.success, s') ∧
      s.fds fd = none ∧ invalidFd fd = false ∧
      s'.fds = setFd s.fds fd (some ⟨interest, handler, data⟩)) ∨
    (∃ st, s.register fd handler interest data = (st, s) ∧ st ≠ .success ∧
      (invalidFd fd = true ∨ (s.fds fd).isSome)) := by
  unfold register
  split
  · next hv => exact .inr ⟨_, rfl, by simp, .inl hv⟩
  · next hv =>
      split
      · next it h => exact .inr ⟨_, rfl, by simp, .inr (by simp [h])⟩
      · next h => exact .inl ⟨_, rfl, h, by simpa using hv, rfl⟩

end Selector

end HttpdProxy
