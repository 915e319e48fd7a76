import Mathlib.Algebra.Group.Nat.Defs
import Mathlib.Data.List.Forall2
import HttpdProxy.Daemon.FdSelector
import HttpdProxy.Daemon.Httpd
import HttpdProxy.Daemon.Logger
import HttpdProxy.Lib.Refinement
import HttpdProxy.Lib.Runs
import HttpdProxy.Proofs.Daemon
import HttpdProxy.Proofs.Frames

/-!
# The table of descriptors in memory

`Selector` is the table as the daemon means it, and `FdSelector` the block of
memory that holds it. `SizedTable` says what a call returns given how many
items the block has room for, and which calls reach behind it: to look an item
up there, and to register the very first descriptor that no longer fits, which
`selector_register` takes to fit. Every sequence of calls on the block returns
what it does on the table, up to such a call (`selector_refines`), and there is
none exactly when room for 512 descriptors was asked for (`selector_fits_iff`).
The daemon asks for more, so its handlers keep a block in memory that is what
the selector of its world says (`selector_in_memory`).
-/

namespace HttpdProxy

/-! ## The capacity -/

theorem le_bitsOf (tmp bits : Nat) : bits ≤ bitsOf tmp bits := by
  fun_induction bitsOf tmp bits with
  | case1 bits => exact Nat.le_refl bits
  | case2 tmp bits _ ih => omega

theorem bitsOf_le_iff (tmp bits : Nat) (k : Nat) : bitsOf tmp bits ≤ bits + k ↔ tmp < 2 ^ k := by
  induction k generalizing tmp bits with
  | zero =>
      rw [bitsOf, Nat.pow_zero]
      split
      · next h => omega
      · next h =>
          have hle := le_bitsOf (tmp >>> 1) (bits + 1)
          omega
  | succ k ih =>
      rw [bitsOf, Nat.pow_succ]
      split
      · next h =>
          have hpos : 0 < 2 ^ k := Nat.two_pow_pos k
          omega
      · next h =>
          have hhalf : tmp >>> 1 = tmp / 2 := Nat.shiftRight_eq_div_pow tmp 1
          have hih := ih (tmp >>> 1) (bits + 1)
          rw [hhalf] at hih ⊢
          rw [show bits + (k + 1) = bits + 1 + k by omega, hih]
          omega

theorem nextCapacity_eq (n : Nat) : nextCapacity n = min (2 ^ bitsOf n 0) 1024 + 1 := by
  have hmax : itemsMaxCount = 1024 := rfl
  unfold nextCapacity
  rw [Nat.one_shiftLeft, hmax]
  dsimp only
  split <;> omega

/-- There is room for the descriptor that was asked for. -/
theorem lt_nextCapacity {n : Nat} (h : n ≤ 1024) : n < nextCapacity n := by
  have hn : n < 2 ^ bitsOf n 0 := (bitsOf_le_iff n 0 _).mp (by omega)
  rw [nextCapacity_eq]
  omega

/-- From 512 on there is room for every descriptor `select` knows of. -/
theorem nextCapacity_full {n : Nat} (h : 512 ≤ n) : nextCapacity n = 1025 := by
  have hbits : ¬ bitsOf n 0 ≤ 0 + 9 := fun hle => by
    have hlt := (bitsOf_le_iff n 0 9).mp hle
    omega
  have hpow : 2 ^ 10 ≤ 2 ^ bitsOf n 0 := Nat.pow_le_pow_right (by decide) (by omega)
  rw [nextCapacity_eq]
  omega

theorem nextCapacity_short {n : Nat} (h : n < 512) : nextCapacity n ≤ 513 := by
  have hbits : bitsOf n 0 ≤ 0 + 9 := (bitsOf_le_iff n 0 9).mpr h
  have hpow : 2 ^ bitsOf n 0 ≤ 2 ^ 9 := Nat.pow_le_pow_right (by decide) (by omega)
  rw [nextCapacity_eq]
  omega

/-! ## The table and its size -/

def SelectorStatus.code : SelectorStatus → SelectorCode
  | .success => .success
  | .iargs => .iargs
  | .fdinuse => .fdinuse

/-- A table, and how many items there is room for. -/
structure SizedTable where
  size : Nat
  sel : Selector

namespace SizedTable

/-- A registration of a descriptor that fits. -/
def enter (a : SizedTable) (size : Nat) (fd : Int) (handler : FdHandler) (interest : Interest)
    (data : Attachment) : SelectorResult × SizedTable :=
  let (ret, sel) := a.sel.register fd handler interest data
  ((ret.code, none), ⟨size, sel⟩)

/-- What a call returns, unless it reaches behind the items. -/
def apply (a : SizedTable) : SelectorOp → Option (SelectorResult × SizedTable)
  | .register mem fd handler interest data =>
      if invalidFd fd then some ((.iargs, none), a)
      else if fd.toNat < a.size then some (a.enter a.size fd handler interest data)
      else if fd.toNat = a.size then none
      else if mem.isNone then some ((.enomem, none), a)
      else some (a.enter (nextCapacity fd.toNat) fd handler interest data)
  | .unregister fd =>
      if invalidFd fd then some ((.iargs, none), a)
      else if fd.toNat < a.size then
        match a.sel.fds fd with
        | none => some ((.iargs, none), a)
        | some item => some ((.success, some item), ⟨a.size, a.sel.clear fd⟩)
      else none
  | .setInterest fd i =>
      if invalidFd fd then some ((.iargs, none), a)
      else if fd.toNat < a.size then
        match a.sel.fds fd with
        | none => some ((.iargs, none), a)
        | some _ => some ((.success, none), ⟨a.size, a.sel.setInterest fd i⟩)
      else none

end SizedTable

/-! ## The block and the table -/

/-- How the block holds an item of the table. -/
def FdItem.holding (fd : Int) (it : Item) : FdItem := ⟨fd, it.interest, some it.handler, it.data⟩

/-- The item of the block stands for what the table has under a number. -/
def FdItem.Is (item : FdItem) (fd : Int) : Option Item → Prop
  | some it => item = .holding fd it
  | none => item.used = false

/-- Every item of the block does. -/
def Mirrors (items : List FdItem) (fds : Int → Option Item) : Prop :=
  ∀ (i : Nat) (item : FdItem), items[i]? = some item → item.Is i (fds i)

theorem FdItem.Is.used {item : FdItem} {fd : Int} {o : Option Item} (h : item.Is fd o)
    (hv : 0 ≤ fd) : item.used = o.isSome := by
  cases o with
  | none => exact h
  | some it =>
      obtain rfl : item = .holding fd it := h
      simp [FdItem.used, FdItem.holding, fdUnused]
      omega

theorem Mirrors.set {items : List FdItem} {fds : Int → Option Item} (h : Mirrors items fds)
    {fd : Int} (hv : 0 ≤ fd) {item : FdItem} {o : Option Item} (hi : item.Is fd o) :
    Mirrors (items.set fd.toNat item) (setFd fds fd o) := by
  intro i it hit
  have hfd : ((fd.toNat : Nat) : Int) = fd := Int.toNat_of_nonneg hv
  rw [List.getElem?_set] at hit
  split at hit
  · next he =>
      subst he
      split at hit
      · cases hit
        rw [hfd, setFd_self]
        exact hi
      · cases hit
  · next hne =>
      have hne' : (i : Int) ≠ fd := by omega
      rw [setFd_of_ne hne']
      exact h i it hit

/-- The block stands for the table. -/
structure Represents (t : FdSelector) (a : SizedTable) : Prop where
  size : t.fds.length = a.size
  mirrors : Mirrors t.fds a.sel.fds
  inside : a.sel.maxFd < a.size
  maxFd : t.maxFd = a.sel.maxFd
  read : ∀ fd, t.masterR fd = (a.sel.fds fd).any (·.interest.read)
  write : ∀ fd, t.masterW fd = (a.sel.fds fd).any (·.interest.write)

namespace Represents

variable {t : FdSelector} {a : SizedTable}

theorem item_ok (h : Represents t a) {i : Nat} (hi : i < a.size) :
    ∃ item, t.item i = .ok item ∧ item.Is i (a.sel.fds i) := by
  have hlt : i < t.fds.length := h.size ▸ hi
  have hget : t.fds[i]? = some t.fds[i] := List.getElem?_eq_getElem hlt
  refine ⟨t.fds[i], ?_, h.mirrors i _ hget⟩
  rw [FdSelector.item, hget]

theorem item_error (h : Represents t a) {i : Nat} (hi : a.size ≤ i) :
    t.item i = .error .outOfBounds := by
  have hget : t.fds[i]? = none := List.getElem?_eq_none (h.size ▸ hi)
  rw [FdSelector.item, hget]

/-- Behind the items the table is empty. -/
theorem free_behind (h : Represents t a) {i : Nat} (hi : a.size ≤ i) : a.sel.fds i = none := by
  cases hf : a.sel.fds i with
  | none => rfl
  | some it =>
      have hr := a.sel.used_range i it hf
      have hin := h.inside
      omega

end Represents

/-- One item of the scan of `items_max_fd`. -/
def FdSelector.maxWith (t : FdSelector) (max : Nat) (i : Nat) : Except Fault Nat := do
  let item ← t.item i
  .ok (if item.used && item.fd > (max : Int) then item.fd.toNat else max)

theorem itemsMaxFd_le (fds : Int → Option Item) (n : Nat) : itemsMaxFd fds n ≤ n := by
  induction n with
  | zero => exact Nat.le_refl 0
  | succ n ih =>
      rw [itemsMaxFd]
      split <;> omega

theorem maxWith_eq {t : FdSelector} {fds : Int → Option Item} {i max : Nat}
    (hm : Mirrors t.fds fds) (hi : i < t.fds.length) (hmax : max < i) :
    t.maxWith max i = .ok (if (fds i).isSome then i else max) := by
  have hget : t.fds[i]? = some t.fds[i] := List.getElem?_eq_getElem hi
  have his := hm i _ hget
  rw [FdSelector.maxWith, FdSelector.item, hget]
  cases hf : fds i with
  | none =>
      rw [hf] at his
      have hu : t.fds[i].used = false := his
      simp only [bind, Except.bind, hu, Bool.false_and]
      rfl
  | some it =>
      rw [hf] at his
      have hitem : t.fds[i] = .holding i it := his
      have hu : t.fds[i].used = true := his.used (Int.natCast_nonneg i)
      have hfd : t.fds[i].fd = i := by rw [hitem]; rfl
      simp only [bind, Except.bind, hu, hfd, Bool.true_and, decide_eq_true_eq]
      rw [if_pos (by omega), Int.toNat_natCast]
      rfl

/-- The scan finds the last item of the table. -/
theorem itemsMaxFd_scan {t : FdSelector} {fds : Int → Option Item} (hm : Mirrors t.fds fds)
    (n : Nat) (hn : n < t.fds.length) :
    (List.range (n + 1)).foldlM t.maxWith 0 = .ok (itemsMaxFd fds n) := by
  induction n with
  | zero =>
      have hget : t.fds[0]? = some t.fds[0] := List.getElem?_eq_getElem hn
      have his := hm 0 _ hget
      have hno : (t.fds[0].used && decide (t.fds[0].fd > 0)) = false := by
        cases hf : fds (0 : Nat) with
        | none =>
            rw [hf] at his
            rw [show t.fds[0].used = false from his]
            rfl
        | some it =>
            rw [hf] at his
            rw [show t.fds[0] = .holding (0 : Nat) it from his]
            simp [FdItem.holding]
      have hstep : t.maxWith 0 0 = .ok 0 := by
        rw [FdSelector.maxWith, FdSelector.item, hget]
        simp only [bind, Except.bind]
        rw [show ((0 : Nat) : Int) = 0 from rfl, hno]
        rfl
      simp only [Nat.zero_add, List.range_one, List.foldlM_cons, List.foldlM_nil, hstep, itemsMaxFd]
      rfl
  | succ n ih =>
      have hle := itemsMaxFd_le fds n
      rw [List.range_succ, List.foldlM_append, ih (by omega)]
      simp only [bind, Except.bind, List.foldlM_cons, List.foldlM_nil,
        maxWith_eq hm hn (show itemsMaxFd fds n < n + 1 by omega)]
      rfl

/-- `FD_CLR`, and `FD_SET` where it is wanted. -/
theorem fdSet_fdClr (fd : Int) (set : FdSet) (b : Bool) :
    (if b then fdSet fd (fdClr fd set) else fdClr fd set) = fun f => if f = fd then b else set f := by
  funext f
  cases b <;> by_cases hf : f = fd <;> simp [fdClr, fdSet, hf]

/-- Both sets for `select`, after the item of one descriptor has changed. -/
theorem itemsUpdateFdsetForFd_ok (t : FdSelector) {item : FdItem}
    (hv : invalidFd item.fd = false) (hu : item.used = true) :
    t.itemsUpdateFdsetForFd item = .ok
      { t with
        masterR := fun f => if f = item.fd then item.interest.read else t.masterR f
        masterW := fun f => if f = item.fd then item.interest.write else t.masterW f } := by
  rw [FdSelector.itemsUpdateFdsetForFd, if_neg (by rw [hv]; exact Bool.false_ne_true), if_pos hu]
  dsimp only
  rw [fdSet_fdClr, fdSet_fdClr]

theorem invalidFd_false {fd : Int} (h : invalidFd fd = false) : 0 ≤ fd ∧ fd.toNat < 1024 := by
  have h' : (decide (fd < 0) || decide (fd ≥ 1024)) = false := h
  rw [Bool.or_eq_false_iff, decide_eq_false_iff_not, decide_eq_false_iff_not] at h'
  omega

theorem Selector.valid_of_used (s : Selector) {fd : Int} {it : Item} (hf : s.fds fd = some it) :
    invalidFd fd = false := by
  have hrange := s.used_range fd it hf
  rw [invalidFd, Bool.or_eq_false_iff, decide_eq_false_iff_not, decide_eq_false_iff_not]
  omega

theorem Selector.setInterest_maxFd (s : Selector) (fd : Int) (i : Interest) :
    (s.setInterest fd i).maxFd = s.maxFd := by
  unfold Selector.setInterest
  split <;> rfl

theorem Selector.register_taken (s : Selector) {fd : Int} (hv : invalidFd fd = false) {it : Item}
    (hf : s.fds fd = some it) (handler : FdHandler) (interest : Interest) (data : Attachment) :
    s.register fd handler interest data = (.fdinuse, s) := by
  unfold Selector.register
  rw [dif_neg (by rw [hv]; exact Bool.false_ne_true)]
  split
  · rfl
  · next h => cases h.symm.trans hf

theorem Selector.register_free (s : Selector) {fd : Int} (hv : invalidFd fd = false)
    (hf : s.fds fd = none) (handler : FdHandler) (interest : Interest) (data : Attachment) :
    ∃ sel, s.register fd handler interest data = (.success, sel) ∧
      sel.fds = setFd s.fds fd (some ⟨interest, handler, data⟩) ∧
      sel.maxFd = max s.maxFd fd.toNat := by
  unfold Selector.register
  rw [dif_neg (by rw [hv]; exact Bool.false_ne_true)]
  split
  · next it h => cases hf.symm.trans h
  · exact ⟨_, rfl, rfl, rfl⟩

namespace Represents

variable {t : FdSelector} {a : SizedTable}

/-- One item is replaced by a used one, and the sets follow. -/
theorem put (h : Represents t a) {fd : Int} (hv : invalidFd fd = false) {it : Item}
    {sel : Selector} (hfds : sel.fds = setFd a.sel.fds fd (some it)) (hin : sel.maxFd < a.size)
    {max : Nat} (hmax : max = sel.maxFd) :
    ∃ t', ({ t.putItem fd.toNat (.holding fd it) with maxFd := max } :
        FdSelector).itemsUpdateFdsetForFd (.holding fd it) = .ok t' ∧
      Represents t' ⟨a.size, sel⟩ := by
  have h0 := (invalidFd_false hv).1
  have his : (FdItem.holding fd it).Is fd (some it) := rfl
  refine ⟨_, itemsUpdateFdsetForFd_ok _ hv (his.used h0), ?_⟩
  constructor
  · exact (List.length_set ..).trans h.size
  · rw [hfds]
    exact h.mirrors.set h0 his
  · exact hin
  · exact hmax
  · intro f
    by_cases hf : f = fd
    · subst hf
      simp [hfds, FdItem.holding]
    · simp [hfds, FdItem.holding, hf, setFd_of_ne hf, FdSelector.putItem, h.read f]
  · intro f
    by_cases hf : f = fd
    · subst hf
      simp [hfds, FdItem.holding]
    · simp [hfds, FdItem.holding, hf, setFd_of_ne hf, FdSelector.putItem, h.write f]

/-- `selector_set_interest`. -/
theorem setInterest (h : Represents t a) (fd : Int) (i : Interest) :
    Lib.Agrees Represents (t.apply (.setInterest fd i)) (a.apply (.setInterest fd i)) := by
  rw [FdSelector.apply, FdSelector.selectorSetInterest, SizedTable.apply]
  cases hv : invalidFd fd with
  | true => exact ⟨t, rfl, h⟩
  | false =>
      have h0 := invalidFd_false hv
      have hfd : ((fd.toNat : Nat) : Int) = fd := Int.toNat_of_nonneg h0.1
      rw [if_neg Bool.false_ne_true, if_neg Bool.false_ne_true]
      split
      · next hlt =>
          obtain ⟨item, hitem, his⟩ := h.item_ok hlt
          have hu := his.used (Int.natCast_nonneg _)
          rw [hfd] at his hu
          rw [hitem]
          cases hf : a.sel.fds fd with
          | none =>
              rw [hf] at hu
              simp only [bind, Except.bind, hu]
              exact ⟨t, rfl, h⟩
          | some it =>
              rw [hf] at hu his
              obtain rfl : item = .holding fd it := his
              have hsel := a.sel.setInterest_fds fd i
              rw [hf] at hsel
              have hmax := a.sel.setInterest_maxFd fd i
              obtain ⟨t', ht', hr⟩ := h.put hv hsel (hmax ▸ h.inside) (h.maxFd.trans hmax.symm)
              have ht'' : (t.putItem fd.toNat { FdItem.holding fd it with
                  interest := i }).itemsUpdateFdsetForFd
                    { FdItem.holding fd it with interest := i } = .ok t' := ht'
              simp only [bind, Except.bind, hu, ht'']
              exact ⟨t', rfl, hr⟩
      · next hge =>
          rw [h.item_error (by omega)]
          exact ⟨_, rfl⟩

/-- An item that asks for nothing is taken out. -/
theorem remove (h : Represents t a) {fd : Int} (h0 : 0 ≤ fd)
    (hidle : ∀ it, a.sel.fds fd = some it → it.interest = opNoop) {sel : Selector}
    (hfds : sel.fds = setFd a.sel.fds fd none)
    (hmax : sel.maxFd = itemsMaxFd sel.fds a.sel.maxFd) :
    (t.putItem fd.toNat (itemInit .zero)).itemsMaxFd = .ok sel.maxFd ∧
      Represents { t.putItem fd.toNat (itemInit .zero) with maxFd := sel.maxFd }
        ⟨a.size, sel⟩ := by
  have his : (itemInit .zero).Is fd none := rfl
  have hlen : (t.putItem fd.toNat (itemInit .zero)).fds.length = a.size :=
    (List.length_set ..).trans h.size
  have hmir : Mirrors (t.putItem fd.toNat (itemInit .zero)).fds sel.fds := by
    rw [hfds]
    exact h.mirrors.set h0 his
  have hle := itemsMaxFd_le sel.fds a.sel.maxFd
  refine ⟨?_, ⟨hlen, hmir, Nat.lt_of_le_of_lt (hmax ▸ hle) h.inside, rfl, ?_, ?_⟩⟩
  · have hscan := itemsMaxFd_scan hmir t.maxFd (by rw [hlen, h.maxFd]; exact h.inside)
    rw [hmax, ← h.maxFd]
    exact hscan
  · intro f
    by_cases hf : f = fd
    · subst hf
      have hidle' : (a.sel.fds f).any (·.interest.read) = false := by
        cases hit : a.sel.fds f with
        | none => rfl
        | some it => simp [hidle it hit, opNoop]
      simp [hfds, FdSelector.putItem, h.read f, hidle']
    · simp [hfds, setFd_of_ne hf, FdSelector.putItem, h.read f]
  · intro f
    by_cases hf : f = fd
    · subst hf
      have hidle' : (a.sel.fds f).any (·.interest.write) = false := by
        cases hit : a.sel.fds f with
        | none => rfl
        | some it => simp [hidle it hit, opNoop]
      simp [hfds, FdSelector.putItem, h.write f, hidle']
    · simp [hfds, setFd_of_ne hf, FdSelector.putItem, h.write f]

/-- `selector_unregister_fd`. -/
theorem unregister (h : Represents t a) (fd : Int) :
    Lib.Agrees Represents (t.apply (.unregister fd)) (a.apply (.unregister fd)) := by
  rw [FdSelector.apply, FdSelector.selectorUnregisterFd, SizedTable.apply]
  cases hv : invalidFd fd with
  | true => exact ⟨t, rfl, h⟩
  | false =>
      have h0 := invalidFd_false hv
      have hfd : ((fd.toNat : Nat) : Int) = fd := Int.toNat_of_nonneg h0.1
      rw [if_neg Bool.false_ne_true, if_neg Bool.false_ne_true]
      split
      · next hlt =>
          obtain ⟨item, hitem, his⟩ := h.item_ok hlt
          have hu := his.used (Int.natCast_nonneg _)
          rw [hfd] at his hu
          rw [hitem]
          cases hf : a.sel.fds fd with
          | none =>
              rw [hf] at hu
              simp only [bind, Except.bind, hu]
              exact ⟨t, rfl, h⟩
          | some it =>
              rw [hf] at hu his
              obtain rfl : item = .holding fd it := his
              -- first the interests go, then the item
              have hsel := a.sel.setInterest_fds fd opNoop
              rw [hf] at hsel
              have hmax := a.sel.setInterest_maxFd fd opNoop
              obtain ⟨t₁, ht₁, hr₁⟩ :=
                h.put hv hsel (hmax ▸ h.inside) (h.maxFd.trans hmax.symm)
              have hidle : ∀ it', (a.sel.setInterest fd opNoop).fds fd = some it' →
                  it'.interest = opNoop := by
                intro it' hit'
                rw [hsel] at hit'
                cases (setFd_self _ _ _).symm.trans hit'
                rfl
              have hclear : (a.sel.clear fd).fds
                  = setFd (a.sel.setInterest fd opNoop).fds fd none := by
                rw [Selector.clear_fds, hsel]
                funext f
                by_cases hff : f = fd
                · rw [hff, setFd_self, setFd_self]
                · rw [setFd_of_ne hff, setFd_of_ne hff, setFd_of_ne hff]
              obtain ⟨hscan, hr₂⟩ := hr₁.remove h0.1 hidle hclear (by rw [hmax]; rfl)
              have ht₁' : (t.putItem fd.toNat { FdItem.holding fd it with
                  interest := opNoop }).itemsUpdateFdsetForFd
                    { FdItem.holding fd it with interest := opNoop } = .ok t₁ := ht₁
              simp only [FdItem.holding] at hu ht₁' ⊢
              simp only [bind, Except.bind, hu, ht₁', hscan]
              exact ⟨_, rfl, hr₂⟩
      · next hge =>
          rw [h.item_error (by omega)]
          exact ⟨_, rfl⟩

/-- The registration of a descriptor there is room for. -/
theorem enter (h : Represents t a) {fd : Int} (hv : invalidFd fd = false)
    (hlt : fd.toNat < a.size) (handler : FdHandler) (interest : Interest) (data : Attachment) :
    Lib.Agrees Represents
      (do
        let (ret, t) ← t.enter fd handler interest data
        .ok ((ret, none), t))
      (some (a.enter a.size fd handler interest data)) := by
  have h0 := invalidFd_false hv
  have hfd : ((fd.toNat : Nat) : Int) = fd := Int.toNat_of_nonneg h0.1
  obtain ⟨item, hitem, his⟩ := h.item_ok hlt
  have hu := his.used (Int.natCast_nonneg _)
  rw [hfd] at his hu
  rw [FdSelector.enter, hitem, SizedTable.enter]
  cases hf : a.sel.fds fd with
  | some it =>
      rw [hf] at hu
      rw [a.sel.register_taken hv hf]
      simp only [bind, Except.bind, hu]
      exact ⟨t, rfl, h⟩
  | none =>
      rw [hf] at hu
      obtain ⟨sel, hreg, hfds, hmax⟩ := a.sel.register_free hv hf handler interest data
      have hin := h.inside
      have hmax' : (if fd > t.maxFd then fd.toNat else t.maxFd) = sel.maxFd := by
        rw [hmax, h.maxFd]
        split <;> omega
      obtain ⟨t', ht', hr⟩ := h.put hv hfds (by omega) hmax'
      rw [hreg]
      have hu' : item.used = false := hu
      let u := t.putItem fd.toNat ⟨fd, interest, some handler, data⟩
      have hput : ({ u with maxFd := if fd > u.maxFd then fd.toNat else u.maxFd } :
          FdSelector).itemsUpdateFdsetForFd ⟨fd, interest, some handler, data⟩ = .ok t' := ht'
      simp only [u] at hput
      simp only [bind, Except.bind, hu', hput]
      exact ⟨t', rfl, hr⟩

/-- A block that has grown holds what it held. -/
theorem grow (h : Represents t a) {n : Nat} (hn : a.size ≤ n) (hmax : n ≤ 1024)
    (mem : Nat → FdItem) :
    ∃ t', FdSelector.ensureCapacity (some mem) t n = (.success, t') ∧
      Represents t' ⟨nextCapacity n, a.sel⟩ := by
  have hroom := lt_nextCapacity hmax
  have hlen := h.size
  have htake : t.fds.take (nextCapacity n) = t.fds := List.take_of_length_le (by omega)
  have hcount : itemsMaxCount = 1024 := rfl
  rw [FdSelector.ensureCapacity, if_neg (by omega), if_neg (by omega)]
  refine ⟨_, rfl, ?_⟩
  constructor
  · rw [htake]
    simp
    omega
  · intro i item hi
    rw [htake] at hi
    rw [List.getElem?_append] at hi
    split at hi
    · exact h.mirrors i item hi
    · next hge =>
        rw [h.free_behind (by omega)]
        rw [List.getElem?_map, Option.map_eq_some_iff] at hi
        obtain ⟨k, _, rfl⟩ := hi
        rfl
  · have hin := h.inside
    show a.sel.maxFd < nextCapacity n
    omega
  · exact h.maxFd
  · exact h.read
  · exact h.write

/-- `selector_register`. -/
theorem register (h : Represents t a) (mem : Option (Nat → FdItem)) (fd : Int)
    (handler : FdHandler) (interest : Interest) (data : Attachment) :
    Lib.Agrees Represents (t.apply (.register mem fd handler interest data))
      (a.apply (.register mem fd handler interest data)) := by
  rw [FdSelector.apply, FdSelector.selectorRegister, SizedTable.apply]
  cases hv : invalidFd fd with
  | true => exact ⟨t, rfl, h⟩
  | false =>
      have h0 := invalidFd_false hv
      have hlen := h.size
      rw [if_neg Bool.false_ne_true, if_neg Bool.false_ne_true]
      dsimp only
      rcases Nat.lt_trichotomy fd.toNat a.size with hlt | heq | hgt
      · rw [if_pos hlt, if_neg (show ¬ fd.toNat > t.fds.length by omega)]
        exact h.enter hv hlt handler interest data
      · rw [if_neg (show ¬ fd.toNat < a.size by omega), if_pos heq,
          if_neg (show ¬ fd.toNat > t.fds.length by omega)]
        have herr := h.item_error (Nat.le_of_eq heq.symm)
        refine ⟨.outOfBounds, ?_⟩
        simp only [FdSelector.enter, herr]
        rfl
      · rw [if_neg (show ¬ fd.toNat < a.size by omega), if_neg (show ¬ fd.toNat = a.size by omega),
          if_pos (show fd.toNat > t.fds.length by omega)]
        cases mem with
        | none =>
            have hcount : itemsMaxCount = 1024 := rfl
            have hcap : FdSelector.ensureCapacity none t fd.toNat = (.enomem, t) := by
              rw [FdSelector.ensureCapacity.eq_def, if_neg (by omega), if_neg (by omega)]
            rw [hcap]
            exact ⟨t, rfl, h⟩
        | some mem =>
            obtain ⟨t', ht', hr⟩ := h.grow (n := fd.toNat) (by omega) (by omega) mem
            have hroom := lt_nextCapacity (show fd.toNat ≤ 1024 by omega)
            rw [ht']
            exact hr.enter hv hroom handler interest data

end Represents

/-- Every call does on the block what it does on the table, or reaches behind
the block. -/
theorem represents_refines : Lib.Refines Represents FdSelector.apply SizedTable.apply := by
  intro t a op h
  cases op with
  | register mem fd handler interest data => exact h.register mem fd handler interest data
  | unregister fd => exact h.unregister fd
  | setInterest fd i => exact h.setInterest fd i

/-- A new selector is an empty table. -/
theorem represents_new {n : Nat} (h : n ≤ 1024) :
    ∃ t, FdSelector.selectorNew true n = some t ∧
      Represents t ⟨nextCapacity n, selectorNew⟩ := by
  have hcount : itemsMaxCount = 1024 := rfl
  have hroom := lt_nextCapacity h
  refine ⟨⟨(List.range (nextCapacity n)).map fun _ => itemInit .zero, 0,
    fun _ => false, fun _ => false⟩, ?_, ?_⟩
  · unfold FdSelector.selectorNew FdSelector.ensureCapacity
    simp only [List.length_nil, if_neg (Nat.not_lt_zero n), if_neg (show ¬ n > itemsMaxCount by omega)]
    simp
  · constructor
    · simp
    · intro i item hi
      rw [List.getElem?_map, Option.map_eq_some_iff] at hi
      obtain ⟨k, _, rfl⟩ := hi
      rfl
    · exact Nat.lt_of_le_of_lt (Nat.zero_le n) hroom
    · rfl
    · exact fun fd => rfl
    · exact fun fd => rfl

/-- Every sequence of calls on a new selector returns what it does on the
table, and leaves the block and the sets for `select` as the table says, up to
a call that reaches behind the block. -/
theorem selector_refines {n : Nat} (h : n ≤ 1024) (ops : List SelectorOp) :
    ∃ t, FdSelector.selectorNew true n = some t ∧
      Lib.Agrees Represents (Lib.perform FdSelector.apply ops t)
        (Lib.perform SizedTable.apply ops ⟨nextCapacity n, selectorNew⟩) := by
  obtain ⟨t, ht, hr⟩ := represents_new h
  exact ⟨t, ht, represents_refines.perform ops hr⟩

/-- A descriptor is registered, found in use, and closed. -/
theorem selector_refines_reuse : ∃ t t' : FdSelector, FdSelector.selectorNew true 1024 = some t ∧
    Lib.perform FdSelector.apply
      [.register none 5 .client opRead .null, .register none 5 .origin opWrite .null,
        .unregister 5] t
      = .ok ([(.success, none), (.fdinuse, none), (.success, some ⟨opRead, .client, .null⟩)], t') := by
  obtain ⟨t, ht, hagrees⟩ := selector_refines (Nat.le_refl 1024)
    [.register none 5 .client opRead .null, .register none 5 .origin opWrite .null, .unregister 5]
  rw [nextCapacity_full (by omega)] at hagrees
  obtain ⟨t', ht', _⟩ := hagrees
  exact ⟨t, t', ht, ht'⟩

/-- Where there is room for every descriptor, no call reaches behind. -/
theorem SizedTable.apply_full (a : SizedTable) (h : a.size = 1025) (op : SelectorOp) :
    ∃ r a', a.apply op = some (r, a') ∧ a'.size = 1025 := by
  have hfits : ∀ fd, invalidFd fd = false → fd.toNat < a.size := fun fd hv => by
    have hlt := (invalidFd_false hv).2
    omega
  cases op with
  | register mem fd handler interest data =>
      rw [apply]
      cases hv : invalidFd fd with
      | true => exact ⟨_, a, rfl, h⟩
      | false =>
          rw [if_neg Bool.false_ne_true, if_pos (hfits fd hv)]
          exact ⟨_, _, rfl, h⟩
  | unregister fd =>
      rw [apply]
      cases hv : invalidFd fd with
      | true => exact ⟨_, a, rfl, h⟩
      | false =>
          rw [if_neg Bool.false_ne_true, if_pos (hfits fd hv)]
          split
          · exact ⟨_, a, rfl, h⟩
          · exact ⟨_, _, rfl, h⟩
  | setInterest fd i =>
      rw [apply]
      cases hv : invalidFd fd with
      | true => exact ⟨_, a, rfl, h⟩
      | false =>
          rw [if_neg Bool.false_ne_true, if_pos (hfits fd hv)]
          split
          · exact ⟨_, a, rfl, h⟩
          · exact ⟨_, _, rfl, h⟩

theorem perform_full (ops : List SelectorOp) : ∀ a : SizedTable, a.size = 1025 →
    ∃ rs a', Lib.perform SizedTable.apply ops a = some (rs, a') := by
  induction ops with
  | nil => exact fun a _ => ⟨[], a, rfl⟩
  | cons op ops ih =>
      intro a ha
      obtain ⟨r, a', hop, ha'⟩ := a.apply_full ha op
      obtain ⟨rs, a'', hrest⟩ := ih a' ha'
      exact ⟨r :: rs, a'', by simp [Lib.perform, hop, hrest]⟩

/-- No sequence of calls reaches behind the block if and only if room for 512
descriptors was asked for. -/
theorem selector_fits_iff {n : Nat} (h : n ≤ 1024) {t : FdSelector}
    (ht : FdSelector.selectorNew true n = some t) :
    (∀ ops : List SelectorOp, ∃ r, Lib.perform FdSelector.apply ops t = .ok r) ↔ 512 ≤ n := by
  obtain ⟨t', ht', hr⟩ := represents_new h
  cases ht.symm.trans ht'
  constructor
  · intro hall
    refine Nat.le_of_not_lt fun hn => ?_
    have hshort := nextCapacity_short hn
    -- the first descriptor behind the block is registered
    let ops : List SelectorOp := [.register none (nextCapacity n) .client opRead .null]
    have hv : invalidFd (nextCapacity n) = false := by
      have hmax : itemsMaxSize = 1024 := rfl
      rw [invalidFd, Bool.or_eq_false_iff, decide_eq_false_iff_not, decide_eq_false_iff_not]
      omega
    have hout : Lib.perform SizedTable.apply ops ⟨nextCapacity n, selectorNew⟩ = none := by
      simp [ops, Lib.perform, SizedTable.apply, hv]
    have hagrees := represents_refines.perform ops hr
    rw [hout] at hagrees
    obtain ⟨e, he⟩ := hagrees
    obtain ⟨r, hops⟩ := hall ops
    cases he.symm.trans hops
  · intro hn ops
    obtain ⟨rs, a', hfull⟩ := perform_full ops ⟨nextCapacity n, selectorNew⟩ (nextCapacity_full hn)
    have hagrees := represents_refines.perform ops hr
    rw [hfull] at hagrees
    obtain ⟨t', hok, _⟩ := hagrees
    exact ⟨_, hok⟩

/-- The block of a selector for eight is reached behind. -/
theorem selector_fits_iff_eight : ∃ (t : FdSelector) (ops : List SelectorOp),
    FdSelector.selectorNew true 8 = some t ∧ ¬ ∃ r, Lib.perform FdSelector.apply ops t = .ok r := by
  obtain ⟨t, ht, _⟩ := represents_new (show 8 ≤ 1024 by omega)
  have hnot : ¬ ∀ ops : List SelectorOp, ∃ r, Lib.perform FdSelector.apply ops t = .ok r :=
    fun hall => absurd ((selector_fits_iff (by omega) ht).mp hall) (by omega)
  obtain ⟨ops, hops⟩ := Classical.not_forall.mp hnot
  exact ⟨t, ops, ht, hops⟩

/-! ## The selector of the daemon -/

/-- A relation between the tables before and after some calls. -/
structure CallStable (R : Selector → Selector → Prop) : Prop where
  refl : ∀ s, R s s
  trans : ∀ {s s' s''}, R s s' → R s' s'' → R s s''
  register : ∀ (s : Selector) (fd : Int) (handler : FdHandler) (interest : Interest)
    (data : Attachment), R s (s.register fd handler interest data).2
  clear : ∀ (s : Selector) (fd : Int) (item : Item), s.fds fd = some item → R s (s.clear fd)
  setInterest : ∀ (s : Selector) (fd : Int) (i : Interest), R s (s.setInterest fd i)

/-- A close handler leaves the table to its caller. -/
theorem handleClose_sel {x x' : Ctx} {h : FdHandler} {key : SelectorKey}
    (hr : handleClose h key x = .ok x') : x'.id = x.id ∧ x'.world.sel = x.world.sel := by
  cases h with
  | client =>
      have hr' : proxyClientClose key x = .ok x' := hr
      unfold proxyClientClose at hr'
      split at hr'
      · split at hr'
        · split at hr'
          · cases hr'
          · cases hr'
            exact ⟨rfl, rfl⟩
        · split at hr'
          · cases hr'
            exact ⟨rfl, rfl⟩
          · cases hr'
      · cases hr'
  | origin | management =>
      cases hr
      exact ⟨rfl, rfl⟩
  | proxy | logger =>
      cases hr
      exact ⟨rfl, rfl⟩

/-- A relation between the worlds before and after some operations of the
daemon. -/
structure WorldStable (R : World → World → Prop) : Prop where
  refl : ∀ w, R w w
  trans : ∀ {w w' w''}, R w w' → R w' w'' → R w w''
  handler : ∀ env, Stable env fun x x' => R x.world x'.world
  setCell : ∀ (w : World) (id : Nat) (cell : Cell), R w (w.setCell id cell)
  accept : ∀ (env : Env) (w : World), R w (acceptNewConnection env w)
  manage : ∀ (w : World) (m : Management) (s : Settings),
    R w { w with management := m, settings := s }

namespace WorldStable

variable {R : World → World → Prop} (hR : WorldStable R)
include hR

theorem behalf {w : World} {id : Nat} {f : Ctx → Except Fault Ctx}
    (hf : ∀ x, Respects (fun x x' => R x.world x'.world) x (f x)) :
    Lib.Returns (onBehalfOf w id f) (R w) := by
  unfold onBehalfOf
  split
  · refine Lib.returns_bind (hf _) fun x hx => Lib.returns_ok ?_
    exact hR.trans hx (hR.setCell x.world x.id _)
  · exact Lib.returns_error _

theorem read {w : World} {env : Env} {fd : Int} {it : Item} :
    Lib.Returns (handleRead env fd it w) (R w) := by
  unfold handleRead
  split
  · exact Lib.returns_ok (hR.accept env w)
  · exact Lib.returns_ok (hR.manage w _ _)
  · exact hR.behalf fun x => proxyClientRead_respects (hR.handler env) _
  · exact hR.behalf fun x => proxyOriginRead_respects (hR.handler env) _
  · exact Lib.returns_error _
  · exact Lib.returns_error _
  · exact Lib.returns_error _

theorem write {w : World} {env : Env} {it : Item} :
    Lib.Returns (handleWrite env it w) (R w) := by
  unfold handleWrite
  split
  · exact Lib.returns_error _
  · exact Lib.returns_error _
  · exact hR.behalf fun x => proxyClientWrite_respects (hR.handler env)
  · exact hR.behalf fun x => proxyOriginWrite_respects (hR.handler env)
  · exact Lib.returns_error _
  · exact Lib.returns_error _
  · exact Lib.returns_ok (hR.refl w)

theorem readable {w w' : World} {fd : Int} {env : Env}
    (h : step w (.readable fd env) = .ok w') : R w w' := by
  rw [step] at h
  split at h
  · split at h
    · exact hR.read w' h
    · cases h
      exact hR.refl w
  · cases h
    exact hR.refl w

theorem writable {w w' : World} {fd : Int} {env : Env}
    (h : step w (.writable fd env) = .ok w') : R w w' := by
  rw [step] at h
  split at h
  · split at h
    · exact hR.write w' h
    · cases h
      exact hR.refl w
  · cases h
    exact hR.refl w

theorem sweep (is : List Nat) :
    ∀ w : World, Lib.Returns (runGarbageCollector is w) (R w) := by
  induction is with
  | nil => exact fun w => Lib.returns_ok (hR.refl w)
  | cons i is ih =>
      intro w
      have hcollect : Lib.Returns (collect (i : Int) w) (R w) := by
        unfold collect
        split
        · split
          · exact Lib.returns_ok (hR.refl w)
          · exact hR.behalf fun x => connectionGarbageCollect_respects (hR.handler Env.silent) _
        · exact Lib.returns_ok (hR.refl w)
      exact Lib.returns_bind hcollect fun u hu =>
        Lib.Returns.mono (ih u) fun v hv => hR.trans hu hv

end WorldStable

section

variable {R : Selector → Selector → Prop} (hR : CallStable R)
include hR

/-- The daemon touches the table by calls only. -/
theorem CallStable.world : WorldStable fun w w' => R w.sel w'.sel where
  refl w := hR.refl w.sel
  trans h h' := hR.trans h h'
  handler _ :=
    { refl := fun x => hR.refl _
      trans := fun h h' => hR.trans h h'
      setConn := fun _ => hR.refl _
      setMetrics := fun _ _ => hR.refl _
      setInterest := fun x fd i => hR.setInterest x.world.sel fd i
      asked := fun _ => hR.refl _
      opened := fun _ _ _ _ _ => hR.refl _
      registered := fun x =>
        hR.register x.world.sel x.conn.originFd .origin opWrite (.connection x.id)
      unregistered := fun x x' fd item hf hr => by
        have hsel := (handleClose_sel hr).2
        have hclear := hR.clear x.world.sel fd item hf
        rw [← hsel] at hclear
        exact hsel ▸ hclear }
  setCell w _ _ := hR.refl w.sel
  accept env w := by
    unfold acceptNewConnection
    split
    · exact hR.refl _
    · next fd _ =>
        split
        · have hreg := hR.register w.sel fd .client opRead (.connection w.nextConn)
          simp only
          split
          · next s hs =>
              rw [hs] at hreg
              exact hreg
          · exact hR.refl _
        · exact hR.refl _
  manage w _ _ := hR.refl w.sel

theorem CallStable.step {w w' : World} {e : Event} (h : HttpdProxy.step w e = .ok w') :
    R w.sel w'.sel := by
  cases e with
  | readable fd env => exact hR.world.readable h
  | writable fd env => exact hR.world.writable h
  | garbageCollect =>
      rw [HttpdProxy.step] at h
      split at h
      · have hsweep := hR.world.sweep _ _ w' h
        exact hsweep
      · cases h
        exact hR.refl _
  | tick seconds =>
      cases h
      exact hR.refl _

end

/-! ## The calls of the daemon, and those of the logger between them -/

/-- A call on the table of the daemon. -/
def Selector.call (s : Selector) : SelectorCall → SelectorCode × Selector
  | .register fd handler interest data =>
      let (ret, s) := s.register fd handler interest data
      (ret.code, s)
  | .unregister fd =>
      match s.fds fd with
      | none => (.iargs, s)
      | some _ => (.success, s.clear fd)
  | .setInterest fd i =>
      match s.fds fd with
      | none => (.iargs, s)
      | some _ => (.success, s.setInterest fd i)

/-- A call on the block, which has room and need not allocate. -/
def SelectorCall.op : SelectorCall → SelectorOp
  | .register fd handler interest data => .register none fd handler interest data
  | .unregister fd => .unregister fd
  | .setInterest fd i => .setInterest fd i

/-- In a block of full size a call does what it does to the table. -/
theorem SizedTable.apply_call (s : Selector) (call : SelectorCall) : ∃ closed,
    SizedTable.apply ⟨1025, s⟩ call.op
      = some (((s.call call).1, closed), ⟨1025, (s.call call).2⟩) := by
  have hunused : ∀ fd, invalidFd fd = true → s.fds fd = none := by
    intro fd hv
    cases hf : s.fds fd with
    | none => rfl
    | some it => cases hv.symm.trans (s.valid_of_used hf)
  have hfits : ∀ fd, invalidFd fd = false → fd.toNat < 1025 := fun fd hv => by
    have hlt := (invalidFd_false hv).2
    omega
  cases call with
  | register fd handler interest data =>
      cases hv : invalidFd fd with
      | true =>
          have hreg : s.register fd handler interest data = (.iargs, s) := dif_pos hv
          exact ⟨none, by simp [SelectorCall.op, SizedTable.apply, Selector.call, hv, hreg,
            SelectorStatus.code]⟩
      | false =>
          exact ⟨none, by simp [SelectorCall.op, SizedTable.apply, SizedTable.enter,
            Selector.call, hv, hfits fd hv]⟩
  | unregister fd =>
      cases hf : s.fds fd with
      | none =>
          cases hv : invalidFd fd with
          | true => exact ⟨none, by simp [SelectorCall.op, SizedTable.apply, Selector.call, hv, hf]⟩
          | false =>
              exact ⟨none, by simp [SelectorCall.op, SizedTable.apply, Selector.call, hv, hf,
                hfits fd hv]⟩
      | some item =>
          have hv := s.valid_of_used hf
          exact ⟨some item, by simp [SelectorCall.op, SizedTable.apply, Selector.call, hv, hf,
            hfits fd hv]⟩
  | setInterest fd i =>
      cases hf : s.fds fd with
      | none =>
          cases hv : invalidFd fd with
          | true => exact ⟨none, by simp [SelectorCall.op, SizedTable.apply, Selector.call, hv, hf]⟩
          | false =>
              exact ⟨none, by simp [SelectorCall.op, SizedTable.apply, Selector.call, hv, hf,
                hfits fd hv]⟩
      | some item =>
          have hv := s.valid_of_used hf
          exact ⟨none, by simp [SelectorCall.op, SizedTable.apply, Selector.call, hv, hf,
            hfits fd hv]⟩

/-- The calls a table has seen, made one after another, each successful. -/
inductive Made (s : Selector) : List SelectorCall → Selector → Prop where
  | nil : Made s [] s
  | call {calls : List SelectorCall} {t : Selector} {call : SelectorCall} :
      Made s calls t → (t.call call).1 = .success → Made s (calls ++ [call]) (t.call call).2

/-- The calls that the table lists lead to it. -/
def Accounted (s : Selector) : Prop := Made selectorNew s.calls s

theorem accounted_stable : CallStable fun s s' => Accounted s → Accounted s' where
  refl _ := id
  trans h h' := h' ∘ h
  register s fd handler interest data h := by
    rcases Decidable.em (invalidFd fd = true) with hv | hv
    · rw [show s.register fd handler interest data = (.iargs, s) from dif_pos hv]
      exact h
    · cases hf : s.fds fd with
      | some it =>
          rw [show s.register fd handler interest data = (.fdinuse, s) by
            unfold Selector.register
            rw [dif_neg hv, hf]]
          exact h
      | none =>
          have hdone : (s.call (.register fd handler interest data)).1 = .success := by
            simp [Selector.call, Selector.register, hv, hf, SelectorStatus.code]
          have hmade := h.call hdone
          have hcalls : (s.register fd handler interest data).2.calls
              = s.calls ++ [.register fd handler interest data] := by
            simp [Selector.register, hv, hf]
          rw [Accounted, hcalls]
          exact hmade
  clear s fd item hf h := by
    have hcall : s.call (.unregister fd) = (.success, s.clear fd) := by
      simp [Selector.call, hf]
    have hmade := @Made.call _ _ _ (.unregister fd) h (by rw [hcall])
    rw [hcall] at hmade
    exact hmade
  setInterest s fd i h := by
    cases hf : s.fds fd with
    | none =>
        have hsame : s.setInterest fd i = s := by
          unfold Selector.setInterest
          split
          · rfl
          · next it h => cases hf.symm.trans h
        rw [hsame]
        exact h
    | some item =>
        have hcall : s.call (.setInterest fd i) = (.success, s.setInterest fd i) := by
          simp [Selector.call, hf]
        have hmade := @Made.call _ _ _ (.setInterest fd i) h (by rw [hcall])
        rw [hcall] at hmade
        have hcalls : (s.setInterest fd i).calls = s.calls ++ [.setInterest fd i] := by
          unfold Selector.setInterest
          split
          · next h => cases hf.symm.trans h
          · rfl
        rw [Accounted, hcalls]
        exact hmade

theorem accounted_config (cfg : Config) : Accounted cfg.selector := by
  have hall : ∀ (ls : List (Int × FdHandler × Attachment)) (s : Selector), Accounted s →
      Accounted (ls.foldl
        (fun s l => (s.register l.1 l.2.1 (if l.2.1 = .logger then opNoop else opRead)
          l.2.2).2) s) := by
    intro ls
    induction ls with
    | nil => exact fun s hs => hs
    | cons l ls ih => exact fun s hs => ih _ (accounted_stable.register s _ _ _ _ hs)
  exact hall cfg.listeners selectorNew .nil

/-- A call of the daemon, or one of its logger, which says what an output is
waited for. -/
inductive MemoryCall where
  | daemon (call : SelectorCall)
  | logger (output : OutputFd) (i : Interest)

def MemoryCall.call : MemoryCall → SelectorCall
  | .daemon call => call
  | .logger output i => .setInterest output.num i

def MemoryCall.op (call : MemoryCall) : SelectorOp := call.call.op

/-- Two tables that differ in the interests of the standard outputs alone. -/
structure AlikeBut (s s' : Selector) : Prop where
  maxFd : s.maxFd = s'.maxFd
  item : ∀ fd, fd ≠ 1 → fd ≠ 2 → s.fds fd = s'.fds fd
  output : ∀ fd, (s.fds fd).map (fun it => (it.handler, it.data))
    = (s'.fds fd).map fun it => (it.handler, it.data)

namespace AlikeBut

variable {s s' : Selector}

theorem refl (s : Selector) : AlikeBut s s := ⟨rfl, fun _ _ _ => rfl, fun _ => rfl⟩

theorem symm (h : AlikeBut s s') : AlikeBut s' s :=
  ⟨h.maxFd.symm, fun fd h1 h2 => (h.item fd h1 h2).symm, fun fd => (h.output fd).symm⟩

theorem used (h : AlikeBut s s') (fd : Int) : (s.fds fd).isSome = (s'.fds fd).isSome := by
  have hmap := congrArg Option.isSome (h.output fd)
  rwa [Option.isSome_map, Option.isSome_map] at hmap

theorem unused (h : AlikeBut s s') {fd : Int} (hf : s.fds fd = none) : s'.fds fd = none := by
  have hu := h.used fd
  rw [hf] at hu
  exact Option.not_isSome_iff_eq_none.mp fun hs => by rw [hs] at hu; cases hu

/-- The same item goes into both, or out of both. -/
theorem replaced (h : AlikeBut s s') (fd : Int) (it : Option Item) :
    (∀ f, f ≠ 1 → f ≠ 2 → setFd s.fds fd it f = setFd s'.fds fd it f) ∧
      ∀ f, (setFd s.fds fd it f).map (fun it => (it.handler, it.data))
        = (setFd s'.fds fd it f).map fun it => (it.handler, it.data) := by
  constructor
  · intro f h1 h2
    unfold setFd
    split
    · rfl
    · exact h.item f h1 h2
  · intro f
    unfold setFd
    split
    · rfl
    · exact h.output f

end AlikeBut

theorem itemsMaxFd_congr {fds fds' : Int → Option Item}
    (h : ∀ fd, (fds fd).isSome = (fds' fd).isSome) (n : Nat) :
    itemsMaxFd fds n = itemsMaxFd fds' n := by
  induction n with
  | zero => rfl
  | succ n ih => rw [itemsMaxFd, itemsMaxFd, h, ih]

/-- A call of the daemon returns the same on both, and does the same to both. -/
theorem AlikeBut.call {s s' : Selector} (h : AlikeBut s s') (call : SelectorCall) :
    (s.call call).1 = (s'.call call).1 ∧ AlikeBut (s.call call).2 (s'.call call).2 := by
  cases call with
  | register fd handler interest data =>
      by_cases hv : invalidFd fd = true
      · have hreg : ∀ u : Selector, u.call (.register fd handler interest data) = (.iargs, u) := by
          intro u
          simp [Selector.call, Selector.register, hv, SelectorStatus.code]
        rw [hreg s, hreg s']
        exact ⟨rfl, h⟩
      cases hf' : s'.fds fd with
      | some it' =>
          obtain ⟨it, hf⟩ := Option.isSome_iff_exists.mp ((h.used fd).trans (by rw [hf']; rfl))
          have hreg : ∀ (u : Selector) (it : Item), u.fds fd = some it →
              u.call (.register fd handler interest data) = (.fdinuse, u) := by
            intro u it hu
            simp [Selector.call, u.register_taken (by simpa using hv) hu, SelectorStatus.code]
          rw [hreg s it hf, hreg s' it' hf']
          exact ⟨rfl, h⟩
      | none =>
          have hf := h.symm.unused hf'
          obtain ⟨hitem, houtput⟩ := h.replaced fd (some ⟨interest, handler, data⟩)
          have hreg : ∀ u : Selector, u.fds fd = none →
              (u.call (.register fd handler interest data)).1 = .success ∧
                (u.call (.register fd handler interest data)).2.maxFd = max u.maxFd fd.toNat ∧
                (u.call (.register fd handler interest data)).2.fds
                  = setFd u.fds fd (some ⟨interest, handler, data⟩) := by
            intro u hu
            simp [Selector.call, Selector.register, hv, hu, SelectorStatus.code]
          obtain ⟨hdone, hmax, hfds⟩ := hreg s hf
          obtain ⟨hdone', hmax', hfds'⟩ := hreg s' hf'
          refine ⟨hdone.trans hdone'.symm, ?_, ?_, ?_⟩
          · rw [hmax, hmax', h.maxFd]
          · rw [hfds, hfds']
            exact hitem
          · rw [hfds, hfds']
            exact houtput
  | unregister fd =>
      cases hf' : s'.fds fd with
      | none =>
          have hf := h.symm.unused hf'
          simp only [Selector.call, hf, hf']
          exact ⟨trivial, h⟩
      | some it' =>
          obtain ⟨it, hf⟩ := Option.isSome_iff_exists.mp ((h.used fd).trans (by rw [hf']; rfl))
          obtain ⟨hitem, houtput⟩ := h.replaced fd none
          simp only [Selector.call, hf, hf']
          refine ⟨trivial, ?_, hitem, houtput⟩
          have hused : ∀ f, (setFd s.fds fd none f).isSome = (setFd s'.fds fd none f).isSome := by
            intro f
            have hmap := congrArg Option.isSome (houtput f)
            rwa [Option.isSome_map, Option.isSome_map] at hmap
          show itemsMaxFd (setFd s.fds fd none) s.maxFd = itemsMaxFd (setFd s'.fds fd none) s'.maxFd
          rw [itemsMaxFd_congr hused, h.maxFd]
  | setInterest fd i =>
      cases hf' : s'.fds fd with
      | none =>
          have hf := h.symm.unused hf'
          simp only [Selector.call, hf, hf']
          exact ⟨trivial, h⟩
      | some it' =>
          obtain ⟨it, hf⟩ := Option.isSome_iff_exists.mp ((h.used fd).trans (by rw [hf']; rfl))
          have hfds := s.setInterest_fds fd i
          have hfds' := s'.setInterest_fds fd i
          rw [hf, Option.map_some] at hfds
          rw [hf', Option.map_some] at hfds'
          simp only [Selector.call, hf, hf']
          refine ⟨trivial, ?_, fun f h1 h2 => ?_, fun f => ?_⟩
          · rw [Selector.setInterest_maxFd, Selector.setInterest_maxFd, h.maxFd]
          · rw [hfds, hfds']
            by_cases hne : f = fd
            · subst hne
              have hsame := h.item f h1 h2
              rw [hf, hf'] at hsame
              cases hsame
              rw [setFd_self, setFd_self]
            · rw [setFd_of_ne hne, setFd_of_ne hne]
              exact h.item f h1 h2
          · rw [hfds, hfds']
            by_cases hne : f = fd
            · subst hne
              have hsame := h.output f
              rw [hf, hf'] at hsame
              rw [setFd_self, setFd_self]
              exact hsame
            · rw [setFd_of_ne hne, setFd_of_ne hne]
              exact h.output f

/-- And one of the logger leaves them alike. -/
theorem AlikeBut.logger {s s' : Selector} (h : AlikeBut s s') (output : OutputFd)
    (i : Interest) : AlikeBut (s.call (MemoryCall.logger output i).call).2 s' := by
  have hfd : output.num = 1 ∨ output.num = 2 := by
    cases output with
    | stdoutFileno => exact .inl rfl
    | stderrFileno => exact .inr rfl
  rw [MemoryCall.call]
  cases hf : s.fds output.num with
  | none =>
      simp only [Selector.call, hf]
      exact h
  | some it =>
      have hfds := s.setInterest_fds output.num i
      rw [hf, Option.map_some] at hfds
      simp only [Selector.call, hf]
      refine ⟨?_, fun f h1 h2 => ?_, fun f => ?_⟩
      · rw [Selector.setInterest_maxFd, h.maxFd]
      · have hne : f ≠ output.num := by
          rintro rfl
          exact hfd.elim h1 h2
        rw [hfds, setFd_of_ne hne]
        exact h.item f h1 h2
      · rw [hfds]
        by_cases hne : f = output.num
        · subst hne
          rw [setFd_self, ← h.output output.num, hf]
          rfl
        · rw [setFd_of_ne hne]
          exact h.output f

/-- The table the daemon means its calls for, which the logger's pass by: what
it answers to each of the others, and what becomes of it. -/
def Selector.answers : List MemoryCall → Selector → List (Option SelectorCode) × Selector
  | [], s => ([], s)
  | .daemon call :: calls, s =>
      let (code, s) := s.call call
      let (codes, t) := answers calls s
      (some code :: codes, t)
  | .logger _ _ :: calls, s =>
      let (codes, t) := answers calls s
      (none :: codes, t)

/-- The calls of the logger, in between, disturb none of the others. -/
theorem perform_interleaved (calls : List MemoryCall) : ∀ {s t : Selector}, AlikeBut s t →
    ∃ rs s', Lib.perform SizedTable.apply (calls.map MemoryCall.op) ⟨1025, s⟩
        = some (rs, ⟨1025, s'⟩) ∧
      List.Forall₂ (fun answer r => ∀ code ∈ answer, r.1 = code) (t.answers calls).1 rs ∧
      AlikeBut s' (t.answers calls).2 := by
  induction calls with
  | nil => exact fun {s t} h => ⟨[], s, rfl, .nil, h⟩
  | cons call calls ih =>
      intro s t h
      obtain ⟨closed, hop⟩ := SizedTable.apply_call s call.call
      -- the rest, from tables that are alike after the call
      have hrest : ∀ {t' : Selector} {answer : Option SelectorCode},
          AlikeBut (s.call call.call).2 t' → (∀ code ∈ answer, (s.call call.call).1 = code) →
          ∃ rs s', Lib.perform SizedTable.apply ((call :: calls).map MemoryCall.op) ⟨1025, s⟩
              = some (rs, ⟨1025, s'⟩) ∧
            List.Forall₂ (fun answer r => ∀ code ∈ answer, r.1 = code)
              (answer :: (t'.answers calls).1) rs ∧
            AlikeBut s' (t'.answers calls).2 := by
        intro t' answer halike hanswer
        obtain ⟨rs, s', hrun, hall, halike'⟩ := ih halike
        refine ⟨((s.call call.call).1, closed) :: rs, s', ?_, .cons hanswer hall, halike'⟩
        simp [Lib.perform, MemoryCall.op, hop, hrun]
      cases call with
      | daemon call =>
          obtain ⟨hcode, halike⟩ := h.call call
          exact hrest halike fun code hn => hcode.trans (Option.some.inj hn)
      | logger output i => exact hrest (h.logger output i) fun _ hn => by cases hn

theorem Accounted.call {s : Selector} (h : Accounted s) (call : SelectorCall) :
    Accounted (s.call call).2 := by
  cases call with
  | register fd handler interest data => exact accounted_stable.register s _ _ _ _ h
  | unregister fd =>
      cases hf : s.fds fd with
      | none =>
          simp only [Selector.call, hf]
          exact h
      | some it =>
          simp only [Selector.call, hf]
          exact accounted_stable.clear s fd it hf h
  | setInterest fd i =>
      cases hf : s.fds fd with
      | none =>
          simp only [Selector.call, hf]
          exact h
      | some it =>
          simp only [Selector.call, hf]
          exact accounted_stable.setInterest s fd i h

theorem Accounted.answers (calls : List MemoryCall) : ∀ {s : Selector}, Accounted s →
    Accounted (s.answers calls).2 := by
  induction calls with
  | nil => exact fun h => h
  | cons call calls ih =>
      intro s h
      cases call with
      | daemon call => exact ih (h.call call)
      | logger output i => exact ih h

theorem Selector.answers_append (calls calls' : List MemoryCall) (s : Selector) :
    (s.answers (calls ++ calls')).2 = ((s.answers calls).2.answers calls').2 := by
  induction calls generalizing s with
  | nil => rfl
  | cons call calls ih =>
      cases call with
      | daemon call => exact ih _
      | logger output i => exact ih s

/-- The calls listed, made one after another, lead to the table, and to no
other. -/
theorem Made.answers {s t : Selector} {calls : List SelectorCall} (h : Made s calls t) :
    (s.answers (calls.map .daemon)).2 = t := by
  induction h with
  | nil => rfl
  | call h _ ih =>
      rw [List.map_append, Selector.answers_append, ih]
      rfl

/-- In every run of the daemon, whatever descriptors its handlers work on: let
`calls` be what they called, with the calls that failed and those the logger
made for the standard outputs in between. None reaches behind the block of
memory, each of the daemon's returns there what its table says, and the items,
the last descriptor and both sets for `select` are at any time what the
selector of the world says, but for what the outputs are waited for. -/
theorem selector_in_memory {cfg : Config} {es : List Event} {w : World}
    (h : Lib.Runs step (initWorld cfg) es w) {calls : List MemoryCall}
    (hcalls : (selectorNew.answers calls).2.calls = w.sel.calls) :
    ∃ t rs t' s, FdSelector.selectorNew true 1024 = some t ∧
      Lib.perform FdSelector.apply (calls.map MemoryCall.op) t = .ok (rs, t') ∧
      List.Forall₂ (fun answer r => ∀ code ∈ answer, r.1 = code)
        (selectorNew.answers calls).1 rs ∧
      Represents t' ⟨1025, s⟩ ∧ AlikeBut s w.sel := by
  have hmade : Accounted w.sel :=
    h.invariant (I := fun w => Accounted w.sel)
      (fun _ _ _ hc hs => accounted_stable.step hs hc) (accounted_config cfg)
  have hanswers : Accounted (selectorNew.answers calls).2 := Accounted.answers calls .nil
  have hsel : (selectorNew.answers calls).2 = w.sel := by
    rw [Accounted, hcalls] at hanswers
    exact hanswers.answers.symm.trans (Made.answers hmade)
  obtain ⟨rs, s, hops, hall, halike⟩ := perform_interleaved calls (.refl selectorNew)
  obtain ⟨t, ht, hr⟩ := represents_new (Nat.le_refl 1024)
  have hfull : nextCapacity 1024 = 1025 := nextCapacity_full (by omega)
  rw [hfull] at hr
  have hagrees := represents_refines.perform (calls.map MemoryCall.op) hr
  rw [hops] at hagrees
  obtain ⟨t', hok, hr'⟩ := hagrees
  exact ⟨t, rs, t', s, ht, hok, hall, hr', hsel ▸ halike⟩

/-- A daemon with a logger. -/
def logging : Config where
  listeners := [(1, .logger, .logBuffer), (2, .logger, .logBuffer), (3, .proxy, .null)]
  held := fun _ => false
  no_connection := by simp
  dohUtils := loopback.dohUtils
  disectorsEnabled := false

/-- What is called until a client is accepted. The logger waits for an output,
and one call is of a number nobody has registered. -/
def acceptingCalls : List MemoryCall :=
  [.daemon (.register 1 .logger opNoop .logBuffer),
    .daemon (.register 2 .logger opNoop .logBuffer),
    .daemon (.register 3 .proxy opRead .null), .logger .stdoutFileno opWrite,
    .daemon (.setInterest 9 opRead), .daemon (.register 5 .client opRead (.connection 0))]

/-- The item of the client is in the block. -/
theorem selector_in_memory_client : ∃ (w : World) (t : FdSelector),
    w.sel.calls = [.register 1 .logger opNoop .logBuffer, .register 2 .logger opNoop .logBuffer,
      .register 3 .proxy opRead .null, .register 5 .client opRead (.connection 0)] ∧
    (∃ t₀ rs, FdSelector.selectorNew true 1024 = some t₀ ∧
      Lib.perform FdSelector.apply (acceptingCalls.map MemoryCall.op) t₀ = .ok (rs, t)) ∧
    t.fds[5]? = some ⟨5, opRead, some .client, .connection 0⟩ ∧ t.masterR 5 = true := by
  have hcheck : ((Lib.runChecked step (fun _ _ => true)
      [.readable 3 { Env.silent with accept := some 5 }] (initWorld logging)).any fun w =>
        w.sel.fds 5 == some ⟨opRead, .client, .connection 0⟩ &&
        w.sel.calls == [.register 1 .logger opNoop .logBuffer,
          .register 2 .logger opNoop .logBuffer, .register 3 .proxy opRead .null,
          .register 5 .client opRead (.connection 0)]) = true := by decide +kernel
  obtain ⟨w, hrun, hp⟩ := Lib.exists_runs hcheck
  rw [Bool.and_eq_true, beq_iff_eq, beq_iff_eq] at hp
  obtain ⟨hf, hcalls⟩ := hp
  have hmade : (selectorNew.answers acceptingCalls).2.calls = w.sel.calls := by
    rw [hcalls]
    decide +kernel
  obtain ⟨t₀, rs, t, s, ht₀, hok, _, hr, halike⟩ := selector_in_memory hrun hmade
  have hs : s.fds 5 = some ⟨opRead, .client, .connection 0⟩ :=
    (halike.item 5 (by decide) (by decide)).trans hf
  have hsize : t.fds.length = 1025 := hr.size
  have hlt : 5 < t.fds.length := by omega
  have hget : t.fds[5]? = some t.fds[5] := List.getElem?_eq_getElem hlt
  have his := hr.mirrors 5 _ hget
  have hread := hr.read 5
  have hs' : s.fds (5 : Nat) = some ⟨opRead, .client, .connection 0⟩ := hs
  rw [hs'] at his
  rw [hs] at hread
  exact ⟨w, t, hcalls, ⟨t₀, rs, ht₀, hok⟩, hget.trans (congrArg some his), hread⟩

end HttpdProxy
