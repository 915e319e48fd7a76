import HttpdProxy.Daemon.Selector
import HttpdProxy.Utils.Buffer

/-!
# `selector.c`: the jump table and the sets for `select`

`fdselector` keeps its items in a block of memory that is indexed by descriptor
and grows, and beside it the two sets of descriptors that `select` is given.
Every access to the block is checked here; one outside it is the fault
`outOfBounds`. The threads and their blocking jobs are left out, as nothing in
the daemon notifies a block.
-/

namespace HttpdProxy

/-- `selector_status`. -/
inductive SelectorCode where
  | success
  | enomem
  | maxfd
  | iargs
  | io
  | fdinuse
  deriving DecidableEq, Repr

/-- `struct item`. -/
structure FdItem where
  fd : Int
  interest : Interest
  handler : Option FdHandler
  data : Attachment
  deriving DecidableEq, Repr

/-- `FD_UNUSED`. -/
def fdUnused : Int := -1

/-- `ITEM_USED`. -/
def FdItem.used (item : FdItem) : Bool := fdUnused != item.fd

/-- What `calloc` and `memset` leave. -/
def FdItem.zero : FdItem := ⟨0, opNoop, none, .null⟩

/-- `item_init`. -/
def itemInit (item : FdItem) : FdItem := { item with fd := fdUnused }

/-- `fd_set`. -/
abbrev FdSet : Type := Int → Bool

def fdClr (fd : Int) (set : FdSet) : FdSet := fun f => if f = fd then false else set f

def fdSet (fd : Int) (set : FdSet) : FdSet := fun f => if f = fd then true else set f

/-- The loop of `next_capacity`: the bits of a number. -/
def bitsOf (tmp bits : Nat) : Nat :=
  if tmp = 0 then bits else bitsOf (tmp >>> 1) (bits + 1)
termination_by tmp
decreasing_by
  rw [Nat.shiftRight_eq_div_pow]
  omega

/-- `ITEMS_MAX_SIZE`, as a number of items. -/
def itemsMaxCount : Nat := itemsMaxSize.toNat

/-- `next_capacity`. -/
def nextCapacity (n : Nat) : Nat :=
  let tmp := 1 <<< bitsOf n 0
  let tmp := if tmp > itemsMaxCount then itemsMaxCount else tmp
  tmp + 1

/-- `struct fdselector`; `fd_size` is the length of the block, and `NULL` the
empty one. -/
structure FdSelector where
  fds : List FdItem
  maxFd : Nat
  masterR : FdSet
  masterW : FdSet

namespace FdSelector

/-- `s->fds + i`, read. -/
def item (s : FdSelector) (i : Nat) : Except Fault FdItem :=
  match s.fds[i]? with
  | none => .error .outOfBounds
  | some item => .ok item

/-- `s->fds + i`, written. -/
def putItem (s : FdSelector) (i : Nat) (item : FdItem) : FdSelector :=
  { s with fds := s.fds.set i item }

/-- `items_max_fd`. -/
def itemsMaxFd (s : FdSelector) : Except Fault Nat :=
  (List.range (s.maxFd + 1)).foldlM
    (fun max i => do
      let item ← s.item i
      .ok (if item.used && item.fd > max then item.fd.toNat else max))
    0

/-- `items_update_fdset_for_fd`. -/
def itemsUpdateFdsetForFd (s : FdSelector) (item : FdItem) : Except Fault FdSelector :=
  -- a bit outside the sets is no memory of theirs
  if invalidFd item.fd then .error .outOfBounds
  else
    let r := fdClr item.fd s.masterR
    let w := fdClr item.fd s.masterW
    if item.used then
      let r := if item.interest.read then fdSet item.fd r else r
      let w := if item.interest.write then fdSet item.fd w else w
      .ok { s with masterR := r, masterW := w }
    else .ok { s with masterR := r, masterW := w }

/-- `ensure_capacity`: `mem` is what the allocation, if there is one, found in
the memory behind the old items. -/
def ensureCapacity (mem : Option (Nat → FdItem)) (s : FdSelector) (n : Nat) :
    SelectorCode × FdSelector :=
  if n < s.fds.length then (.success, s)
  else if n > itemsMaxCount then (.maxfd, s)
  else
    match mem with
    | none => (.enomem, s)
    | some mem =>
        let newSize := nextCapacity n
        let fresh := (List.range (newSize - s.fds.length)).map fun k =>
          itemInit (mem (s.fds.length + k))
        (.success, { s with fds := s.fds.take newSize ++ fresh })

/-- `selector_new`: `calloc` is the first allocation. -/
def selectorNew (calloc : Bool) (initialElements : Nat) : Option FdSelector :=
  let mem := if calloc then some fun _ => FdItem.zero else none
  match ensureCapacity mem ⟨[], 0, fun _ => false, fun _ => false⟩ initialElements with
  | (.success, s) => some s
  | _ => none

/-- The registration in `selector_register`, once there is room. -/
def enter (s : FdSelector) (fd : Int) (handler : FdHandler) (interest : Interest)
    (data : Attachment) : Except Fault (SelectorCode × FdSelector) := do
  let item ← s.item fd.toNat
  if item.used then .ok (.fdinuse, s)
  else
    let item : FdItem := ⟨fd, interest, some handler, data⟩
    let s := s.putItem fd.toNat item
    let s := { s with maxFd := if fd > s.maxFd then fd.toNat else s.maxFd }
    let s ← s.itemsUpdateFdsetForFd item
    .ok (.success, s)

/-- `selector_register`; `handler` is never null. -/
def selectorRegister (mem : Option (Nat → FdItem)) (s : FdSelector) (fd : Int)
    (handler : FdHandler) (interest : Interest) (data : Attachment) :
    Except Fault (SelectorCode × FdSelector) :=
  if invalidFd fd then .ok (.iargs, s)
  else
    let ufd := fd.toNat
    let (ret, s) := if ufd > s.fds.length then ensureCapacity mem s ufd else (.success, s)
    if ret ≠ .success then .ok (ret, s) else s.enter fd handler interest data

/-- `selector_unregister_fd`, with the item whose `handle_close` it calls. No
close handler of the daemon comes back to the table. -/
def selectorUnregisterFd (s : FdSelector) (fd : Int) :
    Except Fault ((SelectorCode × Option Item) × FdSelector) :=
  if invalidFd fd then .ok ((.iargs, none), s)
  else do
    let item ← s.item fd.toNat
    if !item.used then .ok ((.iargs, none), s)
    else
      match item.handler with
      | none => .error .nullDeref
      | some handler =>
          let closed : Item := ⟨item.interest, handler, item.data⟩
          let item := { item with interest := opNoop }
          let s ← (s.putItem fd.toNat item).itemsUpdateFdsetForFd item
          let s := s.putItem fd.toNat (itemInit .zero)
          let maxFd ← s.itemsMaxFd
          .ok ((.success, some closed), { s with maxFd := maxFd })

/-- `selector_set_interest`. -/
def selectorSetInterest (s : FdSelector) (fd : Int) (i : Interest) :
    Except Fault (SelectorCode × FdSelector) :=
  if invalidFd fd then .ok (.iargs, s)
  else do
    let item ← s.item fd.toNat
    if !item.used then .ok (.iargs, s)
    else
      let item := { item with interest := i }
      let s ← (s.putItem fd.toNat item).itemsUpdateFdsetForFd item
      .ok (.success, s)

end FdSelector

/-- A call that changes the table; a registration may have to allocate. -/
inductive SelectorOp where
  | register (mem : Option (Nat → FdItem)) (fd : Int) (handler : FdHandler)
      (interest : Interest) (data : Attachment)
  | unregister (fd : Int)
  | setInterest (fd : Int) (i : Interest)

/-- What a call returns, and the item it closes. -/
abbrev SelectorResult : Type := SelectorCode × Option Item

/-- A call on the block of memory. -/
def FdSelector.apply (s : FdSelector) : SelectorOp → Except Fault (SelectorResult × FdSelector)
  | .register mem fd handler interest data => do
      let (ret, s) ← s.selectorRegister mem fd handler interest data
      .ok ((ret, none), s)
  | .unregister fd => s.selectorUnregisterFd fd
  | .setInterest fd i => do
      let (ret, s) ← s.selectorSetInterest fd i
      .ok ((ret, none), s)

end HttpdProxy
