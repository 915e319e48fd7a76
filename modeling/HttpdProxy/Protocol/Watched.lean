import HttpdProxy.Protocol.Moves

/-!
# Lives under a condition

What a connection keeps only while nothing untoward happens to it: a life all
of whose moves meet a condition `V`. The condition is on the move, so it can
speak of the record before a `read` and of what the `read` brought.
-/

namespace HttpdProxy

/-- The phases and records a connection can reach by moves that meet `V`. -/
inductive LifeWhen (d : DohUtils) (V : Mid → Mid → Prop) : Phase → Conn → Prop where
  | accepted (fd : Int) (size : UInt64) (now : Nat) (mem : Nat → UInt8) :
      LifeWhen d V .rest (createNewConnection fd size now mem)
  | move {ph ph' : Phase} {c c' : Conn} {m m' : Metrics} :
      LifeWhen d V ph c → Move d ⟨ph, c, m⟩ ⟨ph', c', m'⟩ →
      V ⟨ph, c, m⟩ ⟨ph', c', m'⟩ → LifeWhen d V ph' c'

/-- A read brings what `W` allows, on a socket that is not the other one. -/
def Watched (W : Conn → Act → Prop) (a b : Mid) : Prop :=
  a.phase = .rest → ∀ key, b.phase = .reading key →
    ∃ act, b.conn.trace = act :: a.conn.trace ∧ W a.conn act ∧
      (a.conn.stmState = .connected → a.conn.originFd ≠ a.conn.clientFd)

section

variable {d : DohUtils} {V : Mid → Mid → Prop} {ph : Phase} {c : Conn}

theorem LifeWhen.life (h : LifeWhen d V ph c) : Life d ph c := by
  induction h with
  | accepted fd size now mem => exact .accepted fd size now mem
  | move _ hm _ ih => exact .move ih hm

/-- The invariant rule of `Life`, with the condition at hand. -/
theorem LifeWhen.invariant {I : Phase → Conn → Prop}
    (hnew : ∀ fd size now mem, I .rest (createNewConnection fd size now mem))
    (hmove : ∀ ph c m ph' c' m', Life d ph c → I ph c →
      Move d ⟨ph, c, m⟩ ⟨ph', c', m'⟩ → V ⟨ph, c, m⟩ ⟨ph', c', m'⟩ → I ph' c')
    (h : LifeWhen d V ph c) : I ph c := by
  induction h with
  | accepted fd size now mem => exact hnew fd size now mem
  | move hl hm hv ih => exact hmove _ _ _ _ _ _ hl.life ih hm hv

end

end HttpdProxy
