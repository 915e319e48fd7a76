import HttpdProxy.Lib.Returns

/-!
# Refinement of a data structure

The operations of a structure give a result and a new structure, and may fail.
An abstract structure says what the results are to be, and which operations
must not be asked for: there it gives `none`. One operation is compared with
its abstract counterpart (`Agrees`), and from there every sequence of them
(`Refines.perform`): the results are the same up to the first operation that
must not be asked for, and there the structure fails.
-/

namespace HttpdProxy.Lib

universe u v
variable {ε σ α ω : Type u} {ι : Type v}

/-- A sequence of operations, and their results. -/
def perform {m : Type u → Type u} [Monad m] (op : σ → ι → m (ω × σ)) :
    List ι → σ → m (List ω × σ)
  | [], s => pure ([], s)
  | l :: ls, s => do
      let (o, s) ← op s l
      let (os, s) ← perform op ls s
      pure (o :: os, s)

/-- What was computed is what the abstract structure gives; where that gives
nothing, the computation failed. -/
def Agrees (R : σ → α → Prop) (c : Except ε (ω × σ)) : Option (ω × α) → Prop
  | none => ∃ e, c = .error e
  | some (o, a) => ∃ s, c = .ok (o, s) ∧ R s a

/-- Every operation does what the abstract one does. -/
def Refines (R : σ → α → Prop) (op : σ → ι → Except ε (ω × σ))
    (aop : α → ι → Option (ω × α)) : Prop :=
  ∀ s a l, R s a → Agrees R (op s l) (aop a l)

variable {R : σ → α → Prop} {op : σ → ι → Except ε (ω × σ)} {aop : α → ι → Option (ω × α)}

/-- And so does every sequence of operations. -/
theorem Refines.perform (h : Refines R op aop) (ls : List ι) :
    ∀ {s : σ} {a : α}, R s a →
      Agrees R (Lib.perform op ls s) (Lib.perform aop ls a) := by
  induction ls with
  | nil => exact fun hr => ⟨_, rfl, hr⟩
  | cons l ls ih =>
      intro s a hr
      have hop := h s a l hr
      cases ha : aop a l with
      | none =>
          rw [ha] at hop
          obtain ⟨e, he⟩ := hop
          simp only [Lib.perform, ha, he]
          exact ⟨e, rfl⟩
      | some p =>
          obtain ⟨o, a'⟩ := p
          rw [ha] at hop
          obtain ⟨s', hs, hr'⟩ := hop
          have hrest := ih hr'
          simp only [Lib.perform, ha, hs]
          cases hla : Lib.perform aop ls a' with
          | none =>
              rw [hla] at hrest
              obtain ⟨e, he⟩ := hrest
              simp only [bind, Except.bind, Option.bind, hla, he]
              exact ⟨e, rfl⟩
          | some q =>
              obtain ⟨os, a''⟩ := q
              rw [hla] at hrest
              obtain ⟨s'', hls, hr''⟩ := hrest
              simp only [bind, Except.bind, Option.bind, hla, hls]
              exact ⟨s'', rfl, hr''⟩

end HttpdProxy.Lib
