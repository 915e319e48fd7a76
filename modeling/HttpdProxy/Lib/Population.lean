import Mathlib.Algebra.BigOperators.Group.Finset.Basic
import Mathlib.Algebra.Order.BigOperators.Group.Finset
import Mathlib.Logic.Function.Basic
import Mathlib.Logic.Relation

/-!
# Populations of independent members

A population is a set of numbered members that come into being one after
another and act one at a time. A member sees its own state and a part all of
them share, and changes no other member's state.

Two things hold of every interleaving: what each member keeps by itself, all of
them keep (`Steps.all`), and the sum of a measure over the members changes with
the one that acted (`total_birth`, `total_turn`).
-/

namespace HttpdProxy.Lib

universe u v
variable {σ : Type u} {μ : Type v}

@[ext] structure Population (σ : Type u) (μ : Type v) where
  member : Nat → Option σ
  next : Nat
  shared : μ

namespace Population

/-- The population with a new member. -/
def birth (p : Population σ μ) (s : σ) : Population σ μ :=
  { p with member := Function.update p.member p.next (some s), next := p.next + 1 }

/-- The population after member `id` has acted. -/
def turn (p : Population σ μ) (id : Nat) (s : σ) (m : μ) : Population σ μ :=
  { p with member := Function.update p.member id (some s), shared := m }

/-- One member is born, or one acts. -/
inductive Step (born : σ → Prop) (act : σ → μ → σ → μ → Prop) :
    Population σ μ → Population σ μ → Prop where
  | birth {p : Population σ μ} {s : σ} : born s → Step born act p (p.birth s)
  | turn {p : Population σ μ} {id : Nat} {s s' : σ} {m' : μ} :
      p.member id = some s → act s p.shared s' m' → Step born act p (p.turn id s' m')

abbrev Steps (born : σ → Prop) (act : σ → μ → σ → μ → Prop) :
    Population σ μ → Population σ μ → Prop := Relation.ReflTransGen (Step born act)

/-- Every member satisfies `I`. -/
def All (I : σ → Prop) (p : Population σ μ) : Prop := ∀ id s, p.member id = some s → I s

variable {born : σ → Prop} {act : σ → μ → σ → μ → Prop} {p p' : Population σ μ}

theorem member_update {member : Nat → Option σ} {id j : Nat} {s t : σ}
    (h : Function.update member id (some s) j = some t) :
    (j = id ∧ t = s) ∨ (j ≠ id ∧ member j = some t) := by
  rcases Decidable.em (j = id) with rfl | hne
  · rw [Function.update_self] at h
    exact .inl ⟨rfl, (Option.some.inj h).symm⟩
  · rw [Function.update_of_ne hne] at h
    exact .inr ⟨hne, h⟩

theorem Step.all {I : σ → Prop} (hborn : ∀ s, born s → I s)
    (hact : ∀ s m s' m', I s → act s m s' m' → I s')
    (h : Step born act p p') (hI : p.All I) : p'.All I := by
  cases h with
  | birth hb =>
      intro j t hj
      rcases member_update hj with ⟨_, rfl⟩ | ⟨_, hj'⟩
      · exact hborn _ hb
      · exact hI j t hj'
  | turn hs ha =>
      intro j t hj
      rcases member_update hj with ⟨_, rfl⟩ | ⟨_, hj'⟩
      · exact hact _ _ _ _ (hI _ _ hs) ha
      · exact hI j t hj'

/-- What every member keeps by itself, all of them keep in any order of
turns. -/
theorem Steps.all {I : σ → Prop} (hborn : ∀ s, born s → I s)
    (hact : ∀ s m s' m', I s → act s m s' m' → I s')
    (h : Steps born act p p') (hI : p.All I) : p'.All I := by
  induction h with
  | refl => exact hI
  | tail _ hs ih => exact hs.all hborn hact ih

/-! ## Totals -/

/-- The sum of a measure over the members. -/
def total (f : σ → Nat) (p : Population σ μ) : Nat :=
  ∑ id ∈ Finset.range p.next, (p.member id).elim 0 f

/-- How many members satisfy `P`. -/
def count (P : σ → Bool) (p : Population σ μ) : Nat := p.total fun s => (P s).toNat

variable {f : σ → Nat} {P : σ → Bool} {id : Nat} {s : σ}

theorem total_birth (f : σ → Nat) (p : Population σ μ) (s : σ) :
    (p.birth s).total f = p.total f + f s := by
  have hself : (p.birth s).member p.next = some s := Function.update_self ..
  have hbelow : ∀ id ∈ Finset.range p.next,
      ((p.birth s).member id).elim 0 f = (p.member id).elim 0 f := by
    intro id hid
    have hne : id ≠ p.next := by
      have := Finset.mem_range.mp hid
      omega
    exact congrArg (Option.elim · 0 f) (Function.update_of_ne hne ..)
  rw [total, show (p.birth s).next = p.next + 1 from rfl, Finset.sum_range_succ, hself,
    Finset.sum_congr rfl hbelow]
  rfl

/-- A turn changes the total with the one that acted. -/
theorem total_turn (f : σ → Nat) (s' : σ) (m' : μ) (hid : id < p.next)
    (hs : p.member id = some s) :
    (p.turn id s' m').total f + f s = p.total f + f s' := by
  have hmem : id ∈ Finset.range p.next := Finset.mem_range.mpr hid
  have hself : ((p.turn id s' m').member id).elim 0 f = f s' := by
    rw [show (p.turn id s' m').member id = some s' from Function.update_self ..]
    rfl
  have hothers : ∀ j ∈ (Finset.range p.next).erase id,
      ((p.turn id s' m').member j).elim 0 f = (p.member j).elim 0 f := by
    intro j hj
    exact congrArg (Option.elim · 0 f)
      (Function.update_of_ne (Finset.ne_of_mem_erase hj) ..)
  have hafter := Finset.sum_erase_add _ (fun j => ((p.turn id s' m').member j).elim 0 f) hmem
  have hbefore := Finset.sum_erase_add _ (fun j => (p.member j).elim 0 f) hmem
  rw [Finset.sum_congr rfl hothers, hself] at hafter
  rw [hs, Option.elim_some] at hbefore
  rw [total, total, show (p.turn id s' m').next = p.next from rfl, ← hafter, ← hbefore]
  omega

theorem le_total (hid : id < p.next) (hs : p.member id = some s) : f s ≤ p.total f := by
  have h := Finset.single_le_sum (f := fun j => (p.member j).elim 0 f)
    (fun _ _ => Nat.zero_le _) (Finset.mem_range.mpr hid)
  rwa [hs, Option.elim_some] at h

theorem total_eq_zero (h : ∀ id s, p.member id = some s → f s = 0) : p.total f = 0 := by
  refine Finset.sum_eq_zero fun id _ => ?_
  cases hm : p.member id with
  | none => rfl
  | some s => exact h id s hm

/-- Where no member measures more than one, one that measures less leaves
room. -/
theorem total_lt (hf : ∀ s, f s ≤ 1) (hid : id < p.next) (hs : p.member id = some s) :
    p.total f + 1 ≤ p.next + f s := by
  have hmem : id ∈ Finset.range p.next := Finset.mem_range.mpr hid
  have hsplit := Finset.sum_erase_add _ (fun j => (p.member j).elim 0 f) hmem
  have hrest : ∑ j ∈ (Finset.range p.next).erase id, (p.member j).elim 0 f
      ≤ ((Finset.range p.next).erase id).card := by
    rw [Finset.card_eq_sum_ones]
    refine Finset.sum_le_sum fun j _ => ?_
    cases p.member j with
    | none => exact Nat.zero_le 1
    | some s => exact hf s
  rw [Finset.card_erase_of_mem hmem, Finset.card_range] at hrest
  rw [hs, Option.elim_some] at hsplit
  rw [total, ← hsplit]
  omega

end Population

end HttpdProxy.Lib
