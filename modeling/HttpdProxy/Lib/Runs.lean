/-!
# Runs of a machine that may fault

A machine is a step function on its states, driven by labels, that may fail.
`Runs` is its finite runs: every step of a run returned. An invariant of the
machine is proved once per step and carried along a run by `Runs.invariant`;
where a step only keeps the invariant under a condition on the state before it
and on its label, `RunsWhen.invariant` carries it along the runs whose steps
all meet the condition. `RunsWhen.cost_le` bounds what a run costs by a
potential that every step pays its price into, and `RunsWhen.told` carries what
the steps have told so far along a run.
-/

namespace HttpdProxy.Lib

universe u v w x
variable {ε : Type u} {σ : Type v} {ι : Type w}

/-- The runs of `step` from a state, with the labels that drove them. -/
inductive Runs (step : σ → ι → Except ε σ) (s : σ) : List ι → σ → Prop where
  | refl : Runs step s [] s
  | step {ls : List ι} {t t' : σ} {l : ι} :
      Runs step s ls t → step t l = .ok t' → Runs step s (ls ++ [l]) t'

/-- A run all of whose steps start in a state and with a label that meet
`C`. -/
inductive RunsWhen (step : σ → ι → Except ε σ) (C : σ → ι → Prop) (s : σ) :
    List ι → σ → Prop where
  | refl : RunsWhen step C s [] s
  | step {ls : List ι} {t t' : σ} {l : ι} :
      RunsWhen step C s ls t → C t l → step t l = .ok t' →
      RunsWhen step C s (ls ++ [l]) t'

variable {step : σ → ι → Except ε σ} {C : σ → ι → Prop}

theorem RunsWhen.runs {s t : σ} {ls : List ι} (h : RunsWhen step C s ls t) :
    Runs step s ls t := by
  induction h with
  | refl => exact .refl
  | step _ _ hs ih => exact .step ih hs

theorem Runs.invariant {I : σ → Prop} {s t : σ} {ls : List ι}
    (hstep : ∀ t l t', I t → step t l = .ok t' → I t')
    (h : Runs step s ls t) (h0 : I s) : I t := by
  induction h with
  | refl => exact h0
  | step _ hs ih => exact hstep _ _ _ ih hs

theorem RunsWhen.invariant {I : σ → Prop} {s t : σ} {ls : List ι}
    (hstep : ∀ t l t', I t → C t l → step t l = .ok t' → I t')
    (h : RunsWhen step C s ls t) (h0 : I s) : I t := by
  induction h with
  | refl => exact h0
  | step _ hc hs ih => exact hstep _ _ _ ih hc hs

/-- Runs whose steps meet a condition meet any condition it implies of the
steps they take. -/
theorem RunsWhen.weaken {P : σ → ι → Prop} {s t : σ} {ls : List ι}
    (himp : ∀ t l t', C t l → step t l = .ok t' → P t l)
    (h : RunsWhen step C s ls t) : RunsWhen step P s ls t := by
  induction h with
  | refl => exact .refl
  | step _ hc hs ih => exact .step ih (himp _ _ _ hc hs) hs

/-- The same where the implication rests on an invariant of these runs. -/
theorem RunsWhen.weaken_invariant {P : σ → ι → Prop} {I : σ → Prop} {s t : σ} {ls : List ι}
    (hstep : ∀ t l t', I t → C t l → step t l = .ok t' → I t')
    (himp : ∀ t l, I t → C t l → P t l) (h0 : I s)
    (h : RunsWhen step C s ls t) : RunsWhen step P s ls t := by
  induction h with
  | refl => exact .refl
  | step hr hc hs ih => exact .step ih (himp _ _ (hr.invariant hstep h0) hc) hs

/-- Every step that is taken meets a condition, the one that fails included. -/
def Throughout (step : σ → ι → Except ε σ) (P : σ → ι → Prop) : List ι → σ → Prop
  | [], _ => True
  | l :: ls, s => P s l ∧ ∀ t, step s l = .ok t → Throughout step P ls t

/-- Conditions that amount to the same where an invariant holds amount to the
same throughout. -/
theorem throughout_congr {P Q : σ → ι → Prop} {J : σ → Prop}
    (hsame : ∀ s l, J s → (P s l ↔ Q s l))
    (hstep : ∀ s l t, J s → Q s l → step s l = .ok t → J t) {ls : List ι} {s : σ} (h0 : J s) :
    Throughout step P ls s ↔ Throughout step Q ls s := by
  induction ls generalizing s with
  | nil => exact Iff.rfl
  | cons l ls ih =>
      rw [Throughout, Throughout, hsame s l h0]
      refine and_congr_right fun hq => forall₂_congr fun t hs => ?_
      exact ih (hstep s l t h0 hq hs)

/-- The steps of a list of labels, taken one after the other. -/
def follow (step : σ → ι → Except ε σ) : List ι → σ → Except ε σ
  | [], s => .ok s
  | l :: ls, s => do
      let s ← step s l
      follow step ls s

theorem follow_append (step : σ → ι → Except ε σ) (ls ls' : List ι) (s : σ) :
    follow step (ls ++ ls') s = follow step ls s >>= follow step ls' := by
  induction ls generalizing s with
  | nil => rfl
  | cons l ls ih =>
      rw [List.cons_append, follow, follow]
      cases step s l with
      | error e => rfl
      | ok t => exact ih t

/-- What follows a run is a run. -/
theorem Runs.follow {ls' : List ι} {s t u : σ} {ls : List ι} (h : Runs step s ls t)
    (hf : Lib.follow step ls' t = .ok u) : Runs step s (ls ++ ls') u := by
  induction ls' generalizing ls t with
  | nil =>
      cases hf
      rwa [List.append_nil]
  | cons l ls' ih =>
      rw [Lib.follow] at hf
      cases hs : step t l with
      | error e =>
          rw [hs] at hf
          cases hf
      | ok t' =>
          rw [hs] at hf
          have h' := ih (.step h hs) hf
          rwa [List.append_assoc, List.singleton_append] at h'

/-- The run of a list of labels, computed, with every step checked before it
is taken. -/
def runChecked (step : σ → ι → Except ε σ) (check : σ → ι → Bool) :
    List ι → σ → Option σ
  | [], s => some s
  | l :: ls, s =>
      if check s l then
        match step s l with
        | .error _ => none
        | .ok t => runChecked step check ls t
      else none

theorem RunsWhen.trans_runChecked {check : σ → ι → Bool} {s t t' : σ} {ls ls' : List ι}
    (hcheck : ∀ s l, check s l = true → C s l) (h : RunsWhen step C s ls t)
    (hr : runChecked step check ls' t = some t') : RunsWhen step C s (ls ++ ls') t' := by
  induction ls' generalizing ls t with
  | nil =>
      cases hr
      rw [List.append_nil]
      exact h
  | cons l ls' ih =>
      rw [runChecked] at hr
      split at hr
      · next hc =>
          split at hr
          · cases hr
          · next u hu =>
              have h' := ih (RunsWhen.step h (hcheck _ _ hc) hu) hr
              rwa [List.append_assoc, List.singleton_append] at h'
      · cases hr

theorem runsWhen_of_runChecked {check : σ → ι → Bool} {s t : σ} {ls : List ι}
    (hcheck : ∀ s l, check s l = true → C s l) (h : runChecked step check ls s = some t) :
    RunsWhen step C s ls t := by
  have h' := RunsWhen.trans_runChecked hcheck (.refl : RunsWhen step C s [] s) h
  rwa [List.nil_append] at h'

/-- A run, computed, and what it has come to. -/
theorem exists_runs {s : σ} {ls : List ι} {p : σ → Bool}
    (h : ((runChecked step (fun _ _ => true) ls s).any p) = true) :
    ∃ t, Runs step s ls t ∧ p t = true := by
  obtain ⟨t, ht, hp⟩ := (Option.any_eq_true _ _).mp h
  have hrun := runsWhen_of_runChecked (C := fun _ _ => True) (fun _ _ _ => trivial) ht
  exact ⟨t, hrun.runs, hp⟩

theorem follow_of_runChecked {check : σ → ι → Bool} {s t : σ} {ls : List ι}
    (h : runChecked step check ls s = some t) : follow step ls s = .ok t := by
  induction ls generalizing s with
  | nil =>
      cases h
      rfl
  | cons l ls ih =>
      rw [runChecked] at h
      split at h
      · split at h
        · cases h
        · next u hu =>
            rw [follow, hu]
            exact ih h
      · cases h

/-! ## What a run costs -/

/-- What the steps of a list of labels cost, up to the first that fails. -/
def cost (step : σ → ι → Except ε σ) (price : σ → ι → Nat) : List ι → σ → Nat
  | [], _ => 0
  | l :: ls, s =>
      price s l +
        match step s l with
        | .error _ => 0
        | .ok t => cost step price ls t

theorem Runs.followed {s t : σ} {ls : List ι} (h : Runs step s ls t) :
    Lib.follow step ls s = .ok t := by
  induction h with
  | refl => rfl
  | step _ hs ih =>
      rw [follow_append, ih]
      change (do Lib.follow step [] (← step _ _)) = _
      rw [hs]
      rfl

theorem cost_append {price : σ → ι → Nat} {ls : List ι} (ls' : List ι) {s t : σ}
    (h : follow step ls s = .ok t) :
    cost step price (ls ++ ls') s = cost step price ls s + cost step price ls' t := by
  induction ls generalizing s with
  | nil =>
      cases h
      rw [List.nil_append, cost, Nat.zero_add]
  | cons l ls ih =>
      rw [follow] at h
      rw [List.cons_append, cost, cost]
      cases hs : step s l with
      | error e =>
          rw [hs] at h
          cases h
      | ok u =>
          rw [hs] at h
          dsimp only
          rw [ih h, Nat.add_assoc]

/-- The rule for a potential: where every step raises it by its price at least,
a run raises it by its cost. -/
theorem RunsWhen.cost_le (price : σ → ι → Nat) (potential : σ → Nat) {I : σ → Prop}
    {s t : σ} {ls : List ι} (hstep : ∀ t l t', I t → C t l → step t l = .ok t' → I t')
    (hpays : ∀ t l t', I t → C t l → step t l = .ok t' →
      potential t + price t l ≤ potential t')
    (h : RunsWhen step C s ls t) (h0 : I s) :
    potential s + cost step price ls s ≤ potential t := by
  induction h with
  | refl => exact Nat.le_refl _
  | @step ls t t' l hr hc hs ih =>
      have hpaid := hpays t l t' (hr.invariant hstep h0) hc hs
      have hone : cost step price [l] t = price t l := by
        rw [cost, hs]
        rfl
      rw [cost_append [l] hr.runs.followed, hone]
      omega

/-! ## What a run tells -/

variable {ω : Type x}

/-- What the steps of a list of labels tell, in order, up to the first that
fails. -/
def told (step : σ → ι → Except ε σ) (tell : σ → ι → List ω) : List ι → σ → List ω
  | [], _ => []
  | l :: ls, s =>
      tell s l ++
        match step s l with
        | .error _ => []
        | .ok t => told step tell ls t

theorem told_append {tell : σ → ι → List ω} {ls : List ι} (ls' : List ι) {s t : σ}
    (h : follow step ls s = .ok t) :
    told step tell (ls ++ ls') s = told step tell ls s ++ told step tell ls' t := by
  induction ls generalizing s with
  | nil =>
      cases h
      rfl
  | cons l ls ih =>
      rw [follow] at h
      rw [List.cons_append, told, told]
      cases hs : step s l with
      | error e =>
          rw [hs] at h
          cases h
      | ok u =>
          rw [hs] at h
          dsimp only
          rw [ih h, List.append_assoc]

/-- The rule for what has been told: a relation with the state that every step
keeps holds of all that a run tells. -/
theorem RunsWhen.told {tell : σ → ι → List ω} {R : σ → List ω → Prop} {s t : σ} {ls : List ι}
    (hstep : ∀ t l t' os, R t os → C t l → step t l = .ok t' → R t' (os ++ tell t l))
    (h : RunsWhen step C s ls t) (h0 : R s []) : R t (Lib.told step tell ls s) := by
  induction h with
  | refl => exact h0
  | @step ls t t' l hr hc hs ih =>
      have hone : Lib.told step tell [l] t = tell t l := by
        rw [Lib.told, hs]
        exact List.append_nil _
      rw [told_append [l] hr.runs.followed, hone]
      exact hstep t l t' _ ih hc hs

end HttpdProxy.Lib
