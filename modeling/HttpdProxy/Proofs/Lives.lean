import HttpdProxy.Proofs.Daemon
import HttpdProxy.Protocol.Watched

/-!
# Runs under a condition

Where every step of a run meets a condition that makes the moves of its event
meet `V`, every connection is a life under `V`.
-/

namespace HttpdProxy

/-- Every move of an event on a resting connection meets `V`. -/
def Heeds (V : Mid → Mid → Prop) (env : Env) (x : Ctx) (got : Option Act) : Prop :=
  ∀ b, Entry x.world.dohUtils x got b →
    V (x.mid .rest) (b.2.mid b.1) ∧
      ∀ a a', Course x.world.dohUtils env b a → Advance x.world.dohUtils env a a' →
        V (a.2.mid a.1) (a'.2.mid a'.1)

section

variable {V : Mid → Mid → Prop} {d : DohUtils} {env : Env}

theorem LifeWhen.course {a b : Phase × Ctx} (h : LifeWhen d V a.1 a.2.conn)
    (hc : Course d env a b)
    (hV : ∀ a' b', Course d env a a' → Advance d env a' b' →
      V (a'.2.mid a'.1) (b'.2.mid b'.1)) : LifeWhen d V b.1 b.2.conn := by
  induction hc with
  | refl => exact h
  | tail hab hadv ih => exact .move ih hadv.move (hV _ _ hab hadv)

/-- An event, from a life under `V` to one. -/
theorem LifeWhen.event {x₀ x x' : Ctx} {got : Option Act} (h : LifeWhen d V .rest x.conn)
    (hd : x₀.world.dohUtils = d) (hdx : x.world.dohUtils = d)
    (hclose : ∀ a b : Mid, a.phase = .rest → b.phase = .gone → V a b)
    (hV : Heeds V env x got) (he : EventCourse env x₀ x got x') :
    ∃ ph, Settled x₀ x' ph ∧ LifeWhen d V ph x'.conn := by
  obtain ⟨ph, hset, ⟨b, hentry, hcourse⟩ | ⟨rfl, hclosing⟩⟩ := he
  · rw [hd] at hentry hcourse
    rw [Heeds, hdx] at hV
    obtain ⟨hfirst, hrest⟩ := hV b hentry
    exact ⟨ph, hset, (LifeWhen.move h hentry.move hfirst).course hcourse hrest⟩
  · rw [hd] at hclosing
    exact ⟨.gone, hset, .move h hclosing.move (hclose _ _ rfl rfl)⟩

end

/-- Every connection of the heap is a life under `V`. -/
def World.Lives (V : Mid → Mid → Prop) (d : DohUtils) (w : World) : Prop :=
  ∀ id c, (w.heap id = .live c → LifeWhen d V .rest c) ∧
    (w.heap id = .freed c → LifeWhen d V .gone c)

section

variable {V : Mid → Mid → Prop} {d : DohUtils} {w w' : World} {id : Nat}

theorem World.Lives.setCell {c : Conn} {cell : Cell} (h : w.Lives V d)
    (hheap : ∀ j, j ≠ id → w'.heap j = w.heap j) (hid : w'.heap id = cell)
    (hcell : cell = .live c ∧ LifeWhen d V .rest c ∨ cell = .freed c ∧ LifeWhen d V .gone c) :
    w'.Lives V d := by
  intro j c'
  rcases Decidable.em (j = id) with rfl | hj
  · rw [hid]
    rcases hcell with ⟨rfl, hl⟩ | ⟨rfl, hl⟩
    · constructor
      · intro he
        cases he
        exact hl
      · intro he
        cases he
    · constructor
      · intro he
        cases he
      · intro he
        cases he
        exact hl
  · rw [hheap j hj]
    exact h j c'

theorem World.Lives.init {cfg : Config} : (initWorld cfg).Lives V d := by
  intro id c
  constructor
  · intro hc
    cases hc
  · intro hc
    cases hc

theorem Accepted.lives {fd : Int} {c : Conn} (h : w.Lives V d) (ha : Accepted w fd c w') :
    w'.Lives V d := by
  obtain ⟨size, now, mem, rfl⟩ := ha.born
  refine h.setCell (fun j (hj : j ≠ w.nextConn) => ?_) ?_ (.inl ⟨rfl, .accepted fd size now mem⟩)
  · rw [ha.heap]
    exact if_neg hj
  · rw [ha.heap]
    exact if_pos rfl

theorem Collected.lives {c : Conn}
    (hclose : ∀ a b : Mid, a.phase = .rest → b.phase = .gone → V a b)
    (h : w.Lives V d) (hc : Collected w id c w') : w'.Lives V d := by
  have hlive : w.heap id = .live c := by
    obtain ⟨x, hlive, _⟩ := hc
    exact hlive
  refine h.setCell hc.turned.frame.2.1 hc.freed (.inr ⟨rfl, ?_⟩)
  exact LifeWhen.move ((h id c).1 hlive) (.collect (m := initMetrics)) (hclose _ _ rfl rfl)

theorem Served.lives {env : Env} {got : Conn → Option Act} (hd : w.dohUtils = d)
    (hclose : ∀ a b : Mid, a.phase = .rest → b.phase = .gone → V a b)
    (h : w.Lives V d)
    (hV : ∀ c, w.heap id = .live c → Heeds V env (w.ctx id c) (got c))
    (hs : Served env got w id w') : w'.Lives V d := by
  have hframe := hs.turned.frame.2.1
  obtain ⟨c, x, hc, hcourse, rfl⟩ := hs
  obtain ⟨ph, hset, hl⟩ :=
    LifeWhen.event (x := w.ctx id c) ((h id c).1 hc) hd hd hclose (hV c hc) hcourse
  have hid : x.id = id := hset.frame.id
  have hself : x.finish.heap id = if x.freed then .freed x.conn else .live x.conn := by
    change (if id = x.id then _ else _) = _
    rw [if_pos hid.symm]
  refine h.setCell (c := x.conn) hframe hself ?_
  rcases hset with ⟨rfl, oi, hr⟩ | ⟨rfl, hg⟩
  · rw [hr.standing.alive]
    exact .inl ⟨rfl, hl⟩
  · rw [hg.freed]
    exact .inr ⟨rfl, hl⟩

end

/-- The run lemma. -/
theorem lives_when {cfg : Config} {C : World → Event → Prop} {V : Mid → Mid → Prop}
    {es : List Event} {w : World} (hun : ∀ w e, C w e → Undisturbed w e)
    (hclose : ∀ a b : Mid, a.phase = .rest → b.phase = .gone → V a b)
    (hV : ∀ (w : World) (e : Event) (id : Nat) (c : Conn) (env : Env), Sound w →
      w.dohUtils = cfg.dohUtils → LifeWhen cfg.dohUtils V .rest c → C w e →
      e.actor w = some id → w.heap id = .live c → e.env = some env →
      Heeds V env (w.ctx id c) (e.brings c))
    (h : Lib.RunsWhen step C (initWorld cfg) es w) :
    Sound w ∧ w.dohUtils = cfg.dohUtils ∧ w.Lives V cfg.dohUtils := by
  refine h.invariant (I := fun w => Sound w ∧ w.dohUtils = cfg.dohUtils ∧
    w.Lives V cfg.dohUtils) ?_
    ⟨initWorld_sound cfg, rfl, World.Lives.init⟩
  intro w e w' ⟨hsound, hdoh, hlives⟩ hC hr
  refine step_keeps_served
    (I := fun w => w.dohUtils = cfg.dohUtils ∧ w.Lives V cfg.dohUtils)
    ?_ ?_ ?_ ?_ hsound (hun w e hC) ⟨hdoh, hlives⟩ hr
  · intro w1 w2 ⟨hd, hl⟩ hq
    refine ⟨hq.dohUtils.trans hd, fun id c => ?_⟩
    rw [hq.heap]
    exact hl id c
  · intro w1 fd c w2 _ ⟨hd, hl⟩ ha
    exact ⟨ha.dohUtils.trans hd, ha.lives hl⟩
  · intro id hact ⟨env, henv, hs⟩
    refine ⟨hs.turned.frame.2.2.2.1.trans hdoh, hs.lives hdoh hclose hlives ?_⟩
    intro c hc
    exact hV w e id c env hsound hdoh ((hlives id c).1 hc) hC hact hc henv
  · intro w1 id c w2 _ ⟨hd, hl⟩ hc
    exact ⟨hc.turned.frame.2.2.2.1.trans hd, hc.lives hclose hl⟩

end HttpdProxy
