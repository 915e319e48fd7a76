import HttpdProxy.Proofs.Rounds

/-!
# How the daemon ends

`selector_destroy` unregisters what is left in the table, one descriptor after
the other, and each close handler frees or closes what is its own. The item of
a client frees its connection, and the item of an origin works on its number
alone, so it does not matter which of the two comes first. After a run nothing
is freed twice, no connection is left, and of the descriptors exactly those of
clients, origins and the management socket are closed, with the passive socket
`main` closes at last (`shutdown_exact`).
-/

namespace HttpdProxy

/-! ## Items that are no connection's -/

/-- An item carries a connection, or was there before. -/
def Inherits (w w' : World) : Prop :=
  ∀ f it', w'.sel.fds f = some it' →
    (∃ id, it'.data = .connection id) ∨ ∃ it, w.sel.fds f = some it ∧ it.Alike it'

theorem Inherits.same {w w' : World} (h : w'.sel = w.sel) : Inherits w w' :=
  fun f it' hf => .inr ⟨it', by rw [← h, hf], rfl, rfl⟩

theorem Inherits.trans {w w' w'' : World} (h : Inherits w w') (h' : Inherits w' w'') :
    Inherits w w'' := by
  intro f it'' hf
  rcases h' f it'' hf with hd | ⟨it', hit', ha'⟩
  · exact .inl hd
  · rcases h f it' hit' with ⟨id, hd⟩ | ⟨it, hit, ha⟩
    · exact .inl ⟨id, ha'.2.symm.trans hd⟩
    · exact .inr ⟨it, hit, ha.trans ha'⟩

theorem Keeps.inherits {x x' : Ctx} (h : Keeps x x') : Inherits x.world x'.world :=
  fun f it' hf => (h.items f it' hf).imp (fun hd => ⟨x.id, hd⟩) fun he => he

theorem inherits_stable : WorldStable Inherits where
  refl _ := .same rfl
  trans := Inherits.trans
  handler env :=
    { refl := fun _ => .same rfl
      trans := Inherits.trans
      setConn := fun _ => .same rfl
      setMetrics := fun _ _ => .same rfl
      setInterest := fun x fd i => ((keeps_stable env).setInterest x fd i).inherits
      asked := fun _ => .same rfl
      opened := fun _ _ _ _ _ => .same rfl
      registered := fun x => ((keeps_stable env).registered x).inherits
      unregistered := fun x x' fd item hf hr =>
        ((keeps_stable env).unregistered x x' fd item hf hr).inherits }
  setCell _ _ _ := .same rfl
  accept env w := by
    rcases acceptNewConnection_cases w env with h | ⟨fd, c, hacc⟩
    · rw [h]
      exact .same rfl
    · intro f it' hf
      rw [hacc.fds] at hf
      rcases setFd_eq_some hf with ⟨_, he⟩ | ⟨_, he⟩
      · cases he
        exact .inl ⟨w.nextConn, rfl⟩
      · exact .inr ⟨it', he, rfl, rfl⟩
  manage _ _ _ := .same rfl

theorem step_inherits {w w' : World} {e : Event} (h : step w e = .ok w') : Inherits w w' := by
  cases e with
  | readable fd env => exact inherits_stable.readable h
  | writable fd env => exact inherits_stable.writable h
  | garbageCollect =>
      rw [step] at h
      split at h
      · have hsweep := inherits_stable.sweep _ _ w' h
        exact hsweep
      · cases h
        exact .same rfl
  | tick seconds =>
      cases h
      exact .same rfl

/-- The items `main` registers are none of a client. -/
def Config.Plain (cfg : Config) : Prop := ∀ l ∈ cfg.listeners, l.2.1 ≠ .client

theorem Config.Plain.items {cfg : Config} (h : cfg.Plain) (f : Int) (it : Item)
    (hf : cfg.selector.fds f = some it) : it.handler ≠ .client := by
  have hall : ∀ (ls : List (Int × FdHandler × Attachment)) (s : Selector),
      (∀ l ∈ ls, l.2.1 ≠ .client) → (∀ f it, s.fds f = some it → it.handler ≠ .client) →
      ∀ f it, (ls.foldl (fun s l => (s.register l.1 l.2.1
        (if l.2.1 = .logger then opNoop else opRead) l.2.2).2) s).fds f = some it →
          it.handler ≠ .client := by
    intro ls
    induction ls with
    | nil => exact fun _ _ hs => hs
    | cons l ls ih =>
        intro s hl hs
        refine ih _ (fun l' hl' => hl l' (List.mem_cons_of_mem _ hl')) fun f it hf => ?_
        dsimp only at hf
        rcases s.register_cases l.1 l.2.1 (if l.2.1 = .logger then opNoop else opRead) l.2.2 with
          ⟨s', hreg, _, _, hfds⟩ | ⟨st, hreg, _, _⟩
        · rw [hreg] at hf
          have hf' : s'.fds f = some it := hf
          rw [hfds] at hf'
          rcases setFd_eq_some hf' with ⟨_, he⟩ | ⟨_, he⟩
          · cases he
            exact hl l List.mem_cons_self
          · exact hs f it he
        · rw [hreg] at hf
          exact hs f it hf
  exact hall cfg.listeners selectorNew h (fun _ _ hn => by cases hn) f it hf

/-- An item of a client carries a connection, in every run. -/
theorem runs_client_carries {cfg : Config} {es : List Event} {w : World} (hcfg : cfg.Plain)
    (h : Lib.Runs step (initWorld cfg) es w) (f : Int) (it : Item)
    (hf : w.sel.fds f = some it) (hh : it.handler = .client) : ∃ id, it.data = .connection id := by
  have hinh : Inherits (initWorld cfg) w :=
    h.invariant (I := Inherits (initWorld cfg)) (fun _ _ _ hi hs => hi.trans (step_inherits hs))
      (.same rfl)
  rcases hinh f it hf with hd | ⟨it₀, hit₀, ha⟩
  · exact hd
  · exact absurd (ha.1.trans hh) (hcfg.items f it₀ hit₀)

/-! ## One item -/

/-- The clients' items and the live connections belong together. -/
structure Closable (w : World) : Prop where
  clients : ∀ f it, w.sel.fds f = some it → it.handler = .client →
    ∃ id c, it.data = .connection id ∧ w.heap id = .live c ∧ c.clientFd = f
  listed : ∀ id c, w.heap id = .live c → ∃ i, w.sel.fds c.clientFd = some (clientItem id i)

theorem Sound.closable {w : World} (h : Sound w)
    (hcl : ∀ f it, w.sel.fds f = some it → it.handler = .client → ∃ id, it.data = .connection id) :
    Closable w where
  clients f it hf hh := by
    obtain ⟨id, hd⟩ := hcl f it hf hh
    obtain ⟨c, hc⟩ := h.carried f it id hf hd
    obtain ⟨oi, hr⟩ := h.resting id c hc
    refine ⟨id, c, hd, hc, ?_⟩
    rcases hr.standing.only f it hf hd with hfd | ⟨hoi, hfd⟩
    · exact hfd.symm
    · obtain ⟨i, rfl⟩ := Option.isSome_iff_exists.mp hoi
      obtain ⟨ho, _⟩ := hr.standing.origin i rfl
      rw [← hfd] at ho
      cases hf.symm.trans ho
      cases hh
  listed id c hc := h.client_item hc

/-- A descriptor among those that are gone over. -/
def Scans (is : List Nat) (f : Int) : Prop := ∃ i ∈ is, (i : Int) = f

theorem not_scans_nil (f : Int) : ¬ Scans [] f := by
  rintro ⟨i, hi, _⟩
  cases hi

theorem scans_cons {i : Nat} {is : List Nat} {f : Int} :
    Scans (i :: is) f ↔ (i : Int) = f ∨ Scans is f := by
  simp [Scans]

theorem scans_one {i : Nat} {f : Int} : Scans [i] f ↔ (i : Int) = f := by
  simp [Scans]

/-- The `handle_close` of an item closes its descriptor. -/
def FdHandler.closes : FdHandler → Bool
  | .client | .origin | .management => true
  | .proxy | .logger => false

/-- What is left when some descriptors have been unregistered, said of the
world before. -/
structure Destroyed (w : World) (is : List Nat) (w' : World) : Prop where
  items : ∀ f it, w'.sel.fds f = some it ↔ w.sel.fds f = some it ∧ ¬ Scans is f
  freed : ∀ id c, w.heap id = .live c → Scans is c.clientFd → w'.heap id = .freed c
  kept : ∀ id, (∀ c, w.heap id = .live c → ¬ Scans is c.clientFd) → w'.heap id = w.heap id
  opened : ∀ f, w'.opened f = true ↔ w.opened f = true ∧
    ∀ it, w.sel.fds f = some it → it.handler.closes = true → ¬ Scans is f

theorem Destroyed.nil (w : World) : Destroyed w [] w where
  items f _ := ⟨fun hf => ⟨hf, not_scans_nil f⟩, And.left⟩
  freed _ _ _ he := absurd he (not_scans_nil _)
  kept _ _ := rfl
  opened f := ⟨fun ho => ⟨ho, fun _ _ _ => not_scans_nil f⟩, And.left⟩

/-- One descriptor, and then the others. -/
theorem Destroyed.cons {w u w' : World} {i : Nat} {is : List Nat} (h : Destroyed w [i] u)
    (h' : Destroyed u is w') : Destroyed w (i :: is) w' where
  items f it := by
    rw [h'.items f it, h.items f it, scans_one, scans_cons, not_or, and_assoc]
  freed id c hc he := by
    by_cases hi : (i : Int) = c.clientFd
    · have hfreed := h.freed id c hc (scans_one.mpr hi)
      rw [h'.kept id fun d hd => ?_]
      · exact hfreed
      · cases hfreed.symm.trans hd
    · have hsame : u.heap id = w.heap id := h.kept id fun d hd he' => by
        cases hc.symm.trans hd
        exact hi (scans_one.mp he')
      exact h'.freed id c (hsame.trans hc) ((scans_cons.mp he).resolve_left hi)
  kept id hno := by
    have hsame : u.heap id = w.heap id := h.kept id fun c hc he =>
      hno c hc (scans_cons.mpr (.inl (scans_one.mp he)))
    rw [h'.kept id fun c hc he => ?_, hsame]
    exact hno c (hsame.symm.trans hc) (scans_cons.mpr (.inr he))
  opened f := by
    rw [h'.opened f, h.opened f, and_assoc]
    refine and_congr_right fun _ => ⟨fun ⟨hone, hrest⟩ it hf hh he => ?_, fun hall =>
      ⟨fun it hf hh he => ?_, fun it hf hh he => ?_⟩⟩
    · have hi : ¬ Scans [i] f := hone it hf hh
      have hf' : u.sel.fds f = some it := (h.items f it).mpr ⟨hf, hi⟩
      exact hrest it hf' hh ((scans_cons.mp he).resolve_left fun he' => hi (scans_one.mpr he'))
    · exact hall it hf hh (scans_cons.mpr (.inl (scans_one.mp he)))
    · exact hall it ((h.items f it).mp hf).1 hh (scans_cons.mpr (.inr he))

/-- A descriptor with no item. -/
theorem Closable.destroyed_none {w : World} {i : Nat} (h : Closable w)
    (hf : w.sel.fds i = none) : Destroyed w [i] w where
  items f it := by
    refine ⟨fun hit => ⟨hit, fun he => ?_⟩, And.left⟩
    rw [← scans_one.mp he, hf] at hit
    cases hit
  freed id c hc he := by
    obtain ⟨k, hk⟩ := h.listed id c hc
    rw [← scans_one.mp he, hf] at hk
    cases hk
  kept _ _ := rfl
  opened f := by
    refine ⟨fun ho => ⟨ho, fun it hit _ he => ?_⟩, And.left⟩
    rw [← scans_one.mp he, hf] at hit
    cases hit

theorem clear_items (s : Selector) (i : Nat) (f : Int) (it : Item) :
    (s.clear i).fds f = some it ↔ s.fds f = some it ∧ ¬ Scans [i] f := by
  rw [Selector.clear_fds, scans_one]
  by_cases hi : (i : Int) = f
  · rw [← hi, setFd_self]
    simp
  · rw [setFd_of_ne (Ne.symm hi)]
    simp [hi]

/-- The item of a client: its connection goes with it. -/
theorem Closable.destroyed_client {w : World} {i : Nat} {id : Nat} {c : Conn} (h : Closable w)
    (hc : w.heap id = .live c)
    (hfd : c.clientFd = (i : Int)) :
    Closable { (w.close c.clientFd).setCell id (.freed c) with sel := w.sel.clear i } ∧
      Destroyed w [i] { (w.close c.clientFd).setCell id (.freed c) with sel := w.sel.clear i } := by
  have hheap : ∀ j, j ≠ id → ((w.close c.clientFd).setCell id (.freed c)).heap j = w.heap j :=
    fun j hj => if_neg hj
  have hself : ((w.close c.clientFd).setCell id (.freed c)).heap id = .freed c := if_pos rfl
  have halone : ∀ j d, j ≠ id → w.heap j = .live d → (i : Int) ≠ d.clientFd := by
    intro j d hj hd he
    obtain ⟨k, hk⟩ := h.listed j d hd
    obtain ⟨k', hk'⟩ := h.listed id c hc
    rw [← he, ← hfd, hk'] at hk
    cases hk
    exact hj rfl
  refine ⟨⟨fun f it' hf' hh => ?_, fun j d hd => ?_⟩, ?_⟩
  · obtain ⟨hf'', hns⟩ := (clear_items w.sel i f it').mp hf'
    obtain ⟨j, d, hdata, hd, hdf⟩ := h.clients f it' hf'' hh
    have hj : j ≠ id := by
      rintro rfl
      cases hc.symm.trans hd
      exact hns (scans_one.mpr (hfd.symm.trans hdf))
    exact ⟨j, d, hdata, (hheap j hj).trans hd, hdf⟩
  · have hd' : ((w.close c.clientFd).setCell id (.freed c)).heap j = .live d := hd
    have hj : j ≠ id := by
      rintro rfl
      cases hself.symm.trans hd'
    rw [hheap j hj] at hd'
    obtain ⟨k, hk⟩ := h.listed j d hd'
    exact ⟨k, (clear_items w.sel i _ _).mpr ⟨hk, fun he => halone j d hj hd' (scans_one.mp he)⟩⟩
  · constructor
    · exact clear_items w.sel i
    · intro j d hd he
      by_cases hj : j = id
      · subst hj
        cases hc.symm.trans hd
        exact hself
      · exact absurd (scans_one.mp he) (halone j d hj hd)
    · intro j hno
      refine hheap j fun hj => ?_
      subst hj
      exact hno c hc (scans_one.mpr hfd.symm)
    · intro f
      obtain ⟨k, hk⟩ := h.listed id c hc
      change (if f = c.clientFd then false else w.opened f) = true ↔ _
      by_cases hf : f = c.clientFd
      · rw [if_pos hf]
        refine iff_of_false (by simp) fun ⟨_, hall⟩ => ?_
        exact hall _ (hf ▸ hk) rfl (scans_one.mpr (hfd.symm.trans hf.symm))
      · rw [if_neg hf]
        refine ⟨fun ho => ⟨ho, fun _ _ _ he => ?_⟩, And.left⟩
        exact hf ((scans_one.mp he).symm.trans hfd.symm)

/-- Any other item. -/
theorem Closable.destroyed_other {w : World} {i : Nat} {it : Item} (h : Closable w)
    (hf : w.sel.fds i = some it) (hh : it.handler ≠ .client) {opened : Int → Bool}
    (hopened : ∀ f, opened f =
      if f = (i : Int) ∧ it.handler.closes = true then false else w.opened f) :
    Closable { w with opened := opened, sel := w.sel.clear i } ∧
      Destroyed w [i] { w with opened := opened, sel := w.sel.clear i } := by
  have halone : ∀ j d, w.heap j = .live d → (i : Int) ≠ d.clientFd := by
    intro j d hd he
    obtain ⟨k, hk⟩ := h.listed j d hd
    rw [← he, hf] at hk
    cases hk
    exact hh rfl
  refine ⟨⟨fun f it' hf' hh' => ?_, fun j d hd => ?_⟩, ?_⟩
  · exact h.clients f it' ((clear_items w.sel i f it').mp hf').1 hh'
  · obtain ⟨k, hk⟩ := h.listed j d hd
    exact ⟨k, (clear_items w.sel i _ _).mpr ⟨hk, fun he => halone j d hd (scans_one.mp he)⟩⟩
  · constructor
    · exact clear_items w.sel i
    · exact fun j d hd he => absurd (scans_one.mp he) (halone j d hd)
    · exact fun _ _ => rfl
    · intro f
      change opened f = true ↔ _
      rw [hopened]
      by_cases hfi : f = (i : Int) ∧ it.handler.closes = true
      · rw [if_pos hfi]
        refine iff_of_false (by simp) fun ⟨_, hall⟩ => ?_
        exact hall it (hfi.1 ▸ hf) hfi.2 (scans_one.mpr hfi.1.symm)
      · rw [if_neg hfi]
        refine ⟨fun ho => ⟨ho, fun it' hit' hcl he => ?_⟩, And.left⟩
        have hf' := scans_one.mp he
        rw [← hf', hf] at hit'
        cases hit'
        exact hfi ⟨hf'.symm, hcl⟩

theorem closeItem_destroys {w : World} {i : Nat} {it : Item} (h : Closable w)
    (hf : w.sel.fds i = some it) :
    ∃ u, closeItem i it w = .ok u ∧ Closable { u with sel := u.sel.clear i } ∧
      Destroyed w [i] { u with sel := u.sel.clear i } := by
  obtain ⟨interest, handler, data⟩ := it
  cases handler with
  | client =>
      obtain ⟨id, c, hd, hc, hfd⟩ := h.clients i _ hf rfl
      obtain rfl : data = .connection id := hd
      refine ⟨(w.close c.clientFd).setCell id (.freed c), ?_, h.destroyed_client hc hfd⟩
      rw [closeItem]
      dsimp only
      rw [hc]
  | origin | management =>
      exact ⟨w.close i, rfl, h.destroyed_other hf (by simp) fun f => by
        simp [World.close, FdHandler.closes]⟩
  | proxy | logger =>
      exact ⟨w, rfl, h.destroyed_other hf (by simp) fun f => by simp [FdHandler.closes]⟩

/-- Every item is closed, none twice. -/
theorem selectorDestroy_destroys (is : List Nat) : ∀ {w : World}, Closable w →
    ∃ w', selectorDestroy is w = .ok w' ∧ Destroyed w is w' := by
  induction is with
  | nil => exact fun {w} _ => ⟨w, rfl, .nil w⟩
  | cons i is ih =>
      intro w h
      cases hf : w.sel.fds i with
      | none =>
          obtain ⟨w', hr, hd⟩ := ih h
          refine ⟨w', ?_, (h.destroyed_none hf).cons hd⟩
          rw [selectorDestroy, hf]
          exact hr
      | some it =>
          obtain ⟨u, hu, hcl, hone⟩ := closeItem_destroys h hf
          obtain ⟨w', hr, hd⟩ := ih hcl
          refine ⟨w', ?_, hone.cons hd⟩
          rw [selectorDestroy, hf]
          exact Lib.bind_eq_ok.mpr ⟨u, hu, hr⟩

/-! ## Runs -/

theorem close_opened (w : World) (fd f : Int) :
    (w.close fd).opened f = true ↔ w.opened f = true ∧ f ≠ fd := by
  change (if f = fd then false else w.opened f) = true ↔ _
  by_cases hf : f = fd
  · simp [hf]
  · simp [hf]

theorem closeListeners_opened (httpd : Httpd) (w : World) (f : Int) :
    (closeListeners httpd w).opened f = true ↔ w.opened f = true ∧
      (f = httpd.proxyFd6 → httpd.proxyFd6 < 0 ∧ httpd.proxyFd4 < 0) := by
  unfold closeListeners
  dsimp only
  have hclose := close_opened w httpd.proxyFd6 f
  have hagain := close_opened (w.close httpd.proxyFd6) httpd.proxyFd6 f
  split <;> split <;> grind

theorem closeListeners_same (httpd : Httpd) (w : World) :
    (closeListeners httpd w).sel = w.sel ∧ (closeListeners httpd w).heap = w.heap := by
  unfold closeListeners
  dsimp only
  split <;> split <;> exact ⟨rfl, rfl⟩

/-- Once the loop of `main` has ended, the selector is taken down without
touching a freed connection: the table is empty, every connection that was
alive is freed and no other cell touched. Of the descriptors exactly those
registered for a client, an origin or the management socket are closed, and
`proxy_fd_6`, but not `proxy_fd_4`. -/
theorem shutdown_exact {cfg : Config} {rs : List Round} {w : World} {code : Nat} (httpd : Httpd)
    (hcfg : cfg.Plain) (hloop : mainLoop rs (initWorld cfg) = .ok (code, w))
    (hrun : Lib.RunsWhen step Undisturbed (initWorld cfg) (mainEvents rs (initWorld cfg)) w) :
    ∃ w', runDaemon httpd rs (initWorld cfg) = .ok (code, w') ∧
      (∀ f, w'.sel.fds f = none) ∧
      (∀ id c, w.heap id = .live c → w'.heap id = .freed c) ∧
      (∀ id, (∀ c, w.heap id ≠ .live c) → w'.heap id = w.heap id) ∧
      ∀ f, w'.opened f = true ↔ w.opened f = true ∧
        (∀ it, w.sel.fds f = some it → it.handler.closes = false) ∧
        (f = httpd.proxyFd6 → httpd.proxyFd6 < 0 ∧ httpd.proxyFd4 < 0) := by
  have hcl : Closable w := (lives hrun).1.closable fun f it hf hh =>
    runs_client_carries hcfg hrun.runs f it hf hh
  have hfull : nextCapacity maxConnections = 1025 := nextCapacity_full (by decide)
  obtain ⟨u, hr, hd⟩ := selectorDestroy_destroys (List.range (nextCapacity maxConnections)) hcl
  have hscans : ∀ f it, w.sel.fds f = some it →
      Scans (List.range (nextCapacity maxConnections)) f := by
    intro f it hf
    obtain ⟨h0, hlt, _⟩ := w.sel.used_range f it hf
    have hmax : itemsMaxSize = 1024 := rfl
    exact ⟨f.toNat, List.mem_range.mpr (by omega), by omega⟩
  obtain ⟨hsel, hheap⟩ := closeListeners_same httpd u
  refine ⟨closeListeners httpd u, ?_, fun f => ?_, fun id c hc => ?_, fun id hno => ?_,
    fun f => ?_⟩
  · rw [runDaemon, hloop]
    have hrest : (selectorDestroy (List.range (nextCapacity maxConnections)) w >>=
        fun w => .ok (code, closeListeners httpd w)) = .ok (code, closeListeners httpd u) :=
      Lib.bind_eq_ok.mpr ⟨u, hr, rfl⟩
    exact hrest
  · rw [hsel]
    cases hf : u.sel.fds f with
    | none => rfl
    | some it =>
        obtain ⟨hit, hns⟩ := (hd.items f it).mp hf
        exact absurd (hscans f it hit) hns
  · obtain ⟨i, hi⟩ := hcl.listed id c hc
    rw [hheap]
    exact hd.freed id c hc (hscans _ _ hi)
  · rw [hheap]
    exact hd.kept id fun c hc => absurd hc (hno c)
  · rw [closeListeners_opened, hd.opened f, and_assoc]
    refine and_congr_right fun _ => and_congr_left fun _ => ?_
    refine forall₂_congr fun it hf => ?_
    rw [← Bool.not_eq_true]
    exact ⟨fun hns hh => hns hh (hscans f it hf), fun hno hh => absurd hh hno⟩

/-- One client's request has been sent on when another is accepted and the
signal comes. -/
def relayedRounds : List Round :=
  [⟨.ready ⟨fun fd => fd == 3, fun _ => false⟩,
      fun _ => ({ Env.silent with accept := some 5 }, Env.silent), 1, 0⟩,
    ⟨.ready ⟨fun fd => fd == 5, fun _ => false⟩,
      fun _ => ({ Env.silent with recv := some getLiteral, socket := fun _ => some 6 },
        Env.silent), 1, 0⟩,
    ⟨.ready ⟨fun _ => false, fun fd => fd == 6⟩, fun _ => (Env.silent, Env.silent), 1, 0⟩,
    ⟨.ready ⟨fun fd => fd == 3, fun fd => fd == 6⟩,
      fun _ => ({ Env.silent with accept := some 7 },
        { Env.silent with send := some 1000 }), 1, 0⟩]

/-- Both connections are freed, their descriptors and the management socket
closed; the passive socket is `proxy_fd_4` and stays open. -/
theorem shutdown_exact_relayed : ∃ w w' : World,
    mainLoop relayedRounds (initWorld managed) = .ok (0, w) ∧
      w.liveAt 0 (fun c => c.stmState == .connected) = true ∧
      w.liveAt 1 (fun _ => true) = true ∧
      runDaemon ⟨3, -1⟩ relayedRounds (initWorld managed) = .ok (0, w') ∧
      (∃ c, w'.heap 0 = .freed c) ∧ (∃ c, w'.heap 1 = .freed c) ∧
      (∀ f, w'.opened f = true → f ∉ [4, 5, 6, 7]) ∧ w'.opened 3 = true := by
  have hcheck : ((mainLoop relayedRounds (initWorld managed)).toOption.any fun r =>
      r.1 == 0 && (r.2.liveAt 0 (fun c => c.stmState == .connected) &&
        r.2.liveAt 1 (fun _ => true)) && (r.2.opened 3 &&
          ([4, 5, 6, 7].all fun f => (r.2.sel.fds f).any (·.handler.closes)) &&
          (r.2.sel.fds 3).all fun it => !it.handler.closes)) = true := by decide +kernel
  have hchecked : (Lib.runChecked step checkUndisturbed
      (mainEvents relayedRounds (initWorld managed)) (initWorld managed)).isSome = true := by
    decide +kernel
  obtain ⟨⟨code, w⟩, hr, hp⟩ := (Option.any_eq_true _ _).mp hcheck
  obtain ⟨hp, hfds⟩ := (Bool.and_eq_true _ _).mp hp
  obtain ⟨hcode, hlive⟩ := (Bool.and_eq_true _ _).mp hp
  obtain ⟨hzero, hone⟩ := (Bool.and_eq_true _ _).mp hlive
  obtain ⟨hfds, hthree⟩ := (Bool.and_eq_true _ _).mp hfds
  obtain ⟨hopen, hclosing⟩ := (Bool.and_eq_true _ _).mp hfds
  obtain rfl : code = 0 := eq_of_beq hcode
  have hok : mainLoop relayedRounds (initWorld managed) = .ok (0, w) := Lib.ok_of_toOption hr
  have hrun : Lib.RunsWhen step Undisturbed (initWorld managed)
      (mainEvents relayedRounds (initWorld managed)) w := by
    have hchecks := mainLoop_checked (C := fun u e => checkUndisturbed u e = true ∧ True)
      (fun _ _ hc => ⟨hc, trivial⟩) hok hchecked
    exact ((initWorld_sound managed).undisturbed_of_checks hchecks).weaken
      fun _ _ _ hc _ => hc.1
  have hplain : managed.Plain := by
    intro l hl
    rcases List.mem_cons.mp hl with rfl | hl
    · decide
    · obtain rfl := List.mem_singleton.mp hl
      decide
  obtain ⟨w', hdaemon, -, hfreed, -, hopened⟩ := shutdown_exact ⟨3, -1⟩ hplain hok hrun
  obtain ⟨c, hc, -⟩ := World.liveAt_eq hzero
  obtain ⟨d, hd, -⟩ := World.liveAt_eq hone
  refine ⟨w, w', hok, hzero, hone, hdaemon, ⟨c, hfreed 0 c hc⟩, ⟨d, hfreed 1 d hd⟩, ?_, ?_⟩
  · intro f ho hf
    obtain ⟨it, hit, hcloses⟩ := (Option.any_eq_true _ _).mp (List.all_eq_true.mp hclosing f hf)
    rw [((hopened f).mp ho).2.1 it hit] at hcloses
    cases hcloses
  · refine (hopened 3).mpr ⟨hopen, fun it hit => ?_, fun he => absurd he (by decide)⟩
    rw [hit] at hthree
    simpa using hthree

end HttpdProxy
