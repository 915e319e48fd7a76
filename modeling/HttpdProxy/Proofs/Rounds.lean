import HttpdProxy.Daemon.MainLoop
import HttpdProxy.Proofs.Descriptors
import HttpdProxy.Proofs.Ledger
import HttpdProxy.Proofs.Sweeps

/-!
# The loop of `main` is a run

A round hands every handler the data its item had when the turn began, and
looks at the table again only where the code does. It still does what `step`
does, event by event in the order of the descriptors (`main_loop_refines`): a
handler may take away the item it was called for or register its descriptor
again, but then on behalf of the same connection. So whatever holds in every
run holds in the loop, and the loop adds that the garbage collector is asked
after every round (`idle_reaped`).
-/

namespace HttpdProxy

/-! ## The data of an item -/

/-- Two items that differ in their interests at most. -/
def Item.Alike (it it' : Item) : Prop := it.handler = it'.handler ∧ it.data = it'.data

theorem Item.Alike.trans {a b c : Item} (h : a.Alike b) (h' : b.Alike c) : a.Alike c :=
  ⟨h.1.trans h'.1, h.2.trans h'.2⟩

/-- An item is what it was, with another interest perhaps, or its connection's
own. -/
structure Keeps (x x' : Ctx) : Prop where
  id : x'.id = x.id
  items : ∀ f it', x'.world.sel.fds f = some it' →
    it'.data = .connection x.id ∨ ∃ it, x.world.sel.fds f = some it ∧ it.Alike it'

theorem Keeps.same {x x' : Ctx} (hid : x'.id = x.id) (hsel : x'.world.sel = x.world.sel) :
    Keeps x x' := ⟨hid, fun f it' hf => .inr ⟨it', by rw [← hsel, hf], rfl, rfl⟩⟩

theorem keeps_stable (env : Env) : Stable env Keeps where
  refl x := .same rfl rfl
  trans {x y z} h h' := by
    refine ⟨h'.id.trans h.id, fun f it' hf => ?_⟩
    rcases h'.items f it' hf with hd | ⟨it, hit, ha⟩
    · exact .inl (hd.trans (by rw [h.id]))
    · rcases h.items f it hit with hd | ⟨it₀, hit₀, ha₀⟩
      · exact .inl (ha.2.symm.trans hd)
      · exact .inr ⟨it₀, hit₀, ha₀.trans ha⟩
  setConn _ := .same rfl rfl
  setMetrics _ _ := .same rfl rfl
  setInterest x fd i := by
    refine ⟨rfl, fun f it' hf => ?_⟩
    have hfds : (x.setInterest fd i).world.sel.fds f
        = setFd x.world.sel.fds fd ((x.world.sel.fds fd).map fun it => { it with interest := i }) f :=
      congrFun (x.world.sel.setInterest_fds fd i) f
    rw [hfds] at hf
    rcases setFd_eq_some hf with ⟨rfl, he⟩ | ⟨_, he⟩
    · obtain ⟨it, hit, rfl⟩ := Option.map_eq_some_iff.mp he
      exact .inr ⟨it, hit, rfl, rfl⟩
    · exact .inr ⟨it', he, rfl, rfl⟩
  asked _ := .same rfl rfl
  opened _ _ _ _ _ := .same rfl rfl
  registered x := by
    refine ⟨rfl, fun f it' hf => ?_⟩
    have hreg := x.world.sel.register_cases x.conn.originFd .origin opWrite (.connection x.id)
    rcases hreg with ⟨s, hs, _, _, hfds⟩ | ⟨st, hs, _, _⟩
    · have hsel : (registerOriginSocket x).2.world.sel = s := congrArg Prod.snd hs
      rw [hsel, hfds] at hf
      rcases setFd_eq_some hf with ⟨rfl, he⟩ | ⟨_, he⟩
      · cases he
        exact .inl rfl
      · exact .inr ⟨it', he, rfl, rfl⟩
    · have hsel : (registerOriginSocket x).2.world.sel = x.world.sel := congrArg Prod.snd hs
      rw [hsel] at hf
      exact .inr ⟨it', hf, rfl, rfl⟩
  unregistered x x' fd item hf hr := by
    obtain ⟨hid, hsel⟩ := handleClose_sel hr
    refine ⟨hid, fun f it' hf' => ?_⟩
    have hf'' : setFd x'.world.sel.fds fd none f = some it' := hf'
    rcases setFd_eq_some hf'' with ⟨_, he⟩ | ⟨_, he⟩
    · cases he
    · exact .inr ⟨it', by rw [← hsel, he], rfl, rfl⟩

theorem onBehalfOf_data {w w' : World} {id : Nat} {f : Ctx → Except Fault Ctx}
    (hf : ∀ x, Respects Keeps x (f x)) (hr : onBehalfOf w id f = .ok w') {fd : Int} {it it' : Item}
    (hit : w.sel.fds fd = some it) (hd : it.data = .connection id)
    (hit' : w'.sel.fds fd = some it') : it'.data = it.data := by
  unfold onBehalfOf at hr
  split at hr
  · next c _ =>
      obtain ⟨x, hx, hfin⟩ := Lib.bind_eq_ok.mp hr
      cases hfin
      rcases (hf _ x hx).items fd it' hit' with he | ⟨it₀, hit₀, ha⟩
      · exact he.trans hd.symm
      · cases hit.symm.trans hit₀
        exact ha.2.symm
  · cases hr

/-- The item a read handler was called for, if it is still there or there
again, belongs to whom it belonged to. -/
theorem handleRead_data {w w' : World} {env : Env} {fd : Int} {it it' : Item}
    (hr : handleRead env fd it w = .ok w') (hit : w.sel.fds fd = some it)
    (hit' : w'.sel.fds fd = some it') : it'.data = it.data := by
  unfold handleRead at hr
  split at hr
  · next hh =>
      cases hr
      unfold acceptNewConnection at hit'
      split at hit'
      · cases hit.symm.trans hit'
        rfl
      · next nfd _ =>
          split at hit'
          · dsimp only at hit'
            split at hit'
            · next s hs =>
                rcases w.sel.register_cases nfd .client opRead (.connection w.nextConn) with
                  ⟨s', hs', hfree, _, hfds⟩ | ⟨st, hs', hst, _⟩
                · cases hs.symm.trans hs'
                  have hne : fd ≠ nfd := by
                    rintro rfl
                    cases hfree.symm.trans hit
                  have hit'' : s.fds fd = some it' := hit'
                  rw [hfds, setFd_of_ne hne, hit] at hit''
                  cases hit''
                  rfl
                · cases hs.symm.trans hs'
                  exact absurd rfl hst
            · cases hit.symm.trans hit'
              rfl
          · cases hit.symm.trans hit'
            rfl
  · cases hr
    cases hit.symm.trans hit'
    rfl
  · next id hh hd =>
      exact onBehalfOf_data (fun x => proxyClientRead_respects (keeps_stable env) _) hr hit hd hit'
  · next id hh hd =>
      exact onBehalfOf_data (fun x => proxyOriginRead_respects (keeps_stable env) _) hr hit hd hit'
  · cases hr
  · cases hr
  · cases hr

/-! ## The events of a round -/

/-- What is reported of one descriptor. -/
def turnEvents (rep : Reported) (env : Env × Env) (fd : Int) : List Event :=
  (if rep.read fd then [.readable fd env.1] else []) ++
    (if rep.write fd then [.writable fd env.2] else [])

/-- And of them all, in their order. -/
def roundEvents (rep : Reported) (envs : Nat → Env × Env) : List Nat → List Event
  | [] => []
  | i :: is => turnEvents rep (envs i) i ++ roundEvents rep envs is

/-- The events of one call of `selector_select`. -/
def Round.events (r : Round) (w : World) : List Event :=
  .tick r.waited ::
    match r.answer with
    | .failed => []
    | .interrupted => [.tick r.worked, .garbageCollect]
    | .ready rep =>
        roundEvents (rep.within w.master) r.envs (List.range (w.sel.maxFd + 1)) ++
          [.tick r.worked, .garbageCollect]

/-- The events of the loop. -/
def mainEvents : List Round → World → List Event
  | [], _ => []
  | r :: rs, w =>
      r.events w ++
        match selectorSelect r w with
        | .ok (.success, w) => mainEvents rs w
        | _ => []

theorem follow_turn_none {w : World} {fd : Int} (h : w.sel.fds fd = none) (rep : Reported)
    (env : Env × Env) : Lib.follow step (turnEvents rep env fd) w = .ok w := by
  have hread : step w (.readable fd env.1) = .ok w := by rw [step, h]
  have hwrite : step w (.writable fd env.2) = .ok w := by rw [step, h]
  unfold turnEvents
  rw [Lib.follow_append]
  split <;> split <;> simp [Lib.follow, hread, hwrite, bind, Except.bind]

/-- The first half of a turn. -/
theorem turnRead_result {w : World} {fd : Int} {item : Item} (h : w.sel.fds fd = some item)
    {p : Progress} (hp : p.result = .ok w) (rep : Reported) (env : Env) :
    (turnRead rep env fd item w p).result =
      Lib.follow step (if rep.read fd then [.readable fd env] else []) w := by
  have hstep : step w (.readable fd env)
      = if item.interest.read then handleRead env fd item w else .ok w := by rw [step, h]
  unfold turnRead
  by_cases hr : rep.read fd = true
  · rw [if_pos hr, Lib.follow, hstep]
    by_cases hi : item.interest.read = true
    · rw [if_pos (by rw [hr, hi]; rfl), if_pos hi]
      show handleRead env fd item w = _
      cases handleRead env fd item w <;> rfl
    · rw [if_neg (by simp [hi]), if_neg hi, hp]
      rfl
  · rw [if_neg hr, if_neg (by simp [hr]), hp]
    rfl

theorem turnRead_data {w w' : World} {fd : Int} {item item' : Item}
    (h : w.sel.fds fd = some item) {p : Progress} (hp : p.result = .ok w) {rep : Reported}
    {env : Env} (hr : (turnRead rep env fd item w p).result = .ok w')
    (h' : w'.sel.fds fd = some item') : item'.data = item.data := by
  unfold turnRead at hr
  split at hr
  · exact handleRead_data hr h h'
  · cases hp.symm.trans hr
    cases h.symm.trans h'
    rfl

/-- The second half, with data that is still right. -/
theorem turnWrite_result {w : World} {fd : Int} {data : Attachment} {p : Progress}
    (hp : p.result = .ok w) (hdata : ∀ item, w.sel.fds fd = some item → item.data = data)
    (rep : Reported) (env : Env) :
    (turnWrite rep env fd data w p).result =
      Lib.follow step (if rep.write fd then [.writable fd env] else []) w := by
  unfold turnWrite
  split
  · next h =>
      have hstep : step w (.writable fd env) = .ok w := by rw [step, h]
      rw [hp]
      split
      · rw [Lib.follow, hstep]
        rfl
      · rfl
  · next item h =>
      have hsame : { item with data := data } = item := by rw [← hdata item h]
      have hstep : step w (.writable fd env)
          = if item.interest.write then handleWrite env item w else .ok w := by rw [step, h]
      rw [hsame]
      by_cases hr : rep.write fd = true
      · rw [if_pos hr, Lib.follow, hstep]
        by_cases hi : item.interest.write = true
        · rw [if_pos (by rw [hr, hi]; rfl), if_pos hi]
          show handleWrite env item w = _
          cases handleWrite env item w <;> rfl
        · rw [if_neg (by simp [hi]), if_neg hi, hp]
          rfl
      · rw [if_neg hr, if_neg (by simp [hr]), hp]
        rfl

/-- A turn does what its events do. -/
theorem turn_result (rep : Reported) (env : Env × Env) (fd : Int) (p : Progress) :
    (turn rep env fd p).result = p.result >>= Lib.follow step (turnEvents rep env fd) := by
  unfold turn
  cases hp : p.result with
  | error f => exact hp
  | ok w =>
      dsimp only
      cases hf : w.sel.fds fd with
      | none => exact hp.trans (follow_turn_none hf rep env).symm
      | some item =>
          have hread := turnRead_result hf hp rep env.1
          have hboth : Except.bind (.ok w) (Lib.follow step (turnEvents rep env fd))
              = (turnRead rep env.1 fd item w p).result >>=
                Lib.follow step (if rep.write fd then [.writable fd env.2] else []) := by
            rw [hread, ← Lib.follow_append]
            rfl
          refine Eq.trans ?_ hboth.symm
          dsimp only
          cases hp1 : (turnRead rep env.1 fd item w p).result with
          | error f => exact hp1
          | ok w1 =>
              exact turnWrite_result hp1 (fun item' hf' => turnRead_data hf hp hp1 hf') rep env.2

theorem iterate_result (rep : Reported) (envs : Nat → Env × Env) (is : List Nat) (p : Progress) :
    (iterate rep envs is p).result = p.result >>= Lib.follow step (roundEvents rep envs is) := by
  induction is generalizing p with
  | nil =>
      rw [iterate]
      cases p.result <;> rfl
  | cons i is ih =>
      rw [iterate, ih, turn_result]
      cases p.result with
      | error f => rfl
      | ok w => exact (Lib.follow_append step _ _ w).symm

theorem collectIfDue_eq (w : World) : collectIfDue w = step w .garbageCollect := rfl

/-- What follows the handlers of a round. -/
theorem follow_collect (w : World) (seconds : Nat) :
    Lib.follow step [.tick seconds, .garbageCollect] w = collectIfDue (w.later seconds) := by
  show (step (w.later seconds) .garbageCollect >>= Except.ok) = _
  rw [← collectIfDue_eq]
  cases collectIfDue (w.later seconds) <;> rfl

/-- The end of a call that did not fail. -/
def afterHandlers (r : Round) (w : World) : Except Fault (SelectorCode × World) := do
  let w ← collectIfDue (w.later r.worked)
  .ok (.success, w)

theorem afterHandlers_result (r : Round) (w : World) :
    (afterHandlers r w).map Prod.snd = Lib.follow step [.tick r.worked, .garbageCollect] w := by
  rw [follow_collect, afterHandlers]
  cases collectIfDue (w.later r.worked) <;> rfl

/-- A call of `selector_select` does what its events do. -/
theorem selectorSelect_result (r : Round) (w : World) :
    (selectorSelect r w).map Prod.snd = Lib.follow step (r.events w) w := by
  cases ha : r.answer with
  | failed =>
      simp only [selectorSelect, Round.events, ha]
      rfl
  | interrupted =>
      simp only [selectorSelect, Round.events, ha]
      exact afterHandlers_result r (w.later r.waited)
  | ready rep =>
      have hround := iterate_result (rep.within w.master) r.envs (List.range (w.sel.maxFd + 1))
        (.start (w.later r.waited))
      simp only [selectorSelect, Round.events, ha]
      change ((iterate (rep.within w.master) r.envs (List.range (w.sel.maxFd + 1))
        (.start (w.later r.waited))).result >>= afterHandlers r).map Prod.snd
          = Lib.follow step (_ ++ _) (w.later r.waited)
      rw [hround, Lib.follow_append]
      change ((Lib.follow step _ (w.later r.waited)) >>= afterHandlers r).map Prod.snd = _
      cases Lib.follow step (roundEvents (rep.within w.master) r.envs
          (List.range (w.sel.maxFd + 1))) (w.later r.waited) with
      | error f => rfl
      | ok w1 => exact afterHandlers_result r w1

/-- The loop of `main` does, event by event, what `step` does; the failures are
the same too. -/
theorem main_loop_refines (rs : List Round) (w : World) :
    (mainLoop rs w).map Prod.snd = Lib.follow step (mainEvents rs w) w := by
  induction rs generalizing w with
  | nil => rfl
  | cons r rs ih =>
      have hselect := selectorSelect_result r w
      rw [mainLoop, mainEvents, Lib.follow_append, ← hselect]
      cases hs : selectorSelect r w with
      | error f => rfl
      | ok p =>
          obtain ⟨status, w1⟩ := p
          cases status with
          | success => exact ih w1
          | enomem | maxfd | iargs | io | fdinuse => rfl

/-- A loop whose events have been checked. -/
theorem mainLoop_checked {rs : List Round} {w w' : World} {code : Nat}
    {C : World → Event → Prop} {check : World → Event → Bool}
    (hcheck : ∀ w e, check w e = true → C w e) (hloop : mainLoop rs w = .ok (code, w'))
    (h : (Lib.runChecked step check (mainEvents rs w) w).isSome = true) :
    Lib.RunsWhen step C w (mainEvents rs w) w' := by
  obtain ⟨u, hu⟩ := Option.isSome_iff_exists.mp h
  have hfollow := main_loop_refines rs w
  rw [hloop, Lib.follow_of_runChecked hu] at hfollow
  obtain rfl : w' = u := Except.ok.inj hfollow
  exact Lib.runsWhen_of_runChecked hcheck hu

/-! ## The clock -/

/-- No handler sets the clock, or the time of the last collection. -/
def SameClock (w w' : World) : Prop :=
  w'.now = w.now ∧ w'.lastCollection = w.lastCollection

theorem handleClose_clock {x x' : Ctx} {h : FdHandler} {key : SelectorKey}
    (hr : handleClose h key x = .ok x') : SameClock x.world x'.world := by
  cases h with
  | client =>
      have hr' : proxyClientClose key x = .ok x' := hr
      unfold proxyClientClose at hr'
      split at hr'
      · split at hr'
        · split at hr'
          · cases hr'
          · cases hr'
            exact ⟨rfl, rfl⟩
        · split at hr'
          · cases hr'
            exact ⟨rfl, rfl⟩
          · cases hr'
      · cases hr'
  | origin | management =>
      cases hr
      exact ⟨rfl, rfl⟩
  | proxy | logger =>
      cases hr
      exact ⟨rfl, rfl⟩

theorem sameClock_stable : WorldStable SameClock where
  refl _ := ⟨rfl, rfl⟩
  trans h h' := ⟨h'.1.trans h.1, h'.2.trans h.2⟩
  handler _ :=
    { refl := fun _ => ⟨rfl, rfl⟩
      trans := fun h h' => ⟨h'.1.trans h.1, h'.2.trans h.2⟩
      setConn := fun _ => ⟨rfl, rfl⟩
      setMetrics := fun _ _ => ⟨rfl, rfl⟩
      setInterest := fun _ _ _ => ⟨rfl, rfl⟩
      asked := fun _ => ⟨rfl, rfl⟩
      opened := fun _ _ _ _ _ => ⟨rfl, rfl⟩
      registered := fun _ => ⟨rfl, rfl⟩
      unregistered := fun x x' _ _ _ hr => by
        have hclock : SameClock x.world x'.world := handleClose_clock hr
        exact hclock }
  setCell _ _ _ := ⟨rfl, rfl⟩
  accept env w := by
    unfold acceptNewConnection
    split
    · exact ⟨rfl, rfl⟩
    · split
      · dsimp only
        split <;> exact ⟨rfl, rfl⟩
      · exact ⟨rfl, rfl⟩
  manage _ _ _ := ⟨rfl, rfl⟩

/-- After a round that did not fail the last collection is not long past. -/
theorem collectIfDue_recent {w w' : World} (h : collectIfDue w = .ok w') :
    w'.now - w'.lastCollection < collectionInterval := by
  unfold collectIfDue at h
  split at h
  · obtain ⟨hnow, hlast⟩ := sameClock_stable.sweep _ _ w' h
    have hinterval : 0 < collectionInterval := by decide
    rw [hnow, hlast]
    dsimp only
    omega
  · next hnot =>
      cases h
      omega

theorem selectorSelect_recent {r : Round} {w w' : World}
    (h : selectorSelect r w = .ok (.success, w')) :
    w'.now - w'.lastCollection < collectionInterval := by
  have hafter : ∀ u, afterHandlers r u = .ok (.success, w') →
      w'.now - w'.lastCollection < collectionInterval := by
    intro u hu
    obtain ⟨v, hv, hok⟩ := Lib.bind_eq_ok.mp hu
    cases hok
    exact collectIfDue_recent hv
  unfold selectorSelect at h
  dsimp only at h
  split at h
  · cases h
  · exact hafter _ h
  · obtain ⟨u, _, hu⟩ := Lib.bind_eq_ok.mp h
    exact hafter u hu

theorem mainLoop_recent {rs : List Round} {w w' : World} (h : mainLoop rs w = .ok (0, w')) :
    w' = w ∨ w'.now - w'.lastCollection < collectionInterval := by
  induction rs generalizing w with
  | nil =>
      cases h
      exact .inl rfl
  | cons r rs ih =>
      obtain ⟨⟨status, w1⟩, hs, hrest⟩ := Lib.bind_eq_ok.mp h
      dsimp only at hrest
      split at hrest
      · cases hrest
      · next hok =>
          obtain rfl : status = .success := Decidable.not_not.mp hok
          rcases ih hrest with rfl | hrecent
          · exact .inr (selectorSelect_recent hs)
          · exact .inr hrecent

/-! ## Idle connections -/

section

variable {w w' : World} {id : Nat} {c : Conn} {e : Event}

/-- An event that is not the connection's own leaves it alone, unless it is a
collection. -/
theorem heap_of_not_actor (h : Sound w) (hun : Undisturbed w e) (hid : id < w.nextConn)
    (hact : e.actor w ≠ some id) (hgc : e ≠ .garbageCollect) (hr : step w e = .ok w') :
    w'.heap id = w.heap id := by
  rcases step_cases h hun hr with hq | ⟨fd, d, hacc⟩ | ⟨j, hj, hs⟩ | ⟨rfl, _⟩
  · rw [hq.heap]
  · rw [hacc.heap]
    exact if_neg (by omega)
  · have hne : id ≠ j := by
      rintro rfl
      exact hact hj
    exact hs.turned.frame.2.1 id hne
  · exact absurd rfl hgc

/-- The connection is as it was, and no collection since `start` found it idle
for too long; or it was collected. -/
def Waits (start : Nat) (id : Nat) (c : Conn) (w : World) : Prop :=
  w.heap id = .freed c ∨ (w.heap id = .live c ∧
    (w.lastCollection ≤ start ∨ w.lastCollection < c.lastActionTime + maxInactiveTime))

theorem Waits.of_heap {start : Nat} (h : Waits start id c w) (hh : w'.heap id = w.heap id)
    (hlast : w'.lastCollection = w.lastCollection) : Waits start id c w' := by
  rw [Waits, hh, hlast]
  exact h

theorem Waits.step {start : Nat} (h : Waits start id c w) (hs : Sound w)
    (hun : Undisturbed w e) (hact : e.actor w ≠ some id) (hfd : c.clientFd ≠ 1 ∧ c.clientFd ≠ 2)
    (hr : step w e = .ok w') : Waits start id c w' := by
  have hid : id < w.nextConn := hs.lt_nextConn (by
    rcases h with h | ⟨h, _⟩ <;> rw [h] <;> simp)
  cases e with
  | readable fd env =>
      exact h.of_heap (heap_of_not_actor hs hun hid hact (by simp) hr)
        (sameClock_stable.readable hr).2
  | writable fd env =>
      exact h.of_heap (heap_of_not_actor hs hun hid hact (by simp) hr)
        (sameClock_stable.writable hr).2
  | tick seconds =>
      cases hr
      exact h
  | garbageCollect =>
      rw [HttpdProxy.step] at hr
      split at hr
      · next hdue =>
        have hq : Quiet w { w with lastCollection := w.now } := ⟨rfl, rfl, rfl, rfl, rfl, rfl⟩
        have hscan := (hq.sound hs).scans (hq.sweepable rfl (hun.sweepable hdue)) hr
        obtain ⟨hnow, hlast⟩ := sameClock_stable.sweep _ _ w' hr
        rcases h with hfreed | ⟨hlive, _⟩
        · left
          rw [hscan.kept id fun d hd => ?_]
          · exact hfreed
          · cases hfreed.symm.trans hd
        · by_cases hsw : w.Swept c
          · have hcol : World.Collects { w with lastCollection := w.now }
                (List.range (w.sel.maxFd + 1)) c := ⟨hsw, hs.scanned hlive⟩
            exact .inl (hscan.closed id c hlive hcol)
          · have hkept : w'.heap id = w.heap id := hscan.kept id fun d hd hcol => by
              cases hlive.symm.trans hd
              exact hsw hcol.1
            have hfresh : ¬ maxInactiveTime ≤ w.now - c.lastActionTime := fun he =>
              hsw ⟨he, hfd⟩
            refine .inr ⟨hkept.trans hlive, .inr ?_⟩
            rw [hlast]
            dsimp only
            omega
      · cases hr
        exact h

end

theorem runs_past {cfg : Config} {es : List Event} {w : World}
    (h : Lib.Runs step (initWorld cfg) es w) : w.lastCollection ≤ w.now := by
  refine h.invariant (I := fun w => w.lastCollection ≤ w.now) (fun u e u' hle hr => ?_)
    (Nat.le_refl 0)
  cases e with
  | readable fd env =>
      obtain ⟨hnow, hlast⟩ := sameClock_stable.readable hr
      rwa [hnow, hlast]
  | writable fd env =>
      obtain ⟨hnow, hlast⟩ := sameClock_stable.writable hr
      rwa [hnow, hlast]
  | tick seconds =>
      cases hr
      exact Nat.le_trans hle (Nat.le_add_right _ _)
  | garbageCollect =>
      rw [step] at hr
      split at hr
      · obtain ⟨hnow, hlast⟩ := sameClock_stable.sweep _ _ u' hr
        rw [hnow, hlast]
      · cases hr
        exact hle

/-- The loop goes on from a state of a run, and nothing happens on either
socket of a connection any more. It has been collected by the end of every
round that ends 8 seconds after the present and after the 12 seconds it may be
idle for. -/
theorem idle_reaped {cfg : Config} {es : List Event} {w w' : World} {rs : List Round} {id : Nat}
    {c : Conn} (h : Lib.RunsWhen step Undisturbed (initWorld cfg) es w)
    (hc : w.heap id = .live c) (hfd : c.clientFd ≠ 1 ∧ c.clientFd ≠ 2)
    (hloop : mainLoop rs w = .ok (0, w'))
    (hidle : Lib.RunsWhen step (fun u e => Undisturbed u e ∧ e.actor u ≠ some id) w
      (mainEvents rs w) w')
    (hpresent : w.now + collectionInterval ≤ w'.now)
    (hlong : c.lastActionTime + maxInactiveTime + collectionInterval ≤ w'.now) :
    w'.heap id = .freed c := by
  have hboth : Sound w' ∧ Waits w.now id c w' := by
    refine hidle.invariant (I := fun u => Sound u ∧ Waits w.now id c u) ?_
      ⟨(lives h).1, .inr ⟨hc, .inl (runs_past h.runs)⟩⟩
    intro u e u' hu hcond hr
    exact ⟨(step_population hu.1 hcond.1 hr).1, hu.2.step hu.1 hcond.1 hcond.2 hfd hr⟩
  have hinterval : collectionInterval = 8 := rfl
  rcases hboth.2 with hfreed | ⟨_, hlast⟩
  · exact hfreed
  · rcases mainLoop_recent hloop with rfl | hrecent
    · omega
    · omega

/-- Twenty seconds in which only the connection in ERROR sends something. -/
def quietRound : Round where
  answer := .ready ⟨fun _ => false, fun fd => fd == 5⟩
  envs := fun _ => (Env.silent, { Env.silent with send := some 5 })
  waited := 20
  worked := 0

/-- The connection that is relayed has been silent, and is collected. -/
theorem idle_reaped_crowd : ∃ (w w' : World) (c : Conn),
    w.heap 1 = .live c ∧ c.stmState = .connected ∧ mainLoop [quietRound] w = .ok (0, w') ∧
      w'.heap 1 = .freed c := by
  let check : World → Event → Bool := fun u e => checkUndisturbed u e && e.actor u != some 1
  obtain ⟨w, h, hp⟩ := @computed_run loopback crowd
    (fun w => (w.liveAt 1 (fun c => c.stmState == .connected && c.clientFd == 7 &&
        c.lastActionTime == 0) && w.now == 0) &&
      ((mainLoop [quietRound] w).toOption.any fun r => r.1 == 0 && r.2.now == 20) &&
      (Lib.runChecked step check (mainEvents [quietRound] w) w).isSome) (by decide +kernel)
  obtain ⟨hp, hchecked⟩ := (Bool.and_eq_true _ _).mp hp
  obtain ⟨hp, hloop⟩ := (Bool.and_eq_true _ _).mp hp
  obtain ⟨hone, hnow⟩ := (Bool.and_eq_true _ _).mp hp
  obtain ⟨c, hc, hone⟩ := World.liveAt_eq hone
  obtain ⟨⟨code, w'⟩, hr, hcode⟩ := (Option.any_eq_true _ _).mp hloop
  simp only [Bool.and_eq_true, beq_iff_eq] at hcode hone hnow
  obtain ⟨⟨hstate, hfd⟩, hlast⟩ := hone
  obtain ⟨rfl, hnow'⟩ := hcode
  have hok : mainLoop [quietRound] w = .ok (0, w') := Lib.ok_of_toOption hr
  have hidle := mainLoop_checked
    (C := fun u e => checkUndisturbed u e = true ∧ e.actor u ≠ some 1)
    (fun u e ha => by
      obtain ⟨h1, h2⟩ := (Bool.and_eq_true _ _).mp ha
      exact ⟨h1, bne_iff_ne.mp h2⟩) hok hchecked
  have hfreed := idle_reaped h hc (by rw [hfd]; decide) hok
    ((lives h).1.undisturbed_of_checks hidle) (by rw [hnow, hnow']; decide)
    (by rw [hlast, hnow']; decide)
  exact ⟨w, w', c, hc, hstate, hok, hfreed⟩

end HttpdProxy
