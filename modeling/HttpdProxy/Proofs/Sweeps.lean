import HttpdProxy.Proofs.Daemon

/-!
# What the garbage collector sweeps

`run_garbage_collector` goes over the descriptors in order and closes the
connections that have been idle for too long, one after the other, while each
closing changes the table it goes over. A closing takes away the items of its
own connection and nothing else, so that what is left of the scan is what it
would have been: every connection is closed that was to be when the sweep
began, and no other.
-/

namespace HttpdProxy

section

variable {x₀ x : Ctx} {ci : Interest} {oi : Option Interest}

/-! ## A closing is carried out -/

/-- The origin's item, if there is one, is taken away. -/
theorem View.unregisterOrigin_ok (h : View x₀ x ci oi) :
    ∃ x', unregisterOrigin x = .ok x' ∧ View x₀ x' ci none := by
  unfold unregisterOrigin
  cases oi with
  | some i =>
      obtain ⟨_, hst⟩ := h.origin i rfl
      obtain ⟨x1, hun, _, _, hv, _⟩ := h.unregister_origin
      rw [if_pos hst, hun]
      exact ⟨x1, rfl, hv⟩
  | none =>
      by_cases hst : x.conn.originStatus = .inactiveStatus
      · rw [if_neg (by simpa using hst)]
        exact ⟨x, rfl, h⟩
      · have hn := (h.stale rfl).resolve_left hst
        rw [if_pos hst, View.unregister_none hn]
        exact ⟨x, rfl, h⟩

theorem View.done_ok (h : View x₀ x ci oi) : ∃ x', doneOnArrival x = .ok x' := by
  obtain ⟨x1, hun, hv⟩ := h.unregisterOrigin_ok
  obtain ⟨st, x2, hcl, _⟩ := hv.unregister_client
  have hderef : x1.deref = .ok x1.conn := by
    rw [Ctx.deref, hv.alive]
    rfl
  exact ⟨x2, Lib.bind_eq_ok.mpr ⟨x1, hun, Lib.bind_eq_ok.mpr
    ⟨x1.conn, hderef, Lib.bind_eq_ok.mpr ⟨(st, x2), hcl, rfl⟩⟩⟩⟩

theorem View.close_ok (h : View x₀ x ci oi) : ∃ x', closeProxyConnection x = .ok x' := by
  have hdone : closeProxyConnection x = doneOnArrival
      (if x.conn.stmState.num ≥ ConnState.sendRequestLine.num then
        x.setMetrics unregisterConnection
      else x) := rfl
  rw [hdone]
  split
  · exact h.setMetrics.done_ok
  · exact h.done_ok

end

section

variable {w w' : World} {id : Nat} {c : Conn}

theorem collect_ok (h : Sound w) (hown : Sweepable w) (fd : Int) :
    ∃ w', collect fd w = .ok w' := by
  unfold collect
  split
  · next i k id hf =>
      split
      · exact ⟨w, rfl⟩
      · next hfd =>
          rw [not_or] at hfd
          obtain ⟨c, hc⟩ := h.carried fd _ id hf rfl
          obtain ⟨oi, hrest⟩ := h.resting id c hc
          obtain ⟨x, hx⟩ : ∃ x, connectionGarbageCollect fd (w.ctx id c) = .ok x := by
            unfold connectionGarbageCollect
            split
            · next hexp =>
                obtain ⟨rfl, hexp⟩ : c.clientFd = fd ∧ w.expired c := hexp
                have hview := (hrest.of_ownOrigin
                  (hown id c hc (World.idle_iff.mpr ⟨hexp, hfd.2, hfd.1⟩))).view
                split
                · exact hview.setMetrics.close_ok
                · exact hview.close_ok
            · exact ⟨_, rfl⟩
          refine ⟨x.finish, ?_⟩
          unfold onBehalfOf
          rw [hc]
          exact Lib.bind_eq_ok.mpr ⟨x, hx, rfl⟩
  · exact ⟨w, rfl⟩

/-! ## One closing -/

/-- The sweep closes the connection. -/
def World.Swept (w : World) (c : Conn) : Prop :=
  w.expired c ∧ c.clientFd ≠ 1 ∧ c.clientFd ≠ 2

theorem Collected.swept (hc : Collected w id c w') : w.heap id = .live c ∧ w.Swept c := by
  obtain ⟨x, hlive, hexp, h1, h2, _⟩ := hc
  exact ⟨hlive, hexp, h1, h2⟩

/-- A connection that is alive after a collection was so before. -/
theorem Collected.live_of_live {d : Conn} {j : Nat} (hc : Collected w id c w')
    (hd : w'.heap j = .live d) : j ≠ id ∧ w.heap j = .live d := by
  have hj : j ≠ id := by
    rintro rfl
    rw [hc.freed] at hd
    cases hd
  exact ⟨hj, by rw [← hc.turned.frame.2.1 j hj]; exact hd⟩

/-! ## The scan -/

/-- The scan of the descriptors `is` closes the connection. -/
def World.Collects (w : World) (is : List Nat) (c : Conn) : Prop :=
  w.Swept c ∧ ∃ i ∈ is, (i : Int) = c.clientFd

/-- What the scan of `is` leaves, said of the world it began in. -/
structure Scanned (w : World) (is : List Nat) (w' : World) : Prop where
  closed : ∀ id c, w.heap id = .live c → w.Collects is c → w'.heap id = .freed c
  kept : ∀ id, (∀ c, w.heap id = .live c → ¬ w.Collects is c) → w'.heap id = w.heap id
  items : ∀ f it, w'.sel.fds f = some it ↔ w.sel.fds f = some it ∧
    ∀ id c, it.data = .connection id → w.heap id = .live c → ¬ w.Collects is c

theorem Scanned.nil (w : World) : Scanned w [] w where
  closed id c _ hs := by
    obtain ⟨_, i, hi, _⟩ := hs
    cases hi
  kept _ _ := rfl
  items f it := by
    refine ⟨fun hf => ⟨hf, fun id c _ _ hs => ?_⟩, And.left⟩
    obtain ⟨_, i, hi, _⟩ := hs
    cases hi

/-- A descriptor with nothing to close. -/
theorem Scanned.skip {i : Nat} {is : List Nat} (h : Scanned w is w')
    (hnot : ∀ id c, w.heap id = .live c → c.clientFd = (i : Int) → ¬ w.Swept c) :
    Scanned w (i :: is) w' := by
  have hsame : ∀ id c, w.heap id = .live c → (w.Collects (i :: is) c ↔ w.Collects is c) := by
    intro id c hc
    refine and_congr_right fun hs => ⟨?_, fun ⟨k, hk, he⟩ => ⟨k, List.mem_cons_of_mem _ hk, he⟩⟩
    rintro ⟨k, hk, he⟩
    rcases List.mem_cons.mp hk with rfl | hk
    · exact absurd hs (hnot id c hc he.symm)
    · exact ⟨k, hk, he⟩
  refine ⟨fun id c hc hs => h.closed id c hc ((hsame id c hc).mp hs),
    fun id hk => h.kept id fun c hc hs => hk c hc ((hsame id c hc).mpr hs), fun f it => ?_⟩
  rw [h.items f it]
  refine and_congr_right fun _ => ⟨fun hk id c hd hc hs => ?_, fun hk id c hd hc hs => ?_⟩
  · exact hk id c hd hc ((hsame id c hc).mp hs)
  · exact hk id c hd hc ((hsame id c hc).mpr hs)

/-- A descriptor whose connection is closed: it was that one's alone. -/
theorem Scanned.close {i : Nat} {is : List Nat} {w1 : World} (hsound : Sound w)
    (hc : Collected w id c w1) (hfd : (i : Int) = c.clientFd) (h : Scanned w1 is w') :
    Scanned w (i :: is) w' := by
  obtain ⟨hlive, hswept⟩ := hc.swept
  obtain ⟨hitems, hheap, _⟩ := hc.turned.frame
  have hfirst : w.Collects (i :: is) c := ⟨hswept, i, List.mem_cons_self, hfd⟩
  have hsame : ∀ j d, j ≠ id → w.heap j = .live d →
      (w.Collects (i :: is) d ↔ w1.Collects is d) := by
    intro j d hj hd
    have hne : d.clientFd ≠ (i : Int) := by
      intro he
      obtain ⟨i', hit⟩ := hsound.client_item hd
      obtain ⟨i'', hit'⟩ := hsound.client_item hlive
      rw [he, hfd, hit'] at hit
      cases hit
      exact hj rfl
    have hnow : w1.Swept d ↔ w.Swept d := by
      rw [World.Swept, World.expired, hc.now]
      rfl
    rw [World.Collects, World.Collects, hnow]
    refine and_congr_right fun _ => ⟨?_, ?_⟩
    · rintro ⟨k, hk, he⟩
      rcases List.mem_cons.mp hk with rfl | hk
      · exact absurd he.symm hne
      · exact ⟨k, hk, he⟩
    · rintro ⟨k, hk, he⟩
      exact ⟨k, List.mem_cons_of_mem _ hk, he⟩
  refine ⟨fun j d hd hs => ?_, fun j hk => ?_, fun f it => ?_⟩
  · rcases Decidable.em (j = id) with rfl | hj
    · rw [hlive] at hd
      cases hd
      rw [h.kept j (fun e he => by rw [hc.freed] at he; cases he), hc.freed]
    · exact h.closed j d ((hheap j hj).trans hd) ((hsame j d hj hd).mp hs)
  · have hj : j ≠ id := by
      rintro rfl
      exact hk c hlive hfirst
    rw [h.kept j ?_, hheap j hj]
    intro d hd hs
    rw [hheap j hj] at hd
    exact hk d hd ((hsame j d hj hd).mpr hs)
  · rw [h.items f it]
    constructor
    · rintro ⟨hf, hk⟩
      have hne := hc.none_left f it hf
      refine ⟨(hitems f it hne).mp hf, fun j d hd hlj hs => ?_⟩
      have hj : j ≠ id := fun he => hne (he ▸ hd)
      exact hk j d hd ((hheap j hj).trans hlj) ((hsame j d hj hlj).mp hs)
    · rintro ⟨hf, hk⟩
      have hne : it.data ≠ .connection id := fun hd => hk id c hd hlive hfirst
      refine ⟨(hitems f it hne).mpr hf, fun j d hd hlj hs => ?_⟩
      have hj : j ≠ id := fun he => hne (he ▸ hd)
      rw [hheap j hj] at hlj
      exact hk j d hd hlj ((hsame j d hj hlj).mpr hs)

/-- The scan is carried out to its end. -/
theorem runGarbageCollector_scans (is : List Nat) : ∀ {w : World}, Sound w →
    Sweepable w → ∃ w', runGarbageCollector is w = .ok w' ∧ Scanned w is w' := by
  induction is with
  | nil => exact fun {w} _ _ => ⟨w, rfl, .nil w⟩
  | cons i is ih =>
      intro w h ha
      obtain ⟨w1, hcol⟩ := collect_ok h ha (i : Int)
      rcases collect_cases h ha hcol with ⟨rfl, hnot⟩ | ⟨id, c, hfd, hc⟩
      · obtain ⟨w', hr, hs⟩ := ih h ha
        refine ⟨w', Lib.bind_eq_ok.mpr ⟨w1, hcol, hr⟩, hs.skip fun id c hc he hs => ?_⟩
        exact hnot id c hc he ⟨hs.1, he ▸ hs.2⟩
      · obtain ⟨w', hr, hs⟩ := ih (hc.turned.sound h) (hc.sweepable ha)
        exact ⟨w', Lib.bind_eq_ok.mpr ⟨w1, hcol, hr⟩, .close h hc hfd hs⟩

theorem Sound.scans (h : Sound w) (ha : Sweepable w) {is : List Nat}
    (hr : runGarbageCollector is w = .ok w') : Scanned w is w' := by
  obtain ⟨w1, hr1, hs⟩ := runGarbageCollector_scans is h ha
  cases hr.symm.trans hr1
  exact hs

/-- A connection that is alive after the scan was so before, and not to be
closed. -/
theorem Scanned.live {is : List Nat} (h : Scanned w is w') (hc : w'.heap id = .live c) :
    w.heap id = .live c ∧ ¬ w.Collects is c := by
  have hkept : w'.heap id = w.heap id := by
    refine h.kept id fun d hd hs => ?_
    rw [h.closed id d hd hs] at hc
    cases hc
  have hlive : w.heap id = .live c := hkept.symm.trans hc
  refine ⟨hlive, fun hs => ?_⟩
  rw [h.closed id c hlive hs] at hc
  cases hc

/-- A client's descriptor is scanned. -/
theorem Sound.scanned (h : Sound w) (hc : w.heap id = .live c) :
    ∃ i ∈ List.range (w.sel.maxFd + 1), (i : Int) = c.clientFd := by
  obtain ⟨i, hit⟩ := h.client_item hc
  obtain ⟨h0, _, hle⟩ := w.sel.used_range _ _ hit
  exact ⟨c.clientFd.toNat, List.mem_range.mpr (by omega), by omega⟩

end

/-! ## Runs -/

/-- A sweep that is due comes to its end: it frees the connections that have
been idle for too long, each with its registrations, and leaves every other
connection and every other registration as they are. -/
theorem sweep_exact {cfg : Config} {es : List Event} {w : World}
    (h : Lib.RunsWhen step Undisturbed (initWorld cfg) es w)
    (hun : Undisturbed w .garbageCollect)
    (hdue : collectionInterval ≤ w.now - w.lastCollection) :
    ∃ w', step w .garbageCollect = .ok w' ∧
      (∀ id c, w.heap id = .live c → w.Swept c → w'.heap id = .freed c) ∧
      (∀ id, (∀ c, w.heap id = .live c → ¬ w.Swept c) → w'.heap id = w.heap id) ∧
      ∀ f it, w'.sel.fds f = some it ↔ w.sel.fds f = some it ∧
        ∀ id c, it.data = .connection id → w.heap id = .live c → ¬ w.Swept c := by
  obtain ⟨hsound, _⟩ := lives h
  have hq : Quiet w { w with lastCollection := w.now } := ⟨rfl, rfl, rfl, rfl, rfl, rfl⟩
  obtain ⟨w', hr, hs⟩ := runGarbageCollector_scans (List.range (w.sel.maxFd + 1))
    (hq.sound hsound) (hq.sweepable rfl (hun.sweepable hdue))
  have hall : ∀ id c, w.heap id = .live c →
      (World.Collects { w with lastCollection := w.now } (List.range (w.sel.maxFd + 1)) c ↔
        w.Swept c) := fun id c hc => ⟨And.left, fun hsw => ⟨hsw, hsound.scanned hc⟩⟩
  refine ⟨w', ?_, fun id c hc hsw => hs.closed id c hc ((hall id c hc).mpr hsw),
    fun id hk => hs.kept id fun c hc hsw => hk c hc ((hall id c hc).mp hsw), fun f it => ?_⟩
  · rw [step, if_pos hdue]
    exact hr
  · rw [hs.items f it]
    refine and_congr_right fun _ => ⟨fun hk id c hd hc hsw => ?_, fun hk id c hd hc hsw => ?_⟩
    · exact hk id c hd hc ((hall id c hc).mpr hsw)
    · exact hk id c hd hc ((hall id c hc).mp hsw)

/-- Twelve seconds go by, and then the first connection sends another part of
its error reply. -/
def lullInCrowd : List Event :=
  crowd ++ [.tick 12, .writable 5 { Env.silent with send := some 5 }]

/-- The connection that is relayed has been idle and is closed; the one in
ERROR has not, and stays. -/
theorem sweep_exact_crowd : ∃ w w' c,
    Lib.RunsWhen step Undisturbed (initWorld loopback) lullInCrowd w ∧
      w.heap 1 = .live c ∧ c.stmState = .connected ∧ step w .garbageCollect = .ok w' ∧
      w'.heap 1 = .freed c ∧ w'.heap 0 = w.heap 0 := by
  obtain ⟨w, h, hp⟩ := @computed_run loopback lullInCrowd
    (fun w => (checkUndisturbed w .garbageCollect &&
      decide (collectionInterval ≤ w.now - w.lastCollection)) &&
      (w.liveAt 1 (fun c => c.stmState == .connected && w.idle c) &&
        w.liveAt 0 (fun c => !w.idle c))) (by decide +kernel)
  obtain ⟨hnow, hcells⟩ := (Bool.and_eq_true _ _).mp hp
  obtain ⟨hcheck, hdue⟩ := (Bool.and_eq_true _ _).mp hnow
  obtain ⟨hone, hzero⟩ := (Bool.and_eq_true _ _).mp hcells
  obtain ⟨c, hc, hone⟩ := World.liveAt_eq hone
  obtain ⟨d, hd, hzero⟩ := World.liveAt_eq hzero
  obtain ⟨hstate, hidle⟩ := (Bool.and_eq_true _ _).mp hone
  obtain ⟨w', hr, hclosed, hkept, _⟩ := sweep_exact h
    ((lives h).1.undisturbed_of_check hcheck) (of_decide_eq_true hdue)
  refine ⟨w, w', c, h, hc, eq_of_beq hstate, hr, hclosed 1 c hc (World.idle_iff.mp hidle), ?_⟩
  refine hkept 0 fun e he hswept => ?_
  rw [hd] at he
  cases he
  rw [World.idle_iff.mpr hswept] at hzero
  cases hzero

end HttpdProxy
