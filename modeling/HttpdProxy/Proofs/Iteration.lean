import HttpdProxy.Daemon.Iteration
import HttpdProxy.Proofs.Daemon
import HttpdProxy.Proofs.Frames

/-!
# For which socket a readiness was reported

A number stands for the same socket as long as the kernel does not give it out
again. The round does not look: it calls for a number whatever was reported of
it. So what was reported is right for the numbers that are still to come as
long as none of them is given out by an answer of the outside before its turn.
-/

namespace HttpdProxy

/-! ## What a handler opens -/

/-- `accept` or `socket` gives the number out. -/
def Env.HandsOut (env : Env) (fd : Int) : Prop :=
  env.accept = some fd ∨ ∃ k, env.socket k = some fd

/-- From `w` to `w'` sockets were opened only under the numbers of `P`. -/
def Opens (P : Int → Prop) (w w' : World) : Prop :=
  ∀ fd, ¬ P fd → w'.socketAt fd = w.socketAt fd

theorem opens_of_eq {P : Int → Prop} {w w' : World} (h : w'.socketAt = w.socketAt) :
    Opens P w w' := fun fd _ => congrFun h fd

theorem Opens.trans {P : Int → Prop} {w w' w'' : World} (h : Opens P w w')
    (h' : Opens P w' w'') : Opens P w w'' := fun fd hfd => (h' fd hfd).trans (h fd hfd)

/-- Closing leaves no other socket under a number. -/
theorem handleClose_socketAt {x x' : Ctx} {h : FdHandler} {key : SelectorKey}
    (hr : handleClose h key x = .ok x') : x'.world.socketAt = x.world.socketAt := by
  cases h with
  | client =>
      have hr' : proxyClientClose key x = .ok x' := hr
      unfold proxyClientClose at hr'
      split at hr'
      · split at hr'
        · split at hr'
          · cases hr'
          · cases hr'
            rfl
        · split at hr'
          · cases hr'
            rfl
          · cases hr'
      · cases hr'
  | origin | management =>
      cases hr
      rfl
  | proxy | logger =>
      cases hr
      rfl

theorem openFd_opens {P : Int → Prop} {fd : Int} (w : World) (h : P fd) :
    Opens P w (w.openFd fd) := by
  intro f hf
  have hne : f ≠ fd := fun he => hf (he ▸ h)
  exact if_neg hne

/-- What happens to the sockets in a handler; whom it runs for stays. -/
def OpensFor (env : Env) (x x' : Ctx) : Prop := Opens env.HandsOut x.world x'.world

theorem opensFor_stable (env : Env) : Stable env (OpensFor env) where
  refl _ := opens_of_eq rfl
  trans h h' := Opens.trans h h'
  setConn _ := opens_of_eq rfl
  setMetrics _ _ := opens_of_eq rfl
  setInterest _ _ _ := opens_of_eq rfl
  asked _ := opens_of_eq rfl
  opened x fd k hk _ := openFd_opens x.world (.inr ⟨k, hk⟩)
  registered _ := opens_of_eq rfl
  unregistered _ _ _ _ _ hr := by
    have hsocket := handleClose_socketAt hr
    exact opens_of_eq hsocket

theorem onBehalfOf_opens {env : Env} {w : World} {id : Nat} {f : Ctx → Except Fault Ctx}
    (hf : ∀ x, Respects (OpensFor env) x (f x)) :
    Lib.Returns (onBehalfOf w id f) (Opens env.HandsOut w) := by
  unfold onBehalfOf
  split
  · exact Lib.returns_bind (hf _) fun x hx => Lib.returns_ok hx
  · exact Lib.returns_error _

theorem acceptNewConnection_opens (env : Env) (w : World) :
    Opens env.HandsOut w (acceptNewConnection env w) := by
  unfold acceptNewConnection
  split
  · exact opens_of_eq rfl
  · next fd hfd =>
      split
      · simp only
        split
        · exact openFd_opens w (.inl hfd)
        · exact opens_of_eq rfl
      · exact opens_of_eq rfl

theorem handleRead_opens {w : World} {env : Env} {fd : Int} {it : Item} :
    Lib.Returns (handleRead env fd it w) (Opens env.HandsOut w) := by
  have hR := opensFor_stable env
  unfold handleRead
  split
  · exact Lib.returns_ok (acceptNewConnection_opens env w)
  · exact Lib.returns_ok (opens_of_eq rfl)
  · exact onBehalfOf_opens fun x => proxyClientRead_respects hR _
  · exact onBehalfOf_opens fun x => proxyOriginRead_respects hR _
  · exact Lib.returns_error _
  · exact Lib.returns_error _
  · exact Lib.returns_error _

theorem handleWrite_opens {w : World} {env : Env} {it : Item} :
    Lib.Returns (handleWrite env it w) (Opens env.HandsOut w) := by
  have hR := opensFor_stable env
  unfold handleWrite
  split
  · exact Lib.returns_error _
  · exact Lib.returns_error _
  · exact onBehalfOf_opens fun x => proxyClientWrite_respects hR
  · exact onBehalfOf_opens fun x => proxyOriginWrite_respects hR
  · exact Lib.returns_error _
  · exact Lib.returns_error _
  · exact Lib.returns_ok (opens_of_eq rfl)

/-! ## The round -/

/-- The call was reported, of the socket it is for; so a connection found
established is one whose `connect` has completed, given that `select` reports
a connecting socket writable only once it has. -/
structure Call.Due (rep : Reported) (w₀ : World) (c : Call) : Prop where
  reported : rep.of c.kind c.fd = true
  socket : c.socket = w₀.socketAt c.fd
  connected : ∀ completed : Nat → Prop,
    (∀ fd, rep.write fd = true → completed (w₀.socketAt fd)) →
    c.established = true → completed c.socket

/-- What the outside answers in the turn of `i`: a number that was reported is
given out only once its turn is over, and while `i` is read from, `i` itself
only if it was not reported for writing. -/
structure Reported.InTime (rep : Reported) (i : Int) (env : Env × Env) : Prop where
  read : ∀ fd, env.1.HandsOut fd →
    (rep.read fd = true → fd ≤ i) ∧ (rep.write fd = true → fd < i)
  write : ∀ fd, env.2.HandsOut fd → rep.read fd = true ∨ rep.write fd = true → fd ≤ i

/-- The socket under the number is the one that was reported, if any was. -/
def World.Stands (rep : Reported) (w₀ w : World) (fd : Int) : Prop :=
  rep.read fd = true ∨ rep.write fd = true → w.socketAt fd = w₀.socketAt fd

/-- Where a round that began in `w₀` has got to, with the turns of `is` still
to come. -/
structure Underway (rep : Reported) (w₀ : World) (is : List Nat) (p : Progress) : Prop where
  due : ∀ c ∈ p.calls, c.Due rep w₀
  pending : ∀ w, p.result = .ok w → ∀ i ∈ is, World.Stands rep w₀ w (i : Int)

section

variable {rep : Reported} {w₀ w : World} {p : Progress} {fd : Int}

/-- One call, for a number that still stands for what was reported. -/
theorem due_call {kind : Readiness} {established : Bool} {result : Except Fault World}
    (h : ∀ c ∈ p.calls, c.Due rep w₀) (hrep : rep.of kind fd = true)
    (hsocket : w.socketAt fd = w₀.socketAt fd) (hest : established = true → kind = .write) :
    ∀ c ∈ (p.call w fd kind established result).calls, c.Due rep w₀ := by
  intro c hc
  rcases List.mem_append.mp hc with hc | hc
  · exact h c hc
  · obtain rfl := List.mem_singleton.mp hc
    refine ⟨hrep, hsocket, fun completed hcomp he => ?_⟩
    obtain rfl := hest he
    have hdone := hcomp fd hrep
    rwa [← hsocket] at hdone

/-- The first half of a turn. -/
theorem turnRead_due {env : Env} {item : Item} (h : ∀ c ∈ p.calls, c.Due rep w₀)
    (hstands : World.Stands rep w₀ w fd) (hp : p.result = .ok w) :
    (∀ c ∈ (turnRead rep env fd item w p).calls, c.Due rep w₀) ∧
      Lib.Returns (turnRead rep env fd item w p).result (Opens env.HandsOut w) := by
  unfold turnRead
  split
  · next hc =>
      rw [Bool.and_eq_true] at hc
      exact ⟨due_call h hc.1 (hstands (.inl hc.1)) fun hf => absurd hf Bool.false_ne_true,
        handleRead_opens⟩
  · refine ⟨h, ?_⟩
    rw [hp]
    exact Lib.returns_ok (opens_of_eq rfl)

/-- And the second. -/
theorem turnWrite_due {env : Env} {data : Attachment} (h : ∀ c ∈ p.calls, c.Due rep w₀)
    (hsocket : rep.write fd = true → w.socketAt fd = w₀.socketAt fd) (hp : p.result = .ok w) :
    (∀ c ∈ (turnWrite rep env fd data w p).calls, c.Due rep w₀) ∧
      Lib.Returns (turnWrite rep env fd data w p).result (Opens env.HandsOut w) := by
  have hstay : Lib.Returns p.result (Opens env.HandsOut w) := by
    rw [hp]
    exact Lib.returns_ok (opens_of_eq rfl)
  unfold turnWrite
  split
  · exact ⟨h, hstay⟩
  · split
    · next hc =>
        rw [Bool.and_eq_true] at hc
        exact ⟨due_call h hc.1 (hsocket hc.1) fun _ => rfl, handleWrite_opens⟩
    · exact ⟨h, hstay⟩

/-- The numbers behind `i` stand for what they did, whatever is opened in the
turn of `i`. -/
theorem turn_underway {i : Nat} {is : List Nat} {env : Env × Env}
    (ht : rep.InTime (i : Int) env) (hlater : ∀ j ∈ is, i < j)
    (h : Underway rep w₀ (i :: is) p) : Underway rep w₀ is (turn rep env (i : Int) p) := by
  have hrest : Underway rep w₀ is p :=
    ⟨h.due, fun w hw j hj => h.pending w hw j (List.mem_cons_of_mem i hj)⟩
  unfold turn
  split
  · exact hrest
  · next w hw =>
      split
      · exact hrest
      · next item _ =>
          obtain ⟨hdue, hopens⟩ := @turnRead_due _ _ _ _ _ env.1 item h.due
            (h.pending w hw i List.mem_cons_self) hw
          simp only
          split
          · next f hf => exact ⟨hdue, fun u hu => by rw [hf] at hu; cases hu⟩
          · next w1 hw1 =>
              have hread := hopens w1 hw1
              have hsocket : rep.write (i : Int) = true →
                  w1.socketAt i = w₀.socketAt i := by
                intro hwrite
                rw [hread i fun ho => absurd ((ht.read i ho).2 hwrite) (Int.lt_irrefl _)]
                exact h.pending w hw i List.mem_cons_self (.inr hwrite)
              obtain ⟨hdue', hopens'⟩ := @turnWrite_due _ _ _ _ _ env.2 item.data hdue
                hsocket hw1
              refine ⟨hdue', fun w2 hw2 j hj hrep => ?_⟩
              have hlt : (i : Int) < j := by exact_mod_cast hlater j hj
              have hkept : ¬ env.1.HandsOut j := by
                intro ho
                have hr := ht.read j ho
                rcases hrep with hrep | hrep
                · have hle := hr.1 hrep
                  omega
                · have hle := hr.2 hrep
                  omega
              have hkept' : ¬ env.2.HandsOut j := by
                intro ho
                have hle := ht.write j ho hrep
                omega
              rw [hopens' w2 hw2 j hkept', hread j hkept]
              exact hrest.pending w hw j hj hrep

theorem iterate_underway {envs : Nat → Env × Env} : ∀ (is : List Nat) {p : Progress},
    (∀ i ∈ is, rep.InTime (i : Int) (envs i)) → is.Pairwise (· < ·) →
    Underway rep w₀ is p → Underway rep w₀ [] (iterate rep envs is p) := by
  intro is
  induction is with
  | nil => exact fun _ _ h => h
  | cons i is ih =>
      intro p ht hsorted h
      rw [List.forall_mem_cons] at ht
      rw [List.pairwise_cons] at hsorted
      exact ih ht.2 hsorted.2 (turn_underway ht.1 hsorted.1 h)

end

/-- In any round, whatever `select` reports and the handlers close, open and
register: if no number that was reported is given out again before its turn is
over, every handler is called for the socket its readiness was reported for. -/
theorem round_due (rep : Reported) (envs : Nat → Env × Env) (w : World)
    (ht : ∀ i ≤ w.sel.maxFd, rep.InTime (i : Int) (envs i)) :
    ∀ c ∈ (handleIteration rep envs w).calls, c.Due rep w := by
  have hstart : Underway rep w (List.range (w.sel.maxFd + 1)) (.start w) := by
    refine ⟨fun c hc => absurd hc List.not_mem_nil, fun u hu i _ _ => ?_⟩
    cases hu
    rfl
  refine (iterate_underway _ (fun i hi => ht i ?_) List.pairwise_lt_range hstart).due
  exact Nat.le_of_lt_succ (List.mem_range.mp hi)

/-! ### A round of three connections -/

def requestFor (address : String) : Bytes := ascii ("GET http://" ++ address ++ "/ HTTP/1.0\r\n")

/-- The first connection is relayed over 9, where bytes of its client wait to
be sent; two more, on 6 and 7, have not said anything yet. -/
def threeConnections : List Event :=
  [.readable 3 { Env.silent with accept := some 5 },
    .readable 5 { Env.silent with recv := some (requestFor "1.2.3.4"), socket := fun _ => some 9 },
    .writable 9 Env.silent,
    .writable 9 { Env.silent with send := some 1000 },
    .readable 5 { Env.silent with recv := some (ascii "more") },
    .readable 3 { Env.silent with accept := some 6 },
    .readable 3 { Env.silent with accept := some 7 }]

/-- The three clients can be read and 9 can be written. -/
def allReady : Reported where
  read := fun fd => fd == 5 || fd == 6 || fd == 7
  write := fun fd => fd == 9

/-- The first client is gone, the others send their requests, and the kernel
gives them the lowest numbers, 5 and 9; the `connect` to 9 is under way. -/
def reusing (i : Nat) : Env × Env :=
  if i = 6 then
    ({ Env.silent with recv := some (requestFor "5.6.7.8"), socket := fun _ => some 5 },
      Env.silent)
  else if i = 7 then
    ({ Env.silent with recv := some (requestFor "9.9.9.9"), socket := fun _ => some 9 },
      Env.silent)
  else (Env.silent, Env.silent)

/-- The write readiness of the first connection's socket establishes the
connection of the third. -/
theorem readiness_of_another_socket :
    ∃ w : World, Lib.Runs step (initWorld loopback) threeConnections w ∧
      ∃ c ∈ (handleIteration allReady reusing w).calls,
        c.fd = 9 ∧ c.established = true ∧ ¬ c.Due allReady w := by
  have hcheck : ((Lib.runChecked step (fun _ _ => true) threeConnections
      (initWorld loopback)).any fun w =>
        (handleIteration allReady reusing w).calls.any fun c =>
          c.fd == 9 && c.established && c.socket != w.socketAt c.fd) = true := by
    decide +kernel
  obtain ⟨w, hrun, hp⟩ := Lib.exists_runs hcheck
  obtain ⟨c, hc, hp⟩ := List.any_eq_true.mp hp
  simp only [Bool.and_eq_true, beq_iff_eq, bne_iff_ne] at hp
  exact ⟨w, hrun, c, hc, hp.1.1, hp.1.2, fun hdue => hp.2 hdue.socket⟩

/-- The first client is gone; the second gets the number it had, whose turn is
over, and the third one that nothing was reported of. -/
def laterOnly (i : Nat) : Env × Env :=
  if i = 6 then
    ({ Env.silent with recv := some (requestFor "5.6.7.8"), socket := fun _ => some 5 },
      Env.silent)
  else if i = 7 then
    ({ Env.silent with recv := some (requestFor "9.9.9.9"), socket := fun _ => some 10 },
      Env.silent)
  else (Env.silent, Env.silent)

theorem laterOnly_inTime (i : Nat) : allReady.InTime (i : Int) (laterOnly i) := by
  have hsilent : ∀ fd, ¬ Env.silent.HandsOut fd := by
    rintro fd (h | ⟨k, h⟩) <;> cases h
  unfold laterOnly
  split
  · next hi =>
      subst hi
      refine ⟨?_, fun fd h => absurd h (hsilent fd)⟩
      rintro fd (h | ⟨k, h⟩)
      · cases h
      · cases h
        decide
  · split
    · next hi =>
        subst hi
        refine ⟨?_, fun fd h => absurd h (hsilent fd)⟩
        rintro fd (h | ⟨k, h⟩)
        · cases h
        · cases h
          decide
    · exact ⟨fun fd h => absurd h (hsilent fd), fun fd h => absurd h (hsilent fd)⟩

/-- All three clients are called for, and all rightly. -/
theorem round_due_later :
    ∃ w : World, Lib.Runs step (initWorld loopback) threeConnections w ∧
      (handleIteration allReady laterOnly w).calls.map Call.fd = [5, 6, 7] ∧
      ∀ c ∈ (handleIteration allReady laterOnly w).calls, c.Due allReady w := by
  have hcheck : ((Lib.runChecked step (fun _ _ => true) threeConnections
      (initWorld loopback)).any fun w =>
        (handleIteration allReady laterOnly w).calls.map Call.fd == [5, 6, 7]) = true := by
    decide +kernel
  obtain ⟨w, hrun, hp⟩ := Lib.exists_runs hcheck
  exact ⟨w, hrun, eq_of_beq hp,
    round_due allReady laterOnly w fun i _ => laterOnly_inTime i⟩

end HttpdProxy
