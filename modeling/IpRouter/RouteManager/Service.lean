import IpRouter.RouteManager.Outcomes

/-!
# The service as a state machine

The process on its host. While it runs, operations and passes of the worker
follow one another, each under `routes_mutex` and so in one step (`OpStep`). The
process may be cut off between any two calls of an operation or of `start`; then
only the host is left, and the next thing is `start` (`ProcessStep`).

What the host may answer depends on what the process is doing (`Activity`): an
`Env` says it for each activity. `Env.any` is every host, `Env.without` rules
answers out.
-/

namespace IpRouter.RouteManager

open Theory

variable [Platform]

/-- What the process is doing. -/
inductive Activity where
  /-- It starts. -/
  | start
  /-- It does an operation. -/
  | op (o : Op)

/-- What the host may answer during each activity. -/
abbrev Env := Activity → Answers Host HostCall HostCall.Reply

/-- Every host. -/
def Env.any : Env := fun _ => Host.Answers

/-- Every host that gives none of the answers `bad` describes. -/
def Env.without (bad : Activity → (c : HostCall) → c.Reply → Bool) : Env := fun a =>
  restrict Host.Answers fun c r => !bad a c r

/-- The running process and its host. -/
structure Service where
  /-- The host. -/
  host : Host
  /-- The memory of the process. -/
  memory : Memory

/-- The index of the running process. -/
abbrev Service.routes (s : Service) : Routes := s.memory.installedRoutes

/-- An operation that was done: the calls it made and its result. -/
structure Done where
  /-- The operation. -/
  op : Op
  /-- Its calls, with their answers. -/
  calls : List HostEvent
  /-- Its result. -/
  result : Except Bytes Unit

/-- The running process does an operation. -/
def OpStep (E : Env) (s : Service) (l : Done) (s' : Service) : Prop :=
  Exec (E (.op l.op)) (l.op.prog s.memory) s.host l.calls (s'.memory, l.result) s'.host

/-- An operation that got no bad answer is one on a host that gives none. -/
theorem OpStep.without {bad : Activity → (c : HostCall) → c.Reply → Bool} {s s' : Service}
    {l : Done} (h : OpStep Env.any s l s') (hbad : ∀ e ∈ l.calls, bad (.op l.op) e.1 e.2 = false) :
    OpStep (Env.without bad) s l s' :=
  exec_restrict_iff.mpr ⟨h, fun e he => by rw [hbad e he]; rfl⟩

/-- Do an operation on a host that follows a script. -/
def Service.play (s : Service) (o : Op) (script : List Decision) : Done × Service :=
  let out := (o.prog s.memory).play Host.answer {} script s.host
  (⟨o, out.1, out.2.1.2⟩, ⟨out.2.2, out.2.1.1⟩)

theorem Service.opStep_play (s : Service) (o : Op) (script : List Decision) :
    OpStep Env.any s (s.play o script).1 (s.play o script).2 :=
  exec_play Host.answers_answer {} (o.prog s.memory) script s.host

theorem Service.opStep_play_of_result {s : Service} {o : Op} {script : List Decision}
    {r : Except Bytes Unit} (h : (s.play o script).1.result = r) :
    OpStep Env.any s ⟨o, (s.play o script).1.calls, r⟩ (s.play o script).2 := by
  rw [← h]
  exact s.opStep_play o script

/-- A host without anything. -/
def bareHost : Host := ⟨none, none, fun _ => none, 0⟩

/-- Start on a host that follows a script. -/
def Host.playStart (h : Host) (script : List Decision) : List HostEvent × Service :=
  let out := start.play Host.answer {} script h
  (out.1, ⟨out.2.2, out.2.1⟩)

theorem Host.exec_playStart (h : Host) (script : List Decision) :
    Exec Host.Answers start h (h.playStart script).1 (h.playStart script).2.memory
      (h.playStart script).2.host :=
  exec_play Host.answers_answer {} start script h

/-- No save succeeded. -/
def Unsaved (es : List HostEvent) : Prop := ∀ content, ⟨.replaceRoutes content, none⟩ ∉ es

/-- Whether a call is a save that succeeded. -/
def saves : HostEvent → Bool
  | ⟨.replaceRoutes _, none⟩ => true
  | _ => false

omit [Platform] in
theorem unsaved_iff {es : List HostEvent} : Unsaved es ↔ ∀ e ∈ es, saves e = false := by
  constructor
  · intro h e he
    unfold saves
    split
    · exact absurd he (h _)
    · rfl
  · intro h content hmem
    cases h _ hmem

omit [Platform] in
/-- The database changes by saves that succeed only. -/
theorem Host.Answers.file {h h' : Host} {e : HostEvent} (hA : h.Answers e.1 e.2 h') :
    h'.routesFile = h.routesFile ∨ ∃ content, e = ⟨.replaceRoutes content, none⟩ ∧
      h'.routesFile = some content := by
  obtain ⟨c, r⟩ := e
  cases c with
  | time | listSystemRoutes =>
    obtain rfl := hA
    exact Or.inl rfl
  | readRoutes | readGlobal =>
    obtain ⟨-, rfl⟩ := hA
    exact Or.inl rfl
  | replaceRoutes content =>
    cases r with
    | none =>
      obtain rfl := hA
      exact Or.inr ⟨content, rfl, rfl⟩
    | some fault =>
      obtain rfl := hA
      exact Or.inl rfl
  | replaceGlobal content => cases r <;> obtain rfl := hA <;> exact Or.inl rfl
  | addSystemRoute destination gateway => cases r <;> obtain rfl := hA <;> exact Or.inl rfl
  | deleteSystemRoute destination gateway =>
    cases r with
    | error e =>
      obtain rfl := hA
      exact Or.inl rfl
    | ok u =>
      obtain ⟨-, rfl⟩ := hA
      exact Or.inl rfl

instance (es : List HostEvent) : Decidable (Unsaved es) := decidable_of_iff _ unsaved_iff.symm

/-- The process, running or not, on its host. -/
inductive Process where
  /-- It runs. -/
  | running (s : Service)
  /-- It does not run. -/
  | down (h : Host)

/-- What happens to the process. -/
inductive ProcessLabel where
  /-- It does an operation. -/
  | done (l : Done)
  /-- It is cut off during an operation. -/
  | crashed (o : Op)
  /-- It stops. -/
  | stopped
  /-- It starts. -/
  | started (calls : List HostEvent)
  /-- It is cut off while it starts. -/
  | crashedStarting

/-- The steps of the process. -/
inductive ProcessStep (E : Env) : Process → ProcessLabel → Process → Prop
  /-- An operation. -/
  | done {s s' : Service} {l : Done} : OpStep E s l s' →
      ProcessStep E (.running s) (.done l) (.running s')
  /-- An operation, cut off: what it changed on the host stays. -/
  | crashed {s : Service} {o : Op} {es : List HostEvent} {h' : Host} :
      Crash (E (.op o)) (o.prog s.memory) s.host es h' →
      ProcessStep E (.running s) (.crashed o) (.down h')
  /-- The end. -/
  | stopped {s : Service} : ProcessStep E (.running s) .stopped (.down s.host)
  /-- `start`. -/
  | started {h h' : Host} {m : Memory} {es : List HostEvent} :
      Exec (E .start) start h es m h' → ProcessStep E (.down h) (.started es) (.running ⟨h', m⟩)
  /-- `start`, cut off. -/
  | crashedStarting {h h' : Host} {es : List HostEvent} :
      Crash (E .start) start h es h' → ProcessStep E (.down h) .crashedStarting (.down h')

/-! ### Operations on the index -/

omit [Platform] in
/-- An operation on the index changes nothing else in memory. -/
theorem exec_onRoutes {A : Answers Host HostCall HostCall.Reply} {m m' : Memory}
    {p : Routes → HostProg (Routes × Except Bytes Unit)} {h h' : Host} {es : List HostEvent}
    {r : Except Bytes Unit} :
    Exec A (onRoutes m p) h es (m', r) h' ↔
      Exec A (p m.installedRoutes) h es (m'.installedRoutes, r) h' ∧
        m' = { m with installedRoutes := m'.installedRoutes } := by
  constructor
  · intro hrun
    obtain ⟨⟨routes, e⟩, h₁, es₁, es₂, rfl, hp, hret⟩ := exec_do_iff.mp hrun
    obtain ⟨rfl, hq, rfl⟩ := exec_pure_iff.mp hret
    obtain ⟨rfl, rfl⟩ := Prod.mk.inj hq
    exact ⟨by simpa using hp, rfl⟩
  · rintro ⟨hp, hm⟩
    refine exec_do_iff.mpr ⟨_, h', es, [], by simp, hp, ?_⟩
    rw [hm]
    exact .ret

variable {E : Env} {s s' : Service} {es : List HostEvent} {r : Except Bytes Unit}

theorem opStep_add {destination gateway key : Bytes} {ttl : ℤ} :
    OpStep E s ⟨.add destination gateway key ttl, es, r⟩ s' ↔
      Exec (E (.op (.add destination gateway key ttl)))
        (add s.routes destination gateway key ttl) s.host es
        (s'.routes, r) s'.host ∧ s'.memory = { s.memory with installedRoutes := s'.routes } := by
  rw [OpStep, Op.prog]
  exact exec_onRoutes

theorem opStep_remove {key destination gateway : Bytes} :
    OpStep E s ⟨.remove key destination gateway, es, r⟩ s' ↔
      Exec (E (.op (.remove key destination gateway)))
        (remove s.routes key destination gateway) s.host es
        (s'.routes, r) s'.host ∧ s'.memory = { s.memory with installedRoutes := s'.routes } := by
  rw [OpStep, Op.prog]
  exact exec_onRoutes

theorem opStep_removeSystem {destination gateway : Bytes} :
    OpStep E s ⟨.removeSystem destination gateway, es, r⟩ s' ↔
      Exec (E (.op (.removeSystem destination gateway)))
        (removeSystem s.routes destination gateway) s.host es
        (s'.routes, r) s'.host ∧ s'.memory = { s.memory with installedRoutes := s'.routes } := by
  rw [OpStep, Op.prog]
  exact exec_onRoutes

theorem opStep_expire (h : OpStep E s ⟨.expire, es, r⟩ s') :
    Exec (E (.op .expire)) (expireRoutes s.routes) s.host es s'.routes s'.host ∧ r = .ok () ∧
      s'.memory = { s.memory with installedRoutes := s'.routes } := by
  rw [OpStep, Op.prog] at h
  obtain ⟨hrun, hm⟩ := exec_onRoutes.mp h
  obtain ⟨swept, h₁, es₁, es₂, hes, hp, hret⟩ := exec_do_iff.mp hrun
  obtain ⟨rfl, hq, rfl⟩ := exec_pure_iff.mp hret
  obtain ⟨rfl, hr⟩ := Prod.mk.inj hq
  obtain rfl : es = es₁ := by simpa using hes
  exact ⟨hp, hr, hm⟩

theorem opStep_of_expire
    (hrun : Exec (E (.op .expire)) (expireRoutes s.routes) s.host es s'.routes s'.host)
    (hmem : s'.memory = { s.memory with installedRoutes := s'.routes }) :
    OpStep E s ⟨.expire, es, .ok ()⟩ s' := by
  rw [OpStep, Op.prog]
  exact exec_onRoutes.mpr
    ⟨exec_do_iff.mpr ⟨_, _, es, [], (List.append_nil es).symm, hrun, .ret⟩, hmem⟩

theorem opStep_setGlobalRoute {gateway : Option Bytes} {force : Bool} :
    OpStep E s ⟨.setGlobalRoute gateway force, es, r⟩ s' ↔
      Exec (E (.op (.setGlobalRoute gateway force)))
        (setGlobalRoute s.memory gateway force) s.host es
        (s'.memory, r) s'.host := Iff.rfl

/-! ### What an operation keeps -/

/-- **The rule for operations**: a property of the index that every change an operation can
make to the index keeps holds of the index it leaves, and of every index it saves, also of
one it saves and takes back. -/
theorem OpStep.keeps {P : Routes → Prop} {l : Done} (hstep : OpStep Env.any s l s')
    (hP : P s.routes)
    (hset : ∀ destination gateway key ttl now,
      l.op = .add destination gateway key ttl → ⟨.time, now⟩ ∈ l.calls →
      (0 < ttl → ttl ≤ int64Max - now) →
      ((∃ key', s.routes.refs key' destination = some gateway) ∨
        ∀ key', s.routes.lookup key' destination = none) →
      P (s.routes.set key destination (newTarget gateway now ttl)))
    (hforget : ∀ destination gateway, ((∃ key, l.op = .remove key destination gateway) ∨
      l.op = .removeSystem destination gateway) → P (s.routes.forget destination gateway))
    (hsweep : l.op = .expire → ∀ now h es swept h', ⟨.time, now⟩ ∈ l.calls → es ⊆ l.calls →
      Exec Host.Answers
        (Prog.loop (expireGroup now) s.routes.keys ⟨s.routes, false⟩) h es swept h' →
      P swept.installed) :
    P s'.routes ∧ ∀ content, ⟨.replaceRoutes content, none⟩ ∈ l.calls →
      ∃ m, content = encodeRoutes m ∧ P m := by
  obtain ⟨o, es, r⟩ := l
  cases o with
  | add destination gateway key ttl =>
    obtain ⟨now, h₁, es', rfl, -, ⟨-, -, rfl, -, hr⟩ | ⟨hfits, ho⟩⟩ :=
      exec_add (opStep_add.mp hstep).1
    · rw [(Prod.mk.inj hr).1]
      exact ⟨hP, fun content hmem => by cases List.mem_singleton.mp hmem⟩
    · have hnew := hset destination gateway key ttl now rfl List.mem_cons_self hfits
      constructor
      · generalize hr : (s'.routes, r) = result at ho
        cases ho with
        | conflict _ _ _ | unsaved _ _ | refused _ _ _ _ =>
          rw [(Prod.mk.inj hr).1]
          exact hP
        | shared used _ =>
          rw [(Prod.mk.inj hr).1]
          exact hnew (Or.inl ⟨_, used⟩)
        | installed free _ _ =>
          rw [(Prod.mk.inj hr).1]
          exact hnew (Or.inr free)
      · intro content hmem
        rcases List.mem_cons.mp hmem with heq | hmem
        · cases heq
        · rcases ho.saved hmem with ⟨rfl, hused⟩ | rfl
          · exact ⟨_, rfl, hnew hused⟩
          · exact ⟨_, rfl, hP⟩
  | remove key destination gateway =>
    rcases exec_remove (opStep_remove.mp hstep).1 with ⟨rfl, -, e, hr⟩ | ⟨-, ho⟩
    · rw [(Prod.mk.inj hr).1]
      exact ⟨hP, fun content hmem => by cases hmem⟩
    · have hforget := hforget destination gateway (Or.inl ⟨key, rfl⟩)
      exact ⟨ho.keeps hP hforget, fun content hmem => ⟨_, ho.saved hmem, hforget⟩⟩
  | removeSystem destination gateway =>
    obtain ⟨listing, h₁, es', rfl, -, ⟨rfl, -, e, hr⟩ | ho⟩ :=
      exec_removeSystem (opStep_removeSystem.mp hstep).1
    · rw [(Prod.mk.inj hr).1]
      exact ⟨hP, fun content hmem => by cases List.mem_singleton.mp hmem⟩
    · have hforget := hforget destination gateway (Or.inr rfl)
      refine ⟨ho.keeps hP hforget, fun content hmem => ?_⟩
      rcases List.mem_cons.mp hmem with heq | hmem
      · cases heq
      · exact ⟨_, ho.saved hmem, hforget⟩
  | expire =>
    obtain ⟨now, h₁, swept, es₁, es₂, h₂, rfl, -, hloop, hm, hsave⟩ :=
      exec_expireRoutes (opStep_expire hstep).1
    have hswept : P swept.installed := hsweep rfl now h₁ es₁ swept h₂ List.mem_cons_self
      (fun e he => List.mem_cons_of_mem _ (List.mem_append_left _ he)) hloop
    refine ⟨hm ▸ hswept, fun content hmem => ?_⟩
    simp only [List.mem_cons, List.mem_append] at hmem
    rcases hmem with heq | hmem | hmem
    · cases heq
    · obtain ⟨_, _, _, heq⟩ := calls_of_sweep hloop _ hmem
      cases heq
    · rcases hsave with ⟨-, rfl, -⟩ | ⟨-, fault, rfl, -⟩
      · cases hmem
      · cases List.mem_singleton.mp hmem
        exact ⟨_, rfl, hswept⟩
  | setGlobalRoute gateway force =>
    rcases exec_setGlobalRoute (opStep_setGlobalRoute.mp hstep) with ⟨rfl, -, e, hr⟩ |
      ⟨fault, rfl, -, hr⟩
    · rw [Service.routes, (Prod.mk.inj hr).1]
      exact ⟨hP, fun content hmem => by cases hmem⟩
    · have hroutes : s'.routes = s.routes := by
        rcases hr with ⟨-, hr⟩ | ⟨-, e, hr⟩ <;> rw [Service.routes, (Prod.mk.inj hr).1]
      rw [hroutes]
      exact ⟨hP, fun content hmem => by cases List.mem_singleton.mp hmem⟩

omit [Platform] in
theorem AddOutcome.routes_of_error {A : Answers Host HostCall HostCall.Reply} {m m' : Routes}
    {destination gateway key e : Bytes} {metadata : RouteMetadata} {h h' : Host}
    (ho : AddOutcome A m destination gateway key metadata h es (m', .error e) h') : m' = m := by
  cases ho <;> rfl

omit [Platform] in
theorem DeleteOutcome.routes_of_error {A : Answers Host HostCall HostCall.Reply}
    {m m' : Routes} {destination gateway e : Bytes} {h h' : Host}
    (ho : DeleteOutcome A m destination gateway h es (m', .error e) h') :
    m' = m := by
  cases ho <;> rfl

/-- An operation that fails leaves the index as it was. -/
theorem OpStep.routes_of_error {l : Done} {e : Bytes} (hstep : OpStep Env.any s l s')
    (hfailed : l.result = .error e) :
    s'.routes = s.routes := by
  obtain ⟨o, es, r⟩ := l
  obtain rfl : r = .error e := hfailed
  cases o with
  | add destination gateway key ttl =>
    obtain ⟨now, h₁, es', rfl, -, ⟨-, -, -, -, hr⟩ | ⟨-, ho⟩⟩ := exec_add (opStep_add.mp hstep).1
    · exact (Prod.mk.inj hr).1
    · exact ho.routes_of_error
  | remove key destination gateway =>
    rcases exec_remove (opStep_remove.mp hstep).1 with ⟨-, -, e, hr⟩ | ⟨-, ho⟩
    · exact (Prod.mk.inj hr).1
    · exact ho.routes_of_error
  | removeSystem destination gateway =>
    obtain ⟨listing, h₁, es', rfl, -, ⟨-, -, e, hr⟩ | ho⟩ :=
      exec_removeSystem (opStep_removeSystem.mp hstep).1
    · exact (Prod.mk.inj hr).1
    · exact ho.routes_of_error
  | expire => cases (opStep_expire hstep).2.1
  | setGlobalRoute gateway force =>
    rcases exec_setGlobalRoute (opStep_setGlobalRoute.mp hstep) with ⟨-, -, e, hr⟩ |
      ⟨fault, -, -, ⟨-, hr⟩ | ⟨-, e, hr⟩⟩
    · rw [Service.routes, (Prod.mk.inj hr).1]
    · cases (Prod.mk.inj hr).2
    · rw [Service.routes, (Prod.mk.inj hr).1]

end IpRouter.RouteManager
