import IpRouter.RouteManager.Reachable

/-!
# Acknowledged additions last

An `add` that returned `true` is durable. The process may be cut off at any point
and start again, other operations may fail or be rolled back, other keys may
share the target and expire: as long as the key does not add the target again,
nobody removes the target, and the reference has not expired, every state in
which the process runs holds it with its gateway and its expiration time
(`add_durable`).

`Acknowledged` says it of an index, `AcknowledgedFile` of a database: all records
of the target agree on the gateway, so the loader cannot prefer another one, and
all records of the key and the target agree on the times. The invariant is that
both hold, or the time is over (`Process.Acknowledged`). Before a crash the
process has made the first calls of an execution, which is all that is needed:
every index it may have saved is acknowledged.
-/

namespace IpRouter.RouteManager

open Theory

/-! ### The host -/

/-- When the process starts, reading the database works, and the system takes the routes to `ip`. -/
def restartable (ip : Bytes) : Activity → (c : HostCall) → c.Reply → Bool
  | .start, .readRoutes, .openFailed _ => false
  | .start, .readRoutes, .readFailed => false
  | .start, .addSystemRoute destination _, .error _ => destination ≠ ip
  | _, _, _ => true

/-- **The host**: it does not go back in time, and it is `restartable`. -/
def Env.steady (ip : Bytes) : Env := fun a h c r h' =>
  restrict Host.Answers (restartable ip a) h c r h' ∧ h.clock ≤ h'.clock

/-- The same host when no time passes. -/
def Env.still (ip : Bytes) : Env := fun a h c r h' =>
  restrict Host.Answers (restartable ip a) h c r h' ∧ h'.clock = h.clock

theorem Env.still_total (ip : Bytes) (a : Activity) (h : Host) (c : HostCall) :
    ∃ r h', Env.still ip a h c r h' := by
  cases c with
  | time => exact ⟨h.clock, h, ⟨rfl, by cases a <;> rfl⟩, rfl⟩
  | readRoutes =>
    cases hf : h.routesFile with
    | none => exact ⟨.absent, h, ⟨⟨hf, rfl⟩, by cases a <;> rfl⟩, rfl⟩
    | some content => exact ⟨.content content, h, ⟨⟨hf, rfl⟩, by cases a <;> rfl⟩, rfl⟩
  | readGlobal => exact ⟨.readFailed, h, ⟨⟨trivial, rfl⟩, by cases a <;> rfl⟩, rfl⟩
  | replaceRoutes content => exact ⟨none, _, ⟨rfl, by cases a <;> rfl⟩, rfl⟩
  | replaceGlobal content => exact ⟨none, _, ⟨rfl, by cases a <;> rfl⟩, rfl⟩
  | addSystemRoute destination gateway => exact ⟨.ok (), _, ⟨rfl, by cases a <;> rfl⟩, rfl⟩
  | deleteSystemRoute destination gateway => exact ⟨.error [], h, ⟨rfl, by cases a <;> rfl⟩, rfl⟩
  | listSystemRoutes => exact ⟨.error [], h, ⟨rfl, by cases a <;> rfl⟩, rfl⟩

theorem Env.steady_of_still {ip : Bytes} {a : Activity} (h : Host) (c : HostCall) (r : c.Reply)
    (h' : Host) (hA : Env.still ip a h c r h') : Env.steady ip a h c r h' :=
  ⟨hA.1, hA.2.ge⟩

section Clock

variable {α : Type} {ip : Bytes} {a : Activity} {p : HostProg α} {h h' : Host}
  {es : List HostEvent} {v : α}

theorem clock_of_exec (hrun : Exec (Env.steady ip a) p h es v h') :
    h.clock ≤ h'.clock ∧ ∀ now, ⟨.time, now⟩ ∈ es → h.clock ≤ now ∧ now ≤ h'.clock := by
  induction hrun with
  | ret => exact ⟨le_refl _, by simp⟩
  | call hA _ ih =>
    refine ⟨hA.2.trans ih.1, fun now hmem => ?_⟩
    rcases List.mem_cons.mp hmem with heq | hmem
    · cases heq
      have hnow := hA.1.1
      obtain rfl := hnow
      exact ⟨hA.2, ih.1⟩
    · exact ⟨hA.2.trans (ih.2 now hmem).1, (ih.2 now hmem).2⟩

theorem clock_of_still (hrun : Exec (Env.still ip a) p h es v h') :
    h'.clock = h.clock ∧ ∀ now, ⟨.time, now⟩ ∈ es → now = h.clock := by
  induction hrun with
  | ret => exact ⟨rfl, by simp⟩
  | call hA _ ih =>
    refine ⟨ih.1.trans hA.2, fun now hmem => ?_⟩
    rcases List.mem_cons.mp hmem with heq | hmem
    · cases heq
      have hnow := hA.1.1
      obtain rfl := hnow
      exact hA.2
    · exact (ih.2 now hmem).trans hA.2

/-- **A crash in a steady host**: an execution of which the crash is the first part reads no
time later than the crash. -/
theorem extend_steady (hcrash : Crash (Env.steady ip a) p h es h') :
    h.clock ≤ h'.clock ∧ ∃ es' v h'', Exec (Env.steady ip a) p h (es ++ es') v h'' ∧
      ∀ now, ⟨.time, now⟩ ∈ es ++ es' → h.clock ≤ now ∧ now ≤ h'.clock := by
  obtain ⟨q, es', v, h'', hstill, hrun⟩ := hcrash.extend (Env.still_total ip a) Env.steady_of_still
  obtain ⟨hend, hnows⟩ := clock_of_still hstill
  obtain ⟨hle, htimes⟩ := clock_of_exec hrun
  rw [hend] at hle htimes
  exact ⟨hle, es', v, h'', hrun, htimes⟩

end Clock

/-! ### Acknowledged references -/

section Acknowledged

variable [Platform]

/-- The reference of `key` to `ip` through `gateway` with these times is in the index, and no
key reaches `ip` otherwise. -/
structure Acknowledged (key ip gateway : Bytes) (ttl expiresAt : ℤ) (m : Routes) : Prop where
  /-- Keys and addresses are valid. -/
  plain : m.Plain
  /-- Nobody reaches the target otherwise. -/
  gateway : ∀ key' metadata, m.lookup key' ip = some metadata → metadata.gateway = gateway
  /-- The key holds the target. -/
  entry : ∃ metadata, m.lookup key ip = some metadata ∧ metadata.ttl = ttl ∧
    metadata.expiresAt = expiresAt

/-- The same of a database. -/
structure AcknowledgedFile (key ip gateway : Bytes) (ttl expiresAt : ℤ)
    (content : Bytes) : Prop where
  /-- Keys and addresses are valid. -/
  plain : PlainFile content
  /-- Every record of the target names the gateway. -/
  gateway : ∀ it ∈ parseRoutes content, it.ip = ip → it.gateway = gateway
  /-- There is a record of the key and the target. -/
  record : ∃ it ∈ parseRoutes content, it.key = key ∧ it.ip = ip
  /-- Every such record has the times. -/
  times : ∀ it ∈ parseRoutes content, it.key = key → it.ip = ip → it.ttl = ttl ∧
    it.expiresAt = expiresAt

variable {key ip gateway : Bytes} {ttl expiresAt : ℤ} {m : Routes}

/-- What is written of an acknowledged reference acknowledges it. -/
theorem Acknowledged.file (hquad : Canonical) (httl : 0 ≤ ttl ∧ ttl ≤ int64Max)
    (hexpires : 0 ≤ expiresAt ∧ expiresAt ≤ int64Max)
    (hm : Acknowledged key ip gateway ttl expiresAt m) :
    AcknowledgedFile key ip gateway ttl expiresAt (encodeRoutes m) := by
  have hparse := parseRoutes_encodeRoutes hquad hm.plain
  obtain ⟨metadata, hl, rfl, rfl⟩ := hm.entry
  have hplain : (savedRoute key ip metadata).Plain := hm.plain _ _ _ hl
  -- every record read comes from a reference
  have hfrom : ∀ it ∈ parseRoutes (encodeRoutes m), ∃ it₀ metadata', m.lookup it₀.key it₀.ip =
      some metadata' ∧
      it₀ = savedRoute it₀.key it₀.ip metadata' ∧ it₀.Plain ∧ parseRecord it₀.line = some it := by
    intro it hit
    rw [hparse] at hit
    obtain ⟨it₀, hmem, hread⟩ := List.mem_filterMap.mp hit
    obtain ⟨metadata', hl', heq⟩ := Routes.mem_savedRoutes_iff.mp hmem
    exact ⟨it₀, metadata', hl', heq, heq ▸ hm.plain _ _ _ hl', hread⟩
  refine ⟨plainFile_encodeRoutes hquad hm.plain, ?_, ?_, ?_⟩
  · intro it hit hip
    obtain ⟨it₀, metadata', hl', heq, hplain', hread⟩ := hfrom it hit
    obtain ⟨-, -, hip', hgw⟩ := plain_of_parseRecord_line hquad hplain' hread
    rw [← hip', hip] at hl'
    rw [hgw, heq]
    exact hm.gateway _ _ hl'
  · refine ⟨savedRoute key ip metadata, ?_, rfl, rfl⟩
    rw [hparse]
    exact List.mem_filterMap.mpr ⟨_, Routes.mem_savedRoutes_iff.mpr ⟨metadata, hl, rfl⟩,
      parseRecord_line hquad hplain ⟨httl, hexpires⟩⟩
  · intro it hit hkey hip
    obtain ⟨it₀, metadata', hl', heq, hplain', hread⟩ := hfrom it hit
    obtain ⟨-, hkey', hip', -⟩ := plain_of_parseRecord_line hquad hplain' hread
    rw [← hkey', ← hip', hkey, hip] at hl' heq
    obtain rfl := Option.some.inj (hl.symm.trans hl')
    subst heq
    rw [parseRecord_line hquad hplain' ⟨httl, hexpires⟩] at hread
    obtain rfl := Option.some.inj hread
    exact ⟨rfl, rfl⟩

/-! ### What keeps it -/

theorem Acknowledged.set (hm : Acknowledged key ip gateway ttl expiresAt m) {key' ip' : Bytes}
    {metadata : RouteMetadata} (hplain : (savedRoute key' ip' metadata).Plain)
    (hne : ¬ (key = key' ∧ ip = ip')) (hgateway : ip' = ip → metadata.gateway = gateway) :
    Acknowledged key ip gateway ttl expiresAt (m.set key' ip' metadata) := by
  refine ⟨Routes.plain_set hm.plain hplain, fun key'' metadata'' hl => ?_, ?_⟩
  · rw [Routes.lookup_set] at hl
    split_ifs at hl with hat
    · obtain rfl := Option.some.inj hl
      exact hgateway hat.2.symm
    · exact hm.gateway _ _ hl
  · obtain ⟨held, hl, hheld⟩ := hm.entry
    exact ⟨held, by rw [Routes.lookup_set, if_neg hne, hl], hheld⟩

theorem Acknowledged.forget (hm : Acknowledged key ip gateway ttl expiresAt m)
    {destination : Bytes} (hne : destination ≠ ip) (via : Bytes) :
    Acknowledged key ip gateway ttl expiresAt (m.forget destination via) := by
  have hsame : ∀ key', (m.forget destination via).lookup key' ip =
      m.lookup key' ip := fun key' => by
    rw [Routes.lookup_forget, if_neg fun hat => hne hat.1.symm]
  refine ⟨(m.sub_forget destination via).plain hm.plain, fun key' metadata hl =>
    hm.gateway key' metadata ?_, ?_⟩
  · rwa [hsame] at hl
  · rw [hsame]
    exact hm.entry

theorem Acknowledged.sweep (hm : Acknowledged key ip gateway ttl expiresAt m)
    {A : Answers Host HostCall HostCall.Reply} {now : ℤ} {keys : List Bytes} {h h' : Host}
    {es : List HostEvent} {swept : Sweep} (hlive : expiresAt = 0 ∨ now < expiresAt)
    (hrun : Exec A (Prog.loop (expireGroup now) keys ⟨m, false⟩) h es swept h') :
    Acknowledged key ip gateway ttl expiresAt swept.installed := by
  refine sweep_inv (I := fun _ s _ =>
    Acknowledged key ip gateway ttl expiresAt s.installed) ?_ ?_ hm hrun
  · intro key' ip' _ s h _ s' h' hI ho
    have hsub : s'.installed.Sub s.installed := fun _ _ _ hl => ho.lookup hl
    refine ⟨hsub.plain hI.plain, fun key'' metadata hl => ?_, ?_⟩
    · obtain ⟨old, _, hold, rfl⟩ := hsub _ _ _ hl
      exact hI.gateway _ old hold
    · obtain ⟨held, hl, httl, hexpires⟩ := hI.entry
      by_cases hat : key = key' ∧ ip = ip'
      · -- the worker is at this very reference, which is not due
        obtain ⟨rfl, rfl⟩ := hat
        have hkeep : held.keep now = true := by
          simp only [RouteMetadata.keep, hexpires, decide_eq_true_eq]
          omega
        have hdue : ∀ {metadata}, s.installed.lookup key ip = some metadata →
            metadata.keep now ≠ false := by
          intro metadata hl'
          obtain rfl := Option.some.inj (hl.symm.trans hl')
          rw [hkeep]
          simp
        cases ho with
        | kept _ => exact ⟨held, hl, httl, hexpires⟩
        | dropped found due _ _ | deleted found due _ _ | refused found due _ _ =>
          exact absurd due (hdue found)
      · exact ⟨held, by rw [ho.frame hat, hl], httl, hexpires⟩
  · intro key' _ s h hI
    refine ⟨fun key'' ip'' metadata hl => hI.plain _ _ _ ?_,
      fun key'' metadata hl => hI.gateway key'' metadata ?_, ?_⟩
    · rwa [Routes.lookup_dropIfEmpty] at hl
    · rwa [Routes.lookup_dropIfEmpty] at hl
    · rw [Routes.lookup_dropIfEmpty]
      exact hI.entry

omit [Platform] in
/-- The operation neither adds the reference again nor removes its target. -/
def Op.leaves (key ip : Bytes) : Op → Bool
  | .add destination _ key' _ => !(key' = key ∧ destination = ip)
  | .remove _ destination _ => destination ≠ ip
  | .removeSystem destination _ => destination ≠ ip
  | .expire => true
  | .setGlobalRoute _ _ => true

/-- **An operation that leaves the reference alone, in its time, keeps it acknowledged**, and saves
only indexes that acknowledge it. -/
theorem Acknowledged.opStep {s s' : Service} {l : Done}
    (hm : Acknowledged key ip gateway ttl expiresAt s.routes)
    (hvalid : l.op.Valid) (hleaves : l.op.leaves key ip = true)
    (hlive : ∀ now, ⟨.time, now⟩ ∈ l.calls → expiresAt = 0 ∨ now < expiresAt)
    (hstep : OpStep Env.any s l s') :
    Acknowledged key ip gateway ttl expiresAt s'.routes ∧
      ∀ content, ⟨.replaceRoutes content, none⟩ ∈ l.calls →
        ∃ m, content = encodeRoutes m ∧ Acknowledged key ip gateway ttl expiresAt m := by
  refine hstep.keeps hm ?_ ?_ ?_
  · intro destination via key' ttl' now hop _ _ hused
    rw [hop] at hvalid hleaves
    refine hm.set (plain_newTarget hvalid now) ?_ ?_
    · rintro ⟨rfl, rfl⟩
      simp [Op.leaves] at hleaves
    · -- the other references to the target decide its gateway
      rintro rfl
      rcases hused with ⟨key'', hused⟩ | hfree
      · obtain ⟨metadata, hl, rfl⟩ := Routes.refs_eq_some.mp hused
        exact hm.gateway _ metadata hl
      · obtain ⟨held, hl, -⟩ := hm.entry
        rw [hfree key] at hl
        cases hl
  · rintro destination via (⟨key', hop⟩ | hop) <;> rw [hop] at hleaves <;>
      exact hm.forget (of_decide_eq_true hleaves) via
  · intro _ now h es swept h' htime _ hrun
    exact hm.sweep (hlive now htime) hrun

/-- **Loading an acknowledged database gives an acknowledged index**, when the reference is in its
time and the system takes the routes to its target. -/
theorem Passed.acknowledged {now : ℤ} {h₀ h : Host} {es : List HostEvent}
    {s : Restore} {content : Bytes} (hp : Passed now h₀ (parseRoutes content) es s h)
    (hc : AcknowledgedFile key ip gateway ttl expiresAt content)
    (hlive : expiresAt = 0 ∨ now < expiresAt) (hadds : ¬ AddFailed ip es) :
    Acknowledged key ip gateway ttl expiresAt s.installed := by
  have hgateway : ∀ key' metadata, s.installed.lookup key' ip = some metadata →
      metadata.gateway = gateway := by
    intro key' metadata hl
    obtain ⟨-, it, hmem, -, -, hip, rfl⟩ := hp.installed _ _ _ hl
    exact hc.gateway it hmem hip
  refine ⟨hp.plain hc.plain, hgateway, ?_⟩
  obtain ⟨it, hmem, rfl, rfl⟩ := hc.record
  have halive : it.expired now = false := by
    rw [SavedRoute.expired_eq_false, (hc.times it hmem rfl rfl).2]
    omega
  rcases hp.complete it hmem halive with ⟨via, hactive, hin⟩ | hf
  · obtain ⟨key', metadata, hl⟩ := hp.active _ _ hactive
    have hvia : via = it.gateway := by
      rw [hc.gateway it hmem rfl, ← hgateway _ _ hl]
      exact Option.some.inj (hactive.symm.trans (hp.installed _ _ _ hl).1)
    obtain ⟨metadata, hl⟩ := hin hvia
    obtain ⟨-, it', hmem', -, hkey, hip, rfl⟩ := hp.installed _ _ _ hl
    exact ⟨_, hl, hc.times it' hmem' hkey hip⟩
  · exact absurd hf hadds

theorem LoadOutcome.acknowledged {h h' : Host} {es : List HostEvent} {r : Result} {content : Bytes}
    (ho : LoadOutcome h es r h') (hfile : h.routesFile = some content)
    (hc : AcknowledgedFile key ip gateway ttl expiresAt content)
    (hok : ∀ e ∈ es, restartable ip .start e.1 e.2 = true)
    (hlive : ∀ now, ⟨.time, now⟩ ∈ es → expiresAt = 0 ∨ now < expiresAt) :
    Acknowledged key ip gateway ttl expiresAt r.1 := by
  have hadds : ∀ {es'}, es' ⊆ es → ¬ AddFailed ip es' := by
    rintro es' hsub ⟨via, e, hmem⟩
    simpa [restartable] using hok _ (hsub hmem)
  cases ho with
  | absent hnone =>
    rw [hfile] at hnone
    cases hnone
  | unread hfailed =>
    have hread := hok _ List.mem_cons_self
    rcases hfailed with ⟨code, rfl⟩ | rfl <;> cases hread
  | incomplete hc' hpassed _ _ =>
    obtain rfl := Option.some.inj (hfile.symm.trans hc')
    exact hpassed.acknowledged hc (hlive _ (by simp)) (hadds (by intro e he; simp [he]))
  | rewritten hc' hpassed _ _ _ =>
    obtain rfl := Option.some.inj (hfile.symm.trans hc')
    exact hpassed.acknowledged hc (hlive _ (by simp)) (hadds (by intro e he; simp [he]))

/-! ### Runs -/

omit [Platform] in
/-- The host of the process. -/
def Process.host : Process → Host
  | .running s => s.host
  | .down h => h

/-- **While the reference is in its time**, the database acknowledges it, and so does the
index when the process runs. -/
def Process.Acknowledges (key ip gateway : Bytes) (ttl expiresAt : ℤ) (p : Process) : Prop :=
  expiresAt = 0 ∨ p.host.clock < expiresAt →
    (∃ content, p.host.routesFile = some content ∧
      AcknowledgedFile key ip gateway ttl expiresAt content) ∧
      ∀ s, p = .running s → Acknowledged key ip gateway ttl expiresAt s.routes

/-- A step in which no operation touches the reference. -/
structure LeavingStep (key ip : Bytes) (p : Process) (l : ProcessLabel) (p' : Process) : Prop where
  /-- It is a step on a steady host. -/
  step : ProcessStep (Env.steady ip) p l p'
  /-- The arguments are valid. -/
  valid : l.Valid
  /-- Nobody adds the reference again or removes its target. -/
  leaves : ∀ o, l.operation = some o → o.leaves key ip = true

omit [Platform] in
theorem exec_of_steady {α : Type} {a : Activity} {p : HostProg α} {h h' : Host}
    {es : List HostEvent} {v : α} (hrun : Exec (Env.steady ip a) p h es v h') :
    Exec Host.Answers p h es v h' ∧ ∀ e ∈ es, restartable ip a e.1 e.2 = true :=
  exec_restrict_iff.mp (hrun.mono fun _ _ _ _ hA => hA.1)

omit [Platform] in
/-- A time that has not come at the end had not come before. -/
theorem live_of_le {clock clock' : ℤ} (hle : clock ≤ clock')
    (hlive : expiresAt = 0 ∨ clock' < expiresAt) :
    expiresAt = 0 ∨ clock < expiresAt := by omega

/-- **Whatever happens keeps the reference acknowledged**, in its time. -/
theorem acknowledges_step (hquad : Canonical) (httl : 0 ≤ ttl ∧ ttl ≤ int64Max)
    (hexpires : 0 ≤ expiresAt ∧ expiresAt ≤ int64Max) {p p' : Process} {l : ProcessLabel}
    (hp : p.Acknowledges key ip gateway ttl expiresAt) (hstep : LeavingStep key ip p l p') :
    p'.Acknowledges key ip gateway ttl expiresAt := by
  intro hlive
  obtain ⟨hstep, hvalid, hleaves⟩ := hstep
  have hfile : ∀ {content}, (∃ m, content = encodeRoutes m ∧
      Acknowledged key ip gateway ttl expiresAt m) →
      AcknowledgedFile key ip gateway ttl expiresAt content := by
    rintro _ ⟨m, rfl, hm⟩
    exact hm.file hquad httl hexpires
  cases hstep with
  | @done s s' l hstep =>
    obtain ⟨hle, htimes⟩ := clock_of_exec hstep
    obtain ⟨hdisk, hmem⟩ := hp (live_of_le hle hlive)
    obtain ⟨hrun, -⟩ := exec_of_steady hstep
    obtain ⟨hroutes, hsaved⟩ := (hmem s rfl).opStep (hvalid _ rfl) (hleaves _ rfl)
      (fun now hnow => live_of_le (htimes now hnow).2 hlive) hrun
    refine ⟨hrun.inv (fun e he _ _ hI hA => file_exists_inv
      (fun content heq => hfile (hsaved content (heq ▸ he))) hI hA) hdisk, fun s₁ hs₁ => ?_⟩
    obtain rfl := Process.running.inj hs₁
    exact hroutes
  | @crashed s o es h' hcrash =>
    obtain ⟨hle, es', a, h'', hrun, htimes⟩ := extend_steady hcrash
    obtain ⟨hdisk, hmem⟩ := hp (live_of_le hle hlive)
    have hextended : OpStep Env.any s ⟨o, es ++ es', a.2⟩ ⟨h'', a.1⟩ := (exec_of_steady hrun).1
    obtain ⟨-, hsaved⟩ := (hmem s rfl).opStep (hvalid o rfl) (hleaves o rfl)
      (fun now hnow => live_of_le (htimes now hnow).2 hlive) hextended
    refine ⟨hcrash.inv (fun e he _ _ hI hA => file_exists_inv
      (fun content heq => hfile (hsaved content (List.mem_append_left _ (heq ▸ he)))) hI hA.1.1)
        hdisk, fun s₁ hs₁ => ?_⟩
    cases hs₁
  | stopped => exact ⟨(hp hlive).1, fun s₁ hs₁ => by cases hs₁⟩
  | @started h h' m es hstart =>
    obtain ⟨hle, htimes⟩ := clock_of_exec hstart
    obtain ⟨⟨content, hc, hack⟩, -⟩ := hp (live_of_le hle hlive)
    obtain ⟨hrun, hok⟩ := exec_of_steady hstart
    obtain ⟨reply, es', e, rfl, hload⟩ :=
      exec_start hquad (fun c hc' => Option.some.inj (hc.symm.trans hc') ▸ hack.plain) hrun
    have hroutes := hload.acknowledged hc hack (fun e he => hok e (List.mem_cons_of_mem _ he))
      fun now hnow => live_of_le (htimes now (List.mem_cons_of_mem _ hnow)).2 hlive
    refine ⟨hrun.inv (fun e he _ _ hI hA => file_exists_inv (fun saved heq => ?_) hI hA)
      ⟨content, hc, hack⟩, fun s₁ hs₁ => ?_⟩
    · subst heq
      rcases List.mem_cons.mp he with heq | he
      · cases heq
      · exact hfile ⟨_, hload.saved he, hroutes⟩
    · obtain rfl := Process.running.inj hs₁
      exact hroutes
  | @crashedStarting h h' es hcrash =>
    obtain ⟨hle, es', m, h'', hrun, htimes⟩ := extend_steady hcrash
    obtain ⟨⟨content, hc, hack⟩, -⟩ := hp (live_of_le hle hlive)
    obtain ⟨hrun, hok⟩ := exec_of_steady hrun
    obtain ⟨reply, es'', e, hes, hload⟩ :=
      exec_start hquad (fun c hc' => Option.some.inj (hc.symm.trans hc') ▸ hack.plain) hrun
    rw [hes] at hok htimes
    have hroutes := hload.acknowledged hc hack (fun e he => hok e (List.mem_cons_of_mem _ he))
      fun now hnow => live_of_le (htimes now (List.mem_cons_of_mem _ hnow)).2 hlive
    refine ⟨hcrash.inv (fun e he _ _ hI hA => file_exists_inv (fun saved heq => ?_) hI hA.1.1)
      ⟨content, hc, hack⟩, fun s₁ hs₁ => ?_⟩
    · subst heq
      have he := List.mem_append_left es' he
      rw [hes] at he
      rcases List.mem_cons.mp he with heq | he
      · cases heq
      · exact hfile ⟨_, hload.saved he, hroutes⟩
    · cases hs₁

omit [Platform] in
theorem answers_of_steady {a : Activity} (h : Host) (c : HostCall) (r : c.Reply) (h' : Host)
    (hA : Env.steady ip a h c r h') : h.Answers c r h' := hA.1.1

/-- A step on a steady host is a step, and no time goes back. -/
theorem step_of_steady {p p' : Process} {l : ProcessLabel}
    (hstep : ProcessStep (Env.steady ip) p l p') :
    ProcessStep Env.any p l p' ∧ p.host.clock ≤ p'.host.clock := by
  cases hstep with
  | done hstep => exact ⟨.done (exec_of_steady hstep).1, (clock_of_exec hstep).1⟩
  | crashed hcrash => exact ⟨.crashed (hcrash.mono answers_of_steady), (extend_steady hcrash).1⟩
  | stopped => exact ⟨.stopped, le_refl _⟩
  | started hstart => exact ⟨.started (exec_of_steady hstart).1, (clock_of_exec hstart).1⟩
  | crashedStarting hcrash =>
    exact ⟨.crashedStarting (hcrash.mono answers_of_steady), (extend_steady hcrash).1⟩

/-- What `add` leaves when it returns `true`. -/
theorem acknowledged_of_add {s s' : Service} {destination via key : Bytes}
    {ttl now : ℤ} {es : List HostEvent} (hs : s.routes.Sound)
    (hvalid : (Op.add destination via key ttl).Valid) (hnow : 0 ≤ now)
    (hstep : OpStep Env.any s ⟨.add destination via key ttl, ⟨.time, now⟩ :: es, .ok ()⟩ s') :
    0 ≤ expiration now ttl ∧ expiration now ttl ≤ int64Max ∧
      Acknowledged key destination via (max ttl 0) (expiration now ttl) s'.routes ∧
      s'.host.routesFile = some (encodeRoutes s'.routes) := by
  obtain ⟨now', h₁, es', heq, htime, ⟨-, -, -, -, hr⟩ | ⟨hfits, ho⟩⟩ :=
    exec_add (opStep_add.mp hstep).1
  · cases (Prod.mk.inj hr).2
  obtain ⟨hhead, rfl⟩ := List.cons.inj heq
  cases hhead
  have hexpires : 0 ≤ expiration now ttl ∧ expiration now ttl ≤ int64Max := by
    unfold expiration
    split_ifs with hpos
    · have := hfits hpos
      omega
    · decide
  -- what it sets is acknowledged
  have hset : ((∃ key', s.routes.refs key' destination = some via) ∨
      ∀ key', s.routes.lookup key' destination = none) →
      Acknowledged key destination via (max ttl 0) (expiration now ttl)
        (s.routes.set key destination (newTarget via now ttl)) := by
    intro hused
    have hself : (s.routes.set key destination (newTarget via now ttl)).lookup key destination =
        some (newTarget via now ttl) := by simp [Routes.lookup_set]
    have hagree : (s.routes.set key destination (newTarget via now ttl)).refs.Agree :=
      Routes.agree_set hs.agree hused
    exact ⟨Routes.plain_set hs.plain (plain_newTarget hvalid now),
      fun key' metadata hl => hagree (Routes.refs_eq_some.mpr ⟨metadata, hl, rfl⟩)
        (Routes.refs_eq_some.mpr ⟨_, hself, rfl⟩), ⟨_, hself, rfl, rfl⟩⟩
  refine ⟨hexpires.1, hexpires.2, ?_⟩
  generalize hr : (s'.routes, Except.ok ()) = r at ho
  generalize hh : s'.host = h' at ho
  cases ho with
  | conflict _ _ _ | unsaved _ _ | refused _ _ _ _ => cases (Prod.mk.inj hr).2
  | shared used save =>
    rw [(Prod.mk.inj hr).1]
    exact ⟨hset (Or.inl ⟨_, used⟩), by rw [save]⟩
  | installed free save route =>
    rw [(Prod.mk.inj hr).1]
    exact ⟨hset (Or.inr free), by rw [route, save]⟩

/-- **An addition that was acknowledged lasts.** The process starts with no database, on a steady
host, and does what it does, crashes and restarts included. At some point `add` returns `true` at
the time `now`. Then in every later state in which the process runs, if nobody added the
reference again or removed its target since and its time is not over, the index holds it, with
its gateway and its expiration time. -/
theorem add_durable (hquad : Canonical) {h₀ : Host} (hempty : h₀.routesFile = none)
    (hclock : 0 ≤ h₀.clock) {before after : List ProcessLabel}
    {s₀ s₁ s : Service} {es : List HostEvent} {now ttl : ℤ}
    (hbefore : Run (fun p l p' => l.Valid ∧ ProcessStep (Env.steady ip) p l p')
      (.down h₀) before (.running s₀)) (hvalid : (Op.add ip gateway key ttl).Valid)
    (hadd : OpStep (Env.steady ip) s₀ ⟨.add ip gateway key ttl, ⟨.time, now⟩ :: es, .ok ()⟩ s₁)
    (hafter : Run (LeavingStep key ip) (.running s₁) after (.running s))
    (hlive : ttl ≤ 0 ∨ s.host.clock < now + ttl) :
    ∃ metadata, s.routes.lookup key ip = some metadata ∧ metadata.gateway = gateway ∧
      metadata.expiresAt = if 0 < ttl then now + ttl else 0 := by
  -- the state before is sound, and the time is not before the epoch
  have hsound : (Process.running s₀).Sound ∧ 0 ≤ s₀.host.clock := by
    refine hbefore.inv (I := fun p => p.Sound ∧ 0 ≤ p.host.clock)
      (fun p l p' hp hstep => ?_) ⟨?_, hclock⟩
    · obtain ⟨hany, hle⟩ := step_of_steady hstep.2
      exact ⟨sound_step hquad hp.1 hstep.1 hany, hp.2.trans hle⟩
    · intro content hc
      rw [hempty] at hc
      cases hc
  obtain ⟨hle, htimes⟩ := clock_of_exec hadd
  have hnow : 0 ≤ now := hsound.2.trans (htimes now List.mem_cons_self).1
  obtain ⟨hpos, hmax, hack, hfile⟩ :=
    acknowledged_of_add hsound.1.1 hvalid hnow (exec_of_steady hadd).1
  have httl : 0 ≤ max ttl 0 ∧ max ttl 0 ≤ int64Max :=
    ⟨le_max_right _ _, max_le hvalid.2.2.2.2 (by decide)⟩
  -- so the addition acknowledges the reference, and every later step keeps it
  have hstart : (Process.running s₁).Acknowledges key ip gateway (max ttl 0)
      (expiration now ttl) := fun _ =>
    ⟨⟨_, hfile, hack.file hquad httl ⟨hpos, hmax⟩⟩, fun s hs => Process.running.inj hs ▸ hack⟩
  have hend := hafter.inv
    (I := Process.Acknowledges key ip gateway (max ttl 0) (expiration now ttl))
    (fun _ _ _ => acknowledges_step hquad httl ⟨hpos, hmax⟩) hstart
  have htime : expiration now ttl = 0 ∨ s.host.clock < expiration now ttl := by
    unfold expiration
    split_ifs with hlt
    · exact Or.inr (hlive.resolve_left (not_le.mpr hlt))
    · exact Or.inl rfl
  obtain ⟨metadata, hl, -, hexpires⟩ := ((hend htime).2 s rfl).entry
  exact ⟨metadata, hl, ((hend htime).2 s rfl).gateway key metadata hl, hexpires⟩

omit [Platform] in
/-- A host on which every call succeeds and no time passes is steady. -/
theorem steady_answer (ip : Bytes) (a : Activity) (h : Host) (c : HostCall) :
    Env.steady ip a h c (Host.answer { now := h.clock } h c).1
      (Host.answer { now := h.clock } h c).2 := by
  refine ⟨⟨Host.answers_answer _ _ _, ?_⟩, ?_⟩
  · cases a <;> cases c <;> try rfl
    simp only [Host.answer, ReadReply.ofFile, if_true]
    cases h.routesFile <;> rfl
  · cases c with
    | deleteSystemRoute destination gateway =>
      simp only [Host.answer]; split_ifs <;> exact le_refl _
    | _ => exact le_refl _

omit [Platform] in
/-- A program on such a host. -/
theorem exec_steady {α : Type} (ip : Bytes) (a : Activity) (p : HostProg α) (h : Host) :
    let out := p.play (fun (_ : Unit) h c => Host.answer { now := h.clock } h c) () [] h
    Exec (Env.steady ip a) p h out.1 out.2.1 out.2.2 :=
  exec_play (fun _ h c => steady_answer ip a h c) () p [] h

omit [Platform] in
/-- A key adds a target for a minute; the process is cut off while it adds another one, between the
save and the system call, and starts again. -/
theorem add_durable_crash :
    ∃ s : Service, (s.routes.lookup (text "b") (text "10.0.0.2")).isSome = true ∧
    ∃ metadata, s.routes.lookup (text "a") (text "10.0.0.1") = some metadata ∧
      metadata.gateway = text "10.0.0.254" ∧
      metadata.expiresAt = if (0 : ℤ) < 60 then 0 + 60 else 0 := by
  let _ := quadPlatform
  let ip := text "10.0.0.1"
  let h₀ : Host := ⟨none, none, fun _ => none, 0⟩
  let calm {α : Type} (p : HostProg α) (h : Host) :=
    p.play (fun (_ : Unit) h c => Host.answer { now := h.clock } h c) () [] h
  let first := calm start h₀
  let add : Op := .add ip (text "10.0.0.254") (text "a") 60
  let second := calm (add.prog first.2.1) first.2.2
  let other : Op := .add (text "10.0.0.2") (text "10.0.0.254") (text "b") 0
  let saved := second.2.1.1.installedRoutes.set (text "b") (text "10.0.0.2")
    (newTarget (text "10.0.0.254") 0 0)
  let h₂ : Host := { second.2.2 with routesFile := some (encodeRoutes saved) }
  let third := calm start h₂
  have hcrash : Crash (Env.steady ip (.op other)) (other.prog second.2.1.1) second.2.2
      [⟨.time, (0 : ℤ)⟩, ⟨.replaceRoutes (encodeRoutes saved), none⟩] h₂ :=
    .call (steady_answer ip _ _ _) (.call (steady_answer ip _ _ _) .stop)
  have hstart : ProcessStep (Env.steady ip) (.down h₀) (.started first.1)
      (.running ⟨first.2.2, first.2.1⟩) :=
    .started (exec_steady ip _ _ _)
  have hrestart : ProcessStep (Env.steady ip) (.down h₂) (.started third.1)
      (.running ⟨third.2.2, third.2.1⟩) :=
    .started (exec_steady ip _ _ _)
  have hcut : LeavingStep (text "a") ip (.running ⟨second.2.2, second.2.1.1⟩) (.crashed other)
      (.down h₂) := by
    refine ⟨.crashed hcrash, fun o ho => ?_, fun o ho => ?_⟩ <;> obtain rfl :=
      Option.some.inj ho <;> decide
  have hagain : LeavingStep (text "a") ip (.down h₂) (.started third.1)
      (.running ⟨third.2.2, third.2.1⟩) :=
    ⟨hrestart, fun o ho => (by cases ho), fun o ho => (by cases ho)⟩
  have hbefore : Run (fun p l p' => ProcessLabel.Valid l ∧ ProcessStep (Env.steady ip) p l p')
      (.down h₀) [.started first.1]
      (.running ⟨first.2.2, first.2.1⟩) := .cons ⟨fun o ho => (by cases ho), hstart⟩ .nil
  have hadd : OpStep (Env.steady ip) ⟨first.2.2, first.2.1⟩
      ⟨add, ⟨.time, (0 : ℤ)⟩ :: second.1.tail, .ok ()⟩
      ⟨second.2.2, second.2.1.1⟩ := exec_steady ip _ _ _
  exact ⟨⟨third.2.2, third.2.1⟩, by decide, add_durable (fun _ => rfl) rfl (le_refl 0) hbefore
    (by decide) hadd (.cons hcut (.cons hagain .nil)) (Or.inr (by decide))⟩

end Acknowledged

end IpRouter.RouteManager
