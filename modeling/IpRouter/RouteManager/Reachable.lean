import IpRouter.RouteManager.Restoring
import IpRouter.RouteManager.Service

/-!
# What holds whatever happens

The process does operations, is cut off at any point, and starts again, on a host
that may fail any call. The service only passes valid arguments on
(`Op.Valid`). Then, in every state, the texts in the index are valid, keys agree
on the gateway of a target, no group is empty, and the database is one whose
records have valid texts (`sound_of_run`), also right after a crash.

That is so from an installation without a database. Whatever database there is, no
target in the index holds a newline (`oneLine_of_run`).
-/

namespace IpRouter.RouteManager

open Theory RouteService

/-! ### Indexes with less in them -/

namespace Routes

variable {m m' : Routes}

/-- What `m'` holds, `m` holds, but perhaps for the time of the last attempt. -/
def Sub (m' m : Routes) : Prop := ∀ key ip metadata', m'.lookup key ip = some metadata' →
  ∃ metadata attempt, m.lookup key ip = some metadata ∧
    metadata' = { metadata with lastAttempt := attempt }

theorem Sub.agree (hsub : m'.Sub m) (h : m.refs.Agree) : m'.refs.Agree := by
  intro key key' ip gateway gateway' hk hk'
  obtain ⟨metadata, hl, rfl⟩ := refs_eq_some.mp hk
  obtain ⟨metadata', hl', rfl⟩ := refs_eq_some.mp hk'
  obtain ⟨old, _, hold, rfl⟩ := hsub _ _ _ hl
  obtain ⟨old', _, hold', rfl⟩ := hsub _ _ _ hl'
  exact h (refs_eq_some.mpr ⟨old, hold, rfl⟩) (refs_eq_some.mpr ⟨old', hold', rfl⟩)

theorem Sub.plain [Platform] (hsub : m'.Sub m) (h : m.Plain) : m'.Plain := by
  intro key ip metadata' hl
  obtain ⟨old, _, hold, rfl⟩ := hsub key ip metadata' hl
  have hplain := h key ip old hold
  exact ⟨hplain.key, hplain.ip, hplain.gateway⟩

theorem sub_forget (m : Routes) (destination gateway : Bytes) :
    (m.forget destination gateway).Sub m := by
  intro key ip metadata' hl
  rw [lookup_forget] at hl
  split_ifs at hl
  exact ⟨metadata', metadata'.lastAttempt, hl, rfl⟩

theorem sub_sweep {A : Answers Host HostCall HostCall.Reply} {now : ℤ} {keys : List Bytes}
    {h h' : Host} {es : List HostEvent} {changed : Bool} {swept : Sweep}
    (hrun : Exec A (Prog.loop (expireGroup now) keys ⟨m, changed⟩) h es swept h') :
    swept.installed.Sub m := by
  refine sweep_inv (I := fun _ s _ => s.installed.Sub m) ?_ ?_
    (fun _ _ metadata hl => ⟨metadata, metadata.lastAttempt, hl, rfl⟩) hrun
  · intro key ip _ s h _ s' h' hI ho key' ip' metadata' hl
    obtain ⟨middle, attempt, hmiddle, rfl⟩ := ho.lookup hl
    obtain ⟨metadata, _, hmetadata, rfl⟩ := hI _ _ _ hmiddle
    exact ⟨metadata, attempt, hmetadata, rfl⟩
  · intro key _ s h hI key' ip' metadata' hl
    rw [lookup_dropIfEmpty] at hl
    exact hI _ _ _ hl

theorem agree_set (h : m.refs.Agree) {key ip : Bytes} {metadata : RouteMetadata}
    (hused : (∃ key', m.refs key' ip = some metadata.gateway) ∨ ∀ key', m.lookup key' ip = none) :
    (m.set key ip metadata).refs.Agree := by
  -- every reference to `ip` afterwards is through the gateway set
  have hip : ∀ key' gateway, (m.set key ip metadata).refs key' ip = some gateway →
      gateway = metadata.gateway := by
    intro key' gateway hk
    obtain ⟨metadata', hl, rfl⟩ := refs_eq_some.mp hk
    rw [lookup_set] at hl
    split_ifs at hl
    · exact congrArg RouteMetadata.gateway (Option.some.inj hl).symm
    · rcases hused with ⟨key'', hused⟩ | hfree
      · exact h (refs_eq_some.mpr ⟨metadata', hl, rfl⟩) hused
      · rw [hfree key'] at hl
        cases hl
  intro key' key'' ip' gateway gateway' hk hk'
  by_cases hsame : ip' = ip
  · subst hsame
    rw [hip _ _ hk, hip _ _ hk']
  · simp only [refs, lookup_set, hsame, and_false, if_false] at hk hk'
    exact h hk hk'

theorem plain_set [Platform] (h : m.Plain) {key ip : Bytes} {metadata : RouteMetadata}
    (hnew : (savedRoute key ip metadata).Plain) : (m.set key ip metadata).Plain := by
  intro key' ip' metadata' hl
  rw [lookup_set] at hl
  split_ifs at hl with hk
  · obtain ⟨rfl, rfl⟩ := hk
    obtain rfl := Option.some.inj hl
    exact hnew
  · exact h _ _ _ hl

end Routes

/-! ### Valid arguments -/

variable [Platform]

/-- **What the service checks before it calls the route manager**: the addresses
and the key of an addition. -/
def Op.Valid : Op → Prop
  | .add destination gateway key ttl =>
    validIpv4 (some destination) = true ∧ validIpv4 (some gateway) = true ∧
      key ≠ [] ∧ validRouteKey (some key) = true ∧ ttl ≤ int64Max
  | _ => True

instance : (o : Op) → Decidable o.Valid
  | .add destination gateway key ttl =>
    inferInstanceAs (Decidable (validIpv4 (some destination) = true ∧
      validIpv4 (some gateway) = true ∧ key ≠ [] ∧ validRouteKey (some key) = true ∧
        ttl ≤ int64Max))
  | .remove _ _ _ | .removeSystem _ _ | .expire | .setGlobalRoute _ _ =>
    inferInstanceAs (Decidable True)

omit [Platform] in
/-- The operation that was begun. -/
def ProcessLabel.operation : ProcessLabel → Option Op
  | .done l => some l.op
  | .crashed o => some o
  | _ => none

/-- Every operation that was begun had valid arguments. -/
def ProcessLabel.Valid (l : ProcessLabel) : Prop := ∀ o, l.operation = some o → o.Valid

theorem plain_newTarget {destination gateway key : Bytes} {ttl : ℤ}
    (h : (Op.add destination gateway key ttl).Valid) (now : ℤ) :
    (savedRoute key destination (newTarget gateway now ttl)).Plain :=
  ⟨validSavedKey_iff.mpr ⟨h.2.2.1, h.2.2.2.1⟩, h.1, h.2.1⟩

/-! ### The invariant -/

/-- **An index as the process keeps it.** -/
structure Routes.Sound (m : Routes) : Prop where
  /-- Keys and addresses are valid. -/
  plain : m.Plain
  /-- There is one gateway for each target. -/
  agree : m.refs.Agree
  /-- No key has an empty target map. -/
  noEmpty : m.NoEmpty

/-- The database, if there is one, has records with valid texts only. -/
def PlainHost (h : Host) : Prop := ∀ content, h.routesFile = some content → PlainFile content

/-- The state of the process is sound. -/
def Process.Sound : Process → Prop
  | .running s => s.routes.Sound ∧ PlainHost s.host
  | .down h => PlainHost h

theorem plainFile_encodeRoutes (hquad : Canonical) {m : Routes} (hm : m.Plain) :
    PlainFile (encodeRoutes m) := by
  intro it hit
  rw [parseRoutes_encodeRoutes hquad hm] at hit
  obtain ⟨it₀, hmem, hparse⟩ := List.mem_filterMap.mp hit
  obtain ⟨metadata, hl, heq⟩ := Routes.mem_savedRoutes_iff.mp hmem
  exact (plain_of_parseRecord_line hquad (heq ▸ hm _ _ _ hl) hparse).1

theorem sound_of_opStep (hquad : Canonical) {s s' : Service} {l : Done} (hs : s.routes.Sound)
    (hvalid : l.op.Valid) (hstep : OpStep Env.any s l s') :
    s'.routes.Sound ∧ ∀ content, ⟨.replaceRoutes content, none⟩ ∈ l.calls → PlainFile content := by
  have hkeeps := hstep.keeps (P := Routes.Sound) hs ?_ ?_ ?_
  · refine ⟨hkeeps.1, fun content hmem => ?_⟩
    obtain ⟨m, rfl, hm⟩ := hkeeps.2 content hmem
    exact plainFile_encodeRoutes hquad hm.plain
  · intro destination gateway key ttl now hop _ _ hused
    rw [hop] at hvalid
    exact ⟨Routes.plain_set hs.plain (plain_newTarget hvalid now), Routes.agree_set hs.agree hused,
      hs.noEmpty.set _ _ _⟩
  · intro destination gateway _
    have hsub := s.routes.sub_forget destination gateway
    exact ⟨hsub.plain hs.plain, hsub.agree hs.agree, Routes.noEmpty_forget _ _ _⟩
  · intro _ now h es swept h' _ _ hrun
    have hsub := Routes.sub_sweep hrun
    exact ⟨hsub.plain hs.plain, hsub.agree hs.agree, noEmpty_sweep hs.noEmpty hrun⟩

/-- The index the loader builds. -/
theorem Passed.sound {now : ℤ} {h₀ h₁ : Host} {saved : List SavedRoute} {es : List HostEvent}
    {s : Restore} (hp : Passed now h₀ saved es s h₁) (hsaved : ∀ it ∈ saved, it.Plain) :
    s.installed.Sound := by
  refine ⟨hp.plain hsaved, ?_, hp.noEmpty⟩
  intro key key' ip gateway gateway' hk hk'
  obtain ⟨metadata, hl, rfl⟩ := Routes.refs_eq_some.mp hk
  obtain ⟨metadata', hl', rfl⟩ := Routes.refs_eq_some.mp hk'
  exact Option.some.inj ((hp.installed _ _ _ hl).1.symm.trans (hp.installed _ _ _ hl').1)

theorem Routes.Sound.empty : Routes.Sound OrdMap.empty := by
  refine ⟨fun key ip metadata hl => ?_, fun key key' ip gateway gateway' hk => ?_,
    Routes.NoEmpty.empty⟩
  · cases hl
  · cases hk

theorem LoadOutcome.sound {h h' : Host} {es : List HostEvent} {r : Result} (hh : PlainHost h)
    (ho : LoadOutcome h es r h') : r.1.Sound := by
  cases ho with
  | absent _ | unread _ => exact .empty
  | incomplete hfile hpassed _ _ | rewritten hfile hpassed _ _ _ => exact hpassed.sound (hh _ hfile)

theorem sound_of_start (hquad : Canonical) {h h' : Host} {es : List HostEvent} {m : Memory}
    (hh : PlainHost h) (hrun : Exec Host.Answers start h es m h') :
    m.installedRoutes.Sound ∧ ∀ content, ⟨.replaceRoutes content, none⟩ ∈ es →
      PlainFile content := by
  obtain ⟨reply, es', e, rfl, hload⟩ := exec_start hquad hh hrun
  have hsound : m.installedRoutes.Sound := hload.sound hh
  refine ⟨hsound, fun content hmem => ?_⟩
  rcases List.mem_cons.mp hmem with heq | hmem
  · cases heq
  · rw [hload.saved hmem]
    exact plainFile_encodeRoutes hquad hsound.plain

omit [Platform] in
/-- A property of the database that every saved content has is kept by what happens on the host. -/
theorem file_inv {P : Bytes → Prop} {e : HostEvent}
    (hsaved : ∀ content, e = ⟨.replaceRoutes content, none⟩ → P content) {h h' : Host}
    (hI : ∀ content, h.routesFile = some content → P content) (hA : h.Answers e.1 e.2 h') :
    ∀ content, h'.routesFile = some content → P content := by
  intro content hc
  rcases hA.file with hkept | ⟨saved, heq, hfile⟩
  · exact hI content (hkept ▸ hc)
  · obtain rfl := Option.some.inj (hfile.symm.trans hc)
    exact hsaved saved heq

omit [Platform] in
/-- The same of a database that is there. -/
theorem file_exists_inv {P : Bytes → Prop} {e : HostEvent}
    (hsaved : ∀ content, e = ⟨.replaceRoutes content, none⟩ → P content) {h h' : Host}
    (hI : ∃ content, h.routesFile = some content ∧ P content) (hA : h.Answers e.1 e.2 h') :
    ∃ content, h'.routesFile = some content ∧ P content := by
  rcases hA.file with hkept | ⟨saved, heq, hfile⟩
  · rwa [hkept]
  · exact ⟨saved, hfile, hsaved saved heq⟩

/-- **Whatever happens keeps the state sound.** -/
theorem sound_step (hquad : Canonical) {p p' : Process} {l : ProcessLabel} (hp : p.Sound)
    (hvalid : l.Valid) (hstep : ProcessStep Env.any p l p') : p'.Sound := by
  cases hstep with
  | done hstep =>
    obtain ⟨hroutes, hsaved⟩ := sound_of_opStep hquad hp.1 (hvalid _ rfl) hstep
    exact ⟨hroutes, Exec.inv (I := PlainHost) hstep
      (fun e he _ _ hI hA => file_inv (fun content heq => hsaved content (heq ▸ he)) hI hA) hp.2⟩
  | @crashed s o es h' hcrash =>
    obtain ⟨q, es', a, h'', -, hrun⟩ := hcrash.extend Host.answers_total fun _ _ _ _ hA => hA
    have hextended : OpStep Env.any s ⟨o, es ++ es', a.2⟩ ⟨h'', a.1⟩ := hrun
    obtain ⟨-, hsaved⟩ := sound_of_opStep hquad hp.1 (hvalid o rfl) hextended
    exact hcrash.inv (I := PlainHost) (fun e he _ _ hI hA =>
      file_inv (fun content heq => hsaved content (List.mem_append_left _ (heq ▸ he))) hI hA) hp.2
  | stopped => exact hp.2
  | started hrun =>
    obtain ⟨hroutes, hsaved⟩ := sound_of_start hquad hp hrun
    exact ⟨hroutes, Exec.inv (I := PlainHost) hrun
      (fun e he _ _ hI hA => file_inv (fun content heq => hsaved content (heq ▸ he)) hI hA) hp⟩
  | crashedStarting hcrash =>
    obtain ⟨q, es', a, h'', -, hrun⟩ := hcrash.extend Host.answers_total fun _ _ _ _ hA => hA
    obtain ⟨-, hsaved⟩ := sound_of_start hquad hp hrun
    exact hcrash.inv (I := PlainHost) (fun e he _ _ hI hA =>
      file_inv (fun content heq => hsaved content (List.mem_append_left _ (heq ▸ he))) hI hA) hp

/-- **In every state the process can get into**, starting from no database, the state is sound. -/
theorem sound_of_run (hquad : Canonical) {h₀ : Host}
    (hempty : h₀.routesFile = none) {p : Process} {ls : List ProcessLabel}
    (hrun : Run (fun p l p' => l.Valid ∧ ProcessStep Env.any p l p') (.down h₀) ls p) :
    p.Sound :=
  hrun.inv (I := Process.Sound) (fun _ _ _ hp hstep => sound_step hquad hp hstep.1 hstep.2)
    fun content hc => by rw [hempty] at hc; cases hc

/-! ### From any database -/

omit [Platform] in
/-- No target in the index holds a newline. -/
def Routes.OneLine (m : Routes) : Prop :=
  ∀ key ip metadata, m.lookup key ip = some metadata → 10 ∉ ip

omit [Platform] in
theorem Routes.OneLine.set {m : Routes} (h : m.OneLine) {key ip : Bytes} (hip : 10 ∉ ip)
    (metadata : RouteMetadata) :
    (m.set key ip metadata).OneLine := by
  intro key' ip' metadata' hl
  rw [Routes.lookup_set] at hl
  split_ifs at hl with hsame
  · rwa [hsame.2]
  · exact h _ _ _ hl

omit [Platform] in
theorem Routes.Sub.oneLine {m m' : Routes} (hsub : m'.Sub m) (h : m.OneLine) : m'.OneLine := by
  intro key ip metadata' hl
  obtain ⟨metadata, _, hold, -⟩ := hsub key ip metadata' hl
  exact h key ip metadata hold

theorem oneLine_of_opStep (hquad : Canonical) {s s' : Service} {l : Done} (hs : s.routes.OneLine)
    (hvalid : l.op.Valid) (hstep : OpStep Env.any s l s') : s'.routes.OneLine := by
  refine (hstep.keeps (P := Routes.OneLine) hs ?_ ?_ ?_).1
  · intro destination gateway key ttl now hop _ _ _
    rw [hop] at hvalid
    exact hs.set (unbroken_of_validIpv4 hquad hvalid.1).newline _
  · intro destination gateway _
    exact (s.routes.sub_forget destination gateway).oneLine hs
  · intro _ now h es swept h' _ _ hrun
    exact (Routes.sub_sweep hrun).oneLine hs

/-- What a load puts into the index are the targets of records, each a field of a line. -/
theorem oneLine_of_load {h h' : Host} {es : List HostEvent} {r : Result}
    (hrun : Exec Host.Answers (loadRoutesLocked OrdMap.empty) h es r h') : r.1.OneLine := by
  have hnone : Routes.OneLine OrdMap.empty := fun key ip metadata hl => by cases hl
  obtain ⟨reply, h₁, es', rfl, -, hread⟩ := exec_lift_do_iff.mp hrun
  cases reply with
  | absent | openFailed code | readFailed =>
    obtain ⟨-, rfl, -⟩ := exec_pure_iff.mp hread
    exact hnone
  | content content =>
    obtain ⟨now, h₂, es', rfl, -, -⟩ := exec_lift_do_iff.mp hread
    obtain ⟨-, s, es₁, es₂, es₃, h₃, h₄, -, hr, hfirst, -⟩ := exec_loaded hrun
    rw [hr]
    refine exec_loop_inv (fun _ _ s _ => s.installed.OneLine) ?_ hnone hfirst
    intro done it rest es s h es' s' h' hsplit hs hstep
    have hmem : it ∈ parseRoutes content := by
      rw [hsplit]
      exact List.mem_append_right _ List.mem_cons_self
    have hip : 10 ∉ cString it.ip :=
      fun hb => (texts_of_mem_parseRoutes hmem).1 ((List.takeWhile_sublist _).subset hb)
    cases exec_restoreRecord hstep with
    | expired _ | conflict _ _ _ | failed _ _ _ => exact hs
    | shared _ _ | restored _ _ _ => exact hs.set hip _

omit [Platform] in
/-- The index of the process, while it runs, has targets without newlines. -/
def Process.OneLine : Process → Prop
  | .running s => s.routes.OneLine
  | .down _ => True

/-- **In every state the process can get into**, whatever database it found, targets hold no
newline. -/
theorem oneLine_of_run (hquad : Canonical) {h₀ : Host} {p : Process} {ls : List ProcessLabel}
    (hrun : Run (fun p l p' => l.Valid ∧ ProcessStep Env.any p l p') (.down h₀) ls p) :
    p.OneLine := by
  refine hrun.inv (I := Process.OneLine) ?_ trivial
  rintro p p' l hp ⟨hvalid, hstep⟩
  cases hstep with
  | done hstep => exact oneLine_of_opStep hquad hp (hvalid _ rfl) hstep
  | crashed _ | stopped | crashedStarting _ => trivial
  | started hrun =>
    obtain ⟨settings, h₁, es₁, es₂, -, -, hrest⟩ := exec_do_iff.mp hrun
    obtain ⟨routes, h₂, es₂, es₃, -, hload, hret⟩ := exec_do_iff.mp hrest
    obtain ⟨-, rfl, -⟩ := exec_pure_iff.mp hret
    exact oneLine_of_load hload

/-! ### A first addition -/

section Sample

omit [Platform]

/-- The first key there is takes a target. -/
def firstAddition : Done × Service :=
  let _ := quadPlatform
  (bareHost.playStart []).2.play (.add (text "10.0.0.1") (text "10.0.0.254") (text "a") 60) []

theorem run_firstAddition : ∃ ls,
    Run (fun p l p' => @ProcessLabel.Valid quadPlatform l ∧
      @ProcessStep quadPlatform Env.any p l p') (.down bareHost) ls
      (.running firstAddition.2) := by
  let _ := quadPlatform
  refine ⟨_, .cons ⟨fun o ho => (by cases ho), .started (bareHost.exec_playStart [])⟩
    (.cons ⟨fun o ho => ?_, .done ((bareHost.playStart []).2.opStep_play _ _)⟩ .nil)⟩
  obtain rfl := Option.some.inj ho
  decide

end Sample

end IpRouter.RouteManager
