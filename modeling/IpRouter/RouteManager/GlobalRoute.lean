import IpRouter.RouteManager.Codec
import IpRouter.RouteManager.Service

/-!
# The global route settings

The settings outlive the process in a file of their own. `set_global_route` puts
the new settings into memory, saves them, and takes them back when that fails;
`start` reads them. Nothing else touches the file (`Local`).

`Holds` says what the file is for given settings, and `global_of_run` that memory
and file hold the settings of the last call that succeeded, over any run in which
nothing is cut off and every start can read the file.
-/

namespace IpRouter.RouteManager

open Theory

/-! ### What the other operations do not do -/

/-- The call does not replace the settings file. -/
def Local : HostCall → Prop
  | .replaceGlobal _ => False
  | _ => True

/-- A host on which only such calls are made keeps the file. -/
theorem Host.Answers.globalFile {h h' : Host} {e : HostEvent} (hA : h.Answers e.1 e.2 h')
    (he : Local e.1) :
    h'.globalFile = h.globalFile := by
  obtain ⟨c, r⟩ := e
  cases c with
  | time | listSystemRoutes =>
    obtain rfl := hA
    rfl
  | readRoutes | readGlobal =>
    obtain ⟨-, rfl⟩ := hA
    rfl
  | replaceRoutes content => cases r <;> obtain rfl := hA <;> rfl
  | replaceGlobal content => exact he.elim
  | addSystemRoute destination gateway => cases r <;> obtain rfl := hA <;> rfl
  | deleteSystemRoute destination gateway =>
    cases r with
    | error e =>
      obtain rfl := hA
      rfl
    | ok u =>
      obtain ⟨-, rfl⟩ := hA
      rfl

theorem globalFile_of_exec {α : Type} {p : HostProg α} (hp : p.Only Local) {h h' : Host}
    {es : List HostEvent} {a : α} (hrun : Exec Host.Answers p h es a h') :
    h'.globalFile = h.globalFile :=
  Exec.inv (I := fun h₁ => h₁.globalFile = h.globalFile) hrun
    (fun e he _ _ hI hA => (hA.globalFile (hrun.only hp e he)).trans hI) rfl

variable [Platform]

theorem only_saveRoutesLocked (m : Routes) : (saveRoutesLocked m).Only Local := by
  apply Prog.only_bind
  · exact Prog.only_lift.mpr trivial
  · intro fault
    trivial

theorem only_commit (m candidate : Routes) : (commit m candidate).Only Local := by
  apply Prog.only_bind (only_saveRoutesLocked candidate)
  intro result
  cases result <;> trivial

theorem only_add (m : Routes) (destination gateway key : Bytes) (ttl : ℤ) :
    (add m destination gateway key ttl).Only Local := by
  apply Prog.only_bind (Prog.only_lift.mpr trivial)
  intro now
  split
  · trivial
  unfold addTarget
  split
  · apply only_commit
  split
  · split
    · trivial
    · apply only_commit
  apply Prog.only_bind (only_saveRoutesLocked _)
  intro saved
  cases saved with
  | error e => trivial
  | ok u =>
    apply Prog.only_bind (Prog.only_lift.mpr trivial)
    intro added
    cases added with
    | error e => exact Prog.only_bind (only_saveRoutesLocked _) fun _ => trivial
    | ok u => trivial

theorem only_deleteRoute (m : Routes) (destination gateway : Bytes) :
    (deleteRoute m destination gateway).Only Local := by
  apply Prog.only_bind (Prog.only_lift.mpr trivial)
  intro deleted
  cases deleted with
  | error e => trivial
  | ok u =>
    apply Prog.only_bind (only_saveRoutesLocked _)
    intro saved
    cases saved with
    | error e => exact Prog.only_bind (Prog.only_lift.mpr trivial) fun _ => trivial
    | ok u => trivial

theorem only_remove (m : Routes) (key destination gateway : Bytes) :
    (remove m key destination gateway).Only Local := by
  unfold remove
  split
  · trivial
  split
  · trivial
  split
  · trivial
  · apply only_deleteRoute

theorem only_removeSystem (m : Routes) (destination gateway : Bytes) :
    (removeSystem m destination gateway).Only Local := by
  apply Prog.only_bind (Prog.only_lift.mpr trivial)
  intro listing
  cases listing with
  | error e => trivial
  | ok systemRoutes =>
    simp only
    split
    · apply only_deleteRoute
    · trivial

theorem only_expireRoutes (m : Routes) : (expireRoutes m).Only Local := by
  apply Prog.only_bind (Prog.only_lift.mpr trivial)
  intro now
  apply Prog.only_bind
  · apply Prog.only_loop
    intro s key
    apply Prog.only_bind
    · apply Prog.only_loop
      intro s ip
      unfold expireTarget
      split
      · trivial
      split
      · trivial
      simp only
      split
      · trivial
      apply Prog.only_bind (Prog.only_lift.mpr trivial)
      intro deleted
      cases deleted <;> trivial
    · intro swept
      trivial
  · intro swept
    split
    · exact Prog.only_bind (only_saveRoutesLocked _) fun _ => trivial
    · trivial

theorem only_loadRoutesLocked (m : Routes) : (loadRoutesLocked m).Only Local := by
  apply Prog.only_bind (Prog.only_lift.mpr trivial)
  intro reply
  cases reply with
  | absent | openFailed code | readFailed => trivial
  | content content =>
    apply Prog.only_bind (Prog.only_lift.mpr trivial)
    intro now
    apply Prog.only_bind
    · apply Prog.only_loop
      intro s it
      unfold restoreRecord
      split
      · trivial
      split
      · split <;> trivial
      apply Prog.only_bind (Prog.only_lift.mpr trivial)
      intro added
      cases added <;> trivial
    intro s
    apply Prog.only_bind
    · apply Prog.only_loop
      intro u id
      simp only [deleteExpired]
      split
      · trivial
      · exact Prog.only_bind (Prog.only_lift.mpr trivial) fun _ => trivial
    intro u
    split
    · trivial
    · exact Prog.only_bind (only_saveRoutesLocked _) fun _ => trivial

theorem only_start : start.Only Local := by
  apply Prog.only_bind
  · apply Prog.only_bind (Prog.only_lift.mpr trivial)
    intro reply
    cases reply <;> trivial
  · intro settings
    exact Prog.only_bind (only_loadRoutesLocked _) fun _ => trivial

/-! ### The settings and their file -/

omit [Platform] in
/-- `get_global_route`. -/
def getGlobalRoute (m : Memory) : Bytes × Bool := (m.globalGateway, m.forceGlobalGateway)

omit [Platform] in
/-- What a call of `set_global_route` asks for: without a gateway the settings are cleared. -/
def requested (gateway : Option Bytes) (force : Bool) : Bytes × Bool :=
  if gateway.getD [] = [] then ([], false) else (gateway.getD [], force)

omit [Platform] in
/-- What a call that succeeds stores is what it asks for. -/
theorem requested_eq (gateway : Option Bytes) (force : Bool) :
    requested gateway force = (gateway.getD [], storedForce (gateway.getD []) force) := by
  unfold requested storedForce
  split_ifs with h <;> simp [h]

/-- The file holds these settings. -/
inductive Holds : Option Bytes → Bytes × Bool → Prop
  /-- There is no file, and no settings. -/
  | missing : Holds none ([], false)
  /-- The settings were cleared. -/
  | cleared {force : Bool} : Holds (some (encodeGlobal [] force)) ([], false)
  /-- The settings were saved. -/
  | saved {gateway : Bytes} {force : Bool} : validIpv4 (some gateway) = true →
      Holds (some (encodeGlobal gateway force)) (gateway, force)

theorem parseGlobal_cleared (current : Bytes × Bool) (force : Bool) :
    parseGlobal current (encodeGlobal [] force) = (([], false), .ok ()) := by
  have hheader : 10 ∉ globalHeader := by decide
  rw [encodeGlobal, if_pos rfl, parseGlobal, getlines_append_newline hheader]
  simp

/-- **The settings that are saved are read back.** -/
theorem parseGlobal_encodeGlobal (hquad : Canonical) (current : Bytes × Bool) {gateway : Bytes}
    (h : validIpv4 (some gateway) = true) (force : Bool) :
    parseGlobal current (encodeGlobal gateway force) = ((gateway, force), .ok ()) := by
  have hplain := unbroken_of_validIpv4 hquad h
  have hne : gateway ≠ [] := by
    rintro rfl
    simp [validIpv4] at h
  have hheader : 10 ∉ globalHeader := by decide
  let flag : Bytes := [if force then 49 else 48]
  have hflag : flag = text (if force then "1" else "0") ∧ 9 ∉ flag ∧ 10 ∉ flag := by
    cases force <;> decide
  have hline : 10 ∉ gateway ++ 9 :: flag := by simp [hplain.newline, hflag.2.2]
  have hsplit : (gateway ++ 9 :: flag).splitOn 9 = [gateway, flag] := by
    rw [List.splitOn_append_cons_self_of_not_mem hplain.tab, List.splitOn_eq_singleton hflag.2.1]
  have hlines : getlines (encodeGlobal gateway force) = [globalHeader, gateway ++ 9 :: flag] := by
    have hencode : encodeGlobal gateway force = globalHeader ++ 10 ::
        ((gateway ++ 9 :: flag) ++ 10 :: []) := by
      rw [encodeGlobal, if_neg hne]
      simp [flag]
    rw [hencode, getlines_append_newline hheader, getlines_append_newline hline, getlines_nil]
  unfold parseGlobal
  rw [hlines]
  simp only [ne_eq, not_true_eq_false, if_false, List.append_eq_nil_iff, hne, false_and, hsplit,
    hplain.cString, h, true_and]
  rw [if_pos, hflag.1]
  · cases force <;> rfl
  · rw [hflag.1]
    cases force <;> simp

omit [Platform] in
/-- Whether a call is no failed reading of the settings: they are read when the file is
there, or known not to be. -/
def settingsRead : HostEvent → Bool
  | ⟨.readGlobal, .openFailed _⟩ | ⟨.readGlobal, .readFailed⟩ => false
  | _ => true

/-- **What is read from the file** by a process that starts are the settings it holds. -/
theorem exec_loadGlobal_of_holds (hquad : Canonical) {h h' : Host}
    {settings : Bytes × Bool} (hholds : Holds h.globalFile settings)
    {es : List HostEvent} {r : (Bytes × Bool) × Except Bytes Unit}
    (hrun : Exec Host.Answers (loadGlobalRouteLocked ([], false)) h es r h')
    (hread : ∀ e ∈ es, settingsRead e = true) : r = (settings, .ok ()) := by
  obtain ⟨reply, h₁, es', rfl, ⟨hreply, rfl⟩, hrest⟩ := exec_lift_do_iff.mp hrun
  cases reply with
  | openFailed code | readFailed => cases hread _ List.mem_cons_self
  | absent =>
    obtain ⟨-, rfl, -⟩ := exec_pure_iff.mp hrest
    rw [show h₁.globalFile = none from hreply] at hholds
    cases hholds
    rfl
  | content content =>
    obtain ⟨-, rfl, -⟩ := exec_pure_iff.mp hrest
    rw [show h₁.globalFile = some content from hreply] at hholds
    cases hholds with
    | cleared => exact parseGlobal_cleared _ _
    | saved hvalid => exact parseGlobal_encodeGlobal hquad _ hvalid _

/-- Nothing is forced without a gateway. -/
theorem Holds.gateway_ne_nil {file : Option Bytes} {settings : Bytes × Bool}
    (h : Holds file settings) (hforce : settings.2 = true) : settings.1 ≠ [] := by
  cases h with
  | missing | cleared => cases hforce
  | saved hvalid =>
    rintro rfl
    simp [validIpv4] at hvalid

/-! ### Runs -/

omit [Platform] in
/-- The settings after a step: a call that succeeds changes them, and nothing else does. -/
def settingsAfter (settings : Bytes × Bool) : ProcessLabel → Bytes × Bool
  | .done ⟨.setGlobalRoute gateway force, _, .ok _⟩ => requested gateway force
  | _ => settings

omit [Platform] in
/-- Nothing is cut off, and a start can read the settings. -/
def ProcessLabel.Undisturbed : ProcessLabel → Prop
  | .done _ | .stopped => True
  | .started calls => ∀ e ∈ calls, settingsRead e = true
  | .crashed _ | .crashedStarting => False

instance : (l : ProcessLabel) → Decidable l.Undisturbed
  | .done _ | .stopped => inferInstanceAs (Decidable True)
  | .started calls => inferInstanceAs (Decidable (∀ e ∈ calls, settingsRead e = true))
  | .crashed _ | .crashedStarting => inferInstanceAs (Decidable False)

/-- The process and its host hold these settings. -/
def Process.Settled (settings : Bytes × Bool) : Process → Prop
  | .running s => getGlobalRoute s.memory = settings ∧ Holds s.host.globalFile settings
  | .down h => Holds h.globalFile settings

/-- What changes the index only leaves the settings alone. -/
theorem Process.Settled.keep {α : Type} {p : HostProg α} {s s' : Service} {settings : Bytes × Bool}
    {es : List HostEvent} {a : α} (h : Process.Settled settings (.running s))
    (hp : p.Only Local) (hrun : Exec Host.Answers p s.host es a s'.host)
    (hmemory : s'.memory = { s.memory with installedRoutes := s'.routes }) :
    Process.Settled settings (.running s') := by
  refine ⟨?_, globalFile_of_exec hp hrun ▸ h.2⟩
  rw [hmemory]
  exact h.1

/-- A call of `set_global_route` that succeeds changes the settings, and one that fails does not. -/
theorem settled_of_setGlobalRoute {s s' : Service} {settings : Bytes × Bool}
    {gateway : Option Bytes} {force : Bool} {es : List HostEvent} {r : Except Bytes Unit}
    (h : Process.Settled settings (.running s))
    (hrun : Exec Host.Answers (setGlobalRoute s.memory gateway force) s.host es
      (s'.memory, r) s'.host) :
    Process.Settled (settingsAfter settings (.done ⟨.setGlobalRoute gateway force, es, r⟩))
      (.running s') := by
  have hrefused : ∀ {e}, s'.memory = s.memory → s'.host = s.host → r = .error e →
      Process.Settled (settingsAfter settings (.done ⟨.setGlobalRoute gateway force, es, r⟩))
          (.running s') := by
    rintro e hmemory hhost rfl
    exact ⟨hmemory ▸ h.1, hhost ▸ h.2⟩
  have hvalid : gateway.getD [] ≠ [] → es ≠ [] → validIpv4 (some (gateway.getD [])) = true := by
    intro hne hes
    by_contra hinvalid
    cases gateway with
    | none => exact hne rfl
    | some gateway =>
      unfold setGlobalRoute at hrun
      rw [if_pos ⟨hne, hinvalid⟩] at hrun
      exact hes (exec_pure_iff.mp hrun).1
  rcases exec_setGlobalRoute hrun with ⟨-, hhost, e, hr⟩ |
    ⟨fault, hes, hA, ⟨rfl, hr⟩ | ⟨hfault, e, hr⟩⟩
  · obtain ⟨hmemory, hr⟩ := Prod.mk.inj hr
    exact hrefused hmemory hhost hr
  · obtain ⟨hmemory, rfl⟩ := Prod.mk.inj hr
    have hfile : s'.host.globalFile =
        some (encodeGlobal (gateway.getD []) (storedForce (gateway.getD []) force)) := by
      rw [show s'.host = { s.host with
        globalFile :=
          some (encodeGlobal (gateway.getD []) (storedForce (gateway.getD []) force)) } from hA]
    have hsettings : settingsAfter settings (.done ⟨.setGlobalRoute gateway force, es, .ok ()⟩) =
        (gateway.getD [], storedForce (gateway.getD []) force) := requested_eq gateway force
    rw [hsettings]
    refine ⟨by rw [hmemory]; rfl, ?_⟩
    rw [hfile]
    by_cases hne : gateway.getD [] = []
    · rw [hne]
      exact .cleared
    · exact .saved (hvalid hne (by rw [hes]; simp))
  · obtain ⟨hmemory, hr⟩ := Prod.mk.inj hr
    cases fault with
    | none => exact absurd rfl hfault
    | some fault => exact hrefused hmemory hA hr

/-- **An operation changes the settings when it is such a call.** -/
theorem settled_of_opStep {s s' : Service} {l : Done} {settings : Bytes × Bool}
    (h : Process.Settled settings (.running s)) (hstep : OpStep Env.any s l s') :
    Process.Settled (settingsAfter settings (.done l)) (.running s') := by
  obtain ⟨o, es, r⟩ := l
  cases o with
  | add destination gateway key ttl =>
    obtain ⟨hrun, hmemory⟩ := opStep_add.mp hstep
    exact h.keep (only_add _ _ _ _ _) hrun hmemory
  | remove key destination gateway =>
    obtain ⟨hrun, hmemory⟩ := opStep_remove.mp hstep
    exact h.keep (only_remove _ _ _ _) hrun hmemory
  | removeSystem destination gateway =>
    obtain ⟨hrun, hmemory⟩ := opStep_removeSystem.mp hstep
    exact h.keep (only_removeSystem _ _ _) hrun hmemory
  | expire =>
    obtain ⟨hrun, -, hmemory⟩ := opStep_expire hstep
    exact h.keep (only_expireRoutes _) hrun hmemory
  | setGlobalRoute gateway force => exact settled_of_setGlobalRoute h hstep

/-- **A step that is not disturbed keeps memory and file together.** -/
theorem settled_step (hquad : Canonical) {p p' : Process} {l : ProcessLabel}
    {settings : Bytes × Bool} (h : p.Settled settings) (hl : l.Undisturbed)
    (hstep : ProcessStep Env.any p l p') :
    p'.Settled (settingsAfter settings l) := by
  cases hstep with
  | done hstep => exact settled_of_opStep h hstep
  | crashed | crashedStarting => exact hl.elim
  | stopped => exact h.2
  | @started h₀ h' m es hrun =>
    obtain ⟨loaded, h₁, es₁, es₂, rfl, hload, hrest⟩ := exec_do_iff.mp hrun
    have hloaded := exec_loadGlobal_of_holds hquad h hload fun e he =>
      hl e (List.mem_append_left _ he)
    have hfile : h'.globalFile = h₀.globalFile := globalFile_of_exec only_start hrun
    obtain ⟨routes, h₂, es₃, es₄, rfl, -, hret⟩ := exec_do_iff.mp hrest
    obtain ⟨-, rfl, rfl⟩ := exec_pure_iff.mp hret
    rw [hloaded]
    exact ⟨rfl, hfile ▸ h⟩

/-- **The settings survive restarts.** The running process has the settings of the last call that
succeeded, and none when there was none; nothing is forced without a gateway; and a reading of the
file gives the settings in memory. -/
theorem global_of_run (hquad : Canonical) {h₀ : Host} (hempty : h₀.globalFile = none)
    {ls : List ProcessLabel} {s : Service} (hls : ∀ l ∈ ls, l.Undisturbed)
    (hrun : Run (ProcessStep Env.any) (.down h₀) ls (.running s)) :
    getGlobalRoute s.memory = ls.foldl settingsAfter ([], false) ∧
    ((getGlobalRoute s.memory).2 = true → (getGlobalRoute s.memory).1 ≠ []) ∧
    ∀ es r h', Exec Host.Answers (loadGlobalRouteLocked ([], false)) s.host es r h' →
      (∀ e ∈ es, settingsRead e = true) → r = (getGlobalRoute s.memory, .ok ()) := by
  have hsettled : ∀ {p p' : Process} {settings : Bytes × Bool}
      {ls : List ProcessLabel}, p.Settled settings →
      (∀ l ∈ ls, l.Undisturbed) → Run (ProcessStep Env.any) p ls p' →
          p'.Settled (ls.foldl settingsAfter settings) := by
    intro p p' settings ls hp hls hrun
    induction hrun generalizing settings with
    | nil => exact hp
    | cons hstep _ ih =>
      exact ih (settled_step hquad hp (hls _ List.mem_cons_self) hstep) fun l hl =>
        hls l (List.mem_cons_of_mem _ hl)
  have hstart : Process.Settled ([], false) (.down h₀) := by
    rw [Process.Settled, hempty]
    exact .missing
  obtain ⟨hmemory, hholds⟩ := hsettled hstart hls hrun
  rw [hmemory]
  exact ⟨rfl, hholds.gateway_ne_nil, fun es r h' hload hread =>
    exec_loadGlobal_of_holds hquad hholds hload hread⟩

section Sample

omit [Platform]

/-- A start, a call that makes settings, one whose save fails, and a restart. -/
def madeSettings : List ProcessLabel × Service :=
  let _ := quadPlatform
  let first := bareHost.playStart []
  let set := first.2.play (.setGlobalRoute (some (text "10.0.0.1")) true) []
  let failed := set.2.play (.setGlobalRoute (some (text "10.0.0.2")) false) [{ ok := false }]
  let second := failed.2.host.playStart []
  ([.started first.1, .done set.1, .done failed.1, .stopped, .started second.1], second.2)

theorem run_madeSettings :
    Run (@ProcessStep quadPlatform Env.any) (.down bareHost) madeSettings.1
      (.running madeSettings.2) := by
  let _ := quadPlatform
  exact .cons (.started (bareHost.exec_playStart [])) (.cons (.done (Service.opStep_play _ _ []))
    (.cons (.done (Service.opStep_play _ _ [{ ok := false }]))
      (.cons .stopped (.cons (.started (Host.exec_playStart _ [])) .nil))))

/-- Then a call that clears them, and another restart. -/
def clearedSettings : List ProcessLabel × Service :=
  let _ := quadPlatform
  let cleared := madeSettings.2.play (.setGlobalRoute none true) []
  let third := cleared.2.host.playStart []
  ([.done cleared.1, .stopped, .started third.1], third.2)

theorem run_clearedSettings :
    Run (@ProcessStep quadPlatform Env.any) (.running madeSettings.2) clearedSettings.1
      (.running clearedSettings.2) := by
  let _ := quadPlatform
  exact .cons (.done (Service.opStep_play _ _ []))
    (.cons .stopped (.cons (.started (Host.exec_playStart _ [])) .nil))

/-- The settings of the call that succeeded are there after the restart, and after the
other one there are none. -/
theorem global_of_run_restarts : getGlobalRoute madeSettings.2.memory = (text "10.0.0.1", true) ∧
    getGlobalRoute clearedSettings.2.memory = ([], false) := by
  let _ := quadPlatform
  have hmade : ∀ l ∈ madeSettings.1, l.Undisturbed := by decide +kernel
  have hcleared : ∀ l ∈ clearedSettings.1, l.Undisturbed := by decide +kernel
  constructor
  · rw [(global_of_run (fun _ => rfl) rfl hmade run_madeSettings).1]
    decide +kernel
  · have hls : ∀ l ∈ madeSettings.1 ++ clearedSettings.1, l.Undisturbed :=
      fun l hl => (List.mem_append.mp hl).elim (hmade l) (hcleared l)
    rw [(global_of_run (fun _ => rfl) rfl hls
      (run_append_iff.mpr ⟨_, run_madeSettings, run_clearedSettings⟩)).1]
    decide +kernel

end Sample

end IpRouter.RouteManager
