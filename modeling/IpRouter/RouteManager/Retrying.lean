import IpRouter.RouteManager.Reachable
import IpRouter.Theory.Marks

/-!
# How often the worker retries

The calls of a pass do not say on behalf of which entry they were made, so the
pass is written once more with its calls marked (`markedRoutes`): a `Visit` is the
entry the worker stands at and the time it has read. `Recorded` is a step of the
process with what it adds to a history of `Moment`s: the attempts of the worker,
the additions that succeeded, and the starts.

An entry waits: after an attempt at `t` it is gone, or its `last_attempt` is at
least `t` (`Process.Waits`). Every other operation, the passes and every error keep
that, and so the worker asks for the deletion of an entry no faster than every 30
seconds (`retried_no_faster`).
-/

namespace IpRouter.RouteManager

open Theory

/-! ### The pass, marked -/

/-- The entry the worker stands at, and the time it has read. -/
structure Visit where
  /-- The time. -/
  now : ℤ
  /-- The key. -/
  key : Bytes
  /-- The target. -/
  ip : Bytes
  deriving DecidableEq

/-- A program of the worker: a call may be marked with a visit. -/
abbrev WorkerProg (α : Type) :=
  Prog (Option Visit × HostCall) (MarkedReply (Option Visit) HostCall.Reply) α

/-- A call of the worker, with its answer. -/
abbrev WorkerEvent := MarkedEvent (Option Visit) HostCall HostCall.Reply

/-- `expireGroup` with its calls marked. -/
def markedGroup (now : ℤ) (s : Sweep) (key : Bytes) : WorkerProg Sweep := do
  let swept ← Prog.loop (fun s ip => (expireTarget now key s ip).mark (some ⟨now, key, ip⟩))
    (s.installed.targets key) s
  return { swept with installed := swept.installed.dropIfEmpty key }

/-- `expireRoutes` with its calls marked. -/
def markedRoutes [Platform] (installed : Routes) : WorkerProg Routes := do
  let now ← Prog.mark none time
  let swept ← Prog.loop (markedGroup now) installed.keys ⟨installed, false⟩
  if swept.changed then do
    let _ ← (saveRoutesLocked swept.installed).mark none
    return swept.installed
  else return swept.installed

theorem unmark_markedGroup (now : ℤ) (s : Sweep) (key : Bytes) :
    (markedGroup now s key).unmark = expireGroup now s key := by
  rw [markedGroup, Prog.unmark_bind, Prog.unmark_loop]
  simp only [Prog.unmark_mark]
  rfl

/-- The marked pass is the pass. -/
theorem unmark_markedRoutes [Platform] (installed : Routes) :
    (markedRoutes installed).unmark = expireRoutes installed := by
  simp only [markedRoutes, expireRoutes, Prog.unmark_bind, Prog.unmark_mark, Prog.unmark_loop,
    unmark_markedGroup]
  refine congrArg (time >>= ·) (funext fun now =>
    congrArg (Prog.loop _ _ _ >>= ·) (funext fun swept => ?_))
  split_ifs
  · rw [Prog.unmark_bind, Prog.unmark_mark]
    rfl
  · rfl

/-- The visit on behalf of which the worker asks for a deletion with this call. -/
def attempt : WorkerEvent → Option Visit
  | ⟨(visit, .deleteSystemRoute _ _), _⟩ => visit
  | _ => none

/-- The attempts among the calls of the worker. -/
def attempts (es : List WorkerEvent) : List Visit := es.filterMap attempt

@[simp] theorem attempts_append (es es' : List WorkerEvent) :
    attempts (es ++ es') = attempts es ++ attempts es' :=
  List.filterMap_append

/-- The call is not made at an entry. -/
theorem attempts_mark_none (es : List HostEvent) : attempts (es.map (Event.mark none)) = [] := by
  rw [attempts, List.filterMap_eq_nil_iff]
  intro e he
  obtain ⟨⟨c, r⟩, -, rfl⟩ := List.mem_map.mp he
  cases c <;> rfl

/-- The attempts on behalf of an entry. -/
def attemptsAt (key ip : Bytes) (es : List WorkerEvent) : List Visit :=
  (attempts es).filter fun visit => visit.key = key ∧ visit.ip = ip

@[simp] theorem attemptsAt_append (key ip : Bytes) (es es' : List WorkerEvent) :
    attemptsAt key ip (es ++ es') = attemptsAt key ip es ++ attemptsAt key ip es' := by
  rw [attemptsAt, attempts_append, List.filter_append]
  rfl

theorem attemptsAt_mark_none (key ip : Bytes) (es : List HostEvent) :
    attemptsAt key ip (es.map (Event.mark none)) = [] := by
  rw [attemptsAt, attempts_mark_none]
  rfl

theorem mem_attemptsAt_iff {key ip : Bytes} {visit : Visit} {es : List WorkerEvent} :
    visit ∈ attemptsAt key ip es ↔ visit ∈ attempts es ∧ visit.key = key ∧ visit.ip = ip := by
  rw [attemptsAt, List.mem_filter, decide_eq_true_eq]

/-! ### The pass, for one entry -/

variable {A : Answers Host HostCall HostCall.Reply} {h h' : Host} {es es' : List WorkerEvent}
  {now : ℤ} {key ip : Bytes} {m m₁ m' : Routes}

/-- The worker was not at the entry. -/
def Untouched (key ip : Bytes) (m : Routes) (es : List WorkerEvent) (m' : Routes) : Prop :=
  attemptsAt key ip es = [] ∧ m'.lookup key ip = m.lookup key ip

/-- **What the worker does to an entry**, between the indexes `m` and `m'`. -/
inductive EntrySwept (now : ℤ) (key ip : Bytes) (m : Routes) (es : List WorkerEvent)
    (m' : Routes) : Prop
  /-- No deletion is asked for, and the entry is what it was, or gone. -/
  | spared (calls : attemptsAt key ip es = [])
      (after : ∀ metadata, m'.lookup key ip = some metadata → m.lookup key ip = some metadata)
  /-- A deletion is asked for, once, and the entry is marked with the time, or gone. -/
  | attempted {metadata : RouteMetadata} (found : m.lookup key ip = some metadata)
      (due : metadata.keep now = false)
      (calls : attemptsAt key ip es = [⟨now, key, ip⟩])
      (after : ∀ metadata', m'.lookup key ip = some metadata' → metadata'.lastAttempt = now)

theorem Untouched.refl (key ip : Bytes) (m : Routes) : Untouched key ip m [] m := ⟨rfl, rfl⟩

theorem Untouched.trans (hu : Untouched key ip m es m₁) (hu' : Untouched key ip m₁ es' m') :
    Untouched key ip m (es ++ es') m' := by
  refine ⟨?_, hu'.2.trans hu.2⟩
  rw [attemptsAt_append, hu.1, hu'.1]
  rfl

theorem Untouched.swept (hu : Untouched key ip m es m') : EntrySwept now key ip m es m' :=
  .spared hu.1 fun _ hl => hu.2 ▸ hl

theorem EntrySwept.after (hs : EntrySwept now key ip m es m₁) (hu : Untouched key ip m₁ es' m') :
    EntrySwept now key ip m (es ++ es') m' := by
  have hcalls : attemptsAt key ip (es ++ es') = attemptsAt key ip es := by
    rw [attemptsAt_append, hu.1, List.append_nil]
  cases hs with
  | spared calls after =>
    exact .spared (hcalls.trans calls) fun metadata hl => after metadata (hu.2 ▸ hl)
  | attempted found due calls after =>
    exact .attempted found due (hcalls.trans calls) fun metadata' hl => after metadata' (hu.2 ▸ hl)

theorem Untouched.before (hu : Untouched key ip m es m₁) (hs : EntrySwept now key ip m₁ es' m') :
    EntrySwept now key ip m (es ++ es') m' := by
  have hcalls : attemptsAt key ip (es ++ es') = attemptsAt key ip es' := by
    rw [attemptsAt_append, hu.1, List.nil_append]
  cases hs with
  | spared calls after =>
    exact .spared (hcalls.trans calls) fun metadata hl => hu.2 ▸ after metadata hl
  | attempted found due calls after =>
    exact .attempted (hu.2 ▸ found) due (hcalls.trans calls) after

/-- Only what can be looked up counts. -/
theorem Untouched.dropIfEmpty (hu : Untouched key ip m es m') (key' : Bytes) :
    Untouched key ip m es (m'.dropIfEmpty key') := ⟨hu.1, (Routes.lookup_dropIfEmpty ..).trans hu.2⟩

/-- The worker at another entry. -/
theorem untouched_of_target {key' ip' : Bytes} {s s' : Sweep} (hne : ¬ (key = key' ∧ ip = ip'))
    (hrun : Exec A.marked ((expireTarget now key' s ip').mark (some ⟨now, key', ip'⟩)) h es s' h') :
    Untouched key ip s.installed es s'.installed := by
  obtain ⟨es', htarget, rfl⟩ := exec_mark_iff.mp hrun
  have ho := exec_expireTarget htarget
  refine ⟨List.filter_eq_nil_iff.mpr fun visit hvisit => ?_, ho.frame hne⟩
  obtain ⟨e, he, hattempt⟩ := List.mem_filterMap.mp hvisit
  obtain ⟨⟨c, r⟩, -, rfl⟩ := List.mem_map.mp he
  cases c <;> cases hattempt
  rw [decide_eq_true_eq]
  exact fun hsame => hne ⟨hsame.1.symm, hsame.2.symm⟩

/-- The worker at the entry. -/
theorem swept_of_target {s s' : Sweep}
    (hrun : Exec A.marked ((expireTarget now key s ip).mark (some ⟨now, key, ip⟩)) h es s' h') :
    EntrySwept now key ip s.installed es s'.installed := by
  obtain ⟨es', htarget, rfl⟩ := exec_mark_iff.mp hrun
  cases exec_expireTarget htarget with
  | kept _ => exact .spared rfl fun _ hl => hl
  | dropped _ _ _ _ =>
    refine .spared rfl fun metadata hl => ?_
    rw [lookup_erased, if_pos ⟨rfl, rfl⟩] at hl
    cases hl
  | deleted found due _ _ =>
    refine .attempted found due ?_ fun metadata' hl => ?_
    · simp [attemptsAt, attempts, attempt, Event.mark]
    · rw [lookup_erased, if_pos ⟨rfl, rfl⟩] at hl
      cases hl
  | refused found due _ _ =>
    refine .attempted found due ?_ fun metadata' hl => ?_
    · simp [attemptsAt, attempts, attempt, Event.mark]
    · rw [Routes.lookup_set, if_pos ⟨rfl, rfl⟩] at hl
      obtain rfl := Option.some.inj hl
      rfl

/-- A loop whose rounds are not at the entry. -/
theorem untouched_of_loop {f : Sweep → Bytes → WorkerProg Sweep} {xs : List Bytes}
    (hround : ∀ x ∈ xs, ∀ s h es s' h', Exec A.marked (f s x) h es s' h' →
      Untouched key ip s.installed es s'.installed) {s s' : Sweep}
    (hrun : Exec A.marked (Prog.loop f xs s) h es s' h') :
    Untouched key ip s.installed es s'.installed := by
  refine exec_loop_inv (fun _ es s' _ => Untouched key ip s.installed es s'.installed) ?_
    (.refl _ _ _) hrun
  intro done x rest es₁ s₁ h₁ es₂ s₂ h₂ hxs hI hx
  exact hI.trans (hround x (by simp [hxs]) _ _ _ _ _ hx)

/-- A loop with at most one round at the entry. -/
theorem swept_of_loop {f : Sweep → Bytes → WorkerProg Sweep} (x₀ : Bytes)
    (hother : ∀ x, x ≠ x₀ → ∀ s h es s' h', Exec A.marked (f s x) h es s' h' →
      Untouched key ip s.installed es s'.installed)
    (hat : ∀ s h es s' h', Exec A.marked (f s x₀) h es s' h' →
      EntrySwept now key ip s.installed es s'.installed)
    {xs : List Bytes} (hnodup : xs.Nodup) {s s' : Sweep}
    (hrun : Exec A.marked (Prog.loop f xs s) h es s' h') :
    EntrySwept now key ip s.installed es s'.installed := by
  induction xs generalizing s h es with
  | nil =>
    obtain ⟨rfl, rfl, rfl⟩ := exec_ret_iff.mp hrun
    exact (Untouched.refl key ip _).swept
  | cons x xs ih =>
    obtain ⟨hx, hnodup⟩ := List.nodup_cons.mp hnodup
    obtain ⟨s₁, h₁, es₁, es₂, rfl, hround, hrest⟩ := exec_bind_iff.mp hrun
    by_cases hx₀ : x = x₀
    · subst hx₀
      refine (hat _ _ _ _ _ hround).after (untouched_of_loop ?_ hrest)
      exact fun y hy => hother y fun hyx => hx (hyx ▸ hy)
    · exact (hother x hx₀ _ _ _ _ _ hround).before (ih hnodup hrest)

/-- The worker at another key. -/
theorem untouched_of_group {key' : Bytes} (hne : key' ≠ key) {s s' : Sweep}
    (hrun : Exec A.marked (markedGroup now s key') h es s' h') :
    Untouched key ip s.installed es s'.installed := by
  obtain ⟨swept, h₁, es₁, es₂, rfl, htargets, hret⟩ := exec_do_iff.mp hrun
  obtain ⟨rfl, rfl, rfl⟩ := exec_pure_iff.mp hret
  rw [List.append_nil]
  refine Untouched.dropIfEmpty (untouched_of_loop ?_ htargets) key'
  exact fun ip' _ s h es s' h' hrun => untouched_of_target (fun hsame => hne hsame.1.symm) hrun

/-- The worker at the key. -/
theorem swept_of_group {s s' : Sweep} (hrun : Exec A.marked (markedGroup now s key) h es s' h') :
    EntrySwept now key ip s.installed es s'.installed := by
  obtain ⟨swept, h₁, es₁, es₂, rfl, htargets, hret⟩ := exec_do_iff.mp hrun
  obtain ⟨rfl, rfl, rfl⟩ := exec_pure_iff.mp hret
  refine (swept_of_loop ip ?_ ?_ (OrdMap.nodup_keys _) htargets).after
    ((Untouched.refl key ip _).dropIfEmpty key)
  · exact fun ip' hne s h es s' h' hrun => untouched_of_target (fun hsame => hne hsame.2.symm) hrun
  · exact fun s h es s' h' hrun => swept_of_target hrun

/-! ### Histories -/

/-- What matters to an entry. -/
inductive Moment where
  /-- The worker asks for the deletion of an entry. -/
  | attempt (visit : Visit)
  /-- An addition succeeds. -/
  | added (key ip : Bytes)
  /-- The process starts. -/
  | started
  deriving DecidableEq

/-- After this the entry is a new one. -/
def Moment.Renews (key ip : Bytes) (m : Moment) : Prop := m = .added key ip ∨ m = .started

/-- What a step that is not a pass adds to the history. -/
def ProcessLabel.moments : ProcessLabel → List Moment
  | .done ⟨.add destination _ key _, _, .ok _⟩ => [.added key destination]
  | .started _ | .crashedStarting => [.started]
  | _ => []

/-- The entry was attempted at `t`, and is the same since. -/
def Pending (key ip : Bytes) (history : List Moment) (t : ℤ) : Prop :=
  ∃ before between, history = before ++ .attempt ⟨t, key, ip⟩ :: between ∧
    ∀ m ∈ between, ¬ m.Renews key ip

theorem Pending.append {history moments : List Moment} {t : ℤ}
    (hp : Pending key ip (history ++ moments) t) :
    (Pending key ip history t ∧ ∀ m ∈ moments, ¬ m.Renews key ip) ∨
      .attempt ⟨t, key, ip⟩ ∈ moments := by
  obtain ⟨before, between, heq, hquiet⟩ := hp
  rcases List.append_eq_append_iff.mp heq with ⟨rest, -, hmoments⟩ | ⟨rest, hhistory, hrest⟩
  · exact Or.inr (by simp [hmoments])
  · cases rest with
    | nil =>
      rw [List.nil_append] at hrest
      exact Or.inr (hrest ▸ List.mem_cons_self)
    | cons moment rest =>
      obtain ⟨rfl, rfl⟩ := List.cons.inj hrest
      refine Or.inl
        ⟨⟨before, rest, hhistory, fun m hm => hquiet m (List.mem_append_left _ hm)⟩, fun m hm => ?_⟩
      exact hquiet m (List.mem_append_right _ hm)

/-- Only passes attempt anything. -/
theorem attempt_notMem_moments (l : ProcessLabel) (visit : Visit) : .attempt visit ∉ l.moments := by
  unfold ProcessLabel.moments
  split <;> simp

theorem Pending.past {history : List Moment} {t : ℤ} (hp : Pending key ip history t)
    (hclock : ∀ visit, .attempt visit ∈ history → 0 < visit.now) : 0 < t := by
  obtain ⟨before, between, rfl, -⟩ := hp
  exact hclock ⟨t, key, ip⟩ (by simp)

theorem mem_attemptsAt_of_moment {visit : Visit}
    (hmem : Moment.attempt visit ∈ (attempts es).map .attempt) (hkey : visit.key = key)
    (hip : visit.ip = ip) : visit ∈ attemptsAt key ip es := by
  obtain ⟨visit', hvisit, heq⟩ := List.mem_map.mp hmem
  obtain rfl := Moment.attempt.inj heq
  exact mem_attemptsAt_iff.mpr ⟨hvisit, hkey, hip⟩

/-- An entry that is due was not attempted for 30 seconds. -/
theorem RouteMetadata.waited {metadata : RouteMetadata} (hdue : metadata.keep now = false)
    (hpast : 0 < metadata.lastAttempt) : metadata.lastAttempt + 30 ≤ now := by
  rw [RouteMetadata.keep, decide_eq_false_iff_not] at hdue
  omega

/-- **The entry waits**: since a pending attempt at `t` it is gone, or its last attempt was no
earlier. -/
def Process.Waits (key ip : Bytes) (history : List Moment) : Process → Prop
  | .running s =>
    ∀ t, Pending key ip history t → ∀ metadata, s.routes.lookup key ip = some metadata →
      t ≤ metadata.lastAttempt
  | .down _ => True

variable [Platform]

/-! ### Recorded steps -/

/-- **A whole pass.** -/
theorem swept_of_pass (key ip : Bytes) (hrun : Exec A.marked (markedRoutes m) h es m' h') :
    ∃ now, EntrySwept now key ip m es m' := by
  obtain ⟨now, h₁, es₁, es₂, rfl, htime, hpass⟩ := exec_do_iff.mp hrun
  obtain ⟨swept, h₂, es₃, es₄, rfl, hloop, hsave⟩ := exec_do_iff.mp hpass
  obtain ⟨_, -, rfl⟩ := exec_mark_iff.mp htime
  have hswept : EntrySwept now key ip m es₃ swept.installed :=
    swept_of_loop key (fun key' hne _ _ _ _ _ hrun => untouched_of_group hne hrun)
      (fun _ _ _ _ _ hrun => swept_of_group hrun) (OrdMap.nodup_keys _) hloop
  refine ⟨now, Untouched.before ⟨attemptsAt_mark_none .., rfl⟩ (hswept.after ?_)⟩
  split_ifs at hsave
  · obtain ⟨_, h₃, es₅, es₆, rfl, hsaved, hret⟩ := exec_do_iff.mp hsave
    obtain ⟨_, -, rfl⟩ := exec_mark_iff.mp hsaved
    obtain ⟨rfl, rfl, rfl⟩ := exec_pure_iff.mp hret
    rw [List.append_nil]
    exact ⟨attemptsAt_mark_none .., rfl⟩
  · obtain ⟨rfl, rfl, rfl⟩ := exec_pure_iff.mp hsave
    exact .refl _ _ _

/-- The calls of a pass that is cut off are the first calls of a pass. -/
theorem swept_of_cut (key ip : Bytes) {s : Host}
    (hcrash : Crash (Answers.marked Host.Answers) (markedRoutes m) s es h') :
    ∃ now es' m', EntrySwept now key ip m (es ++ es') m' := by
  obtain ⟨q, es', m', h'', -, hrun⟩ :=
    hcrash.extend (fun s c => s.answers_total c.2) fun _ _ _ _ hA => hA
  obtain ⟨now, hs⟩ := swept_of_pass key ip hrun
  exact ⟨now, es', m', hs⟩

/-- **A step of the process, with what it adds to the history.** -/
inductive Recorded : Process → ProcessLabel → List Moment → Process → Prop
  /-- A pass of the worker. -/
  | swept {s s' : Service} {es : List WorkerEvent} :
      Exec (Answers.marked Host.Answers) (markedRoutes s.routes) s.host es s'.routes s'.host →
      s'.memory = { s.memory with installedRoutes := s'.routes } →
      Recorded (.running s) (.done ⟨.expire, es.map MarkedEvent.unmark, .ok ()⟩)
        ((attempts es).map .attempt)
        (.running s')
  /-- A pass of the worker, cut off. -/
  | cut {s : Service} {es : List WorkerEvent} {h' : Host} :
      Crash (Answers.marked Host.Answers) (markedRoutes s.routes) s.host es h' →
      Recorded (.running s) (.crashed .expire) ((attempts es).map .attempt) (.down h')
  /-- Another step. -/
  | other {p p' : Process} {l : ProcessLabel} : l.operation ≠ some .expire →
      ProcessStep Env.any p l p' →
      Recorded p l l.moments p'

/-- A pass is cut off where its calls are. -/
theorem crash_pass_iff {s : Service} {h' : Host} {calls : List HostEvent} :
    Crash Host.Answers (Op.prog s.memory .expire) s.host calls h' ↔
      ∃ es, Crash (Answers.marked Host.Answers) (markedRoutes s.routes) s.host es h' ∧
        calls = es.map MarkedEvent.unmark := by
  rw [← crash_unmark_iff, unmark_markedRoutes]
  exact crash_map_iff.trans crash_map_iff

/-- A recorded step is a step. -/
theorem Recorded.step {p p' : Process} {l : ProcessLabel} {moments : List Moment}
    (hr : Recorded p l moments p') :
    ProcessStep Env.any p l p' := by
  cases hr with
  | swept hrun hmem =>
    have hpass := exec_unmark_iff.mpr ⟨_, hrun, rfl⟩
    rw [unmark_markedRoutes] at hpass
    exact .done (opStep_of_expire hpass hmem)
  | cut hcrash => exact .crashed (crash_pass_iff.mpr ⟨_, hcrash, rfl⟩)
  | other _ hstep => exact hstep

/-- Every step can be recorded. -/
theorem ProcessStep.recorded {p p' : Process} {l : ProcessLabel}
    (hstep : ProcessStep Env.any p l p') :
    ∃ moments, Recorded p l moments p' := by
  by_cases hpass : l.operation = some .expire
  · cases hstep with
    | @done s s' l hstep =>
      obtain ⟨o, es, r⟩ := l
      obtain rfl : o = .expire := Option.some.inj hpass
      obtain ⟨hrun, rfl, hmem⟩ := opStep_expire hstep
      rw [← unmark_markedRoutes] at hrun
      obtain ⟨marked, hmarked, rfl⟩ := exec_unmark_iff.mp hrun
      exact ⟨_, .swept hmarked hmem⟩
    | crashed hcrash =>
      obtain rfl := Option.some.inj hpass
      obtain ⟨es, hes, -⟩ := crash_pass_iff.mp hcrash
      exact ⟨_, .cut hes⟩
    | stopped | started _ | crashedStarting _ => cases hpass
  · exact ⟨_, .other hpass hstep⟩

/-! ### Waiting -/

variable {p p' : Process} {l : ProcessLabel} {history moments before after : List Moment} {t t' : ℤ}

/-- **One step keeps the entry waiting.** -/
theorem Recorded.waits (hr : Recorded p l moments p')
    (hclock : ∀ visit, .attempt visit ∈ history → 0 < visit.now) (hw : p.Waits key ip history) :
    p'.Waits key ip (history ++ moments) := by
  cases hr with
  | swept hrun _ =>
    intro t ht metadata hl
    obtain ⟨now, hs⟩ := swept_of_pass key ip hrun
    cases hs with
    | spared calls after =>
      rcases ht.append with ⟨hold, -⟩ | hmem
      · exact hw t hold metadata (after metadata hl)
      · have hat := mem_attemptsAt_of_moment hmem rfl rfl
        rw [calls] at hat
        cases hat
    | attempted found due calls after =>
      rw [after metadata hl]
      rcases ht.append with ⟨hold, -⟩ | hmem
      · have hsince := hw t hold _ found
        have hwaited := RouteMetadata.waited due ((hold.past hclock).trans_le hsince)
        omega
      · have hat := mem_attemptsAt_of_moment hmem rfl rfl
        rw [calls] at hat
        exact (congrArg Visit.now (List.mem_singleton.mp hat)).le
  | cut _ => exact trivial
  | other _ hstep =>
    cases hstep with
    | @done s s' l hstep =>
      intro t ht metadata hl
      obtain ⟨hold, hquiet⟩ := ht.append.resolve_right (attempt_notMem_moments _ _)
      obtain ⟨o, calls, result⟩ := l
      cases result with
      | error e =>
        rw [hstep.routes_of_error rfl] at hl
        exact hw t hold metadata hl
      | ok u =>
        -- an addition that succeeds is one of another entry
        refine (hstep.keeps (P := fun m => ∀ metadata, m.lookup key ip = some metadata →
          t ≤ metadata.lastAttempt) (hw t hold) ?_ ?_ ?_).1 metadata hl
        · intro destination gateway key' ttl now hop _ _ _ metadata' hl'
          obtain rfl : o = .add destination gateway key' ttl := hop
          rw [Routes.lookup_set] at hl'
          split_ifs at hl' with hsame
          · obtain ⟨rfl, rfl⟩ := hsame
            exact absurd (Or.inl rfl) (hquiet (.added key ip) (List.mem_singleton.mpr rfl))
          · exact hw t hold metadata' hl'
        · intro destination gateway _ metadata' hl'
          rw [Routes.lookup_forget] at hl'
          split_ifs at hl'
          exact hw t hold metadata' hl'
        · intro hop
          exact absurd (congrArg some hop) ‹_›
    | crashed _ | stopped | crashedStarting _ => exact trivial
    | started _ =>
      intro t ht
      obtain ⟨-, hquiet⟩ := ht.append.resolve_right (attempt_notMem_moments _ _)
      exact absurd (Or.inr rfl) (hquiet .started (List.mem_singleton.mpr rfl))

omit [Platform] in
/-- A pass, or its beginning, attempts the entry at most once, and not while it waits. -/
theorem EntrySwept.spaced (hs : EntrySwept now key ip m (es ++ es') m')
    (hw : ∀ t, Pending key ip history t →
      ∀ metadata, m.lookup key ip = some metadata → t ≤ metadata.lastAttempt)
    (heq : (attempts es).map .attempt = before ++ .attempt ⟨t', key, ip⟩ :: after)
    (hp : Pending key ip (history ++ before) t) (hpast : 0 < t) : t + 30 ≤ t' := by
  obtain ⟨first, rest, hattempts, rfl, hrest⟩ := List.map_eq_append_iff.mp heq
  obtain ⟨visit, last, rfl, hvisit, rfl⟩ := List.map_eq_cons_iff.mp hrest
  obtain rfl := Moment.attempt.inj hvisit
  have hat : attemptsAt key ip es = first.filter (fun visit => visit.key = key ∧ visit.ip = ip) ++
      ⟨t', key, ip⟩ :: last.filter (fun visit => visit.key = key ∧ visit.ip = ip) := by
    simp [attemptsAt, hattempts, List.filter_append]
  cases hs with
  | spared calls _ =>
    rw [attemptsAt_append, hat] at calls
    simp at calls
  | attempted found due calls _ =>
    rw [attemptsAt_append, hat, List.append_assoc, List.cons_append,
      List.append_eq_singleton_iff] at calls
    obtain ⟨hfirst, hnow⟩ := calls.resolve_right fun h => by simp at h
    obtain rfl : t' = now := congrArg Visit.now (List.cons.inj hnow).1
    rcases hp.append with ⟨hold, -⟩ | hmem
    · have hsince := hw t hold _ found
      have hwaited := RouteMetadata.waited due (hpast.trans_le hsince)
      omega
    · obtain ⟨visit, hvisit, heq⟩ := List.mem_map.mp hmem
      obtain rfl := Moment.attempt.inj heq
      have hin : ⟨t, key, ip⟩ ∈ first.filter fun visit => visit.key = key ∧ visit.ip = ip := by
        simpa using hvisit
      rw [hfirst] at hin
      cases hin

/-- **One step attempts no entry that waits.** -/
theorem Recorded.spaced (hr : Recorded p l moments p') (hw : p.Waits key ip history)
    (heq : moments = before ++ .attempt ⟨t', key, ip⟩ :: after)
    (hp : Pending key ip (history ++ before) t) (hpast : 0 < t) : t + 30 ≤ t' := by
  cases hr with
  | @swept s s' es hrun _ =>
    obtain ⟨now, hs⟩ := swept_of_pass key ip hrun
    rw [← List.append_nil es] at hs
    exact hs.spaced hw heq hp hpast
  | cut hcrash =>
    obtain ⟨now, es', m', hs⟩ := swept_of_cut key ip hcrash
    exact hs.spaced hw heq hp hpast
  | other _ _ =>
    refine absurd ?_ (attempt_notMem_moments l ⟨t', key, ip⟩)
    simp [heq]

/-- Every run can be recorded. -/
theorem run_recorded {ls : List ProcessLabel} (hrun : Run (ProcessStep Env.any) p ls p') :
    ∃ steps : List (ProcessLabel × List Moment), steps.map (·.1) = ls ∧
      Run (fun p l p' => Recorded p l.1 l.2 p') p steps p' := by
  induction hrun with
  | nil => exact ⟨[], rfl, .nil⟩
  | cons hstep _ ih =>
    obtain ⟨moments, hrecorded⟩ := hstep.recorded
    obtain ⟨steps, rfl, hsteps⟩ := ih
    exact ⟨(_, moments) :: steps, rfl, .cons hrecorded hsteps⟩

/-- A run, step by step. -/
theorem spaced_of_run {steps : List (ProcessLabel × List Moment)}
    (hrun : Run (fun p l p' => Recorded p l.1 l.2 p') p steps p') (hw : p.Waits key ip history)
    (hclock : ∀ visit, .attempt visit ∈ history ++ steps.flatMap (·.2) → 0 < visit.now) :
    p'.Waits key ip (history ++ steps.flatMap (·.2)) ∧ ∀ before t' after t,
      steps.flatMap (·.2) = before ++ .attempt ⟨t', key, ip⟩ :: after →
      Pending key ip (history ++ before) t →
        t + 30 ≤ t' := by
  induction hrun generalizing history with
  | nil =>
    refine ⟨by simpa using hw, fun before t' after t heq => ?_⟩
    simp at heq
  | @cons p p₁ p' l steps hstep _ ih =>
    rw [List.flatMap_cons, ← List.append_assoc] at hclock ⊢
    have hhistory : ∀ visit, .attempt visit ∈ history ++ l.2 → 0 < visit.now := fun visit hmem =>
      hclock visit (List.mem_append_left _ hmem)
    obtain ⟨hwaits, hspaced⟩ :=
      ih (hstep.waits (fun visit hmem => hhistory visit (List.mem_append_left _ hmem)) hw) hclock
    refine ⟨hwaits, fun before t' after t heq hp => ?_⟩
    -- the second attempt is made in a later step, or in this one
    rcases List.append_eq_append_iff.mp heq with ⟨later, rfl, hlater⟩ | ⟨now, hnow, hrest⟩
    · rw [← List.append_assoc] at hp
      exact hspaced later t' after t hlater hp
    · cases now with
      | nil =>
        rw [List.append_nil] at hnow
        rw [List.nil_append] at hrest
        refine hspaced [] t' after t hrest.symm ?_
        rwa [List.append_nil, hnow]
      | cons moment now =>
        obtain ⟨rfl, -⟩ := List.cons.inj hrest
        refine hstep.spaced hw hnow hp (hp.past fun visit hmem => hhistory visit ?_)
        rw [hnow]
        rcases List.mem_append.mp hmem with hmem | hmem
        · exact List.mem_append_left _ hmem
        · exact List.mem_append_right _ (List.mem_append_left _ hmem)

/-- **Failed expirations are retried no faster than every 30 seconds.** In every run, with any
failures, crashes and starts, while the clock reads more than 0: between two attempts on behalf of
one entry, with no addition of it that succeeds and no start between them, there are 30 seconds by
the clock. Whatever happens in between, the entry is gone or its last attempt is not earlier than
the first one; and an operation that fails changes no entry. -/
theorem retried_no_faster {h₀ : Host} {p : Process} {steps : List (ProcessLabel × List Moment)}
    (hrun : Run (fun p l p' => Recorded p l.1 l.2 p') (.down h₀) steps p)
    (hclock : ∀ visit, .attempt visit ∈ steps.flatMap (·.2) → 0 < visit.now) (key ip : Bytes) :
    (∀ before between after t t', steps.flatMap (·.2) =
        before ++ .attempt ⟨t, key, ip⟩ :: between ++ .attempt ⟨t', key, ip⟩ :: after →
      (∀ m ∈ between, ¬ m.Renews key ip) → t + 30 ≤ t') ∧
    (∀ before between t s metadata,
      steps.flatMap (·.2) = before ++ .attempt ⟨t, key, ip⟩ :: between →
      (∀ m ∈ between, ¬ m.Renews key ip) → p = .running s → s.routes.lookup key ip = some metadata →
        t ≤ metadata.lastAttempt) ∧
    ∀ s l s' e, OpStep Env.any s l s' → l.result = .error e →
      s'.routes.lookup key ip = s.routes.lookup key ip := by
  obtain ⟨hwaits, hspaced⟩ := @spaced_of_run key ip _ _ _ [] _ hrun trivial hclock
  refine ⟨?_, ?_, fun s l s' e hstep hfailed => by rw [hstep.routes_of_error hfailed]⟩
  · intro before between after t t' heq hquiet
    exact hspaced _ t' after t heq ⟨before, between, rfl, hquiet⟩
  · rintro before between t s metadata heq hquiet rfl hl
    exact hwaits t ⟨before, between, heq, hquiet⟩ metadata hl

section Sample

omit [Platform]

/-- The system refuses twice to delete a route that has expired. -/
theorem retried_no_faster_refused : ∃ (steps : List (ProcessLabel × List Moment)) (p : Process),
    Run (fun p l p' => @Recorded quadPlatform p l.1 l.2 p') (.down bareHost) steps p ∧
      steps.flatMap (·.2) =
        [.started, .added (text "a") (text "10.0.0.1"), .attempt ⟨100, text "a", text "10.0.0.1"⟩,
          .attempt ⟨130, text "a", text "10.0.0.1"⟩] ∧ (100 : ℤ) + 30 ≤ 130 := by
  let _ := quadPlatform
  let pass (now : ℤ) (s : Service) := (markedRoutes s.routes).play
    (fun (d : Decision) h c => Host.answer d h c.2) {}
    [{ now := now }, { ok := false }] s.host
  let after (now : ℤ) (s : Service) : Service :=
    ⟨(pass now s).2.2, { s.memory with installedRoutes := (pass now s).2.1 }⟩
  let step (now : ℤ) (s : Service) : ProcessLabel × List Moment :=
    (.done ⟨.expire, (pass now s).1.map MarkedEvent.unmark, .ok ()⟩,
      (attempts (pass now s).1).map .attempt)
  have hpass (now : ℤ) (s : Service) : Recorded (.running s) (step now s).1 (step now s).2
      (.running (after now s)) :=
    .swept (exec_play (fun d h c => Host.answers_answer d h c.2) {}
      (markedRoutes s.routes) _ s.host) rfl
  let s₀ := (bareHost.playStart []).2
  let add : Op := .add (text "10.0.0.1") (text "10.0.0.254") (text "a") 60
  let s₁ := (s₀.play add []).2
  let steps : List (ProcessLabel × List Moment) :=
    [(.started (bareHost.playStart []).1, [.started]), (.done (s₀.play add []).1,
    ProcessLabel.moments (.done (s₀.play add []).1)), step 100 s₁, step 130 (after 100 s₁)]
  have hstart : Recorded (.down bareHost) (.started (bareHost.playStart []).1) [.started]
      (.running s₀) :=
    .other (fun h => by cases h) (.started (bareHost.exec_playStart []))
  have hadd : Recorded (.running s₀) (.done (s₀.play add []).1)
      (ProcessLabel.moments (.done (s₀.play add []).1))
      (.running s₁) := .other (fun h => by cases h) (.done (s₀.opStep_play add []))
  have hrun : Run (fun p l p' => Recorded p l.1 l.2 p') (.down bareHost) steps
      (.running (after 130 (after 100 s₁))) :=
    .cons hstart (.cons hadd (.cons (hpass 100 s₁) (.cons (hpass 130 (after 100 s₁)) .nil)))
  have hhistory : steps.flatMap (·.2) = [.started, .added (text "a") (text "10.0.0.1"),
      .attempt ⟨100, text "a", text "10.0.0.1"⟩, .attempt ⟨130, text "a", text "10.0.0.1"⟩] :=
      by decide +kernel
  refine ⟨_, _, hrun, hhistory, ?_⟩
  refine (retried_no_faster hrun ?_ (text "a") (text "10.0.0.1")).1 [.started, .added _ _] []
    [] 100 130 hhistory (by simp)
  intro visit hmem
  rw [hhistory] at hmem
  simp only [List.mem_cons, reduceCtorEq, Moment.attempt.injEq, List.not_mem_nil, false_or,
    or_false] at hmem
  rcases hmem with rfl | rfl <;> decide

end Sample

end IpRouter.RouteManager
