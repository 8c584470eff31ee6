import IpRouter.RouteManager.Outcomes

/-!
# One pass of the expiration worker

`expire_routes` deletes from the index while it walks over it, and decides by
looking at all groups, those it has swept and those it has not. `MidSweep` is what
holds in the middle of a pass, when some references were visited: the others are
what they were, an expired reference that was visited is gone unless its system
route could not be deleted, a target that was asked to be deleted has no reference
left to visit, and the system route table has lost the targets that have lost all
their references.

`MidSweep.visit` is one step of the pass, for each outcome at a target, and
`sweep_counts` the pass.
-/

namespace IpRouter.RouteManager

open Theory

/-- The reference is permanent, or not expired yet. -/
def RouteMetadata.Live (metadata : RouteMetadata) (now : ℤ) : Prop :=
  metadata.expiresAt ≤ 0 ∨ now < metadata.expiresAt

/-- A live reference is let be. -/
theorem RouteMetadata.Live.keep {metadata : RouteMetadata} {now : ℤ} (h : metadata.Live now) :
    metadata.keep now = true := by
  rw [RouteMetadata.keep, decide_eq_true_eq]
  rcases h with h | h
  · exact Or.inl h
  · exact Or.inr (Or.inl h)

/-- Whether a call asks for the deletion of the system route to `ip`. -/
def deletes (ip : Bytes) : HostEvent → Bool
  | ⟨.deleteSystemRoute destination _, _⟩ => destination = ip
  | _ => false

/-- **The middle of a pass**: the references in `visited` were visited, `es` are the calls so far,
the index was `m` and is `s`, and the host was `h₀` and is `h`. -/
structure MidSweep (now : ℤ) (m : Routes) (h₀ : Host) (visited : Bytes → Bytes → Prop)
    (es : List HostEvent) (s : Routes) (h : Host) : Prop where
  /-- What was not visited is what it was. -/
  unvisited : ∀ key ip, ¬ visited key ip → s.lookup key ip = m.lookup key ip
  /-- What is let be is what it was. -/
  kept : ∀ key ip metadata, m.lookup key ip = some metadata → metadata.keep now = true →
    s.lookup key ip = some metadata
  /-- Nothing is new, but perhaps the time of the last attempt. -/
  origin : ∀ key ip metadata', s.lookup key ip = some metadata' →
    ∃ metadata attempt, m.lookup key ip = some metadata ∧
      metadata' = { metadata with lastAttempt := attempt }
  /-- What was visited and is still there although it was due could not be deleted. -/
  left : ∀ key ip metadata, visited key ip → m.lookup key ip = some metadata →
    metadata.keep now = false →
    s.lookup key ip ≠ none → ∃ e, ⟨.deleteSystemRoute ip metadata.gateway, .error e⟩ ∈ es
  /-- A target that was asked to be deleted has no reference left to visit. -/
  settled : ∀ e ∈ es, ∀ key ip, deletes ip e = true → s.lookup key ip ≠ none → visited key ip
  /-- All its references were due. -/
  due : ∀ e ∈ es, ∀ key ip metadata, deletes ip e = true → m.lookup key ip = some metadata →
    metadata.keep now = false
  /-- It was asked to be deleted once. -/
  once : ∀ ip, es.countP (deletes ip) ≤ 1
  /-- A target that has lost all its references is not in the system route table. -/
  lost : ∀ ip, (∃ key, m.lookup key ip ≠ none) → (∀ key, s.lookup key ip = none) →
    h.kernel ip = none
  /-- Another one is there as it was. -/
  held : ∀ ip, ((∃ key, s.lookup key ip ≠ none) ∨ ∀ key, m.lookup key ip = none) →
    h.kernel ip = h₀.kernel ip

namespace MidSweep

variable {now : ℤ} {m : Routes} {h₀ h h' : Host} {visited : Bytes → Bytes → Prop}
  {es es' : List HostEvent}

/-- The beginning of a pass. -/
theorem start (now : ℤ) (m : Routes) (h : Host) : MidSweep now m h (fun _ _ => False) [] m h where
  unvisited _ _ _ := rfl
  kept _ _ _ hl _ := hl
  origin _ _ metadata hl := ⟨metadata, metadata.lastAttempt, hl, rfl⟩
  left _ _ _ hv := hv.elim
  settled _ he := by cases he
  due _ he := by cases he
  once _ := Nat.zero_le _
  lost ip := fun ⟨key, hne⟩ hnone => absurd (hnone key) hne
  held _ _ := rfl

/-- References that are not there count as visited. -/
theorem weaken {s : Routes} (hs : MidSweep now m h₀ visited es s h)
    {visited' : Bytes → Bytes → Prop} (hsub : ∀ key ip, visited key ip → visited' key ip)
    (hnew : ∀ key ip, visited' key ip → ¬ visited key ip → s.lookup key ip = none) :
    MidSweep now m h₀ visited' es s h where
  unvisited key ip hv := hs.unvisited key ip fun h => hv (hsub key ip h)
  kept := hs.kept
  origin := hs.origin
  left key ip metadata hv hl hdue hne := by
    by_cases hold : visited key ip
    · exact hs.left key ip metadata hold hl hdue hne
    · exact absurd (hnew key ip hv hold) hne
  settled e he key ip hd hne := hsub key ip (hs.settled e he key ip hd hne)
  due := hs.due
  once := hs.once
  lost := hs.lost
  held := hs.held

/-- Only what can be looked up counts. -/
theorem congr {s s' : Routes} (hs : MidSweep now m h₀ visited es s h)
    (hl : ∀ key ip, s'.lookup key ip = s.lookup key ip) :
    MidSweep now m h₀ visited es s' h where
  unvisited key ip hv := (hl key ip).trans (hs.unvisited key ip hv)
  kept key ip metadata hm hkeep := (hl key ip).trans (hs.kept key ip metadata hm hkeep)
  origin key ip metadata' h' := hs.origin key ip metadata' ((hl key ip).symm.trans h')
  left key ip metadata hv hm hdue hne := hs.left key ip metadata hv hm hdue (hl key ip ▸ hne)
  settled e he key ip hd hne := hs.settled e he key ip hd (hl key ip ▸ hne)
  due := hs.due
  once := hs.once
  lost ip hm hnone := hs.lost ip hm fun key => (hl key ip).symm.trans (hnone key)
  held ip hm := hs.held ip (hm.imp_left fun ⟨key, hne⟩ => ⟨key, hl key ip ▸ hne⟩)

/-- A reference that is about to be visited, and due. -/
theorem found {s : Routes} (hs : MidSweep now m h₀ visited es s h) {key ip : Bytes}
    (hnew : ¬ visited key ip) {metadata : RouteMetadata} (hl : s.lookup key ip = some metadata) :
    m.lookup key ip = some metadata ∧ es.countP (deletes ip) = 0 := by
  refine ⟨(hs.unvisited key ip hnew).symm.trans hl, List.countP_eq_zero.mpr fun e he hd => ?_⟩
  exact hnew (hs.settled e he key ip hd (by rw [hl]; exact Option.some_ne_none _))

/-- **A due reference is visited**: at `key` and `ip` the index becomes `s'`, with the
calls `es'` and the host `h'`. -/
theorem visit_due {s s' : Routes} (hs : MidSweep now m h₀ visited es s h)
    {key ip : Bytes} (hnew : ¬ visited key ip) {metadata : RouteMetadata}
    (hl : s.lookup key ip = some metadata) (hdue : metadata.keep now = false)
    (hframe : ∀ k i, ¬ (k = key ∧ i = ip) → s'.lookup k i = s.lookup k i)
    (hat : ∀ metadata', s'.lookup key ip = some metadata' → ∃ attempt,
      metadata' = { metadata with lastAttempt := attempt }) (hleft : s'.lookup key ip ≠ none →
      ∃ e, ⟨.deleteSystemRoute ip metadata.gateway, .error e⟩ ∈ es')
    (hcalls : ∀ e ∈ es', ∀ i, deletes i e = true → i = ip ∧ ∀ k, k ≠ key → s.lookup k ip = none)
    (hone : es'.length ≤ 1) (hlost : (∀ k, s'.lookup k ip = none) → h'.kernel ip = none)
    (hheld : (∃ k, s'.lookup k ip ≠ none) → h'.kernel ip = h.kernel ip)
    (hothers : ∀ i, i ≠ ip → h'.kernel i = h.kernel i) :
    MidSweep now m h₀ (fun k i => visited k i ∨ (k = key ∧ i = ip)) (es ++ es') s' h' := by
  obtain ⟨hm, hcount⟩ := hs.found hnew hl
  have hsub : ∀ {k i}, s'.lookup k i ≠ none → s.lookup k i ≠ none := by
    intro k i hne
    by_cases hki : k = key ∧ i = ip
    · rw [hki.1, hki.2, hl]
      exact Option.some_ne_none _
    · rwa [hframe k i hki] at hne
  constructor
  · intro k i hv
    obtain ⟨hv, hki⟩ := not_or.mp hv
    rw [hframe k i hki, hs.unvisited k i hv]
  · intro k i metadata' hl' hkeep
    by_cases hki : k = key ∧ i = ip
    · obtain ⟨rfl, rfl⟩ := hki
      obtain rfl := Option.some.inj (hm.symm.trans hl')
      rw [hdue] at hkeep
      cases hkeep
    · rw [hframe k i hki]
      exact hs.kept k i metadata' hl' hkeep
  · intro k i metadata' hl'
    by_cases hki : k = key ∧ i = ip
    · obtain ⟨rfl, rfl⟩ := hki
      obtain ⟨attempt, rfl⟩ := hat metadata' hl'
      exact ⟨metadata, attempt, hm, rfl⟩
    · exact hs.origin k i metadata' ((hframe k i hki).symm.trans hl')
  · intro k i metadata' hv hl' hdue' hne
    rcases hv with hv | ⟨rfl, rfl⟩
    · obtain ⟨e, he⟩ := hs.left k i metadata' hv hl' hdue' (hsub hne)
      exact ⟨e, List.mem_append_left _ he⟩
    · obtain rfl := Option.some.inj (hm.symm.trans hl')
      obtain ⟨e, he⟩ := hleft hne
      exact ⟨e, List.mem_append_right _ he⟩
  · intro e he k i hd hne
    rcases List.mem_append.mp he with he | he
    · exact Or.inl (hs.settled e he k i hd (hsub hne))
    · obtain ⟨rfl, halone⟩ := hcalls e he i hd
      refine Or.inr ⟨?_, rfl⟩
      by_contra hk
      exact hsub hne (halone k hk)
  · intro e he k i metadata' hd hl'
    rcases List.mem_append.mp he with he | he
    · exact hs.due e he k i metadata' hd hl'
    · obtain ⟨rfl, halone⟩ := hcalls e he i hd
      by_cases hk : k = key
      · subst hk
        obtain rfl := Option.some.inj (hm.symm.trans hl')
        exact hdue
      · -- a reference that was let be would still be there
        by_contra hkeep
        have hstill := hs.kept k i metadata' hl' (by simpa using hkeep)
        rw [halone k hk] at hstill
        cases hstill
  · intro i
    rw [List.countP_append]
    by_cases hi : i = ip
    · subst hi
      have := List.countP_le_length (p := deletes i) (l := es')
      omega
    · have hnone : es'.countP (deletes i) = 0 :=
        List.countP_eq_zero.mpr fun e he hd => hi (hcalls e he i hd).1
      have := hs.once i
      omega
  · intro i hi hnone
    by_cases hii : i = ip
    · subst hii
      exact hlost hnone
    · rw [hothers i hii]
      exact hs.lost i hi fun k => (hframe k i fun h => hii h.2).symm.trans (hnone k)
  · intro i hi
    by_cases hii : i = ip
    · subst hii
      rcases hi with hi | hi
      · obtain ⟨k, hk⟩ := hi
        rw [hheld ⟨k, hk⟩]
        exact hs.held i (Or.inl ⟨k, hsub hk⟩)
      · rw [hi key] at hm
        cases hm
    · rw [hothers i hii]
      refine hs.held i (hi.imp_left fun ⟨k, hk⟩ => ⟨k, ?_⟩)
      rwa [hframe k i fun h => hii h.2] at hk

/-- **One step of the pass.** -/
theorem visit {s s' : Sweep} (hs : MidSweep now m h₀ visited es s.installed h) {key ip : Bytes}
    (hnew : ¬ visited key ip) (ho : TargetOutcome Host.Answers now key ip s h es' s' h') :
    MidSweep now m h₀ (fun k i => visited k i ∨ (k = key ∧ i = ip))
      (es ++ es') s'.installed h' := by
  cases ho with
  | kept hkeep =>
    rw [List.append_nil]
    refine ⟨?_, hs.kept, hs.origin, ?_, fun e he k i hd hne => Or.inl (hs.settled e he k i hd hne),
      hs.due, hs.once, hs.lost, hs.held⟩
    · exact fun k i hv => hs.unvisited k i fun h => hv (Or.inl h)
    · intro k i metadata hv hl hdue hne
      rcases hv with hv | ⟨rfl, rfl⟩
      · exact hs.left k i metadata hv hl hdue hne
      · rw [hkeep metadata ((hs.unvisited k i hnew).trans hl)] at hdue
        cases hdue
  | @dropped metadata other key' hfound hdue hne hused =>
    have hstay : ∃ k, ((s.installed.set key ip
        { metadata with lastAttempt := now }).eraseTarget key ip).lookup k ip ≠ none :=
      ⟨key', by rw [lookup_erased, if_neg fun h => hne h.1, hused]; exact Option.some_ne_none _⟩
    refine hs.visit_due hnew hfound hdue ?_ ?_ ?_ ?_ (Nat.zero_le _) ?_ (fun _ => rfl)
      (fun _ _ => rfl)
    · intro k i hki
      rw [lookup_erased, if_neg hki]
    · intro metadata' hl
      rw [lookup_erased, if_pos ⟨rfl, rfl⟩] at hl
      cases hl
    · intro hne
      rw [lookup_erased, if_pos ⟨rfl, rfl⟩] at hne
      exact absurd rfl hne
    · intro e he
      cases he
    · intro hnone
      obtain ⟨k, hk⟩ := hstay
      exact absurd (hnone k) hk
  | @deleted metadata u h'' hfound hdue halone hroute =>
    obtain ⟨-, rfl⟩ := hroute
    refine hs.visit_due hnew hfound hdue ?_ ?_ ?_ ?_ (Nat.le_refl _) ?_ ?_ ?_
    · intro k i hki
      rw [lookup_erased, if_neg hki]
    · intro metadata' hl
      rw [lookup_erased, if_pos ⟨rfl, rfl⟩] at hl
      cases hl
    · intro hne
      rw [lookup_erased, if_pos ⟨rfl, rfl⟩] at hne
      exact absurd rfl hne
    · intro e he i hd
      obtain rfl := List.mem_singleton.mp he
      exact ⟨(of_decide_eq_true hd).symm, halone⟩
    · intro _
      exact Function.update_self _ _ _
    · rintro ⟨k, hk⟩
      rw [lookup_erased] at hk
      split_ifs at hk with hki
      · exact absurd rfl hk
      · exact absurd (halone k fun h => hki ⟨h, rfl⟩) hk
    · intro i hi
      exact Function.update_of_ne hi _ _
  | @refused metadata e h'' hfound hdue halone hroute =>
    obtain rfl := hroute
    have hset : (s.installed.set key ip { metadata with lastAttempt := now }).lookup key ip =
        some { metadata with lastAttempt := now } := by rw [Routes.lookup_set, if_pos ⟨rfl, rfl⟩]
    refine hs.visit_due hnew hfound hdue ?_ ?_ ?_ ?_ (Nat.le_refl _) ?_ (fun _ => rfl)
      (fun _ _ => rfl)
    · intro k i hki
      rw [Routes.lookup_set, if_neg hki]
    · intro metadata' hl
      rw [hset] at hl
      exact ⟨now, (Option.some.inj hl).symm⟩
    · intro _
      exact ⟨e, List.mem_singleton.mpr rfl⟩
    · intro e he i hd
      obtain rfl := List.mem_singleton.mp he
      exact ⟨(of_decide_eq_true hd).symm, halone⟩
    · intro hnone
      have hgone := hnone key
      rw [hset] at hgone
      cases hgone

end MidSweep

/-! ### The whole pass -/

variable {now : ℤ} {m : Routes} {h₀ h h' : Host} {es es' : List HostEvent}

/-- The worker is done with a key. -/
theorem midSweep_group {done : List Bytes} {key : Bytes} (hkey : key ∉ done) {s s' : Sweep}
    (hs : MidSweep now m h₀ (fun k _ => k ∈ done) es s.installed h)
    (hrun : Exec Host.Answers (expireGroup now s key) h es' s' h') :
    MidSweep now m h₀ (fun k _ => k ∈ done ++ [key]) (es ++ es') s'.installed h' := by
  obtain ⟨swept, h₁, es₁, es₂, rfl, htargets, hret⟩ := exec_do_iff.mp hrun
  obtain ⟨rfl, rfl, rfl⟩ := exec_pure_iff.mp hret
  have hnodup : (s.installed.targets key).Nodup := OrdMap.nodup_keys _
  have hall : MidSweep now m h₀ (fun k i => k ∈ done ∨
      (k = key ∧ i ∈ s.installed.targets key)) (es ++ es₁)
      swept.installed h' := by
    refine exec_loop_inv (fun ips es₁ s h => MidSweep now m h₀
      (fun k i => k ∈ done ∨ (k = key ∧ i ∈ ips)) (es ++ es₁) s.installed h) ?_ ?_ htargets
    · intro ips ip rest es₁ s₁ h₁ es₂ s₂ h₂ hips hI hrun
      have hip : ip ∉ ips := by
        rw [hips] at hnodup
        intro hmem
        exact (List.nodup_append.mp hnodup).2.2 ip hmem ip List.mem_cons_self rfl
      have hnew : ¬ (key ∈ done ∨ (key = key ∧ ip ∈ ips)) := by simp [hkey, hip]
      rw [← List.append_assoc]
      refine (hI.visit hnew (exec_expireTarget hrun)).weaken ?_ ?_
      · rintro k i ((hk | ⟨rfl, hi⟩) | ⟨rfl, rfl⟩)
        · exact Or.inl hk
        · exact Or.inr ⟨rfl, List.mem_append_left _ hi⟩
        · exact Or.inr ⟨rfl, by simp⟩
      · rintro k i (hk | ⟨rfl, hi⟩) hold
        · exact absurd (Or.inl (Or.inl hk)) hold
        · rcases List.mem_append.mp hi with hi | hi
          · exact absurd (Or.inl (Or.inr ⟨rfl, hi⟩)) hold
          · exact absurd (Or.inr ⟨rfl, List.mem_singleton.mp hi⟩) hold
    · rw [List.append_nil]
      refine hs.weaken (fun k i hk => Or.inl hk) ?_
      rintro k i (hk | ⟨-, hi⟩) hold
      · exact absurd hk hold
      · cases hi
  have hend : MidSweep now m h₀ (fun k _ => k ∈ done ++ [key]) (es ++ es₁) swept.installed h' := by
    refine hall.weaken ?_ ?_
    · rintro k i (hk | ⟨rfl, -⟩)
      · exact List.mem_append_left _ hk
      · simp
    · intro k i hk hold
      obtain ⟨hdone, hnot⟩ := not_or.mp hold
      obtain rfl : k = key := by
        rcases List.mem_append.mp hk with hk | hk
        · exact absurd hk hdone
        · exact List.mem_singleton.mp hk
      have hi : i ∉ s.installed.targets k := fun hi => hnot ⟨rfl, hi⟩
      rw [hall.unvisited k i hold, ← hs.unvisited k i hdone]
      cases hl : s.installed.lookup k i with
      | none => rfl
      | some metadata => exact absurd (Routes.mem_targets_iff.mpr ⟨metadata, hl⟩) hi
  rw [List.append_nil]
  exact hend.congr fun k i => Routes.lookup_dropIfEmpty _ _ _ _

/-- The worker is done with some keys. -/
theorem midSweep_of_keys {keys : List Bytes} (hnodup : keys.Nodup) {swept : Sweep}
    (hrun : Exec Host.Answers (Prog.loop (expireGroup now) keys ⟨m, false⟩) h es swept h') :
    MidSweep now m h (fun k _ => k ∈ keys) es swept.installed h' := by
  refine exec_loop_inv (fun done es s h₁ =>
    MidSweep now m h (fun k _ => k ∈ done) es s.installed h₁) ?_ ?_ hrun
  · intro done key rest es s h₁ es' s' h₂ hkeys hI hgroup
    refine midSweep_group ?_ hI hgroup
    rw [hkeys] at hnodup
    intro hmem
    exact (List.nodup_append.mp hnodup).2.2 key hmem key List.mem_cons_self rfl
  · exact (MidSweep.start now m h).weaken (fun _ _ hv => hv.elim) fun _ _ hv => by cases hv

/-- The worker is done with all keys. -/
theorem midSweep_of_sweep {swept : Sweep}
    (hrun : Exec Host.Answers (Prog.loop (expireGroup now) m.keys ⟨m, false⟩) h es swept h') :
    MidSweep now m h (fun _ _ => True) es swept.installed h' := by
  have hall := midSweep_of_keys (OrdMap.nodup_keys m) hrun
  refine hall.weaken (fun _ _ _ => trivial) fun key ip _ hold => ?_
  have hnone : OrdMap.find m key = none := by
    cases hg : OrdMap.find m key with
    | none => rfl
    | some group => exact absurd (OrdMap.mem_keys_iff.mpr ⟨group, hg⟩) hold
  rw [hall.unvisited key ip hold, Routes.lookup, hnone]
  rfl

variable [Platform]

/-- **A pass of the worker counts references correctly.** -/
theorem sweep_counts {m' : Routes}
    (hcoherent : ∀ key ip gateway, m.refs key ip = some gateway → h.kernel ip = some gateway)
    (hnoEmpty : m.NoEmpty) (hrun : Exec Host.Answers (expireRoutes m) h es m' h') :
    ∃ (now : ℤ) (rest : List HostEvent), es = ⟨.time, now⟩ :: rest ∧
      -- live references stay, and nothing is new
      (∀ key ip metadata, m.lookup key ip = some metadata → metadata.Live now →
        m'.lookup key ip = some metadata) ∧
      (∀ key ip metadata', m'.lookup key ip = some metadata' →
        ∃ metadata attempt, m.lookup key ip = some metadata ∧
          metadata' = { metadata with lastAttempt := attempt }) ∧
      -- a target is deleted once at most, and never while a live reference is left
      (∀ ip, es.countP (deletes ip) ≤ 1) ∧
      (∀ key ip metadata, m'.lookup key ip = some metadata → metadata.Live now →
        es.countP (deletes ip) = 0) ∧
      -- the system route table follows the references
      (∀ ip, (h.kernel ip ≠ none ∧ h'.kernel ip = none) ∨ h'.kernel ip = h.kernel ip) ∧
      (∀ ip, (h.kernel ip ≠ none ∧ h'.kernel ip = none) ↔
        (∃ key, m.lookup key ip ≠ none) ∧ ∀ key, m'.lookup key ip = none) ∧
      -- an expired reference stays for one of two reasons
      (∀ key ip metadata, m.lookup key ip = some metadata → ¬ metadata.Live now →
        m'.lookup key ip ≠ none →
        (∃ e, ⟨.deleteSystemRoute ip metadata.gateway, .error e⟩ ∈ es) ∨
          (0 < metadata.lastAttempt ∧ now - metadata.lastAttempt < 30)) ∧
      m'.NoEmpty := by
  obtain ⟨now, h₁, swept, es₁, es₂, h₂, rfl, hclock, hloop, rfl, hsave⟩ := exec_expireRoutes hrun
  have hs := midSweep_of_sweep hloop
  have hkernel₁ : h₁.kernel = h.kernel := by rw [show h₁ = { h with clock := now } from hclock]
  have hkernel₂ : h'.kernel = h₂.kernel ∧ ∀ ip, es₂.countP (deletes ip) = 0 := by
    rcases hsave with ⟨-, rfl, rfl⟩ | ⟨-, fault, rfl, hA⟩
    · exact ⟨rfl, fun _ => rfl⟩
    · refine ⟨?_, fun _ => rfl⟩
      cases fault with
      | none => rw [show h' = { h₂ with routesFile := some (encodeRoutes swept.installed) } from hA]
      | some fault => rw [show h' = h₂ from hA]
  have hcount : ∀ ip, ((⟨.time, now⟩ : HostEvent) :: (es₁ ++ es₂)).countP (deletes ip) =
      es₁.countP (deletes ip) := by
    intro ip
    rw [List.countP_cons_of_neg (by simp [deletes]), List.countP_append,
      hkernel₂.2 ip, Nat.add_zero]
  have hreferenced : ∀ ip, (∃ key, m.lookup key ip ≠ none) → h.kernel ip ≠ none := by
    rintro ip ⟨key, hne⟩
    obtain ⟨metadata, hl⟩ := Option.ne_none_iff_exists'.mp hne
    rw [hcoherent key ip metadata.gateway (Routes.refs_eq_some.mpr ⟨metadata, hl, rfl⟩)]
    exact Option.some_ne_none _
  have hlost : ∀ ip, (∃ key, m.lookup key ip ≠ none) →
      (∀ key, swept.installed.lookup key ip = none) →
      h'.kernel ip = none := fun ip hm hnone => hkernel₂.1 ▸ hs.lost ip hm hnone
  have hheld : ∀ ip, ((∃ key, swept.installed.lookup key ip ≠ none) ∨
      ∀ key, m.lookup key ip = none) →
      h'.kernel ip = h.kernel ip := fun ip hip => by rw [hkernel₂.1, hs.held ip hip, hkernel₁]
  have hcase : ∀ ip, ((∃ key, m.lookup key ip ≠ none) ∧
      ∀ key, swept.installed.lookup key ip = none) ∨
      ((∃ key, swept.installed.lookup key ip ≠ none) ∨ ∀ key, m.lookup key ip = none) := by
    intro ip
    by_cases hnone : ∀ key, swept.installed.lookup key ip = none
    · by_cases hm : ∃ key, m.lookup key ip ≠ none
      · exact Or.inl ⟨hm, hnone⟩
      · exact Or.inr (Or.inr fun key => by_contra fun hne => hm ⟨key, hne⟩)
    · exact Or.inr (Or.inl (not_forall.mp hnone))
  refine ⟨now, es₁ ++ es₂, rfl, ?_, hs.origin, ?_, ?_, ?_, ?_, ?_, ?_⟩
  · exact fun key ip metadata hl hlive => hs.kept key ip metadata hl hlive.keep
  · exact fun ip => (hcount ip).le.trans (hs.once ip)
  · intro key ip metadata' hl hlive
    obtain ⟨metadata, attempt, hm, rfl⟩ := hs.origin key ip metadata' hl
    rw [hcount ip]
    refine List.countP_eq_zero.mpr fun e he hd => ?_
    have hdue := hs.due e he key ip metadata hd hm
    rw [RouteMetadata.Live.keep (show metadata.Live now from hlive)] at hdue
    cases hdue
  · intro ip
    rcases hcase ip with ⟨hm, hnone⟩ | hip
    · exact Or.inl ⟨hreferenced ip hm, hlost ip hm hnone⟩
    · exact Or.inr (hheld ip hip)
  · intro ip
    refine ⟨fun ⟨hbefore, hafter⟩ => ?_, fun ⟨hm, hnone⟩ => ⟨hreferenced ip hm, hlost ip hm hnone⟩⟩
    rcases hcase ip with hgone | hip
    · exact hgone
    · rw [hheld ip hip] at hafter
      exact absurd hafter hbefore
  · intro key ip metadata hl hexpired hne
    cases hkeep : metadata.keep now with
    | true =>
      rw [RouteMetadata.keep, decide_eq_true_eq] at hkeep
      rcases hkeep with hpermanent | hunexpired | hrecent
      · exact absurd (Or.inl hpermanent) hexpired
      · exact absurd (Or.inr hunexpired) hexpired
      · exact Or.inr hrecent
    | false =>
      obtain ⟨e, he⟩ := hs.left key ip metadata trivial hl hkeep hne
      exact Or.inl ⟨e, List.mem_cons_of_mem _ (List.mem_append_left _ he)⟩
  · exact noEmpty_sweep hnoEmpty hloop

section Sample

omit [Platform]

/-- Two keys share a target, which has expired under one of them. -/
theorem sweep_counts_shared : ∃ (m m' : Routes) (h h' : Host) (es : List HostEvent),
    Exec Host.Answers (@expireRoutes quadPlatform m) h es m' h' ∧ m ≠ m' ∧
      (m'.lookup (text "b") (text "10.0.0.1")).isSome = true ∧
      h'.kernel (text "10.0.0.1") = h.kernel (text "10.0.0.1") := by
  let _ := quadPlatform
  let permanent : RouteMetadata := ⟨text "10.0.0.254", 0, 0, 0⟩
  let m : Routes := Routes.set
    (Routes.set OrdMap.empty (text "a") (text "10.0.0.1") ⟨text "10.0.0.254", 60, 60, 0⟩)
    (text "b") (text "10.0.0.1") permanent
  let h : Host :=
    ⟨none, none, fun ip => if ip = text "10.0.0.1" then some (text "10.0.0.254") else none, 0⟩
  have hrun := exec_play Host.answers_answer {} (expireRoutes m) [{ now := 100 }] h
  have hcoherent : ∀ key ip gateway, m.refs key ip = some gateway → h.kernel ip = some gateway := by
    intro key ip gateway hk
    obtain ⟨metadata, hl, rfl⟩ := Routes.refs_eq_some.mp hk
    simp only [m, Routes.lookup_set] at hl
    split_ifs at hl with hb ha
    · obtain rfl := Option.some.inj hl
      exact if_pos hb.2
    · obtain rfl := Option.some.inj hl
      exact if_pos ha.2
    · cases hl
  obtain ⟨now, rest, hes, hlive, -, -, -, hkernel, hlost, -⟩ :=
    sweep_counts hcoherent ((Routes.NoEmpty.empty.set _ _ _).set _ _ _) hrun
  have hb := hlive (text "b") (text "10.0.0.1") permanent (by decide +kernel) (Or.inl le_rfl)
  refine ⟨m, _, h, _, _, hrun, by decide +kernel, by rw [hb]; rfl, ?_⟩
  refine (hkernel (text "10.0.0.1")).resolve_left fun hgone => ?_
  have hnone := ((hlost _).mp hgone).2 (text "b")
  rw [hb] at hnone
  cases hnone

end Sample

end IpRouter.RouteManager
