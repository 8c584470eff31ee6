import IpRouter.RouteManager.Loading
import Mathlib.Data.List.Forall2

/-!
# What the start restores

What becomes of one target when the route database is read is `Restored`: its
records that have not expired are tried in order until the system takes the route
of one of them; that one decides the gateway, and from there on the last record of
each key through this gateway decides what the key holds. `Restored.step` is one
record of the first pass, for every target at once.

The second pass tries to delete each route of an expired record once, unless its
target is active. `load_restores` puts the two passes together.
-/

namespace IpRouter.RouteManager

open Theory

variable {now : ℤ} {ip : Bytes} {h h' : Host} {es : List HostEvent}

/-! ### One target -/

/-- The records of a target that have not expired, in order. -/
def unexpired (now : ℤ) (ip : Bytes) (saved : List SavedRoute) : List SavedRoute :=
  saved.filter fun it => !it.expired now && it.ip = ip

/-- The last record that has not expired and leads `key` to `ip` through `gateway`. -/
def lastRecord (now : ℤ) (key ip gateway : Bytes) (saved : List SavedRoute) : Option SavedRoute :=
  ((unexpired now ip saved).filter fun it => it.key = key ∧ it.gateway = gateway).getLast?

/-- Whether a call asks for a system route to `ip`. -/
def adds (ip : Bytes) : HostEvent → Bool
  | ⟨.addSystemRoute destination _, _⟩ => destination = ip
  | _ => false

/-- The system refused the route of a record. -/
def Refused (it : SavedRoute) (e : HostEvent) : Prop :=
  ∃ error, e = ⟨.addSystemRoute it.ip it.gateway, .error error⟩

/-- **What becomes of a target** with the records `saved`, when the calls that ask for a route to it
are `calls`: the index `m` has it, and `gateway` is the one in use. -/
inductive Restored (now : ℤ) (ip : Bytes) (saved : List SavedRoute)
    (calls : List HostEvent) (m : Routes) :
    Option Bytes → Prop
  /-- The system refused every record. -/
  | lost (refused : List.Forall₂ Refused (unexpired now ip saved) calls)
      (gone : ∀ key, m.lookup key ip = none) :
      Restored now ip saved calls m none
  /-- The system took the record `it`, and none before. -/
  | active {before after : List SavedRoute} {it : SavedRoute} {refusals : List HostEvent}
      (split : saved = before ++ it :: after)
      (alive : it.expired now = false) (target : it.ip = ip)
      (refused : List.Forall₂ Refused (unexpired now ip before) refusals)
      (tried : calls = refusals ++ [⟨.addSystemRoute ip it.gateway, .ok ()⟩])
      (memory : ∀ key, m.lookup key ip =
        (lastRecord now key ip it.gateway (it :: after)).map (·.metadata)) :
      Restored now ip saved calls m (some it.gateway)

theorem unexpired_append (saved saved' : List SavedRoute) :
    unexpired now ip (saved ++ saved') = unexpired now ip saved ++ unexpired now ip saved' :=
  List.filter_append ..

theorem unexpired_singleton (it : SavedRoute) :
    unexpired now ip [it] = if it.expired now = false ∧ it.ip = ip then [it] else [] := by
  by_cases hdue : it.expired now = true
  · simp [unexpired, hdue]
  · by_cases hip : it.ip = ip <;> simp [unexpired, hdue, hip]

theorem lastRecord_concat {key gateway : Bytes} (saved : List SavedRoute) (it : SavedRoute) :
    lastRecord now key ip gateway (saved ++ [it]) =
      if it.expired now = false ∧ it.ip = ip ∧ it.key = key ∧ it.gateway = gateway then some it
      else lastRecord now key ip gateway saved := by
  rw [lastRecord, unexpired_append, unexpired_singleton]
  by_cases halive : it.expired now = false ∧ it.ip = ip
  · by_cases hsame : it.key = key ∧ it.gateway = gateway
    · simp [halive, hsame]
    · simp [halive, hsame, lastRecord]
  · simp only [halive, if_false, List.append_nil, lastRecord]
    rw [if_neg fun h => halive ⟨h.1, h.2.1⟩]

namespace Restored

variable {saved : List SavedRoute} {calls : List HostEvent} {m m' : Routes} {gateway : Option Bytes}
  {it : SavedRoute}

/-- Before the first record. -/
theorem start (now : ℤ) (ip : Bytes) : Restored now ip [] [] OrdMap.empty none :=
  .lost .nil fun _ => rfl

/-- A record that has expired, or is about another target or another gateway than the
one in use, changes nothing. -/
theorem skip (hr : Restored now ip saved calls m gateway)
    (hskip : it.expired now = true ∨ it.ip ≠ ip ∨ ∃ g, gateway = some g ∧ g ≠ it.gateway)
    (hm : ∀ key, m'.lookup key ip = m.lookup key ip) :
    Restored now ip (saved ++ [it]) calls m' gateway := by
  cases hr with
  | lost refused gone =>
    have hnone : unexpired now ip [it] = [] := by
      rw [unexpired_singleton, if_neg]
      rintro ⟨halive, hip⟩
      rcases hskip with hdue | hother | ⟨g, hg, -⟩
      · rw [halive] at hdue
        cases hdue
      · exact hother hip
      · cases hg
    refine .lost ?_ fun key => (hm key).trans (gone key)
    rwa [unexpired_append, hnone, List.append_nil]
  | @active before after first refusals split alive target refused tried memory =>
    have hsplit : saved ++ [it] = before ++ first :: (after ++ [it]) := by
      rw [split, List.append_assoc, List.cons_append]
    refine .active hsplit alive target refused tried fun key => ?_
    rw [hm key, memory key, ← List.cons_append, lastRecord_concat, if_neg]
    rintro ⟨halive, hip, -, hgateway⟩
    rcases hskip with hdue | hother | ⟨g, hg, hne⟩
    · rw [halive] at hdue
      cases hdue
    · exact hother hip
    · exact hne ((Option.some.inj hg).symm.trans hgateway.symm)

/-- A record through the gateway in use decides what its key holds. -/
theorem share (hr : Restored now ip saved calls m (some it.gateway))
    (halive : it.expired now = false) (hip : it.ip = ip)
    (hm : ∀ key, m'.lookup key ip = if key = it.key then some it.metadata else m.lookup key ip) :
    Restored now ip (saved ++ [it]) calls m' (some it.gateway) := by
  generalize hgateway : some it.gateway = gateway at hr
  cases hr with
  | lost => cases hgateway
  | @active before after first refusals split alive target refused tried memory =>
    have hgateway := Option.some.inj hgateway
    have hsplit : saved ++ [it] = before ++ first :: (after ++ [it]) := by
      rw [split, List.append_assoc, List.cons_append]
    refine .active hsplit alive target refused tried fun key => ?_
    rw [hm key, memory key, ← List.cons_append, lastRecord_concat]
    by_cases hkey : key = it.key
    · rw [if_pos hkey, if_pos ⟨halive, hip, hkey.symm, hgateway⟩, Option.map_some]
    · rw [if_neg hkey, if_neg fun h => hkey h.2.2.1.symm]

/-- The system refuses a record. -/
theorem refuse (hr : Restored now ip saved calls m none) (halive : it.expired now = false)
    (hip : it.ip = ip) {e : HostEvent} (he : Refused it e)
    (hm : ∀ key, m'.lookup key ip = m.lookup key ip) :
    Restored now ip (saved ++ [it]) (calls ++ [e]) m' none := by
  generalize hgateway : (none : Option Bytes) = gateway at hr
  cases hr with
  | lost refused gone =>
    refine .lost ?_ fun key => (hm key).trans (gone key)
    rw [unexpired_append, unexpired_singleton, if_pos ⟨halive, hip⟩]
    exact List.rel_append refused (.cons he .nil)
  | active => cases hgateway

/-- The system takes a record. -/
theorem activate (hr : Restored now ip saved calls m none)
    (halive : it.expired now = false) (hip : it.ip = ip)
    (hm : ∀ key, m'.lookup key ip = if key = it.key then some it.metadata else m.lookup key ip) :
    Restored now ip (saved ++ [it]) (calls ++ [⟨.addSystemRoute ip it.gateway, .ok ()⟩]) m'
      (some it.gateway) := by
  generalize hgateway : (none : Option Bytes) = gateway at hr
  cases hr with
  | lost refused gone =>
    have hsplit : saved ++ [it] = saved ++ it :: [] := rfl
    refine .active hsplit halive hip refused rfl fun key => ?_
    rw [hm key, gone key, show [it] = [] ++ [it] from rfl, lastRecord_concat]
    by_cases hkey : key = it.key
    · rw [if_pos hkey, if_pos ⟨halive, hip, hkey.symm, rfl⟩, Option.map_some]
    · rw [if_neg hkey, if_neg fun h => hkey h.2.2.1.symm]
      rfl
  | active => cases hgateway

end Restored

/-! ### The first pass -/

variable {A : Answers Host HostCall HostCall.Reply} {s s' : Restore} {saved : List SavedRoute}

/-- A call for a record is one for its target. -/
theorem filter_adds {it : SavedRoute} (hit : it.Clean) (reply : Except Bytes Unit) :
    [(⟨.addSystemRoute (cString it.ip) (cString it.gateway), reply⟩ : HostEvent)].filter (adds ip) =
      if it.ip = ip then [⟨.addSystemRoute it.ip it.gateway, reply⟩] else [] := by
  rw [hit.ip, hit.gateway]
  by_cases hip : it.ip = ip <;> simp [adds, hip]

/-- **One record**, for every target. -/
theorem Restored.step {it : SavedRoute} {es' : List HostEvent}
    (hr : ∀ ip, Restored now ip saved (es.filter (adds ip)) s.installed (s.active.find ip))
    (hit : it.Clean) (ho : RestoreOutcome A now it s h es' s' h') (ip : Bytes) :
    Restored now ip (saved ++ [it]) ((es ++ es').filter (adds ip)) s'.installed
      (s'.active.find ip) := by
  have hinstall : ∀ key, (s.install it).lookup key it.ip =
      if key = it.key then some it.metadata else s.installed.lookup key it.ip := by
    intro key
    simp [Restore.install_of_clean hit, Routes.lookup_set]
  have hother : it.ip ≠ ip → ∀ key, (s.install it).lookup key ip = s.installed.lookup key ip := by
    intro hne key
    rw [Restore.install_of_clean hit, Routes.lookup_set, if_neg fun h => hne h.2.symm]
  rw [List.filter_append]
  cases ho with
  | expired due =>
    rw [List.filter_nil, List.append_nil]
    exact (hr ip).skip (Or.inl due) fun _ => rfl
  | @conflict gateway alive active other =>
    rw [List.filter_nil, List.append_nil]
    refine (hr ip).skip ?_ fun _ => rfl
    by_cases hip : it.ip = ip
    · subst hip
      exact Or.inr (Or.inr ⟨gateway, active, other⟩)
    · exact Or.inr (Or.inl hip)
  | shared alive active =>
    rw [List.filter_nil, List.append_nil]
    by_cases hip : it.ip = ip
    · subst hip
      have htarget := hr it.ip
      rw [active] at htarget
      simpa only [active] using htarget.share alive rfl hinstall
    · exact (hr ip).skip (Or.inr (Or.inl hip)) (hother hip)
  | @failed e _ alive idle route =>
    rw [filter_adds hit]
    by_cases hip : it.ip = ip
    · subst hip
      have htarget := hr it.ip
      rw [idle] at htarget
      simpa only [if_true, idle] using htarget.refuse alive rfl ⟨e, rfl⟩ fun _ => rfl
    · rw [if_neg hip, List.append_nil]
      exact (hr ip).skip (Or.inr (Or.inl hip)) fun _ => rfl
  | @restored u _ alive idle route =>
    rw [filter_adds hit]
    by_cases hip : it.ip = ip
    · subst hip
      have htarget := hr it.ip
      rw [idle] at htarget
      simpa only [if_true, OrdMap.find_insert_self] using htarget.activate alive rfl hinstall
    · rw [if_neg hip, List.append_nil, OrdMap.find_insert, if_neg fun h => hip h.symm]
      exact (hr ip).skip (Or.inr (Or.inl hip)) (hother hip)

theorem restored_of_exec (hclean : ∀ it ∈ saved, it.Clean) (hrun : Exec A (Prog.loop
      (restoreRecord now) saved ⟨OrdMap.empty, OrdMap.empty, OrdMap.empty, false⟩) h es s h') :
    ∀ ip, Restored now ip saved (es.filter (adds ip)) s.installed (s.active.find ip) := by
  refine exec_loop_inv (fun done es s _ =>
    ∀ ip, Restored now ip done (es.filter (adds ip)) s.installed (s.active.find ip))
    ?_ (by intro ip; exact Restored.start now ip) hrun
  intro done it rest es s h es' s' h' hsaved hr hrecord
  exact Restored.step hr (hclean it (by simp [hsaved])) (exec_restoreRecord hrecord)

/-! ### The second pass -/

/-- Whether a call asks for the deletion of the system route to `ip` through `gateway`. -/
def deletesRoute (ip gateway : Bytes) : HostEvent → Bool
  | ⟨.deleteSystemRoute destination via, _⟩ => destination = ip && via = gateway
  | _ => false

/-- Each noted route is tried once, unless its target is active. -/
theorem countP_deleteExpired {active : OrdMap Bytes Bytes}
    {ids : List Bytes} {u : Unit} {gateway : Bytes}
    (hids : ∀ id ∈ ids, ∃ ip gateway, id = routeId ip gateway ∧ 10 ∉ ip ∧ cString ip = ip ∧ cString
      gateway = gateway) (hrun : Exec A (Prog.loop (deleteExpired active) ids ()) h es u h') :
    es.countP (deletesRoute ip gateway) = if active.find ip = none ∧ 10 ∉ ip then
      ids.count (routeId ip gateway) else 0 := by
  refine exec_loop_inv (fun done es _ _ => es.countP (deletesRoute ip gateway) =
    if active.find ip = none ∧ 10 ∉ ip then done.count (routeId ip gateway)
      else 0) ?_ (by simp) hrun
  intro done id rest es _ h es' _ h' hsplit hcount hrecord
  obtain ⟨ip', gateway', rfl, hnewline, hip, hgateway⟩ := hids id (by simp [hsplit])
  rw [List.countP_append, hcount, List.count_append, List.count_singleton]
  rcases exec_deleteExpired hnewline hrecord with ⟨⟨via, hactive⟩, rfl, -⟩ |
    ⟨hactive, reply, rfl, -⟩
  · split_ifs with htarget hsame
    · obtain ⟨rfl, -⟩ := routeId_inj hnewline htarget.2 (beq_iff_eq.mp hsame)
      rw [hactive] at htarget
      cases htarget.1
    · rfl
    · rfl
  · rw [hip, hgateway]
    by_cases hsame : ip' = ip ∧ gateway' = gateway
    · obtain ⟨rfl, rfl⟩ := hsame
      simp [deletesRoute, hactive, hnewline]
    · have hcall : deletesRoute ip gateway ⟨.deleteSystemRoute ip' gateway', reply⟩ = false := by
        simp only [deletesRoute, Bool.and_eq_false_iff, decide_eq_false_iff_not]
        exact not_and_or.mp hsame
      simp only [List.countP_singleton, hcall, Bool.false_eq_true, if_false, Nat.add_zero]
      split_ifs with htarget hid
      · obtain ⟨rfl, rfl⟩ := routeId_inj hnewline htarget.2 (beq_iff_eq.mp hid)
        exact absurd ⟨rfl, rfl⟩ hsame
      · rfl
      · rfl

/-! ### The whole load -/

variable [Platform] {content : Bytes} {r : Result}

/-- The target of a record is a field of its line, and its key is valid. -/
theorem fields_of_parseRecord {line : Bytes} {it : SavedRoute} (h : parseRecord line = some it) :
    it.ip ∈ line.splitOn 9 ∧ validSavedKey it.key = true := by
  unfold parseRecord at h
  split at h
  · next key ip gateway ttl expiresAt hfields =>
    split at h
    · split_ifs at h with hvalid
      obtain rfl := Option.some.inj h
      exact ⟨by simp [hfields], hvalid.1⟩
    · cases h
  · cases h

/-- No target of a record holds a newline, and all keys are valid. -/
theorem texts_of_mem_parseRoutes {it : SavedRoute} (h : it ∈ parseRoutes content) :
    10 ∉ it.ip ∧ validSavedKey it.key = true := by
  obtain ⟨line, hline, hrecord⟩ := List.mem_filterMap.mp h
  have hlines : line ∈ getlines content := by
    split_ifs at hline with hheader
    · exact List.mem_of_mem_tail hline
    · exact hline
  split_ifs at hrecord
  obtain ⟨hip, hkey⟩ := fields_of_parseRecord hrecord
  exact ⟨fun hb => newline_notMem_of_mem_getlines hlines (mem_of_mem_splitOn hip hb), hkey⟩

/-- **The two passes and the end of a load** that has read `content` and the time `now`. -/
theorem exec_loaded
    (hrun : Exec Host.Answers (loadRoutesLocked OrdMap.empty) h
      (⟨.readRoutes, .content content⟩ :: ⟨.time, now⟩ :: es) r h') :
    h.routesFile = some content ∧ ∃ s es₁ es₂ es₃ h₁ h₂, es = es₁ ++ (es₂ ++ es₃) ∧
      r.1 = s.installed ∧
      Exec Host.Answers (Prog.loop (restoreRecord now) (parseRoutes content)
        ⟨OrdMap.empty, OrdMap.empty, OrdMap.empty, false⟩) { h with clock := now } es₁ s h₁ ∧
      Exec Host.Answers (Prog.loop (deleteExpired s.active) s.expired.keys ()) h₁ es₂ () h₂ ∧
      ((s.restoreFailed = true ∧ es₃ = [] ∧ h' = h₂) ∨
        (s.restoreFailed = false ∧
          ∃ fault, es₃ = [⟨.replaceRoutes (encodeRoutes s.installed), fault⟩] ∧
          Host.Answers h₂ (.replaceRoutes (encodeRoutes s.installed)) fault h' ∧
              r.2 = routesSaved fault)) := by
  obtain ⟨reply, h₁, es', heq, ⟨hreply, rfl⟩, hread⟩ := exec_lift_do_iff.mp hrun
  obtain ⟨hreadRoutes, rfl⟩ := List.cons.inj heq
  cases hreadRoutes
  obtain ⟨now', h₂, es', heq, rfl, hpasses⟩ := exec_lift_do_iff.mp hread
  obtain ⟨htime, rfl⟩ := List.cons.inj heq
  cases htime
  obtain ⟨s, h₃, es₁, es₂, rfl, hfirst, hrest⟩ := exec_do_iff.mp hpasses
  obtain ⟨u, h₄, es₂, es₃, rfl, hsecond, hend⟩ := exec_do_iff.mp hrest
  refine ⟨hreply, s, es₁, es₂, es₃, h₃, h₄, rfl, ?_⟩
  split_ifs at hend with hfailed
  · obtain ⟨rfl, rfl, rfl⟩ := exec_pure_iff.mp hend
    exact ⟨rfl, hfirst, hsecond, Or.inl ⟨hfailed, rfl, rfl⟩⟩
  · obtain ⟨result, h₅, es₄, es₅, rfl, hsave, hret⟩ := exec_do_iff.mp hend
    obtain ⟨fault, rfl, hA, rfl⟩ := exec_saveRoutesLocked.mp hsave
    obtain ⟨rfl, rfl, rfl⟩ := exec_pure_iff.mp hret
    exact ⟨rfl, hfirst, hsecond, Or.inr ⟨by simpa using hfailed, fault, rfl, hA, rfl⟩⟩

/-- Whether the system took a route. -/
def took : HostEvent → Bool
  | ⟨.addSystemRoute _ _, .ok _⟩ => true
  | _ => false

omit [Platform] in
theorem countP_took_of_refused {calls : List HostEvent} (h : List.Forall₂ Refused saved calls) :
    calls.countP took = 0 := by
  induction h with
  | nil => rfl
  | cons hcall _ ih =>
    obtain ⟨error, rfl⟩ := hcall
    rw [List.countP_cons_of_neg (by simp [took]), ih]

omit [Platform] in
/-- At most one route to a target is taken. -/
theorem Restored.took_le {calls : List HostEvent} {m : Routes} {gateway : Option Bytes}
    (hr : Restored now ip saved calls m gateway) : calls.countP took ≤ 1 := by
  cases hr with
  | lost refused _ => exact (countP_took_of_refused refused).le.trans (Nat.zero_le 1)
  | active _ _ _ refused tried _ => simp [tried, countP_took_of_refused refused, took]

omit [Platform] in
/-- Only records that have not expired are tried. -/
theorem Restored.of_call {calls : List HostEvent} {m : Routes} {gateway : Option Bytes}
    (hr : Restored now ip saved calls m gateway) {e : HostEvent} (he : e ∈ calls) :
    ∃ it ∈ unexpired now ip saved, ∃ reply, e = ⟨.addSystemRoute it.ip it.gateway, reply⟩ := by
  have hrefused : ∀ {records : List SavedRoute} {calls : List HostEvent},
      List.Forall₂ Refused records calls → e ∈ calls →
      ∃ it ∈ records, ∃ reply, e = ⟨.addSystemRoute it.ip it.gateway, reply⟩ := by
    intro records calls h he
    induction h with
    | nil => cases he
    | @cons it e' records calls hcall _ ih =>
      rcases List.mem_cons.mp he with rfl | he
      · obtain ⟨error, rfl⟩ := hcall
        exact ⟨it, List.mem_cons_self, _, rfl⟩
      · obtain ⟨it', hit', hreply⟩ := ih he
        exact ⟨it', List.mem_cons_of_mem _ hit', hreply⟩
  cases hr with
  | lost refused _ => exact hrefused refused he
  | @active before after it refusals split alive target refused tried _ =>
    rw [tried] at he
    rcases List.mem_append.mp he with he | he
    · obtain ⟨it', hit', hreply⟩ := hrefused refused he
      refine ⟨it', ?_, hreply⟩
      rw [split, unexpired_append]
      exact List.mem_append_left _ hit'
    · subst target
      refine ⟨it, ?_, _, List.mem_singleton.mp he⟩
      simp [split, unexpired, alive]

/-- The calls of a load: those of the first pass, those of the second one, and the save at the
end. -/
structure CallsOfLoad (es₁ es₂ es₃ : List HostEvent) : Prop where
  /-- The first pass adds. -/
  first : ∀ e ∈ es₁, ∃ ip gateway reply, e = ⟨.addSystemRoute ip gateway, reply⟩
  /-- The second pass deletes. -/
  second : ∀ e ∈ es₂, ∃ ip gateway reply, e = ⟨.deleteSystemRoute ip gateway, reply⟩
  /-- The end saves. -/
  last : ∀ e ∈ es₃, ∃ written fault, e = ⟨.replaceRoutes written, fault⟩

namespace CallsOfLoad

variable {es₁ es₂ es₃ : List HostEvent}

omit [Platform] in
theorem adds (hc : CallsOfLoad es₁ es₂ es₃) (ip : Bytes) :
    (es₁ ++ (es₂ ++ es₃)).filter (RouteManager.adds ip) = es₁.filter (RouteManager.adds ip) := by
  have hdeletions : es₂.filter (RouteManager.adds ip) = [] := by
    refine List.filter_eq_nil_iff.mpr fun e he => ?_
    obtain ⟨_, _, _, rfl⟩ := hc.second e he
    simp [RouteManager.adds]
  have hsaves : es₃.filter (RouteManager.adds ip) = [] := List.filter_eq_nil_iff.mpr fun e he => by
    obtain ⟨_, _, rfl⟩ := hc.last e he
    simp [RouteManager.adds]
  rw [List.filter_append, List.filter_append, hdeletions, hsaves, List.append_nil, List.append_nil]

omit [Platform] in
theorem deletes (hc : CallsOfLoad es₁ es₂ es₃) (ip gateway : Bytes) :
    (es₁ ++ (es₂ ++ es₃)).countP (deletesRoute ip gateway) =
      es₂.countP (deletesRoute ip gateway) := by
  have hadditions : es₁.countP (deletesRoute ip gateway) = 0 := by
    refine List.countP_eq_zero.mpr fun e he => ?_
    obtain ⟨_, _, _, rfl⟩ := hc.first e he
    simp [deletesRoute]
  have hsaves : es₃.countP (deletesRoute ip gateway) = 0 := List.countP_eq_zero.mpr fun e he => by
    obtain ⟨_, _, rfl⟩ := hc.last e he
    simp [deletesRoute]
  rw [List.countP_append, List.countP_append, hadditions, hsaves, Nat.zero_add, Nat.add_zero]

omit [Platform] in
theorem failed (hc : CallsOfLoad es₁ es₂ es₃) (ip : Bytes) : AddFailed ip (es₁ ++ (es₂ ++ es₃)) ↔
    AddFailed ip es₁ := by
  refine ⟨?_, fun hf => hf.append _⟩
  rintro ⟨gateway, e, hmem⟩
  rcases List.mem_append.mp hmem with hmem | hmem
  · exact ⟨gateway, e, hmem⟩
  rcases List.mem_append.mp hmem with hmem | hmem
  · obtain ⟨_, _, _, heq⟩ := hc.second _ hmem
    cases heq
  · obtain ⟨_, _, heq⟩ := hc.last _ hmem
    cases heq

omit [Platform] in
theorem unsaved (hc : CallsOfLoad es₁ es₂ es₃) (written : Bytes) (fault : Option Fault) :
    (⟨.replaceRoutes written, fault⟩ : HostEvent) ∉ es₁ ++ es₂ := by
  intro hmem
  rcases List.mem_append.mp hmem with hmem | hmem
  · obtain ⟨_, _, _, heq⟩ := hc.first _ hmem
    cases heq
  · obtain ⟨_, _, _, heq⟩ := hc.second _ hmem
    cases heq

end CallsOfLoad

/-- **What the start restores.** -/
theorem load_restores (hclean : ∀ it ∈ parseRoutes content, it.Clean)
    (hrun : Exec Host.Answers (loadRoutesLocked OrdMap.empty) h
      (⟨.readRoutes, .content content⟩ :: ⟨.time, now⟩ :: es) r h') :
    -- the first route the system takes decides the gateway, the last record of each key what the
    -- key holds
    (∀ ip, ∃ gateway, Restored now ip (parseRoutes content) (es.filter (adds ip)) r.1 gateway) ∧
      -- a target is added once at most, and never for an expired record
      (∀ ip, (es.filter (adds ip)).countP took ≤ 1) ∧
      (∀ ip gateway reply, ⟨.addSystemRoute ip gateway, reply⟩ ∈ es →
        ∃ it ∈ parseRoutes content, it.expired now = false ∧ it.ip = ip ∧ it.gateway = gateway) ∧
      -- the routes of expired records are deleted once each, unless their target was restored
      (∀ ip gateway,
        ((∃ it ∈ parseRoutes content, it.expired now = true ∧ it.ip = ip ∧ it.gateway = gateway) ∧
          (∀ key, r.1.lookup key ip = none) ∧ es.countP (deletesRoute ip gateway) = 1) ∨
        (¬ ((∃ it ∈ parseRoutes content, it.expired now = true ∧ it.ip = ip ∧
          it.gateway = gateway) ∧
          ∀ key, r.1.lookup key ip = none) ∧ es.countP (deletesRoute ip gateway) = 0)) ∧
      -- the file is rewritten at the end, unless the system refused a route
      ((∃ ip, AddFailed ip es) → h'.routesFile = h.routesFile ∧
        ∀ written fault, ⟨.replaceRoutes written, fault⟩ ∉ es) ∧
      ((∀ ip, ¬ AddFailed ip es) →
        ∃ before fault, es = before ++ [⟨.replaceRoutes (encodeRoutes r.1), fault⟩] ∧
        (∀ written fault, ⟨.replaceRoutes written, fault⟩ ∉ before) ∧ r.2 = routesSaved fault ∧
          (fault = none → h'.routesFile = some (encodeRoutes r.1))) := by
  obtain ⟨hfile, s, es₁, es₂, es₃, h₁, h₂, rfl, hr, hfirst, hsecond, hend⟩ := exec_loaded hrun
  have hpassed := passed_of_exec hclean hfirst
  have hids : ∀ id ∈ s.expired.keys, ∃ ip gateway, id = routeId ip gateway ∧ 10 ∉ ip ∧
      cString ip = ip ∧
      cString gateway = gateway := by
    intro id hid
    obtain ⟨it, hit, -, rfl⟩ := hpassed.mem_expired_iff.mp hid
    exact ⟨it.ip, it.gateway, rfl, (texts_of_mem_parseRoutes hit).1, (hclean it hit).ip,
      (hclean it hit).gateway⟩
  have hswept := swept_of_exec hids hsecond
  have hcalls : CallsOfLoad es₁ es₂ es₃ := by
    refine ⟨hpassed.calls, fun e he => ?_, fun e he => ?_⟩
    · obtain ⟨ip, gateway, reply, heq, -⟩ := hswept.calls e he
      exact ⟨ip, gateway, reply, heq⟩
    · rcases hend with ⟨-, rfl, -⟩ | ⟨-, fault, rfl, -⟩
      · cases he
      · exact ⟨_, fault, List.mem_singleton.mp he⟩
  have htargets := restored_of_exec hclean hfirst
  have hcount : ∀ ip gateway, es₂.countP (deletesRoute ip gateway) =
      if s.active.find ip = none ∧ 10 ∉ ip then s.expired.keys.count (routeId ip gateway) else 0 :=
    fun ip gateway => countP_deleteExpired hids hsecond
  have hidle : ∀ ip, s.active.find ip = none ↔ ∀ key, r.1.lookup key ip = none :=
    hr ▸ hpassed.idle_iff
  refine ⟨fun ip => ⟨s.active.find ip, ?_⟩, fun ip => ?_, ?_, ?_, ?_, ?_⟩
  · rw [hcalls.adds ip, hr]
    exact htargets ip
  · rw [hcalls.adds ip]
    exact (htargets ip).took_le
  · intro ip gateway reply hmem
    have hcall : (⟨.addSystemRoute ip gateway, reply⟩ : HostEvent) ∈ es₁.filter (adds ip) := by
      rw [← hcalls.adds ip]
      exact List.mem_filter.mpr ⟨hmem, by simp [adds]⟩
    obtain ⟨it, hit, _, heq⟩ := (htargets ip).of_call hcall
    obtain ⟨hsaved, halive⟩ := List.mem_filter.mp hit
    simp only [Bool.and_eq_true, Bool.not_eq_true', decide_eq_true_eq] at halive
    cases heq
    exact ⟨it, hsaved, halive.1, rfl, rfl⟩
  · intro ip gateway
    rw [hcalls.deletes ip gateway, hcount ip gateway]
    by_cases hdue : (∃ it ∈ parseRoutes content, it.expired now = true ∧ it.ip = ip ∧
        it.gateway = gateway) ∧
        ∀ key, r.1.lookup key ip = none
    · refine Or.inl ⟨hdue.1, hdue.2, ?_⟩
      obtain ⟨⟨it, hit, hexpired, rfl, rfl⟩, hgone⟩ := hdue
      rw [if_pos ⟨(hidle it.ip).mpr hgone, (texts_of_mem_parseRoutes hit).1⟩]
      rw [(OrdMap.nodup_keys _).count,
        if_pos (hpassed.mem_expired_iff.mpr ⟨it, hit, hexpired, rfl⟩)]
    · refine Or.inr ⟨hdue, ?_⟩
      split_ifs with hactive
      · refine List.count_eq_zero.mpr fun hmem => hdue ⟨?_, (hidle ip).mp hactive.1⟩
        obtain ⟨it, hit, hexpired, hid⟩ := hpassed.mem_expired_iff.mp hmem
        obtain ⟨rfl, rfl⟩ := routeId_inj (texts_of_mem_parseRoutes hit).1 hactive.2 hid
        exact ⟨it, hit, hexpired, rfl, rfl⟩
      · rfl
  · rintro ⟨ip, hf⟩
    rcases hend with ⟨-, rfl, rfl⟩ | ⟨hcomplete, -⟩
    · rw [List.append_nil]
      obtain ⟨kernel, hkernel⟩ := hswept.host
      exact ⟨by rw [hkernel, hpassed.host], hcalls.unsaved⟩
    · have hfailure := hpassed.restoreFailed.mpr ⟨ip, (hcalls.failed ip).mp hf⟩
      rw [hcomplete] at hfailure
      cases hfailure
  · intro hnone
    rcases hend with ⟨hfailure, -⟩ | ⟨-, fault, rfl, hA, hresult⟩
    · obtain ⟨ip, hf⟩ := hpassed.restoreFailed.mp hfailure
      exact absurd ((hcalls.failed ip).mpr hf) (hnone ip)
    · refine ⟨es₁ ++ es₂, fault, by rw [hr, List.append_assoc], hcalls.unsaved, hresult, ?_⟩
      rintro rfl
      rw [show h' = { h₂ with routesFile := some (encodeRoutes s.installed) } from hA, hr]

section Sample

omit [Platform]

/-- The first record of a target is refused, and the second one decides its gateway. -/
theorem load_restores_second : ∃ (content : Bytes) (es : List HostEvent) (r : Result) (h h' : Host),
    Exec Host.Answers (@loadRoutesLocked quadPlatform OrdMap.empty) h
      (⟨.readRoutes, .content content⟩ :: ⟨.time, (100 : ℤ)⟩ :: es) r h' ∧
    (∃ gateway, Restored 100 (text "10.0.0.1") (@parseRoutes quadPlatform content)
      (es.filter (adds (text "10.0.0.1"))) r.1 gateway) ∧
    (∃ ip, AddFailed ip es) ∧ h'.routesFile = some content := by
  let _ := quadPlatform
  let content : Bytes := text "a\t10.0.0.1\t10.0.0.254\t0\t0\nb\t10.0.0.1\t10.0.0.253\t0\t0\n"
  let h : Host := ⟨some content, none, fun _ => none, 0⟩
  have hrun := exec_play Host.answers_answer {} (loadRoutesLocked OrdMap.empty)
    [{}, { now := 100 }, { ok := false }] h
  have hsaved : parseRoutes content = [⟨text "a", text "10.0.0.1", text "10.0.0.254", 0, 0⟩,
      ⟨text "b", text "10.0.0.1", text "10.0.0.253", 0, 0⟩] := by decide +kernel
  have hclean : ∀ it ∈ parseRoutes content, it.Clean := by
    intro it hit
    rw [hsaved] at hit
    simp only [List.mem_cons, List.not_mem_nil, or_false] at hit
    rcases hit with rfl | rfl <;> exact ⟨by decide, by decide, by decide⟩
  have hfailed : ∃ ip, AddFailed ip [(⟨.addSystemRoute (text "10.0.0.1") (text "10.0.0.254"), .error
      (text "change route failed")⟩ : HostEvent),
          ⟨.addSystemRoute (text "10.0.0.1") (text "10.0.0.253"), .ok ()⟩] :=
    ⟨text "10.0.0.1", text "10.0.0.254", _, List.mem_cons_self⟩
  obtain ⟨htargets, -, -, -, hkept, -⟩ := load_restores hclean hrun
  exact ⟨content, _, _, h, _, hrun, htargets (text "10.0.0.1"), hfailed, (hkept hfailed).1⟩

end Sample

end IpRouter.RouteManager
