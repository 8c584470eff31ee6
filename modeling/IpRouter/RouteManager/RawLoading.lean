import IpRouter.RouteManager.Restoring

/-!
# Loading any file

The loader tells targets apart by the texts in the file, and the index and the
system by the C strings at their start, so a file with NUL bytes can name one
target twice. `Established` is what a load should leave behind. `Traced` says how
the first pass comes about whatever the texts are: which record made each text
active, which record wrote each entry last, and that the system has the route of
the text that was activated last.

Two things can go wrong. Two texts of one target may become active one after the
other, with different gateways, and an entry of the earlier one outlive the route
(`Rivals`). And an expired record may name the target of an active one in another
text, so that its route is deleted (`StaleAlias`). `load_established_iff` says
that a file that has neither is always loaded well, and that one that has either
is not, when the host answers badly.
-/

namespace IpRouter.RouteManager

open Theory

variable {now : ℤ} {saved : List SavedRoute} {it : SavedRoute} {h h' : Host} {es : List HostEvent}

/-- **What a load should establish**, when it made the calls `es` and left the host `h`. -/
structure Established (m : Routes) (es : List HostEvent) (h : Host) : Prop where
  /-- A target has one gateway. -/
  agree : m.refs.Agree
  /-- The system took the route of every entry, and has it still. -/
  held : ∀ key ip gateway, m.refs key ip = some gateway →
    ⟨.addSystemRoute ip gateway, .ok ()⟩ ∈ es ∧ h.kernel ip = some gateway
  /-- No key has an empty target map. -/
  noEmpty : m.NoEmpty

/-- Two records that have not expired name one target in two texts, through different gateways. A
third one that has not expired either has the texts of the first one, stands at it or after it, and
is the last to write its key: no record after it that has not expired, and that finds the second one
active, writes the key with the texts of the second one. -/
structure Rivals (now : ℤ) (saved : List SavedRoute) (i j k : ℕ) (u v w : SavedRoute) : Prop where
  /-- The first record. -/
  first : saved[i]? = some u
  /-- The second record. -/
  second : saved[j]? = some v
  /-- The record that writes its key last. -/
  last : saved[k]? = some w
  /-- They stand in this order. -/
  order : i < j ∧ i ≤ k
  /-- They have not expired. -/
  alive : u.expired now = false ∧ v.expired now = false ∧ w.expired now = false
  /-- The first two name one target. -/
  target : cString u.ip = cString v.ip
  /-- In two texts. -/
  texts : u.ip ≠ v.ip
  /-- Through two gateways. -/
  gateways : cString u.gateway ≠ cString v.gateway
  /-- The third one has the texts of the first one. -/
  shared : w.ip = u.ip ∧ w.gateway = u.gateway
  /-- No record that has not expired writes the key afterwards with the texts of the second one. -/
  outlived : ∀ l x, saved[l]? = some x → j ≤ l → k < l → x.expired now = false → x.ip = v.ip →
    x.gateway = v.gateway →
    x.key ≠ w.key

/-- An expired record names the route of one that has not expired, with another text of the
target. -/
def StaleAlias (now : ℤ) (saved : List SavedRoute) : Prop :=
  ∃ u ∈ saved, ∃ e ∈ saved, u.expired now = false ∧ e.expired now = true ∧
    cString e.ip = cString u.ip ∧ e.ip ≠ u.ip ∧
    cString e.gateway = cString u.gateway

/-- A record among the first `n + 1` is one of the first `n`, or the next one. -/
theorem before_or_at {n l : ℕ} {x : SavedRoute} (hit : saved[n]? = some it) (hl : l < n + 1)
    (hx : saved[l]? = some x) :
    l < n ∨ (l = n ∧ x = it) := by
  rcases Nat.lt_succ_iff_lt_or_eq.mp hl with hl | rfl
  · exact Or.inl hl
  · exact Or.inr ⟨rfl, Option.some.inj (hx.symm.trans hit)⟩

/-! ### Who wrote what -/

/-- The record `x` at `l` writes the entry of `key` and `ip`, when the texts
`active` became active at `pos`. -/
structure Writes (now : ℤ) (active : OrdMap Bytes Bytes) (pos : Bytes → ℕ) (l : ℕ) (x : SavedRoute)
    (key ip : Bytes) :
    Prop where
  /-- It has not expired. -/
  alive : x.expired now = false
  /-- Its target is active, through its gateway. -/
  active : active.find x.ip = some x.gateway
  /-- It was already active. -/
  since : pos x.ip ≤ l
  /-- The entry is that of its key. -/
  key : cString x.key = key
  /-- And of its target. -/
  ip : cString x.ip = ip

/-- The index holds what the last of the first `n` records to write it wrote. -/
structure LastWrites (now : ℤ) (saved : List SavedRoute) (active : OrdMap Bytes Bytes)
    (pos : Bytes → ℕ) (n : ℕ) (m : Routes) : Prop where
  /-- An entry has a record that wrote it last. -/
  writer : ∀ key ip metadata, m.lookup key ip = some metadata →
    ∃ k w, k < n ∧ saved[k]? = some w ∧ Writes now active pos k w key ip ∧
      metadata.gateway = cString w.gateway ∧
      ∀ l x, l < n → saved[l]? = some x → k < l → ¬ Writes now active pos l x key ip
  /-- What was written is there. -/
  there : ∀ l x key ip, l < n → saved[l]? = some x → Writes now active pos l x key ip →
    m.lookup key ip ≠ none

namespace LastWrites

variable {active active' : OrdMap Bytes Bytes} {pos pos' : Bytes → ℕ} {n : ℕ} {m : Routes}

/-- A record that writes nothing. -/
theorem skip (hw : LastWrites now saved active pos n m) (hit : saved[n]? = some it)
    (hskip : ∀ key ip, ¬ Writes now active pos n it key ip) :
    LastWrites now saved active pos (n + 1) m where
  writer key ip metadata hl := by
    obtain ⟨k, w, hk, hget, hwrites, hgateway, hlast⟩ := hw.writer key ip metadata hl
    refine ⟨k, w, by omega, hget, hwrites, hgateway, fun l x hl hx hkl => ?_⟩
    rcases before_or_at hit hl hx with hl | ⟨rfl, rfl⟩
    · exact hlast l x hl hx hkl
    · exact hskip key ip
  there l x key ip hl hx hwrites := by
    rcases before_or_at hit hl hx with hl | ⟨rfl, rfl⟩
    · exact hw.there l x key ip hl hx hwrites
    · exact absurd hwrites (hskip key ip)

/-- A record that writes its entry. -/
theorem set (hw : LastWrites now saved active pos n m) (hit : saved[n]? = some it)
    (hold : ∀ l x key ip, l < n → saved[l]? = some x →
      (Writes now active' pos' l x key ip ↔ Writes now active pos l x key ip))
    (hself : Writes now active' pos' n it (cString it.key) (cString it.ip))
    {metadata : RouteMetadata} (hmetadata : metadata.gateway = cString it.gateway) :
    LastWrites now saved active' pos' (n + 1)
      (m.set (cString it.key) (cString it.ip) metadata) where
  writer key ip metadata' hl := by
    rw [Routes.lookup_set] at hl
    split_ifs at hl with hsame
    · obtain ⟨rfl, rfl⟩ := hsame
      obtain rfl := Option.some.inj hl
      exact ⟨n, it, Nat.lt_succ_self n, hit, hself, hmetadata, fun l x hl _ hnl => by omega⟩
    · obtain ⟨k, w, hk, hget, hwrites, hgateway, hlast⟩ := hw.writer key ip metadata' hl
      refine ⟨k, w, by omega, hget, (hold k w key ip hk hget).mpr hwrites, hgateway,
        fun l x hl hx hkl hwrites' => ?_⟩
      rcases before_or_at hit hl hx with hl | ⟨rfl, rfl⟩
      · exact hlast l x hl hx hkl ((hold l x key ip hl hx).mp hwrites')
      · exact hsame ⟨hwrites'.key.symm, hwrites'.ip.symm⟩
  there l x key ip hl hx hwrites := by
    rw [Routes.lookup_set]
    split_ifs with hsame
    · exact Option.some_ne_none _
    · rcases before_or_at hit hl hx with hl | ⟨rfl, rfl⟩
      · exact hw.there l x key ip hl hx ((hold l x key ip hl hx).mp hwrites)
      · exact absurd ⟨hwrites.key.symm, hwrites.ip.symm⟩ hsame

end LastWrites

/-! ### The first pass -/

/-- **How the first pass came about**, after the first `n` records: the texts became active at
`pos`. -/
structure Traced (now : ℤ) (saved : List SavedRoute) (pos : Bytes → ℕ) (n : ℕ) (es : List HostEvent)
    (s : Restore) (h : Host) : Prop where
  /-- An active text has a record that made it active. -/
  activated : ∀ ip gateway, s.active.find ip = some gateway →
    pos ip < n ∧ ∃ u, saved[pos ip]? = some u ∧ u.expired now = false ∧ u.ip = ip ∧
      u.gateway = gateway
  /-- The system took its route. -/
  added : ∀ ip gateway, s.active.find ip = some gateway →
    ⟨.addSystemRoute (cString ip) (cString gateway), .ok ()⟩ ∈ es
  /-- And has the route of the text of its target that was activated last. -/
  latest : ∀ ip gateway, s.active.find ip = some gateway →
    ∃ ip' gateway', s.active.find ip' = some gateway' ∧
    cString ip' = cString ip ∧ h.kernel (cString ip) = some (cString gateway') ∧
      ∀ other via, s.active.find other = some via → cString other = cString ip → pos other ≤ pos ip'
  /-- The index holds what was written last. -/
  wrote : LastWrites now saved s.active pos n s.installed
  /-- The routes of expired records are noted. -/
  noted : ∀ id, s.expired.find id = some () ↔
    ∃ l e, l < n ∧ saved[l]? = some e ∧ e.expired now = true ∧ routeId e.ip e.gateway = id
  /-- No key has an empty target map. -/
  noEmpty : s.installed.NoEmpty

/-- When the texts became active, after the record of `ip` at `n`. -/
def activation (active active' : OrdMap Bytes Bytes) (ip : Bytes) (n : ℕ)
    (pos : Bytes → ℕ) : Bytes → ℕ :=
  if active.find ip = none ∧ active'.find ip ≠ none then Function.update pos ip n else pos

variable {pos : Bytes → ℕ} {n : ℕ} {s s' : Restore} {es' : List HostEvent}

theorem activation_self (active : OrdMap Bytes Bytes) (ip : Bytes) :
    activation active active ip n pos = pos :=
  if_neg fun h => h.2 h.1

theorem activation_insert {active : OrdMap Bytes Bytes} {ip : Bytes} (hidle : active.find ip = none)
    (gateway : Bytes) :
    activation active (active.insert ip gateway) ip n pos = Function.update pos ip n :=
  if_pos ⟨hidle, by simp⟩

/-- The routes noted after one more record that has not expired. -/
theorem noted_of_alive (ht : Traced now saved pos n es s h) (hit : saved[n]? = some it)
    (halive : it.expired now = false) (id : Bytes) : s.expired.find id = some () ↔
      ∃ l e, l < n + 1 ∧ saved[l]? = some e ∧ e.expired now = true ∧
        routeId e.ip e.gateway = id := by
  rw [ht.noted id]
  constructor
  · rintro ⟨l, e, hl, hrest⟩
    exact ⟨l, e, by omega, hrest⟩
  · rintro ⟨l, e, hl, he, hdue, hid⟩
    rcases before_or_at hit hl he with hl | ⟨rfl, rfl⟩
    · exact ⟨l, e, hl, he, hdue, hid⟩
    · rw [halive] at hdue
      cases hdue

namespace Traced

/-- The beginning of the pass. -/
theorem start (now : ℤ) (saved : List SavedRoute) (h : Host) :
    Traced now saved (fun _ => 0) 0 [] ⟨OrdMap.empty, OrdMap.empty, OrdMap.empty, false⟩ h where
  activated ip gateway hip := by simp at hip
  added ip gateway hip := by simp at hip
  latest ip gateway hip := by simp at hip
  wrote := ⟨fun key ip metadata hl => by simp at hl, fun l x key ip hl => by omega⟩
  noted id := by simp
  noEmpty := Routes.NoEmpty.empty

/-- A record that writes nothing and activates nothing. -/
theorem skip (ht : Traced now saved pos n es s h) (hit : saved[n]? = some it)
    (hskip : ∀ key ip, ¬ Writes now s.active pos n it key ip) (s' : Restore)
    (hinstalled : s'.installed = s.installed) (hactive : s'.active = s.active)
    (es' : List HostEvent) (hnoted : ∀ id, s'.expired.find id = some () ↔
      ∃ l e, l < n + 1 ∧ saved[l]? = some e ∧ e.expired now = true ∧ routeId e.ip e.gateway = id) :
    Traced now saved pos (n + 1) (es ++ es') s' h where
  activated ip gateway hip := by
    obtain ⟨hpos, hu⟩ := ht.activated ip gateway (hactive ▸ hip)
    exact ⟨by omega, hu⟩
  added ip gateway hip := List.mem_append_left _ (ht.added ip gateway (hactive ▸ hip))
  latest ip gateway hip := by
    rw [hactive] at hip ⊢
    exact ht.latest ip gateway hip
  wrote := by
    rw [hactive, hinstalled]
    exact ht.wrote.skip hit hskip
  noted := hnoted
  noEmpty := hinstalled ▸ ht.noEmpty

/-- A record of an active text. -/
theorem share (ht : Traced now saved pos n es s h) (hit : saved[n]? = some it)
    (halive : it.expired now = false) (hactive : s.active.find it.ip = some it.gateway) :
    Traced now saved pos (n + 1) es { s with installed := s.install it } h where
  activated ip gateway hip := by
    obtain ⟨hpos, hu⟩ := ht.activated ip gateway hip
    exact ⟨by omega, hu⟩
  added := ht.added
  latest := ht.latest
  wrote := by
    have hpos := (ht.activated it.ip it.gateway hactive).1
    exact ht.wrote.set hit (fun _ _ _ _ _ _ => Iff.rfl) ⟨halive, hactive, hpos.le, rfl, rfl⟩ rfl
  noted := by
    have hnoted := noted_of_alive ht hit halive
    exact hnoted
  noEmpty := ht.noEmpty.set _ _ _

/-- A record that activates its text. -/
theorem activate (ht : Traced now saved pos n es s h) (hit : saved[n]? = some it)
    (halive : it.expired now = false) (hidle : s.active.find it.ip = none) :
    Traced now saved (Function.update pos it.ip n) (n + 1)
      (es ++ [⟨.addSystemRoute (cString it.ip) (cString it.gateway), .ok ()⟩])
      { s with active := s.active.insert it.ip it.gateway, installed := s.install it }
      { h with kernel := Function.update h.kernel (cString it.ip) (some
        (cString it.gateway)) } := by
  have hfind : ∀ ip gateway, (s.active.insert it.ip it.gateway).find ip = some gateway →
      (ip = it.ip ∧ gateway = it.gateway) ∨ (ip ≠ it.ip ∧ s.active.find ip = some gateway) := by
    intro ip gateway hip
    rw [OrdMap.find_insert] at hip
    split_ifs at hip with hsame
    · exact Or.inl ⟨hsame, (Option.some.inj hip).symm⟩
    · exact Or.inr ⟨hsame, hip⟩
  have hnoted := noted_of_alive ht hit halive
  refine ⟨?_, ?_, ?_, ?_, hnoted, ht.noEmpty.set _ _ _⟩
  · intro ip gateway hip
    rcases hfind ip gateway hip with ⟨rfl, rfl⟩ | ⟨hne, hip⟩
    · rw [Function.update_self]
      exact ⟨Nat.lt_succ_self n, it, hit, halive, rfl, rfl⟩
    · rw [Function.update_of_ne hne]
      obtain ⟨hpos, hu⟩ := ht.activated ip gateway hip
      exact ⟨by omega, hu⟩
  · intro ip gateway hip
    rcases hfind ip gateway hip with ⟨rfl, rfl⟩ | ⟨hne, hip⟩
    · exact List.mem_append_right _ (List.mem_singleton_self _)
    · exact List.mem_append_left _ (ht.added ip gateway hip)
  · intro ip gateway hip
    by_cases htarget : cString ip = cString it.ip
    · -- the new text is the last one of its target
      refine ⟨it.ip, it.gateway, OrdMap.find_insert_self _ _ _, htarget.symm, ?_,
        fun other via hother _ => ?_⟩
      · rw [htarget]
        exact Function.update_self _ _ _
      · rw [Function.update_self]
        rcases hfind other via hother with ⟨rfl, -⟩ | ⟨hne, hother⟩
        · rw [Function.update_self]
        · rw [Function.update_of_ne hne]
          exact (ht.activated other via hother).1.le
    · -- the others stay as they were
      have hold : ∀ other via, (s.active.insert it.ip it.gateway).find other = some via →
          cString other = cString ip →
          other ≠ it.ip ∧ s.active.find other = some via := by
        intro other via hother hsame
        rcases hfind other via hother with ⟨rfl, -⟩ | hold
        · exact absurd hsame.symm htarget
        · exact hold
      obtain ⟨ip', gateway', hip', hsame, hkernel, hlast⟩ :=
        ht.latest ip gateway (hold ip gateway hip rfl).2
      have hne : ip' ≠ it.ip := fun heq => htarget (by rw [← hsame, heq])
      refine ⟨ip', gateway', by rw [OrdMap.find_insert, if_neg hne, hip'], hsame, ?_,
        fun other via hother hsame' => ?_⟩
      · rw [← hkernel]
        exact Function.update_of_ne htarget _ _
      · obtain ⟨hother', hactive⟩ := hold other via hother hsame'
        rw [Function.update_of_ne hother', Function.update_of_ne hne]
        exact hlast other via hactive hsame'
  · refine ht.wrote.set hit (fun l x key ip hl hx => ?_)
      ⟨halive, OrdMap.find_insert_self _ _ _, (Function.update_self _ _ _).le, rfl, rfl⟩ rfl
    by_cases hsame : x.ip = it.ip
    · -- the text was not active before
      constructor
      · intro hw
        have hsince := hw.since
        rw [hsame, Function.update_self] at hsince
        omega
      · intro hw
        have hactive := hw.active
        rw [hsame, hidle] at hactive
        cases hactive
    · constructor
      · intro hw
        have hactive := hw.active
        have hsince := hw.since
        rw [OrdMap.find_insert, if_neg hsame] at hactive
        rw [Function.update_of_ne hsame] at hsince
        exact ⟨hw.alive, hactive, hsince, hw.key, hw.ip⟩
      · intro hw
        refine ⟨hw.alive, ?_, ?_, hw.key, hw.ip⟩
        · rw [OrdMap.find_insert, if_neg hsame]
          exact hw.active
        · rw [Function.update_of_ne hsame]
          exact hw.since

/-- **One record.** -/
theorem step (ht : Traced now saved pos n es s h) (hit : saved[n]? = some it)
    (ho : RestoreOutcome Host.Answers now it s h es' s' h') :
    Traced now saved (activation s.active s'.active it.ip n pos) (n + 1) (es ++ es') s' h' := by
  cases ho with
  | expired due =>
    simp only [activation_self]
    refine ht.skip hit (fun key ip hw => ?_)
      { s with expired := s.expired.insert (routeId it.ip it.gateway) () } rfl rfl []
      fun id => ?_
    · have halive := hw.alive
      rw [due] at halive
      cases halive
    · rw [OrdMap.find_insert]
      split_ifs with hid
      · exact iff_of_true rfl ⟨n, it, Nat.lt_succ_self n, hit, due, hid.symm⟩
      · rw [ht.noted id]
        constructor
        · rintro ⟨l, e, hl, hrest⟩
          exact ⟨l, e, by omega, hrest⟩
        · rintro ⟨l, e, hl, he, hdue, hid'⟩
          rcases before_or_at hit hl he with hl | ⟨rfl, rfl⟩
          · exact ⟨l, e, hl, he, hdue, hid'⟩
          · exact absurd hid'.symm hid
  | conflict alive active other =>
    simp only [activation_self]
    refine ht.skip hit (fun key ip hw => ?_) s rfl rfl [] (noted_of_alive ht hit alive)
    exact other (Option.some.inj (active.symm.trans hw.active))
  | shared alive active =>
    simp only [activation_self, List.append_nil]
    exact ht.share hit alive active
  | failed alive idle route =>
    obtain rfl := route
    simp only [activation_self]
    have hnoted := noted_of_alive ht hit alive
    refine ht.skip hit (fun key ip hw => ?_) { s with restoreFailed := true } rfl rfl _ hnoted
    have hactive := hw.active
    rw [idle] at hactive
    cases hactive
  | restored alive idle route =>
    obtain rfl := route
    simp only [activation_insert idle]
    exact ht.activate hit alive idle

end Traced

/-- **The first pass** on any records. -/
theorem traced_of_exec
    (hrun : Exec Host.Answers
      (Prog.loop (restoreRecord now) saved ⟨OrdMap.empty, OrdMap.empty, OrdMap.empty, false⟩)
      h₀ es s h) :
    ∃ pos, Traced now saved pos saved.length es s h := by
  refine exec_loop_inv (fun done es s h => ∃ pos, Traced now saved pos done.length es s h) ?_
    ⟨_, Traced.start now saved h₀⟩ hrun
  rintro done it rest es s h es' s' h' hsplit ⟨pos, ht⟩ hrecord
  have hit : saved[done.length]? = some it := by simp [hsplit]
  rw [List.length_append, List.length_singleton]
  exact ⟨_, ht.step hit (exec_restoreRecord hrecord)⟩

namespace Traced

/-- Who wrote an entry, and that the system has its route unless the file has rivals. -/
theorem held (ht : Traced now saved pos saved.length es s h)
    (hkeys : ∀ it ∈ saved, cString it.key = it.key)
    (hrivals : ¬ ∃ i j k u v w, Rivals now saved i j k u v w) {key ip : Bytes}
    {metadata : RouteMetadata} (hl : s.installed.lookup key ip = some metadata) :
    ∃ w ∈ saved, w.expired now = false ∧ s.active.find w.ip = some w.gateway ∧ cString w.ip = ip ∧
      cString w.gateway = metadata.gateway ∧ ⟨.addSystemRoute ip metadata.gateway, .ok ()⟩ ∈ es ∧
        h.kernel ip = some metadata.gateway := by
  obtain ⟨k, w, -, hw, hwrites, hgateway, hlast⟩ := ht.wrote.writer key ip metadata hl
  obtain ⟨halive, hactive, hsince, rfl, rfl⟩ := hwrites
  refine ⟨w, List.mem_of_getElem? hw, halive, hactive, rfl, hgateway.symm, ?_, ?_⟩
  · rw [hgateway]
    exact ht.added w.ip w.gateway hactive
  · obtain ⟨ip', gateway', hactive', hsame, hkernel, hlatest⟩ := ht.latest w.ip w.gateway hactive
    obtain ⟨-, u, hu, hualive, huip, hugateway⟩ := ht.activated w.ip w.gateway hactive
    obtain ⟨-, v, hv, hvalive, rfl, rfl⟩ := ht.activated ip' gateway' hactive'
    rw [hkernel, hgateway]
    by_contra hne
    have htexts : w.ip ≠ v.ip := by
      intro heq
      rw [heq, hactive'] at hactive
      exact hne (by rw [Option.some.inj hactive])
    have horder : pos w.ip < pos v.ip := by
      refine lt_of_le_of_ne (hlatest w.ip w.gateway hactive rfl) fun heq => htexts ?_
      rw [heq] at hu
      rw [← huip, Option.some.inj (hu.symm.trans hv)]
    refine hrivals ⟨pos w.ip, pos v.ip, k, u, v, w, hu, hv, hw, ⟨horder, hsince⟩,
      ⟨hualive, hvalive, halive⟩, ?_, ?_, ?_, ⟨huip.symm, hugateway.symm⟩, ?_⟩
    · rw [huip, hsame]
    · rwa [huip]
    · intro heq
      rw [hugateway] at heq
      exact hne (by rw [heq])
    · intro l x hx hjl hkl hxalive hxip hxgateway hkey
      obtain ⟨hlen, -⟩ := List.getElem?_eq_some_iff.mp hx
      refine hlast l x hlen hx hkl ⟨hxalive, ?_, ?_, ?_, ?_⟩
      · rw [hxip, hxgateway]
        exact hactive'
      · rwa [hxip]
      · rw [hkeys x (List.mem_of_getElem? hx), hkeys w (List.mem_of_getElem? hw), hkey]
      · rw [hxip, hsame]

/-- A text that was chosen is active since then. -/
theorem active_of_chosen (ht : Traced now saved pos saved.length es s h) {l : ℕ} {x : SavedRoute}
    (hx : saved[l]? = some x) (hle : s.active.find x.ip ≠ none ∧ pos x.ip ≤ l)
    (honly : ∀ gateway y,
      s.active.find x.ip = some gateway → saved[pos x.ip]? = some y → y.ip = x.ip → pos x.ip = l) :
    s.active.find x.ip = some x.gateway ∧ pos x.ip = l := by
  obtain ⟨gateway, hactive⟩ := Option.ne_none_iff_exists'.mp hle.1
  obtain ⟨-, u, hu, -, huip, hugateway⟩ := ht.activated x.ip gateway hactive
  have hpos := honly gateway u hactive hu huip
  rw [hpos, hx] at hu
  obtain rfl := Option.some.inj hu
  exact ⟨by rw [hactive, hugateway], hpos⟩

/-- **Rivals that became active leave an entry without its route.** -/
theorem broken (ht : Traced now saved pos saved.length es s h)
    (hkeys : ∀ it ∈ saved, cString it.key = it.key) {i j k : ℕ} {u v w : SavedRoute}
    (hr : Rivals now saved i j k u v w) (hu : s.active.find u.ip = some u.gateway ∧ pos u.ip = i)
    (hv : s.active.find v.ip = some v.gateway ∧ pos v.ip = j)
    (honly : ∀ ip gateway, s.active.find ip = some gateway → ip = u.ip ∨ ip = v.ip) :
    s.installed.refs (cString w.key) (cString u.ip) = some (cString u.gateway) ∧
      h.kernel (cString u.ip) = some (cString v.gateway) := by
  obtain ⟨hwip, hwgateway⟩ := hr.shared
  have hklen : k < saved.length := (List.getElem?_eq_some_iff.mp hr.last).1
  have hwrites : Writes now s.active pos k w (cString w.key) (cString u.ip) := by
    refine ⟨hr.alive.2.2, ?_, ?_, rfl, by rw [hwip]⟩
    · rw [hwip, hwgateway]
      exact hu.1
    · rw [hwip, hu.2]
      exact hr.order.2
  constructor
  · obtain ⟨metadata, hl⟩ :=
      Option.ne_none_iff_exists'.mp (ht.wrote.there k w _ _ hklen hr.last hwrites)
    obtain ⟨k', w', hk', hw', hwrites', hgateway, hlast⟩ := ht.wrote.writer _ _ _ hl
    refine Routes.refs_eq_some.mpr ⟨metadata, hl, ?_⟩
    rw [hgateway]
    rcases honly w'.ip w'.gateway hwrites'.active with hip | hip
    · have hactive := hwrites'.active
      rw [hip, hu.1] at hactive
      rw [Option.some.inj hactive]
    · -- the entry would have been written by the second text after all
      exfalso
      have hactive := hwrites'.active
      rw [hip, hv.1] at hactive
      have hsince := hwrites'.since
      rw [hip, hv.2] at hsince
      have hkk' : k < k' := by
        rcases Nat.lt_trichotomy k k' with hlt | rfl | hlt
        · exact hlt
        · obtain rfl := Option.some.inj (hw'.symm.trans hr.last)
          exact absurd (hwip.symm.trans hip) hr.texts
        · exact absurd hwrites (hlast k w hklen hr.last hlt)
      refine hr.outlived k' w' hw' hsince hkk' hwrites'.alive hip (Option.some.inj hactive).symm ?_
      have hkey := hwrites'.key
      rwa [hkeys w' (List.mem_of_getElem? hw'), hkeys w (List.mem_of_getElem? hr.last)] at hkey
  · obtain ⟨ip', gateway', hactive', -, hkernel, hlatest⟩ := ht.latest u.ip u.gateway hu.1
    rw [hkernel]
    rcases honly ip' gateway' hactive' with rfl | rfl
    · have hle := hlatest v.ip v.gateway hv.1 hr.target.symm
      rw [hu.2, hv.2] at hle
      exact absurd hr.order.1 (by omega)
    · rw [Option.some.inj (hactive'.symm.trans hv.1)]

end Traced

/-! ### The second pass -/

/-- A route whose target is not active any more can be lost, and no other. -/
theorem kernel_deleteExpired {active : OrdMap Bytes Bytes} {ids : List Bytes} {u : Unit}
    (hids : ∀ id ∈ ids, ∃ ip gateway, id = routeId ip gateway ∧ 10 ∉ ip)
    (hrun : Exec Host.Answers (Prog.loop (deleteExpired active) ids ()) h es u h') (ip : Bytes) :
    h'.kernel ip = h.kernel ip ∨
      (h'.kernel ip = none ∧ ∃ name gateway, routeId name gateway ∈ ids ∧ 10 ∉ name ∧
      active.find name = none ∧ cString name = ip ∧ h.kernel ip = some (cString gateway)) := by
  refine exec_loop_inv (fun done _ _ h₁ => h₁.kernel ip = h.kernel ip ∨
    (h₁.kernel ip = none ∧ ∃ name gateway,
    routeId name gateway ∈ ids ∧ 10 ∉ name ∧ active.find name = none ∧ cString name = ip ∧
      h.kernel ip = some (cString gateway))) ?_ (Or.inl rfl) hrun
  intro done id rest es _ h₁ es' _ h₂ hsplit hI hone
  have hmem : id ∈ ids := by simp [hsplit]
  obtain ⟨name, gateway, rfl, hnewline⟩ := hids id hmem
  rcases exec_deleteExpired hnewline hone with ⟨-, -, rfl⟩ | ⟨hidle, reply, -, hA⟩
  · exact hI
  · cases reply with
    | error e =>
      obtain rfl := hA
      exact hI
    | ok u =>
      obtain ⟨hthere, rfl⟩ := hA
      by_cases hip : cString name = ip
      · subst hip
        refine Or.inr ⟨Function.update_self _ _ _, name, gateway, hmem, hnewline, hidle, rfl, ?_⟩
        rcases hI with hsame | ⟨hnone, -⟩
        · rw [← hsame, hthere]
        · rw [hthere] at hnone
          cases hnone
      · rw [show ({ h₁ with kernel := Function.update h₁.kernel (cString name) none } : Host).kernel
          ip = h₁.kernel ip from Function.update_of_ne (Ne.symm hip) _ _]
        exact hI

/-- A host on which every call succeeds that can. -/
def eager : Answers Host HostCall HostCall.Reply :=
  fun h c reply h' => reply = (Host.answer {} h c).1 ∧ h' = (Host.answer {} h c).2

theorem answers_of_eager {c : HostCall} {reply : c.Reply} (hA : eager h c reply h') :
    h.Answers c reply h' := by
  obtain ⟨rfl, rfl⟩ := hA
  exact Host.answers_answer {} h c

/-- On such a host a noted route is lost, unless its text is active. -/
theorem lost_of_eager {active : OrdMap Bytes Bytes} {ids : List Bytes} {u : Unit}
    {name gateway : Bytes} (hids : ∀ id ∈ ids, ∃ ip gateway, id = routeId ip gateway ∧ 10 ∉ ip)
    (hmem : routeId name gateway ∈ ids) (hnewline : 10 ∉ name) (hidle : active.find name = none)
    (hroute : h.kernel (cString name) = some (cString gateway))
    (hrun : Exec eager (Prog.loop (deleteExpired active) ids ()) h es u h') :
    h'.kernel (cString name) = none := by
  have hall : (h'.kernel (cString name) = none ∨
      h'.kernel (cString name) = some (cString gateway)) ∧
      (routeId name gateway ∈ ids → h'.kernel (cString name) = none) := by
    refine exec_loop_inv (fun done _ _ h₁ => (h₁.kernel (cString name) = none ∨
      h₁.kernel (cString name) = some (cString gateway)) ∧ (routeId name gateway ∈ done →
        h₁.kernel (cString name) = none))
      ?_ ⟨Or.inr hroute, fun h => by cases h⟩ hrun
    rintro done id rest es _ h₁ es' _ h₂ hsplit ⟨hI, hdone⟩ hone
    obtain ⟨name', gateway', rfl, hnewline'⟩ := hids id (by simp [hsplit])
    have hself : routeId name gateway = routeId name' gateway' → name = name' ∧
        gateway = gateway' :=
      routeId_inj hnewline hnewline'
    rcases exec_deleteExpired hnewline' hone with ⟨⟨via, hactive⟩, -, rfl⟩ | ⟨-, reply, -, -, rfl⟩
    · refine ⟨hI, fun hmem => ?_⟩
      rcases List.mem_append.mp hmem with hmem | hmem
      · exact hdone hmem
      · obtain ⟨rfl, -⟩ := hself (List.mem_singleton.mp hmem)
        rw [hidle] at hactive
        cases hactive
    · simp only [Host.answer, true_and]
      split_ifs with hthere
      · by_cases hname : cString name = cString name'
        · rw [hname]
          exact ⟨Or.inl (Function.update_self _ _ _), fun _ => Function.update_self _ _ _⟩
        · simp only [Function.update_of_ne hname]
          refine ⟨hI, fun hmem => ?_⟩
          rcases List.mem_append.mp hmem with hmem | hmem
          · exact hdone hmem
          · exact absurd (by rw [(hself (List.mem_singleton.mp hmem)).1]) hname
      · refine ⟨hI, fun hmem => ?_⟩
        rcases List.mem_append.mp hmem with hmem | hmem
        · exact hdone hmem
        · obtain ⟨rfl, rfl⟩ := hself (List.mem_singleton.mp hmem)
          exact hI.resolve_right hthere
  exact hall.2 hmem

/-! ### A first pass of one's own choice -/

/-- The system takes a route exactly if `take`. -/
def taking (take : Bool) : (c : HostCall) → c.Reply → Bool
  | .addSystemRoute _ _, .ok _ => take
  | .addSystemRoute _ _, .error _ => !take
  | _, _ => true

theorem taking_total (take : Bool) (h : Host) (c : HostCall) :
    ∃ reply h', restrict Host.Answers (taking take) h c reply h' := by
  cases c with
  | addSystemRoute destination gateway =>
    cases take with
    | false => exact ⟨.error [], h, rfl, rfl⟩
    | true => exact ⟨.ok (), _, rfl, rfl⟩
  | time | readRoutes | readGlobal | replaceRoutes _ | replaceGlobal _ | deleteSystemRoute _ _ |
      listSystemRoutes =>
    obtain ⟨reply, h', hA⟩ := Host.answers_total h _
    exact ⟨reply, h', hA, rfl⟩

/-- The system has taken the records at the positions `take`, as far as it was asked. -/
structure Follows (take : ℕ → Bool) (now : ℤ) (saved : List SavedRoute) (pos : Bytes → ℕ) (n : ℕ)
    (s : Restore) : Prop where
  /-- Texts became active at these positions only. -/
  chosen : ∀ ip gateway, s.active.find ip = some gateway → take (pos ip) = true
  /-- And at each of them, if they were not active. -/
  obeyed : ∀ l x, l < n → saved[l]? = some x → x.expired now = false → take l = true →
    s.active.find x.ip ≠ none ∧ pos x.ip ≤ l

namespace Follows

variable {take : ℕ → Bool}

/-- A record that activates nothing. -/
theorem skip (hf : Follows take now saved pos n s) (hit : saved[n]? = some it)
    (hskip : it.expired now = true ∨ take n = false ∨ (s.active.find it.ip ≠ none ∧ pos it.ip ≤ n))
    (hactive : s'.active = s.active) : Follows take now saved pos (n + 1) s' where
  chosen ip gateway hip := hf.chosen ip gateway (hactive ▸ hip)
  obeyed l x hl hx halive htake := by
    rw [hactive]
    rcases before_or_at hit hl hx with hl | ⟨rfl, rfl⟩
    · exact hf.obeyed l x hl hx halive htake
    · rcases hskip with hdue | hnot | hsince
      · rw [halive] at hdue
        cases hdue
      · rw [htake] at hnot
        cases hnot
      · exact hsince

/-- **One record.** -/
theorem step (hf : Follows take now saved pos n s)
    (ht : Traced now saved pos n es s h) (hit : saved[n]? = some it)
    (ho : RestoreOutcome (restrict Host.Answers (taking (take n))) now it s h es' s' h') :
    Follows take now saved (activation s.active s'.active it.ip n pos) (n + 1) s' := by
  cases ho with
  | expired due =>
    simp only [activation_self]
    exact hf.skip hit (Or.inl due) rfl
  | conflict alive active other =>
    simp only [activation_self]
    exact hf.skip hit (Or.inr (Or.inr ⟨by simp [active], (ht.activated _ _ active).1.le⟩)) rfl
  | shared alive active =>
    simp only [activation_self]
    exact hf.skip hit (Or.inr (Or.inr ⟨by simp [active], (ht.activated _ _ active).1.le⟩)) rfl
  | failed alive idle route =>
    simp only [activation_self]
    exact hf.skip hit (Or.inr (Or.inl (by simpa [taking] using route.2))) rfl
  | restored alive idle route =>
    have htake : take n = true := route.2
    simp only [activation_insert idle]
    constructor
    · intro ip gateway hip
      rw [OrdMap.find_insert] at hip
      split_ifs at hip with hsame
      · rw [hsame, Function.update_self, htake]
      · rw [Function.update_of_ne hsame]
        exact hf.chosen ip gateway hip
    · intro l x hl hx hxalive hxtake
      rw [OrdMap.find_insert]
      rcases before_or_at hit hl hx with hl | ⟨rfl, rfl⟩
      · obtain ⟨hactive, hpos⟩ := hf.obeyed l x hl hx hxalive hxtake
        have hne : x.ip ≠ it.ip := fun heq => hactive (by rw [heq, idle])
        rw [if_neg hne, Function.update_of_ne hne]
        exact ⟨hactive, hpos⟩
      · rw [if_pos rfl, Function.update_self]
        exact ⟨Option.some_ne_none _, le_rfl⟩

end Follows

/-- **The host can take the records it likes.** -/
theorem exists_restoring (take : ℕ → Bool) (rest : List SavedRoute) : ∀ (done : List SavedRoute)
    (s : Restore) (h : Host) (es : List HostEvent) (pos : Bytes → ℕ), saved = done ++ rest →
    Traced now saved pos done.length es s h →
      Follows take now saved pos done.length s → ∃ es' s' h' pos',
        Exec Host.Answers (Prog.loop (restoreRecord now) rest s) h es' s' h' ∧
          Traced now saved pos' saved.length (es ++ es') s' h' ∧
          Follows take now saved pos' saved.length s' := by
  induction rest with
  | nil =>
    intro done s h es pos hsplit ht hf
    rw [List.append_nil] at hsplit
    subst hsplit
    exact ⟨[], s, h, pos, .ret, by rwa [List.append_nil], hf⟩
  | cons it rest ih =>
    intro done s h es pos hsplit ht hf
    have hit : saved[done.length]? = some it := by simp [hsplit]
    obtain ⟨es₁, s₁, h₁, hrun⟩ :=
      exists_exec (taking_total (take done.length)) (restoreRecord now s it) h
    have hhost := (exec_restrict_iff.mp hrun).1
    have ht₁ := ht.step hit (exec_restoreRecord hhost)
    have hf₁ := hf.step ht hit (exec_restoreRecord hrun)
    obtain ⟨es₂, s₂, h₂, pos₂, hrest, ht₂, hf₂⟩ := ih (done ++ [it]) s₁ h₁ (es ++ es₁) _
      (by simp [hsplit])
      (by simpa using ht₁) (by simpa using hf₁)
    exact ⟨es₁ ++ es₂, s₂, h₂, pos₂, exec_bind_iff.mpr ⟨s₁, h₁, es₁, es₂, rfl, hhost, hrest⟩,
      by rwa [← List.append_assoc], hf₂⟩

/-! ### The whole load -/

variable [Platform] {content : Bytes}

/-- A load that goes through these two passes. -/
theorem exec_load_of_passes {es₁ es₂ : List HostEvent} {h₁ h₂ : Host} {u : Unit}
    (hfirst : Exec Host.Answers (Prog.loop (restoreRecord now) (parseRoutes content)
      ⟨OrdMap.empty, OrdMap.empty, OrdMap.empty, false⟩)
      { h with routesFile := some content, clock := now } es₁ s h₁)
    (hsecond : Exec Host.Answers (Prog.loop (deleteExpired s.active) s.expired.keys ())
      h₁ es₂ u h₂) :
    ∃ es r h', Exec Host.Answers (loadRoutesLocked OrdMap.empty)
      { h with routesFile := some content }
      (⟨.readRoutes, .content content⟩ :: ⟨.time, now⟩ :: es) r h' ∧
      r.1 = s.installed ∧ h'.kernel = h₂.kernel := by
  have hend : ∃ es₃ r h', Exec Host.Answers
      (if s.restoreFailed then
        pure (s.installed, .error (text "one or more persisted routes could not be restored"))
        else do
          let result ← saveRoutesLocked s.installed
          return (s.installed, result) : HostProg Result) h₂ es₃ r h' ∧ r.1 = s.installed ∧
              h'.kernel = h₂.kernel := by
    split_ifs with hfailed
    · exact ⟨[], _, h₂, .ret, rfl, rfl⟩
    · have hsave : Exec Host.Answers (saveRoutesLocked s.installed) h₂
          [⟨.replaceRoutes (encodeRoutes s.installed), none⟩] (.ok ())
          { h₂ with routesFile := some (encodeRoutes s.installed) } :=
            exec_saveRoutesLocked.mpr ⟨none, rfl, rfl, rfl⟩
      exact ⟨_, _, _, exec_do_iff.mpr ⟨_, _, _, [], rfl, hsave, .ret⟩, rfl, rfl⟩
  obtain ⟨es₃, r, h', hend, hr, hkernel⟩ := hend
  refine ⟨es₁ ++ (es₂ ++ es₃), r, h', ?_, hr, hkernel⟩
  refine exec_lift_do_iff.mpr ⟨.content content, _, _, rfl, ⟨rfl, rfl⟩, ?_⟩
  refine exec_lift_do_iff.mpr ⟨now, _, _, rfl, rfl, ?_⟩
  exact exec_do_iff.mpr ⟨s, h₁, es₁, _, rfl, hfirst,
    exec_do_iff.mpr ⟨u, h₂, es₂, es₃, rfl, hsecond, hend⟩⟩

theorem cString_key_of_mem_parseRoutes {it : SavedRoute} (h : it ∈ parseRoutes content) :
    cString it.key = it.key :=
  (unbroken_of_validSavedKey (texts_of_mem_parseRoutes h).2).cString

/-- The notes of the first pass on a file are routes of its records. -/
theorem Traced.notes
    (ht : Traced now (parseRoutes content) pos (parseRoutes content).length es s h) :
    ∀ id ∈ s.expired.keys, ∃ ip gateway, id = routeId ip gateway ∧ 10 ∉ ip := by
  intro id hid
  obtain ⟨u, hu⟩ := OrdMap.mem_keys_iff.mp hid
  obtain ⟨l, e, -, he, -, rfl⟩ := (ht.noted id).mp hu
  exact ⟨e.ip, e.gateway, rfl, (texts_of_mem_parseRoutes (List.mem_of_getElem? he)).1⟩

/-- **A file without rivals and stale aliases is loaded well.** -/
theorem established_of_load {r : Result}
    (hrivals : ¬ ∃ i j k u v w, Rivals now (parseRoutes content) i j k u v w)
    (hstale : ¬ StaleAlias now (parseRoutes content))
    (hrun : Exec Host.Answers (loadRoutesLocked OrdMap.empty) h
      (⟨.readRoutes, .content content⟩ :: ⟨.time, now⟩ :: es) r h') : Established r.1 es h' := by
  obtain ⟨-, s, es₁, es₂, es₃, h₁, h₂, rfl, hr, hfirst, hsecond, hend⟩ := exec_loaded hrun
  obtain ⟨pos, ht⟩ := traced_of_exec hfirst
  have hkernel : h'.kernel = h₂.kernel := by
    rcases hend with ⟨-, -, rfl⟩ | ⟨-, fault, -, hA, -⟩
    · rfl
    · cases fault with
      | none => rw [show h' = { h₂ with routesFile := some (encodeRoutes s.installed) } from hA]
      | some fault => rw [show h' = h₂ from hA]
  have hheld : ∀ key ip gateway, r.1.refs key ip = some gateway →
      ⟨.addSystemRoute ip gateway, .ok ()⟩ ∈ es₁ ++ (es₂ ++ es₃) ∧ h'.kernel ip = some gateway := by
    intro key ip gateway hk
    rw [hr] at hk
    obtain ⟨metadata, hl, rfl⟩ := Routes.refs_eq_some.mp hk
    obtain ⟨w, hw, halive, hactive, hip, hgateway, hadded, hroute⟩ :=
      ht.held (fun it hit => cString_key_of_mem_parseRoutes hit) hrivals hl
    refine ⟨List.mem_append_left _ hadded, ?_⟩
    rw [hkernel]
    rcases kernel_deleteExpired ht.notes hsecond ip with hsame |
      ⟨-, name, via, hnoted, hnewline, hidle, hname, hvia⟩
    · rw [hsame, hroute]
    · -- the deleted route was noted for an expired record
      exfalso
      obtain ⟨u, hu⟩ := OrdMap.mem_keys_iff.mp hnoted
      obtain ⟨l, e, -, he, hdue, hid⟩ := (ht.noted _).mp hu
      have hmem := List.mem_of_getElem? he
      obtain ⟨rfl, rfl⟩ := routeId_inj (texts_of_mem_parseRoutes hmem).1 hnewline hid
      refine hstale ⟨w, hw, e, hmem, halive, hdue, hname.trans hip.symm, ?_, ?_⟩
      · intro heq
        rw [heq, hactive] at hidle
        cases hidle
      · rw [hgateway]
        exact Option.some.inj (hvia.symm.trans hroute)
  refine ⟨fun key key' ip gateway gateway' hk hk' => ?_, hheld, hr ▸ ht.noEmpty⟩
  exact Option.some.inj ((hheld key ip gateway hk).2.symm.trans (hheld key' ip gateway' hk').2)

/-- On rivals the host can answer so that an entry has lost its route. -/
theorem not_established_of_rivals {i j k : ℕ} {u v w : SavedRoute}
    (hr : Rivals now (parseRoutes content) i j k u v w) (h : Host) : ∃ es r h',
    Exec Host.Answers (loadRoutesLocked OrdMap.empty) { h with routesFile := some content }
      (⟨.readRoutes, .content content⟩ :: ⟨.time, now⟩ :: es) r h' ∧ ¬ Established r.1 es h' := by
  obtain ⟨es₁, s, h₁, pos, hfirst, ht, hf⟩ := exists_restoring (fun l => l = i || l = j)
    (parseRoutes content) []
    ⟨OrdMap.empty, OrdMap.empty, OrdMap.empty, false⟩
      { h with routesFile := some content, clock := now } [] _ rfl
    (Traced.start now _ _) ⟨fun ip gateway hip => by simp at hip, fun l x hl => by simp at hl⟩
  rw [List.nil_append] at ht
  have hchosen : ∀ ip gateway, s.active.find ip = some gateway → pos ip = i ∨ pos ip = j := by
    intro ip gateway hip
    simpa using hf.chosen ip gateway hip
  have hilen := (List.getElem?_eq_some_iff.mp hr.first).1
  have hjlen := (List.getElem?_eq_some_iff.mp hr.second).1
  have hiobeyed := hf.obeyed i u hilen hr.first hr.alive.1 (by simp)
  have hjobeyed := hf.obeyed j v hjlen hr.second hr.alive.2.1 (by simp)
  have hu : s.active.find u.ip = some u.gateway ∧ pos u.ip = i := by
    refine ht.active_of_chosen hr.first hiobeyed fun gateway y hip _ _ => ?_
    have := hchosen u.ip gateway hip
    have := hr.order.1
    omega
  have hv : s.active.find v.ip = some v.gateway ∧ pos v.ip = j := by
    refine ht.active_of_chosen hr.second hjobeyed fun gateway y hip hy hyip => ?_
    refine (hchosen v.ip gateway hip).resolve_left fun hpos => hr.texts ?_
    rw [hpos] at hy
    rw [← hyip, Option.some.inj (hr.first.symm.trans hy)]
  have honly : ∀ ip gateway, s.active.find ip = some gateway → ip = u.ip ∨ ip = v.ip := by
    intro ip gateway hip
    obtain ⟨-, y, hy, -, rfl, -⟩ := ht.activated ip gateway hip
    rcases hchosen y.ip gateway hip with hpos | hpos
    · rw [hpos] at hy
      exact Or.inl (by rw [Option.some.inj (hr.first.symm.trans hy)])
    · rw [hpos] at hy
      exact Or.inr (by rw [Option.some.inj (hr.second.symm.trans hy)])
  obtain ⟨hentry, hroute⟩ :=
    ht.broken (fun it hit => cString_key_of_mem_parseRoutes hit) hr hu hv honly
  obtain ⟨es₂, a, h₂, hsecond⟩ := exists_exec Host.answers_total
    (Prog.loop (deleteExpired s.active) s.expired.keys ()) h₁
  obtain ⟨es, r, h', hrun, hinstalled, hkernel⟩ := exec_load_of_passes hfirst hsecond
  refine ⟨es, r, h', hrun, fun hE => ?_⟩
  have hheld :=
    (hE.held (cString w.key) (cString u.ip) (cString u.gateway) (by rw [hinstalled, hentry])).2
  rw [hkernel] at hheld
  rcases kernel_deleteExpired ht.notes hsecond (cString u.ip) with hsame | ⟨hnone, -⟩
  · rw [hsame, hroute] at hheld
    exact hr.gateways (Option.some.inj hheld).symm
  · rw [hnone] at hheld
    cases hheld

/-- On a stale alias the host can answer so that the route of an entry is deleted. -/
theorem not_established_of_staleAlias (hstale : StaleAlias now (parseRoutes content)) (h : Host) :
    ∃ es r h', Exec Host.Answers (loadRoutesLocked OrdMap.empty)
      { h with routesFile := some content }
      (⟨.readRoutes, .content content⟩ :: ⟨.time, now⟩ :: es) r h' ∧ ¬ Established r.1 es h' := by
  obtain ⟨u, hu, e, he, halive, hdue, htarget, htexts, hgateway⟩ := hstale
  obtain ⟨i, hi⟩ := List.getElem?_of_mem hu
  obtain ⟨es₁, s, h₁, pos, hfirst, ht, hf⟩ := exists_restoring (fun l => l = i)
    (parseRoutes content) []
    ⟨OrdMap.empty, OrdMap.empty, OrdMap.empty, false⟩
      { h with routesFile := some content, clock := now } [] _ rfl
    (Traced.start now _ _) ⟨fun ip gateway hip => by simp at hip, fun l x hl => by simp at hl⟩
  rw [List.nil_append] at ht
  have hilen := (List.getElem?_eq_some_iff.mp hi).1
  have honly : ∀ ip gateway, s.active.find ip = some gateway → ip = u.ip := by
    intro ip gateway hip
    obtain ⟨-, y, hy, -, rfl, -⟩ := ht.activated ip gateway hip
    have hpos : pos y.ip = i := by simpa using hf.chosen y.ip gateway hip
    rw [hpos] at hy
    rw [Option.some.inj (hi.symm.trans hy)]
  have hactive : s.active.find u.ip = some u.gateway ∧ pos u.ip = i := by
    refine ht.active_of_chosen hi (hf.obeyed i u hilen hi halive (by simp))
      fun gateway y hip _ _ => ?_
    simpa using hf.chosen u.ip gateway hip
  have hroute : h₁.kernel (cString u.ip) = some (cString u.gateway) := by
    obtain ⟨ip', gateway', hactive', -, hkernel, -⟩ := ht.latest u.ip u.gateway hactive.1
    obtain rfl := honly ip' gateway' hactive'
    rw [hkernel, Option.some.inj (hactive'.symm.trans hactive.1)]
  have hentry : s.installed.lookup (cString u.key) (cString u.ip) ≠ none :=
    ht.wrote.there i u _ _ hilen hi ⟨halive, hactive.1, hactive.2.le, rfl, rfl⟩
  have hidle : s.active.find e.ip = none := by
    cases hfind : s.active.find e.ip with
    | none => rfl
    | some gateway => exact absurd (honly e.ip gateway hfind) htexts
  have hnoted : routeId e.ip e.gateway ∈ s.expired.keys := by
    obtain ⟨l, hl⟩ := List.getElem?_of_mem he
    exact OrdMap.mem_keys_iff.mpr
      ⟨(), (ht.noted _).mpr ⟨l, e, (List.getElem?_eq_some_iff.mp hl).1, hl, hdue, rfl⟩⟩
  obtain ⟨es₂, a, h₂, hsecond⟩ := exists_exec (A := eager) (fun h c => ⟨_, _, rfl, rfl⟩)
    (Prog.loop (deleteExpired s.active) s.expired.keys ()) h₁
  have hlost := lost_of_eager ht.notes hnoted (texts_of_mem_parseRoutes he).1 hidle
    (by rw [htarget, hroute, hgateway]) hsecond
  obtain ⟨es, r, h', hrun, hinstalled, hkernel⟩ := exec_load_of_passes hfirst
    (hsecond.mono fun _ _ _ _ hA => answers_of_eager hA)
  refine ⟨es, r, h', hrun, fun hE => ?_⟩
  obtain ⟨metadata, hl⟩ := Option.ne_none_iff_exists'.mp hentry
  have hheld := (hE.held (cString u.key) (cString u.ip) metadata.gateway
    (Routes.refs_eq_some.mpr ⟨metadata, by rw [hinstalled, hl], rfl⟩)).2
  rw [hkernel, ← htarget, hlost] at hheld
  cases hheld

/-- **Which files are always loaded well.** -/
theorem load_established_iff (content : Bytes) (now : ℤ) (h : Host) :
    (∀ es r h', Exec Host.Answers (loadRoutesLocked OrdMap.empty)
      { h with routesFile := some content }
      (⟨.readRoutes, .content content⟩ :: ⟨.time, now⟩ :: es) r h' → Established r.1 es h') ↔
    (¬ ∃ i j k u v w, Rivals now (parseRoutes content) i j k u v w) ∧
      ¬ StaleAlias now (parseRoutes content) := by
  constructor
  · intro hall
    constructor
    · rintro ⟨i, j, k, u, v, w, hr⟩
      obtain ⟨es, r, h', hrun, hnot⟩ := not_established_of_rivals hr h
      exact hnot (hall es r h' hrun)
    · intro hstale
      obtain ⟨es, r, h', hrun, hnot⟩ := not_established_of_staleAlias hstale h
      exact hnot (hall es r h' hrun)
  · rintro ⟨hrivals, hstale⟩ es r h' hrun
    exact established_of_load hrivals hstale hrun

section Sample

omit [Platform]

/-- Two records name one target, the second one with a NUL behind it, through two gateways. -/
theorem load_not_established : ∃ (content : Bytes) (es : List HostEvent) (r : Result) (h h' : Host),
    Exec Host.Answers (@loadRoutesLocked quadPlatform OrdMap.empty) h
      (⟨.readRoutes, .content content⟩ :: ⟨.time, (100 : ℤ)⟩ :: es) r h' ∧
    r.1.refs (text "a") (text "10.0.0.1") = some (text "10.0.0.254") ∧
      r.1.refs (text "b") (text "10.0.0.1") = some (text "10.0.0.253") ∧
      ¬ Established r.1 es h' := by
  let _ := quadPlatform
  let content : Bytes := text "a\t10.0.0.1\t10.0.0.254\t0\t0\nb\t10.0.0.1\x00\t10.0.0.253\t0\t0\n"
  let h : Host := ⟨some content, none, fun _ => none, 0⟩
  have hrun :=
    exec_play Host.answers_answer {} (loadRoutesLocked OrdMap.empty) [{}, { now := 100 }] h
  have hfirst : ((loadRoutesLocked OrdMap.empty).play Host.answer {}
      [{}, { now := 100 }] h).2.1.1.refs (text "a")
      (text "10.0.0.1") = some (text "10.0.0.254") := by decide +kernel
  have hsecond : ((loadRoutesLocked OrdMap.empty).play Host.answer {}
      [{}, { now := 100 }] h).2.1.1.refs (text "b")
      (text "10.0.0.1") = some (text "10.0.0.253") := by decide +kernel
  refine ⟨content, _, _, h, _, hrun, hfirst, hsecond, fun hE => ?_⟩
  exact absurd (hE.agree hfirst hsecond) (by decide)

end Sample

end IpRouter.RouteManager
