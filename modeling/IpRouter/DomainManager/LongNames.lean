import IpRouter.DomainManager.Managed

/-!
# Which domains can be managed

A file system takes names of at most 255 bytes. `valid_domain` accepts names of at
most 253, but the file that `add` writes first has a longer name: it holds the
domain, the process id, and 16 bytes more. On a file system that does everything
else it is asked for (`Disk.Grants`), a domain is added, listed and removed again,
with nothing left behind, exactly when this name fits, is free, and the clock does
not stand at or before its beginning (`manageable_iff`). A long domain is
accepted and cannot be added (`not_manageable`).
-/

namespace IpRouter.DomainManager

open Theory RouteManager

/-! ### A file system that only refuses long names -/

/-- The path leads to the place `n` of the directory, which has a name the file system takes. -/
structure Disk.Place (r : Resolver) (d : Disk) (path : Bytes) (n : Name) : Prop where
  /-- There is a directory. -/
  directory : ∃ es, d = .directory es
  /-- The path leads there. -/
  path : entryName r.directory path = some n
  /-- Its name is not too long. -/
  length : n.bytes.length ≤ 255

/-- The path does not lead to a name that is too long. -/
def Resolver.Short (r : Resolver) (path : Bytes) : Prop :=
  ∀ n, entryName r.directory path = some n → n.bytes.length ≤ 255

/-- **What is granted**: the clock reads `now`, the process has the id `pid`, names that are too
long are refused, and no other call fails that has what it needs. Links and objects that are no
files need not be opened. -/
def Disk.Granted (r : Resolver) (now pid : ℤ) (d : Disk) : (c : DiskCall) → c.Reply → Prop
  | .time, reading => reading = now
  | .getpid, id => id = pid
  | .stat, .failed code => code = enoent
  | .mkdir, some _ => d ≠ .absent
  | .lstat path, .found _ => r.Short path
  | .lstat path, .failed code => ∀ n, d.Place r path n → code = enoent
  | .read path, some _ => r.Short path
  | .read path, none => ∀ n content, d.Place r path n → d.entries.find n ≠ some (.file content)
  | .openTruncate path, none => r.Short path
  | .openTruncate path, some _ =>
    ∀ n, d.Place r path n → ∃ e, d.entries.find n = some e ∧ e.isRegular = false
  | .write path _, good =>
    good = false → ∀ n, d.Place r path n → ∃ e, d.entries.find n = some e ∧ e.isRegular = false
  | .unlink path, none => r.Short path
  | .unlink path, some _ => ∀ n, d.Place r path n → d.entries.find n = none
  | .rename source target, none => r.Short source ∧ r.Short target
  | .rename source target, some _ => ∀ n m, d.Place r source n → d.Place r target m →
      d.entries.find n = none ∨ ∃ e, d.entries.find m = some e ∧ e.isRegular = false
  | .opendir, some _ => ∀ es, d ≠ .directory es
  | .readdir, listing => listing.complete = true
  | _, _ => True

/-- A file system that grants what it can. -/
def Disk.Grants (r : Resolver) (now pid : ℤ) :
    Theory.Answers Disk DiskCall DiskCall.Reply := fun d c reply d' =>
  d.Answers r c reply d' ∧ d.Granted r now pid c reply

theorem Disk.Place.short {r : Resolver} {d : Disk} {path : Bytes} {n : Name}
    (h : d.Place r path n) : r.Short path := by
  intro m hm
  obtain rfl := Option.some.inj (h.path.symm.trans hm)
  exact h.length

/-- What is not a regular file may be a link. -/
theorem opened_of_regular {es : Entries} {n : Name} (h : es.opened n = none) :
    ∃ e, es.find n = some e ∧ e.isRegular = false := by
  unfold Entries.opened at h
  split at h
  next target hlink => exact ⟨_, hlink, rfl⟩
  next => cases h

/-- A place is the only one its path leads to. -/
theorem Disk.Place.eq {r : Resolver} {d : Disk} {path : Bytes} {n m : Name} (h : d.Place r path n)
    (hm : entryName r.directory path = some m) : m = n :=
  Option.some.inj (hm.symm.trans h.path)

/-- No path of the call leads to a name that is too long. -/
def DiskCall.Fits (r : Resolver) : DiskCall → Prop
  | .lstat path | .read path | .openTruncate path | .write path _ | .unlink path => r.Short path
  | .rename source target => r.Short source ∧ r.Short target
  | _ => True

/-- A file system on which nothing fails that need not grants what has no long name. -/
theorem Disk.granted_calm {r : Resolver} {now pid : ℤ} {d : Disk} {c : DiskCall} (hfits : c.Fits r)
    (htime : c ≠ .time) (hpid : c ≠ .getpid) : d.Granted r now pid c (d.calm r now c).1 := by
  cases c with
  | time => exact absurd rfl htime
  | getpid => exact absurd rfl hpid
  | stat =>
    cases d with
    | absent => exact rfl
    | occupied | directory es => exact trivial
  | mkdir =>
    cases d with
    | absent => exact trivial
    | occupied | directory es => exact fun h => by cases h
  | lstat path =>
    simp only [Disk.calm]
    split
    next hnone => exact fun n hn => by cases hnone.symm.trans hn.path
    next n hn =>
      cases d.entries.find n with
      | none => exact fun _ _ => rfl
      | some e => exact hfits
  | read path =>
    simp only [Disk.calm]
    split
    next => exact hfits
    next hother =>
      intro n content hn hfile
      exact hother content (Option.bind_eq_some_iff.mpr ⟨n, hn.path, hfile⟩)
  | openTruncate path =>
    simp only [Disk.calm]
    split
    next es n hn =>
      cases ho : es.opened n with
      | none =>
        intro m hm
        obtain rfl := hm.eq hn
        exact opened_of_regular ho
      | some n' => exact hfits
    next hother =>
      intro n hn
      obtain ⟨es, rfl⟩ := hn.directory
      exact absurd hn.path (hother es n rfl)
  | write path content =>
    simp only [Disk.calm]
    split
    next es n hn =>
      cases ho : es.opened n with
      | none =>
        intro _ m hm
        obtain rfl := hm.eq hn
        exact opened_of_regular ho
      | some n' => exact fun h => by cases h
    next hother =>
      intro _ n hn
      obtain ⟨es, rfl⟩ := hn.directory
      exact absurd hn.path (hother es n rfl)
  | unlink path =>
    simp only [Disk.calm]
    split
    next es n hn =>
      cases he : es.find n with
      | none =>
        intro m hm
        obtain rfl := hm.eq hn
        exact he
      | some e => exact hfits
    next hother =>
      intro n hn
      obtain ⟨es, rfl⟩ := hn.directory
      exact absurd hn.path (hother es n rfl)
  | rename source target =>
    simp only [Disk.calm]
    split
    next es n m hn hm =>
      cases he : es.find n with
      | none =>
        intro n' m' hn' _
        obtain rfl := hn'.eq hn
        exact Or.inl he
      | some e => exact hfits
    next hother =>
      intro n m hn hm
      obtain ⟨es, rfl⟩ := hn.directory
      exact absurd hm.path (hother es n m rfl hn.path)
  | opendir =>
    cases d with
    | absent | occupied => exact fun es h => by cases h
    | directory es => exact trivial
  | readdir => exact rfl

/-- What has a long name may fail. -/
theorem Disk.exists_grants_of_long {r : Resolver} {now pid : ℤ} {d : Disk} {c : DiskCall}
    (hlong : ¬ c.Fits r) :
    ∃ reply d', Disk.Grants r now pid d c reply d' := by
  cases c with
  | lstat path =>
    exact ⟨.failed 36, d, ⟨fun h => absurd h (by decide), rfl⟩, fun n hn => absurd hn.short hlong⟩
  | read path => exact ⟨none, d, rfl, fun n _ hn => absurd hn.short hlong⟩
  | openTruncate path | unlink path => exact ⟨some 36, d, rfl, fun n hn => absurd hn.short hlong⟩
  | write path content => exact ⟨false, d, Or.inl ⟨rfl, rfl⟩, fun _ n hn => absurd hn.short hlong⟩
  | rename source target =>
    exact ⟨some 36, d, rfl, fun n m hn hm => absurd ⟨hn.short, hm.short⟩ hlong⟩
  | time | getpid | stat | mkdir | opendir | readdir => exact absurd trivial hlong

/-- There is such a file system: it can always answer. -/
theorem Disk.exists_grants (r : Resolver) {now : ℤ} (pid : ℤ) (hnow : IsTime now) (d : Disk)
    (c : DiskCall) :
    ∃ reply d', Disk.Grants r now pid d c reply d' := by
  by_cases htime : c = .time
  · subst htime
    exact ⟨now, d, ⟨hnow, rfl⟩, rfl⟩
  · by_cases hpid : c = .getpid
    · subst hpid
      exact ⟨pid, d, rfl, rfl⟩
    · by_cases hfits : c.Fits r
      · exact ⟨_, _, Disk.answers_calm r now d c, Disk.granted_calm hfits htime hpid⟩
      · exact Disk.exists_grants_of_long hfits

/-! ### Adding -/

theorem Leads.not_link {es : Entries} {n n' : Name} (h : Leads es n n') (target : Name) :
    es.find n' ≠ some (.link target) := by
  induction h with
  | here hno => exact hno target
  | link _ _ ih => exact ih

/-- Writing to what is no file leaves it what it is. -/
theorem find_write_of_not_regular {es : Entries} {t n' : Name} {e : Entry}
    (he : es.find t = some e) (h : e.isRegular = false) (hl : Leads es t n') (content : Bytes) :
    (es.write n' content).find t = some e := by
  unfold Entries.write
  split
  next => exact he
  next hother =>
    have hne : t ≠ n' := by
      rintro rfl
      cases e with
      | file => cases h
      | link target => exact hl.not_link target he
      | other => exact hother he
    rw [OrdMap.find_insert, if_neg hne, he]

section
variable [Platform] {r : Resolver} {now pid : ℤ}

omit [Platform] in
/-- The end of `add` when something failed. -/
theorem exec_giveUp {path message : Bytes} {d d' : Disk} {es : List DiskEvent}
    {result : Except Bytes Unit} (h : Exec (Disk.Grants r now pid) (do
      let _ ← ask (.unlink path)
      return .error message) d es result d') : ∃ message, result = .error message := by
  obtain ⟨_, _, _, -, -, h⟩ := exec_lift_do_iff.mp h
  obtain ⟨-, rfl, -⟩ := exec_pure_iff.mp h
  exact ⟨_, rfl⟩

omit [Platform] in
/-- What a write that is done has written. -/
theorem exists_write_of_answer {en : Entries} {path content : Bytes}
    {t : Name} {d' : Disk} (ht : entryName r.directory path = some t)
    (h : Disk.Answers r (.directory en) (.write path content) true d') :
    ∃ t', Leads en t t' ∧ d' = .directory (en.write t' content) := by
  obtain ⟨hfalse, -⟩ | ⟨en₁, t₁, t', written, heq, ht₁, hleads, -, hwritten, rfl⟩ := h
  · cases hfalse
  · obtain rfl := Disk.directory.inj heq
    obtain rfl := Option.some.inj (ht.symm.trans ht₁)
    obtain rfl := hwritten rfl
    exact ⟨t', hleads, rfl⟩

omit [Platform] in
/-- The end of `replaceFile`: what stands under the first name takes its place, unless
something that is no file has it. -/
theorem exec_rename_granted {en : Entries} {temporary path : Bytes} {n t : Name}
    {e : Entry} {es : List DiskEvent} {result : Except Bytes Unit} {d' : Disk}
    (hn : entryName r.directory path = some n) (hlength : n.bytes.length ≤ 255)
    (ht : entryName r.directory temporary = some t) (hshort : t.bytes.length ≤ 255)
    (he : en.find t = some e) {next : Option ℤ → DiskProg (Except Bytes Unit)}
    (hdone : next none = pure (.ok ()))
    (hfailed : ∀ code, ∃ message, next (some code) = do
      let _ ← ask (.unlink temporary)
      return .error message)
    (h : Exec (Disk.Grants r now pid) (ask (.rename temporary path) >>= next)
      (.directory en) es result d') :
    (result = .ok () ∧ d' = .directory ((en.erase t).insert n e)) ∨
      ((∃ message, result = .error message) ∧ en.find n ≠ none) := by
  obtain ⟨renamed, d₁, _, rfl, ⟨hrename, hgranted⟩, h⟩ := exec_lift_do_iff.mp h
  cases renamed with
  | some code =>
    obtain ⟨message, hnext⟩ := hfailed code
    rw [hnext] at h
    refine Or.inr ⟨exec_giveUp h, fun hnone => ?_⟩
    rcases hgranted t n ⟨⟨_, rfl⟩, ht, hshort⟩ ⟨⟨_, rfl⟩, hn, hlength⟩ with hgone | ⟨e', he', -⟩
    · cases he.symm.trans hgone
    · cases hnone.symm.trans he'
  | none =>
    rw [hdone] at h
    obtain ⟨-, rfl, rfl⟩ := exec_pure_iff.mp h
    obtain ⟨en₁, t₁, n₁, e₁, heq, ht₁, hn₁, he₁, rfl⟩ := hrename
    obtain rfl := Disk.directory.inj heq
    obtain rfl := Option.some.inj (ht.symm.trans ht₁)
    obtain rfl := Option.some.inj (hn.symm.trans hn₁)
    obtain rfl := Option.some.inj (he.symm.trans he₁)
    exact Or.inl ⟨rfl, rfl⟩

omit [Platform] in
/-- Where a name stands for a regular file or nothing, what is written to it stands under it. -/
theorem write_eq_of_regular {es : Entries} {t n' : Name}
    (h : ∀ e, es.find t = some e → e.isRegular = true) (hl : Leads es t n') (content : Bytes) :
    es.write n' content = es.insert t (.file content) := by
  cases hl with
  | here =>
    unfold Entries.write
    cases he : es.find t with
    | none => rfl
    | some e =>
      have hregular := h e he
      cases e with
      | file => rfl
      | link | other => cases hregular
  | link hlink => cases h _ hlink

/-- **What becomes of the file that is written first**: its name is too long, or it takes its place,
or the name stood for something that is no file. -/
theorem exec_replaceFile_granted {en : Entries} {path domain : Bytes} {n t : Name}
    {createdAt : ℤ} {es : List DiskEvent} {result : Except Bytes Unit} {d' : Disk}
    (hn : entryName r.directory path = some n) (hlength : n.bytes.length ≤ 255)
    (ht : entryName r.directory (r.directory ++ 47 :: temporaryName pid domain) = some t)
    (htn : t ≠ n) (hfree : en.find n = none)
    (h : Exec (Disk.Grants r now pid) (replaceFile r path domain createdAt) (.directory en) es
      result d') :
    ((∃ message, result = .error message) ∧
      (255 < t.bytes.length ∨ ∃ e, en.find t = some e ∧ e.isRegular = false)) ∨
      (result = .ok () ∧ t.bytes.length ≤ 255 ∧ (∀ e, en.find t = some e → e.isRegular = true) ∧
        d' = .directory ((en.erase t).insert n (.file (encodeManaged r createdAt)))) ∨
      (result = .ok () ∧ ∃ e en', en.find t = some e ∧ e.isRegular = false ∧ d' = .directory en' ∧
        en'.find n = some e) := by
  obtain ⟨_, _, _, rfl, ⟨rfl, rfl⟩, h⟩ := exec_lift_do_iff.mp h
  obtain ⟨opened, d₁, _, rfl, ⟨hopen, hgranted⟩, h⟩ := exec_lift_do_iff.mp h
  cases opened with
  | some code =>
    obtain ⟨-, rfl, rfl⟩ := exec_pure_iff.mp h
    obtain rfl := hopen
    refine Or.inl ⟨⟨_, rfl⟩, ?_⟩
    by_cases hlong : 255 < t.bytes.length
    · exact Or.inl hlong
    · exact Or.inr (hgranted t ⟨⟨en, rfl⟩, ht, not_lt.mp hlong⟩)
  | none =>
    have hshort : t.bytes.length ≤ 255 := hgranted t ht
    obtain ⟨en₀, t₀, t', heq, ht₀, hleads, rfl⟩ := hopen
    obtain rfl := Disk.directory.inj heq
    obtain rfl := Option.some.inj (ht.symm.trans ht₀)
    obtain ⟨good, d₂, _, rfl, ⟨hwrite, hgranted⟩, h⟩ := exec_lift_do_iff.mp h
    by_cases hregular : ∀ e, en.find t = some e → e.isRegular = true
    · -- the file is there, and is written
      rw [write_eq_of_regular hregular hleads] at hwrite hgranted
      have hregular₁ : ∀ e, (en.insert t (.file [])).find t = some e → e.isRegular = true := by
        intro e he
        obtain rfl := Option.some.inj ((OrdMap.find_insert_self _ _ _).symm.trans he)
        rfl
      cases good with
      | false =>
        obtain ⟨e, he, hnot⟩ := hgranted rfl t ⟨⟨_, rfl⟩, ht, hshort⟩
        rw [hregular₁ e he] at hnot
        cases hnot
      | true =>
        obtain ⟨t'₁, hleads, rfl⟩ := exists_write_of_answer ht hwrite
        rw [write_eq_of_regular hregular₁ hleads] at h
        rcases exec_rename_granted hn hlength ht hshort (OrdMap.find_insert_self _ _ _) rfl
          (fun _ => ⟨_, rfl⟩) h with ⟨rfl, rfl⟩ | ⟨-, hthere⟩
        · refine Or.inr (Or.inl ⟨rfl, hshort, hregular, ?_⟩)
          have herase : ((en.insert t (.file [])).insert t
              (.file (encodeManaged r createdAt))).erase t = en.erase t := by
            refine OrdMap.ext_find fun m => ?_
            simp only [OrdMap.find_erase, OrdMap.find_insert]
            split_ifs <;> rfl
          rw [herase]
        · rw [OrdMap.find_insert, if_neg htn.symm, OrdMap.find_insert, if_neg htn.symm] at hthere
          exact absurd hfree hthere
    · -- whatever becomes of what it leads to, the name stands for no file
      simp only [not_forall, Bool.not_eq_true, exists_prop] at hregular
      obtain ⟨e, he, hnot⟩ := hregular
      have he₁ : (en.write t' []).find t = some e := find_write_of_not_regular he hnot hleads _
      cases good with
      | false => exact Or.inl ⟨exec_giveUp h, Or.inr ⟨e, he, hnot⟩⟩
      | true =>
        obtain ⟨t'₁, hleads, rfl⟩ := exists_write_of_answer ht hwrite
        have he₂ := find_write_of_not_regular he₁ hnot hleads (encodeManaged r createdAt)
        rcases exec_rename_granted hn hlength ht hshort he₂ rfl (fun _ => ⟨_, rfl⟩) h with
          ⟨rfl, rfl⟩ | ⟨herror, -⟩
        · exact Or.inr (Or.inr ⟨rfl, e, _, he, hnot, rfl, OrdMap.find_insert_self _ _ _⟩)
        · exact Or.inl ⟨herror, Or.inr ⟨e, he, hnot⟩⟩

variable {value : Option Bytes} {n t : Name} {en : Entries}

/-- **What becomes of a domain that is not there when it is added.** -/
theorem exec_add_granted (hdomain : Domain value n) (hfree : en.find n = none)
    (ht : t.bytes = temporaryName pid n.bytes) {es : List DiskEvent} {result : Except Bytes Unit}
    {d' : Disk} (h : Exec (Disk.Grants r now pid) (add r value) (.directory en) es result d') :
    ((∃ message, result = .error message) ∧
      (255 < t.bytes.length ∨ ∃ e, en.find t = some e ∧ e.isRegular = false)) ∨
      (result = .ok () ∧ t.bytes.length ≤ 255 ∧ (∀ e, en.find t = some e → e.isRegular = true) ∧
        d' = .directory ((en.erase t).insert n (.file (encodeManaged r now)))) ∨
      (result = .ok () ∧ ∃ e en', en.find t = some e ∧ e.isRegular = false ∧ d' = .directory en' ∧
        en'.find n = some e) := by
  have hhost := hdomain.hostName
  have hpath : entryName r.directory (pathJoin r.directory n.bytes) = some n :=
    entryName_pathJoin r hhost
  have hlength : n.bytes.length ≤ 255 := hhost.length_le.trans (by decide)
  unfold add at h
  simp only at h
  rw [if_neg (not_not.mpr hdomain.1), hdomain.2] at h
  obtain ⟨ensured, d₁, _, _, rfl, hensure, h⟩ := exec_do_iff.mp h
  obtain ⟨reply, _, _, rfl, ⟨hstat, hgranted⟩, hensure⟩ := exec_lift_do_iff.mp hensure
  cases reply with
  | notDirectory =>
    cases hstat.1
  | failed code =>
    cases hstat.1 hgranted
  | directory =>
    obtain ⟨-, rfl⟩ := hstat
    obtain ⟨-, rfl, rfl⟩ := exec_pure_iff.mp hensure
    obtain ⟨reading, _, _, rfl, ⟨⟨-, rfl⟩, hnow⟩, h⟩ := exec_lift_do_iff.mp h
    obtain rfl : reading = now := hnow
    obtain ⟨status, _, _, rfl, ⟨hlstat, hgranted⟩, h⟩ := exec_lift_do_iff.mp h
    cases status with
    | found regular =>
      obtain ⟨e, he, -, -⟩ := find_of_lstat_found hpath hlstat
      rw [Disk.entries, hfree] at he
      cases he
    | failed code =>
      obtain ⟨-, rfl⟩ := hlstat
      obtain rfl := hgranted n ⟨⟨en, rfl⟩, hpath, hlength⟩
      simp only [ne_eq, not_true_eq_false, if_false] at h
      have htemporary : entryName r.directory
          (r.directory ++ 47 :: temporaryName pid n.bytes) = some t := by
        rw [← ht]
        exact entryName_append _ t
      have htn : t ≠ n := fun heq => hhost.not_temporary ⟨pid, n.bytes, hhost, heq ▸ ht⟩
      exact exec_replaceFile_granted hpath hlength htemporary htn hfree h

/-! ### Listing and removing -/

omit [Platform] in
/-- `lstat` finds what stands at a place. -/
theorem Disk.Place.lstat_granted {d d' : Disk} {path : Bytes} {e : Entry}
    {status : LstatReply} (hplace : d.Place r path n) (he : d.entries.find n = some e)
    (h : Disk.Grants r now pid d (.lstat path) status d') :
    status = .found e.isRegular ∧ d' = d := by
  obtain ⟨hlstat, hgranted⟩ := h
  cases status with
  | failed code =>
    have hnone := hlstat.1 (hgranted n hplace) n hplace.path
    rw [he] at hnone
    cases hnone
  | found regular =>
    obtain ⟨e₀, he₀, rfl, rfl⟩ := find_of_lstat_found hplace.path hlstat
    obtain rfl := Option.some.inj (he.symm.trans he₀)
    exact ⟨rfl, rfl⟩

omit [Platform] in
/-- A file of the directory that has a short name is read. -/
theorem exec_inspectFile_granted {d d' : Disk} {path : Bytes} {e : Entry} {es : List DiskEvent}
    {found : Option ℤ} (hplace : d.Place r path n) (he : d.entries.find n = some e)
    (h : Exec (Disk.Grants r now pid) (inspectFile path e.isRegular) d es found d') :
    d' = d ∧ found = managedAt d.entries n ∧ ∀ ev ∈ es, succeeded ev.1 ev.2 = true := by
  have hok : ∀ ev ∈ es, succeeded ev.1 ev.2 = true := by
    cases e with
    | link target | other =>
      obtain ⟨rfl, -, -⟩ := exec_pure_iff.mp h
      exact fun ev hev => by cases hev
    | file content =>
      obtain ⟨reply, _, es', rfl, ⟨-, hgranted⟩, hrest⟩ := exec_lift_do_iff.mp h
      cases reply with
      | none => exact absurd he (hgranted n content hplace)
      | some bytes =>
        obtain ⟨rfl, -, -⟩ := exec_pure_iff.mp hrest
        intro ev hev
        obtain rfl := List.mem_singleton.mp hev
        rfl
  obtain ⟨hsame, -, hfound⟩ := exec_inspectFile hplace.path he (h.mono fun _ _ _ _ hA => hA.1)
  exact ⟨hsame, hfound hok, hok⟩

omit [Platform] in
/-- A name of the directory that is a domain can be inspected. -/
theorem succeeded_of_listEntry {d d' : Disk} {es : List DiskEvent}
    {domains domains' : List DomainEntry} (hd : ∃ en, d = .directory en)
    (hn : n.bytes.head? = some 46 ∨ n ∈ d.entries.keys)
    (h : Exec (Disk.Grants r now pid) (listEntry r domains n.bytes) d es domains' d') :
    d' = d ∧ ∀ ev ∈ es, succeeded ev.1 ev.2 = true := by
  have hsame := (exec_listEntry hn (h.mono fun _ _ _ _ hA => hA.1)).1
  refine ⟨hsame, ?_⟩
  unfold listEntry at h
  simp only at h
  split_ifs at h with hhidden hforeign
  · obtain ⟨rfl, -, -⟩ := exec_pure_iff.mp h
    exact fun ev hev => by cases hev
  · obtain ⟨rfl, -, -⟩ := exec_pure_iff.mp h
    exact fun ev hev => by cases hev
  · obtain ⟨haccepted, hself⟩ := not_or.mp hforeign
    have hdomain : Domain (some n.bytes) n := ⟨not_not.mp haccepted, not_not.mp hself⟩
    have hpath := entryName_pathJoin r hdomain.hostName
    have hplace : d.Place r (pathJoin r.directory n.bytes) n :=
      ⟨hd, hpath, hdomain.hostName.length_le.trans (by decide)⟩
    obtain ⟨e, he⟩ := OrdMap.mem_keys_iff.mp (hn.resolve_left hhidden)
    obtain ⟨status, _, es₁, rfl, hlstat, h₁⟩ := exec_lift_do_iff.mp h
    obtain ⟨rfl, rfl⟩ := hplace.lstat_granted he hlstat
    obtain ⟨found, _, es₂, es₃, rfl, hinspect, h₂⟩ := exec_do_iff.mp h₁
    obtain ⟨rfl, -, hok⟩ := exec_inspectFile_granted hplace he hinspect
    have hnil : es₃ = [] := by cases found <;> exact (exec_pure_iff.mp h₂).1
    intro ev hev
    rw [hnil, List.append_nil] at hev
    rcases List.mem_cons.mp hev with rfl | hev
    · rfl
    · exact hok ev hev

/-- **A listing shows every managed file.** -/
theorem exec_list_granted {es : List DiskEvent} {result : Except Bytes (List DomainEntry)}
    {d' : Disk} (h : Exec (Disk.Grants r now pid) (list r) (.directory en) es result d') :
    result = .ok (listing en) ∧ d' = .directory en := by
  obtain ⟨hsame, hlisted⟩ := exec_list (h.mono fun _ _ _ _ hA => hA.1)
  refine ⟨hlisted ?_, hsame⟩
  obtain ⟨opened, _, es₁, rfl, ⟨hopen, hgranted⟩, h⟩ := exec_lift_do_iff.mp h
  cases opened with
  | some code => exact absurd rfl (hgranted en)
  | none =>
    obtain ⟨-, rfl⟩ := hopen
    obtain ⟨reply, _, es₂, rfl, ⟨⟨⟨rest, hperm, -⟩, rfl⟩, hcomplete⟩, h⟩ := exec_lift_do_iff.mp h
    obtain ⟨domains, _, es₃, es₄, rfl, hloop, h⟩ := exec_do_iff.mp h
    obtain ⟨rfl, -, -⟩ := exec_pure_iff.mp h
    have hname := names_of_listing hperm
    obtain ⟨-, hok⟩ := exec_loop_inv
      (fun _ es _ s => s = .directory en ∧ ∀ ev ∈ es, succeeded ev.1 ev.2 = true)
      (by
        rintro done name later es acc s es' acc' s' hnames ⟨rfl, hacc⟩ hbody
        obtain ⟨n, rfl, hn⟩ := hname name (hnames ▸ by simp)
        obtain ⟨rfl, hentry⟩ := succeeded_of_listEntry ⟨en, rfl⟩ hn hbody
        exact ⟨rfl, fun ev hev => (List.mem_append.mp hev).elim (hacc ev) (hentry ev)⟩)
      ⟨rfl, fun ev hev => by cases hev⟩ hloop
    intro ev hev
    rw [List.append_nil] at hev
    rcases List.mem_cons.mp hev with rfl | hev
    · rfl
    rcases List.mem_cons.mp hev with rfl | hev
    · exact hcomplete
    · exact hok ev hev

/-- **A managed domain is removed.** -/
theorem exec_remove_granted (hdomain : Domain value n) (hmanaged : (managedAt en n).isSome = true)
    {es : List DiskEvent} {result : Except Bytes Unit} {d' : Disk}
    (h : Exec (Disk.Grants r now pid) (remove r value) (.directory en) es result d') :
    result = .ok () ∧ d' = .directory (en.erase n) := by
  have hpath := entryName_pathJoin r hdomain.hostName
  have hplace : (Disk.directory en).Place r (pathJoin r.directory n.bytes) n :=
    ⟨⟨en, rfl⟩, hpath, hdomain.hostName.length_le.trans (by decide)⟩
  obtain ⟨e, he⟩ : ∃ e, en.find n = some e := by
    cases he : en.find n with
    | none =>
      rw [managedAt, he] at hmanaged
      cases hmanaged
    | some e => exact ⟨e, rfl⟩
  unfold remove at h
  simp only at h
  rw [if_neg (not_not.mpr hdomain.1), hdomain.2] at h
  obtain ⟨status, _, _, rfl, hlstat, h⟩ := exec_lift_do_iff.mp h
  obtain ⟨rfl, rfl⟩ := hplace.lstat_granted he hlstat
  obtain ⟨found, _, _, _, rfl, hinspect, h⟩ := exec_do_iff.mp h
  obtain ⟨rfl, rfl, -⟩ := exec_inspectFile_granted hplace he hinspect
  obtain ⟨created, hcreated⟩ := Option.isSome_iff_exists.mp hmanaged
  rw [Disk.entries, hcreated] at h
  obtain ⟨reply, _, _, rfl, ⟨hunlink, hgranted⟩, h⟩ := exec_lift_do_iff.mp h
  cases reply with
  | some code =>
    have hnone := hgranted n hplace
    rw [Disk.entries, he] at hnone
    cases hnone
  | none =>
    obtain ⟨-, rfl, rfl⟩ := exec_pure_iff.mp h
    obtain ⟨en₁, n₁, e₁, heq, hn₁, -, rfl⟩ := hunlink
    obtain rfl := Disk.directory.inj heq
    obtain rfl := Option.some.inj (hpath.symm.trans hn₁)
    exact ⟨rfl, rfl⟩

/-! ### What can be managed -/

/-- **The domain can be managed** in the directory `en`: it is added, is listed then with a positive
time, is removed then, and the directory is what it was. -/
def Manageable (r : Resolver) (now pid : ℤ) (value : Option Bytes) (n : Name)
    (en : Entries) : Prop :=
  ∀ es₁ result₁ d₁, Exec (Disk.Grants r now pid) (add r value) (.directory en) es₁ result₁ d₁ →
    result₁ = .ok () ∧
    ∀ es₂ result₂ d₂, Exec (Disk.Grants r now pid) (list r) d₁ es₂ result₂ d₂ →
      (∃ domains createdAt, result₂ = .ok domains ∧ ⟨n.bytes, createdAt⟩ ∈ domains ∧
        0 < createdAt) ∧
      ∀ es₃ result₃ d₃, Exec (Disk.Grants r now pid) (remove r value) d₂ es₃ result₃ d₃ →
        result₃ = .ok () ∧ d₃ = .directory en

omit [Platform] in
theorem length_temporaryName (pid : ℤ) (domain : Bytes) :
    (temporaryName pid domain).length = 16 + (decimal pid).length + domain.length := by
  have htexts : (text ".ip-router-").length = 11 ∧ (text "-").length = 1 ∧
      (text ".tmp").length = 4 := by
    decide
  simp only [temporaryName, List.length_append, htexts]
  omega

omit [Platform] in
/-- What the listing shows of a domain that was added. -/
theorem listing_of_added (hdomain : Domain value n) (hnow : IsTime now) {en' : Entries}
    (hfile : en'.find n = some (.file (encodeManaged r now))) (createdAt : ℤ) :
    ⟨n.bytes, createdAt⟩ ∈ listing en' ↔ createdAt = now := by
  have hat : managedAt en' n = some now := by
    rw [managedAt_of_file hfile, parseManaged_encodeManaged r hnow]
  rw [mem_listing_iff]
  constructor
  · rintro ⟨m, -, hm, hat'⟩
    obtain rfl : m = n := Name.bytes_injective hm
    exact (Option.some.inj (hat.symm.trans hat')).symm
  · rintro rfl
    exact ⟨n, hdomain.self, rfl, hat⟩

/-- **A domain whose temporary name fits and is free can be managed** while the clock is
positive. -/
theorem manageable (hdomain : Domain value n) (hnow : IsTime now) (hfree : en.find n = none)
    (ht : t.bytes = temporaryName pid n.bytes) (hlength : t.bytes.length ≤ 255) (hpos : 0 < now)
    (hnone : en.find t = none) :
    Manageable r now pid value n en := by
  intro es₁ result₁ d₁ hadd
  rcases exec_add_granted hdomain hfree ht hadd with ⟨-, hlong | ⟨e, he, -⟩⟩ | ⟨rfl, -, -, rfl⟩ |
    ⟨-, e, _, he, -⟩
  · omega
  · cases hnone.symm.trans he
  · refine ⟨rfl, fun es₂ result₂ d₂ hlist => ?_⟩
    obtain ⟨rfl, rfl⟩ := exec_list_granted hlist
    have hfile : ((en.erase t).insert n (.file (encodeManaged r now))).find n =
        some (.file (encodeManaged r now)) :=
      OrdMap.find_insert_self _ _ _
    refine ⟨⟨_, now, rfl, (listing_of_added hdomain hnow hfile now).mpr rfl, hpos⟩,
      fun es₃ result₃ d₃ hremove => ?_⟩
    have hmanaged :
        (managedAt ((en.erase t).insert n (.file (encodeManaged r now))) n).isSome = true := by
      rw [managedAt_of_file hfile, parseManaged_encodeManaged r hnow]
      rfl
    obtain ⟨rfl, rfl⟩ := exec_remove_granted hdomain hmanaged hremove
    refine ⟨rfl, congrArg Disk.directory (OrdMap.ext_find fun m => ?_)⟩
    rw [OrdMap.find_erase, OrdMap.find_insert, OrdMap.find_erase]
    split_ifs with hmn hmt
    · rw [hmn, hfree]
    · rw [hmt, hnone]
    · rfl
  · cases hnone.symm.trans he

/-- A domain that can be managed is added, and the directory is then known. -/
theorem added_of_manageable (hdomain : Domain value n) (hnow : IsTime now)
    (hfree : en.find n = none) (ht : t.bytes = temporaryName pid n.bytes)
    (h : Manageable r now pid value n en) :
    t.bytes.length ≤ 255 ∧ 0 < now ∧ en.find t = none := by
  -- such a file system does something
  obtain ⟨es₁, result₁, d₁, hadd⟩ :=
    exists_exec (Disk.exists_grants r pid hnow) (add r value) (.directory en)
  obtain ⟨es₂, result₂, d₂, hlist⟩ := exists_exec (Disk.exists_grants r pid hnow) (list r) d₁
  obtain ⟨es₃, result₃, d₃, hremove⟩ :=
    exists_exec (Disk.exists_grants r pid hnow) (remove r value) d₂
  obtain ⟨rfl, h⟩ := h _ _ _ hadd
  obtain ⟨⟨domains, createdAt, rfl, hshown, hpos⟩, h⟩ := h _ _ _ hlist
  obtain ⟨rfl, rfl⟩ := h _ _ _ hremove
  rcases exec_add_granted hdomain hfree ht hadd with ⟨⟨_, hfailed⟩, -⟩ |
    ⟨-, hlength, hregular, rfl⟩ | ⟨-, e, en', he, hnot, rfl, hfind⟩
  · cases hfailed
  · obtain ⟨hlisted, rfl⟩ := exec_list_granted hlist
    obtain rfl := Except.ok.inj hlisted
    have hfile : ((en.erase t).insert n (.file (encodeManaged r now))).find n =
        some (.file (encodeManaged r now)) :=
      OrdMap.find_insert_self _ _ _
    obtain rfl := (listing_of_added hdomain hnow hfile createdAt).mp hshown
    refine ⟨hlength, hpos, ?_⟩
    have hmanaged : (managedAt ((en.erase t).insert n (.file (encodeManaged r createdAt)))
        n).isSome = true := by
      rw [managedAt_of_file hfile, parseManaged_encodeManaged r hnow]
      rfl
    have hback :=
      congrArg (fun d => Disk.entries d |>.find t) (exec_remove_granted hdomain hmanaged hremove).2
    have htn : t ≠ n :=
      fun heq => hdomain.hostName.not_temporary ⟨pid, n.bytes, hdomain.hostName, heq ▸ ht⟩
    rw [Disk.entries, Disk.entries, OrdMap.find_erase, if_neg htn, OrdMap.find_insert, if_neg htn,
      OrdMap.find_erase, if_pos rfl] at hback
    exact hback
  · -- what stands for the domain now is no file
    obtain ⟨hlisted, -⟩ := exec_list_granted hlist
    obtain rfl := Except.ok.inj hlisted
    obtain ⟨m, -, hm, hat⟩ := mem_listing_iff.mp hshown
    obtain rfl : m = n := Name.bytes_injective hm
    rw [managedAt, hfind] at hat
    cases e with
    | file => cases hnot
    | link | other => cases hat

/-- **Which domains can be managed**: those whose temporary name fits and is free,
while the clock is positive. -/
theorem manageable_iff (hdomain : Domain value n) (hnow : IsTime now) (hfree : en.find n = none) :
    Manageable r now pid value n en ↔
      (decimal pid).length + n.bytes.length ≤ 239 ∧ 0 < now ∧
        ∀ t : Name, t.bytes = temporaryName pid n.bytes → en.find t = none := by
  have hlength : ∀ t : Name, t.bytes = temporaryName pid n.bytes →
      (t.bytes.length ≤ 255 ↔ (decimal pid).length + n.bytes.length ≤ 239) := by
    intro t ht
    rw [ht, length_temporaryName]
    omega
  let t : Name := ⟨temporaryName pid n.bytes, isName_temporaryName pid hdomain.hostName⟩
  have ht : t.bytes = temporaryName pid n.bytes := rfl
  constructor
  · intro h
    obtain ⟨hshort, hpos, -⟩ := added_of_manageable hdomain hnow hfree ht h
    exact ⟨(hlength t ht).mp hshort, hpos,
      fun t' ht' => (added_of_manageable hdomain hnow hfree ht' h).2.2⟩
  · rintro ⟨hshort, hpos, hnone⟩
    exact manageable hdomain hnow hfree ht ((hlength t ht).mpr hshort) hpos (hnone t ht)

end

section Sample

/-- A short name can be managed. -/
theorem manageable_iff_short : ∃ n, Domain (some (text "Example.com.")) n ∧
    @Manageable quadPlatform defaultResolver 100 4711 (some (text "Example.com.")) n
      OrdMap.empty := by
  let _ := quadPlatform
  obtain ⟨n, hdomain⟩ := @exists_domain (some (text "Example.com.")) (by decide +kernel)
  refine ⟨n, hdomain, (manageable_iff hdomain ⟨by decide, by decide⟩ rfl).mpr
    ⟨?_, by decide, fun t _ => rfl⟩⟩
  rw [← hdomain.2]
  decide +kernel

/-- The longest domain there is. -/
def longDomain : Bytes :=
  List.replicate 63 97 ++ 46 ::
    (List.replicate 63 98 ++ 46 :: (List.replicate 63 99 ++ 46 :: List.replicate 61 100))

/-- It is accepted, and cannot be added to an empty directory. -/
theorem not_manageable : ∃ n, Domain (some longDomain) n ∧ IsTime 100 ∧
    ¬ @Manageable quadPlatform defaultResolver 100 1 (some longDomain) n OrdMap.empty := by
  let _ := quadPlatform
  obtain ⟨n, hdomain⟩ := @exists_domain (some longDomain) (by decide +kernel)
  have hnow : IsTime 100 := ⟨by decide, by decide⟩
  refine ⟨n, hdomain, hnow, fun h => ?_⟩
  have ht : (⟨temporaryName 1 n.bytes, isName_temporaryName 1 hdomain.hostName⟩ : Name).bytes =
      temporaryName 1 n.bytes :=
    rfl
  have hlength := (added_of_manageable hdomain hnow rfl ht h).1
  have hlong : n.bytes.length = 253 := by
    rw [← hdomain.2]
    decide +kernel
  rw [ht, length_temporaryName, hlong] at hlength
  exact absurd hlength (by decide)

end Sample

end IpRouter.DomainManager
