import IpRouter.DomainManager.Directory

/-!
# The resolver directory as a managed set

What the operations of the domain manager leave in the directory. `AddOutcome`
and `RemoveOutcome` say it for one call, `exec_list` for a listing, and
`Step`/`Run` put calls in a row.

`since` is the abstract account of a run: for each domain, the clock readings of
the successful additions since it was last absent. `managed_of_run` says that the
directory agrees with it. A new addition keeps the time it finds in the file when
that time is positive, so the time on record is the first positive one of the
account (`recorded`).

The file that is written first is opened by name, and a link of that name would be
followed. So no foreign file is touched where no link stands under such a name
(`Unlinked`), and the account holds where only regular files do (`Clear`); both stay
so. `not_managed_of_run` is what happens otherwise.
-/

namespace IpRouter.DomainManager

open Theory RouteManager

/-! ### Names and paths -/

/-- Bytes of this range are neither a slash nor a NUL. -/
theorem HostName.ne_of_toNat {b : UInt8} (h : b.toNat = 45 ∨ b.toNat = 46 ∨ 48 ≤ b.toNat) :
    b ≠ 47 ∧ b ≠ 0 := by
  constructor
  · rintro rfl
    simp at h
  · rintro rfl
    simp at h

/-- The name of the file of a host. -/
def HostName.name {s : Bytes} (h : HostName s) : Name where
  bytes := s
  valid := isName_iff.mpr ⟨h.ne_nil, fun _ hb => HostName.ne_of_toNat (h.toNat_of_mem hb)⟩

/-- The domain `value` stands for has the file `n`. -/
def Domain (value : Option Bytes) (n : Name) : Prop :=
  (validDomain value []).accepted = true ∧ (validDomain value []).normalized = n.bytes

theorem Domain.hostName {value : Option Bytes} {n : Name} (h : Domain value n) :
    HostName n.bytes := by
  have hhost := validDomain_accepted_iff.mp h.1
  rw [← h.2, validDomain_of_hostName hhost]
  exact hhost.map_toLower

theorem exists_domain {value : Option Bytes} (h : (validDomain value []).accepted = true) :
    ∃ n, Domain value n := by
  have hhost := validDomain_accepted_iff.mp h
  refine ⟨hhost.map_toLower.name, h, ?_⟩
  rw [validDomain_of_hostName hhost]
  rfl

theorem Domain.unique {value : Option Bytes} {n m : Name} (hn : Domain value n)
    (hm : Domain value m) : n = m :=
  Name.bytes_injective (hn.2.symm.trans hm.2)

/-- The file of a domain is that of its normalized name. -/
theorem Domain.self {value : Option Bytes} {n : Name} (h : Domain value n) :
    Domain (some n.bytes) n := by
  have hhost := validDomain_accepted_iff.mp h.1
  have hbytes := h.2
  rw [validDomain_of_hostName hhost] at hbytes
  have hverdict := validDomain_of_lower hhost []
  rw [show (stripDots (argument value)).map toLower = n.bytes from hbytes] at hverdict
  rw [Domain, hverdict]
  exact ⟨rfl, rfl⟩

theorem entryName_eq {directory path : Bytes} {n : Name}
    (h : components path = components directory ++ [n.bytes]) :
    entryName directory path = some n := by
  unfold entryName
  rw [h, List.drop_left]
  simp

theorem entryName_pathJoin (r : Resolver) {n : Name} (h : HostName n.bytes) :
    entryName r.directory (pathJoin r.directory n.bytes) = some n :=
  entryName_eq (childOf_pathJoin r h.ne_nil fun hmem =>
    ((isName_iff.mp n.valid).2 _ hmem).1 rfl).components

/-- The name of a file that `add` writes first. -/
def Temporary (n : Name) : Prop :=
  ∃ pid domain, HostName domain ∧ n.bytes = temporaryName pid domain

/-- Such a name begins like this. -/
theorem Temporary.isPrefix {n : Name} (h : Temporary n) : text ".ip-router-" <+: n.bytes := by
  obtain ⟨pid, domain, -, hn⟩ := h
  exact hn ▸ List.prefix_append _ _

/-- No host has such a name. -/
theorem HostName.not_temporary {n : Name} (h : HostName n.bytes) : ¬ Temporary n := by
  intro ht
  obtain ⟨tail, htail⟩ := ht.isPrefix
  refine h.head_ne ?_
  rw [← htail]
  rfl

theorem isName_temporaryName (pid : ℤ) {domain : Bytes} (h : HostName domain) :
    isName (temporaryName pid domain) = true := by
  refine isName_iff.mpr ⟨by simp [temporaryName, text], fun b hb => HostName.ne_of_toNat ?_⟩
  simp only [temporaryName, List.mem_append] at hb
  rcases hb with hb | hb | hb | hb | hb
  · exact (by decide +kernel : ∀ b ∈ text ".ip-router-", b.toNat = 45 ∨ b.toNat = 46 ∨
      48 ≤ b.toNat) b hb
  · rcases isDigit_of_mem_decimal hb with hd | rfl
    · exact Or.inr (Or.inr (isDigit_iff.mp hd).1)
    · exact Or.inl rfl
  · exact (by decide +kernel : ∀ b ∈ text "-", b.toNat = 45 ∨ b.toNat = 46 ∨ 48 ≤ b.toNat) b hb
  · exact h.toNat_of_mem hb
  · exact (by decide +kernel : ∀ b ∈ text ".tmp", b.toNat = 45 ∨ b.toNat = 46 ∨ 48 ≤ b.toNat) b hb

/-- A name behind the path of the directory. -/
theorem entryName_append (directory : Bytes) (t : Name) :
    entryName directory (directory ++ 47 :: t.bytes) = some t := by
  have hvalid := isName_iff.mp t.valid
  have hname : tokens [47] t.bytes = [t.bytes] :=
    tokens_eq_singleton hvalid.1 fun b hb => by simpa using (hvalid.2 b hb).1
  refine entryName_eq ?_
  rw [components, tokens_append_cons (by simp), hname, components]

theorem entryName_temporary (r : Resolver) (pid : ℤ) {domain : Bytes} (h : HostName domain) :
    ∃ t, Temporary t ∧
      entryName r.directory (r.directory ++ 47 :: temporaryName pid domain) = some t :=
  ⟨⟨_, isName_temporaryName pid h⟩, ⟨pid, domain, h, rfl⟩,
    entryName_append _ ⟨_, isName_temporaryName pid h⟩⟩

/-! ### Managed files -/

/-- The time on record in the file `n`, if it is a managed file. -/
def managedAt (es : Entries) (n : Name) : Option ℤ :=
  match es.find n with
  | some (.file content) => parseManaged content
  | _ => none

theorem managedAt_congr {es es' : Entries} {n : Name} (h : es'.find n = es.find n) :
    managedAt es' n = managedAt es n := by
  rw [managedAt, managedAt, h]

theorem managedAt_of_file {es : Entries} {n : Name} {content : Bytes}
    (h : es.find n = some (.file content)) :
    managedAt es n = parseManaged content := by
  rw [managedAt, h]

/-- **What `add` writes is read back**: the file is managed, and the time on
record is the one written. -/
theorem parseManaged_encodeManaged (r : Resolver) {createdAt : ℤ} (h : IsTime createdAt) :
    parseManaged (encodeManaged r createdAt) = some createdAt := by
  have hheader : 10 ∉ managedHeader := by decide
  have hcreated : 10 ∉ createdPrefix ++ decimal createdAt := by
    rw [List.mem_append, not_or]
    refine ⟨by decide, fun hmem => ?_⟩
    rcases isDigit_of_mem_decimal hmem with hd | hd
    · exact absurd hd (by decide)
    · exact absurd hd (by decide)
  unfold parseManaged encodeManaged
  rw [getlines_append_newline hheader, ← List.append_assoc, getlines_append_newline hcreated]
  simp [strtoll_decimal h.1 h.2]

/-- Under the names of the files written first there are regular files only. -/
def Clear (es : Entries) : Prop := ∀ n e, Temporary n → es.find n = some e → e.isRegular = true

/-- Under the names of the files written first there is no link. -/
def Unlinked (es : Entries) : Prop := ∀ n target, Temporary n → es.find n ≠ some (.link target)

theorem Clear.unlinked {es : Entries} (h : Clear es) : Unlinked es := by
  intro n target hn he
  cases h n _ hn he

/-- Where there is no link, opening opens the entry itself. -/
theorem Unlinked.leads_eq {es : Entries} (h : Unlinked es) {t n' : Name} (ht : Temporary t)
    (hl : Leads es t n') : n' = t := by
  cases hl with
  | here => rfl
  | link hlink => exact absurd hlink (h t _ ht)

/-- Only files written first have changed, none of them into a link. -/
structure Quiet (d d' : Disk) : Prop where
  /-- There is no link under the names of files written first. -/
  unlinked : Unlinked d'.entries
  /-- Names that were clear stay clear. -/
  clear : Clear d.entries → Clear d'.entries
  /-- The other entries are what they were. -/
  kept : ∀ n, ¬ Temporary n → d'.entries.find n = d.entries.find n

theorem Quiet.refl {d : Disk} (h : Unlinked d.entries) : Quiet d d := ⟨h, id, fun _ _ => rfl⟩

/-- Nothing has changed but perhaps that there is a directory. -/
theorem Quiet.of_entries {d d' : Disk} (h : Unlinked d.entries)
    (hentries : d'.entries = d.entries) : Quiet d d' :=
  ⟨hentries ▸ h, fun hclear => hentries ▸ hclear, fun _ _ => by rw [hentries]⟩

theorem Quiet.trans {d d' d'' : Disk} (h : Quiet d d') (h' : Quiet d' d'') : Quiet d d'' :=
  ⟨h'.unlinked, fun hclear => h'.clear (h.clear hclear),
    fun n hn => (h'.kept n hn).trans (h.kept n hn)⟩

theorem find_write (es : Entries) (t n : Name) (content : Bytes) :
    (es.write t content).find n = if n = t ∧ es.find t ≠ some .other then
      some (.file content) else es.find n := by
  unfold Entries.write
  split
  · next hother => simp [hother]
  · next hother =>
    have hne : es.find t ≠ some .other := hother
    simp [OrdMap.find_insert, hne]

/-- What stands under a clear name that was written to is what was written. -/
theorem Clear.find_write {es : Entries} (h : Clear es) {t : Name} (ht : Temporary t)
    (content : Bytes) :
    (es.write t content).find t = some (.file content) := by
  have hother : es.find t ≠ some .other := fun hother => by cases h t _ ht hother
  rw [DomainManager.find_write, if_pos ⟨rfl, hother⟩]

theorem quiet_write {es : Entries} (h : Unlinked es) {t : Name} (ht : Temporary t)
    (content : Bytes) :
    Quiet (.directory es) (.directory (es.write t content)) where
  unlinked := by
    intro n target hn he
    rw [Disk.entries, find_write] at he
    split_ifs at he
    · cases he
    · exact h n target hn he
  clear := by
    intro hclear n e hn he
    rw [Disk.entries, find_write] at he
    split_ifs at he
    · obtain rfl := Option.some.inj he
      rfl
    · exact hclear n e hn he
  kept := by
    intro n hn
    rw [Disk.entries, Disk.entries, find_write, if_neg]
    rintro ⟨rfl, -⟩
    exact hn ht

theorem quiet_erase {es : Entries} (h : Unlinked es) {t : Name} (ht : Temporary t) :
    Quiet (.directory es) (.directory (es.erase t)) where
  unlinked := by
    intro n target hn he
    rw [Disk.entries, OrdMap.find_erase] at he
    split_ifs at he
    exact h n target hn he
  clear := by
    intro hclear n e hn he
    rw [Disk.entries, OrdMap.find_erase] at he
    split_ifs at he with hnt
    exact hclear n e hn he
  kept := by
    intro n hn
    rw [Disk.entries, Disk.entries, OrdMap.find_erase, if_neg]
    rintro rfl
    exact hn ht

/-! ### Reading -/

/-- Whether a call of a listing succeeds; a directory that is not there counts as read. -/
def succeeded : (c : DiskCall) → c.Reply → Bool
  | .opendir, none => true
  | .opendir, some code => code = enoent
  | .readdir, listing => listing.complete
  | .lstat _, .found _ => true
  | .lstat _, .failed _ => false
  | .read _, content => content.isSome
  | _, _ => true

/-- What `lstat` finds stands under the name its path leads to. -/
theorem find_of_lstat_found {r : Resolver} {d d' : Disk} {path : Bytes}
    {n : Name} {regular : Bool} (hn : entryName r.directory path = some n)
    (h : Disk.Answers r d (.lstat path) (.found regular) d') :
    ∃ e, d.entries.find n = some e ∧ regular = e.isRegular ∧ d' = d := by
  obtain ⟨⟨n₀, e, hn₀, he, hregular⟩, hsame⟩ := h
  obtain rfl := Option.some.inj (hn.symm.trans hn₀)
  exact ⟨e, he, hregular, hsame⟩

/-- The check of an entry that is there: it changes nothing, it takes no foreign file for a managed
one, and it finds every managed file it can read. -/
theorem exec_inspectFile {r : Resolver} {d d' : Disk} {path : Bytes}
    {n : Name} {e : Entry} {es : List DiskEvent} {found : Option ℤ}
    (hn : entryName r.directory path = some n) (he : d.entries.find n = some e)
    (h : Exec (Disk.Answers r) (inspectFile path e.isRegular) d es found d') :
    d' = d ∧ (∀ t, found = some t → managedAt d.entries n = some t) ∧
      ((∀ ev ∈ es, succeeded ev.1 ev.2 = true) → found = managedAt d.entries n) := by
  cases e with
  | link target =>
    obtain ⟨-, rfl, rfl⟩ := exec_pure_iff.mp h
    exact ⟨rfl, by simp, fun _ => by rw [managedAt, he]⟩
  | other =>
    obtain ⟨-, rfl, rfl⟩ := exec_pure_iff.mp h
    exact ⟨rfl, by simp, fun _ => by rw [managedAt, he]⟩
  | file content =>
    obtain ⟨reply, d₁, es', rfl, hread, hrest⟩ := exec_lift_do_iff.mp h
    cases reply with
    | none =>
      obtain ⟨-, rfl, rfl⟩ := exec_pure_iff.mp hrest
      refine ⟨hread, by simp, fun hok => ?_⟩
      cases hok _ List.mem_cons_self
    | some bytes =>
      obtain ⟨-, rfl, rfl⟩ := exec_pure_iff.mp hrest
      obtain ⟨⟨n₀, n', hn₀, hleads, hfind⟩, rfl⟩ := hread
      obtain rfl := Option.some.inj (hn.symm.trans hn₀)
      have hn' : n' = n := by
        cases hleads with
        | here => rfl
        | link hlink => cases he.symm.trans hlink
      subst hn'
      have hbytes : bytes = content := by
        rcases hfind with hfind | hfind
        · cases he.symm.trans hfind
          rfl
        · cases he.symm.trans hfind
      subst hbytes
      rw [managedAt_of_file he]
      exact ⟨rfl, fun t ht => ht, fun _ => rfl⟩

/-! ### Adding -/

/-- What the clock read first. -/
def clock (es : List DiskEvent) : ℤ :=
  (es.findSome? fun ev =>
    match ev with
    | ⟨.time, now⟩ => some now
    | _ => none).getD 0

section
variable [Platform]

/-- The second half of `add`: the new file takes its place, or nothing but files
written first has changed. -/
theorem exec_replaceFile {r : Resolver} {d d' : Disk} {path domain : Bytes}
    {createdAt : ℤ} {n : Name} {es : List DiskEvent} {result : Except Bytes Unit}
    (hn : entryName r.directory path = some n) (hhost : ¬ Temporary n)
    (hdomain : HostName domain) (hunlinked : Unlinked d.entries)
    (h : Exec (Disk.Answers r) (replaceFile r path domain createdAt) d es result d') :
    ((∃ message, result = .error message) ∧ Quiet d d') ∨
      (result = .ok () ∧ Unlinked d'.entries ∧
        (Clear d.entries → Clear d'.entries ∧
          d'.entries.find n = some (.file (encodeManaged r createdAt))) ∧
        ∀ m, ¬ Temporary m → m ≠ n → d'.entries.find m = d.entries.find m) := by
  obtain ⟨pid, d₀, es₀, rfl, rfl, h₀⟩ := exec_lift_do_iff.mp h
  obtain ⟨t, ht, htn⟩ := entryName_temporary r pid hdomain
  obtain ⟨opened, d₁, es₁, rfl, hopen, h₁⟩ := exec_lift_do_iff.mp h₀
  cases opened with
  | some code =>
    obtain ⟨-, rfl, rfl⟩ := exec_pure_iff.mp h₁
    obtain rfl := hopen
    exact Or.inl ⟨⟨_, rfl⟩, Quiet.refl hunlinked⟩
  | none =>
    obtain ⟨en, t₁, t', rfl, ht₁, hleads, rfl⟩ := hopen
    obtain rfl := Option.some.inj (htn.symm.trans ht₁)
    obtain rfl := Unlinked.leads_eq hunlinked ht hleads
    have hq₁ := quiet_write hunlinked ht []
    obtain ⟨good, d₂, es₂, rfl, hwrite, h₂⟩ := exec_lift_do_iff.mp h₁
    -- the file written first goes away again, if it can
    have hunlink : ∀ {d₂ d' : Disk} {es : List DiskEvent} {message : Bytes}
        {result : Except Bytes Unit},
        Quiet (.directory en) d₂ →
        Exec (Disk.Answers r) (do
          let _ ← ask (.unlink (r.directory ++ 47 :: temporaryName pid domain))
          return .error message) d₂ es result d' →
        (∃ message, result = .error message) ∧ Quiet (.directory en) d' := by
      intro d₂ d' es message result hq h
      obtain ⟨reply, d₃, es₃, rfl, hunlink, h'⟩ := exec_lift_do_iff.mp h
      obtain ⟨-, rfl, rfl⟩ := exec_pure_iff.mp h'
      refine ⟨⟨_, rfl⟩, ?_⟩
      cases reply with
      | some code =>
        obtain rfl := hunlink
        exact hq
      | none =>
        obtain ⟨en₃, t₃, e, rfl, ht₃, -, rfl⟩ := hunlink
        obtain rfl := Option.some.inj (htn.symm.trans ht₃)
        exact hq.trans (quiet_erase hq.unlinked ht)
    obtain ⟨rfl, rfl⟩ | ⟨en₂, t₂, t'₂, written, hen₂, ht₂, hleads₂, -, hgood, rfl⟩ := hwrite
    · exact Or.inl (hunlink hq₁ h₂)
    obtain rfl := Disk.directory.inj hen₂
    obtain rfl := Option.some.inj (htn.symm.trans ht₂)
    obtain rfl := hq₁.unlinked.leads_eq ht hleads₂
    have hq₂ := hq₁.trans (quiet_write hq₁.unlinked ht written)
    cases good with
    | false => exact Or.inl (hunlink hq₂ h₂)
    | true =>
      obtain rfl := hgood rfl
      obtain ⟨renamed, d₃, es₃, rfl, hrename, h₃⟩ := exec_lift_do_iff.mp h₂
      cases renamed with
      | some code =>
        obtain rfl := hrename
        exact Or.inl (hunlink hq₂ h₃)
      | none =>
        obtain ⟨-, rfl, rfl⟩ := exec_pure_iff.mp h₃
        obtain ⟨en₃, t₃, n₃, e, hen₃, ht₃, hn₃, he, rfl⟩ := hrename
        obtain rfl := Disk.directory.inj hen₃
        obtain rfl := Option.some.inj (htn.symm.trans ht₃)
        obtain rfl := Option.some.inj (hn.symm.trans hn₃)
        have hq₃ := hq₂.trans (quiet_erase hq₂.unlinked ht)
        refine Or.inr ⟨rfl, ?_, fun hclear => ⟨?_, ?_⟩, ?_⟩
        · intro m target hm he'
          rw [Disk.entries, OrdMap.find_insert, if_neg fun hmn : m = n => hhost (hmn ▸ hm)] at he'
          exact hq₃.unlinked m target hm he'
        · intro m e' hm he'
          rw [Disk.entries, OrdMap.find_insert, if_neg fun hmn : m = n => hhost (hmn ▸ hm)] at he'
          exact hq₃.clear hclear m e' hm he'
        · -- what is renamed is what was written
          have hwritten := Clear.find_write (hq₁.clear hclear) ht (encodeManaged r createdAt)
          rw [Disk.entries, OrdMap.find_insert_self, ← he]
          exact hwritten
        · intro m hm hmn
          rw [Disk.entries, OrdMap.find_insert, if_neg hmn]
          exact hq₃.kept m hm

end

/-- The time that goes on record when a domain is added at `now`: a positive time on record
stays. -/
def keptTime (before : Option ℤ) (now : ℤ) : ℤ :=
  match before with
  | some existing => if 0 < existing then existing else now
  | none => now

/-- **What `add` does.** -/
inductive AddOutcome (r : Resolver) (value : Option Bytes) (d : Disk) (es : List DiskEvent) :
    Except Bytes Unit → Disk → Prop
  /-- It fails, and only files written first have changed. -/
  | refused {message : Bytes} {d' : Disk} : Quiet d d' → AddOutcome r value d es (.error message) d'
  /-- The file of the domain, which was missing or managed, is written anew. -/
  | added {n : Name} {d' : Disk} : Domain value n → IsTime (clock es) →
      (d.entries.find n = none ∨ (managedAt d.entries n).isSome = true) → Unlinked d'.entries →
      (Clear d.entries → Clear d'.entries ∧
        d'.entries.find n =
          some (.file (encodeManaged r (keptTime (managedAt d.entries n) (clock es))))) →
      (∀ m, ¬ Temporary m → m ≠ n → d'.entries.find m = d.entries.find m) →
      AddOutcome r value d es (.ok ()) d'

section
variable [Platform]

theorem exec_ensureDirectory {r : Resolver} {d d' : Disk} {es : List DiskEvent}
    {result : Except Bytes Unit} (h : Exec (Disk.Answers r) (ensureDirectory r) d es result d') :
    d'.entries = d.entries ∧ ∀ rest, clock (es ++ rest) = clock rest := by
  obtain ⟨reply, d₁, es₁, rfl, hstat, h₁⟩ := exec_lift_do_iff.mp h
  cases reply with
  | directory | notDirectory =>
    obtain ⟨rfl, -, rfl⟩ := exec_pure_iff.mp h₁
    obtain ⟨-, rfl⟩ := hstat
    exact ⟨rfl, fun rest => rfl⟩
  | failed code =>
    obtain ⟨-, rfl⟩ := hstat
    simp only at h₁
    split_ifs at h₁ with hcode
    · obtain ⟨rfl, -, rfl⟩ := exec_pure_iff.mp h₁
      exact ⟨rfl, fun rest => rfl⟩
    · obtain ⟨made, d₂, es₂, rfl, hmkdir, h₂⟩ := exec_lift_do_iff.mp h₁
      cases made with
      | none =>
        obtain ⟨rfl, -, rfl⟩ := exec_pure_iff.mp h₂
        obtain ⟨rfl, rfl⟩ := hmkdir
        exact ⟨rfl, fun rest => rfl⟩
      | some code =>
        obtain ⟨rfl, -, rfl⟩ := exec_pure_iff.mp h₂
        obtain rfl := hmkdir
        exact ⟨rfl, fun rest => rfl⟩

/-- The two ways to the second half of `add`. -/
theorem addOutcome_of_replaceFile {r : Resolver} {value : Option Bytes} {d d₁ d' : Disk}
    {n : Name} {es es' : List DiskEvent} {createdAt : ℤ} {result : Except Bytes Unit}
    (hdomain : Domain value n) (hentries : d₁.entries = d.entries)
    (hunlinked : Unlinked d.entries) (htime : IsTime (clock es))
    (hbefore : d.entries.find n = none ∨ (managedAt d.entries n).isSome = true)
    (hkept : createdAt = keptTime (managedAt d.entries n) (clock es))
    (h : Exec (Disk.Answers r) (replaceFile r (pathJoin r.directory n.bytes) n.bytes createdAt)
      d₁ es' result d') :
    AddOutcome r value d es result d' := by
  have hhost := hdomain.hostName
  rcases exec_replaceFile (entryName_pathJoin r hhost) hhost.not_temporary hhost
      (hentries ▸ hunlinked) h with
    ⟨⟨message, rfl⟩, hquiet⟩ | ⟨rfl, hunlinked', hfile, hrest⟩
  · exact .refused ⟨hquiet.unlinked, hentries ▸ hquiet.clear,
      fun m hm => by rw [hquiet.kept m hm, hentries]⟩
  · exact .added hdomain htime hbefore hunlinked' (hkept ▸ hentries ▸ hfile) fun m hm hmn => by
      rw [hrest m hm hmn, hentries]

/-- **The outcome of `add`.** -/
theorem exec_add {r : Resolver} {value : Option Bytes} {d d' : Disk}
    {es : List DiskEvent} {result : Except Bytes Unit} (hunlinked : Unlinked d.entries)
    (h : Exec (Disk.Answers r) (add r value) d es result d') :
    AddOutcome r value d es result d' := by
  unfold add at h
  simp only at h
  split_ifs at h with haccepted
  · obtain ⟨n, hdomain⟩ := exists_domain haccepted
    have hpath : entryName r.directory (pathJoin r.directory n.bytes) = some n :=
      entryName_pathJoin r hdomain.hostName
    rw [hdomain.2] at h
    obtain ⟨ensured, d₁, es₁, es₂, rfl, hensure, h₁⟩ := exec_do_iff.mp h
    obtain ⟨hentries, hclock⟩ := exec_ensureDirectory hensure
    cases ensured with
    | error message =>
      obtain ⟨rfl, rfl, rfl⟩ := exec_pure_iff.mp h₁
      exact .refused (.of_entries hunlinked hentries)
    | ok u =>
      obtain ⟨now, d₂, es₃, rfl, ⟨htime, rfl⟩, h₂⟩ := exec_lift_do_iff.mp h₁
      have hnow : clock (es₁ ++ ⟨.time, now⟩ :: es₃) = now := by
        rw [hclock]
        rfl
      obtain ⟨status, d₃, es₄, rfl, hlstat, h₃⟩ := exec_lift_do_iff.mp h₂
      cases status with
      | failed code =>
        obtain ⟨habsent, rfl⟩ := hlstat
        simp only at h₃
        split_ifs at h₃ with hcode
        · obtain ⟨-, rfl, rfl⟩ := exec_pure_iff.mp h₃
          exact .refused (.of_entries hunlinked hentries)
        · have hnone := habsent (not_not.mp hcode) n hpath
          rw [hentries] at hnone
          refine addOutcome_of_replaceFile hdomain hentries hunlinked (by rw [hnow]; exact htime)
            (Or.inl hnone) ?_ h₃
          rw [hnow, managedAt, hnone]
          rfl
      | found regular =>
        obtain ⟨e, he, rfl, rfl⟩ := find_of_lstat_found hpath hlstat
        obtain ⟨found, d₄, es₅, es₆, rfl, hinspect, h₄⟩ := exec_do_iff.mp h₃
        obtain ⟨rfl, hmanaged, -⟩ := exec_inspectFile hpath he hinspect
        cases found with
        | none =>
          obtain ⟨-, rfl, rfl⟩ := exec_pure_iff.mp h₄
          exact .refused (.of_entries hunlinked hentries)
        | some existing =>
          have hat := hmanaged existing rfl
          rw [hentries] at hat
          refine addOutcome_of_replaceFile hdomain hentries hunlinked (by rw [hnow]; exact htime)
            (Or.inr ?_) ?_ h₄
          · rw [hat]
            rfl
          · rw [hnow, hat]
            rfl
  · obtain ⟨-, rfl, rfl⟩ := exec_pure_iff.mp h
    exact .refused (Quiet.refl hunlinked)

/-! ### Removing -/

/-- **What `remove` does.** -/
inductive RemoveOutcome (value : Option Bytes) (d : Disk) : Except Bytes Unit → Disk → Prop
  /-- It fails, and changes nothing. -/
  | refused {message : Bytes} : RemoveOutcome value d (.error message) d
  /-- The file of the domain, which was managed, is gone. -/
  | removed {n : Name} {en : Entries} : Domain value n → d = .directory en →
      (managedAt en n).isSome = true →
      RemoveOutcome value d (.ok ()) (.directory (en.erase n))

/-- **The outcome of `remove`.** -/
theorem exec_remove {r : Resolver} {value : Option Bytes} {d d' : Disk} {es : List DiskEvent}
    {result : Except Bytes Unit} (h : Exec (Disk.Answers r) (remove r value) d es result d') :
    RemoveOutcome value d result d' := by
  unfold remove at h
  simp only at h
  split_ifs at h with haccepted
  · obtain ⟨n, hdomain⟩ := exists_domain haccepted
    have hpath : entryName r.directory (pathJoin r.directory n.bytes) = some n :=
      entryName_pathJoin r hdomain.hostName
    rw [hdomain.2] at h
    obtain ⟨status, d₁, es₁, rfl, hlstat, h₁⟩ := exec_lift_do_iff.mp h
    cases status with
    | failed code =>
      obtain ⟨-, rfl⟩ := hlstat
      simp only at h₁
      split_ifs at h₁
      all_goals
        obtain ⟨-, rfl, rfl⟩ := exec_pure_iff.mp h₁
        exact .refused
    | found regular =>
      obtain ⟨e, he, rfl, rfl⟩ := find_of_lstat_found hpath hlstat
      obtain ⟨found, d₂, es₂, es₃, rfl, hinspect, h₂⟩ := exec_do_iff.mp h₁
      obtain ⟨rfl, hmanaged, -⟩ := exec_inspectFile hpath he hinspect
      cases found with
      | none =>
        obtain ⟨-, rfl, rfl⟩ := exec_pure_iff.mp h₂
        exact .refused
      | some t =>
        have hat := hmanaged t rfl
        obtain ⟨reply, d₃, es₄, rfl, hunlink, h₃⟩ := exec_lift_do_iff.mp h₂
        cases reply with
        | some code =>
          obtain ⟨-, rfl, rfl⟩ := exec_pure_iff.mp h₃
          obtain rfl := hunlink
          exact .refused
        | none =>
          obtain ⟨-, rfl, rfl⟩ := exec_pure_iff.mp h₃
          obtain ⟨en, n₁, e₁, rfl, hn₁, -, rfl⟩ := hunlink
          obtain rfl := Option.some.inj (hpath.symm.trans hn₁)
          refine .removed hdomain rfl ?_
          rw [show managedAt en n = some t from hat]
          rfl
  · obtain ⟨-, rfl, rfl⟩ := exec_pure_iff.mp h
    exact .refused

end

/-! ### Listing -/

instance domainDecidable (value : Option Bytes) (n : Name) : Decidable (Domain value n) :=
  inferInstanceAs (Decidable (_ ∧ _))

/-- What a listing shows of the name `n`. -/
def listed (es : Entries) (n : Name) : Option DomainEntry :=
  if Domain (some n.bytes) n then (managedAt es n).map (⟨n.bytes, ·⟩) else none

/-- What a listing shows: the managed files of the names that are their own
normalized names, in order. -/
def listing (es : Entries) : List DomainEntry := es.keys.filterMap (listed es)

theorem listed_eq_some {es : Entries} {n : Name} {e : DomainEntry} :
    listed es n = some e ↔ Domain (some n.bytes) n ∧ n.bytes = e.domain ∧
      managedAt es n = some e.createdAt := by
  obtain ⟨domain, createdAt⟩ := e
  unfold listed
  split_ifs with h
  · simp only [Option.map_eq_some_iff, DomainEntry.mk.injEq, h, true_and]
    constructor
    · rintro ⟨t, ht, hn, rfl⟩
      exact ⟨hn, ht⟩
    · rintro ⟨hn, ht⟩
      exact ⟨createdAt, ht, hn, rfl⟩
  · simp [h]

/-- A hidden name is not shown. -/
theorem listed_of_hidden {es : Entries} {n : Name} (h : n.bytes.head? = some 46) :
    listed es n = none :=
  if_neg fun hdomain => hdomain.hostName.head_ne h

theorem mem_listing_iff {es : Entries} {e : DomainEntry} :
    e ∈ listing es ↔ ∃ n, Domain (some n.bytes) n ∧ n.bytes = e.domain ∧
      managedAt es n = some e.createdAt := by
  simp only [listing, List.mem_filterMap, listed_eq_some]
  constructor
  · rintro ⟨n, -, h⟩
    exact ⟨n, h⟩
  · rintro ⟨n, h⟩
    refine ⟨n, OrdMap.mem_keys_iff.mpr ?_, h⟩
    have hat := h.2.2
    unfold managedAt at hat
    split at hat
    next content hfile => exact ⟨_, hfile⟩
    next => cases hat

/-- A domain is shown once. -/
theorem eq_of_mem_listing {es : Entries} {a b : DomainEntry} (ha : a ∈ listing es)
    (hb : b ∈ listing es) (h : a.domain = b.domain) : a = b := by
  obtain ⟨n, -, hn, htn⟩ := mem_listing_iff.mp ha
  obtain ⟨m, -, hm, htm⟩ := mem_listing_iff.mp hb
  obtain rfl : n = m := Name.bytes_injective (hn.trans (h.trans hm.symm))
  obtain ⟨domain, createdAt⟩ := a
  obtain ⟨domain', createdAt'⟩ := b
  obtain rfl : createdAt = createdAt' := Option.some.inj (htn.symm.trans htm)
  exact congrArg (DomainEntry.mk · createdAt) h

/-- The domains shown increase. -/
theorem pairwise_listing (es : Entries) : (listing es).Pairwise fun a b => a.domain < b.domain := by
  refine List.pairwise_filterMap.mpr ((List.pairwise_map.mpr es.sorted).imp ?_)
  intro n m hnm a ha b hb
  rw [← (listed_eq_some.mp ha).2.1, ← (listed_eq_some.mp hb).2.1]
  exact Name.lt_iff.mp hnm

/-- What a listing shows of a name that `readdir` delivers. -/
def shown (es : Entries) (name : Bytes) : Option DomainEntry := (Name.ofBytes name).bind (listed es)

@[simp] theorem shown_bytes (es : Entries) (n : Name) : shown es n.bytes = listed es n := by
  simp [shown]

/-- Whatever the order `readdir` delivers the names in, they are shown in order. -/
theorem mergeSort_shown {es : Entries} {names : List Bytes}
    (h : names.Perm ([46] :: [46, 46] :: es.keys.map Name.bytes)) :
    ((names.filterMap (shown es)).mergeSort fun left right => left.domain ≤ right.domain) =
      listing es := by
  have hdot : shown es [46] = none :=
    show listed es ⟨[46], by decide⟩ = none from listed_of_hidden rfl
  have hdots : shown es [46, 46] = none :=
    show listed es ⟨[46, 46], by decide⟩ = none from listed_of_hidden rfl
  have hshown : ([46] :: [46, 46] :: es.keys.map Name.bytes).filterMap (shown es) = listing es := by
    rw [List.filterMap_cons_none hdot, List.filterMap_cons_none hdots, List.filterMap_map]
    simp [listing]
  have hperm := (List.mergeSort_perm (names.filterMap (shown es)) fun left right =>
    left.domain ≤ right.domain).trans
    (hshown ▸ h.filterMap (shown es))
  refine hperm.eq_of_pairwise ?_ (List.pairwise_mergeSort ?_ ?_ _) ((pairwise_listing es).imp ?_)
  · intro a b ha hb hab hba
    simp only [decide_eq_true_eq] at hab hba
    exact eq_of_mem_listing (hperm.subset ha) hb (le_antisymm hab hba)
  · intro a b c hab hbc
    simp only [decide_eq_true_eq] at hab hbc ⊢
    exact le_trans hab hbc
  · intro a b
    simpa using le_total a.domain b.domain
  · intro a b hab
    simpa using le_of_lt hab

/-- What `readdir` delivers is `.`, `..` and names of the directory. -/
theorem names_of_listing {es : Entries} {names rest : List Bytes}
    (hperm : (names ++ rest).Perm ([46] :: [46, 46] :: es.keys.map Name.bytes)) :
    ∀ name ∈ names, ∃ n : Name, n.bytes = name ∧ (name.head? = some 46 ∨ n ∈ es.keys) := by
  intro name hmem
  have hmem := hperm.subset (List.mem_append_left rest hmem)
  rcases List.mem_cons.mp hmem with rfl | hmem
  · exact ⟨⟨[46], by decide⟩, rfl, Or.inl rfl⟩
  rcases List.mem_cons.mp hmem with rfl | hmem
  · exact ⟨⟨[46, 46], by decide⟩, rfl, Or.inl rfl⟩
  obtain ⟨n, hn, rfl⟩ := List.mem_map.mp hmem
  exact ⟨n, rfl, Or.inr hn⟩

/-- The loop of `list` at one name of the directory. -/
theorem exec_listEntry {r : Resolver} {d d' : Disk} {n : Name} {es : List DiskEvent}
    {domains domains' : List DomainEntry} (hn : n.bytes.head? = some 46 ∨ n ∈ d.entries.keys)
    (h : Exec (Disk.Answers r) (listEntry r domains n.bytes) d es domains' d') :
    d' = d ∧ ((∀ ev ∈ es, succeeded ev.1 ev.2 = true) →
      domains' = domains ++ (listed d.entries n).toList) := by
  unfold listEntry at h
  simp only at h
  split_ifs at h with hhidden hforeign
  · obtain ⟨-, rfl, rfl⟩ := exec_pure_iff.mp h
    exact ⟨rfl, fun _ => by rw [listed_of_hidden hhidden, Option.toList_none, List.append_nil]⟩
  · obtain ⟨-, rfl, rfl⟩ := exec_pure_iff.mp h
    refine ⟨rfl, fun _ => ?_⟩
    have hnot : ¬ Domain (some n.bytes) n := fun hdomain => by
      rcases hforeign with hrefused | hother
      · exact hrefused hdomain.1
      · exact hother hdomain.2
    rw [listed, if_neg hnot, Option.toList_none, List.append_nil]
  · obtain ⟨haccepted, hself⟩ := not_or.mp hforeign
    have hdomain : Domain (some n.bytes) n := ⟨not_not.mp haccepted, not_not.mp hself⟩
    have hpath := entryName_pathJoin r hdomain.hostName
    obtain ⟨status, d₁, es₁, rfl, hlstat, h₁⟩ := exec_lift_do_iff.mp h
    cases status with
    | failed code =>
      obtain ⟨-, rfl⟩ := hlstat
      obtain ⟨-, rfl, rfl⟩ := exec_pure_iff.mp h₁
      refine ⟨rfl, fun hok => ?_⟩
      cases hok _ List.mem_cons_self
    | found regular =>
      obtain ⟨e, he, rfl, rfl⟩ := find_of_lstat_found hpath hlstat
      obtain ⟨found, d₂, es₂, es₃, rfl, hinspect, h₂⟩ := exec_do_iff.mp h₁
      obtain ⟨rfl, -, hread⟩ := exec_inspectFile hpath he hinspect
      have hfound : (∀ ev ∈ (⟨.lstat (pathJoin r.directory n.bytes), .found e.isRegular⟩ :
          DiskEvent) :: (es₂ ++ es₃),
          succeeded ev.1 ev.2 = true) → found = managedAt d₂.entries n := fun hok =>
        hread fun ev hev => hok ev (by simp [hev])
      cases found with
      | none =>
        obtain ⟨-, rfl, rfl⟩ := exec_pure_iff.mp h₂
        exact ⟨rfl, fun hok => by simp [listed, hdomain, ← hfound hok]⟩
      | some t =>
        obtain ⟨-, rfl, rfl⟩ := exec_pure_iff.mp h₂
        exact ⟨rfl, fun hok => by simp [listed, hdomain, ← hfound hok]⟩

section
variable [Platform]

/-- **A listing changes nothing, and shows every managed file when its calls succeed.** -/
theorem exec_list {r : Resolver} {d d' : Disk} {es : List DiskEvent}
    {result : Except Bytes (List DomainEntry)} (h : Exec (Disk.Answers r) (list r) d es result d') :
    d' = d ∧ ((∀ ev ∈ es, succeeded ev.1 ev.2 = true) → result = .ok (listing d.entries)) := by
  obtain ⟨opened, d₁, es₁, rfl, hopen, h₁⟩ := exec_lift_do_iff.mp h
  cases opened with
  | some code =>
    obtain ⟨habsent, rfl⟩ := hopen
    simp only at h₁
    split_ifs at h₁ with hcode
    · obtain ⟨-, rfl, rfl⟩ := exec_pure_iff.mp h₁
      refine ⟨rfl, fun _ => ?_⟩
      rw [habsent hcode]
      rfl
    · obtain ⟨-, rfl, rfl⟩ := exec_pure_iff.mp h₁
      refine ⟨rfl, fun hok => ?_⟩
      exact absurd (of_decide_eq_true (hok _ List.mem_cons_self)) hcode
  | none =>
    obtain ⟨-, rfl⟩ := hopen
    obtain ⟨reply, d₂, es₂, rfl, ⟨⟨rest, hperm, hcomplete⟩, rfl⟩, h₂⟩ := exec_lift_do_iff.mp h₁
    obtain ⟨domains, d₃, es₃, es₄, rfl, hloop, h₃⟩ := exec_do_iff.mp h₂
    obtain ⟨rfl, rfl, rfl⟩ := exec_pure_iff.mp h₃
    have hname := names_of_listing hperm
    obtain ⟨rfl, hdomains⟩ := exec_loop_inv
      (fun done es acc s => s = d₂ ∧
        ((∀ ev ∈ es, succeeded ev.1 ev.2 = true) → acc = done.filterMap (shown d₂.entries)))
      (by
        rintro done name later es acc s es' acc' s' hnames ⟨rfl, hacc⟩ hbody
        obtain ⟨n, rfl, hn⟩ := hname name (hnames ▸ by simp)
        obtain ⟨rfl, hentry⟩ := exec_listEntry hn hbody
        refine ⟨rfl, fun hok => ?_⟩
        rw [hentry fun ev hev => hok ev (List.mem_append_right _ hev),
          hacc fun ev hev => hok ev (List.mem_append_left _ hev), List.filterMap_append]
        cases hl : listed s'.entries n <;> simp [hl])
      ⟨rfl, fun _ => rfl⟩ hloop
    refine ⟨rfl, fun hok => ?_⟩
    obtain rfl := hcomplete (hok ⟨.readdir, reply⟩ (by simp))
    rw [List.append_nil] at hperm
    rw [hdomains fun ev hev => hok ev (by simp [hev]), mergeSort_shown hperm]

end

/-! ### Runs -/

/-- A call that was made: the calls it made, and its result. -/
inductive Done where
  /-- `add`. -/
  | add (value : Option Bytes) (calls : List DiskEvent) (result : Except Bytes Unit)
  /-- `remove`. -/
  | remove (value : Option Bytes) (calls : List DiskEvent) (result : Except Bytes Unit)
  /-- `list`. -/
  | list (calls : List DiskEvent) (result : Except Bytes (List DomainEntry))

/-- The account of a domain: the clock readings of the successful additions
since it was last absent. -/
def account (n : Name) (clocks : List ℤ) : Done → List ℤ
  | .add value calls (.ok _) => if Domain value n then clocks ++ [clock calls] else clocks
  | .remove value _ (.ok _) => if Domain value n then [] else clocks
  | _ => clocks

theorem account_add (n : Name) (clocks : List ℤ) (value : Option Bytes) (calls : List DiskEvent) :
    account n clocks (.add value calls (.ok ())) = if Domain value n then
      clocks ++ [clock calls] else clocks :=
  rfl

theorem account_remove (n : Name) (clocks : List ℤ) (value : Option Bytes)
    (calls : List DiskEvent) :
    account n clocks (.remove value calls (.ok ())) = if Domain value n then [] else clocks := rfl

/-- The account of a domain after a run from a directory without it. -/
def since (n : Name) (ls : List Done) : List ℤ := ls.foldl (account n) []

/-- The time on record for an account: its first positive reading, or else its last one. -/
def recorded (clocks : List ℤ) : Option ℤ := (clocks.find? fun now => 0 < now).or clocks.getLast?

/-- When the first addition was at a positive time, that time is on record. -/
theorem recorded_of_pos {now : ℤ} (h : 0 < now) (later : List ℤ) :
    recorded (now :: later) = some now := by
  simp [recorded, h]

theorem recorded_concat (clocks : List ℤ) (now : ℤ) :
    recorded (clocks ++ [now]) = some (keptTime (recorded clocks) now) := by
  unfold recorded
  rw [List.find?_append, List.getLast?_concat]
  cases hfirst : clocks.find? fun now => 0 < now with
  | some t =>
    have ht : 0 < t := by simpa using List.find?_some hfirst
    simp [keptTime, ht]
  | none =>
    have hlast : ∀ t, clocks.getLast? = some t → ¬ 0 < t := fun t ht => by
      simpa using List.find?_eq_none.mp hfirst t (List.mem_of_getLast? ht)
    cases hl : clocks.getLast? with
    | none => by_cases hnow : 0 < now <;> simp [keptTime, hnow]
    | some t => by_cases hnow : 0 < now <;> simp [keptTime, hnow, hlast t hl]

theorem recorded_eq_none {clocks : List ℤ} : recorded clocks = none ↔ clocks = [] := by
  constructor
  · intro h
    rcases clocks.eq_nil_or_concat with rfl | ⟨l, a, rfl⟩
    · rfl
    · rw [List.concat_eq_append, recorded_concat] at h
      cases h
  · rintro rfl
    rfl

/-- The time on record in a file is a 64-bit time. -/
theorem isTime_of_parseManaged {content : Bytes} {t : ℤ}
    (h : parseManaged content = some t) : IsTime t := by
  have hzero : IsTime 0 := ⟨by decide, by decide⟩
  unfold parseManaged at h
  split at h
  · cases h
  split_ifs at h
  split at h
  · cases h
    exact hzero
  split_ifs at h
  · cases h
    exact strtoll_value_le _
  · cases h
    exact hzero

theorem isTime_keptTime {es : Entries} {n : Name} {now : ℤ} (h : IsTime now) :
    IsTime (keptTime (managedAt es n) now) := by
  cases hat : managedAt es n with
  | none => exact h
  | some t =>
    unfold managedAt at hat
    split at hat
    · unfold keptTime
      simp only
      split_ifs
      · exact isTime_of_parseManaged hat
      · exact h
    · cases hat

/-- A file that is not managed, and not one that is written first, is what it was. -/
def ForeignKept (d d' : Disk) : Prop :=
  ∀ n e, ¬ text ".ip-router-" <+: n.bytes → d.entries.find n = some e →
    managedAt d.entries n = none →
    d'.entries.find n = some e

section
variable [Platform]

/-- The domain manager serves a call. -/
def Step (r : Resolver) (d : Disk) (l : Done) (d' : Disk) : Prop :=
  match l with
  | .add value calls result => Exec (Disk.Answers r) (add r value) d calls result d'
  | .remove value calls result => Exec (Disk.Answers r) (remove r value) d calls result d'
  | .list calls result => Exec (Disk.Answers r) (list r) d calls result d'

variable {r : Resolver} {d d' : Disk} {l : Done} {ls : List Done}

/-- Clear names stay clear. -/
theorem Step.clear (h : Step r d l d') (hclear : Clear d.entries) : Clear d'.entries := by
  cases l with
  | add value calls result =>
    cases exec_add hclear.unlinked h with
    | refused hquiet => exact hquiet.clear hclear
    | added _ _ _ _ hfile _ => exact (hfile hclear).1
  | remove value calls result =>
    cases exec_remove h with
    | refused => exact hclear
    | removed hdomain hdirectory hmanaged =>
      subst hdirectory
      intro m e hm he
      rw [Disk.entries, OrdMap.find_erase] at he
      split_ifs at he
      exact hclear m e hm he
  | list calls result =>
    obtain ⟨rfl, -⟩ := exec_list h
    exact hclear

/-- Names without links stay without. -/
theorem Step.unlinked (h : Step r d l d') (hunlinked : Unlinked d.entries) :
    Unlinked d'.entries := by
  cases l with
  | add value calls result =>
    cases exec_add hunlinked h with
    | refused hquiet => exact hquiet.unlinked
    | added _ _ _ hunlinked' _ _ => exact hunlinked'
  | remove value calls result =>
    cases exec_remove h with
    | refused => exact hunlinked
    | removed hdomain hdirectory hmanaged =>
      subst hdirectory
      intro m target hm he
      rw [Disk.entries, OrdMap.find_erase] at he
      split_ifs at he
      exact hunlinked m target hm he
  | list calls result =>
    obtain ⟨rfl, -⟩ := exec_list h
    exact hunlinked

/-- A call leaves foreign files alone. -/
theorem Step.foreignKept (h : Step r d l d') (hunlinked : Unlinked d.entries) :
    ForeignKept d d' := by
  intro n e hname he hforeign
  have hn : ¬ Temporary n := fun ht => hname ht.isPrefix
  cases l with
  | add value calls result =>
    cases exec_add hunlinked h with
    | refused hquiet => rw [hquiet.kept n hn, he]
    | @added m d' hdomain htime hbefore hunlinked' hfile hkept =>
      rw [hkept n hn, he]
      rintro rfl
      rcases hbefore with hnone | hmanaged
      · cases he.symm.trans hnone
      · rw [hforeign] at hmanaged
        cases hmanaged
  | remove value calls result =>
    cases exec_remove h with
    | refused => exact he
    | @removed m en hdomain hdirectory hmanaged =>
      subst hdirectory
      rw [Disk.entries, OrdMap.find_erase, if_neg]
      · exact he
      · rintro rfl
        rw [show managedAt en n = none from hforeign] at hmanaged
        cases hmanaged
  | list calls result =>
    obtain ⟨rfl, -⟩ := exec_list h
    exact he

/-- **A call does to the file of a domain what the account says.** -/
theorem Step.account (h : Step r d l d') (hclear : Clear d.entries) {n : Name}
    (hn : HostName n.bytes) {clocks : List ℤ} (hclocks : managedAt d.entries n = recorded clocks) :
    managedAt d'.entries n = recorded (account n clocks l) := by
  cases l with
  | add value calls result =>
    cases exec_add hclear.unlinked h with
    | refused hquiet => exact (managedAt_congr (hquiet.kept n hn.not_temporary)).trans hclocks
    | @added m d' hdomain htime hbefore hunlinked' hfile hkept =>
      rw [account_add]
      split_ifs with hself
      · obtain rfl := hdomain.unique hself
        rw [managedAt_of_file (hfile hclear).2,
          parseManaged_encodeManaged r (isTime_keptTime htime), hclocks, recorded_concat]
      · rw [managedAt_congr (hkept n hn.not_temporary fun hnm => hself (hnm ▸ hdomain)), hclocks]
  | remove value calls result =>
    cases exec_remove h with
    | refused => exact hclocks
    | @removed m en hdomain hdirectory hmanaged =>
      subst hdirectory
      rw [account_remove]
      split_ifs with hself
      · obtain rfl := hdomain.unique hself
        simp [managedAt, Disk.entries, OrdMap.find_erase, recorded]
      · have hsame : (Disk.directory (en.erase m)).entries.find n =
            (Disk.directory en).entries.find n := by
          rw [Disk.entries, Disk.entries, OrdMap.find_erase, if_neg fun hnm : n = m =>
            hself (hnm ▸ hdomain)]
        exact (managedAt_congr hsame).trans hclocks
  | list calls result =>
    obtain ⟨rfl, -⟩ := exec_list h
    exact hclocks

/-- A run leaves foreign files alone. -/
theorem foreignKept_of_run (h : Run (Step r) d ls d') (hunlinked : Unlinked d.entries) :
    ForeignKept d d' := by
  induction h with
  | nil => exact fun _ _ _ he _ => he
  | cons hstep _ ih =>
    intro n e hname he hforeign
    have he₁ := hstep.foreignKept hunlinked n e hname he hforeign
    refine ih (hstep.unlinked hunlinked) n e hname he₁ ?_
    rw [managedAt_congr (he₁.trans he.symm), hforeign]

/-- A run does to the file of a domain what the account says. -/
theorem account_of_run (h : Run (Step r) d ls d') (hclear : Clear d.entries) {n : Name}
    (hn : HostName n.bytes) {clocks : List ℤ} (hclocks : managedAt d.entries n = recorded clocks) :
    managedAt d'.entries n = recorded (ls.foldl (account n) clocks) := by
  induction h generalizing clocks with
  | nil => exact hclocks
  | cons hstep _ ih => exact ih (hstep.clear hclear) (hstep.account hclear hn hclocks)

end

/-- Only a domain has an account. -/
theorem domain_of_account {n : Name} {ls : List Done} {clocks : List ℤ}
    (hclocks : clocks ≠ [] → Domain (some n.bytes) n) (h : ls.foldl (account n) clocks ≠ []) :
    Domain (some n.bytes) n := by
  induction ls generalizing clocks with
  | nil => exact hclocks h
  | cons l ls ih =>
    refine ih (fun hne => ?_) h
    unfold account at hne
    split at hne
    · split_ifs at hne with hdomain
      · exact hdomain.self
      · exact hclocks hne
    · split_ifs at hne with hdomain
      · exact absurd rfl hne
      · exact hclocks hne
    · exact hclocks hne

/-! ### The managed set -/

section
variable [Platform]

/-- **The resolver directory is a managed set.** A listing whose calls succeed shows the managed
files of the directory in order. Where no link stands under the names of files written first, no run
touches a foreign file; and where only regular files stand under them, in a directory without
managed files, the listing shows the domains that were added and not removed since, each with the
time on record for its account. -/
theorem managed_of_run {r : Resolver} {d d' : Disk} {ls : List Done} (h : Run (Step r) d ls d') :
    (Unlinked d.entries → ForeignKept d d') ∧
    ∀ calls result d'', Exec (Disk.Answers r) (list r) d' calls result d'' →
      (∀ ev ∈ calls, succeeded ev.1 ev.2 = true) →
      ∃ domains, result = .ok domains ∧ domains.Pairwise (fun a b => a.domain < b.domain) ∧
        (∀ e, e ∈ domains ↔
          ∃ n, Domain (some n.bytes) n ∧ n.bytes = e.domain ∧
            managedAt d'.entries n = some e.createdAt) ∧
        (Clear d.entries → (∀ n, managedAt d.entries n = none) →
          ∀ e, e ∈ domains ↔ ∃ n, n.bytes = e.domain ∧
            recorded (since n ls) = some e.createdAt) := by
  refine ⟨foreignKept_of_run h, fun calls result d'' hlist hok => ?_⟩
  refine ⟨listing d'.entries, (exec_list hlist).2 hok, pairwise_listing _,
    fun e => mem_listing_iff, ?_⟩
  intro hclear hnone e
  have haccount : ∀ n : Name, HostName n.bytes →
      managedAt d'.entries n = recorded (since n ls) := fun n hn =>
    account_of_run h hclear hn (hnone n)
  rw [mem_listing_iff]
  constructor
  · rintro ⟨n, hdomain, hn, hat⟩
    exact ⟨n, hn, haccount n hdomain.hostName ▸ hat⟩
  · rintro ⟨n, hn, hrecorded⟩
    have hne : since n ls ≠ [] := fun hnil => by
      rw [recorded_eq_none.mpr hnil] at hrecorded
      cases hrecorded
    have hdomain : Domain (some n.bytes) n := domain_of_account (fun h => absurd rfl h) hne
    exact ⟨n, hdomain, hn, (haccount n hdomain.hostName).trans hrecorded⟩

/-- Add a domain where nothing fails that need not. -/
def Disk.playAdd (r : Resolver) (now : ℤ) (value : Option Bytes) (d : Disk) : Done × Disk :=
  let out := (add r value).play (Disk.calm r) now [] d
  (.add value out.1 out.2.1, out.2.2)

theorem Disk.step_playAdd (r : Resolver) (now : ℤ) (value : Option Bytes) (d : Disk) :
    Step r d (d.playAdd r now value).1 (d.playAdd r now value).2 :=
  exec_play (Disk.answers_calm r) now (add r value) [] d

/-- Remove a domain there. -/
def Disk.playRemove (r : Resolver) (value : Option Bytes) (d : Disk) : Done × Disk :=
  let out := (remove r value).play (Disk.calm r) 0 [] d
  (.remove value out.1 out.2.1, out.2.2)

theorem Disk.step_playRemove (r : Resolver) (value : Option Bytes) (d : Disk) :
    Step r d (d.playRemove r value).1 (d.playRemove r value).2 :=
  exec_play (Disk.answers_calm r) 0 (remove r value) [] d

/-- Make such calls one after the other. -/
def Disk.playAll : List (Disk → Done × Disk) → Disk → List Done × Disk
  | [], d => ([], d)
  | play :: plays, d => ((play d).1 :: (playAll plays (play d).2).1, (playAll plays (play d).2).2)

theorem Disk.run_playAll {r : Resolver} {plays : List (Disk → Done × Disk)}
    (h : ∀ play ∈ plays, ∀ d, Step r d (play d).1 (play d).2) (d : Disk) :
    Run (Step r) d (d.playAll plays).1 (d.playAll plays).2 := by
  induction plays generalizing d with
  | nil => exact .nil
  | cons play plays ih =>
    exact .cons (h play List.mem_cons_self d) (ih (fun p hp => h p (List.mem_cons_of_mem _ hp)) _)

/-- List the domains there. -/
def Disk.playList (r : Resolver) (d : Disk) :
    List DiskEvent × Except Bytes (List DomainEntry) × Disk :=
  (list r).play (Disk.calm r) 0 [] d

theorem Disk.exec_playList (r : Resolver) (d : Disk) :
    Exec (Disk.Answers r) (list r) d (d.playList r).1 (d.playList r).2.1 (d.playList r).2.2 :=
  exec_play (Disk.answers_calm r) 0 (list r) [] d

end

/-- The default configuration. -/
def defaultResolver : Resolver := configure none none 0 0

/-- A directory with a foreign file, and a link to it under a name of a file written first. -/
def linkedDisk : Disk :=
  let hosts : Name := ⟨text "hosts", by decide⟩
  let temporary : Name := ⟨temporaryName 1 (text "a"), by decide⟩
  .directory ((OrdMap.empty.insert hosts (.file (text "foreign"))).insert temporary (.link hosts))

/-- The link is followed and the foreign file is overwritten; and an addition when the clock reads
zero is not the one that is remembered. -/
theorem not_managed_of_run :
    (¬ ∀ (r : Resolver) (d d' : Disk) (ls : List Done), Run (@Step quadPlatform r) d ls d' →
      ForeignKept d d') ∧
    ¬ ∀ (r : Resolver) (d d' d'' : Disk) (ls : List Done) (calls : List DiskEvent)
      (domains : List DomainEntry),
      (∀ n, managedAt d.entries n = none) → Run (@Step quadPlatform r) d ls d' →
      Exec (Disk.Answers r) (@list quadPlatform r) d' calls (.ok domains) d'' →
      (∀ ev ∈ calls, succeeded ev.1 ev.2 = true) →
      ∀ e ∈ domains, ∃ n, n.bytes = e.domain ∧ (since n ls).head? = some e.createdAt := by
  let _ := quadPlatform
  constructor
  · intro hclaim
    have hstep := linkedDisk.step_playAdd defaultResolver 5 (some (text "a"))
    have hkept := hclaim _ _ _ _ (.cons hstep .nil) ⟨text "hosts", by decide⟩
      (.file (text "foreign")) (by decide +kernel) (by decide +kernel) (by decide +kernel)
    revert hkept
    decide +kernel
  · intro hclaim
    let first := (Disk.directory OrdMap.empty).playAdd defaultResolver 0 (some (text "a"))
    let second := first.2.playAdd defaultResolver 5 (some (text "A."))
    have hrun : Run (Step defaultResolver) (.directory OrdMap.empty) [first.1, second.1] second.2 :=
      .cons (Disk.step_playAdd _ _ _ _) (.cons (Disk.step_playAdd _ _ _ _) .nil)
    have hlist := second.2.exec_playList defaultResolver
    have hok : ∀ ev ∈ (second.2.playList defaultResolver).1, succeeded ev.1 ev.2 = true := by
      decide +kernel
    rw [(exec_list hlist).2 hok] at hlist
    obtain ⟨n, hn, hfirst⟩ :=
      hclaim _ _ _ _ _ _ _ (fun _ => rfl) hrun hlist hok ⟨text "a", 5⟩ (by decide +kernel)
    obtain rfl : n = ⟨text "a", by decide⟩ := Name.bytes_injective hn
    revert hfirst
    decide +kernel

/-- A directory with a foreign file. -/
def hostsDisk : Disk :=
    .directory (OrdMap.empty.insert ⟨text "hosts", by decide⟩ (.file (text "foreign")))

/-- Calls for it: a domain is added in two spellings, the name of the foreign file is refused, and
another domain is added and removed. -/
def hostsCalls : List Done × Disk :=
  let _ := quadPlatform
  hostsDisk.playAll [Disk.playAdd defaultResolver 5 (some (text "Example.COM.")),
    Disk.playAdd defaultResolver 7 (some (text "example.com")),
      Disk.playAdd defaultResolver 8 (some (text "hosts")),
    Disk.playAdd defaultResolver 9 (some (text "b")),
      Disk.playRemove defaultResolver (some (text "B."))]

theorem run_hostsCalls :
    Run (@Step quadPlatform defaultResolver) hostsDisk hostsCalls.1 hostsCalls.2 := by
  let _ := quadPlatform
  refine Disk.run_playAll (fun play hplay => ?_) hostsDisk
  simp only [List.mem_cons, List.not_mem_nil, or_false] at hplay
  rcases hplay with rfl | rfl | rfl | rfl | rfl
  all_goals first
    | exact Disk.step_playAdd _ _ _
    | exact Disk.step_playRemove _ _

/-- The foreign file is what it was, and of the two domains the one that was not removed is
listed. -/
theorem managed_of_run_hosts : ∃ domains : List DomainEntry,
    (@Disk.playList quadPlatform defaultResolver hostsCalls.2).2.1 = .ok domains ∧
      ⟨text "example.com", 5⟩ ∈ domains ∧
      (∀ createdAt, ⟨text "b", createdAt⟩ ∉ domains) ∧
      hostsCalls.2.entries.find ⟨text "hosts", by decide⟩ = some (.file (text "foreign")) := by
  let _ := quadPlatform
  have hfind : ∀ n e, hostsDisk.entries.find n = some e → n.bytes = text "hosts" ∧
      e = .file (text "foreign") := by
    intro n e he
    rw [hostsDisk, Disk.entries, OrdMap.find_insert] at he
    split_ifs at he with hn
    · exact ⟨by rw [hn], (Option.some.inj he).symm⟩
    · cases he
  have hclear : Clear hostsDisk.entries := by
    intro n e _ he
    obtain ⟨-, rfl⟩ := hfind n e he
    rfl
  have hnone : ∀ n, managedAt hostsDisk.entries n = none := by
    intro n
    cases he : hostsDisk.entries.find n with
    | none => rw [managedAt, he]
    | some e =>
      obtain ⟨-, rfl⟩ := hfind n e he
      rw [managedAt_of_file he]
      decide
  obtain ⟨hforeign, hlisted⟩ := managed_of_run run_hostsCalls
  obtain ⟨domains, hresult, -, -, hdomains⟩ :=
    hlisted _ _ _ (hostsCalls.2.exec_playList defaultResolver) (by decide +kernel)
  refine ⟨domains, hresult, ?_, fun createdAt hmem => ?_, ?_⟩
  · have hsince : recorded (since ⟨text "example.com", by decide⟩ hostsCalls.1) = some 5 := by
      decide +kernel
    exact (hdomains hclear hnone _).mpr ⟨_, rfl, hsince⟩
  · obtain ⟨n, hn, hrecorded⟩ := (hdomains hclear hnone _).mp hmem
    obtain rfl : n = ⟨text "b", by decide⟩ := Name.bytes_injective hn
    have hsince : recorded (since ⟨text "b", by decide⟩ hostsCalls.1) = none := by decide +kernel
    rw [hsince] at hrecorded
    cases hrecorded
  · exact hforeign hclear.unlinked _ _ (by decide) (by decide +kernel) (by decide +kernel)

end IpRouter.DomainManager
