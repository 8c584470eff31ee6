import IpRouter.DomainManager.ValidDomain
import IpRouter.RouteManager.Basic

/-!
# The resolver directory

`domain_manager::add`, `remove` and `list` as programs over the calls they make,
and the directory they work on: a map from names to regular files, symbolic links
to other names of the directory, and other objects.

What a call may answer is `Disk.Answers`. Every call may fail, and what fails
changes nothing, except that a write that fails leaves a part of the file. A file
that is read is read as a whole. Opening a name for writing follows links, as
`std::ofstream` does; an object that is neither a file nor a link may be opened
too, and what is written to it shows nowhere in the directory.

A file is managed when its first line is `managedHeader`. `add` writes the new
file beside the old one, under a name that begins with `.ip-router-`, and renames
it.
-/

namespace IpRouter.DomainManager

open Theory RouteManager

/-! ### The directory -/

/-- A name is not empty, and holds neither a slash nor a NUL. -/
def isName (bytes : Bytes) : Bool := bytes ≠ [] && bytes.all fun b => b ≠ 47 && b ≠ 0

theorem isName_iff {bytes : Bytes} : isName bytes = true ↔
    bytes ≠ [] ∧ ∀ b ∈ bytes, b ≠ 47 ∧ b ≠ 0 := by
  simp [isName]

/-- The name of an entry. -/
structure Name where
  /-- Its bytes. -/
  bytes : Bytes
  /-- They are a name. -/
  valid : isName bytes = true
  deriving DecidableEq

theorem Name.bytes_injective : Function.Injective Name.bytes := by
  rintro ⟨a, _⟩ ⟨b, _⟩ rfl
  rfl

/-- Names are ordered as texts. -/
instance nameLinearOrder : LinearOrder Name := LinearOrder.lift' Name.bytes Name.bytes_injective

theorem Name.lt_iff {a b : Name} : a < b ↔ a.bytes < b.bytes := Iff.rfl

/-- What a name of the directory stands for. -/
inductive Entry where
  /-- A regular file. -/
  | file (content : Bytes)
  /-- A symbolic link to the entry `target` of the directory. -/
  | link (target : Name)
  /-- Another object. -/
  | other
  deriving DecidableEq

/-- `S_ISREG`. -/
def Entry.isRegular : Entry → Bool
  | .file _ => true
  | _ => false

/-- The names of the directory, except `.` and `..`. -/
abbrev Entries := OrdMap Name Entry

/-- What the path `resolver_directory` stands for. -/
inductive Disk where
  /-- Nothing. -/
  | absent
  /-- Something that is no directory. -/
  | occupied
  /-- A directory. -/
  | directory (entries : Entries)

/-- The entries of the directory, if there is one. -/
def Disk.entries : Disk → Entries
  | .directory entries => entries
  | _ => OrdMap.empty

/-- The bytes as a name, if they can be one. -/
def Name.ofBytes (bytes : Bytes) : Option Name :=
  if h : isName bytes = true then some ⟨bytes, h⟩ else none

@[simp] theorem Name.ofBytes_bytes (n : Name) : Name.ofBytes n.bytes = some n := dif_pos n.valid

/-- The entry of the directory a path leads to. -/
def entryName (directory path : Bytes) : Option Name :=
  match (components path).drop (components directory).length with
  | [name] => if components path = components directory ++ [name] then Name.ofBytes name else none
  | _ => none

/-- Opening the name `n` opens the entry `n'`: links are followed. -/
inductive Leads (es : Entries) : Name → Name → Prop
  /-- The name is no link. -/
  | here {n : Name} : (∀ target, es.find n ≠ some (.link target)) → Leads es n n
  /-- The name is a link. -/
  | link {n target n' : Name} : es.find n = some (.link target) → Leads es target n' → Leads es n n'

/-- What an entry becomes when `content` is written to it. -/
def Entries.write (es : Entries) (n : Name) (content : Bytes) : Entries :=
  match es.find n with
  | some .other => es
  | _ => es.insert n (.file content)

/-! ### Calls -/

/-- `ENOENT`. -/
def enoent : ℤ := 2

/-- What `stat` says about the directory. -/
inductive StatReply where
  /-- It is a directory. -/
  | directory
  /-- It is something else. -/
  | notDirectory
  /-- The call fails. -/
  | failed (code : ℤ)

/-- What `lstat` says about an entry. -/
inductive LstatReply where
  /-- It is there. -/
  | found (regular : Bool)
  /-- The call fails. -/
  | failed (code : ℤ)

/-- What the `readdir` calls deliver until one delivers nothing. -/
structure Listing where
  /-- The names. -/
  names : List Bytes
  /-- Whether the end was reached, and not an error; the program does not look. -/
  complete : Bool

/-- The calls the domain manager makes. -/
inductive DiskCall where
  /-- `time(NULL)`. -/
  | time
  /-- `getpid()`. -/
  | getpid
  /-- `stat` on the directory. -/
  | stat
  /-- `mkdir` on the directory. -/
  | mkdir
  /-- `lstat`. -/
  | lstat (path : Bytes)
  /-- Open a file and read it. -/
  | read (path : Bytes)
  /-- Open a file for writing, and make it empty. -/
  | openTruncate (path : Bytes)
  /-- Write the content of a file that was opened so, and flush it. -/
  | write (path content : Bytes)
  /-- `unlink`. -/
  | unlink (path : Bytes)
  /-- `rename`. -/
  | rename (source target : Bytes)
  /-- `opendir` on the directory. -/
  | opendir
  /-- `readdir` until it delivers nothing. -/
  | readdir

/-- What each call answers; where it is an optional number, the number is the `errno` of a
failure. -/
def DiskCall.Reply : DiskCall → Type
  | .time | .getpid => ℤ
  | .stat => StatReply
  | .lstat _ => LstatReply
  | .read _ => Option Bytes
  | .write _ _ => Bool
  | .mkdir | .openTruncate _ | .unlink _ | .rename _ _ | .opendir => Option ℤ
  | .readdir => Listing

/-- A program of the domain manager. -/
abbrev DiskProg := Prog DiskCall DiskCall.Reply

/-- The calls of such a program, with their answers. -/
abbrev DiskEvent := Event DiskCall DiskCall.Reply

/-- The call `c`, with its answer. -/
abbrev ask (c : DiskCall) : DiskProg c.Reply := Prog.lift c

/-- `now` is a 64-bit time. -/
def IsTime (now : ℤ) : Prop := int64Min ≤ now ∧ now ≤ int64Max

/-- **What the file system may answer, and what that changes.** -/
def Disk.Answers (r : Resolver) (d : Disk) : (c : DiskCall) → c.Reply → Disk → Prop
  | .time, now, d' => IsTime now ∧ d' = d
  | .getpid, _, d' => d' = d
  | .stat, .directory, d' => (∃ es, d = .directory es) ∧ d' = d
  | .stat, .notDirectory, d' => d = .occupied ∧ d' = d
  | .stat, .failed code, d' => (code = enoent → d = .absent) ∧ d' = d
  | .mkdir, none, d' => d = .absent ∧ d' = .directory OrdMap.empty
  | .mkdir, some _, d' => d' = d
  | .lstat path, .found regular, d' =>
    (∃ n e, entryName r.directory path = some n ∧ d.entries.find n = some e ∧
      regular = e.isRegular) ∧ d' = d
  | .lstat path, .failed code, d' =>
    (code = enoent → ∀ n, entryName r.directory path = some n → d.entries.find n = none) ∧ d' = d
  | .read path, some content, d' =>
    (∃ n n', entryName r.directory path = some n ∧ Leads d.entries n n' ∧
      (d.entries.find n' = some (.file content) ∨ d.entries.find n' = some .other)) ∧ d' = d
  | .read _, none, d' => d' = d
  | .openTruncate path, none, d' =>
    ∃ es n n', d = .directory es ∧ entryName r.directory path = some n ∧ Leads es n n' ∧
      d' = .directory (es.write n' [])
  | .openTruncate _, some _, d' => d' = d
  | .write path content, good, d' =>
    (good = false ∧ d' = d) ∨
    ∃ es n n' written, d = .directory es ∧ entryName r.directory path = some n ∧ Leads es n n' ∧
      written <+: content ∧ (good = true → written = content) ∧
        d' = .directory (es.write n' written)
  | .unlink path, none, d' =>
    ∃ es n e, d = .directory es ∧ entryName r.directory path = some n ∧ es.find n = some e ∧
      d' = .directory (es.erase n)
  | .unlink _, some _, d' => d' = d
  | .rename source target, none, d' =>
    ∃ es n m e, d = .directory es ∧ entryName r.directory source = some n ∧
      entryName r.directory target = some m ∧
      es.find n = some e ∧ d' = .directory ((es.erase n).insert m e)
  | .rename _ _, some _, d' => d' = d
  | .opendir, none, d' => (∃ es, d = .directory es) ∧ d' = d
  | .opendir, some code, d' => (code = enoent → d = .absent) ∧ d' = d
  | .readdir, listing, d' =>
    (∃ rest, (listing.names ++ rest).Perm ([46] :: [46, 46] :: d.entries.keys.map Name.bytes) ∧
      (listing.complete = true → rest = [])) ∧ d' = d

/-- The entry that opening `n` opens, through one link at most. -/
def Entries.opened (es : Entries) (n : Name) : Option Name :=
  match es.find n with
  | some (.link target) =>
    match es.find target with
    | some (.link _) => none
    | _ => some target
  | _ => some n

theorem leads_of_opened {es : Entries} {n n' : Name} (h : es.opened n = some n') :
    Leads es n n' := by
  unfold Entries.opened at h
  split at h
  next target hlink =>
    split at h
    · cases h
    next hne =>
      obtain rfl := Option.some.inj h
      exact .link hlink (.here fun t ht => hne t ht)
  next hne =>
    obtain rfl := Option.some.inj h
    exact .here fun t ht => hne t ht

/-- The 64-bit time next to `now`. -/
def clampTime (now : ℤ) : ℤ := max int64Min (min int64Max now)

/-- A file system on which nothing fails that need not, with a clock that reads `now`. -/
def Disk.calm (r : Resolver) (now : ℤ) (d : Disk) : (c : DiskCall) → c.Reply × Disk
  | .time => (clampTime now, d)
  | .getpid => ((1 : ℤ), d)
  | .stat =>
    match d with
    | .absent => (.failed enoent, d)
    | .occupied => (.notDirectory, d)
    | .directory _ => (.directory, d)
  | .mkdir =>
    match d with
    | .absent => (none, .directory OrdMap.empty)
    | _ => (some 17, d)
  | .lstat path =>
    match entryName r.directory path with
    | none => (.failed 20, d)
    | some n => ((d.entries.find n).elim (.failed enoent) fun e => .found e.isRegular, d)
  | .read path =>
    match (entryName r.directory path).bind d.entries.find with
    | some (.file content) => (some content, d)
    | _ => (none, d)
  | .openTruncate path =>
    match d, entryName r.directory path with
    | .directory es, some n =>
      (es.opened n).elim (some 40, d) fun n' => (none, .directory (es.write n' []))
    | _, _ => (some enoent, d)
  | .write path content =>
    match d, entryName r.directory path with
    | .directory es, some n =>
      (es.opened n).elim (false, d) fun n' => (true, .directory (es.write n' content))
    | _, _ => (false, d)
  | .unlink path =>
    match d, entryName r.directory path with
    | .directory es, some n =>
      (es.find n).elim (some enoent, d) fun _ => (none, .directory (es.erase n))
    | _, _ => (some enoent, d)
  | .rename source target =>
    match d, entryName r.directory source, entryName r.directory target with
    | .directory es, some n, some m =>
      (es.find n).elim (some enoent, d) fun e => (none, .directory ((es.erase n).insert m e))
    | _, _, _ => (some enoent, d)
  | .opendir =>
    match d with
    | .absent => (some enoent, d)
    | .occupied => (some 20, d)
    | .directory _ => (none, d)
  | .readdir => (⟨[46] :: [46, 46] :: d.entries.keys.map Name.bytes, true⟩, d)

/-- It answers as a file system may. -/
theorem Disk.answers_calm (r : Resolver) (now : ℤ) (d : Disk) (c : DiskCall) :
    d.Answers r c (Disk.calm r now d c).1 (Disk.calm r now d c).2 := by
  cases c with
  | time => exact ⟨⟨le_max_left _ _, max_le (by decide) (min_le_left _ _)⟩, rfl⟩
  | getpid => rfl
  | stat =>
    cases d with
    | absent => exact ⟨fun _ => rfl, rfl⟩
    | occupied => exact ⟨rfl, rfl⟩
    | directory es => exact ⟨⟨es, rfl⟩, rfl⟩
  | mkdir =>
    cases d with
    | absent => exact ⟨rfl, rfl⟩
    | occupied => rfl
    | directory es => rfl
  | lstat path =>
    simp only [Disk.calm]
    split
    next => exact ⟨fun h => absurd h (by decide), rfl⟩
    next n hn =>
      cases he : d.entries.find n with
      | none =>
        refine ⟨fun _ m hm => ?_, rfl⟩
        obtain rfl := Option.some.inj (hn.symm.trans hm)
        exact he
      | some e => exact ⟨⟨n, e, hn, he, rfl⟩, rfl⟩
  | read path =>
    simp only [Disk.calm]
    split
    next content h =>
      obtain ⟨n, hn, he⟩ := Option.bind_eq_some_iff.mp h
      exact ⟨⟨n, n, hn, .here (fun t ht => by cases he.symm.trans ht), Or.inl he⟩, rfl⟩
    next => rfl
  | openTruncate path =>
    simp only [Disk.calm]
    split
    next es n hn =>
      cases ho : es.opened n with
      | none => rfl
      | some n' => exact ⟨es, n, n', rfl, hn, leads_of_opened ho, rfl⟩
    next => rfl
  | write path content =>
    simp only [Disk.calm]
    split
    next es n hn =>
      cases ho : es.opened n with
      | none => exact Or.inl ⟨rfl, rfl⟩
      | some n' =>
        exact Or.inr ⟨es, n, n', content, rfl, hn, leads_of_opened ho, List.prefix_refl _,
          fun _ => rfl, rfl⟩
    next => exact Or.inl ⟨rfl, rfl⟩
  | unlink path =>
    simp only [Disk.calm]
    split
    next es n hn =>
      cases he : es.find n with
      | none => rfl
      | some e => exact ⟨es, n, e, rfl, hn, he, rfl⟩
    next => rfl
  | rename source target =>
    simp only [Disk.calm]
    split
    next es n m hn hm =>
      cases he : es.find n with
      | none => rfl
      | some e => exact ⟨es, n, m, e, rfl, hn, hm, he, rfl⟩
    next => rfl
  | opendir =>
    cases d with
    | absent => exact ⟨fun _ => rfl, rfl⟩
    | occupied => exact ⟨fun h => absurd h (by decide), rfl⟩
    | directory es => exact ⟨⟨es, rfl⟩, rfl⟩
  | readdir => exact ⟨⟨[], List.append_nil _ ▸ List.Perm.refl _, fun _ => rfl⟩, rfl⟩

/-! ### Managed files -/

/-- `managed_header`. -/
def managedHeader : Bytes := text "# managed by ip-router"

/-- The beginning of the second line. -/
def createdPrefix : Bytes := text "# created_at="

/-- What `read_managed_file` finds in a file: the time of its creation, if it is managed. -/
def parseManaged (content : Bytes) : Option ℤ :=
  match getlines content with
  | [] => none
  | header :: rest =>
    if header ≠ managedHeader then none
    else
      match rest with
      | [] => some 0
      | line :: _ =>
        if createdPrefix <+: line then
          some (strtoll (line.drop createdPrefix.length)).value else some 0

/-- `read_managed_file`. -/
def readManagedFile (path : Bytes) : DiskProg (Option ℤ) := do
  match ← ask (.read path) with
  | none => return none
  | some content => return parseManaged content

/-- What `add` writes. -/
def encodeManaged (r : Resolver) (createdAt : ℤ) : Bytes :=
  managedHeader ++ 10 ::
    (createdPrefix ++ (decimal createdAt ++ 10 ::
      (text "nameserver " ++ (r.nameserver ++ 10 ::
        (text "port " ++ (decimal r.port ++ 10 ::
          (text "search_order " ++ (decimal r.searchOrder ++ [10]))))))))

/-! ### The operations -/

variable [Platform]

/-- `ensure_directory`. -/
def ensureDirectory (r : Resolver) : DiskProg (Except Bytes Unit) := do
  match ← ask .stat with
  | .directory => return .ok ()
  | .notDirectory => return .error (text "resolver path is not a directory: " ++ r.directory)
  | .failed code =>
    if code ≠ enoent then return .error (setError "stat resolver directory" code)
    else
      match ← ask .mkdir with
      | none => return .ok ()
      | some code => return .error (setError "create resolver directory" code)

omit [Platform] in
/-- The name of the file `add` writes first. -/
def temporaryName (pid : ℤ) (domain : Bytes) : Bytes :=
  text ".ip-router-" ++ (decimal pid ++ (text "-" ++ (domain ++ text ".tmp")))

/-- The second half of `add`: write the file beside the old one, and rename it. -/
def replaceFile (r : Resolver) (path domain : Bytes) (createdAt : ℤ) :
    DiskProg (Except Bytes Unit) := do
  let pid ← ask .getpid
  let temporary := r.directory ++ 47 :: temporaryName pid domain
  match ← ask (.openTruncate temporary) with
  | some code => return .error (setError "open temporary resolver file" code)
  | none =>
    match ← ask (.write temporary (encodeManaged r createdAt)) with
    | false => do
      let _ ← ask (.unlink temporary)
      return .error (text "write resolver file failed")
    | true =>
      match ← ask (.rename temporary path) with
      | none => return .ok ()
      | some code => do
        let _ ← ask (.unlink temporary)
        return .error (setError "replace resolver file" code)

/-- `S_ISREG(info.st_mode)` and `read_managed_file`. -/
def inspectFile (path : Bytes) (regular : Bool) : DiskProg (Option ℤ) :=
  if regular then readManagedFile path else return none

/-- `domain_manager::add`. -/
def add (r : Resolver) (value : Option Bytes) : DiskProg (Except Bytes Unit) :=
  let domain := validDomain value []
  if ¬ domain.accepted then return .error domain.error
  else do
    match ← ensureDirectory r with
    | .error message => return .error message
    | .ok _ =>
      let path := pathJoin r.directory domain.normalized
      let now ← ask .time
      match ← ask (.lstat path) with
      | .found regular =>
        match ← inspectFile path regular with
        | none =>
          return .error
            (text "resolver file already exists and is not managed by ip-router: " ++ path)
        | some existing =>
          replaceFile r path domain.normalized (if 0 < existing then existing else now)
      | .failed code =>
        if code ≠ enoent then return .error (setError "inspect resolver file" code)
        else replaceFile r path domain.normalized now

/-- `domain_manager::remove`. -/
def remove (r : Resolver) (value : Option Bytes) : DiskProg (Except Bytes Unit) :=
  let domain := validDomain value []
  if ¬ domain.accepted then return .error domain.error
  else do
    let path := pathJoin r.directory domain.normalized
    match ← ask (.lstat path) with
    | .failed code =>
      if code = enoent then return .error (text "domain not found: " ++ domain.normalized)
      else return .error (setError "inspect resolver file" code)
    | .found regular =>
      match ← inspectFile path regular with
      | none =>
        return .error (text "refusing to delete resolver file not managed by ip-router: " ++ path)
      | some _ =>
        match ← ask (.unlink path) with
        | none => return .ok ()
        | some code => return .error (setError "delete resolver file" code)

/-- `domain_entry`. -/
structure DomainEntry where
  /-- The domain. -/
  domain : Bytes
  /-- When it was added. -/
  createdAt : ℤ
  deriving DecidableEq

omit [Platform] in
/-- The body of the loop of `list`, at one name. -/
def listEntry (r : Resolver) (domains : List DomainEntry) (name : Bytes) :
    DiskProg (List DomainEntry) :=
  if name.head? = some 46 then return domains
  else
    let domain := validDomain (some name) []
    if ¬ domain.accepted ∨ domain.normalized ≠ name then return domains
    else do
      let path := pathJoin r.directory name
      match ← ask (.lstat path) with
      | .failed _ => return domains
      | .found regular =>
        match ← inspectFile path regular with
        | none => return domains
        | some createdAt => return domains ++ [⟨name, createdAt⟩]

/-- `domain_manager::list`. -/
def list (r : Resolver) : DiskProg (Except Bytes (List DomainEntry)) := do
  match ← ask .opendir with
  | some code =>
    if code = enoent then return .ok [] else return .error (setError "open resolver directory" code)
  | none => do
    let listing ← ask .readdir
    let domains ← Prog.loop (listEntry r) listing.names []
    return .ok (domains.mergeSort fun left right => left.domain ≤ right.domain)

end IpRouter.DomainManager
