import IpRouter.Theory.OrdMap
import IpRouter.Theory.Prog
import IpRouter.Theory.SharedRefs
import IpRouter.Theory.Text

/-!
# The route manager's data and its host

The data model of `route_manager.cpp`: the index `installed_routes`, a map from
keys to maps from target addresses to `route_metadata`, both walked in the order
of `acl::string`; and what the process runs on: the two files it keeps, the
system route table, and the clock.

Every effect of the route manager is one of the calls `HostCall`. What a call may
answer is `Host.Answers`: a file is replaced as a whole or left as it was (it is
written beside and renamed), the route table gains a route when
`add_system_route` succeeds and loses exactly the route named when
`delete_system_route` succeeds, and a call that fails changes nothing. Which
calls fail, and what the clock reads, is up to the host.

The route table is a map from target to gateway. Both are kept as text: the
callers only pass addresses `valid_ipv4` accepts, and those are canonical, so one
address has one text.

`Host.answer` is a host that takes its decisions from a list, for runs on
concrete inputs.
-/

namespace IpRouter.RouteManager

open Theory

/-- The functions of acl and libc that decide what the route manager accepts and writes. -/
class Platform where
  /-- `acl_inet_pton(AF_INET, value, &address) > 0`. -/
  aclInetPton : Bytes → Bool
  /-- `strerror(code)`. -/
  strerror : ℤ → Bytes

/-- A part of a canonical dotted quad: a number up to 255 without leading zeros. -/
def isOctet (value : Bytes) : Bool := ofDigits value ≤ 255 && value = digits (ofDigits value)

/-- A canonical IPv4 address. -/
def dottedQuad (value : Bytes) : Bool :=
  let parts := value.splitOn 46
  parts.length = 4 && parts.all isOctet

/-- A platform that takes exactly the canonical addresses. -/
abbrev quadPlatform : Platform := ⟨dottedQuad, fun code => text "errno " ++ decimal code⟩

/-- `route_manager::valid_ipv4`. -/
def validIpv4 [Platform] (value : Option Bytes) : Bool :=
  match value with
  | none => false
  | some v => v ≠ [] && Platform.aclInetPton v

/-- `set_error`. -/
def setError [Platform] (operation : String) (code : ℤ) : Bytes :=
  text operation ++ text " failed: " ++ Platform.strerror code ++ text " (errno=" ++
    decimal code ++ text ")"

/-! ### The index -/

/-- `route_metadata`. -/
structure RouteMetadata where
  /-- The next hop. -/
  gateway : Bytes
  /-- The configured time to live in seconds, `0` for a permanent route. -/
  ttl : ℤ
  /-- When the route expires, `0` for a permanent route. -/
  expiresAt : ℤ
  /-- When the expiration worker last tried to delete the route. -/
  lastAttempt : ℤ := 0
  deriving DecidableEq

/-- `key_routes`: the targets of one key. -/
abbrev KeyRoutes := OrdMap Bytes RouteMetadata

/-- `installed_routes`: the targets of every key. -/
abbrev Routes := OrdMap Bytes KeyRoutes

namespace Routes

/-- `installed_routes[key][ip]`, when both exist. -/
def lookup (m : Routes) (key ip : Bytes) : Option RouteMetadata :=
  (OrdMap.find m key).bind (OrdMap.find · ip)

/-- `installed_routes[key][ip] = metadata`. -/
def set (m : Routes) (key ip : Bytes) (metadata : RouteMetadata) : Routes :=
  OrdMap.insert m key (((OrdMap.find m key).getD OrdMap.empty).insert ip metadata)

/-- Erase `ip` from the group of `key`, which stays even when it becomes empty. -/
def eraseTarget (m : Routes) (key ip : Bytes) : Routes :=
  match OrdMap.find m key with
  | none => m
  | some group => OrdMap.insert m key (group.erase ip)

/-- Erase the group of `key` if it is empty. -/
def dropIfEmpty (m : Routes) (key : Bytes) : Routes :=
  match OrdMap.find m key with
  | none => m
  | some group => if group.isEmpty then OrdMap.erase m key else m

/-- Erase `destination` from one group, if it is there with this `gateway`. -/
def forgetTarget (group : KeyRoutes) (destination gateway : Bytes) : KeyRoutes :=
  match OrdMap.find group destination with
  | none => group
  | some target => if target.gateway = gateway then OrdMap.erase group destination else group

/-- Erase `destination` from every group that reaches it through `gateway`, and every group that is
empty then: the loops of `remove` and `remove_system`. -/
def forget (m : Routes) (destination gateway : Bytes) : Routes :=
  OrdMap.filterMap (fun _ group =>
    if (forgetTarget group destination gateway).isEmpty then none
      else some (forgetTarget group destination gateway)) m

/-- The first group that holds `ip`, with what it holds. -/
def firstReference (m : Routes) (ip : Bytes) : Option (Bytes × RouteMetadata) :=
  m.entries.findSome? fun group => (group.2.find ip).map (group.1, ·)

/-- Whether a group other than that of `key` holds `ip`. -/
def referencedElsewhere (m : Routes) (key ip : Bytes) : Bool :=
  m.entries.any fun group => group.1 ≠ key && (group.2.find ip).isSome

/-- The targets of `key`, in order. -/
def targets (m : Routes) (key : Bytes) : List Bytes := ((OrdMap.find m key).getD OrdMap.empty).keys

/-- No key has an empty target map. -/
def NoEmpty (m : Routes) : Prop :=
  ∀ key group, OrdMap.find m key = some group → group.isEmpty = false

/-- Which key reaches which target, and through which gateway. -/
def refs (m : Routes) : Refs Bytes Bytes Bytes := fun key ip => (m.lookup key ip).map (·.gateway)

variable {m : Routes}

@[simp] theorem lookup_empty (key ip : Bytes) : lookup OrdMap.empty key ip = none := rfl

theorem refs_eq_some {key ip gateway : Bytes} :
    m.refs key ip = some gateway ↔ ∃ metadata, m.lookup key ip = some metadata ∧
      metadata.gateway = gateway :=
  Option.map_eq_some_iff

theorem refs_eq_none {key ip : Bytes} : m.refs key ip = none ↔ m.lookup key ip = none :=
  Option.map_eq_none_iff

theorem lookup_set (m : Routes) (key ip : Bytes) (metadata : RouteMetadata) (key' ip' : Bytes) :
    (m.set key ip metadata).lookup key' ip' = if key' = key ∧ ip' = ip then
      some metadata else m.lookup key' ip' := by
  simp only [lookup, set, OrdMap.find_insert]
  by_cases hk : key' = key
  · subst hk
    cases hg : OrdMap.find m key' <;> simp [OrdMap.find_insert]
  · simp [hk]

theorem lookup_eraseTarget (m : Routes) (key ip key' ip' : Bytes) :
    (m.eraseTarget key ip).lookup key' ip' = if key' = key ∧ ip' = ip then
      none else m.lookup key' ip' := by
  unfold eraseTarget
  cases hg : OrdMap.find m key with
  | none =>
    by_cases hk : key' = key ∧ ip' = ip
    · simp [hk, lookup, hg]
    · simp [hk]
  | some group =>
    simp only [lookup, OrdMap.find_insert]
    by_cases hk : key' = key
    · subst hk
      simp [hg, OrdMap.find_erase]
    · simp [hk]

theorem lookup_dropIfEmpty (m : Routes) (key key' ip : Bytes) :
    (m.dropIfEmpty key).lookup key' ip = m.lookup key' ip := by
  unfold dropIfEmpty
  cases hg : OrdMap.find m key with
  | none => rfl
  | some group =>
    simp only
    split_ifs with he
    · simp only [lookup, OrdMap.find_erase]
      by_cases hk : key' = key
      · subst hk
        simp [hg, OrdMap.isEmpty_iff.mp he]
      · simp [hk]
    · rfl

theorem find_forgetTarget (group : KeyRoutes) (destination gateway ip : Bytes) :
    OrdMap.find (forgetTarget group destination gateway) ip =
      if ip = destination ∧ (OrdMap.find group ip).map (·.gateway) = some gateway then none
        else OrdMap.find group ip := by
  unfold forgetTarget
  by_cases hip : ip = destination
  · subst hip
    cases ht : OrdMap.find group ip with
    | none => simp [ht]
    | some target => by_cases hgw : target.gateway = gateway <;> simp [hgw, ht, OrdMap.find_erase]
  · cases ht : OrdMap.find group destination with
    | none => simp [hip]
    | some target => by_cases hgw : target.gateway = gateway <;> simp [hgw, hip, OrdMap.find_erase]

/-- An index whose groups are rewritten by `f`, less those that are empty then. -/
theorem lookup_rewritten (f : KeyRoutes → KeyRoutes) (m : Routes) (key ip : Bytes) :
    lookup (OrdMap.filterMap (fun _ group => if (f group).isEmpty then none else some (f group)) m)
      key ip =
      (OrdMap.find m key).bind fun group => OrdMap.find (f group) ip := by
  simp only [lookup, OrdMap.find_filterMap]
  cases OrdMap.find m key with
  | none => rfl
  | some group =>
    simp only [Option.bind_some]
    split_ifs with he
    · exact (OrdMap.isEmpty_iff.mp he ip).symm
    · rfl

theorem noEmpty_rewritten (f : KeyRoutes → KeyRoutes) (m : Routes) :
    NoEmpty
      (OrdMap.filterMap (fun _ group => if (f group).isEmpty then none else some (f group)) m) := by
  intro key group hg
  rw [OrdMap.find_filterMap] at hg
  obtain ⟨old, -, hg⟩ := Option.bind_eq_some_iff.mp hg
  split_ifs at hg with he
  obtain rfl := Option.some.inj hg
  simpa using he

theorem lookup_forget (m : Routes) (destination gateway key ip : Bytes) :
    (m.forget destination gateway).lookup key ip =
      if ip = destination ∧ m.refs key ip = some gateway then none else m.lookup key ip := by
  rw [forget, lookup_rewritten, refs, lookup]
  cases OrdMap.find m key with
  | none => simp
  | some group => exact find_forgetTarget group destination gateway ip

/-- The walk over the groups finds nothing when no key holds the target. -/
theorem firstReference_eq_none {ip : Bytes} : m.firstReference ip = none ↔
    ∀ key, m.lookup key ip = none := by
  simp only [firstReference, List.findSome?_eq_none_iff, Option.map_eq_none_iff, lookup]
  constructor
  · intro h key
    cases hg : OrdMap.find m key with
    | none => rfl
    | some group => exact h (key, group) (OrdMap.mem_entries_iff.mpr hg)
  · intro h group hg
    simpa [OrdMap.mem_entries_iff.mp hg] using h group.1

/-- What it finds, a key holds. -/
theorem lookup_of_firstReference {ip key : Bytes} {metadata : RouteMetadata}
    (h : m.firstReference ip = some (key, metadata)) : m.lookup key ip = some metadata := by
  obtain ⟨group, hg, hm⟩ := List.exists_of_findSome?_eq_some h
  obtain ⟨target, ht, heq⟩ := Option.map_eq_some_iff.mp hm
  obtain ⟨rfl, rfl⟩ := Prod.mk.injEq .. ▸ heq
  simp [lookup, OrdMap.mem_entries_iff.mp hg, ht]

theorem referencedElsewhere_iff {key ip : Bytes} :
    m.referencedElsewhere key ip = true ↔ ∃ key' metadata, key' ≠ key ∧
      m.lookup key' ip = some metadata := by
  simp only [referencedElsewhere, List.any_eq_true, Bool.and_eq_true, decide_eq_true_eq,
    Option.isSome_iff_exists]
  constructor
  · rintro ⟨group, hg, hne, metadata, hm⟩
    exact ⟨group.1, metadata, hne, by simp [lookup, OrdMap.mem_entries_iff.mp hg, hm]⟩
  · rintro ⟨key', metadata, hne, hm⟩
    obtain ⟨group, hg, ht⟩ := Option.bind_eq_some_iff.mp hm
    exact ⟨(key', group), OrdMap.mem_entries_iff.mpr hg, hne, metadata, ht⟩

theorem mem_targets_iff {key ip : Bytes} : ip ∈ m.targets key ↔
    ∃ metadata, m.lookup key ip = some metadata := by
  simp only [targets, OrdMap.mem_keys_iff, lookup]
  cases OrdMap.find m key <;> simp

/-! ### Empty groups -/

theorem NoEmpty.empty : NoEmpty OrdMap.empty := fun _ _ h => by simp at h

theorem NoEmpty.set (h : m.NoEmpty) (key ip : Bytes) (metadata : RouteMetadata) :
    (m.set key ip metadata).NoEmpty := by
  intro key' group hg
  rw [Routes.set, OrdMap.find_insert] at hg
  split_ifs at hg with hk
  · obtain rfl := Option.some.inj hg
    exact OrdMap.isEmpty_insert _ _ _
  · exact h key' group hg

theorem noEmpty_forget (m : Routes) (destination gateway : Bytes) :
    (m.forget destination gateway).NoEmpty :=
  noEmpty_rewritten _ m

/-- No key but perhaps `key` has an empty target map. -/
def NoEmptyBut (key : Bytes) (m : Routes) : Prop :=
  ∀ key' group, key' ≠ key → OrdMap.find m key' = some group → group.isEmpty = false

theorem NoEmpty.but (h : m.NoEmpty) (key : Bytes) : m.NoEmptyBut key :=
  fun key' group _ => h key' group

theorem NoEmptyBut.set {key : Bytes} (h : m.NoEmptyBut key) (ip : Bytes)
    (metadata : RouteMetadata) :
    (m.set key ip metadata).NoEmptyBut key := by
  intro key' group hne hg
  rw [Routes.set, OrdMap.find_insert, if_neg hne] at hg
  exact h key' group hne hg

theorem NoEmptyBut.eraseTarget {key : Bytes} (h : m.NoEmptyBut key) (ip : Bytes) :
    (m.eraseTarget key ip).NoEmptyBut key := by
  intro key' group hne hg
  unfold Routes.eraseTarget at hg
  split at hg
  · exact h key' group hne hg
  · rw [OrdMap.find_insert, if_neg hne] at hg
    exact h key' group hne hg

theorem NoEmptyBut.dropIfEmpty {key : Bytes} (h : m.NoEmptyBut key) :
    (m.dropIfEmpty key).NoEmpty := by
  intro key' group hg
  unfold Routes.dropIfEmpty at hg
  by_cases hk : key' = key
  · subst hk
    cases hold : OrdMap.find m key' with
    | none => simp [hold] at hg
    | some old =>
      simp only [hold] at hg
      split_ifs at hg with he
      · simp [OrdMap.find_erase] at hg
      · obtain rfl := Option.some.inj (hold.symm.trans hg)
        simpa using he
  · refine h key' group hk ?_
    cases hold : OrdMap.find m key with
    | none => simpa [hold] using hg
    | some old =>
      simp only [hold] at hg
      split_ifs at hg with he
      · simpa [OrdMap.find_erase, hk] using hg
      · exact hg

/-- An index without empty groups is determined by what can be looked up in it. -/
theorem NoEmpty.ext {m' : Routes} (h : m.NoEmpty) (h' : m'.NoEmpty)
    (hl : ∀ key ip, m.lookup key ip = m'.lookup key ip) : m = m' := by
  have hnone : ∀ {m m' : Routes}, m.NoEmpty →
      (∀ key ip, m.lookup key ip = m'.lookup key ip) → ∀ key,
      OrdMap.find m' key = none → OrdMap.find m key = none := by
    intro m m' h hl key hk
    cases hg : OrdMap.find m key with
    | none => rfl
    | some group =>
      have hempty : group.isEmpty = true := OrdMap.isEmpty_iff.mpr fun ip => by
        simpa [lookup, hg, hk] using hl key ip
      rw [h key group hg] at hempty
      cases hempty
  refine OrdMap.ext_find fun key => ?_
  cases hg : OrdMap.find m key with
  | none => exact (hnone h' (fun k i => (hl k i).symm) key hg).symm
  | some group =>
    cases hg' : OrdMap.find m' key with
    | none =>
      rw [hnone h hl key hg'] at hg
      cases hg
    | some group' =>
      refine congrArg some (OrdMap.ext_find fun ip => ?_)
      simpa [lookup, hg, hg'] using hl key ip

end Routes

/-! ### The host -/

/-- `system_route_entry`. -/
structure SystemRouteEntry where
  /-- The target. -/
  ip : Bytes
  /-- The next hop. -/
  gateway : Bytes
  /-- The network interface. -/
  interfaceName : Bytes
  deriving DecidableEq

/-- `AF_INET`. -/
def afInet : ℕ := 2

/-- The functions of libc that make text of addresses and interfaces. -/
class AddressNames where
  /-- `inet_ntop(AF_INET, address, ..)`, on the four bytes of an address. -/
  inetNtop : Bytes → Option Bytes
  /-- `if_indextoname(index, device)`: what is in `device` afterwards, nothing if
  there is no such interface. -/
  ifIndextoname : ℕ → Bytes

/-- Every address has a text. -/
def NtopTotal [AddressNames] : Prop :=
  ∀ address : Bytes, address.length = 4 → ∃ name, AddressNames.inetNtop address = some name

/-- The texts of addresses, and a system with one interface. -/
abbrev sampleNames : AddressNames :=
  ⟨fun address => some ([46].intercalate (address.map fun byte => digits byte.toNat)),
    fun index => if index = 2 then text "eth0" else []⟩

/-- What the process runs on, and what outlives it. -/
structure Host where
  /-- The content of `routes_file`, if the file exists. -/
  routesFile : Option Bytes
  /-- The content of `global_route_file`, if the file exists. -/
  globalFile : Option Bytes
  /-- The system route table: the gateway of every target it has a route for. -/
  kernel : Bytes → Option Bytes
  /-- What the clock read last. -/
  clock : ℤ

/-- How writing a file beside the old one and renaming it over the old one fails. -/
inductive Fault where
  /-- The temporary file cannot be opened. -/
  | openFailed (code : ℤ)
  /-- Writing the temporary file fails. -/
  | writeFailed
  /-- The rename fails. -/
  | renameFailed (code : ℤ)

/-- What reading a file gives. -/
inductive ReadReply where
  /-- There is no such file (`ENOENT`). -/
  | absent
  /-- The file cannot be opened. -/
  | openFailed (code : ℤ)
  /-- Reading it fails. -/
  | readFailed
  /-- The content. -/
  | content (bytes : Bytes)

/-- The calls the route manager makes. -/
inductive HostCall where
  /-- `time(NULL)`. -/
  | time
  /-- Read `routes_file`. -/
  | readRoutes
  /-- Read `global_route_file`. -/
  | readGlobal
  /-- Write `routes_file` beside and rename it. -/
  | replaceRoutes (content : Bytes)
  /-- Write `global_route_file` beside and rename it. -/
  | replaceGlobal (content : Bytes)
  /-- `add_system_route`. -/
  | addSystemRoute (destination gateway : Bytes)
  /-- `delete_system_route`. -/
  | deleteSystemRoute (destination gateway : Bytes)
  /-- `list_system_routes`. -/
  | listSystemRoutes

/-- What each call answers; an error is the text the call leaves. -/
def HostCall.Reply : HostCall → Type
  | .time => ℤ
  | .readRoutes | .readGlobal => ReadReply
  | .replaceRoutes _ | .replaceGlobal _ => Option Fault
  | .addSystemRoute _ _ | .deleteSystemRoute _ _ => Except Bytes Unit
  | .listSystemRoutes => Except Bytes (List SystemRouteEntry)

/-- A program of the route manager. -/
abbrev HostProg := Prog HostCall HostCall.Reply

/-- The calls of such a program, with their answers. -/
abbrev HostEvent := Event HostCall HostCall.Reply

/-- `time(NULL)`. -/
abbrev time : HostProg ℤ := Prog.lift HostCall.time

/-- Read `routes_file`. -/
abbrev readRoutes : HostProg ReadReply := Prog.lift HostCall.readRoutes

/-- Read `global_route_file`. -/
abbrev readGlobal : HostProg ReadReply := Prog.lift HostCall.readGlobal

/-- Replace `routes_file`. -/
abbrev replaceRoutes (content : Bytes) : HostProg (Option Fault) :=
  Prog.lift (HostCall.replaceRoutes content)

/-- Replace `global_route_file`. -/
abbrev replaceGlobal (content : Bytes) : HostProg (Option Fault) :=
  Prog.lift (HostCall.replaceGlobal content)

/-- `add_system_route`. -/
abbrev addSystemRoute (destination gateway : Bytes) : HostProg (Except Bytes Unit) :=
  Prog.lift (HostCall.addSystemRoute destination gateway)

/-- `delete_system_route`. -/
abbrev deleteSystemRoute (destination gateway : Bytes) : HostProg (Except Bytes Unit) :=
  Prog.lift (HostCall.deleteSystemRoute destination gateway)

/-- `list_system_routes`. -/
abbrev listSystemRoutes : HostProg (Except Bytes (List SystemRouteEntry)) :=
  Prog.lift HostCall.listSystemRoutes

/-- A reading of a file with content `file` may give this reply. -/
def ReadReply.Of (file : Option Bytes) : ReadReply → Prop
  | .absent => file = none
  | .content bytes => file = some bytes
  | .openFailed _ | .readFailed => True

/-- **What the host may answer, and what that changes.** -/
def Host.Answers (h : Host) : (c : HostCall) → c.Reply → Host → Prop
  | .time, now, h' => h' = { h with clock := now }
  | .readRoutes, reply, h' => ReadReply.Of h.routesFile reply ∧ h' = h
  | .readGlobal, reply, h' => ReadReply.Of h.globalFile reply ∧ h' = h
  | .replaceRoutes content, none, h' => h' = { h with routesFile := some content }
  | .replaceRoutes _, some _, h' => h' = h
  | .replaceGlobal content, none, h' => h' = { h with globalFile := some content }
  | .replaceGlobal _, some _, h' => h' = h
  | .addSystemRoute destination gateway, .ok _, h' =>
    h' = { h with kernel := Function.update h.kernel destination (some gateway) }
  | .addSystemRoute _ _, .error _, h' => h' = h
  | .deleteSystemRoute destination gateway, .ok _, h' =>
    h.kernel destination = some gateway ∧
      h' = { h with kernel := Function.update h.kernel destination none }
  | .deleteSystemRoute _ _, .error _, h' => h' = h
  | .listSystemRoutes, _, h' => h' = h

/-- The host always answers. -/
theorem Host.answers_total (h : Host) (c : HostCall) : ∃ r h', h.Answers c r h' := by
  cases c with
  | time => exact ⟨h.clock, _, rfl⟩
  | readRoutes | readGlobal => exact ⟨.readFailed, h, trivial, rfl⟩
  | replaceRoutes content | replaceGlobal content => exact ⟨some .writeFailed, h, rfl⟩
  | addSystemRoute destination gateway | deleteSystemRoute destination gateway =>
    exact ⟨.error [], h, rfl⟩
  | listSystemRoutes => exact ⟨.error [], h, rfl⟩

/-- Whether a reading of the clock is `now`. -/
def readsAs (now reading : ℤ) : Bool := reading = now

/-- What a host that follows a script decides at one call. -/
structure Decision where
  /-- Whether the call succeeds, as far as it can. -/
  ok : Bool := true
  /-- What the clock reads. -/
  now : ℤ := 0
  /-- What the route table lists. -/
  listing : List SystemRouteEntry := []

/-- Read a file, if the script lets the call succeed. -/
def ReadReply.ofFile (file : Option Bytes) (ok : Bool) : ReadReply :=
  if ok then file.elim .absent .content else .readFailed

theorem ReadReply.of_ofFile (file : Option Bytes) (ok : Bool) :
    ReadReply.Of file (ReadReply.ofFile file ok) := by
  cases ok
  · trivial
  · cases file <;> rfl

/-- A host that follows a script. -/
def Host.answer (d : Decision) (h : Host) : (c : HostCall) → c.Reply × Host
  | .time => (d.now, { h with clock := d.now })
  | .readRoutes => (ReadReply.ofFile h.routesFile d.ok, h)
  | .readGlobal => (ReadReply.ofFile h.globalFile d.ok, h)
  | .replaceRoutes content =>
    if d.ok then (none, { h with routesFile := some content }) else (some .writeFailed, h)
  | .replaceGlobal content =>
    if d.ok then (none, { h with globalFile := some content }) else (some .writeFailed, h)
  | .addSystemRoute destination gateway =>
    if d.ok then (.ok (), { h with kernel := Function.update h.kernel destination (some gateway) })
    else (.error (text "change route failed"), h)
  | .deleteSystemRoute destination gateway =>
    if d.ok ∧ h.kernel destination = some gateway then
      (.ok (), { h with kernel := Function.update h.kernel destination none })
    else (.error (text "change route failed"), h)
  | .listSystemRoutes =>
    (if d.ok then .ok d.listing else .error (text "dump system routes failed"), h)

/-- A host that follows a script answers as a host may. -/
theorem Host.answers_answer (d : Decision) (h : Host) (c : HostCall) :
    h.Answers c (Host.answer d h c).1 (Host.answer d h c).2 := by
  cases c with
  | time => rfl
  | readRoutes => exact ⟨ReadReply.of_ofFile _ _, rfl⟩
  | readGlobal => exact ⟨ReadReply.of_ofFile _ _, rfl⟩
  | replaceRoutes content => simp only [Host.answer]; split_ifs <;> rfl
  | replaceGlobal content => simp only [Host.answer]; split_ifs <;> rfl
  | addSystemRoute destination gateway => simp only [Host.answer]; split_ifs <;> rfl
  | deleteSystemRoute destination gateway =>
    simp only [Host.answer]
    split_ifs with hd
    · exact ⟨hd.2, rfl⟩
    · rfl
  | listSystemRoutes => rfl

end IpRouter.RouteManager
