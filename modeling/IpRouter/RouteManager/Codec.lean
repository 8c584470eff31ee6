import IpRouter.RouteManager.Storage
import IpRouter.RouteService.Requests

/-!
# The route database read back

`Routes.savedRoutes` lists the records an index stands for, in the order
`save_routes_locked` writes them. `parseRoutes_encodeRoutes` says that exactly
these are read back, each as far as it is valid by itself: since keys hold no
control characters and addresses are dotted quads, no field holds a tab or a
newline, so no record runs into another.
-/

namespace IpRouter.RouteManager

open Theory RouteService

/-! ### Addresses and keys -/

/-- The platform takes exactly the canonical dotted quads. -/
def Canonical [Platform] : Prop := ∀ value, Platform.aclInetPton value = dottedQuad value

/-- A dotted quad is made of digits and dots. -/
theorem isDigit_of_mem_dottedQuad {value : Bytes} (h : dottedQuad value = true) {b : UInt8}
    (hb : b ∈ value) :
    isDigit b = true ∨ b = 46 := by
  simp only [dottedQuad, Bool.and_eq_true, decide_eq_true_eq, List.all_eq_true, isOctet] at h
  obtain ⟨-, hparts⟩ := h
  have hjoin : b ∈ [46].intercalate (value.splitOn 46) := by rwa [List.intercalate_splitOn]
  have hbytes : ∀ b ∈ [46].intercalate (value.splitOn 46), isDigit b = true ∨ b = 46 := by
    refine forall_mem_intercalate (Or.inr rfl) fun part hpart c hc => Or.inl ?_
    rw [(hparts part hpart).2] at hc
    exact isDigit_of_mem_digits hc
  exact hbytes b hjoin

/-- Bytes that separate fields or lines, or end a C string. -/
def isBreak (b : UInt8) : Bool := b = 0 || b = 9 || b = 10

theorem isBreak_of_isDigit {b : UInt8} (h : isDigit b = true ∨ b = 45 ∨ b = 46) :
    isBreak b = false := by
  simp only [isDigit, isBreak, Bool.and_eq_true, decide_eq_true_eq, Bool.or_eq_false_iff,
    decide_eq_false_iff_not, UInt8.le_iff_toNat_le, ← UInt8.toNat_inj] at h ⊢
  rw [show (48 : UInt8).toNat = 48 from rfl, show (57 : UInt8).toNat = 57 from rfl,
    show (45 : UInt8).toNat = 45 from rfl, show (46 : UInt8).toNat = 46 from rfl] at h
  rw [show (0 : UInt8).toNat = 0 from rfl, show (9 : UInt8).toNat = 9 from rfl,
    show (10 : UInt8).toNat = 10 from rfl]
  omega

/-- A text without breaks. -/
def Unbroken (s : Bytes) : Prop := ∀ b ∈ s, isBreak b = false

theorem Unbroken.tab {s : Bytes} (h : Unbroken s) : 9 ∉ s :=
  fun hb => by simpa [isBreak] using h 9 hb

theorem Unbroken.newline {s : Bytes} (h : Unbroken s) : 10 ∉ s :=
  fun hb => by simpa [isBreak] using h 10 hb

theorem Unbroken.zero {s : Bytes} (h : Unbroken s) : 0 ∉ s :=
  fun hb => by simpa [isBreak] using h 0 hb

theorem Unbroken.cString {s : Bytes} (h : Unbroken s) : cString s = s := cString_eq_self h.zero

theorem unbroken_decimal (v : ℤ) : Unbroken (decimal v) := fun _ hb =>
  isBreak_of_isDigit ((isDigit_of_mem_decimal hb).imp_right Or.inl)

theorem unbroken_of_validIpv4 [Platform] (hquad : Canonical) {value : Bytes}
    (h : validIpv4 (some value) = true) :
    Unbroken value := by
  simp only [validIpv4, Bool.and_eq_true, hquad value] at h
  exact fun b hb => isBreak_of_isDigit ((isDigit_of_mem_dottedQuad h.2 hb).imp_right Or.inr)

theorem validIpv4_of_dottedQuad [Platform] (hquad : Canonical) {value : Bytes}
    (h : dottedQuad value = true) :
    validIpv4 (some value) = true := by
  have hne : value ≠ [] := by rintro rfl; simp [dottedQuad] at h
  simp [validIpv4, hne, hquad value, h]

/-- **The keys the service takes, the loader takes.** -/
theorem validSavedKey_iff {key : Bytes} : validSavedKey key = true ↔
    key ≠ [] ∧ validRouteKey (some key) = true := by
  by_cases hkey : key = []
  · simp [validSavedKey, hkey]
  · simp only [validSavedKey, validRouteKey, hkey, ne_eq, not_false_iff, decide_true, Bool.true_and,
      if_false, true_and]
    split_ifs with hlen
    · simp [not_le.mpr hlen]
    · simp [not_lt.mp hlen]

theorem unbroken_of_validSavedKey {key : Bytes} (h : validSavedKey key = true) : Unbroken key := by
  intro b hb
  simp only [validSavedKey, Bool.and_eq_true, List.all_eq_true] at h
  have hch := h.2 b hb
  simp only [Bool.not_eq_true', Bool.or_eq_false_iff, decide_eq_false_iff_not, not_lt,
    UInt8.le_iff_toNat_le] at hch
  simp only [isBreak, Bool.or_eq_false_iff, decide_eq_false_iff_not, ← UInt8.toNat_inj]
  rw [show (32 : UInt8).toNat = 32 from rfl] at hch
  rw [show (0 : UInt8).toNat = 0 from rfl, show (9 : UInt8).toNat = 9 from rfl,
    show (10 : UInt8).toNat = 10 from rfl]
  omega

/-! ### One record -/

namespace SavedRoute

/-- The line of a record. -/
def line (it : SavedRoute) : Bytes :=
  it.key ++ 9 :: (it.ip ++ 9 :: (it.gateway ++ 9 :: (decimal it.ttl ++ 9 :: decimal it.expiresAt)))

/-- What the loader puts into the index for a record. -/
def metadata (it : SavedRoute) : RouteMetadata := ⟨it.gateway, it.ttl, it.expiresAt, 0⟩

/-- The texts of a record are a valid key and valid addresses. -/
structure Plain [Platform] (it : SavedRoute) : Prop where
  /-- The key. -/
  key : validSavedKey it.key = true
  /-- The target. -/
  ip : validIpv4 (some it.ip) = true
  /-- The next hop. -/
  gateway : validIpv4 (some it.gateway) = true

/-- The numbers of a record are neither negative nor too large. -/
structure InRange (it : SavedRoute) : Prop where
  /-- The time to live. -/
  ttl : 0 ≤ it.ttl ∧ it.ttl ≤ int64Max
  /-- The expiration time. -/
  expiresAt : 0 ≤ it.expiresAt ∧ it.expiresAt ≤ int64Max

end SavedRoute

variable [Platform] {it it' : SavedRoute}

theorem SavedRoute.Plain.newline (hquad : Canonical) (h : it.Plain) : 10 ∉ it.line := by
  have hkey := (unbroken_of_validSavedKey h.key).newline
  have hip := (unbroken_of_validIpv4 hquad h.ip).newline
  have hgateway := (unbroken_of_validIpv4 hquad h.gateway).newline
  have httl := (unbroken_decimal it.ttl).newline
  have hexpires := (unbroken_decimal it.expiresAt).newline
  simp [SavedRoute.line, hkey, hip, hgateway, httl, hexpires]

theorem SavedRoute.Plain.split (hquad : Canonical) (h : it.Plain) :
    it.line.splitOn 9 = [it.key, it.ip, it.gateway, decimal it.ttl, decimal it.expiresAt] := by
  rw [SavedRoute.line, List.splitOn_append_cons_self_of_not_mem (unbroken_of_validSavedKey
    h.key).tab, List.splitOn_append_cons_self_of_not_mem (unbroken_of_validIpv4 hquad h.ip).tab,
    List.splitOn_append_cons_self_of_not_mem (unbroken_of_validIpv4 hquad h.gateway).tab,
    List.splitOn_append_cons_self_of_not_mem (unbroken_decimal _).tab,
    List.splitOn_eq_singleton (unbroken_decimal _).tab]

omit [Platform] in
/-- A number in range is read back. -/
theorem parseSavedNumber_decimal {v : ℤ} (h : 0 ≤ v ∧ v ≤ int64Max) :
    parseSavedNumber (decimal v) = some v := by
  simp [parseSavedNumber, (unbroken_decimal v).cString,
    strtoll_decimal (le_trans (by decide) h.1) h.2]

omit [Platform] in
theorem parseSavedNumber_le {value : Bytes} {v : ℤ} (h : parseSavedNumber value = some v) :
    v ≤ int64Max := by
  simp only [parseSavedNumber] at h
  split_ifs at h
  obtain rfl := Option.some.inj h
  exact (strtoll_value_le _).2

/-- **A valid record is read back.** -/
theorem parseRecord_line (hquad : Canonical) (h : it.Plain) (hr : it.InRange) :
    parseRecord it.line = some it := by
  have hip := (unbroken_of_validIpv4 hquad h.ip).cString
  have hgateway := (unbroken_of_validIpv4 hquad h.gateway).cString
  simp [parseRecord, h.split hquad, parseSavedNumber_decimal hr.ttl, parseSavedNumber_decimal
    hr.expiresAt, hip, hgateway, h.key, h.ip, h.gateway, hr.ttl.1, hr.expiresAt.1]

/-- What is read back of a record has its texts. -/
theorem plain_of_parseRecord_line (hquad : Canonical) (h : it.Plain)
    (hp : parseRecord it.line = some it') :
    it'.Plain ∧ it'.key = it.key ∧ it'.ip = it.ip ∧ it'.gateway = it.gateway := by
  simp only [parseRecord, h.split hquad] at hp
  split at hp
  · split_ifs at hp
    obtain rfl := Option.some.inj hp
    exact ⟨⟨h.key, h.ip, h.gateway⟩, rfl, rfl, rfl⟩
  · cases hp

/-- The numbers of a record that was read are in range. -/
theorem inRange_of_parseRecord {l : Bytes} (hp : parseRecord l = some it) : it.InRange := by
  unfold parseRecord at hp
  split at hp
  · split at hp
    · rename_i httl hexpires
      split_ifs at hp with hvalid
      obtain rfl := Option.some.inj hp
      exact ⟨⟨hvalid.2.2.2.1, parseSavedNumber_le httl⟩,
        ⟨hvalid.2.2.2.2, parseSavedNumber_le hexpires⟩⟩
    · cases hp
  · cases hp

/-! ### The database -/

/-- The record that stands for a reference. -/
def savedRoute (key ip : Bytes) (metadata : RouteMetadata) : SavedRoute :=
  ⟨key, ip, metadata.gateway, metadata.ttl, metadata.expiresAt⟩

namespace Routes

/-- The records of an index, in the order they are written. -/
def savedRoutes (m : Routes) : List SavedRoute :=
  m.entries.flatMap fun group => group.2.entries.map fun target =>
    savedRoute group.1 target.1 target.2

/-- Every reference is a record with valid texts. -/
def Plain (m : Routes) : Prop :=
  ∀ key ip metadata, m.lookup key ip = some metadata → (savedRoute key ip metadata).Plain

/-- Every reference is a record with numbers in range. -/
def InRange (m : Routes) : Prop :=
  ∀ key ip metadata, m.lookup key ip = some metadata → (savedRoute key ip metadata).InRange

omit [Platform] in
theorem mem_savedRoutes_iff {m : Routes} {it : SavedRoute} :
    it ∈ m.savedRoutes ↔ ∃ metadata, m.lookup it.key it.ip = some metadata ∧
      it = savedRoute it.key it.ip metadata := by
  simp only [savedRoutes, List.mem_flatMap, List.mem_map, lookup, Option.bind_eq_some_iff]
  constructor
  · rintro ⟨⟨key, group⟩, hg, ⟨ip, target⟩, ht, rfl⟩
    exact ⟨target, ⟨group, OrdMap.mem_entries_iff.mp hg, OrdMap.mem_entries_iff.mp ht⟩, rfl⟩
  · rintro ⟨metadata, ⟨group, hg, ht⟩, heq⟩
    exact ⟨(it.key, group), OrdMap.mem_entries_iff.mpr hg, (it.ip, metadata),
      OrdMap.mem_entries_iff.mpr ht, heq.symm⟩

omit [Platform] in
theorem encodeRoutes_eq (m : Routes) :
    encodeRoutes m = routesHeader ++ 10 :: m.savedRoutes.flatMap fun it => it.line ++ [10] := by
  simp only [encodeRoutes, savedRoutes, List.flatMap_assoc, List.flatMap_map]
  refine congrArg (routesHeader ++ 10 :: ·) ?_
  congr 1; funext group; congr 1; funext target
  simp [encodeTarget, SavedRoute.line, savedRoute]

end Routes

omit [Platform] in
theorem newline_notMem_routesHeader : 10 ∉ routesHeader := by decide

theorem parseRecord_nil : parseRecord [] = none := rfl

/-- The records of a file, by its lines. -/
theorem parseRoutes_header (body : Bytes) :
    parseRoutes (routesHeader ++ 10 :: body) = (getlines body).filterMap parseRecord := by
  simp only [parseRoutes, getlines_append_newline newline_notMem_routesHeader, List.head?_cons,
    if_true, List.tail_cons]
  refine List.filterMap_congr fun l _ => ?_
  split_ifs with hl
  · rw [hl, parseRecord_nil]
  · rfl

/-- **What is written is read back**, record by record. -/
theorem parseRoutes_encodeRoutes (hquad : Canonical) {m : Routes} (hm : m.Plain) :
    parseRoutes (encodeRoutes m) = m.savedRoutes.filterMap fun it => parseRecord it.line := by
  have hlines : ∀ l ∈ m.savedRoutes.map SavedRoute.line, 10 ∉ l := by
    intro l hl
    obtain ⟨it, hit, rfl⟩ := List.mem_map.mp hl
    obtain ⟨metadata, hl, heq⟩ := Routes.mem_savedRoutes_iff.mp hit
    exact SavedRoute.Plain.newline hquad (heq ▸ hm _ _ _ hl)
  have hbody := getlines_flatMap hlines []
  rw [List.append_nil, getlines_nil, List.append_nil, List.flatMap_map] at hbody
  rw [Routes.encodeRoutes_eq, parseRoutes_header, hbody, List.filterMap_map]
  rfl

/-- An index with valid texts and numbers is read back as it is. -/
theorem parseRoutes_encodeRoutes_of_inRange (hquad : Canonical) {m : Routes} (hm : m.Plain)
    (hr : m.InRange) :
    parseRoutes (encodeRoutes m) = m.savedRoutes := by
  rw [parseRoutes_encodeRoutes hquad hm, ← List.filterMap_some (l := m.savedRoutes),
    List.filterMap_filterMap]
  refine List.filterMap_congr fun it hit => ?_
  obtain ⟨metadata, hl, heq⟩ := Routes.mem_savedRoutes_iff.mp hit
  rw [Option.bind_some]
  exact parseRecord_line hquad (heq ▸ hm _ _ _ hl) (heq ▸ hr _ _ _ hl)

end IpRouter.RouteManager
