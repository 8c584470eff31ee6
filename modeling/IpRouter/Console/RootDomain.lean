import IpRouter.RouteService.CollectDomains
import IpRouter.Theory.CodeUnits

/-!
# The root domains of the console

The console puts the keys of the routes under root domains (`rootDomainForKey`):
the last two labels of a name, or the last three where the last two are a suffix
under which names are given out. It offers the roots to be resolved by the gate,
and sends those that are chosen in one request.

A root of a root is itself (`rootDomainForKey_root`). The labels are held to a
regular expression that knows no length, so a root is a domain for the server
exactly if its labels are short enough (`roots_taken_iff`).
-/

namespace IpRouter.Console

open Theory DomainManager RouteService

/-- What the console takes from the browser. -/
class Browser where
  /-- `String.prototype.toLowerCase`. -/
  toLowerCase : Units → Units

/-! ### Root domains -/

/-- `commonCompoundSuffixes`. -/
def commonCompoundSuffixes : List Units := [
  "ac.cn", "com.cn", "edu.cn", "gov.cn", "mil.cn", "net.cn", "org.cn",
  "ac.uk", "co.uk", "gov.uk", "me.uk", "org.uk",
  "asn.au", "com.au", "edu.au", "gov.au", "net.au", "org.au",
  "ac.jp", "co.jp", "go.jp", "ne.jp", "or.jp",
  "co.kr", "ne.kr", "or.kr", "com.hk", "edu.hk", "gov.hk", "net.hk", "org.hk",
  "com.tw", "edu.tw", "gov.tw", "net.tw", "org.tw",
  "ac.nz", "co.nz", "govt.nz", "net.nz", "org.nz",
  "com.sg", "net.sg", "org.sg", "com.br", "com.mx",
  "co.in", "firm.in", "gen.in", "ind.in", "net.in", "org.in",
  "co.za"].map fun suffix => units (text suffix)

/-- `[a-z0-9]`. -/
def isWord (u : UInt16) : Bool := (97 ≤ u && u ≤ 122) || (48 ≤ u && u ≤ 57)

/-- `/^[a-z0-9](?:[a-z0-9-]*[a-z0-9])?$/`. -/
def isLabel : Units → Bool
  | [] => false
  | u :: rest =>
    isWord u && (rest.isEmpty ||
      (rest.dropLast.all (fun v => isWord v || v = 45) && rest.getLast?.any isWord))

section Keys

variable [Browser]

/-- The labels of a key: in lower case, without the dots at its end, between dots. -/
def keyLabels (key : Units) : List Units :=
  ((Browser.toLowerCase key).rdropWhile (· = 46)).splitOn 46

/-- The last two labels make a suffix under which names are given out. -/
def Compound (labels : List Units) : Prop :=
  3 ≤ labels.length ∧ [46].intercalate (labels.rtake 2) ∈ commonCompoundSuffixes

instance (labels : List Units) : Decidable (Compound labels) := inferInstanceAs (Decidable (_ ∧ _))

/-- `rootDomainForKey`. -/
def rootDomainForKey (key : Units) : Option Units :=
  let labels := keyLabels key
  if labels.length < 2 ∨ labels.any (fun label => !isLabel label) then none
  else if Compound labels then some ([46].intercalate (labels.rtake 3))
  else some ([46].intercalate (labels.rtake 2))

/-- The labels of a key that its root is made of. -/
def rootLabels (labels : List Units) : List Units :=
  if Compound labels then labels.rtake 3 else labels.rtake 2

/-- The labels of the root have at most 63 characters. -/
def Short (key : Units) : Prop := ∀ label ∈ rootLabels (keyLabels key), label.length ≤ 63

instance (key : Units) : Decidable (Short key) := inferInstanceAs (Decidable (∀ label ∈ _, _))

end Keys

/-! ### Labels -/

theorem isWord_iff {u : UInt16} :
    isWord u = true ↔ (97 ≤ u.toNat ∧ u.toNat ≤ 122) ∨ (48 ≤ u.toNat ∧ u.toNat ≤ 57) := by
  simp only [isWord, Bool.or_eq_true, Bool.and_eq_true, decide_eq_true_eq, UInt16.le_iff_toNat_le]
  rfl

/-- The regular expression, said of the units. -/
theorem isLabel_iff {l : Units} : isLabel l = true ↔
    l ≠ [] ∧ (∀ u ∈ l, isWord u = true ∨ u = 45) ∧ l.head? ≠ some 45 ∧ l.getLast? ≠ some 45 := by
  have hhyphen : isWord 45 = false := by decide
  cases l with
  | nil => simp [isLabel]
  | cons u rest =>
    rcases List.eq_nil_or_concat rest with rfl | ⟨mid, v, rfl⟩
    · simp only [isLabel, List.isEmpty_nil, Bool.true_or, Bool.and_true]
      constructor
      · intro hu
        have hne : u ≠ 45 := fun h => by rw [h, hhyphen] at hu; cases hu
        exact ⟨List.cons_ne_nil _ _, by simp [hu], by simpa using hne, by simpa using hne⟩
      · rintro ⟨-, hall, hhead, -⟩
        exact (hall u List.mem_cons_self).resolve_right (by simpa using hhead)
    · have hlast : (u :: (mid ++ [v])).getLast? = some v := by
        rw [← List.cons_append, List.getLast?_concat]
      have hempty : (mid ++ [v]).isEmpty = false := by simp
      rw [List.concat_eq_append, hlast]
      simp only [isLabel, hempty, List.dropLast_concat, List.getLast?_concat, Bool.false_or,
        Bool.and_eq_true, List.all_eq_true, Bool.or_eq_true, decide_eq_true_eq, Option.any_some]
      constructor
      · rintro ⟨hu, hmid, hv⟩
        have hu' : u ≠ 45 := fun h => by rw [h, hhyphen] at hu; cases hu
        have hv' : v ≠ 45 := fun h => by rw [h, hhyphen] at hv; cases hv
        refine ⟨List.cons_ne_nil _ _, fun w hw => ?_, by simpa using hu', by simpa using hv'⟩
        rcases List.mem_cons.mp hw with rfl | hw
        · exact Or.inl hu
        · rcases List.mem_append.mp hw with hw | hw
          · exact hmid w hw
          · exact Or.inl (List.mem_singleton.mp hw ▸ hv)
      · rintro ⟨-, hall, hhead, hlast⟩
        refine ⟨(hall u List.mem_cons_self).resolve_right (by simpa using hhead),
          fun w hw => hall w (by simp [hw]), ?_⟩
        exact (hall v (by simp)).resolve_right (by simpa using hlast)

/-- A unit of a label. -/
theorem toNat_of_isLabel {l : Units} (h : isLabel l = true) {u : UInt16} (hu : u ∈ l) :
    u.toNat = 45 ∨ (97 ≤ u.toNat ∧ u.toNat ≤ 122) ∨ (48 ≤ u.toNat ∧ u.toNat ≤ 57) := by
  rcases (isLabel_iff.mp h).2.1 u hu with hword | rfl
  · exact Or.inr (isWord_iff.mp hword)
  · exact Or.inl rfl

theorem toNat_toUInt8 {u : UInt16} (h : u.toNat < 128) : u.toUInt8.toNat = u.toNat := by
  rw [UInt16.toNat_toUInt8]
  omega

/-- A label of the console is one of the server, if it is short enough. -/
theorem label_map_iff {l : Units} (h : isLabel l = true) : Label (l.map UInt16.toUInt8) ↔
    l.length ≤ 63 := by
  obtain ⟨hne, hall, hhead, hlast⟩ := isLabel_iff.mp h
  have hhyphen : ∀ u ∈ l, u.toUInt8 = 45 → u = 45 := fun u hu hu' => by
    have hnat := toNat_of_isLabel h hu
    have hbyte := congrArg UInt8.toNat hu'
    rw [toNat_toUInt8 (by omega)] at hbyte
    exact UInt16.toNat_inj.mp hbyte
  constructor
  · intro hl
    simpa using hl.length_le
  · intro hlen
    refine ⟨by simpa using hne, by simpa using hlen, ?_, ?_, ?_⟩
    · intro b hb
      obtain ⟨u, hu, rfl⟩ := List.mem_map.mp hb
      have hnat := toNat_of_isLabel h hu
      rcases hnat with hnat | hnat
      · exact Or.inr (UInt8.toNat_inj.mp (by rw [toNat_toUInt8 (by omega), hnat]; rfl))
      · refine Or.inl (isAlnum_iff.mpr ?_)
        rw [toNat_toUInt8 (by omega)]
        omega
    · rw [List.head?_map, ne_eq, Option.map_eq_some_iff]
      rintro ⟨u, hu, hu'⟩
      exact hhead (hhyphen u (List.mem_of_mem_head? hu) hu' ▸ hu)
    · rw [List.getLast?_map, ne_eq, Option.map_eq_some_iff]
      rintro ⟨u, hu, hu'⟩
      exact hlast (hhyphen u (List.mem_of_getLast? hu) hu' ▸ hu)

/-! ### The root of a key -/

section Roots

variable {ls : List Units}

theorem rtake_rtake {α : Type*} (l : List α) (m n : ℕ) :
    (l.rtake m).rtake n = l.rtake (min n m) := by
  simp [List.rtake_eq_reverse_take_reverse, List.take_take]

theorem length_rtake {α : Type*} (l : List α) (n : ℕ) : (l.rtake n).length = min n l.length := by
  simp [List.rtake_eq_reverse_take_reverse]

theorem mem_of_mem_rootLabels {l : Units} (h : l ∈ rootLabels ls) : l ∈ ls := by
  unfold rootLabels at h
  split_ifs at h
  · exact List.mem_of_mem_drop h
  · exact List.mem_of_mem_drop h

theorem length_rootLabels (h : 2 ≤ ls.length) : 2 ≤ (rootLabels ls).length ∧
    (rootLabels ls).length ≤ 3 := by
  unfold rootLabels
  split_ifs with hcompound
  · have := hcompound.1
    rw [length_rtake]
    omega
  · rw [length_rtake]
    omega

/-- The labels that were kept are kept again. -/
theorem rootLabels_rootLabels (ls : List Units) : rootLabels (rootLabels ls) = rootLabels ls := by
  by_cases hcompound : Compound ls
  · have hkept : rootLabels ls = ls.rtake 3 := if_pos hcompound
    have hagain : Compound (ls.rtake 3) := by
      obtain ⟨hlen, hsuffix⟩ := hcompound
      exact ⟨by rw [length_rtake]; omega, by rw [rtake_rtake]; exact hsuffix⟩
    rw [hkept, rootLabels, if_pos hagain, rtake_rtake]
    rfl
  · have hkept : rootLabels ls = ls.rtake 2 := if_neg hcompound
    have hagain : ¬ Compound (ls.rtake 2) := fun h => by
      have hlen := h.1
      rw [length_rtake] at hlen
      omega
    rw [hkept, rootLabels, if_neg hagain, rtake_rtake]
    rfl

end Roots

variable [Browser] {key r : Units}

/-- A name of at least two labels has a root, and nothing else has one. -/
theorem rootDomainForKey_eq_some_iff : rootDomainForKey key = some r ↔
    (2 ≤ (keyLabels key).length ∧ ∀ l ∈ keyLabels key, isLabel l = true) ∧
    r = [46].intercalate (rootLabels (keyLabels key)) := by
  have hroot : (if Compound (keyLabels key) then some ([46].intercalate ((keyLabels key).rtake 3))
      else some ([46].intercalate ((keyLabels key).rtake 2))) =
          some ([46].intercalate (rootLabels (keyLabels key))) := by
    unfold rootLabels
    split_ifs <;> rfl
  simp only [rootDomainForKey, hroot]
  split_ifs with hnone
  · refine iff_of_false (by simp) ?_
    rintro ⟨⟨hlen, hall⟩, -⟩
    rcases hnone with hnone | hnone
    · omega
    · obtain ⟨l, hl, hbad⟩ := List.any_eq_true.mp hnone
      simp [hall l hl] at hbad
  · obtain ⟨hlen, hall⟩ := not_or.mp hnone
    have hlabels : ∀ l ∈ keyLabels key, isLabel l = true := by simpa using hall
    rw [and_iff_right ⟨not_lt.mp hlen, hlabels⟩, Option.some_inj, eq_comm]

/-- A root is labels between dots. -/
structure IsRoot (ls : List Units) (r : Units) : Prop where
  /-- They are what the regular expression says. -/
  labels : ∀ l ∈ ls, isLabel l = true
  /-- There are at least two. -/
  two : 2 ≤ ls.length
  /-- And at most three. -/
  three : ls.length ≤ 3
  /-- Dots are between them. -/
  eq : r = [46].intercalate ls

theorem isRoot_of_eq_some (h : rootDomainForKey key = some r) :
    IsRoot (rootLabels (keyLabels key)) r := by
  obtain ⟨⟨hlen, hlabels⟩, hr⟩ := rootDomainForKey_eq_some_iff.mp h
  obtain ⟨htwo, hthree⟩ := length_rootLabels hlen
  exact ⟨fun l hl => hlabels l (mem_of_mem_rootLabels hl), htwo, hthree, hr⟩

namespace IsRoot

omit [Browser]

variable {ls : List Units}

theorem ne_nil (h : IsRoot ls r) : ls ≠ [] := by
  rintro rfl
  exact absurd h.two (by decide)

theorem words (h : IsRoot ls r) : ∀ l ∈ ls, l ≠ [] ∧ 46 ∉ l := fun l hl =>
  ⟨(isLabel_iff.mp (h.labels l hl)).1,
    fun hdot => absurd (toNat_of_isLabel (h.labels l hl) hdot) (by decide)⟩

/-- The units of a root. -/
theorem toNat_of_mem (h : IsRoot ls r) :
    ∀ u ∈ r, u.toNat = 45 ∨ u.toNat = 46 ∨ (97 ≤ u.toNat ∧ u.toNat ≤ 122) ∨
      (48 ≤ u.toNat ∧ u.toNat ≤ 57) := by
  rw [h.eq]
  refine forall_mem_intercalate (Or.inr (Or.inl rfl)) fun l hl u hu => ?_
  exact (toNat_of_isLabel (h.labels l hl) hu).imp_right Or.inr

theorem ascii (h : IsRoot ls r) : Ascii r := fun u hu => by
  have := h.toNat_of_mem u hu
  omega

/-- What is sent for a root. -/
theorem utf8_eq (h : IsRoot ls r) :
    utf8 r = [46].intercalate (ls.map (List.map UInt16.toUInt8)) := by
  rw [utf8_eq_map h.ascii, h.eq, map_intercalate]
  rfl

theorem words_utf8 (h : IsRoot ls r) : ∀ l ∈ ls.map (List.map UInt16.toUInt8), l ≠ [] ∧ 46 ∉ l := by
  intro l hl
  obtain ⟨k, hk, rfl⟩ := List.mem_map.mp hl
  refine ⟨by simpa using (h.words k hk).1, fun hdot => ?_⟩
  obtain ⟨u, hu, hu'⟩ := List.mem_map.mp hdot
  have hnat := toNat_of_isLabel (h.labels k hk) hu
  have hbyte := congrArg UInt8.toNat hu'
  rw [toNat_toUInt8 (by omega)] at hbyte
  simp at hbyte
  omega

/-- The bytes of a root. -/
theorem toNat_of_mem_utf8 (h : IsRoot ls r) :
    ∀ b ∈ utf8 r, b.toNat = 45 ∨ b.toNat = 46 ∨ (97 ≤ b.toNat ∧ b.toNat ≤ 122) ∨
      (48 ≤ b.toNat ∧ b.toNat ≤ 57) := by
  intro b hb
  rw [utf8_eq_map h.ascii] at hb
  obtain ⟨u, hu, rfl⟩ := List.mem_map.mp hb
  rw [toNat_toUInt8 (h.ascii u hu)]
  exact h.toNat_of_mem u hu

end IsRoot

/-- **What is relied on**: small ASCII letters, digits, dots and hyphens stay as they are. -/
def Browser.Documented : Prop :=
  ∀ s : Units, (∀ u ∈ s, u.toNat = 45 ∨ u.toNat = 46 ∨ (97 ≤ u.toNat ∧ u.toNat ≤ 122) ∨
    (48 ≤ u.toNat ∧ u.toNat ≤ 57)) →
    Browser.toLowerCase s = s

/-- The labels of a root are the ones it was made of. -/
theorem IsRoot.keyLabels_eq {ls : List Units} (h : IsRoot ls r) (hlower : Browser.Documented) :
    keyLabels r = ls := by
  rw [keyLabels, hlower r h.toNat_of_mem, h.eq, rdropWhile_intercalate h.ne_nil h.words,
    List.splitOn_intercalate 46 (fun l hl => (h.words l hl).2) h.ne_nil]

/-- **The root of a root is itself.** -/
theorem rootDomainForKey_root (hlower : Browser.Documented) (h : rootDomainForKey key = some r) :
    rootDomainForKey r = some r := by
  have hroot := isRoot_of_eq_some h
  have hlabels := hroot.keyLabels_eq hlower
  refine rootDomainForKey_eq_some_iff.mpr ⟨?_, ?_⟩
  · rw [hlabels]
    exact ⟨hroot.two, hroot.labels⟩
  · rw [hlabels, rootLabels_rootLabels]
    exact hroot.eq

/-! ### The roots at the server -/

omit [Browser] in
theorem length_intercalate_le {a : UInt8} {ls : List Bytes} {n : ℕ} (h : ∀ l ∈ ls, l.length ≤ n) :
    ([a].intercalate ls).length ≤ (n + 1) * ls.length := by
  induction ls with
  | nil => simp
  | cons l ls ih =>
    have hl := h l List.mem_cons_self
    have hrest := ih fun k hk => h k (List.mem_cons_of_mem l hk)
    rw [List.length_cons, Nat.mul_succ]
    cases ls with
    | nil => rw [List.intercalate_singleton]; omega
    | cons l' ls =>
      rw [List.intercalate_cons_cons, List.length_append, List.length_append, List.length_singleton]
      omega

section Server

variable (h : rootDomainForKey key = some r)

include h

theorem utf8_root_ne_nil : utf8 r ≠ [] := by
  have hroot := isRoot_of_eq_some h
  obtain ⟨s, b, hs, -⟩ :=
    exists_intercalate_eq_concat (by simpa using hroot.ne_nil) hroot.words_utf8
  rw [hroot.utf8_eq, hs]
  simp

theorem argument_root : argument (some (utf8 r)) = utf8 r := by
  rw [argument_some]
  refine cString_eq_self fun hzero => ?_
  have := (isRoot_of_eq_some h).toNat_of_mem_utf8 0 hzero
  simp at this

theorem stripDots_root : stripDots (argument (some (utf8 r))) = utf8 r := by
  have hroot := isRoot_of_eq_some h
  rw [argument_root h, hroot.utf8_eq]
  exact rdropWhile_intercalate (by simpa using hroot.ne_nil) hroot.words_utf8

theorem map_toLower_root : (utf8 r).map toLower = utf8 r := by
  refine List.map_congr_left (fun b hb => ?_) |>.trans (List.map_id _)
  have := (isRoot_of_eq_some h).toNat_of_mem_utf8 b hb
  rw [id_eq, ← UInt8.toNat_inj, toNat_toLower, if_neg (by omega)]

/-- A root is a host name exactly if its labels are short enough. -/
theorem hostName_root_iff : HostName (utf8 r) ↔ Short key := by
  have hroot := isRoot_of_eq_some h
  have hsplit : (utf8 r).splitOn 46 = (rootLabels (keyLabels key)).map
      (List.map UInt16.toUInt8) := by
    rw [hroot.utf8_eq]
    exact List.splitOn_intercalate 46 (fun l hl => (hroot.words_utf8 l hl).2)
      (by simpa using hroot.ne_nil)
  rw [hostName_iff, hsplit, and_iff_right (utf8_root_ne_nil h), List.forall_mem_map]
  constructor
  · rintro ⟨-, hlabels⟩ l hl
    exact (label_map_iff (hroot.labels l hl)).mp (hlabels l hl)
  · intro hshort
    refine ⟨?_, fun l hl => (label_map_iff (hroot.labels l hl)).mpr (hshort l hl)⟩
    have hbytes : ∀ l ∈ (rootLabels (keyLabels key)).map (List.map UInt16.toUInt8),
        l.length ≤ 63 := by
      intro l hl
      obtain ⟨k, hk, rfl⟩ := List.mem_map.mp hl
      simpa using hshort k hk
    calc (utf8 r).length ≤ (63 + 1) *
        ((rootLabels (keyLabels key)).map (List.map UInt16.toUInt8)).length := by
          rw [hroot.utf8_eq]
          exact length_intercalate_le hbytes
      _ ≤ (63 + 1) * 3 := Nat.mul_le_mul_left _ (by rw [List.length_map]; exact hroot.three)
      _ ≤ 253 := by decide

theorem validDomain_root (hshort : Short key) (error : Bytes) :
    validDomain (some (utf8 r)) error = ⟨true, utf8 r, error⟩ := by
  have hname := (hostName_root_iff h).mpr hshort
  rw [validDomain_of_hostName (by rw [stripDots_root h]; exact hname), stripDots_root h,
    map_toLower_root h]

theorem validDomain_root_accepted_iff (error : Bytes) :
    (validDomain (some (utf8 r)) error).accepted = true ↔ Short key := by
  rw [validDomain_accepted_iff, stripDots_root h, hostName_root_iff h]

end Server

/-- `domainRequest`, of a `POST` with these lines. -/
def domainPost (domains : List Units) : HttpRequest where
  getParameter name := if name = text "domains" then
    some (cString (utf8 ([10].intercalate domains))) else none

/-- A root the console offers, with a key it is the root of. -/
structure Offer where
  /-- The key. -/
  key : Units
  /-- The root. -/
  root : Units
  /-- It is the root of the key. -/
  offered : rootDomainForKey key = some root

/-- The words the server finds in the request are the roots. -/
theorem tokens_domainPost {offers : List Offer} (hne : offers ≠ []) : ∃ values,
    parameter (domainPost (offers.map Offer.root)) (text "domains") (text "domain") = some values ∧
      tokens separators values = offers.map fun o => utf8 o.root := by
  have hascii : ∀ r ∈ offers.map Offer.root, Ascii r := by
    intro r hr
    obtain ⟨o, -, rfl⟩ := List.mem_map.mp hr
    exact (isRoot_of_eq_some o.offered).ascii
  have hwhole : utf8 ([10].intercalate (offers.map Offer.root)) =
      [10].intercalate (offers.map fun o => utf8 o.root) := by
    rw [utf8_eq_map (forall_mem_intercalate (by decide) hascii), map_intercalate, List.map_map]
    refine congrArg _ (List.map_congr_left fun o _ => ?_)
    exact (utf8_eq_map (isRoot_of_eq_some o.offered).ascii).symm
  have hbytes : ∀ b ∈ utf8 ([10].intercalate (offers.map Offer.root)), b ≠ 0 := by
    rw [hwhole]
    refine forall_mem_intercalate (by decide) fun w hw b hb hzero => ?_
    obtain ⟨o, -, rfl⟩ := List.mem_map.mp hw
    have := (isRoot_of_eq_some o.offered).toNat_of_mem_utf8 b hb
    simp [hzero] at this
  have hcString : cString (utf8 ([10].intercalate (offers.map Offer.root))) =
      [10].intercalate (offers.map fun o => utf8 o.root) := by
    rw [cString_eq_self fun hzero => hbytes 0 hzero rfl, hwhole]
  have hwords : ∀ w ∈ offers.map fun o => utf8 o.root, w ≠ [] ∧ ∀ b ∈ w, b ∉ separators := by
    intro w hw
    obtain ⟨o, -, rfl⟩ := List.mem_map.mp hw
    refine ⟨utf8_root_ne_nil o.offered, fun b hb hsep => ?_⟩
    have hnat := (isRoot_of_eq_some o.offered).toNat_of_mem_utf8 b hb
    have hall : ∀ c ∈ separators, c.toNat < 45 ∨ c.toNat = 59 := by decide +kernel
    have := hall b hsep
    omega
  have htokens := tokens_lines hwords
  have hparameter : parameter (domainPost (offers.map Offer.root)) (text "domains")
      (text "domain") =
      some ([10].intercalate (offers.map fun o => utf8 o.root)) := by
    have hget : (domainPost (offers.map Offer.root)).getParameter (text "domains") =
        some ([10].intercalate (offers.map fun o => utf8 o.root)) := by
      simp only [domainPost, hcString, ↓reduceIte]
    have hvalue : [10].intercalate (offers.map fun o => utf8 o.root) ≠ [] := fun hnil => by
      rw [hnil] at htokens
      exact hne (List.map_eq_nil_iff.mp htokens.symm)
    simp only [parameter, hget, if_pos hvalue]
  exact ⟨_, hparameter, htokens⟩

/-- **A root is taken exactly if its labels are short enough**, and so are the roots of one
request. -/
theorem roots_taken_iff [Acl] (hacl : Acl.Documented) :
    (∀ o : Offer,
      (∀ error, validDomain (some (utf8 o.root)) error = ⟨true, utf8 o.root, error⟩) ↔
        Short o.key) ∧
    ∀ offers : List Offer, offers ≠ [] → offers.length ≤ 4096 →
      ((∃ domains, collectDomains (domainPost (offers.map Offer.root)) = .ok domains) ↔
        ∀ o ∈ offers, Short o.key) := by
  constructor
  · intro o
    constructor
    · intro h
      exact (validDomain_root_accepted_iff o.offered []).mp (by rw [h])
    · exact validDomain_root o.offered
  · intro offers hne hcount
    obtain ⟨values, hvalues, htokens⟩ := tokens_domainPost hne
    have haccepted : (∀ token ∈ offers.map fun o => utf8 o.root,
        (validDomain (some token) []).accepted = true) ↔
        ∀ o ∈ offers, Short o.key := by
      rw [List.forall_mem_map]
      exact forall₂_congr fun o _ => validDomain_root_accepted_iff o.offered []
    simp only [collectDomains_eq_ok_iff hacl hvalues, htokens, haccepted, List.length_map,
      List.map_eq_nil_iff, ne_eq]
    constructor
    · rintro ⟨domains, -, hshort, -⟩
      exact hshort
    · intro hshort
      exact ⟨_, ⟨hne, hcount⟩, hshort, rfl⟩

section Sample

omit [Browser]

/-- A browser, for ASCII. -/
abbrev asciiBrowser : Browser := ⟨fun s => s.map fun u => if 65 ≤ u && u ≤ 90 then u + 32 else u⟩

/-- Roots that are taken together. -/
theorem roots_taken_iff_short : ∃ domains, @collectDomains documentedAcl
    (domainPost [units (text "example.com"), units (text "example.co.uk")]) = .ok domains := by
  let _ := documentedAcl
  let _ := asciiBrowser
  let plain : Offer := ⟨units (text "WWW.Example.com."), units (text "example.com"), by decide⟩
  let compound : Offer :=
    ⟨units (text "a.b.example.co.uk"), units (text "example.co.uk"), by decide⟩
  have hplain : Short (units (text "WWW.Example.com.")) := by decide +kernel
  have hcompound : Short (units (text "a.b.example.co.uk")) := by decide +kernel
  have hshort : ∀ o ∈ [plain, compound], Short o.key :=
    List.forall_mem_cons.mpr ⟨hplain, List.forall_mem_singleton.mpr hcompound⟩
  exact ((roots_taken_iff ⟨fun _ _ => rfl, fun _ => rfl⟩).2 [plain, compound] (by decide)
    (by decide)).mpr hshort

/-- A key whose root is offered and refused, and with it what is sent in one request with it. -/
theorem not_roots_taken : ∃ key r, validRouteKey (some key) = true ∧ key ≠ [] ∧
    @rootDomainForKey asciiBrowser (units key) = some r ∧
    (validDomain (some (utf8 r)) []).accepted = false ∧
    ∃ e, @collectDomains documentedAcl (domainPost [units (text "example.com"), r]) = .error e := by
  let _ := asciiBrowser
  refine ⟨List.replicate 64 97 ++ text ".com", units (List.replicate 64 97 ++ text ".com"),
    ?_, ?_, ?_, ?_, ?_⟩
  · decide +kernel
  · decide
  · decide +kernel
  · decide +kernel
  · exact ⟨_, rfl⟩

end Sample

end IpRouter.Console
