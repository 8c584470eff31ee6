import IpRouter.Theory.Text

/-!
# Names of domains

`domain_manager::valid_domain` strips the trailing dots of a name, checks it in
one pass that keeps the length of the label it is in, and writes letters in lower
case as it goes; a label is checked when the dot after it, or the end, is
reached. `path_join` turns the name into the path of its resolver file.

`HostName` is the grammar the scanner is compared with: labels between dots.
`scan_iff` is the comparison. It is about the scanner in the middle of a label,
so that one induction on what is left of the name proves it.

The strings are C strings in the C locale.
-/

namespace IpRouter.DomainManager

open Theory

/-! ### The configuration -/

/-- The C string an argument points to; a null pointer counts as the empty string. -/
def argument (value : Option Bytes) : Bytes := (value.map cString).getD []

@[simp] theorem argument_some (value : Bytes) : argument (some value) = cString value := rfl

theorem zero_notMem_argument (value : Option Bytes) : 0 ∉ argument value := by
  cases value with
  | none => exact List.not_mem_nil
  | some value => exact zero_notMem_cString value

/-- The settings of the domain manager. -/
structure Resolver where
  /-- `resolver_directory`. -/
  directory : Bytes
  /-- `resolver_nameserver`. -/
  nameserver : Bytes
  /-- `resolver_port`. -/
  port : ℤ
  /-- `resolver_search_order`. -/
  searchOrder : ℤ
  /-- The directory is named. -/
  directory_ne_nil : directory ≠ []

/-- A text setting, or its default. -/
def setting (value : Option Bytes) (default : Bytes) : Bytes :=
  if argument value ≠ [] then argument value else default

/-- `domain_manager::configure`. -/
def configure (directory nameserver : Option Bytes) (port searchOrder : ℤ) : Resolver where
  directory := setting directory (text "/etc/resolver")
  nameserver := setting nameserver (text "127.0.0.1")
  port := if 0 < port ∧ port ≤ 65535 then port else 53
  searchOrder := if 0 ≤ searchOrder then searchOrder else 1
  directory_ne_nil := by
    unfold setting
    split_ifs with h
    · exact h
    · decide

/-- `path_join`. -/
def pathJoin (directory name : Bytes) : Bytes :=
  if directory ≠ [] ∧ directory.getLast? = some 47 then directory ++ name
    else directory ++ 47 :: name

/-! ### The scanner -/

/-- `isalnum` in the C locale. -/
def isAlnum (ch : UInt8) : Bool := isDigit ch || (65 ≤ ch && ch ≤ 90) || (97 ≤ ch && ch ≤ 122)

/-- Where the scanner is. -/
structure Scan where
  /-- What was scanned, with its letters in lower case. -/
  scanned : Bytes
  /-- `label_length`. -/
  labelLength : ℕ

/-- The check of a label that ends here. -/
def Scan.endsBadly (s : Scan) : Bool :=
  s.labelLength = 0 || 63 < s.labelLength || s.scanned.getLast? = some 45

/-- One round of the scanner. -/
def scanByte (value : Bytes) (s : Scan) (ch : UInt8) : Except Bytes Scan :=
  if ch = 46 then
    if s.endsBadly then .error (text "invalid domain: " ++ value)
    else .ok ⟨s.scanned ++ [ch], 0⟩
  else if ¬ (isAlnum ch ∨ ch = 45) then
    .error (text "domain must contain only letters, digits, '-' and '.': " ++ value)
  else if s.labelLength = 0 ∧ ch = 45 then
    .error (text "domain label cannot start with '-': " ++ value)
  else .ok ⟨s.scanned ++ [toLower ch], s.labelLength + 1⟩

/-- The name without its trailing dots. -/
def stripDots (value : Bytes) : Bytes := value.rdropWhile (· = 46)

/-- `valid_domain` on a name that is there: the normalized name, or the error. -/
def scanDomain (value : Bytes) : Except Bytes Bytes :=
  let domain := stripDots value
  if domain = [] ∨ 253 < domain.length then
    .error (text "domain length must be between 1 and 253 characters")
  else
    match domain.foldlM (scanByte value) ⟨[], 0⟩ with
    | .error message => .error message
    | .ok s =>
      if s.endsBadly then .error (text "invalid domain: " ++ value) else .ok (cString s.scanned)

/-- What `valid_domain` returns, and what it leaves in `normalized` and `error`. -/
structure Verdict where
  /-- The result. -/
  accepted : Bool
  /-- `normalized`. -/
  normalized : Bytes
  /-- `error`. -/
  error : Bytes

/-- `domain_manager::valid_domain`. -/
def validDomain (value : Option Bytes) (error : Bytes) : Verdict :=
  if argument value = [] then ⟨false, [], text "domain is required"⟩
  else
    match scanDomain (argument value) with
    | .error message => ⟨false, [], message⟩
    | .ok normalized => ⟨true, normalized, error⟩

/-! ### The grammar -/

/-- A label of a host name. -/
structure Label (l : Bytes) : Prop where
  /-- It is not empty. -/
  ne_nil : l ≠ []
  /-- It has at most 63 bytes. -/
  length_le : l.length ≤ 63
  /-- They are letters, digits and hyphens. -/
  bytes : ∀ b ∈ l, isAlnum b = true ∨ b = 45
  /-- It does not begin with a hyphen. -/
  head : l.head? ≠ some 45
  /-- It does not end with a hyphen. -/
  last : l.getLast? ≠ some 45

/-- A host name: labels between dots, at most 253 bytes. -/
structure HostName (s : Bytes) : Prop where
  /-- It is not empty. -/
  ne_nil : s ≠ []
  /-- It has at most 253 bytes. -/
  length_le : s.length ≤ 253
  /-- It is labels between dots. -/
  labels : ∃ ls : List Bytes, ls ≠ [] ∧ (∀ l ∈ ls, Label l) ∧ s = [46].intercalate ls

/-! ### Bytes -/

theorem isAlnum_iff {b : UInt8} : isAlnum b = true ↔ (48 ≤ b.toNat ∧ b.toNat ≤ 57) ∨
    (65 ≤ b.toNat ∧ b.toNat ≤ 90) ∨ (97 ≤ b.toNat ∧ b.toNat ≤ 122) := by
  simp only [isAlnum, isDigit, Bool.or_eq_true, Bool.and_eq_true, decide_eq_true_eq,
    UInt8.le_iff_toNat_le, or_assoc]
  rfl

theorem toNat_toLower (b : UInt8) :
    (toLower b).toNat = if 65 ≤ b.toNat ∧ b.toNat ≤ 90 then b.toNat + 32 else b.toNat := by
  have hiff : (65 ≤ b && b ≤ 90) = true ↔ 65 ≤ b.toNat ∧ b.toNat ≤ 90 := by
    simp only [Bool.and_eq_true, decide_eq_true_eq, UInt8.le_iff_toNat_le]
    rfl
  unfold toLower
  split_ifs with h h' h'
  · rw [UInt8.toNat_add, show (32 : UInt8).toNat = 32 from rfl]
    omega
  · exact absurd (hiff.mp h) h'
  · exact absurd (hiff.mpr h') h
  · rfl

/-- A byte that is no capital letter is only made from itself. -/
theorem toLower_eq_iff {b c : UInt8} (hc : c.toNat < 65) : toLower b = c ↔ b = c := by
  rw [← UInt8.toNat_inj, ← UInt8.toNat_inj, toNat_toLower]
  split_ifs <;> omega

theorem toLower_toLower (b : UInt8) : toLower (toLower b) = toLower b := by
  rw [← UInt8.toNat_inj, toNat_toLower (toLower b), toNat_toLower]
  split_ifs <;> omega

theorem isAlnum_toLower {b : UInt8} (h : isAlnum b = true) : isAlnum (toLower b) = true := by
  rw [isAlnum_iff] at h ⊢
  rw [toNat_toLower]
  split_ifs <;> omega

theorem head?_map_toLower {s : Bytes} {c : UInt8} (hc : c.toNat < 65) :
    (s.map toLower).head? = some c ↔ s.head? = some c := by
  cases s with
  | nil => rfl
  | cons b s => simp [toLower_eq_iff hc]

theorem getLast?_map_toLower {s : Bytes} {c : UInt8} (hc : c.toNat < 65) :
    (s.map toLower).getLast? = some c ↔ s.getLast? = some c := by
  rw [List.getLast?_map, Option.map_eq_some_iff]
  simp [toLower_eq_iff hc]

namespace Label

variable {l : Bytes}

/-- A byte of a label stands in the alphabet of host names. -/
theorem toNat_of_mem (h : Label l) {b : UInt8} (hb : b ∈ l) : b.toNat = 45 ∨ 48 ≤ b.toNat := by
  rcases h.bytes b hb with halnum | rfl
  · rw [isAlnum_iff] at halnum
    omega
  · exact Or.inl rfl

theorem notMem (h : Label l) {c : UInt8}
    (hc : c.toNat = 46 ∨ c.toNat = 47 ∨ c.toNat = 0) : c ∉ l := by
  intro hmem
  have := h.toNat_of_mem hmem
  omega

/-- A label in lower case is a label. -/
theorem map_toLower (h : Label l) : Label (l.map toLower) where
  ne_nil := by simpa using h.ne_nil
  length_le := by simpa using h.length_le
  bytes := by
    intro b hb
    obtain ⟨a, ha, rfl⟩ := List.mem_map.mp hb
    rcases h.bytes a ha with halnum | rfl
    · exact Or.inl (isAlnum_toLower halnum)
    · exact Or.inr rfl
  head := by
    rw [ne_eq, head?_map_toLower (by decide)]
    exact h.head
  last := by
    rw [ne_eq, getLast?_map_toLower (by decide)]
    exact h.last

end Label

/-! ### The scanner and the grammar -/

/-- The scanner stands behind the bytes `p` of a label. -/
structure InLabel (p : Bytes) (s : Scan) : Prop where
  /-- The label so far is counted. -/
  length : s.labelLength = p.length
  /-- Its last byte is at hand. -/
  last : p ≠ [] → (s.scanned.getLast? = some 45 ↔ p.getLast? = some 45)
  /-- Its bytes were checked. -/
  bytes : ∀ b ∈ p, isAlnum b = true ∨ b = 45
  /-- So was its beginning. -/
  head : p.head? ≠ some 45

namespace InLabel

variable {p : Bytes} {s : Scan}

theorem nil (s : Bytes) : InLabel [] ⟨s, 0⟩ := ⟨rfl, fun h => absurd rfl h, by simp, by simp⟩

/-- The check at the end of a label tells labels from the rest. -/
theorem endsBadly_eq_false (h : InLabel p s) : s.endsBadly = false ↔ Label p := by
  simp only [Scan.endsBadly, Bool.or_eq_false_iff, decide_eq_false_iff_not, h.length,
    List.length_eq_zero_iff]
  constructor
  · rintro ⟨⟨hne, hlen⟩, hlast⟩
    exact ⟨hne, by omega, h.bytes, h.head, fun hp => hlast ((h.last hne).mpr hp)⟩
  · intro hl
    have hlen := hl.length_le
    exact ⟨⟨hl.ne_nil, by omega⟩, fun hs => hl.last ((h.last hl.ne_nil).mp hs)⟩

/-- A byte that passes is one more byte of the label. -/
theorem push (h : InLabel p s) {b : UInt8} (hb : isAlnum b = true ∨ b = 45)
    (hhead : ¬ (s.labelLength = 0 ∧ b = 45)) :
    InLabel (p ++ [b]) ⟨s.scanned ++ [toLower b], s.labelLength + 1⟩ where
  length := by simp [h.length]
  last := fun _ => by simp [toLower_eq_iff]
  bytes := by
    intro c hc
    rcases List.mem_append.mp hc with hc | hc
    · exact h.bytes c hc
    · rwa [List.mem_singleton.mp hc]
  head := by
    cases p with
    | nil => simpa using fun hb' : b = 45 => hhead ⟨h.length, hb'⟩
    | cons c p => exact h.head

theorem dot_notMem (h : InLabel p s) : 46 ∉ p := by
  intro hmem
  rcases h.bytes 46 hmem with h | h
  · exact absurd h (by decide)
  · exact absurd h (by decide)

end InLabel

/-- Bytes that are no separator stay at the front of the first piece. -/
theorem exists_mem_splitOn {a : UInt8} {p : Bytes} (hp : a ∉ p) (t : Bytes) :
    ∃ q, p ++ q ∈ (p ++ t).splitOn a := by
  have hfirst : ∃ q qs, (p ++ t).splitOn a = (p ++ q) :: qs := by
    induction p with
    | nil => exact List.exists_cons_of_ne_nil (List.splitOn_ne_nil a t)
    | cons b p ih =>
      have hb : b ≠ a := fun hba => hp (hba ▸ List.mem_cons_self)
      obtain ⟨q, qs, hq⟩ := ih fun h => hp (List.mem_cons_of_mem b h)
      refine ⟨q, qs, ?_⟩
      rw [List.cons_append, List.splitOn_cons_eq_if_modifyHead, if_neg (by simpa using hb), hq]
      rfl
  obtain ⟨q, qs, hq⟩ := hfirst
  exact ⟨q, hq ▸ List.mem_cons_self⟩

/-- **The scanner passes, from the middle of a label, exactly what the grammar allows there.** -/
theorem scan_iff (value : Bytes) {p : Bytes} {s : Scan} (h : InLabel p s) (t : Bytes) :
    (∃ s', t.foldlM (scanByte value) s = .ok s' ∧ s'.endsBadly = false) ↔
      ∀ l ∈ (p ++ t).splitOn 46, Label l := by
  induction t generalizing p s with
  | nil =>
    have hsplit : (p ++ []).splitOn 46 = [p] := by
      rw [List.append_nil]
      exact List.splitOn_eq_singleton h.dot_notMem
    rw [hsplit]
    simp [pure, Except.pure, h.endsBadly_eq_false]
  | cons b t ih =>
    rw [List.foldlM_cons]
    by_cases hdot : b = 46
    · subst hdot
      have hrest := ih (InLabel.nil (s.scanned ++ [46]))
      rw [List.nil_append] at hrest
      rw [List.splitOn_append_cons_self_of_not_mem h.dot_notMem, List.forall_mem_cons,
        ← h.endsBadly_eq_false, ← hrest]
      cases hbad : s.endsBadly <;> simp [scanByte, hbad, bind, Except.bind]
    · by_cases hb : isAlnum b = true ∨ b = 45
      · by_cases hhead : s.labelLength = 0 ∧ b = 45
        · -- a hyphen at the start of a label
          obtain rfl : p = [] := List.length_eq_zero_iff.mp (h.length ▸ hhead.1)
          obtain ⟨q, hq⟩ := exists_mem_splitOn (a := 46) (p := [b]) (by simpa using Ne.symm hdot) t
          have hfails : ¬ ∀ l ∈ ([] ++ b :: t).splitOn 46, Label l :=
            fun hall => (hall _ hq).head (by simp [hhead.2])
          rw [iff_false_right hfails]
          simp [scanByte, hhead, bind, Except.bind]
        · rw [show p ++ b :: t = (p ++ [b]) ++ t by simp, ← ih (h.push hb hhead)]
          simp [scanByte, hdot, hb, hhead, bind, Except.bind]
      · -- a byte that no label holds
        obtain ⟨q, hq⟩ := exists_mem_splitOn (a := 46) (p := p ++ [b])
          (by simpa using ⟨h.dot_notMem, Ne.symm hdot⟩) t
        have hfails : ¬ ∀ l ∈ (p ++ b :: t).splitOn 46, Label l := fun hall =>
          hb ((hall _ (by simpa using hq)).bytes b (by simp))
        rw [iff_false_right hfails]
        simp [scanByte, hdot, hb, bind, Except.bind]

/-- What was scanned is what was read, in lower case. -/
theorem scanned_of_foldlM {value t : Bytes} {s s' : Scan}
    (h : t.foldlM (scanByte value) s = .ok s') :
    s'.scanned = s.scanned ++ t.map toLower := by
  induction t generalizing s with
  | nil =>
    obtain rfl : s = s' := by simpa [pure, Except.pure] using h
    simp
  | cons b t ih =>
    rw [List.foldlM_cons] at h
    cases hb : scanByte value s b with
    | error message => simp [hb, bind, Except.bind] at h
    | ok s₁ =>
      have hs₁ : s₁.scanned = s.scanned ++ [toLower b] := by
        unfold scanByte at hb
        split_ifs at hb with hdot
        · obtain rfl := Except.ok.inj hb
          simp [hdot, toLower]
        · obtain rfl := Except.ok.inj hb
          rfl
      rw [hb] at h
      rw [ih h, hs₁]
      simp

/-! ### What is accepted -/

/-- A host name has only labels between its dots. -/
theorem hostName_iff {s : Bytes} : HostName s ↔ s ≠ [] ∧ s.length ≤ 253 ∧
    ∀ l ∈ s.splitOn 46, Label l := by
  constructor
  · rintro ⟨hne, hlen, ls, hls, hlabels, rfl⟩
    refine ⟨hne, hlen, ?_⟩
    rw [List.splitOn_intercalate 46 (fun l hl => (hlabels l hl).notMem (by decide)) hls]
    exact hlabels
  · rintro ⟨hne, hlen, hlabels⟩
    exact ⟨hne, hlen, s.splitOn 46, List.splitOn_ne_nil _ _, hlabels,
      (List.intercalate_splitOn 46).symm⟩

namespace HostName

variable {s : Bytes}

/-- A host name in lower case is a host name. -/
theorem map_toLower (h : HostName s) : HostName (s.map toLower) := by
  obtain ⟨hne, hlen, ls, hls, hlabels, rfl⟩ := h
  refine ⟨by simpa using hne, by simpa using hlen, ls.map (List.map toLower),
    by simpa using hls, ?_, ?_⟩
  · intro l' hl'
    obtain ⟨l, hl, rfl⟩ := List.mem_map.mp hl'
    exact (hlabels l hl).map_toLower
  · exact map_intercalate toLower 46 ls

/-- The bytes of a host name. -/
theorem toNat_of_mem (h : HostName s) {b : UInt8} (hb : b ∈ s) : b.toNat = 45 ∨ b.toNat = 46 ∨
    48 ≤ b.toNat := by
  obtain ⟨-, -, ls, -, hlabels, rfl⟩ := h
  have hbytes : ∀ b ∈ [46].intercalate ls, b.toNat = 45 ∨ b.toNat = 46 ∨ 48 ≤ b.toNat := by
    refine forall_mem_intercalate (Or.inr (Or.inl rfl)) fun l hl c hc => ?_
    exact ((hlabels l hl).toNat_of_mem hc).imp_right Or.inr
  exact hbytes b hb

/-- A host name does not begin with a dot. -/
theorem head_ne (h : HostName s) : s.head? ≠ some 46 := by
  cases s with
  | nil => simp
  | cons b s =>
    intro hb
    obtain rfl : b = 46 := by simpa using hb
    have hlabels := (hostName_iff.mp h).2.2
    rw [List.splitOn_cons_eq_if_modifyHead, if_pos (by simp)] at hlabels
    exact (hlabels [] List.mem_cons_self).ne_nil rfl

/-- A host name does not end with a dot. -/
theorem stripDots_eq (h : HostName s) : stripDots s = s := by
  obtain ⟨-, -, ls, hls, hlabels, rfl⟩ := h
  exact rdropWhile_intercalate hls fun l hl =>
    ⟨(hlabels l hl).ne_nil, (hlabels l hl).notMem (Or.inl rfl)⟩

end HostName

/-- Dropping the dots at the end does not add a byte. -/
theorem notMem_stripDots {b : UInt8} {s : Bytes} (h : b ∉ s) : b ∉ stripDots s := fun hb =>
  h ((List.rdropWhile_prefix _ _).subset hb)

/-- **The scanner accepts the host names, and nothing else.** -/
theorem scanDomain_eq_ok {value normalized : Bytes} (h₀ : 0 ∉ value) :
    scanDomain value = .ok normalized ↔ HostName (stripDots value) ∧
      normalized = (stripDots value).map toLower := by
  have hcString : cString ((stripDots value).map toLower) = (stripDots value).map toLower := by
    refine cString_eq_self fun hz => ?_
    obtain ⟨b, hb, hbz⟩ := List.mem_map.mp hz
    exact notMem_stripDots h₀ ((toLower_eq_iff (by decide)).mp hbz ▸ hb)
  have hscan := scan_iff value (InLabel.nil []) (stripDots value)
  rw [List.nil_append] at hscan
  rw [hostName_iff, ← hscan]
  unfold scanDomain
  simp only
  split_ifs with hlen
  · refine iff_of_false (fun h => by cases h) ?_
    rintro ⟨⟨hne, hle, -⟩, -⟩
    rcases hlen with h | h
    · exact hne h
    · omega
  · obtain ⟨hne, hle⟩ := not_or.mp hlen
    rw [not_lt] at hle
    cases hs : (stripDots value).foldlM (scanByte value) ⟨[], 0⟩ with
    | error message => simp
    | ok s =>
      have hscanned := scanned_of_foldlM hs
      rw [List.nil_append] at hscanned
      cases hbad : s.endsBadly
      · simp only [hscanned, hcString, hbad, Bool.false_eq_true, if_false, Except.ok.injEq,
          exists_eq_left', hne, hle, ne_eq, not_false_eq_true, true_and, eq_comm]
      · simp [hbad]

/-- A name that is no host name is refused, and leaves `normalized` empty. -/
theorem validDomain_of_not {value : Option Bytes} (h : ¬ HostName (stripDots (argument value)))
    (error : Bytes) :
    (validDomain value error).accepted = false ∧ (validDomain value error).normalized = [] := by
  unfold validDomain
  split_ifs with hne
  · exact ⟨rfl, rfl⟩
  · cases hscan : scanDomain (argument value) with
    | error message => exact ⟨rfl, rfl⟩
    | ok normalized => exact absurd ((scanDomain_eq_ok (zero_notMem_argument value)).mp hscan).1 h

/-- A host name is accepted, and written in lower case. -/
theorem validDomain_of_hostName {value : Option Bytes} (h : HostName (stripDots (argument value)))
    (error : Bytes) :
    validDomain value error = ⟨true, (stripDots (argument value)).map toLower, error⟩ := by
  have hne : argument value ≠ [] := fun hnil => h.ne_nil (by rw [hnil]; rfl)
  unfold validDomain
  rw [if_neg hne, (scanDomain_eq_ok (zero_notMem_argument value)).mpr ⟨h, rfl⟩]

theorem validDomain_accepted_iff {value : Option Bytes} {error : Bytes} :
    (validDomain value error).accepted = true ↔ HostName (stripDots (argument value)) := by
  constructor
  · intro haccepted
    by_contra h
    rw [(validDomain_of_not h error).1] at haccepted
    cases haccepted
  · intro h
    rw [validDomain_of_hostName h]

/-- A host name in lower case is its own normalized name. -/
theorem validDomain_of_lower {s : Bytes} (h : HostName s) (error : Bytes) :
    validDomain (some (s.map toLower)) error = ⟨true, s.map toLower, error⟩ := by
  have hcString : cString (s.map toLower) = s.map toLower := by
    refine cString_eq_self fun hz => ?_
    have := h.map_toLower.toNat_of_mem hz
    simp at this
  have hstrip : stripDots (argument (some (s.map toLower))) = s.map toLower := by
    rw [argument_some, hcString, h.map_toLower.stripDots_eq]
  rw [validDomain_of_hostName (by rw [hstrip]; exact h.map_toLower), hstrip, List.map_map]
  congr 2
  funext b
  exact toLower_toLower b

/-! ### Paths -/

/-- The names a path leads through. -/
def components (path : Bytes) : List Bytes := tokens [47] path

/-- The path leads to the entry `name` of the directory. -/
structure ChildOf (directory name path : Bytes) : Prop where
  /-- It starts where the path of the directory starts. -/
  head : path.head? = directory.head?
  /-- It goes one name further. -/
  components : components path = components directory ++ [name]

/-- A path that is joined leads to an entry of the directory. -/
theorem childOf_pathJoin (r : Resolver) {name : Bytes} (hne : name ≠ []) (hslash : 47 ∉ name) :
    ChildOf r.directory name (pathJoin r.directory name) := by
  have hname : tokens [47] name = [name] := tokens_eq_singleton hne fun b hb => by
    simpa using fun hb' : b = 47 => hslash (hb' ▸ hb)
  have hhead : ∀ tail, (r.directory ++ tail).head? = r.directory.head? := fun tail =>
    List.head?_append_of_ne_nil _ r.directory_ne_nil
  unfold pathJoin
  split_ifs with h
  · refine ⟨hhead _, ?_⟩
    obtain ⟨d, hd⟩ := List.getLast?_eq_some_iff.mp h.2
    have hnil : tokens [47] [] = [] := by simp [tokens]
    rw [components, components, hd, List.append_assoc, List.singleton_append,
      tokens_append_cons (by simp), tokens_append_cons (by simp), hname, hnil, List.append_nil]
  · refine ⟨hhead _, ?_⟩
    rw [components, tokens_append_cons (by simp), hname, components]

/-- **Exactly the host names are accepted.** -/
theorem validDomain_grammar (s error : Bytes) (r : Resolver) :
    ((validDomain (some s) error).accepted = true ↔ HostName (stripDots (cString s))) ∧
    ((validDomain (some s) error).accepted = false → (validDomain (some s) error).normalized = []) ∧
    ((validDomain (some s) error).accepted = true →
      (validDomain (some s) error).normalized = (stripDots (cString s)).map toLower ∧
      (∀ error',
        (validDomain (some (validDomain (some s) error).normalized) error').accepted = true ∧
        (validDomain (some (validDomain (some s) error).normalized) error').normalized =
          (validDomain (some s) error).normalized) ∧
      47 ∉ (validDomain (some s) error).normalized ∧
      (validDomain (some s) error).normalized.head? ≠ some 46 ∧
      ChildOf r.directory (validDomain (some s) error).normalized
        (pathJoin r.directory (validDomain (some s) error).normalized)) := by
  refine ⟨validDomain_accepted_iff, ?_, ?_⟩
  · intro hrefused
    refine (validDomain_of_not (fun h => ?_) error).2
    rw [validDomain_accepted_iff.mpr h] at hrefused
    cases hrefused
  · intro haccepted
    have h : HostName (stripDots (argument (some s))) := validDomain_accepted_iff.mp haccepted
    have hnormalized : (validDomain (some s) error).normalized =
        (stripDots (cString s)).map toLower := by
      rw [validDomain_of_hostName h]
      rfl
    rw [argument_some] at h
    have hslash : 47 ∉ (stripDots (cString s)).map toLower := fun hmem => by
      have := h.map_toLower.toNat_of_mem hmem
      simp at this
    rw [hnormalized]
    refine ⟨rfl, fun error' => ?_, hslash, h.map_toLower.head_ne, ?_⟩
    · rw [validDomain_of_lower h]
      exact ⟨rfl, rfl⟩
    · exact childOf_pathJoin r h.map_toLower.ne_nil hslash

end IpRouter.DomainManager
