import IpRouter.DomainManager.ValidDomain
import IpRouter.RouteService.Requests

/-!
# The names dns-gate looks up

`normalize_domain` of `dns_http_service.cpp` is a second validator of names. It
writes the whole name in lower case before it looks at it, where
`domain_manager::valid_domain` writes each letter in lower case when it gets
there, and it cuts off the trailing dots afterwards.

`checkByte_toLower` compares one round of the two scanners. They keep the same
state, so it is enough for the comparison of the loops (`checks_map_toLower`), and
of the validators (`validators_agree`).
-/

namespace IpRouter.DnsGate

open Theory RouteService DomainManager

/-! ### The validator -/

/-- One round of the loop of `normalize_domain`; the state is what was passed
and the length of the label. -/
def checkByte (s : Scan) (ch : UInt8) : Option Scan :=
  if ch = 46 then
    if s.labelLength = 0 ∨ 63 < s.labelLength ∨ s.scanned.getLast? = some 45 then none
    else some ⟨s.scanned ++ [ch], 0⟩
  else if (¬ isAlnum ch ∧ ch ≠ 45) ∨ (s.labelLength = 0 ∧ ch = 45) then none
  else some ⟨s.scanned ++ [ch], s.labelLength + 1⟩

/-- `normalize_domain`: what it returns, and what it leaves in `domain`. `trimSpace` is
`string::trim_space` of acl. -/
def normalizeDomain [Acl] (trimSpace : Bytes → Bytes) (value : Option Bytes) : Bool × Bytes :=
  let domain := stripDots (Acl.lower (trimSpace (argument value)))
  if domain = [] ∨ 253 < domain.length then (false, domain)
  else
    match domain.foldlM checkByte ⟨[], 0⟩ with
    | none => (false, domain)
    | some s => (0 < s.labelLength && s.labelLength ≤ 63 && domain.getLast? ≠ some 45, domain)

/-- **What is relied on**: `trim_space` leaves a text alone that has no white space. -/
def TrimsSpace (trimSpace : Bytes → Bytes) : Prop :=
  ∀ s, (∀ b ∈ s, b ∉ text " \t\r\n") → trimSpace s = s

/-! ### The two scanners -/

theorem isAlnum_toLower_iff {b : UInt8} : isAlnum (toLower b) = true ↔ isAlnum b = true := by
  rw [isAlnum_iff, isAlnum_iff, toNat_toLower]
  split_ifs <;> omega

/-- **One round of the scanners**: on a byte in lower case this one does what
the other does on the byte. -/
theorem checkByte_toLower (value : Bytes) (s : Scan) (b : UInt8) :
    checkByte s (toLower b) = (scanByte value s b).toOption := by
  have hdot : toLower b = 46 ↔ b = 46 := toLower_eq_iff (by decide)
  have hhyphen : toLower b = 45 ↔ b = 45 := toLower_eq_iff (by decide)
  simp only [checkByte, scanByte, hdot, hhyphen, isAlnum_toLower_iff, ne_eq]
  by_cases hb : b = 46
  · subst hb
    rw [if_pos rfl, if_pos rfl]
    cases hbad : s.endsBadly
    · simp only [Scan.endsBadly, Bool.or_eq_false_iff, decide_eq_false_iff_not] at hbad
      rw [if_neg (by simp [hbad])]
      rfl
    · simp only [Scan.endsBadly, Bool.or_eq_true, decide_eq_true_eq, or_assoc] at hbad
      rw [if_pos hbad]
      rfl
  · rw [if_neg hb, if_neg hb]
    by_cases halphabet : isAlnum b = true ∨ b = 45
    · rw [if_neg (not_not.mpr halphabet)]
      have hin : ¬ (¬ isAlnum b = true ∧ ¬ b = 45) := fun h => halphabet.elim h.1 h.2
      by_cases hhead : s.labelLength = 0 ∧ b = 45
      · rw [if_pos hhead, if_pos (Or.inr hhead)]
        rfl
      · rw [if_neg hhead, if_neg (not_or.mpr ⟨hin, hhead⟩)]
        rfl
    · rw [if_pos halphabet, if_pos (Or.inl (not_or.mp halphabet))]
      rfl

/-- The loops, from the same state. -/
theorem checks_map_toLower (value t : Bytes) (s : Scan) :
    (t.map toLower).foldlM checkByte s = (t.foldlM (scanByte value) s).toOption := by
  induction t generalizing s with
  | nil => rfl
  | cons b t ih =>
    rw [List.map_cons, List.foldlM_cons, List.foldlM_cons, checkByte_toLower value]
    cases scanByte value s b with
    | error message => rfl
    | ok s' => exact ih s'

/-- Dots are not changed, so they may be cut off before or after. -/
theorem stripDots_map_toLower (s : Bytes) :
    stripDots (s.map toLower) = (stripDots s).map toLower := by
  have hdot : (fun b => decide (toLower b = 46)) = fun b => decide (b = 46) := by
    funext b
    exact decide_eq_decide.mpr (toLower_eq_iff (by decide))
  rw [stripDots, List.rdropWhile, ← List.map_reverse, List.dropWhile_map, ← List.map_reverse]
  exact congrArg (fun p => (List.dropWhile p s.reverse).reverse.map toLower) hdot

/-! ### The two validators -/

/-- The name is accepted when its scan ends, and ends well. -/
theorem validDomain_accepted_iff_scan {value : Option Bytes} {error : Bytes} :
    (validDomain value error).accepted = true ↔
      ¬ (stripDots (argument value) = [] ∨ 253 < (stripDots (argument value)).length) ∧
      ∃ s, (stripDots (argument value)).foldlM (scanByte (argument value)) ⟨[], 0⟩ = .ok s ∧
        s.endsBadly = false := by
  have hscan := scan_iff (argument value) (InLabel.nil []) (stripDots (argument value))
  rw [List.nil_append] at hscan
  rw [validDomain_accepted_iff, hostName_iff, hscan, not_or, not_lt, and_assoc]

variable [Acl] {trimSpace : Bytes → Bytes} {value : Option Bytes}

/-- What is checked is the name without its trailing dots, in lower case. -/
theorem normalizeDomain_eq (hacl : Acl.Documented) (htrim : TrimsSpace trimSpace)
    (hvalue : ∀ b ∈ argument value, b ∉ text " \t\r\n") :
    stripDots (Acl.lower (trimSpace (argument value))) =
      (stripDots (argument value)).map toLower := by
  rw [htrim _ hvalue, hacl.lower, stripDots_map_toLower]

/-- **The two validators agree** on every name without white space, a missing one included, and
normalize it to the same text. -/
theorem validators_agree (hacl : Acl.Documented) (htrim : TrimsSpace trimSpace)
    (hvalue : ∀ b ∈ argument value, b ∉ text " \t\r\n") (error : Bytes) :
    ((normalizeDomain trimSpace value).1 = true ↔ (validDomain value error).accepted = true) ∧
      ((normalizeDomain trimSpace value).1 = true →
        (normalizeDomain trimSpace value).2 = (validDomain value error).normalized) := by
  have hdomain := normalizeDomain_eq hacl htrim hvalue
  have htext : (normalizeDomain trimSpace value).2 = (stripDots (argument value)).map toLower := by
    unfold normalizeDomain
    simp only [hdomain]
    split_ifs
    · rfl
    · split <;> rfl
  have haccepted : (normalizeDomain trimSpace value).1 = true ↔
      (validDomain value error).accepted = true := by
    rw [validDomain_accepted_iff_scan]
    unfold normalizeDomain
    simp only [hdomain, checks_map_toLower (argument value), List.map_eq_nil_iff, List.length_map]
    split_ifs with hlength
    · exact iff_of_false (fun h => by cases h) fun h => h.1 hlength
    · cases hscan : (stripDots (argument value)).foldlM (scanByte (argument value)) ⟨[], 0⟩ with
      | error message => simp [Except.toOption]
      | ok s =>
        have hscanned : s.scanned = (stripDots (argument value)).map toLower :=
          scanned_of_foldlM hscan
        simp [Except.toOption, Scan.endsBadly, hscanned, Nat.pos_iff_ne_zero, hlength]
  refine ⟨haccepted, fun h => ?_⟩
  rw [htext, validDomain_of_hostName (validDomain_accepted_iff.mp (haccepted.mp h))]

omit [Acl] in
/-- A name with capital letters and dots behind it. -/
theorem validators_agree_spelled :
    (@normalizeDomain documentedAcl (·.filter (· ≠ 32)) (some (text "WWW.Example-1.COM.."))).2 =
      text "www.example-1.com" ∧
      (validDomain (some (text "WWW.Example-1.COM..")) []).normalized =
        text "www.example-1.com" := by
  let _ := documentedAcl
  have htrim : TrimsSpace (·.filter (· ≠ 32)) := by
    intro s hs
    refine List.filter_eq_self.mpr fun b hb => decide_eq_true fun hspace => hs b hb ?_
    rw [hspace]
    decide
  have hname : ∀ b ∈ argument (some (text "WWW.Example-1.COM..")), b ∉ text " \t\r\n" := by
    decide +kernel
  have hagree := validators_agree ⟨fun _ _ => rfl, fun _ => rfl⟩ htrim hname []
  have haccepted :
      (normalizeDomain (·.filter (· ≠ 32)) (some (text "WWW.Example-1.COM.."))).1 = true := by
    decide +kernel
  have htext : (normalizeDomain (·.filter (· ≠ 32)) (some (text "WWW.Example-1.COM.."))).2 =
      text "www.example-1.com" := by
    decide +kernel
  exact ⟨htext, (hagree.2 haccepted).symm.trans htext⟩

end IpRouter.DnsGate
