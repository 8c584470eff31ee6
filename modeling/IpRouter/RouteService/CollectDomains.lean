import IpRouter.DomainManager.ValidDomain
import IpRouter.RouteService.Requests
import IpRouter.Theory.Distinct

/-!
# The domains of a request

`collect_domains` takes the words of one parameter, and each of them has to be a
domain: one that is not makes it refuse the request. What it collects are the
normalized names, each once.
-/

namespace IpRouter.RouteService

open Theory DomainManager

/-- What the words of a list of domains stand between. -/
def separators : Bytes := text ",; \t\r\n"

/-- One round of the loop over the words. -/
def collectDomain (domains : Distinct Bytes) (token : Bytes) : Except Bytes (Distinct Bytes) :=
  let verdict := validDomain (some token) []
  if verdict.accepted then .ok (domains.push verdict.normalized) else .error verdict.error

/-- `collect_domains`. -/
def collectDomains [Acl] (request : HttpRequest) : Except Bytes (List Bytes) :=
  match parameter request (text "domains") (text "domain") with
  | none => .error (text "parameter 'domains' is required")
  | some values =>
    if values = [] then .error (text "parameter 'domains' is required")
    else
      let tokens := Acl.split2 values separators
      if tokens = [] ∨ 4096 < tokens.length then
        .error (text "parameter 'domains' must contain between 1 and 4096 domains")
      else (tokens.foldlM collectDomain Distinct.empty).map Distinct.items

/-- The loop goes through if every word is a domain, and takes their normalized names. -/
theorem foldlM_collectDomain {tokens : List Bytes} {domains : Distinct Bytes}
    (h : ∀ token ∈ tokens, (validDomain (some token) []).accepted = true) :
    tokens.foldlM collectDomain domains =
      .ok ((tokens.map fun token => (validDomain (some token) []).normalized).foldl
        Distinct.push domains) := by
  induction tokens generalizing domains with
  | nil => rfl
  | cons token tokens ih =>
    have hhead : collectDomain domains token =
        .ok (domains.push (validDomain (some token) []).normalized) :=
      if_pos (h token List.mem_cons_self)
    rw [List.foldlM_cons, hhead]
    exact ih fun t ht => h t (List.mem_cons_of_mem token ht)

/-- A word that is no domain stops the loop. -/
theorem accepted_of_foldlM {tokens : List Bytes} {domains collected : Distinct Bytes}
    (h : tokens.foldlM collectDomain domains = .ok collected) :
    ∀ token ∈ tokens, (validDomain (some token) []).accepted = true := by
  induction tokens generalizing domains with
  | nil => exact fun token htoken => absurd htoken List.not_mem_nil
  | cons token tokens ih =>
    rw [List.foldlM_cons] at h
    have haccepted : (validDomain (some token) []).accepted = true := by
      by_contra hrefused
      rw [show collectDomain domains token = .error _ from if_neg hrefused] at h
      cases h
    rw [show collectDomain domains token = .ok _ from if_pos haccepted] at h
    exact List.forall_mem_cons.mpr ⟨haccepted, ih h⟩

/-- **What a request with that many words is answered.** -/
theorem collectDomains_eq_ok_iff [Acl] (hacl : Acl.Documented) {request : HttpRequest}
    {values : Bytes} (hvalues : parameter request (text "domains") (text "domain") = some values)
    {domains : List Bytes} :
    collectDomains request = .ok domains ↔
      (tokens separators values ≠ [] ∧ (tokens separators values).length ≤ 4096) ∧
        (∀ token ∈ tokens separators values, (validDomain (some token) []).accepted = true) ∧
        domains = ((tokens separators values).map fun token =>
          (validDomain (some token) []).normalized).eraseDups := by
  have hnil : values = [] → tokens separators values = [] := fun h => by rw [h]; rfl
  unfold collectDomains
  rw [hvalues]
  simp only [hacl.split2]
  split_ifs with hempty hcount
  · exact iff_of_false (by simp) fun h => h.1.1 (hnil hempty)
  · refine iff_of_false (by simp) fun h => ?_
    rcases hcount with hcount | hcount
    · exact h.1.1 hcount
    · exact absurd h.1.2 hcount.not_ge
  · obtain ⟨hne, hle⟩ := not_or.mp hcount
    rw [and_iff_right ⟨hne, not_lt.mp hle⟩]
    constructor
    · intro h
      cases hfold : (tokens separators values).foldlM collectDomain Distinct.empty with
      | error message => rw [hfold] at h; cases h
      | ok collected =>
        have haccepted := accepted_of_foldlM hfold
        rw [foldlM_collectDomain haccepted] at h
        refine ⟨haccepted, ?_⟩
        rw [← Distinct.items_foldl_push]
        exact (Except.ok.inj h).symm
    · rintro ⟨haccepted, rfl⟩
      rw [foldlM_collectDomain haccepted, ← Distinct.items_foldl_push]
      rfl

/-- Words on lines of their own are the words of the text. -/
theorem tokens_lines {words : List Bytes}
    (h : ∀ word ∈ words, word ≠ [] ∧ ∀ b ∈ word, b ∉ separators) :
    tokens separators ([10].intercalate words) = words := by
  induction words with
  | nil => rfl
  | cons word words ih =>
    obtain ⟨hne, hbytes⟩ := h word List.mem_cons_self
    have hrest := ih fun w hw => h w (List.mem_cons_of_mem word hw)
    cases words with
    | nil => rw [List.intercalate_singleton, tokens_eq_singleton hne hbytes]
    | cons word' words =>
      rw [List.intercalate_cons_cons, List.append_assoc, List.singleton_append,
        tokens_append_cons (by decide), tokens_eq_singleton hne hbytes, hrest]
      rfl

end IpRouter.RouteService
