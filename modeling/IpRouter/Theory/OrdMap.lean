import Mathlib.Order.Lattice
import Mathlib.Data.List.Basic
import Mathlib.Logic.Function.Basic

/-!
# Ordered maps

A finite map kept as a list of entries with strictly increasing keys: what a
container that is searched by key and walked in key order holds. The order of
the entries is part of the value, so two maps with the same bindings are equal
(`OrdMap.ext_find`), and a walk over `entries` visits the bindings in key order.

The operations are searching, inserting, erasing and `filterMap`, which rewrites
or drops every binding in one walk. Each has one lemma that says what is found
afterwards; nothing else about them is used.
-/

namespace IpRouter.Theory

universe u v w

variable {κ : Type u} {ν : Type v} {μ : Type w} [LinearOrder κ]

/-- A finite map with its bindings in increasing order of their keys. -/
@[ext]
structure OrdMap (κ : Type u) [LinearOrder κ] (ν : Type v) where
  /-- The bindings. -/
  entries : List (κ × ν)
  /-- The keys increase. -/
  sorted : entries.Pairwise fun a b => a.1 < b.1

namespace OrdMap

instance [DecidableEq ν] : DecidableEq (OrdMap κ ν) := fun m m' =>
  decidable_of_iff (m.entries = m'.entries) OrdMap.ext_iff.symm

/-! ### Lists of bindings -/

/-- The value the first binding of `k` gives. -/
def findIn (k : κ) : List (κ × ν) → Option ν
  | [] => none
  | (a, v) :: t => if a = k then some v else findIn k t

/-- Bind `k` to `v`, before the first larger key. -/
def insertIn (k : κ) (v : ν) : List (κ × ν) → List (κ × ν)
  | [] => [(k, v)]
  | (a, w) :: t =>
    if k < a then (k, v) :: (a, w) :: t else if a = k then (k, v) :: t else (a, w) :: insertIn k v t

theorem findIn_eq_none {k : κ} {l : List (κ × ν)} (h : ∀ p ∈ l, k < p.1) : findIn k l = none := by
  induction l with
  | nil => rfl
  | cons p t ih =>
    have hp : p.1 ≠ k := ne_of_gt (h p List.mem_cons_self)
    simp only [findIn, hp, if_false]
    exact ih fun q hq => h q (List.mem_cons_of_mem _ hq)

theorem mem_of_findIn {k : κ} {v : ν} {l : List (κ × ν)} (h : findIn k l = some v) :
    (k, v) ∈ l := by
  induction l with
  | nil => simp [findIn] at h
  | cons p t ih =>
    simp only [findIn] at h
    split_ifs at h with hk
    · obtain rfl := Option.some.inj h
      subst hk
      exact List.mem_cons_self
    · exact List.mem_cons_of_mem _ (ih h)

theorem findIn_insertIn (k k' : κ) (v : ν) (l : List (κ × ν)) :
    findIn k' (insertIn k v l) = if k' = k then some v else findIn k' l := by
  induction l with
  | nil => simp [insertIn, findIn, eq_comm]
  | cons p t ih =>
    by_cases hk : k' = k
    · subst hk
      simp only [insertIn]
      split_ifs with hlt heq
      · simp [findIn]
      · simp [findIn]
      · simpa [findIn, heq] using ih
    · simp only [insertIn]
      split_ifs with hlt heq
      · simp [findIn, Ne.symm hk]
      · simp [findIn, heq, Ne.symm hk]
      · simp [findIn, ih, hk]

theorem mem_insertIn {k : κ} {v : ν} {l : List (κ × ν)} {p : κ × ν} (h : p ∈ insertIn k v l) :
    p = (k, v) ∨ p ∈ l := by
  induction l with
  | nil => simpa [insertIn] using h
  | cons q t ih =>
    simp only [insertIn] at h
    split_ifs at h with hlt heq
    · exact List.mem_cons.mp h
    · exact (List.mem_cons.mp h).imp id (List.mem_cons_of_mem _)
    · rcases List.mem_cons.mp h with rfl | h
      · exact Or.inr List.mem_cons_self
      · exact (ih h).imp id (List.mem_cons_of_mem _)

theorem pairwise_insertIn (k : κ) (v : ν) {l : List (κ × ν)} (h : l.Pairwise fun a b => a.1 < b.1) :
    (insertIn k v l).Pairwise fun a b => a.1 < b.1 := by
  induction l with
  | nil => simp [insertIn]
  | cons p t ih =>
    rw [List.pairwise_cons] at h
    obtain ⟨hp, ht⟩ := h
    simp only [insertIn]
    split_ifs with hlt heq
    · refine List.pairwise_cons.mpr ⟨fun q hq => ?_, List.pairwise_cons.mpr ⟨hp, ht⟩⟩
      rcases List.mem_cons.mp hq with rfl | hq
      · exact hlt
      · exact lt_trans hlt (hp q hq)
    · subst heq
      exact List.pairwise_cons.mpr ⟨hp, ht⟩
    · refine List.pairwise_cons.mpr ⟨fun q hq => ?_, ih ht⟩
      rcases mem_insertIn hq with rfl | hq
      · exact lt_of_le_of_ne (not_lt.mp hlt) heq
      · exact hp q hq

/-- Lists of bindings in key order are determined by what is found in them. -/
theorem eq_of_findIn {l l' : List (κ × ν)} (h : l.Pairwise fun a b => a.1 < b.1)
    (h' : l'.Pairwise fun a b => a.1 < b.1) (hf : ∀ k, findIn k l = findIn k l') : l = l' := by
  induction l generalizing l' with
  | nil =>
    cases l' with
    | nil => rfl
    | cons q t' => simpa [findIn] using hf q.1
  | cons p t ih =>
    rw [List.pairwise_cons] at h
    cases l' with
    | nil => simpa [findIn] using hf p.1
    | cons q t' =>
      rw [List.pairwise_cons] at h'
      have hpq : p.1 = q.1 := by
        rcases lt_trichotomy p.1 q.1 with hlt | heq | hgt
        · have hnone : findIn p.1 (q :: t') = none := findIn_eq_none fun r hr => by
            rcases List.mem_cons.mp hr with rfl | hr
            · exact hlt
            · exact lt_trans hlt (h'.1 r hr)
          rw [← hf] at hnone
          simp [findIn] at hnone
        · exact heq
        · have hnone : findIn q.1 (p :: t) = none := findIn_eq_none fun r hr => by
            rcases List.mem_cons.mp hr with rfl | hr
            · exact hgt
            · exact lt_trans hgt (h.1 r hr)
          rw [hf] at hnone
          simp [findIn] at hnone
      have hv : p.2 = q.2 := by simpa [findIn, hpq] using hf q.1
      have ht : t = t' := ih h.2 h'.2 fun k => by
        by_cases hk : p.1 = k
        · rw [findIn_eq_none (fun r hr => hk ▸ h.1 r hr),
            findIn_eq_none (fun r hr => hk ▸ hpq ▸ h'.1 r hr)]
        · simpa [findIn, hk, hpq ▸ hk] using hf k
      rw [ht, Prod.ext hpq hv]

/-! ### The operations -/

/-- The map with no binding. -/
def empty : OrdMap κ ν := ⟨[], List.Pairwise.nil⟩

instance : Inhabited (OrdMap κ ν) := ⟨empty⟩

/-- The value bound to `k`. -/
def find (m : OrdMap κ ν) (k : κ) : Option ν := findIn k m.entries

/-- Bind `k` to `v`, whatever it was bound to. -/
def insert (m : OrdMap κ ν) (k : κ) (v : ν) : OrdMap κ ν :=
  ⟨insertIn k v m.entries, pairwise_insertIn k v m.sorted⟩

/-- Rewrite every binding by `f`, dropping those it gives nothing for. -/
def filterMap (f : κ → ν → Option μ) (m : OrdMap κ ν) : OrdMap κ μ where
  entries := m.entries.filterMap fun p => (f p.1 p.2).map (p.1, ·)
  sorted := by
    refine List.pairwise_filterMap.mpr (m.sorted.imp ?_)
    intro a b hab p hp q hq
    obtain ⟨_, -, rfl⟩ := Option.map_eq_some_iff.mp hp
    obtain ⟨_, -, rfl⟩ := Option.map_eq_some_iff.mp hq
    exact hab

/-- Remove the binding of `k`. -/
def erase (m : OrdMap κ ν) (k : κ) : OrdMap κ ν :=
  m.filterMap fun a v => if a = k then none else some v

/-- Whether there is no binding. -/
def isEmpty (m : OrdMap κ ν) : Bool := m.entries.isEmpty

/-- The keys, in order. -/
def keys (m : OrdMap κ ν) : List κ := m.entries.map Prod.fst

/-- Two maps with the same bindings are equal. -/
theorem ext_find {m m' : OrdMap κ ν} (h : ∀ k, m.find k = m'.find k) : m = m' :=
  OrdMap.ext (eq_of_findIn m.sorted m'.sorted h)

@[simp] theorem find_empty (k : κ) : (empty : OrdMap κ ν).find k = none := rfl

theorem find_insert (m : OrdMap κ ν) (k k' : κ) (v : ν) :
    (m.insert k v).find k' = if k' = k then some v else m.find k' :=
  findIn_insertIn k k' v m.entries

@[simp] theorem find_insert_self (m : OrdMap κ ν) (k : κ) (v : ν) :
    (m.insert k v).find k = some v := by
  simp [find_insert]

/-- Bindings of different keys, or the same binding, may be made in any order. -/
theorem insert_comm (m : OrdMap κ ν) {k k' : κ} {v v' : ν} (h : k = k' → v = v') :
    (m.insert k v).insert k' v' = (m.insert k' v').insert k v := by
  refine ext_find fun a => ?_
  simp only [find_insert]
  split_ifs with hk' hk
  · rw [h (hk.symm.trans hk')]
  · rfl
  · rfl
  · rfl

/-- The last binding of a key counts. -/
theorem insert_insert (m : OrdMap κ ν) (k : κ) (v v' : ν) :
    (m.insert k v).insert k v' = m.insert k v' := by
  refine ext_find fun a => ?_
  simp only [find_insert]
  split_ifs <;> rfl

theorem mem_entries_iff {m : OrdMap κ ν} {k : κ} {v : ν} : (k, v) ∈ m.entries ↔
    m.find k = some v := by
  refine ⟨fun h => ?_, mem_of_findIn⟩
  obtain ⟨l, hl⟩ := m
  simp only [find] at h ⊢
  induction l with
  | nil => simp at h
  | cons p t ih =>
    rw [List.pairwise_cons] at hl
    rcases List.mem_cons.mp h with rfl | h
    · simp [findIn]
    · have hne : p.1 ≠ k := ne_of_lt (hl.1 (k, v) h)
      simpa [findIn, hne] using ih hl.2 h

theorem find_filterMap (f : κ → ν → Option μ) (m : OrdMap κ ν) (k : κ) :
    (m.filterMap f).find k = (m.find k).bind (f k) := by
  obtain ⟨l, hl⟩ := m
  simp only [find, filterMap]
  induction l with
  | nil => rfl
  | cons p t ih =>
    rw [List.pairwise_cons] at hl
    have iht := ih hl.2
    by_cases hk : p.1 = k
    · subst hk
      cases hf : f p.1 p.2 with
      | none =>
        have hnone : findIn p.1 t = none := findIn_eq_none hl.1
        simpa [findIn, hf, hnone] using iht
      | some w => simp [findIn, hf]
    · cases hf : f p.1 p.2 with
      | none => simpa [findIn, hf, hk] using iht
      | some w => simpa [findIn, hf, hk] using iht

theorem find_erase (m : OrdMap κ ν) (k k' : κ) : (m.erase k).find k' = if k' = k then
    none else m.find k' := by
  rw [erase, find_filterMap]
  split_ifs <;> cases m.find k' <;> rfl

theorem isEmpty_iff {m : OrdMap κ ν} : m.isEmpty = true ↔ ∀ k, m.find k = none := by
  rw [isEmpty, List.isEmpty_iff]
  constructor
  · intro h k
    simp [find, h, findIn]
  · intro h
    refine List.eq_nil_iff_forall_not_mem.mpr fun p hp => ?_
    simpa [h] using mem_entries_iff.mp (show (p.1, p.2) ∈ m.entries from hp)

theorem isEmpty_insert (m : OrdMap κ ν) (k : κ) (v : ν) : (m.insert k v).isEmpty = false := by
  rw [Bool.eq_false_iff, ne_eq, isEmpty_iff]
  intro h
  simpa using h k

theorem mem_keys_iff {m : OrdMap κ ν} {k : κ} : k ∈ m.keys ↔ ∃ v, m.find k = some v := by
  simp only [keys, List.mem_map, Prod.exists, exists_and_right, exists_eq_right, mem_entries_iff]

theorem pairwise_keys (m : OrdMap κ ν) : m.keys.Pairwise (· < ·) := List.pairwise_map.mpr m.sorted

theorem nodup_keys (m : OrdMap κ ν) : m.keys.Nodup := m.pairwise_keys.imp ne_of_lt

end OrdMap

end IpRouter.Theory
