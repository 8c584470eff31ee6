import Mathlib.Data.List.Forall2
import Mathlib.Data.List.Induction
import Mathlib.Data.List.Nodup
import Mathlib.Data.List.Perm.Basic

/-!
# Grouping

A map that keeps its entries in the order in which their keys came (`InsMap`),
and the grouping of a list by a key with such a map: the first item of a class
makes the entry, and each item of the class is added to it.

`collects_collect` says what is in the map in the end, without the order in which
it was made. So two orders of one list give the same classes
(`exists_perm_forall₂`), and the classes together are the list
(`flatMap_fibers_perm`). `Firsts` keeps one item of each class only, the first.
-/

namespace IpRouter.Theory

universe u v w

variable {α : Type u} {κ : Type v} {ν : Type w} [DecidableEq κ]

/-- A map that keeps its entries in the order in which their keys came. -/
structure InsMap (κ : Type v) (ν : Type w) where
  /-- The entries. -/
  entries : List (κ × ν)
  /-- A key has one entry. -/
  nodup : (entries.map Prod.fst).Nodup

namespace InsMap

/-- No entries. -/
def empty : InsMap κ ν := ⟨[], List.nodup_nil⟩

/-- The values, in the order of the entries. -/
def values (m : InsMap κ ν) : List ν := m.entries.map Prod.snd

/-- The key has an entry. -/
def Has (m : InsMap κ ν) (k : κ) : Prop := k ∈ m.entries.map Prod.fst

instance (m : InsMap κ ν) (k : κ) : Decidable (m.Has k) := inferInstanceAs (Decidable (_ ∈ _))

/-- An entry for a key that has none; an entry that is there stays. -/
def setNew (m : InsMap κ ν) (k : κ) (v : ν) : InsMap κ ν :=
  if h : m.Has k then m
  else ⟨m.entries ++ [(k, v)], by
    rw [List.map_append, List.nodup_append]
    refine ⟨m.nodup, List.nodup_singleton k, fun a ha b hb hab => h ?_⟩
    obtain rfl : b = k := List.mem_singleton.mp hb
    exact hab ▸ ha⟩

/-- A change of the value of a key. -/
def modify (m : InsMap κ ν) (k : κ) (f : ν → ν) : InsMap κ ν where
  entries := m.entries.map fun p => (p.1, if p.1 = k then f p.2 else p.2)
  nodup := by
    rw [List.map_map]
    exact m.nodup

theorem mem_modify {m : InsMap κ ν} {k k' : κ} {f : ν → ν} {v' : ν} :
    (k', v') ∈ (m.modify k f).entries ↔
      ∃ v, (k', v) ∈ m.entries ∧ v' = if k' = k then f v else v := by
  simp only [modify, List.mem_map, Prod.mk.injEq, Prod.exists]
  constructor
  · rintro ⟨a, v, hmem, rfl, rfl⟩
    exact ⟨v, hmem, rfl⟩
  · rintro ⟨v, hmem, rfl⟩
    exact ⟨k', v, hmem, rfl, rfl⟩

theorem mem_setNew {m : InsMap κ ν} {k k' : κ} {v v' : ν} :
    (k', v') ∈ (m.setNew k v).entries ↔ (k', v') ∈ m.entries ∨ (¬ m.Has k ∧ k' = k ∧ v' = v) := by
  unfold setNew
  split_ifs with h
  · simp [h]
  · simp [h]

omit [DecidableEq κ] in
theorem has_iff {m : InsMap κ ν} {k : κ} : m.Has k ↔ ∃ v, (k, v) ∈ m.entries := by simp [Has]

omit [DecidableEq κ] in
/-- An entry is found by its key. -/
theorem eq_of_mem {m : InsMap κ ν} {k : κ} {v v' : ν} (h : (k, v) ∈ m.entries)
    (h' : (k, v') ∈ m.entries) : v = v' :=
  congrArg Prod.snd (List.inj_on_of_nodup_map m.nodup h h' rfl)

end InsMap

/-! ### Collecting -/

section Collecting

variable (key : α → κ) (init : α → ν) (add : ν → α → ν)

/-- An item is added to its entry, which it makes if it is the first of its class. -/
def place (m : InsMap κ ν) (x : α) : InsMap κ ν :=
  (m.setNew (key x) (init x)).modify (key x) fun v => add v x

/-- The items of a list, by their keys. -/
def collect (xs : List α) : InsMap κ ν := xs.foldl (place key init add) InsMap.empty

/-- The items of a list with a key. -/
def fiber (xs : List α) (k : κ) : List α := xs.filter fun x => key x = k

/-- What is in the map after the items of a list. -/
def Collects (m : InsMap κ ν) (xs : List α) : Prop :=
  ∀ k v, (k, v) ∈ m.entries ↔ ∃ x rest, fiber key xs k = x :: rest ∧
    v = (x :: rest).foldl add (init x)

variable {key init add} {m : InsMap κ ν} {xs : List α}

theorem fiber_concat (x : α) (k : κ) :
    fiber key (xs ++ [x]) k = fiber key xs k ++ if key x = k then [x] else [] := by
  rw [fiber, List.filter_append, List.filter_singleton]
  simp [fiber, Bool.cond_eq_ite]

/-- One item more. -/
theorem Collects.place (h : Collects key init add m xs) (x : α) :
    Collects key init add (place key init add m x) (xs ++ [x]) := by
  intro k v
  have hhas : m.Has (key x) ↔ fiber key xs (key x) ≠ [] := by
    rw [InsMap.has_iff]
    constructor
    · rintro ⟨v, hv⟩
      obtain ⟨y, rest, hfiber, -⟩ := (h _ _).mp hv
      rw [hfiber]
      exact List.cons_ne_nil y rest
    · intro hne
      obtain ⟨y, rest, hfiber⟩ := List.exists_cons_of_ne_nil hne
      exact ⟨_, (h _ _).mpr ⟨y, rest, hfiber, rfl⟩⟩
  rw [Theory.place, InsMap.mem_modify, fiber_concat]
  simp only [InsMap.mem_setNew]
  by_cases hk : k = key x
  · subst hk
    simp only [if_true, true_and]
    by_cases hfirst : fiber key xs (key x) = []
    · -- the first item of its class
      have hnone : ∀ w, (key x, w) ∉ m.entries :=
        fun w hw => hhas.mp (InsMap.has_iff.mpr ⟨w, hw⟩) hfirst
      have hnew : ¬ m.Has (key x) := fun hm => hhas.mp hm hfirst
      simp [hnone, hnew, hfirst]
    · obtain ⟨y, rest, hfiber⟩ := List.exists_cons_of_ne_nil hfirst
      have hold : m.Has (key x) := hhas.mpr hfirst
      have hentry : ∀ w, (key x, w) ∈ m.entries ↔ w = (y :: rest).foldl add (init y) := fun w => by
        rw [h, hfiber]
        constructor
        · rintro ⟨z, rest', hcons, rfl⟩
          obtain ⟨rfl, rfl⟩ := List.cons_eq_cons.mp hcons
          rfl
        · rintro rfl
          exact ⟨y, rest, rfl, rfl⟩
      simp only [hentry, hold, not_true, false_and, or_false, exists_eq_left, hfiber,
        List.cons_append]
      constructor
      · rintro rfl
        exact ⟨y, rest ++ [x], rfl, by rw [← List.cons_append, List.foldl_append]; rfl⟩
      · rintro ⟨z, rest', hcons, rfl⟩
        obtain ⟨rfl, rfl⟩ := List.cons_eq_cons.mp hcons
        rw [← List.cons_append, List.foldl_append]
        rfl
  · have hne : key x ≠ k := fun hx => hk hx.symm
    simp only [hk, if_false, hne, List.append_nil, false_and, and_false, or_false,
      exists_eq_right', h k]

/-- **What is in the map in the end.** -/
theorem collects_collect (xs : List α) : Collects key init add (collect key init add xs) xs := by
  induction xs using List.reverseRecOn with
  | nil => intro k v; simp [collect, InsMap.empty, fiber]
  | append_singleton xs x ih =>
    rw [collect, List.foldl_append]
    exact ih.place x

/-- The keys of the map are those of the items. -/
theorem has_collect_iff {k : κ} : (collect key init add xs).Has k ↔ ∃ x ∈ xs, key x = k := by
  rw [InsMap.has_iff]
  simp only [collects_collect xs k]
  constructor
  · rintro ⟨-, x, rest, hfiber, -⟩
    have hx : x ∈ fiber key xs k := hfiber ▸ List.mem_cons_self
    exact ⟨x, (List.mem_filter.mp hx).1, by simpa using (List.mem_filter.mp hx).2⟩
  · rintro ⟨x, hx, hkey⟩
    have hmem : x ∈ fiber key xs k := List.mem_filter.mpr ⟨hx, by simpa using hkey⟩
    obtain ⟨y, rest, hfiber⟩ := List.exists_cons_of_ne_nil (List.ne_nil_of_mem hmem)
    exact ⟨_, y, rest, hfiber, rfl⟩

end Collecting

/-! ### Classes -/

/-- **The classes together are the list.** -/
theorem flatMap_fibers_perm {key : α → κ} {ks : List κ} (hks : ks.Nodup) {xs : List α}
    (h : ∀ x ∈ xs, key x ∈ ks) :
    List.Perm (ks.flatMap (fiber key xs)) xs := by
  induction ks generalizing xs with
  | nil =>
    obtain rfl : xs = [] := List.eq_nil_iff_forall_not_mem.mpr fun x hx => List.not_mem_nil (h x hx)
    exact .nil
  | cons k ks ih =>
    obtain ⟨hk, hks⟩ := List.nodup_cons.mp hks
    have hrest : ∀ x ∈ xs.filter (fun x => !decide (key x = k)), key x ∈ ks := by
      intro x hx
      obtain ⟨hx, hne⟩ := List.mem_filter.mp hx
      exact (List.mem_cons.mp (h x hx)).resolve_left (by simpa using hne)
    have hfibers : ks.flatMap (fiber key xs) =
        ks.flatMap (fiber key (xs.filter fun x => !decide (key x = k))) := by
      refine List.flatMap_congr fun k' hk' => ?_
      rw [fiber, fiber, List.filter_filter]
      refine List.filter_congr fun x _ => ?_
      by_cases hx : key x = k'
      · have hne : k' ≠ k := fun heq => hk (heq ▸ hk')
        simp [hx, hne]
      · simp [hx]
    rw [List.flatMap_cons, hfibers]
    exact ((ih hks hrest).append_left _).trans (List.filter_append_perm _ xs)

omit [DecidableEq κ] in
/-- Two maps whose entries correspond are lists whose entries do, in some order. -/
theorem exists_perm_forall₂ {μ : Type*} {r : ν → μ → Prop} {m : InsMap κ ν}
    {m' : InsMap κ μ} (h : ∀ k v, (k, v) ∈ m.entries → ∃ w, (k, w) ∈ m'.entries ∧ r v w)
    (hkeys : ∀ k, m'.Has k → m.Has k) :
    ∃ ws : List μ, List.Perm ws m'.values ∧ List.Forall₂ r m.values ws := by
  choose f hf using fun p : {p // p ∈ m.entries} => h p.1.1 p.1.2 p.2
  let ps : List (κ × μ) := m.entries.attach.map fun p => (p.1.1, f p)
  have hfst : ps.map Prod.fst = m.entries.map Prod.fst := by
    rw [List.map_map]
    show m.entries.attach.map (fun p => p.1.1) = m.entries.map Prod.fst
    exact List.attach_map_val
  have hperm : List.Perm ps m'.entries := by
    refine (List.perm_ext_iff_of_nodup (List.Nodup.of_map Prod.fst (hfst ▸ m.nodup))
      m'.nodup.of_map).mpr ?_
    rintro ⟨k, w⟩
    constructor
    · intro hmem
      obtain ⟨p, -, hp⟩ := List.mem_map.mp hmem
      exact hp ▸ (hf p).1
    · intro hmem
      obtain ⟨v, hv⟩ := InsMap.has_iff.mp (hkeys k (InsMap.has_iff.mpr ⟨w, hmem⟩))
      have hw := InsMap.eq_of_mem hmem (hf ⟨(k, v), hv⟩).1
      exact List.mem_map.mpr ⟨⟨(k, v), hv⟩, List.mem_attach _ _, by rw [hw]⟩
  refine ⟨ps.map Prod.snd, hperm.map Prod.snd, ?_⟩
  rw [InsMap.values, ← List.attach_map_val (f := Prod.snd), List.map_map, List.forall₂_map_left_iff,
    List.forall₂_map_right_iff, List.forall₂_same]
  exact fun p _ => (hf p).2

/-! ### The first of each class -/

/-- A list with one item of each class, and the set of their keys. -/
structure Firsts (key : α → κ) where
  /-- The keys. -/
  seen : List κ
  /-- The items. -/
  items : List α
  /-- The keys are those of the items. -/
  seen_eq : seen = items.map key
  /-- No two items are of one class. -/
  nodup : (items.map key).Nodup

namespace Firsts

variable {key : α → κ}

/-- No items. -/
def empty : Firsts key := ⟨[], [], rfl, List.nodup_nil⟩

/-- Take an item, if it is the first of its class. -/
def push (u : Firsts key) (x : α) : Firsts key :=
  if h : key x ∈ u.seen then u
  else
    { seen := u.seen ++ [key x]
      items := u.items ++ [x]
      seen_eq := by rw [u.seen_eq, List.map_append, List.map_singleton]
      nodup := by
        rw [List.map_append, List.nodup_append]
        refine ⟨u.nodup, List.nodup_singleton _, fun a ha b hb hab => h ?_⟩
        rw [u.seen_eq, ← List.mem_singleton.mp hb, ← hab]
        exact ha }

theorem mem_items_push {u : Firsts key} {x y : α} (h : y ∈ (u.push x).items) :
    y ∈ u.items ∨ y = x := by
  unfold push at h
  split_ifs at h with hseen
  · exact Or.inl h
  · simpa using h

theorem mem_seen_push {u : Firsts key} {x : α} {k : κ} : k ∈ (u.push x).seen ↔
    k ∈ u.seen ∨ k = key x := by
  unfold push
  split_ifs with hseen
  · exact ⟨Or.inl, fun h => h.elim id fun hk => hk ▸ hseen⟩
  · simp

/-- The items of the list. -/
theorem mem_items_foldl {xs : List α} {u : Firsts key} {y : α} (h : y ∈ (xs.foldl push u).items) :
    y ∈ u.items ∨ y ∈ xs := by
  induction xs generalizing u with
  | nil => exact Or.inl h
  | cons x xs ih =>
    rcases ih h with h | h
    · rcases mem_items_push h with h | rfl
      · exact Or.inl h
      · exact Or.inr List.mem_cons_self
    · exact Or.inr (List.mem_cons_of_mem x h)

/-- The keys of the list. -/
theorem mem_seen_foldl {xs : List α} {u : Firsts key} {k : κ} :
    k ∈ (xs.foldl push u).seen ↔ k ∈ u.seen ∨ ∃ x ∈ xs, key x = k := by
  induction xs generalizing u with
  | nil => simp
  | cons x xs ih =>
    rw [List.foldl_cons, ih, mem_seen_push, List.exists_mem_cons_iff, or_assoc, @eq_comm _ k]

/-- **Every class of the list has one item.** -/
theorem exists_mem_items {xs : List α} {x : α} (h : x ∈ xs) :
    ∃ y ∈ (xs.foldl push (empty : Firsts key)).items, key y = key x := by
  have hseen : key x ∈ (xs.foldl push (empty : Firsts key)).seen :=
    mem_seen_foldl.mpr (Or.inr ⟨x, h, rfl⟩)
  rw [seen_eq] at hseen
  exact List.mem_map.mp hseen

end Firsts

end IpRouter.Theory
