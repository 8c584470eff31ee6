import IpRouter.Theory.OrdMap
import Mathlib.Data.List.Dedup

/-!
# Collecting without repetition

A list that is filled from another one, with a set beside it of what has been
taken: an item goes into the list when it is new to the set. The list is then
the first occurrences, in order (`Distinct.items_foldl_push`).
-/

namespace IpRouter.Theory

universe u

variable {α : Type u} [LinearOrder α]

/-- A list without repetition, and the set of its items. -/
structure Distinct (α : Type u) [LinearOrder α] where
  /-- What has been taken. -/
  seen : OrdMap α Unit
  /-- The list. -/
  items : List α
  /-- The set holds the items of the list. -/
  mem_iff : ∀ x, seen.find x = some () ↔ x ∈ items
  /-- Nothing is in the list twice. -/
  nodup : items.Nodup

namespace Distinct

/-- Nothing. -/
def empty : Distinct α := ⟨OrdMap.empty, [], by simp, List.nodup_nil⟩

/-- Take an item, if it is new. -/
def push (u : Distinct α) (x : α) : Distinct α :=
  match h : u.seen.find x with
  | some () => u
  | none =>
    { seen := u.seen.insert x ()
      items := u.items ++ [x]
      mem_iff := fun y => by
        rw [OrdMap.find_insert, List.mem_append, List.mem_singleton, ← u.mem_iff]
        split_ifs with hy <;> simp [hy]
      nodup := by
        have hx : x ∉ u.items := by rw [← u.mem_iff, h]; simp
        simpa [List.nodup_append] using ⟨u.nodup, fun y hy hyx => hx (hyx ▸ hy)⟩ }

theorem items_push (u : Distinct α) (x : α) : (u.push x).items = if x ∈ u.items then
    u.items else u.items ++ [x] := by
  unfold push
  split
  next h => rw [if_pos ((u.mem_iff x).mp h)]
  next h => rw [if_neg fun hx => by rw [(u.mem_iff x).mpr hx] at h; cases h]

variable [BEq α] [LawfulBEq α]

theorem items_foldl (xs : List α) (u : Distinct α) :
    (xs.foldl push u).items = u.items ++ (xs.filter fun x => x ∉ u.items).eraseDups := by
  induction xs generalizing u with
  | nil => simp
  | cons x xs ih =>
    rw [List.foldl_cons, ih, items_push]
    by_cases hx : x ∈ u.items
    · simp [hx]
    · rw [if_neg hx, List.filter_cons_of_pos (by simpa using hx), List.eraseDups_cons,
        List.append_assoc, List.singleton_append, List.filter_filter]
      congr 3
      refine List.filter_congr fun y _ => ?_
      by_cases hy : y = x <;> simp [hy]

/-- **Taking the items of a list in order gives its first occurrences.** -/
theorem items_foldl_push (xs : List α) : (xs.foldl push empty).items = xs.eraseDups := by
  simp [items_foldl, empty]

theorem nodup_eraseDups (xs : List α) : xs.eraseDups.Nodup :=
  items_foldl_push xs ▸ (xs.foldl push empty).nodup

end Distinct

omit [LinearOrder α] in
/-- Nothing is taken from a list without repetition. -/
theorem eraseDups_of_nodup [BEq α] [LawfulBEq α] {xs : List α} (h : xs.Nodup) :
    xs.eraseDups = xs := by
  induction xs with
  | nil => rfl
  | cons x xs ih =>
    obtain ⟨hx, hxs⟩ := List.nodup_cons.mp h
    have hkept : xs.filter (fun y => !(y == x)) = xs :=
      List.filter_eq_self.mpr fun y hy => by simpa using fun hyx : y = x => hx (hyx ▸ hy)
    rw [List.eraseDups_cons, hkept, ih hxs]

end IpRouter.Theory
