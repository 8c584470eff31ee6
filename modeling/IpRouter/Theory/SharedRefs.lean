import Mathlib.Logic.Relation
import Mathlib.Logic.Function.Basic
import Mathlib.Tactic.SplitIfs

/-!
# Shared references

Holders (`K`) refer to targets (`X`), each reference through some way (`G`), and a
table records the way every target in use is reached. Several holders may share
a target. The table is kept only from outside: whoever changes the references has
to add a target to the table with its first reference and to delete it with its
last.

`Coherent` says the table is exactly what the references say. It makes the
references to one target agree (`Coherent.agree`), and it is kept by every `Move`:
taking the first reference, sharing a target, dropping a shared reference,
dropping the last one, and releasing a target from all its holders at once
(`Move.coherent`).
-/

namespace IpRouter.Theory

universe u v w

/-- Who refers to what, and through which way. -/
abbrev Refs (K : Type u) (X : Type v) (G : Type w) := K → X → Option G

variable {K : Type u} {X : Type v} {G : Type w}

/-- The references to one target agree. -/
def Refs.Agree (R : Refs K X G) : Prop :=
  ∀ ⦃k k' x g g'⦄, R k x = some g → R k' x = some g' → g = g'

/-- **The table is what the references say.** -/
def Coherent (R : Refs K X G) (T : X → Option G) : Prop := ∀ x g, T x = some g ↔ ∃ k, R k x = some g

theorem Coherent.agree {R : Refs K X G} {T : X → Option G} (h : Coherent R T) : R.Agree := by
  intro k k' x g g' hk hk'
  have h₁ := (h x g).mpr ⟨k, hk⟩
  have h₂ := (h x g').mpr ⟨k', hk'⟩
  exact Option.some.inj (h₁.symm.trans h₂)

variable [DecidableEq K] [DecidableEq X]

/-- Change what `k` refers to at `x`. -/
def Refs.set (R : Refs K X G) (k : K) (x : X) (g : Option G) : Refs K X G := fun k' x' =>
  if k' = k ∧ x' = x then g else R k' x'

/-- Take `x` from all its holders. -/
def Refs.release (R : Refs K X G) (x : X) : Refs K X G :=
  fun k' x' => if x' = x then none else R k' x'

/-- What may happen to references and table. -/
inductive Move : Refs K X G × (X → Option G) → Refs K X G × (X → Option G) → Prop
  /-- The first reference to `x`: it goes into the table. -/
  | acquire {R : Refs K X G} {T : X → Option G} (k : K) (x : X) (g : G)
      (free : ∀ k', R k' x = none) :
      Move (R, T) (R.set k x (some g), Function.update T x (some g))
  /-- A further reference to `x`, the way the others refer to it. -/
  | share {R : Refs K X G} {T : X → Option G} (k k' : K) (x : X) (g : G) (used : R k' x = some g) :
      Move (R, T) (R.set k x (some g), T)
  /-- A reference to `x` is dropped and another one stays. -/
  | drop {R : Refs K X G} {T : X → Option G} (k k' : K) (x : X) (g : G) (other : k' ≠ k)
      (used : R k' x = some g) :
      Move (R, T) (R.set k x none, T)
  /-- The last reference to `x` is dropped: it leaves the table. -/
  | dropLast {R : Refs K X G} {T : X → Option G} (k : K) (x : X)
      (alone : ∀ k', k' ≠ k → R k' x = none) :
      Move (R, T) (R.set k x none, Function.update T x none)
  /-- All references to `x` are dropped: it leaves the table. -/
  | release {R : Refs K X G} {T : X → Option G} (x : X) :
      Move (R, T) (R.release x, Function.update T x none)

/-- **Every move keeps the table what the references say.** -/
theorem Move.coherent {p q : Refs K X G × (X → Option G)} (h : Move p q) (hp : Coherent p.1 p.2) :
    Coherent q.1 q.2 := by
  have hagree := hp.agree
  cases h with
  | @acquire R T k x g free =>
    intro x' g'
    by_cases hx : x' = x
    · subst hx
      simp only [Function.update_self, Refs.set, and_true, Option.some.injEq]
      refine ⟨fun hg => ⟨k, by simpa using hg⟩, ?_⟩
      rintro ⟨k', hk'⟩
      split_ifs at hk' with hkk
      · exact Option.some.inj hk'
      · rw [free k'] at hk'
        cases hk'
    · simp only [Function.update_of_ne hx, Refs.set, hx, and_false, if_false]
      exact hp x' g'
  | @share R T k k' x g used =>
    intro x' g'
    rw [show T x' = some g' ↔ ∃ k, R k x' = some g' from hp x' g']
    constructor
    · rintro ⟨a, ha⟩
      by_cases hx : x' = x
      · subst hx
        exact ⟨k, by simpa [Refs.set] using hagree used ha⟩
      · exact ⟨a, by simpa [Refs.set, hx] using ha⟩
    · rintro ⟨a, ha⟩
      simp only [Refs.set] at ha
      split_ifs at ha with hax
      · obtain ⟨-, rfl⟩ := hax
        exact ⟨k', ha ▸ used⟩
      · exact ⟨a, ha⟩
  | @drop R T k k' x g other used =>
    intro x' g'
    rw [show T x' = some g' ↔ ∃ k, R k x' = some g' from hp x' g']
    constructor
    · rintro ⟨a, ha⟩
      by_cases hax : a = k ∧ x' = x
      · obtain ⟨rfl, rfl⟩ := hax
        exact ⟨k', by simpa [Refs.set, other, hagree ha used] using used⟩
      · exact ⟨a, by simpa [Refs.set, hax] using ha⟩
    · rintro ⟨a, ha⟩
      simp only [Refs.set] at ha
      split_ifs at ha with hax
      exact ⟨a, ha⟩
  | @dropLast R T k x alone =>
    intro x' g'
    by_cases hx : x' = x
    · subst hx
      simp only [Function.update_self, Refs.set, and_true, reduceCtorEq, false_iff, not_exists]
      intro a ha
      split_ifs at ha with hak
      rw [alone a hak] at ha
      cases ha
    · simp only [Function.update_of_ne hx, Refs.set, hx, and_false, if_false]
      exact hp x' g'
  | @release R T x =>
    intro x' g'
    by_cases hx : x' = x
    · simp [hx, Refs.release]
    · simp only [Function.update_of_ne hx, Refs.release, hx, if_false]
      exact hp x' g'

/-- So does every sequence of moves. -/
theorem coherent_of_moves {p q : Refs K X G × (X → Option G)} (h : Relation.ReflTransGen Move p q)
    (hp : Coherent p.1 p.2) : Coherent q.1 q.2 := by
  induction h with
  | refl => exact hp
  | tail _ hm ih => exact hm.coherent ih

end IpRouter.Theory
