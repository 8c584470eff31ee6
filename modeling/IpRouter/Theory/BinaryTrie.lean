import Mathlib.Data.List.Basic
import Mathlib.Data.List.Infix

/-!
# Networks in a binary tree

A network is a string of bits, and an address is in the networks that are prefixes
of it. A binary tree (`Trie`) keeps networks none of which is in another: the way
from the root to a leaf is a network. `lookup` follows the bits of an address and
says after how many of them it stops, and what it finds there.

`lookup_eq_some_iff` is what a lookup means without the tree: it finds a network,
with its length, exactly if the address is in it.
-/

namespace IpRouter.Theory

/-- A tree of networks with what is kept for each. -/
inductive Trie (α : Type) where
  /-- No network. -/
  | empty
  /-- One network: everything that gets here. -/
  | leaf (a : α)
  /-- The networks that go on with a `0`, and those that go on with a `1`. -/
  | node (zero one : Trie α)

namespace Trie

variable {α : Type} {t : Trie α} {bits p : List Bool} {a : α} {n : ℕ}

/-- The length of the longest way down. -/
def height : Trie α → ℕ
  | empty => 0
  | leaf _ => 0
  | node zero one => max zero.height one.height + 1

/-- The networks in the tree. -/
def networks : Trie α → List (List Bool × α)
  | empty => []
  | leaf a => [([], a)]
  | node zero one =>
    zero.networks.map (fun net => (false :: net.1, net.2)) ++
      one.networks.map (fun net => (true :: net.1, net.2))

/-- Follow the bits of an address: how many, and what is there. -/
def lookup : Trie α → List Bool → ℕ × Option α
  | empty, _ => (0, none)
  | leaf a, _ => (0, some a)
  | node _ _, [] => (0, none)
  | node zero one, bit :: bits =>
    let found := if bit then one.lookup bits else zero.lookup bits
    (found.1 + 1, found.2)

theorem lookup_cons (zero one : Trie α) (bit : Bool) (bits : List Bool) :
    (node zero one).lookup (bit :: bits) =
      (((if bit then one else zero).lookup bits).1 + 1,
        ((if bit then one else zero).lookup bits).2) := by
  cases bit <;> rfl

theorem mem_networks_node {zero one : Trie α} {bit : Bool} :
    (bit :: p, a) ∈ (node zero one).networks ↔ (p, a) ∈ (if bit then one else zero).networks := by
  cases bit <;> simp [networks]

theorem nil_not_mem_networks_node (zero one : Trie α) : ([], a) ∉ (node zero one).networks := by
  simp [networks]

/-- **What is found is the network the address is in**, with its length. -/
theorem lookup_eq_some_iff (hheight : t.height ≤ bits.length) :
    t.lookup bits = (n, some a) ↔ n ≤ bits.length ∧ (bits.take n, a) ∈ t.networks := by
  induction t generalizing bits n with
  | empty => simp [lookup, networks]
  | leaf c =>
    simp only [lookup, networks, Prod.mk.injEq, Option.some.injEq, List.mem_singleton,
      List.take_eq_nil_iff]
    constructor
    · rintro ⟨rfl, rfl⟩
      exact ⟨Nat.zero_le _, Or.inl rfl, rfl⟩
    · rintro ⟨hle, hnil, rfl⟩
      refine ⟨?_, rfl⟩
      rcases hnil with rfl | rfl
      · rfl
      · exact (Nat.le_zero.mp hle).symm
  | node zero one ihzero ihone =>
    rw [height] at hheight
    cases bits with
    | nil => simp at hheight
    | cons bit bits =>
      have ih : (if bit then one else zero).lookup bits = (n - 1, some a) ↔
          n - 1 ≤ bits.length ∧ (bits.take (n - 1), a) ∈ (if bit then one else zero).networks := by
        rw [List.length_cons] at hheight
        cases bit
        · exact ihzero (by omega)
        · exact ihone (by omega)
      rw [lookup_cons]
      cases n with
      | zero => simp [nil_not_mem_networks_node]
      | succ n =>
        rw [Nat.add_sub_cancel] at ih
        rw [List.take_succ_cons, mem_networks_node, List.length_cons, Nat.succ_le_succ_iff, ← ih,
          Prod.ext_iff, Prod.ext_iff]
        simp only [Nat.add_right_cancel_iff]

/-- **Nothing is found exactly if the address is in no network.** -/
theorem lookup_eq_none_iff (hheight : t.height ≤ bits.length) :
    (t.lookup bits).2 = none ↔ ∀ net ∈ t.networks, ¬net.1 <+: bits := by
  constructor
  · rintro hnone ⟨p, a⟩ hnet hstart
    replace hstart : p <+: bits := hstart
    rw [List.prefix_iff_eq_take.mp hstart] at hnet
    have hfound := (lookup_eq_some_iff hheight).mpr ⟨hstart.length_le, hnet⟩
    rw [hfound] at hnone
    cases hnone
  · intro hall
    cases hfound : (t.lookup bits).2 with
    | none => rfl
    | some a =>
      obtain ⟨-, hnet⟩ :=
        (lookup_eq_some_iff (n := (t.lookup bits).1) hheight).mp (Prod.ext rfl hfound)
      exact absurd (List.take_prefix _ _) (hall _ hnet)

end Trie

end IpRouter.Theory
