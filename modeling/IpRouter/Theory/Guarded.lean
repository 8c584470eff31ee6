import IpRouter.Theory.Framing

/-!
# Programs that check what they read

A program that reads memory by offsets checks each offset first and stops with an
error of its own when the check fails; where a check is missing it reads memory
that is not its own, which is a fault. `Checked ε α` is such a program. `Safe m post`
says that it does not fault and that what it returns is `post`; it is proved along
the program by `Safe.bind`, with `Safe.times` for a loop that counts.
-/

namespace IpRouter.Theory

/-- How a program stops early. -/
inductive Halt (ε : Type) where
  /-- It reads memory that is not its own. -/
  | fault
  /-- It reports an error. -/
  | error (e : ε)
  deriving DecidableEq

/-- A program that checks what it reads. -/
abbrev Checked (ε α : Type) := Except (Halt ε) α

variable {ε α β : Type}

namespace Checked

/-- It stops with an error. -/
def stop (e : ε) : Checked ε α := .error (.error e)

/-- A loop of `n` rounds. -/
def times (body : α → Checked ε α) : ℕ → α → Checked ε α
  | 0, a => .ok a
  | n + 1, a => body a >>= times body n

@[simp] theorem ok_bind (a : α) (f : α → Checked ε β) : (Except.ok a : Checked ε α) >>= f = f a :=
  rfl

@[simp] theorem error_bind (h : Halt ε) (f : α → Checked ε β) :
    (Except.error h : Checked ε α) >>= f = .error h :=
  rfl

@[simp] theorem pure_eq (a : α) : (pure a : Checked ε α) = .ok a := rfl

/-- What the two parts of a program did that returned. -/
theorem bind_eq_ok {m : Checked ε α} {f : α → Checked ε β} {b : β} :
    m >>= f = .ok b ↔ ∃ a, m = .ok a ∧ f a = .ok b := by
  cases m with
  | ok a => simp
  | error h => simp

/-- What a function that can only report an error does. -/
def lift : Except ε α → Checked ε α
  | .ok a => .ok a
  | .error e => stop e

/-- **A loop over items that lie one after the other**, each round going on
from where its item ends. -/
theorem times_laid (position : α → ℕ) {R : ℕ → β → ℕ → Prop} {body : α → Checked ε α}
    (hbody : ∀ a b next, R (position a) b next → ∃ a', body a = .ok a' ∧ position a' = next)
    {bs : List β} {a : α} {next : ℕ} (h : Laid R (position a) bs next) :
    ∃ a', times body bs.length a = .ok a' ∧ position a' = next := by
  induction bs generalizing a with
  | nil =>
    cases h
    exact ⟨a, rfl, rfl⟩
  | cons b bs ih =>
    obtain ⟨mid, hb, hbs⟩ := laid_cons.mp h
    obtain ⟨a', ha', rfl⟩ := hbody a b mid hb
    obtain ⟨a'', ha'', hnext⟩ := ih hbs
    refine ⟨a'', ?_, hnext⟩
    rw [List.length_cons, times, ha', ok_bind, ha'']

/-- What every round of a loop adds to a measure. -/
theorem le_of_times (measure : α → ℕ) {body : α → Checked ε α} {k n : ℕ} {a a' : α}
    (hbody : ∀ a a', body a = .ok a' → measure a + k ≤ measure a') (h : times body n a = .ok a') :
    measure a + n * k ≤ measure a' := by
  induction n generalizing a with
  | zero =>
    cases h
    omega
  | succ n ih =>
    obtain ⟨mid, hmid, hrest⟩ := bind_eq_ok.mp h
    have hround := hbody a mid hmid
    have hle := ih hrest
    rw [Nat.succ_mul]
    omega

end Checked

/-- The program does not fault, and what it returns is `post`. -/
def Safe (m : Checked ε α) (post : α → Prop) : Prop := m ≠ .error .fault ∧ ∀ a, m = .ok a → post a

namespace Safe

variable {m : Checked ε α} {f : α → Checked ε β} {post : α → Prop} {post' : β → Prop}

theorem ok {a : α} (h : post a) : Safe (.ok a : Checked ε α) post :=
  ⟨by simp, fun a' ha' => by cases ha'; exact h⟩

theorem stop (e : ε) : Safe (Checked.stop e) post :=
  ⟨by simp [Checked.stop], fun a ha => by simp [Checked.stop] at ha⟩

/-- **One program after the other.** -/
theorem bind (hm : Safe m post) (hf : ∀ a, post a → Safe (f a) post') : Safe (m >>= f) post' := by
  cases m with
  | ok a => exact hf a (hm.2 a rfl)
  | error h =>
    exact ⟨fun heq => hm.1 (congrArg Except.error (Except.error.inj heq)), fun b hb => by cases hb⟩

theorem and {post₂ : α → Prop} (hm : Safe m post) (h : ∀ a, m = .ok a → post₂ a) : Safe m post₂ :=
  ⟨hm.1, h⟩

theorem mono {post₂ : α → Prop} (hm : Safe m post) (h : ∀ a, post a → post₂ a) : Safe m post₂ :=
  ⟨hm.1, fun a ha => h a (hm.2 a ha)⟩

/-- A check, and what is done when it does not fail. -/
theorem check {e : ε} {c : Prop} [Decidable c] (h : ¬c → Safe m post) :
    Safe (if c then Checked.stop e else m) post := by
  split_ifs with hc
  · exact stop e
  · exact h hc

/-- **A loop whose rounds are safe is safe.** -/
theorem times {body : α → Checked ε α} (hbody : ∀ a, post a → Safe (body a) post) (n : ℕ)
    {a : α} (ha : post a) :
    Safe (Checked.times body n a) post := by
  induction n generalizing a with
  | zero => exact ok ha
  | succ n ih => exact (hbody a ha).bind fun a' ha' => ih ha'

end Safe

end IpRouter.Theory
