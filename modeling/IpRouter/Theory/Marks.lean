import IpRouter.Theory.Interp

/-!
# Programs whose calls are marked

A history of calls does not say on whose behalf a call was made. `Prog.mark t`
marks every call of a program with `t`, so a program can be written once more with
its parts marked; `Prog.unmark` takes the marks off. What the marked program does
is what the program does (`exec_unmark_iff`, `crash_unmark_iff`), with the marks
for the proofs to look at.
-/

namespace IpRouter.Theory

variable {ι τ : Type} {ρ : ι → Type} {α β γ σ : Type}

/-- The answer to a marked call. -/
abbrev MarkedReply (τ : Type) (ρ : ι → Type) : τ × ι → Type := fun c => ρ c.2

/-- A marked call, with its answer. -/
abbrev MarkedEvent (τ ι : Type) (ρ : ι → Type) := Event (τ × ι) (MarkedReply τ ρ)

/-- The event without its mark. -/
def MarkedEvent.unmark (e : MarkedEvent τ ι ρ) : Event ι ρ := ⟨e.1.2, e.2⟩

/-- The event with a mark. -/
def Event.mark (t : τ) (e : Event ι ρ) : MarkedEvent τ ι ρ := ⟨(t, e.1), e.2⟩

@[simp] theorem Event.unmark_mark (t : τ) (e : Event ι ρ) :
    MarkedEvent.unmark (Event.mark t e) = e :=
  rfl

/-- A host does not see marks. -/
def Answers.marked (A : Answers σ ι ρ) : Answers σ (τ × ι) (MarkedReply τ ρ) :=
  fun s c r s' => A s c.2 r s'

namespace Prog

/-- The program with all its calls marked. -/
def mark (t : τ) : Prog ι ρ α → Prog (τ × ι) (MarkedReply τ ρ) α
  | .ret a => .ret a
  | .call c k => .call (t, c) fun r => (k r).mark t

/-- The program without the marks. -/
def unmark : Prog (τ × ι) (MarkedReply τ ρ) α → Prog ι ρ α
  | .ret a => .ret a
  | .call c k => .call c.2 fun r => (k r).unmark

@[simp] theorem unmark_mark (t : τ) (p : Prog ι ρ α) : (p.mark t).unmark = p := by
  induction p with
  | ret a => rfl
  | call c k ih => exact congrArg (Prog.call c) (funext ih)

@[simp] theorem unmark_pure (a : α) : (pure a : Prog (τ × ι) (MarkedReply τ ρ) α).unmark = pure a :=
  rfl

@[simp] theorem unmark_bind (p : Prog (τ × ι) (MarkedReply τ ρ) α)
    (f : α → Prog (τ × ι) (MarkedReply τ ρ) β) :
    (p >>= f).unmark = p.unmark >>= fun a => (f a).unmark := by
  induction p with
  | ret a => rfl
  | call c k ih => exact congrArg (Prog.call c.2) (funext ih)

/-- The marks of a loop are those of its rounds. -/
@[simp] theorem unmark_loop (f : β → α → Prog (τ × ι) (MarkedReply τ ρ) β) (xs : List α) (b : β) :
    (loop f xs b).unmark = loop (fun b x => (f b x).unmark) xs b := by
  induction xs generalizing b with
  | nil => rfl
  | cons x xs ih =>
    rw [loop_cons, loop_cons, unmark_bind]
    exact congrArg ((f b x).unmark >>= ·) (funext ih)

end Prog

open Prog

variable {A : Answers σ ι ρ} {s s' : σ} {es : List (Event ι ρ)} {a : α}

/-- **A marked program does what the program does.** -/
theorem exec_unmark_iff {p : Prog (τ × ι) (MarkedReply τ ρ) α} :
    Exec A p.unmark s es a s' ↔ ∃ marked : List (MarkedEvent τ ι ρ),
      Exec A.marked p s marked a s' ∧ es = marked.map MarkedEvent.unmark := by
  constructor
  · intro h
    induction p generalizing s es with
    | ret b =>
      obtain ⟨rfl, rfl, rfl⟩ := exec_ret_iff.mp h
      exact ⟨[], .ret, rfl⟩
    | call c k ih =>
      obtain ⟨r, s₁, es', rfl, hA, h⟩ := exec_call_iff.mp h
      obtain ⟨marked, hmarked, rfl⟩ := ih r h
      exact ⟨⟨c, r⟩ :: marked, .call hA hmarked, rfl⟩
  · rintro ⟨marked, h, rfl⟩
    induction h with
    | ret => exact .ret
    | call hA _ ih => exact .call hA ih

/-- The same when the program is cut off. -/
theorem crash_unmark_iff {p : Prog (τ × ι) (MarkedReply τ ρ) α} :
    Crash A p.unmark s es s' ↔ ∃ marked : List (MarkedEvent τ ι ρ),
      Crash A.marked p s marked s' ∧ es = marked.map MarkedEvent.unmark := by
  constructor
  · intro h
    induction p generalizing s es with
    | ret b =>
      cases h
      exact ⟨[], .stop, rfl⟩
    | call c k ih =>
      rcases h with _ | ⟨hA, h⟩
      · exact ⟨[], .stop, rfl⟩
      · obtain ⟨marked, hmarked, rfl⟩ := ih _ h
        exact ⟨_ :: marked, .call hA hmarked, rfl⟩
  · rintro ⟨marked, h, rfl⟩
    induction h with
    | stop => exact .stop
    | call hA _ ih => exact .call hA ih

/-- A program marked throughout makes its calls with that mark. -/
theorem exec_mark_iff {p : Prog ι ρ α} {t : τ} {marked : List (MarkedEvent τ ι ρ)} :
    Exec A.marked (p.mark t) s marked a s' ↔ ∃ es, Exec A p s es a s' ∧
      marked = es.map (Event.mark t) := by
  constructor
  · intro h
    induction p generalizing s marked with
    | ret b =>
      obtain ⟨rfl, rfl, rfl⟩ := exec_ret_iff.mp h
      exact ⟨[], .ret, rfl⟩
    | call c k ih =>
      obtain ⟨r, s₁, marked', rfl, hA, h⟩ := exec_call_iff.mp h
      obtain ⟨es, hes, rfl⟩ := ih r h
      exact ⟨⟨c, r⟩ :: es, .call hA hes, rfl⟩
  · rintro ⟨es, h, rfl⟩
    induction h with
    | ret => exact .ret
    | call hA _ ih => exact .call hA ih

end IpRouter.Theory
