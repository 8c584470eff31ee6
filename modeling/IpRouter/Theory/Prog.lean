import Mathlib.Data.List.Basic
import Mathlib.Data.Sigma.Basic

/-!
# Programs that make calls

A program is a tree of calls to whatever it runs on: each node names a call, and
the branches say how the program goes on from each answer. What a call may
answer, and what it does to the state outside the program, is a relation
`Answers`, so one program can be run on a host that never fails, on one that
fails as it likes, or in the middle of other programs.

* `Exec A p s es a s'`: the program runs to its end, making the calls and getting
  the answers listed in `es`.
* `Crash A p s es s'`: the program is cut off after the calls listed in `es`.

`exec_bind_iff` and `exec_do_iff` take an execution apart along the program, and
`exec_loop_inv` is the rule for loops: an invariant of the items done, the calls
made, the accumulator and the state. A crash needs no rules of its own, because
it cuts an execution short (`Crash.extend`): what is known about the calls of
every execution is known about the calls before a crash, and `Crash.inv` turns
it into what the crash leaves behind.

The last section is about runs of a step relation.
-/

namespace IpRouter.Theory

/-- A program over calls `ι`, where call `c` answers a `ρ c`. -/
inductive Prog (ι : Type) (ρ : ι → Type) (α : Type) where
  /-- The program ends with the result `a`. -/
  | ret (a : α)
  /-- The program makes the call `c` and goes on from its answer. -/
  | call (c : ι) (k : ρ c → Prog ι ρ α)

/-- A call that was made, with its answer. -/
abbrev Event (ι : Type) (ρ : ι → Type) := (c : ι) × ρ c

/-- What calls may answer: in the state `s` call `c` may answer `r` and leave `s'`. -/
abbrev Answers (σ : Type) (ι : Type) (ρ : ι → Type) := σ → (c : ι) → ρ c → σ → Prop

namespace Prog

variable {ι : Type} {ρ : ι → Type} {α β κ σ : Type}

/-- Run `p`, then go on with its result. -/
def bind : Prog ι ρ α → (α → Prog ι ρ β) → Prog ι ρ β
  | .ret a, f => f a
  | .call c k, f => .call c fun r => (k r).bind f

instance : Monad (Prog ι ρ) where
  pure := .ret
  bind := .bind

/-- The program that makes one call. -/
def lift (c : ι) : Prog ι ρ (ρ c) := .call c .ret

/-- Run `f` on every item of a list in turn, handing on an accumulator. -/
def loop (f : β → α → Prog ι ρ β) : List α → β → Prog ι ρ β
  | [], b => .ret b
  | x :: xs, b => (f b x).bind (loop f xs)

/-- Run the program on a host that takes its decisions from a list, and `last`
once the list is used up. -/
def play (ans : κ → σ → (c : ι) → ρ c × σ) (last : κ) : Prog ι ρ α → List κ → σ →
    List (Event ι ρ) × α × σ
  | .ret a, _, s => ([], a, s)
  | .call c k, ks, s =>
    let answer := ans (ks.headD last) s c
    let rest := (k answer.1).play ans last ks.tail answer.2
    (⟨c, answer.1⟩ :: rest.1, rest.2)

end Prog

open Prog

variable {ι : Type} {ρ : ι → Type} {α β κ σ : Type} {A : Answers σ ι ρ}

/-! ### Executions -/

/-- `Exec A p s es a s'`: from `s` the program `p` makes the calls `es`, ends with the
result `a`, and leaves `s'`. -/
inductive Exec (A : Answers σ ι ρ) : Prog ι ρ α → σ → List (Event ι ρ) → α → σ → Prop
  /-- The program has ended. -/
  | ret {a : α} {s : σ} : Exec A (.ret a) s [] a s
  /-- The program makes a call. -/
  | call {c : ι} {k : ρ c → Prog ι ρ α} {s s₁ s' : σ} {r : ρ c} {es : List (Event ι ρ)} {a : α} :
      A s c r s₁ → Exec A (k r) s₁ es a s' → Exec A (.call c k) s (⟨c, r⟩ :: es) a s'

/-- `Crash A p s es s'`: from `s` the program `p` makes the calls `es`, which
leave `s'`, and is cut off. -/
inductive Crash (A : Answers σ ι ρ) : Prog ι ρ α → σ → List (Event ι ρ) → σ → Prop
  /-- Cut off here. -/
  | stop {p : Prog ι ρ α} {s : σ} : Crash A p s [] s
  /-- Cut off after a further call. -/
  | call {c : ι} {k : ρ c → Prog ι ρ α} {s s₁ s' : σ} {r : ρ c} {es : List (Event ι ρ)} :
      A s c r s₁ → Crash A (k r) s₁ es s' → Crash A (.call c k) s (⟨c, r⟩ :: es) s'

@[simp] theorem exec_ret_iff {a b : α} {s s' : σ} {es : List (Event ι ρ)} :
    Exec A (.ret a) s es b s' ↔ es = [] ∧ b = a ∧ s' = s := by
  constructor
  · rintro ⟨⟩
    exact ⟨rfl, rfl, rfl⟩
  · rintro ⟨rfl, rfl, rfl⟩
    exact .ret

@[simp] theorem exec_pure_iff {a b : α} {s s' : σ} {es : List (Event ι ρ)} :
    Exec A (pure a : Prog ι ρ α) s es b s' ↔ es = [] ∧ b = a ∧ s' = s := exec_ret_iff

theorem exec_call_iff {c : ι} {k : ρ c → Prog ι ρ α} {s s' : σ} {es : List (Event ι ρ)} {a : α} :
    Exec A (.call c k) s es a s' ↔ ∃ r s₁ es', es = ⟨c, r⟩ :: es' ∧ A s c r s₁ ∧
      Exec A (k r) s₁ es' a s' := by
  constructor
  · rintro (⟨⟩ | ⟨h, h'⟩)
    exact ⟨_, _, _, rfl, h, h'⟩
  · rintro ⟨r, s₁, es', rfl, h, h'⟩
    exact .call h h'

@[simp] theorem exec_lift_iff {c : ι} {r : ρ c} {s s' : σ} {es : List (Event ι ρ)} :
    Exec A (lift c) s es r s' ↔ es = [⟨c, r⟩] ∧ A s c r s' := by
  rw [lift, exec_call_iff]
  constructor
  · rintro ⟨r', s₁, es', rfl, h, ⟨⟩⟩
    exact ⟨rfl, h⟩
  · rintro ⟨rfl, h⟩
    exact ⟨r, s', [], rfl, h, .ret⟩

/-- A sequential composition runs its parts one after the other. -/
theorem exec_bind_iff {p : Prog ι ρ α} {f : α → Prog ι ρ β} {s s' : σ}
    {es : List (Event ι ρ)} {b : β} :
    Exec A (p.bind f) s es b s' ↔
      ∃ a s₁ es₁ es₂, es = es₁ ++ es₂ ∧ Exec A p s es₁ a s₁ ∧ Exec A (f a) s₁ es₂ b s' := by
  constructor
  · intro h
    induction p generalizing s es with
    | ret a => exact ⟨a, s, [], es, rfl, .ret, h⟩
    | call c k ih =>
      obtain ⟨r, s₁, es', rfl, hA, h⟩ := exec_call_iff.mp h
      obtain ⟨a, s₂, es₁, es₂, rfl, h₁, h₂⟩ := ih r h
      exact ⟨a, s₂, ⟨c, r⟩ :: es₁, es₂, rfl, .call hA h₁, h₂⟩
  · rintro ⟨a, s₁, es₁, es₂, rfl, h₁, h₂⟩
    induction h₁ with
    | ret => exact h₂
    | call hA _ ih => exact .call hA (ih h₂)

/-- The same for `do` blocks. -/
theorem exec_do_iff {p : Prog ι ρ α} {f : α → Prog ι ρ β} {s s' : σ}
    {es : List (Event ι ρ)} {b : β} :
    Exec A (p >>= f) s es b s' ↔
      ∃ a s₁ es₁ es₂, es = es₁ ++ es₂ ∧ Exec A p s es₁ a s₁ ∧ Exec A (f a) s₁ es₂ b s' :=
  exec_bind_iff

/-- A step of a `do` block that makes one call. -/
theorem exec_lift_do_iff {c : ι} {f : ρ c → Prog ι ρ β} {s s' : σ} {es : List (Event ι ρ)} {b : β} :
    Exec A (lift c >>= f) s es b s' ↔ ∃ r s₁ es', es = ⟨c, r⟩ :: es' ∧ A s c r s₁ ∧
      Exec A (f r) s₁ es' b s' :=
  exec_call_iff

/-- An execution on a host is one on every host that gives the same answers. -/
theorem Exec.mono {A B : Answers σ ι ρ} {p : Prog ι ρ α} {s s' : σ} {es : List (Event ι ρ)}
    {a : α} (h : Exec A p s es a s') (hAB : ∀ e ∈ es, ∀ s s', A s e.1 e.2 s' → B s e.1 e.2 s') :
    Exec B p s es a s' := by
  induction h with
  | ret => exact .ret
  | call hA _ ih =>
    exact .call (hAB _ List.mem_cons_self _ _ hA) (ih fun e he => hAB e (List.mem_cons_of_mem _ he))

/-- The program makes these calls, gets these answers, and ends with this result: an
execution as the program sees it. -/
abbrev Makes (p : Prog ι ρ α) (es : List (Event ι ρ)) (a : α) : Prop :=
  Exec (fun (_ : Unit) _ _ _ => True) p () es a ()

/-- The host that gives only those answers of `A` that are `ok`. -/
def restrict (A : Answers σ ι ρ) (ok : (c : ι) → ρ c → Bool) : Answers σ ι ρ := fun s c r s' =>
  A s c r s' ∧ ok c r = true

/-- An execution on a restricted host is one that got no other answers. -/
theorem exec_restrict_iff {ok : (c : ι) → ρ c → Bool} {p : Prog ι ρ α} {s s' : σ}
    {es : List (Event ι ρ)} {a : α} :
    Exec (restrict A ok) p s es a s' ↔ Exec A p s es a s' ∧ ∀ e ∈ es, ok e.1 e.2 = true := by
  constructor
  · intro h
    refine ⟨h.mono fun _ _ _ _ hA => hA.1, ?_⟩
    induction h with
    | ret => simp
    | call hA _ ih =>
      intro e he
      rcases List.mem_cons.mp he with rfl | he
      · exact hA.2
      · exact ih e he
  · rintro ⟨h, hok⟩
    exact h.mono fun e he _ _ hA => ⟨hA, hok e he⟩

/-- A run on a host that takes its decisions from a list is an execution. -/
theorem exec_play {ans : κ → σ → (c : ι) → ρ c × σ}
    (hans : ∀ x s c, A s c (ans x s c).1 (ans x s c).2) (last : κ) (p : Prog ι ρ α)
    (ks : List κ) (s : σ) :
    Exec A p s (p.play ans last ks s).1 (p.play ans last ks s).2.1 (p.play ans last ks s).2.2 := by
  induction p generalizing ks s with
  | ret a => exact .ret
  | call c k ih => exact .call (hans _ _ _) (ih _ _ _)

/-- The loop rule that sees the answers: an invariant of the items done, the calls made so far, the
accumulator and the state, kept by every iteration, holds at the end. -/
theorem exec_loop_inv {f : β → α → Prog ι ρ β} {xs : List α}
    (I : List α → List (Event ι ρ) → β → σ → Prop)
    (hstep : ∀ done x rest es b s es' b' s',
      xs = done ++ x :: rest → I done es b s → Exec A (f b x) s es' b' s' →
      I (done ++ [x]) (es ++ es') b' s')
    {b b' : β} {s s' : σ} {es : List (Event ι ρ)} (h₀ : I [] [] b s)
    (h : Exec A (loop f xs b) s es b' s') :
    I xs es b' s' := by
  have key : ∀ (rest done : List α) (es₀ es : List (Event ι ρ)) (b : β) (s : σ), xs = done ++ rest →
      I done es₀ b s → Exec A (loop f rest b) s es b' s' → I xs (es₀ ++ es) b' s' := by
    intro rest
    induction rest with
    | nil =>
      rintro done es₀ es b s hxs hI ⟨⟩
      simpa [hxs] using hI
    | cons x rest ih =>
      intro done es₀ es b s hxs hI hrun
      obtain ⟨b₁, s₁, es₁, es₂, rfl, h₁, h₂⟩ := exec_bind_iff.mp hrun
      rw [← List.append_assoc]
      exact ih (done ++ [x]) (es₀ ++ es₁) es₂ b₁ s₁ (by simp [hxs])
        (hstep done x rest es₀ b s es₁ b₁ s₁ hxs hI h₁) h₂
  exact key xs [] [] es b s rfl h₀ h

/-! ### What executions keep -/

/-- What every call that was made keeps, the execution keeps. -/
theorem Exec.inv {I : σ → Prop} {p : Prog ι ρ α} {s s' : σ} {es : List (Event ι ρ)}
    {a : α} (h : Exec A p s es a s') (hI : ∀ e ∈ es, ∀ s s', I s → A s e.1 e.2 s' → I s')
    (h₀ : I s) : I s' := by
  induction h with
  | ret => exact h₀
  | call hA _ ih =>
    exact ih (fun e he => hI e (List.mem_cons_of_mem _ he)) (hI _ List.mem_cons_self _ _ h₀ hA)

/-- The same when the program is cut off. -/
theorem Crash.inv {I : σ → Prop} {p : Prog ι ρ α} {s s' : σ} {es : List (Event ι ρ)}
    (h : Crash A p s es s') (hI : ∀ e ∈ es, ∀ s s', I s → A s e.1 e.2 s' → I s')
    (h₀ : I s) : I s' := by
  induction h with
  | stop => exact h₀
  | call hA _ ih =>
    exact ih (fun e he => hI e (List.mem_cons_of_mem _ he)) (hI _ List.mem_cons_self _ _ h₀ hA)

/-- A crash on a host is one on every host that gives the same answers. -/
theorem Crash.mono {B : Answers σ ι ρ} (hAB : ∀ s c r s', A s c r s' → B s c r s') {p : Prog ι ρ α}
    {s s' : σ} {es : List (Event ι ρ)} (h : Crash A p s es s') : Crash B p s es s' := by
  induction h with
  | stop => exact .stop
  | call hA _ ih => exact .call (hAB _ _ _ _ hA) ih

/-- What is only done to the result does not matter to a crash. -/
theorem crash_map_iff {p : Prog ι ρ α} {f : α → β} {s s' : σ} {es : List (Event ι ρ)} :
    Crash A (p >>= fun a => pure (f a)) s es s' ↔ Crash A p s es s' := by
  constructor
  · intro h
    induction p generalizing s es with
    | ret a =>
      cases h
      exact .stop
    | call c k ih =>
      rcases h with _ | ⟨hA, h⟩
      · exact .stop
      · exact .call hA (ih _ h)
  · intro h
    induction h with
    | stop => exact .stop
    | call hA _ ih => exact .call hA ih

/-- On a host that always answers, every program runs to its end. -/
theorem exists_exec (htotal : ∀ s c, ∃ r s', A s c r s') (p : Prog ι ρ α) (s : σ) :
    ∃ es a s', Exec A p s es a s' := by
  induction p generalizing s with
  | ret a => exact ⟨[], a, s, .ret⟩
  | call c k ih =>
    obtain ⟨r, s₁, hA⟩ := htotal s c
    obtain ⟨es, a, s', h⟩ := ih r s₁
    exact ⟨⟨c, r⟩ :: es, a, s', .call hA h⟩

/-- **A crash cuts an execution short**: what was done before the crash is the first part of
what an execution does, where the rest may be done on any host `B` that always answers, and
answers nothing `A` could not. -/
theorem Crash.extend {B : Answers σ ι ρ} (htotal : ∀ s c, ∃ r s', B s c r s')
    (hBA : ∀ s c r s', B s c r s' → A s c r s') {p : Prog ι ρ α} {s s' : σ} {es : List (Event ι ρ)}
    (h : Crash A p s es s') :
    ∃ q es' a s'', Exec B q s' es' a s'' ∧ Exec A p s (es ++ es') a s'' := by
  induction h with
  | @stop p s =>
    obtain ⟨es', a, s'', h⟩ := exists_exec htotal p s
    exact ⟨p, es', a, s'', h, h.mono fun _ _ _ _ hB => hBA _ _ _ _ hB⟩
  | call hA _ ih =>
    obtain ⟨q, es', a, s'', hB, h⟩ := ih
    exact ⟨q, es', a, s'', hB, .call hA h⟩

/-! ### Which calls a program can make -/

/-- Every call the program can make is `ok`. -/
def Prog.Only (ok : ι → Prop) : Prog ι ρ α → Prop
  | .ret _ => True
  | .call c k => ok c ∧ ∀ r, (k r).Only ok

namespace Prog

variable {ok : ι → Prop}

@[simp] theorem only_pure (a : α) : (pure a : Prog ι ρ α).Only ok := trivial

@[simp] theorem only_lift {c : ι} : (lift c : Prog ι ρ (ρ c)).Only ok ↔ ok c :=
  ⟨fun h => h.1, fun h => ⟨h, fun _ => trivial⟩⟩

theorem only_bind {p : Prog ι ρ α} {f : α → Prog ι ρ β} (hp : p.Only ok) (hf : ∀ a, (f a).Only ok) :
    (p >>= f).Only ok := by
  induction p with
  | ret a => exact hf a
  | call c k ih => exact ⟨hp.1, fun r => ih r (hp.2 r)⟩

theorem only_loop {f : β → α → Prog ι ρ β} (hf : ∀ b x, (f b x).Only ok) (xs : List α) (b : β) :
    (loop f xs b).Only ok := by
  induction xs generalizing b with
  | nil => trivial
  | cons x xs ih => exact only_bind (hf b x) ih

end Prog

/-- An execution makes only calls the program can make. -/
theorem Exec.only {ok : ι → Prop} {p : Prog ι ρ α} {s s' : σ} {es : List (Event ι ρ)} {a : α}
    (h : Exec A p s es a s') (hp : p.Only ok) : ∀ e ∈ es, ok e.1 := by
  induction h with
  | ret => simp
  | call _ _ ih =>
    intro e he
    rcases List.mem_cons.mp he with rfl | he
    · exact hp.1
    · exact ih (hp.2 _) e he

/-! ### Runs -/

/-- A run of a step relation, with the labels of its steps. -/
inductive Run {L : Type} (step : σ → L → σ → Prop) : σ → List L → σ → Prop
  /-- No step. -/
  | nil {s : σ} : Run step s [] s
  /-- A step, then a run. -/
  | cons {s s₁ s' : σ} {l : L} {ls : List L} : step s l s₁ → Run step s₁ ls s' →
      Run step s (l :: ls) s'

/-- What every step keeps, every run keeps. -/
theorem Run.inv {L : Type} {step : σ → L → σ → Prop} {I : σ → Prop}
    (hI : ∀ s l s', I s → step s l s' → I s') {s s' : σ} {ls : List L} (h : Run step s ls s')
    (h₀ : I s) : I s' := by
  induction h with
  | nil => exact h₀
  | cons hs _ ih => exact ih (hI _ _ _ h₀ hs)

/-- A run can be cut anywhere. -/
theorem run_append_iff {L : Type} {step : σ → L → σ → Prop} {s s' : σ} {ls₁ ls₂ : List L} :
    Run step s (ls₁ ++ ls₂) s' ↔ ∃ s₁, Run step s ls₁ s₁ ∧ Run step s₁ ls₂ s' := by
  induction ls₁ generalizing s with
  | nil =>
    refine ⟨fun h => ⟨s, .nil, h⟩, ?_⟩
    rintro ⟨_, ⟨⟩, h⟩
    exact h
  | cons l ls₁ ih =>
    constructor
    · rintro (⟨⟩ | ⟨hs, h⟩)
      obtain ⟨s₁, h₁, h₂⟩ := ih.mp h
      exact ⟨s₁, .cons hs h₁, h₂⟩
    · rintro ⟨s₁, ⟨⟩ | ⟨hs, h₁⟩, h₂⟩
      exact .cons hs (ih.mpr ⟨s₁, h₁, h₂⟩)

end IpRouter.Theory
