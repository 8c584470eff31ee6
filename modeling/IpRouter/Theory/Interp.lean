import IpRouter.Theory.Prog

/-!
# Programs whose calls are programs

Where a call is itself a program over the calls of a lower level, with a state that
it is given and leaves, a program of the upper level is one of the lower level:
`Prog.interp f p s` runs `p` from the state `s` with `f` in place of its calls.
`interp_bind` and `interp_loop` take it apart along `p`, and
`run_of_interp` says that what is executed below is a run of the calls above, one
after the other.

The laws of programs and loops these rest on come first.
-/

namespace IpRouter.Theory

namespace Prog

variable {ι κ : Type} {ρ : ι → Type} {π : κ → Type} {α β γ σ : Type}

/-! ### Laws -/

theorem bind_ret (p : Prog ι ρ α) : p.bind .ret = p := by
  induction p with
  | ret a => rfl
  | call c k ih => exact congrArg (Prog.call c) (funext ih)

theorem bind_bind (p : Prog ι ρ α) (f : α → Prog ι ρ β) (g : β → Prog ι ρ γ) :
    (p.bind f).bind g = p.bind fun a => (f a).bind g := by
  induction p with
  | ret a => rfl
  | call c k ih => exact congrArg (Prog.call c) (funext ih)

instance lawfulMonad : LawfulMonad (Prog ι ρ) :=
  LawfulMonad.mk' (m := Prog ι ρ) (fun p => bind_ret p) (fun _ _ => rfl)
    (fun p f g => bind_bind p f g)

theorem loop_cons (f : β → α → Prog ι ρ β) (x : α) (xs : List α) (b : β) :
    loop f (x :: xs) b = f b x >>= loop f xs := rfl

/-- A loop depends on what is done at its items only. -/
theorem loop_congr {f g : β → α → Prog ι ρ β} {xs : List α}
    (h : ∀ x ∈ xs, ∀ b, f b x = g b x) (b : β) :
    loop f xs b = loop g xs b := by
  induction xs generalizing b with
  | nil => rfl
  | cons x xs ih =>
    rw [loop_cons, loop_cons, h x List.mem_cons_self b]
    exact congrArg (g b x >>= ·) (funext (ih fun y hy => h y (List.mem_cons_of_mem _ hy)))

theorem loop_append (f : β → α → Prog ι ρ β) (xs ys : List α) (b : β) :
    loop f (xs ++ ys) b = loop f xs b >>= loop f ys := by
  induction xs generalizing b with
  | nil => rfl
  | cons x xs ih =>
    rw [List.cons_append, loop_cons, loop_cons, bind_assoc]
    exact congrArg (f b x >>= ·) (funext ih)

/-- A loop in a loop is a loop over all items. -/
theorem loop_flatMap (f : β → α → Prog ι ρ β) (l : γ → List α) (zs : List γ) (b : β) :
    loop f (zs.flatMap l) b = loop (fun b z => loop f (l z) b) zs b := by
  induction zs generalizing b with
  | nil => rfl
  | cons z zs ih =>
    rw [List.flatMap_cons, loop_append, loop_cons]
    exact congrArg (loop f (l z) b >>= ·) (funext ih)

theorem loop_map (f : β → α → Prog ι ρ β) (g : γ → α) (zs : List γ) (b : β) :
    loop f (zs.map g) b = loop (fun b z => f b (g z)) zs b := by
  induction zs generalizing b with
  | nil => rfl
  | cons z zs ih => exact congrArg (f b (g z) >>= ·) (funext ih)

/-- Items a loop does nothing at can be left out. -/
theorem loop_filter {f : β → α → Prog ι ρ β} (p : α → Bool)
    (hskip : ∀ b x, p x = false → f b x = pure b) (xs : List α) (b : β) :
    loop f (xs.filter p) b = loop f xs b := by
  induction xs generalizing b with
  | nil => rfl
  | cons x xs ih =>
    by_cases hx : p x = true
    · rw [List.filter_cons_of_pos hx, loop_cons, loop_cons]
      exact congrArg (f b x >>= ·) (funext ih)
    · rw [List.filter_cons_of_neg hx, loop_cons, hskip b x (by simpa using hx), pure_bind]
      exact ih b

/-! ### Programs over some of the calls -/

/-- A program over calls `ι`, as one over the calls `κ` that has them as `c`. -/
def embed (c : ι → κ) : Prog ι (fun i => π (c i)) α → Prog κ π α
  | .ret a => .ret a
  | .call i k => .call (c i) fun r => (k r).embed c

/-- It makes the same calls. -/
theorem makes_embed_iff {c : ι → κ} {p : Prog ι (fun i => π (c i)) α}
    {es : List (Event κ π)} {a : α} :
    Makes (p.embed c) es a ↔ ∃ gs, Makes p gs a ∧ es = gs.map fun g => ⟨c g.1, g.2⟩ := by
  induction p generalizing es with
  | ret b =>
    simp only [embed, Makes, exec_ret_iff]
    constructor
    · rintro ⟨rfl, rfl, -⟩
      exact ⟨[], ⟨rfl, rfl, trivial⟩, rfl⟩
    · rintro ⟨gs, ⟨rfl, rfl, -⟩, rfl⟩
      exact ⟨rfl, rfl, trivial⟩
  | call i k ih =>
    simp only [embed, Makes, exec_call_iff]
    constructor
    · rintro ⟨r, s, es', rfl, -, h⟩
      obtain ⟨gs, hgs, rfl⟩ := (ih r).mp h
      exact ⟨⟨i, r⟩ :: gs, ⟨r, (), gs, rfl, trivial, hgs⟩, rfl⟩
    · rintro ⟨gs, ⟨r, s, gs', rfl, -, h⟩, rfl⟩
      exact ⟨r, (), _, rfl, trivial, (ih r).mpr ⟨gs', h, rfl⟩⟩

/-! ### Interpretation -/

/-- Run `p` with the program `f s c` in place of its call `c` in the state `s`. -/
def interp (f : σ → (c : ι) → Prog κ π (σ × ρ c)) : Prog ι ρ α → σ → Prog κ π (σ × α)
  | .ret a, s => .ret (s, a)
  | .call c k, s => (f s c).bind fun r => (k r.2).interp f r.1

variable {f : σ → (c : ι) → Prog κ π (σ × ρ c)}

@[simp] theorem interp_pure (a : α) (s : σ) : (pure a : Prog ι ρ α).interp f s = pure (s, a) := rfl

theorem interp_bind (p : Prog ι ρ α) (q : α → Prog ι ρ β) (s : σ) :
    (p >>= q).interp f s = p.interp f s >>= fun r => (q r.2).interp f r.1 := by
  induction p generalizing s with
  | ret a => rfl
  | call c k ih =>
    refine Eq.trans (congrArg (f s c).bind (funext fun r => ih r.2 r.1)) ?_
    exact (bind_bind (f s c) _ _).symm

/-- A loop is run as a loop that hands on the state. -/
theorem interp_loop (g : β → α → Prog ι ρ β) (xs : List α) (b : β) (s : σ) :
    (loop g xs b).interp f s = loop (fun r x => (g r.2 x).interp f r.1) xs (s, b) := by
  induction xs generalizing b s with
  | nil => rfl
  | cons x xs ih =>
    rw [loop_cons, loop_cons, interp_bind]
    exact congrArg ((g b x).interp f s >>= ·) (funext fun r => ih r.2 r.1)

end Prog

open Prog

variable {ι κ : Type} {ρ : ι → Type} {π : κ → Type} {α σ τ : Type} {A : Answers τ κ π}
  {f : σ → (c : ι) → Prog κ π (σ × ρ c)}

/-- **What is executed below is a run of the calls above.** -/
theorem run_of_interp {p : Prog ι ρ α} {s s' : σ} {h h' : τ} {es : List (Event κ π)} {a : α}
    (hrun : Exec A (p.interp f s) h es (s', a) h') :
    ∃ cs, Makes p cs a ∧ Run (fun (x : σ × τ) (c : Event ι ρ) (y : σ × τ) =>
      ∃ es, Exec A (f x.1 c.1) x.2 es (y.1, c.2) y.2) (s, h) cs (s', h') := by
  induction p generalizing s h es with
  | ret b =>
    obtain ⟨-, heq, rfl⟩ := exec_ret_iff.mp hrun
    obtain ⟨rfl, rfl⟩ := Prod.mk.inj heq
    exact ⟨[], .ret, .nil⟩
  | call c k ih =>
    obtain ⟨⟨s₁, r⟩, h₁, es₁, es₂, -, hcall, hrest⟩ := exec_bind_iff.mp hrun
    obtain ⟨cs, hmakes, hsteps⟩ := ih r hrest
    exact ⟨⟨c, r⟩ :: cs, .call trivial hmakes, .cons ⟨es₁, hcall⟩ hsteps⟩

end IpRouter.Theory
