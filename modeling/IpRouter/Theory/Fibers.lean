import IpRouter.Theory.Prog
import Mathlib.Data.List.Perm.Subperm

/-!
# Programs that run among each other

A pool has a box of messages and a fiber for every message taken from it. A fiber
runs the program `handle m` of its message: one step of a pool is one call of one
fiber, so the fibers interleave as they like. Nothing is said about the answers: a
component that knows more about them adds it to the step.

* `run_taken`: messages are taken in the order in which they were pushed, each once.
* `Pool.Sound`: what a fiber has done is the beginning of what its program does.
* `reports_subperm`: where every program reports at most one thing about its
  message, a run of the pool reports nothing else and nothing twice.
* `makes_of_ended`: once nothing is left to do, every message that arrived has had
  its program executed.
-/

namespace IpRouter.Theory

variable {μ ι α β σ L : Type} {ρ : ι → Type}

/-! ### Invariants of runs that see the steps taken -/

/-- An invariant of the steps taken and the state, kept by every step, holds after every run. -/
theorem Run.inv_labels {step : σ → L → σ → Prop} {s s' : σ} {ls : List L} (I : List L → σ → Prop)
    (hstep : ∀ ls₁ s₁ l s₂, I ls₁ s₁ → step s₁ l s₂ → I (ls₁ ++ [l]) s₂) (h₀ : I [] s)
    (h : Run step s ls s') :
    I ls s' := by
  have key : ∀ {s₁ ls₂ s₂}, Run step s₁ ls₂ s₂ → ∀ ls₁, I ls₁ s₁ → I (ls₁ ++ ls₂) s₂ := by
    intro s₁ ls₂ s₂ h
    induction h with
    | nil =>
      intro ls₁ hI
      simpa using hI
    | cons hs _ ih =>
      intro ls₁ hI
      simpa using ih _ (hstep _ _ _ _ hI hs)
  exact key h [] h₀

/-- A run goes on with a step. -/
theorem Run.snoc {step : σ → L → σ → Prop} {s s₁ s' : σ} {ls : List L} {l : L}
    (h : Run step s ls s₁) (hs : step s₁ l s') :
    Run step s (ls ++ [l]) s' :=
  run_append_iff.mpr ⟨s₁, h, .cons hs .nil⟩

/-! ### A program in the middle -/

/-- A list that goes on to a last item which was not in it before has nothing after this item. -/
theorem append_singleton_of_prefix {xs ys zs : List α} {a b : α} (h : xs ++ [a] ++ zs = ys ++ [b])
    (ha : a ∉ ys) : xs = ys ∧ a = b := by
  rcases List.eq_nil_or_concat zs with rfl | ⟨zs, c, rfl⟩
  · rw [List.append_nil] at h
    obtain ⟨hxs, hab⟩ := List.append_inj' h rfl
    exact ⟨hxs, List.singleton_inj.mp hab⟩
  · rw [List.concat_eq_append, ← List.append_assoc] at h
    obtain ⟨hys, -⟩ := List.append_inj' h rfl
    exact absurd (hys ▸ by simp) ha

/-- `Leads p es q`: after the calls `es`, with these answers, the program `p` goes on as `q`. -/
inductive Leads : Prog ι ρ α → List (Event ι ρ) → Prog ι ρ α → Prop
  /-- No call yet. -/
  | nil {p : Prog ι ρ α} : Leads p [] p
  /-- A call, then others. -/
  | cons {c : ι} {k : ρ c → Prog ι ρ α} {r : ρ c} {es : List (Event ι ρ)} {q : Prog ι ρ α} :
      Leads (k r) es q → Leads (.call c k) (⟨c, r⟩ :: es) q

theorem Leads.append {p q q' : Prog ι ρ α} {es es' : List (Event ι ρ)} (h : Leads p es q)
    (h' : Leads q es' q') :
    Leads p (es ++ es') q' := by
  induction h with
  | nil => exact h'
  | cons _ ih => exact .cons (ih h')

/-- A program that has led to its end has made these calls. -/
theorem Leads.makes {p : Prog ι ρ α} {es es' : List (Event ι ρ)} {q : Prog ι ρ α} {a : α}
    (h : Leads p es q) (hq : Makes q es' a) : Makes p (es ++ es') a := by
  induction h with
  | nil => exact hq
  | cons _ ih => exact .call trivial (ih hq)

/-- What a program has done can always be completed. -/
theorem Leads.extend [∀ c, Nonempty (ρ c)] {p q : Prog ι ρ α} {es : List (Event ι ρ)}
    (h : Leads p es q) :
    ∃ es' a, Makes p (es ++ es') a := by
  obtain ⟨es', a, _, hq⟩ := exists_exec (A := fun (_ : Unit) _ _ _ => True)
    (fun _ c => (inferInstance : Nonempty (ρ c)).elim fun r => ⟨r, (), trivial⟩) q ()
  exact ⟨es', a, h.makes hq⟩

/-! ### Pools -/

/-- A fiber. -/
structure Fiber (μ ι : Type) (ρ : ι → Type) (α : Type) where
  /-- The message it was started for. -/
  message : μ
  /-- The calls it has made. -/
  made : List (Event ι ρ)
  /-- What is left of its program. -/
  rest : Prog ι ρ α

/-- A box of messages and the fibers. -/
structure Pool (μ ι : Type) (ρ : ι → Type) (α : Type) where
  /-- The messages not taken yet. -/
  box : List μ
  /-- The fibers, in the order in which they were started. -/
  fibers : List (Fiber μ ι ρ α)

/-- What happens in a pool. -/
inductive PoolLabel (μ ι : Type) (ρ : ι → Type) where
  /-- A message arrives. -/
  | push (m : μ)
  /-- The first message is taken, and a fiber started for it. -/
  | pop
  /-- A fiber makes a call. -/
  | call (i : ℕ) (e : Event ι ρ)

/-- Nothing has happened yet. -/
def Pool.empty : Pool μ ι ρ α := ⟨[], []⟩

/-- A call of fiber `f` leaves `f'`. -/
inductive Fiber.Step : Fiber μ ι ρ α → Event ι ρ → Fiber μ ι ρ α → Prop
  /-- The next call of its program. -/
  | call {m : μ} {made : List (Event ι ρ)} {c : ι} {k : ρ c → Prog ι ρ α} {r : ρ c} :
      Fiber.Step ⟨m, made, .call c k⟩ ⟨c, r⟩ ⟨m, made ++ [⟨c, r⟩], k r⟩

/-- The steps of a pool, where `handle` is the program for a message. -/
inductive Pool.Step (handle : μ → Prog ι ρ α) (p : Pool μ ι ρ α) : PoolLabel μ ι ρ →
    Pool μ ι ρ α → Prop
  /-- A message arrives. -/
  | push {m : μ} : Pool.Step handle p (.push m) { p with box := p.box ++ [m] }
  /-- The first message is taken. -/
  | pop {m : μ} {box : List μ} (h : p.box = m :: box) :
      Pool.Step handle p .pop ⟨box, p.fibers ++ [⟨m, [], handle m⟩]⟩
  /-- A fiber makes a call. -/
  | call {i : ℕ} {e : Event ι ρ} {f f' : Fiber μ ι ρ α} (h : p.fibers[i]? = some f)
      (hf : f.Step e f') :
      Pool.Step handle p (.call i e) { p with fibers := p.fibers.set i f' }

variable {handle : μ → Prog ι ρ α} {p p' : Pool μ ι ρ α} {ls : List (PoolLabel μ ι ρ)}

@[simp] theorem Fiber.Step.message {f f' : Fiber μ ι ρ α} {e : Event ι ρ} (h : f.Step e f') :
    f'.message = f.message := by
  cases h
  rfl

@[simp] theorem Fiber.Step.made {f f' : Fiber μ ι ρ α} {e : Event ι ρ} (h : f.Step e f') :
    f'.made = f.made ++ [e] := by
  cases h
  rfl

/-- A call of a fiber is the next one of its program. -/
theorem Fiber.Step.next {f f' : Fiber μ ι ρ α} {e : Event ι ρ} (h : f.Step e f') {c : ι}
    {k : ρ c → Prog ι ρ α} (hf : f.rest = .call c k) : ∃ r, e = ⟨c, r⟩ ∧ f'.rest = k r := by
  cases h with
  | @call _ _ _ _ r =>
    cases hf
    exact ⟨r, rfl, rfl⟩

/-- A program that has ended makes no call. -/
theorem Fiber.Step.not_ret {f f' : Fiber μ ι ρ α} {e : Event ι ρ} (h : f.Step e f') (a : α) :
    f.rest ≠ .ret a := by
  cases h
  nofun

/-- What a step does to one fiber: nothing, or the next call of its program. -/
theorem fiber_of_step {l : PoolLabel μ ι ρ} (h : p.Step handle l p') {i : ℕ} {f : Fiber μ ι ρ α}
    (hi : p.fibers[i]? = some f) :
    p'.fibers[i]? = some f ∨ ∃ e f', l = .call i e ∧ f.Step e f' ∧ p'.fibers[i]? = some f' := by
  obtain ⟨hlt, -⟩ := List.getElem?_eq_some_iff.mp hi
  cases h with
  | push => exact Or.inl hi
  | pop _ => exact Or.inl (by rw [List.getElem?_append_left hlt, hi])
  | @call j e g f' hj hf =>
    by_cases hji : j = i
    · subst hji
      obtain rfl := Option.some.inj (hj.symm.trans hi)
      exact Or.inr ⟨e, f', rfl, hf, by simp [hlt]⟩
    · exact Or.inl (by simp [hji, hi])

/-! ### The messages -/

/-- The message that arrives, if one does. -/
def PoolLabel.message : PoolLabel μ ι ρ → Option μ
  | .push m => some m
  | .pop | .call _ _ => none

/-- The messages that arrived. -/
def pushed (ls : List (PoolLabel μ ι ρ)) : List μ := ls.filterMap PoolLabel.message

/-- The messages that have arrived: those of the fibers, and those in the box. -/
def Pool.messages (p : Pool μ ι ρ α) : List μ := p.fibers.map Fiber.message ++ p.box

theorem messages_of_step {l : PoolLabel μ ι ρ} (h : p.Step handle l p') :
    p'.messages = p.messages ++ l.message.toList := by
  cases h with
  | push => simp [Pool.messages, PoolLabel.message]
  | pop h => simp [Pool.messages, PoolLabel.message, h]
  | @call i e f f' h hf =>
    have hset : (p.fibers.set i f').map Fiber.message = p.fibers.map Fiber.message := by
      rw [List.map_set, hf.message]
      refine List.ext_getElem? fun j => ?_
      rw [List.getElem?_set]
      split_ifs with hij hlt
      · simp [← hij, h]
      · exact absurd (List.getElem?_eq_some_iff.mp h).1 (by simpa using hlt)
      · rfl
    simp [Pool.messages, PoolLabel.message, hset]

/-- **Messages are taken in the order in which they arrived**, each once. -/
theorem run_taken (h : Run (Pool.Step handle) p ls p') : p'.messages = p.messages ++ pushed ls := by
  induction h with
  | nil => simp [pushed]
  | @cons s s₁ s' l ls hs _ ih =>
    rw [ih, messages_of_step hs]
    cases hl : l.message <;> simp [pushed, hl]

/-! ### The fibers -/

/-- What every fiber has done is the beginning of what its program does. -/
def Pool.Sound (handle : μ → Prog ι ρ α) (p : Pool μ ι ρ α) : Prop :=
  ∀ f ∈ p.fibers, Leads (handle f.message) f.made f.rest

theorem sound_empty : (Pool.empty : Pool μ ι ρ α).Sound handle := by simp [Pool.Sound, Pool.empty]

theorem sound_of_step {l : PoolLabel μ ι ρ} (hp : p.Sound handle) (h : p.Step handle l p') :
    p'.Sound handle := by
  cases h with
  | push => exact hp
  | @pop m box h =>
    intro f hf
    rcases List.mem_append.mp hf with hf | hf
    · exact hp f hf
    · obtain rfl := List.mem_singleton.mp hf
      exact .nil
  | @call i e f f' h hf =>
    intro g hg
    rcases List.mem_or_eq_of_mem_set hg with hg | rfl
    · exact hp g hg
    · have hleads := hp f (List.mem_of_getElem? h)
      cases hf with
      | call => exact hleads.append (.cons .nil)

theorem sound_of_run (hp : p.Sound handle) (h : Run (Pool.Step handle) p ls p') : p'.Sound handle :=
  h.inv (fun _ _ _ => sound_of_step) hp

/-- The call of fiber `i`, if it makes one. -/
def PoolLabel.callOf (i : ℕ) : PoolLabel μ ι ρ → Option (Event ι ρ)
  | .call j e => if j = i then some e else none
  | .push _ | .pop => none

/-- The calls of fiber `i`. -/
def callsOf (i : ℕ) (ls : List (PoolLabel μ ι ρ)) : List (Event ι ρ) :=
  ls.filterMap (PoolLabel.callOf i)

/-- What fiber `i` has done, which is nothing before it is started. -/
def Pool.madeBy (p : Pool μ ι ρ α) (i : ℕ) : List (Event ι ρ) :=
  (p.fibers[i]?.map Fiber.made).getD []

theorem madeBy_of_step {l : PoolLabel μ ι ρ} (h : p.Step handle l p') (i : ℕ) :
    p'.madeBy i = p.madeBy i ++ (l.callOf i).toList := by
  cases h with
  | push => simp [Pool.madeBy, PoolLabel.callOf]
  | @pop m box h =>
    simp only [Pool.madeBy, PoolLabel.callOf, Option.toList_none, List.append_nil]
    rcases Nat.lt_trichotomy i p.fibers.length with hlt | rfl | hgt
    · simp [List.getElem?_append_left hlt]
    · simp
    · rw [List.getElem?_eq_none (Nat.le_of_lt hgt),
        List.getElem?_eq_none (by simpa using Nat.succ_le_of_lt hgt)]
  | @call j e f f' h hf =>
    obtain ⟨hlt, hget⟩ := List.getElem?_eq_some_iff.mp h
    by_cases hji : j = i
    · subst hji
      simp [Pool.madeBy, PoolLabel.callOf, hlt, hget, hf.made]
    · simp [Pool.madeBy, PoolLabel.callOf, hji]

/-- **What a fiber has done** is what its steps did. -/
theorem run_madeBy (h : Run (Pool.Step handle) p ls p') (i : ℕ) :
    p'.madeBy i = p.madeBy i ++ callsOf i ls := by
  induction h with
  | nil => simp [callsOf]
  | @cons s s₁ s' l ls hs _ ih =>
    rw [ih, madeBy_of_step hs]
    cases hl : l.callOf i <;> simp [callsOf, hl]

/-- **A call in a run** is made by a fiber whose message arrived before, and goes on from the
calls this fiber has made. -/
theorem call_of_run {i : ℕ} {e : Event ι ρ}
    (h : Run (Pool.Step handle) .empty (ls ++ [.call i e]) p') :
    ∃ m, (pushed ls)[i]? = some m ∧ ∃ q, Leads (handle m) (callsOf i ls ++ [e]) q := by
  obtain ⟨p, hrun, hlast⟩ := run_append_iff.mp h
  cases hlast with
  | cons hstep _ =>
    have hmade := run_madeBy hrun i
    have htaken := run_taken hrun
    cases hstep with
    | @call _ _ f f' hf hcall =>
      refine ⟨f.message, ?_, f'.rest, ?_⟩
      · simp only [Pool.messages, Pool.empty, List.map_nil, List.nil_append] at htaken
        rw [← htaken,
          List.getElem?_append_left (by simpa using (List.getElem?_eq_some_iff.mp hf).1)]
        simp [hf]
      · have hsound := sound_of_run sound_empty hrun f (List.mem_of_getElem? hf)
        rw [show callsOf i ls = f.made by simpa [Pool.madeBy, hf, Pool.empty] using hmade.symm]
        cases hcall with
        | call => exact hsound.append (.cons .nil)

/-! ### What the fibers report -/

variable {report : Event ι ρ → Option β} {about : μ → β}

/-- What a step reports. -/
def PoolLabel.reported (report : Event ι ρ → Option β) : PoolLabel μ ι ρ → Option β
  | .call _ e => report e
  | .push _ | .pop => none

/-- What the steps report. -/
def reports (report : Event ι ρ → Option β) (ls : List (PoolLabel μ ι ρ)) : List β :=
  ls.filterMap (·.reported report)

/-- What the fibers have reported. -/
def Pool.reports (report : Event ι ρ → Option β) (p : Pool μ ι ρ α) : List β :=
  p.fibers.flatMap fun f => f.made.filterMap report

theorem reports_of_step {l : PoolLabel μ ι ρ} (h : p.Step handle l p') :
    (p'.reports report).Perm (p.reports report ++ (l.reported report).toList) := by
  cases h with
  | push => simp [Pool.reports, PoolLabel.reported]
  | pop h => simp [Pool.reports, PoolLabel.reported]
  | @call i e f f' h hf =>
    obtain ⟨hlt, hget⟩ := List.getElem?_eq_some_iff.mp h
    have hsplit : p.fibers = p.fibers.take i ++ f :: p.fibers.drop (i + 1) := by
      rw [← hget, ← List.drop_eq_getElem_cons hlt, List.take_append_drop]
    have hset : p.fibers.set i f' = p.fibers.take i ++ f' :: p.fibers.drop (i + 1) :=
      List.set_eq_take_append_cons_drop.trans (if_pos hlt)
    have hlast : (f.made ++ [e]).filterMap report =
        f.made.filterMap report ++ (report e).toList := by
      cases he : report e <;> simp [he]
    simp only [Pool.reports, PoolLabel.reported]
    rw [hset, List.flatMap_append, List.flatMap_cons, hf.made, hlast]
    conv => rhs; rw [hsplit, List.flatMap_append, List.flatMap_cons]
    simp only [List.append_assoc]
    exact ((@List.perm_append_comm _ (report e).toList _).append_left _).append_left _

/-- What a run reports is what its fibers do. -/
theorem run_reports (h : Run (Pool.Step handle) p ls p') :
    (p'.reports report).Perm (p.reports report ++ reports report ls) := by
  induction h with
  | nil => simp [reports]
  | @cons s s₁ s' l ls hs _ ih =>
    refine ih.trans (((reports_of_step hs).append_right _).trans ?_)
    cases hl : l.reported report <;> simp [reports, hl]

/-- A fiber that has ended has executed its program. -/
def Fiber.Ended (f : Fiber μ ι ρ α) : Prop := ∃ a, f.rest = .ret a

instance (f : Fiber μ ι ρ α) : Decidable f.Ended :=
  match h : f.rest with
  | .ret a => isTrue ⟨a, h⟩
  | .call _ _ => isFalse fun ⟨_, ha⟩ => by
    rw [h] at ha
    cases ha

/-- **Nothing but what is due, and nothing twice**: where every program reports at most what it
should about its message, so does the pool, however its fibers interleave. -/
theorem reports_subperm [∀ c, Nonempty (ρ c)]
    (hone : ∀ m es a, Makes (handle m) es a → (es.filterMap report).Sublist [about m])
    (h : Run (Pool.Step handle) .empty ls p) :
    (reports report ls).Subperm ((pushed ls).map about) := by
  have hsound := sound_of_run sound_empty h
  have htaken := run_taken h
  have hreports : (p.reports report).Perm (reports report ls) := by
    simpa [Pool.reports, Pool.empty] using run_reports h
  have hfibers : ∀ fs : List (Fiber μ ι ρ α), (∀ f ∈ fs, Leads (handle f.message) f.made f.rest) →
      (fs.flatMap fun f => f.made.filterMap report).Sublist (fs.map fun f => about f.message) := by
    intro fs hfs
    induction fs with
    | nil => simp
    | cons f fs ih =>
      obtain ⟨es', a, hmakes⟩ := (hfs f List.mem_cons_self).extend
      have hf : (f.made.filterMap report).Sublist [about f.message] :=
        ((List.sublist_append_left _ es').filterMap report).trans (hone _ _ _ hmakes)
      exact hf.append (ih fun g hg => hfs g (List.mem_cons_of_mem _ hg))
  have hmessages : p.fibers.map Fiber.message ++ p.box = pushed ls := by
    simpa [Pool.messages, Pool.empty] using htaken
  refine (hreports.symm.subperm).trans ?_
  rw [← hmessages, List.map_append, List.map_map]
  exact ((hfibers p.fibers hsound).trans (List.sublist_append_left _ _)).subperm

/-- **Every message is dealt with**: once the box is empty and the fibers have ended, each
has executed its program. -/
theorem makes_of_ended (h : Run (Pool.Step handle) .empty ls p) (hbox : p.box = [])
    (hended : ∀ f ∈ p.fibers, f.Ended) {i : ℕ} {m : μ} (hi : (pushed ls)[i]? = some m) :
    ∃ a, Makes (handle m) (callsOf i ls) a := by
  have hmessages : p.fibers.map Fiber.message = pushed ls := by
    simpa [Pool.messages, Pool.empty, hbox] using run_taken h
  rw [← hmessages, List.getElem?_map, Option.map_eq_some_iff] at hi
  obtain ⟨f, hf, rfl⟩ := hi
  obtain ⟨a, ha⟩ := hended f (List.mem_of_getElem? hf)
  have hmakes : Makes (handle f.message) (f.made ++ []) a :=
    (sound_of_run sound_empty h f (List.mem_of_getElem? hf)).makes (by rw [ha]; exact .ret)
  have hmade : f.made = callsOf i ls := by
    simpa [Pool.madeBy, hf, Pool.empty] using run_madeBy h i
  rw [List.append_nil, hmade] at hmakes
  exact ⟨a, hmakes⟩

/-! ### Pools that are told what to do -/

/-- What a scheduler has a pool do. -/
inductive PoolAction (μ ι : Type) (ρ : ι → Type) where
  /-- A message arrives. -/
  | push (m : μ)
  /-- The first message is taken. -/
  | pop
  /-- Fiber `i` makes its next call, which gets this answer. -/
  | call (i : ℕ) (answer : (c : ι) → ρ c)

/-- Do it, if it can be done. -/
def Pool.act (handle : μ → Prog ι ρ α) (p : Pool μ ι ρ α) : PoolAction μ ι ρ →
    Option (PoolLabel μ ι ρ × Pool μ ι ρ α)
  | .push m => some (.push m, { p with box := p.box ++ [m] })
  | .pop =>
    match p.box with
    | [] => none
    | m :: box => some (.pop, ⟨box, p.fibers ++ [⟨m, [], handle m⟩]⟩)
  | .call i answer =>
    match p.fibers[i]? with
    | some ⟨m, made, .call c k⟩ =>
      some (.call i ⟨c, answer c⟩,
        { p with fibers := p.fibers.set i ⟨m, made ++ [⟨c, answer c⟩], k (answer c)⟩ })
    | _ => none

/-- Do these one after the other, and leave out what cannot be done. -/
def Pool.play (handle : μ → Prog ι ρ α) (p : Pool μ ι ρ α) :
    List (PoolAction μ ι ρ) → List (PoolLabel μ ι ρ) × Pool μ ι ρ α
  | [] => ([], p)
  | a :: as =>
    match p.act handle a with
    | none => p.play handle as
    | some (l, p') => (l :: (p'.play handle as).1, (p'.play handle as).2)

theorem step_of_act {a : PoolAction μ ι ρ} {l : PoolLabel μ ι ρ}
    (h : p.act handle a = some (l, p')) :
    p.Step handle l p' := by
  cases a with
  | push m =>
    cases h
    exact .push
  | pop =>
    unfold Pool.act at h
    cases hbox : p.box with
    | nil =>
      simp only [hbox] at h
      cases h
    | cons m box =>
      simp only [hbox] at h
      cases h
      exact .pop hbox
  | call i answer =>
    simp only [Pool.act] at h
    split at h
    · next hf =>
      cases h
      exact .call hf .call
    · cases h

/-- The next call of a program. -/
def Prog.next : Prog ι ρ α → Option ι
  | .ret _ => none
  | .call c _ => some c

/-- How the program goes on when its next call gets this answer. -/
def Prog.feed (answer : (c : ι) → ρ c) : Prog ι ρ α → Prog ι ρ α
  | .ret a => .ret a
  | .call c k => k (answer c)

theorem Prog.next_eq_some {p : Prog ι ρ α} {c : ι} : p.next = some c ↔ ∃ k, p = .call c k := by
  cases p with
  | ret a => simp [Prog.next]
  | call c' k =>
    simp only [Prog.next, Option.some.injEq]
    constructor
    · rintro rfl
      exact ⟨k, rfl⟩
    · rintro ⟨k', ⟨⟩⟩
      rfl

/-- The result of a program that has ended. -/
def Prog.outcome : Prog ι ρ α → Option α
  | .ret a => some a
  | .call _ _ => none

theorem Prog.outcome_eq_some {p : Prog ι ρ α} {a : α} : p.outcome = some a ↔ p = .ret a := by
  cases p <;> simp [Prog.outcome]

/-- A fiber may always make its next call. -/
theorem step_of_next {i : ℕ} {f : Fiber μ ι ρ α} (hi : p.fibers[i]? = some f) {c : ι}
    (hc : f.rest.next = some c) (answer : (c : ι) → ρ c) :
    p.Step handle (.call i ⟨c, answer c⟩)
      { p with fibers := p.fibers.set i ⟨f.message, f.made ++ [⟨c, answer c⟩],
        f.rest.feed answer⟩ } := by
  obtain ⟨m, made, rest⟩ := f
  cases rest with
  | ret a => cases hc
  | call c' k =>
    cases hc
    exact .call hi .call

/-- **What a scheduler has a pool do is a run.** -/
theorem run_play (as : List (PoolAction μ ι ρ)) (p : Pool μ ι ρ α) :
    Run (Pool.Step handle) p (p.play handle as).1 (p.play handle as).2 := by
  induction as generalizing p with
  | nil => exact .nil
  | cons a as ih =>
    rw [Pool.play]
    cases hact : p.act handle a with
    | none => exact ih p
    | some r => exact .cons (step_of_act hact) (ih r.2)

end IpRouter.Theory
