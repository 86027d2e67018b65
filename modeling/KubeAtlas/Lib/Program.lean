import Mathlib.Logic.Basic

/-!
# `KubeAtlas.Lib.Program`: programs that make calls

A `Program` is a tree of calls: it is done with a result, or it
makes a call and goes on with the reply. What a call does is not
part of the program. Several meanings of the same program stand side
by side here.

`Exec` is one undisturbed execution, given a relation that says what
each call may do to a shared state, and `eval` is the execution in
which a function answers. `Yields` is about the replies alone: it
says what the result satisfies if every reply is as allowed.

`Ensures` is a rely-guarantee judgement. The environment may change
the state between any two calls, by steps of `rely`; the program
promises that each of its own calls is a step of `guar`, and that
its postcondition holds when it is done, also after further steps of
the environment.
-/

set_option autoImplicit false

namespace KubeAtlas.Lib

/-- A program with calls `c : C`, replies `R c` and a result in `α`. -/
inductive Program (C : Type) (R : C → Type) (α : Type) where
  | done (a : α)
  | call (c : C) (next : R c → Program C R α)

namespace Program

variable {C : Type} {R : C → Type} {α β : Type}

/-- The second program goes on with the result of the first. -/
protected def bind : Program C R α → (α → Program C R β) → Program C R β
  | .done a, f => f a
  | .call c next, f => .call c fun r => (next r).bind f

instance : Monad (Program C R) where
  pure := .done
  bind := .bind

/-- One call, whose reply is the result. -/
def perform (c : C) : Program C R (R c) := .call c .done

/-- The same program over a larger set of calls. -/
def embed {C' : Type} {R' : C' → Type} (name : C → C') (back : ∀ c, R' (name c) → R c) :
    Program C R α → Program C' R' α
  | .done a => .done a
  | .call c next => .call (name c) fun r => (next (back c r)).embed name back

/-! ### The calls of a program -/

/-- Every call the program can make satisfies `P`, whatever the
replies are. -/
def Calls (P : C → Prop) : Program C R α → Prop
  | .done _ => True
  | .call c next => P c ∧ ∀ r, (next r).Calls P

variable {P : C → Prop} {p : Program C R α}

/-- Calls of a kind are calls of a wider kind. -/
theorem Calls.mono {P' : C → Prop} (hp : p.Calls P) (h : ∀ c, P c → P' c) :
    p.Calls P' := by
  induction p with
  | done a => exact trivial
  | call c next ih => exact ⟨h c hp.1, fun r => ih r (hp.2 r)⟩

variable {f : α → Program C R β}

/-- The calls of two programs in sequence. -/
theorem Calls.bind (hp : p.Calls P) (hf : ∀ a, (f a).Calls P) : (p >>= f).Calls P := by
  induction p with
  | done a => exact hf a
  | call c next ih => exact ⟨hp.1, fun r => ih r (hp.2 r)⟩

/-- A loop makes the calls of its rounds. -/
theorem calls_forM {xs : List β} {f : β → Program C R PUnit} (h : ∀ x ∈ xs, (f x).Calls P) :
    (xs.forM f).Calls P := by
  induction xs with
  | nil => exact trivial
  | cons x xs ih =>
    exact (h x List.mem_cons_self).bind fun _ => ih fun y hy => h y (List.mem_cons_of_mem _ hy)

/-- A renamed program makes renamed calls. -/
theorem calls_embed {C' : Type} {R' : C' → Type} {name : C → C'} {back : ∀ c, R' (name c) → R c}
    {P : C' → Prop} (h : ∀ c, P (name c)) (p : Program C R α) : (p.embed name back).Calls P := by
  induction p with
  | done _ => exact trivial
  | call c next ih => exact ⟨h c, fun r => ih (back c r)⟩

/-! ### Logs -/

/-- A call with its reply. -/
abbrev Exchange (C : Type) (R : C → Type) := (c : C) × R c

/-- Answered with the replies of a log, the first program gets to
the second. -/
inductive Follows : Program C R α → List (Exchange C R) → Program C R α → Prop
  | nil (p : Program C R α) : Follows p [] p
  | cons {c : C} {next : R c → Program C R α} {r : R c} {log : List (Exchange C R)}
      {q : Program C R α} (rest : Follows (next r) log q) :
      Follows (.call c next) (⟨c, r⟩ :: log) q

variable {log : List (Exchange C R)}

/-- One more exchange at the end of a log. -/
theorem Follows.snoc {c : C} {next : R c → Program C R α} (h : p.Follows log (.call c next))
    (r : R c) :
    p.Follows (log ++ [⟨c, r⟩]) (next r) := by
  generalize hq : Program.call c next = q at h
  induction h with
  | nil p =>
    subst hq
    exact .cons (.nil _)
  | cons rest ih => exact .cons (ih hq)

/-- The log of a sequence is that of its first part, and then that
of its second. -/
theorem Follows.of_bind {b : β} (h : (p >>= f).Follows log (.done b)) :
    ∃ log₁ log₂ a, log = log₁ ++ log₂ ∧ p.Follows log₁ (.done a) ∧
      (f a).Follows log₂ (.done b) := by
  induction p generalizing log with
  | done a => exact ⟨[], log, a, rfl, .nil _, h⟩
  | call c next ih =>
    have h : (Program.call c fun r => next r >>= f).Follows log (.done b) := h
    cases h with
    | @cons _ _ r log _ rest =>
      obtain ⟨log₁, log₂, a, rfl, hp, hf⟩ := ih r rest
      exact ⟨⟨c, r⟩ :: log₁, log₂, a, rfl, .cons hp, hf⟩

/-- A log has the calls that the program makes. -/
theorem Calls.of_mem {p q : Program C R α} (hp : p.Calls P) (h : p.Follows log q) :
    ∀ x ∈ log, P x.1 := by
  induction h with
  | nil p => exact fun x hx => absurd hx List.not_mem_nil
  | cons rest ih =>
    intro x hx
    cases List.mem_cons.mp hx with
    | inl heq => exact heq ▸ hp.1
    | inr hrest => exact ih (hp.2 _) x hrest

/-! ### Results, by what the replies may be -/

/-- The result satisfies `post` if every reply is allowed. -/
def Yields (allows : (c : C) → R c → Prop) (post : α → Prop) : Program C R α → Prop
  | .done a => post a
  | .call c next => ∀ r, allows c r → (next r).Yields allows post

section Yields

variable {allows : (c : C) → R c → Prop}

/-- The consequence rule for results. -/
theorem Yields.mono {post post' : α → Prop} {p : Program C R α} (hp : p.Yields allows post)
    (h : ∀ a, post a → post' a) : p.Yields allows post' := by
  induction p with
  | done a => exact h a hp
  | call c next ih => exact fun r hr => ih r (hp r hr)

/-- The rule for two programs in sequence: what the first yields is
enough for the second. -/
theorem Yields.bind {post : β → Prop} {p : Program C R α} {f : α → Program C R β}
    (hp : p.Yields allows fun a => (f a).Yields allows post) :
    (p >>= f).Yields allows post := by
  induction p with
  | done a => exact hp
  | call c next ih => exact fun r hr => ih r (hp r hr)

/-- A program that may throw does not, and its result satisfies
`post`. -/
def Succeeds {ε : Type} (allows : (c : C) → R c → Prop) (post : α → Prop)
    (p : ExceptT ε (Program C R) α) : Prop :=
  p.run.Yields allows fun result => ∃ a, result = .ok a ∧ post a

section Succeeds

variable {ε : Type} {post : α → Prop} {p : ExceptT ε (Program C R) α}

/-- A returned value is a success. -/
theorem succeeds_pure {a : α} (h : post a) :
    Succeeds allows post (pure a : ExceptT ε (Program C R) α) :=
  ⟨a, rfl, h⟩

/-- The consequence rule for successes. -/
theorem Succeeds.mono {post' : α → Prop} (hp : Succeeds allows post p)
    (h : ∀ a, post a → post' a) : Succeeds allows post' p := by
  refine Yields.mono hp ?_
  rintro _ ⟨a, rfl, ha⟩
  exact ⟨a, rfl, h a ha⟩

/-- The rule for two fallible programs in sequence. -/
theorem Succeeds.bind {f : α → ExceptT ε (Program C R) β} {post : β → Prop}
    (hp : Succeeds allows (fun a => Succeeds allows post (f a)) p) :
    Succeeds allows post (p >>= f) := by
  refine Yields.bind (Yields.mono hp ?_)
  rintro _ ⟨a, rfl, ha⟩
  exact ha

/-- A program that cannot throw, followed by one that may. -/
theorem Succeeds.lift_bind {q : Program C R β} {f : β → ExceptT ε (Program C R) α}
    (hq : q.Yields allows fun b => Succeeds allows post (f b)) :
    Succeeds allows post (ExceptT.lift q >>= f) := by
  refine Yields.bind ?_
  show Yields allows _ (q >>= fun b => pure (Except.ok b))
  exact Yields.bind hq

end Succeeds

end Yields

/-! ### Undisturbed executions -/

section Exec

variable {S : Type} (answers : (c : C) → S → R c → S → Prop)

/-- Run from `s`, the program may return `a` and leave `s'`. -/
def Exec : Program C R α → S → α → S → Prop
  | .done a, s, b, s' => b = a ∧ s' = s
  | .call c next, s, b, s' => ∃ r s₁, answers c s r s₁ ∧ (next r).Exec s₁ b s'

/-- The execution in which a function answers the calls. -/
def eval (respond : (c : C) → S → R c × S) : Program C R α → S → α × S
  | .done a, s => (a, s)
  | .call c next, s => (next (respond c s).1).eval respond (respond c s).2

/-- The log of that execution. -/
def evalLog (respond : (c : C) → S → R c × S) : Program C R α → S → List (Exchange C R)
  | .done _, _ => []
  | .call c next, s =>
    ⟨c, (respond c s).1⟩ :: (next (respond c s).1).evalLog respond (respond c s).2

variable {answers} {p : Program C R α} {f : α → Program C R β} {s s' s'' : S} {a : α}

/-- Executions compose. -/
theorem Exec.bind {b : β} (hp : p.Exec answers s a s') (hf : (f a).Exec answers s' b s'') :
    (p >>= f).Exec answers s b s'' := by
  induction p generalizing s with
  | done c =>
    obtain ⟨rfl, rfl⟩ := hp
    exact hf
  | call c next ih =>
    obtain ⟨r, s₁, hanswer, hrest⟩ := hp
    exact ⟨r, s₁, hanswer, ih r hrest⟩

/-- An execution of two programs in sequence has a state in the
middle. -/
theorem Exec.of_bind {s s'' : S} {b : β} (h : (p >>= f).Exec answers s b s'') :
    ∃ a s', p.Exec answers s a s' ∧ (f a).Exec answers s' b s'' := by
  induction p generalizing s with
  | done a => exact ⟨a, s, ⟨rfl, rfl⟩, h⟩
  | call c next ih =>
    obtain ⟨r, s₁, hanswer, hrest⟩ := h
    obtain ⟨a, s', hp, hf⟩ := ih r hrest
    exact ⟨a, s', ⟨r, s₁, hanswer, hp⟩, hf⟩

/-- A program that cannot fail, before one that can. -/
theorem Exec.lift_bind {ε : Type} {q : Program C R α} {f : α → ExceptT ε (Program C R) β}
    {result : Except ε β} (hq : q.Exec answers s a s') (hf : (f a).run.Exec answers s' result s'') :
    (ExceptT.lift q >>= f).run.Exec answers s result s'' := by
  have hlift : (q >>= fun a => pure (Except.ok a : Except ε α)).Exec answers s (.ok a) s' :=
    hq.bind ⟨rfl, rfl⟩
  exact hlift.bind hf

/-- A result that all allowed replies lead to is that of every
execution whose replies are allowed. -/
theorem Yields.exec {allows : (c : C) → R c → Prop} {post : α → Prop} {s s' : S} (inv : S → Prop)
    (hp : p.Yields allows post)
    (hanswers : ∀ c s r s', inv s → answers c s r s' → inv s' ∧ allows c r) (hs : inv s)
    (hexec : p.Exec answers s a s') : post a := by
  induction p generalizing s with
  | done b =>
    obtain ⟨rfl, rfl⟩ := hexec
    exact hp
  | call c next ih =>
    obtain ⟨r, s₁, hanswer, hrest⟩ := hexec
    obtain ⟨hinv, hallow⟩ := hanswers c s r s₁ hs hanswer
    exact ih r (hp r hallow) hinv hrest

/-- A total way to answer the calls executes every program. -/
theorem exec_eval {respond : (c : C) → S → R c × S}
    (h : ∀ c s, answers c s (respond c s).1 (respond c s).2) (p : Program C R α) (s : S) :
    p.Exec answers s (p.eval respond s).1 (p.eval respond s).2 := by
  induction p generalizing s with
  | done a => exact ⟨rfl, rfl⟩
  | call c next ih => exact ⟨_, _, h c s, ih _ _⟩

end Exec

/-! ### Rely and guarantee -/

section Ensures

variable {S : Type}

/-- The environment's steps between two calls: any number of them,
also none. -/
structure Interference (rely : S → S → Prop) : Prop where
  refl : ∀ s, rely s s
  trans : ∀ s₁ s₂ s₃, rely s₁ s₂ → rely s₂ s₃ → rely s₁ s₃

/-- No environment. -/
theorem Interference.none : Interference (fun s s' : S => s' = s) where
  refl _ := rfl
  trans _ _ _ h h' := h'.trans h

variable (answers : (c : C) → S → R c → S → Prop) (rely guar : S → S → Prop)

/-- From `s`, in an environment of `rely` steps, every call is a
step of `guar` and the result satisfies `post`. -/
def Ensures (post : α → S → Prop) : Program C R α → S → Prop
  | .done a, s => ∀ s₁, rely s s₁ → post a s₁
  | .call c next, s => ∀ s₁, rely s s₁ → ∀ r s₂, answers c s₁ r s₂ →
      guar s₁ s₂ ∧ (next r).Ensures post s₂

variable {answers rely guar} {post post' : α → S → Prop} {p : Program C R α} {s s' : S}

/-- The judgement survives the environment. -/
theorem Ensures.stable (hrely : Interference rely) (h : p.Ensures answers rely guar post s)
    (hs : rely s s') : p.Ensures answers rely guar post s' := by
  cases p with
  | done | call => exact fun s₁ h₁ => h s₁ (hrely.trans _ _ _ hs h₁)

/-- The consequence rule under interference. -/
theorem Ensures.mono (h : p.Ensures answers rely guar post s)
    (hpost : ∀ a s, post a s → post' a s) : p.Ensures answers rely guar post' s := by
  induction p generalizing s with
  | done a => exact fun s₁ h₁ => hpost a s₁ (h s₁ h₁)
  | call c next ih =>
    intro s₁ h₁ r s₂ hanswer
    obtain ⟨hguar, hnext⟩ := h s₁ h₁ r s₂ hanswer
    exact ⟨hguar, ih r hnext⟩

/-- The rule for two programs in sequence, under interference. -/
theorem Ensures.bind (hrely : Interference rely) {f : α → Program C R β} {post : β → S → Prop}
    (h : p.Ensures answers rely guar (fun a s => (f a).Ensures answers rely guar post s) s) :
    (p >>= f).Ensures answers rely guar post s := by
  induction p generalizing s with
  | done a => exact h s (hrely.refl s)
  | call c next ih =>
    intro s₁ h₁ r s₂ hanswer
    obtain ⟨hguar, hnext⟩ := h s₁ h₁ r s₂ hanswer
    exact ⟨hguar, ih r hnext⟩

/-- A program whose calls all keep an invariant keeps it. -/
theorem Ensures.of_calls {inv : S → Prop} (hrely : ∀ s s', inv s → rely s s' → inv s')
    (hcall : ∀ c, P c → ∀ s r s', inv s → answers c s r s' → guar s s' ∧ inv s')
    (hp : p.Calls P) (hs : inv s) : p.Ensures answers rely guar (fun _ s => inv s) s := by
  induction p generalizing s with
  | done a => exact fun s₁ h₁ => hrely s s₁ hs h₁
  | call c next ih =>
    intro s₁ h₁ r s₂ hanswer
    obtain ⟨hg, hinv⟩ := hcall c hp.1 s₁ r s₂ (hrely s s₁ hs h₁) hanswer
    exact ⟨hg, ih r (hp.2 r) hinv⟩

/-- Without an environment the judgement is about executions. -/
theorem Ensures.exec {guar : S → S → Prop} {a : α}
    (h : p.Ensures answers (fun s s' => s' = s) guar post s) (hexec : p.Exec answers s a s') :
    post a s' := by
  induction p generalizing s with
  | done b =>
    obtain ⟨rfl, rfl⟩ := hexec
    exact h _ rfl
  | call c next ih =>
    obtain ⟨r, s₁, hanswer, hrest⟩ := hexec
    exact ih r (h s rfl r s₁ hanswer).2 hrest

end Ensures

end Program

end KubeAtlas.Lib
