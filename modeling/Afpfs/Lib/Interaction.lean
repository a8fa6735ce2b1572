import Mathlib.Logic.Relation

/-!
# Programs that interact with an environment

A program over the effects `E` is a tree: it is `done`, or it performs an effect `e` and
continues with whatever the environment answers, a value of `R e`.  Nothing is said about who
answers, so one definition of a program serves three readings:

* `Steps p tr q`: the environment may answer anything; `tr` is what happened.
* `exec h p s`: a deterministic environment `h` with a state answers.
* the programs of several threads side by side, each performing its next effect in turn.

`stuck` is where a program cannot go on: a loop that ran out of fuel, or behaviour the source
language leaves undefined.

`AllActs P p` says that every effect `p` can ever perform satisfies `P`, whatever the answers.
It is the rule of this library for safety: `AllActs.bind` composes it along a program and
`AllActs.steps` reads it on every trace.

`Ensures ok Q p` says that `p` returns nothing but results in `Q` as long as the answers respect
`ok`.  It is the rule for postconditions, with `Ensures.bind` and `Ensures.steps`.

`Yields ok Q p` says besides that `p` does not get stuck: the rule for total correctness.

`Reaches ok p a` says that `p` can return `a` with answers that respect `ok`.  What is ensured is true
of it (`Ensures.of_reaches`), and there is such a trace (`Reaches.exists_steps`).

`Does P Q p` says that `p` performs an effect in `P` before it comes to an end, unless it returns a
result in `Q`: the rule for what a program has to do (`Does.bind`, `Does.tracks`).

`Returns Q p` says that every complete trace satisfies `Q` together with its result, with
`Returns.bind` and `Returns.steps`: the rule for a result that depends on what happened.

`Lockstep R p q` says that two programs perform the same effects and return results that `R` relates,
with `Lockstep.bind`; what one yields, the other does (`Lockstep.yields`).

`Tracks P F Q tr p` says that after the history `tr` the program performs only effects that `P` allows
after all that has happened by then, that the history and the result satisfy `Q` where it returns,
and that the history satisfies `F` where it gets stuck, with `Tracks.bind` and `Tracks.steps`: the
rule for safety that depends on the history, and for programs that need not end.

`Leads ok next Q s p` follows a state of the environment that `next` changes with each effect and its
answer: it starts as `s`, and where the program returns, the state and the result are related by `Q`,
with `Leads.bind` and `Leads.steps`.  With `along` the answers are those of one trace, for what depends
on which of them comes first (`Leads.along`, `Leads.steps_along`).

`Attains ok next Q s p` says besides that the program does not get stuck, with `Attains.bind` and
`Attains.steps`; what a program yields from every state of a part of the environment it attains
(`Yields.attains`).  `lift` takes a program to a larger set of effects, and `Attains.lift` what it
attains with it.

`Meets fits does T a p` says the same of a program over an interface, whose effects may do different
things.  `interpret` carries out the effects by programs, and `Meets.interpret` is the rule for an
interface that refines another; with `interpretFrom` the programs pass on a state.

`Obeys allowed next final s p` says that `p` follows an automaton from its state `s`: the effects it
performs are those that are `allowed`, and it returns only what is `final` in the state it is in.  Where threads
run side by side, this is what the others know of a program (`Obeys.effect`, `Obeys.answer`).
-/

set_option autoImplicit false

namespace Afpfs
namespace Interaction

/-- A program over the effects `E`, where `e` is answered by a value of `R e`. -/
inductive Prog (E : Type) (R : E → Type) (α : Type) where
  | done (a : α) : Prog E R α
  | act (e : E) (k : R e → Prog E R α) : Prog E R α
  | stuck : Prog E R α

namespace Prog

variable {E : Type} {R : E → Type} {α β γ : Type}

/-- Continue a program with what it returns. -/
def bind : Prog E R α → (α → Prog E R β) → Prog E R β
  | .done a, f => f a
  | .act e k, f => .act e fun r => (k r).bind f
  | .stuck, _ => .stuck

instance : Monad (Prog E R) where
  pure := .done
  bind := bind

/-- Perform one effect and return the answer. -/
def perform (e : E) : Prog E R (R e) := .act e .done

@[simp] theorem pure_eq (a : α) : (pure a : Prog E R α) = .done a := rfl

@[simp] theorem done_bind (a : α) (f : α → Prog E R β) : (Prog.done a : Prog E R α) >>= f = f a :=
  rfl

@[simp] theorem act_bind (e : E) (k : R e → Prog E R α) (f : α → Prog E R β) :
    Prog.act e k >>= f = .act e fun r => k r >>= f := rfl

@[simp] theorem stuck_bind (f : α → Prog E R β) : (Prog.stuck : Prog E R α) >>= f = .stuck := rfl

@[simp] theorem perform_bind (e : E) (f : R e → Prog E R β) :
    (perform e : Prog E R (R e)) >>= f = .act e f := rfl

theorem bind_assoc' (p : Prog E R α) (f : α → Prog E R β) (g : β → Prog E R γ) :
    p >>= f >>= g = p >>= fun a => f a >>= g := by
  induction p with
  | done a => rfl
  | act e k ih =>
    simp only [act_bind]
    exact congrArg (Prog.act e) (funext ih)
  | stuck => rfl

theorem bind_done (p : Prog E R α) : p >>= Prog.done = p := by
  induction p with
  | done a => rfl
  | act e k ih => exact congrArg (Prog.act e) (funext ih)
  | stuck => rfl

instance : LawfulMonad (Prog E R) :=
  LawfulMonad.mk' _ bind_done (fun _ _ => rfl) bind_assoc'

/-! ## Traces -/

/-- `Steps p tr q`: after the effects and answers of `tr` the program `p` has become `q`. -/
inductive Steps : Prog E R α → List ((e : E) × R e) → Prog E R α → Prop
  | refl (p : Prog E R α) : Steps p [] p
  | act {e : E} {k : R e → Prog E R α} {r : R e} {tr : List ((e : E) × R e)} {q : Prog E R α} :
      Steps (k r) tr q → Steps (.act e k) (⟨e, r⟩ :: tr) q

theorem Steps.trans {p q r : Prog E R α} {tr tr' : List ((e : E) × R e)} (h : Steps p tr q)
    (h' : Steps q tr' r) : Steps p (tr ++ tr') r := by
  induction h with
  | refl p => exact h'
  | act _ ih => exact .act (ih h')

/-- The program has come to an end, at a result or at nothing. -/
def Final : Prog E R α → Prop
  | .act _ _ => False
  | _ => True

theorem steps_nil_iff {p q : Prog E R α} : Steps p [] q ↔ q = p := by
  constructor
  · rintro ⟨⟩
    rfl
  · rintro rfl
    exact .refl _

theorem steps_done_iff {a : α} {tr : List ((e : E) × R e)} {q : Prog E R α} :
    Steps (.done a) tr q ↔ tr = [] ∧ q = .done a := by
  constructor
  · rintro ⟨⟩
    exact ⟨rfl, rfl⟩
  · rintro ⟨rfl, rfl⟩
    exact .refl _

theorem not_steps_done_stuck {a : α} {tr : List ((e : E) × R e)} :
    ¬ Steps (.done a : Prog E R α) tr .stuck := by
  intro h
  cases (steps_done_iff.mp h).2

theorem steps_stuck_iff {tr : List ((e : E) × R e)} {q : Prog E R α} :
    Steps .stuck tr q ↔ tr = [] ∧ q = .stuck := by
  constructor
  · rintro ⟨⟩
    exact ⟨rfl, rfl⟩
  · rintro ⟨rfl, rfl⟩
    exact .refl _

/-- **Symbolic execution.**  A trace to an end of the program starts with its first effect and an
answer. -/
theorem steps_act_iff {e : E} {k : R e → Prog E R α} {tr : List ((e : E) × R e)}
    {q : Prog E R α} (hq : Final q) :
    Steps (.act e k) tr q ↔ ∃ r tr', tr = ⟨e, r⟩ :: tr' ∧ Steps (k r) tr' q := by
  constructor
  · rintro (_ | ⟨h⟩)
    · exact absurd hq id
    · exact ⟨_, _, rfl, h⟩
  · rintro ⟨r, tr', rfl, h⟩
    exact .act h

/-- One part after the other. -/
theorem Steps.bind {p : Prog E R α} {f : α → Prog E R β} {tr tr' : List ((e : E) × R e)} {a : α}
    {q : Prog E R β} (hp : Steps p tr (.done a)) (hf : Steps (f a) tr' q) :
    Steps (p >>= f) (tr ++ tr') q := by
  generalize hdone : Prog.done a = p' at hp
  induction hp with
  | refl p =>
    subst hdone
    exact hf
  | act _ ih => exact .act (ih hdone)

theorem Steps.bind_left {p q : Prog E R α} {tr : List ((e : E) × R e)} (h : Steps p tr q)
    (f : α → Prog E R β) : Steps (p >>= f) tr (q >>= f) := by
  induction h with
  | refl p => exact .refl _
  | act _ ih => exact .act ih

/-- A trace of a sequence ends in the first part or after it. -/
theorem steps_bind_cases {p : Prog E R α} {f : α → Prog E R β} {tr : List ((e : E) × R e)}
    {q : Prog E R β} (h : Steps (p >>= f) tr q) :
    (∃ p', Steps p tr p') ∨ ∃ a tr₁ tr₂, tr = tr₁ ++ tr₂ ∧ Steps p tr₁ (.done a) ∧
      Steps (f a) tr₂ q := by
  induction p generalizing tr with
  | done a => exact .inr ⟨a, [], tr, rfl, .refl _, h⟩
  | stuck =>
    obtain ⟨rfl, -⟩ := steps_stuck_iff.mp h
    exact .inl ⟨_, .refl _⟩
  | act e k ih =>
    cases h with
    | refl => exact .inl ⟨_, .refl _⟩
    | act hrest =>
      rcases ih _ hrest with ⟨p', hp'⟩ | ⟨a, tr₁, tr₂, rfl, hp, hf⟩
      · exact .inl ⟨p', .act hp'⟩
      · exact .inr ⟨a, _, tr₂, rfl, .act hp, hf⟩

/-- Every effect the program can perform satisfies `P`, whatever the environment answers. -/
def AllActs (P : E → Prop) : Prog E R α → Prop
  | .done _ => True
  | .act e k => P e ∧ ∀ r, AllActs P (k r)
  | .stuck => True

variable {P : E → Prop}

@[simp] theorem allActs_done (a : α) : AllActs P (.done a : Prog E R α) := trivial

@[simp] theorem allActs_stuck : AllActs P (.stuck : Prog E R α) := trivial

@[simp] theorem allActs_act (e : E) (k : R e → Prog E R α) :
    AllActs P (.act e k) ↔ P e ∧ ∀ r, AllActs P (k r) := Iff.rfl

@[simp] theorem allActs_pure (a : α) : AllActs P (pure a : Prog E R α) := trivial

@[simp] theorem allActs_perform (e : E) : AllActs P (perform e : Prog E R (R e)) ↔ P e :=
  ⟨fun h => h.1, fun h => ⟨h, fun _ => trivial⟩⟩

/-- A branch is chosen by the data of the program, not by an answer. -/
theorem allActs_ite {c : Prop} [Decidable c] {p q : Prog E R α} :
    AllActs P (if c then p else q) ↔ (c → AllActs P p) ∧ (¬ c → AllActs P q) := by
  by_cases hc : c
  · rw [if_pos hc]
    exact ⟨fun h => ⟨fun _ => h, fun hn => absurd hc hn⟩, fun h => h.1 hc⟩
  · rw [if_neg hc]
    exact ⟨fun h => ⟨fun hp => absurd hp hc, fun _ => h⟩, fun h => h.2 hc⟩

/-- **Sequencing.**  What a program and all its continuations respect, the sequence respects. -/
theorem AllActs.bind {p : Prog E R α} {f : α → Prog E R β} (hp : AllActs P p)
    (hf : ∀ a, AllActs P (f a)) : AllActs P (p >>= f) := by
  induction p with
  | done a => exact hf a
  | act e k ih => exact ⟨hp.1, fun r => ih r (hp.2 r)⟩
  | stuck => trivial

theorem AllActs.mono {Q : E → Prop} (h : ∀ e, P e → Q e) {p : Prog E R α} (hp : AllActs P p) :
    AllActs Q p := by
  induction p with
  | done a => trivial
  | act e k ih => exact ⟨h e hp.1, fun r => ih r (hp.2 r)⟩
  | stuck => trivial

/-- **Reading it on a trace.**  Every effect of every trace, complete or not, satisfies `P`. -/
theorem AllActs.steps {p q : Prog E R α} {tr : List ((e : E) × R e)} (h : Steps p tr q)
    (hp : AllActs P p) : ∀ ev ∈ tr, P ev.1 := by
  induction h with
  | refl p => simp
  | act _ ih => exact List.forall_mem_cons.mpr ⟨hp.1, ih (hp.2 _)⟩

/-! ## Results -/

/-- Whenever the answers respect `ok` and the program returns, the result satisfies `Q`. -/
def Ensures (ok : (e : E) × R e → Prop) (Q : α → Prop) : Prog E R α → Prop
  | .done a => Q a
  | .act e k => ∀ r, ok ⟨e, r⟩ → Ensures ok Q (k r)
  | .stuck => True

variable {ok : (e : E) × R e → Prop} {Q : α → Prop} {T : β → Prop}

@[simp] theorem ensures_done (a : α) : Ensures ok Q (.done a : Prog E R α) ↔ Q a := Iff.rfl

@[simp] theorem ensures_act (e : E) (k : R e → Prog E R α) :
    Ensures ok Q (.act e k) ↔ ∀ r, ok ⟨e, r⟩ → Ensures ok Q (k r) := Iff.rfl

@[simp] theorem ensures_stuck : Ensures ok Q (.stuck : Prog E R α) := trivial

/-- **Sequencing.**  A continuation may rely on what the first part ensures. -/
theorem Ensures.bind {p : Prog E R α} {f : α → Prog E R β} (hp : Ensures ok Q p)
    (hf : ∀ a, Q a → Ensures ok T (f a)) : Ensures ok T (p >>= f) := by
  induction p with
  | done a => exact hf a hp
  | act e k ih => exact fun r hr => ih r (hp r hr)
  | stuck => trivial

theorem Ensures.mono {Q' : α → Prop} (h : ∀ a, Q a → Q' a) {p : Prog E R α}
    (hp : Ensures ok Q p) : Ensures ok Q' p := by
  induction p with
  | done a => exact h a hp
  | act e k ih => exact fun r hr => ih r (hp r hr)
  | stuck => trivial

/-- What holds of every result is ensured. -/
theorem ensures_of_forall (h : ∀ a, Q a) (p : Prog E R α) : Ensures ok Q p := by
  induction p with
  | done a => exact h a
  | act e k ih => exact fun r _ => ih r
  | stuck => trivial

theorem ensures_ite {c : Prop} [Decidable c] {p q : Prog E R α} (hp : c → Ensures ok Q p)
    (hq : ¬ c → Ensures ok Q q) : Ensures ok Q (if c then p else q) := by
  by_cases hc : c
  · rw [if_pos hc]
    exact hp hc
  · rw [if_neg hc]
    exact hq hc

/-- Sequencing for safety, where a continuation may rely on what the first part ensures. -/
theorem AllActs.bind_of {p : Prog E R α} {f : α → Prog E R β} (hp : AllActs P p)
    (hQ : Ensures (fun _ => True) Q p) (hf : ∀ a, Q a → AllActs P (f a)) :
    AllActs P (p >>= f) := by
  induction p with
  | done a => exact hf a hQ
  | act e k ih => exact ⟨hp.1, fun r => ih r (hp.2 r) (hQ r trivial)⟩
  | stuck => trivial

/-- **Reading it on a trace.** -/
theorem Ensures.steps {p q : Prog E R α} {tr : List ((e : E) × R e)} (h : Steps p tr q)
    (hok : ∀ ev ∈ tr, ok ev) (hp : Ensures ok Q p) : Ensures ok Q q := by
  induction h with
  | refl p => exact hp
  | act _ ih =>
    obtain ⟨hev, hrest⟩ := List.forall_mem_cons.mp hok
    exact ih hrest (hp _ hev)

/-! ## Total correctness -/

/-- As long as the answers respect `ok` the program does not get stuck, and it returns a result in
`Q`. -/
def Yields (ok : (e : E) × R e → Prop) (Q : α → Prop) : Prog E R α → Prop
  | .done a => Q a
  | .act e k => ∀ r, ok ⟨e, r⟩ → Yields ok Q (k r)
  | .stuck => False

@[simp] theorem yields_done (a : α) : Yields ok Q (.done a : Prog E R α) ↔ Q a := Iff.rfl

@[simp] theorem yields_act (e : E) (k : R e → Prog E R α) :
    Yields ok Q (.act e k) ↔ ∀ r, ok ⟨e, r⟩ → Yields ok Q (k r) := Iff.rfl

@[simp] theorem yields_stuck : ¬ Yields ok Q (.stuck : Prog E R α) := fun h => h

theorem Yields.bind {p : Prog E R α} {f : α → Prog E R β} (hp : Yields ok Q p)
    (hf : ∀ a, Q a → Yields ok T (f a)) : Yields ok T (p >>= f) := by
  induction p with
  | done a => exact hf a hp
  | act e k ih => exact fun r hr => ih r (hp r hr)
  | stuck => exact hp.elim

/-- What is yielded is ensured. -/
theorem Yields.ensures {p : Prog E R α} (hp : Yields ok Q p) : Ensures ok Q p := by
  induction p with
  | done a => exact hp
  | act e k ih => exact fun r hr => ih r (hp r hr)
  | stuck => trivial

theorem Yields.mono {Q' : α → Prop} (h : ∀ a, Q a → Q' a) {p : Prog E R α}
    (hp : Yields ok Q p) : Yields ok Q' p := by
  induction p with
  | done a => exact h a hp
  | act e k ih => exact fun r hr => ih r (hp r hr)
  | stuck => exact hp.elim

theorem Yields.and {Q' : α → Prop} {p : Prog E R α} (hp : Yields ok Q p) (hp' : Yields ok Q' p) :
    Yields ok (fun a => Q a ∧ Q' a) p := by
  induction p with
  | done a => exact ⟨hp, hp'⟩
  | act e k ih => exact fun r hr => ih r (hp r hr) (hp' r hr)
  | stuck => exact hp.elim

theorem yields_ite {c : Prop} [Decidable c] {p q : Prog E R α} (hp : c → Yields ok Q p)
    (hq : ¬ c → Yields ok Q q) : Yields ok Q (if c then p else q) := by
  by_cases hc : c
  · rw [if_pos hc]
    exact hp hc
  · rw [if_neg hc]
    exact hq hc

/-- A sequence yields its results exactly if its first part yields results from which the second
does. -/
theorem yields_bind {p : Prog E R α} {f : α → Prog E R β} :
    Yields ok T (p >>= f) ↔ Yields ok (fun a => Yields ok T (f a)) p := by
  induction p with
  | done a => exact Iff.rfl
  | act e k ih => exact forall₂_congr fun r _ => ih r
  | stuck => exact Iff.rfl

/-- The second part of a sequence yields its results from every result of the first. -/
theorem Yields.of_bind {p : Prog E R α} {f : α → Prog E R β} (h : Yields ok T (p >>= f))
    (hp : Yields ok Q p) (hok : ∀ e, ∃ r, ok ⟨e, r⟩) : ∃ a, Q a ∧ Yields ok T (f a) := by
  induction p with
  | done a => exact ⟨a, hp, h⟩
  | act e k ih =>
    obtain ⟨r, hr⟩ := hok e
    exact ih r (h r hr) (hp r hr)
  | stuck => exact hp.elim

/-- **Reading it on a trace.**  What is left yields the results, so it is not stuck. -/
theorem Yields.steps {p q : Prog E R α} {tr : List ((e : E) × R e)} (h : Steps p tr q)
    (hok : ∀ ev ∈ tr, ok ev) (hp : Yields ok Q p) : Yields ok Q q := by
  induction h with
  | refl p => exact hp
  | act _ ih =>
    obtain ⟨hev, hrest⟩ := List.forall_mem_cons.mp hok
    exact ih hrest (hp _ hev)

/-- A program that cannot get stuck has a trace to a result. -/
theorem Yields.exists_steps {p : Prog E R α} (hp : Yields ok Q p) (hok : ∀ e, ∃ r, ok ⟨e, r⟩) :
    ∃ tr a, Steps p tr (.done a) ∧ Q a := by
  induction p with
  | done a => exact ⟨[], a, .refl _, hp⟩
  | act e k ih =>
    obtain ⟨r, hr⟩ := hok e
    obtain ⟨tr, a, hsteps, ha⟩ := ih r (hp r hr)
    exact ⟨⟨e, r⟩ :: tr, a, .act hsteps, ha⟩
  | stuck => exact hp.elim

/-! ## Possible results -/

/-- With some answers that respect `ok`, the program returns this. -/
def Reaches (ok : (e : E) × R e → Prop) : Prog E R α → α → Prop
  | .done a, b => a = b
  | .act e k, b => ∃ r, ok ⟨e, r⟩ ∧ Reaches ok (k r) b
  | .stuck, _ => False

@[simp] theorem reaches_done (a b : α) : Reaches ok (.done a : Prog E R α) b ↔ a = b := Iff.rfl

theorem Reaches.act {e : E} {k : R e → Prog E R α} {a : α} (r : R e) (hr : ok ⟨e, r⟩)
    (h : Reaches ok (k r) a) : Reaches ok (.act e k) a := ⟨r, hr, h⟩

theorem Reaches.bind {p : Prog E R α} {f : α → Prog E R β} {a : α} {b : β} (hp : Reaches ok p a)
    (hf : Reaches ok (f a) b) : Reaches ok (p >>= f) b := by
  induction p with
  | done a' =>
    obtain rfl : a' = a := hp
    exact hf
  | act e k ih =>
    obtain ⟨r, hr, h⟩ := hp
    exact ⟨r, hr, ih r h⟩
  | stuck => exact hp.elim

/-- A possible result is among those that are ensured. -/
theorem Ensures.of_reaches {p : Prog E R α} {a : α} (hp : Ensures ok Q p) (h : Reaches ok p a) :
    Q a := by
  induction p with
  | done a' =>
    obtain rfl : a' = a := h
    exact hp
  | act e k ih =>
    obtain ⟨r, hr, h⟩ := h
    exact ih r (hp r hr) h
  | stuck => exact h.elim

/-- A result that can be reached is reached by a trace. -/
theorem Reaches.exists_steps {p : Prog E R α} {a : α} (h : Reaches ok p a) :
    ∃ tr, Steps p tr (.done a) ∧ ∀ ev ∈ tr, ok ev := by
  induction p with
  | done a' =>
    obtain rfl : a' = a := h
    exact ⟨[], .refl _, fun _ hev => absurd hev List.not_mem_nil⟩
  | act e k ih =>
    obtain ⟨r, hr, h⟩ := h
    obtain ⟨tr, hsteps, htr⟩ := ih r h
    exact ⟨⟨e, r⟩ :: tr, .act hsteps, List.forall_mem_cons.mpr ⟨hr, htr⟩⟩
  | stuck => exact h.elim

/-! ## What has to be done -/

/-- The program performs an effect in `P` before it comes to an end, or it returns a result in `Q`. -/
def Does (P : E → Prop) (Q : α → Prop) : Prog E R α → Prop
  | .done a => Q a
  | .act e k => P e ∨ ∀ r, Does P Q (k r)
  | .stuck => False

/-- **Sequencing.**  The second part has to do what the first has not done. -/
theorem Does.bind {p : Prog E R α} {f : α → Prog E R β} (hp : Does P Q p)
    (hf : ∀ a, Q a → Does P T (f a)) : Does P T (p >>= f) := by
  induction p with
  | done a => exact hf a hp
  | act e k ih => exact hp.imp id fun hk r => ih r (hk r)
  | stuck => exact hp.elim

theorem Does.mono {Q' : α → Prop} (h : ∀ a, Q a → Q' a) {p : Prog E R α} (hp : Does P Q p) :
    Does P Q' p := by
  induction p with
  | done a => exact h a hp
  | act e k ih => exact hp.imp id fun hk r => ih r (hk r)
  | stuck => exact hp.elim

/-- A program that yields its results does what there is to do, or returns one of them. -/
theorem Yields.does {p : Prog E R α} (hp : Yields (fun _ => True) Q p) : Does P Q p := by
  induction p with
  | done a => exact hp
  | act e k ih => exact .inr fun r => ih r (hp r trivial)
  | stuck => exact hp.elim

theorem does_ite {c : Prop} [Decidable c] {p q : Prog E R α} (hp : c → Does P Q p)
    (hq : ¬ c → Does P Q q) : Does P Q (if c then p else q) := by
  by_cases hc : c
  · rw [if_pos hc]
    exact hp hc
  · rw [if_neg hc]
    exact hq hc

/-! ## Two programs -/

/-- Two programs perform the same effects, and return results that are related. -/
inductive Lockstep (T : α → β → Prop) : Prog E R α → Prog E R β → Prop
  | done {a : α} {b : β} (h : T a b) : Lockstep T (.done a) (.done b)
  | act {e : E} {k : R e → Prog E R α} {k' : R e → Prog E R β} (h : ∀ r, Lockstep T (k r) (k' r)) :
    Lockstep T (.act e k) (.act e k')
  | stuck : Lockstep T .stuck .stuck

section Lockstep

variable {δ : Type} {T : α → β → Prop} {U : γ → δ → Prop}

theorem Lockstep.refl (p : Prog E R α) : Lockstep Eq p p := by
  induction p with
  | done a => exact .done rfl
  | act e k ih => exact .act ih
  | stuck => exact .stuck

theorem Lockstep.mono {T' : α → β → Prop} {p : Prog E R α} {q : Prog E R β} (h : Lockstep T p q)
    (hT : ∀ a b, T a b → T' a b) : Lockstep T' p q := by
  induction h with
  | done h => exact .done (hT _ _ h)
  | act _ ih => exact .act ih
  | stuck => exact .stuck

/-- **Sequencing.**  The continuations start from related results. -/
theorem Lockstep.bind {p : Prog E R α} {q : Prog E R β} {f : α → Prog E R γ} {g : β → Prog E R δ}
    (h : Lockstep T p q) (hf : ∀ a b, T a b → Lockstep U (f a) (g b)) :
    Lockstep U (p >>= f) (q >>= g) := by
  induction h with
  | done h => exact hf _ _ h
  | act _ ih => exact .act ih
  | stuck => exact .stuck

/-- Two programs that start with the same part. -/
theorem Lockstep.bind_left {p : Prog E R α} {f : α → Prog E R γ} {g : α → Prog E R δ}
    (hf : ∀ a, Lockstep U (f a) (g a)) : Lockstep U (p >>= f) (p >>= g) :=
  (Lockstep.refl p).bind fun a _ h => h ▸ hf a

theorem lockstep_ite {c : Prop} [Decidable c] {p p' : Prog E R α} {q q' : Prog E R β}
    (hp : c → Lockstep T p q) (hq : ¬ c → Lockstep T p' q') :
    Lockstep T (if c then p else p') (if c then q else q') := by
  by_cases hc : c
  · rw [if_pos hc, if_pos hc]
    exact hp hc
  · rw [if_neg hc, if_neg hc]
    exact hq hc

/-- What one of them yields, the other yields something related to. -/
theorem Lockstep.yields {p : Prog E R α} {q : Prog E R β} {Q : β → Prop} (h : Lockstep T p q)
    (hq : Yields ok Q q) : Yields ok (fun a => ∃ b, T a b ∧ Q b) p := by
  induction h with
  | done h => exact ⟨_, h, hq⟩
  | act _ ih => exact fun r hr => ih r (hq r hr)
  | stuck => exact hq

/-- Where one of them returns, the other does. -/
theorem Lockstep.yields_true {p : Prog E R α} {q : Prog E R β} (h : Lockstep T p q)
    (hp : Yields ok Q p) : Yields ok (fun _ => True) q := by
  induction h with
  | done _ => trivial
  | act _ ih => exact fun r hr => ih r (hp r hr)
  | stuck => exact hp

end Lockstep

/-! ## Complete traces -/

/-- Whenever the program returns, what happened and the result satisfy `Q`. -/
def Returns (Q : List ((e : E) × R e) → α → Prop) : Prog E R α → Prop
  | .done a => Q [] a
  | .act e k => ∀ r, Returns (fun tr a => Q (⟨e, r⟩ :: tr) a) (k r)
  | .stuck => True

section Returns

variable {Q Q' : List ((e : E) × R e) → α → Prop} {T : List ((e : E) × R e) → β → Prop}

@[simp] theorem returns_done (a : α) : Returns Q (.done a : Prog E R α) ↔ Q [] a := Iff.rfl

@[simp] theorem returns_act (e : E) (k : R e → Prog E R α) :
    Returns Q (.act e k) ↔ ∀ r, Returns (fun tr a => Q (⟨e, r⟩ :: tr) a) (k r) := Iff.rfl

@[simp] theorem returns_stuck : Returns Q (.stuck : Prog E R α) := trivial

theorem Returns.mono {p : Prog E R α} (hp : Returns Q p) (h : ∀ tr a, Q tr a → Q' tr a) :
    Returns Q' p := by
  induction p generalizing Q Q' with
  | done a => exact h _ _ hp
  | act e k ih => exact fun r => ih r (hp r) fun tr a => h _ a
  | stuck => trivial

theorem Returns.and {p : Prog E R α} (hp : Returns Q p) (hp' : Returns Q' p) :
    Returns (fun tr a => Q tr a ∧ Q' tr a) p := by
  induction p generalizing Q Q' with
  | done a => exact ⟨hp, hp'⟩
  | act e k ih => exact fun r => ih r (hp r) (hp' r)
  | stuck => trivial

theorem returns_forall {ι : Sort*} {Q : ι → List ((e : E) × R e) → α → Prop} {p : Prog E R α}
    (hp : ∀ i, Returns (Q i) p) : Returns (fun tr a => ∀ i, Q i tr a) p := by
  induction p generalizing Q with
  | done a => exact hp
  | act e k ih => exact fun r => ih r fun i => hp i r
  | stuck => trivial

/-- **Sequencing.**  What happens in a sequence is what happens in its parts. -/
theorem Returns.bind {p : Prog E R α} {f : α → Prog E R β}
    (hp : Returns (fun tr a => Returns (fun tr' b => T (tr ++ tr') b) (f a)) p) :
    Returns T (p >>= f) := by
  induction p generalizing T with
  | done a => exact hp
  | act e k ih => exact fun r => ih r (hp r)
  | stuck => trivial

/-- An effect comes first in what happens. -/
theorem returns_bind_perform {e : E} {f : R e → Prog E R β}
    (hf : ∀ r, Returns (fun tr b => T (⟨e, r⟩ :: tr) b) (f r)) : Returns T (perform e >>= f) := hf

/-- **Reading it on a trace.** -/
theorem Returns.steps {p : Prog E R α} {tr : List ((e : E) × R e)} {a : α}
    (h : Steps p tr (.done a)) (hp : Returns Q p) : Q tr a := by
  generalize hq : Prog.done a = q at h
  induction h generalizing Q with
  | refl p =>
    subst hq
    exact hp
  | act _ ih => exact ih (hp _) hq

theorem returns_ite {c : Prop} [Decidable c] {p q : Prog E R α} (hp : c → Returns Q p)
    (hq : ¬ c → Returns Q q) : Returns Q (if c then p else q) := by
  by_cases hc : c
  · rw [if_pos hc]
    exact hp hc
  · rw [if_neg hc]
    exact hq hc

theorem returns_true (p : Prog E R α) : Returns (fun _ _ => True) p := by
  induction p with
  | done a => trivial
  | act e k ih => exact ih
  | stuck => trivial

/-- Every effect of a complete trace satisfies what the effects of the program satisfy. -/
theorem AllActs.returns {p : Prog E R α} (hp : AllActs P p) :
    Returns (fun tr _ => ∀ ev ∈ tr, P ev.1) p := by
  induction p with
  | done a => exact fun _ hev => absurd hev List.not_mem_nil
  | act e k ih =>
    exact fun r => (ih r (hp.2 r)).mono fun _ _ h => List.forall_mem_cons.mpr ⟨hp.1, h⟩
  | stuck => trivial

/-- A postcondition, for the complete traces. -/
theorem Ensures.returns {ok : (e : E) × R e → Prop} {Q : α → Prop} {p : Prog E R α}
    (hp : Ensures ok Q p) : Returns (fun tr a => (∀ ev ∈ tr, ok ev) → Q a) p := by
  induction p with
  | done a => exact fun _ => hp
  | act e k ih =>
    intro r
    by_cases hr : ok ⟨e, r⟩
    · exact (ih r (hp r hr)).mono fun _ _ h hall => h (List.forall_mem_cons.mp hall).2
    · exact (returns_true (k r)).mono fun _ _ _ hall => absurd (List.forall_mem_cons.mp hall).1 hr
  | stuck => trivial

end Returns

/-! ## Histories -/

/-- After the history `tr` the program performs effects that are allowed then, where it returns, the
history and the result satisfy `Q`, and where it gets stuck, the history satisfies `F`. -/
def Tracks (P : List ((e : E) × R e) → E → Prop) (F : List ((e : E) × R e) → Prop)
    (Q : List ((e : E) × R e) → α → Prop) : List ((e : E) × R e) → Prog E R α → Prop
  | tr, .done a => Q tr a
  | tr, .act e k => P tr e ∧ ∀ r, Tracks P F Q (tr ++ [⟨e, r⟩]) (k r)
  | tr, .stuck => F tr

section Histories

variable {P : List ((e : E) × R e) → E → Prop} {F : List ((e : E) × R e) → Prop}
  {Q Q' : List ((e : E) × R e) → α → Prop} {T : List ((e : E) × R e) → β → Prop}
  {tr : List ((e : E) × R e)}

@[simp] theorem tracks_done (a : α) : Tracks P F Q tr (.done a : Prog E R α) ↔ Q tr a := Iff.rfl

@[simp] theorem tracks_act (e : E) (k : R e → Prog E R α) :
    Tracks P F Q tr (.act e k) ↔ P tr e ∧ ∀ r, Tracks P F Q (tr ++ [⟨e, r⟩]) (k r) := Iff.rfl

@[simp] theorem tracks_stuck : Tracks P F Q tr (.stuck : Prog E R α) ↔ F tr := Iff.rfl

theorem Tracks.mono {p : Prog E R α} (hp : Tracks P F Q tr p) (h : ∀ tr a, Q tr a → Q' tr a) :
    Tracks P F Q' tr p := by
  induction p generalizing tr with
  | done a => exact h tr a hp
  | act e k ih => exact ⟨hp.1, fun r => ih r (hp.2 r)⟩
  | stuck => exact hp

/-- **Sequencing.**  A continuation starts with the history of the first part. -/
theorem Tracks.bind {p : Prog E R α} {f : α → Prog E R β} (hp : Tracks P F Q tr p)
    (hf : ∀ tr a, Q tr a → Tracks P F T tr (f a)) : Tracks P F T tr (p >>= f) := by
  induction p generalizing tr with
  | done a => exact hf tr a hp
  | act e k ih => exact ⟨hp.1, fun r => ih r (hp.2 r)⟩
  | stuck => exact hp

theorem tracks_ite {c : Prop} [Decidable c] {p q : Prog E R α} (hp : c → Tracks P F Q tr p)
    (hq : ¬ c → Tracks P F Q tr q) : Tracks P F Q tr (if c then p else q) := by
  by_cases hc : c
  · rw [if_pos hc]
    exact hp hc
  · rw [if_neg hc]
    exact hq hc

/-- What a program does whatever it is answered keeps an invariant of the history. -/
theorem AllActs.tracks {P' : E → Prop} {I : List ((e : E) × R e) → Prop} {p : Prog E R α}
    (hp : AllActs P' p) (htr : I tr) (hF : ∀ tr, I tr → F tr)
    (hP : ∀ tr e, I tr → P' e → P tr e ∧ ∀ r, I (tr ++ [⟨e, r⟩])) :
    Tracks P F (fun tr' _ => I tr') tr p := by
  induction p generalizing tr with
  | done a => exact htr
  | act e k ih =>
    obtain ⟨hallowed, hkept⟩ := hP tr e htr hp.1
    exact ⟨hallowed, fun r => ih r (hp.2 r) (hkept r)⟩
  | stuck => exact hF tr htr

/-- What nothing undoes stays true. -/
theorem tracks_of_stable {I : List ((e : E) × R e) → Prop} (p : Prog E R α) (htr : I tr)
    (hI : ∀ tr ev, I tr → I (tr ++ [ev])) (hF : ∀ tr, I tr → F tr) :
    Tracks (fun _ _ => True) F (fun tr' _ => I tr') tr p := by
  induction p generalizing tr with
  | done a => exact htr
  | act e k ih => exact ⟨trivial, fun r => ih r (hI tr ⟨e, r⟩ htr)⟩
  | stuck => exact hF tr htr

/-- A program that yields its results has a history of its own behind the one before. -/
theorem Yields.tracks {Q : α → Prop} {p : Prog E R α} (hp : Yields (fun _ => True) Q p) :
    Tracks (fun _ _ => True) F (fun tr' a => Q a ∧ ∃ own, tr' = tr ++ own ∧ Steps p own (.done a))
      tr p := by
  induction p generalizing tr with
  | done a => exact ⟨hp, [], (List.append_nil tr).symm, .refl _⟩
  | act e k ih =>
    refine ⟨trivial, fun r => (ih r (hp r trivial)).mono ?_⟩
    rintro _ a ⟨hQ, own, rfl, hsteps⟩
    exact ⟨hQ, ⟨e, r⟩ :: own, List.append_assoc .., .act hsteps⟩
  | stuck => exact hp.elim

/-- What has to be done turns `I` into `J`, and nothing undoes either. -/
theorem Does.tracks {D : E → Prop} {I J : List ((e : E) × R e) → Prop} {Q : α → Prop}
    {p : Prog E R α} (hp : Does D Q p) (htr : I tr) (hI : ∀ tr ev, I tr → I (tr ++ [ev]))
    (hJ : ∀ tr ev, J tr → J (tr ++ [ev])) (hD : ∀ tr e r, I tr → D e → J (tr ++ [⟨e, r⟩]))
    (hF : ∀ tr, J tr → F tr) :
    Tracks (fun _ _ => True) F (fun tr' a => I tr' ∧ Q a ∨ J tr') tr p := by
  induction p generalizing tr with
  | done a => exact .inl ⟨htr, hp⟩
  | act e k ih =>
    refine ⟨trivial, fun r => ?_⟩
    rcases hp with he | hk
    · exact (tracks_of_stable (k r) (hD tr e r htr he) hJ hF).mono fun _ _ => .inr
    · exact ih r (hk r) (hI tr ⟨e, r⟩ htr)
  | stuck => exact hp.elim

/-- **Reading it on a trace.**  Every effect of the trace was allowed when it was performed, and
what is left of the program goes on from the longer history. -/
theorem Tracks.steps {p q : Prog E R α} {tr' : List ((e : E) × R e)} (h : Steps p tr' q)
    (hp : Tracks P F Q tr p) :
    (∀ tr₁ ev tr₂, tr' = tr₁ ++ ev :: tr₂ → P (tr ++ tr₁) ev.1) ∧ Tracks P F Q (tr ++ tr') q := by
  induction h generalizing tr with
  | refl p =>
    refine ⟨fun tr₁ ev tr₂ heq => absurd heq.symm ?_, by rwa [List.append_nil]⟩
    exact List.append_ne_nil_of_right_ne_nil tr₁ (List.cons_ne_nil ev tr₂)
  | @act e k r tr' q _ ih =>
    obtain ⟨hall, hq⟩ := ih (hp.2 r)
    rw [List.append_assoc, List.singleton_append] at hq
    refine ⟨fun tr₁ ev tr₂ heq => ?_, hq⟩
    cases tr₁ with
    | nil =>
      rw [List.nil_append] at heq
      rw [List.append_nil, ← (List.cons.inj heq).1]
      exact hp.1
    | cons ev' tr₁ =>
      rw [List.cons_append] at heq
      obtain ⟨rfl, htail⟩ := List.cons.inj heq
      have hev := hall tr₁ ev tr₂ htail
      rwa [List.append_assoc, List.singleton_append] at hev

end Histories

/-! ## Protocols -/

section Protocols

variable {S : Type} {allowed : S → E → Prop} {next : S → (e : E) × R e → S} {final : S → α → Prop}

/-- From the state `s` of an automaton the program performs effects that are allowed, and the
automaton moves with each of them and its answer. -/
def Obeys (allowed : S → E → Prop) (next : S → (e : E) × R e → S) (final : S → α → Prop) :
    S → Prog E R α → Prop
  | s, .done a => final s a
  | s, .act e k => allowed s e ∧ ∀ r, Obeys allowed next final (next s ⟨e, r⟩) (k r)
  | _, .stuck => False

@[simp] theorem obeys_done (s : S) (a : α) :
    Obeys allowed next final s (.done a : Prog E R α) ↔ final s a := Iff.rfl

@[simp] theorem obeys_act (s : S) (e : E) (k : R e → Prog E R α) :
    Obeys allowed next final s (.act e k) ↔
      allowed s e ∧ ∀ r, Obeys allowed next final (next s ⟨e, r⟩) (k r) := Iff.rfl

theorem Obeys.effect {s : S} {e : E} {k : R e → Prog E R α}
    (h : Obeys allowed next final s (.act e k)) : allowed s e := h.1

theorem Obeys.answer {s : S} {e : E} {k : R e → Prog E R α}
    (h : Obeys allowed next final s (.act e k)) (r : R e) :
    Obeys allowed next final (next s ⟨e, r⟩) (k r) := h.2 r

end Protocols

/-! ## States of the environment -/

section States

variable {S : Type} {ok : S → (e : E) × R e → Prop} {next : S → (e : E) × R e → S}
  {Q Q' : S → α → Prop} {T : S → β → Prop} {s : S}

/-- The events of a trace are `ok`, each in the state that the events before it have led to. -/
def Admits (ok : S → (e : E) × R e → Prop) (next : S → (e : E) × R e → S) :
    S → List ((e : E) × R e) → Prop
  | _, [] => True
  | s, ev :: tr => ok s ev ∧ Admits ok next (next s ev) tr

theorem Admits.and_forall {P : (e : E) × R e → Prop} {tr : List ((e : E) × R e)}
    (h : Admits ok next s tr) (hP : ∀ ev ∈ tr, P ev) :
    Admits (fun s ev => ok s ev ∧ P ev) next s tr := by
  induction tr generalizing s with
  | nil => trivial
  | cons ev tr ih =>
    obtain ⟨hev, htr⟩ := List.forall_mem_cons.mp hP
    exact ⟨⟨h.1, hev⟩, ih h.2 htr⟩

/-- From the state `s` the program leads to a state and a result that `Q` relates, whenever it returns
and all answers are `ok`. -/
def Leads (ok : S → (e : E) × R e → Prop) (next : S → (e : E) × R e → S) (Q : S → α → Prop) :
    S → Prog E R α → Prop
  | s, .done a => Q s a
  | s, .act e k => ∀ r, ok s ⟨e, r⟩ → Leads ok next Q (next s ⟨e, r⟩) (k r)
  | _, .stuck => True

@[simp] theorem leads_done (a : α) : Leads ok next Q s (.done a : Prog E R α) ↔ Q s a := Iff.rfl

@[simp] theorem leads_act (e : E) (k : R e → Prog E R α) :
    Leads ok next Q s (.act e k) ↔
      ∀ r, ok s ⟨e, r⟩ → Leads ok next Q (next s ⟨e, r⟩) (k r) := Iff.rfl

@[simp] theorem leads_stuck : Leads ok next Q s (.stuck : Prog E R α) := trivial

theorem Leads.mono {p : Prog E R α} (hp : Leads ok next Q s p) (h : ∀ s a, Q s a → Q' s a) :
    Leads ok next Q' s p := by
  induction p generalizing s with
  | done a => exact h s a hp
  | act e k ih => exact fun r hr => ih r (hp r hr)
  | stuck => trivial

/-- **Sequencing.**  A continuation starts in the state that the first part has led to. -/
theorem Leads.bind {p : Prog E R α} {f : α → Prog E R β} (hp : Leads ok next Q s p)
    (hf : ∀ s a, Q s a → Leads ok next T s (f a)) : Leads ok next T s (p >>= f) := by
  induction p generalizing s with
  | done a => exact hf s a hp
  | act e k ih => exact fun r hr => ih r (hp r hr)
  | stuck => trivial

theorem leads_ite {c : Prop} [Decidable c] {p q : Prog E R α} (hp : c → Leads ok next Q s p)
    (hq : ¬ c → Leads ok next Q s q) : Leads ok next Q s (if c then p else q) := by
  by_cases hc : c
  · rw [if_pos hc]
    exact hp hc
  · rw [if_neg hc]
    exact hq hc

/-- What a program does without changing the state can be left out. -/
theorem AllActs.leads_bind {P : E → Prop} {p : Prog E R α} {f : α → Prog E R β} (hp : AllActs P p)
    (hP : ∀ s ev, P ev.1 → next s ev = s) (hf : ∀ a, Leads ok next T s (f a)) :
    Leads ok next T s (p >>= f) := by
  induction p with
  | done a => exact hf a
  | act e k ih =>
    intro r _
    rw [hP s ⟨e, r⟩ hp.1]
    exact ih r (hp.2 r)
  | stuck => trivial

/-- **Reading it on a trace.** -/
theorem Leads.steps {p : Prog E R α} {tr : List ((e : E) × R e)} {a : α}
    (h : Steps p tr (.done a)) (hp : Leads ok next Q s p) (htr : Admits ok next s tr) :
    Q (tr.foldl next s) a := by
  generalize hq : Prog.done a = q at h
  induction h generalizing s with
  | refl p =>
    subst hq
    exact hp
  | act _ ih => exact ih (hp _ htr.1) htr.2 hq

/-! ### Along a trace -/

/-- An event is `ok`, and it is the first of what is left of a trace. -/
def along (ok : S → (e : E) × R e → Prop) (x : S × List ((e : E) × R e)) (ev : (e : E) × R e) : Prop :=
  ok x.1 ev ∧ x.2.head? = some ev

/-- The state after an event, and what is left of the trace then. -/
def alongNext (next : S → (e : E) × R e → S) (x : S × List ((e : E) × R e)) (ev : (e : E) × R e) :
    S × List ((e : E) × R e) :=
  (next x.1 ev, x.2.tail)

/-- Where a program leads whatever is answered, it leads along a trace. -/
theorem Leads.along {p : Prog E R α} (hp : Leads ok next Q s p) (tr : List ((e : E) × R e)) :
    Leads (along ok) (alongNext next) (fun x a => Q x.1 a) (s, tr) p := by
  induction p generalizing s tr with
  | done a => exact hp
  | act e k ih => exact fun r hr => ih r (hp r hr.1) tr.tail
  | stuck => trivial

/-- **Reading it on the trace** that the program was followed along.  What the answers are is known
where they are given, and so is what comes after them. -/
theorem Leads.steps_along {Q : S × List ((e : E) × R e) → α → Prop} {p : Prog E R α}
    {tr : List ((e : E) × R e)} {a : α} (h : Steps p tr (.done a))
    (hp : Leads (Prog.along ok) (alongNext next) Q (s, tr) p) (htr : Admits ok next s tr) :
    Q (tr.foldl next s, []) a := by
  generalize hq : Prog.done a = q at h
  induction h generalizing s with
  | refl p =>
    subst hq
    exact hp
  | @act e k r tr q _ ih => exact ih (hp r ⟨htr.1, rfl⟩) htr.2 hq

/-- From the state `s` the program comes to a state and a result that `Q` relates, without getting
stuck, as long as all answers are `ok`. -/
def Attains (ok : S → (e : E) × R e → Prop) (next : S → (e : E) × R e → S) (Q : S → α → Prop) :
    S → Prog E R α → Prop
  | s, .done a => Q s a
  | s, .act e k => ∀ r, ok s ⟨e, r⟩ → Attains ok next Q (next s ⟨e, r⟩) (k r)
  | _, .stuck => False

@[simp] theorem attains_done (a : α) : Attains ok next Q s (.done a : Prog E R α) ↔ Q s a := Iff.rfl

@[simp] theorem attains_pure (a : α) : Attains ok next Q s (pure a : Prog E R α) ↔ Q s a := Iff.rfl

@[simp] theorem attains_act (e : E) (k : R e → Prog E R α) :
    Attains ok next Q s (.act e k) ↔
      ∀ r, ok s ⟨e, r⟩ → Attains ok next Q (next s ⟨e, r⟩) (k r) := Iff.rfl

theorem Attains.mono {p : Prog E R α} (hp : Attains ok next Q s p) (h : ∀ s a, Q s a → Q' s a) :
    Attains ok next Q' s p := by
  induction p generalizing s with
  | done a => exact h s a hp
  | act e k ih => exact fun r hr => ih r (hp r hr)
  | stuck => exact hp.elim

/-- Fewer answers are to be reckoned with. -/
theorem Attains.of_imp {ok' : S → (e : E) × R e → Prop} {p : Prog E R α}
    (hp : Attains ok next Q s p) (h : ∀ s ev, ok' s ev → ok s ev) : Attains ok' next Q s p := by
  induction p generalizing s with
  | done a => exact hp
  | act e k ih => exact fun r hr => ih r (hp r (h s _ hr))
  | stuck => exact hp

/-- **Sequencing.**  A continuation starts in the state that the first part has come to. -/
theorem Attains.bind {p : Prog E R α} {f : α → Prog E R β} (hp : Attains ok next Q s p)
    (hf : ∀ s a, Q s a → Attains ok next T s (f a)) : Attains ok next T s (p >>= f) := by
  induction p generalizing s with
  | done a => exact hf s a hp
  | act e k ih => exact fun r hr => ih r (hp r hr)
  | stuck => exact hp.elim

theorem attains_ite {c : Prop} [Decidable c] {p q : Prog E R α} (hp : c → Attains ok next Q s p)
    (hq : ¬ c → Attains ok next Q s q) : Attains ok next Q s (if c then p else q) := by
  by_cases hc : c
  · rw [if_pos hc]
    exact hp hc
  · rw [if_neg hc]
    exact hq hc

/-- **A program that leaves the environment alone** comes to what it yields, in the state it started
in. -/
theorem Yields.attains {P : E → Prop} {ok' : (e : E) × R e → Prop} {Q' : α → Prop} {p : Prog E R α}
    (hp : Yields ok' Q' p) (hall : AllActs P p)
    (hok : ∀ ev : (e : E) × R e, P ev.1 → ok s ev → ok' ev ∧ next s ev = s) :
    Attains ok next (fun s' a => s' = s ∧ Q' a) s p := by
  induction p with
  | done a => exact ⟨rfl, hp⟩
  | act e k ih =>
    intro r hr
    obtain ⟨hr', hnext⟩ := hok ⟨e, r⟩ hall.1 hr
    rw [hnext]
    exact ih r (hp r hr') (hall.2 r)
  | stuck => exact hp.elim

/-- **Reading it on a trace.**  What is left of the program is not stuck, and comes to such a state
and result. -/
theorem Attains.steps {p q : Prog E R α} {tr : List ((e : E) × R e)} (h : Steps p tr q)
    (hp : Attains ok next Q s p) (htr : Admits ok next s tr) :
    Attains ok next Q (tr.foldl next s) q := by
  induction h generalizing s with
  | refl p => exact hp
  | act _ ih => exact ih (hp _ htr.1) htr.2

/-! ### Larger sets of effects -/

section Lift

variable {E' : Type} {R' : E' → Type} {S' : Type} {ok' : S' → (e : E ⊕ E') × Sum.elim R R' e → Prop}
  {next' : S' → (e : E ⊕ E') × Sum.elim R R' e → S'} {view : S' → S} {s' : S'}

/-- A program, among programs that have other effects besides. -/
def lift : Prog E R α → Prog (E ⊕ E') (Sum.elim R R') α
  | .done a => .done a
  | .act e k => .act (.inl e) fun r => (k r).lift
  | .stuck => .stuck

/-- **What a program attains it attains in a larger environment**, of which its own is a part.  What
else there is (`Same`) it leaves as it is. -/
theorem Attains.lift {Same : S' → Prop} {p : Prog E R α} (hp : Attains ok next Q (view s') p)
    (hsame : Same s')
    (hok : ∀ s' e r, Same s' → ok' s' ⟨.inl e, r⟩ → ok (view s') ⟨e, r⟩ ∧
      view (next' s' ⟨.inl e, r⟩) = next (view s') ⟨e, r⟩ ∧ Same (next' s' ⟨.inl e, r⟩)) :
    Attains ok' next' (fun s' a => Q (view s') a ∧ Same s') s' (p.lift : Prog _ (Sum.elim R R') α) := by
  induction p generalizing s' with
  | done a => exact ⟨hp, hsame⟩
  | act e k ih =>
    intro r hr
    obtain ⟨hr', hview, hsame'⟩ := hok s' e r hsame hr
    refine ih r ?_ hsame'
    rw [hview]
    exact hp r hr'
  | stuck => exact hp.elim

end Lift

/-! ### Interfaces -/

section Interface

variable {A : Type} {E' : Type} {R' : E' → Type} {fits : A → E' → Prop}
  {does : A → (e : E') → R' e → A → Prop} {T : A → α → Prop} {f : (e : E') → Prog E R (R' e)}
  {σ : Type}

/-- A program over an interface, whose effects are carried out by programs. -/
def interpret (f : (e : E') → Prog E R (R' e)) : Prog E' R' α → Prog E R α
  | .done a => .done a
  | .act e k => f e >>= fun r => (k r).interpret f
  | .stuck => .stuck

/-- From the state `a` of an interface the program performs effects that fit, and comes to a state and a
result that `T` relates, whatever the effects do that may do different things. -/
def Meets (fits : A → E' → Prop) (does : A → (e : E') → R' e → A → Prop) (T : A → α → Prop) :
    A → Prog E' R' α → Prop
  | a, .done x => T a x
  | a, .act e k => fits a e ∧ ∀ r a', does a e r a' → Meets fits does T a' (k r)
  | _, .stuck => False

/-- **Refinement of an interface.**  What a program comes to over the interface, it comes to when its
effects are carried out by programs that do what the interface says. -/
theorem Meets.interpret {Inv : S → Prop} {abs : S → A} {p : Prog E' R' α}
    (hp : Meets fits does T (abs s) p) (hs : Inv s)
    (hf : ∀ s e, Inv s → fits (abs s) e →
      Attains ok next (fun s' r => Inv s' ∧ does (abs s) e r (abs s')) s (f e)) :
    Attains ok next (fun s' x => Inv s' ∧ T (abs s') x) s (p.interpret f) := by
  induction p generalizing s with
  | done x => exact ⟨hs, hp⟩
  | act e k ih =>
    obtain ⟨hfits, hrest⟩ := hp
    refine (hf s e hs hfits).bind fun s' r h => ?_
    obtain ⟨hs', hdoes⟩ := h
    exact ih r (hrest r (abs s') hdoes) hs'
  | stuck => exact hp.elim

/-- The effects are carried out by programs that pass on a state. -/
def interpretFrom (f : (e : E') → σ → Prog E R (R' e × σ)) : σ → Prog E' R' α → Prog E R (α × σ)
  | st, .done a => .done (a, st)
  | st, .act e k => f e st >>= fun r => interpretFrom f r.2 (k r.1)
  | _, .stuck => .stuck

/-- **Simulation of an interface.**  The states of the interface are represented by those of the world
and those that the programs pass on. -/
theorem Meets.interpretFrom {f : (e : E') → σ → Prog E R (R' e × σ)} {represents : S → σ → A → Prop}
    {a : A} {st : σ} {p : Prog E' R' α} (hp : Meets fits does T a p) (hs : represents s st a)
    (hf : ∀ s st a e, represents s st a → fits a e →
      Attains ok next (fun s' r => ∃ a', represents s' r.2 a' ∧ does a e r.1 a') s (f e st)) :
    Attains ok next (fun s' r => ∃ a', represents s' r.2 a' ∧ T a' r.1) s (p.interpretFrom f st) := by
  induction p generalizing s a st with
  | done x => exact ⟨a, hs, hp⟩
  | act e k ih =>
    obtain ⟨hfits, hrest⟩ := hp
    refine (hf s st a e hs hfits).bind fun s' r h => ?_
    obtain ⟨a', hs', hdoes⟩ := h
    exact ih r.1 (hrest r.1 a' hdoes) hs'
  | stuck => exact hp.elim

end Interface

end States

/-! ## Deterministic environments -/

variable {σ : Type}

/-- Run a program against an environment with a state.  `none` when the program gets stuck. -/
def exec (h : σ → (e : E) → R e × σ) : Prog E R α → σ → Option (α × σ)
  | .done a, s => some (a, s)
  | .act e k, s => exec h (k (h s e).1) (h s e).2
  | .stuck, _ => none

variable {h : σ → (e : E) → R e × σ}

@[simp] theorem exec_done (a : α) (s : σ) : exec h (.done a : Prog E R α) s = some (a, s) := rfl

@[simp] theorem exec_pure (a : α) (s : σ) : exec h (pure a : Prog E R α) s = some (a, s) := rfl

@[simp] theorem exec_act (e : E) (k : R e → Prog E R α) (s : σ) :
    exec h (.act e k) s = exec h (k (h s e).1) (h s e).2 := rfl

@[simp] theorem exec_stuck (s : σ) : exec h (.stuck : Prog E R α) s = none := rfl

theorem exec_bind (p : Prog E R α) (f : α → Prog E R β) (s : σ) :
    exec h (p >>= f) s = (exec h p s).bind fun x => exec h (f x.1) x.2 := by
  induction p generalizing s with
  | done a => rfl
  | act e k ih => exact ih _ _
  | stuck => rfl

/-- An execution of a sequence is an execution of its two parts. -/
theorem exec_bind_of {p : Prog E R α} {f : α → Prog E R β} {s s' : σ} {a : α}
    (hp : exec h p s = some (a, s')) : exec h (p >>= f) s = exec h (f a) s' := by
  rw [exec_bind, hp, Option.bind_some]

end Prog
end Interaction
end Afpfs
