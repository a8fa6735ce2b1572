import Mathlib.Algebra.BigOperators.Group.List.Basic
import Mathlib.Algebra.GroupWithZero.Nat
import Mathlib.Algebra.Order.Group.Nat
import Mathlib.Data.List.Chain
import Mathlib.Data.Nat.Notation

/-!
# Folding a list with a partial operation

`join a b` is what two neighbours become, or `none` when they stay apart.  `fold` goes through a
list once: it carries an element, joins it with the next one where it can, and otherwise puts it
out and carries the next one.

* `flatMap_foldAll`: what is additive over joins is kept.
* `sum_map_foldAll_le`: what is subadditive over joins does not grow.
* `isChain_foldAll`: no two neighbours of the result join, when a join is never the second of
  another; `foldAll_foldAll`: then folding again changes nothing.
* `length_foldAll_le`: no division into runs that join to one element each has fewer of them.
-/

set_option autoImplicit false

namespace Afpfs
namespace Fold

variable {α : Type*} (join : α → α → Option α)

/-- The fold with an element that is carried. -/
def fold (p : α) : List α → List α
  | [] => [p]
  | c :: l =>
    match join p c with
    | some d => fold d l
    | none => p :: fold c l

/-- The fold of a list. -/
def foldAll : List α → List α
  | [] => []
  | c :: l => fold join c l

/-- What an element and those behind it join to. -/
def joinAll (p : α) : List α → Option α
  | [] => some p
  | c :: l => (join p c).bind fun d => joinAll d l

/-- The list is not empty and joins to one element. -/
def Run (l : List α) : Prop := ∃ c t, l = c :: t ∧ (joinAll join c t).isSome

/-- Two elements that stay apart. -/
def Apart (a b : α) : Prop := join a b = none

/-- What two elements join to is never the second of two that join. -/
def Closed : Prop := ∀ ⦃a b c⦄, join a b = some c → ∀ d, join d c = none

/-- Where a second joins with what is behind it, nothing joins with that. -/
def Shallow : Prop :=
  ∀ ⦃a b c d e⦄, join a b = some d → join b c = some e → ∀ f, join e f = none

variable {join}

theorem fold_cons_of_some {p c d : α} (h : join p c = some d) (l : List α) :
    fold join p (c :: l) = fold join d l := by
  rw [fold, h]

theorem fold_cons_of_none {p c : α} (h : join p c = none) (l : List α) :
    fold join p (c :: l) = p :: fold join c l := by
  rw [fold, h]

theorem joinAll_cons_of_some {p c d : α} (h : join p c = some d) (l : List α) :
    joinAll join p (c :: l) = joinAll join d l := by
  rw [joinAll, h, Option.bind_some]

/-! ## What is kept -/

/-- Additive over joins. -/
theorem flatMap_fold {β : Type*} {ex : α → List β}
    (hex : ∀ ⦃a b c⦄, join a b = some c → ex c = ex a ++ ex b) (p : α) (l : List α) :
    (fold join p l).flatMap ex = ex p ++ l.flatMap ex := by
  induction l generalizing p with
  | nil => rfl
  | cons c l ih =>
    cases hjoin : join p c with
    | none => rw [fold_cons_of_none hjoin, List.flatMap_cons, ih, List.flatMap_cons]
    | some d =>
      rw [fold_cons_of_some hjoin, ih, hex hjoin, List.append_assoc, List.flatMap_cons]

theorem flatMap_foldAll {β : Type*} {ex : α → List β}
    (hex : ∀ ⦃a b c⦄, join a b = some c → ex c = ex a ++ ex b) (l : List α) :
    (foldAll join l).flatMap ex = l.flatMap ex := by
  cases l with
  | nil => rfl
  | cons c l => rw [foldAll, flatMap_fold hex, List.flatMap_cons]

/-- Subadditive over joins. -/
theorem sum_map_fold_le {w : α → ℕ} (hw : ∀ ⦃a b c⦄, join a b = some c → w c ≤ w a + w b)
    (p : α) (l : List α) : ((fold join p l).map w).sum ≤ w p + (l.map w).sum := by
  induction l generalizing p with
  | nil => exact Nat.le_refl _
  | cons c l ih =>
    rw [List.map_cons, List.sum_cons]
    cases hjoin : join p c with
    | none =>
      rw [fold_cons_of_none hjoin, List.map_cons, List.sum_cons]
      exact Nat.add_le_add_left (ih c) _
    | some d =>
      have hle : w d ≤ w p + w c := hw hjoin
      have hrest := ih d
      rw [fold_cons_of_some hjoin]
      omega

theorem sum_map_foldAll_le {w : α → ℕ}
    (hw : ∀ ⦃a b c⦄, join a b = some c → w c ≤ w a + w b) (l : List α) :
    ((foldAll join l).map w).sum ≤ (l.map w).sum := by
  cases l with
  | nil => exact Nat.le_refl _
  | cons c l => exact sum_map_fold_le hw c l

theorem length_foldAll_le_length (l : List α) : (foldAll join l).length ≤ l.length := by
  have hle := @sum_map_foldAll_le _ join (fun _ => 1)
    (fun _ _ _ _ => Nat.le_add_left 1 1) l
  simpa using hle

/-- What is never the second of two that join is put out. -/
theorem length_lt_length_fold {p : α} {l t : List α} (ht : ∀ c ∈ t, ∀ d, join d c = none) :
    t.length < (fold join p (l ++ t)).length := by
  induction l generalizing p with
  | nil =>
    rw [List.nil_append]
    induction t generalizing p with
    | nil => exact Nat.zero_lt_one
    | cons c t ih =>
      obtain ⟨hc, ht⟩ := List.forall_mem_cons.mp ht
      rw [fold_cons_of_none (hc p), List.length_cons, List.length_cons]
      exact Nat.succ_lt_succ (ih ht)
  | cons c l ih =>
    rw [List.cons_append]
    cases hjoin : join p c with
    | none =>
      rw [fold_cons_of_none hjoin, List.length_cons]
      exact Nat.lt_succ_of_lt ih
    | some d =>
      rw [fold_cons_of_some hjoin]
      exact ih

/-- Whatever holds of the elements and of joins holds of the result. -/
theorem forall_mem_fold {P : α → Prop} (hP : ∀ ⦃a b c⦄, join a b = some c → P c) {p : α}
    {l : List α} (hp : P p) (hl : ∀ c ∈ l, P c) : ∀ c ∈ fold join p l, P c := by
  induction l generalizing p with
  | nil => exact List.forall_mem_singleton.mpr hp
  | cons c l ih =>
    obtain ⟨hc, hl⟩ := List.forall_mem_cons.mp hl
    cases hjoin : join p c with
    | none =>
      rw [fold_cons_of_none hjoin]
      exact List.forall_mem_cons.mpr ⟨hp, ih hc hl⟩
    | some d =>
      rw [fold_cons_of_some hjoin]
      exact ih (hP hjoin) hl

theorem forall_mem_foldAll {P : α → Prop} (hP : ∀ ⦃a b c⦄, join a b = some c → P c)
    {l : List α} (hl : ∀ c ∈ l, P c) : ∀ c ∈ foldAll join l, P c := by
  cases l with
  | nil => exact hl
  | cons c l =>
    obtain ⟨hc, hl⟩ := List.forall_mem_cons.mp hl
    exact forall_mem_fold hP hc hl

/-! ## Folding twice -/

/-- The first of the result is the one that was carried, or a join. -/
theorem head_fold (p : α) (l : List α) :
    ∃ q t, fold join p l = q :: t ∧ (q = p ∨ ∃ a b, join a b = some q) := by
  induction l generalizing p with
  | nil => exact ⟨p, [], rfl, .inl rfl⟩
  | cons c l ih =>
    cases hjoin : join p c with
    | none => exact ⟨p, fold join c l, fold_cons_of_none hjoin l, .inl rfl⟩
    | some d =>
      obtain ⟨q, t, heq, hq⟩ := ih d
      rw [fold_cons_of_some hjoin]
      refine ⟨q, t, heq, .inr ?_⟩
      rcases hq with rfl | hq
      · exact ⟨p, c, hjoin⟩
      · exact hq

/-- **No two neighbours of the result join.** -/
theorem isChain_fold (hclosed : Closed join) (p : α) (l : List α) :
    (fold join p l).IsChain (Apart join) := by
  induction l generalizing p with
  | nil => exact List.isChain_singleton p
  | cons c l ih =>
    cases hjoin : join p c with
    | none =>
      obtain ⟨q, t, heq, hq⟩ := @head_fold _ join c l
      have hrest := ih c
      rw [fold_cons_of_none hjoin]
      rw [heq] at hrest ⊢
      refine List.isChain_cons_cons.mpr ⟨?_, hrest⟩
      rcases hq with rfl | ⟨a, b, hab⟩
      · exact hjoin
      · exact hclosed hab p
    | some d =>
      rw [fold_cons_of_some hjoin]
      exact ih d

theorem isChain_foldAll (hclosed : Closed join) (l : List α) :
    (foldAll join l).IsChain (Apart join) := by
  cases l with
  | nil => exact List.IsChain.nil
  | cons c l => exact isChain_fold hclosed c l

/-- Where nothing joins, nothing changes. -/
theorem fold_of_isChain {p : α} {l : List α} (h : (p :: l).IsChain (Apart join)) :
    fold join p l = p :: l := by
  induction l generalizing p with
  | nil => rfl
  | cons c l ih =>
    obtain ⟨hpc, hrest⟩ := List.isChain_cons_cons.mp h
    rw [fold_cons_of_none hpc, ih hrest]

theorem foldAll_of_isChain {l : List α} (h : l.IsChain (Apart join)) : foldAll join l = l := by
  cases l with
  | nil => rfl
  | cons c l => exact fold_of_isChain h

/-- **Folding again changes nothing.** -/
theorem foldAll_foldAll (hclosed : Closed join) (l : List α) :
    foldAll join (foldAll join l) = foldAll join l :=
  foldAll_of_isChain (isChain_foldAll hclosed l)

/-! ## Runs -/

/-- The carried element and what joins with it is a run, and so on. -/
theorem exists_runs_fold (p : α) (l : List α) :
    ∃ (t : List α) (L : List (List α)), l = t ++ L.flatten ∧ (joinAll join p t).isSome ∧ (∀ m ∈ L, Run join m) ∧
      L.length + 1 = (fold join p l).length := by
  induction l generalizing p with
  | nil => exact ⟨[], [], rfl, rfl, fun _ h => absurd h List.not_mem_nil, rfl⟩
  | cons c l ih =>
    cases hjoin : join p c with
    | none =>
      obtain ⟨t, L, rfl, ht, hL, hlen⟩ := ih c
      refine ⟨[], (c :: t) :: L, rfl, rfl, List.forall_mem_cons.mpr ⟨⟨c, t, rfl, ht⟩, hL⟩, ?_⟩
      rw [fold_cons_of_none hjoin, List.length_cons, List.length_cons, hlen]
    | some d =>
      obtain ⟨t, L, rfl, ht, hL, hlen⟩ := ih d
      refine ⟨c :: t, L, rfl, ?_, hL, ?_⟩
      · rwa [joinAll_cons_of_some hjoin]
      · rwa [fold_cons_of_some hjoin]

/-- The result has one element for each run of a division. -/
theorem exists_runs (l : List α) :
    ∃ L : List (List α), L.flatten = l ∧ (∀ m ∈ L, Run join m) ∧
      L.length = (foldAll join l).length := by
  cases l with
  | nil => exact ⟨[], rfl, fun _ h => absurd h List.not_mem_nil, rfl⟩
  | cons c l =>
    obtain ⟨t, L, rfl, ht, hL, hlen⟩ := @exists_runs_fold _ join c l
    exact ⟨(c :: t) :: L, rfl, List.forall_mem_cons.mpr ⟨⟨c, t, rfl, ht⟩, hL⟩, hlen⟩

/-- Whatever runs follow, the fold does not make more elements of them.  Where it joins the first
of a run with what is before it, the run has two elements at most, and the other one is a run. -/
theorem length_fold_le (hshallow : Shallow join) (l : List α) {p : α} {t : List α}
    {L : List (List α)} (hl : l = t ++ L.flatten) (ht : (joinAll join p t).isSome)
    (hL : ∀ m ∈ L, Run join m) : (fold join p l).length ≤ L.length + 1 := by
  induction l generalizing p t L with
  | nil => exact Nat.le_add_left 1 L.length
  | cons c l ih =>
    cases t with
    | cons c' t =>
      obtain ⟨rfl, hrest⟩ := List.cons.inj hl
      cases hjoin : join p c with
      | none => rw [joinAll, hjoin] at ht; exact absurd ht Bool.false_ne_true
      | some d =>
        rw [joinAll_cons_of_some hjoin] at ht
        rw [fold_cons_of_some hjoin]
        exact ih hrest ht hL
    | nil =>
      cases L with
      | nil => exact absurd hl (List.cons_ne_nil c l)
      | cons m L =>
        obtain ⟨⟨c', t, rfl, ht⟩, hruns⟩ := List.forall_mem_cons.mp hL
        obtain ⟨rfl, hrest⟩ := List.cons.inj hl
        cases hjoin : join p c with
        | none =>
          rw [fold_cons_of_none hjoin, List.length_cons, List.length_cons]
          exact Nat.add_le_add_right (ih hrest ht hruns) 1
        | some d =>
          rw [fold_cons_of_some hjoin, List.length_cons]
          cases t with
          | nil => exact Nat.le_succ_of_le (@ih d [] L hrest rfl hruns)
          | cons x t =>
            cases hcx : join c x with
            | none => rw [joinAll, hcx] at ht; exact absurd ht Bool.false_ne_true
            | some e =>
              rw [joinAll_cons_of_some hcx] at ht
              obtain rfl : t = [] := by
                cases t with
                | nil => rfl
                | cons y t =>
                  rw [joinAll, hshallow hjoin hcx y] at ht
                  exact absurd ht Bool.false_ne_true
              exact @ih d [] ([x] :: L) hrest rfl
                (List.forall_mem_cons.mpr ⟨⟨x, [], rfl, rfl⟩, hruns⟩)

/-- **No division into runs has fewer of them than the result has elements.** -/
theorem length_foldAll_le (hshallow : Shallow join) {L : List (List α)}
    (hL : ∀ m ∈ L, Run join m) : (foldAll join L.flatten).length ≤ L.length := by
  cases L with
  | nil => exact Nat.le_refl 0
  | cons m L =>
    obtain ⟨⟨c, t, rfl, ht⟩, hruns⟩ := List.forall_mem_cons.mp hL
    exact length_fold_le hshallow _ rfl ht hruns

/-- **How long the result is**: a list can be divided into at most `n` runs exactly if the result
has at most `n` elements. -/
theorem length_foldAll_le_iff (hshallow : Shallow join) (l : List α) (n : ℕ) :
    (foldAll join l).length ≤ n ↔
      ∃ L : List (List α), L.flatten = l ∧ (∀ m ∈ L, Run join m) ∧ L.length ≤ n := by
  constructor
  · intro hle
    obtain ⟨L, hflatten, hL, hlen⟩ := @exists_runs _ join l
    exact ⟨L, hflatten, hL, hlen.trans_le hle⟩
  · rintro ⟨L, rfl, hL, hle⟩
    exact (length_foldAll_le hshallow hL).trans hle

end Fold
end Afpfs
