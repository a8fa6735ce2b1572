import Mathlib.Logic.Function.Basic
import Mathlib.Data.List.Nodup

/-!
# Singly linked lists in a heap

A heap maps an address to the node stored there, or to nothing when nothing is allocated; `next`
reads the link of a node.  `Linked heap next p l` says that the pointer `p` leads through the
nodes at exactly the addresses `l` to the null pointer.

Links are functions, so the list is determined by the pointer (`Linked.unique`) and cannot visit
an address twice (`Linked.nodup`): being finite is the whole question.

* `Linked.update`: writing a node off the list leaves the list alone.
* `Linked.push`: storing a node that points to the head puts it in front.
* `Linked.snoc`: a node that the last one points to becomes the last.
* `Linked.append`: a list whose last node is made to point to another list goes on with it.
* `Linked.unlink`: redirecting a link past its successor takes the successor out.
* `not_linked_push_of_mem`: pushing an address that is already on the list closes a cycle, and no
  finite list is left.
* `search`: the loop that walks the links until a node passes a test.  On a finite list it ends
  and is `List.find?` (`search_eq_find?`).
-/

set_option autoImplicit false

namespace Afpfs
namespace PointerList

variable {A N : Type*}

/-- The pointer `p` leads through the nodes at `l` to the null pointer. -/
def Linked (heap : A → Option N) (next : N → Option A) : Option A → List A → Prop
  | none, l => l = []
  | some _, [] => False
  | some p, a :: l => p = a ∧ ∃ n, heap a = some n ∧ Linked heap next (next n) l

variable {heap : A → Option N} {next : N → Option A}

@[simp] theorem linked_none {l : List A} : Linked heap next none l ↔ l = [] := by
  cases l <;> rfl

@[simp] theorem not_linked_some_nil {p : A} : ¬ Linked heap next (some p) [] := fun h => h

theorem linked_some_cons {p a : A} {l : List A} :
    Linked heap next (some p) (a :: l) ↔
      p = a ∧ ∃ n, heap a = some n ∧ Linked heap next (next n) l := Iff.rfl

/-- A pointer leads through one list at most. -/
theorem Linked.unique {p : Option A} {l l' : List A} (h : Linked heap next p l)
    (h' : Linked heap next p l') : l = l' := by
  induction l generalizing p l' with
  | nil =>
    cases p with
    | none => exact (linked_none.mp h').symm
    | some p => exact absurd h not_linked_some_nil
  | cons a l ih =>
    cases p with
    | none => exact absurd (linked_none.mp h) (List.cons_ne_nil a l)
    | some p =>
      obtain ⟨rfl, n, hn, hl⟩ := linked_some_cons.mp h
      cases l' with
      | nil => exact absurd h' not_linked_some_nil
      | cons b l' =>
        obtain ⟨rfl, m, hm, hl'⟩ := linked_some_cons.mp h'
        have hnm : n = m := Option.some.inj (hn.symm.trans hm)
        subst hnm
        rw [ih hl hl']

/-- The pointer is the address of the first node. -/
theorem Linked.eq_head? {p : Option A} {l : List A} (h : Linked heap next p l) : p = l.head? := by
  cases l with
  | nil =>
    cases p with
    | none => rfl
    | some p => exact absurd h not_linked_some_nil
  | cons a l =>
    cases p with
    | none => exact absurd (linked_none.mp h) (List.cons_ne_nil a l)
    | some p => exact congrArg some (linked_some_cons.mp h).1

/-- A node on the list starts a list of its own, the rest of the list. -/
theorem Linked.suffix {p : Option A} (l₁ : List A) {l₂ : List A} {a : A}
    (h : Linked heap next p (l₁ ++ a :: l₂)) : Linked heap next (some a) (a :: l₂) := by
  induction l₁ generalizing p with
  | nil =>
    cases p with
    | none => exact absurd (linked_none.mp h) (List.cons_ne_nil a l₂)
    | some p =>
      obtain ⟨rfl, hn⟩ := linked_some_cons.mp h
      exact ⟨rfl, hn⟩
  | cons b l₁ ih =>
    cases p with
    | none => exact absurd (linked_none.mp h) (List.cons_ne_nil b _)
    | some p =>
      obtain ⟨-, n, -, hl⟩ := linked_some_cons.mp h
      exact ih hl

/-- **A finite list visits no address twice.**  Two visits would start two lists of different
lengths at one address. -/
theorem Linked.nodup {p : Option A} {l : List A} (h : Linked heap next p l) : l.Nodup := by
  induction l generalizing p with
  | nil => exact List.nodup_nil
  | cons a l ih =>
    cases p with
    | none => exact absurd (linked_none.mp h) (List.cons_ne_nil a l)
    | some p =>
      obtain ⟨rfl, n, hn, hl⟩ := linked_some_cons.mp h
      refine List.nodup_cons.mpr ⟨fun hmem => ?_, ih hl⟩
      obtain ⟨l₁, l₂, rfl⟩ := List.append_of_mem hmem
      have heq := congrArg List.length (h.unique (hl.suffix l₁))
      simp only [List.length_cons, List.length_append] at heq
      omega

/-- Every address on the list is allocated. -/
theorem Linked.allocated {p : Option A} {l : List A} (h : Linked heap next p l) {a : A}
    (ha : a ∈ l) : ∃ n, heap a = some n := by
  obtain ⟨l₁, l₂, rfl⟩ := List.append_of_mem ha
  obtain ⟨-, n, hn, -⟩ := linked_some_cons.mp (h.suffix l₁)
  exact ⟨n, hn⟩

/-- Two heaps with the same nodes on the list have the same list. -/
theorem Linked.congr {heap' : A → Option N} {p : Option A} {l : List A}
    (hagree : ∀ a ∈ l, (heap' a).map next = (heap a).map next) (h : Linked heap next p l) :
    Linked heap' next p l := by
  induction l generalizing p with
  | nil =>
    cases p with
    | none => exact linked_none.mpr rfl
    | some p => exact absurd h not_linked_some_nil
  | cons a l ih =>
    cases p with
    | none => exact absurd (linked_none.mp h) (List.cons_ne_nil a l)
    | some p =>
      obtain ⟨rfl, n, hn, hl⟩ := linked_some_cons.mp h
      have ha := hagree p (List.mem_cons_self ..)
      rw [hn, Option.map_some] at ha
      obtain ⟨m, hm, hmn⟩ := Option.map_eq_some_iff.mp ha
      refine linked_some_cons.mpr ⟨rfl, m, hm, ?_⟩
      rw [hmn]
      exact ih (fun b hb => hagree b (List.mem_cons_of_mem _ hb)) hl

/-- **Appending.**  When the last node points to a new one, that is the last. -/
theorem Linked.snoc {heap' : A → Option N} {p : Option A} {l : List A} {a b : A} {na nb : N}
    (hagree : ∀ c ∈ l, heap' c = heap c) (ha : heap' a = some na) (hna : next na = some b)
    (hb : heap' b = some nb) (hnb : next nb = none) (h : Linked heap next p (l ++ [a])) :
    Linked heap' next p (l ++ [a, b]) := by
  induction l generalizing p with
  | nil =>
    cases p with
    | none => exact absurd (linked_none.mp h) (List.cons_ne_nil a [])
    | some p =>
      obtain ⟨rfl, -⟩ := linked_some_cons.mp h
      refine linked_some_cons.mpr ⟨rfl, na, ha, ?_⟩
      rw [hna]
      refine linked_some_cons.mpr ⟨rfl, nb, hb, ?_⟩
      rw [hnb]
      exact linked_none.mpr rfl
  | cons c l ih =>
    cases p with
    | none => exact absurd (linked_none.mp h) (List.cons_ne_nil c _)
    | some p =>
      obtain ⟨rfl, n, hn, hl⟩ := linked_some_cons.mp h
      refine linked_some_cons.mpr ⟨rfl, n, (hagree p List.mem_cons_self).trans hn, ?_⟩
      exact ih (fun d hd => hagree d (List.mem_cons_of_mem p hd)) hl

section Update

variable [DecidableEq A]

/-- Writing at an address off the list leaves the list alone. -/
theorem Linked.update {p : Option A} {l : List A} {a : A} {n : Option N} (ha : a ∉ l)
    (h : Linked heap next p l) : Linked (Function.update heap a n) next p l :=
  h.congr fun b hb => by rw [Function.update_of_ne (ne_of_mem_of_not_mem hb ha)]

/-- Rewriting a node without changing its link leaves every list alone. -/
theorem Linked.update_same_next {p : Option A} {l : List A} {a : A} {n n' : N}
    (hn : heap a = some n) (hnext : next n' = next n) (h : Linked heap next p l) :
    Linked (Function.update heap a (some n')) next p l := by
  refine h.congr fun b _ => ?_
  by_cases hb : b = a
  · subst hb
    rw [Function.update_self, hn, Option.map_some, Option.map_some, hnext]
  · rw [Function.update_of_ne hb]

/-- **Pushing.**  A node stored off the list, pointing at its head, is the new head. -/
theorem Linked.push {p : Option A} {l : List A} {a : A} {n : N} (ha : a ∉ l) (hn : next n = p)
    (h : Linked heap next p l) :
    Linked (Function.update heap a (some n)) next (some a) (a :: l) := by
  refine linked_some_cons.mpr ⟨rfl, n, Function.update_self .., ?_⟩
  rw [hn]
  exact h.update ha

/-- **Joining.**  When the last node is made to point to another list, that follows. -/
theorem Linked.append {p q : Option A} {l l' : List A} {a : A} {n : N} (ha : a ∉ l') (hn : next n = q)
    (h : Linked heap next p (l ++ [a])) (h' : Linked heap next q l') :
    Linked (Function.update heap a (some n)) next p (l ++ a :: l') := by
  have hnodup := h.nodup
  induction l generalizing p with
  | nil =>
    cases p with
    | none => exact absurd (linked_none.mp h) (List.cons_ne_nil a [])
    | some p =>
      obtain ⟨rfl, -⟩ := linked_some_cons.mp h
      refine linked_some_cons.mpr ⟨rfl, n, Function.update_self .., ?_⟩
      rw [hn]
      exact h'.update ha
  | cons c l ih =>
    cases p with
    | none => exact absurd (linked_none.mp h) (List.cons_ne_nil c _)
    | some p =>
      obtain ⟨rfl, m, hm, hl⟩ := linked_some_cons.mp h
      obtain ⟨hmem, hnodup⟩ := List.nodup_cons.mp hnodup
      have hpa : p ≠ a := fun hpa => hmem (hpa ▸ List.mem_append_right l List.mem_cons_self)
      refine linked_some_cons.mpr ⟨rfl, m, ?_, ih hl hnodup⟩
      rw [Function.update_of_ne hpa, hm]

/-- **Unlinking.**  Redirecting the link of `a` past its successor `b` takes `b` out. -/
theorem Linked.unlink {p : Option A} {l₁ l₂ : List A} {a b : A} {na nb n' : N}
    (hnb : heap b = some nb) (hna : heap a = some na) (hn' : next n' = next nb)
    (h : Linked heap next p (l₁ ++ a :: b :: l₂)) :
    Linked (Function.update heap a (some n')) next p (l₁ ++ a :: l₂) := by
  have hnodup := h.nodup
  induction l₁ generalizing p with
  | nil =>
    cases p with
    | none => exact absurd (linked_none.mp h) (List.cons_ne_nil a _)
    | some p =>
      obtain ⟨rfl, m, hm, hl⟩ := linked_some_cons.mp h
      have hmem : p ∉ l₂ := by
        rw [List.nil_append] at hnodup
        exact fun hp => (List.nodup_cons.mp hnodup).1 (List.mem_cons_of_mem _ hp)
      refine linked_some_cons.mpr ⟨rfl, n', Function.update_self .., ?_⟩
      have hb : Linked heap next (some b) (b :: l₂) := Linked.suffix [] hl
      obtain ⟨-, k, hk, hl₂⟩ := linked_some_cons.mp hb
      have hkb : k = nb := Option.some.inj (hk.symm.trans hnb)
      rw [hn', ← hkb]
      exact hl₂.update hmem
  | cons c l₁ ih =>
    cases p with
    | none => exact absurd (linked_none.mp h) (List.cons_ne_nil c _)
    | some p =>
      obtain ⟨rfl, m, hm, hl⟩ := linked_some_cons.mp h
      rw [List.cons_append] at hnodup
      have hpa : p ≠ a := fun hpa =>
        (List.nodup_cons.mp hnodup).1 (hpa ▸ List.mem_append_right _ (List.mem_cons_self ..))
      refine linked_some_cons.mpr ⟨rfl, m, ?_, ih hl (List.nodup_cons.mp hnodup).2⟩
      rw [Function.update_of_ne hpa, hm]

/-- **Pushing an address that is already on the list closes a cycle.**  The new head reaches
itself again, so no finite list is left. -/
theorem not_linked_push_of_mem {p : Option A} {l : List A} {a : A} {n : N}
    (h : Linked heap next p l) (ha : a ∈ l) (hn : next n = p) :
    ¬ ∃ l', Linked (Function.update heap a (some n)) next (some a) l' := by
  rintro ⟨l', hl'⟩
  -- the old list up to the first visit of `a` is still there, and it leads back to `a`
  have hback : ∀ (l : List A) (q : Option A) (m : List A), Linked heap next q l → a ∈ l →
      Linked (Function.update heap a (some n)) next q m →
      ∃ m₁ m₂, m = m₁ ++ m₂ ∧ Linked (Function.update heap a (some n)) next (some a) m₂ := by
    intro l
    induction l with
    | nil => exact fun _ _ _ hmem _ => absurd hmem (List.not_mem_nil)
    | cons b l ih =>
      intro q m hq hmem hm
      cases q with
      | none => exact absurd (linked_none.mp hq) (List.cons_ne_nil b l)
      | some q =>
        obtain ⟨rfl, k, hk, hl⟩ := linked_some_cons.mp hq
        by_cases hqa : q = a
        · exact ⟨[], m, rfl, hqa ▸ hm⟩
        · cases m with
          | nil => exact absurd hm not_linked_some_nil
          | cons c m =>
            obtain ⟨rfl, k', hk', hm'⟩ := linked_some_cons.mp hm
            rw [Function.update_of_ne hqa] at hk'
            have hkk : k = k' := Option.some.inj (hk.symm.trans hk')
            obtain ⟨m₁, m₂, rfl, hm₂⟩ := ih _ m hl
              ((List.mem_cons.mp hmem).resolve_left (Ne.symm hqa)) (hkk ▸ hm')
            exact ⟨q :: m₁, m₂, rfl, hm₂⟩
  cases l' with
  | nil => exact absurd hl' not_linked_some_nil
  | cons b t =>
    obtain ⟨rfl, k, hk, ht⟩ := linked_some_cons.mp hl'
    rw [Function.update_self] at hk
    have hkn : next k = p := by rw [← Option.some.inj hk, hn]
    obtain ⟨m₁, m₂, hm, hm₂⟩ := hback l p t h ha (hkn ▸ ht)
    have heq := congrArg List.length (hl'.unique hm₂)
    rw [hm] at heq
    simp only [List.length_cons, List.length_append] at heq
    omega

end Update

/-! ## Walking the list -/

/-- The loop `for (s = p; s; s = s->next) if (test(s)) return s;` with fuel.  `none` when the fuel
runs out or a link leads to memory that is not allocated, `some none` at the end of the list. -/
def search (heap : A → Option N) (next : N → Option A) (test : A → N → Bool) :
    ℕ → Option A → Option (Option A)
  | _, none => some none
  | 0, some _ => none
  | fuel + 1, some p =>
    match heap p with
    | none => none
    | some n => if test p n then some (some p) else search heap next test fuel (next n)

/-- The test of a walk, read at an address of the list. -/
def passes (heap : A → Option N) (test : A → N → Bool) (a : A) : Bool :=
  (heap a).any (test a)

/-- **On a finite list the walk ends**, and finds the first node that passes. -/
theorem search_eq_find? {test : A → N → Bool} {p : Option A} {l : List A}
    (h : Linked heap next p l) {fuel : ℕ} (hfuel : l.length ≤ fuel) :
    search heap next test fuel p = some (l.find? (passes heap test)) := by
  induction l generalizing p fuel with
  | nil =>
    cases p with
    | none => cases fuel <;> rfl
    | some p => exact absurd h not_linked_some_nil
  | cons a l ih =>
    cases p with
    | none => exact absurd (linked_none.mp h) (List.cons_ne_nil a l)
    | some p =>
      obtain ⟨rfl, n, hn, hl⟩ := linked_some_cons.mp h
      cases fuel with
      | zero => exact absurd hfuel (by simp)
      | succ fuel =>
        have hpass : passes heap test p = test p n := by rw [passes, hn]; rfl
        rw [search, hn]
        simp only []
        rw [List.find?_cons, hpass]
        cases htest : test p n with
        | true => simp
        | false =>
          simp only [Bool.false_eq_true, ↓reduceIte]
          exact ih hl (Nat.le_of_succ_le_succ hfuel)

/-- A walk that comes to the end has walked a finite list. -/
theorem linked_of_search {test : A → N → Bool} {fuel : ℕ} {p : Option A}
    (hend : search heap next test fuel p = some none) : ∃ l, Linked heap next p l := by
  induction fuel generalizing p with
  | zero =>
    cases p with
    | none => exact ⟨[], linked_none.mpr rfl⟩
    | some p => simp [search] at hend
  | succ fuel ih =>
    cases p with
    | none => exact ⟨[], linked_none.mpr rfl⟩
    | some p =>
      rw [search] at hend
      cases hn : heap p with
      | none => simp [hn] at hend
      | some n =>
        simp only [hn] at hend
        split at hend
        · simp at hend
        · obtain ⟨l, hl⟩ := ih hend
          exact ⟨p :: l, linked_some_cons.mpr ⟨rfl, n, hn, hl⟩⟩

/-- A node that a walk stops at passes, finite list or not. -/
theorem search_passes {test : A → N → Bool} {fuel : ℕ} {p : Option A} {a : A}
    (hfound : search heap next test fuel p = some (some a)) :
    ∃ n, heap a = some n ∧ test a n = true := by
  induction fuel generalizing p with
  | zero => cases p <;> simp [search] at hfound
  | succ fuel ih =>
    cases p with
    | none => simp [search] at hfound
    | some p =>
      rw [search] at hfound
      cases hn : heap p with
      | none => simp [hn] at hfound
      | some n =>
        simp only [hn] at hfound
        split at hfound
        next htest =>
          have hpa : p = a := Option.some.inj (Option.some.inj hfound)
          exact ⟨n, hpa ▸ hn, hpa ▸ htest⟩
        next => exact ih hfound

/-- Whatever the fuel, a node that the walk finds is on the list. -/
theorem search_mem {test : A → N → Bool} {p : Option A} {l : List A} {fuel : ℕ} {a : A}
    (h : Linked heap next p l) (hfound : search heap next test fuel p = some (some a)) :
    a ∈ l := by
  induction l generalizing p fuel with
  | nil =>
    cases p with
    | none => cases fuel <;> simp [search] at hfound
    | some p => exact absurd h not_linked_some_nil
  | cons b l ih =>
    cases p with
    | none => exact absurd (linked_none.mp h) (List.cons_ne_nil b l)
    | some p =>
      obtain ⟨rfl, n, hn, hl⟩ := linked_some_cons.mp h
      cases fuel with
      | zero => simp [search] at hfound
      | succ fuel =>
        rw [search, hn] at hfound
        simp only [] at hfound
        by_cases htest : test p n = true
        · rw [if_pos htest] at hfound
          have hpa : p = a := Option.some.inj (Option.some.inj hfound)
          exact hpa ▸ List.mem_cons_self ..
        · rw [if_neg htest] at hfound
          exact List.mem_cons_of_mem _ (ih hl hfound)

/-- A walk to the end finds no node that passes. -/
theorem passes_eq_false_of_search {test : A → N → Bool} {p : Option A} {l : List A} {fuel : ℕ}
    (h : Linked heap next p l) (hend : search heap next test fuel p = some none) :
    ∀ a ∈ l, passes heap test a = false := by
  induction l generalizing p fuel with
  | nil => exact fun a ha => absurd ha List.not_mem_nil
  | cons b l ih =>
    cases p with
    | none => exact absurd (linked_none.mp h) (List.cons_ne_nil b l)
    | some p =>
      obtain ⟨rfl, n, hn, hl⟩ := linked_some_cons.mp h
      cases fuel with
      | zero => simp [search] at hend
      | succ fuel =>
        rw [search, hn] at hend
        simp only [] at hend
        by_cases htest : test p n = true
        · rw [if_pos htest] at hend
          exact absurd hend (by simp)
        · rw [if_neg htest] at hend
          refine List.forall_mem_cons.mpr ⟨?_, ih hl hend⟩
          rw [passes, hn]
          exact eq_false_of_ne_true htest

/-- A node is the first one, or the next one of another. -/
theorem Linked.head_or_next {p : Option A} {l : List A} (h : Linked heap next p l) {a : A}
    (ha : a ∈ l) : p = some a ∨ ∃ b ∈ l, ∃ n, heap b = some n ∧ next n = some a := by
  induction l generalizing p with
  | nil => exact absurd ha List.not_mem_nil
  | cons b l ih =>
    cases p with
    | none => exact absurd (linked_none.mp h) (List.cons_ne_nil b l)
    | some p =>
      obtain ⟨rfl, n, hn, hl⟩ := linked_some_cons.mp h
      rcases List.mem_cons.mp ha with rfl | ha
      · exact .inl rfl
      rcases ih hl ha with hnext | ⟨c, hc, hrest⟩
      · exact .inr ⟨p, List.mem_cons_self, n, hn, hnext⟩
      · exact .inr ⟨c, List.mem_cons_of_mem p hc, hrest⟩

end PointerList
end Afpfs
