import Mathlib.Data.List.Basic

/-!
# Searching strings by position

`strchr()`, `strrchr()` and `strstr()` on lists, with positions for pointers, and the decomposition
of a path into the parts between its separators.

* `strchr_append`, `strrchr_append`: both find the separator next to a part without one.
* `strstr_cases`: `strstr()` finds the first occurrence of a pattern, if there is one.
* `mem_components_iff`: a component is a part with a separator in front that ends the string or is
  followed by another separator.
* `occurrence_beside`: a word without the separator occurs before it or after it.
* `joinPath_components`: a string that starts with the separator is the concatenation of its
  components, each with a separator in front, and `components_joinPath` is the converse.
-/

set_option autoImplicit false

namespace Afpfs
namespace Scan

variable {α : Type*} {c : α}

/-! ## Parts -/

/-- The parts with a separator in front of each. -/
def joinPath (c : α) (parts : List (List α)) : List α := parts.flatMap (c :: ·)

/-- No part contains the separator. -/
def Separated (c : α) (parts : List (List α)) : Prop := ∀ part ∈ parts, c ∉ part

@[simp] theorem joinPath_nil : joinPath c [] = [] := rfl

theorem joinPath_cons (part : List α) (parts : List (List α)) :
    joinPath c (part :: parts) = c :: part ++ joinPath c parts := List.flatMap_cons

theorem joinPath_append (l₁ l₂ : List (List α)) :
    joinPath c (l₁ ++ l₂) = joinPath c l₁ ++ joinPath c l₂ := List.flatMap_append

theorem joinPath_singleton (part : List α) : joinPath c [part] = c :: part := by
  rw [joinPath_cons, joinPath_nil, List.append_nil]

variable [DecidableEq α]

/-! ## Positions -/

/-- The first position of `c` from `i` on. -/
def strchr (s : List α) (i : ℕ) (c : α) : Option ℕ :=
  ((s.drop i).idxOf? c).map (i + ·)

/-- The last position of `c`. -/
def strrchr (s : List α) (c : α) : Option ℕ :=
  (s.reverse.idxOf? c).map (s.length - 1 - ·)

theorem idxOf?_append_cons {l r : List α} (hl : c ∉ l) : (l ++ c :: r).idxOf? c = some l.length := by
  rw [List.idxOf?_eq_some_iff]
  refine ⟨by simp, by simp, fun j hj => ?_⟩
  rw [List.getElem_append_left hj]
  have hmem : l[j] ∈ l := List.getElem_mem hj
  simpa using fun h : l[j] = c => hl (h ▸ hmem)

theorem strchr_append {a b r : List α} (hb : c ∉ b) :
    strchr (a ++ (b ++ c :: r)) a.length c = some (a.length + b.length) := by
  rw [strchr, List.drop_left, idxOf?_append_cons hb, Option.map_some]

theorem strchr_eq_none {a b : List α} (hb : c ∉ b) : strchr (a ++ b) a.length c = none := by
  rw [strchr, List.drop_left, List.idxOf?_eq_none_iff.mpr hb, Option.map_none]

theorem strchr_bounds {s : List α} {i p : ℕ} (h : strchr s i c = some p) : i ≤ p ∧ p < s.length := by
  rw [strchr, Option.map_eq_some_iff] at h
  obtain ⟨k, hk, rfl⟩ := h
  obtain ⟨hlt, -⟩ := List.idxOf?_eq_some_iff.mp hk
  rw [List.length_drop] at hlt
  omega

theorem strrchr_append {a b : List α} (hb : c ∉ b) : strrchr (a ++ c :: b) c = some a.length := by
  have hrev : (a ++ c :: b).reverse = b.reverse ++ c :: a.reverse := by simp
  rw [strrchr, hrev, idxOf?_append_cons (by simpa using hb), Option.map_some, List.length_reverse,
    List.length_append, List.length_cons]
  congr 1
  omega

omit [DecidableEq α] in
theorem exists_last {s : List α} (h : c ∈ s) : ∃ a b, s = a ++ c :: b ∧ c ∉ b := by
  obtain ⟨b, a, hs, hb⟩ := List.eq_append_cons_of_mem (List.mem_reverse.mpr h)
  refine ⟨a.reverse, b.reverse, ?_, fun hmem => hb (List.mem_reverse.mp hmem)⟩
  rw [← List.reverse_reverse s, hs, List.reverse_append, List.reverse_cons, List.append_assoc,
    List.singleton_append]

theorem strrchr_eq_none {s : List α} (h : strrchr s c = none) : c ∉ s := by
  rw [strrchr, Option.map_eq_none_iff, List.idxOf?_eq_none_iff] at h
  rwa [List.mem_reverse] at h

theorem strrchr_of_not_mem {s : List α} (h : c ∉ s) : strrchr s c = none := by
  rw [strrchr, List.idxOf?_eq_none_iff.mpr (by simpa using h), Option.map_none]

/-- There is none behind the last position. -/
theorem not_mem_drop_of_strrchr {s : List α} {p : ℕ} (h : strrchr s c = some p) :
    c ∉ s.drop (p + 1) := by
  by_cases hmem : c ∈ s
  · obtain ⟨a, b, rfl, hb⟩ := exists_last hmem
    rw [strrchr_append hb] at h
    rw [List.append_cons, List.drop_left' (by simpa using Option.some.inj h)]
    exact hb
  · rw [strrchr_of_not_mem hmem] at h
    exact absurd h (by simp)

theorem strrchr_lt {s : List α} {p : ℕ} (h : strrchr s c = some p) : p < s.length := by
  rw [strrchr, Option.map_eq_some_iff] at h
  obtain ⟨k, hk, rfl⟩ := h
  obtain ⟨hlt, -⟩ := List.idxOf?_eq_some_iff.mp hk
  rw [List.length_reverse] at hlt
  omega

/-- The first position of `pat`. -/
def strstr (pat : List α) : List α → Option ℕ
  | [] => if pat.isPrefixOf [] then some 0 else none
  | b :: s => if pat.isPrefixOf (b :: s) then some 0 else (strstr pat s).map (· + 1)

/-- **The first occurrence.**  `strstr` answers the position of an occurrence that no other one
precedes, and nothing if there is no occurrence. -/
theorem strstr_cases (pat s : List α) :
    (strstr pat s = none ∧ ¬ pat <:+: s) ∨
    ∃ a b, s = a ++ (pat ++ b) ∧ strstr pat s = some a.length ∧
      ∀ a' b', s = a' ++ (pat ++ b') → a.length ≤ a'.length := by
  induction s with
  | nil =>
    by_cases hpat : pat = []
    · exact Or.inr ⟨[], [], by simp [hpat], by simp [strstr, hpat], by simp⟩
    · refine Or.inl ⟨?_, fun h => hpat (List.eq_nil_of_infix_nil h)⟩
      cases pat with
      | nil => exact absurd rfl hpat
      | cons p pat => rfl
  | cons x s ih =>
    rw [strstr]
    by_cases hprefix : pat <+: x :: s
    · obtain ⟨b, hb⟩ := hprefix
      refine Or.inr ⟨[], b, hb.symm, if_pos ?_, fun a' b' _ => Nat.zero_le _⟩
      exact List.isPrefixOf_iff_prefix.mpr ⟨b, hb⟩
    · rw [if_neg (fun h => hprefix (List.isPrefixOf_iff_prefix.mp h))]
      rcases ih with ⟨hnone, hno⟩ | ⟨a, b, hs, hsome, hfirst⟩
      · left
        rw [hnone]
        refine ⟨rfl, fun h => ?_⟩
        rcases List.infix_cons_iff.mp h with h | h
        · exact hprefix h
        · exact hno h
      · right
        refine ⟨x :: a, b, by rw [hs]; rfl, by rw [hsome]; rfl, ?_⟩
        intro a' b' h
        cases a' with
        | nil => exact absurd ⟨b', h.symm⟩ hprefix
        | cons y a' =>
          rw [List.cons_append, List.cons.injEq] at h
          exact Nat.succ_le_succ (hfirst a' b' h.2)

theorem strstr_eq_none {pat s : List α} (hs : c ∉ s) : strstr (c :: pat) s = none := by
  rcases strstr_cases (c :: pat) s with ⟨h, -⟩ | ⟨a, b, rfl, -⟩
  · exact h
  · exact absurd (List.mem_append_right _ List.mem_cons_self) hs

/-- A pattern is found behind a part without its first element. -/
theorem strstr_append {pat a b : List α} (ha : c ∉ a) :
    strstr (c :: pat) (a ++ (c :: pat ++ b)) = some a.length := by
  induction a with
  | nil =>
    rw [List.nil_append, List.cons_append, strstr, if_pos]
    · rfl
    · rw [← List.cons_append, List.isPrefixOf_iff_prefix]
      exact List.prefix_append _ _
  | cons d a ih =>
    obtain ⟨hd, ha⟩ := not_or.mp (List.mem_cons.not.mp ha)
    have hprefix : (c :: pat).isPrefixOf (d :: (a ++ (c :: pat ++ b))) = false := by
      rw [List.isPrefixOf_cons_cons, beq_false_of_ne hd, Bool.false_and]
    rw [List.cons_append, strstr, hprefix, if_neg Bool.false_ne_true, ih ha]
    rfl

omit [DecidableEq α] in
/-- A word without `c` that occurs beside a `c` is before it or after it. -/
theorem occurrence_beside {a w b s r : List α} (hw : c ∉ w)
    (h : a ++ (w ++ b) = s ++ c :: r) :
    (∃ t, s = a ++ (w ++ t) ∧ b = t ++ c :: r) ∨ ∃ t, a = s ++ c :: t ∧ r = t ++ (w ++ b) := by
  rcases List.append_eq_append_iff.mp h with ⟨t, hs, hwb⟩ | ⟨t, ha, hr⟩
  · rcases List.append_eq_append_iff.mp hwb with ⟨u, ht, hb⟩ | ⟨u, hwt, hr⟩
    · exact Or.inl ⟨u, by rw [hs, ht], hb⟩
    · cases u with
      | nil =>
        rw [List.append_nil] at hwt
        rw [List.nil_append] at hr
        exact Or.inl ⟨[], by rw [hs, hwt, List.append_nil], hr.symm⟩
      | cons y u =>
        rw [List.cons_append, List.cons.injEq] at hr
        exact absurd (by rw [hwt, hr.1]; simp) hw
  · cases t with
    | nil =>
      rw [List.append_nil] at ha
      rw [List.nil_append] at hr
      cases w with
      | nil => exact Or.inl ⟨[], by rw [ha]; simp, hr.symm⟩
      | cons y w =>
        rw [List.cons_append, List.cons.injEq] at hr
        exact absurd (by rw [hr.1]; simp) hw
    | cons y t =>
      rw [List.cons_append, List.cons.injEq] at hr
      exact Or.inr ⟨t, by rw [ha, hr.1], hr.2⟩

omit [DecidableEq α] in
/-- A word occurs before the last element exactly if something follows an occurrence of it. -/
theorem infix_dropLast_iff {w s : List α} (hw : w ≠ []) :
    w <:+: s.dropLast ↔ ∃ a x b, s = a ++ (w ++ x :: b) := by
  constructor
  · rintro ⟨a, b, h⟩
    have hs : s ≠ [] := by
      rintro rfl
      simp [hw] at h
    refine ⟨a, (b ++ [s.getLast hs]).head (by simp), (b ++ [s.getLast hs]).tail, ?_⟩
    rw [List.cons_head_tail, ← List.append_assoc, ← List.append_assoc, h,
      List.dropLast_append_getLast]
  · rintro ⟨a, x, b, rfl⟩
    rw [List.dropLast_append_of_ne_nil (by simp), List.dropLast_append_of_ne_nil (by simp)]
    exact ⟨a, (x :: b).dropLast, by simp⟩

/-! ## Components -/

/-- The parts of a string between the separators, the one before the first included. -/
def split (c : α) : List α → List (List α)
  | [] => [[]]
  | b :: s =>
    if b = c then [] :: split c s
    else (b :: (split c s).headD []) :: (split c s).tail

/-- The parts of a string after each separator. -/
def components (c : α) (s : List α) : List (List α) := (split c s).tail

theorem split_ne_nil (s : List α) : split c s ≠ [] := by
  cases s with
  | nil => exact List.cons_ne_nil _ _
  | cons b s =>
    rw [split]
    split <;> exact List.cons_ne_nil _ _

/-- A part without the separator is split off as it is. -/
theorem split_append {part : List α} (hpart : c ∉ part) (s : List α) :
    split c (part ++ c :: s) = part :: split c s := by
  induction part with
  | nil => rw [List.nil_append, split, if_pos rfl]
  | cons b part ih =>
    obtain ⟨hb, hpart⟩ := not_or.mp (mt List.mem_cons.mpr hpart)
    rw [List.cons_append, split, if_neg (Ne.symm hb), ih hpart]
    rfl

theorem split_of_not_mem {part : List α} (hpart : c ∉ part) : split c part = [part] := by
  induction part with
  | nil => rfl
  | cons b part ih =>
    obtain ⟨hb, hpart⟩ := not_or.mp (mt List.mem_cons.mpr hpart)
    rw [split, if_neg (Ne.symm hb), ih hpart]
    rfl

theorem split_append_joinPath {part : List α} (hpart : c ∉ part) {parts : List (List α)}
    (hparts : Separated c parts) : split c (part ++ joinPath c parts) = part :: parts := by
  induction parts generalizing part with
  | nil => rw [joinPath_nil, List.append_nil, split_of_not_mem hpart]
  | cons next parts ih =>
    obtain ⟨hnext, hparts⟩ := List.forall_mem_cons.mp hparts
    rw [joinPath_cons, List.cons_append, split_append hpart, ih hnext hparts]

/-- **Joining and splitting.** -/
theorem components_joinPath {parts : List (List α)} (hparts : Separated c parts) :
    components c (joinPath c parts) = parts := by
  have hsplit := @split_append_joinPath _ c _ [] List.not_mem_nil parts hparts
  rw [List.nil_append] at hsplit
  rw [components, hsplit, List.tail_cons]

/-- The parts of a string contain no separator, and joined they are the string. -/
theorem separated_split (s : List α) :
    Separated c (split c s) ∧ joinPath c (split c s) = c :: s := by
  induction s with
  | nil => exact ⟨by simp [Separated, split], rfl⟩
  | cons b s ih =>
    obtain ⟨hsep, hjoin⟩ := ih
    rw [split]
    by_cases hb : b = c
    · rw [if_pos hb]
      refine ⟨List.forall_mem_cons.mpr ⟨List.not_mem_nil, hsep⟩, ?_⟩
      rw [joinPath_cons, hjoin, hb]
      rfl
    · rw [if_neg hb]
      obtain ⟨first, rest, hfirst⟩ := List.exists_cons_of_ne_nil (@split_ne_nil _ c _ s)
      rw [hfirst] at hsep hjoin ⊢
      obtain ⟨hhead, htail⟩ := List.forall_mem_cons.mp hsep
      rw [List.headD_cons, List.tail_cons]
      refine ⟨List.forall_mem_cons.mpr ⟨?_, htail⟩, ?_⟩
      · exact fun h => (List.mem_cons.mp h).elim (fun h => hb h.symm) hhead
      · rw [joinPath_cons, List.cons_append, List.cons.injEq] at hjoin
        rw [joinPath_cons, List.cons_append, List.cons_append, hjoin.2]

/-- The parts of a string, one by one. -/
theorem split_append_cons (s t : List α) : split c (s ++ c :: t) = split c s ++ split c t := by
  induction s with
  | nil => simp [split]
  | cons b s ih =>
    rw [List.cons_append, split, split, ih]
    by_cases hb : b = c
    · rw [if_pos hb, if_pos hb]; rfl
    · rw [if_neg hb, if_neg hb]
      obtain ⟨first, rest, hfirst⟩ := List.exists_cons_of_ne_nil (@split_ne_nil _ c _ s)
      rw [hfirst]
      rfl

/-- **Membership.**  The components are the parts with a separator in front that end the string or
are followed by a separator. -/
theorem mem_components_iff {w s : List α} (hw : c ∉ w) :
    w ∈ components c s ↔ ∃ a b, s = a ++ c :: (w ++ b) ∧ (b = [] ∨ b.head? = some c) := by
  constructor
  · intro h
    obtain ⟨first, rest, hsplit⟩ := List.exists_cons_of_ne_nil (@split_ne_nil _ c _ s)
    rw [components, hsplit, List.tail_cons] at h
    obtain ⟨front, back, rfl⟩ := List.append_of_mem h
    have hjoin := (@separated_split _ c _ s).2
    rw [hsplit, joinPath_cons, List.cons_append, List.cons.injEq, joinPath_append,
      joinPath_cons] at hjoin
    refine ⟨first ++ joinPath c front, joinPath c back, by rw [← hjoin.2]; simp, ?_⟩
    cases back with
    | nil => exact Or.inl rfl
    | cons next back => exact Or.inr rfl
  · rintro ⟨a, b, rfl, hb⟩
    obtain ⟨first, rest, hsplit⟩ := List.exists_cons_of_ne_nil (@split_ne_nil _ c _ a)
    rw [components, split_append_cons, hsplit, List.cons_append, List.tail_cons]
    refine List.mem_append_right rest ?_
    rcases hb with rfl | hb
    · rw [List.append_nil, split_of_not_mem hw]
      exact List.mem_singleton_self w
    · obtain ⟨b, rfl⟩ : ∃ b', b = c :: b' := by
        cases b with
        | nil => exact absurd hb (by simp)
        | cons y b => exact ⟨b, by rw [Option.some.inj hb]⟩
      rw [split_append hw]
      exact List.mem_cons_self

/-- **Splitting and joining.** -/
theorem joinPath_components {s : List α} (hs : s.head? = some c) :
    Separated c (components c s) ∧ joinPath c (components c s) = s ∧ components c s ≠ [] := by
  cases s with
  | nil => exact absurd hs (by simp)
  | cons b s =>
    rw [List.head?_cons, Option.some.injEq] at hs
    subst hs
    have hsplit : components b (b :: s) = split b s := by
      rw [components, split, if_pos rfl, List.tail_cons]
    rw [hsplit]
    exact ⟨(separated_split s).1, (separated_split s).2, split_ne_nil s⟩

end Scan
end Afpfs
