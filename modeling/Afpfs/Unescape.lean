import Afpfs.Url

/-!
# Escapes in user names and passwords

`escape_string()` of `lib/afp_url.c` leaves every second one of the delimiters of a string out,
wherever they stand: what is between two of them does not clear the flag of the loop.  And it puts
the result together in a buffer of 1024 bytes.

* `undoubled`: each pair of adjacent delimiters, from left to right, replaced by one.
* `unpaired`: how many delimiters are left without a partner when they are paired so.
* `escapeString_eq_undoubled_iff`: a second delimiter without a partner is what is lost.
* `escapeTo_iff`: the strings that are unescaped as they should be.
-/

set_option autoImplicit false

namespace Afpfs
namespace Url

variable {c d : UInt8} {s : CString}

/-- The size of `tmpstring`. -/
def tmpstringSize : ℕ := 1024

/-- `escape_string()`: the string that is copied back.  `none` when `tmpstring` is too small for it
and its terminator. -/
def escapeTo (c : UInt8) (s : CString) : Option CString :=
  let tmpstring := escapeString c false s
  if tmpstring.length < tmpstringSize then some tmpstring else none

/-- Each pair of adjacent delimiters, from left to right, is replaced by one. -/
def undoubled (c : UInt8) : CString → CString
  | [] => []
  | [d] => [d]
  | d :: d' :: s =>
    if d = c ∧ d' = c then c :: undoubled c s else d :: undoubled c (d' :: s)

/-- How many delimiters have no partner when adjacent ones are paired from left to right: one for
each maximal run of an odd length. -/
def unpaired (c : UInt8) : CString → ℕ
  | [] => 0
  | [d] => if d = c then 1 else 0
  | d :: d' :: s =>
    if d = c ∧ d' = c then unpaired c s else (if d = c then 1 else 0) + unpaired c (d' :: s)

/-! ## Pairs -/

theorem undoubled_pair : undoubled c (c :: c :: s) = c :: undoubled c s := if_pos ⟨rfl, rfl⟩

theorem unpaired_pair : unpaired c (c :: c :: s) = unpaired c s := if_pos ⟨rfl, rfl⟩

theorem undoubled_cons_of_ne (hd : d ≠ c) : undoubled c (d :: s) = d :: undoubled c s := by
  cases s with
  | nil => rfl
  | cons d' s => exact if_neg fun h => hd h.1

theorem unpaired_cons_of_ne (hd : d ≠ c) : unpaired c (d :: s) = unpaired c s := by
  cases s with
  | nil => exact if_neg hd
  | cons d' s => rw [unpaired, if_neg fun h => hd h.1, if_neg hd, Nat.zero_add]

/-- A delimiter without a partner stays. -/
theorem undoubled_single (hs : s.head? ≠ some c) : undoubled c (c :: s) = c :: undoubled c s := by
  cases s with
  | nil => rfl
  | cons d' s => exact if_neg fun h => hs (congrArg some h.2)

theorem unpaired_single (hs : s.head? ≠ some c) : unpaired c (c :: s) = unpaired c s + 1 := by
  cases s with
  | nil => exact if_pos rfl
  | cons d' s =>
    rw [unpaired, if_neg fun h => hs (congrArg some h.2), if_pos rfl, Nat.add_comm]

/-- Strings are taken apart as they are paired. -/
theorem pairing_induction {P : CString → Prop} (hnil : P [])
    (hother : ∀ d s, d ≠ c → P s → P (d :: s))
    (hpair : ∀ s, P s → P (c :: c :: s))
    (hsingle : ∀ s, s.head? ≠ some c → P s → P (c :: s)) (s : CString) : P s := by
  induction s using undoubled.induct c with
  | case1 => exact hnil
  | case2 d =>
    by_cases hd : d = c
    · rw [hd]
      exact hsingle [] (by simp) hnil
    · exact hother d [] hd hnil
  | case3 d d' s h ih =>
    rw [h.1, h.2]
    exact hpair s ih
  | case4 d d' s h ih =>
    by_cases hd : d = c
    · rw [hd]
      exact hsingle _ (fun hd' => h ⟨hd, Option.some.inj hd'⟩) ih
    · exact hother d _ hd ih

/-- Strings in which no two delimiters are adjacent have no pairs. -/
theorem undoubled_of_apart (h : ¬ [c, c] <:+: s) :
    undoubled c s = s ∧ unpaired c s = s.count c := by
  induction s using pairing_induction (c := c) with
  | hnil => exact ⟨rfl, rfl⟩
  | hother d s hd ih =>
    obtain ⟨hs, hcount⟩ := ih fun hs => h (List.infix_cons hs)
    rw [undoubled_cons_of_ne hd, unpaired_cons_of_ne hd, hs, hcount, List.count_cons_of_ne hd]
    exact ⟨rfl, rfl⟩
  | hpair s ih => exact absurd ⟨[], s, rfl⟩ h
  | hsingle s hhead ih =>
    obtain ⟨hs, hcount⟩ := ih fun hs => h (List.infix_cons hs)
    rw [undoubled_single hhead, unpaired_single hhead, hs, hcount, List.count_cons_self]
    exact ⟨rfl, rfl⟩

/-- Doubling leaves nothing but pairs. -/
theorem undoubled_double : undoubled c (double c s) = s := by
  induction s with
  | nil => rfl
  | cons d s ih =>
    by_cases hd : d = c
    · rw [hd, double_cons_self, undoubled_pair, ih]
    · rw [double_cons_of_ne hd, undoubled_cons_of_ne hd, ih]

/-! ## The loop -/

theorem escapeString_cons_of_ne (hd : d ≠ c) (inescape : Bool) :
    escapeString c inescape (d :: s) = d :: escapeString c inescape s := by
  simp [escapeString, hd]

theorem escapeString_false_self : escapeString c false (c :: s) = c :: escapeString c true s := by
  simp [escapeString]

theorem escapeString_true_self : escapeString c true (c :: s) = escapeString c false s := by
  simp [escapeString]

/-- The loop leaves every second delimiter out, wherever it stands. -/
theorem length_escapeString :
    (escapeString c false s).length + s.count c / 2 = s.length ∧
    (escapeString c true s).length + (s.count c + 1) / 2 = s.length := by
  induction s with
  | nil => simp [escapeString]
  | cons d s ih =>
    obtain ⟨hfalse, htrue⟩ := ih
    by_cases hd : d = c
    · rw [hd, escapeString_false_self, escapeString_true_self, List.count_cons_self,
        List.length_cons, List.length_cons]
      omega
    · rw [escapeString_cons_of_ne hd, escapeString_cons_of_ne hd, List.count_cons_of_ne hd,
        List.length_cons, List.length_cons, List.length_cons]
      omega

/-- It never leaves more delimiters than it should. -/
theorem count_escapeString_le (inescape : Bool) :
    (escapeString c inescape s).count c ≤ (undoubled c s).count c := by
  induction s using pairing_induction (c := c) generalizing inescape with
  | hnil => exact le_refl _
  | hother d s hd ih =>
    rw [escapeString_cons_of_ne hd, undoubled_cons_of_ne hd, List.count_cons_of_ne hd,
      List.count_cons_of_ne hd]
    exact ih inescape
  | hpair s ih =>
    have hkeep (flag : Bool) := Nat.add_le_add_right (ih flag) 1
    rw [undoubled_pair, List.count_cons_self]
    cases inescape with
    | false =>
      rw [escapeString_false_self, escapeString_true_self, List.count_cons_self]
      exact hkeep false
    | true =>
      rw [escapeString_true_self, escapeString_false_self, List.count_cons_self]
      exact hkeep true
  | hsingle s hhead ih =>
    rw [undoubled_single hhead, List.count_cons_self]
    cases inescape with
    | false =>
      rw [escapeString_false_self, List.count_cons_self]
      exact Nat.add_le_add_right (ih true) 1
    | true =>
      rw [escapeString_true_self]
      exact Nat.le_succ_of_le (ih false)

/-- **A delimiter without a partner is lost** when there is one before it: the first leaves the flag
set. -/
theorem escapeString_eq_undoubled_iff :
    (escapeString c false s = undoubled c s ↔ unpaired c s ≤ 1) ∧
    (escapeString c true s = undoubled c s ↔ unpaired c s = 0) := by
  induction s using pairing_induction (c := c) with
  | hnil => exact ⟨iff_of_true rfl (Nat.zero_le 1), iff_of_true rfl rfl⟩
  | hother d s hd ih =>
    rw [escapeString_cons_of_ne hd, escapeString_cons_of_ne hd, undoubled_cons_of_ne hd,
      unpaired_cons_of_ne hd, List.cons_inj_right, List.cons_inj_right]
    exact ih
  | hpair s ih =>
    rw [escapeString_false_self, escapeString_true_self, escapeString_true_self,
      escapeString_false_self, undoubled_pair, unpaired_pair, List.cons_inj_right,
      List.cons_inj_right]
    exact ih
  | hsingle s hhead ih =>
    rw [escapeString_false_self, escapeString_true_self, undoubled_single hhead,
      unpaired_single hhead, List.cons_inj_right, ih.2]
    refine ⟨by omega, iff_of_false (fun heq => ?_) (Nat.succ_ne_zero _)⟩
    have hle := @count_escapeString_le c s false
    rw [heq, List.count_cons_self] at hle
    omega

/-! ## What is copied back -/

theorem escapeTo_eq_some_iff {r : CString} :
    escapeTo c s = some r ↔ escapeString c false s = r ∧ r.length < tmpstringSize := by
  rw [escapeTo]
  constructor
  · intro h
    obtain ⟨hlt, hr⟩ := Option.ite_none_right_eq_some.mp h
    rw [← Option.some.inj hr]
    exact ⟨rfl, hlt⟩
  · rintro ⟨rfl, hlt⟩
    exact if_pos hlt

/-- **The strings that are unescaped as they should be**: at most one delimiter has no partner, and
the result fits in the buffer.  So doubling is undone if the string fits, but of the strings without
adjacent delimiters only those with at most one are left as they are. -/
theorem escapeTo_iff (c : UInt8) (s : CString) :
    (escapeTo c s = some (undoubled c s) ↔
      unpaired c s ≤ 1 ∧ s.length < tmpstringSize + s.count c / 2) ∧
    (escapeTo c (double c s) = some s ↔ s.length < tmpstringSize) ∧
    (¬ [c, c] <:+: s → (escapeTo c s = some s ↔ s.count c ≤ 1 ∧ s.length < tmpstringSize)) := by
  have hall : escapeTo c s = some (undoubled c s) ↔
      unpaired c s ≤ 1 ∧ s.length < tmpstringSize + s.count c / 2 := by
    rw [escapeTo_eq_some_iff, escapeString_eq_undoubled_iff.1]
    refine and_congr_right fun hone => ?_
    have hlen := (@length_escapeString c s).1
    rw [escapeString_eq_undoubled_iff.1.mpr hone] at hlen
    omega
  refine ⟨hall, ?_, fun hapart => ?_⟩
  · rw [escapeTo_eq_some_iff, and_iff_right escapeString_double]
  · obtain ⟨hself, hcount⟩ := undoubled_of_apart hapart
    rw [hself, hcount] at hall
    rw [hall]
    exact and_congr_right fun hone => by omega

/-- "a:b:c" is read as "a:bc". -/
theorem escapeTo_of_two :
    escapeTo colon (ascii ['a', ':', 'b', ':', 'c']) = some (ascii ['a', ':', 'b', 'c']) ∧
    undoubled colon (ascii ['a', ':', 'b', ':', 'c']) = ascii ['a', ':', 'b', ':', 'c'] ∧
    ¬ [colon, colon] <:+: ascii ['a', ':', 'b', ':', 'c'] := by
  decide

end Url
end Afpfs
