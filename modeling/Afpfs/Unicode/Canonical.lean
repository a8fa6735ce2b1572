import Afpfs.Lib.Fold
import Afpfs.Unicode.Codec
import Afpfs.Unicode.Precompose
import Mathlib.Data.List.Nodup

/-!
# What a character decomposes to

The composition table read the other way: `expandUnit` replaces a character by its pair, again and
again.  That ends because no composition is part of itself (`rank_pairOf`), and it undoes what
`UCS2precompose()` does because no character has two pairs (`pairOf_composition`).

Facts about all entries of the table are checked on sets of characters that are the bits of a
number.  Those the fold of `convert_utf8dec_to_utf8pre()` rests on:

* `closed_composition`: a composition is never the second character of another.
* `shallow_composition`: only a diaeresis is a second character and also a first one, and what it
  composes to is not a first character.
* `length_encodeUnit_composition`: a composition takes no more bytes than its parts.
-/

set_option autoImplicit false

namespace Afpfs
namespace Unicode

/-! ## Sets of small numbers -/

/-- The number whose bits are the members of the list. -/
def bits (l : List ℕ) : ℕ := l.foldr (fun a s => s ||| 1 <<< a) 0

theorem testBit_bits (l : List ℕ) (a : ℕ) : (bits l).testBit a = true ↔ a ∈ l := by
  induction l with
  | nil => simp [bits]
  | cons b l ih =>
    rw [bits, List.foldr_cons, ← bits, Nat.testBit_or, Bool.or_eq_true, ih, Nat.one_shiftLeft,
      Nat.testBit_two_pow, decide_eq_true_eq, List.mem_cons, or_comm, @eq_comm _ b a]

/-- No member of the list is in the set, or comes twice. -/
def distinct (seen : ℕ) : List ℕ → Bool
  | [] => true
  | a :: l => !seen.testBit a && distinct (seen ||| 1 <<< a) l

theorem nodup_of_distinct {seen : ℕ} {l : List ℕ} (h : distinct seen l = true) :
    l.Nodup ∧ ∀ a ∈ l, seen.testBit a = false := by
  induction l generalizing seen with
  | nil => exact ⟨List.nodup_nil, fun _ h => absurd h List.not_mem_nil⟩
  | cons b l ih =>
    rw [distinct, Bool.and_eq_true, Bool.not_eq_true'] at h
    obtain ⟨hnodup, hseen⟩ := ih h.2
    have hrest : ∀ a ∈ l, seen.testBit a = false ∧ a ≠ b := by
      intro a ha
      have hor := hseen a ha
      rw [Nat.testBit_or, Bool.or_eq_false_iff, Nat.one_shiftLeft, Nat.testBit_two_pow,
        decide_eq_false_iff_not] at hor
      exact ⟨hor.1, fun heq => hor.2 heq.symm⟩
    refine ⟨List.nodup_cons.mpr ⟨fun hmem => (hrest b hmem).2 rfl, hnodup⟩, ?_⟩
    exact List.forall_mem_cons.mpr ⟨h.1, fun a ha => (hrest a ha).1⟩

/-! ## The table -/

/-- The entries other than the dummy entry 0. -/
def entries : List Entry := table.tail

/-- The first character of the pair of an entry. -/
def Entry.first (e : Entry) : ℕ := e.pattern / 65536

/-- The second character. -/
def Entry.second (e : Entry) : ℕ := e.pattern % 65536

/-- The compositions with a first character in the set. -/
def composedOf (s : ℕ) : ℕ :=
  bits ((entries.filter fun e => s.testBit e.first).map Entry.precomposed)

/-- The compositions. -/
def composed : ℕ := bits (entries.map Entry.precomposed)

/-- How often the first character of a composition is a composition itself, and so on. -/
def rank (u : ℕ) : ℕ :=
  (composed.testBit u).toNat + ((composedOf composed).testBit u).toNat +
    ((composedOf (composedOf composed)).testBit u).toNat

/-- The first characters. -/
def firsts : ℕ := bits (entries.map Entry.first)

/-- The second characters. -/
def seconds : ℕ := bits (entries.map Entry.second)

/-- What is looked up in the table: the ranks of an entry, that no second character is a
composition, that a first character that is also a second one composes to no first one, and the
bounds of the numbers. -/
def Entry.Checked (e : Entry) : Prop :=
  (rank e.first < rank e.precomposed ∧ rank e.second < rank e.precomposed) ∧
  composed.testBit e.second = false ∧
  (seconds.testBit e.first = true → firsts.testBit e.precomposed = false) ∧
  (e.precomposed < 65536 ∧ e.pattern < 4294967296 ∧ e.precomposed ≠ 0 ∧ e.first ≠ 0 ∧
    0x80 ≤ e.second)

instance (e : Entry) : Decidable e.Checked := inferInstanceAs (Decidable (_ ∧ _ ∧ _ ∧ _))

set_option maxRecDepth 4000

theorem entries_checked : ∀ e ∈ entries, e.Checked := by decide +kernel

theorem nodup_precomposed : (entries.map Entry.precomposed).Nodup := by
  have hdistinct : distinct 0 (entries.map Entry.precomposed) = true := by decide +kernel
  exact (nodup_of_distinct hdistinct).1

theorem rank_entry (e : Entry) (h : e ∈ entries) : rank e.first < rank e.precomposed ∧
    rank e.second < rank e.precomposed :=
  (entries_checked e h).1

theorem second_notMem_composed (e : Entry) (h : e ∈ entries) :
    composed.testBit e.second = false :=
  (entries_checked e h).2.1

theorem first_of_second (e : Entry) (h : e ∈ entries) (hfirst : seconds.testBit e.first = true) :
    firsts.testBit e.precomposed = false :=
  (entries_checked e h).2.2.1 hfirst

theorem entry_bounds (e : Entry) (h : e ∈ entries) :
    e.precomposed < 65536 ∧ e.pattern < 4294967296 ∧ e.precomposed ≠ 0 ∧ e.first ≠ 0 ∧
      0x80 ≤ e.second :=
  (entries_checked e h).2.2.2

/-! ## Composing -/

/-- What two characters compose to. -/
def composition (first second : UInt16) : Option UInt16 :=
  (ucs2precompose first second).bind fun comp =>
    if comp ≠ -1 then some (.ofInt comp) else none

theorem needle_div (first second : UInt16) : needle first second / 65536 = first.toNat := by
  have hlt : second.toNat < 2 ^ 16 := second.toNat_lt
  rw [needle, ← Nat.shiftLeft_add_eq_or_of_lt hlt, Nat.shiftLeft_eq]
  omega

theorem ucs2precompose_zero : ucs2precompose 0 0 = some (-1) := by decide +kernel

/-- A composition is that of an entry with the two characters. -/
theorem exists_entry {first second comp : UInt16} (h : composition first second = some comp) :
    ∃ e ∈ entries, e.first = first.toNat ∧ e.second = second.toNat ∧
      e.precomposed = comp.toNat := by
  rcases ucs2precompose_cases first second with hr | ⟨e, he, hpattern, hr⟩
  · rw [composition, hr] at h
    exact absurd h.symm (Option.some_ne_none comp)
  have hne : (e.precomposed : ℤ) ≠ -1 := by omega
  rw [composition, hr, Option.bind_some, if_pos hne, Option.some.injEq] at h
  have hfirst : e.first = first.toNat := by rw [Entry.first, hpattern, needle_div]
  have hsecond : e.second = second.toNat := by rw [Entry.second, hpattern, needle_mod]
  have hmem : e ∈ entries := by
    have hcons : table = ⟨0, 0⟩ :: entries := rfl
    rw [hcons] at he
    refine (List.mem_cons.mp he).resolve_left fun hdummy => ?_
    -- the dummy entry is never found
    have hzero : first = 0 ∧ second = 0 := by
      rw [hdummy] at hfirst hsecond
      exact ⟨UInt16.toNat_inj.mp hfirst.symm, UInt16.toNat_inj.mp hsecond.symm⟩
    rw [hzero.1, hzero.2, ucs2precompose_zero, Option.some.injEq] at hr
    exact hne hr.symm
  refine ⟨e, hmem, hfirst, hsecond, ?_⟩
  have hlt := (entry_bounds e hmem).1
  have hcast : ((e.precomposed : ℤ) % 2 ^ 16).toNat = e.precomposed := by omega
  rw [← h, UInt16.ofInt, hcast, UInt16.toNat_ofNat_of_lt' hlt]

/-! ## Decomposing -/

/-- The pair of the table that composes to the character. -/
def pairOf (u : UInt16) : Option (UInt16 × UInt16) :=
  (entries.find? fun e => e.precomposed = u.toNat).map fun e => (.ofNat e.first, .ofNat e.second)

theorem mem_of_pairOf {u a b : UInt16} (h : pairOf u = some (a, b)) :
    ∃ e ∈ entries, e.precomposed = u.toNat ∧ e.first = a.toNat ∧ e.second = b.toNat := by
  obtain ⟨e, hfind, hpair⟩ := Option.map_eq_some_iff.mp h
  obtain ⟨rfl, rfl⟩ := Prod.mk.inj hpair
  have hmem := List.mem_of_find?_eq_some hfind
  have hfirst : e.first < 65536 := by
    have hlt := (entry_bounds e hmem).2.1
    rw [Entry.first]
    omega
  have hsecond : e.second < 65536 := Nat.mod_lt _ (by decide)
  have hcomp := List.find?_some hfind
  refine ⟨e, hmem, of_decide_eq_true hcomp, ?_, ?_⟩
  · exact (UInt16.toNat_ofNat_of_lt' hfirst).symm
  · exact (UInt16.toNat_ofNat_of_lt' hsecond).symm

/-- **No composition is part of itself.** -/
theorem rank_pairOf {u a b : UInt16} (h : pairOf u = some (a, b)) :
    rank a.toNat < rank u.toNat ∧ rank b.toNat < rank u.toNat := by
  obtain ⟨e, he, hu, ha, hb⟩ := mem_of_pairOf h
  rw [← hu, ← ha, ← hb]
  exact rank_entry e he

/-- A character is replaced by its pair, and that again. -/
def expandUnit (u : UInt16) : List UInt16 :=
  match _h : pairOf u with
  | none => [u]
  | some (a, b) => expandUnit a ++ expandUnit b
  termination_by rank u.toNat
  decreasing_by
    · exact (rank_pairOf _h).1
    · exact (rank_pairOf _h).2

/-- The decomposition of a text. -/
def expandUnits (us : List UInt16) : List UInt16 := us.flatMap expandUnit

theorem expandUnit_of_pairOf {u a b : UInt16} (h : pairOf u = some (a, b)) :
    expandUnit u = expandUnit a ++ expandUnit b := by
  rw [expandUnit]
  split
  · rename_i hnone
    exact absurd (hnone.symm.trans h) (Option.some_ne_none _).symm
  · rename_i a' b' hsome
    obtain ⟨rfl, rfl⟩ := Prod.mk.inj (Option.some.inj (hsome.symm.trans h))
    rfl

/-- **The pair of a composition is what was composed.** -/
theorem pairOf_composition {a b c : UInt16} (h : composition a b = some c) :
    pairOf c = some (a, b) := by
  obtain ⟨e, he, hfirst, hsecond, hcomp⟩ := exists_entry h
  have hsome : (entries.find? fun e => e.precomposed = c.toNat).isSome :=
    List.find?_isSome.mpr ⟨e, he, decide_eq_true hcomp⟩
  obtain ⟨e', hfind⟩ := Option.isSome_iff_exists.mp hsome
  have hfound := List.find?_some hfind
  have hcomp' : e'.precomposed = c.toNat := of_decide_eq_true hfound
  obtain rfl : e' = e := List.inj_on_of_nodup_map nodup_precomposed
    (List.mem_of_find?_eq_some hfind) he (hcomp'.trans hcomp.symm)
  rw [pairOf, hfind, Option.map_some, hfirst, hsecond, UInt16.ofNat_toNat, UInt16.ofNat_toNat]

theorem expandUnit_composition {a b c : UInt16} (h : composition a b = some c) :
    expandUnit c = expandUnit a ++ expandUnit b :=
  expandUnit_of_pairOf (pairOf_composition h)

/-! ## What composes -/

theorem closed_composition : Fold.Closed composition := by
  intro a b c h d
  obtain ⟨e, he, -, -, hcomp⟩ := exists_entry h
  have hmem : c.toNat ∈ entries.map Entry.precomposed := List.mem_map.mpr ⟨e, he, hcomp⟩
  refine Option.eq_none_iff_forall_ne_some.mpr fun x hx => ?_
  obtain ⟨e', he', -, hsecond, -⟩ := exists_entry hx
  have hnot := second_notMem_composed e' he'
  rw [hsecond, composed] at hnot
  exact absurd ((testBit_bits _ _).mpr hmem) (Bool.eq_false_iff.mp hnot)

theorem shallow_composition : Fold.Shallow composition := by
  intro a b c d e hab hbc f
  obtain ⟨e₁, he₁, -, hb₁, -⟩ := exists_entry hab
  obtain ⟨e₂, he₂, hb₂, -, he⟩ := exists_entry hbc
  have hsecond : seconds.testBit e₂.first = true :=
    (testBit_bits _ _).mpr (List.mem_map.mpr ⟨e₁, he₁, hb₁.trans hb₂.symm⟩)
  refine Option.eq_none_iff_forall_ne_some.mpr fun x hx => ?_
  obtain ⟨e₃, he₃, hfirst, -, -⟩ := exists_entry hx
  have hnot := first_of_second e₂ he₂ hsecond
  rw [he, firsts] at hnot
  exact absurd ((testBit_bits _ _).mpr (List.mem_map.mpr ⟨e₃, he₃, hfirst⟩))
    (Bool.eq_false_iff.mp hnot)

/-- A composition is not the terminator. -/
theorem composition_ne_zero {a b c : UInt16} (h : composition a b = some c) : c ≠ 0 := by
  rintro rfl
  obtain ⟨e, he, -, -, hcomp⟩ := exists_entry h
  exact (entry_bounds e he).2.2.1 hcomp

theorem length_encodeUnit (u : UInt16) :
    (encodeUnit u).length = if u.toNat < 0x80 then 1 else if u.toNat < 0x800 then 2 else 3 := by
  rw [encodeUnit]
  split_ifs <;> rfl

/-- **A composition takes no more bytes than its parts.** -/
theorem length_encodeUnit_composition {a b c : UInt16} (h : composition a b = some c) :
    (encodeUnit c).length ≤ (encodeUnit a).length + (encodeUnit b).length := by
  obtain ⟨e, he, -, hsecond, -⟩ := exists_entry h
  have hb : 0x80 ≤ b.toNat := hsecond ▸ (entry_bounds e he).2.2.2.2
  rw [length_encodeUnit, length_encodeUnit, length_encodeUnit, if_neg (Nat.not_lt.mpr hb)]
  split_ifs <;> omega

end Unicode
end Afpfs
