import Afpfs.Url

/-!
# Paths on the command line

`escape_paths()` of `cmdline/cmdline_afp.c` takes the argument of a command apart into one or two
paths.  A quotation mark sets `inquote`, which nothing clears, and is never a part of a path.  A
backslash sets `inescape`, which only another backslash clears, so an escaped space leaves it set.

* `foldl_double`: doubled backslashes are read as they should be, in each state of the flags.
* `two_outputs_iff`, `one_output_iff`: which ways to write which names are read back.
* `escapePaths_iff`: both together.
-/

set_option autoImplicit false

namespace Afpfs
namespace Cmdline

open Url

/-- `'\\'` and `'"'`. -/
def backslash : UInt8 := 92
def quote : UInt8 := 34

/-! ## The function -/

/-- The variables of `escape_paths()`, with what it has written to its outputs. -/
structure Scan where
  inquote : Bool
  inescape : Bool
  donewith1 : Bool
  /-- The loop has been left with `goto out`. -/
  out : Bool
  outgoing1 : CString
  outgoing2 : CString
  deriving DecidableEq

/-- The variables at the start. -/
def Scan.start : Scan := ⟨false, false, false, false, [], []⟩

/-- `*writeto=*p; writeto++;` -/
def Scan.add (s : Scan) (c : UInt8) : Scan :=
  if s.donewith1 then { s with outgoing2 := s.outgoing2 ++ [c] }
  else { s with outgoing1 := s.outgoing1 ++ [c] }

/-- One round of the loop.  `two` says whether `outgoing2` is not `NULL`.  The branch that clears
`inquote` comes after one that takes all quotation marks. -/
def step (two : Bool) (s : Scan) (c : UInt8) : Scan :=
  if s.out then s
  else if c = backslash then
    if s.inescape then { s with inescape := false }.add c else { s with inescape := true }
  else if c = quote then { s with inquote := true }
  else if s.inquote then
    if c = quote then { s with inquote := false }.add c else s.add c
  else if c = space then
    if s.inescape then s.add c
    else if s.donewith1 || !two then { s with out := true }
    else { s with donewith1 := true }
  else s.add c

/-- `escape_paths()`: the outputs when it succeeds.  The second is empty when there is none. -/
def escapePaths (two : Bool) (incoming : CString) : Option (CString × CString) :=
  if incoming = [] then none
  else
    let s := incoming.foldl (step two) .start
    if two && !s.donewith1 then none else some (s.outgoing1, s.outgoing2)

/-! ## Writing names -/

/-- The two ways to write a name. -/
inductive Style where
  | quoted
  | escaped
  deriving DecidableEq

/-- A backslash before each character that needs one. -/
def guarded (special : List UInt8) (name : CString) : CString :=
  name.flatMap fun c => if c ∈ special then [backslash, c] else [c]

/-- The name as it is written. -/
def Style.write : Style → CString → CString
  | .quoted, name => quote :: guarded [quote, backslash] name ++ [quote]
  | .escaped, name => guarded [space, quote, backslash] name

/-- The ways to write a name that is read back when something follows. -/
def FirstFits (style : Style) (name : CString) : Prop :=
  style = .escaped ∧ space ∉ name ∧ quote ∉ name

/-- The ways to write a name that is read back at the end. -/
def LastFits (style : Style) (name : CString) : Prop :=
  quote ∉ name ∧ (style = .quoted ∨ name.count space ≤ 1)

instance (style : Style) (name : CString) : Decidable (FirstFits style name) :=
  inferInstanceAs (Decidable (_ ∧ _ ∧ _))

instance (style : Style) (name : CString) : Decidable (LastFits style name) :=
  inferInstanceAs (Decidable (_ ∧ (_ ∨ _)))

section Guarded

variable {special name q : CString} {c : UInt8}

theorem guarded_cons_of_mem (h : c ∈ special) :
    guarded special (c :: name) = backslash :: c :: guarded special name := by
  rw [guarded, List.flatMap_cons, if_pos h]
  rfl

theorem guarded_cons_of_not_mem (h : c ∉ special) :
    guarded special (c :: name) = c :: guarded special name := by
  rw [guarded, List.flatMap_cons, if_neg h]
  rfl

theorem guarded_append : guarded special (name ++ q) = guarded special name ++ guarded special q :=
  List.flatMap_append

/-- Where nothing else is special, writing doubles the backslashes. -/
theorem guarded_eq_double (hspecial : ∀ c, c ∈ special → c ∈ name → c = backslash)
    (hback : backslash ∈ special) : guarded special name = double backslash name := by
  induction name with
  | nil => rfl
  | cons c name ih =>
    have hrest := ih fun d hd hmem => hspecial d hd (List.mem_cons_of_mem c hmem)
    by_cases hc : c = backslash
    · rw [hc, guarded_cons_of_mem hback, double_cons_self, hrest]
    · rw [guarded_cons_of_not_mem fun h => hc (hspecial c h List.mem_cons_self),
        double_cons_of_ne hc, hrest]

theorem guarded_quoted (hquote : quote ∉ name) :
    guarded [quote, backslash] name = double backslash name := by
  refine guarded_eq_double (fun c hc hmem => ?_) (by decide)
  rcases List.mem_pair.mp hc with rfl | rfl
  · exact absurd hmem hquote
  · rfl

theorem guarded_escaped (hspace : space ∉ name) (hquote : quote ∉ name) :
    guarded [space, quote, backslash] name = double backslash name := by
  refine guarded_eq_double (fun c hc hmem => ?_) (by decide)
  rcases List.mem_cons.mp hc with rfl | hc
  · exact absurd hmem hspace
  · rcases List.mem_pair.mp hc with rfl | rfl
    · exact absurd hmem hquote
    · rfl

/-- A name with a space, at its first one. -/
theorem guarded_space (hspace : space ∉ name) (hquote : quote ∉ name) :
    guarded [space, quote, backslash] (name ++ space :: q) =
      double backslash name ++ backslash :: space :: guarded [space, quote, backslash] q := by
  rw [guarded_append, guarded_escaped hspace hquote, guarded_cons_of_mem (by decide)]

theorem write_ne_nil {style : Style} (h : name ≠ []) : style.write name ≠ [] := by
  cases style with
  | quoted => exact List.cons_ne_nil _ _
  | escaped =>
    obtain ⟨c, name, rfl⟩ := List.exists_cons_of_ne_nil h
    rw [Style.write]
    by_cases hc : c ∈ [space, quote, backslash]
    · rw [guarded_cons_of_mem hc]
      exact List.cons_ne_nil _ _
    · rw [guarded_cons_of_not_mem hc]
      exact List.cons_ne_nil _ _

end Guarded

/-! ## What a round does -/

/-- The characters are appended to the output that is being written. -/
def Scan.put (s : Scan) (w : CString) : Scan :=
  if s.donewith1 then { s with outgoing2 := s.outgoing2 ++ w }
  else { s with outgoing1 := s.outgoing1 ++ w }

/-- What matters at the end. -/
def Scan.outputs (s : Scan) : Bool × CString × CString := (s.donewith1, s.outgoing1, s.outgoing2)

section Rounds

variable {two : Bool} {s : Scan} {c : UInt8} {w v : CString}

@[simp] theorem put_inquote : (s.put w).inquote = s.inquote := by
  rw [Scan.put]
  split_ifs <;> rfl

@[simp] theorem put_inescape : (s.put w).inescape = s.inescape := by
  rw [Scan.put]
  split_ifs <;> rfl

@[simp] theorem put_donewith1 : (s.put w).donewith1 = s.donewith1 := by
  rw [Scan.put]
  split_ifs <;> rfl

@[simp] theorem put_out : (s.put w).out = s.out := by
  rw [Scan.put]
  split_ifs <;> rfl

theorem put_nil : s.put [] = s := by
  rw [Scan.put]
  split_ifs <;> simp only [List.append_nil]

theorem put_put : (s.put w).put v = s.put (w ++ v) := by
  cases h : s.donewith1 <;> simp [Scan.put, h, List.append_assoc]

theorem add_eq_put : s.add c = s.put [c] := rfl

/-- Different characters are appended with a difference. -/
theorem put_outputs_inj : (s.put w).outputs = (s.put v).outputs ↔ w = v := by
  cases h : s.donewith1 <;> simp [Scan.put, Scan.outputs, h]

theorem step_of_out (h : s.out = true) : step two s c = s := if_pos h

theorem foldl_of_out (h : s.out = true) : w.foldl (step two) s = s := by
  induction w with
  | nil => rfl
  | cons c w ih => rw [List.foldl_cons, step_of_out h, ih]

/-- Characters that are just read. -/
theorem step_plain (hout : s.out = false) (hback : c ≠ backslash) (hquote : c ≠ quote)
    (hspace : s.inquote = true ∨ c ≠ space) : step two s c = s.put [c] := by
  rw [step, hout, if_neg Bool.false_ne_true, if_neg hback, if_neg hquote, if_neg hquote]
  cases hin : s.inquote with
  | true => exact if_pos rfl
  | false =>
    have hne : c ≠ space := hspace.resolve_left (by rw [hin]; exact Bool.false_ne_true)
    rw [if_neg Bool.false_ne_true, if_neg hne]
    rfl

theorem step_quote (hout : s.out = false) : step two s quote = { s with inquote := true } := by
  rw [step, hout, if_neg Bool.false_ne_true, if_neg (by decide), if_pos rfl]

/-- The first of two backslashes, and one in front of something else. -/
theorem step_backslash (hout : s.out = false) (hesc : s.inescape = false) :
    step two s backslash = { s with inescape := true } := by
  rw [step, hout, if_neg Bool.false_ne_true, if_pos rfl, hesc, if_neg Bool.false_ne_true]

/-- A backslash is read where one has been seen, also if it has done its work. -/
theorem step_backslash_again (hout : s.out = false) (hesc : s.inescape = true) :
    step two s backslash = ({ s with inescape := false } : Scan).put [backslash] := by
  rw [step, hout, if_neg Bool.false_ne_true, if_pos rfl, hesc, if_pos rfl]
  rfl

/-- A space is read where a backslash has been seen. -/
theorem step_space_escaped (hout : s.out = false) (hesc : s.inescape = true) :
    step two s space = s.put [space] := by
  rw [step, hout, if_neg Bool.false_ne_true, if_neg (by decide), if_neg (by decide), hesc]
  split_ifs <;> first | rfl | simp_all [quote, space]

/-- A space that is not escaped ends an output. -/
theorem step_space (hout : s.out = false) (hin : s.inquote = false) (hesc : s.inescape = false) :
    step two s space =
      if s.donewith1 || !two then { s with out := true } else { s with donewith1 := true } := by
  rw [step, hout, if_neg Bool.false_ne_true, if_neg (by decide), if_neg (by decide), hin,
    if_neg Bool.false_ne_true, if_pos rfl, hesc, if_neg Bool.false_ne_true]

/-- A pair of backslashes is one, in each state of the flags. -/
theorem step_pair (hout : s.out = false) :
    step two (step two s backslash) backslash = s.put [backslash] := by
  cases hesc : s.inescape with
  | false =>
    have hclear : ({ s with inescape := false } : Scan) = s := by rw [← hesc]
    have hagain := @step_backslash_again two { s with inescape := true } hout rfl
    rw [step_backslash hout hesc, hagain]
    exact congrArg (Scan.put · [backslash]) hclear
  | true =>
    rw [step_backslash_again hout hesc, step_backslash (by simpa using hout) (by simp)]
    cases hdone : s.donewith1 <;> simp [Scan.put, hdone, hesc]

/-- **Names without spaces and quotation marks are read** in each state of the flags, and names with
spaces behind a quotation mark. -/
theorem foldl_double (hout : s.out = false) (hquote : quote ∉ w)
    (hspace : s.inquote = true ∨ space ∉ w) :
    (double backslash w).foldl (step two) s = s.put w := by
  induction w generalizing s with
  | nil => exact put_nil.symm
  | cons c w ih =>
    obtain ⟨hc, hquote⟩ := List.ne_and_not_mem_of_not_mem_cons hquote
    have hspaces : s.inquote = true ∨ (c ≠ space ∧ space ∉ w) :=
      hspace.imp_right fun h =>
        (List.ne_and_not_mem_of_not_mem_cons h).imp_left Ne.symm
    have hrest := @ih (s.put [c]) (by simpa using hout) hquote
      (by simpa using hspaces.imp_right And.right)
    by_cases hb : c = backslash
    · rw [hb] at hrest ⊢
      rw [double_cons_self, List.foldl_cons, List.foldl_cons, step_pair hout, hrest, put_put]
      rfl
    · rw [double_cons_of_ne hb, List.foldl_cons,
        step_plain hout hb (Ne.symm hc) (hspaces.imp_right And.left), hrest, put_put]
      rfl

/-! ## What a run does -/

/-- A name in quotation marks is read if it has none itself, and leaves `inquote` set. -/
theorem foldl_quoted (hout : s.out = false) (hquote : quote ∉ w) :
    (Style.quoted.write w).foldl (step two) s = ({ s with inquote := true } : Scan).put w := by
  have hname := @foldl_double two { s with inquote := true } w hout hquote (Or.inl rfl)
  rw [Style.write, guarded_quoted hquote, List.foldl_append, List.foldl_cons, List.foldl_nil,
    List.foldl_cons, step_quote hout, hname, step_quote (by simpa using hout)]
  simp only [Scan.put]
  split_ifs <;> rfl

/-- A name with backslashes is read up to its second space. -/
theorem foldl_space (hout : s.out = false) (hesc : s.inescape = false) (hspace : space ∉ w)
    (hquote : quote ∉ w) :
    (Style.escaped.write (w ++ space :: v)).foldl (step two) s =
      (Style.escaped.write v).foldl (step two)
        (({ s with inescape := true } : Scan).put (w ++ [space])) := by
  have hback : step two (s.put w) backslash = ({ s with inescape := true } : Scan).put w := by
    rw [step_backslash (by simpa using hout) (by simpa using hesc)]
    cases hdone : s.donewith1 <;> simp [Scan.put, hdone]
  rw [Style.write, guarded_space hspace hquote, List.foldl_append,
    foldl_double hout hquote (Or.inr hspace), List.foldl_cons, List.foldl_cons, hback,
    step_space_escaped (by simpa using hout) (by simp), put_put]
  rfl

/-- At its second space a backslash is read in place of the space, which is not escaped. -/
theorem foldl_second_space (hout : s.out = false) (hesc : s.inescape = true) (hspace : space ∉ w)
    (hquote : quote ∉ w) :
    (Style.escaped.write (w ++ space :: v)).foldl (step two) s =
      (Style.escaped.write v).foldl (step two)
        (step two (({ s with inescape := false } : Scan).put (w ++ [backslash])) space) := by
  have hback : step two (s.put w) backslash =
      ({ s with inescape := false } : Scan).put (w ++ [backslash]) := by
    rw [step_backslash_again (by simpa using hout) (by simpa using hesc), ← put_put]
    cases hdone : s.donewith1 <;> simp [Scan.put, hdone]
  rw [Style.write, guarded_space hspace hquote, List.foldl_append,
    foldl_double hout hquote (Or.inr hspace), List.foldl_cons, List.foldl_cons, hback]
  rfl

/-- No quotation mark gets into an output. -/
theorem quote_not_mem_foldl (h : quote ∉ s.outgoing1 ∧ quote ∉ s.outgoing2) :
    quote ∉ (w.foldl (step two) s).outgoing1 ∧ quote ∉ (w.foldl (step two) s).outgoing2 := by
  induction w generalizing s with
  | nil => exact h
  | cons c w ih =>
    refine ih ?_
    have hadd (t : Scan) (ht : quote ∉ t.outgoing1 ∧ quote ∉ t.outgoing2) (hc : c ≠ quote) :
        quote ∉ (t.add c).outgoing1 ∧ quote ∉ (t.add c).outgoing2 := by
      rw [Scan.add]
      split_ifs <;> simp [ht.1, ht.2, hc.symm]
    rw [step]
    split_ifs <;> first | exact h | exact hadd _ h (by simp_all [backslash, quote])

/-- Behind a quotation mark no space ends an output. -/
theorem donewith1_foldl_of_inquote (h : s.inquote = true) :
    (w.foldl (step two) s).donewith1 = s.donewith1 := by
  induction w generalizing s with
  | nil => rfl
  | cons c w ih =>
    have hstep : (step two s c).inquote = true ∧ (step two s c).donewith1 = s.donewith1 := by
      have hadd (t : Scan) : (t.add c).inquote = t.inquote ∧ (t.add c).donewith1 = t.donewith1 := by
        rw [add_eq_put]
        exact ⟨put_inquote, put_donewith1⟩
      rw [step]
      split_ifs <;> simp_all
    rw [List.foldl_cons, ih hstep.1, hstep.2]

/-- The first output only grows, and stays when the second has been begun. -/
theorem outgoing1_foldl (w : CString) (s : Scan) :
    s.outgoing1 <+: (w.foldl (step two) s).outgoing1 ∧
    (s.donewith1 = true → (w.foldl (step two) s).outgoing1 = s.outgoing1 ∧
      (w.foldl (step two) s).donewith1 = true) := by
  induction w generalizing s with
  | nil => exact ⟨List.prefix_refl _, fun h => ⟨rfl, h⟩⟩
  | cons c w ih =>
    have hstep : s.outgoing1 <+: (step two s c).outgoing1 ∧
        (s.donewith1 = true →
          (step two s c).outgoing1 = s.outgoing1 ∧ (step two s c).donewith1 = true) := by
      rw [step]
      split_ifs <;> simp_all [Scan.add] <;> split_ifs <;> simp_all
    refine ⟨hstep.1.trans (ih _).1, fun h => ?_⟩
    obtain ⟨hfirst, hdone⟩ := hstep.2 h
    rw [List.foldl_cons, ((ih _).2 hdone).1, hfirst]
    exact ⟨rfl, ((ih _).2 hdone).2⟩

/-- With one output no second is begun. -/
theorem donewith1_foldl_one (h : s.donewith1 = false) :
    (w.foldl (step false) s).donewith1 = false := by
  induction w generalizing s with
  | nil => exact h
  | cons c w ih =>
    refine ih ?_
    rw [step]
    split_ifs <;> simp_all [Scan.add]

/-! ## The last name -/

/-- What is appended does not depend on the flags. -/
theorem outputs_put {t : Scan} (h : t.outputs = s.outputs) :
    (t.put w).outputs = (s.put w).outputs := by
  simp only [Scan.outputs, Prod.mk.injEq] at h
  obtain ⟨hdone, h1, h2⟩ := h
  simp only [Scan.outputs, Scan.put, hdone]
  split_ifs <;> simp [h1, h2]

theorem split_space (h : space ∈ w) : ∃ p q, w = p ++ space :: q ∧ space ∉ p := by
  obtain ⟨p, q, hw, hp⟩ := List.eq_append_cons_of_mem h
  exact ⟨p, q, hw, hp⟩

theorem not_mem_append_cons (h : quote ∉ w ++ c :: v) : quote ∉ w ∧ quote ∉ v :=
  ⟨fun hw => h (List.mem_append_left _ hw),
    fun hv => h (List.mem_append_right _ (List.mem_cons_of_mem _ hv))⟩

/-- The variables at the second space of a name, with `p` before and `q` behind the first one. -/
def Scan.cut (s : Scan) (p q : CString) : Scan :=
  ({ ({ s with inescape := true } : Scan).put (p ++ [space]) with inescape := false } : Scan).put
    (q ++ [backslash])

theorem outputs_cut {p q : CString} :
    (s.cut p q).outputs = (s.put (p ++ [space] ++ (q ++ [backslash]))).outputs := by
  rw [← put_put]
  exact outputs_put (outputs_put rfl)

/-- **A name is cut at its second space**, which is taken for the end of an output. -/
theorem foldl_two_spaces {p q r : CString} (hout : s.out = false) (hesc : s.inescape = false)
    (hp : space ∉ p) (hq : space ∉ q) (hquote : quote ∉ p ++ space :: (q ++ space :: r)) :
    (Style.escaped.write (p ++ space :: (q ++ space :: r))).foldl (step two) s =
      (Style.escaped.write r).foldl (step two) (step two (s.cut p q) space) := by
  obtain ⟨hp', hrest⟩ := not_mem_append_cons hquote
  obtain ⟨hq', -⟩ := not_mem_append_cons hrest
  rw [foldl_space hout hesc hp hp',
    foldl_second_space (by simpa using hout) (by simp) hq hq']
  rfl

/-- What a name is cut to at its second space is not the name. -/
theorem cut_ne (p q r : CString) :
    p ++ [space] ++ (q ++ [backslash]) ≠ p ++ space :: (q ++ space :: r) := by
  intro h
  rw [List.append_assoc] at h
  have hfirst : [space] ++ (q ++ [backslash]) = space :: (q ++ space :: r) :=
    List.append_cancel_left h
  have hsecond : [backslash] = space :: r := List.append_cancel_left (List.cons.inj hfirst).2
  exact absurd (List.cons.inj hsecond).1 (by decide)

theorem not_lastFits_of_two {p q r : CString} :
    ¬ LastFits .escaped (p ++ space :: (q ++ space :: r)) := by
  rintro ⟨-, h⟩
  have hcount := h.resolve_left (by decide)
  rw [List.count_append, List.count_cons_self, List.count_append, List.count_cons_self] at hcount
  omega

/-- **What is read of the last name**: all of it, if it fits, and something else if not. -/
theorem last_outputs_iff {style : Style} (hlast : (s.donewith1 || !two) = true)
    (hout : s.out = false) (hin : s.inquote = false) (hesc : s.inescape = false)
    (hquote : quote ∉ w) :
    ((style.write w).foldl (step two) s).outputs = (s.put w).outputs ↔ LastFits style w := by
  cases style with
  | quoted =>
    rw [foldl_quoted hout hquote]
    exact iff_of_true (outputs_put rfl) ⟨hquote, Or.inl rfl⟩
  | escaped =>
    by_cases hspace : space ∈ w
    · obtain ⟨p, q, rfl, hp⟩ := split_space hspace
      obtain ⟨hp', hq'⟩ := not_mem_append_cons hquote
      by_cases hspace : space ∈ q
      · -- the second space is where it stops
        obtain ⟨q, r, rfl, hq⟩ := split_space hspace
        have hend : step two (s.cut p q) space = { s.cut p q with out := true } := by
          rw [step_space (by simpa [Scan.cut] using hout) (by simpa [Scan.cut] using hin)
            (by simp [Scan.cut])]
          exact if_pos (by simpa [Scan.cut] using hlast)
        rw [foldl_two_spaces hout hesc hp hq hquote, hend, foldl_of_out rfl]
        refine iff_of_false (fun h => cut_ne p q r ?_) not_lastFits_of_two
        exact put_outputs_inj.mp (outputs_cut.symm.trans h)
      · rw [foldl_space hout hesc hp hp', Style.write, guarded_escaped hspace hq',
          foldl_double (by simpa using hout) hq' (Or.inr hspace), put_put, List.append_assoc]
        refine iff_of_true (outputs_put rfl) ⟨hquote, Or.inr ?_⟩
        rw [List.count_append, List.count_cons_self, List.count_eq_zero_of_not_mem hp,
          List.count_eq_zero_of_not_mem hspace]
    · rw [Style.write, guarded_escaped hspace hquote, foldl_double hout hquote (Or.inr hspace)]
      exact iff_of_true rfl ⟨hquote, Or.inr (by simp [List.count_eq_zero_of_not_mem hspace])⟩

/-! ## The first name -/

/-- A first name that fits is read, and the space behind it begins the second output. -/
theorem first_of_fits {style : Style} (hfits : FirstFits style w) :
    (style.write w ++ [space]).foldl (step true) .start =
      ⟨false, false, true, false, w, []⟩ := by
  obtain ⟨rfl, hspace, hquote⟩ := hfits
  rw [Style.write, guarded_escaped hspace hquote, List.foldl_append,
    foldl_double rfl hquote (Or.inr hspace), List.foldl_cons, List.foldl_nil,
    step_space (by simp [Scan.start]) (by simp [Scan.start]) (by simp [Scan.start])]
  rfl

/-- **A first name that does not fit is not read**, whatever follows. -/
theorem first_of_not_fits {style : Style} (hfits : ¬ FirstFits style w) (rest : CString) :
    let s := (style.write w ++ space :: rest).foldl (step true) .start
    s.donewith1 = false ∨ s.outgoing1 ≠ w := by
  by_cases hquote : quote ∈ w
  · refine Or.inr fun h => ?_
    have hnot := (@quote_not_mem_foldl true .start (style.write w ++ space :: rest)
      ⟨List.not_mem_nil, List.not_mem_nil⟩).1
    rw [h] at hnot
    exact hnot hquote
  cases style with
  | quoted =>
    refine Or.inl ?_
    rw [List.foldl_append, foldl_quoted rfl hquote, donewith1_foldl_of_inquote (by simp)]
    rfl
  | escaped =>
    have hspace : space ∈ w := by
      by_contra h
      exact hfits ⟨rfl, h, hquote⟩
    refine Or.inr fun h => ?_
    obtain ⟨p, q, rfl, hp⟩ := split_space hspace
    obtain ⟨hp', hq'⟩ := not_mem_append_cons hquote
    by_cases hspace : space ∈ q
    · -- its second space begins the second output
      obtain ⟨q, r, rfl, hq⟩ := split_space hspace
      have hbegin : (step true (Scan.start.cut p q) space).outgoing1 =
          p ++ [space] ++ (q ++ [backslash]) := rfl
      rw [List.foldl_append, foldl_two_spaces rfl rfl hp hq hquote, ← List.foldl_append,
        ((outgoing1_foldl _ _).2 rfl).1, hbegin] at h
      exact cut_ne p q r h
    · -- its only space leaves the flag set, so that the next is a part of it
      have hread : ((space :: rest).foldl (step true)
          (({ Scan.start with inescape := true } : Scan).put (p ++ [space] ++ q))).outgoing1 =
            p ++ space :: q := by
        rw [List.foldl_append, foldl_space rfl rfl hp hp', Style.write, guarded_escaped hspace hq',
          foldl_double rfl hq' (Or.inr hspace), put_put] at h
        exact h
      rw [List.foldl_cons, step_space_escaped rfl rfl, put_put] at hread
      have hlen := (@outgoing1_foldl true rest
        (({ Scan.start with inescape := true } : Scan).put (p ++ [space] ++ q ++ [space]))).1.length_le
      rw [hread] at hlen
      simp [Scan.put, Scan.start] at hlen

end Rounds

/-! ## The function -/

section Function

variable {style style' : Style} {name name' : CString}

/-- **Two names are read back** exactly if the first is written with backslashes and has neither a
space nor a quotation mark, and the second fits at the end. -/
theorem two_outputs_iff :
    escapePaths true (style.write name ++ space :: style'.write name') = some (name, name') ↔
      FirstFits style name ∧ LastFits style' name' := by
  have hnil : style.write name ++ space :: style'.write name' ≠ [] := by simp
  rw [escapePaths, if_neg hnil]
  by_cases hfirst : FirstFits style name
  · have hsplit : style.write name ++ space :: style'.write name' =
        style.write name ++ [space] ++ style'.write name' := by simp
    have hdone := (@outgoing1_foldl true (style'.write name')
      ⟨false, false, true, false, name, []⟩).2 rfl
    rw [hsplit, List.foldl_append, first_of_fits hfirst]
    simp only [hdone.1, hdone.2, Bool.not_true, Bool.and_false, Bool.false_eq_true, if_false,
      Option.some.injEq, Prod.mk.injEq, true_and, hfirst]
    by_cases hquote : quote ∈ name'
    · have hnot := (@quote_not_mem_foldl true ⟨false, false, true, false, name, []⟩
        (style'.write name') ⟨hfirst.2.2, List.not_mem_nil⟩).2
      refine iff_of_false (fun h => ?_) fun h => h.1 hquote
      rw [h] at hnot
      exact hnot hquote
    · rw [← @last_outputs_iff true ⟨false, false, true, false, name, []⟩ name' style' rfl rfl rfl rfl
        hquote, Scan.outputs, hdone.1, hdone.2]
      simp [Scan.outputs, Scan.put]
  · refine iff_of_false (fun h => ?_) fun h => hfirst h.1
    obtain ⟨hdone, h⟩ := Option.ite_none_left_eq_some.mp h
    rcases first_of_not_fits hfirst (style'.write name') with hnot | hne
    · exact hdone (by rw [hnot]; rfl)
    · exact hne (congrArg Prod.fst (Option.some.inj h))

/-- **A single name is read back** exactly if it fits at the end. -/
theorem one_output_iff (hname : name ≠ []) :
    escapePaths false (style.write name) = some (name, []) ↔ LastFits style name := by
  have hdone : ((style.write name).foldl (step false) .start).donewith1 = false :=
    donewith1_foldl_one rfl
  rw [escapePaths, if_neg (write_ne_nil hname)]
  simp only [Bool.false_and, Bool.false_eq_true, if_false, Option.some.injEq, Prod.mk.injEq]
  by_cases hquote : quote ∈ name
  · have hnot := (@quote_not_mem_foldl false .start (style.write name)
      ⟨List.not_mem_nil, List.not_mem_nil⟩).1
    refine iff_of_false (fun h => ?_) fun h => h.1 hquote
    rw [h.1] at hnot
    exact hnot hquote
  · rw [← @last_outputs_iff false .start name style rfl rfl rfl rfl hquote, Scan.outputs, hdone]
    simp [Scan.outputs, Scan.put, Scan.start]

/-- **Which names are read back as they were written.** -/
theorem escapePaths_iff (style style' : Style) (name name' : CString) (hname : name ≠ []) :
    (escapePaths true (style.write name ++ space :: style'.write name') = some (name, name') ↔
      FirstFits style name ∧ LastFits style' name') ∧
    (escapePaths false (style.write name) = some (name, []) ↔ LastFits style name) :=
  ⟨two_outputs_iff, one_output_iff hname⟩

/-- `a b "c d"`. -/
theorem escapePaths_iff_of_plain :
    ascii ['a'] ≠ [] ∧
    (escapePaths true (Style.escaped.write (ascii ['a']) ++
        space :: Style.quoted.write (ascii ['c', ' ', 'd'])) =
          some (ascii ['a'], ascii ['c', ' ', 'd']) ↔
      FirstFits .escaped (ascii ['a']) ∧ LastFits .quoted (ascii ['c', ' ', 'd'])) ∧
    (escapePaths false (Style.escaped.write (ascii ['a'])) = some (ascii ['a'], []) ↔
      LastFits .escaped (ascii ['a'])) :=
  ⟨by decide, escapePaths_iff .escaped .quoted (ascii ['a']) (ascii ['c', ' ', 'd']) (by decide)⟩

/-- `"a" "b"` is refused, `"a"` alone is `a`, and `a\ b\ c` alone is `a b\`. -/
theorem quoted_names_are_refused :
    escapePaths true (Style.quoted.write (ascii ['a']) ++ space :: Style.quoted.write (ascii ['b'])) =
      none ∧
    escapePaths false (Style.quoted.write (ascii ['a'])) = some (ascii ['a'], []) ∧
    escapePaths false (Style.escaped.write (ascii ['a', ' ', 'b', ' ', 'c'])) =
      some (ascii ['a', ' ', 'b', '\\'], []) := by
  decide

end Function

end Cmdline
end Afpfs
