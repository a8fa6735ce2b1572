import Afpfs.Lib.Bytes

/-!
# Records and streams

A packed record is a list of numbers of given widths, one behind the other.  `bytes` writes one and
`read` takes the numbers of the given widths from the front of a message.

A stream is a sequence of items, each of which tells where it ends.  `items` reads as many as are
there completely.

* `read_bytes`: what is written is read, as far as it fits.
* `read_append`: more bytes behind a record do not change what is read.
* `items_flatMap` and `items_prefix`: a stream is read as the items that were written, and what has
  arrived of it as the first ones of these.
-/

set_option autoImplicit false

namespace Afpfs
namespace Record

open Wire

/-! ## Records -/

/-- The bytes of fields with their widths. -/
def bytes : List (ℕ × ℕ) → List UInt8
  | [] => []
  | (w, n) :: fields => toBE w n ++ bytes fields

/-- The numbers of the given widths at the front, and what is behind them. -/
def read : List ℕ → List UInt8 → Option (List ℕ × List UInt8)
  | [], p => some ([], p)
  | w :: widths, p =>
    if w ≤ p.length then (read widths (p.drop w)).map fun (ns, rest) => (ofBE (p.take w) :: ns, rest)
    else none

@[simp] theorem read_nil (p : List UInt8) : read [] p = some ([], p) := rfl

/-- A number at the front. -/
theorem read_toBE (w n : ℕ) (widths : List ℕ) (p : List UInt8) :
    read (w :: widths) (toBE w n ++ p) =
      (read widths p).map fun (ns, rest) => (n % 256 ^ w :: ns, rest) := by
  have hle : w ≤ (toBE w n ++ p).length := by
    rw [List.length_append, length_toBE]
    exact Nat.le_add_right ..
  rw [read, if_pos hle, List.drop_left' (length_toBE w n), List.take_left' (length_toBE w n),
    ofBE_toBE]

/-- **Reading a record**: its numbers, as far as they fit, and what is behind it. -/
theorem read_bytes (fields : List (ℕ × ℕ)) (rest : List UInt8) :
    read (fields.map Prod.fst) (bytes fields ++ rest) =
      some (fields.map fun (w, n) => n % 256 ^ w, rest) := by
  induction fields with
  | nil => rfl
  | cons field fields ih =>
    obtain ⟨w, n⟩ := field
    rw [List.map_cons, bytes, List.append_assoc, read_toBE, ih]
    rfl

theorem bytes_append (fields more : List (ℕ × ℕ)) :
    bytes (fields ++ more) = bytes fields ++ bytes more := by
  induction fields with
  | nil => rfl
  | cons field fields ih =>
    obtain ⟨w, n⟩ := field
    rw [List.cons_append, bytes, bytes, ih, List.append_assoc]

theorem length_bytes (fields : List (ℕ × ℕ)) :
    (bytes fields).length = (fields.map Prod.fst).sum := by
  induction fields with
  | nil => rfl
  | cons field fields ih =>
    rw [bytes, List.length_append, length_toBE, ih]
    rfl

/-- More bytes behind a record do not change what is read. -/
theorem read_append {widths : List ℕ} {p rest : List UInt8} {ns : List ℕ}
    (h : read widths p = some (ns, rest)) (more : List UInt8) :
    read widths (p ++ more) = some (ns, rest ++ more) := by
  induction widths generalizing p ns with
  | nil =>
    obtain ⟨rfl, rfl⟩ := Prod.mk.inj (Option.some.inj h)
    rfl
  | cons w widths ih =>
    rw [read] at h
    by_cases hle : w ≤ p.length
    · rw [if_pos hle] at h
      obtain ⟨res, hres, heq⟩ := Option.map_eq_some_iff.mp h
      obtain ⟨ns', rest'⟩ := res
      obtain ⟨rfl, rfl⟩ := Prod.mk.inj heq
      have hle' : w ≤ (p ++ more).length := by
        rw [List.length_append]
        omega
      rw [read, if_pos hle', List.drop_append_of_le_length hle, List.take_append_of_le_length hle,
        ih hres]
      rfl
    · rw [if_neg hle] at h
      cases h

/-! ## Streams -/

section Streams

variable {α β γ : Type*}

/-- The items at the front that are there completely, at most so many. -/
def itemsUpTo (next : List β → Option (α × List β)) : ℕ → List β → List α
  | 0, _ => []
  | fuel + 1, p =>
    match next p with
    | none => []
    | some (a, rest) => a :: itemsUpTo next fuel rest

/-- The items that are there completely.  An item has at least one element. -/
def items (next : List β → Option (α × List β)) (p : List β) : List α := itemsUpTo next p.length p

/-- A reader that finds an item finds the same one when there is more behind it. -/
def Stable (next : List β → Option (α × List β)) : Prop :=
  ∀ p a rest more, next p = some (a, rest) → next (p ++ more) = some (a, rest ++ more)

/-- A reader that finds what a writer wrote. -/
structure Reads (next : List β → Option (α × List β)) (put : γ → List β) (f : γ → α) (c : γ) :
    Prop where
  nonempty : put c ≠ []
  next : ∀ rest, next (put c ++ rest) = some (f c, rest)

variable {next : List β → Option (α × List β)} {put : γ → List β} {f : γ → α}

/-- A part of an item is no item. -/
theorem Reads.next_eq_none {c : γ} (h : Reads next put f c) (hstable : Stable next) {p : List β}
    (hp : p <+: put c) (hne : p ≠ put c) : next p = none := by
  obtain ⟨more, hmore⟩ := hp
  cases hnext : next p with
  | none => rfl
  | some res =>
    obtain ⟨a, rest⟩ := res
    have hwhole := hstable p a rest more hnext
    have hitem := h.next []
    rw [List.append_nil, ← hmore, hwhole] at hitem
    have hnil := (Prod.mk.inj (Option.some.inj hitem)).2
    rw [(List.append_eq_nil_iff.mp hnil).2, List.append_nil] at hmore
    exact absurd hmore hne

/-- **What has arrived of a stream** is read as the first ones of its items. -/
theorem itemsUpTo_prefix {cs : List γ} (hcs : ∀ c ∈ cs, Reads next put f c) (hstable : Stable next)
    (hnil : next [] = none) (fuel : ℕ) {p : List β} (hp : p <+: cs.flatMap put) :
    itemsUpTo next fuel p <+: cs.map f := by
  induction cs generalizing fuel p with
  | nil =>
    have hp : p = [] := List.prefix_nil.mp hp
    subst hp
    cases fuel with
    | zero => exact List.nil_prefix
    | succ fuel =>
      rw [itemsUpTo, hnil]
      exact List.nil_prefix
  | cons c cs ih =>
    have hc := hcs c List.mem_cons_self
    have hrest := fun c hmem => hcs c (List.mem_cons_of_mem _ hmem)
    cases fuel with
    | zero => exact List.nil_prefix
    | succ fuel =>
      rw [List.flatMap_cons] at hp
      -- a part of the first item, or this item and a part of the others
      rcases List.prefix_or_prefix_of_prefix hp (List.prefix_append (put c) _) with hshort | hlong
      · by_cases hne : p = put c
        · have hnext := hc.next []
          rw [List.append_nil] at hnext
          rw [hne, itemsUpTo, hnext, List.map_cons]
          exact (List.prefix_cons_inj (f c)).mpr (ih hrest fuel List.nil_prefix)
        · rw [itemsUpTo, hc.next_eq_none hstable hshort hne]
          exact List.nil_prefix
      · obtain ⟨p', rfl⟩ := hlong
        have hp' : p' <+: cs.flatMap put := (List.prefix_append_right_inj (put c)).mp hp
        rw [itemsUpTo, hc.next, List.map_cons]
        exact (List.prefix_cons_inj (f c)).mpr (ih hrest fuel hp')

theorem items_prefix {cs : List γ} (hcs : ∀ c ∈ cs, Reads next put f c) (hstable : Stable next)
    (hnil : next [] = none) {p : List β} (hp : p <+: cs.flatMap put) :
    items next p <+: cs.map f :=
  itemsUpTo_prefix hcs hstable hnil p.length hp

/-- **A stream** is read as its items. -/
theorem items_flatMap {cs : List γ} (hcs : ∀ c ∈ cs, Reads next put f c)
    (hnil : next [] = none) : items next (cs.flatMap put) = cs.map f := by
  suffices h : ∀ fuel, (cs.flatMap put).length ≤ fuel →
      itemsUpTo next fuel (cs.flatMap put) = cs.map f from h _ (Nat.le_refl _)
  induction cs with
  | nil =>
    intro fuel _
    cases fuel with
    | zero => rfl
    | succ fuel => rw [List.flatMap_nil, itemsUpTo, hnil]; rfl
  | cons c cs ih =>
    intro fuel hfuel
    have hc := hcs c List.mem_cons_self
    have hpos : 0 < (put c).length := List.length_pos_iff.mpr hc.nonempty
    rw [List.flatMap_cons, List.length_append] at hfuel
    obtain ⟨fuel, rfl⟩ : ∃ k, fuel = k + 1 := ⟨fuel - 1, by omega⟩
    rw [List.flatMap_cons, itemsUpTo, hc.next]
    exact congrArg _ (ih (fun c hmem => hcs c (List.mem_cons_of_mem _ hmem)) fuel (by omega))

end Streams

end Record
end Afpfs
