import Afpfs.ReplyParams
import Afpfs.Lib.PointerList

/-!
# The reply to an Enumerate

`lib/proto_directory.c`: the two handlers go over the entries of a reply and build a linked list of
them.  Each has its own way to link a node, and `parse_reply_block()` clears a node, its link
included, after it has been linked.

The packet is the `size` bytes that a handler is given.  `none` is a read outside of them, or of memory
that is not allocated.

* `Entry.ofEncodes`: what a server encodes is well formed, with or without padding.
* `built_enumerateLoop`, `built_enumerateext2Loop`: a round appends a node to the list.
* `decoded`: both handlers store the list of the entries, in order.
-/

set_option autoImplicit false

namespace Afpfs
namespace EnumerateReply

open Wire PointerList ReplyBlock

/-! ## The handlers -/

/-- A `struct afp_file_info` in memory. -/
structure Node where
  info : AfpFileInfo
  next : Option ℕ

/-- What is stored at an address. -/
abbrev Heap := ℕ → Option Node

/-- `p->next=q`. -/
def setNext (heap : Heap) (p : Option ℕ) (q : ℕ) : Option Heap := do
  let p ← p
  let n ← heap p
  return Function.update heap p (some { n with next := some q })

/-- `malloc()`: the address of the `i`-th block, and what is in it.  It does not fail. -/
structure Malloc where
  addr : ℕ → ℕ
  garbage : ℕ → Node
  distinct : Function.Injective addr

/-- The variables of the loops. -/
structure Builder where
  heap : Heap
  filebase : Option ℕ
  filecur : Option ℕ

/-- `parse_reply_block()` into a node. -/
def parseInto (heap : Heap) (filecur : ℕ) (buf : List UInt8) (isdir : UInt8)
    (filebitmap dirbitmap : UInt16) : Option Heap := do
  let fi ← parseReplyBlock buf (isdir ≠ 0) filebitmap.toUInt32 dirbitmap.toUInt32
  return Function.update heap filecur (some { info := fi, next := none })

/-- The loop of `afp_enumerate_reply()`.  `p` is the position of the next entry, `i` the number of
those before it. -/
def enumerateLoop (malloc : Malloc) (packet : List UInt8) (filebitmap dirbitmap : UInt16) :
    ℕ → ℕ → ℕ → Builder → Option (ℤ × Builder)
  | 0, _, _, b => some (0, b)
  | left + 1, i, p, b =>
    if packet.length < p then some (-1, b)
    else do
      let prev := b.filecur
      let filecur := malloc.addr i
      let heap := Function.update b.heap filecur (some (malloc.garbage i))
      let (filebase, heap) ←
        (match b.filebase with
        | none => some (filecur, heap)
        | some filebase => (setNext heap prev filecur).map fun heap => (filebase, heap))
      let size ← packet[p]?
      let isdir ← packet[p + 1]?
      let heap ← parseInto heap filecur (packet.drop (p + 2)) isdir filebitmap dirbitmap
      enumerateLoop malloc packet filebitmap dirbitmap left (i + 1) (p + size.toNat)
        { heap, filebase := filebase, filecur := filecur }

/-- The loop of `afp_enumerateext2_reply()`. -/
def enumerateext2Loop (malloc : Malloc) (packet : List UInt8) (filebitmap dirbitmap : UInt16) :
    ℕ → ℕ → ℕ → Builder → Option (ℤ × Builder)
  | 0, _, _, b => some (0, b)
  | left + 1, i, p, b => do
    let newFile := malloc.addr i
    let heap := Function.update b.heap newFile (some { malloc.garbage i with next := none })
    let (filebase, heap) ←
      (match b.filecur with
      | some filecur => (setNext heap filecur newFile).map fun heap => (b.filebase, heap)
      | none => some (some newFile, heap))
    let sizeHigh ← packet[p]?
    let sizeLow ← packet[p + 1]?
    let isdir ← packet[p + 2]?
    let heap ← parseInto heap newFile (packet.drop (p + 4)) isdir filebitmap dirbitmap
    enumerateext2Loop malloc packet filebitmap dirbitmap left (i + 1)
      (p + (ntohs [sizeHigh, sizeLow]).toNat) { heap, filebase, filecur := newFile }

/-- What a handler returns, what it stores in `*x` if it does, and the memory. -/
structure Result where
  ret : ℤ
  stored : Option (Option ℕ)
  heap : Heap

/-- `sizeof(*reply)`: a header, two bitmaps and a count. -/
def replySize : ℕ := 22

/-- What both handlers do around their loops.  The error code is looked at as it was sent. -/
def enumerateReply (loop : UInt16 → UInt16 → ℕ → ℕ → ℕ → Builder → Option (ℤ × Builder)) (heap : Heap)
    (packet : List UInt8) : Option Result :=
  let error := fieldAt packet 4 4
  if error.length < 4 then none
  else if error ≠ [0, 0, 0, 0] then
    some ⟨(UInt32.ofNat (ofBE error.reverse)).toInt32.toInt, none, heap⟩
  else if packet.length < replySize then some ⟨-1, none, heap⟩
  else do
    let (ret, b) ← loop (ntohs (fieldAt packet 16 2)) (ntohs (fieldAt packet 18 2))
      (ntohs (fieldAt packet 20 2)).toNat 0 replySize { heap, filebase := none, filecur := none }
    if ret ≠ 0 then return ⟨ret, none, b.heap⟩
    else return ⟨0, some b.filebase, b.heap⟩

/-- `afp_enumerate_reply()`. -/
def afpEnumerateReply (malloc : Malloc) (heap : Heap) (packet : List UInt8) : Option Result :=
  enumerateReply (enumerateLoop malloc packet) heap packet

/-- `afp_enumerateext2_reply()`. -/
def afpEnumerateext2Reply (malloc : Malloc) (heap : Heap) (packet : List UInt8) : Option Result :=
  enumerateReply (enumerateext2Loop malloc packet) heap packet

/-! ## Entries -/

variable {filebitmap dirbitmap : UInt16}

/-- A well-formed entry: the flag for a directory, the byte behind it in the longer header, and the
parameters, with padding at will.  `parse_reply_block()` reads nothing but the parameters, and `info`
is what it stores. -/
structure Entry (filebitmap dirbitmap : UInt16) where
  isdir : UInt8
  pad : UInt8
  parms : List UInt8
  info : AfpFileInfo
  parses : parseReplyBlock parms (isdir ≠ 0) filebitmap.toUInt32 dirbitmap.toUInt32 = some info

theorem toUInt16_bitmap (isdir : Bool) (filebitmap dirbitmap : UInt16) :
    (if isdir then dirbitmap.toUInt32 else filebitmap.toUInt32).toUInt16 =
      if isdir then dirbitmap else filebitmap := by
  cases isdir with
  | false => exact UInt16.toUInt16_toUInt32 filebitmap
  | true => exact UInt16.toUInt16_toUInt32 dirbitmap

/-- The encoding of values is well formed, with any padding behind it. -/
def Entry.ofEncodes (isdir pad : UInt8) {v : Parms} {buf : List UInt8} (padding : List UInt8)
    (h : Encodes (isdir ≠ 0) (if decide (isdir ≠ 0) then dirbitmap else filebitmap) v buf) :
    Entry filebitmap dirbitmap where
  isdir := isdir
  pad := pad
  parms := buf ++ padding
  info := stored (isdir ≠ 0) (if decide (isdir ≠ 0) then dirbitmap else filebitmap) v
  parses := by
    rw [← toUInt16_bitmap] at h ⊢
    exact parseReplyBlock_append (parseReplyBlock_encodes h) padding

/-- An entry with a size of one byte. -/
def Entry.short (e : Entry filebitmap dirbitmap) : List UInt8 :=
  UInt8.ofNat (2 + e.parms.length) :: e.isdir :: e.parms

/-- An entry with a size of two bytes. -/
def Entry.long (e : Entry filebitmap dirbitmap) : List UInt8 :=
  toBE 2 (4 + e.parms.length) ++ e.isdir :: e.pad :: e.parms

/-- A reply: a header, the bitmaps, the count and the entries, with anything behind them. -/
def reply (header : List UInt8) (filebitmap dirbitmap : UInt16) (entries : List (List UInt8))
    (rest : List UInt8) : List UInt8 :=
  header ++ (toBE 2 filebitmap.toNat ++ (toBE 2 dirbitmap.toNat ++ (toBE 2 entries.length ++
    (entries.flatten ++ rest))))

/-! ## The list grows -/

variable {malloc : Malloc} {infos : List AfpFileInfo} {b : Builder}

/-- The addresses of the first `n` nodes. -/
def addrs (malloc : Malloc) (n : ℕ) : List ℕ := (List.range n).map malloc.addr

theorem addrs_succ (malloc : Malloc) (n : ℕ) :
    addrs malloc (n + 1) = addrs malloc n ++ [malloc.addr n] := by
  rw [addrs, List.range_succ, List.map_append]
  rfl

/-- The nodes allocated so far are a list, the last of them is at `filecur`, and they hold `infos`. -/
structure Built (malloc : Malloc) (infos : List AfpFileInfo) (b : Builder) : Prop where
  linked : Linked b.heap Node.next b.filebase (addrs malloc infos.length)
  last : b.filecur = (addrs malloc infos.length).getLast?
  nodes : ∀ i fi, infos[i]? = some fi → ∃ n, b.heap (malloc.addr i) = some n ∧ n.info = fi

/-- Nodes that are not changed but in their links hold what they held, and so does the new one. -/
theorem nodes_concat {heap : Heap}
    (hold : ∀ i fi, infos[i]? = some fi → ∃ n, heap (malloc.addr i) = some n ∧ n.info = fi)
    (fi : AfpFileInfo) (i : ℕ) (fi' : AfpFileInfo) (hi : (infos ++ [fi])[i]? = some fi') :
    ∃ n, Function.update heap (malloc.addr infos.length) (some { info := fi, next := none })
      (malloc.addr i) = some n ∧ n.info = fi' := by
  by_cases hlast : i = infos.length
  · subst hlast
    rw [List.getElem?_concat_length] at hi
    rw [Function.update_self]
    exact ⟨_, rfl, Option.some.inj hi⟩
  · have hlt : i < infos.length := by
      have := (List.getElem?_eq_some_iff.mp hi).1
      rw [List.length_append, List.length_singleton] at this
      omega
    rw [List.getElem?_append_left hlt] at hi
    rw [Function.update_of_ne fun heq => hlast (malloc.distinct heq)]
    exact hold i fi' hi

/-- **One round links a node in**, whichever of the two ways is taken: the first looks at `filebase`,
the second at `filecur`. -/
theorem Built.link (h : Built malloc infos b) (g : Node) :
    let new := malloc.addr infos.length
    let heap := Function.update b.heap new (some g)
    ∃ filebase heap',
      (match b.filebase with
        | none => some (new, heap)
        | some filebase => (setNext heap b.filecur new).map fun heap => (filebase, heap)) =
          some (filebase, heap') ∧
      (match b.filecur with
        | some filecur => (setNext heap filecur new).map fun heap => (b.filebase, heap)
        | none => some (some new, heap)) = some (some filebase, heap') ∧
      ∀ fi, Built malloc (infos ++ [fi])
        { heap := Function.update heap' new (some { info := fi, next := none }),
          filebase := some filebase, filecur := some new } := by
  intro new heap
  have hlast : ∀ fi : AfpFileInfo,
      some new = (addrs malloc (infos ++ [fi]).length).getLast? := by
    intro fi
    rw [List.length_append, List.length_singleton, addrs_succ, List.getLast?_concat]
  have hheap : ∀ i, i ≠ infos.length → heap (malloc.addr i) = b.heap (malloc.addr i) :=
    fun i hi => Function.update_of_ne (show malloc.addr i ≠ new from
      fun heq => hi (malloc.distinct heq)) ..
  cases hinfos : infos.length with
  | zero =>
    have hbase : b.filebase = none := by
      have := h.linked.eq_head?
      rwa [hinfos] at this
    have hcur : b.filecur = none := by
      have := h.last
      rwa [hinfos] at this
    refine ⟨new, heap, by rw [hbase], by rw [hcur], fun fi => ⟨?_, hlast fi, ?_⟩⟩
    · rw [List.length_append, List.length_singleton, hinfos]
      have hnew : malloc.addr 0 = new := congrArg malloc.addr hinfos.symm
      refine linked_some_cons.mpr ⟨hnew.symm, { info := fi, next := none }, ?_, linked_none.mpr rfl⟩
      rw [hnew]
      exact Function.update_self new _ heap
    · refine nodes_concat (fun i fi' hi => ?_) fi
      exact absurd (List.getElem?_eq_some_iff.mp hi).1 (by omega)
  | succ n =>
    have hlinked := h.linked
    rw [hinfos, addrs_succ] at hlinked
    -- `prev` is the node before the new one
    obtain ⟨prev, hprev⟩ := hlinked.allocated (List.mem_append_right _ (List.mem_singleton_self _))
    have hne : malloc.addr n ≠ new := fun heq => by
      have := malloc.distinct heq
      omega
    have hcur : b.filecur = some (malloc.addr n) := by
      have := h.last
      rwa [hinfos, addrs_succ, List.getLast?_concat] at this
    obtain ⟨filebase, hbase⟩ : ∃ filebase, b.filebase = some filebase := by
      rw [hlinked.eq_head?]
      cases addrs malloc n with
      | nil => exact ⟨_, rfl⟩
      | cons a l => exact ⟨_, rfl⟩
    have hset : setNext heap (some (malloc.addr n)) new =
        some (Function.update heap (malloc.addr n) (some { prev with next := some new })) := by
      have hprev' : heap (malloc.addr n) = some prev := (Function.update_of_ne hne ..).trans hprev
      simp only [setNext, hprev', Option.bind_eq_bind, Option.bind_some, Option.pure_def]
    refine ⟨filebase, Function.update heap (malloc.addr n) (some { prev with next := some new }),
      ?_, ?_, fun fi => ⟨?_, hlast fi, ?_⟩⟩
    · rw [hbase, hcur]
      simp only [hset, Option.map_some]
    · rw [hcur, hbase]
      simp only [hset, Option.map_some]
    · rw [List.length_append, List.length_singleton, addrs_succ, hinfos, addrs_succ,
        List.append_assoc]
      rw [hbase] at hlinked
      have hnew : malloc.addr (n + 1) = new := congrArg malloc.addr hinfos.symm
      rw [hnew]
      have hold : ∀ c ∈ addrs malloc n, Function.update (Function.update heap (malloc.addr n)
          (some { prev with next := some new })) new (some { info := fi, next := none }) c =
            b.heap c := by
        intro c hc
        obtain ⟨i, hi, rfl⟩ := List.mem_map.mp hc
        have hlt := List.mem_range.mp hi
        have hi₁ : malloc.addr i ≠ new := fun heq => absurd (malloc.distinct heq) (by omega)
        have hi₂ : malloc.addr i ≠ malloc.addr n := fun heq =>
          absurd (malloc.distinct heq) (by omega)
        rw [Function.update_of_ne hi₁, Function.update_of_ne hi₂, hheap i (by omega)]
      have hprev' : Function.update (Function.update heap (malloc.addr n)
          (some { prev with next := some new })) new (some { info := fi, next := none })
            (malloc.addr n) = some { prev with next := some new } := by
        rw [Function.update_of_ne hne, Function.update_self]
      exact Linked.snoc hold hprev' rfl (Function.update_self ..) rfl hlinked
    · refine nodes_concat (fun i fi' hi => ?_) fi
      obtain ⟨node, hnode, hinfo⟩ := h.nodes i fi' hi
      have hlt := (List.getElem?_eq_some_iff.mp hi).1
      by_cases hin : i = n
      · subst hin
        rw [Function.update_self]
        exact ⟨_, rfl, by rw [← hinfo, ← Option.some.inj (hprev.symm.trans hnode)]⟩
      · rw [Function.update_of_ne fun heq => hin (malloc.distinct heq), hheap i (by omega)]
        exact ⟨node, hnode, hinfo⟩

/-! ## The loops -/

/-- What is read of a packet is at its place. -/
theorem getElem?_of_drop {packet bytes : List UInt8} {p : ℕ} (h : packet.drop p = bytes) (i : ℕ) :
    packet[p + i]? = bytes[i]? := by
  rw [← h, List.getElem?_drop]

theorem drop_of_drop {packet bytes : List UInt8} {p : ℕ} (h : packet.drop p = bytes) (i : ℕ) :
    packet.drop (p + i) = bytes.drop i := by
  rw [← h, List.drop_drop]

/-- An entry is parsed, whatever is behind it. -/
theorem Entry.parseInto_eq (e : Entry filebitmap dirbitmap) (heap : Heap) (filecur : ℕ)
    (rest : List UInt8) :
    parseInto heap filecur (e.parms ++ rest) e.isdir filebitmap dirbitmap =
      some (Function.update heap filecur (some { info := e.info, next := none })) := by
  rw [parseInto, parseReplyBlock_append e.parses]
  rfl

theorem built_enumerateLoop {packet rest : List UInt8}
    {entries : List (Entry filebitmap dirbitmap)} (hsize : ∀ e ∈ entries, 2 + e.parms.length < 256)
    {p : ℕ} (hdrop : packet.drop p = entries.flatMap Entry.short ++ rest)
    (h : Built malloc infos b) :
    ∃ b', enumerateLoop malloc packet filebitmap dirbitmap entries.length infos.length p b =
        some (0, b') ∧ Built malloc (infos ++ entries.map Entry.info) b' := by
  induction entries generalizing infos p b with
  | nil => exact ⟨b, rfl, by rwa [List.map_nil, List.append_nil]⟩
  | cons e entries ih =>
    obtain ⟨hfits, hsize⟩ := List.forall_mem_cons.mp hsize
    obtain ⟨filebase, heap', hlink, -, hbuilt⟩ := h.link (malloc.garbage infos.length)
    rw [List.flatMap_cons, List.append_assoc] at hdrop
    have hbound : ¬ packet.length < p := fun hlt => by
      rw [List.drop_eq_nil_of_le (by omega)] at hdrop
      exact absurd hdrop (by simp [Entry.short])
    have hsizeByte : packet[p]? = some (UInt8.ofNat (2 + e.parms.length)) :=
      getElem?_of_drop hdrop 0
    have hisdir : packet[p + 1]? = some e.isdir := getElem?_of_drop hdrop 1
    have hparms : packet.drop (p + 2) = e.parms ++ (entries.flatMap Entry.short ++ rest) :=
      drop_of_drop hdrop 2
    have hnext : packet.drop (p + (UInt8.ofNat (2 + e.parms.length)).toNat) =
        entries.flatMap Entry.short ++ rest := by
      rw [UInt8.toNat_ofNat_of_lt' hfits, drop_of_drop hdrop]
      exact List.drop_left' (by rw [Entry.short, List.length_cons, List.length_cons]; omega)
    obtain ⟨b', hrun, hb'⟩ := ih hsize hnext (hbuilt e.info)
    refine ⟨b', ?_, by rwa [List.map_cons, List.append_cons]⟩
    rw [List.length_append, List.length_singleton] at hrun
    rw [List.length_cons, enumerateLoop, if_neg hbound]
    simp only [hlink, hsizeByte, hisdir, hparms, e.parseInto_eq, Option.bind_eq_bind,
      Option.bind_some]
    exact hrun

theorem built_enumerateext2Loop {packet rest : List UInt8}
    {entries : List (Entry filebitmap dirbitmap)}
    (hsize : ∀ e ∈ entries, 4 + e.parms.length < 65536)
    {p : ℕ} (hdrop : packet.drop p = entries.flatMap Entry.long ++ rest)
    (h : Built malloc infos b) :
    ∃ b', enumerateext2Loop malloc packet filebitmap dirbitmap entries.length infos.length p b =
        some (0, b') ∧ Built malloc (infos ++ entries.map Entry.info) b' := by
  induction entries generalizing infos p b with
  | nil => exact ⟨b, rfl, by rwa [List.map_nil, List.append_nil]⟩
  | cons e entries ih =>
    obtain ⟨hfits, hsize⟩ := List.forall_mem_cons.mp hsize
    obtain ⟨filebase, heap', -, hlink, hbuilt⟩ :=
      h.link { malloc.garbage infos.length with next := none }
    rw [List.flatMap_cons, List.append_assoc] at hdrop
    obtain ⟨high, low, hbytes⟩ : ∃ high low, toBE 2 (4 + e.parms.length) = [high, low] :=
      ⟨_, _, rfl⟩
    have hlong : e.long = high :: low :: e.isdir :: e.pad :: e.parms := by
      rw [Entry.long, hbytes]
      rfl
    rw [hlong] at hdrop
    have hhigh : packet[p]? = some high := getElem?_of_drop hdrop 0
    have hlow : packet[p + 1]? = some low := getElem?_of_drop hdrop 1
    have hisdir : packet[p + 2]? = some e.isdir := getElem?_of_drop hdrop 2
    have hparms : packet.drop (p + 4) = e.parms ++ (entries.flatMap Entry.long ++ rest) :=
      drop_of_drop hdrop 4
    have hlen : (ntohs [high, low]).toNat = 4 + e.parms.length := by
      rw [← hbytes, ntohs, ofBE_toBE_of_lt hfits, UInt16.toNat_ofNat_of_lt' hfits]
    have hnext : packet.drop (p + (ntohs [high, low]).toNat) =
        entries.flatMap Entry.long ++ rest := by
      rw [hlen, drop_of_drop hdrop]
      exact List.drop_left' (by simp only [List.length_cons]; omega)
    obtain ⟨b', hrun, hb'⟩ := ih hsize hnext (hbuilt e.info)
    refine ⟨b', ?_, by rwa [List.map_cons, List.append_cons]⟩
    rw [List.length_append, List.length_singleton] at hrun
    rw [List.length_cons, enumerateext2Loop]
    simp only [hlink, hhigh, hlow, hisdir, hparms, e.parseInto_eq, Option.bind_eq_bind,
      Option.bind_some]
    exact hrun

/-! ## The handlers -/

/-- The pointer leads to a list of one node for each entry, in order, and to the null pointer behind
them.  Each node holds what `parse_reply_block()` makes of its entry alone. -/
def Holds (heap : Heap) (p : Option ℕ) (entries : List (Entry filebitmap dirbitmap)) : Prop :=
  ∃ l, Linked heap Node.next p l ∧ List.Forall₂ (fun a e => ∃ n, heap a = some n ∧
    parseReplyBlock e.parms (e.isdir ≠ 0) filebitmap.toUInt32 dirbitmap.toUInt32 = some n.info)
      l entries

theorem Built.holds {entries : List (Entry filebitmap dirbitmap)}
    (h : Built malloc (entries.map Entry.info) b) : Holds b.heap b.filebase entries := by
  refine ⟨_, h.linked, List.forall₂_iff_get.mpr ⟨?_, fun i hi hi' => ?_⟩⟩
  · rw [addrs, List.length_map, List.length_range, List.length_map]
  · obtain ⟨n, hn, hinfo⟩ := h.nodes i (entries.get ⟨i, hi'⟩).info (by
      rw [List.getElem?_map, List.getElem?_eq_getElem hi']
      rfl)
    refine ⟨n, ?_, hinfo.symm ▸ (entries.get ⟨i, hi'⟩).parses⟩
    rw [← hn, List.get_eq_getElem]
    simp only [addrs, List.getElem_map, List.getElem_range]

theorem built_nil (malloc : Malloc) (heap : Heap) :
    Built malloc [] { heap, filebase := none, filecur := none } :=
  ⟨linked_none.mpr rfl, rfl, fun i _ h => by rw [List.getElem?_nil] at h; cases h⟩

section Reply

variable {header rest : List UInt8} {entries : List (List UInt8)}

theorem fieldAt_append {before after : List UInt8} {i : ℕ} (h : before.length = i) (width : ℕ) :
    fieldAt (before ++ after) i width = after.take width := by
  rw [fieldAt, List.drop_left' h]

/-- Around the loop: the fields of the header are read, and the list is stored if the loop gets to the
end. -/
theorem enumerateReply_eq
    {loop : UInt16 → UInt16 → ℕ → ℕ → ℕ → Builder → Option (ℤ × Builder)} {heap : Heap}
    (hheader : header.length = 16) (hok : fieldAt header 4 4 = [0, 0, 0, 0])
    (hcount : entries.length < 65536) {b' : Builder}
    (hloop : loop filebitmap dirbitmap entries.length 0 replySize
      { heap, filebase := none, filecur := none } = some (0, b')) :
    enumerateReply loop heap (reply header filebitmap dirbitmap entries rest) =
      some ⟨0, some b'.filebase, b'.heap⟩ := by
  have herror : fieldAt (reply header filebitmap dirbitmap entries rest) 4 4 = [0, 0, 0, 0] := by
    rw [fieldAt, reply, List.drop_append_of_le_length (by omega),
      List.take_append_of_le_length (by rw [List.length_drop]; omega)]
    exact hok
  have hlen : ¬ (reply header filebitmap dirbitmap entries rest).length < replySize := by
    simp only [reply, List.length_append, length_toBE, hheader, replySize]
    omega
  have hfile : ntohs (fieldAt (reply header filebitmap dirbitmap entries rest) 16 2) =
      filebitmap := by
    rw [reply, fieldAt_append hheader, List.take_left' (length_toBE 2 _), ntohs, uint16_toBE]
  have hdir : ntohs (fieldAt (reply header filebitmap dirbitmap entries rest) 18 2) =
      dirbitmap := by
    rw [reply, ← List.append_assoc, fieldAt_append (by rw [List.length_append, hheader, length_toBE]),
      List.take_left' (length_toBE 2 _), ntohs, uint16_toBE]
  have hk : (ntohs (fieldAt (reply header filebitmap dirbitmap entries rest) 20 2)).toNat =
      entries.length := by
    rw [reply, ← List.append_assoc, ← List.append_assoc,
      fieldAt_append (by simp only [List.length_append, hheader, length_toBE]),
      List.take_left' (length_toBE 2 _), ntohs, ofBE_toBE_of_lt hcount,
      UInt16.toNat_ofNat_of_lt' hcount]
  rw [enumerateReply]
  simp only [herror, hfile, hdir, hk, if_neg hlen, hloop, List.length_cons, List.length_nil,
    ne_eq, not_true_eq_false, if_false, Option.bind_eq_bind, Option.bind_some, Option.pure_def]
  rfl

/-- The entries start behind the fixed part. -/
theorem drop_reply (hheader : header.length = 16) :
    (reply header filebitmap dirbitmap entries rest).drop replySize = entries.flatten ++ rest := by
  rw [reply, ← List.append_assoc, ← List.append_assoc, ← List.append_assoc]
  exact List.drop_left' (by simp only [List.length_append, hheader, length_toBE, replySize])

end Reply

/-- **Both handlers decode a reply.**  The list they store has one node for each entry, in order, which
holds what `parse_reply_block()` makes of the entry, and it ends. -/
theorem decoded (malloc : Malloc) (heap : Heap) {header rest : List UInt8}
    {entries : List (Entry filebitmap dirbitmap)} (hheader : header.length = 16)
    (hok : fieldAt header 4 4 = [0, 0, 0, 0]) (hcount : entries.length < 65536) :
    ((∀ e ∈ entries, 2 + e.parms.length < 256) → ∃ p heap',
      afpEnumerateReply malloc heap
        (reply header filebitmap dirbitmap (entries.map Entry.short) rest) =
          some ⟨0, some p, heap'⟩ ∧ Holds heap' p entries) ∧
    ((∀ e ∈ entries, 4 + e.parms.length < 65536) → ∃ p heap',
      afpEnumerateext2Reply malloc heap
        (reply header filebitmap dirbitmap (entries.map Entry.long) rest) =
          some ⟨0, some p, heap'⟩ ∧ Holds heap' p entries) := by
  refine ⟨fun hsize => ?_, fun hsize => ?_⟩
  · obtain ⟨b', hrun, hb'⟩ :=
      built_enumerateLoop hsize (drop_reply hheader) (built_nil malloc heap)
    refine ⟨b'.filebase, b'.heap, enumerateReply_eq hheader hok ?_ ?_, hb'.holds⟩
    · rwa [List.length_map]
    · rwa [List.length_map]
  · obtain ⟨b', hrun, hb'⟩ :=
      built_enumerateext2Loop hsize (drop_reply hheader) (built_nil malloc heap)
    refine ⟨b'.filebase, b'.heap, enumerateReply_eq hheader hok ?_ ?_, hb'.holds⟩
    · rwa [List.length_map]
    · rwa [List.length_map]

/-- A file and a directory with their attributes, the second with a byte of padding. -/
def twoEntries : List (Entry 1 1) :=
  [⟨0, 0, [0x00, 0x01], { AfpFileInfo.zero with attributes := 1 }, rfl⟩,
    ⟨0x80, 0, [0x00, 0x02, 0x00], { AfpFileInfo.zero with isdir := true, attributes := 2 }, rfl⟩]

/-- A heap that grows. -/
def counting : Malloc where
  addr i := i
  garbage _ := ⟨AfpFileInfo.zero, none⟩
  distinct := fun _ _ h => h

theorem decoded_of_twoEntries :
    (∃ p heap', afpEnumerateReply counting (fun _ => none)
      (reply (List.replicate 16 0) 1 1 (twoEntries.map Entry.short) []) =
        some ⟨0, some p, heap'⟩ ∧ Holds heap' p twoEntries) ∧
    (∃ p heap', afpEnumerateext2Reply counting (fun _ => none)
      (reply (List.replicate 16 0) 1 1 (twoEntries.map Entry.long) []) =
        some ⟨0, some p, heap'⟩ ∧ Holds heap' p twoEntries) := by
  have h := @decoded 1 1 counting (fun _ => none) (List.replicate 16 0) [] twoEntries rfl rfl (by decide)
  exact ⟨h.1 (by decide), h.2 (by decide)⟩

end EnumerateReply
end Afpfs
