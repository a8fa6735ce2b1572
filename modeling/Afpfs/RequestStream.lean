import Afpfs.Dsi.Framing
import Afpfs.RequestArrives

/-!
# The requests on the socket

The threads of a client call `dsi_send()` with the messages of their requests, and their packets go
onto one socket.  A server reads packet after packet and makes a request of each.

* `requests_arrive`: what is a request to the server, and that no message is that of two.
* `served_run`: in every run on one connection in which no write accepts a part of a packet, what the
  server reads is the requests of all threads, those of one thread in their order, none of them
  twice and none of them damaged; and of what has arrived up to now the first ones of these.  If all
  calls of a thread have returned 0, none of its requests is missing.
-/

set_option autoImplicit false

namespace Afpfs
namespace RequestWire

open Unicode Codepage Wire Record PathBlock Dsi

/-! ## What a server makes of the bytes -/

/-- The request at the front, if its packet is there completely.  `none` inside is a packet that is
no request. -/
def nextRequest (encoding : PathEncoding) (p : List UInt8) :
    Option (Option (UInt16 × Referred) × List UInt8) :=
  (nextPacket p).map fun (packet, rest) => (decodeRequest encoding packet, rest)

/-- The requests that a server reads. -/
def requestsOn (encoding : PathEncoding) (p : List UInt8) : List (Option (UInt16 × Referred)) :=
  items (nextRequest encoding) p

/-- What it makes of a message alone. -/
def asked (encoding : PathEncoding) (msg : List UInt8) : Option (UInt16 × Referred) :=
  (nextRequest encoding (withLength msg)).bind Prod.fst

/-- A packet is found where it was when there is more behind it. -/
theorem stable_nextPacket : Stable nextPacket := by
  intro p packet rest more h
  rw [nextPacket] at h
  split at h
  · rename_i hread
    split at h
    · rename_i hle
      obtain ⟨rfl, rfl⟩ := Prod.mk.inj (Option.some.inj h)
      rw [nextPacket, read_append hread more]
      simp only [List.length_append]
      rw [if_pos (Nat.le_add_right_of_le hle), List.take_append_of_le_length hle,
        List.drop_append_of_le_length hle]
    · cases h
  · cases h

theorem stable_nextRequest (encoding : PathEncoding) : Stable (nextRequest encoding) := by
  intro p request rest more h
  obtain ⟨found, hfound, heq⟩ := Option.map_eq_some_iff.mp h
  obtain ⟨packet, rest'⟩ := found
  obtain ⟨rfl, rfl⟩ := Prod.mk.inj heq
  rw [nextRequest, stable_nextPacket p packet rest' more hfound]
  rfl

theorem nextRequest_nil (encoding : PathEncoding) : nextRequest encoding [] = none := rfl

/-! ## Messages that arrive -/

section Arriving

variable {c : Sender} {r : Request} {msg : List UInt8}

/-- What arrives is what the server makes of the message. -/
theorem Sender.Arrives.asked (h : c.Arrives r) (hmsg : c.message r = some msg) :
    asked c.encoding msg = some (c.requestid, c.reference r, onWire r) := by
  obtain ⟨msg', packet, hmsg', hpacket, hrequest⟩ := h
  obtain rfl := Option.some.inj (hmsg.symm.trans hmsg')
  rw [RequestWire.asked, nextRequest, hpacket]
  exact hrequest

/-- **A message that arrives is read whatever is behind it.** -/
theorem Sender.Arrives.reads (h : c.Arrives r) (hmsg : c.message r = some msg) :
    Reads (nextRequest c.encoding) id (fun p => (nextRequest c.encoding p).bind Prod.fst)
      (withLength msg) := by
  obtain ⟨msg', packet, hmsg', hpacket, hrequest⟩ := h
  obtain rfl := Option.some.inj (hmsg.symm.trans hmsg')
  have hnext : nextRequest c.encoding (withLength msg) =
      some (decodeRequest c.encoding packet, []) := by
    rw [nextRequest, hpacket]
    rfl
  constructor
  · intro hnil
    have hempty : withLength msg = [] := hnil
    rw [hempty] at hpacket
    cases hpacket
  · intro rest
    have hmore := stable_nextRequest c.encoding _ _ _ rest hnext
    rw [List.nil_append] at hmore
    exact hmore.trans (by rw [hnext]; rfl)

/-- The packet of a request arrives if and only if the request fits, and no message is that of two
requests. -/
theorem requests_arrive {encoding : PathEncoding} (hencoding : encoding ≠ .kFPShortName) :
    (∀ (c : Sender) (r : Request), c.encoding = encoding → c.address % 2 = 0 → Typed r →
      (c.Arrives r ↔ Fits encoding r)) ∧
    ∀ (c c' : Sender) (r r' : Request), c.encoding = encoding → c'.encoding = encoding →
      c.address % 2 = 0 → c'.address % 2 = 0 → Typed r → Typed r' → Fits encoding r →
      Fits encoding r' → c.message r = c'.message r' →
        c.requestid = c'.requestid ∧ c.reference r = c'.reference r' ∧ onWire r = onWire r' := by
  constructor
  · intro c r henc haddress htyped
    subst henc
    exact arrives_iff hencoding haddress r htyped
  · intro c c' r r' henc henc' haddress haddress' htyped htyped' hfits hfits' hsame
    have harrives := (arrives_iff (henc.symm ▸ hencoding) haddress r htyped).mpr (henc.symm ▸ hfits)
    have harrives' :=
      (arrives_iff (henc'.symm ▸ hencoding) haddress' r' htyped').mpr (henc'.symm ▸ hfits')
    obtain ⟨msg, hmsg⟩ : ∃ msg, c.message r = some msg :=
      Exists.elim harrives fun msg h => Exists.elim h fun _ h => ⟨msg, h.1⟩
    have hasked := harrives.asked hmsg
    have hasked' := harrives'.asked (hsame.symm.trans hmsg)
    rw [henc] at hasked
    rw [henc', hasked] at hasked'
    obtain ⟨hid, hreferred⟩ := Prod.mk.inj (Option.some.inj hasked')
    exact ⟨hid, Prod.mk.inj hreferred⟩

end Arriving

/-- A sender on a server for UTF-8 names. -/
def Sender.plain : Sender where
  encoding := .kFPUTF8Name
  volid := 1
  dtrefnum := 0
  requestid := 1
  garbage := fun _ => 0
  address := 0

/-- And with the next request id. -/
def Sender.second : Sender := { Sender.plain with requestid := 2 }

/-- A file is deleted, and the length of a large file is not set. -/
theorem requests_arrive_of_delete :
    Sender.plain.Arrives (.delete 2 [0x61]) ∧
    ¬ Sender.plain.Arrives (.setForkParms 1 kFPExtDataForkLenBit 5) ∧
    ∀ r, Typed r → Fits .kFPUTF8Name r → Sender.plain.message r = Sender.plain.message (.delete 2 [0x61]) →
      onWire r = .delete 2 [0x61] := by
  have htyped : Typed (.delete 2 [0x61]) := (by decide : (0 : UInt8) ∉ ([0x61] : List UInt8))
  have hfits : Fits .kFPUTF8Name (.delete 2 [0x61]) := (by decide : 1 ≤ 253)
  have hlong : ¬ Fits .kFPUTF8Name (.setForkParms 1 kFPExtDataForkLenBit 5) := fun h => by
    have hzero : (5 : UInt64) = 0 := h.2
    cases hzero
  obtain ⟨harrives, hsame⟩ := @requests_arrive .kFPUTF8Name (by decide)
  refine ⟨(harrives Sender.plain _ rfl rfl htyped).mpr hfits, fun h => ?_, fun r htyped' hfits' hmsg => ?_⟩
  · exact hlong ((harrives Sender.plain (.setForkParms 1 kFPExtDataForkLenBit 5) rfl rfl trivial).mp h)
  · exact (hsame Sender.plain Sender.plain r (.delete 2 [0x61]) rfl rfl rfl rfl htyped' htyped hfits'
      hfits hmsg).2.2

end RequestWire

namespace Dsi
namespace Sending

open Unicode Codepage Record RequestWire Interaction Transition

/-! ## What the threads ask for -/

/-- The message of a call of thread `t`. -/
def callOf (t : ℕ) : Action → Option (List UInt8)
  | .call t' msg _ _ => if t' = t then some msg else none
  | _ => none

/-- A thread with the packet that an action wrote for it. -/
def written : Action → Option (ℕ × List UInt8)
  | .send t ⟨.write msg, result⟩ => (acceptedPacket msg result).map fun packet => (t, packet)
  | _ => none

/-- What thread `t` asks for, in order. -/
def requestsOf (encoding : PathEncoding) (t : ℕ) (as : List Action) : List (UInt16 × Referred) :=
  (as.filterMap (callOf t)).filterMap (asked encoding)

/-- The calls of thread `t` are over and have succeeded. -/
def Succeeds (t : ℕ) (as : List Action) : Prop := ∀ rc, Action.ret t rc ∈ as → rc = 0

theorem packet_eq_written (a : Action) : a.packet = (written a).map Prod.snd := by
  cases a with
  | send t ev =>
    obtain ⟨e, answer⟩ := ev
    cases e with
    | write msg =>
      cases answer with
      | accepted n => rfl
      | failed e => rfl
    | _ => rfl
  | _ => rfl

theorem packetOf_eq_written (t : ℕ) (a : Action) :
    a.packetOf t = ((written a).filter fun w => w.1 = t).map Prod.snd := by
  cases a with
  | send t' ev =>
    obtain ⟨e, answer⟩ := ev
    cases e with
    | write msg =>
      by_cases ht : t' = t
      · subst ht
        cases answer with
        | accepted n =>
          simp [Action.packetOf, Action.thread, Action.packet, acceptedPacket, written,
            Option.filter]
        | failed e =>
          simp [Action.packetOf, Action.thread, Action.packet, acceptedPacket, written,
            Option.filter]
      · cases answer with
        | accepted n => simp [Action.packetOf, Action.thread, acceptedPacket, written, Option.filter, ht]
        | failed e => simp [Action.packetOf, Action.thread, acceptedPacket, written, Option.filter, ht]
    | _ => simp [Action.packetOf, Action.packet, written]
  | _ => simp [Action.packetOf, Action.packet, written]

/-! ## The packets of one thread -/

/-- What thread `t` has written while it is in no call: packets of its calls, in their order. -/
structure Finished (t : ℕ) (as : List Action) : Prop where
  sublist : (as.filterMap (Action.packetOf t)).Sublist ((as.filterMap (callOf t)).map withLength)
  all : Succeeds t as →
    as.filterMap (Action.packetOf t) = (as.filterMap (callOf t)).map withLength

/-- What it has written at any time: in a call, it has written what it had before, and the packet of
the call or not. -/
def Orderly (t : ℕ) (as : List Action) (s : Client) : Prop :=
  match s.calls t with
  | none => Finished t as
  | some c => ∃ as₁ msg wait subcommand as₂, as = as₁ ++ .call t msg wait subcommand :: as₂ ∧
      Finished t as₁ ∧ as₂.filterMap (callOf t) = [] ∧ Writing t msg as₂ s c

theorem finished_append_other {t : ℕ} {as : List Action} {a : Action} (h : Finished t as)
    (ha : a.thread ≠ some t) (hcall : callOf t a = none) : Finished t (as ++ [a]) := by
  have hpacket : a.packetOf t = none := packetOf_other ha
  constructor
  · simpa [List.filterMap_append, hpacket, hcall] using h.sublist
  · intro hall
    have hbefore : Succeeds t as := fun rc hmem => hall rc (List.mem_append_left _ hmem)
    simpa [List.filterMap_append, hpacket, hcall] using h.all hbefore

theorem callOf_other {t : ℕ} {a : Action} (ha : a.thread ≠ some t) : callOf t a = none := by
  cases a with
  | call t' msg wait subcommand => exact if_neg fun h => ha (congrArg some h)
  | _ => rfl

theorem orderly_of_none {t : ℕ} {as : List Action} {s : Client} (hnone : s.calls t = none)
    (h : Finished t as) : Orderly t as s := by
  rw [Orderly, hnone]
  exact h

theorem orderly_of_writing {t : ℕ} {as₁ as₂ : List Action} {s : Client} {c : Call}
    {msg : List UInt8} (wait : ℤ) (subcommand : UInt8) (h : Finished t as₁)
    (hnocall : as₂.filterMap (callOf t) = []) (hwriting : Writing t msg as₂ s c) :
    Orderly t (as₁ ++ .call t msg wait subcommand :: as₂) s := by
  rw [Orderly, hwriting.call]
  exact ⟨as₁, msg, wait, subcommand, as₂, rfl, h, hnocall, hwriting⟩

section Call

variable {t : ℕ} {as₁ as₂ : List Action} {msg : List UInt8} {wait : ℤ} {subcommand : UInt8}

theorem packets_call : (as₁ ++ .call t msg wait subcommand :: as₂).filterMap (Action.packetOf t) =
    as₁.filterMap (Action.packetOf t) ++ as₂.filterMap (Action.packetOf t) := by
  have hnone : (Action.call t msg wait subcommand).packetOf t = none := by
    simp [Action.packetOf, Action.packet]
  rw [List.filterMap_append, List.filterMap_cons_none hnone]

theorem calls_call : (as₁ ++ .call t msg wait subcommand :: as₂).filterMap (callOf t) =
    as₁.filterMap (callOf t) ++ msg :: as₂.filterMap (callOf t) := by
  have hsome : callOf t (.call t msg wait subcommand) = some msg := if_pos rfl
  rw [List.filterMap_append, List.filterMap_cons_some hsome]

/-- What a thread has written after a call in which it has written this. -/
theorem finished_of_call {packet : Option (List UInt8)} (h : Finished t as₁)
    (hnocall : as₂.filterMap (callOf t) = [])
    (hpackets : as₂.filterMap (Action.packetOf t) = packet.toList)
    (hown : ∀ m, packet = some m → m = withLength msg)
    (hall : Succeeds t as₂ → packet = some (withLength msg)) :
    Finished t (as₁ ++ .call t msg wait subcommand :: as₂) := by
  have hsublist : packet.toList.Sublist [withLength msg] := by
    cases packet with
    | none => exact List.nil_sublist _
    | some m =>
      rw [hown m rfl]
      exact List.Sublist.refl _
  constructor
  · rw [packets_call, calls_call, hpackets, hnocall, List.map_append]
    exact h.sublist.append hsublist
  · intro hzero
    have hbefore : Succeeds t as₁ := fun rc hmem => hzero rc (List.mem_append_left _ hmem)
    have hafter : Succeeds t as₂ := fun rc hmem =>
      hzero rc (List.mem_append_right _ (List.mem_cons_of_mem _ hmem))
    rw [packets_call, calls_call, hpackets, hnocall, List.map_append, h.all hbefore, hall hafter]
    rfl

end Call

/-- In a call, a thread starts no other. -/
theorem callOf_eq_none {t : ℕ} {s s' : Client} {c : Call} {a : Action} (hcall : s.calls t = some c)
    (hstep : Step s a s') : callOf t a = none := by
  cases hstep with
  | @call t' msg wait subcommand hnone =>
    refine if_neg fun h => ?_
    rw [h, hcall] at hnone
    cases hnone
  | _ => rfl

/-- **A step keeps the order.** -/
theorem orderly_step {t : ℕ} {as : List Action} {s s' : Client} {a : Action}
    (h : Orderly t as s) (hs : s.WellFormed) (hstep : Step s a s') : Orderly t (as ++ [a]) s' := by
  cases hcalls : s.calls t with
  | some c =>
    rw [Orderly, hcalls] at h
    obtain ⟨as₁, msg, wait, subcommand, as₂, rfl, hfinished, hnocall, hwriting⟩ := h
    by_cases hret : ∃ rc, a = .ret t rc
    · -- the call is over, and has written its packet if it returns 0
      obtain ⟨rc, rfl⟩ := hret
      cases hstep with
      | ret hcall hprog =>
        obtain rfl := Option.some.inj (hcalls.symm.trans hcall)
        obtain ⟨-, packet, hpackets, hwrites, hown⟩ := hwriting
        rw [hprog] at hwrites
        refine orderly_of_none (Function.update_self ..) ?_
        rw [List.append_assoc, List.cons_append]
        have hret : callOf t (.ret t rc) = none := rfl
        have hpacket : (Action.ret t rc).packetOf t = none := by
          simp [Action.packetOf, Action.packet]
        refine finished_of_call hfinished ?_ ?_ hown fun hzero => ?_
        · rw [List.filterMap_append, hnocall, List.filterMap_cons_none hret]
          rfl
        · rw [List.filterMap_append, hpackets, List.filterMap_cons_none hpacket]
          exact List.append_nil _
        · exact hwrites (hzero rc (List.mem_append_right _ List.mem_cons_self))
    · obtain ⟨c', hc'⟩ := writing_step hwriting hs hstep fun rc heq => hret ⟨rc, heq⟩
      have hnone := callOf_eq_none hcalls hstep
      rw [List.append_assoc, List.cons_append]
      refine orderly_of_writing wait subcommand hfinished ?_ hc'
      rw [List.filterMap_append, hnocall, List.filterMap_cons_none hnone]
      rfl
  | none =>
    rw [Orderly, hcalls] at h
    by_cases ha : a.thread = some t
    · cases hstep with
      | @call t' msg wait subcommand hnone =>
        obtain rfl := Option.some.inj ha
        exact orderly_of_writing wait subcommand h rfl ⟨Function.update_self .., none, rfl,
          dsiSend_writes msg wait subcommand, fun _ h => absurd h (by simp)⟩
      | send hcall =>
        obtain rfl := Option.some.inj ha
        cases hcalls.symm.trans hcall
      | ret hcall =>
        obtain rfl := Option.some.inj ha
        cases hcalls.symm.trans hcall
      | _ => cases ha
    · rw [Orderly, (step_other hs hstep ha).1, hcalls]
      exact finished_append_other h ha (callOf_other ha)

/-- **Every run keeps the order.** -/
theorem orderly_run {t : ℕ} {as bs : List Action} {s s' : Client} (hrun : Run Step s bs s')
    (h : Orderly t as s) (hs : s.WellFormed) : Orderly t (as ++ bs) s' := by
  induction hrun generalizing as with
  | nil s => rwa [List.append_nil]
  | @cons s s₁ s' a bs hstep hrest ih =>
    have hnext := ih (orderly_step h hs hstep) (wellFormed_step hstep hs)
    rwa [List.append_assoc] at hnext

/-- What a thread has written is in the order of its calls, and none is missing when all of them have
returned 0. -/
theorem Orderly.packets {t : ℕ} {as : List Action} {s : Client} (h : Orderly t as s) :
    (as.filterMap (Action.packetOf t)).Sublist ((as.filterMap (callOf t)).map withLength) ∧
      (s.calls t = none → Succeeds t as →
        as.filterMap (Action.packetOf t) = (as.filterMap (callOf t)).map withLength) := by
  cases hcalls : s.calls t with
  | none =>
    rw [Orderly, hcalls] at h
    exact ⟨h.sublist, fun _ => h.all⟩
  | some c =>
    rw [Orderly, hcalls] at h
    obtain ⟨as₁, msg, wait, subcommand, as₂, rfl, hfinished, hnocall, -, packet, hpackets, -, hown⟩ := h
    refine ⟨?_, nofun⟩
    have hsublist : packet.toList.Sublist [withLength msg] := by
      cases packet with
      | none => exact List.nil_sublist _
      | some m =>
        rw [hown m rfl]
        exact List.Sublist.refl _
    rw [packets_call, calls_call, hpackets, hnocall, List.map_append]
    exact hfinished.sublist.append hsublist

/-! ## What the server reads -/

/-- The messages that are sent are those of requests that fit. -/
def SendsRequests (encoding : PathEncoding) (as : List Action) : Prop :=
  ∀ t msg wait subcommand, Action.call t msg wait subcommand ∈ as → ∃ (c : Sender) (r : Request),
    c.encoding = encoding ∧ c.address % 2 = 0 ∧ Typed r ∧ Fits encoding r ∧ c.message r = some msg

/-- What is expected of the socket. -/
structure Served (encoding : PathEncoding) (as : List Action) (s : Client) : Prop where
  /-- The server reads requests of threads: those of one thread in the order of its calls, none of
  them twice, and none is missing when all calls have returned 0.  Of a part of the stream it reads
  the first ones. -/
  order : ∃ order : List (ℕ × (UInt16 × Referred)),
    requestsOn encoding s.socket = order.map (fun o => some o.2) ∧
    (∀ p, p <+: s.socket → requestsOn encoding p <+: order.map fun o => some o.2) ∧
    ∀ t, ((order.filter fun o => o.1 = t).map Prod.snd).Sublist (requestsOf encoding t as) ∧
      (s.calls t = none → Succeeds t as →
        (order.filter fun o => o.1 = t).map Prod.snd = requestsOf encoding t as)
  /-- What is read of a message is the request that it was built for. -/
  means : ∀ (c : Sender) (r : Request) (msg : List UInt8), c.encoding = encoding →
    c.address % 2 = 0 → Typed r → Fits encoding r → c.message r = some msg →
      asked encoding msg = some (c.requestid, c.reference r, onWire r)

section Order

variable {α β : Type*} (f : α → Option β) {ws : List (ℕ × α)}

theorem map_order (h : ∀ w ∈ ws, ∃ x, f w.2 = some x) :
    (ws.filterMap fun w => (f w.2).map fun x => (w.1, x)).map (fun o => some o.2) =
      ws.map fun w => f w.2 := by
  induction ws with
  | nil => rfl
  | cons w ws ih =>
    obtain ⟨x, hx⟩ := h w List.mem_cons_self
    have hrest := ih fun w hmem => h w (List.mem_cons_of_mem _ hmem)
    rw [List.filterMap_cons_some (by rw [hx]; rfl), List.map_cons, List.map_cons, hrest, hx]

theorem filter_order (t : ℕ) :
    ((ws.filterMap fun w => (f w.2).map fun x => (w.1, x)).filter fun o => o.1 = t).map Prod.snd =
      ((ws.filter fun w => w.1 = t).map Prod.snd).filterMap f := by
  induction ws with
  | nil => rfl
  | cons w ws ih =>
    cases hf : f w.2 with
    | none =>
      rw [List.filterMap_cons_none (by rw [hf]; rfl), ih]
      by_cases ht : w.1 = t
      · rw [List.filter_cons_of_pos (by simpa using ht), List.map_cons, List.filterMap_cons_none hf]
      · rw [List.filter_cons_of_neg (by simpa using ht)]
    | some x =>
      rw [List.filterMap_cons_some (by rw [hf]; rfl)]
      by_cases ht : w.1 = t
      · rw [List.filter_cons_of_pos (by simpa using ht), List.filter_cons_of_pos (by simpa using ht),
          List.map_cons, List.map_cons, List.filterMap_cons_some hf, ih]
      · rw [List.filter_cons_of_neg (by simpa using ht), List.filter_cons_of_neg (by simpa using ht),
          ih]

end Order

theorem map_written (as : List Action) :
    (as.filterMap written).map Prod.snd = as.filterMap Action.packet := by
  rw [List.map_filterMap]
  exact List.filterMap_congr fun a _ => (packet_eq_written a).symm

theorem filter_written (t : ℕ) (as : List Action) :
    ((as.filterMap written).filter fun w => w.1 = t).map Prod.snd =
      as.filterMap (Action.packetOf t) := by
  rw [List.filter_filterMap, List.map_filterMap]
  exact List.filterMap_congr fun a _ => (packetOf_eq_written t a).symm

/-- A message of a request that fits is read as the request. -/
theorem asked_of_fits {encoding : PathEncoding} (hencoding : encoding ≠ .kFPShortName) {c : Sender}
    {r : Request} {msg : List UInt8} (henc : c.encoding = encoding) (haddress : c.address % 2 = 0)
    (htyped : Typed r) (hfits : Fits encoding r) (hmsg : c.message r = some msg) :
    asked encoding msg = some (c.requestid, c.reference r, onWire r) ∧
      Reads (nextRequest encoding) id (fun p => (nextRequest encoding p).bind Prod.fst)
        (withLength msg) := by
  subst henc
  have harrives := (arrives_iff hencoding haddress r htyped).mpr hfits
  exact ⟨harrives.asked hmsg, harrives.reads hmsg⟩

/-- What is written is the packet of a call. -/
theorem written_of_call {as : List Action} {s : Client} (horderly : ∀ t, Orderly t as s)
    {w : ℕ × List UInt8} (hw : w ∈ as.filterMap written) :
    ∃ msg wait subcommand, Action.call w.1 msg wait subcommand ∈ as ∧ w.2 = withLength msg := by
  have hmem : w.2 ∈ as.filterMap (Action.packetOf w.1) := by
    rw [← filter_written]
    exact List.mem_map_of_mem (List.mem_filter.mpr ⟨hw, by simp⟩)
  obtain ⟨msg, hmsg, heq⟩ := List.mem_map.mp ((horderly w.1).packets.1.subset hmem)
  obtain ⟨a, ha, hcall⟩ := List.mem_filterMap.mp hmsg
  cases a with
  | call t msg' wait subcommand =>
    rw [callOf] at hcall
    split at hcall
    · rename_i ht
      obtain rfl := Option.some.inj hcall
      exact ⟨msg', wait, subcommand, ht ▸ ha, heq.symm⟩
    · cases hcall
  | _ => cases hcall

/-- **The server reads what the threads ask for.** -/
theorem served_run {encoding : PathEncoding} (hencoding : encoding ≠ .kFPShortName)
    {as : List Action} {s : Client} (hrun : Run (Guarded WholeWrites Step) .init as s)
    (hone : ∀ disconnected, Action.reconnected disconnected ∉ as)
    (hrequests : SendsRequests encoding as) : Served encoding as s := by
  have horderly (t : ℕ) : Orderly t as s :=
    @orderly_run t [] as _ _ hrun.ofGuarded
      (orderly_of_none rfl ⟨List.nil_sublist _, fun _ => rfl⟩) wellFormed_init
  have hread (w : ℕ × List UInt8) (hw : w ∈ as.filterMap written) :
      (∃ x, (nextRequest encoding w.2).bind Prod.fst = some x) ∧
        Reads (nextRequest encoding) id (fun p => (nextRequest encoding p).bind Prod.fst) w.2 := by
    obtain ⟨msg, wait, subcommand, hcall, heq⟩ := written_of_call horderly hw
    obtain ⟨c, r, henc, haddress, htyped, hfits, hmsg⟩ := hrequests _ _ _ _ hcall
    obtain ⟨hasked, hreads⟩ := asked_of_fits hencoding henc haddress htyped hfits hmsg
    rw [heq]
    exact ⟨⟨_, hasked⟩, hreads⟩
  have hsocket : s.socket = ((as.filterMap written).map Prod.snd).flatMap id := by
    rw [map_written, List.flatMap_id]
    exact socket_run hrun hone
  have hreads (p : List UInt8) (hp : p ∈ (as.filterMap written).map Prod.snd) :
      Reads (nextRequest encoding) id (fun p => (nextRequest encoding p).bind Prod.fst) p := by
    obtain ⟨w, hw, rfl⟩ := List.mem_map.mp hp
    exact (hread w hw).2
  have hmap := map_order (fun p => (nextRequest encoding p).bind Prod.fst) fun w hw =>
    (hread w hw).1
  constructor
  · refine ⟨(as.filterMap written).filterMap fun w =>
      ((nextRequest encoding w.2).bind Prod.fst).map fun x => (w.1, x), ?_, fun p hp => ?_,
      fun t => ?_⟩
    · rw [requestsOn, hsocket, items_flatMap hreads (nextRequest_nil encoding), hmap, List.map_map]
      rfl
    · rw [hsocket] at hp
      have hprefix := items_prefix hreads (stable_nextRequest encoding) (nextRequest_nil encoding) hp
      rw [List.map_map] at hprefix
      rw [hmap]
      exact hprefix
    · obtain ⟨hsublist, hall⟩ := (horderly t).packets
      have hasked : requestsOf encoding t as = ((as.filterMap (callOf t)).map withLength).filterMap
          fun p => (nextRequest encoding p).bind Prod.fst := by
        rw [List.filterMap_map]
        rfl
      rw [filter_order fun p => (nextRequest encoding p).bind Prod.fst, filter_written, hasked]
      exact ⟨hsublist.filterMap _, fun hnone hzero => by rw [hall hnone hzero]⟩
  · intro c r msg henc haddress htyped hfits hmsg
    exact (asked_of_fits hencoding henc haddress htyped hfits hmsg).1

/-- Two threads that each close a fork, and whose packets are written in the other order. -/
theorem served_run_of_twoThreads : ∃ as s, s.socket =
    withLength (Sender.second.afpClosefork 7) ++
      withLength (Sender.plain.afpClosefork 1) ∧ Served .kFPUTF8Name as s := by
  have hrun : ∃ as s, Run (Guarded WholeWrites Step) .init as s ∧
      (∀ disconnected, Action.reconnected disconnected ∉ as) ∧
      SendsRequests .kFPUTF8Name as ∧ s.socket =
        withLength (Sender.second.afpClosefork 7) ++
          withLength (Sender.plain.afpClosefork 1) := by
    refine ⟨[.setup, .call 1 (Sender.plain.afpClosefork 1) 0 4, .send 1 ⟨.stillValid, true⟩,
      .send 1 ⟨.fd, (3 : ℤ)⟩, .send 1 ⟨.malloc, some 8⟩, .send 1 ⟨.lastrequestid, (1 : UInt16)⟩,
      .send 1 ⟨.fill 8 1 4 0, ()⟩, .setup,
      .call 2 (Sender.second.afpClosefork 7) 0 4, .send 2 ⟨.stillValid, true⟩,
      .send 2 ⟨.fd, (3 : ℤ)⟩, .send 2 ⟨.malloc, some 9⟩, .send 2 ⟨.lastrequestid, (2 : UInt16)⟩,
      .send 2 ⟨.fill 9 2 4 0, ()⟩, .send 1 ⟨.enqueue 8, ()⟩, .send 2 ⟨.enqueue 9, ()⟩,
      .send 1 ⟨.initWaiting 8, ()⟩, .send 2 ⟨.initWaiting 9, ()⟩, .send 1 ⟨.disconnected, false⟩,
      .send 2 ⟨.disconnected, false⟩, .send 2 ⟨.lockSend, ()⟩,
      .send 2 ⟨.write (withLength (Sender.second.afpClosefork 7)),
        WriteResult.accepted 20⟩, .send 2 ⟨.unlockSend, ()⟩, .send 1 ⟨.lockSend, ()⟩,
      .send 1 ⟨.write (withLength (Sender.plain.afpClosefork 1)), WriteResult.accepted 20⟩], _,
      .consGuarded .setup trivial <| .consGuarded (.call rfl) trivial <|
      .consGuarded (.send rfl rfl rfl) trivial <| .consGuarded (.send rfl rfl trivial) trivial <|
      .consGuarded (.send rfl rfl ?fresh) trivial <|
      .consGuarded (.send rfl rfl rfl) trivial <| .consGuarded (.send rfl rfl trivial) trivial <|
      .consGuarded .setup trivial <| .consGuarded (.call rfl) trivial <|
      .consGuarded (.send rfl rfl rfl) trivial <| .consGuarded (.send rfl rfl trivial) trivial <|
      .consGuarded (.send rfl rfl ?fresh') trivial <|
      .consGuarded (.send rfl rfl rfl) trivial <| .consGuarded (.send rfl rfl trivial) trivial <|
      .consGuarded (.send rfl rfl trivial) trivial <| .consGuarded (.send rfl rfl trivial) trivial <|
      .consGuarded (.send rfl rfl trivial) trivial <| .consGuarded (.send rfl rfl trivial) trivial <|
      .consGuarded (.send rfl rfl rfl) trivial <| .consGuarded (.send rfl rfl rfl) trivial <|
      .consGuarded (.send rfl rfl rfl) trivial <| .consGuarded (.send rfl rfl ?part') ?whole' <|
      .consGuarded (.send rfl rfl trivial) trivial <| .consGuarded (.send rfl rfl rfl) trivial <|
      .consGuarded (.send rfl rfl ?part) ?whole <| .nil _, by simp, ?sends, by decide⟩
    case fresh | fresh' =>
      rintro h ⟨⟩
      rfl
    case part | part' =>
      rintro n ⟨⟩
      exact ⟨by decide, fun _ => by decide⟩
    case whole | whole' => exact Nat.le_refl 20
    case sends =>
      intro t msg wait subcommand hmem
      simp only [List.mem_cons, List.not_mem_nil, reduceCtorEq, or_false, false_or,
        Action.call.injEq] at hmem
      rcases hmem with ⟨rfl, rfl, rfl, rfl⟩ | ⟨rfl, rfl, rfl, rfl⟩
      · exact ⟨Sender.plain, .closeFork 1, rfl, rfl, trivial, trivial, rfl⟩
      · exact ⟨Sender.second, .closeFork 7, rfl, rfl, trivial, trivial, rfl⟩
  obtain ⟨as, s, hrun, hone, hrequests, hsocket⟩ := hrun
  exact ⟨as, s, hsocket, served_run (by decide) hrun hone hrequests⟩

end Sending
end Dsi
end Afpfs
