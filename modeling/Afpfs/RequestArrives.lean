import Afpfs.RequestWire
import Mathlib.Tactic.SplitIfs

/-!
# Requests that arrive

A request arrives if and only if it fits: `arrives_iff`.  There is one argument for each form of
message.

* `arrives_of_packet`: a record alone.
* `arrives_of_withPath`: a record and a name.
* `arrives_of_withData`: a record and the data to write.
* `arrives_of_even`: a record, a name, and parameters or a comment at the next even position.
-/

set_option autoImplicit false

namespace Afpfs
namespace RequestWire

open Unicode Codepage Memory Wire Record PathBlock Dsi

/-! ## Packets -/

/-- A header with the length of what is behind it. -/
theorem withLength_header (requestid : UInt16) (command : UInt8) (dataOffset : ℕ)
    (body : List UInt8) : withLength (dsiSetupHeader requestid command dataOffset ++ body) =
      bytes [(1, 0), (1, command.toNat), (2, requestid.toNat), (4, dataOffset), (4, body.length),
        (4, 0)] ++ body := by
  obtain ⟨front, hfront⟩ : ∃ front, front = toBE 1 0 ++ (toBE 1 command.toNat ++
      (toBE 2 requestid.toNat ++ toBE 4 dataOffset)) := ⟨_, rfl⟩
  have hlength : front.length = 8 := by simp [hfront]
  have hmsg : dsiSetupHeader requestid command dataOffset ++ body =
      front ++ (toBE 4 0 ++ (toBE 4 0 ++ body)) := by
    simp only [dsiSetupHeader, bytes, hfront, List.append_assoc, List.append_nil]
  have hsize : (front ++ (toBE 4 0 ++ (toBE 4 0 ++ body))).length - headerSize = body.length := by
    simp only [List.length_append, length_toBE, hlength, headerSize]
    omega
  have hdrop : (front ++ (toBE 4 0 ++ (toBE 4 0 ++ body))).drop 12 = toBE 4 0 ++ body := by
    rw [← List.append_assoc front]
    exact List.drop_left' (by simp [hlength])
  rw [hmsg, withLength, hsize, hdrop, List.take_left' hlength, hfront]
  simp only [bytes, List.append_assoc, List.nil_append]

/-- A packet at the front. -/
theorem nextPacket_bytes {flags command : UInt8} {requestid : UInt16} {dataOffset : ℕ}
    {body : List UInt8} (hoffset : dataOffset < 2 ^ 32) (hlength : body.length < 2 ^ 32)
    (rest : List UInt8) :
    nextPacket (bytes [(1, flags.toNat), (1, command.toNat), (2, requestid.toNat), (4, dataOffset),
        (4, body.length), (4, 0)] ++ (body ++ rest)) =
      some (⟨flags, command, requestid, dataOffset, body⟩, rest) := by
  have hread := read_bytes [(1, flags.toNat), (1, command.toNat), (2, requestid.toNat),
    (4, dataOffset), (4, body.length), (4, 0)] (body ++ rest)
  have hoff : dataOffset % 256 ^ 4 = dataOffset := Nat.mod_eq_of_lt hoffset
  have hlen : body.length % 256 ^ 4 = body.length := Nat.mod_eq_of_lt hlength
  simp only [List.map_cons, List.map_nil, hoff, hlen] at hread
  have hle : body.length ≤ (body ++ rest).length := by
    rw [List.length_append]
    exact Nat.le_add_right ..
  rw [nextPacket, hread]
  simp only [if_pos hle, List.take_left, List.drop_left]
  simp

/-- A packet that is read completely is the one that was sent, and not too long. -/
theorem nextPacket_withLength_iff {requestid : UInt16} {command : UInt8} {dataOffset : ℕ}
    {body : List UInt8} (hoffset : dataOffset < 2 ^ 32) (packet : Packet) :
    nextPacket (withLength (dsiSetupHeader requestid command dataOffset ++ body)) =
        some (packet, []) ↔
      body.length < 2 ^ 32 ∧ packet = ⟨0, command, requestid, dataOffset, body⟩ := by
  rw [withLength_header]
  by_cases hlength : body.length < 2 ^ 32
  · have h := @nextPacket_bytes 0 command requestid dataOffset body hoffset hlength []
    rw [List.append_nil] at h
    have hzero : (0 : UInt8).toNat = 0 := rfl
    rw [hzero] at h
    rw [h]
    constructor
    · intro heq
      exact ⟨hlength, (Prod.mk.inj (Option.some.inj heq)).1.symm⟩
    · rintro ⟨-, rfl⟩
      rfl
  · -- the length is cut, and so something is left
    refine ⟨fun h => ?_, fun h => absurd h.1 hlength⟩
    have hread := read_bytes [(1, 0), (1, command.toNat), (2, requestid.toNat),
      (4, dataOffset), (4, body.length), (4, 0)] body
    simp only [List.map_cons, List.map_nil] at hread
    rw [nextPacket, hread] at h
    have hmod : body.length % 256 ^ 4 < 256 ^ 4 := Nat.mod_lt _ (by decide)
    have hle : body.length % 256 ^ 4 ≤ body.length := Nat.mod_le ..
    simp only [if_pos hle] at h
    have hrest := (Prod.mk.inj (Option.some.inj h)).2
    have hzero : body.length - body.length % 256 ^ 4 = 0 := by
      rw [← List.length_drop, hrest, List.length_nil]
    have hbig : 2 ^ 32 ≤ body.length := Nat.le_of_not_lt hlength
    omega

/-- The command of a record. -/
theorem decodeRequest_bytes {encoding : PathEncoding} {packet : Packet} {function : AFPFunction}
    {fields : List (ℕ × ℕ)} {tail : List UInt8}
    (hpayload : packet.payload = bytes ((1, code function) :: fields) ++ tail) :
    decodeRequest encoding packet =
      (decodeBody encoding packet (bytes fields ++ tail) function).map
        fun referred => (packet.requestid, referred) := by
  have hone : toBE 1 (code function) = [UInt8.ofNat (code function)] := rfl
  have hcode : (UInt8.ofNat (code function)).toNat = code function := by
    cases function <;> rfl
  rw [decodeRequest, hpayload, bytes, hone]
  simp only [List.cons_append, List.nil_append, hcode, ofCode_code, Option.bind_eq_bind,
    Option.bind_some, Option.pure_def]
  cases decodeBody encoding packet (bytes fields ++ tail) function <;> rfl

section Arrives

variable {c : Sender} {r : Request}

/-- **A message arrives** if and only if it is not too long and its body is decoded. -/
theorem arrives_of_message {command : UInt8} {dataOffset : ℕ} {function : AFPFunction}
    {fields : List (ℕ × ℕ)} {tail : List UInt8} (hoffset : dataOffset < 2 ^ 32)
    (hmsg : c.message r = some (dsiSetupHeader c.requestid command dataOffset ++
      (bytes ((1, code function) :: fields) ++ tail))) :
    c.Arrives r ↔ (bytes ((1, code function) :: fields) ++ tail).length < 2 ^ 32 ∧
      decodeBody c.encoding ⟨0, command, c.requestid, dataOffset,
          bytes ((1, code function) :: fields) ++ tail⟩ (bytes fields ++ tail) function =
        some (c.reference r, onWire r) := by
  constructor
  · rintro ⟨msg, packet, hmessage, hpacket, hrequest⟩
    obtain rfl := Option.some.inj (hmsg.symm.trans hmessage)
    obtain ⟨hlength, rfl⟩ := (nextPacket_withLength_iff hoffset packet).mp hpacket
    rw [decodeRequest_bytes rfl] at hrequest
    obtain ⟨referred, hbody, heq⟩ := Option.map_eq_some_iff.mp hrequest
    obtain ⟨-, rfl⟩ := Prod.mk.inj heq
    exact ⟨hlength, hbody⟩
  · rintro ⟨hlength, hbody⟩
    refine ⟨_, _, hmsg, (nextPacket_withLength_iff hoffset _).mpr ⟨hlength, rfl⟩, ?_⟩
    rw [decodeRequest_bytes rfl, hbody]
    rfl

/-- A record with nothing behind it. -/
theorem arrives_of_packet {function : AFPFunction} {fields : List (ℕ × ℕ)}
    (hmsg : c.message r = some (c.packet ((1, code function) :: fields)))
    (hsmall : (fields.map Prod.fst).sum < 2 ^ 16) :
    c.Arrives r ↔ decodeBody c.encoding ⟨0, DSI_DSICommand, c.requestid, 0,
        bytes ((1, code function) :: fields)⟩ (bytes fields) function =
      some (c.reference r, onWire r) := by
  have hmsg' : c.message r = some (dsiSetupHeader c.requestid DSI_DSICommand 0 ++
      (bytes ((1, code function) :: fields) ++ [])) := by
    rw [List.append_nil]
    exact hmsg
  have hlength : (bytes ((1, code function) :: fields)).length < 2 ^ 32 := by
    rw [length_bytes, List.map_cons, List.sum_cons]
    omega
  rw [arrives_of_message (by decide) hmsg', List.append_nil, List.append_nil]
  exact ⟨fun h => h.2, fun h => ⟨hlength, h⟩⟩

/-! ## A name behind a record -/

theorem decodeName_block (hencoding : c.encoding ≠ .kFPShortName) {name : CString}
    (hname : (0 : UInt8) ∉ name) (hlen : name.length < 256) :
    decodeName c.encoding (block c.encoding name) = some name := by
  have h := decodeBlock_block hencoding hname hlen []
  rw [List.append_nil] at h
  rw [decodeName, h]

/-- A message with a name that fits. -/
theorem withPath_of_le (hencoding : c.encoding ≠ .kFPShortName) (fields : List (ℕ × ℕ))
    {pathname : CString} (hle : pathname.length ≤ maxName c.encoding) :
    c.withPath fields pathname = some (c.packet fields ++ block c.encoding pathname) := by
  have hlt : pathname.length < 256 := by
    cases henc : c.encoding <;> rw [henc] at hle <;> exact Nat.lt_of_le_of_lt hle (by decide)
  have hwrite := writePath_eq (fitsTmp_of_le hencoding hle) (store c.garbage 0 (c.packet fields))
    (c.packet fields).length
  have hstore := store_store c.garbage 0 (c.packet fields) (block c.encoding pathname)
  have hload := load_store c.garbage 0 (c.packet fields ++ block c.encoding pathname)
  rw [List.length_append, length_block hencoding] at hload
  rw [Nat.zero_add] at hstore
  rw [Nat.mod_eq_of_lt hlt, List.take_length, hstore] at hwrite
  rw [Sender.withPath, hwrite, Option.bind_eq_bind, Option.bind_some, Nat.add_assoc, hload]
  rfl

/-- Of any message with a name, the server reads the name cut to a length of 8 bits, or nothing. -/
theorem withPath_cut (hencoding : c.encoding ≠ .kFPShortName) {fields : List (ℕ × ℕ)}
    {pathname : CString} (hname : (0 : UInt8) ∉ pathname) {msg : List UInt8}
    (hmsg : c.withPath fields pathname = some msg) : FitsTmp c.encoding pathname ∧
      ∃ tail, msg = c.packet fields ++ tail ∧ ∃ rest,
        decodeBlock c.encoding tail = some (cut pathname, rest) := by
  by_cases hfits : FitsTmp c.encoding pathname
  · refine ⟨hfits, ?_⟩
    rw [Sender.withPath, writePath_eq hfits] at hmsg
    have hmsg := Option.some.inj hmsg
    have hlt : (cut pathname).length < 256 := length_cut pathname ▸ Nat.mod_lt _ (by decide)
    have hstore := store_store c.garbage 0 (c.packet fields) (block c.encoding (cut pathname))
    rw [Nat.zero_add] at hstore
    change load (store (store c.garbage 0 (c.packet fields)) (c.packet fields).length
      (block c.encoding (cut pathname))) 0 _ = msg at hmsg
    have hfront : load (store (store c.garbage 0 (c.packet fields)) (c.packet fields).length
        (block c.encoding (cut pathname))) 0 (c.packet fields).length = c.packet fields := by
      rw [load_store_of_le _ _ (by omega), load_store]
    rw [Nat.add_assoc, load_add, hfront, Nat.zero_add] at hmsg
    refine ⟨_, hmsg.symm, _, decodeBlock_load hencoding (zero_notMem_cut hname) hlt
      (load_store ..) (length_block_cut_le hencoding pathname)⟩
  · rw [Sender.withPath, writePath_none hfits] at hmsg
    cases hmsg

/-- **A record with a name behind it arrives** if and only if the name fits, for a server that makes
`make name` of it. -/
theorem arrives_of_withPath {function : AFPFunction} {fields : List (ℕ × ℕ)} {pathname : CString}
    {Q : Prop} (make : CString → Referred) (hencoding : c.encoding ≠ .kFPShortName)
    (hname : (0 : UInt8) ∉ pathname)
    (hmsg : c.message r = c.withPath ((1, code function) :: fields) pathname)
    (hsmall : (fields.map Prod.fst).sum < 2 ^ 16)
    (hbody : ∀ packet tail, decodeBody c.encoding packet (bytes fields ++ tail) function =
      (decodeName c.encoding tail).map make)
    (hmake : ∀ name, make name = (c.reference r, onWire r) ↔ Q ∧ name = pathname) :
    c.Arrives r ↔ Q ∧ pathname.length ≤ maxName c.encoding := by
  have hiff {tail : List UInt8} (hsent : c.withPath ((1, code function) :: fields) pathname =
      some (c.packet ((1, code function) :: fields) ++ tail)) : c.Arrives r ↔
        (bytes ((1, code function) :: fields) ++ tail).length < 2 ^ 32 ∧
          (decodeName c.encoding tail).map make = some (c.reference r, onWire r) := by
    have h := @arrives_of_message c r DSI_DSICommand 0 function fields tail (by decide)
      (by rw [hmsg, hsent, Sender.packet, List.append_assoc])
    rw [h, hbody]
  constructor
  · intro harrives
    obtain ⟨msg, hsome⟩ : ∃ msg, c.message r = some msg :=
      Exists.elim harrives fun msg h => Exists.elim h fun _ h => ⟨msg, h.1⟩
    rw [hmsg] at hsome
    obtain ⟨hfits, tail, rfl, rest, hcut⟩ := withPath_cut hencoding hname hsome
    have hdecoded := ((hiff hsome).mp harrives).2
    have hlt : (cut pathname).length < 256 := length_cut pathname ▸ Nat.mod_lt _ (by decide)
    cases rest with
    | cons b rest =>
      rw [decodeName, hcut] at hdecoded
      cases hdecoded
    | nil =>
      rw [decodeName, hcut] at hdecoded
      obtain ⟨hQ, hsame⟩ := (hmake _).mp (Option.some.inj hdecoded)
      exact ⟨hQ, hfits.le (hsame ▸ hlt)⟩
  · rintro ⟨hQ, hle⟩
    have hlt : pathname.length < 256 := by
      cases henc : c.encoding <;> rw [henc] at hle <;> exact Nat.lt_of_le_of_lt hle (by decide)
    rw [hiff (withPath_of_le hencoding _ hle), decodeName_block hencoding hname hlt, Option.map_some,
      (hmake pathname).mpr ⟨hQ, rfl⟩]
    refine ⟨?_, rfl⟩
    have hheader : sizeofPathHeader c.encoding ≤ 7 := by
      cases c.encoding <;> decide
    rw [List.length_append, length_bytes, List.map_cons, List.sum_cons, length_block hencoding]
    omega

end Arrives

/-! ## The requests with a name -/

theorem ofNat_mod16 (x : UInt16) : UInt16.ofNat (x.toNat % 256 ^ 2) = x := by
  have hmod : x.toNat % 256 ^ 2 = x.toNat := Nat.mod_eq_of_lt x.toNat_lt
  rw [hmod, UInt16.ofNat_toNat]

theorem ofNat_mod32 (x : UInt32) : UInt32.ofNat (x.toNat % 256 ^ 4) = x := by
  have hmod : x.toNat % 256 ^ 4 = x.toNat := Nat.mod_eq_of_lt x.toNat_lt
  rw [hmod, UInt32.ofNat_toNat]

theorem ofNat_mod64 (x : UInt64) : UInt64.ofNat (x.toNat % 256 ^ 8) = x := by
  have hmod : x.toNat % 256 ^ 8 = x.toNat := Nat.mod_eq_of_lt x.toNat_lt
  rw [hmod, UInt64.ofNat_toNat]

/-- A number of 64 bits in a field of 32. -/
theorem ofNat_mod_iff (x : UInt64) :
    UInt64.ofNat (x.toNat % 4294967296) = x ↔ x.toNat < 4294967296 := by
  have hlt := x.toNat_lt
  rw [← UInt64.toNat_inj, UInt64.toNat_ofNat']
  omega

section Named

variable {c : Sender} (hencoding : c.encoding ≠ .kFPShortName)

include hencoding

theorem arrives_getFileDirParms {did : UInt32} {filebitmap dirbitmap : ℕ} {pathname : CString}
    (hname : (0 : UInt8) ∉ pathname) :
    c.Arrives (.getFileDirParms did filebitmap dirbitmap pathname) ↔
      (filebitmap < 2 ^ 16 ∧ dirbitmap < 2 ^ 16) ∧ pathname.length ≤ maxName c.encoding := by
  refine arrives_of_withPath (fun name => (some c.volid,
    .getFileDirParms did (filebitmap % 256 ^ 2) (dirbitmap % 256 ^ 2) name)) hencoding hname rfl
    (by simp) (fun packet tail => ?_) fun name => ?_
  · have hread := read_bytes [(1, 0), (2, c.volid.toNat), (4, did.toNat), (2, filebitmap),
      (2, dirbitmap)] tail
    simp only [List.map_cons, List.map_nil] at hread
    simp only [decodeBody, hread, ofNat_mod16, ofNat_mod32]
  · simp [Sender.reference, onWire, and_assoc]

theorem arrives_delete {dirid : UInt32} {pathname : CString} (hname : (0 : UInt8) ∉ pathname) :
    c.Arrives (.delete dirid pathname) ↔ True ∧ pathname.length ≤ maxName c.encoding := by
  refine arrives_of_withPath (fun name => (some c.volid, .delete dirid name)) hencoding hname rfl
    (by simp) (fun packet tail => ?_) fun name => ?_
  · have hread := read_bytes [(1, 0), (2, c.volid.toNat), (4, dirid.toNat)] tail
    simp only [List.map_cons, List.map_nil] at hread
    simp only [decodeBody, hread, ofNat_mod16, ofNat_mod32]
  · simp [Sender.reference, onWire]

theorem arrives_createFile {flag : ℕ} {did : UInt32} {pathname : CString}
    (hname : (0 : UInt8) ∉ pathname) :
    c.Arrives (.createFile flag did pathname) ↔
      flag < 2 ^ 8 ∧ pathname.length ≤ maxName c.encoding := by
  refine arrives_of_withPath (fun name => (some c.volid, .createFile (flag % 256 ^ 1) did name))
    hencoding hname rfl (by simp) (fun packet tail => ?_) fun name => ?_
  · have hread := read_bytes [(1, flag), (2, c.volid.toNat), (4, did.toNat)] tail
    simp only [List.map_cons, List.map_nil] at hread
    simp only [decodeBody, hread, ofNat_mod16, ofNat_mod32]
  · simp [Sender.reference, onWire]

theorem arrives_createDir {dirid : UInt32} {pathname : CString} (hname : (0 : UInt8) ∉ pathname) :
    c.Arrives (.createDir dirid pathname) ↔ True ∧ pathname.length ≤ maxName c.encoding := by
  refine arrives_of_withPath (fun name => (some c.volid, .createDir dirid name)) hencoding hname rfl
    (by simp) (fun packet tail => ?_) fun name => ?_
  · have hread := read_bytes [(1, 0), (2, c.volid.toNat), (4, dirid.toNat)] tail
    simp only [List.map_cons, List.map_nil] at hread
    simp only [decodeBody, hread, ofNat_mod16, ofNat_mod32]
  · simp [Sender.reference, onWire]

theorem arrives_openFork {resourceFork : Bool} {dirid : UInt32} {accessmode : ℕ}
    {filename : CString} (hname : (0 : UInt8) ∉ filename) :
    c.Arrives (.openFork resourceFork dirid accessmode filename) ↔
      accessmode < 2 ^ 16 ∧ filename.length ≤ maxName c.encoding := by
  refine arrives_of_withPath (fun name => (some c.volid,
    .openFork resourceFork dirid (accessmode % 256 ^ 2) name)) hencoding hname rfl (by simp)
    (fun packet tail => ?_) fun name => ?_
  · have hread := read_bytes [(1, forktype resourceFork), (2, c.volid.toNat), (4, dirid.toNat),
      (2, 0), (2, accessmode)] tail
    have hfork : decide (forktype resourceFork % 256 ^ 1 = 0x80) = resourceFork := by
      cases resourceFork <;> rfl
    simp only [List.map_cons, List.map_nil] at hread
    simp only [decodeBody, hread, ofNat_mod16, ofNat_mod32, hfork]
  · simp [Sender.reference, onWire]

theorem arrives_enumerate {dirid : UInt32} {filebitmap dirbitmap : ℕ}
    {reqcount startindex : UInt16} {pathname : CString} (hname : (0 : UInt8) ∉ pathname) :
    c.Arrives (.enumerate dirid filebitmap dirbitmap reqcount startindex pathname) ↔
      (filebitmap < 2 ^ 16 ∧ dirbitmap < 2 ^ 16) ∧ pathname.length ≤ maxName c.encoding := by
  refine arrives_of_withPath (fun name => (some c.volid, .enumerate dirid (filebitmap % 256 ^ 2)
    (dirbitmap % 256 ^ 2) reqcount startindex name)) hencoding hname rfl (by simp)
    (fun packet tail => ?_) fun name => ?_
  · have hread := read_bytes [(1, 0), (2, c.volid.toNat), (4, dirid.toNat), (2, filebitmap),
      (2, dirbitmap), (2, reqcount.toNat), (2, startindex.toNat), (2, maxreplysize)] tail
    simp only [List.map_cons, List.map_nil] at hread
    simp only [decodeBody, hread, ofNat_mod16, ofNat_mod32]
  · simp [Sender.reference, onWire, and_assoc]

theorem arrives_enumerateExt2 {dirid : UInt32} {filebitmap dirbitmap : ℕ} {reqcount : UInt16}
    {startindex : UInt64} {pathname : CString} (hname : (0 : UInt8) ∉ pathname) :
    c.Arrives (.enumerateExt2 dirid filebitmap dirbitmap reqcount startindex pathname) ↔
      (filebitmap < 2 ^ 16 ∧ dirbitmap < 2 ^ 16 ∧ startindex.toNat < 2 ^ 32) ∧
        pathname.length ≤ maxName c.encoding := by
  refine arrives_of_withPath (fun name => (some c.volid, .enumerateExt2 dirid
    (filebitmap % 256 ^ 2) (dirbitmap % 256 ^ 2) reqcount (.ofNat (startindex.toNat % 256 ^ 4))
    name)) hencoding hname rfl (by simp) (fun packet tail => ?_) fun name => ?_
  · have hread := read_bytes [(1, 0), (2, c.volid.toNat), (4, dirid.toNat), (2, filebitmap),
      (2, dirbitmap), (2, reqcount.toNat), (4, startindex.toNat), (4, maxreplysize)] tail
    simp only [List.map_cons, List.map_nil] at hread
    simp only [decodeBody, hread, ofNat_mod16, ofNat_mod32]
  · simp only [Sender.reference, onWire, Prod.mk.injEq, Request.enumerateExt2.injEq, Nat.reducePow,
      Nat.mod_eq_iff_lt (by decide : (65536 : ℕ) ≠ 0), ofNat_mod_iff, true_and, and_assoc]

theorem arrives_getComment {did maxsize : UInt32} {pathname : CString}
    (hname : (0 : UInt8) ∉ pathname) :
    c.Arrives (.getComment did pathname maxsize) ↔
      True ∧ pathname.length ≤ maxName c.encoding := by
  refine arrives_of_withPath (fun name => (some c.dtrefnum, .getComment did name 0)) hencoding hname
    rfl (by simp) (fun packet tail => ?_) fun name => ?_
  · have hread := read_bytes [(1, 0), (2, c.dtrefnum.toNat), (4, did.toNat)] tail
    simp only [List.map_cons, List.map_nil] at hread
    simp only [decodeBody, hread, ofNat_mod16, ofNat_mod32]
  · simp [Sender.reference, onWire]

end Named

/-! ## The requests without a name -/

section Plain

variable {c : Sender}

theorem arrives_closeFork (forkid : UInt16) : c.Arrives (.closeFork forkid) := by
  refine (arrives_of_packet rfl (by simp)).mpr ?_
  have hread := read_bytes [(1, 0), (2, forkid.toNat)] []
  simp only [List.map_cons, List.map_nil, List.append_nil] at hread
  simp only [decodeBody, hread, ofNat_mod16]
  rfl

theorem arrives_byteRangeLock (unlock : Bool) (forkid : UInt16) (offset len : UInt32) :
    c.Arrives (.byteRangeLock unlock forkid offset len) := by
  refine (arrives_of_packet rfl (by simp)).mpr ?_
  have hread := read_bytes [(1, lockFlag unlock), (2, forkid.toNat), (4, offset.toNat),
    (4, len.toNat)] []
  have hflag : decide (lockFlag unlock % 256 ^ 1 = 1) = unlock := by
    cases unlock <;> rfl
  simp only [List.map_cons, List.map_nil, List.append_nil] at hread
  simp only [decodeBody, hread, ofNat_mod16, ofNat_mod32, hflag]
  rfl

theorem arrives_byteRangeLockExt (unlock : Bool) (forkid : UInt16) (offset len : UInt64) :
    c.Arrives (.byteRangeLockExt unlock forkid offset len) := by
  refine (arrives_of_packet rfl (by simp)).mpr ?_
  have hread := read_bytes [(1, lockFlag unlock), (2, forkid.toNat), (8, offset.toNat),
    (8, len.toNat)] []
  have hflag : decide (lockFlag unlock % 256 ^ 1 = 1) = unlock := by
    cases unlock <;> rfl
  simp only [List.map_cons, List.map_nil, List.append_nil] at hread
  simp only [decodeBody, hread, ofNat_mod16, ofNat_mod64, hflag]
  rfl

theorem arrives_read (forkid : UInt16) (offset count maxsize : UInt32) :
    c.Arrives (.read forkid offset count maxsize) := by
  refine (arrives_of_packet rfl (by simp)).mpr ?_
  have hread := read_bytes [(1, 0), (2, forkid.toNat), (4, offset.toNat), (4, count.toNat), (1, 0),
    (1, 0)] []
  simp only [List.map_cons, List.map_nil, List.append_nil] at hread
  simp only [decodeBody, hread, ofNat_mod16, ofNat_mod32]
  rfl

theorem arrives_readExt (forkid : UInt16) (offset count : UInt64) (maxsize : UInt32) :
    c.Arrives (.readExt forkid offset count maxsize) := by
  refine (arrives_of_packet rfl (by simp)).mpr ?_
  have hread := read_bytes [(1, 0), (2, forkid.toNat), (8, offset.toNat), (8, count.toNat)] []
  simp only [List.map_cons, List.map_nil, List.append_nil] at hread
  simp only [decodeBody, hread, ofNat_mod16, ofNat_mod64]
  rfl

theorem arrives_openDT : c.Arrives .openDT := by
  refine (arrives_of_packet rfl (by simp)).mpr ?_
  have hread := read_bytes [(1, 0), (2, c.volid.toNat)] []
  simp only [List.map_cons, List.map_nil, List.append_nil] at hread
  simp only [decodeBody, hread, ofNat_mod16]
  rfl

/-- A fork length behind the bitmap, of as many bytes as the bitmap says. -/
theorem decodeBody_setForkParms {encoding : PathEncoding} {packet : Packet} (forkid : UInt16)
    {bitmap n : ℕ} {tail : List UInt8}
    (hlen : Record.read [if bitmap &&& (kFPExtDataForkLenBit ||| kFPExtRsrcForkLenBit) ≠ 0 then 8
      else 4] tail = some ([n], [])) :
    decodeBody encoding packet (bytes [(1, 0), (2, forkid.toNat), (2, bitmap)] ++ tail)
        .afpSetForkParms =
      some (none, .setForkParms forkid (bitmap % 256 ^ 2) (.ofNat n)) := by
  have hbits : (bitmap % 256 ^ 2) &&& (kFPExtDataForkLenBit ||| kFPExtRsrcForkLenBit) =
      bitmap &&& (kFPExtDataForkLenBit ||| kFPExtRsrcForkLenBit) := by
    have hmod := @Nat.and_mod_two_pow bitmap (kFPExtDataForkLenBit ||| kFPExtRsrcForkLenBit) 16
    have hlt : bitmap &&& (kFPExtDataForkLenBit ||| kFPExtRsrcForkLenBit) < 2 ^ 16 :=
      Nat.lt_of_le_of_lt Nat.and_le_right (by decide)
    rw [Nat.mod_eq_of_lt hlt] at hmod
    exact hmod.symm
  have hread := read_bytes [(1, 0), (2, forkid.toNat), (2, bitmap)] tail
  simp only [List.map_cons, List.map_nil] at hread
  simp only [decodeBody, hread, hbits, hlen, ofNat_mod16]

theorem setForkParms_eq_iff {forkid : UInt16} {bitmap n : ℕ} {len : UInt64} :
    some ((none, .setForkParms forkid (bitmap % 256 ^ 2) (.ofNat n)) : Referred) =
        some (c.reference (.setForkParms forkid bitmap len), onWire (.setForkParms forkid bitmap len)) ↔
      bitmap < 2 ^ 16 ∧ UInt64.ofNat n = len := by
  simp [Sender.reference, onWire]

/-- What a length of 32 bits in the lower half of a field of 64 is read as. -/
theorem read_wide (n : ℕ) :
    Record.read [8] (bytes [(4, n), (4, 0)]) = some ([n % 256 ^ 4 * 256 ^ 4], []) := by
  have hvalue : ofBE (toBE 4 n ++ toBE 4 0) = n % 256 ^ 4 * 256 ^ 4 := by
    rw [ofBE_append, ofBE_toBE, ofBE_toBE, length_toBE, Nat.zero_mod, Nat.add_zero]
  have hsize : (toBE 4 n ++ toBE 4 0).length = 8 := by
    rw [List.length_append, length_toBE, length_toBE]
  rw [bytes, bytes, bytes, List.append_nil, Record.read, if_pos hsize.ge,
    List.take_of_length_le hsize.le, hvalue, List.drop_of_length_le hsize.le, read_nil]
  rfl

/-- A long length is read with its 32 bits in the upper half. -/
theorem arrives_setForkParms {forkid : UInt16} {bitmap : ℕ} {len : UInt64} :
    c.Arrives (.setForkParms forkid bitmap len) ↔ bitmap < 2 ^ 16 ∧
      if bitmap &&& (kFPExtDataForkLenBit ||| kFPExtRsrcForkLenBit) ≠ 0 then len = 0
      else len.toNat < 2 ^ 32 := by
  obtain ⟨fields, hfields⟩ : ∃ fields : List (ℕ × ℕ),
      fields = [(1, 0), (2, forkid.toNat), (2, bitmap)] := ⟨_, rfl⟩
  have hlt := len.toNat_lt
  -- the message, for the fields behind the bitmap, and what is read of these
  have hiff (more : List (ℕ × ℕ)) (n : ℕ)
      (hmsg : c.afpSetforkparms forkid bitmap len =
        c.packet ((1, code .afpSetForkParms) :: (fields ++ more)))
      (hshort : (bytes more).length ≤ 8)
      (hlen : Record.read [if bitmap &&& (kFPExtDataForkLenBit ||| kFPExtRsrcForkLenBit) ≠ 0 then 8
        else 4] (bytes more) = some ([n], [])) :
      c.Arrives (.setForkParms forkid bitmap len) ↔ bitmap < 2 ^ 16 ∧ UInt64.ofNat n = len := by
    have hsmall : ((fields ++ more).map Prod.fst).sum < 2 ^ 16 := by
      rw [← length_bytes, bytes_append, List.length_append, hfields]
      simp only [bytes, List.length_append, length_toBE, List.length_nil]
      omega
    have hmessage : c.message (.setForkParms forkid bitmap len) =
        some (c.packet ((1, code .afpSetForkParms) :: (fields ++ more))) := congrArg some hmsg
    rw [arrives_of_packet hmessage hsmall, bytes_append, hfields,
      decodeBody_setForkParms forkid hlen, setForkParms_eq_iff]
  by_cases hext : bitmap &&& (kFPExtDataForkLenBit ||| kFPExtRsrcForkLenBit) ≠ 0
  · have hzero : UInt64.ofNat (len.toNat % 256 ^ 4 * 256 ^ 4) = len ↔ len = 0 := by
      rw [← UInt64.toNat_inj, ← UInt64.toNat_inj, UInt64.toNat_ofNat', UInt64.toNat_zero]
      omega
    rw [if_pos hext, ← hzero]
    refine hiff [(4, len.toNat), (4, 0)] _ ?_ (by simp [bytes]) ?_
    · rw [Sender.afpSetforkparms, if_pos hext, hfields]
      rfl
    · rw [if_pos hext, read_wide]
  · have hread := read_bytes [(4, len.toNat)] []
    rw [List.append_nil] at hread
    rw [if_neg hext]
    refine (hiff [(4, len.toNat)] (len.toNat % 256 ^ 4) ?_ (by simp [bytes]) ?_).trans ?_
    · rw [Sender.afpSetforkparms, if_neg hext, hfields]
      rfl
    · rw [if_neg hext]
      exact hread
    · exact and_congr_right fun _ => ofNat_mod_iff len

/-! ## Writing -/

theorem arrives_of_withData {function : AFPFunction} {data : List UInt8} {reqcount : ℕ} {r : Request}
    (fields : List (ℕ × ℕ)) (make : List UInt8 → Referred)
    (hmsg : c.message r = c.withData ((1, code function) :: fields) data reqcount)
    (hsmall : (fields.map Prod.fst).sum < 2 ^ 16)
    (hbody : ∀ packet tail, decodeBody c.encoding packet (bytes fields ++ tail) function =
      (packet.data reqcount).map make)
    (hmake : ∀ data', make data' = (c.reference r, onWire r) ↔ data' = data) :
    c.Arrives r ↔ headerSize + (1 + (fields.map Prod.fst).sum) + reqcount < 2 ^ 32 ∧
      data.length = reqcount := by
  have hrecord : (bytes ((1, code function) :: fields)).length = 1 + (fields.map Prod.fst).sum := by
    rw [length_bytes, List.map_cons, List.sum_cons]
  by_cases hnone : 2 ^ 32 ≤ headerSize + (1 + (fields.map Prod.fst).sum) + reqcount ∨
      data.length < reqcount
  · have hmsg' : c.message r = none := by
      rw [hmsg, Sender.withData, hrecord]
      exact if_pos hnone
    constructor
    · rintro ⟨msg, packet, hsome, -⟩
      rw [hmsg'] at hsome
      cases hsome
    · rintro ⟨hfits, hdata⟩
      omega
  · have hmsg' : c.message r = some (dsiSetupHeader c.requestid DSI_DSIWrite
        (1 + (fields.map Prod.fst).sum) ++ (bytes ((1, code function) :: fields) ++
          data.take reqcount)) := by
      rw [hmsg, Sender.withData, hrecord, ← List.append_assoc]
      exact if_neg hnone
    have htake : (data.take reqcount).length = reqcount := by
      rw [List.length_take]
      omega
    have hdata : Packet.data ⟨0, DSI_DSIWrite, c.requestid, 1 + (fields.map Prod.fst).sum,
        bytes ((1, code function) :: fields) ++ data.take reqcount⟩ reqcount =
          some (data.take reqcount) := by
      rw [Packet.data, ← hrecord, List.drop_left]
      exact if_pos ⟨rfl, htake⟩
    have hoffset : 1 + (fields.map Prod.fst).sum < 2 ^ 32 := by omega
    rw [arrives_of_message hoffset hmsg', hbody, hdata, Option.map_some, List.length_append, hrecord,
      htake, Option.some_inj, hmake]
    have hwhole : data.take reqcount = data ↔ data.length = reqcount := by
      rw [List.take_eq_self_iff]
      omega
    rw [hwhole]
    omega

theorem arrives_write {forkid : UInt16} {offset reqcount : UInt32} {data : List UInt8} :
    c.Arrives (.write forkid offset reqcount data) ↔
      headerSize + 12 + reqcount.toNat < 2 ^ 32 ∧ data.length = reqcount.toNat := by
  refine arrives_of_withData [(1, 0), (2, forkid.toNat), (4, offset.toNat),
    (4, reqcount.toNat)] (fun data => (none, .write forkid offset reqcount data)) rfl (by simp)
    (fun packet tail => ?_) fun data' => ?_
  · have hread := read_bytes [(1, 0), (2, forkid.toNat), (4, offset.toNat), (4, reqcount.toNat)] tail
    have hcount : reqcount.toNat % 256 ^ 4 = reqcount.toNat := Nat.mod_eq_of_lt reqcount.toNat_lt
    simp only [List.map_cons, List.map_nil, hcount] at hread
    simp only [decodeBody, hread, ofNat_mod16, ofNat_mod32, UInt32.ofNat_toNat]
  · simp [Sender.reference, onWire]

theorem arrives_writeExt {forkid : UInt16} {offset reqcount : UInt64} {data : List UInt8} :
    c.Arrives (.writeExt forkid offset reqcount data) ↔
      headerSize + 20 + reqcount.toNat < 2 ^ 32 ∧ data.length = reqcount.toNat := by
  refine arrives_of_withData [(1, 0), (2, forkid.toNat), (8, offset.toNat),
    (8, reqcount.toNat)] (fun data => (none, .writeExt forkid offset reqcount data)) rfl (by simp)
    (fun packet tail => ?_) fun data' => ?_
  · have hread := read_bytes [(1, 0), (2, forkid.toNat), (8, offset.toNat), (8, reqcount.toNat)] tail
    have hcount : reqcount.toNat % 256 ^ 8 = reqcount.toNat := Nat.mod_eq_of_lt reqcount.toNat_lt
    simp only [List.map_cons, List.map_nil, hcount] at hread
    simp only [decodeBody, hread, ofNat_mod16, ofNat_mod64, UInt64.ofNat_toNat]
  · simp [Sender.reference, onWire]

end Plain

/-! ## Three names -/

section Names

variable {c : Sender} (hencoding : c.encoding ≠ .kFPShortName)

/-- The record at the front of the message, and its size. -/
theorem moveandrename_front {srcDid dstDid : UInt32} {srcPath newName : CString}
    {dstPath : Option CString} {msg : List UInt8}
    (h : c.message (.moveAndRename srcDid dstDid srcPath dstPath newName) = some msg) :
    msg = c.packet [(1, code .afpMoveAndRename), (1, 0), (2, c.volid.toNat), (4, srcDid.toNat),
      (4, dstDid.toNat)] ++ msg.drop fixedSize ∧ msg.length = fixedSize +
        3 * sizeofPathHeader c.encoding + (dstPath.getD []).length + srcPath.length +
          newName.length := by
  obtain ⟨front, hfront⟩ : ∃ front, front = dsiSetupHeader c.requestid DSI_DSICommand 0 ++
      [moveAndRename, 0] ++ toBE 2 c.volid.toNat ++ toBE 4 srcDid.toNat ++ toBE 4 dstDid.toNat :=
    ⟨_, rfl⟩
  have hpacket : c.packet [(1, code .afpMoveAndRename), (1, 0), (2, c.volid.toNat),
      (4, srcDid.toNat), (4, dstDid.toNat)] = front := by
    rw [hfront, Sender.packet]
    simp only [bytes, List.append_assoc, List.append_nil]
    rfl
  have hsize : front.length = fixedSize := by
    rw [hfront, dsiSetupHeader]
    simp [bytes, fixedSize]
  obtain ⟨hsrc, hdst, hnew⟩ := fitsTmp_of_message h
  simp only [Sender.message, afpMoveandrename, Option.bind_eq_bind, ← hfront] at h
  rw [writePath_eq hsrc, Option.bind_some, writePath_eq hdst, Option.bind_some, writePath_eq hnew,
    Option.bind_some] at h
  have hmsg := Option.some.inj h
  obtain ⟨k, hk⟩ : ∃ k, fixedSize + 3 * sizeofPathHeader c.encoding + (dstPath.getD []).length +
      srcPath.length + newName.length = front.length + k := by
    rw [hsize]
    exact Nat.exists_eq_add_of_le (by omega)
  have hlength := congrArg List.length hmsg
  rw [length_load] at hlength
  refine ⟨?_, hlength.symm⟩
  rw [hk, load_add, load_store_of_le _ _ (by omega), load_store_of_le _ _ (by omega),
    load_store_of_le _ _ (by omega), load_store] at hmsg
  rw [hpacket, ← hmsg, ← hsize, List.drop_left]

/-- Three names behind the record are those of `Decodes`. -/
theorem decodeNames_iff {encoding : PathEncoding} {msg : List UInt8}
    {srcPath dstPath newName : CString} :
    decodeNames encoding (msg.drop fixedSize) = some (srcPath, dstPath, newName) ↔
      PathBlock.Decodes encoding msg srcPath dstPath newName := by
  have hlast (p : List UInt8) :
      decodeName encoding p = some newName ↔ decodeBlock encoding p = some (newName, []) := by
    rw [decodeName]
    split
    · rename_i name h
      simp [h]
    · rename_i hne
      constructor
      · intro h
        cases h
      · intro h
        exact absurd h (hne newName)
  simp [decodeNames, PathBlock.Decodes, Option.bind_eq_some_iff, hlast]

include hencoding

theorem arrives_moveAndRename {srcDid dstDid : UInt32} {srcPath newName : CString}
    {dstPath : Option CString} (hsrc : (0 : UInt8) ∉ srcPath) (hdst : (0 : UInt8) ∉ dstPath.getD [])
    (hnew : (0 : UInt8) ∉ newName) :
    c.Arrives (.moveAndRename srcDid dstDid srcPath dstPath newName) ↔
      srcPath.length ≤ maxName c.encoding ∧ (dstPath.getD []).length ≤ maxName c.encoding ∧
        newName.length ≤ maxName c.encoding := by
  have hiff {msg : List UInt8}
      (h : c.message (.moveAndRename srcDid dstDid srcPath dstPath newName) = some msg) :
      c.Arrives (.moveAndRename srcDid dstDid srcPath dstPath newName) ↔
        (bytes [(1, code .afpMoveAndRename), (1, 0), (2, c.volid.toNat), (4, srcDid.toNat),
          (4, dstDid.toNat)] ++ msg.drop fixedSize).length < 2 ^ 32 ∧
          PathBlock.Decodes c.encoding msg srcPath (dstPath.getD []) newName := by
    have hfront := (moveandrename_front h).1
    have hread := read_bytes [(1, 0), (2, c.volid.toNat), (4, srcDid.toNat), (4, dstDid.toNat)]
      (msg.drop fixedSize)
    simp only [List.map_cons, List.map_nil] at hread
    rw [Sender.packet, List.append_assoc] at hfront
    rw [arrives_of_message (by decide) (h.trans (congrArg some hfront)), ← decodeNames_iff]
    simp only [decodeBody, hread, ofNat_mod16, ofNat_mod32]
    refine and_congr_right fun _ => ?_
    cases decodeNames c.encoding (msg.drop fixedSize) with
    | none => simp
    | some names => simp [Sender.reference, onWire, Prod.ext_iff]
  have hdecodes := @moveandrename_iff c.encoding c.volid
    (dsiSetupHeader c.requestid DSI_DSICommand 0) c.garbage srcDid dstDid srcPath newName dstPath
    hencoding hsrc hdst hnew
  constructor
  · intro harrives
    obtain ⟨msg, h⟩ : ∃ msg, c.message (.moveAndRename srcDid dstDid srcPath dstPath newName) =
        some msg := Exists.elim harrives fun msg h => Exists.elim h fun _ h => ⟨msg, h.1⟩
    exact hdecodes.mp ⟨msg, h, ((hiff h).mp harrives).2⟩
  · intro hfits
    obtain ⟨msg, h, hmsg⟩ := hdecodes.mpr hfits
    refine (hiff h).mpr ⟨?_, hmsg⟩
    have hlength := (moveandrename_front h).2
    have hheader : sizeofPathHeader c.encoding ≤ 7 := by
      cases c.encoding <;> decide
    have hmax : maxName c.encoding < 256 := by
      cases c.encoding <;> decide
    rw [List.length_append, length_bytes, List.length_drop, hlength]
    simp only [List.map_cons, List.map_nil, List.sum_cons, List.sum_nil, fixedSize]
    omega

end Names

/-! ## A name, and something at the next even position -/

/-- The zero bytes up to the next even position, behind a name that may have been cut. -/
def padding (encoding : PathEncoding) (pathname : CString) : ℕ :=
  pathname.length - (cut pathname).length +
    (sizeofPathHeader encoding + pathname.length) % 2

section Even

variable {c : Sender} (hencoding : c.encoding ≠ .kFPShortName)

/-- The memory of a message that was zero, with a record and a name. -/
theorem load_zeroed (hencoding : c.encoding ≠ .kFPShortName) (front : List UInt8)
    (pathname : CString) (k : ℕ)
    (hk : k = (sizeofPathHeader c.encoding + pathname.length) % 2) :
    load (store (store (fun _ => (0 : UInt8)) 0 front) front.length
        (block c.encoding (cut pathname))) 0
        (front.length + sizeofPathHeader c.encoding + pathname.length + k) =
      front ++ (block c.encoding (cut pathname) ++
        List.replicate (padding c.encoding pathname) 0) := by
  have hstore := store_store (fun _ => (0 : UInt8)) 0 front (block c.encoding (cut pathname))
  have hload := load_store (fun _ => (0 : UInt8)) 0 (front ++ block c.encoding (cut pathname))
  have hblock := length_block hencoding (cut pathname)
  have hle := length_block_cut_le hencoding pathname
  have hend : front.length + sizeofPathHeader c.encoding + pathname.length + k =
      (front ++ block c.encoding (cut pathname)).length + padding c.encoding pathname := by
    rw [List.length_append, padding, hblock, hk]
    rw [hblock] at hle
    omega
  have hzero (n : ℕ) : load (store (fun _ => (0 : UInt8)) 0
      (front ++ block c.encoding (cut pathname)))
        (0 + (front ++ block c.encoding (cut pathname)).length) n = List.replicate n 0 :=
    load_eq_replicate fun j hj _ => store_of_le _ hj
  rw [Nat.zero_add] at hstore
  rw [hstore, hend, load_add, hload, hzero, List.append_assoc]

/-- What is behind the name begins at the next even position. -/
theorem even_block (hencoding : c.encoding ≠ .kFPShortName) {pathname : CString}
    (hlt : pathname.length < 256) (tail : List UInt8) :
    even (block c.encoding pathname ++
        (List.replicate (padding c.encoding pathname) 0 ++ tail))
      (List.replicate (padding c.encoding pathname) 0 ++ tail) = tail := by
  have hpadding : padding c.encoding pathname =
      (sizeofPathHeader c.encoding + pathname.length) % 2 := by
    rw [padding, cut_eq_self hlt, Nat.sub_self, Nat.zero_add]
  rw [even, List.length_append, Nat.add_sub_cancel_right, length_block hencoding, hpadding]
  split
  · rename_i hodd
    rw [hodd]
    rfl
  · rename_i hne
    rw [Nat.mod_two_ne_one.mp hne]
    rfl

include hencoding

/-- **A message with a name and something at the next even position arrives** if and only if the name
fits and the rest is decoded. -/
theorem arrives_of_even {α : Type} {function : AFPFunction} {fields : List (ℕ × ℕ)}
    {pathname : CString} {tail : List UInt8} {decode : List UInt8 → Option α} {r : Request}
    (make : CString × α → Referred) (x : α) (hname : (0 : UInt8) ∉ pathname)
    (hmsg : FitsTmp c.encoding pathname → c.message r =
      some (c.packet ((1, code function) :: fields) ++ (block c.encoding (cut pathname) ++
        (List.replicate (padding c.encoding pathname) 0 ++ tail))))
    (hnone : ¬ FitsTmp c.encoding pathname → c.message r = none)
    (hsmall : (fields.map Prod.fst).sum < 2 ^ 16)
    (htail : decode tail = some x → tail.length < 2 ^ 16)
    (hbody : ∀ packet p, decodeBody c.encoding packet (bytes fields ++ p) function =
      (decodeEven c.encoding decode p).map make)
    (hmake : ∀ y, make y = (c.reference r, onWire r) ↔ y = (pathname, x)) :
    c.Arrives r ↔ pathname.length ≤ maxName c.encoding ∧ decode tail = some x := by
  have hlt : (cut pathname).length < 256 := length_cut pathname ▸ Nat.mod_lt _ (by decide)
  have hheader : sizeofPathHeader c.encoding ≤ 7 := by
    cases c.encoding <;> decide
  have hmax : maxName c.encoding < 256 := by
    cases c.encoding <;> decide
  by_cases hfits : FitsTmp c.encoding pathname
  · have hsent : c.message r = some (dsiSetupHeader c.requestid DSI_DSICommand 0 ++
        (bytes ((1, code function) :: fields) ++ (block c.encoding (cut pathname) ++
          (List.replicate (padding c.encoding pathname) 0 ++ tail)))) := by
      rw [hmsg hfits, Sender.packet, List.append_assoc]
    have hdecoded := decodeBlock_block hencoding (zero_notMem_cut hname) hlt
      (List.replicate (padding c.encoding pathname) 0 ++ tail)
    have hpair (o : Option (CString × α)) : o.map make = some (c.reference r, onWire r) ↔
        o = some (pathname, x) := by
      cases o with
      | none => simp
      | some y => simp [hmake]
    rw [arrives_of_message (by decide) hsent, hbody, hpair, decodeEven, hdecoded]
    constructor
    · rintro ⟨-, hsome⟩
      obtain ⟨y, hy, heq⟩ := Option.map_eq_some_iff.mp hsome
      obtain ⟨hcut, rfl⟩ := Prod.mk.inj heq
      have hshort : pathname.length < 256 := hcut ▸ hlt
      rw [hcut, even_block hencoding hshort] at hy
      exact ⟨hfits.le hshort, hy⟩
    · rintro ⟨hle, htailSome⟩
      have hshort : pathname.length < 256 := Nat.lt_of_le_of_lt hle hmax
      have hpadding : padding c.encoding pathname ≤ 1 := by
        rw [padding, cut_eq_self hshort]
        omega
      have htailLength := htail htailSome
      rw [cut_eq_self hshort]
      refine ⟨?_, ?_⟩
      · simp only [List.length_append, length_bytes, List.map_cons, List.sum_cons,
          length_block hencoding, List.length_replicate]
        omega
      · simp only [even_block hencoding hshort, htailSome, Option.map_some]
  · constructor
    · rintro ⟨msg, packet, hsome, -⟩
      rw [hnone hfits] at hsome
      cases hsome
    · rintro ⟨hle, -⟩
      exact absurd (fitsTmp_of_le hencoding hle) hfits

end Even

/-! ## Setting parameters -/

section Set

open SetParms ReplyBlock

variable {c : Sender} {bitmap : UInt16} {fp : AfpFileInfo}

/-- What is stored of the parameters is what was selected, but for the attributes. -/
theorem stored_eq_selected_iff (hfinderinfo : fp.finderinfo.length = 32)
    (hbitmap : bitmap.toNat &&& settable = bitmap.toNat) :
    stored false bitmap (sentParms fp hfinderinfo) = selected bitmap fp ↔
      (has bitmap kFPAttributeBit = true → fp.attributes.toNat % 256 = 0) := by
  have h {bit : ℕ} (hbit : settable &&& bit = 0) := has_eq_false hbitmap hbit
  have hstored : stored false bitmap (sentParms fp hfinderinfo) = { selected bitmap fp with
      attributes := if has bitmap kFPAttributeBit then cutAttributes fp.attributes else 0 } := by
    simp only [stored, last, middle, first, selected, sentParms, Bool.not_false, Bool.true_and,
      Bool.false_and, @h kFPParentDirIDBit (by decide), @h kFPLongNameBit (by decide),
      @h kFPNodeIDBit (by decide), @h kFPDataForkLenBit (by decide),
      @h kFPRsrcForkLenBit (by decide), @h kFPExtDataForkLenBit (by decide),
      @h kFPUTF8NameBit (by decide), @h kFPExtRsrcForkLenBit (by decide), Bool.false_eq_true,
      if_false]
    rfl
  rw [hstored, ← cutAttributes_eq_iff]
  constructor
  · intro heq hbit
    have hattributes := congrArg AfpFileInfo.attributes heq
    simp only [selected, hbit, if_true] at hattributes
    exact hattributes
  · intro hcut
    by_cases hbit : has bitmap kFPAttributeBit = true
    · simp only [selected, hbit, if_true, hcut hbit]
    · simp only [selected, hbit]
      rfl

/-- What the server reads of the parameters. -/
theorem decodeParms_sent (hfinderinfo : fp.finderinfo.length = 32)
    (hbitmap : bitmap.toNat &&& settable = bitmap.toNat) :
    decodeParms bitmap (putParms false bitmap (sentParms fp hfinderinfo) ⟨0, 0, 0, 0⟩ []) =
      some (stored false bitmap (sentParms fp hfinderinfo)) := by
  rw [decodeParms, if_pos (length_putParms_settable hbitmap false hfinderinfo),
    parse_sent hbitmap false hfinderinfo]

/-- The message, if the name fits in the temporary buffer. -/
theorem afpSetparms_eq (hencoding : c.encoding ≠ .kFPShortName) (haddress : c.address % 2 = 0)
    {function : AFPFunction} {dirid : UInt32} {pathname : CString}
    (hfits : FitsTmp c.encoding pathname) {n : ℕ} (hn : UInt16.ofNat n = bitmap)
    (hfinderinfo : fp.finderinfo.length = 32)
    (hbitmap : bitmap.toNat &&& settable = bitmap.toNat) :
    c.afpSetparms function dirid pathname n fp =
      some (c.packet [(1, code function), (1, 0), (2, c.volid.toNat), (4, dirid.toNat),
        (2, bitmap.toNat)] ++ (block c.encoding (cut pathname) ++
          (List.replicate (padding c.encoding pathname) 0 ++
            putParms false bitmap (sentParms fp hfinderinfo) ⟨0, 0, 0, 0⟩ []))) := by
  subst hn
  obtain ⟨front, hfront⟩ : ∃ front, front = c.packet [(1, code function), (1, 0),
      (2, c.volid.toNat), (4, dirid.toNat), (2, (UInt16.ofNat n).toNat)] := ⟨_, rfl⟩
  have hsize : front.length = pathOffset := by
    rw [hfront, Sender.packet, dsiSetupHeader]
    simp [bytes, pathOffset]
  have hfixed : (dsiSetupHeader c.requestid DSI_DSICommand 0) ++ ([UInt8.ofNat (code function), 0] ++
      (toBE 2 c.volid.toNat ++ (toBE 4 dirid.toNat ++ toBE 2 (UInt16.ofNat n).toNat))) = front := by
    rw [hfront, Sender.packet]
    simp only [bytes, List.append_nil]
    rfl
  obtain ⟨k, hk⟩ : ∃ k, k = (sizeofPathHeader c.encoding + pathname.length) % 2 := ⟨_, rfl⟩
  have hp : (if (c.address + (front.length + sizeofPathHeader c.encoding + pathname.length)) % 2 = 1
      then front.length + sizeofPathHeader c.encoding + pathname.length + 1
      else front.length + sizeofPathHeader c.encoding + pathname.length) =
      front.length + sizeofPathHeader c.encoding + pathname.length + k := by
    have heven : front.length % 2 = 0 := by rw [hsize]; rfl
    split <;> omega
  have hload := load_zeroed hencoding front pathname k hk
  have hzero : store (store (fun _ => (0 : UInt8)) 0 front) front.length
      (block c.encoding (cut pathname))
        (front.length + sizeofPathHeader c.encoding + pathname.length + k + 1) = 0 := by
    have hle := length_block_cut_le hencoding pathname
    rw [store_of_le _ (by omega), store_of_le _ (by omega)]
  have hfields := load_fields hzero hfinderinfo hbitmap false
  rw [hload] at hfields
  have hlist : (⟨(dsiSetupHeader c.requestid DSI_DSICommand 0).toArray, rfl⟩ : Vector UInt8 16).toList =
      dsiSetupHeader c.requestid DSI_DSICommand 0 := rfl
  have hwrite := writePath_eq hfits (store (fun _ => 0) 0 front) front.length
  rw [Sender.afpSetparms, afpSetparmsLowlevel]
  simp only [hlist, hfixed, ← hsize, hp, hwrite, Option.bind_eq_bind, Option.bind_some,
    Option.pure_def, Option.map_some]
  rw [← hfront]
  refine congrArg some ?_
  rw [List.append_assoc, List.append_assoc] at hfields
  exact hfields

/-- A name that does not fit in the temporary buffer. -/
theorem afpSetparms_none {function : AFPFunction} {dirid : UInt32} {pathname : CString}
    (hfits : ¬ FitsTmp c.encoding pathname) (n : ℕ) (fp : AfpFileInfo) :
    c.afpSetparms function dirid pathname n fp = none := by
  rw [Sender.afpSetparms, afpSetparmsLowlevel]
  simp only [writePath_none hfits, Option.bind_eq_bind, Option.bind_none, Option.map_none]

theorem read_set (dirid : UInt32) (bitmap : UInt16) (p : List UInt8) :
    Record.read [1, 2, 4, 2] (bytes [(1, 0), (2, c.volid.toNat), (4, dirid.toNat),
        (2, bitmap.toNat)] ++ p) = some ([0, c.volid.toNat, dirid.toNat, bitmap.toNat], p) := by
  have hread := read_bytes [(1, 0), (2, c.volid.toNat), (4, dirid.toNat), (2, bitmap.toNat)] p
  have hvolid : c.volid.toNat % 256 ^ 2 = c.volid.toNat := Nat.mod_eq_of_lt c.volid.toNat_lt
  have hdirid : dirid.toNat % 256 ^ 4 = dirid.toNat := Nat.mod_eq_of_lt dirid.toNat_lt
  have hbitmap : bitmap.toNat % 256 ^ 2 = bitmap.toNat := Nat.mod_eq_of_lt bitmap.toNat_lt
  simp only [List.map_cons, List.map_nil, hvolid, hdirid, hbitmap] at hread
  exact hread

/-- **Setting parameters** arrives if and only if the name fits and the low byte of the attributes is
zero, for each of the three functions. -/
theorem arrives_setparms (hencoding : c.encoding ≠ .kFPShortName) (haddress : c.address % 2 = 0)
    {function : AFPFunction} {dirid : UInt32} {pathname : CString} {n : ℕ}
    (request : CString → ℕ → AfpFileInfo → Request)
    (hmsg : c.message (request pathname n fp) = c.afpSetparms function dirid pathname n fp)
    (hbody : ∀ packet p, decodeBody c.encoding packet
        (bytes [(1, 0), (2, c.volid.toNat), (4, dirid.toNat), (2, (UInt16.ofNat n).toNat)] ++ p)
          function =
      (decodeEven c.encoding (decodeParms (.ofNat n)) p).map fun y =>
        (some c.volid, request y.1 (UInt16.ofNat n).toNat y.2))
    (hwire : onWire (request pathname n fp) = request pathname n (selected (.ofNat n) fp))
    (hreference : c.reference (request pathname n fp) = some c.volid)
    (hinj : ∀ name m fi name' m' fi', request name m fi = request name' m' fi' ↔
      name = name' ∧ m = m' ∧ fi = fi')
    (hname : (0 : UInt8) ∉ pathname) (hsettable : n &&& settable = n)
    (hfinderinfo : fp.finderinfo.length = 32) :
    c.Arrives (request pathname n fp) ↔ pathname.length ≤ maxName c.encoding ∧
      (has (.ofNat n) kFPAttributeBit = true → fp.attributes.toNat % 256 = 0) := by
  have hn : (UInt16.ofNat n).toNat = n := by
    have hle : n ≤ settable := hsettable ▸ Nat.and_le_right
    have hlt : n < 2 ^ 16 := Nat.lt_of_le_of_lt hle (by decide)
    rw [UInt16.toNat_ofNat', Nat.mod_eq_of_lt hlt]
  have hbitmap : (UInt16.ofNat n).toNat &&& settable = (UInt16.ofNat n).toNat := by
    rw [hn]
    exact hsettable
  have hdecode := decodeParms_sent hfinderinfo hbitmap
  have h := arrives_of_even hencoding (r := request pathname n fp)
    (fun y => (some c.volid, request y.1 (UInt16.ofNat n).toNat y.2)) (selected (.ofNat n) fp) hname
    (fun hfits => hmsg.trans (afpSetparms_eq hencoding haddress hfits rfl hfinderinfo hbitmap))
    (fun hfits => hmsg.trans (afpSetparms_none hfits n fp)) (by simp) (fun _ => ?_) hbody fun y => ?_
  · rw [h, hdecode, Option.some_inj, stored_eq_selected_iff hfinderinfo hbitmap]
  · rw [length_putParms_settable hbitmap false hfinderinfo, parmsSize]
    split_ifs <;> decide
  · rw [hreference, hwire, Prod.mk.injEq, hinj, hn, Prod.ext_iff]
    simp

end Set

/-! ## Comments -/

/-- What is left of a Pascal string in memory that was zero. -/
def pascalTail (comment : CString) : List UInt8 :=
  (copyToPascal comment).1 ++ List.replicate (comment.length - comment.length % 256) 0

theorem decodePascal_iff (comment : CString) :
    decodePascal (pascalTail comment) = some comment ↔ comment.length < 2 ^ 8 := by
  have hle : comment.length % 256 ≤ comment.length := Nat.mod_le ..
  have hword : (UInt8.ofNat (comment.length % 256)).toNat = comment.length % 256 := by
    rw [UInt8.toNat_ofNat']
    omega
  have hlength : (comment.take (comment.length % 256) ++
      List.replicate (comment.length - comment.length % 256) (0 : UInt8)).length =
        comment.length := by
    rw [List.length_append, List.length_take, List.length_replicate]
    omega
  rw [pascalTail, copyToPascal_eq, List.cons_append, decodePascal, hlength, hword]
  by_cases hlt : comment.length < 256
  · have hmod : comment.length % 256 = comment.length := Nat.mod_eq_of_lt hlt
    rw [if_pos hmod.symm, hmod, List.take_length, Nat.sub_self, List.replicate_zero,
      List.append_nil]
    exact ⟨fun _ => hlt, fun _ => rfl⟩
  · rw [if_neg (by omega)]
    exact iff_of_false nofun hlt

/-- The message, if the name fits in the temporary buffer. -/
theorem afpAddcomment_eq {c : Sender} (hencoding : c.encoding ≠ .kFPShortName)
    (haddress : c.address % 2 = 0) {did : UInt32} {pathname comment : CString}
    (hfits : FitsTmp c.encoding pathname) :
    c.afpAddcomment did pathname comment =
      some (c.packet [(1, code .afpAddComment), (1, 0), (2, c.dtrefnum.toNat), (4, did.toNat)] ++
        (block c.encoding (cut pathname) ++
          (List.replicate (padding c.encoding pathname) 0 ++ pascalTail comment))) := by
  obtain ⟨front, hfront⟩ : ∃ front, front = c.packet [(1, code .afpAddComment), (1, 0),
      (2, c.dtrefnum.toNat), (4, did.toNat)] := ⟨_, rfl⟩
  have heven : front.length % 2 = 0 := by
    rw [hfront, Sender.packet, dsiSetupHeader]
    simp [bytes]
  obtain ⟨p, hp⟩ : ∃ p, p = front.length + sizeofPathHeader c.encoding + pathname.length := ⟨_, rfl⟩
  obtain ⟨k, hk⟩ : ∃ k, k = (sizeofPathHeader c.encoding + pathname.length) % 2 := ⟨_, rfl⟩
  have hpair (len : ℕ) : (if (c.address + p) % 2 = 1 then (p + 1, len + 1) else (p, len)) =
      (p + k, len + k) := by
    split
    · have hone : k = 1 := by omega
      rw [hone]
    · have hzero : k = 0 := by omega
      rw [hzero]
      rfl
  have hload := load_zeroed hencoding front pathname k hk
  have hwrite := writePath_eq hfits (store (fun _ => 0) 0 front) front.length
  rw [Sender.afpAddcomment]
  simp only [← hfront, hwrite, ← hp, hpair, Option.bind_eq_bind, Option.bind_some, Option.pure_def]
  refine congrArg some ?_
  rw [← hp] at hload
  have hpascal : (copyToPascal comment).1.length = 1 + comment.length % 256 := by
    rw [copyToPascal_eq, List.length_cons, List.length_take]
    omega
  have hsize : p + comment.length + 1 + k =
      p + k + ((copyToPascal comment).1.length + (comment.length - comment.length % 256)) := by
    omega
  have hle := length_block_cut_le hencoding pathname
  have hzero : load (store (store (store (fun _ => (0 : UInt8)) 0 front) front.length
      (block c.encoding (cut pathname))) (p + k) (copyToPascal comment).1)
        (p + k + (copyToPascal comment).1.length) (comment.length - comment.length % 256) =
      List.replicate (comment.length - comment.length % 256) 0 := by
    refine load_eq_replicate fun j hj _ => ?_
    rw [store_of_le _ hj, store_of_le _ (by omega), store_of_le _ (by omega)]
  have hfront : load (store (store (store (fun _ => (0 : UInt8)) 0 front) front.length
      (block c.encoding (cut pathname))) (p + k) (copyToPascal comment).1) 0 (p + k) =
        front ++ (block c.encoding (cut pathname) ++
          List.replicate (padding c.encoding pathname) 0) := by
    rw [load_store_of_le _ _ (by omega), hload]
  have hcut : (pathname.take (pathname.length % 256)) = cut pathname := rfl
  rw [hcut, hsize, load_add, hfront, Nat.zero_add, load_add, load_store, hzero, pascalTail]
  simp only [List.append_assoc]

theorem arrives_addComment {c : Sender} (hencoding : c.encoding ≠ .kFPShortName)
    (haddress : c.address % 2 = 0) {did : UInt32} {pathname comment : CString}
    (hname : (0 : UInt8) ∉ pathname) :
    c.Arrives (.addComment did pathname comment) ↔
      pathname.length ≤ maxName c.encoding ∧ comment.length < 2 ^ 8 := by
  rw [← decodePascal_iff comment]
  refine arrives_of_even hencoding (fun y => (some c.dtrefnum, .addComment did y.1 y.2)) comment hname
    (afpAddcomment_eq hencoding haddress) (fun hfits => ?_) (by simp) (fun hsome => ?_)
    (fun packet p => ?_) fun y => ?_
  · change c.afpAddcomment did pathname comment = none
    rw [Sender.afpAddcomment]
    simp only [writePath_none hfits, Option.bind_eq_bind, Option.bind_none]
  · rw [decodePascal_iff] at hsome
    rw [pascalTail, copyToPascal_eq, List.length_append, List.length_cons, List.length_take,
      List.length_replicate]
    omega
  · have hread := read_bytes [(1, 0), (2, c.dtrefnum.toNat), (4, did.toNat)] p
    simp only [List.map_cons, List.map_nil] at hread
    simp only [decodeBody, hread, ofNat_mod16, ofNat_mod32]
  · simp [Sender.reference, onWire, Prod.ext_iff]

/-! ## Every request -/

/-- **A request arrives if and only if it fits.** -/
theorem arrives_iff {c : Sender} (hencoding : c.encoding ≠ .kFPShortName)
    (haddress : c.address % 2 = 0) (r : Request) (htyped : Typed r) :
    c.Arrives r ↔ Fits c.encoding r := by
  cases r with
  | getFileDirParms did filebitmap dirbitmap pathname =>
    exact (arrives_getFileDirParms hencoding htyped).trans and_assoc
  | setFileParms dirid pathname bitmap fp =>
    obtain ⟨hname, hsettable, hfinderinfo⟩ := htyped
    refine arrives_setparms hencoding haddress (.setFileParms dirid) rfl (fun packet p => ?_) rfl rfl
      (by simp) hname hsettable hfinderinfo
    simp only [decodeBody, read_set, UInt16.ofNat_toNat, UInt32.ofNat_toNat]
  | setDirParms dirid pathname bitmap fp =>
    obtain ⟨hname, hsettable, hfinderinfo⟩ := htyped
    refine arrives_setparms hencoding haddress (.setDirParms dirid) rfl (fun packet p => ?_) rfl rfl
      (by simp) hname hsettable hfinderinfo
    simp only [decodeBody, read_set, UInt16.ofNat_toNat, UInt32.ofNat_toNat]
  | setFileDirParms dirid pathname bitmap fp =>
    obtain ⟨hname, hsettable, hfinderinfo⟩ := htyped
    refine arrives_setparms hencoding haddress (.setFileDirParms dirid) rfl (fun packet p => ?_) rfl
      rfl (by simp) hname hsettable hfinderinfo
    simp only [decodeBody, read_set, UInt16.ofNat_toNat, UInt32.ofNat_toNat]
  | delete dirid pathname => exact (arrives_delete hencoding htyped).trans (iff_of_eq (true_and _))
  | createFile flag did pathname => exact arrives_createFile hencoding htyped
  | createDir dirid pathname => exact (arrives_createDir hencoding htyped).trans (iff_of_eq (true_and _))
  | moveAndRename srcDid dstDid srcPath dstPath newName =>
    exact arrives_moveAndRename hencoding htyped.1 htyped.2.1 htyped.2.2
  | openFork resourceFork dirid accessmode filename => exact arrives_openFork hencoding htyped
  | closeFork forkid => exact iff_of_true (arrives_closeFork forkid) trivial
  | setForkParms forkid bitmap len => exact arrives_setForkParms
  | byteRangeLock unlock forkid offset len =>
    exact iff_of_true (arrives_byteRangeLock unlock forkid offset len) trivial
  | byteRangeLockExt unlock forkid offset len =>
    exact iff_of_true (arrives_byteRangeLockExt unlock forkid offset len) trivial
  | read forkid offset count maxsize =>
    exact iff_of_true (arrives_read forkid offset count maxsize) trivial
  | readExt forkid offset count maxsize =>
    exact iff_of_true (arrives_readExt forkid offset count maxsize) trivial
  | write forkid offset reqcount data => exact arrives_write
  | writeExt forkid offset reqcount data => exact arrives_writeExt
  | enumerate dirid filebitmap dirbitmap reqcount startindex pathname =>
    exact (arrives_enumerate hencoding htyped).trans and_assoc
  | enumerateExt2 dirid filebitmap dirbitmap reqcount startindex pathname =>
    exact (arrives_enumerateExt2 hencoding htyped).trans (by simp only [Fits, and_assoc])
  | openDT => exact iff_of_true arrives_openDT trivial
  | getComment did pathname maxsize =>
    exact (arrives_getComment hencoding htyped).trans (iff_of_eq (true_and _))
  | addComment did pathname comment => exact arrives_addComment hencoding haddress htyped

end RequestWire
end Afpfs
