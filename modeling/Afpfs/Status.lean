import Afpfs.Lib.Printing
import Mathlib.Data.Nat.Digits.Defs

/-!
# The status of the client

`lib/status.c` prints what the client is and what its servers and volumes are, and
`afp_list_volnames()` of `lib/afp.c` the names of the volumes.  The functions add what `snprintf()`
answers to their position and go on, so a text that is too long leads behind the buffer, with a
size that has wrapped around.  `process_status()` of the daemon hands the same start of its buffer to
`afp_status_server()` for every server.

* `printVolumeStatus_eq`, `afpStatusServer_eq`: what the functions print, as a list of pieces.
* `status_iff`: when each function stays in its buffer, and when the texts of the servers are behind
  one another.
* `short_buffer_is_left`: a header that does not fit.
-/

set_option autoImplicit false

namespace Afpfs
namespace Status

open Printing Memory

/-! ## Strings -/

/-- A string: no byte of it is 0. -/
abbrev CStr := { s : List UInt8 // 0 ∉ s }

theorem noNul_append {a b : List UInt8} (ha : 0 ∉ a) (hb : 0 ∉ b) : 0 ∉ a ++ b := fun h =>
  (List.mem_append.mp h).elim ha hb

instance : Append CStr := ⟨fun a b => ⟨a.1 ++ b.1, noNul_append a.2 b.2⟩⟩

/-- The bytes of a literal. -/
def ascii (s : String) : List UInt8 := s.toList.map fun c => c.toNat.toUInt8

/-- A literal. -/
def lit (s : String) (h : 0 ∉ ascii s) : CStr := ⟨ascii s, h⟩

/-- The character of a digit. -/
def digit (d : ℕ) : UInt8 := UInt8.ofNat (if d < 10 then 48 + d else 87 + d)

theorem digit_ne_zero {d : ℕ} (h : d < 16) : digit d ≠ 0 := by
  have hall : ∀ d < 16, digit d ≠ 0 := by decide
  exact hall d h

/-- The digits of a number. -/
def digits (base n : ℕ) : List UInt8 :=
  if n = 0 then [48] else (Nat.digits base n).reverse.map digit

theorem noNul_digits {base : ℕ} (hbase : 1 < base ∧ base ≤ 16) (n : ℕ) : 0 ∉ digits base n := by
  rw [digits]
  split
  · decide
  · intro h
    obtain ⟨d, hd, hzero⟩ := List.mem_map.mp h
    have hlt := Nat.digits_lt_base hbase.1 (List.mem_reverse.mp hd)
    exact digit_ne_zero (Nat.lt_of_lt_of_le hlt hbase.2) hzero

/-- `%u` and `%llu`. -/
def unsigned (n : ℕ) : CStr := ⟨digits 10 n, noNul_digits (by decide) n⟩

/-- `%x`. -/
def hex (n : ℕ) : CStr := ⟨digits 16 n, noNul_digits (by decide) n⟩

/-- `%d`. -/
def signed (z : ℤ) : CStr :=
  if z < 0 then lit "-" (by decide) ++ unsigned z.natAbs else unsigned z.toNat

/-- `%02x` of each byte. -/
def hexBytes (bytes : List UInt8) : CStr :=
  ⟨bytes.flatMap fun b => [digit (b.toNat / 16), digit (b.toNat % 16)], by
    intro h
    obtain ⟨b, -, hb⟩ := List.mem_flatMap.mp h
    have hlt := b.toNat_lt
    rcases List.mem_cons.mp hb with hb | hb
    · exact digit_ne_zero (by omega) hb.symm
    · exact digit_ne_zero (Nat.mod_lt _ (by decide)) (List.mem_singleton.mp hb).symm⟩

/-! ## What is printed of -/

/-- What is printed of a `struct afp_volume`. -/
structure AfpVolume where
  volumeNamePrintable : CStr
  volid : UInt16
  attributes : UInt16
  flags : Int8
  mounted : UInt8
  mountpoint : CStr
  extraFlags : UInt32
  misses : UInt64
  hits : UInt64
  expired : UInt64
  forceRemoved : UInt64
  mapping : ℕ

/-- What is printed of a `struct dsi_request`. -/
structure DsiRequest where
  requestid : UInt16
  subcommand : UInt8

/-- What is printed of a `struct afp_server`.  `sinAddr` is what `inet_ntoa()` makes of the address,
and `sinPort` the port in the order of the host. -/
structure AfpServer where
  serverNamePrintable : CStr
  sinAddr : CStr
  sinPort : UInt16
  connectState : ℤ
  avName : CStr
  signature : List UInt8
  supportedUams : UInt32
  usingUam : UInt32
  loginmesg : CStr
  machineType : CStr
  isNetatalk : Bool
  txDelay : UInt32
  txQuantum : UInt32
  rxQuantum : UInt32
  lastrequestid : UInt16
  requestsPending : UInt64
  commandRequests : List DsiRequest
  rxBytes : UInt64
  txBytes : UInt64
  runtPackets : UInt64
  serverUid : UInt32
  serverGid : UInt32
  volumes : List AfpVolume

/-- `AFP_VOLUME_MOUNTED`. -/
def AFP_VOLUME_MOUNTED : UInt8 := 1

/-- `SERVER_STATE_DISCONNECTED`. -/
def SERVER_STATE_DISCONNECTED : ℤ := 2

/-- `volume_is_readonly()`: `kReadOnly` or `VOLUME_EXTRA_FLAGS_READONLY`. -/
def volumeIsReadonly (v : AfpVolume) : Bool := v.attributes &&& 1 ≠ 0 || v.extraFlags &&& 64 ≠ 0

/-- `get_mapping_name()`, for the mappings that there are. -/
def getMappingName (v : AfpVolume) : CStr :=
  [lit "Unknown" (by decide), lit "Common user directory" (by decide), lit "Login ids" (by decide),
    lit "Name mapped" (by decide)].getD v.mapping (lit "" (by decide))

/-- `uam_bitmap_to_string()`, which is given one bit: the name of the highest one. -/
def uamBitmapToString (bitmap : ℕ) : CStr :=
  [lit "No User Authent" (by decide), lit "Cleartxt Passwrd" (by decide),
    lit "Randnum Exchange" (by decide), lit "2-Way Randnum Exchange" (by decide),
    lit "DHCAST128" (by decide), lit "Client Krb v2" (by decide), lit "DHX2" (by decide),
    lit "Recon1" (by decide)].getD bitmap.log2 (lit "" (by decide))

/-! ## What is printed -/

section Lines

-- the name of a command, and the list that the registered UAMs are in
variable (afpGetCommandName : UInt8 → CStr) (uamNamesList : CStr)

def headerText : CStr :=
  lit "AFPFS Version: 0.9\nUAMs compiled in: " (by decide) ++ uamNamesList ++ lit "\n" (by decide)

def volumeLine (v : AfpVolume) : CStr :=
  lit "    Volume " (by decide) ++ v.volumeNamePrintable ++
    lit ", id " (by decide) ++ signed v.volid.toNat ++
    lit ", attribs 0x" (by decide) ++ hex v.attributes.toNat ++
    lit " flags 0x" (by decide) ++ hex (v.flags.toInt % 2 ^ 32).toNat ++
    lit " mounted: " (by decide) ++
    (if v.mounted = AFP_VOLUME_MOUNTED then v.mountpoint else lit "No" (by decide)) ++
    (if v.mounted = AFP_VOLUME_MOUNTED ∧ volumeIsReadonly v then lit " (read only)" (by decide)
      else lit "" (by decide)) ++
    lit "\n" (by decide)

def cacheLines (s : AfpServer) (v : AfpVolume) : CStr :=
  lit "        did cache stats: " (by decide) ++ unsigned v.misses.toNat ++
    lit " miss, " (by decide) ++ unsigned v.hits.toNat ++
    lit " hit, " (by decide) ++ unsigned v.expired.toNat ++
    lit " expired, " (by decide) ++ unsigned v.forceRemoved.toNat ++
    lit " force removal\n        uid/gid mapping: " (by decide) ++ getMappingName v ++
    lit " (" (by decide) ++ signed s.serverUid.toInt32.toInt ++
    lit "/" (by decide) ++ signed s.serverGid.toInt32.toInt ++ lit ")\n" (by decide)

def permissionsText (v : AfpVolume) : CStr :=
  lit "        Unix permissions: " (by decide) ++
    (if v.extraFlags &&& 8 ≠ 0 then lit "Yes" (by decide) else lit "No" (by decide))

def brokenText : CStr := lit ", Netatalk permissions broken: " (by decide)

def notConnectedLine : CStr := lit "Not connected to any servers\n" (by decide)

def serverLines (s : AfpServer) : CStr :=
  lit "Server " (by decide) ++ s.serverNamePrintable ++
    lit "\n    connection: " (by decide) ++ s.sinAddr ++
    lit ":" (by decide) ++ signed s.sinPort.toNat ++ lit " " (by decide) ++
    (if s.connectState = SERVER_STATE_DISCONNECTED then lit "Disconnected" (by decide)
      else lit "(active)" (by decide)) ++
    lit "\n    using AFP version: " (by decide) ++ s.avName ++ lit "\n" (by decide)

def uamsText : CStr := lit "    server UAMs: " (by decide)

def uamText (s : AfpServer) (j : ℕ) : CStr :=
  if j = s.usingUam.toNat then uamBitmapToString j ++ lit " (used)" (by decide)
  else uamBitmapToString j

def loginLines (s : AfpServer) : CStr :=
  lit "\n    login message: " (by decide) ++ s.loginmesg ++
    lit "\n    type: " (by decide) ++ s.machineType

def signatureLines (s : AfpServer) : CStr :=
  lit "\n    signature: " (by decide) ++ hexBytes s.signature ++
    lit "\n    transmit delay: " (by decide) ++ unsigned s.txDelay.toNat ++
    lit "ms\n    quantums: " (by decide) ++ unsigned s.txQuantum.toNat ++
    lit "(tx) " (by decide) ++ unsigned s.rxQuantum.toNat ++
    lit "(rx)\n    last request id: " (by decide) ++ signed s.lastrequestid.toNat ++
    lit " in queue: " (by decide) ++ unsigned s.requestsPending.toNat ++ lit "\n" (by decide)

def requestLine (request : DsiRequest) : CStr :=
  lit "         request " (by decide) ++ signed request.requestid.toNat ++
    lit ", " (by decide) ++ afpGetCommandName request.subcommand ++ lit "\n" (by decide)

def transferLines (s : AfpServer) : CStr :=
  lit "    transfer: " (by decide) ++ unsigned s.rxBytes.toNat ++
    lit "(rx) " (by decide) ++ unsigned s.txBytes.toNat ++
    lit "(tx)\n    runt packets: " (by decide) ++ unsigned s.runtPackets.toNat ++
    lit "\n" (by decide)

/-! ## The functions -/

/-- `pos += snprintf(text + pos, *len - pos, ..)`. -/
def put (len : ℤ) (p : Printer) (s : CStr) : Printer := p.print len s.1

/-- `afp_status_header()`: the buffer, `*len` and the result. -/
def afpStatusHeader (text : Text) (len : ℤ) : Text × ℤ × ℤ :=
  let text := text.memset len
  let text := text.snprintf 0 len (headerText uamNamesList).1
  let pos : ℤ := (headerText uamNamesList).1.length
  let len := len - pos
  (text, len, if len = 0 then -1 else pos)

/-- `print_volume_status()`. -/
def printVolumeStatus (s : AfpServer) (v : AfpVolume) (len : ℤ) (p : Printer) : Printer :=
  let fl := v.extraFlags
  let p := put len p (volumeLine v)
  if v.mounted = AFP_VOLUME_MOUNTED then
    let p := put len p (cacheLines s v)
    let p := put len p (permissionsText v)
    if s.isNetatalk then
      let p := put len p brokenText
      if fl &&& 1 ≠ 0 then
        if fl &&& 2 ≠ 0 then put len p (lit "Yes\n" (by decide))
        else put len p (lit "No\n" (by decide))
      else put len p (lit "Unknown\n" (by decide))
    else p
  else p

/-- The loop of `afp_status_server()` over the bits of the UAMs. -/
def uamLoop (s : AfpServer) (len : ℤ) : List ℕ → Bool → Printer → Printer
  | [], _, p => p
  | j :: js, firsttime, p =>
    if j &&& s.supportedUams.toNat ≠ 0 then
      let p := if firsttime then put len p (lit ", " (by decide)) else p
      uamLoop s len js true (put len p (uamText s j))
    else uamLoop s len js firsttime p

/-- `1`, `2` and so on below `0x100`. -/
def uamBits : List ℕ := (List.range 8).map (2 ^ ·)

/-- `afp_status_server()`: the buffer, `*len` and the result. -/
def afpStatusServer (s : Option AfpServer) (text : Text) (len : ℤ) : Text × ℤ × ℤ :=
  let p : Printer := { text := text.memset len, pos := 0 }
  let p :=
    match s with
    | none => put len p notConnectedLine
    | some s =>
      let p := put len p (serverLines s)
      let p := put len p uamsText
      let p := uamLoop s len uamBits false p
      let p := put len p (loginLines s)
      let p := put len p (signatureLines s)
      let p := s.commandRequests.foldl
        (fun p request => put len p (requestLine afpGetCommandName request)) p
      let p := put len p (transferLines s)
      if len = 0 then p
      else s.volumes.foldl
        (fun p v => put len (printVolumeStatus s v len p) (lit "\n" (by decide))) p
  (p.text, len - p.pos, p.pos)

/-- The loop of `afp_list_volnames()`. -/
def volnamesLoop (max : ℤ) : List AfpVolume → Printer → Printer
  | [], p => p
  | [v], p => put max p v.volumeNamePrintable
  | v :: v' :: volumes, p =>
    volnamesLoop max (v' :: volumes) (put max p (v.volumeNamePrintable ++ lit ", " (by decide)))

/-- `afp_list_volnames()`: the buffer and the result. -/
def afpListVolnames (server : AfpServer) (names : Text) (max : ℤ) : Text × ℕ :=
  let p := volnamesLoop max server.volumes { text := names, pos := 0 }
  (p.text, p.pos)

/-- `STATUS_RESULT_LEN`. -/
def statusResultLen : ℕ := 40960

/-- The loop of `process_status()` over the servers.  The text of each is printed at the start of
the buffer. -/
def serversLoop (servers : List AfpServer) (text : Text) (len : ℤ) : Text × ℤ :=
  match servers with
  | [] => (text, len)
  | s :: servers =>
    let (text, len, _) := afpStatusServer afpGetCommandName (some s) text len
    serversLoop servers text len

/-- `process_status()` of the daemon: the text behind the response and `len`. -/
def processStatus (servers : List AfpServer) : Text × ℤ :=
  let (text, len, _) := afpStatusHeader uamNamesList ⟨fun _ => 0, []⟩ statusResultLen
  serversLoop afpGetCommandName servers text len

/-! ## Texts -/

/-- The pieces of a volume. -/
def volumePieces (s : AfpServer) (v : AfpVolume) : List CStr :=
  volumeLine v ::
    if v.mounted = AFP_VOLUME_MOUNTED then
      cacheLines s v :: permissionsText v ::
        if s.isNetatalk then
          [brokenText,
            if v.extraFlags &&& 1 ≠ 0 then
              if v.extraFlags &&& 2 ≠ 0 then lit "Yes\n" (by decide) else lit "No\n" (by decide)
            else lit "Unknown\n" (by decide)]
        else []
    else []

/-- The names of the UAMs, with a comma between two. -/
def uamPieces (s : AfpServer) : List ℕ → Bool → List CStr
  | [], _ => []
  | j :: js, firsttime =>
    if j &&& s.supportedUams.toNat ≠ 0 then
      (if firsttime then [lit ", " (by decide)] else []) ++ uamText s j :: uamPieces s js true
    else uamPieces s js firsttime

/-- The pieces of a server before its volumes. -/
def basePieces (s : AfpServer) : List CStr :=
  [serverLines s, uamsText] ++ (uamPieces s uamBits false ++ ([loginLines s, signatureLines s] ++
    (s.commandRequests.map (requestLine afpGetCommandName) ++ [transferLines s])))

/-- The pieces of a server. -/
def statusPieces : Option AfpServer → List CStr
  | none => [notConnectedLine]
  | some s => basePieces afpGetCommandName s ++
      s.volumes.flatMap fun v => volumePieces s v ++ [lit "\n" (by decide)]

/-- The pieces of a list of volumes. -/
def volnamesPieces : List AfpVolume → List CStr
  | [] => []
  | [v] => [v.volumeNamePrintable]
  | v :: v' :: volumes =>
    (v.volumeNamePrintable ++ lit ", " (by decide)) :: volnamesPieces (v' :: volumes)

/-- The bytes of some pieces. -/
def bytesOf (pieces : List CStr) : List UInt8 := (pieces.map Subtype.val).flatten

/-- The text of a server. -/
def serverText (s : AfpServer) : List UInt8 := bytesOf (statusPieces afpGetCommandName (some s))

/-- Put pieces, one behind the other. -/
def puts (len : ℤ) (p : Printer) (pieces : List CStr) : Printer :=
  p.prints len (pieces.map Subtype.val)

end Lines

section Puts

variable {afpGetCommandName : UInt8 → CStr} {len : ℤ} {p : Printer} {s : AfpServer}

@[simp] theorem puts_nil : puts len p [] = p := rfl

theorem puts_cons (piece : CStr) (pieces : List CStr) :
    puts len p (piece :: pieces) = puts len (put len p piece) pieces := rfl

theorem puts_append (l r : List CStr) : puts len p (l ++ r) = puts len (puts len p l) r := by
  rw [puts, List.map_append, prints_append]
  rfl

theorem foldl_put {α : Type} (f : α → CStr) (l : List α) :
    l.foldl (fun p a => put len p (f a)) p = puts len p (l.map f) := by
  rw [puts, List.map_map]
  exact foldl_print _ l

theorem printVolumeStatus_eq (v : AfpVolume) :
    printVolumeStatus s v len p = puts len p (volumePieces s v) := by
  rw [printVolumeStatus, volumePieces, puts_cons]
  simp only
  split
  · rw [puts_cons, puts_cons]
    split
    · rw [puts_cons, puts_cons]
      split
      · split <;> rfl
      · rfl
    · rfl
  · rfl

theorem uamLoop_eq (js : List ℕ) (firsttime : Bool) :
    uamLoop s len js firsttime p = puts len p (uamPieces s js firsttime) := by
  induction js generalizing firsttime p with
  | nil => rfl
  | cons j js ih =>
    rw [uamLoop, uamPieces]
    split
    · simp only
      rw [ih, puts_append, puts_cons]
      cases firsttime <;> rfl
    · exact ih firsttime

theorem volnamesLoop_eq (volumes : List AfpVolume) :
    volnamesLoop len volumes p = puts len p (volnamesPieces volumes) := by
  induction volumes generalizing p with
  | nil => rfl
  | cons v volumes ih =>
    cases volumes with
    | nil => rfl
    | cons v' volumes => rw [volnamesLoop, ih, volnamesPieces, puts_cons]

theorem foldl_volumes (volumes : List AfpVolume) :
    volumes.foldl (fun p v => put len (printVolumeStatus s v len p) (lit "\n" (by decide))) p =
      puts len p (volumes.flatMap fun v => volumePieces s v ++ [lit "\n" (by decide)]) := by
  induction volumes generalizing p with
  | nil => rfl
  | cons v volumes ih =>
    rw [List.foldl_cons, ih, List.flatMap_cons, puts_append, puts_append, printVolumeStatus_eq]
    rfl

/-- **What is printed of a server**: all its pieces, or without its volumes when there is no room at
the start. -/
theorem afpStatusServer_eq (s : AfpServer) (text : Text) :
    afpStatusServer afpGetCommandName (some s) text len =
      let p := puts len ⟨text.memset len, 0⟩ (if len = 0 then basePieces afpGetCommandName s
        else statusPieces afpGetCommandName (some s))
      (p.text, len - p.pos, (p.pos : ℤ)) := by
  have hbase : ∀ p, puts len p (basePieces afpGetCommandName s) =
      put len (s.commandRequests.foldl
        (fun p request => put len p (requestLine afpGetCommandName request))
        (put len (put len (uamLoop s len uamBits false (put len (put len p (serverLines s)) uamsText))
          (loginLines s)) (signatureLines s))) (transferLines s) := by
    intro p
    rw [basePieces, puts_append, puts_append, puts_append, puts_append, uamLoop_eq, foldl_put]
    rfl
  rw [afpStatusServer]
  simp only [← hbase]
  split
  · rfl
  · rw [foldl_volumes, statusPieces, puts_append]

theorem pos_puts (pieces : List CStr) : (puts len p pieces).pos = p.pos + (bytesOf pieces).length :=
  pos_prints

theorem calls_puts (pieces : List CStr) :
    (puts len p pieces).text.calls =
      p.text.calls ++ callsFrom len p.pos (pieces.map Subtype.val) := calls_prints

theorem noNul_bytesOf (pieces : List CStr) : 0 ∉ bytesOf pieces := by
  intro h
  obtain ⟨l, hl, hmem⟩ := List.mem_flatten.mp h
  obtain ⟨piece, -, rfl⟩ := List.mem_map.mp hl
  exact piece.2 hmem

theorem bytesOf_append (l r : List CStr) : bytesOf (l ++ r) = bytesOf l ++ bytesOf r := by
  rw [bytesOf, List.map_append, List.flatten_append]
  rfl

/-- The text of a server has at least the word for it. -/
theorem bytesOf_basePieces_pos : 0 < (bytesOf (basePieces afpGetCommandName s)).length := by
  have hpair : bytesOf [serverLines s, uamsText] = (serverLines s).1 ++ (uamsText.1 ++ []) := rfl
  have huams : 0 < uamsText.1.length := by decide
  rw [basePieces, bytesOf_append, List.length_append, hpair, List.length_append, List.length_append]
  omega

end Puts

/-! ## Staying in the buffer -/

/-- No call leaves the buffer, and the length that remains is not negative. -/
structure Stays (room : ℕ) (text : Text) (len : ℤ) : Prop where
  inside : Inside room text.calls
  remaining : 0 ≤ len

section Stays

variable {afpGetCommandName : UInt8 → CStr} {uamNamesList : CStr} {room : ℕ} {len : ℤ}
  {text : Text}

theorem stays_iff : Stays room text len ↔
    (∀ c ∈ text.calls, c.position ≤ room ∧ c.size ≤ room - c.position) ∧ 0 ≤ len :=
  ⟨fun h => ⟨h.inside, h.remaining⟩, fun h => ⟨h.1, h.2⟩⟩

instance : Decidable (Stays room text len) := decidable_of_iff _ stays_iff.symm

theorem stays_header_iff (hroom : room < 2 ^ 31) (m : ℕ → UInt8) :
    Stays room (afpStatusHeader uamNamesList ⟨m, []⟩ room).1
        (afpStatusHeader uamNamesList ⟨m, []⟩ room).2.1 ↔
      (headerText uamNamesList).1.length ≤ room := by
  constructor
  · intro h
    have hremaining := h.remaining
    simp only [afpStatusHeader] at hremaining
    omega
  · intro hfits
    refine ⟨?_, ?_⟩
    · refine inside_cons.mpr ⟨⟨Nat.zero_le room, ?_⟩, inside_nil⟩
      exact (sizeT_natCast (by omega)).le
    · simp only [afpStatusHeader]
      omega

/-- A server, wherever the text before it has left the length that remains. -/
theorem stays_server_iff (hroom : room < 2 ^ 31) (hlen : len ≤ room) (s : AfpServer) :
    Stays room (afpStatusServer afpGetCommandName (some s) text len).1
        (afpStatusServer afpGetCommandName (some s) text len).2.1 ↔
      Inside room text.calls ∧ ((serverText afpGetCommandName s).length : ℤ) ≤ len := by
  have hbase := @bytesOf_basePieces_pos afpGetCommandName s
  have hfull : (bytesOf (basePieces afpGetCommandName s)).length ≤
      (serverText afpGetCommandName s).length := by
    rw [serverText, statusPieces, bytesOf_append, List.length_append]
    exact Nat.le_add_right _ _
  rw [afpStatusServer_eq]
  by_cases hzero : len = 0
  · refine iff_of_false (fun h => ?_) (by omega)
    have hremaining := h.remaining
    simp only [pos_puts, if_pos hzero] at hremaining
    omega
  · simp only [if_neg hzero]
    constructor
    · intro h
      obtain ⟨hinside, hremaining⟩ := h
      rw [calls_puts, inside_append] at hinside
      rw [pos_puts] at hremaining
      refine ⟨hinside.1, ?_⟩
      rw [serverText]
      omega
    · rintro ⟨hinside, hfits⟩
      obtain ⟨n, rfl⟩ := Int.eq_ofNat_of_zero_le (a := len) (by omega)
      refine ⟨?_, ?_⟩
      · rw [calls_puts, inside_append]
        refine ⟨hinside, (inside_callsFrom (by omega) ?_).mono (by omega)⟩
        rw [Nat.zero_add]
        exact Int.ofNat_le.mp hfits
      · rw [pos_puts, Nat.zero_add]
        rw [serverText] at hfits
        omega

/-- Without a server. -/
theorem stays_notConnected_iff (hroom : room < 2 ^ 31) (m : ℕ → UInt8) :
    Stays room (afpStatusServer afpGetCommandName none ⟨m, []⟩ room).1
        (afpStatusServer afpGetCommandName none ⟨m, []⟩ room).2.1 ↔
      notConnectedLine.1.length ≤ room := by
  constructor
  · intro h
    have hremaining := h.remaining
    simp only [afpStatusServer, put, Printer.print] at hremaining
    omega
  · intro hfits
    refine ⟨?_, ?_⟩
    · refine inside_cons.mpr ⟨⟨Nat.zero_le room, ?_⟩, inside_nil⟩
      exact (sizeT_sub (Nat.zero_le room) (by omega)).le
    · simp only [afpStatusServer, put, Printer.print]
      omega

/-- **The names of the volumes**: those before the last have to fit. -/
theorem inside_volnames_iff (hroom : room < 2 ^ 31) (server : AfpServer) (m : ℕ → UInt8) :
    Inside room (afpListVolnames server ⟨m, []⟩ room).1.calls ↔
      (bytesOf (volnamesPieces server.volumes).dropLast).length ≤ room := by
  rw [afpListVolnames, volnamesLoop_eq]
  simp only [calls_puts, List.nil_append]
  rw [inside_callsFrom_iff (by omega) (Nat.zero_le room), Nat.zero_add, bytesOf, List.map_dropLast]

/-! ## All servers -/

/-- The texts of all servers. -/
def serverTexts (afpGetCommandName : UInt8 → CStr) (servers : List AfpServer) : List UInt8 :=
  servers.flatMap (serverText afpGetCommandName)

theorem serverText_pos (s : AfpServer) : 0 < (serverText afpGetCommandName s).length := by
  rw [serverText, statusPieces, bytesOf_append, List.length_append]
  exact Nat.add_pos_left bytesOf_basePieces_pos _

theorem len_afpStatusServer (s : AfpServer) (hlen : len ≠ 0) :
    (afpStatusServer afpGetCommandName (some s) text len).2.1 =
      len - (serverText afpGetCommandName s).length := by
  rw [afpStatusServer_eq]
  simp only [if_neg hlen, pos_puts, Nat.zero_add]
  rfl

theorem len_afpStatusServer_le (s : AfpServer) :
    (afpStatusServer afpGetCommandName (some s) text len).2.1 ≤ len := by
  rw [afpStatusServer_eq]
  exact Int.sub_le_self _ (Int.natCast_nonneg _)

theorem length_serverTexts_cons (s : AfpServer) (servers : List AfpServer) :
    (serverTexts afpGetCommandName (s :: servers)).length =
      (serverText afpGetCommandName s).length + (serverTexts afpGetCommandName servers).length := by
  rw [serverTexts, List.flatMap_cons, List.length_append]
  rfl

/-- **The loop over the servers** stays in the buffer if their texts fit together. -/
theorem stays_serversLoop_iff (hroom : room < 2 ^ 31) (hlen : len ≤ room)
    (servers : List AfpServer) :
    Stays room (serversLoop afpGetCommandName servers text len).1
        (serversLoop afpGetCommandName servers text len).2 ↔
      Inside room text.calls ∧ ((serverTexts afpGetCommandName servers).length : ℤ) ≤ len := by
  induction servers generalizing text len with
  | nil => exact ⟨fun h => ⟨h.inside, h.remaining⟩, fun h => ⟨h.1, h.2⟩⟩
  | cons s servers ih =>
    have hpos := @serverText_pos afpGetCommandName s
    have hle := @len_afpStatusServer_le afpGetCommandName len text s
    have hserver := @stays_server_iff afpGetCommandName room len text hroom hlen s
    have hloop := @ih (afpStatusServer afpGetCommandName (some s) text len).2.1
      (afpStatusServer afpGetCommandName (some s) text len).1 (hle.trans hlen)
    rw [serversLoop]
    refine hloop.trans ?_
    rw [length_serverTexts_cons]
    constructor
    · rintro ⟨hinside, hrest⟩
      obtain ⟨htext, hfits⟩ := hserver.mp ⟨hinside, (Int.natCast_nonneg _).trans hrest⟩
      rw [len_afpStatusServer s (by omega)] at hrest
      exact ⟨htext, by omega⟩
    · rintro ⟨htext, hfits⟩
      have hstays := hserver.mpr ⟨htext, by omega⟩
      refine ⟨hstays.inside, ?_⟩
      rw [len_afpStatusServer s (by omega)]
      omega

theorem processStatus_eq (servers : List AfpServer) :
    processStatus afpGetCommandName uamNamesList servers =
      serversLoop afpGetCommandName servers
        (afpStatusHeader uamNamesList ⟨fun _ => 0, []⟩ statusResultLen).1
        (statusResultLen - (headerText uamNamesList).1.length) := rfl

/-- **The whole answer** stays in its buffer if the header and the texts fit together. -/
theorem stays_processStatus_iff (servers : List AfpServer) :
    Stays statusResultLen (processStatus afpGetCommandName uamNamesList servers).1
        (processStatus afpGetCommandName uamNamesList servers).2 ↔
      (headerText uamNamesList).1.length + (serverTexts afpGetCommandName servers).length ≤
        statusResultLen := by
  have hroom : statusResultLen < 2 ^ 31 := by decide
  have hinside : Inside statusResultLen
      (afpStatusHeader uamNamesList ⟨fun _ => 0, []⟩ statusResultLen).1.calls :=
    inside_cons.mpr ⟨⟨Nat.zero_le _, (sizeT_natCast (by decide)).le⟩, inside_nil⟩
  rw [processStatus_eq]
  refine (stays_serversLoop_iff hroom (by omega) servers).trans ?_
  rw [and_iff_right hinside]
  omega

/-! ## What is in the answer -/

theorem len_serversLoop (servers : List AfpServer)
    (hfits : ((serverTexts afpGetCommandName servers).length : ℤ) < len) :
    (serversLoop afpGetCommandName servers text len).2 =
      len - (serverTexts afpGetCommandName servers).length := by
  induction servers generalizing text len with
  | nil => exact (Int.sub_zero len).symm
  | cons s servers ih =>
    rw [length_serverTexts_cons] at hfits ⊢
    have hlen := @len_afpStatusServer afpGetCommandName len text s (by omega)
    rw [serversLoop]
    simp only [hlen]
    rw [ih (by omega)]
    omega

theorem serversLoop_append (servers : List AfpServer) (s : AfpServer) :
    (serversLoop afpGetCommandName (servers ++ [s]) text len).1 =
      (afpStatusServer afpGetCommandName (some s)
        (serversLoop afpGetCommandName servers text len).1
        (serversLoop afpGetCommandName servers text len).2).1 := by
  induction servers generalizing text len with
  | nil => rfl
  | cons s' servers ih => exact ih

/-- The text of the answer is something and, behind it, the texts of the servers in their order. -/
def Appended (afpGetCommandName : UInt8 → CStr) (uamNamesList : CStr) (servers : List AfpServer) :
    Prop :=
  ∃ before, IsString (processStatus afpGetCommandName uamNamesList servers).1.memory
    (before ++ serverTexts afpGetCommandName servers)

/-- A server that there is room for. -/
theorem isString_afpStatusServer {n : ℕ} (hlen : n < 2 ^ 31) (s : AfpServer)
    (hfits : (serverText afpGetCommandName s).length < n) :
    IsString (afpStatusServer afpGetCommandName (some s) text n).1.memory
      (serverText afpGetCommandName s) := by
  rw [afpStatusServer_eq, if_neg (by omega)]
  exact isString_prints (by omega) hfits (noNul_bytesOf _)

theorem isString_header (hfits : (headerText uamNamesList).1.length < statusResultLen) :
    IsString (afpStatusHeader uamNamesList ⟨fun _ => 0, []⟩ statusResultLen).1.memory
      (headerText uamNamesList).1 := by
  have hprints := @isString_prints statusResultLen [(headerText uamNamesList).1]
    ⟨fun _ => 0, []⟩ (by decide) (by simpa using hfits) (by simpa using (headerText uamNamesList).2)
  rw [List.flatten_singleton, prints_singleton, Printer.print] at hprints
  simp only [Nat.cast_zero, Int.sub_zero] at hprints
  exact hprints

/-- **The text of the answer** is the one of the last server. -/
theorem isString_processStatus (servers : List AfpServer) (s : AfpServer)
    (hfits : (headerText uamNamesList).1.length +
      (serverTexts afpGetCommandName (servers ++ [s])).length < statusResultLen) :
    IsString (processStatus afpGetCommandName uamNamesList (servers ++ [s])).1.memory
      (serverText afpGetCommandName s) := by
  have hpos := @serverText_pos afpGetCommandName s
  have hsplit : (serverTexts afpGetCommandName (servers ++ [s])).length =
      (serverTexts afpGetCommandName servers).length +
        (serverText afpGetCommandName s).length := by
    rw [serverTexts, List.flatMap_append, List.length_append, List.flatMap_singleton]
    rfl
  have hmax : statusResultLen < 2 ^ 31 := by decide
  rw [processStatus_eq, serversLoop_append, len_serversLoop servers (by omega)]
  obtain ⟨n, hn⟩ := Int.eq_ofNat_of_zero_le (a := (statusResultLen : ℤ) -
    (headerText uamNamesList).1.length - (serverTexts afpGetCommandName servers).length) (by omega)
  rw [hn]
  exact isString_afpStatusServer (by omega) s (by omega)

/-- **The texts are behind one another** exactly if there is at most one. -/
theorem appended_iff (servers : List AfpServer)
    (hfits : (headerText uamNamesList).1.length +
      (serverTexts afpGetCommandName servers).length < statusResultLen) :
    Appended afpGetCommandName uamNamesList servers ↔ servers.length ≤ 1 := by
  rcases List.eq_nil_or_concat servers with rfl | ⟨init, s, rfl⟩
  · refine iff_of_true ⟨(headerText uamNamesList).1, ?_⟩ (Nat.zero_le 1)
    have hheader : (headerText uamNamesList).1.length < statusResultLen := by omega
    rw [serverTexts, List.flatMap_nil, List.append_nil, processStatus_eq, serversLoop]
    dsimp only
    exact isString_header hheader
  · rw [List.concat_eq_append] at hfits ⊢
    have hlast := isString_processStatus init s hfits
    have hsplit : serverTexts afpGetCommandName (init ++ [s]) =
        serverTexts afpGetCommandName init ++ serverText afpGetCommandName s := by
      rw [serverTexts, List.flatMap_append, List.flatMap_singleton]
      rfl
    constructor
    · rintro ⟨before, hstring⟩
      have hlength := congrArg List.length (hlast.unique hstring)
      rw [hsplit, List.length_append, List.length_append] at hlength
      cases init with
      | nil => exact Nat.le_refl 1
      | cons s' init =>
        have hpos := @serverText_pos afpGetCommandName s'
        rw [length_serverTexts_cons] at hlength
        omega
    · intro hone
      rw [List.length_append, List.length_singleton] at hone
      obtain rfl := List.eq_nil_of_length_eq_zero (Nat.le_zero.mp (Nat.le_of_succ_le_succ hone))
      refine ⟨[], ?_⟩
      rw [hsplit]
      exact hlast

end Stays

/-- `afp_status_server()` in a buffer of its own. -/
theorem stays_statusServer_iff {room : ℕ} (hroom : room < 2 ^ 31) (afpGetCommandName : UInt8 → CStr)
    (s : Option AfpServer) (m : ℕ → UInt8) :
    Stays room (afpStatusServer afpGetCommandName s ⟨m, []⟩ room).1
        (afpStatusServer afpGetCommandName s ⟨m, []⟩ room).2.1 ↔
      (bytesOf (statusPieces afpGetCommandName s)).length ≤ room := by
  cases s with
  | none =>
    rw [stays_notConnected_iff hroom, statusPieces, bytesOf, List.map_singleton,
      List.flatten_singleton]
  | some s =>
    rw [stays_server_iff hroom (Int.le_refl _), and_iff_right inside_nil, Int.ofNat_le]
    rfl

/-- **When the functions stay in their buffers**: the header and the text of a server have to fit,
of the names of the volumes all but the last, and in the answer of the daemon everything together.
There, the texts of the servers are behind one another if there is at most one. -/
theorem status_iff {room : ℕ} (hroom : room < 2 ^ 31) (m : ℕ → UInt8)
    (afpGetCommandName : UInt8 → CStr) (uamNamesList : CStr) (s : Option AfpServer)
    (server : AfpServer) (servers : List AfpServer) :
    (Stays room (afpStatusHeader uamNamesList ⟨m, []⟩ room).1
        (afpStatusHeader uamNamesList ⟨m, []⟩ room).2.1 ↔
      (headerText uamNamesList).1.length ≤ room) ∧
    (Stays room (afpStatusServer afpGetCommandName s ⟨m, []⟩ room).1
        (afpStatusServer afpGetCommandName s ⟨m, []⟩ room).2.1 ↔
      (bytesOf (statusPieces afpGetCommandName s)).length ≤ room) ∧
    (Inside room (afpListVolnames server ⟨m, []⟩ room).1.calls ↔
      (bytesOf (volnamesPieces server.volumes).dropLast).length ≤ room) ∧
    (Stays statusResultLen (processStatus afpGetCommandName uamNamesList servers).1
        (processStatus afpGetCommandName uamNamesList servers).2 ↔
      (headerText uamNamesList).1.length + (serverTexts afpGetCommandName servers).length ≤
        statusResultLen) ∧
    ((headerText uamNamesList).1.length + (serverTexts afpGetCommandName servers).length <
        statusResultLen →
      (Appended afpGetCommandName uamNamesList servers ↔ servers.length ≤ 1)) :=
  ⟨stays_header_iff hroom m, stays_statusServer_iff hroom afpGetCommandName s m,
    inside_volnames_iff hroom server m, stays_processStatus_iff servers, appended_iff servers⟩

/-- A server without volumes. -/
def idleServer : AfpServer where
  serverNamePrintable := lit "a" (by decide)
  sinAddr := lit "10.0.0.1" (by decide)
  sinPort := 0
  connectState := 1
  avName := lit "AFP3.1" (by decide)
  signature := List.replicate 16 0
  supportedUams := 0
  usingUam := 0
  loginmesg := lit "" (by decide)
  machineType := lit "" (by decide)
  isNetatalk := false
  txDelay := 0
  txQuantum := 0
  rxQuantum := 0
  lastrequestid := 0
  requestsPending := 0
  commandRequests := []
  rxBytes := 0
  txBytes := 0
  runtPackets := 0
  serverUid := 0
  serverGid := 0
  volumes := []

/-- A volume that is mounted, read only. -/
def mountedVolume : AfpVolume where
  volumeNamePrintable := lit "music" (by decide)
  volid := 1
  attributes := 1
  flags := -128
  mounted := AFP_VOLUME_MOUNTED
  mountpoint := lit "/mnt/music" (by decide)
  extraFlags := 9
  misses := 3
  hits := 120
  expired := 1
  forceRemoved := 0
  mapping := 2

/-- A server with two volumes, which two requests wait for. -/
def busyServer : AfpServer :=
  { idleServer with
    sinPort := 548
    signature := List.replicate 16 0xab
    supportedUams := 0x46
    usingUam := 0x40
    isNetatalk := true
    rxQuantum := 131072
    lastrequestid := 9
    requestsPending := 2
    commandRequests := [⟨8, 61⟩, ⟨9, 60⟩]
    rxBytes := 65536
    volumes := [mountedVolume,
      { mountedVolume with volumeNamePrintable := lit "work" (by decide), volid := 2, mounted := 0 }] }

/-- The name of the commands that are sent here. -/
def readName : UInt8 → CStr := fun _ => lit "Read" (by decide)

/-- The names of the volumes fit in 100 bytes, and the text of the server does not.  In the answer
there is room for two servers, and one of them is missing. -/
theorem status_iff_of_busy :
    ¬ Stays 100 (afpStatusServer readName (some busyServer) ⟨fun _ => 0, []⟩ 100).1
        (afpStatusServer readName (some busyServer) ⟨fun _ => 0, []⟩ 100).2.1 ∧
      Inside 100 (afpListVolnames busyServer ⟨fun _ => 0, []⟩ 100).1.calls ∧
      Stays statusResultLen
        (processStatus readName (lit "DHX2" (by decide)) [busyServer, idleServer]).1
        (processStatus readName (lit "DHX2" (by decide)) [busyServer, idleServer]).2 ∧
      ¬ Appended readName (lit "DHX2" (by decide)) [busyServer, idleServer] := by
  obtain ⟨-, hserver, hnames, hprocess, happended⟩ := @status_iff 100 (by decide) (fun _ => 0)
    readName (lit "DHX2" (by decide)) (some busyServer) busyServer [busyServer, idleServer]
  exact ⟨mt hserver.mp (by decide +kernel), hnames.mpr (by decide +kernel),
    hprocess.mpr (by decide +kernel), mt (happended (by decide +kernel)).mp (by decide)⟩

/-- **Of two servers** only the second is in the answer. -/
theorem second_server_replaces_first :
    ¬ ∀ afpGetCommandName uamNamesList servers,
      (headerText uamNamesList).1.length + (serverTexts afpGetCommandName servers).length <
          statusResultLen → Appended afpGetCommandName uamNamesList servers := by
  intro h
  have hfits : (headerText (lit "" (by decide))).1.length +
      (serverTexts (fun _ => lit "" (by decide)) [idleServer, idleServer]).length <
        statusResultLen := by decide +kernel
  have htwo : 2 ≤ 1 := (appended_iff [idleServer, idleServer] hfits).mp (h _ _ _ hfits)
  exact absurd htwo (by decide)

end Status
end Afpfs
