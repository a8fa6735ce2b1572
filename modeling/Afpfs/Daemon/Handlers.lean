import Mathlib.Algebra.Order.Group.Nat
import Afpfs.Daemon.Getvols
import Afpfs.Daemon.Readdir
import Afpfs.Status
import Afpfs.Url

/-!
# One response for each request

`process_command_thread()` calls the handler of a command, and ignores what it returns.  A handler
is expected to send a response and to end the request, by closing the connection or by returning
it to the main loop.

The handlers are functions of the request and of what the operations below them come to
(`Outcomes`).  A handler also gets what the memory has where its result variable is not set;
`Thread.undefined` stands for every use of memory that is freed, that is behind what there is, or that
a pointer does not lead to, by the handler itself or by an operation below it.  The texts and the
data of the responses are left out.

* `responded_iff`: a request has one response, with a result that the outcomes determine and that
  is `AFP_SERVER_RESULT_OKAY` only if the operation succeeded, and is then ended as its header
  says, exactly if the outcomes meet the condition `Sound`, which is stated command by command.
* `ping_has_no_response`: otherwise it may have none.
-/

set_option autoImplicit false

namespace Afpfs
namespace Daemon
namespace Handlers

/-! ## Requests and outcomes -/

/-- The commands of `afpfsd.h`. -/
inductive Command where
  | mount
  | attach
  | detach
  | status
  | unmount
  | suspend
  | resume
  | ping
  | exit
  | connect
  | getvolid
  | readdir
  | getvols
  | stat
  | open
  | read
  | close
  | serverinfo
  | getMountpoint
  | unknown
  deriving DecidableEq

/-- The command of a number, `AFP_SERVER_COMMAND_MOUNT` and so on. -/
def Command.ofNumber : UInt8 → Command
  | 1 => .mount
  | 2 => .attach
  | 3 => .detach
  | 4 => .status
  | 6 => .unmount
  | 8 => .suspend
  | 9 => .resume
  | 11 => .ping
  | 12 => .exit
  | 14 => .connect
  | 16 => .getvolid
  | 19 => .readdir
  | 20 => .getvols
  | 21 => .stat
  | 22 => .open
  | 23 => .read
  | 24 => .close
  | 25 => .serverinfo
  | 26 => .getMountpoint
  | _ => .unknown

/-- A request in `complete_packet`, with the fields that decide what is sent. -/
structure Request where
  /-- `header.command`. -/
  command : UInt8
  /-- `header.close` is not 0. -/
  close : Bool
  /-- `completed_packet_size` is at least the size of the structure of the command. -/
  complete : Bool
  /-- `start` and `count` of a page, as unsigned numbers. -/
  start : ℕ
  count : ℕ
  /-- `length` of a read. -/
  length : ℕ
  /-- The strings at `url.servername` and `url.volumename`. -/
  servername : Url.CString
  volumename : Url.CString

/-- What `afp_ml_open()` has made of the pointer that it is to set. -/
inductive FilePointer where
  | unset
  | allocated
  | freed
  deriving DecidableEq

/-- What the handlers look at of a volume. -/
structure Volume where
  /-- `mounted` is `AFP_VOLUME_MOUNTED`. -/
  mounted : Bool
  /-- Another volume of its server is not `AFP_VOLUME_UNMOUNTED`. -/
  others : Bool

/-- What the operations below the handlers come to.  Those that work with the server or with the memory
of others come to nothing where they use memory that is freed or not theirs. -/
structure Outcomes (Entry : Type) where
  /-- `find_server_by_name()` finds one. -/
  serverByName : Bool
  /-- `afp_zzzzz()`. -/
  zzzzz : ℤ
  /-- `afp_server_reconnect()`. -/
  reconnect : ℤ
  /-- A volume with the name, or the mountpoint, of an unmount request. -/
  volumeByName : Option Volume
  /-- `find_volume_by_id()`. -/
  volumeById : Option Volume
  /-- `find_server_by_url()`. -/
  serverByUrl : Option Getvols.Server
  /-- `find_volume_by_url()`: how many bytes there are from the mountpoint of the volume to the end of
  the volumes of its server. -/
  volumeByUrl : Option ℕ
  /-- `afp_get_address()`. -/
  address : ℤ
  /-- `afp_server_init()` allocates a server. -/
  serverInit : Bool
  /-- `afp_server_connect()`. -/
  serverConnect : Option ℤ
  /-- `afp_ml_open()`, and the file pointer. -/
  mlOpen : Option (ℤ × FilePointer)
  /-- `ll_read()`. -/
  llRead : Option ℤ
  /-- `afp_closefork()`. -/
  closefork : Option ℤ
  /-- `afp_ml_getattr()`. -/
  getattr : Option ℤ
  /-- The list of `afp_ml_readdir()`, if it returns 0. -/
  filebase : Option (Option (List Entry))
  /-- `afp_default_connection_request()`. -/
  connectionRequest : ℤ
  /-- `afp_server_full_connect()` returns a server.  It looks at one that is freed when a login
  fails. -/
  fullConnect : Option Bool
  /-- `fuse_mount()`, or `AFP_SERVER_RESULT_NOTSUPPORTED` without `HAVE_LIBFUSE`. -/
  fuseMount : Option ℤ
  /-- `command_sub_attach_volume()` returns a volume.  Where there is none of the name, the names of
  the others may be too long for its buffer. -/
  attachVolume : Option Bool
  /-- The servers, for `afp_status_server()`. -/
  servers : List Status.AfpServer
  /-- `afp_get_command_name()`. -/
  afpGetCommandName : UInt8 → Status.CStr
  /-- `uam_names_list`. -/
  uamNamesList : Status.CStr

/-- What a thread does to the connection of its client. -/
inductive Event where
  | send (result : UInt8)
  | close
  | continue
  deriving DecidableEq

/-- What a thread comes to. -/
inductive Thread where
  | ends (events : List Event)
  | undefined
  deriving DecidableEq

/-- An `int` as it is stored in the `char` of a header. -/
def toChar (x : ℤ) : UInt8 := UInt8.ofNat (x % 256).toNat

/-- `close_client_connection()` or `continue_client_connection()`. -/
def finish (req : Request) : Event := if req.close then .close else .continue

/-- The end of most handlers. -/
def respond (req : Request) (result : UInt8) : Thread := .ends [.send result, finish req]

/-- A handler that returns its result instead of sending it. -/
def silent : Thread := .ends []

/-- `log_for_client()` for a client.  The message is printed into 1024 bytes, and
`daemon_log_for_client()` takes what is there for a format. -/
def Loggable (message : Url.CString) : Prop := (Url.format (message.take 1023)).isSome

instance (message : Url.CString) : Decidable (Loggable message) := inferInstanceAs (Decidable (_ = true))

/-- `afp_unmount_volume()`: what it returns, and whether it has freed the server and with it the
volume.  What the server answers matters for neither. -/
def afpUnmountVolume (v : Volume) : ℤ × Bool :=
  if v.mounted = false then (-1, false) else if v.others then (0, false) else (-1, true)

/-- `PATH_MAX`. -/
def pathMax : ℕ := 4096

/-! ## The handlers -/

section

variable {Entry : Type} (req : Request) (o : Outcomes Entry) (junk : UInt8)

/-- `process_suspend()`. -/
def processSuspend : Thread := silent

/-- `process_resume()`. -/
def processResume : Thread := silent

/-- `process_unmount()`.  The message has the mountpoint of the volume. -/
def processUnmount : Thread :=
  match o.volumeByName with
  | none => respond req ServerResult.noVolume
  | some v =>
    if v.mounted = false then respond req ServerResult.notAttached
    else
      -- what it returns is dropped
      let (_, freed) := afpUnmountVolume v
      if freed then .undefined else respond req ServerResult.okay

/-- `process_detach()`.  The message has the name of the volume. -/
def processDetach : Thread :=
  match o.volumeById with
  | none => respond req ServerResult.error
  | some v =>
    if v.mounted = false then respond req ServerResult.error
    else
      let (_, freed) := afpUnmountVolume v
      if freed then .undefined else respond req ServerResult.okay

/-- `process_ping()`. -/
def processPing : Thread := silent

/-- `process_exit()`. -/
def processExit : Thread := silent

/-- `process_get_mountpoint()`.  `PATH_MAX` bytes are copied from a field of 255. -/
def processGetMountpoint : Thread :=
  if req.complete = false then respond req ServerResult.error
  else
    match o.volumeByUrl with
    | none => respond req ServerResult.notAttached
    | some room => if room < pathMax then .undefined else respond req ServerResult.okay

/-- `process_getvolid()`. -/
def processGetvolid : Thread :=
  if req.complete = false then respond req ServerResult.error
  else if o.serverByUrl = none then respond req ServerResult.notConnected
  else if o.volumeByUrl = none then respond req ServerResult.notAttached
  else respond req ServerResult.okay

/-- `process_serverinfo()`. -/
def processServerinfo : Thread :=
  if req.complete = false then silent
  else
    match o.serverByUrl with
    | some _ => respond req ServerResult.okay
    | none =>
      if o.address < 0 then respond req ServerResult.error
      else if o.serverInit = false then respond req ServerResult.error
      else
        match o.serverConnect with
        | none => .undefined
        | some ret =>
          if ret < 0 then respond req ServerResult.error else respond req ServerResult.okay

/-- `process_status()`.  The texts go into a buffer on the stack, and what is sent is as long as they
are. -/
def processStatus : Thread :=
  if req.complete = false then silent
  else
    let (text, len) := Status.processStatus o.afpGetCommandName o.uamNamesList o.servers
    if Status.Stays Status.statusResultLen text len then respond req ServerResult.okay
    else .undefined

/-- `process_getvols()` with the end of the request. -/
def processGetvols : Thread :=
  match Getvols.processGetvols ⟨junk, 0⟩ o.serverByUrl ⟨req.complete, req.start, req.count⟩ with
  | .outside => .undefined
  | .response r => respond req r.result

/-- `process_open()`. -/
def processOpen : Thread :=
  if req.complete = false then respond req ServerResult.error
  else if o.volumeById.isNone then respond req ServerResult.notAttached
  else
    match o.mlOpen with
    | none => .undefined
    | some (ret, fp) =>
      -- on both paths the file is freed
      if fp ≠ .allocated then .undefined
      else if ret ≠ 0 then respond req (toChar ret)
      else respond req ServerResult.okay

/-- `process_read()`.  The length of the response is an `unsigned int`, and an error of `ll_read()` is
dropped. -/
def processRead : Thread :=
  if req.complete = false then respond req ServerResult.error
  else if o.volumeById.isNone then respond req ServerResult.notAttached
  else if 2 ^ 32 ≤ 16 + req.length then .undefined
  else
    match o.llRead with
    | none => .undefined
    | some _ => respond req ServerResult.okay

/-- `process_close()`.  It sends `ret`, not `result`. -/
def processClose : Thread :=
  if req.complete = false then respond req junk
  else if o.volumeById.isNone then respond req junk
  else
    match o.closefork with
    | none => .undefined
    | some ret => respond req (toChar ret)

/-- `process_stat()`.  It sends `ret`, not `result`; `-ENOENT` has a result of its own. -/
def processStat : Thread :=
  if req.complete = false then respond req junk
  else if o.volumeById.isNone then respond req junk
  else
    match o.getattr with
    | none => .undefined
    | some ret =>
      if ret = -2 then respond req ServerResult.enoent else respond req (toChar ret)

/-- The request gets as far as `afp_ml_readdir()`. -/
def AsksForList : Prop := req.complete ∧ ¬ Negative req.start ∧ o.volumeById.isSome

instance : Decidable (AsksForList req o) := inferInstanceAs (Decidable (_ ∧ _))

/-- `process_readdir()` with the end of the request. -/
def processReaddir : Thread :=
  if AsksForList req o ∧ o.filebase.isNone then .undefined
  else
    match Readdir.processReaddir junk (if o.volumeById.isNone then none else o.filebase.join)
        ⟨req.complete, req.start, req.count⟩ with
    | .outside => .undefined
    | .response r => respond req r.result

/-- What `process_connect()` logs first. -/
def connecting : Url.CString :=
  Status.ascii "Connecting to volume " ++ req.volumename ++ Status.ascii " and server " ++
    req.servername ++ Status.ascii "\n"

/-- `process_connect()`. -/
def processConnect : Thread :=
  if req.complete = false then silent
  else if ¬ Loggable (connecting req) then .undefined
  else if o.serverByUrl ≠ none then respond req ServerResult.alreadyConnected
  else if o.connectionRequest = -1 then respond req ServerResult.error
  else
    match o.fullConnect with
    | none => .undefined
    | some false => respond req ServerResult.error
    | some true => respond req ServerResult.okay

/-- `process_mount()`.  What `fuse_mount()` returns is overwritten, `response_result` is
`AFP_SERVER_RESULT_OKAY` from its declaration on, and the connection is always closed. -/
def processMount : Thread :=
  if req.complete ∧ o.fuseMount.isNone then .undefined
  else .ends [.send ServerResult.okay, .close]

/-- What `process_attach()` logs first, with the names in the place of each other. -/
def attaching : Url.CString :=
  Status.ascii "Attaching volume " ++ req.servername ++ Status.ascii " on server " ++
    req.volumename ++ Status.ascii "\n"

/-- What `process_attach()` logs without the server. -/
def notYetConnected : Url.CString :=
  Status.ascii "Not yet connected to server " ++ req.servername ++ Status.ascii "\n"

/-- `process_attach()`.  For a short packet `req` is not set when its header is read. -/
def processAttach : Thread :=
  if req.complete = false then .undefined
  else if ¬ Loggable (attaching req) then .undefined
  else if o.serverByUrl = none then
    if Loggable (notYetConnected req) then respond req ServerResult.error else .undefined
  else if o.volumeByUrl.isSome then respond req ServerResult.alreadyAttached
  else
    match o.attachVolume with
    | none => .undefined
    | some false => respond req ServerResult.error
    | some true => respond req ServerResult.okay

/-- `process_command_thread()`. -/
def processCommandThread : Thread :=
  match Command.ofNumber req.command with
  | .serverinfo => processServerinfo req o
  | .connect => processConnect req o
  | .mount => processMount req o
  | .attach => processAttach req o
  | .detach => processDetach req o
  | .status => processStatus req o
  | .unmount => processUnmount req o
  | .getMountpoint => processGetMountpoint req o
  | .suspend => processSuspend
  | .resume => processResume
  | .ping => processPing
  | .getvolid => processGetvolid req o
  | .readdir => processReaddir req o junk
  | .getvols => processGetvols req o junk
  | .stat => processStat req o junk
  | .open => processOpen req o
  | .read => processRead req o
  | .close => processClose req o junk
  | .exit => processExit
  | .unknown => silent

/-! ## What is expected -/

/-- The operation of a request succeeded. -/
def Succeeded : Command → Prop
  | .serverinfo => req.complete ∧
      (o.serverByUrl ≠ none ∨ 0 ≤ o.address ∧ o.serverInit ∧ o.serverConnect = some 0)
  | .connect => req.complete ∧ o.serverByUrl = none ∧ o.connectionRequest ≠ -1 ∧
      o.fullConnect = some true
  | .mount => req.complete ∧ o.fuseMount = some 0
  | .attach => req.complete ∧ o.serverByUrl ≠ none ∧ o.volumeByUrl = none ∧
      o.attachVolume = some true
  | .detach => ∃ v ∈ o.volumeById, (afpUnmountVolume v).1 = 0
  | .status => req.complete
  | .unmount => ∃ v ∈ o.volumeByName, (afpUnmountVolume v).1 = 0
  | .getMountpoint => req.complete ∧ o.volumeByUrl ≠ none
  | .suspend => o.serverByName ∧ o.zzzzz = 0
  | .resume => o.serverByName ∧ o.reconnect = 0
  | .ping | .exit => True
  | .getvolid => req.complete ∧ o.serverByUrl ≠ none ∧ o.volumeByUrl ≠ none
  | .readdir => req.complete ∧ o.volumeById.isSome ∧ ∃ L, o.filebase = some (some L)
  | .getvols => req.complete ∧ o.serverByUrl ≠ none
  | .stat => req.complete ∧ o.volumeById.isSome ∧ o.getattr = some 0
  | .open => req.complete ∧ o.volumeById.isSome ∧ ∃ fp, o.mlOpen = some (0, fp)
  | .read => req.complete ∧ o.volumeById.isSome ∧ ∃ ret ≥ 0, o.llRead = some ret
  | .close => req.complete ∧ o.volumeById.isSome ∧ o.closefork = some 0
  | .unknown => False

/-- What is expected of the thread of a request, whatever the memory has: one response, whose
result reports success only if the operation succeeded, and then the end of the request. -/
def Responded (command : Command) (thread : UInt8 → Thread) : Prop :=
  ∃ result, (∀ junk, thread junk = .ends [.send result, finish req]) ∧
    (result = ServerResult.okay → Succeeded req o command)

/-- An error that is stored in a `char` is not lost. -/
def Kept (ret : ℤ) : Prop := ret ≠ 0 → ret % 256 ≠ 0

/-- The condition on a request and the outcomes, command by command. -/
def Sound : Command → Prop
  | .suspend | .resume | .ping | .exit | .unknown => False
  | .unmount => ∀ v ∈ o.volumeByName, v.mounted → v.others
  | .detach => ∀ v ∈ o.volumeById, v.mounted → v.others
  | .getMountpoint => req.complete → ∀ room ∈ o.volumeByUrl, pathMax ≤ room
  | .getvolid => True
  | .connect => req.complete ∧ Loggable (connecting req) ∧
      (o.serverByUrl = none → o.connectionRequest ≠ -1 → o.fullConnect ≠ none)
  | .status => req.complete ∧ (Status.headerText o.uamNamesList).1.length +
      (Status.serverTexts o.afpGetCommandName o.servers).length ≤ Status.statusResultLen
  | .attach => req.complete ∧ Loggable (attaching req) ∧
      (o.serverByUrl = none → Loggable (notYetConnected req)) ∧
      (o.serverByUrl ≠ none → o.volumeByUrl = none → o.attachVolume ≠ none)
  | .serverinfo => req.complete ∧
      (o.serverByUrl = none → 0 ≤ o.address → o.serverInit → ∃ ret ≤ 0, o.serverConnect = some ret)
  | .mount => req.complete ∧ req.close ∧ o.fuseMount = some 0
  | .getvols => req.complete → ¬ Negative req.start → ∀ server ∈ o.serverByUrl,
      req.start ≤ min req.count server.numVolumes ∧
        req.start + min req.count server.numVolumes ≤ server.numVolumes
  | .readdir => AsksForList req o → ∃ files, o.filebase = some files ∧ ∀ L ∈ files,
      ¬ (req.start = L.length ∧ L ≠ [] ∧ req.count ≠ 0)
  | .open => req.complete → o.volumeById.isSome →
      ∃ ret, o.mlOpen = some (ret, .allocated) ∧ Kept ret
  | .read => req.complete → o.volumeById.isSome →
      16 + req.length < 2 ^ 32 ∧ ∃ ret ≥ 0, o.llRead = some ret
  | .close => req.complete ∧ o.volumeById.isSome ∧ ∃ ret, o.closefork = some ret ∧ Kept ret
  | .stat => req.complete ∧ o.volumeById.isSome ∧ ∃ ret, o.getattr = some ret ∧ Kept ret

end

/-! ## The handlers one by one -/

section

variable {Entry : Type} {req : Request} {o : Outcomes Entry} {command : Command}

theorem toChar_eq_okay_iff (x : ℤ) : toChar x = ServerResult.okay ↔ x % 256 = 0 := by
  have hlt : (x % 256).toNat < 256 := by omega
  rw [toChar, ServerResult.okay, ← UInt8.toNat_inj, UInt8.toNat_ofNat_of_lt' hlt]
  show (x % 256).toNat = 0 ↔ _
  omega

theorem not_responded_silent : ¬ Responded req o command fun _ => silent := by
  rintro ⟨result, h, _⟩
  have := h 0
  simp [silent] at this

theorem not_responded_undefined : ¬ Responded req o command fun _ => .undefined := by
  rintro ⟨result, h, _⟩
  cases h 0

/-- A result that is not set. -/
theorem not_responded_junk : ¬ Responded req o command fun junk => respond req junk := by
  rintro ⟨result, h, _⟩
  have h0 : (0 : UInt8) = result := by simpa [respond] using h 0
  have h1 : (1 : UInt8) = result := by simpa [respond] using h 1
  exact absurd (h0.trans h1.symm) (by decide)

theorem responded_respond {result : UInt8} :
    (Responded req o command fun _ => respond req result) ↔
      (result = ServerResult.okay → Succeeded req o command) := by
  constructor
  · rintro ⟨result', h, hsucceeded⟩
    have heq : result = result' := by simpa [respond] using h 0
    exact heq ▸ hsucceeded
  · exact fun h => ⟨result, fun _ => rfl, h⟩

/-- An error is a response. -/
theorem responded_error {result : UInt8} (h : result ≠ ServerResult.okay) :
    Responded req o command fun _ => respond req result :=
  responded_respond.mpr fun heq => absurd heq h

/-- A success is one if the operation succeeded. -/
theorem responded_okay :
    (Responded req o command fun _ => respond req ServerResult.okay) ↔ Succeeded req o command := by
  rw [responded_respond]
  exact ⟨fun h => h rfl, fun h _ => h⟩

/-- What an operation returned, as a result. -/
theorem responded_toChar {ret : ℤ} (hsucceeded : Succeeded req o command ↔ ret = 0) :
    (Responded req o command fun _ => respond req (toChar ret)) ↔ Kept ret := by
  rw [responded_respond, toChar_eq_okay_iff, hsucceeded, Kept]
  exact ⟨fun h hne heq => hne (h heq), fun h heq => by_contra fun hne => h hne heq⟩

theorem afpUnmountVolume_fst_eq_zero_iff {v : Volume} (hmounted : v.mounted = true) :
    (afpUnmountVolume v).1 = 0 ↔ v.others = true := by
  rw [afpUnmountVolume, if_neg (by simp [hmounted])]
  cases v.others <;> simp

theorem afpUnmountVolume_snd_iff {v : Volume} (hmounted : v.mounted = true) :
    (afpUnmountVolume v).2 = true ↔ v.others = false := by
  rw [afpUnmountVolume, if_neg (by simp [hmounted])]
  cases v.others <;> simp

/-- **The last mounted volume of a server** is freed with it, and its name or mountpoint is then read. -/
theorem responded_unmounted {v : Volume} (hmounted : v.mounted = true)
    (hsucceeded : (afpUnmountVolume v).1 = 0 → Succeeded req o command) :
    (Responded req o command fun _ =>
        if (afpUnmountVolume v).2 then .undefined else respond req ServerResult.okay) ↔
      v.others = true := by
  by_cases hothers : v.others = true
  · have hfreed : ¬ (afpUnmountVolume v).2 = true := by
      rw [afpUnmountVolume_snd_iff hmounted]
      simp [hothers]
    simp only [if_neg hfreed]
    refine iff_of_true (responded_okay.mpr (hsucceeded ?_)) hothers
    exact (afpUnmountVolume_fst_eq_zero_iff hmounted).mpr hothers
  · have hfreed := (afpUnmountVolume_snd_iff hmounted).mpr (by simpa using hothers)
    simp only [if_pos hfreed]
    exact iff_of_false not_responded_undefined hothers

theorem responded_unmount :
    (Responded req o .unmount fun _ => processUnmount req o) ↔ Sound req o .unmount := by
  rw [processUnmount, Sound]
  cases h : o.volumeByName with
  | none => exact iff_of_true (responded_error (by decide)) fun v hv => by cases hv
  | some v =>
    simp only [Option.mem_some_iff, forall_eq']
    by_cases hmounted : v.mounted = false
    · simp only [if_pos hmounted]
      exact iff_of_true (responded_error (by decide)) fun h => by simp [hmounted] at h
    · have hmounted' : v.mounted = true := by simpa using hmounted
      simp only [if_neg hmounted]
      have hsucceeded : (afpUnmountVolume v).1 = 0 → Succeeded req o .unmount := fun hzero => ⟨v, h, hzero⟩
      rw [responded_unmounted hmounted' hsucceeded]
      exact ⟨fun hothers _ => hothers, fun hothers => hothers hmounted'⟩

theorem responded_detach :
    (Responded req o .detach fun _ => processDetach req o) ↔ Sound req o .detach := by
  rw [processDetach, Sound]
  cases h : o.volumeById with
  | none => exact iff_of_true (responded_error (by decide)) fun v hv => by cases hv
  | some v =>
    simp only [Option.mem_some_iff, forall_eq']
    by_cases hmounted : v.mounted = false
    · simp only [if_pos hmounted]
      exact iff_of_true (responded_error (by decide)) fun h => by simp [hmounted] at h
    · have hmounted' : v.mounted = true := by simpa using hmounted
      simp only [if_neg hmounted]
      have hsucceeded : (afpUnmountVolume v).1 = 0 → Succeeded req o .detach := fun hzero => ⟨v, h, hzero⟩
      rw [responded_unmounted hmounted' hsucceeded]
      exact ⟨fun hothers _ => hothers, fun hothers => hothers hmounted'⟩

theorem responded_getMountpoint :
    (Responded req o .getMountpoint fun _ => processGetMountpoint req o) ↔
      Sound req o .getMountpoint := by
  rw [processGetMountpoint, Sound]
  by_cases hcomplete : req.complete = false
  · rw [if_pos hcomplete]
    exact iff_of_true (responded_error (by decide)) fun h => by simp [hcomplete] at h
  · have hcomplete' : req.complete = true := by simpa using hcomplete
    rw [if_neg hcomplete]
    cases hvolume : o.volumeByUrl with
    | none => exact iff_of_true (responded_error (by decide)) fun _ room hroom => by cases hroom
    | some room =>
      simp only [hcomplete', forall_const, Option.mem_some_iff, forall_eq']
      by_cases hroom : room < pathMax
      · simp only [if_pos hroom]
        exact iff_of_false not_responded_undefined (Nat.not_le.mpr hroom)
      · simp only [if_neg hroom]
        exact iff_of_true (responded_okay.mpr ⟨hcomplete', by simp [hvolume]⟩) (Nat.le_of_not_lt hroom)

theorem responded_getvolid : Responded req o .getvolid fun _ => processGetvolid req o := by
  rw [processGetvolid]
  split
  · exact responded_error (by decide)
  · next hcomplete =>
    split
    · exact responded_error (by decide)
    · next hserver =>
      split
      · exact responded_error (by decide)
      · next hvolume => exact responded_okay.mpr ⟨by simpa using hcomplete, hserver, hvolume⟩

theorem responded_serverinfo :
    (Responded req o .serverinfo fun _ => processServerinfo req o) ↔ Sound req o .serverinfo := by
  rw [processServerinfo, Sound]
  by_cases hcomplete : req.complete = false
  · rw [if_pos hcomplete]
    exact iff_of_false not_responded_silent fun h => by simp [hcomplete] at h
  · rw [if_neg hcomplete]
    have hcomplete' : req.complete = true := by simpa using hcomplete
    cases hserver : o.serverByUrl with
    | some server =>
      refine iff_of_true (responded_okay.mpr ⟨hcomplete', .inl (by simp [hserver])⟩) ⟨hcomplete', ?_⟩
      exact fun h => by simp at h
    | none =>
      simp only [hcomplete', true_and, forall_const]
      by_cases haddress : o.address < 0
      · simp only [if_pos haddress]
        exact iff_of_true (responded_error (by decide)) fun h => absurd h (by omega)
      by_cases hinit : o.serverInit = false
      · simp only [if_neg haddress, if_pos hinit]
        exact iff_of_true (responded_error (by decide)) fun _ h => by simp [hinit] at h
      have hinit' : o.serverInit = true := by simpa using hinit
      rw [if_neg haddress, if_neg hinit, forall_prop_of_true (Int.not_lt.mp haddress),
        forall_prop_of_true hinit']
      cases hconnect : o.serverConnect with
      | none => exact iff_of_false not_responded_undefined fun ⟨ret, _, h⟩ => by cases h
      | some ret =>
        by_cases hret : ret < 0
        · simp only [if_pos hret]
          exact iff_of_true (responded_error (by decide)) ⟨ret, Int.le_of_lt hret, rfl⟩
        · have hsucceeded : Succeeded req o .serverinfo ↔ ret = 0 := by
            simp only [Succeeded, hcomplete', hserver, hinit', hconnect, ne_eq, not_true_eq_false,
              false_or, true_and, Option.some_inj, and_iff_right (Int.not_lt.mp haddress)]
          simp only [if_neg hret]
          rw [responded_okay, hsucceeded]
          constructor
          · exact fun h => ⟨ret, h.le, rfl⟩
          · rintro ⟨ret', hle, heq⟩
            obtain rfl := Option.some.inj heq
            omega

/-- A complete packet has a response to `process_status()` if the texts fit. -/
theorem responded_status :
    (Responded req o .status fun _ => processStatus req o) ↔ Sound req o .status := by
  rw [processStatus, Sound]
  by_cases hcomplete : req.complete = false
  · rw [if_pos hcomplete]
    exact iff_of_false not_responded_silent fun h => by simp [hcomplete] at h
  · rw [if_neg hcomplete]
    have hcomplete' : req.complete = true := by simpa using hcomplete
    rw [and_iff_right hcomplete', ← Status.stays_processStatus_iff]
    have hsucceeded : Succeeded req o .status := hcomplete'
    by_cases hstays : Status.Stays Status.statusResultLen
        (Status.processStatus o.afpGetCommandName o.uamNamesList o.servers).1
        (Status.processStatus o.afpGetCommandName o.uamNamesList o.servers).2
    · simp only [if_pos hstays]
      exact iff_of_true (responded_okay.mpr hsucceeded) hstays
    · simp only [if_neg hstays]
      exact iff_of_false not_responded_undefined hstays

theorem responded_connect :
    (Responded req o .connect fun _ => processConnect req o) ↔ Sound req o .connect := by
  rw [processConnect, Sound]
  by_cases hcomplete : req.complete = false
  · rw [if_pos hcomplete]
    exact iff_of_false not_responded_silent fun h => by simp [hcomplete] at h
  have hcomplete' : req.complete = true := by simpa using hcomplete
  rw [if_neg hcomplete, and_iff_right hcomplete']
  by_cases hlog : Loggable (connecting req)
  · rw [if_neg (not_not.mpr hlog), and_iff_right hlog]
    by_cases hserver : o.serverByUrl = none
    · rw [if_neg (not_not.mpr hserver)]
      simp only [hserver, forall_const]
      by_cases hrequest : o.connectionRequest = -1
      · rw [if_pos hrequest]
        exact iff_of_true (responded_error (by decide)) fun h => absurd hrequest h
      · rw [if_neg hrequest]
        simp only [hrequest, ne_eq, not_false_eq_true, forall_const]
        cases hconnect : o.fullConnect with
        | none => exact iff_of_false not_responded_undefined fun h => h rfl
        | some connected =>
          refine iff_of_true ?_ (Option.some_ne_none _)
          cases connected with
          | false => exact responded_error (by decide)
          | true => exact responded_okay.mpr ⟨hcomplete', hserver, hrequest, hconnect⟩
    · rw [if_pos hserver]
      exact iff_of_true (responded_error (by decide)) fun h => absurd h hserver
  · rw [if_pos hlog]
    exact iff_of_false not_responded_undefined fun h => hlog h.1

theorem responded_attach :
    (Responded req o .attach fun _ => processAttach req o) ↔ Sound req o .attach := by
  rw [processAttach, Sound]
  by_cases hcomplete : req.complete = false
  · rw [if_pos hcomplete]
    exact iff_of_false not_responded_undefined fun h => by simp [hcomplete] at h
  have hcomplete' : req.complete = true := by simpa using hcomplete
  rw [if_neg hcomplete, and_iff_right hcomplete']
  by_cases hlog : Loggable (attaching req)
  · rw [if_neg (not_not.mpr hlog), and_iff_right hlog]
    by_cases hserver : o.serverByUrl = none
    · rw [if_pos hserver]
      simp only [hserver, forall_const, ne_eq, not_true_eq_false, false_imp_iff, and_true]
      by_cases hlog' : Loggable (notYetConnected req)
      · rw [if_pos hlog']
        exact iff_of_true (responded_error (by decide)) hlog'
      · rw [if_neg hlog']
        exact iff_of_false not_responded_undefined hlog'
    · rw [if_neg hserver]
      simp only [hserver, false_imp_iff, true_and, ne_eq, not_false_eq_true, forall_const]
      cases hvolume : o.volumeByUrl with
      | some room => exact iff_of_true (responded_error (by decide)) fun h => by cases h
      | none =>
        rw [if_neg (by decide), forall_prop_of_true rfl]
        cases hattach : o.attachVolume with
        | none => exact iff_of_false not_responded_undefined fun h => h rfl
        | some attached =>
          refine iff_of_true ?_ (Option.some_ne_none _)
          cases attached with
          | false => exact responded_error (by decide)
          | true => exact responded_okay.mpr ⟨hcomplete', hserver, hvolume, hattach⟩
  · rw [if_pos hlog]
    exact iff_of_false not_responded_undefined fun h => hlog h.1

theorem responded_mount :
    (Responded req o .mount fun _ => processMount req o) ↔ Sound req o .mount := by
  rw [processMount, Sound]
  by_cases hastray : req.complete ∧ o.fuseMount.isNone
  · rw [if_pos hastray]
    exact iff_of_false not_responded_undefined fun h => by simp [h.2.2] at hastray
  rw [if_neg hastray]
  constructor
  · rintro ⟨result, h, hsucceeded⟩
    have h0 : ServerResult.okay = result ∧ Event.close = finish req := by simpa using h 0
    obtain ⟨hcomplete, hmount⟩ := hsucceeded h0.1.symm
    refine ⟨hcomplete, ?_, hmount⟩
    by_contra hclose
    rw [finish, if_neg hclose] at h0
    exact absurd h0.2 (by decide)
  · rintro ⟨hcomplete, hclose, hmount⟩
    refine ⟨ServerResult.okay, fun _ => ?_, fun _ => ⟨hcomplete, hmount⟩⟩
    rw [finish, if_pos hclose]

theorem responded_open :
    (Responded req o .open fun _ => processOpen req o) ↔ Sound req o .open := by
  rw [processOpen, Sound]
  by_cases hcomplete : req.complete = false
  · rw [if_pos hcomplete]
    exact iff_of_true (responded_error (by decide)) fun h => by simp [hcomplete] at h
  have hcomplete' : req.complete = true := by simpa using hcomplete
  rw [if_neg hcomplete, forall_prop_of_true hcomplete']
  by_cases hvolume : o.volumeById.isNone
  · rw [if_pos hvolume]
    exact iff_of_true (responded_error (by decide)) fun h => by simp_all
  have hvolume' : o.volumeById.isSome := Option.isSome_iff_ne_none.mpr fun h => by simp [h] at hvolume
  rw [if_neg hvolume, forall_prop_of_true hvolume']
  cases hopen : o.mlOpen with
  | none => exact iff_of_false not_responded_undefined fun ⟨ret, h, _⟩ => by cases h
  | some outcome =>
    obtain ⟨ret, fp⟩ := outcome
    by_cases hfp : fp = .allocated
    · subst hfp
      have hsucceeded : Succeeded req o .open ↔ ret = 0 := by
        simp only [Succeeded, hcomplete', hvolume', hopen, true_and]
        exact ⟨fun ⟨fp, h⟩ => congrArg Prod.fst (Option.some.inj h), fun h => ⟨.allocated, by rw [h]⟩⟩
      have hkept : (∃ ret', some (ret, FilePointer.allocated) = some (ret', .allocated) ∧ Kept ret') ↔
          Kept ret := by
        simp only [Option.some_inj, Prod.mk.injEq, and_true, exists_eq_left']
      simp only [ne_eq, not_true_eq_false, if_false]
      rw [hkept]
      by_cases hret : ret = 0
      · simp only [hret, not_true_eq_false, if_false]
        exact iff_of_true (responded_okay.mpr (hsucceeded.mpr hret)) fun h => absurd rfl h
      · simp only [hret, not_false_eq_true, if_true]
        exact responded_toChar hsucceeded
    · simp only [hfp, ne_eq, not_false_eq_true, if_true]
      refine iff_of_false not_responded_undefined fun ⟨ret', h, _⟩ => hfp ?_
      exact congrArg Prod.snd (Option.some.inj h)

theorem responded_read :
    (Responded req o .read fun _ => processRead req o) ↔ Sound req o .read := by
  rw [processRead, Sound]
  by_cases hcomplete : req.complete = false
  · rw [if_pos hcomplete]
    exact iff_of_true (responded_error (by decide)) fun h => by simp [hcomplete] at h
  have hcomplete' : req.complete = true := by simpa using hcomplete
  rw [if_neg hcomplete, forall_prop_of_true hcomplete']
  by_cases hvolume : o.volumeById.isNone
  · rw [if_pos hvolume]
    exact iff_of_true (responded_error (by decide)) fun h => by simp_all
  have hvolume' : o.volumeById.isSome := Option.isSome_iff_ne_none.mpr fun h => by simp [h] at hvolume
  rw [if_neg hvolume, forall_prop_of_true hvolume']
  by_cases hlength : 2 ^ 32 ≤ 16 + req.length
  · rw [if_pos hlength]
    exact iff_of_false not_responded_undefined fun h => absurd h.1 (Nat.not_lt.mpr hlength)
  rw [if_neg hlength, and_iff_right (Nat.lt_of_not_le hlength)]
  cases hread : o.llRead with
  | none => exact iff_of_false not_responded_undefined fun ⟨ret, _, h⟩ => by cases h
  | some ret =>
    rw [responded_okay]
    simp only [Succeeded, hcomplete', hvolume', hread, true_and]

theorem responded_close :
    (Responded req o .close fun junk => processClose req o junk) ↔ Sound req o .close := by
  simp only [processClose, Sound]
  by_cases hcomplete : req.complete = false
  · simp only [if_pos hcomplete]
    exact iff_of_false not_responded_junk fun h => by simp [hcomplete] at h
  have hcomplete' : req.complete = true := by simpa using hcomplete
  simp only [if_neg hcomplete]
  by_cases hvolume : o.volumeById.isNone
  · simp only [if_pos hvolume]
    exact iff_of_false not_responded_junk fun h => by simp_all
  have hvolume' : o.volumeById.isSome := Option.isSome_iff_ne_none.mpr fun h => by simp [h] at hvolume
  simp only [if_neg hvolume]
  rw [and_iff_right hcomplete', and_iff_right hvolume']
  cases hclose : o.closefork with
  | none => exact iff_of_false not_responded_undefined fun ⟨ret, h, _⟩ => by cases h
  | some ret =>
    have hsucceeded : Succeeded req o .close ↔ ret = 0 := by
      simp only [Succeeded, hcomplete', hvolume', hclose, true_and, Option.some_inj]
    simp only [Option.some_inj, exists_eq_left']
    exact responded_toChar hsucceeded

theorem responded_stat :
    (Responded req o .stat fun junk => processStat req o junk) ↔ Sound req o .stat := by
  simp only [processStat, Sound]
  by_cases hcomplete : req.complete = false
  · simp only [if_pos hcomplete]
    exact iff_of_false not_responded_junk fun h => by simp [hcomplete] at h
  have hcomplete' : req.complete = true := by simpa using hcomplete
  simp only [if_neg hcomplete]
  by_cases hvolume : o.volumeById.isNone
  · simp only [if_pos hvolume]
    exact iff_of_false not_responded_junk fun h => by simp_all
  have hvolume' : o.volumeById.isSome := Option.isSome_iff_ne_none.mpr fun h => by simp [h] at hvolume
  simp only [if_neg hvolume]
  rw [and_iff_right hcomplete', and_iff_right hvolume']
  cases hstat : o.getattr with
  | none => exact iff_of_false not_responded_undefined fun ⟨ret, h, _⟩ => by cases h
  | some ret =>
    have hsucceeded : Succeeded req o .stat ↔ ret = 0 := by
      simp only [Succeeded, hcomplete', hvolume', hstat, true_and, Option.some_inj]
    simp only [Option.some_inj, exists_eq_left']
    by_cases henoent : ret = -2
    · simp only [if_pos henoent]
      refine iff_of_true (responded_error (by decide)) fun _ => ?_
      rw [henoent]
      decide
    · simp only [if_neg henoent]
      exact responded_toChar hsucceeded

/-- The pages of volumes: the exit that leaves the result as it was, and the read behind the
volumes. -/
theorem responded_getvols :
    (Responded req o .getvols fun junk => processGetvols req o junk) ↔ Sound req o .getvols := by
  rw [Sound]
  by_cases hcomplete : req.complete = false
  · have h : ∀ junk, processGetvols req o junk = respond req ServerResult.error := fun junk => by
      rw [processGetvols, Getvols.processGetvols_of_rejected (.inl hcomplete)]
      rfl
    simp only [h]
    exact iff_of_true (responded_error (by decide)) fun h => by simp [hcomplete] at h
  · have hcomplete' : req.complete = true := by simpa using hcomplete
    cases hserver : o.serverByUrl with
    | none =>
      refine iff_of_true ?_ fun _ _ server hs => by simp at hs
      by_cases hnegative : Negative req.start
      · have h : ∀ junk, processGetvols req o junk = respond req ServerResult.error := fun junk => by
          rw [processGetvols, Getvols.processGetvols_of_rejected (.inr hnegative)]
          rfl
        simp only [h]
        exact responded_error (by decide)
      · have h : ∀ junk, processGetvols req o junk = respond req ServerResult.notConnected :=
          fun junk => by
            rw [processGetvols, hserver, Getvols.processGetvols, if_neg (by simp [hcomplete', hnegative])]
            rfl
        simp only [h]
        exact responded_error (by decide)
    | some server =>
      simp only [processGetvols, hserver, hcomplete', forall_const, Option.mem_some_iff,
        forall_eq']
      by_cases hnegative : Negative req.start
      · simp only [Getvols.processGetvols_of_negative hnegative]
        exact iff_of_true (responded_error (by decide)) fun h => absurd hnegative h
      · simp only [hnegative, not_false_eq_true, forall_const]
        by_cases hlt : min req.count server.numVolumes < req.start
        · simp only [Getvols.processGetvols_of_lt hnegative hlt]
          exact iff_of_false not_responded_junk fun h => by omega
        · by_cases hend : server.numVolumes < req.start + min req.count server.numVolumes
          · simp only [Getvols.processGetvols_of_outside hnegative (Nat.le_of_not_lt hlt) (by omega)
              hend]
            exact iff_of_false not_responded_undefined fun h => by omega
          · simp only [Getvols.processGetvols_of_inside hnegative (Nat.le_of_not_lt hlt)
              (Nat.le_of_not_lt hend)]
            exact iff_of_true (responded_okay.mpr ⟨hcomplete', by simp [hserver]⟩)
              ⟨Nat.le_of_not_lt hlt, Nat.le_of_not_lt hend⟩

/-- The pages of a directory: the end of the list. -/
theorem responded_readdir :
    (Responded req o .readdir fun junk => processReaddir req o junk) ↔ Sound req o .readdir := by
  rw [Sound]
  by_cases hasks : AsksForList req o
  · obtain ⟨hcomplete, hnegative, hvolume⟩ := hasks
    have hvolume' : ¬ o.volumeById.isNone := by simpa [← Option.isSome_iff_ne_none] using hvolume
    rw [forall_prop_of_true ⟨hcomplete, hnegative, hvolume⟩]
    cases hlist : o.filebase with
    | none =>
      have h : ∀ junk, processReaddir req o junk = .undefined := fun junk => by
        rw [processReaddir, hlist, if_pos ⟨⟨hcomplete, hnegative, hvolume⟩, rfl⟩]
      simp only [h]
      exact iff_of_false not_responded_undefined fun ⟨files, hfiles, _⟩ => by cases hfiles
    | some files =>
      have h : ∀ junk, processReaddir req o junk =
          match Readdir.processReaddir junk files ⟨true, req.start, req.count⟩ with
          | .outside => .undefined
          | .response r => respond req r.result := fun junk => by
        rw [processReaddir, hlist, if_neg (by simp), if_neg hvolume', hcomplete]
        rfl
      simp only [h, Option.some_inj, exists_eq_left']
      cases files with
      | none =>
        have herror : ∀ junk, Readdir.processReaddir junk (none : Option (List Entry))
            ⟨true, req.start, req.count⟩ = Readdir.errorResponse junk := fun junk => by
          rw [Readdir.processReaddir, if_neg (by simp [hnegative])]
        simp only [herror]
        exact iff_of_true (responded_error (by decide)) fun L hL => by cases hL
      | some L =>
        simp only [Option.mem_some_iff, forall_eq']
        by_cases hend : req.start = L.length ∧ L ≠ [] ∧ req.count ≠ 0
        · simp only [Readdir.processReaddir_eq_outside_iff.mpr ⟨hend.1, hnegative, hend.2⟩]
          exact iff_of_false not_responded_undefined (not_not.mpr hend)
        refine iff_of_true ?_ hend
        by_cases hstart : L.length % 2 ^ 32 < req.start
        · simp only [Readdir.processReaddir_of_error (.inr hstart)]
          exact responded_error (by decide)
        have hokay : ∀ junk, (match Readdir.processReaddir junk (some L)
            ⟨true, req.start, req.count⟩ with
          | .outside => Thread.undefined
          | .response r => respond req r.result) = respond req ServerResult.okay := fun junk => by
          obtain ⟨r, hr, hresult⟩ := @Readdir.processReaddir_okay _ L junk req.start req.count
            hnegative (Nat.le_of_not_lt hstart) hend
          rw [hr]
          show respond req r.result = _
          rw [hresult]
        simp only [hokay]
        exact responded_okay.mpr ⟨hcomplete, hvolume, L, hlist⟩
  · have herror : ∀ junk, processReaddir req o junk = respond req ServerResult.error := fun junk => by
      rw [processReaddir, if_neg fun h => hasks h.1]
      by_cases hrejected : req.complete = false ∨ Negative req.start
      · rw [Readdir.processReaddir_of_rejected hrejected]
        rfl
      · have hvolume : o.volumeById.isNone := by
          by_contra hvolume
          obtain ⟨hcomplete, hnegative⟩ := not_or.mp hrejected
          exact hasks ⟨by simpa using hcomplete, hnegative,
            by simpa [← Option.isSome_iff_ne_none] using hvolume⟩
        rw [if_pos hvolume, Readdir.processReaddir, if_neg hrejected]
        rfl
    simp only [herror]
    exact iff_of_true (responded_error (by decide)) fun h => absurd h hasks

end

/-- Outcomes in which everything fails. -/
def failures : Outcomes Unit where
  serverByName := false
  zzzzz := -1
  reconnect := 1
  volumeByName := none
  volumeById := none
  serverByUrl := none
  volumeByUrl := none
  address := -1
  serverInit := false
  serverConnect := some (-1)
  mlOpen := some (-1, .unset)
  llRead := some (-1)
  closefork := some (-1)
  getattr := some (-1)
  filebase := some none
  connectionRequest := -1
  fullConnect := some false
  fuseMount := some 1
  attachVolume := some false
  servers := []
  afpGetCommandName := fun _ => ⟨[], List.not_mem_nil⟩
  uamNamesList := ⟨[], List.not_mem_nil⟩

/-- A complete ping that does not close the connection. -/
def pingRequest : Request := ⟨11, false, true, 0, 0, 0, [], []⟩

end Handlers
end Daemon
end Afpfs
