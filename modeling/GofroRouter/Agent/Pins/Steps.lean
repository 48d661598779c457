import GofroRouter.Lib.Directory
import GofroRouter.Lib.IpAddr
import GofroRouter.Lib.Text

/-!
# Host pins

`pin_host` and `reset_host_pin` of `managed/pins.rs` for one host and port, system call by system
call, so that calls interleave and stop anywhere. The management directory belongs to the agent; each
call creates it if need be and syncs it and its parents before it looks at a pin, so no name is ever
in a directory that a loss of power can take away.

* `parse_host_key`, `safe_pin_metadata`, `owned_name`: what a pin is and which names are leftovers.
* `Task`: the next system call of a call, with what it has read and the file it holds open.
* `step`: a call begins or makes its next system call, the process dies or the power is lost.
-/

namespace Gofro.Agent.Pins

open Text

/-! ## Pins and names -/

/-- Whether `parse_host_key` accepts a text. -/
def parse_host_key (value : String) : Bool :=
  match split_whitespace value with
  | [kind, key] => kind = "ssh-ed25519".toList && byteLen key = 68 &&
      decide ("AAAAC3NzaC1lZDI1NTE5AAAAI".toList <+: key) &&
      key.all fun c => is_ascii_alphanumeric c || c = '+' || c = '/' || c = '='
  | _ => false

/-- What `fs::Metadata` says of a file that a name is bound to. -/
structure Attributes where
  regular : Bool
  mode : ℕ
  uid : ℕ
deriving DecidableEq

/-- What `fstat` and `lstat` say of a file. -/
structure Metadata where
  attributes : Attributes
  len : ℕ
  nlink : ℕ
  ino : ℕ
deriving DecidableEq

/-- The file as it is now. -/
def metadata (d : Directory Attributes) (file : ℕ) : Metadata :=
  ⟨(d.inode file).attributes, len (d.inode file).content, d.links file, (d.inode file).number⟩

/-- A pin is a short file of root that nobody else may read. -/
def safe_pin_metadata (metadata : Metadata) : Bool :=
  metadata.attributes.regular && metadata.attributes.mode % 0o10000 = 0o600 && metadata.len ≤ 128 &&
    metadata.attributes.uid = 0

/-- What `OpenOptions` with mode `0o600` creates. -/
def CREATED : Attributes := ⟨true, 0o600, 0⟩

/-- The host and port of all calls. -/
structure Target where
  host : String
  port : ℕ

/-- The first check of `pin_host`. -/
def Target.valid (target : Target) : Bool :=
  (IpAddr.parse target.host).any (fun address => address.to_string = target.host) && target.port ≠ 0

/-- The error of the first check. -/
def Target.refusal (target : Target) : String :=
  if (IpAddr.parse target.host).isNone then "invalid SSH host address"
  else "invalid SSH host address or port"

/-- The name of the pin. -/
def Target.path (target : Target) : String :=
  String.ofList ("host-".toList ++ target.host.toList ++ '-' :: Nat.toDigits 10 target.port ++
    ".pub".toList)

/-- A name that no other process or call uses. -/
def temporary_path (pid counter : ℕ) : String :=
  String.ofList (".host-pin.".toList ++ Nat.toDigits 10 pid ++ '.' :: Nat.toDigits 10 counter)

/-- A name that `temporary_path` may have made. -/
def owned_name (name : String) : Bool :=
  ((strip_start name.toList ".host-pin.".toList).bind (split_once '.')).any fun (pid, counter) =>
    [pid, counter].all fun part => part ≠ [] && part.all Char.isDigit

/-- The errors of a call; those of the system are one. -/
inductive PinError
  | io
  | text (message : String)
deriving DecidableEq

def UNSAFE : PinError := .text "unsafe stored SSH host pin"

/-- The answer to another key than the pin's. -/
def KEY_CHANGED : PinError := .text
  "SSH host key changed. Connection refused; the saved key was not replaced. Verify the VPS identity through a trusted console before resetting its pin."

/-! ## Calls and their tasks -/

/-- The two calls that have to do with pins. -/
inductive Call
  | pin (key : String)
  | reset
deriving DecidableEq

/-- The next system call; files are open ones. -/
inductive Task
  | manage (call : Call)
  | look (key : String)
  | create (key temporary : String)
  | write (key temporary : String) (file : ℕ)
  | sync (key temporary : String) (file : ℕ)
  | publish (key temporary : String) (file : ℕ)
  | cleanup (key temporary : String) (file : ℕ) (published : Option Bool)
  | inspect (call : Call)
  | open (call : Call) (metadata : Metadata)
  | read (call : Call) (metadata : Metadata) (file : ℕ)
  | list (key : String) (metadata : Metadata) (file : ℕ)
  | recover (key : String) (metadata : Metadata) (file : ℕ) (entries : List String)
  | remove (key : String) (metadata : Metadata) (file : ℕ) (entry : String) (entries : List String)
  | confirm (key : String) (metadata : Metadata) (file : ℕ)
  | syncFile (key : String) (file removals : ℕ)
  | syncDirectory (key : String) (file removals : ℕ)
  | check (metadata : Metadata) (file : ℕ)
  | unlink (file : ℕ)
  | syncRemoval (file : ℕ)
  | done (call : Call) (result : Except PinError Unit)
deriving DecidableEq

/-- The file that a task holds open. -/
def Task.file : Task → Option ℕ
  | .write _ _ f | .sync _ _ f | .publish _ _ f | .cleanup _ _ f _ | .read _ _ f | .list _ _ f
  | .recover _ _ f _ | .remove _ _ f _ _ | .confirm _ _ f | .syncFile _ f _ | .syncDirectory _ f _
  | .check _ f | .unlink f | .syncRemoval f => some f
  | _ => none

/-- How a system call ends: `created` brings an inode number and `listed` the entries of a directory;
`progress` says how much of a failed one was done. -/
inductive Choice
  | done
  | created (number : ℕ)
  | listed (entries : List String)
  | failed (progress : ℕ)

/-- `removals` counts the pins that resets have removed. -/
structure State where
  dir : Directory Attributes
  tasks : ℕ → Option Task
  next : ℕ
  pid : ℕ
  counter : ℕ
  removals : ℕ

namespace State

def put (s : State) (id : ℕ) (task : Task) : State :=
  { s with tasks := Function.update s.tasks id (some task) }

def fail (s : State) (id : ℕ) (call : Call) (error : PinError) : State :=
  s.put id (.done call (.error error))

def setDir (s : State) (dir : Directory Attributes) : State := { s with dir := dir }

/-- The files that have a name or are open. -/
def live (s : State) : List ℕ :=
  s.dir.names.filterMap s.dir.now ++
    (List.range s.next).filterMap fun id => (s.tasks id).bind Task.file

/-! ## System calls -/

/-- `management_directory`, which ends with a sync. -/
def manage (s : State) (id : ℕ) (call : Call) : Choice → Option State
  | .done =>
    let s := s.setDir s.dir.sync
    match call with
    | .pin key => s.put id (.look key)
    | .reset => s.put id (.inspect .reset)
  | .failed progress => (if progress = 0 then s else s.setDir s.dir.sync).fail id call .io
  | _ => none

variable (target : Target)

/-- Whether there is a pin; if not, a temporary name is made up. -/
def look (s : State) (id : ℕ) (key : String) : Choice → Option State
  | .done =>
    if (s.dir.now target.path).isSome then s.put id (.inspect (.pin key))
    else
      { s with counter := s.counter + 1 }.put id (.create key (temporary_path s.pid s.counter))
  | .failed _ => s.fail id (.pin key) (.text "failed to persist SSH host pin")
  | _ => none

/-- The temporary file must not be there already. -/
def create (s : State) (id : ℕ) (key temporary : String) : Choice → Option State
  | .created number =>
    if (s.dir.now temporary).isSome then s.fail id (.pin key) .io
    else if s.live.all fun file => (s.dir.inode file).number ≠ number then
      (s.setDir (s.dir.create temporary number CREATED)).put id (.write key temporary s.dir.next)
    else none
  | .failed _ => s.fail id (.pin key) .io
  | _ => none

/-- A write that fails may have written a part. -/
def write (s : State) (id : ℕ) (key temporary : String) (file : ℕ) : Choice → Option State
  | .done => (s.setDir (s.dir.write file key)).put id (.sync key temporary file)
  | .failed progress =>
    (s.setDir (s.dir.write file (String.ofList (key.toList.take progress)))).put id
      (.cleanup key temporary file none)
  | _ => none

/-- The file is synced before it gets the name of the pin. -/
def sync (s : State) (id : ℕ) (key temporary : String) (file : ℕ) : Choice → Option State
  | .done => (s.setDir (s.dir.syncFile file)).put id (.publish key temporary file)
  | .failed _ => s.put id (.cleanup key temporary file none)
  | _ => none

/-- `hard_link` never replaces a pin. -/
def publish (s : State) (id : ℕ) (key temporary : String) (file : ℕ) : Choice → Option State
  | .done =>
    if (s.dir.now temporary).isNone then s.put id (.cleanup key temporary file none)
    else if (s.dir.now target.path).isNone then
      (s.setDir (s.dir.link temporary target.path)).put id (.cleanup key temporary file (some true))
    else s.put id (.cleanup key temporary file (some false))
  | .failed _ => s.put id (.cleanup key temporary file none)
  | _ => none

/-- Remove the temporary file, and then see what came of it. -/
def cleanup (s : State) (id : ℕ) (key temporary : String) (published : Option Bool) :
    Choice → Option State
  | .done =>
    let missing := (s.dir.now temporary).isNone
    let s := if missing then s else s.setDir (s.dir.unlink temporary)
    match published with
    | none => s.fail id (.pin key) (.text "failed to publish SSH host pin")
    | some published =>
      -- Another publisher can recover the alias after the link.
      if missing && !published then
        s.fail id (.pin key) (.text "failed to remove temporary SSH host pin")
      else s.put id (.inspect (.pin key))
  | .failed _ => s.fail id (.pin key) (.text (match published with
    | none => "failed to publish SSH host pin"
    | some _ => "failed to remove temporary SSH host pin"))
  | _ => none

/-- The file under the name of the pin, before it is opened. -/
def inspect (s : State) (id : ℕ) (call : Call) : Choice → Option State
  | .done =>
    match s.dir.now target.path, call with
    | none, .pin _ => s.fail id call .io
    | none, .reset => s.put id (.done call (.ok ()))
    | some file, .pin _ =>
      if safe_pin_metadata (metadata s.dir file) then s.put id (.open call (metadata s.dir file))
      else s.fail id call UNSAFE
    | some file, .reset =>
      if safe_pin_metadata (metadata s.dir file) && (metadata s.dir file).nlink = 1 then
        s.put id (.open call (metadata s.dir file))
      else s.fail id call UNSAFE
  | .failed _ => s.fail id call (match call with
    | .pin _ => .io
    | .reset => .text "failed to inspect SSH host pin")
  | _ => none

/-- The file that is opened has to be the one that was looked at. -/
def openPin (s : State) (id : ℕ) (call : Call) (metadata : Metadata) : Choice → Option State
  | .done =>
    match s.dir.now target.path with
    | none => s.fail id call .io
    | some file =>
      if (s.dir.inode file).number ≠ metadata.ino then
        s.fail id call (.text "stored SSH host pin changed while opening")
      else s.put id (.read call metadata file)
  | .failed _ => s.fail id call .io
  | _ => none

/-- The content of the pin, which has to be a valid key. -/
def read (s : State) (id : ℕ) (call : Call) (metadata : Metadata) (file : ℕ) : Choice → Option State
  | .done =>
    match take_utf8 129 (s.dir.inode file).content.toList with
    | none => s.fail id call .io
    | some stored =>
      let stored := String.ofList stored
      match call with
      | .pin key =>
        if !parse_host_key stored then
          s.fail id call (.text "invalid stored SSH host pin; refusing to replace it")
        else if stored ≠ key then s.fail id call KEY_CHANGED
        else if 1 < metadata.nlink then s.put id (.list key metadata file)
        else s.put id (.confirm key metadata file)
      | .reset =>
        if !parse_host_key stored then s.fail id call (.text "invalid stored SSH host pin")
        else s.put id (.check metadata file)
  | .failed _ => s.fail id call .io
  | _ => none

/-- `read_dir`: every name of the directory is among the entries. -/
def list (s : State) (id : ℕ) (key : String) (metadata : Metadata) (file : ℕ) : Choice → Option State
  | .listed entries =>
    if s.dir.names.all fun name => (s.dir.now name).isNone || entries.contains name then
      s.put id (.recover key metadata file entries)
    else none
  | .failed _ => s.fail id (.pin key) .io
  | _ => none

/-- The next entry of the directory. -/
def recover (s : State) (id : ℕ) (key : String) (metadata : Metadata) (file : ℕ) :
    List String → Choice → Option State
  | [], .done => s.put id (.confirm key metadata file)
  | entry :: entries, .done =>
    if !owned_name entry then s.put id (.recover key metadata file entries)
    else match s.dir.now entry with
      | none => s.put id (.recover key metadata file entries)
      | some other =>
        if safe_pin_metadata (Pins.metadata s.dir other) &&
            (s.dir.inode other).attributes.uid = metadata.attributes.uid &&
            (s.dir.inode other).number = metadata.ino then
          s.put id (.remove key metadata file entry entries)
        else s.put id (.recover key metadata file entries)
  | [], .failed _ => s.fail id (.pin key) .io
  | entry :: _, .failed _ => s.fail id (.pin key)
      (if owned_name entry then .text "failed to inspect SSH host pin alias" else .io)
  | _, _ => none

/-- A leftover of the pin's file; that it has gone already is no error. -/
def remove (s : State) (id : ℕ) (key : String) (metadata : Metadata) (file : ℕ) (entry : String)
    (entries : List String) : Choice → Option State
  | .done =>
    (if (s.dir.now entry).isNone then s else s.setDir (s.dir.unlink entry)).put id
      (.recover key metadata file entries)
  | .failed _ => s.fail id (.pin key) (.text "failed to recover SSH host pin alias")
  | _ => none

/-- The last check: the pin is still the file that is open, under one name. -/
def confirm (s : State) (id : ℕ) (key : String) (metadata : Metadata) (file : ℕ) :
    Choice → Option State
  | .done =>
    match s.dir.now target.path with
    | none => s.fail id (.pin key) .io
    | some other =>
      let recovered := Pins.metadata s.dir other
      if !safe_pin_metadata recovered || recovered.nlink ≠ 1 || recovered.ino ≠ metadata.ino then
        s.fail id (.pin key) UNSAFE
      else s.put id (.syncFile key file s.removals)
  | .failed _ => s.fail id (.pin key) .io
  | _ => none

/-- Then the file is synced, and after it the directory. -/
def syncFile (s : State) (id : ℕ) (key : String) (file removals : ℕ) : Choice → Option State
  | .done => (s.setDir (s.dir.syncFile file)).put id (.syncDirectory key file removals)
  | .failed _ => s.fail id (.pin key) (.text "failed to sync SSH host pin")
  | _ => none

/-- The last step of both calls. -/
def syncDirectory (s : State) (id : ℕ) (call : Call) (message : String) : Choice → Option State
  | .done => (s.setDir s.dir.sync).put id (.done call (.ok ()))
  | .failed progress => (if progress = 0 then s else s.setDir s.dir.sync).fail id call (.text message)
  | _ => none

/-- Before a reset removes the pin, it has to be the file that was read. -/
def check (s : State) (id : ℕ) (metadata : Metadata) (file : ℕ) : Choice → Option State
  | .done =>
    match s.dir.now target.path with
    | none => s.fail id .reset .io
    | some other =>
      if (s.dir.inode other).number ≠ metadata.ino then
        s.fail id .reset (.text "stored SSH host pin changed before removal")
      else s.put id (.unlink file)
  | .failed _ => s.fail id .reset .io
  | _ => none

/-- The removal of the pin. -/
def unlink (s : State) (id : ℕ) (file : ℕ) : Choice → Option State
  | .done =>
    if (s.dir.now target.path).isNone then
      s.fail id .reset (.text "failed to remove SSH host pin")
    else
      { s.setDir (s.dir.unlink target.path) with removals := s.removals + 1 }.put id (.syncRemoval file)
  | .failed _ => s.fail id .reset (.text "failed to remove SSH host pin")
  | _ => none

/-- The next system call of a task. -/
def advance (s : State) (id : ℕ) (choice : Choice) : Task → Option State
  | .manage call => s.manage id call choice
  | .look key => s.look target id key choice
  | .create key temporary => s.create id key temporary choice
  | .write key temporary file => s.write id key temporary file choice
  | .sync key temporary file => s.sync id key temporary file choice
  | .publish key temporary file => s.publish target id key temporary file choice
  | .cleanup key temporary _ published => s.cleanup id key temporary published choice
  | .inspect call => s.inspect target id call choice
  | .open call metadata => s.openPin target id call metadata choice
  | .read call metadata file => s.read id call metadata file choice
  | .list key metadata file => s.list id key metadata file choice
  | .recover key metadata file entries => s.recover id key metadata file entries choice
  | .remove key metadata file entry entries => s.remove id key metadata file entry entries choice
  | .confirm key metadata file => s.confirm target id key metadata file choice
  | .syncFile key file removals => s.syncFile id key file removals choice
  | .syncDirectory key _ _ => s.syncDirectory id (.pin key)
      "failed to persist SSH host pin directory entry" choice
  | .check metadata file => s.check target id metadata file choice
  | .unlink file => s.unlink target id file choice
  | .syncRemoval _ => s.syncDirectory id .reset "failed to persist SSH host pin removal" choice
  | .done _ _ => none

/-- A new call; `pin_host` checks its arguments first. -/
def call (s : State) (call : Call) : State :=
  let task := match call with
    | .pin key =>
      if !target.valid then Task.done call (.error (.text target.refusal))
      else if !parse_host_key key then .done call (.error (.text "invalid ed25519 host key"))
      else .manage call
    | .reset => .manage call
  { s.put s.next task with next := s.next + 1 }

/-- A new process after the old one has died. -/
def restart (s : State) (pid : ℕ) : State :=
  { s with tasks := fun _ => none, pid := pid, counter := 0 }

end State

/-- Calls begin and go on in any order, processes die, and the power goes. -/
inductive Event
  | call (call : Call)
  | run (id : ℕ) (choice : Choice)
  | died (pid : ℕ)
  | powerLoss (pid : ℕ) (keep : String → ℕ) (lost : ℕ → String)

/-- A file system that comes back from a loss of power has no number for two files. -/
def step (target : Target) (s : State) : Event → Option State
  | .call call => s.call target call
  | .run id choice => (s.tasks id).bind (s.advance target id choice)
  | .died pid => s.restart pid
  | .powerLoss pid keep lost =>
    let dir := s.dir.powerLoss keep lost
    if dir.distinct then (s.setDir dir).restart pid else none

/-- A directory in which there is no pin yet, whatever else is in it. -/
def start (dir : Directory Attributes) (pid : ℕ) : State := ⟨dir, fun _ => none, 0, pid, 0, 0⟩

end Gofro.Agent.Pins
