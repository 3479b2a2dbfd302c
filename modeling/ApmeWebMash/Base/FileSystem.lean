-- SUMMARY: A file system as a map from paths to entries: the system calls on it, and what each of them does to a run.
import Mathlib.Logic.Function.Basic
import ApmeWebMash.Base.Text

/-! # File systems

A file system maps absolute paths to entries. Links on the way to an entry are
taken as resolved: a path is the path of the directory that it leads to, and the
name of the entry there. A program is a sequence of system calls. A call that
fails leaves behind what the calls before it have done. Calls fail over the
entries and over the length of an address; permissions and space are taken to
be granted. -/

namespace FileSystem

/-! ## Paths -/

/-- `std::path::Component`, below the root. -/
inductive Component where
  | normal (name : List UInt8)
  | parentDir
deriving DecidableEq

/-- An absolute path, by its components. -/
abbrev Path := List Component

/-- A component as it is written. -/
def Component.bytes : Component → List UInt8
  | .normal name => name
  | .parentDir => [46, 46]

/-- A path as it is written, with one slash before each component. -/
def Path.bytes (path : Path) : List UInt8 := path.flatMap fun component => 47 :: component.bytes

/-- `Path::parent`. -/
def Path.parent (path : Path) : Option Path :=
  if path = [] then none else some path.dropLast

/-- `Path::file_name`. -/
def Path.fileName (path : Path) : Option (List UInt8) :=
  match path.getLast? with
  | some (.normal name) => some name
  | _ => none

/-- `Path::join` with a name. -/
def Path.join (path : Path) (name : List UInt8) : Path := path ++ [.normal name]

@[simp] theorem parent_join (path : Path) (name : List UInt8) :
    (path.join name).parent = some path := by
  simp [Path.parent, Path.join]

@[simp] theorem fileName_join (path : Path) (name : List UInt8) :
    (path.join name).fileName = some name := by
  simp [Path.fileName, Path.join]

theorem join_ne_self (path : Path) (name : List UInt8) : path.join name ≠ path := by
  intro h
  have hlength := congrArg List.length h
  simp [Path.join] at hlength

theorem join_inj {path : Path} {name name' : List UInt8} :
    path.join name = path.join name' ↔ name = name' := by
  simp [Path.join]

/-! ## Entries -/

/-- What a path leads to. Of a socket the permissions are kept, of a link what is
    written in it. -/
inductive Entry where
  | regular
  | directory
  | socket (mode : Nat)
  | symlink (target : List UInt8)
deriving DecidableEq

/-- `FileTypeExt::is_socket`. -/
def Entry.isSocket : Entry → Bool
  | .socket _ => true
  | _ => false

/-- `FileType::is_symlink`. -/
def Entry.isSymlink : Entry → Bool
  | .symlink _ => true
  | _ => false

abbrev State := Path → Option Entry

/-! ## System calls -/

/-- `io::ErrorKind`. -/
inductive ErrorKind where
  | notFound
  | notADirectory
  | isADirectory
  | alreadyExists
  | addrInUse
  | invalidInput
  | unsupported
deriving DecidableEq

/-- `io::Error`: of the system, or made by the program. -/
inductive Error where
  | os (kind : ErrorKind)
  | custom (kind : ErrorKind) (message : Str)
deriving DecidableEq

/-- `io::Error::kind`. -/
def Error.kind : Error → ErrorKind
  | .os kind => kind
  | .custom kind _ => kind

abbrev Call := ExceptT Error (StateM State)

/-- A run of a call: its result, and the file system behind it. -/
def exec {α : Type} (call : Call α) (fs : State) : Except Error α × State := call.run.run fs

/-- A call whose error is looked at. -/
def attempt {α : Type} (call : Call α) : Call (Except Error α) := ExceptT.lift call.run

/-- The directory of a path must be there. -/
def enter (path : Path) : Call Unit := do
  match path.parent with
  | none => pure ()
  | some parent =>
    match (← get) parent with
    | some .directory => pure ()
    | some _ => throw (.os .notADirectory)
    | none => throw (.os .notFound)

/-- `fs::symlink_metadata`. -/
def symlinkMetadata (path : Path) : Call Entry := do
  enter path
  match (← get) path with
  | some entry => pure entry
  | none => throw (.os .notFound)

/-- `fs::remove_file`. -/
def removeFile (path : Path) : Call Unit := do
  match ← symlinkMetadata path with
  | .directory => throw (.os .isADirectory)
  | _ => modify fun fs => Function.update fs path none

/-- A new entry at a path that must be free. -/
def create (entry : Entry) (taken : ErrorKind) (path : Path) : Call Unit := do
  enter path
  match (← get) path with
  | some _ => throw (.os taken)
  | none => modify fun fs => Function.update fs path (some entry)

/-- The size of `sun_path`, in which an address has a zero byte at its end. -/
def sunPathSize : Nat := 108

/-- The path fits into the address of a socket. -/
def FitsAddress (path : Path) : Prop := path.bytes.length < sunPathSize

instance (path : Path) : Decidable (FitsAddress path) := inferInstanceAs (Decidable (_ < _))

/-- The error about a path that does not. -/
def addressTooLong : Error := .custom .invalidInput "path must be shorter than SUN_LEN"

/-- `UnixListener::bind`: a socket with the permissions that the mask of the
    process leaves. -/
def bindListener (umask : Nat) (path : Path) : Call Unit :=
  if FitsAddress path then create (.socket (0o777 &&& (0o777 ^^^ umask))) .addrInUse path
  else throw addressTooLong

/-- `std::os::unix::fs::symlink`. -/
def symlink (target : List UInt8) (path : Path) : Call Unit :=
  create (.symlink target) .alreadyExists path

/-- `fs::set_permissions`. A link would be followed, which is left out. -/
def setPermissions (path : Path) (mode : Nat) : Call Unit := do
  match ← symlinkMetadata path with
  | .socket _ => modify fun fs => Function.update fs path (some (.socket mode))
  | .symlink _ => throw (.os .unsupported)
  | .regular | .directory => pure ()

/-! ## Runs -/

variable {α β : Type} {fs fs' : State} {path : Path}

theorem exec_bind_ok {call : Call α} {a : α} (h : exec call fs = (.ok a, fs')) (next : α → Call β) :
    exec (call >>= next) fs = exec (next a) fs' := by
  rw [exec] at h
  rw [exec, ExceptT.run_bind, StateT.run_bind, h]
  rfl

theorem exec_bind_error {call : Call α} {error : Error} (h : exec call fs = (.error error, fs'))
    (next : α → Call β) : exec (call >>= next) fs = (.error error, fs') := by
  rw [exec] at h
  rw [exec, ExceptT.run_bind, StateT.run_bind, h]
  rfl

@[simp] theorem exec_pure (a : α) : exec (pure a : Call α) fs = (.ok a, fs) := rfl

@[simp] theorem exec_get : exec (get : Call State) fs = (.ok fs, fs) := rfl

theorem exec_attempt (call : Call α) :
    exec (attempt call) fs = (.ok (exec call fs).1, (exec call fs).2) := rfl

/-- The directory of a path is there. -/
def Leads (fs : State) (path : Path) : Prop :=
  ∀ parent, path.parent = some parent → fs parent = some .directory

theorem exec_enter (h : Leads fs path) : exec (enter path) fs = (.ok (), fs) := by
  rw [enter]
  split
  · rfl
  · rename_i parent hparent
    rw [exec_bind_ok exec_get, h parent hparent]
    rfl

theorem exec_symlinkMetadata (h : Leads fs path) :
    exec (symlinkMetadata path) fs = ((fs path).elim (.error (.os .notFound)) .ok, fs) := by
  rw [symlinkMetadata, exec_bind_ok (exec_enter h), exec_bind_ok exec_get]
  cases fs path <;> rfl

theorem exec_removeFile (h : Leads fs path) {entry : Entry} (hentry : fs path = some entry)
    (hne : entry ≠ .directory) :
    exec (removeFile path) fs = (.ok (), Function.update fs path none) := by
  have hmeta := exec_symlinkMetadata h
  rw [hentry] at hmeta
  rw [removeFile, exec_bind_ok hmeta]
  cases entry with
  | directory => exact absurd rfl hne
  | regular | socket _ | symlink _ => rfl

theorem exec_create (h : Leads fs path) (hfree : fs path = none) (entry : Entry) (taken : ErrorKind) :
    exec (create entry taken path) fs = (.ok (), Function.update fs path (some entry)) := by
  rw [create, exec_bind_ok (exec_enter h), exec_bind_ok exec_get, hfree]
  rfl

theorem exec_bindListener (h : Leads fs path) (hfree : fs path = none) (hfits : FitsAddress path)
    (umask : Nat) :
    exec (bindListener umask path) fs =
      (.ok (), Function.update fs path (some (.socket (0o777 &&& (0o777 ^^^ umask))))) := by
  rw [bindListener, if_pos hfits]
  exact exec_create h hfree _ _

theorem exec_bindListener_tooLong (h : ¬ FitsAddress path) (umask : Nat) :
    exec (bindListener umask path) fs = (.error addressTooLong, fs) := by
  rw [bindListener, if_neg h]
  rfl

theorem exec_setPermissions (h : Leads fs path) {mode : Nat} (hentry : fs path = some (.socket mode))
    (mode' : Nat) :
    exec (setPermissions path mode') fs =
      (.ok (), Function.update fs path (some (.socket mode'))) := by
  have hmeta := exec_symlinkMetadata h
  rw [hentry] at hmeta
  rw [setPermissions, exec_bind_ok hmeta]
  rfl

/-! ## Moments -/

/-- One call after the other. -/
def sequence : List (Call Unit) → Call Unit
  | [] => pure ()
  | call :: calls => do
    call
    sequence calls

/-- The file systems that a sequence of calls passes through, up to the first
    call that fails. At each of them the program may be interrupted. -/
def moments : List (Call Unit) → State → List State
  | [], fs => [fs]
  | call :: calls, fs =>
    match exec call fs with
    | (.ok (), fs') => fs :: moments calls fs'
    | (.error _, fs') => [fs, fs']

/-- The first moment is before the first call. -/
theorem moments_eq_cons (calls : List (Call Unit)) (fs : State) :
    moments calls fs = fs :: (moments calls fs).tail := by
  cases calls with
  | nil => rfl
  | cons call calls =>
    rw [moments]
    split <;> rfl

/-- What holds behind a call that succeeds, and at the moments of the calls after
    it, holds at all moments but the first. -/
theorem forall_tail_moments {P : State → Prop} {call : Call Unit} {calls : List (Call Unit)}
    (h : exec call fs = (.ok (), fs')) (hnext : P fs')
    (hrest : ∀ moment ∈ (moments calls fs').tail, P moment) :
    ∀ moment ∈ (moments (call :: calls) fs).tail, P moment := by
  rw [moments, h, List.tail_cons, moments_eq_cons]
  exact List.forall_mem_cons.mpr ⟨hnext, hrest⟩

end FileSystem
