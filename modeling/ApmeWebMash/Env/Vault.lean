-- SUMMARY: The recipes that write env/enc and env/dec, step by step, in processes that run side by side.
import ApmeWebMash.Base.Run
import ApmeWebMash.Env.Consumers

/-! # The directories of the recipes

`env-decrypt` and `env-docker-env-file` write plaintext by way of a temporary
file that is moved over the old one; `env-encrypt` and `env-new` write a new
ciphertext in place, and `env-clean` overwrites what it removes. A process can
be killed between any two of these steps, and others can run in between. -/

namespace Env

/-! ## Files and programs -/

structure File where
  mode : Nat
  text : Str
deriving DecidableEq

abbrev Dir := BTreeMap Str File

/-- What a redirection leaves: the file keeps its permissions, a new one gets
    those of the umask. -/
def Dir.put (dir : Dir) (newMode : Nat) (name text : Str) : Dir :=
  dir.insert name ⟨((dir.get name).map File.mode).getD newMode, text⟩

/-- The two directories, without what lies below them, and how often another file
    has come under a name of env/dec, or none. -/
structure Vault where
  enc : Dir
  dec : Dir
  moves : Str → Nat

def encFile (name : Str) : Str := name ++ (".env.enc" : Str)

def decFile (name : Str) : Str := name ++ (".env" : Str)

/-- The template of `mktemp` without its last six characters. -/
def tempPrefix (name : Str) : Str := '.' :: name ++ ['.']

/-- Another file is under the name from now on, or none. -/
def Vault.moved (vault : Vault) (name : Str) : Str → Nat :=
  Function.update vault.moves name (vault.moves name + 1)

/-- The name of a file that `mktemp` has made. -/
def IsTemp (file : Str) : Prop :=
  ∃ name suffix : Str, file = tempPrefix name ++ suffix ∧ suffix.length = 6 ∧ '.' ∉ suffix

/-- The names of the files `*suffix`, without the suffix. -/
def glob (suffix : Str) (dir : Dir) : List Str :=
  (dir.entries.map Prod.fst).filterMap fun file =>
    ((Str.stripPrefix file.reverse suffix.reverse).map List.reverse).filter
      fun name => name.head? ≠ some '.' && name ≠ []

/-- What a command writes on its output, and whether it succeeds. -/
structure Ran where
  stdout : Str
  ok : Bool

/-- How `sops edit` ends: with a new ciphertext, with status 200 because nothing
    has changed, or with an error. -/
inductive Edited where
  | changed (cipher : Str)
  | unchanged
  | failed (status : Nat)

/-- The programs that the recipes call. The number of a call stands for all that
    its outcome depends on besides. A call of `sops edit` or `sops updatekeys` is one
    step, with the new file in its place. -/
structure Tools where
  newMode : Nat
  decrypt : Nat → Str → Ran
  encrypt : Nat → Str → Ran
  /-- The ciphertext is missing where the file is. The editor can fail. -/
  edit : Nat → Option Str → (Str → Option Str) → Edited
  updatekeys : Nat → Str → Option Str
  mktemp : Nat → Dir → Str → Option Str
  mktemp_fresh : ∀ call dir template file, mktemp call dir template = some file →
    dir.get file = none ∧
      ∃ suffix : Str, file = template ++ suffix ∧ suffix.length = 6 ∧ '.' ∉ suffix

/-- What is made of a ciphertext: the text, or a file for `docker compose`. -/
inductive Form where
  | plain
  | envfile

/-- `sops decrypt`, and the loader behind it, with `pipefail`. -/
def Tools.output (tools : Tools) (getcode : List UInt8 → Option Nat) (form : Form) (call : Nat)
    (cipher : Str) : Ran :=
  let decrypted := tools.decrypt call cipher
  match form with
  | .plain => decrypted
  | .envfile =>
    let result := main getcode .envfile decrypted.stdout
    ⟨result.text, decrypted.ok && result.exit = .done⟩

/-! ## Processes -/

/-- The environment that is decrypted, and those that are still to come. -/
structure Job where
  form : Form
  name : Str
  names : List Str

/-- What a process does next. -/
inductive Phase where
  /-- `env-decrypt`, and `env-docker-env-file` with its only name -/
  | decrypt (form : Form) (names : List Str)
  | mktemp (job : Job)
  | output (job : Job) (tmp : Str)
  | writing (job : Job) (tmp rest : Str) (ok : Bool)
  | rename (job : Job) (tmp : Str)
  /-- `env-encrypt`, and `env-new` from `create` on -/
  | encrypt (names : List Str)
  | target (name : Str) (names : List Str)
  | fold (name : Str) (names : List Str)
  | create (name : Str) (text : Option Str) (names : List Str)
  | creating (name rest : Str) (ok : Bool) (names : List Str)
  | new (name : Str)
  | edit (name : Str) (editor : Str → Option Str)
  | rekey (names : List Str)
  /-- `env-clean` -/
  | clean (names : List Str)
  | truncate (name : Str) (size : Nat) (names : List Str)
  | fill (name : Str) (opened offset left : Nat) (names : List Str)
  | remove (name : Str) (names : List Str)
  | done (status : Nat)

/-- The first text of an environment. -/
def newText (name : Str) : Str :=
  ("# " : Str) ++ name ++
    (" environment for this repo. Values are encrypted; names are not.\n" : Str)

section
variable (tools : Tools) (getcode : List UInt8 → Option Nat)

/-- The file of a ciphertext behind `sops edit`, and the status. -/
def editFile (call : Nat) (enc : Dir) (name : Str) (editor : Str → Option Str) : Dir × Nat :=
  match tools.edit call ((enc.get (encFile name)).map File.text) editor with
  | .changed cipher => (enc.put tools.newMode (encFile name) cipher, 0)
  | .unchanged => (enc, 200)
  | .failed status => (enc, status)

/-- The next step of a process. -/
def advance (call : Nat) (vault : Vault) : Phase → Vault × Phase
  | .decrypt _ [] => (vault, .done 0)
  | .decrypt form (name :: names) =>
    if (vault.enc.get (encFile name)).isSome then (vault, .mktemp ⟨form, name, names⟩)
    else (vault, .done 1)
  | .mktemp job =>
    match tools.mktemp call vault.dec (tempPrefix job.name) with
    | none => (vault, .done 1)
    | some tmp => ({ vault with dec := vault.dec.insert tmp ⟨0o600, []⟩ }, .output job tmp)
  | .output job tmp =>
    let ran : Ran := match vault.enc.get (encFile job.name) with
      | none => ⟨[], false⟩
      | some file => tools.output getcode job.form call file.text
    ({ vault with dec := vault.dec.put tools.newMode tmp [] }, .writing job tmp ran.stdout ran.ok)
  | .writing job tmp (c :: rest) ok =>
    let written := ((vault.dec.get tmp).map File.text).getD []
    ({ vault with dec := vault.dec.put tools.newMode tmp (written ++ [c]) },
      .writing job tmp rest ok)
  | .writing job tmp [] ok => (vault, if ok then .rename job tmp else .done 1)
  | .rename job tmp =>
    match vault.dec.get tmp with
    | none => (vault, .done 1)
    | some file =>
      ({ vault with
        dec := (vault.dec.remove tmp).insert (decFile job.name) file
        moves := vault.moved (decFile job.name) }, .decrypt job.form job.names)
  | .encrypt [] => (vault, .done 0)
  | .encrypt (name :: names) =>
    if (vault.dec.get (decFile name)).isSome then (vault, .target name names) else (vault, .done 1)
  | .target name names =>
    if (vault.enc.get (encFile name)).isSome then (vault, .fold name names)
    else (vault, .create name none names)
  | .fold name names =>
    -- the editor is `cp`, which can find the plaintext gone
    let editor := fun _ => (vault.dec.get (decFile name)).map File.text
    let (enc, status) := editFile tools call vault.enc name editor
    ({ vault with enc }, if status = 0 ∨ status = 200 then .encrypt names else .done status)
  | .create name text names =>
    let ran : Ran := match text.or ((vault.dec.get (decFile name)).map File.text) with
      | none => ⟨[], false⟩
      | some text => tools.encrypt call text
    ({ vault with enc := vault.enc.put tools.newMode (encFile name) [] },
      .creating name ran.stdout ran.ok names)
  | .creating name (c :: rest) ok names =>
    let written := ((vault.enc.get (encFile name)).map File.text).getD []
    ({ vault with enc := vault.enc.put tools.newMode (encFile name) (written ++ [c]) },
      .creating name rest ok names)
  | .creating _ [] ok names => (vault, if ok then .encrypt names else .done 1)
  | .new name =>
    if (vault.enc.get (encFile name)).isSome then (vault, .done 1)
    else (vault, .create name (some (newText name)) [])
  | .edit name editor =>
    let (enc, status) := editFile tools call vault.enc name editor
    ({ vault with enc }, .done status)
  | .rekey [] => (vault, .done 0)
  | .rekey (name :: names) =>
    match (vault.enc.get (encFile name)).bind fun file => tools.updatekeys call file.text with
    | none => (vault, .done 1)
    | some cipher =>
      ({ vault with enc := vault.enc.put tools.newMode (encFile name) cipher }, .rekey names)
  | .clean [] => (vault, .done 0)
  | .clean (name :: names) =>
    (vault, .truncate name (((vault.dec.get (decFile name)).map fun file =>
      Str.len file.text).getD 0) names)
  | .truncate name size names =>
    ({ vault with dec := vault.dec.put tools.newMode (decFile name) [] },
      .fill name (vault.moves (decFile name)) 0 size names)
  | .fill name opened offset (left + 1) names =>
    -- a file that has been moved here meanwhile is not the one that is open
    let written := ((vault.dec.get (decFile name)).map File.text).getD []
    let dec := if vault.moves (decFile name) = opened then
      vault.dec.put tools.newMode (decFile name)
        (List.replicate (offset + 1) '\x00' ++ written.drop (offset + 1)) else vault.dec
    ({ vault with dec }, .fill name opened (offset + 1) left names)
  | .fill name _ _ 0 names => (vault, .remove name names)
  | .remove name names =>
    ({ vault with
      dec := vault.dec.remove (decFile name)
      moves := vault.moved (decFile name) }, .clean names)
  | .done status => (vault, .done status)

end

/-- A recipe with its arguments. Names are single words for the shell, without a
    slash. -/
inductive Recipe where
  | envDecrypt (names : List Str)
  | envDockerEnvFile (name : Str)
  | envEncrypt (names : List Str)
  | envNew (name : Str)
  | envEdit (name : Str) (editor : Str → Option Str)
  | envRekey
  | envClean

/-- Where a recipe begins, with all names where none is given. -/
def Recipe.begin (vault : Vault) : Recipe → Phase
  | .envDecrypt names => .decrypt .plain (if names = [] then glob ".env.enc" vault.enc else names)
  | .envDockerEnvFile name => .decrypt .envfile [name]
  | .envEncrypt names => .encrypt (if names = [] then glob ".env" vault.dec else names)
  | .envNew name => .new name
  | .envEdit name editor => .edit name editor
  | .envRekey => .rekey (glob ".env.enc" vault.enc)
  | .envClean => .clean (glob ".env" vault.dec)

/-! ## Side by side -/

/-- The directories, and the processes that have been started. -/
structure Host where
  vault : Vault
  phases : List Phase

/-- What happens on the host. A file can also be moved into env/dec by hand. -/
inductive Event where
  | start (recipe : Recipe)
  | act (i call : Nat)
  | kill (i : Nat)
  | put (name : Str) (file : File)

section
variable (tools : Tools) (getcode : List UInt8 → Option Nat)

inductive HostStep : Host → Event → Host → Prop where
  | start {host : Host} {recipe : Recipe} :
    HostStep host (.start recipe)
      { host with phases := host.phases ++ [recipe.begin host.vault] }
  | act {host : Host} {i call : Nat} {phase : Phase} : host.phases[i]? = some phase →
    HostStep host (.act i call)
      ⟨(advance tools getcode call host.vault phase).1,
        host.phases.set i (advance tools getcode call host.vault phase).2⟩
  | kill {host : Host} {i : Nat} : i < host.phases.length →
    HostStep host (.kill i) { host with phases := host.phases.set i (.done 137) }
  | put {host : Host} {name : Str} {file : File} : name.head? ≠ some '.' →
    HostStep host (.put name file)
      { host with vault := { host.vault with
        dec := host.vault.dec.insert name file
        moves := host.vault.moved name } }

end

/-! ## Names -/

theorem Dir.get_put (dir : Dir) (newMode : Nat) (name text other : Str) :
    (dir.put newMode name text).get other =
      if other = name then some ⟨((dir.get name).map File.mode).getD newMode, text⟩
      else dir.get other := by
  rw [Dir.put, BTreeMap.get_insert]
  congr

theorem encFile_inj {name name' : Str} : encFile name = encFile name' ↔ name = name' :=
  List.append_left_inj _

theorem decFile_inj {name name' : Str} : decFile name = decFile name' ↔ name = name' :=
  List.append_left_inj _

/-- No environment has a temporary file as its plaintext. -/
theorem not_isTemp_decFile (name : Str) : ¬ IsTemp (decFile name) := by
  rintro ⟨stem, suffix, heq, hlength, hdot⟩
  -- the last six characters of the name have the dot of `.env` among them
  have hlast : (".env" : Str) <:+ suffix := by
    refine List.suffix_of_suffix_length_le ⟨name, rfl⟩ ⟨tempPrefix stem, heq.symm⟩ ?_
    rw [hlength]
    decide
  exact hdot (hlast.subset (by decide))

/-! ## Programs -/

/-- Programs that decrypt everything as it stands and fail at the rest. -/
def sampleTools : Tools where
  newMode := 0o644
  decrypt _ cipher := ⟨cipher, true⟩
  encrypt _ _ := ⟨[], false⟩
  edit _ _ _ := .failed 1
  updatekeys _ _ := none
  mktemp _ dir template :=
    if dir.get (template ++ List.replicate 6 'X') = none then some (template ++ List.replicate 6 'X')
    else none
  mktemp_fresh _ dir template file h := by
    split at h
    · rename_i hnone
      obtain rfl := Option.some.inj h
      exact ⟨hnone, List.replicate 6 'X', rfl, rfl, by decide⟩
    · cases h

end Env
