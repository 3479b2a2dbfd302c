-- SUMMARY: The whole container entrypoint: when the command runs, and with which environment.
import ApmeWebMash.Env.Consumers

/-! # The container entrypoint as a whole

`scripts/sops-entrypoint.sh` keeps four variables of its own among those that it
loads. A variable that the container brings along stays exported when the script
assigns to it, so what the script does to its own shows in the environment of
the command if the container has set them. -/

namespace Env

/-! ## Variables of a shell -/

/-- The variables that a shell has: those that its commands see, and the others. -/
structure Variables where
  exported : BTreeMap Str Str
  others : BTreeMap Str Str

namespace Variables

variable (v : Variables)

def get (name : Str) : Option Str := (v.exported.get name).or (v.others.get name)

/-- `name=value`: what is exported stays so. -/
def assign (name value : Str) : Variables :=
  if (v.exported.get name).isSome then { v with exported := v.exported.insert name value }
  else { v with others := v.others.insert name value }

/-- `export "name=value"`. -/
def assignExported (name value : Str) : Variables :=
  ⟨v.exported.insert name value, v.others.remove name⟩

/-- `unset name`. -/
def unset (name : Str) : Variables := ⟨v.exported.remove name, v.others.remove name⟩

/-- `${name:-default}`. -/
def getOr (name default : Str) : Str :=
  let value := (v.get name).getD []
  if value = [] then default else value

theorem getOr_nil (name : Str) : v.getOr name [] = (v.get name).getD [] := by
  rw [getOr]
  split
  · rename_i hempty
    exact hempty.symm
  · rfl

theorem exported_assign (name value key : Str) :
    (v.assign name value).exported.get key =
      if key = name ∧ (v.exported.get name).isSome then some value else v.exported.get key := by
  rw [assign]
  split
  · rename_i hset
    simp [hset]
  · rename_i hset
    rw [if_neg fun hboth => hset hboth.2]

theorem get_assign (name value key : Str) :
    (v.assign name value).get key = if key = name then some value else v.get key := by
  by_cases hset : (v.exported.get name).isSome
  · rw [assign, if_pos hset, get, BTreeMap.get_insert]
    split <;> rfl
  · rw [assign, if_neg hset, get, BTreeMap.get_insert]
    split
    · rename_i heq
      rw [heq, Option.not_isSome_iff_eq_none.mp hset, Option.none_or]
    · rfl

/-- An assignment to another name changes nothing. -/
theorem others_assign {name key : Str} (h : key ≠ name) (value : Str) :
    (v.assign name value).others.get key = v.others.get key := by
  rw [assign]
  split
  · rfl
  · rw [BTreeMap.get_insert, if_neg h]

end Variables

/-! ## The script -/

def secretsFile : Str := "SOPS_SECRETS_FILE"

def secretsName : Str := "secrets"

def keyName : Str := "key"

def valueName : Str := "value"

def ageKey : Str := "SOPS_AGE_KEY"

def ageKeyFile : Str := "SOPS_AGE_KEY_FILE"

def requireKey : Str := "SOPS_REQUIRE_KEY"

def defaultSecretsFile : Str := "/app/secrets/app.env"

/-- What the script finds in the container: `[ -f ... ]`, and `sops` with what it
    decrypts in an environment. -/
structure Image where
  isFile : Str → Bool
  sops : Option (BTreeMap Str Str → Str → Option Str)

/-- How the script ends. -/
inductive Outcome where
  | replaced (command : List Str) (environ : BTreeMap Str Str)
  | exited (status : Nat)

/-- What the script has written on its error output, and how it has ended. -/
structure Started where
  messages : List Str
  outcome : Outcome

/-- `exec "$@"`: without a command the script goes on. A command is taken to be
    there, and to be executable. -/
def exec (command : List Str) (messages : List Str) (v : Variables) (next : Started) : Started :=
  if command = [] then next else ⟨messages, .replaced command v.exported⟩

/-- The body of the loop. `read` has assigned the two fields. -/
def loadLine (v : Variables) (line : Str) : Variables :=
  let key := (splitKey line).1
  let value := lastField (splitKey line).2
  let v := (v.assign keyName key).assign valueName value
  if skipsKey key then v
  else if (v.get key).isSome then v
  else v.assignExported key value

/-- What the loop writes about a line. -/
def lineMessage (line : Str) : List Str :=
  let key := (splitKey line).1
  if key = [] || Str.startsWith key "#" || Str.startsWith key "sops_" then []
  else if skipsKey key then ["sops-entrypoint: skipping invalid variable name"]
  else []

/-- The loop, up to the `read` that finds no line. -/
def load (v : Variables) (text : Str) : Variables :=
  (((entrypointLines text).foldl loadLine v).assign keyName []).assign valueName []

/-- From the check for `sops` to the end. -/
def decryptAndRun (image : Image) (command : List Str) (messages : List Str) (v : Variables) :
    Started :=
  let file := (v.get secretsFile).getD []
  match image.sops with
  | none => ⟨messages ++ [("sops-entrypoint: sops binary not in image" : Str)], .exited 1⟩
  | some sops =>
    match sops v.exported file with
    | none =>
      ⟨messages ++ [("sops-entrypoint: failed to decrypt " : Str) ++ file], .exited 1⟩
    | some text =>
      let v := (load (v.assign secretsName (commandSubstitution text)) text).unset secretsName
      let messages := messages ++ (entrypointLines text).flatMap lineMessage
      exec command messages v ⟨messages, .exited 0⟩

/-- From the check for a key on. -/
def checkKey (image : Image) (command : List Str) (v : Variables) : Started :=
  if v.getOr ageKey [] = [] ∧ v.getOr ageKeyFile [] = [] then
    if v.getOr requireKey ['0'] = ['1'] then
      ⟨["sops-entrypoint: no SOPS_AGE_KEY or SOPS_AGE_KEY_FILE set (SOPS_REQUIRE_KEY=1).",
        "  docker run -e SOPS_AGE_KEY=\"$(cat ~/.config/sops/age/keys.txt)\" ..."], .exited 1⟩
    else
      let messages := [("sops-entrypoint: no age key supplied; starting without decrypting " : Str) ++
        (v.get secretsFile).getD []]
      exec command messages v (decryptAndRun image command messages v)
  else decryptAndRun image command [] v

/-- `: "${SOPS_SECRETS_FILE:=...}"`. -/
def withSecretsFile (v : Variables) : Variables :=
  if v.getOr secretsFile [] = [] then v.assign secretsFile defaultSecretsFile else v

/-- `scripts/sops-entrypoint.sh`, with the command as its arguments. -/
def sopsEntrypoint (image : Image) (command : List Str) (v : Variables) : Started :=
  let v := withSecretsFile v
  if image.isFile ((v.get secretsFile).getD []) then checkKey image command v
  else exec command [] v (checkKey image command v)

/-! ## The loop -/

variable {image : Image} {command : List Str} {v : Variables} {key : Str}

/-- `read` has assigned its two fields. -/
def readFields (v : Variables) (line : Str) : Variables :=
  (v.assign keyName (splitKey line).1).assign valueName (lastField (splitKey line).2)

theorem loadLine_eq (v : Variables) (line : Str) :
    loadLine v line =
      if skipsKey (splitKey line).1 ∨ ((readFields v line).get (splitKey line).1).isSome then
        readFields v line
      else (readFields v line).assignExported (splitKey line).1 (lastField (splitKey line).2) := by
  rw [loadLine, ← readFields]
  split
  · rename_i hskip
    rw [if_pos (.inl hskip)]
  · rename_i hskip
    refine if_congr ?_ rfl rfl
    rw [or_iff_right hskip]

theorem readFields_other (hkey : key ≠ keyName ∧ key ≠ valueName) (line : Str) :
    (readFields v line).exported.get key = v.exported.get key ∧
      (readFields v line).others.get key = v.others.get key := by
  constructor
  · rw [readFields, Variables.exported_assign, if_neg fun h => hkey.2 h.1, Variables.exported_assign,
      if_neg fun h => hkey.1 h.1]
  · rw [readFields, Variables.others_assign _ hkey.2, Variables.others_assign _ hkey.1]

/-- The fields are set where the loop looks. -/
theorem readFields_field (hkey : key = keyName ∨ key = valueName) (line : Str) :
    ((readFields v line).get key).isSome := by
  rw [readFields, Variables.get_assign, Variables.get_assign]
  rcases hkey with rfl | rfl
  · split <;> simp
  · simp

theorem isSome_exported_readFields (line : Str) :
    ((readFields v line).exported.get key).isSome = (v.exported.get key).isSome := by
  have hassign : ∀ (v : Variables) (name value : Str),
      ((v.assign name value).exported.get key).isSome = (v.exported.get key).isSome := by
    intro v name value
    rw [Variables.exported_assign]
    split
    · rename_i hset
      rw [hset.1, hset.2]
      rfl
    · rfl
  rw [readFields, hassign, hassign]

/-- What a line exports under another name than those of the fields. -/
theorem exported_loadLine (hkey : key ≠ keyName ∧ key ≠ valueName) (line : Str) :
    (loadLine v line).exported.get key =
      (v.exported.get key).or (if (v.others.get key).isSome then none
        else (keyLine line).bind fun pair =>
          if pair.1 = key then some (lastField pair.2) else none) := by
  obtain ⟨hexported, hothers⟩ := readFields_other (v := v) hkey line
  rw [loadLine_eq, keyLine]
  by_cases hskip : skipsKey (splitKey line).1
  · rw [if_pos (.inl hskip), if_pos hskip, hexported, Option.bind_none, ite_self, Option.or_none]
  rw [if_neg hskip, Option.bind_some]
  by_cases hline : (splitKey line).1 = key
  · rw [hline, if_pos rfl, Variables.get, hexported, hothers]
    -- `${!key+x}` also finds variables that are not exported
    cases hget : v.exported.get key with
    | some value => rw [if_pos (.inr rfl), hexported, hget, Option.some_or]
    | none =>
      rw [Option.none_or, Option.none_or]
      split
      · rename_i hset
        rw [if_pos (hset.resolve_left (hline ▸ hskip)), hexported, hget]
      · rename_i hset
        rw [if_neg fun h => hset (.inr h), Variables.assignExported, BTreeMap.get_insert, if_pos rfl]
  · rw [if_neg hline, ite_self, Option.or_none]
    split
    · exact hexported
    · rw [Variables.assignExported, BTreeMap.get_insert, if_neg (Ne.symm hline), hexported]

theorem others_loadLine (hkey : key ≠ keyName ∧ key ≠ valueName) (line : Str) :
    (loadLine v line).others.get key = v.others.get key := by
  obtain ⟨-, hothers⟩ := readFields_other (v := v) hkey line
  rw [loadLine_eq]
  split
  · exact hothers
  · rename_i hset
    rw [Variables.assignExported, BTreeMap.get_remove, hothers]
    split
    · rename_i heq
      subst heq
      have hnone : (readFields v line).get (splitKey line).1 = none :=
        Option.not_isSome_iff_eq_none.mp fun h => hset (.inr h)
      rw [Variables.get, Option.or_eq_none_iff, hothers] at hnone
      exact hnone.2.symm
    · rfl

/-- The loop does not export its fields. -/
theorem isSome_exported_loadLine (hkey : key = keyName ∨ key = valueName) (line : Str) :
    ((loadLine v line).exported.get key).isSome = (v.exported.get key).isSome := by
  rw [loadLine_eq]
  split
  · exact isSome_exported_readFields line
  · rename_i hset
    have hne : key ≠ (splitKey line).1 := by
      rintro rfl
      exact hset (.inr (readFields_field hkey line))
    rw [Variables.assignExported, BTreeMap.get_insert, if_neg hne, isSome_exported_readFields]

/-- The first line for a name counts, unless the name is taken. -/
theorem foldl_loadLine (hkey : key ≠ keyName ∧ key ≠ valueName) (lines : List Str) (v : Variables) :
    (lines.foldl loadLine v).exported.get key =
        (v.exported.get key).or (if (v.others.get key).isSome then none
          else (valuesOf key (lines.filterMap keyLine)).head?.map lastField) ∧
      (lines.foldl loadLine v).others.get key = v.others.get key := by
  induction lines generalizing v with
  | nil => simp [valuesOf]
  | cons line lines ih =>
    obtain ⟨hexported, hothers⟩ := ih (loadLine v line)
    rw [List.foldl_cons, hothers, hexported, others_loadLine hkey, exported_loadLine hkey,
      Option.or_assoc]
    refine ⟨?_, rfl⟩
    congr 1
    split
    · rfl
    · cases hline : keyLine line with
      | none => rw [List.filterMap_cons_none hline, Option.bind_none, Option.none_or]
      | some pair =>
        rw [List.filterMap_cons_some hline, valuesOf_cons, Option.bind_some]
        split
        · rw [List.head?_cons, Option.map_some, Option.some_or]
        · rw [Option.none_or]

theorem isSome_foldl_loadLine (hkey : key = keyName ∨ key = valueName) (lines : List Str)
    (v : Variables) :
    ((lines.foldl loadLine v).exported.get key).isSome = (v.exported.get key).isSome := by
  induction lines generalizing v with
  | nil => rfl
  | cons line lines ih => rw [List.foldl_cons, ih, isSome_exported_loadLine hkey]

/-! ## The environment of the command -/

/-- What the command sees of what the container has set. -/
def passedOn (v : Variables) (name : Str) : Option Str :=
  if name = secretsFile then
    (v.exported.get name).map fun value => if value = [] then defaultSecretsFile else value
  else v.exported.get name

/-- What the command sees with the decrypted text loaded: the container's own
    value comes first, and of the text the first line. The script leaves its two
    fields empty and takes its copy of the text away. -/
def delivered (v : Variables) (text name : Str) : Option Str :=
  if name = secretsName then none
  else if name = keyName ∨ name = valueName then (v.exported.get name).map fun _ => []
  else (passedOn v name).or
    (if name = secretsFile ∨ (v.others.get name).isSome then none
      else (valuesOf name (keyLines text)).head?.map lastField)

theorem withSecretsFile_exported (name : Str) :
    (withSecretsFile v).exported.get name = passedOn v name := by
  rw [withSecretsFile, passedOn, Variables.getOr_nil, Variables.get]
  by_cases hname : name = secretsFile
  · subst hname
    rw [if_pos rfl]
    cases hget : v.exported.get secretsFile with
    | none =>
      split
      · rw [Variables.exported_assign, hget]
        rfl
      · exact hget
    | some value =>
      rw [Option.some_or, Option.getD_some, Option.map_some]
      split
      · rw [Variables.exported_assign, hget]
        rfl
      · exact hget
  · rw [if_neg hname]
    split
    · rw [Variables.exported_assign, if_neg fun h => hname h.1]
    · rfl

theorem withSecretsFile_get :
    ((withSecretsFile v).get secretsFile).getD [] = v.getOr secretsFile defaultSecretsFile := by
  rw [withSecretsFile, Variables.getOr_nil, Variables.getOr]
  split
  · rw [Variables.get_assign, if_pos rfl, Option.getD_some]
  · rfl

theorem withSecretsFile_other {name : Str} (h : name ≠ secretsFile) :
    (withSecretsFile v).get name = v.get name := by
  rw [withSecretsFile]
  split
  · rw [Variables.get_assign, if_neg h]
  · rfl

theorem withSecretsFile_others {name : Str} (h : name ≠ secretsFile) :
    (withSecretsFile v).others.get name = v.others.get name := by
  rw [withSecretsFile]
  split
  · rw [Variables.others_assign _ h]
  · rfl

/-- The file of the secrets is a variable of the shell, if not of the container. -/
theorem withSecretsFile_isSome : ((withSecretsFile v).get secretsFile).isSome := by
  rw [withSecretsFile]
  split
  · rw [Variables.get_assign, if_pos rfl]
    rfl
  · rename_i hempty
    rw [Variables.getOr_nil] at hempty
    cases hget : v.get secretsFile with
    | none => simp [hget] at hempty
    | some value => rfl

/-- What the script exports of the text. -/
theorem exported_load (text name : Str) :
    ((load ((withSecretsFile v).assign secretsName (commandSubstitution text)) text).unset
      secretsName).exported.get name = delivered v text name := by
  have hfields : secretsName ≠ keyName ∧ secretsName ≠ valueName ∧ secretsFile ≠ keyName ∧
      secretsFile ≠ valueName ∧ secretsFile ≠ secretsName ∧ keyName ≠ valueName := by decide
  rw [Variables.unset, BTreeMap.get_remove, delivered]
  split
  · rfl
  rename_i hsecrets
  generalize hw : (withSecretsFile v).assign secretsName (commandSubstitution text) = w
  have hexported : w.exported.get name = passedOn v name := by
    rw [← hw, Variables.exported_assign, if_neg fun h => hsecrets h.1, withSecretsFile_exported]
  rw [load]
  by_cases hname : name = keyName ∨ name = valueName
  · -- the last `read` empties both
    rw [if_pos hname]
    have hpassed : passedOn v name = v.exported.get name := by
      refine if_neg ?_
      rintro rfl
      rcases hname with hname | hname
      · exact hfields.2.2.1 hname
      · exact hfields.2.2.2.1 hname
    have hset := isSome_foldl_loadLine hname (entrypointLines text) w
    rw [hexported, hpassed] at hset
    have hloop : ∀ u : Variables, (u.exported.get name).isSome = (v.exported.get name).isSome →
        ((u.assign keyName []).assign valueName []).exported.get name =
          (v.exported.get name).map fun _ => [] := by
      intro u hu
      rcases hname with rfl | rfl
      · rw [Variables.exported_assign, if_neg fun h => hfields.2.2.2.2.2 h.1, Variables.exported_assign]
        simp only [true_and, hu]
        cases hget : v.exported.get keyName with
        | none => simpa [hget] using hu
        | some value => rfl
      · rw [Variables.exported_assign]
        have hother : (u.assign keyName []).exported.get valueName = u.exported.get valueName := by
          rw [Variables.exported_assign, if_neg fun h => hfields.2.2.2.2.2 h.1.symm]
        rw [hother]
        simp only [true_and, hu]
        cases hget : v.exported.get valueName with
        | none => simpa [hget] using hu
        | some value => rfl
    exact hloop _ hset
  · rw [if_neg hname]
    obtain ⟨hkey, hvalue⟩ := not_or.mp hname
    rw [Variables.exported_assign, if_neg fun h => hvalue h.1, Variables.exported_assign,
      if_neg fun h => hkey h.1, (foldl_loadLine ⟨hkey, hvalue⟩ _ w).1, hexported, ← keyLines]
    have hothers : w.others.get name = (withSecretsFile v).others.get name := by
      rw [← hw, Variables.others_assign _ hsecrets]
    rw [hothers]
    by_cases hfile : name = secretsFile
    · subst hfile
      cases hpassed : passedOn v secretsFile with
      | some value => rw [Option.some_or, Option.some_or]
      | none =>
        have hsome := @withSecretsFile_isSome v
        rw [Variables.get, withSecretsFile_exported, hpassed, Option.none_or] at hsome
        rw [if_pos hsome, if_pos (Or.inl rfl)]
    · simp only [withSecretsFile_others hfile, hfile, false_or]

/-! ## When the command runs -/

/-- A key for `sops` has been given. -/
def HasKey (v : Variables) : Prop := v.getOr ageKey [] ≠ [] ∨ v.getOr ageKeyFile [] ≠ []

/-- There is nothing to decrypt, or no key for it and none is required. -/
def Unchanged (image : Image) (v : Variables) : Prop :=
  image.isFile (v.getOr secretsFile defaultSecretsFile) = false ∨
    ¬ HasKey v ∧ v.getOr requireKey ['0'] ≠ ['1']

/-- What `sops` makes of the file. -/
def decryptedText (image : Image) (v : Variables) : Option Str :=
  image.sops.bind fun sops =>
    sops (withSecretsFile v).exported (v.getOr secretsFile defaultSecretsFile)

/-- The command runs, and sees these variables. -/
def RunsWith (started : Started) (command : List Str) (view : Str → Option Str) : Prop :=
  ∃ messages environ, started = ⟨messages, .replaced command environ⟩ ∧
    ∀ name, environ.get name = view name

theorem exec_runsWith (hcommand : command ≠ []) (messages : List Str) (v : Variables)
    (next : Started) : RunsWith (exec command messages v next) command v.exported.get :=
  ⟨messages, v.exported, if_neg hcommand, fun _ => rfl⟩

theorem exec_passedOn (hcommand : command ≠ []) (messages : List Str) (next : Started) :
    RunsWith (exec command messages (withSecretsFile v) next) command (passedOn v) := by
  obtain ⟨messages', environ, hstarted, hview⟩ := exec_runsWith hcommand messages _ next
  exact ⟨messages', environ, hstarted, fun name =>
    (hview name).trans (withSecretsFile_exported name)⟩

theorem decryptAndRun_none (h : decryptedText image v = none) (messages : List Str) :
    (decryptAndRun image command messages (withSecretsFile v)).outcome = .exited 1 := by
  rw [decryptAndRun, withSecretsFile_get]
  rw [decryptedText] at h
  cases hsops : image.sops with
  | none => rfl
  | some sops =>
    rw [hsops, Option.bind_some] at h
    dsimp only
    rw [h]

theorem decryptAndRun_some {text : Str} (hcommand : command ≠ [])
    (h : decryptedText image v = some text) (messages : List Str) :
    RunsWith (decryptAndRun image command messages (withSecretsFile v)) command
      (delivered v text) := by
  obtain ⟨sops, hsops, htext⟩ := Option.bind_eq_some_iff.mp h
  rw [decryptAndRun, withSecretsFile_get, hsops]
  dsimp only
  rw [htext]
  dsimp only
  obtain ⟨messages', environ, hstarted, hview⟩ := exec_runsWith hcommand _ _ _
  exact ⟨messages', environ, hstarted, fun name => (hview name).trans (exported_load text name)⟩

theorem withSecretsFile_getOr {name : Str} (h : name ≠ secretsFile) (default : Str) :
    (withSecretsFile v).getOr name default = v.getOr name default := by
  rw [Variables.getOr, withSecretsFile_other h, ← Variables.getOr]

theorem not_hasKey_iff :
    (v.getOr ageKey [] = [] ∧ v.getOr ageKeyFile [] = []) ↔ ¬ HasKey v := by
  rw [HasKey, not_or, not_not, not_not]

theorem checkKey_of_hasKey (hkey : HasKey v) :
    checkKey image command (withSecretsFile v) =
      decryptAndRun image command [] (withSecretsFile v) := by
  have hnames : ageKey ≠ secretsFile ∧ ageKeyFile ≠ secretsFile := by decide
  rw [checkKey, withSecretsFile_getOr hnames.1, withSecretsFile_getOr hnames.2,
    if_neg fun h => not_hasKey_iff.mp h hkey]

/-- Without a key the script goes on as long as none is required. -/
theorem checkKey_of_not_hasKey (hcommand : command ≠ []) (hkey : ¬ HasKey v) :
    (v.getOr requireKey ['0'] ≠ ['1'] →
      RunsWith (checkKey image command (withSecretsFile v)) command (passedOn v)) ∧
    (v.getOr requireKey ['0'] = ['1'] →
      (checkKey image command (withSecretsFile v)).outcome = .exited 1) := by
  have hnames : ageKey ≠ secretsFile ∧ ageKeyFile ≠ secretsFile ∧ requireKey ≠ secretsFile := by
    decide
  rw [checkKey, withSecretsFile_getOr hnames.1, withSecretsFile_getOr hnames.2.1,
    withSecretsFile_getOr hnames.2.2, if_pos (not_hasKey_iff.mpr hkey)]
  refine ⟨fun hrequire => ?_, fun hrequire => ?_⟩
  · rw [if_neg hrequire]
    exact exec_passedOn hcommand _ _
  · rw [if_pos hrequire]

theorem sopsEntrypoint_of_hasKey (hunchanged : ¬ Unchanged image v) (hkey : HasKey v) :
    sopsEntrypoint image command v = decryptAndRun image command [] (withSecretsFile v) := by
  rw [Unchanged, not_or, Bool.not_eq_false] at hunchanged
  rw [sopsEntrypoint, withSecretsFile_get, if_pos hunchanged.1, checkKey_of_hasKey hkey]

/-- The command runs on what the container has set if there is nothing to decrypt
    and if no key was given and none is required, and with the decrypted text if a
    key was given and `sops` succeeds. In every other case it does not run. -/
theorem sopsEntrypoint_runs (hcommand : command ≠ []) (image : Image) (v : Variables) :
    (Unchanged image v → RunsWith (sopsEntrypoint image command v) command (passedOn v)) ∧
    (¬ Unchanged image v → HasKey v → ∀ text, decryptedText image v = some text →
      RunsWith (sopsEntrypoint image command v) command (delivered v text)) ∧
    (¬ Unchanged image v → (HasKey v → decryptedText image v = none) →
      (sopsEntrypoint image command v).outcome = .exited 1) := by
  refine ⟨fun hunchanged => ?_, fun hunchanged hkey text htext => ?_, fun hunchanged hnone => ?_⟩
  · rw [sopsEntrypoint, withSecretsFile_get]
    split
    · next hfile =>
      obtain hfile' | ⟨hkey, hrequire⟩ := hunchanged
      · rw [hfile] at hfile'
        cases hfile'
      · exact (checkKey_of_not_hasKey hcommand hkey).1 hrequire
    · exact exec_passedOn hcommand _ _
  · rw [sopsEntrypoint_of_hasKey hunchanged hkey]
    exact decryptAndRun_some hcommand htext []
  · by_cases hkey : HasKey v
    · rw [sopsEntrypoint_of_hasKey hunchanged hkey]
      exact decryptAndRun_none (hnone hkey) []
    · rw [Unchanged, not_or, Bool.not_eq_false, not_and, not_not] at hunchanged
      rw [sopsEntrypoint, withSecretsFile_get, if_pos hunchanged.1]
      exact (checkKey_of_not_hasKey hcommand hkey).2 (hunchanged.2 hkey)

/-! ## The same command outside the container -/

variable {getcode : List UInt8 → Option Nat} {special : List Str} {lines : List Str}

def sampleLines : List Str := ["# sample", "URL=postgres://h/db?a=b", "MODE=dev"]

/-- An image whose `sops` decrypts its only file. -/
def sampleImage : Image where
  isFile file := file = defaultSecretsFile
  sops := some fun _ _ => some (dotenvText sampleLines)

/-- With a key, and with a variable of the text set by the container. -/
def sampleVariables : Variables where
  exported := BTreeMap.ofList [(ageKey, "k"), ("MODE", "prod")]
  others := BTreeMap.ofList [("IFS", " ")]

theorem sampleVariables_decrypts :
    ¬ Unchanged sampleImage sampleVariables ∧ HasKey sampleVariables ∧
      decryptedText sampleImage sampleVariables = some (dotenvText sampleLines) := by
  have hkey : HasKey sampleVariables := .inl (by decide +kernel)
  refine ⟨?_, hkey, rfl⟩
  rintro (hfile | ⟨hnone, -⟩)
  · exact absurd hfile (by decide +kernel)
  · exact hnone hkey

theorem sopsEntrypoint_runs_sample :
    RunsWith (sopsEntrypoint sampleImage [['a']] sampleVariables) [['a']]
      (delivered sampleVariables (dotenvText sampleLines)) :=
  (sopsEntrypoint_runs (List.cons_ne_nil _ _) sampleImage sampleVariables).2.1
    sampleVariables_decrypts.1 sampleVariables_decrypts.2.1 _ sampleVariables_decrypts.2.2

end Env
