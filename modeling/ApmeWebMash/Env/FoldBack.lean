-- SUMMARY: A plaintext file that is folded back into its ciphertext, and when the values survive it.
import ApmeWebMash.Env.Vault

/-! # Folding a file back

`env-encrypt` folds env/dec/<name>.env into the ciphertext. The file is what
`env-decrypt` has written, or `env-docker-env-file`: the latter are the values
that the loader has read, without their quotes, under the name of the former. -/

namespace Env

open UnicodeEscape (codePoints)

variable {tools : Tools} {getcode : List UInt8 → Option Nat}

/-! ## A process alone -/

/-- A process that runs alone ends, whatever its calls depend on, and then the
    directories and its status are as stated. -/
inductive EndsIn (tools : Tools) (getcode : List UInt8 → Option Nat)
    (post : Vault → Nat → Prop) : Vault → Phase → Prop where
  | done {vault : Vault} {status : Nat} : post vault status →
    EndsIn tools getcode post vault (.done status)
  | step {vault : Vault} {phase : Phase} :
    (∀ call, EndsIn tools getcode post (advance tools getcode call vault phase).1
      (advance tools getcode call vault phase).2) →
    EndsIn tools getcode post vault phase

variable {post : Vault → Nat → Prop} {vault : Vault} {phase : Phase}

/-- Such an end is reached by a run of the host. -/
theorem EndsIn.exists_run (h : EndsIn tools getcode post vault phase) :
    ∃ events vault' status, post vault' status ∧
      Runs (HostStep tools getcode) ⟨vault, [phase]⟩ events ⟨vault', [.done status]⟩ := by
  induction h with
  | done hpost => exact ⟨[], _, _, hpost, .nil⟩
  | @step vault phase _ ih =>
    obtain ⟨events, vault', status, hpost, hruns⟩ := ih 0
    have hfirst : HostStep tools getcode ⟨vault, [phase]⟩ (.act 0 0)
        ⟨(advance tools getcode 0 vault phase).1, [(advance tools getcode 0 vault phase).2]⟩ :=
      .act rfl
    refine ⟨_, vault', status, hpost, Runs.invariant (I := fun events host =>
      Runs (HostStep tools getcode) ⟨vault, [phase]⟩ (.act 0 0 :: events) host) ?_ ?_ hruns⟩
    · exact .snoc .nil hfirst
    · intro events host event host' hruns hstep
      exact hruns.snoc hstep

/-- All that is left of the text is written. -/
theorem EndsIn.writing {job : Job} {tmp rest : Str} (mode : Nat) (text : Str)
    (htmp : vault.dec.get tmp = some ⟨mode, text⟩)
    (hrename : ∀ vault', vault'.enc = vault.enc → vault'.dec.get tmp = some ⟨mode, text ++ rest⟩ →
      (∀ other, other ≠ tmp → vault'.dec.get other = vault.dec.get other) →
      EndsIn tools getcode post vault' (.rename job tmp)) :
    EndsIn tools getcode post vault (.writing job tmp rest true) := by
  induction rest generalizing vault text with
  | nil =>
    refine .step fun call => ?_
    rw [List.append_nil] at hrename
    exact hrename vault rfl htmp fun _ _ => rfl
  | cons c rest ih =>
    refine .step fun call => ?_
    rw [advance, htmp]
    refine ih (text ++ [c]) ?_ fun vault' henc htmp' hother => ?_
    · rw [Dir.get_put, if_pos rfl, htmp]
      rfl
    · refine hrename vault' henc (by rw [htmp', List.append_assoc]; rfl) fun other hne => ?_
      rw [hother other hne, Dir.get_put, if_neg hne]

/-- An environment that can be decrypted is decrypted, and nothing else changes. -/
theorem EndsIn.decrypt {form : Form} {name out : Str} {names : List Str} {file : File}
    (hmktemp : ∀ call, (tools.mktemp call vault.dec (tempPrefix name)).isSome)
    (henc : vault.enc.get (encFile name) = some file)
    (hout : ∀ call, tools.output getcode form call file.text = ⟨out, true⟩)
    (hnext : ∀ vault', vault'.enc = vault.enc →
      vault'.dec.get (decFile name) = some ⟨0o600, out⟩ →
      (∀ other, other ≠ decFile name → vault'.dec.get other = vault.dec.get other) →
      EndsIn tools getcode post vault' (.decrypt form names)) :
    EndsIn tools getcode post vault (.decrypt form (name :: names)) := by
  refine .step fun call => ?_
  -- the ciphertext is there
  rw [advance, henc, if_pos Option.isSome_some]
  refine .step fun call => ?_
  -- the temporary file, which is not the plaintext
  obtain ⟨tmp, htmp⟩ := Option.isSome_iff_exists.mp (hmktemp call)
  obtain ⟨hfresh, suffix, hname, hlength, hdot⟩ := tools.mktemp_fresh _ _ _ _ htmp
  have hne : decFile name ≠ tmp := by
    rintro heq
    exact not_isTemp_decFile name ⟨name, suffix, heq.trans hname, hlength, hdot⟩
  rw [advance, htmp]
  refine .step fun call => ?_
  rw [advance]
  dsimp only
  rw [henc]
  dsimp only
  rw [hout]
  -- the redirection keeps its permissions
  refine EndsIn.writing 0o600 [] ?_ fun vault' henc' htmp' hother => ?_
  · rw [Dir.get_put, if_pos rfl, BTreeMap.get_insert, if_pos rfl]
    rfl
  · refine .step fun call => ?_
    -- it takes the place of the plaintext, and is gone itself
    rw [advance, htmp']
    refine hnext _ henc' (by rw [BTreeMap.get_insert, if_pos rfl]; rfl) fun other hnot => ?_
    rw [BTreeMap.get_insert, if_neg hnot, BTreeMap.get_remove]
    split
    · rename_i heq
      rw [heq, hfresh]
    · rename_i hnot'
      rw [hother other hnot', Dir.get_put, if_neg hnot', BTreeMap.get_insert, if_neg hnot']

/-! ## Programs that work -/

/-- What `sops` gives back, whenever it is asked. -/
def Tools.Holds (tools : Tools) (cipher text : Str) : Prop :=
  ∀ call, tools.decrypt call cipher = ⟨text, true⟩

theorem Tools.Holds.unique {cipher text text' : Str} (h : tools.Holds cipher text)
    (h' : tools.Holds cipher text') : text = text' :=
  congrArg Ran.stdout ((h 0).symm.trans (h' 0))

/-- A name that is not one of the metadata of sops, with a value of one line. -/
structure IsSetting (pair : Str × Str) : Prop where
  is_name : isName pair.1
  not_sops : Str.startsWith pair.1 "sops_" = false
  one_line : '\n' ∉ pair.2 ∧ '\r' ∉ pair.2

/-- Settings of different names, at least one, one line each. -/
def IsAssignments (text : Str) : Prop :=
  ∃ pairs : List (Str × Str), pairs ≠ [] ∧ (pairs.map Prod.fst).Nodup ∧
    (∀ pair ∈ pairs, IsSetting pair) ∧ text = printed (pairs.map envfileLine)

/-- `sops edit` leaves a ciphertext as it is if the editor leaves the text as it is,
    and otherwise the new one holds what the editor has left. -/
structure Tools.Edits (tools : Tools) : Prop where
  same : ∀ {cipher text editor}, tools.Holds cipher text → (∀ old, editor old = some text) →
    ∀ call, tools.edit call (some cipher) editor = .unchanged
  other : ∀ {cipher text editor new}, tools.Holds cipher text → (∀ old, editor old = some new) →
    new ≠ text → IsAssignments new →
    ∀ call, ∃ cipher', tools.edit call (some cipher) editor = .changed cipher' ∧
      tools.Holds cipher' new

/-- The environment can be decrypted, and holds this text. -/
def Vault.Holds (vault : Vault) (tools : Tools) (name text : Str) : Prop :=
  ∃ file, vault.enc.get (encFile name) = some file ∧ tools.Holds file.text text

/-- `mktemp` finds a new name beside what is in env/dec and the plaintexts of these
    environments. -/
def Vault.HasRoom (vault : Vault) (tools : Tools) (names : List Str) : Prop :=
  ∀ call dir, (∀ other, (∀ name ∈ names, other ≠ decFile name) →
    dir.get other = vault.dec.get other) →
    ∀ name ∈ names, (tools.mktemp call dir (tempPrefix name)).isSome

/-! ## Without a change -/

/-- `env-decrypt` of environments that can be decrypted. -/
theorem EndsIn.decryptAll {names : List Str} (hroom : vault.HasRoom tools names)
    (hholds : ∀ name ∈ names, ∃ text, vault.Holds tools name text)
    (hpost : ∀ vault', vault'.enc = vault.enc →
      (∀ name ∈ names, ∀ text, vault.Holds tools name text →
        vault'.dec.get (decFile name) = some ⟨0o600, text⟩) →
      (∀ other, (∀ name ∈ names, other ≠ decFile name) →
        vault'.dec.get other = vault.dec.get other) →
      post vault' 0) :
    EndsIn tools getcode post vault (.decrypt .plain names) := by
  induction names generalizing vault with
  | nil =>
    refine .step fun call => .done ?_
    exact hpost vault rfl (fun name hname => by cases hname) fun _ _ => rfl
  | cons name names ih =>
    obtain ⟨⟨text, file, hfile, htext⟩, hnames⟩ := List.forall_mem_cons.mp hholds
    have hmktemp : ∀ call, (tools.mktemp call vault.dec (tempPrefix name)).isSome := fun call =>
      hroom call _ (fun _ _ => rfl) name List.mem_cons_self
    refine EndsIn.decrypt hmktemp hfile htext fun vault' henc hwritten hother => ?_
    have hroom' : vault'.HasRoom tools names := by
      intro call dir hdir env henv
      refine hroom call dir (fun other hnot => ?_) env (List.mem_cons_of_mem _ henv)
      obtain ⟨hne, hnot⟩ := List.forall_mem_cons.mp hnot
      rw [hdir other hnot, hother other hne]
    refine ih hroom' (by simpa only [Vault.Holds, henc] using hnames) ?_
    intro vault'' henc' hwritten' hother'
    refine hpost vault'' (henc'.trans henc) ?_ fun other hnot => ?_
    · intro env henv text' htext'
      have htext'' : vault'.Holds tools env text' := by rwa [Vault.Holds, henc]
      by_cases hmem : env ∈ names
      · exact hwritten' env hmem text' htext''
      · -- the first one, which the others leave alone
        obtain rfl := (List.mem_cons.mp henv).resolve_right hmem
        rw [hother' (decFile env) fun name hname heq => hmem (by rwa [decFile_inj.mp heq]), hwritten]
        obtain ⟨file', hfile', hheld⟩ := htext'
        rw [hfile] at hfile'
        obtain rfl := Option.some.inj hfile'
        rw [htext.unique hheld]
    · obtain ⟨hne, hnot⟩ := List.forall_mem_cons.mp hnot
      rw [hother' other hnot, hother other hne]

/-- `env-encrypt` of plaintexts that have not changed. -/
theorem EndsIn.encryptSame (hedits : tools.Edits) {names : List Str}
    (hsame : ∀ name ∈ names, ∃ text, vault.Holds tools name text ∧
      vault.dec.get (decFile name) = some ⟨0o600, text⟩)
    (hpost : post vault 0) : EndsIn tools getcode post vault (.encrypt names) := by
  induction names with
  | nil => exact .step fun call => .done hpost
  | cons name names ih =>
    obtain ⟨⟨text, ⟨file, hfile, htext⟩, hplain⟩, hnames⟩ := List.forall_mem_cons.mp hsame
    refine .step fun call => ?_
    rw [advance, hplain, if_pos Option.isSome_some]
    refine .step fun call => ?_
    rw [advance, hfile, if_pos Option.isSome_some]
    refine .step fun call => ?_
    have hunchanged := @Tools.Edits.same _ hedits _ _ (fun _ => some text) htext (fun _ => rfl) call
    rw [advance, editFile, hplain, hfile, Option.map_some, Option.map_some, hunchanged]
    exact ih hnames

/-! ## With a change -/

/-- `env-encrypt` of a plaintext that has changed. -/
theorem EndsIn.encryptOther (hedits : tools.Edits) {name text new : Str}
    (hholds : vault.Holds tools name text)
    (hplain : vault.dec.get (decFile name) = some ⟨0o600, new⟩) (hne : new ≠ text)
    (hnew : IsAssignments new) (hpost : ∀ vault', vault'.Holds tools name new → post vault' 0) :
    EndsIn tools getcode post vault (.encrypt [name]) := by
  obtain ⟨file, hfile, htext⟩ := hholds
  refine .step fun call => ?_
  rw [advance, hplain, if_pos Option.isSome_some]
  refine .step fun call => ?_
  rw [advance, hfile, if_pos Option.isSome_some]
  refine .step fun call => ?_
  obtain ⟨cipher, hedited, hcipher⟩ :=
    @Tools.Edits.other _ hedits _ _ (fun _ => some new) _ htext (fun _ => rfl) hne hnew call
  rw [advance, editFile, hplain, hfile, Option.map_some, Option.map_some, hedited]
  dsimp only
  rw [if_pos (.inl rfl)]
  refine .step fun call => .done ?_
  rw [advance]
  apply hpost
  exact ⟨_, by rw [Dir.get_put, if_pos rfl], hcipher⟩

/-- A line that the loader has written is read as it was meant. -/
theorem assignment_envfileLine {pair : Str × Str} (h : IsSetting pair) :
    assignment (envfileLine pair) = some pair := by
  have hsplit : Str.splitOnce '=' (pair.1 ++ '=' :: pair.2) = some (pair.1, pair.2) :=
    Str.splitOnce_append (not_mem_of_isName h.is_name (by decide))
  rw [assignment, envfileLine, not_passed_of_isName h.is_name, stripExport_eq_self h.is_name, hsplit]
  dsimp only
  rw [h.is_name, h.not_sops]
  rfl

theorem not_mem_envfileLine {pair : Str × Str} (h : IsSetting pair) :
    '\n' ∉ envfileLine pair ∧ '\r' ∉ envfileLine pair := by
  simp [envfileLine, not_mem_of_isName h.is_name (c := '\n') (by decide),
    not_mem_of_isName h.is_name (c := '\r') (by decide), h.one_line]

theorem assignments_printed {pairs : List (Str × Str)} (h : ∀ pair ∈ pairs, IsSetting pair) :
    assignments (printed (pairs.map envfileLine)) = pairs := by
  have hlines : ∀ line ∈ pairs.map envfileLine, '\n' ∉ line ∧ '\r' ∉ line :=
    List.forall_mem_map.mpr fun pair hpair => not_mem_envfileLine (h pair hpair)
  have hprinted : printed (pairs.map envfileLine) = dotenvText (pairs.map envfileLine) := rfl
  have hreturn : ∀ c ∈ dotenvText (pairs.map envfileLine), c ≠ '\r' := by
    intro c hc
    obtain ⟨line, hline, hc⟩ := List.mem_flatMap.mp hc
    rcases List.mem_append.mp hc with hc | hc
    · exact fun heq => (hlines line hline).2 (heq ▸ hc)
    · rw [List.mem_singleton.mp hc]
      decide
  have hread : ∀ pair ∈ pairs, assignment (envfileLine pair) = some pair := fun pair hpair =>
    assignment_envfileLine (h pair hpair)
  have hblank : assignment [] = none := rfl
  rw [hprinted, assignments, streamLines, universalNewlines_eq_self hreturn,
    splitOn_dotenvText fun line hline => (hlines line hline).1, List.filterMap_append,
    List.filterMap_cons_none hblank, List.filterMap_nil, List.append_nil, List.filterMap_map]
  exact (List.filterMap_congr hread).trans List.filterMap_some

section

variable {text : Str} {pairs : List (Str × Str)}

/-- What the loader has read from a text are settings, if each has one line. -/
theorem isSetting_of_fits (hfits : FitsEnvFile getcode (some text) pairs) :
    ∀ pair ∈ pairs, IsSetting pair := by
  intro pair hpair
  have hone := hfits.one_line pair hpair
  rw [← given_of_parsed hfits.parsed] at hpair
  obtain ⟨hname, text', -, hmem⟩ := mem_given hpair
  obtain ⟨found, hfound, hkey⟩ := List.mem_map.mp hmem
  exact ⟨hname, hkey ▸ (name_of_mem_assignments hfound).2, hone⟩

/-- Read again, the values are the same exactly if none has quotes of its own. -/
theorem parse_printed_iff (hfits : FitsEnvFile getcode (some text) pairs)
    (hnames : UnicodeEscape.NamesAscii getcode) :
    parse getcode (printed (pairs.map envfileLine)) = parse getcode text ↔
      ∀ pair ∈ pairs, isQuoted '"' pair.2 = false ∧ isQuoted '\'' pair.2 = false := by
  have hparsed : parse getcode text = some (pairs.map inCode) := hfits.parsed
  have hself := @parse_eq_self_iff getcode (printed (pairs.map envfileLine))
  rw [assignments_printed (isSetting_of_fits hfits)] at hself
  rw [hparsed, hself]
  exact forall₂_congr fun _ _ => unquote_eq_self_iff hnames

end

/-! ## One recipe after the other -/

/-- The recipe succeeds, and leaves the directories as stated. -/
def Succeeds (tools : Tools) (getcode : List UInt8 → Option Nat) (recipe : Recipe)
    (after : Vault → Prop) (vault : Vault) : Prop :=
  EndsIn tools getcode (fun vault' status => status = 0 ∧ after vault') vault (recipe.begin vault)

theorem Recipe.begin_envDecrypt {names : List Str} (h : names ≠ []) :
    (Recipe.envDecrypt names).begin vault = .decrypt .plain names := by
  rw [Recipe.begin, if_neg h]

theorem Recipe.begin_envEncrypt {names : List Str} (h : names ≠ []) :
    (Recipe.envEncrypt names).begin vault = .encrypt names := by
  rw [Recipe.begin, if_neg h]

/-- What `env-decrypt` has written does not change the ciphertexts. -/
theorem succeeds_decrypt_encrypt (hedits : tools.Edits) {names : List Str} (hne : names ≠ [])
    (hroom : vault.HasRoom tools names)
    (hholds : ∀ name ∈ names, ∃ text, vault.Holds tools name text) :
    Succeeds tools getcode (.envDecrypt names)
      (Succeeds tools getcode (.envEncrypt names) fun vault' => vault'.enc = vault.enc) vault := by
  unfold Succeeds
  rw [Recipe.begin_envDecrypt hne]
  refine EndsIn.decryptAll hroom hholds fun vault' henc hwritten _ => ⟨rfl, ?_⟩
  rw [Recipe.begin_envEncrypt hne]
  refine EndsIn.encryptSame hedits (fun name hname => ?_) ⟨rfl, henc⟩
  obtain ⟨text, htext⟩ := hholds name hname
  exact ⟨text, by rwa [Vault.Holds, henc], hwritten name hname text htext⟩

/-- What `env-docker-env-file` has written becomes the text of the environment. -/
theorem succeeds_envFile_encrypt (hedits : tools.Edits) {name text : Str}
    {pairs : List (Str × Str)} (hroom : vault.HasRoom tools [name])
    (hholds : vault.Holds tools name text) (hfits : FitsEnvFile getcode (some text) pairs)
    (hne : pairs ≠ []) (hnodup : (pairs.map Prod.fst).Nodup) :
    Succeeds tools getcode (.envDockerEnvFile name)
      (Succeeds tools getcode (.envEncrypt [name])
        fun vault' => vault'.Holds tools name (printed (pairs.map envfileLine))) vault := by
  unfold Succeeds
  obtain ⟨file, hfile, htext⟩ := hholds
  have hout : ∀ call, tools.output getcode .envfile call file.text =
      ⟨printed (pairs.map envfileLine), true⟩ := by
    intro call
    simp only [Tools.output, htext call, main_envfile hfits, decide_true, Bool.and_self]
  have hmktemp : ∀ call, (tools.mktemp call vault.dec (tempPrefix name)).isSome := fun call =>
    hroom call _ (fun _ _ => rfl) name List.mem_cons_self
  refine EndsIn.decrypt hmktemp hfile hout
    fun vault' henc hwritten _ => .step fun _ => .done ⟨rfl, ?_⟩
  rw [Recipe.begin_envEncrypt (List.cons_ne_nil _ _), advance]
  have hholds' : vault'.Holds tools name text := ⟨file, by rw [henc, hfile], htext⟩
  -- the values of the text may have been written without quotes all along
  by_cases hsame : printed (pairs.map envfileLine) = text
  · refine EndsIn.encryptSame hedits (fun env henv => ?_) ⟨rfl, by rwa [hsame]⟩
    rw [List.mem_singleton.mp henv]
    exact ⟨text, hholds', by rw [hwritten, hsame]⟩
  · refine EndsIn.encryptOther hedits hholds' hwritten hsame ?_ fun _ hnew => ⟨rfl, hnew⟩
    exact ⟨pairs, hne, hnodup, isSetting_of_fits hfits, rfl⟩

/-- Folding back what `env-decrypt` has written changes nothing. What
    `env-docker-env-file` has written under the same name is accepted as well, and
    the loader then reads what it did before exactly if no value has quotes of its
    own: each time, one layer of quotes and escapes is lost. -/
theorem folded_back (hedits : tools.Edits) (hnames : UnicodeEscape.NamesAscii getcode)
    (vault : Vault) :
    (∀ names, names ≠ [] → vault.HasRoom tools names →
      (∀ name ∈ names, ∃ text, vault.Holds tools name text) →
      Succeeds tools getcode (.envDecrypt names)
        (Succeeds tools getcode (.envEncrypt names) fun vault' => vault'.enc = vault.enc) vault) ∧
    ∀ name text pairs, vault.HasRoom tools [name] → vault.Holds tools name text →
      FitsEnvFile getcode (some text) pairs → pairs ≠ [] → (pairs.map Prod.fst).Nodup →
      Succeeds tools getcode (.envDockerEnvFile name)
        (Succeeds tools getcode (.envEncrypt [name])
          fun vault' => vault'.Holds tools name (printed (pairs.map envfileLine))) vault ∧
      (parse getcode (printed (pairs.map envfileLine)) = parse getcode text ↔
        ∀ pair ∈ pairs, isQuoted '"' pair.2 = false ∧ isQuoted '\'' pair.2 = false) := by
  refine ⟨fun names hne hroom hholds => succeeds_decrypt_encrypt hedits hne hroom hholds, ?_⟩
  intro name text pairs hroom hholds hfits hne hnodup
  exact ⟨succeeds_envFile_encrypt hedits hroom hholds hfits hne hnodup,
    parse_printed_iff hfits hnames⟩

/-- Programs for which a ciphertext is its own text. -/
def plainTools : Tools where
  newMode := 0o644
  decrypt _ cipher := ⟨cipher, true⟩
  encrypt _ text := ⟨text, true⟩
  edit _ cipher editor :=
    match cipher.bind fun text => (editor text).map fun new => (text, new) with
    | none => .failed 1
    | some (text, new) => if new = text then .unchanged else .changed new
  updatekeys _ cipher := some cipher
  mktemp := sampleTools.mktemp
  mktemp_fresh := sampleTools.mktemp_fresh

theorem plainTools_holds {cipher text : Str} : plainTools.Holds cipher text ↔ cipher = text :=
  ⟨fun h => congrArg Ran.stdout (h 0), fun h _ => by rw [h]; rfl⟩

theorem plainTools_edits : plainTools.Edits where
  same {cipher text editor} hholds heditor call := by
    obtain rfl := plainTools_holds.mp hholds
    simp [plainTools, heditor]
  other {cipher text editor new} hholds heditor hne _ call := by
    obtain rfl := plainTools_holds.mp hholds
    refine ⟨new, ?_, plainTools_holds.mpr rfl⟩
    simp [plainTools, heditor, hne]

/-- A value in quotes within quotes. -/
def quotedVault : Vault :=
  ⟨BTreeMap.empty.insert "a.env.enc" ⟨0o644, "A='\"x\"'\n"⟩, BTreeMap.empty, fun _ => 0⟩

theorem quotedVault_hasRoom (names : List Str) : quotedVault.HasRoom plainTools names := by
  intro call dir hdir name _
  have hfree : dir.get (tempPrefix name ++ List.replicate 6 'X') = none := by
    refine hdir _ fun other _ heq => not_isTemp_decFile other ?_
    exact ⟨name, List.replicate 6 'X', heq.symm, rfl, by decide⟩
  simp only [plainTools, sampleTools, if_pos hfree, Option.isSome_some]

theorem fitsEnvFile_quoted :
    FitsEnvFile bullet (some "A='\"x\"'\n") [("A", "\"x\"")] :=
  ⟨by decide +kernel, by decide +kernel⟩

/-- `env-docker-env-file a`, and then `env-encrypt a`: the inner quotes are read
    as quotes from then on. -/
theorem folded_back_quoted :
    (∃ events vault' status, (status = 0 ∧
      Succeeds plainTools bullet (.envEncrypt [['a']])
        (fun vault'' => vault''.Holds plainTools ['a'] "A=\"x\"\n") vault') ∧
      Runs (HostStep plainTools bullet) ⟨quotedVault, [.decrypt .envfile [['a']]]⟩ events
        ⟨vault', [.done status]⟩) ∧
    parse bullet "A=\"x\"\n" ≠ parse bullet "A='\"x\"'\n" := by
  have hholds : quotedVault.Holds plainTools ['a'] "A='\"x\"'\n" :=
    ⟨⟨0o644, "A='\"x\"'\n"⟩, by decide +kernel, plainTools_holds.mpr rfl⟩
  obtain ⟨hsucceeds, hparse⟩ := (folded_back plainTools_edits namesAscii_bullet quotedVault).2 ['a']
    _ _ (quotedVault_hasRoom _) hholds fitsEnvFile_quoted (List.cons_ne_nil _ _) (by decide)
  refine ⟨EndsIn.exists_run hsucceeds, fun heq => ?_⟩
  exact absurd (hparse.mp heq _ (List.mem_singleton_self _)).1 (by decide)

end Env
