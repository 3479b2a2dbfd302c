-- SUMMARY: What becomes of a ciphertext in every run of the recipes.
import ApmeWebMash.Env.Vault

/-! # Ciphertexts

The first ciphertext of an environment is written in place, and can be left
broken. From then on only `sops` writes to it. -/

namespace Env

variable {tools : Tools} {getcode : List UInt8 → Option Nat} {call : Nat} {vault : Vault}
  {phase : Phase} {name tmp : Str} {file : File}
  {host host' : Host} {events : List Event} {event : Event}

/-- What is asked of `sops` about ciphertexts that it can read: it does not edit or
    rekey others, and leaves none that it cannot read. -/
structure Tools.KeepsReadable (tools : Tools) (readable : Str → Prop) : Prop where
  edit : ∀ call cipher editor cipher', tools.edit call (some cipher) editor = .changed cipher' →
    readable cipher ∧ readable cipher'
  updatekeys : ∀ call cipher cipher', tools.updatekeys call cipher = some cipher' →
    readable cipher ∧ readable cipher'

/-- The process is about to write a new ciphertext for the environment. -/
def Phase.Creates (name : Str) : Phase → Prop
  | .create env _ _ => env = name
  | .creating env _ _ _ => env = name
  | _ => False

/-- The environment has a ciphertext, and no process is writing its first one. -/
structure Settled (host : Host) (name : Str) (file : File) : Prop where
  enc : host.vault.enc.get (encFile name) = some file
  idle : ∀ (i : Nat) (phase : Phase), host.phases[i]? = some phase → ¬ phase.Creates name

/-- What can become of a ciphertext. -/
structure Outlives (readable : Str → Prop) (file file' : File) : Prop where
  mode : file'.mode = file.mode
  kept : readable file.text → readable file'.text
  stuck : ¬ readable file.text → file' = file

variable {readable : Str → Prop} {file' : File}

theorem Outlives.refl (file : File) : Outlives readable file file := ⟨rfl, id, fun _ => rfl⟩

theorem Outlives.trans {file'' : File} (h : Outlives readable file file')
    (h' : Outlives readable file' file'') : Outlives readable file file'' where
  mode := h'.mode.trans h.mode
  kept hreadable := h'.kept (h.kept hreadable)
  stuck hnot := by
    have hsame := h.stuck hnot
    rw [← hsame] at hnot
    rw [h'.stuck hnot, hsame]

/-- A ciphertext that is replaced by one that can be read. -/
theorem outlives_put {enc : Dir} {newMode : Nat} {env cipher : Str}
    (hfile : enc.get (encFile name) = some file)
    (hread : env = name → readable file.text ∧ readable cipher) :
    ∃ file', (enc.put newMode (encFile env) cipher).get (encFile name) = some file' ∧
      Outlives readable file file' := by
  rw [Dir.get_put]
  split
  · rename_i heq
    obtain rfl := encFile_inj.mp heq
    rw [hfile]
    obtain ⟨hold, hnew⟩ := hread rfl
    exact ⟨_, rfl, rfl, fun _ => hnew, fun hnot => absurd hold hnot⟩
  · exact ⟨file, hfile, .refl file⟩

theorem outlives_editFile (htools : tools.KeepsReadable readable) {enc : Dir} {env : Str}
    {editor : Str → Option Str} (hfile : enc.get (encFile name) = some file) :
    ∃ file', (editFile tools call enc env editor).1.get (encFile name) = some file' ∧
      Outlives readable file file' := by
  rw [editFile]
  split
  · rename_i cipher hedit
    refine outlives_put hfile fun heq => ?_
    rw [heq, hfile] at hedit
    exact htools.edit _ _ _ _ hedit
  · exact ⟨file, hfile, .refl file⟩
  · exact ⟨file, hfile, .refl file⟩

/-- A step of a process that does not write the first ciphertext of an environment
    keeps its ciphertext, and does not begin to write a first one. -/
theorem outlives_advance (htools : tools.KeepsReadable readable)
    (hfile : vault.enc.get (encFile name) = some file) (hidle : ¬ phase.Creates name) :
    (∃ file', (advance tools getcode call vault phase).1.enc.get (encFile name) = some file' ∧
      Outlives readable file file') ∧
    ¬ (advance tools getcode call vault phase).2.Creates name := by
  have hkept : ∃ file', vault.enc.get (encFile name) = some file' ∧ Outlives readable file file' :=
    ⟨file, hfile, .refl file⟩
  -- both recipes that write a first ciphertext look for an old one before
  have hthere : ∀ env, env = name → (vault.enc.get (encFile env)).isSome := by
    rintro env rfl
    rw [hfile]
    rfl
  cases phase with
  | decrypt form names => cases names with
    | nil => exact ⟨hkept, id⟩
    | cons env names => rw [advance]; split <;> exact ⟨hkept, id⟩
  | mktemp job => rw [advance]; split <;> exact ⟨hkept, id⟩
  | output job tmp => exact ⟨hkept, id⟩
  | writing job tmp rest ok => cases rest with
    | nil => cases ok <;> exact ⟨hkept, id⟩
    | cons c rest => exact ⟨hkept, id⟩
  | rename job tmp => rw [advance]; split <;> exact ⟨hkept, id⟩
  | encrypt names => cases names with
    | nil => exact ⟨hkept, id⟩
    | cons env names => rw [advance]; split <;> exact ⟨hkept, id⟩
  | target env names =>
    rw [advance]
    split
    · exact ⟨hkept, id⟩
    · rename_i hnone
      exact ⟨hkept, fun heq => hnone (hthere env heq)⟩
  | new env =>
    rw [advance]
    split
    · exact ⟨hkept, id⟩
    · rename_i hnone
      exact ⟨hkept, fun heq => hnone (hthere env heq)⟩
  | fold env names =>
    refine ⟨outlives_editFile htools hfile, ?_⟩
    rw [advance]
    dsimp only
    split <;> exact id
  | edit env editor => exact ⟨outlives_editFile htools hfile, id⟩
  | create env text names =>
    -- it writes to the file of another environment
    refine ⟨?_, hidle⟩
    rw [advance, Dir.get_put, if_neg fun heq => hidle (encFile_inj.mp heq).symm]
    exact hkept
  | creating env rest ok names =>
    cases rest with
    | nil => cases ok <;> exact ⟨hkept, id⟩
    | cons c rest =>
      refine ⟨?_, hidle⟩
      rw [advance, Dir.get_put, if_neg fun heq => hidle (encFile_inj.mp heq).symm]
      exact hkept
  | rekey names =>
    cases names with
    | nil => exact ⟨hkept, id⟩
    | cons env names =>
      rw [advance]
      split
      · exact ⟨hkept, id⟩
      · rename_i cipher hcipher
        refine ⟨outlives_put hfile fun heq => ?_, id⟩
        rw [heq, hfile, Option.bind_some] at hcipher
        exact htools.updatekeys _ _ _ hcipher
  | clean names => cases names <;> exact ⟨hkept, id⟩
  | truncate env size names => exact ⟨hkept, id⟩
  | fill env opened offset left names => cases left <;> exact ⟨hkept, id⟩
  | remove env names => exact ⟨hkept, id⟩
  | done status => exact ⟨hkept, id⟩

theorem Recipe.not_creates_begin (recipe : Recipe) (vault : Vault) :
    ¬ (recipe.begin vault).Creates name := by
  cases recipe <;> exact id

/-- A step of the host. -/
theorem Settled.step (htools : tools.KeepsReadable readable) (h : Settled host name file)
    (hstep : HostStep tools getcode host event host') :
    ∃ file', Settled host' name file' ∧ Outlives readable file file' := by
  cases hstep with
  | @start recipe =>
    refine ⟨file, ⟨h.enc, fun i phase hphase => ?_⟩, .refl file⟩
    rw [List.getElem?_append] at hphase
    split at hphase
    · exact h.idle i phase hphase
    · rw [List.mem_singleton.mp (List.mem_of_getElem? hphase)]
      exact recipe.not_creates_begin host.vault
  | @act i call phase hphase =>
    obtain ⟨⟨file', hfile', houtlives⟩, hnext⟩ :=
      @outlives_advance tools getcode call _ _ _ _ _ htools h.enc (h.idle i phase hphase)
    refine ⟨file', ⟨hfile', fun j phase' hphase' => ?_⟩, houtlives⟩
    rw [List.getElem?_set] at hphase'
    split at hphase'
    · split at hphase'
      · rw [← Option.some.inj hphase']
        exact hnext
      · cases hphase'
    · exact h.idle j phase' hphase'
  | kill _ =>
    refine ⟨file, ⟨h.enc, fun j phase' hphase' => ?_⟩, .refl file⟩
    rw [List.getElem?_set] at hphase'
    split at hphase'
    · rw [← Option.some.inj hphase']
      exact id
    · exact h.idle j phase' hphase'
  | put _ => exact ⟨file, ⟨h.enc, h.idle⟩, .refl file⟩

/-- Once an environment has its ciphertext, no run of the recipes loses it, unless
    `sops` itself is interrupted: one that `sops` can read stays so, with its
    permissions. One that it cannot read, such as the file that a first encryption
    leaves when it fails, stays as it is: no recipe repairs it. -/
theorem environment_kept (htools : tools.KeepsReadable readable) (hsettled : Settled host name file)
    (h : Runs (HostStep tools getcode) host events host') :
    ∃ file', Settled host' name file' ∧ Outlives readable file file' := by
  induction h with
  | nil => exact ⟨file, hsettled, .refl file⟩
  | snoc _ hlast ih =>
    obtain ⟨file', hsettled', houtlives⟩ := ih
    obtain ⟨file'', hsettled'', houtlives'⟩ := hsettled'.step htools hlast
    exact ⟨file'', hsettled'', houtlives.trans houtlives'⟩

/-- A host on which the first encryption of an environment has failed. -/
def sampleHost : Host :=
  ⟨⟨BTreeMap.empty.insert (encFile ['a']) ⟨0o644, []⟩, BTreeMap.empty, fun _ => 0⟩, [.done 1]⟩

/-- `env-new` does not replace what is left. -/
theorem environment_kept_broken :
    ∃ file', Settled { sampleHost with phases := [.done 1, .new ['a']] } ['a'] file' ∧
      Outlives (· ≠ []) ⟨0o644, []⟩ file' := by
  have hsettled : Settled sampleHost ['a'] ⟨0o644, []⟩ := by
    refine ⟨by decide +kernel, fun i phase hphase => ?_⟩
    rw [List.mem_singleton.mp (List.mem_of_getElem? hphase)]
    exact id
  have htools : sampleTools.KeepsReadable (· ≠ []) :=
    ⟨fun _ _ _ _ h => by (cases h), fun _ _ _ h => by (cases h)⟩
  exact @environment_kept sampleTools bullet _ _ _ _ _ _ htools hsettled
    (.snoc .nil (@HostStep.start sampleTools bullet sampleHost (.envNew ['a'])))

end Env
