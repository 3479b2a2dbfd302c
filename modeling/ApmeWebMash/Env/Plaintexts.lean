-- SUMMARY: What is in env/dec at every moment of a run of the recipes: whole plaintexts, and nothing that others can read.
import ApmeWebMash.Env.Vault

/-! # Plaintexts

Processes run side by side in env/dec, and each can be killed. A process has a
temporary file of its own, which no other touches, and moves it over the old
plaintext when all of it is written. So a plaintext under the name of an
environment is always a whole one. What `env-clean` overwrites is a file that it
has emptied itself, or none that is still under its name. -/

namespace Env

variable {tools : Tools} {getcode : List UInt8 → Option Nat} {call : Nat} {vault : Vault}
  {phase : Phase} {name tmp : Str} {file : File}

/-! ## Temporary files -/

/-- The temporary file of a process. -/
def Phase.temp : Phase → Option Str
  | .output _ tmp => some tmp
  | .writing _ tmp _ _ => some tmp
  | .rename _ tmp => some tmp
  | _ => none

/-- Nothing but NUL characters. -/
def Wiped (text : Str) : Prop := ∀ c ∈ text, c = '\x00'

/-- The file that a process overwrites has nothing else in it any more, as long as it
    is under its name. -/
def Phase.Open (vault : Vault) : Phase → Prop
  | .fill name opened _ _ _ => opened ≤ vault.moves (decFile name) ∧
    (vault.moves (decFile name) = opened →
      ∀ file, vault.dec.get (decFile name) = some file → Wiped file.text)
  | _ => True

/-- The next step does not write to env/dec. -/
def Phase.KeepsDec : Phase → Prop
  | .mktemp _ => False
  | .output _ _ => False
  | .writing _ _ _ _ => False
  | .rename _ _ => False
  | .truncate _ _ _ => False
  | .fill _ _ _ _ _ => False
  | .remove _ _ => False
  | _ => True

theorem advance_keepsDec (h : phase.KeepsDec) :
    (advance tools getcode call vault phase).1.dec = vault.dec ∧
      (advance tools getcode call vault phase).1.moves = vault.moves ∧
      (advance tools getcode call vault phase).2.temp = none ∧
      ∀ vault', (advance tools getcode call vault phase).2.Open vault' := by
  cases phase with
  | decrypt form names => cases names with
    | nil => exact ⟨rfl, rfl, rfl, fun _ => trivial⟩
    | cons name names => rw [advance]; split <;> exact ⟨rfl, rfl, rfl, fun _ => trivial⟩
  | encrypt names => cases names with
    | nil => exact ⟨rfl, rfl, rfl, fun _ => trivial⟩
    | cons name names => rw [advance]; split <;> exact ⟨rfl, rfl, rfl, fun _ => trivial⟩
  | rekey names => cases names with
    | nil => exact ⟨rfl, rfl, rfl, fun _ => trivial⟩
    | cons name names => rw [advance]; split <;> exact ⟨rfl, rfl, rfl, fun _ => trivial⟩
  | creating name rest ok names => cases rest with
    | nil => cases ok <;> exact ⟨rfl, rfl, rfl, fun _ => trivial⟩
    | cons c rest => exact ⟨rfl, rfl, rfl, fun _ => trivial⟩
  | clean names => cases names <;> exact ⟨rfl, rfl, rfl, fun _ => trivial⟩
  | target name names => rw [advance]; split <;> exact ⟨rfl, rfl, rfl, fun _ => trivial⟩
  | new name => rw [advance]; split <;> exact ⟨rfl, rfl, rfl, fun _ => trivial⟩
  | fold name names => rw [advance]; dsimp only; split <;> exact ⟨rfl, rfl, rfl, fun _ => trivial⟩
  | create name text names => exact ⟨rfl, rfl, rfl, fun _ => trivial⟩
  | edit name editor => exact ⟨rfl, rfl, rfl, fun _ => trivial⟩
  | done status => exact ⟨rfl, rfl, rfl, fun _ => trivial⟩
  | _ => exact h.elim

/-- A step leaves the temporary files of others alone. -/
theorem advance_dec_temp {other : Str} (htemp : IsTemp other) (hmade : (vault.dec.get other).isSome)
    (hother : phase.temp ≠ some other) :
    (advance tools getcode call vault phase).1.dec.get other = vault.dec.get other := by
  have hplain : ∀ name, other ≠ decFile name := by
    rintro name rfl
    exact not_isTemp_decFile name htemp
  have hne : ∀ tmp, phase.temp = some tmp → other ≠ tmp := by
    rintro tmp hown rfl
    exact hother hown
  cases phase with
  | mktemp job =>
    rw [advance]
    split
    · rfl
    · rename_i tmp hmktemp
      -- `mktemp` makes a file that is not there
      have hfresh : other ≠ tmp := by
        rintro rfl
        rw [(tools.mktemp_fresh _ _ _ _ hmktemp).1] at hmade
        cases hmade
      rw [BTreeMap.get_insert, if_neg hfresh]
  | output job tmp => rw [advance, Dir.get_put, if_neg (hne tmp rfl)]
  | writing job tmp rest ok =>
    cases rest with
    | nil => rfl
    | cons c rest => rw [advance, Dir.get_put, if_neg (hne tmp rfl)]
  | rename job tmp =>
    rw [advance]
    split
    · rfl
    · rw [BTreeMap.get_insert, if_neg (hplain _), BTreeMap.get_remove, if_neg (hne tmp rfl)]
  | truncate name size names => rw [advance, Dir.get_put, if_neg (hplain _)]
  | fill name opened offset left names =>
    cases left with
    | zero => rfl
    | succ left =>
      rw [advance]
      dsimp only
      split
      · rw [Dir.get_put, if_neg (hplain _)]
      · rfl
  | remove name names => rw [advance, BTreeMap.get_remove, if_neg (hplain _)]
  | _ => rw [(advance_keepsDec (by trivial)).1]

/-- A temporary file is a new one, or the one that the process has had before. -/
theorem temp_advance (h : (advance tools getcode call vault phase).2.temp = some tmp) :
    phase.temp = some tmp ∨ vault.dec.get tmp = none := by
  cases phase with
  | mktemp job =>
    rw [advance] at h
    split at h
    · cases h
    · rename_i tmp' hmktemp
      obtain rfl := Option.some.inj h
      exact .inr (tools.mktemp_fresh _ _ _ _ hmktemp).1
  | output job tmp' => exact .inl h
  | writing job tmp' rest ok =>
    cases rest with
    | nil =>
      cases ok with
      | true => exact .inl h
      | false => cases h
    | cons c rest => exact .inl h
  | rename job tmp' =>
    rw [advance] at h
    split at h <;> cases h
  | truncate name size names => cases h
  | fill name opened offset left names => cases left <;> cases h
  | remove name names => cases h
  | _ =>
    rw [(advance_keepsDec (by trivial)).2.2.1] at h
    cases h

/-! ## What is in env/dec -/

/-- A file that only its owner can read. -/
def Private (dec : Dir) (name : Str) (holds : Str → Prop) : Prop :=
  IsTemp name ∧ ∃ file, dec.get name = some file ∧ file.mode = 0o600 ∧ holds file.text

/-- What a process relies on about its temporary file. `whole name text` says that
    the text has been made of the ciphertext of that environment. -/
def Phase.Holds (whole : Str → Str → Prop) (dec : Dir) : Phase → Prop
  | .output _ tmp => Private dec tmp fun _ => True
  | .writing job tmp rest ok => Private dec tmp fun text => ok → whole job.name (text ++ rest)
  | .rename job tmp => Private dec tmp (whole job.name)
  | _ => True

/-- What a process can leave in env/dec: a temporary file, a whole plaintext, or
    what is left of one that is being removed. -/
inductive Left (whole : Str → Str → Prop) (name : Str) (file : File) : Prop where
  | temp : IsTemp name → file.mode = 0o600 → Left whole name file
  | whole {env : Str} : name = decFile env → file.mode = 0o600 → whole env file.text →
    Left whole name file
  | wiped : Wiped file.text → Left whole name file

variable {whole : Str → Str → Prop} {dec dec' : Dir}

theorem Phase.holds_of_temp (h : phase.temp = none) : phase.Holds whole dec := by
  cases phase with
  | output job tmp => cases h
  | writing job tmp rest ok => cases h
  | rename job tmp => cases h
  | _ => trivial

theorem Phase.Holds.made (h : phase.Holds whole dec) (htemp : phase.temp = some tmp) :
    IsTemp tmp ∧ (dec.get tmp).isSome := by
  cases phase with
  | output job tmp' =>
    obtain rfl := Option.some.inj htemp
    obtain ⟨hname, file, hfile, -⟩ := h
    exact ⟨hname, by rw [hfile]; rfl⟩
  | writing job tmp' rest ok =>
    obtain rfl := Option.some.inj htemp
    obtain ⟨hname, file, hfile, -⟩ := h
    exact ⟨hname, by rw [hfile]; rfl⟩
  | rename job tmp' =>
    obtain rfl := Option.some.inj htemp
    obtain ⟨hname, file, hfile, -⟩ := h
    exact ⟨hname, by rw [hfile]; rfl⟩
  | _ => cases htemp

/-- What a process relies on stays as long as its temporary file does. -/
theorem Phase.Holds.congr (h : phase.Holds whole dec)
    (hget : ∀ tmp, phase.temp = some tmp → dec'.get tmp = dec.get tmp) :
    phase.Holds whole dec' := by
  cases phase with
  | output job tmp =>
    obtain ⟨hname, hfile⟩ := h
    exact ⟨hname, by rw [hget tmp rfl]; exact hfile⟩
  | writing job tmp rest ok =>
    obtain ⟨hname, hfile⟩ := h
    exact ⟨hname, by rw [hget tmp rfl]; exact hfile⟩
  | rename job tmp =>
    obtain ⟨hname, hfile⟩ := h
    exact ⟨hname, by rw [hget tmp rfl]; exact hfile⟩
  | _ => trivial

theorem Phase.Holds.mono {whole' : Str → Str → Prop} (h : phase.Holds whole dec)
    (hwhole : ∀ name text, whole name text → whole' name text) : phase.Holds whole' dec := by
  cases phase with
  | output job tmp => exact h
  | writing job tmp rest ok =>
    obtain ⟨hname, file, hfile, hmode, hholds⟩ := h
    exact ⟨hname, file, hfile, hmode, fun hok => hwhole _ _ (hholds hok)⟩
  | rename job tmp =>
    obtain ⟨hname, file, hfile, hmode, hholds⟩ := h
    exact ⟨hname, file, hfile, hmode, hwhole _ _ hholds⟩
  | _ => trivial

theorem Left.mono {whole' : Str → Str → Prop} (h : Left whole name file)
    (hwhole : ∀ name text, whole name text → whole' name text) : Left whole' name file := by
  cases h with
  | temp hname hmode => exact .temp hname hmode
  | whole hname hmode hholds => exact .whole hname hmode (hwhole _ _ hholds)
  | wiped hzero => exact .wiped hzero

/-- A file that is written to keeps its permissions. -/
theorem Private.put {holds : Str → Prop} {newMode : Nat} {text : Str} (h : Private dec tmp holds)
    (holds' : Str → Prop) (htext : holds' text) : Private (dec.put newMode tmp text) tmp holds' := by
  obtain ⟨hname, file, hfile, hmode, -⟩ := h
  refine ⟨hname, ⟨file.mode, text⟩, ?_, hmode, htext⟩
  rw [Dir.get_put, if_pos rfl, hfile]
  rfl

/-- What such a write leaves is private, or was there before. -/
theorem Private.get_put {holds : Str → Prop} {newMode : Nat} {text : Str} (h : Private dec tmp holds)
    (hfile : (dec.put newMode tmp text).get name = some file) :
    dec.get name = some file ∨ IsTemp name ∧ file.mode = 0o600 := by
  rw [Dir.get_put] at hfile
  split at hfile
  · rename_i heq
    obtain ⟨hname, file', hfile', hmode, -⟩ := h
    rw [hfile'] at hfile
    obtain rfl := Option.some.inj hfile
    exact .inr ⟨heq ▸ hname, hmode⟩
  · exact .inl hfile

/-- A process that goes on relies on what it has just done. -/
theorem advance_holds
    (hread : ∀ name file form text, vault.enc.get (encFile name) = some file →
      tools.output getcode form call file.text = ⟨text, true⟩ → whole name text)
    (h : phase.Holds whole vault.dec) :
    (advance tools getcode call vault phase).2.Holds whole
      (advance tools getcode call vault phase).1.dec := by
  cases phase with
  | mktemp job =>
    rw [advance]
    split
    · trivial
    · rename_i tmp hmktemp
      obtain ⟨-, suffix, hname, hlength, hdot⟩ := tools.mktemp_fresh _ _ _ _ hmktemp
      refine ⟨⟨job.name, suffix, hname, hlength, hdot⟩, ⟨0o600, []⟩, ?_, rfl, trivial⟩
      rw [BTreeMap.get_insert, if_pos rfl]
  | output job tmp =>
    have hprivate : Private vault.dec tmp fun _ => True := h
    rw [advance]
    refine hprivate.put (fun text => _ → whole job.name (text ++ _)) fun hok => ?_
    -- the text of this moment is what will be whole in the end
    cases hfile : vault.enc.get (encFile job.name) with
    | none =>
      rw [hfile] at hok
      cases hok
    | some file =>
      rw [hfile] at hok
      refine hread _ file job.form _ hfile ?_
      rw [List.nil_append, ← hok]
  | writing job tmp rest ok =>
    cases rest with
    | nil =>
      obtain ⟨hname, file, hfile, hmode, hholds⟩ := h
      cases ok with
      | true =>
        rw [List.append_nil] at hholds
        exact ⟨hname, file, hfile, hmode, hholds rfl⟩
      | false => trivial
    | cons c rest =>
      have hprivate : Private vault.dec tmp fun text => ok → whole job.name (text ++ c :: rest) := h
      refine hprivate.put (fun text => ok → whole job.name (text ++ rest)) fun hok => ?_
      obtain ⟨-, file, hfile, -, hholds⟩ := h
      rw [hfile, List.append_assoc]
      exact hholds hok
  | rename job tmp =>
    rw [advance]
    split
    · trivial
    · trivial
  | truncate name size names => trivial
  | fill name opened offset left names => cases left <;> trivial
  | remove name names => trivial
  | _ => exact Phase.holds_of_temp (advance_keepsDec (by trivial)).2.2.1

theorem Wiped.fill {text : Str} (h : Wiped text) (n : Nat) :
    Wiped (List.replicate n '\x00' ++ text.drop n) := by
  intro c hc
  rcases List.mem_append.mp hc with hc | hc
  · exact List.eq_of_mem_replicate hc
  · exact h c (List.mem_of_mem_drop hc)

/-- A step leaves files in env/dec as they are, or in one of the three ways; a whole
    plaintext is a file of its own. -/
theorem left_advance (h : phase.Holds whole vault.dec) (hopen : phase.Open vault)
    (hfile : (advance tools getcode call vault phase).1.dec.get name = some file) :
    vault.dec.get name = some file ∨
      Left (fun env text => whole env text ∧
        (advance tools getcode call vault phase).1.moves (decFile env) ≠
          vault.moves (decFile env)) name file := by
  cases phase with
  | mktemp job =>
    rw [advance] at hfile
    split at hfile
    · exact .inl hfile
    · rename_i tmp hmktemp
      obtain ⟨-, suffix, hname, hlength, hdot⟩ := tools.mktemp_fresh _ _ _ _ hmktemp
      rw [BTreeMap.get_insert] at hfile
      split at hfile
      · rename_i heq
        obtain rfl := Option.some.inj hfile
        exact .inr (.temp ⟨job.name, suffix, heq.trans hname, hlength, hdot⟩ rfl)
      · exact .inl hfile
  | output job tmp =>
    have hprivate : Private vault.dec tmp fun _ => True := h
    exact (hprivate.get_put hfile).imp_right fun htemp => .temp htemp.1 htemp.2
  | writing job tmp rest ok =>
    cases rest with
    | nil => exact .inl hfile
    | cons c rest =>
      have hprivate : Private vault.dec tmp fun text => ok → whole job.name (text ++ c :: rest) := h
      exact (hprivate.get_put hfile).imp_right fun htemp => .temp htemp.1 htemp.2
  | rename job tmp =>
    -- the only step that brings a plaintext under its name
    obtain ⟨-, file', hfile', hmode, hholds⟩ := h
    have hmoves : (advance tools getcode call vault (.rename job tmp)).1.moves =
        vault.moved (decFile job.name) := by
      rw [advance, hfile']
    rw [hmoves]
    rw [advance, hfile'] at hfile
    dsimp only at hfile
    rw [BTreeMap.get_insert] at hfile
    split at hfile
    · rename_i heq
      obtain rfl := Option.some.inj hfile
      refine .inr (.whole heq hmode ⟨hholds, ?_⟩)
      rw [Vault.moved, Function.update_self]
      exact Nat.succ_ne_self _
    · rw [BTreeMap.get_remove] at hfile
      split at hfile
      · cases hfile
      · exact .inl hfile
  | truncate env size names =>
    rw [advance, Dir.get_put] at hfile
    split at hfile
    · obtain rfl := Option.some.inj hfile
      exact .inr (.wiped fun c hc => by cases hc)
    · exact .inl hfile
  | fill env opened offset left names =>
    cases left with
    | zero => exact .inl hfile
    | succ left =>
      rw [advance] at hfile
      dsimp only at hfile
      split at hfile
      · rename_i hsame
        rw [Dir.get_put] at hfile
        split at hfile
        · obtain rfl := Option.some.inj hfile
          refine .inr (.wiped (Wiped.fill ?_ _))
          -- only zeros were there, as the file has not been replaced since it was emptied
          cases hwritten : vault.dec.get (decFile env) with
          | none => exact fun c hc => by cases hc
          | some file' => exact hopen.2 hsame file' hwritten
        · exact .inl hfile
      · exact .inl hfile
  | remove env names =>
    rw [advance, BTreeMap.get_remove] at hfile
    split at hfile
    · cases hfile
    · exact .inl hfile
  | _ => exact .inl (by rwa [(advance_keepsDec (by trivial)).1] at hfile)

/-- The moves only grow. -/
theorem moves_le_advance (name : Str) :
    vault.moves name ≤ (advance tools getcode call vault phase).1.moves name := by
  have hmoved : ∀ env, vault.moves name ≤ vault.moved env name := by
    intro env
    unfold Vault.moved
    by_cases heq : name = env
    · rw [heq, Function.update_self]
      exact Nat.le_succ _
    · rw [Function.update_of_ne heq]
  cases phase with
  | mktemp job => rw [advance]; split <;> exact le_refl _
  | output job tmp => exact le_refl _
  | writing job tmp rest ok => cases rest <;> exact le_refl _
  | rename job tmp =>
    rw [advance]
    split
    · exact le_refl _
    · exact hmoved _
  | truncate env size names => exact le_refl _
  | fill env opened offset left names => cases left <;> exact le_refl _
  | remove env names => exact hmoved _
  | _ => rw [(advance_keepsDec (by trivial)).2.1]

/-- A step of a process leaves the files that others overwrite as they need them. -/
theorem open_advance (h : phase.Holds whole vault.dec) (hopen : phase.Open vault) {other : Phase}
    (hother : other.Open vault) : other.Open (advance tools getcode call vault phase).1 := by
  cases other with
  | fill env opened offset left names =>
    obtain ⟨hle, hwiped⟩ := hother
    have hgrow := @moves_le_advance tools getcode call vault phase (decFile env)
    refine ⟨hle.trans hgrow, fun hsame file hfile => ?_⟩
    have hmoves := le_antisymm (hsame.trans_le hle) hgrow
    rcases left_advance h hopen hfile with hkept | hleft
    · exact hwiped (hmoves.symm.trans hsame) file hkept
    · cases hleft with
      | temp htemp => exact absurd htemp (not_isTemp_decFile env)
      | whole hname _ hwhole => exact absurd (hname ▸ hmoves) hwhole.2
      | wiped hzero => exact hzero
  | _ => trivial

/-- What a process has just emptied is empty. -/
theorem advance_open (h : phase.Holds whole vault.dec) (hopen : phase.Open vault) :
    (advance tools getcode call vault phase).2.Open
      (advance tools getcode call vault phase).1 := by
  cases phase with
  | mktemp job => rw [advance]; split <;> trivial
  | output job tmp => trivial
  | writing job tmp rest ok => cases rest with
    | nil => cases ok <;> trivial
    | cons c rest => trivial
  | rename job tmp => rw [advance]; split <;> trivial
  | truncate env size names =>
    refine ⟨le_refl _, fun _ file hfile => ?_⟩
    rw [advance, Dir.get_put, if_pos rfl] at hfile
    obtain rfl := Option.some.inj hfile
    exact fun c hc => by cases hc
  | fill env opened offset left names => cases left with
    | zero => trivial
    | succ left =>
      -- the phase is the same but for what is left
      exact @open_advance tools getcode call vault _ whole h hopen
        (.fill env opened offset (left + 1) names) hopen
  | remove env names => trivial
  | _ => exact (advance_keepsDec (by trivial)).2.2.2 _

/-! ## Whole plaintexts -/

section
variable (tools : Tools) (getcode : List UInt8 → Option Nat)

/-- At some moment of a run `sops` has made the text of the ciphertext that the
    environment had then. -/
def MadeOf (vault : Vault) (events : List Event) (name text : Str) : Prop :=
  ∃ before host file form call, before <+: events ∧
    Runs (HostStep tools getcode) ⟨vault, []⟩ before host ∧
    host.vault.enc.get (encFile name) = some file ∧
    tools.output getcode form call file.text = ⟨text, true⟩

/-- Where a file of env/dec is from. -/
inductive Accounted (vault : Vault) (events : List Event) (name : Str) (file : File) : Prop where
  | kept : vault.dec.get name = some file → Accounted vault events name file
  | byHand : .put name file ∈ events → Accounted vault events name file
  | left : Left (MadeOf tools getcode vault events) name file → Accounted vault events name file

/-- What holds at every moment of a run: the temporary files belong to one process
    each. -/
structure Sealed (vault : Vault) (events : List Event) (host : Host) : Prop where
  files : ∀ name file, host.vault.dec.get name = some file →
    Accounted tools getcode vault events name file
  held : ∀ (i : Nat) (phase : Phase), host.phases[i]? = some phase →
    phase.Holds (MadeOf tools getcode vault events) host.vault.dec
  opened : ∀ (i : Nat) (phase : Phase), host.phases[i]? = some phase → phase.Open host.vault
  apart : ∀ (i j : Nat) (phase phase' : Phase) tmp, host.phases[i]? = some phase →
    host.phases[j]? = some phase' → phase.temp = some tmp → phase'.temp = some tmp → i = j

end

variable {host host' : Host} {events : List Event} {event : Event} {vault₀ : Vault}

theorem MadeOf.snoc {text : Str} (h : MadeOf tools getcode vault₀ events name text) (event : Event) :
    MadeOf tools getcode vault₀ (events ++ [event]) name text := by
  obtain ⟨before, host, file, form, call, hbefore, hmade⟩ := h
  exact ⟨before, host, file, form, call, hbefore.trans (List.prefix_append _ _), hmade⟩

theorem Accounted.snoc (h : Accounted tools getcode vault₀ events name file) (event : Event) :
    Accounted tools getcode vault₀ (events ++ [event]) name file := by
  cases h with
  | kept hkept => exact .kept hkept
  | byHand hput => exact .byHand (List.mem_append_left _ hput)
  | left hleft => exact .left (hleft.mono fun _ _ hmade => hmade.snoc event)

/-- A recipe begins without a file of its own. -/
theorem Recipe.begin_idle (recipe : Recipe) (vault : Vault) :
    (recipe.begin vault).temp = none ∧ ∀ vault', (recipe.begin vault).Open vault' := by
  cases recipe <;> exact ⟨rfl, fun _ => trivial⟩

/-- Processes that have no file of their own do not matter. -/
theorem Sealed.phases (h : Sealed tools getcode vault₀ events host) {phases : List Phase}
    (hold : ∀ (i : Nat) (phase : Phase), phases[i]? = some phase →
      (phase.temp = none ∧ ∀ vault, phase.Open vault) ∨ host.phases[i]? = some phase)
    (event : Event) : Sealed tools getcode vault₀ (events ++ [event]) { host with phases } := by
  refine ⟨fun name file hfile => (h.files name file hfile).snoc event, fun i phase hphase => ?_,
    fun i phase hphase => ?_, ?_⟩
  · rcases hold i phase hphase with ⟨htemp, -⟩ | hphase
    · exact Phase.holds_of_temp htemp
    · exact (h.held i phase hphase).mono fun _ _ hmade => hmade.snoc event
  · rcases hold i phase hphase with ⟨-, hopen⟩ | hphase
    · exact hopen host.vault
    · exact h.opened i phase hphase
  · intro i j phase phase' tmp hi hj htmp htmp'
    rcases hold i phase hi with ⟨htemp, -⟩ | hi
    · rw [htemp] at htmp
      cases htmp
    · rcases hold j phase' hj with ⟨htemp, -⟩ | hj
      · rw [htemp] at htmp'
        cases htmp'
      · exact h.apart i j phase phase' tmp hi hj htmp htmp'

theorem Sealed.start (h : Sealed tools getcode vault₀ events host) (recipe : Recipe) (event : Event) :
    Sealed tools getcode vault₀ (events ++ [event])
      { host with phases := host.phases ++ [recipe.begin host.vault] } := by
  refine h.phases (fun i phase hphase => ?_) event
  rw [List.getElem?_append] at hphase
  split at hphase
  · exact .inr hphase
  · rw [List.mem_singleton.mp (List.mem_of_getElem? hphase)]
    exact .inl (recipe.begin_idle host.vault)

theorem Sealed.kill (h : Sealed tools getcode vault₀ events host) (i : Nat) (event : Event) :
    Sealed tools getcode vault₀ (events ++ [event])
      { host with phases := host.phases.set i (.done 137) } := by
  refine h.phases (fun j phase hphase => ?_) event
  rw [List.getElem?_set] at hphase
  split at hphase
  · split at hphase
    · rw [← Option.some.inj hphase]
      exact .inl ⟨rfl, fun _ => trivial⟩
    · cases hphase
  · exact .inr hphase

/-- A file that is moved to another place is not one that is overwritten. -/
theorem Phase.Open.put (h : phase.Open vault) :
    phase.Open { vault with dec := vault.dec.insert name file, moves := vault.moved name } := by
  cases phase with
  | fill env opened offset left names =>
    obtain ⟨hle, hwiped⟩ := h
    unfold Phase.Open
    dsimp only [Vault.moved]
    by_cases heq : decFile env = name
    · rw [heq, Function.update_self]
      rw [heq] at hle
      exact ⟨Nat.le_succ_of_le hle, fun hsame => absurd hsame (Nat.lt_succ_of_le hle).ne'⟩
    · rw [Function.update_of_ne heq, BTreeMap.get_insert, if_neg heq]
      exact ⟨hle, hwiped⟩
  | _ => trivial

/-- A file that is put into env/dec by hand is not a temporary one. -/
theorem Sealed.put (h : Sealed tools getcode vault₀ events host) (hname : name.head? ≠ some '.') :
    Sealed tools getcode vault₀ (events ++ [.put name file])
      { host with vault := { host.vault with
        dec := host.vault.dec.insert name file
        moves := host.vault.moved name } } := by
  refine ⟨fun other file' hfile => ?_, fun j phase hphase => ?_,
    fun j phase hphase => (h.opened j phase hphase).put, h.apart⟩
  · rw [BTreeMap.get_insert] at hfile
    split at hfile
    · rename_i heq
      obtain rfl := Option.some.inj hfile
      exact .byHand (by simp [heq])
    · exact (h.files other file' hfile).snoc _
  · have hheld := h.held j phase hphase
    refine (hheld.mono fun _ _ hmade => hmade.snoc _).congr fun tmp htmp => ?_
    rw [BTreeMap.get_insert, if_neg]
    rintro rfl
    obtain ⟨stem, suffix, rfl, -, -⟩ := (hheld.made htmp).1
    exact hname rfl

/-- A step of a process. -/
theorem Sealed.act {i : Nat} (hruns : Runs (HostStep tools getcode) ⟨vault₀, []⟩ events host)
    (h : Sealed tools getcode vault₀ events host) (hphase : host.phases[i]? = some phase)
    (event : Event) :
    Sealed tools getcode vault₀ (events ++ [event])
      ⟨(advance tools getcode call host.vault phase).1,
        host.phases.set i (advance tools getcode call host.vault phase).2⟩ := by
  have hheld := (h.held i phase hphase).mono fun _ _ hmade => hmade.snoc event
  have hread : ∀ name file form text, host.vault.enc.get (encFile name) = some file →
      tools.output getcode form call file.text = ⟨text, true⟩ →
      MadeOf tools getcode vault₀ (events ++ [event]) name text := fun name file form text hfile hout =>
    ⟨events, host, file, form, call, List.prefix_append _ _, hruns, hfile, hout⟩
  -- the temporary files of the others are there, and are not the one of this process
  have hother : ∀ j phase', j ≠ i → host.phases[j]? = some phase' → ∀ tmp, phase'.temp = some tmp →
      IsTemp tmp ∧ (host.vault.dec.get tmp).isSome ∧ phase.temp ≠ some tmp := by
    intro j phase' hne hphase' tmp htmp
    obtain ⟨hname, hmade⟩ := (h.held j phase' hphase').made htmp
    exact ⟨hname, hmade, fun hown => hne (h.apart j i phase' phase tmp hphase' hphase htmp hown)⟩
  have hget : ∀ j phase', (host.phases.set i (advance tools getcode call host.vault phase).2)[j]? =
        some phase' →
      (j = i ∧ phase' = (advance tools getcode call host.vault phase).2) ∨
        (j ≠ i ∧ host.phases[j]? = some phase') := by
    intro j phase' hphase'
    rw [List.getElem?_set] at hphase'
    split at hphase'
    · rename_i heq
      split at hphase'
      · exact .inl ⟨heq.symm, (Option.some.inj hphase').symm⟩
      · cases hphase'
    · rename_i hne
      exact .inr ⟨Ne.symm hne, hphase'⟩
  have hapart : ∀ j phase', j ≠ i → host.phases[j]? = some phase' → ∀ tmp, phase'.temp = some tmp →
      (advance tools getcode call host.vault phase).2.temp ≠ some tmp := by
    intro j phase' hne hphase' tmp htmp hnext
    obtain ⟨-, hmade, hown⟩ := hother j phase' hne hphase' tmp htmp
    rcases temp_advance hnext with hsame | hnone
    · exact hown hsame
    · rw [hnone] at hmade
      cases hmade
  have hopen := h.opened i phase hphase
  refine ⟨fun name file hfile => ?_, fun j phase' hphase' => ?_, fun j phase' hphase' => ?_, ?_⟩
  · rcases left_advance hheld hopen hfile with hkept | hleft
    · exact (h.files name file hkept).snoc event
    · exact .left (hleft.mono fun _ _ hwhole => hwhole.1)
  · rcases hget j phase' hphase' with ⟨-, rfl⟩ | ⟨hne, hphase'⟩
    · exact advance_holds hread hheld
    · refine ((h.held j phase' hphase').mono fun _ _ hmade => hmade.snoc event).congr
        fun tmp htmp => ?_
      obtain ⟨hname, hmade, hown⟩ := hother j phase' hne hphase' tmp htmp
      exact advance_dec_temp hname hmade hown
  · rcases hget j phase' hphase' with ⟨-, rfl⟩ | ⟨-, hphase'⟩
    · exact advance_open hheld hopen
    · exact open_advance hheld hopen (h.opened j phase' hphase')
  · intro j k phase' phase'' tmp hj hk htmp htmp'
    rcases hget j phase' hj with ⟨hj', rfl⟩ | ⟨hne, hj'⟩
    · rcases hget k phase'' hk with ⟨hk', -⟩ | ⟨hne, hk'⟩
      · rw [hj', hk']
      · exact absurd htmp (hapart k phase'' hne hk' tmp htmp')
    · rcases hget k phase'' hk with ⟨-, rfl⟩ | ⟨-, hk'⟩
      · exact absurd htmp' (hapart j phase' hne hj' tmp htmp)
      · exact h.apart j k phase' phase'' tmp hj' hk' htmp htmp'

theorem sealed_of_runs (h : Runs (HostStep tools getcode) ⟨vault₀, []⟩ events host) :
    Sealed tools getcode vault₀ events host := by
  induction h with
  | nil =>
    exact ⟨fun _ _ => .kept, fun i phase hphase => by simp at hphase,
      fun i phase hphase => by simp at hphase, fun i j phase phase' tmp hphase => by simp at hphase⟩
  | snoc hruns hlast ih =>
    cases hlast with
    | start => exact ih.start _ _
    | act hphase => exact ih.act hruns hphase _
    | kill _ => exact ih.kill _ _
    | put hname => exact ih.put hname

/-- At every moment, with any number of recipes at work side by side and any of
    them killed at any point, a file of env/dec that no recipe has found there and
    that was not put there by hand is private: a temporary file or the whole of what
    `sops` has made of the ciphertext of its environment. Or it is one that is
    being removed, and has nothing left in it. -/
theorem plaintexts_whole (h : Runs (HostStep tools getcode) ⟨vault₀, []⟩ events host)
    (hfile : host.vault.dec.get name = some file) :
    Accounted tools getcode vault₀ events name file :=
  (sealed_of_runs h).files name file hfile

def sampleVault : Vault := ⟨BTreeMap.empty.insert "a.env.enc" ⟨0o644, ['k']⟩, BTreeMap.empty, fun _ => 0⟩

/-- `env-decrypt a`, to the moment at which the plaintext has its name. -/
theorem plaintexts_whole_decrypted :
    Accounted sampleTools bullet sampleVault
      ([.start (.envDecrypt [['a']])] ++ [.act 0 0] ++ [.act 0 1] ++ [.act 0 2] ++ [.act 0 3] ++
        [.act 0 4] ++ [.act 0 5]) "a.env" ⟨0o600, ['k']⟩ :=
  plaintexts_whole
    (.snoc (.snoc (.snoc (.snoc (.snoc (.snoc (.snoc .nil .start) (.act rfl)) (.act rfl)) (.act rfl))
      (.act rfl)) (.act rfl)) (.act rfl))
    (by decide +kernel)

end Env
