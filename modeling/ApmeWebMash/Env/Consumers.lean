-- SUMMARY: The output formats of the dotenv loader, and what a process, a container and a Secret get from one ciphertext.
import Mathlib.Data.List.Lex
import Mathlib.Data.List.Pairwise
import Mathlib.Data.List.Perm.Basic
import Mathlib.Data.Prod.Lex
import ApmeWebMash.Base.Base64
import ApmeWebMash.Base.ShellWords
import ApmeWebMash.Env.Entrypoint

/-! # Consumers of the dotenv loader

`main` of `.just/dotenv.py` writes what `parse` returns in one of three formats,
and the recipes `env-run`, `env-docker-run` and `env-k8s-secret` hand that on.
They are to see the same values. They differ in what happens when there is
nothing to see: the process is started all the same, the container is not. And
they differ in the order of the pairs, which matters where a name is repeated. -/

namespace Env

open Separator (splitAll)
open UnicodeEscape (codePoints)

/-! ## Printing -/

/-- How a program ends: by itself, with a message on the error output, or by an
    exception. -/
inductive Exit where
  | done
  | refused (message : Str)
  | raised
deriving DecidableEq

/-- What a program has printed, and how it has ended. -/
structure Printed where
  text : Str
  exit : Exit
deriving DecidableEq

/-- A `str` on a stream in UTF-8: `none` with a lone surrogate in it. -/
def encodable (value : List Nat) : Option Str :=
  value.mapM fun code => if code.isValidChar then some (Char.ofNat code) else none

/-- The pairs up to the first that cannot be written. -/
def writable : List (Str × List Nat) → List (Str × Str)
  | [] => []
  | (key, value) :: pairs =>
    match encodable value with
    | none => []
    | some text => (key, text) :: writable pairs

/-- Lines as they are printed. -/
def printed (lines : List Str) : Str := lines.flatMap (· ++ ['\n'])

/-- One `print` for each pair; one that raises writes nothing. -/
def printEach (line : Str × Str → Str) (pairs : List (Str × List Nat)) : Printed where
  text := printed ((writable pairs).map line)
  exit := if (writable pairs).length = pairs.length then .done else .raised

/-! ## The formats -/

def exportPrefix : Str := "export "

def shellLine (pair : Str × Str) : Str := exportPrefix ++ pair.1 ++ '=' :: Shell.quote pair.2

def envfileLine (pair : Str × Str) : Str := pair.1 ++ '=' :: pair.2

def secretLine (pair : Str × Str) : Str :=
  [' ', ' '] ++ pair.1 ++ ':' :: ' ' :: Base64.encode (Utf8.encode pair.2)

/-- `"\n" in v or "\r" in v`. -/
def hasNewline (value : List Nat) : Bool := value.any fun code => code = 10 || code = 13

/-- The message about names whose values have several lines. -/
def envfileRefusal (bad : List Str) : Str :=
  ("dotenv.py: " : Str) ++ List.intercalate [',', ' '] bad ++
    (" contain newlines, which docker --env-file cannot\n" : Str) ++
    ("represent — it would keep the first line and drop the rest.\n" : Str) ++
    ("Use `just env-run <env> <cmd>` or `just env-k8s-secret <env>`,\n" : Str) ++
    ("or store the value single-line (e.g. base64)." : Str)

/-- The first lines of a Secret. -/
def secretHeader (name : Str) : Str :=
  ("apiVersion: v1\nkind: Secret\nmetadata:\n  name: " : Str) ++ name ++
    ("\ntype: Opaque\ndata:\n" : Str)

/-- Python's order of pairs of `str`. -/
def pairLe (pair pair' : Str × List Nat) : Bool :=
  codePoints pair.1 < codePoints pair'.1 || (pair.1 = pair'.1 && pair.2 ≤ pair'.2)

/-- The mode that is asked for, with the name of the Secret. -/
inductive Mode where
  | shell
  | envfile
  | k8s (name : Str)

/-- What `main` does with the pairs. -/
def write (mode : Mode) (pairs : List (Str × List Nat)) : Printed :=
  match mode with
  | .shell => printEach shellLine pairs
  | .envfile =>
    let bad := (pairs.filter fun pair => hasNewline pair.2).map Prod.fst
    if bad ≠ [] then ⟨[], .refused (envfileRefusal bad)⟩ else printEach envfileLine pairs
  | .k8s name =>
    let data := printEach secretLine (pairs.mergeSort pairLe)
    ⟨secretHeader name ++ data.text, data.exit⟩

section
variable (getcode : List UInt8 → Option Nat)

/-- `main`. -/
def main (mode : Mode) (stdin : Str) : Printed :=
  match parse getcode stdin with
  | none => ⟨[], .raised⟩
  | some pairs => write mode pairs

/-! ## The recipes -/

/-- `sops decrypt | dotenv.py`: what is printed, and whether both succeed. Of a
    decryption that fails nothing reaches the loader. -/
def pipeline (mode : Mode) (decrypted : Option Str) : Str × Bool :=
  let result := main getcode mode (decrypted.getD [])
  (result.text, decrypted.isSome && result.exit = .done)

section
variable (special : List Str)

/-- The shell runs a command: only `export` is known here, of a variable that has
    no meaning to the shell itself. -/
def runCommand (environment : BTreeMap Str Str) : List Str → Option (BTreeMap Str Str)
  | [command, assignment] =>
    if command = "export" then
      (Str.splitOnce '=' assignment).bind fun (name, value) =>
        if isName name && !special.contains name then some (environment.insert name value) else none
    else none
  | _ => none

/-- `env-run`: the variables of the command. The status of the substitution is
    lost on `eval`. -/
def envRun (decrypted : Option Str) (environment : BTreeMap Str Str) : Option (BTreeMap Str Str) :=
  (Shell.commands (commandSubstitution (pipeline getcode .shell decrypted).1)).bind fun commands =>
    commands.foldlM (runCommand special) environment

end

/-- `env-docker-run`: the file that `docker run --env-file` reads, if it is started. -/
def envDockerRun (decrypted : Option Str) : Option Str :=
  let (text, succeeded) := pipeline getcode .envfile decrypted
  if succeeded then some (commandSubstitution text ++ ['\n']) else none

/-- `env-k8s-secret`: what is rendered, and whether the recipe succeeds. -/
def envK8sSecret (name : Str) (decrypted : Option Str) : Str × Bool :=
  pipeline getcode (.k8s name) decrypted

end

variable {getcode : List UInt8 → Option Nat} {special : List Str}

/-! ## What is printed -/

theorem encodable_codePoints (text : Str) : encodable (codePoints text) = some text := by
  induction text with
  | nil => rfl
  | cons c text ih =>
    have hvalid : c.toNat.isValidChar := c.valid
    rw [encodable] at ih ⊢
    rw [codePoints, List.map_cons, List.mapM_cons, if_pos hvalid, Char.ofNat_toNat]
    rw [codePoints] at ih
    rw [ih]
    rfl

theorem codePoints_of_encodable {value : List Nat} {text : Str} (h : encodable value = some text) :
    codePoints text = value := by
  induction value generalizing text with
  | nil =>
    obtain rfl := Option.some.inj h
    rfl
  | cons code value ih =>
    rw [encodable, List.mapM_cons] at h
    obtain ⟨c, hc, h⟩ := Option.bind_eq_some_iff.mp h
    obtain ⟨rest, hrest, h⟩ := Option.bind_eq_some_iff.mp h
    obtain rfl := Option.some.inj h
    split at hc
    · rename_i hvalid
      obtain rfl := Option.some.inj hc
      rw [codePoints, List.map_cons, ← codePoints, ih hrest]
      congr 1
      rw [Char.ofNat, dif_pos hvalid]
      rfl
    · cases hc

/-- The pairs whose values can all be written. -/
def inCode (pair : Str × Str) : Str × List Nat := (pair.1, codePoints pair.2)

theorem mapM_eq_some_map_iff {α β : Type} {f : α → Option β} {g : α → β} {items : List α} :
    items.mapM f = some (items.map g) ↔ ∀ item ∈ items, f item = some (g item) := by
  induction items with
  | nil => exact iff_of_true rfl fun _ h => by cases h
  | cons item items ih =>
    rw [List.forall_mem_cons, ← ih, List.mapM_cons, List.map_cons]
    constructor
    · intro h
      obtain ⟨first, hfirst, h⟩ := Option.bind_eq_some_iff.mp h
      obtain ⟨rest, hrest, h⟩ := Option.bind_eq_some_iff.mp h
      obtain ⟨rfl, rfl⟩ := List.cons.inj (Option.some.inj h)
      exact ⟨hfirst, hrest⟩
    · rintro ⟨hfirst, hrest⟩
      rw [hfirst, hrest]
      rfl

/-- The loader leaves all values as they are if it does so with each. -/
theorem parse_eq_self_iff {text : Str} :
    parse getcode text = some ((assignments text).map inCode) ↔
      ∀ pair ∈ assignments text, unquote getcode pair.2 = some (codePoints pair.2) := by
  rw [parse, mapM_eq_some_map_iff]
  refine forall₂_congr fun pair _ => ?_
  rw [Option.map_eq_some_iff]
  constructor
  · rintro ⟨value, hvalue, heq⟩
    rw [hvalue, (Prod.mk.inj heq).2]
  · intro hvalue
    exact ⟨_, hvalue, rfl⟩

/-- Python's order of pairs whose values can be written. -/
def textLe (pair pair' : Str × Str) : Bool := pairLe (inCode pair) (inCode pair')

theorem writable_map_inCode (texts : List (Str × Str)) : writable (texts.map inCode) = texts := by
  induction texts with
  | nil => rfl
  | cons pair texts ih =>
    rw [List.map_cons, inCode, writable, encodable_codePoints, ih]

/-- All pairs are written exactly if all values are texts. -/
theorem length_writable_iff {pairs : List (Str × List Nat)} :
    (writable pairs).length = pairs.length ↔ pairs = (writable pairs).map inCode := by
  constructor
  · intro h
    induction pairs with
    | nil => rfl
    | cons pair pairs ih =>
      rcases pair with ⟨key, value⟩
      rw [writable] at h ⊢
      cases hvalue : encodable value with
      | none =>
        rw [hvalue] at h
        cases h
      | some text =>
        rw [hvalue] at h
        dsimp only
        rw [List.map_cons, inCode, codePoints_of_encodable hvalue, ← ih (Nat.succ.inj h)]
  · intro h
    have hlength := congrArg List.length h
    rw [List.length_map] at hlength
    exact hlength.symm

/-- The names of what is written are those of the pairs. -/
theorem mem_writable {pairs : List (Str × List Nat)} {pair : Str × Str} (h : pair ∈ writable pairs) :
    pair.1 ∈ pairs.map Prod.fst := by
  induction pairs with
  | nil => cases h
  | cons first pairs ih =>
    rcases first with ⟨key, value⟩
    rw [writable] at h
    cases hvalue : encodable value with
    | none =>
      rw [hvalue] at h
      cases h
    | some text =>
      rw [hvalue] at h
      rcases List.mem_cons.mp h with rfl | h
      · exact List.mem_cons_self
      · exact List.mem_cons_of_mem _ (ih h)

/-! ## Substitution -/

/-- A line that survives at the end of a substitution. -/
def IsSolid (line : Str) : Prop :=
  ∃ start c, line = start ++ [c] ∧ c ≠ '\n'

/-- Printed lines, but for the line end of the last one. -/
theorem rdropWhile_printed {lines : List Str} (h : ∀ line ∈ lines, IsSolid line) :
    (printed lines).rdropWhile (· = '\n') = List.intercalate ['\n'] lines := by
  rcases List.eq_nil_or_concat' lines with rfl | ⟨before, last, rfl⟩
  · rfl
  · obtain ⟨start, c, rfl, hc⟩ := h last (by simp)
    obtain ⟨front, hfront⟩ : ∃ front, List.intercalate ['\n'] (before ++ [start ++ [c]]) =
        front ++ [c] := by
      cases before with
      | nil => exact ⟨start, List.intercalate_singleton⟩
      | cons line before =>
        exact ⟨_, (Separator.intercalate_concat _ (List.cons_ne_nil _ _) _).trans
          (List.append_assoc _ _ _).symm⟩
    have hprinted : printed (before ++ [start ++ [c]]) = front ++ [c] ++ ['\n'] := by
      rw [printed, Separator.flatMap_append_eq_intercalate,
        Separator.intercalate_concat _ (by simp), hfront, List.append_nil]
    rw [hprinted, List.rdropWhile_concat_pos _ _ _ (by simp),
      List.rdropWhile_concat_neg _ _ _ (by simpa using hc), hfront]

/-- A substitution takes the NUL characters out of every line. -/
theorem commandSubstitution_printed {lines : List Str}
    (h : ∀ line ∈ lines, IsSolid (line.filter (· ≠ '\x00'))) :
    commandSubstitution (printed lines) =
      List.intercalate ['\n'] (lines.map fun line => line.filter (· ≠ '\x00')) := by
  have hfilter : (printed lines).filter (· ≠ '\x00') =
      printed (lines.map fun line => line.filter (· ≠ '\x00')) := by
    rw [printed, List.filter_flatMap, printed, List.flatMap_map]
    refine List.flatMap_congr fun line _ => ?_
    rw [List.filter_append]
    rfl
  rw [commandSubstitution, hfilter]
  refine rdropWhile_printed fun line hline => ?_
  obtain ⟨line', hline', rfl⟩ := List.mem_map.mp hline
  exact h line' hline'

/-! ## Names -/

/-- Only names are assigned to, and none of the metadata of sops. -/
theorem name_of_mem_assignments {text : Str} {pair : Str × Str} (h : pair ∈ assignments text) :
    isName pair.1 ∧ Str.startsWith pair.1 "sops_" = false := by
  obtain ⟨line, -, hline⟩ := List.mem_filterMap.mp h
  rw [assignment] at hline
  split at hline
  · cases hline
  · split at hline
    · split at hline
      · rename_i hkey
        obtain rfl := Option.some.inj hline
        rwa [Bool.and_eq_true, Bool.not_eq_true'] at hkey
      · cases hline
    · cases hline

/-- Reading the values leaves the names as they are. -/
theorem names_of_parse {text : Str} {pairs : List (Str × List Nat)}
    (h : parse getcode text = some pairs) :
    pairs.map Prod.fst = (assignments text).map Prod.fst := by
  rw [parse] at h
  generalize assignments text = found at h
  induction found generalizing pairs with
  | nil =>
    obtain rfl := Option.some.inj h
    rfl
  | cons first found ih =>
    rw [List.mapM_cons] at h
    obtain ⟨pair, hpair, h⟩ := Option.bind_eq_some_iff.mp h
    obtain ⟨rest, hrest, h⟩ := Option.bind_eq_some_iff.mp h
    obtain rfl := Option.some.inj h
    obtain ⟨value, -, rfl⟩ := Option.map_eq_some_iff.mp hpair
    rw [List.map_cons, List.map_cons, ih hrest]

/-- What the loader has to hand on: nothing where decryption or decoding fails,
    and no more than it can write. -/
def given (getcode : List UInt8 → Option Nat) (decrypted : Option Str) : List (Str × Str) :=
  ((decrypted.bind (parse getcode)).map writable).getD []

theorem mem_given {decrypted : Option Str} {pair : Str × Str} (h : pair ∈ given getcode decrypted) :
    isName pair.1 ∧ ∃ text, decrypted = some text ∧ pair.1 ∈ (assignments text).map Prod.fst := by
  rw [given] at h
  cases hparsed : decrypted.bind (parse getcode) with
  | none =>
    rw [hparsed] at h
    cases h
  | some pairs =>
    obtain ⟨text, hdecrypted, hparse⟩ := Option.bind_eq_some_iff.mp hparsed
    rw [hparsed] at h
    have hname := mem_writable h
    rw [names_of_parse hparse] at hname
    obtain ⟨found, hfound, hkey⟩ := List.mem_map.mp hname
    exact ⟨hkey ▸ (name_of_mem_assignments hfound).1, text, hdecrypted, hname⟩

/-! ## The shell -/

/-- A pair as it comes out of a substitution. -/
def cleaned (pair : Str × Str) : Str × Str := (pair.1, pair.2.filter (· ≠ '\x00'))

theorem filter_name {key : Str} (h : isName key) : key.filter (· ≠ '\x00') = key := by
  refine List.filter_eq_self.mpr fun c hc => decide_eq_true ?_
  rintro rfl
  exact not_mem_of_isName h (by decide) hc

theorem filter_quote (value : Str) :
    (Shell.quote value).filter (· ≠ '\x00') = Shell.quote (value.filter (· ≠ '\x00')) := by
  have hchars : (value.flatMap Shell.quoteChar).filter (· ≠ '\x00') =
      (value.filter (· ≠ '\x00')).flatMap Shell.quoteChar := by
    induction value with
    | nil => rfl
    | cons c value ih =>
      rw [List.flatMap_cons, List.filter_append, ih]
      by_cases hc : c = '\x00'
      · subst hc
        rfl
      · rw [List.filter_cons_of_pos (by simpa using hc), List.flatMap_cons]
        refine congrArg (· ++ _) (List.filter_eq_self.mpr fun d hd => decide_eq_true ?_)
        rintro rfl
        rw [Shell.quoteChar] at hd
        split at hd
        · exact absurd hd (by decide)
        · exact hc (List.mem_singleton.mp hd).symm
  rw [Shell.quote, Shell.quote, ← hchars, List.filter_cons_of_pos (by decide), List.filter_append]
  rfl

theorem filter_shellLine {pair : Str × Str} (h : isName pair.1) :
    (shellLine pair).filter (· ≠ '\x00') = shellLine (cleaned pair) := by
  have hexport : exportPrefix.filter (· ≠ '\x00') = exportPrefix := by decide
  rw [shellLine, shellLine, cleaned, List.filter_append, List.filter_append, hexport, filter_name h,
    List.filter_cons_of_pos (by decide), filter_quote]

theorem isLiteral_of_isNameChar {c : Char} (h : isNameChar c) : Shell.isLiteral c := by
  rw [isNameChar, Bool.or_eq_true, beq_iff_eq] at h
  rcases h with h | rfl
  · rw [Shell.isLiteral, h, Bool.true_or]
  · decide

/-- The command `export`. -/
def exportWord : Shell.Word := .literal "export" (by decide) (Str.forall_mem (by decide))

/-- A name, its delimiter and a quoted value. -/
def assignmentWord (pair : Str × Str) (h : isName pair.1) : Shell.Word :=
  .append (.literal (pair.1 ++ ['=']) (by simp) (List.forall_mem_append.mpr
    ⟨fun c hc => isLiteral_of_isNameChar (isName_chars h c hc),
      List.forall_mem_singleton.mpr (by decide)⟩)) (.quoted pair.2)

theorem commandText_eq_shellLine {pair : Str × Str} (h : isName pair.1) :
    Shell.commandText [exportWord, assignmentWord pair h] = shellLine pair := by
  have hprefix : exportPrefix = exportWord.text ++ [' '] := by decide
  have htext : (assignmentWord pair h).text = pair.1 ++ ['='] ++ Shell.quote pair.2 := rfl
  rw [Shell.commandText, List.map_cons, List.map_cons, List.map_nil, List.intercalate_cons_cons,
    List.intercalate_singleton, htext, shellLine, hprefix]
  simp only [List.append_assoc, List.cons_append, List.nil_append]

theorem value_assignmentWord {pair : Str × Str} (h : isName pair.1) :
    (assignmentWord pair h).value = pair.1 ++ '=' :: pair.2 := by
  rw [assignmentWord, Shell.Word.value_append, Shell.Word.value_literal, Shell.Word.value_quoted,
    List.append_assoc, List.singleton_append]

theorem isSolid_shellLine {pair : Str × Str} (h : isName pair.1) :
    IsSolid ((shellLine pair).filter (· ≠ '\x00')) := by
  rw [filter_shellLine h]
  refine ⟨exportPrefix ++ pair.1 ++ '=' :: '\'' :: (cleaned pair).2.flatMap Shell.quoteChar, '\'', ?_,
    by decide⟩
  rw [shellLine, Shell.quote]
  simp only [cleaned, List.append_assoc, List.cons_append]

/-- The lines are commands, each of two words. -/
theorem exists_commands {pairs : List (Str × Str)} (hnames : ∀ pair ∈ pairs, isName pair.1) :
    ∃ lines : List (List Shell.Word), (∀ command ∈ lines, command ≠ []) ∧
      lines.map Shell.commandText = pairs.map shellLine ∧
      lines.map (fun command => command.map Shell.Word.value) =
        pairs.map fun pair => [exportWord.value, pair.1 ++ '=' :: pair.2] := by
  induction pairs with
  | nil => exact ⟨[], by simp⟩
  | cons pair pairs ih =>
    obtain ⟨hpair, hpairs⟩ := List.forall_mem_cons.mp hnames
    obtain ⟨lines, hne, htexts, hvalues⟩ := ih hpairs
    refine ⟨[exportWord, assignmentWord pair hpair] :: lines,
      List.forall_mem_cons.mpr ⟨List.cons_ne_nil _ _, hne⟩, ?_, ?_⟩
    · rw [List.map_cons, List.map_cons, htexts, commandText_eq_shellLine]
    · rw [List.map_cons, List.map_cons, hvalues, List.map_cons, List.map_cons, List.map_nil,
        value_assignmentWord]

/-- What a shell takes the lines for, behind the substitution. -/
theorem commands_shellLines {pairs : List (Str × Str)} (hnames : ∀ pair ∈ pairs, isName pair.1) :
    Shell.commands (commandSubstitution (printed (pairs.map shellLine))) =
      some ((pairs.map cleaned).map fun pair => [exportWord.value, pair.1 ++ '=' :: pair.2]) := by
  have hsolid : ∀ line ∈ pairs.map shellLine, IsSolid (line.filter (· ≠ '\x00')) := by
    intro line hline
    obtain ⟨pair, hpair, rfl⟩ := List.mem_map.mp hline
    exact isSolid_shellLine (hnames pair hpair)
  have hlines : (pairs.map shellLine).map (fun line => line.filter (· ≠ '\x00')) =
      (pairs.map cleaned).map shellLine := by
    rw [List.map_map, List.map_map]
    exact List.map_congr_left fun pair hpair => filter_shellLine (hnames pair hpair)
  have hclean : ∀ pair ∈ pairs.map cleaned, isName pair.1 := by
    intro pair hpair
    obtain ⟨pair', hpair', rfl⟩ := List.mem_map.mp hpair
    exact hnames pair' hpair'
  obtain ⟨lines, hne, htexts, hvalues⟩ := exists_commands hclean
  rw [commandSubstitution_printed hsolid, hlines, ← htexts, Shell.commands_intercalate hne, hvalues]

theorem runCommand_export {name : Str} (hname : isName name) (hspecial : name ∉ special)
    (value : Str) (environment : BTreeMap Str Str) :
    runCommand special environment [exportWord.value, name ++ '=' :: value] =
      some (environment.insert name value) := by
  have hword : exportWord.value = "export" := by decide
  have hsplit : Str.splitOnce '=' (name ++ '=' :: value) = some (name, value) :=
    Str.splitOnce_append (not_mem_of_isName hname (by decide))
  have hfree : special.contains name = false := by
    rw [← Bool.not_eq_true, List.contains_iff_mem]
    exact hspecial
  simp only [runCommand, hword, ↓reduceIte, hsplit, Option.bind_some, hname, hfree,
    Bool.not_false, Bool.and_self]

/-- The shell exports what was given, in order, whatever the values are. -/
theorem eval_shellLines {pairs : List (Str × Str)}
    (hnames : ∀ pair ∈ pairs, isName pair.1 ∧ pair.1 ∉ special) (environment : BTreeMap Str Str) :
    ((Shell.commands (commandSubstitution (printed (pairs.map shellLine)))).bind fun commands =>
        commands.foldlM (runCommand special) environment) =
      some ((pairs.map cleaned).foldl (fun m pair => m.insert pair.1 pair.2) environment) := by
  rw [commands_shellLines fun pair hpair => (hnames pair hpair).1, Option.bind_some]
  induction pairs generalizing environment with
  | nil => rfl
  | cons pair pairs ih =>
    obtain ⟨⟨hname, hspecial⟩, hpairs⟩ := List.forall_mem_cons.mp hnames
    have hrun : runCommand special environment
        [exportWord.value, (cleaned pair).1 ++ '=' :: (cleaned pair).2] =
          some (environment.insert (cleaned pair).1 (cleaned pair).2) :=
      runCommand_export hname hspecial (cleaned pair).2 environment
    rw [List.map_cons, List.map_cons, List.foldlM_cons, hrun, Option.bind_eq_bind, Option.bind_some,
      ih hpairs, List.foldl_cons]

/-! ## The process -/

theorem pipeline_shell (decrypted : Option Str) :
    (pipeline getcode .shell decrypted).1 = printed ((given getcode decrypted).map shellLine) := by
  cases decrypted with
  | none => rfl
  | some text =>
    rw [pipeline, main, given, Option.getD_some, Option.bind_some]
    cases parse getcode text with
    | none => rfl
    | some pairs => rfl

theorem envRun_eq (decrypted : Option Str)
    (hspecial : ∀ text, decrypted = some text → ∀ pair ∈ assignments text, pair.1 ∉ special)
    (environment : BTreeMap Str Str) :
    envRun getcode special decrypted environment = some
      (((given getcode decrypted).map cleaned).foldl (fun m pair => m.insert pair.1 pair.2)
        environment) := by
  rw [envRun, pipeline_shell]
  refine eval_shellLines (fun pair hpair => ?_) environment
  obtain ⟨hname, text, htext, hkey⟩ := mem_given hpair
  obtain ⟨found, hfound, hkey⟩ := List.mem_map.mp hkey
  exact ⟨hname, hkey ▸ hspecial text htext found hfound⟩

/-- The values of the text can be read, written and kept on one line each. -/
structure FitsEnvFile (getcode : List UInt8 → Option Nat) (decrypted : Option Str)
    (pairs : List (Str × Str)) : Prop where
  parsed : decrypted.bind (parse getcode) = some (pairs.map inCode)
  one_line : ∀ pair ∈ pairs, '\n' ∉ pair.2 ∧ '\r' ∉ pair.2

theorem hasNewline_codePoints {value : Str} :
    hasNewline (codePoints value) = false ↔ '\n' ∉ value ∧ '\r' ∉ value := by
  have hfeed : ∀ c : Char, c.toNat = 10 ↔ c = '\n' := fun c =>
    show c.toNat = ('\n' : Char).toNat ↔ _ from Char.toNat_inj
  have hreturn : ∀ c : Char, c.toNat = 13 ↔ c = '\r' := fun c =>
    show c.toNat = ('\r' : Char).toNat ↔ _ from Char.toNat_inj
  simp only [hasNewline, codePoints, List.any_map, List.any_eq_false, Function.comp_apply,
    Bool.or_eq_true, decide_eq_true_eq, hfeed, hreturn, not_or]
  exact ⟨fun h => ⟨fun hmem => (h _ hmem).1 rfl, fun hmem => (h _ hmem).2 rfl⟩,
    fun h c hc => ⟨fun heq => h.1 (heq ▸ hc), fun heq => h.2 (heq ▸ hc)⟩⟩

/-- No name is bad where every value has one line. -/
theorem bad_eq_nil_iff {pairs : List (Str × List Nat)} :
    (pairs.filter fun pair => hasNewline pair.2).map Prod.fst = [] ↔
      ∀ pair ∈ pairs, hasNewline pair.2 = false := by
  rw [List.map_eq_nil_iff, List.filter_eq_nil_iff]
  exact forall₂_congr fun pair _ => Bool.eq_false_iff.symm

theorem printEach_map_inCode (line : Str × Str → Str) (pairs : List (Str × Str)) :
    printEach line (pairs.map inCode) = ⟨printed (pairs.map line), .done⟩ := by
  rw [printEach, writable_map_inCode, if_pos (List.length_map _).symm]

theorem pipeline_eq {mode : Mode} {text out : Str} (h : main getcode mode text = ⟨out, .done⟩) :
    pipeline getcode mode (some text) = (out, true) := by
  simp only [pipeline, Option.getD_some, h, Option.isSome_some, decide_true, Bool.and_self]

theorem write_envfile (pairs : List (Str × List Nat)) :
    write .envfile pairs =
      if (pairs.filter fun pair => hasNewline pair.2).map Prod.fst ≠ [] then
        ⟨[], .refused (envfileRefusal ((pairs.filter fun pair => hasNewline pair.2).map Prod.fst))⟩
      else printEach envfileLine pairs := rfl

theorem main_envfile {text : Str} {pairs : List (Str × Str)}
    (h : FitsEnvFile getcode (some text) pairs) :
    main getcode .envfile text = ⟨printed (pairs.map envfileLine), .done⟩ := by
  have hparse : parse getcode text = some (pairs.map inCode) := h.parsed
  have hbad : ((pairs.map inCode).filter fun pair => hasNewline pair.2).map Prod.fst = [] := by
    refine bad_eq_nil_iff.mpr fun pair hpair => ?_
    obtain ⟨pair', hpair', rfl⟩ := List.mem_map.mp hpair
    exact hasNewline_codePoints.mpr (h.one_line pair' hpair')
  rw [main, hparse]
  dsimp only
  rw [write_envfile, if_neg (not_not.mpr hbad), printEach_map_inCode]

theorem pipeline_envfile {decrypted : Option Str} {pairs : List (Str × Str)}
    (h : FitsEnvFile getcode decrypted pairs) :
    pipeline getcode .envfile decrypted = (printed (pairs.map envfileLine), true) := by
  obtain ⟨text, rfl, -⟩ := Option.bind_eq_some_iff.mp h.parsed
  exact pipeline_eq (main_envfile h)

/-- The recipe goes on only with a text that fits. -/
theorem fitsEnvFile_of_pipeline {decrypted : Option Str}
    (h : (pipeline getcode .envfile decrypted).2) : ∃ pairs, FitsEnvFile getcode decrypted pairs := by
  rw [pipeline, Bool.and_eq_true, decide_eq_true_iff] at h
  obtain ⟨hsome, hexit⟩ := h
  obtain ⟨text, rfl⟩ := Option.isSome_iff_exists.mp hsome
  rw [main, Option.getD_some] at hexit
  cases hparse : parse getcode text with
  | none =>
    rw [hparse] at hexit
    cases hexit
  | some pairs =>
    rw [hparse] at hexit
    change (write .envfile pairs).exit = .done at hexit
    rw [write_envfile] at hexit
    -- `main` refuses a value with line ends, and raises at one that cannot be written
    split at hexit
    · cases hexit
    · rename_i hbad
      rw [not_not, bad_eq_nil_iff] at hbad
      rw [printEach] at hexit
      split at hexit
      · rename_i hlength
        have hpairs := length_writable_iff.mp hlength
        refine ⟨writable pairs, by rw [Option.bind_some, hparse, ← hpairs], fun pair hpair => ?_⟩
        refine hasNewline_codePoints.mp (hbad (inCode pair) ?_)
        rw [hpairs]
        exact List.mem_map_of_mem hpair
      · cases hexit

theorem given_of_parsed {decrypted : Option Str} {pairs : List (Str × Str)}
    (h : decrypted.bind (parse getcode) = some (pairs.map inCode)) : given getcode decrypted = pairs := by
  rw [given, h, Option.map_some, Option.getD_some, writable_map_inCode]

theorem mem_texts {decrypted : Option Str} {pairs : List (Str × Str)}
    (h : decrypted.bind (parse getcode) = some (pairs.map inCode)) :
    ∀ pair ∈ pairs, isName pair.1 := by
  intro pair hpair
  rw [← given_of_parsed h] at hpair
  exact (mem_given hpair).1

/-- The lines of an `--env-file`. -/
def envfileLines (pairs : List (Str × Str)) : List Str :=
  pairs.map fun pair => envfileLine (cleaned pair)

/-- The file that a container is started with: one line for each pair, or an empty
    line if there is none. -/
theorem envDockerRun_eq {decrypted : Option Str} {pairs : List (Str × Str)}
    (h : FitsEnvFile getcode decrypted pairs) :
    envDockerRun getcode decrypted =
      some (List.intercalate ['\n'] (envfileLines pairs) ++ ['\n']) := by
  have hnames := mem_texts h.parsed
  have hclean : ∀ pair ∈ pairs,
      (envfileLine pair).filter (· ≠ '\x00') = envfileLine (cleaned pair) := by
    intro pair hpair
    rw [envfileLine, List.filter_append, filter_name (hnames pair hpair),
      List.filter_cons_of_pos (by decide)]
    rfl
  have hone : ∀ pair ∈ pairs, '\n' ∉ envfileLine (cleaned pair) := by
    intro pair hpair hmem
    rcases List.mem_append.mp hmem with hmem | hmem
    · exact not_mem_of_isName (hnames pair hpair) (by decide) hmem
    · rcases List.mem_cons.mp hmem with hmem | hmem
      · exact absurd hmem (by decide)
      · exact (h.one_line pair hpair).1 (List.mem_filter.mp hmem).1
  have hsolid : ∀ line ∈ pairs.map envfileLine, IsSolid (line.filter (· ≠ '\x00')) := by
    intro line hline
    obtain ⟨pair, hpair, rfl⟩ := List.mem_map.mp hline
    rw [hclean pair hpair]
    obtain ⟨start, c, hline⟩ := (List.eq_nil_or_concat' (envfileLine (cleaned pair))).resolve_left
      (by simp [envfileLine])
    exact ⟨start, c, hline, fun hc => hone pair hpair (by rw [hline, hc]; simp)⟩
  have hlines : (pairs.map envfileLine).map (fun line => line.filter (· ≠ '\x00')) =
      envfileLines pairs := by
    rw [List.map_map]
    exact List.map_congr_left hclean
  rw [envDockerRun, pipeline_envfile h]
  dsimp only
  rw [if_pos rfl, commandSubstitution_printed hsolid, hlines]

/-- A container is started exactly with a text whose values can all be read, be
    written, and be kept on one line each. Its file then has one line for each of
    them, without NUL characters, in order. -/
theorem envDockerRun_iff (decrypted : Option Str) :
    ((envDockerRun getcode decrypted).isSome ↔ ∃ pairs, FitsEnvFile getcode decrypted pairs) ∧
      ∀ pairs, FitsEnvFile getcode decrypted pairs →
        envDockerRun getcode decrypted =
          some (List.intercalate ['\n'] (envfileLines pairs) ++ ['\n']) := by
  refine ⟨⟨fun hstarted => ?_, ?_⟩, fun pairs hfits => envDockerRun_eq hfits⟩
  · -- the recipe stops at a pipeline that fails
    apply fitsEnvFile_of_pipeline
    unfold envDockerRun at hstarted
    dsimp only at hstarted
    split at hstarted
    · assumption
    · cases hstarted
  · rintro ⟨pairs, hfits⟩
    rw [envDockerRun_eq hfits]
    rfl

/-! ## The Secret -/

/-- Pairs that can be written are sorted as texts. -/
theorem mergeSort_map_inCode (pairs : List (Str × Str)) :
    (pairs.map inCode).mergeSort pairLe = (pairs.mergeSort textLe).map inCode := by
  rw [List.map_mergeSort (r := textLe) (s := pairLe) fun _ _ _ _ => rfl]

theorem pipeline_k8s (name : Str) {decrypted : Option Str} {pairs : List (Str × Str)}
    (h : decrypted.bind (parse getcode) = some (pairs.map inCode)) :
    pipeline getcode (.k8s name) decrypted =
      (secretHeader name ++ printed ((pairs.mergeSort textLe).map secretLine), true) := by
  obtain ⟨text, rfl, hparse⟩ := Option.bind_eq_some_iff.mp h
  have hwrite : write (.k8s name) (pairs.map inCode) =
      ⟨secretHeader name ++ printed ((pairs.mergeSort textLe).map secretLine), .done⟩ := by
    simp only [write, mergeSort_map_inCode, printEach_map_inCode]
  exact pipeline_eq (by rw [main, hparse]; exact hwrite)

/-- Python's order is the lexicographic order of the code points. -/
theorem textLe_iff {pair pair' : Str × Str} :
    textLe pair pair' ↔ toLex (codePoints pair.1, codePoints pair.2) ≤
      toLex (codePoints pair'.1, codePoints pair'.2) := by
  have hname : codePoints pair.1 = codePoints pair'.1 ↔ pair.1 = pair'.1 :=
    ⟨fun h => codePoints_injective h, congrArg codePoints⟩
  rw [Prod.Lex.toLex_le_toLex, textLe, pairLe, Bool.or_eq_true, Bool.and_eq_true,
    decide_eq_true_iff, decide_eq_true_iff, decide_eq_true_iff, hname]
  rfl

/-- So what is sorted is in this order. -/
theorem pairwise_mergeSort_textLe (pairs : List (Str × Str)) :
    (pairs.mergeSort textLe).Pairwise fun pair pair' => textLe pair pair' := by
  refine List.pairwise_mergeSort (fun a b c hab hbc => ?_) (fun a b => ?_) pairs
  · exact textLe_iff.mpr (le_trans (textLe_iff.mp hab) (textLe_iff.mp hbc))
  · rw [Bool.or_eq_true, textLe_iff, textLe_iff]
    exact le_total _ _

/-- The values of a name come out of the sorting in their order. -/
theorem pairwise_valuesOf_mergeSort (key : Str) (pairs : List (Str × Str)) :
    (valuesOf key (pairs.mergeSort textLe)).Pairwise
      fun value value' => codePoints value ≤ codePoints value' := by
  rw [valuesOf, List.pairwise_map]
  refine List.Pairwise.imp_of_mem (fun {a b} ha hb hle => ?_)
    ((pairwise_mergeSort_textLe pairs).filter _)
  obtain rfl := of_decide_eq_true (List.mem_filter.mp ha).2
  have hkey := of_decide_eq_true (List.mem_filter.mp hb).2
  rw [textLe_iff, hkey, Prod.Lex.toLex_le_toLex] at hle
  exact (hle.resolve_left (lt_irrefl _)).2

/-- The last of a list is the last of the sorted one if and only if it is the
    greatest. -/
theorem getLast?_sorted_iff {α β : Type} [LinearOrder β] {f : α → β} (hf : Function.Injective f)
    {sorted items : List α} (hsorted : sorted.Pairwise fun a b => f a ≤ f b)
    (hperm : sorted.Perm items) :
    sorted.getLast? = items.getLast? ↔
      ∀ last, items.getLast? = some last → ∀ a ∈ items, f a ≤ f last := by
  have hgreatest : ∀ last, sorted.getLast? = some last → ∀ a ∈ items, f a ≤ f last := by
    intro last hlast a ha
    have hmem := hperm.mem_iff.mpr ha
    rw [List.getLast?_eq_some_getLast (List.ne_nil_of_mem hmem)] at hlast
    rw [← Option.some.inj hlast]
    exact hsorted.rel_getLast_of_rel_getLast_getLast hmem (le_refl _)
  constructor
  · intro h last hlast
    exact hgreatest last (h.trans hlast)
  · intro h
    -- the last of the sorted list is at least the last of the other, and at most the greatest
    cases hlast : items.getLast? with
    | none =>
      rw [List.getLast?_eq_none_iff] at hlast ⊢
      exact List.Perm.eq_nil (hlast ▸ hperm)
    | some last =>
      cases hlast' : sorted.getLast? with
      | none =>
        rw [List.getLast?_eq_none_iff] at hlast'
        obtain rfl : items = [] := List.Perm.eq_nil (hlast' ▸ hperm).symm
        cases hlast
      | some last' =>
        have hmem := hperm.mem_iff.mp (List.mem_of_getLast? hlast')
        have hle := hgreatest last' hlast' last (List.mem_of_getLast? hlast)
        rw [hf (le_antisymm (h last hlast last' hmem) hle)]

/-- The last value of every name is the greatest of its values. -/
def LastGreatest (pairs : List (Str × Str)) : Prop :=
  ∀ key last, (valuesOf key pairs).getLast? = some last →
    ∀ value ∈ valuesOf key pairs, codePoints value ≤ codePoints last

/-- A reader that takes the last value of a name gets the same from the sorted
    pairs. -/
theorem getLast?_valuesOf_mergeSort_iff (pairs : List (Str × Str)) :
    (∀ key, (valuesOf key (pairs.mergeSort textLe)).getLast? = (valuesOf key pairs).getLast?) ↔
      LastGreatest pairs := by
  refine forall_congr' fun key => getLast?_sorted_iff (fun _ _ => codePoints_injective)
    (pairwise_valuesOf_mergeSort key pairs) ?_
  exact ((List.mergeSort_perm pairs textLe).filter _).map _

/-! ## Agreement -/

/-- Where a container is started, the process gets the pairs of its file, in their
    order. The Secret has the same pairs in Python's order: under each name the
    same value comes last, if there is no NUL character in any, exactly if the
    last value of every name is the greatest. -/
theorem consumers_agree {decrypted : Option Str} {pairs : List (Str × Str)}
    (hfits : FitsEnvFile getcode decrypted pairs)
    (hspecial : ∀ text, decrypted = some text → ∀ pair ∈ assignments text, pair.1 ∉ special)
    (environment : BTreeMap Str Str) (name : Str) :
    envDockerRun getcode decrypted =
        some (List.intercalate ['\n'] (envfileLines pairs) ++ ['\n']) ∧
      envRun getcode special decrypted environment =
        some ((pairs.map cleaned).foldl (fun m pair => m.insert pair.1 pair.2) environment) ∧
      envK8sSecret getcode name decrypted =
        (secretHeader name ++ printed ((pairs.mergeSort textLe).map secretLine), true) ∧
      (pairs.mergeSort textLe).Perm pairs ∧
      ((∀ pair ∈ pairs, '\x00' ∉ pair.2) →
        ((∀ key, (valuesOf key (pairs.mergeSort textLe)).getLast? =
          (valuesOf key (pairs.map cleaned)).getLast?) ↔ LastGreatest pairs)) := by
  have hgiven := given_of_parsed hfits.parsed
  refine ⟨envDockerRun_eq hfits, by rw [envRun_eq decrypted hspecial, hgiven],
    pipeline_k8s name hfits.parsed, List.mergeSort_perm pairs textLe, fun hnul => ?_⟩
  have hself : ∀ pair ∈ pairs, cleaned pair = pair := by
    intro pair hpair
    refine Prod.ext rfl (List.filter_eq_self.mpr fun c hc => decide_eq_true ?_)
    rintro rfl
    exact hnul pair hpair hc
  rw [List.map_congr_left hself, List.map_id']
  exact getLast?_valuesOf_mergeSort_iff pairs

/-- A value with what a shell would expand, an escape, and a value that counts for
    nothing. -/
def sampleText : Str := "A='$(id)'\nB=\"x\\u00e9\"\nA=it's\n"

theorem sampleText_keys : ∀ text, some sampleText = some text →
    ∀ pair ∈ assignments text, pair.1 ∉ posixVariables := by
  intro text htext
  obtain rfl := Option.some.inj htext
  decide +kernel

def samplePairs : List (Str × Str) := [("A", "$(id)"), ("B", "xé"), ("A", "it's")]

theorem fitsEnvFile_sample : FitsEnvFile bullet (some sampleText) samplePairs :=
  ⟨by decide +kernel, by decide +kernel⟩

/-- Of the two values of `A` the last is the greater, so all consumers agree. -/
theorem consumers_agree_sample :
    envRun bullet posixVariables (some sampleText) BTreeMap.empty =
        some ((samplePairs.map cleaned).foldl (fun m pair => m.insert pair.1 pair.2)
          BTreeMap.empty) ∧
      ((∀ key, (valuesOf key (samplePairs.mergeSort textLe)).getLast? =
        (valuesOf key (samplePairs.map cleaned)).getLast?) ↔ LastGreatest samplePairs) := by
  obtain ⟨-, hrun, -, -, hlast⟩ := consumers_agree fitsEnvFile_sample sampleText_keys
    BTreeMap.empty []
  exact ⟨hrun, hlast (by decide)⟩

/-- Of `A=2` and `A=1`, a process gets the last, and the Secret ends with the
    greater. -/
example : ¬ LastGreatest [("A", "2"), ("A", "1")] := by
  intro h
  exact absurd (h "A" "1" (by decide) "2" (by decide)) (by decide)

end Env
