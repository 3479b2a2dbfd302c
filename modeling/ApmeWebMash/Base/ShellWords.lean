-- SUMMARY: The words of shell text without expansions: quoting, and how a text comes apart into commands and words.
import ApmeWebMash.Base.Separator
import ApmeWebMash.Base.Text

/-! # Shell words

The part of the shell language in which nothing is expanded: words of plain
characters, of text between single quotes and of escaped characters, blanks
between words, and commands that end with their line. Every other text is
rejected, whatever a shell would do with it. Quoting in single quotes makes any
text a word. -/

namespace Shell

open Separator (splitAll)

/-- A character that stands for itself outside quotes. -/
def isLiteral (c : Char) : Bool :=
  c.isAlphanum || c ∈ ['_', '-', '.', '/', ':', '=', '%', '+', ',', '@']

/-- What a shell makes of the text, character by character. -/
inductive Token where
  | char (c : Char)
  | quotes
  | blank
  | newline
deriving DecidableEq

/-- Where in a word the shell is. -/
inductive Mode where
  | plain
  | quoted
  | escaped

/-- The tokens of a text: `none` where it does not end in plain mode, or where a
    character has another meaning to the shell. -/
def tokens : Mode → Str → Option (List Token)
  | .plain, [] => some []
  | .quoted, [] => none
  | .escaped, [] => none
  | .plain, c :: s =>
    if c = '\'' then (tokens .quoted s).map (.quotes :: ·)
    else if c = '\\' then tokens .escaped s
    else if c = ' ' ∨ c = '\t' then (tokens .plain s).map (.blank :: ·)
    else if c = '\n' then (tokens .plain s).map (.newline :: ·)
    else if isLiteral c then (tokens .plain s).map (.char c :: ·)
    else none
  | .quoted, c :: s =>
    if c = '\'' then tokens .plain s else (tokens .quoted s).map (.char c :: ·)
  | .escaped, c :: s =>
    -- an escaped line end is no part of the word
    if c = '\n' then tokens .plain s else (tokens .plain s).map (.char c :: ·)

/-- The text of a word. -/
def wordText (word : List Token) : Str :=
  word.filterMap fun
    | .char c => some c
    | .quotes | .blank | .newline => none

/-- The words of a command. -/
def words (command : List Token) : List Str :=
  ((splitAll [.blank] command).filter (· ≠ [])).map wordText

/-- The commands of a text, by their words. -/
def commands (text : Str) : Option (List (List Str)) :=
  (tokens .plain text).map fun all => ((splitAll [.newline] all).map words).filter (· ≠ [])

/-! ## Pieces of text -/

/-- The shell takes the text for these tokens, wherever it stands in plain mode. -/
def Reads (text : Str) (result : List Token) : Prop :=
  ∀ rest, tokens .plain (text ++ rest) = (tokens .plain rest).map (result ++ ·)

namespace Reads

variable {text text' : Str} {result result' : List Token}

theorem nil : Reads [] [] := by
  intro rest
  simp

theorem append (h : Reads text result) (h' : Reads text' result') :
    Reads (text ++ text') (result ++ result') := by
  intro rest
  rw [List.append_assoc, h, h', Option.map_map]
  refine congrArg (Option.map · _) (funext fun all => ?_)
  exact (List.append_assoc _ _ _).symm

theorem blank : Reads [' '] [.blank] := fun _ => rfl

theorem newline : Reads ['\n'] [.newline] := fun _ => rfl

/-- The tokens of a whole text. -/
theorem tokens_eq (h : Reads text result) : tokens .plain text = some result := by
  have hall := h []
  rw [List.append_nil] at hall
  rw [hall]
  simp [tokens]

theorem literal (h : ∀ c ∈ text, isLiteral c) : Reads text (text.map .char) := by
  induction text with
  | nil => exact nil
  | cons c text ih =>
    obtain ⟨hc, htext⟩ := List.forall_mem_cons.mp h
    have hne : ∀ d, isLiteral d = false → c ≠ d := by
      rintro d hd rfl
      rw [hd] at hc
      cases hc
    have hone : Reads [c] [.char c] := by
      intro rest
      have hblank : ¬ (c = ' ' ∨ c = '\t') := not_or.mpr ⟨hne ' ' (by decide), hne '\t' (by decide)⟩
      rw [List.singleton_append, tokens, if_neg (hne '\'' (by decide)), if_neg (hne '\\' (by decide)),
        if_neg hblank, if_neg (hne '\n' (by decide)), if_pos hc]
      rfl
    exact append hone (ih htext)

/-- Pieces with a separator between them. -/
theorem intercalate {α : Type} {sep : Str} {mark : List Token} (hsep : Reads sep mark)
    {written : α → Str} {read : α → List Token} {items : List α}
    (h : ∀ item ∈ items, Reads (written item) (read item)) :
    Reads (List.intercalate sep (items.map written)) (List.intercalate mark (items.map read)) := by
  cases items with
  | nil => exact nil
  | cons item items =>
    obtain ⟨hitem, hitems⟩ := List.forall_mem_cons.mp h
    rw [List.map_cons, List.map_cons, Separator.intercalate_cons, Separator.intercalate_cons]
    refine append hitem ?_
    clear h
    induction items with
    | nil => exact nil
    | cons next items ih =>
      obtain ⟨hnext, hitems⟩ := List.forall_mem_cons.mp hitems
      rw [List.map_cons, List.map_cons, List.flatMap_cons, List.flatMap_cons]
      exact append (append hsep hnext) (ih hitems)

end Reads

/-! ## Quoting -/

/-- A character between single quotes; a single quote is put outside of them. -/
def quoteChar (c : Char) : Str := if c = '\'' then ['\'', '\\', '\'', '\''] else [c]

def quoteCharTokens (c : Char) : List Token := if c = '\'' then [.char c, .quotes] else [.char c]

/-- A text between single quotes. -/
def quote (value : Str) : Str := '\'' :: (value.flatMap quoteChar ++ ['\''])

def quoteTokens (value : Str) : List Token := .quotes :: value.flatMap quoteCharTokens

theorem tokens_quoteChar (c : Char) (rest : Str) :
    tokens .quoted (quoteChar c ++ rest) = (tokens .quoted rest).map (quoteCharTokens c ++ ·) := by
  rw [quoteChar, quoteCharTokens]
  split
  · -- out of the quotes, an escaped quote, and back into the quotes
    rename_i hc
    subst hc
    have hnewline : ¬ ('\'' : Char) = '\n' := by decide
    have hquote : ¬ ('\\' : Char) = '\'' := by decide
    simp only [List.cons_append, List.nil_append, tokens, ↓reduceIte, hquote, hnewline,
      Option.map_map]
    rfl
  · rename_i hc
    rw [List.singleton_append, tokens, if_neg hc]
    rfl

theorem tokens_flatMap_quoteChar (value rest : Str) :
    tokens .quoted (value.flatMap quoteChar ++ rest) =
      (tokens .quoted rest).map (value.flatMap quoteCharTokens ++ ·) := by
  induction value with
  | nil => simp
  | cons c value ih =>
    rw [List.flatMap_cons, List.flatMap_cons, List.append_assoc, tokens_quoteChar, ih, Option.map_map]
    simp only [Function.comp_def, List.append_assoc]

theorem reads_quote (value : Str) : Reads (quote value) (quoteTokens value) := by
  intro rest
  rw [quote, List.cons_append, List.append_assoc, tokens, if_pos rfl, tokens_flatMap_quoteChar,
    List.singleton_append, tokens, if_pos rfl, Option.map_map]
  rfl

/-! ## Words -/

theorem wordText_append (word word' : List Token) :
    wordText (word ++ word') = wordText word ++ wordText word' :=
  List.filterMap_append

theorem wordText_map_char (text : Str) : wordText (text.map .char) = text := by
  rw [wordText, List.filterMap_map]
  exact List.filterMap_some

theorem wordText_quoteTokens (value : Str) : wordText (quoteTokens value) = value := by
  have hchar : ∀ c, wordText (quoteCharTokens c) = [c] := by
    intro c
    rw [quoteCharTokens]
    split <;> rfl
  have hvalue : wordText (value.flatMap quoteCharTokens) = value := by
    induction value with
    | nil => rfl
    | cons c value ih => rw [List.flatMap_cons, wordText_append, hchar, ih, List.singleton_append]
  exact hvalue

/-- A word as it is written. -/
structure Word where
  text : Str
  tokens : List Token
  reads : Reads text tokens
  ne_nil : tokens ≠ []
  whole : ∀ token ∈ tokens, token ≠ .blank ∧ token ≠ .newline

namespace Word

/-- A word of plain characters. -/
def literal (text : Str) (hne : text ≠ []) (h : ∀ c ∈ text, isLiteral c) : Word where
  text := text
  tokens := text.map .char
  reads := .literal h
  ne_nil := mt List.map_eq_nil_iff.mp hne
  whole := by
    intro token htoken
    obtain ⟨c, -, rfl⟩ := List.mem_map.mp htoken
    exact ⟨nofun, nofun⟩

/-- A text in single quotes. -/
def quoted (value : Str) : Word where
  text := quote value
  tokens := quoteTokens value
  reads := reads_quote value
  ne_nil := List.cons_ne_nil _ _
  whole := by
    refine List.forall_mem_cons.mpr ⟨⟨nofun, nofun⟩, fun token htoken => ?_⟩
    obtain ⟨c, -, htoken⟩ := List.mem_flatMap.mp htoken
    rw [quoteCharTokens] at htoken
    split at htoken
    · rcases List.mem_pair.mp htoken with rfl | rfl <;> exact ⟨nofun, nofun⟩
    · rw [List.mem_singleton.mp htoken]
      exact ⟨nofun, nofun⟩

/-- One word behind the other, without a blank. -/
def append (word word' : Word) : Word where
  text := word.text ++ word'.text
  tokens := word.tokens ++ word'.tokens
  reads := word.reads.append word'.reads
  ne_nil := List.append_ne_nil_of_left_ne_nil word.ne_nil _
  whole := fun token htoken => (List.mem_append.mp htoken).elim (word.whole token) (word'.whole token)

/-- What the word is to the command. -/
def value (word : Word) : Str := wordText word.tokens

@[simp] theorem value_literal {text : Str} (hne : text ≠ []) (h : ∀ c ∈ text, isLiteral c) :
    (literal text hne h).value = text := wordText_map_char text

@[simp] theorem value_quoted (text : Str) : (quoted text).value = text := wordText_quoteTokens text

@[simp] theorem value_append (word word' : Word) :
    (word.append word').value = word.value ++ word'.value := wordText_append _ _

end Word

/-! ## Commands -/

/-- Words with blanks between them. -/
def commandText (command : List Word) : Str := List.intercalate [' '] (command.map Word.text)

def commandTokens (command : List Word) : List Token :=
  List.intercalate [.blank] (command.map Word.tokens)

theorem reads_commandText (command : List Word) :
    Reads (commandText command) (commandTokens command) :=
  Reads.blank.intercalate fun word _ => word.reads

theorem words_commandTokens {command : List Word} (hne : command ≠ []) :
    words (commandTokens command) = command.map Word.value := by
  have hblank : ∀ part ∈ command.map Word.tokens, Token.blank ∉ part := by
    intro part hpart hmem
    obtain ⟨word, -, rfl⟩ := List.mem_map.mp hpart
    exact (word.whole _ hmem).1 rfl
  have hall : (command.map Word.tokens).filter (· ≠ []) = command.map Word.tokens := by
    refine List.filter_eq_self.mpr fun part hpart => ?_
    obtain ⟨word, -, rfl⟩ := List.mem_map.mp hpart
    exact decide_eq_true word.ne_nil
  rw [words, commandTokens, Separator.splitAll_intercalate (mt List.map_eq_nil_iff.mp hne) hblank,
    hall, List.map_map]
  rfl

theorem newline_not_mem_commandTokens (command : List Word) :
    Token.newline ∉ commandTokens command := by
  intro hmem
  cases command with
  | nil => cases hmem
  | cons word command =>
    rw [commandTokens, List.map_cons, Separator.intercalate_cons, List.mem_append] at hmem
    rcases hmem with hmem | hmem
    · exact (word.whole _ hmem).2 rfl
    · obtain ⟨part, hpart, hmem⟩ := List.mem_flatMap.mp hmem
      obtain ⟨word', -, rfl⟩ := List.mem_map.mp hpart
      rcases List.mem_cons.mp hmem with hmem | hmem
      · cases hmem
      · exact (word'.whole _ hmem).2 rfl

/-- Commands on lines of their own come apart into their words. -/
theorem commands_intercalate {lines : List (List Word)} (hne : ∀ command ∈ lines, command ≠ []) :
    commands (List.intercalate ['\n'] (lines.map commandText)) =
      some (lines.map fun command => command.map Word.value) := by
  have htokens : tokens .plain (List.intercalate ['\n'] (lines.map commandText)) =
      some (List.intercalate [.newline] (lines.map commandTokens)) :=
    (Reads.newline.intercalate fun command _ => reads_commandText command).tokens_eq
  rw [commands, htokens, Option.map_some]
  refine congrArg some ?_
  rcases List.eq_nil_or_concat' lines with rfl | ⟨before, last, hlines⟩
  · simp [splitAll, Separator.cutFirst, words]
  have hsome : lines.map commandTokens ≠ [] := by simp [hlines]
  have hnewline : ∀ part ∈ lines.map commandTokens, Token.newline ∉ part := by
    intro part hpart
    obtain ⟨command, -, rfl⟩ := List.mem_map.mp hpart
    exact newline_not_mem_commandTokens command
  have hwords : (lines.map commandTokens).map words =
      lines.map fun command => command.map Word.value := by
    rw [List.map_map]
    exact List.map_congr_left fun command hcommand => words_commandTokens (hne command hcommand)
  rw [Separator.splitAll_intercalate hsome hnewline, hwords]
  refine List.filter_eq_self.mpr fun part hpart => ?_
  obtain ⟨command, hcommand, rfl⟩ := List.mem_map.mp hpart
  exact decide_eq_true (mt List.map_eq_nil_iff.mp (hne command hcommand))

end Shell
