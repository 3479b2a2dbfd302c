-- SUMMARY: The container entrypoint's read and export loop, and where it gives a program what the dotenv loader gives it.
import ApmeWebMash.Env.Dotenv

/-! # The container entrypoint

The loop of `scripts/sops-entrypoint.sh` over the decrypted text. It exports a
variable that is not set yet, so the first line for a name counts, where the
last one counts for the loader. It takes a value as it stands, but for a last
delimiter that `read` drops. -/

namespace Env

open UnicodeEscape (codePoints)

/-! ## Lines -/

/-- `$(...)`: without NUL characters and without the last line ends. -/
def commandSubstitution (text : Str) : Str :=
  (text.filter (· ≠ '\x00')).rdropWhile (· = '\n')

/-- What the loop reads, line by line. -/
def entrypointLines (text : Str) : List Str := (commandSubstitution text).splitOn '\n'

/-- The last variable of `read` takes the rest of the line, with the delimiters
    in it; a delimiter that only ends the field is dropped. -/
def lastField (rest : Str) : Str :=
  match Str.splitOnce '=' rest with
  | some (field, []) => field
  | _ => rest

/-- The first field of a line, and the rest behind its delimiter. -/
def splitKey (line : Str) : Str × Str := (Str.splitOnce '=' line).getD (line, [])

/-- The patterns of the `case` for which a line is passed over. -/
def skipsKey (key : Str) : Bool :=
  key = [] || Str.startsWith key "#" || Str.startsWith key "sops_" ||
    key.any (fun c => !isNameChar c) || key.head?.any Char.isDigit

/-! ## Exports -/

/-- The variables that the script has set when the loop runs. -/
def scriptVariables : List Str := ["SOPS_SECRETS_FILE", "secrets", "key", "value"]

section
variable (shellVariables : List Str)

/-- The body of the loop. The shell sets variables of its own as well. -/
def exportLine (exports : BTreeMap Str Str) (line : Str) : BTreeMap Str Str :=
  let (key, rest) := splitKey line
  if skipsKey key then exports
  else if key ∈ scriptVariables ++ shellVariables ∨ (exports.get key).isSome then exports
  else exports.insert key (lastField rest)

/-- What the entrypoint exports in an environment without these variables. -/
def entrypoint (text : Str) : BTreeMap Str Str :=
  (entrypointLines text).foldl (exportLine shellVariables) BTreeMap.empty

/-- The entrypoint exports the variables and values that come from exporting in
    order what `parse` returns. -/
def Agrees (getcode : List UInt8 → Option Nat) (text : Str) : Prop :=
  ∃ pairs, parse getcode text = some pairs ∧
    ∀ key, ((entrypoint shellVariables text).get key).map codePoints =
      (BTreeMap.ofList pairs).get key

end

/-- The name and the rest, if the loop does not pass over the line. -/
def keyLine (line : Str) : Option (Str × Str) :=
  if skipsKey (splitKey line).1 then none else some (splitKey line)

/-- The lines that set a variable, in order, with the text of the value. -/
def keyLines (text : Str) : List (Str × Str) := (entrypointLines text).filterMap keyLine

variable {shellVariables : List Str} {getcode : List UInt8 → Option Nat} {key value line : Str}

/-- A line sets its name, unless it is passed over or the name is taken. -/
theorem get_exportLine (exports : BTreeMap Str Str) (line key : Str) :
    (exportLine shellVariables exports line).get key =
      (exports.get key).or (if key ∈ scriptVariables ++ shellVariables then none
        else (keyLine line).bind fun pair =>
          if pair.1 = key then some (lastField pair.2) else none) := by
  simp only [exportLine]
  by_cases hskip : skipsKey (splitKey line).1
  · have hnone : keyLine line = none := if_pos hskip
    rw [if_pos hskip, hnone, Option.bind_none, ite_self, Option.or_none]
  · have hsome : keyLine line = some (splitKey line) := if_neg hskip
    rw [if_neg hskip, hsome, Option.bind_some]
    by_cases hkey : (splitKey line).1 = key
    · rw [if_pos hkey, hkey]
      -- a name of the script itself is taken for one that is set
      by_cases hown : key ∈ scriptVariables ++ shellVariables
      · rw [if_pos (.inl hown), if_pos hown, Option.or_none]
      · rw [if_neg hown]
        cases hget : exports.get key with
        | some value => rw [Option.isSome_some, if_pos (.inr rfl), hget, Option.some_or]
        | none =>
          rw [Option.isSome_none, if_neg (not_or.mpr ⟨hown, Bool.false_ne_true⟩),
            BTreeMap.get_insert, if_pos rfl, Option.none_or]
    · rw [if_neg hkey, ite_self, Option.or_none]
      split
      · rfl
      · rw [BTreeMap.get_insert, if_neg (Ne.symm hkey)]

/-- The first line for a name counts, unless the name is taken. -/
theorem get_entrypoint (text key : Str) :
    (entrypoint shellVariables text).get key =
      if key ∈ scriptVariables ++ shellVariables then none
      else (valuesOf key (keyLines text)).head?.map lastField := by
  have hfold : ∀ (lines : List Str) (exports : BTreeMap Str Str),
      (lines.foldl (exportLine shellVariables) exports).get key =
        (exports.get key).or (if key ∈ scriptVariables ++ shellVariables then none
          else (valuesOf key (lines.filterMap keyLine)).head?.map lastField) := by
    intro lines
    induction lines with
    | nil =>
      intro exports
      simp [valuesOf]
    | cons line lines ih =>
      intro exports
      -- what an earlier line has exported stays
      rw [List.foldl_cons, ih, get_exportLine, Option.or_assoc]
      cases hline : keyLine line with
      | none =>
        rw [List.filterMap_cons_none hline, Option.bind_none, ite_self, Option.none_or]
      | some pair =>
        rw [List.filterMap_cons_some hline, valuesOf_cons, Option.bind_some]
        by_cases hkey : pair.1 = key
        · rw [if_pos hkey, if_pos hkey, List.head?_cons, Option.map_some]
          split
          · rw [Option.none_or]
          · rw [Option.some_or]
        · rw [if_neg hkey, if_neg hkey, ite_self, Option.none_or]
  rw [entrypoint, hfold, BTreeMap.get_empty, Option.none_or, keyLines]

/-- What the entrypoint and the loader make of the lines for a name. -/
def SameValue (shellVariables : List Str) (getcode : List UInt8 → Option Nat)
    (text key : Str) : Prop :=
  (if key ∈ scriptVariables ++ shellVariables then none
    else (valuesOf key (keyLines text)).head?.map fun value => codePoints (lastField value)) =
    (valuesOf key (assignments text)).getLast?.bind (unquote getcode)

/-- The two agree exactly when every value can be read, and for each name the
    first line reads as the last one. -/
theorem agrees_iff (text : Str) :
    Agrees shellVariables getcode text ↔
      (∀ pair ∈ assignments text, (unquote getcode pair.2).isSome) ∧
        ∀ key, SameValue shellVariables getcode text key := by
  have hexport : ∀ key, ((entrypoint shellVariables text).get key).map codePoints =
      if key ∈ scriptVariables ++ shellVariables then none
      else (valuesOf key (keyLines text)).head?.map fun value => codePoints (lastField value) := by
    intro key
    rw [get_entrypoint]
    split
    · rfl
    · rw [Option.map_map]
      rfl
  rw [← parse_isSome_iff]
  constructor
  · rintro ⟨pairs, hparse, hsame⟩
    refine ⟨⟨pairs, hparse⟩, fun key => ?_⟩
    rw [SameValue, ← hexport, hsame, get_parse hparse]
  · rintro ⟨⟨pairs, hparse⟩, hsame⟩
    refine ⟨pairs, hparse, fun key => ?_⟩
    rw [hexport, get_parse hparse, hsame key]

/-! ## Texts in the dotenv format -/

/-- A text of whole lines: each is an assignment of a name, a comment or blank. -/
structure IsDotenv (lines : List Str) : Prop where
  chars : ∀ line ∈ lines, ∀ c ∈ line, c ≠ '\n' ∧ c ≠ '\r' ∧ c ≠ '\x00'
  forms : ∀ line ∈ lines, isBlank line ∨ isComment line ∨
    ∃ key value, isName key ∧ line = key ++ '=' :: value

/-- The text with these lines. -/
def dotenvText (lines : List Str) : Str := lines.flatMap (· ++ ['\n'])

theorem universalNewlines_eq_self {text : Str} (h : ∀ c ∈ text, c ≠ '\r') :
    universalNewlines text = text := by
  fun_induction universalNewlines text with
  | case1 => rfl
  | case2 s ih => exact absurd rfl (h '\r' List.mem_cons_self)
  | case3 s _ ih => exact absurd rfl (h '\r' List.mem_cons_self)
  | case4 c s _ _ ih => rw [ih fun c hc => h c (List.mem_cons_of_mem _ hc)]

/-- Whole lines are what a text is split into, but for what stands behind the
    last line end. -/
theorem splitOn_dotenvText {lines : List Str} (h : ∀ line ∈ lines, '\n' ∉ line) :
    (dotenvText lines).splitOn '\n' = lines ++ [[]] := by
  induction lines with
  | nil => rfl
  | cons line lines ih =>
    obtain ⟨hline, hlines⟩ := List.forall_mem_cons.mp h
    have hcons : dotenvText (line :: lines) = line ++ '\n' :: dotenvText lines := by
      simp [dotenvText]
    rw [hcons, List.splitOn_append_cons_self, List.splitOn_eq_singleton hline, ih hlines]
    rfl

/-- The line ends that are dropped ended blank lines. -/
theorem filterMap_rdropWhile (text : Str) :
    ((text.rdropWhile (· = '\n')).splitOn '\n').filterMap keyLine =
      (text.splitOn '\n').filterMap keyLine := by
  have hblank : keyLine [] = none := rfl
  induction text using List.reverseRecOn with
  | nil => rfl
  | append_singleton text c ih =>
    rw [List.rdropWhile_concat]
    split
    · rename_i hc
      obtain rfl := of_decide_eq_true hc
      rw [ih, List.splitOn_append_cons_self, List.filterMap_append, List.splitOn_nil]
      simp [hblank]
    · rfl

theorem assignments_dotenvText {lines : List Str} (h : IsDotenv lines) :
    assignments (dotenvText lines) = lines.filterMap assignment := by
  have hlines : ∀ line ∈ lines, '\n' ∉ line := fun line hline hmem =>
    (h.chars line hline '\n' hmem).1 rfl
  have hreturn : ∀ c ∈ dotenvText lines, c ≠ '\r' := by
    intro c hc
    obtain ⟨line, hline, hc⟩ := List.mem_flatMap.mp hc
    rcases List.mem_append.mp hc with hc | hc
    · exact (h.chars line hline c hc).2.1
    · rw [List.mem_singleton.mp hc]
      decide
  have hblank : assignment [] = none := rfl
  rw [assignments, streamLines, universalNewlines_eq_self hreturn, splitOn_dotenvText hlines,
    List.filterMap_append, List.filterMap_cons_none hblank, List.filterMap_nil, List.append_nil]

theorem keyLines_dotenvText {lines : List Str} (h : IsDotenv lines) :
    keyLines (dotenvText lines) = lines.filterMap keyLine := by
  have hlines : ∀ line ∈ lines, '\n' ∉ line := fun line hline hmem =>
    (h.chars line hline '\n' hmem).1 rfl
  have hnul : (dotenvText lines).filter (· ≠ '\x00') = dotenvText lines := by
    refine List.filter_eq_self.mpr fun c hc => ?_
    obtain ⟨line, hline, hc⟩ := List.mem_flatMap.mp hc
    rcases List.mem_append.mp hc with hc | hc
    · exact decide_eq_true (h.chars line hline c hc).2.2
    · rw [List.mem_singleton.mp hc]
      decide
  have hblank : keyLine [] = none := rfl
  rw [keyLines, entrypointLines, commandSubstitution, hnul, filterMap_rdropWhile,
    splitOn_dotenvText hlines, List.filterMap_append, List.filterMap_cons_none hblank,
    List.filterMap_nil, List.append_nil]

/-! ## Lines of the format -/

/-- A line that starts outside the alphabet of names is passed over. -/
theorem keyLine_eq_none {c : Char} {rest : Str} (hname : isNameChar c = false) (hc : c ≠ '=') :
    keyLine (c :: rest) = none := by
  have hkey : ∃ key, (splitKey (c :: rest)).1 = c :: key := by
    simp only [splitKey, Str.splitOnce, if_neg hc]
    cases Str.splitOnce '=' rest with
    | none => exact ⟨rest, rfl⟩
    | some pair => exact ⟨pair.1, rfl⟩
  obtain ⟨key, hkey⟩ := hkey
  refine if_pos ?_
  rw [hkey]
  simp [skipsKey, hname]

theorem isNameChar_eq_false_of_isSpace {c : Char} (h : isSpace c) :
    isNameChar c = false ∧ c ≠ '=' := by
  constructor
  · rw [Bool.eq_false_iff]
    intro hname
    rcases Bool.or_eq_true_iff.mp hname with hname | hname
    · have hlow := (Str.toNat_of_isAlphanum hname).1
      simp only [isSpace, Str.isWhitespace_eq_false_of_isAlphanum hname, Bool.false_or,
        Bool.and_eq_true, decide_eq_true_eq] at h
      omega
    · rw [beq_iff_eq.mp hname] at h
      exact absurd h (by decide)
  · rintro rfl
    exact absurd h (by decide)

theorem isName_chars (h : isName key) : ∀ c ∈ key, isNameChar c := by
  cases key with
  | nil => cases h
  | cons c s =>
    simp only [isName, Bool.and_eq_true, List.all_eq_true] at h
    exact List.forall_mem_cons.mpr ⟨h.1.1, h.2⟩

theorem not_mem_of_isName (h : isName key) {c : Char} (hc : isNameChar c = false) : c ∉ key :=
  fun hmem => absurd (isName_chars h c hmem) (by simp [hc])

/-- Of a name, only the metadata of sops is passed over. -/
theorem skipsKey_of_isName (h : isName key) : skipsKey key = Str.startsWith key "sops_" := by
  have hchars : key.any (fun c => !isNameChar c) = false :=
    List.any_eq_false.mpr fun c hc => by simp [isName_chars h c hc]
  cases key with
  | nil => cases h
  | cons c s =>
    have hhash : Str.startsWith (c :: s) "#" = false := by
      rw [Str.startsWith, decide_eq_false_iff_not]
      intro hprefix
      obtain ⟨rfl, -⟩ := List.cons_prefix_cons.mp hprefix
      exact absurd (isName_chars h _ List.mem_cons_self) (by decide)
    have hdigit : c.isDigit = false := by
      simp only [isName, Bool.and_eq_true, Bool.not_eq_true'] at h
      exact h.1.2
    rw [skipsKey, hhash, hchars, List.head?_cons, Option.any_some, hdigit]
    simp only [reduceCtorEq, decide_false, Bool.false_or, Bool.or_false]

/-- A name followed by its delimiter does not start with `export` and a space. -/
theorem stripExport_eq_self (h : isName key) :
    stripExport (key ++ '=' :: value) = key ++ '=' :: value := by
  have hprefix : ¬ ("export " : Str) <+: key ++ '=' :: value := by
    intro hexport
    have hkey : key ++ ['='] <+: key ++ '=' :: value := ⟨value, by simp⟩
    rcases List.prefix_or_prefix_of_prefix hexport hkey with hwithin | hwithin
    · have hspace : ' ' ∈ key ++ ['='] := hwithin.subset (by decide)
      rcases List.mem_append.mp hspace with hspace | hspace
      · exact not_mem_of_isName h (by decide) hspace
      · exact absurd hspace (by decide)
    · have hequals : '=' ∈ ("export " : Str) := hwithin.subset (by simp)
      exact absurd hequals (by decide)
  rw [stripExport, Str.stripPrefix, if_neg hprefix, Option.getD_none]

theorem keyLine_of_isBlank (h : isBlank line) : keyLine line = none := by
  cases line with
  | nil => rfl
  | cons c rest =>
    obtain ⟨hspace, -⟩ := Bool.and_eq_true_iff.mp (List.all_cons.symm.trans h)
    obtain ⟨hname, hc⟩ := isNameChar_eq_false_of_isSpace hspace
    exact keyLine_eq_none hname hc

theorem keyLine_of_isComment (h : isComment line) : keyLine line = none := by
  cases line with
  | nil => exact absurd h (by decide)
  | cons c rest =>
    by_cases hspace : isSpace c
    · obtain ⟨hname, hc⟩ := isNameChar_eq_false_of_isSpace hspace
      exact keyLine_eq_none hname hc
    · rw [isComment, List.dropWhile_cons_of_neg hspace, Str.startsWith, decide_eq_true_iff] at h
      obtain ⟨rfl, -⟩ := List.cons_prefix_cons.mp h
      exact keyLine_eq_none (by decide) (by decide)

/-- A line that begins with a name is neither blank nor a comment. -/
theorem not_passed_of_isName (h : isName key) :
    (isBlank (key ++ '=' :: value) || isComment (key ++ '=' :: value)) = false := by
  cases key with
  | nil => cases h
  | cons c s =>
    have hname := isName_chars h c List.mem_cons_self
    have hspace : isSpace c = false := by
      rw [Bool.eq_false_iff]
      intro hspace
      rw [(isNameChar_eq_false_of_isSpace hspace).1] at hname
      cases hname
    have hhash : ¬ ("#" : Str) <+: c :: (s ++ '=' :: value) := by
      intro hprefix
      obtain ⟨rfl, -⟩ := List.cons_prefix_cons.mp hprefix
      exact absurd hname (by decide)
    rw [List.cons_append, isBlank, List.all_cons, hspace, Bool.false_and, Bool.false_or,
      isComment, List.dropWhile_cons_of_neg (Bool.eq_false_iff.mp hspace), Str.startsWith,
      decide_eq_false hhash]

/-- The loop and the loader find the same name and the same text. -/
theorem keyLine_eq_assignment (h : isBlank line ∨ isComment line ∨
    ∃ key value, isName key ∧ line = key ++ '=' :: value) : keyLine line = assignment line := by
  rcases h with hblank | hcomment | ⟨key, value, hkey, rfl⟩
  · rw [keyLine_of_isBlank hblank, assignment, hblank, Bool.true_or, if_pos rfl]
  · rw [keyLine_of_isComment hcomment, assignment, hcomment, Bool.or_true, if_pos rfl]
  · have hsplit : Str.splitOnce '=' (key ++ '=' :: value) = some (key, value) :=
      Str.splitOnce_append (not_mem_of_isName hkey (by decide))
    rw [assignment, not_passed_of_isName hkey, stripExport_eq_self hkey, hsplit, keyLine, splitKey,
      hsplit, Option.getD_some, skipsKey_of_isName hkey]
    dsimp only
    rw [hkey, Bool.true_and]
    generalize Str.startsWith key "sops_" = metadata
    cases metadata <;> rfl

/-! ## Values -/

/-- A value that reads the same on both sides: without quotes, and without a
    last delimiter that is its only one. -/
structure Plain (value : Str) : Prop where
  not_double : isQuoted '"' value = false
  not_single : isQuoted '\'' value = false
  not_ended : ∀ field, value = field ++ ['='] → '=' ∈ field

theorem lastField_eq_self_iff :
    lastField value = value ↔ ∀ field, value = field ++ ['='] → '=' ∈ field := by
  constructor
  · rintro h field rfl
    by_contra hfield
    have hsplit : Str.splitOnce '=' (field ++ ['=']) = some (field, []) :=
      Str.splitOnce_append hfield
    rw [lastField, hsplit] at h
    simp at h
  · intro h
    unfold lastField
    split
    · rename_i field hsplit
      exact absurd (h field (Str.splitOnce_eq_some hsplit)) (Str.not_mem_of_splitOnce hsplit)
    · rfl

/-- A value in quotes is what is between them, and the quotes. -/
theorem eq_of_isQuoted {quote : Char} (h : isQuoted quote value) :
    value = quote :: inner value ++ [quote] := by
  simp only [isQuoted, Bool.and_eq_true, decide_eq_true_eq] at h
  obtain ⟨⟨hlength, hhead⟩, hlast⟩ := h
  cases value with
  | nil => cases hhead
  | cons c rest =>
    obtain rfl := Option.some.inj hhead
    have hrest : rest ≠ [] := by
      rintro rfl
      simp at hlength
    rw [List.getLast?_cons_of_ne_nil hrest, List.getLast?_eq_some_getLast hrest] at hlast
    have hsplit := List.dropLast_append_getLast hrest
    rw [Option.some.inj hlast] at hsplit
    rw [inner, List.drop_one, List.tail_cons, List.cons_append, hsplit]

/-- The loop leaves a value in quotes as it is. -/
theorem lastField_of_isQuoted {quote : Char} (h : isQuoted quote value) (hquote : quote ≠ '=') :
    lastField value = value := by
  refine lastField_eq_self_iff.mpr fun field hfield => ?_
  simp only [isQuoted, Bool.and_eq_true, decide_eq_true_eq] at h
  rw [hfield, List.getLast?_concat] at h
  exact absurd (Option.some.inj h.2).symm hquote

theorem codePoints_injective {s t : Str} (h : codePoints s = codePoints t) : s = t :=
  List.map_injective_iff.mpr (fun _ _ => Char.toNat_inj.mp) h

/-- The loader leaves a value as it is exactly if it is not in quotes. -/
theorem unquote_eq_self_iff (hnames : UnicodeEscape.NamesAscii getcode) :
    unquote getcode value = some (codePoints value) ↔
      isQuoted '"' value = false ∧ isQuoted '\'' value = false := by
  unfold unquote
  by_cases hdouble : isQuoted '"' value
  · refine iff_of_false ?_ (by simp [hdouble])
    rw [if_pos hdouble]
    conv => rhs; rhs; rw [eq_of_isQuoted hdouble]
    exact UnicodeEscape.decode_ne_quoted hnames (inner value)
  by_cases hsingle : isQuoted '\'' value
  · refine iff_of_false ?_ (by simp [hsingle])
    rw [if_neg hdouble, if_pos hsingle]
    intro heq
    -- what is between the quotes is shorter
    have hinner := codePoints_injective (Option.some.inj heq)
    have hlength := congrArg List.length (eq_of_isQuoted hsingle)
    rw [hinner] at hlength
    simp only [List.cons_append, List.length_cons, List.length_append, List.length_nil] at hlength
    omega
  rw [if_neg hdouble, if_neg hsingle]
  exact iff_of_true rfl ⟨Bool.eq_false_iff.mpr hdouble, Bool.eq_false_iff.mpr hsingle⟩

/-- Both sides make the same of a value exactly if it is plain. -/
theorem unquote_eq_iff (hnames : UnicodeEscape.NamesAscii getcode) :
    unquote getcode value = some (codePoints (lastField value)) ↔ Plain value := by
  by_cases hquoted : isQuoted '"' value ∨ isQuoted '\'' value
  · have hfield : lastField value = value := by
      rcases hquoted with hdouble | hsingle
      · exact lastField_of_isQuoted hdouble (by decide)
      · exact lastField_of_isQuoted hsingle (by decide)
    rw [hfield, unquote_eq_self_iff hnames]
    refine iff_of_false (fun h => ?_) fun hplain => ?_
    · simp [h] at hquoted
    · simp [hplain.not_double, hplain.not_single] at hquoted
  obtain ⟨hdouble, hsingle⟩ := not_or.mp hquoted
  rw [unquote, if_neg hdouble, if_neg hsingle]
  constructor
  · intro heq
    have hfield := codePoints_injective (Option.some.inj heq)
    exact ⟨Bool.eq_false_iff.mpr hdouble, Bool.eq_false_iff.mpr hsingle,
      lastField_eq_self_iff.mp hfield.symm⟩
  · intro hplain
    rw [lastField_eq_self_iff.mpr hplain.not_ended]

/-! ## Agreement -/

theorem valuesOf_eq_nil {β : Type} {pairs : List (Str × β)} (h : key ∉ pairs.map Prod.fst) :
    valuesOf key pairs = [] := by
  have hnone : pairs.filter (·.1 = key) = [] :=
    List.filter_eq_nil_iff.mpr fun pair hpair hkey =>
      h (of_decide_eq_true hkey ▸ List.mem_map_of_mem hpair)
  rw [valuesOf, hnone, List.map_nil]

/-- Where no name repeats, a name has one value. -/
theorem valuesOf_eq_singleton {β : Type} {pairs : List (Str × β)} {pair : Str × β}
    (h : (pairs.map Prod.fst).Nodup) (hpair : pair ∈ pairs) :
    valuesOf pair.1 pairs = [pair.2] := by
  induction pairs with
  | nil => cases hpair
  | cons first pairs ih =>
    obtain ⟨hfirst, hpairs⟩ := List.nodup_cons.mp h
    rw [valuesOf_cons]
    rcases List.mem_cons.mp hpair with rfl | hpair
    · rw [if_pos rfl, valuesOf_eq_nil hfirst]
    · have hne : first.1 ≠ pair.1 := fun heq => hfirst (heq ▸ List.mem_map_of_mem hpair)
      rw [if_neg hne, ih hpairs hpair]

/-- In a text of the format without a repeated name, the two agree exactly when
    no name is taken and every value is plain. -/
theorem agrees_dotenvText_iff (hnames : UnicodeEscape.NamesAscii getcode) {lines : List Str}
    (hlines : IsDotenv lines) (hnodup : ((lines.filterMap assignment).map Prod.fst).Nodup) :
    Agrees shellVariables getcode (dotenvText lines) ↔
      ∀ pair ∈ lines.filterMap assignment,
        pair.1 ∉ scriptVariables ++ shellVariables ∧ Plain pair.2 := by
  have hsame : lines.filterMap keyLine = lines.filterMap assignment :=
    List.filterMap_congr fun line hline => keyLine_eq_assignment (hlines.forms line hline)
  simp only [agrees_iff, SameValue, keyLines_dotenvText hlines, assignments_dotenvText hlines, hsame]
  constructor
  · rintro ⟨hread, hvalue⟩ pair hpair
    -- the first of the values of a name is the last one as well
    have hone := valuesOf_eq_singleton hnodup hpair
    have heq := hvalue pair.1
    rw [hone, List.head?_cons, List.getLast?_singleton, Option.map_some, Option.bind_some] at heq
    split at heq
    · have hsome := hread pair hpair
      rw [← heq] at hsome
      cases hsome
    · rename_i hown
      exact ⟨hown, (unquote_eq_iff hnames).mp heq.symm⟩
  · intro hplain
    refine ⟨fun pair hpair => ?_, fun key => ?_⟩
    · rw [(unquote_eq_iff hnames).mpr (hplain pair hpair).2]
      rfl
    · by_cases hkey : key ∈ (lines.filterMap assignment).map Prod.fst
      · obtain ⟨pair, hpair, rfl⟩ := List.mem_map.mp hkey
        obtain ⟨hown, hvalue⟩ := hplain pair hpair
        rw [valuesOf_eq_singleton hnodup hpair, if_neg hown, List.head?_cons,
          List.getLast?_singleton, Option.map_some, Option.bind_some,
          (unquote_eq_iff hnames).mpr hvalue]
      · rw [valuesOf_eq_nil hkey, List.head?_nil, List.getLast?_nil, Option.map_none, ite_self,
          Option.bind_none]

/-- For every text, the two agree exactly when every value can be read, and for
    each name the first line reads as the last one; for a text of the format
    without a repeated name, exactly when no name is taken and every value is
    plain. -/
theorem entrypoint_agrees_iff (hnames : UnicodeEscape.NamesAscii getcode)
    (shellVariables : List Str) :
    (∀ text, Agrees shellVariables getcode text ↔
      (∀ pair ∈ assignments text, (unquote getcode pair.2).isSome) ∧
        ∀ key, SameValue shellVariables getcode text key) ∧
    ∀ lines, IsDotenv lines → ((lines.filterMap assignment).map Prod.fst).Nodup →
      (Agrees shellVariables getcode (dotenvText lines) ↔
        ∀ pair ∈ lines.filterMap assignment,
          pair.1 ∉ scriptVariables ++ shellVariables ∧ Plain pair.2) :=
  ⟨agrees_iff, fun _ => agrees_dotenvText_iff hnames⟩

/-- What the shell sets on its own. -/
def posixVariables : List Str := ["IFS", "OPTIND", "PPID", "PS1", "PS2", "PS4", "PWD", "PATH"]

/-- A name of the Unicode database. -/
def bullet (name : List UInt8) : Option Nat :=
  if name = Utf8.encode "BULLET" then some 0x2022 else none

theorem namesAscii_bullet : UnicodeEscape.NamesAscii bullet := by
  intro name hname
  simp only [bullet] at hname
  split at hname
  · rename_i heq
    have hascii : (Utf8.encode "BULLET").all fun b => b.toNat < 128 := by decide
    rw [heq]
    exact fun b hb => of_decide_eq_true (List.all_eq_true.mp hascii b hb)
  · cases hname

/-- A text of one assignment. -/
theorem isDotenv_singleton (hkey : isName key)
    (hchars : ∀ c ∈ key ++ '=' :: value, c ≠ '\n' ∧ c ≠ '\r' ∧ c ≠ '\x00') :
    IsDotenv [key ++ '=' :: value] where
  chars := List.forall_mem_singleton.mpr hchars
  forms := List.forall_mem_singleton.mpr (.inr (.inr ⟨key, value, hkey, rfl⟩))

/-- With a comment, a blank line, metadata, and delimiters within a value. -/
theorem entrypoint_agrees_iff_sample :
    let lines : List Str :=
      ["# key=value", "", "URL=postgres://h/db?a=b==", "A=b c", "sops_version=3.11.0"]
    Agrees posixVariables bullet (dotenvText lines) ↔
      ∀ pair ∈ lines.filterMap assignment,
        pair.1 ∉ scriptVariables ++ posixVariables ∧ Plain pair.2 := by
  intro lines
  have hchars : ∀ line ∈ lines, line.all fun c => decide (c ≠ '\n' ∧ c ≠ '\r' ∧ c ≠ '\x00') := by
    decide
  refine (entrypoint_agrees_iff namesAscii_bullet posixVariables).2 lines
    ⟨fun line hline => Str.forall_mem (hchars line hline), ?_⟩ (by decide)
  simp only [lines, List.forall_mem_cons]
  exact ⟨.inr (.inl (by decide)), .inl rfl,
    .inr (.inr ⟨"URL", "postgres://h/db?a=b==", by decide, rfl⟩),
    .inr (.inr ⟨"A", "b c", by decide, rfl⟩),
    .inr (.inr ⟨"sops_version", "3.11.0", by decide, rfl⟩), by simp⟩

/-- Quotes stay in the environment of the entrypoint, and a last delimiter is
    lost. -/
theorem not_agrees_quoted :
    ¬ Agrees posixVariables bullet (dotenvText ["A=\"x\""]) ∧
      ¬ Agrees posixVariables bullet (dotenvText ["A=b="]) := by
  have hname : isName "A" := by decide
  constructor <;> intro hagrees
  · have hlines : IsDotenv ["A=\"x\""] := isDotenv_singleton hname (Str.forall_mem (by decide))
    have hpair : (("A" : Str), ("\"x\"" : Str)) ∈
        (["A=\"x\""] : List Str).filterMap assignment := by decide
    have hplain := ((agrees_dotenvText_iff namesAscii_bullet hlines (by decide)).mp hagrees _ hpair).2
    exact absurd hplain.not_double (by decide)
  · have hlines : IsDotenv ["A=b="] := isDotenv_singleton hname (Str.forall_mem (by decide))
    have hpair : (("A" : Str), ("b=" : Str)) ∈
        (["A=b="] : List Str).filterMap assignment := by decide
    have hplain := ((agrees_dotenvText_iff namesAscii_bullet hlines (by decide)).mp hagrees _ hpair).2
    exact absurd (hplain.not_ended ['b'] rfl) (by decide)

end Env
