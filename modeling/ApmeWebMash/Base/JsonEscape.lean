-- SUMMARY: The size of escaped text, and what is read of a text that was put between quotes without escaping it.
import ApmeWebMash.Base.JsonRoundTrip

/-! # Escapes in JSON strings

A text grows when it is escaped, and a string shrinks when it is read. Both are
counted here: a text between quotes stands for itself only if it has nothing in
it that is escaped. -/

namespace Json

/-- The characters that are escaped although they are no control characters. -/
def isMark (c : Char) : Bool := c = '"' || c = '\\'

/-! ## The size of a rendering -/

theorem escapeChar_of_mark {c : Char} (h : isMark c) : escapeChar c = ['\\', c] := by
  rw [isMark, Bool.or_eq_true, decide_eq_true_eq, decide_eq_true_eq] at h
  rw [escapeChar, if_pos h]

theorem escapeChar_of_not_mark {c : Char} (h : isMark c = false) (hc : 32 ≤ c.toNat) :
    escapeChar c = [c] := by
  rw [isMark, Bool.or_eq_false_iff, decide_eq_false_iff_not, decide_eq_false_iff_not] at h
  rw [escapeChar, if_neg (not_or.mpr h), if_neg (Nat.not_lt.mpr hc)]

/-- Without control characters, escaping adds one byte for each mark. -/
theorem len_escape {text : Str} (h : ∀ c ∈ text, 32 ≤ c.toNat) :
    Str.len (escape text) = Str.len text + text.countP isMark := by
  induction text with
  | nil => rfl
  | cons c text ih =>
    have htext := ih fun d hd => h d (List.mem_cons_of_mem _ hd)
    rw [escape] at htext
    rw [escape, List.flatMap_cons, Str.len_append, htext, Str.len_cons]
    cases hc : isMark c with
    | true =>
      have hback : Str.len ['\\', c] = 1 + c.utf8Size := by
        rw [Str.len_cons, Str.len_cons, Str.len_nil]
        rfl
      rw [escapeChar_of_mark hc, hback, List.countP_cons_of_pos hc]
      omega
    | false =>
      have hself : Str.len [c] = c.utf8Size := by
        rw [Str.len_cons, Str.len_nil, Nat.add_zero]
      rw [escapeChar_of_not_mark hc (h c List.mem_cons_self), hself,
        List.countP_cons_of_neg (by rw [hc]; exact Bool.false_ne_true)]
      omega

/-- Members with texts. -/
def strings (members : List (Str × Str)) : List (Str × Json) :=
  members.map fun member => (member.1, .string member.2)

/-- The bytes of a member and of a separator. -/
def memberLen (member : Str × Str) : Nat :=
  Str.len (escape member.1) + Str.len (escape member.2) + 6

theorem len_quoted (text rest : Str) :
    Str.len ('"' :: (escape text ++ '"' :: rest)) = Str.len (escape text) + Str.len rest + 2 := by
  have hquote : '"'.utf8Size = 1 := rfl
  rw [Str.len_cons, Str.len_append, Str.len_cons, hquote]
  omega

theorem len_renderMembers_strings {members : List (Str × Str)} (hne : members ≠ []) :
    Str.len (renderMembers (strings members)) + 1 = (members.map memberLen).sum := by
  have hcolon : ':'.utf8Size = 1 := rfl
  have hcomma : ','.utf8Size = 1 := rfl
  induction members with
  | nil => exact absurd rfl hne
  | cons member members ih =>
    rw [List.map_cons, List.sum_cons, memberLen, strings, List.map_cons]
    cases members with
    | nil =>
      rw [List.map_nil, renderMembers, len_quoted, Str.len_cons, hcolon, render, len_quoted]
      simp
      omega
    | cons next members =>
      have hrest := ih (List.cons_ne_nil _ _)
      rw [strings, List.map_cons] at hrest
      rw [List.map_cons, renderMembers, len_quoted, Str.len_cons, hcolon, render, List.cons_append,
        List.append_assoc, List.singleton_append, len_quoted, Str.len_cons, hcomma]
      · omega
      · exact List.cons_ne_nil _ _

/-- A compact object of texts. -/
theorem len_render_strings {members : List (Str × Str)} (hne : members ≠ []) :
    Str.len (render (.object (strings members))) = (members.map memberLen).sum + 1 := by
  have hmembers := len_renderMembers_strings hne
  have hbraces : '\x7b'.utf8Size = 1 ∧ '\x7d'.utf8Size = 1 := ⟨rfl, rfl⟩
  rw [render, Str.len_cons, Str.len_append, Str.len_cons, Str.len_nil, hbraces.1, hbraces.2]
  omega

/-! ## What is read between quotes -/

theorem hex4_eq_some {s rest : Str} {n : Nat} (h : hex4 s = some (n, rest)) :
    ∃ used : Str, s = used ++ rest ∧ used ≠ [] := by
  rw [hex4.eq_def] at h
  split at h
  · rename_i a b c d rest'
    simp only [Option.bind_eq_bind, Option.bind_eq_some_iff, Option.some.injEq, Prod.mk.injEq] at h
    obtain ⟨_, -, _, -, _, -, _, -, -, rfl⟩ := h
    exact ⟨[a, b, c, d], rfl, List.cons_ne_nil _ _⟩
  · cases h

theorem unicodeEscape_eq_some {s rest : Str} {c : Char} (h : unicodeEscape s = some (c, rest)) :
    ∃ used : Str, s = used ++ rest ∧ used ≠ [] := by
  rw [unicodeEscape] at h
  obtain ⟨⟨high, behind⟩, hhigh, hchar⟩ := Option.bind_eq_some_iff.mp h
  obtain ⟨used, rfl, hused⟩ := hex4_eq_some hhigh
  dsimp only at hchar
  split at hchar
  · split at hchar
    · obtain ⟨⟨low, behind'⟩, hlow, hpair⟩ := Option.bind_eq_some_iff.mp hchar
      obtain ⟨used', rfl, -⟩ := hex4_eq_some hlow
      dsimp only at hpair
      split at hpair
      · obtain ⟨-, rfl⟩ := Prod.mk.inj (Option.some.inj hpair)
        refine ⟨used ++ '\\' :: 'u' :: used', by simp, by simp [hused]⟩
      · cases hpair
    · cases hchar
  · split at hchar
    · cases hchar
    · obtain ⟨-, rfl⟩ := Prod.mk.inj (Option.some.inj hchar)
      exact ⟨used, rfl, hused⟩

theorem unescape_eq_some {s rest : Str} {c : Char} (h : unescape s = some (c, rest)) :
    ∃ used : Str, s = used ++ rest ∧ used ≠ [] := by
  rw [unescape.eq_def] at h
  split at h
  case h_9 =>
    obtain ⟨used, rfl, -⟩ := unicodeEscape_eq_some h
    exact ⟨'u' :: used, rfl, List.cons_ne_nil _ _⟩
  case h_10 => cases h
  all_goals
    obtain ⟨-, rfl⟩ := Prod.mk.inj (Option.some.inj h)
    exact ⟨[_], rfl, List.cons_ne_nil _ _⟩

/-- A string is read from no fewer characters than it has, and from as many only
    if it stands there as it is, without marks. -/
theorem parseString_eq_some {n : Nat} {s text rest : Str} (h : parseString n s = some (text, rest)) :
    ∃ raw : Str, s = raw ++ '"' :: rest ∧ text.length ≤ raw.length ∧
      (text.length = raw.length → text = raw ∧ ∀ c ∈ raw, isMark c = false) := by
  induction n generalizing s text with
  | zero => cases h
  | succ n ih =>
    cases s with
    | nil => cases h
    | cons c s =>
      rw [parseString] at h
      split at h
      · rename_i hquote
        obtain ⟨rfl, rfl⟩ := Prod.mk.inj (Option.some.inj h)
        exact ⟨[], by rw [hquote]; rfl, Nat.le_refl _, fun _ => ⟨rfl, fun _ hc => by cases hc⟩⟩
      · rename_i hquote
        split at h
        · rename_i hback
          obtain ⟨⟨d, s'⟩, hescape, h⟩ := Option.bind_eq_some_iff.mp h
          obtain ⟨⟨text', rest'⟩, htext, h⟩ := Option.bind_eq_some_iff.mp h
          obtain ⟨rfl, rfl⟩ := Prod.mk.inj (Option.some.inj h)
          -- an escape is longer than what it stands for
          obtain ⟨used, rfl, hused⟩ := unescape_eq_some hescape
          obtain ⟨raw, rfl, hlength, -⟩ := ih htext
          have hpos := List.length_pos_iff.mpr hused
          refine ⟨c :: (used ++ raw), by simp, ?_, ?_⟩
          · simp only [List.length_cons, List.length_append]
            omega
          · simp only [List.length_cons, List.length_append]
            omega
        · rename_i hback
          split at h
          · cases h
          · obtain ⟨⟨text', rest'⟩, htext, h⟩ := Option.bind_eq_some_iff.mp h
            obtain ⟨rfl, rfl⟩ := Prod.mk.inj (Option.some.inj h)
            obtain ⟨raw, rfl, hlength, hsame⟩ := ih htext
            refine ⟨c :: raw, rfl, Nat.succ_le_succ hlength, fun heq => ?_⟩
            obtain ⟨rfl, hmarks⟩ := hsame (Nat.succ.inj heq)
            refine ⟨rfl, List.forall_mem_cons.mpr ⟨?_, hmarks⟩⟩
            rw [isMark, Bool.or_eq_false_iff, decide_eq_false_iff_not, decide_eq_false_iff_not]
            exact ⟨hquote, hback⟩

/-- So a text with a mark, put between quotes, is not read as itself, unless
    nothing is left of what follows it. -/
theorem eq_nil_of_parseString {n : Nat} {text rest : Str} {c : Char} (hmark : ∃ d ∈ text, isMark d)
    (h : parseString n (text ++ ['"', c]) = some (text, rest)) : rest = [] := by
  obtain ⟨raw, hraw, hlength, hsame⟩ := parseString_eq_some h
  have hsum := congrArg List.length hraw
  simp only [List.length_append, List.length_cons, List.length_nil] at hsum
  have hne : text.length ≠ raw.length := by
    intro heq
    obtain ⟨rfl, hmarks⟩ := hsame heq
    obtain ⟨d, hd, hmark⟩ := hmark
    rw [hmarks d hd] at hmark
    cases hmark
  exact List.length_eq_zero_iff.mp (by omega)

/-! ## Members that are put together by hand -/

/-- A member with a string, up to the opening quote of that. -/
def openMember (key rest : Str) : Str :=
  '"' :: (escape key ++ '"' :: ':' :: '"' :: rest)

/-- What follows a member in an object: another one, or the end. -/
inductive Follows (n : Nat) (rest : Str) : Str → List (Str × Json) → Prop where
  | comma {s : Str} {tail : List (Str × Json)} :
    parseMembers n s = some (tail, rest) → Follows n rest (',' :: s) tail
  | brace : Follows n rest ('\x7d' :: rest) []

theorem parseMembers_openMember {n : Nat} {key s rest : Str} {members : List (Str × Json)}
    (h : parseMembers n (openMember key s) = some (members, rest)) :
    ∃ m text behind tail, parseString (s.length + 1) s = some (text, behind) ∧
      Follows m rest (skipSpace behind) tail ∧ members = (key, .string text) :: tail := by
  cases n with
  | zero => cases h
  | succ n =>
    -- the key is closed, so only the value is open
    have hkey := parseString_escape key (':' :: '"' :: s)
      (n := (escape key ++ '"' :: ':' :: '"' :: s).length + 1)
      (by
        have := length_le_escape key
        rw [List.length_append]
        omega)
    simp only [parseMembers, openMember, skipSpace_cons (c := '"') (by decide), hkey,
      Option.bind_eq_bind, Option.bind_some, skipSpace_cons (c := ':') (by decide)] at h
    obtain ⟨⟨v, behind⟩, hvalue, hbehind⟩ := Option.bind_eq_some_iff.mp h
    cases n with
    | zero => cases hvalue
    | succ n =>
      simp only [parseValue, skipSpace_cons (c := '"') (by decide), ↓reduceIte] at hvalue
      obtain ⟨⟨text, behind'⟩, htext, heq⟩ := Option.bind_eq_some_iff.mp hvalue
      obtain ⟨rfl, rfl⟩ := Prod.mk.inj (Option.some.inj heq)
      refine ⟨n + 1, text, behind', ?_⟩
      dsimp only at hbehind
      split at hbehind
      · rename_i more hcomma
        obtain ⟨⟨tail, rest'⟩, htail, heq⟩ := Option.bind_eq_some_iff.mp hbehind
        obtain ⟨rfl, rfl⟩ := Prod.mk.inj (Option.some.inj heq)
        exact ⟨tail, htext, hcomma ▸ .comma htail, rfl⟩
      · rename_i more hbrace
        obtain ⟨rfl, rfl⟩ := Prod.mk.inj (Option.some.inj hbehind)
        exact ⟨[], htext, hbrace ▸ .brace, rfl⟩
      · cases hbehind

/-- A member whose text is escaped and followed by a comma is read as it is. -/
theorem parseMembers_closed {n : Nat} {key text s rest : Str} {members : List (Str × Json)}
    (h : parseMembers n (openMember key (escape text ++ '"' :: ',' :: s)) = some (members, rest)) :
    ∃ m tail, parseMembers m s = some (tail, rest) ∧ members = (key, .string text) :: tail := by
  obtain ⟨m, text', behind, tail, htext, hfollows, rfl⟩ := parseMembers_openMember h
  have hread := parseString_escape text (',' :: s)
    (n := (escape text ++ '"' :: ',' :: s).length + 1)
    (by
      have := length_le_escape text
      rw [List.length_append]
      omega)
  obtain ⟨rfl, rfl⟩ := Prod.mk.inj (Option.some.inj (hread.symm.trans htext))
  rw [skipSpace_cons (by decide)] at hfollows
  cases hfollows with
  | comma htail => exact ⟨m, tail, htail, rfl⟩

/-- A text that stands in the last member of an object and is read as itself has
    no marks. -/
theorem not_mark_of_parseMembers {n : Nat} {key text rest : Str} {c : Char}
    {tail : List (Str × Json)}
    (h : parseMembers n (openMember key (text ++ ['"', c])) = some ((key, .string text) :: tail, rest)) :
    ∀ d ∈ text, isMark d = false := by
  obtain ⟨m, text', behind, tail', htext, hfollows, heq⟩ := parseMembers_openMember h
  obtain ⟨hmember, rfl⟩ := List.cons.inj heq
  obtain rfl := Json.string.inj (Prod.mk.inj hmember).2
  intro d hd
  by_contra hmark
  obtain rfl := eq_nil_of_parseString ⟨d, hd, Bool.not_eq_false _ ▸ hmark⟩ htext
  cases hfollows

/-- The members of an object are what is read of its text. -/
theorem parseMembers_of_parse {s : Str} {members : List (Str × Json)}
    (h : parse ('\x7b' :: '"' :: s) = some (.object members)) :
    ∃ n rest, parseMembers n ('"' :: s) = some (members, rest) := by
  rw [parse] at h
  obtain ⟨⟨v, rest⟩, hvalue, heq⟩ := Option.bind_eq_some_iff.mp h
  dsimp only at heq
  split at heq
  · obtain rfl := Option.some.inj heq
    simp only [parseValue, skipSpace_cons (c := '\x7b') (by decide), Char.reduceEq,
      ↓reduceIte, skipSpace_cons (c := '"') (by decide)] at hvalue
    obtain ⟨⟨members', rest'⟩, hmembers, heq⟩ := Option.bind_eq_some_iff.mp hvalue
    obtain ⟨hobject, rfl⟩ := Prod.mk.inj (Option.some.inj heq)
    obtain rfl := Json.object.inj hobject
    exact ⟨_, _, hmembers⟩
  · cases heq

end Json
