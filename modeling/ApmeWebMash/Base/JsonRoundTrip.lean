-- SUMMARY: Parsing undoes rendering.
import Mathlib.Tactic.IntervalCases
import ApmeWebMash.Base.Json

/-! # JSON round trip

A rendered document is read back exactly, and the reader stops at its end. Every
document delimits itself but a number, which ends at the first character that
no number has. -/

namespace Json

/-! ## Well-formed documents -/

mutual
/-- Every number is a number literal. -/
def WellFormed : Json → Prop
  | .number literal => isNumber literal
  | .array items => WellFormedItems items
  | .object members => WellFormedMembers members
  | .null | .bool _ | .string _ => True

def WellFormedItems : List Json → Prop
  | [] => True
  | v :: items => WellFormed v ∧ WellFormedItems items

def WellFormedMembers : List (Str × Json) → Prop
  | [] => True
  | (_, v) :: members => WellFormed v ∧ WellFormedMembers members
end

/-! ## Numbers -/

theorem isNumberChar_of_isDigit {c : Char} (h : c.isDigit) : isNumberChar c := by
  simp [isNumberChar, h]

theorem all_of_isDigits {s : Str} (h : isDigits s) : ∀ c ∈ s, isNumberChar c := by
  simp only [isDigits, Bool.and_eq_true, List.all_eq_true] at h
  exact fun c hc => isNumberChar_of_isDigit (h.2 c hc)

theorem all_of_isExponent {s : Str} (h : isExponent s) : ∀ c ∈ s, isNumberChar c := by
  cases s with
  | nil => simp
  | cons e s =>
    simp only [isExponent, Bool.and_eq_true, Bool.or_eq_true, decide_eq_true_eq] at h
    obtain ⟨he, hdigits⟩ := h
    intro c hc
    rcases List.mem_cons.mp hc with rfl | hc
    · rcases he with rfl | rfl <;> decide
    · split at hdigits
      · rcases List.mem_cons.mp hc with rfl | hc
        · decide
        · exact all_of_isDigits hdigits c hc
      · rcases List.mem_cons.mp hc with rfl | hc
        · decide
        · exact all_of_isDigits hdigits c hc
      · exact all_of_isDigits hdigits c hc

/-- Digits followed by something that has number characters only. -/
theorem all_of_digits_then {s : Str} (h : ∀ c ∈ s.dropWhile Char.isDigit, isNumberChar c) :
    ∀ c ∈ s, isNumberChar c := by
  intro c hc
  rw [← List.takeWhile_append_dropWhile (p := Char.isDigit) (l := s)] at hc
  rcases List.mem_append.mp hc with hc | hc
  · exact isNumberChar_of_isDigit (List.mem_takeWhile_imp hc)
  · exact h c hc

theorem all_of_isFraction {s : Str} (h : isFraction s) : ∀ c ∈ s, isNumberChar c := by
  rw [isFraction.eq_def] at h
  split at h
  · rename_i s
    obtain ⟨-, hexp⟩ := (Bool.and_eq_true _ _).mp h
    intro c hc
    rcases List.mem_cons.mp hc with rfl | hc
    · decide
    · exact all_of_digits_then (all_of_isExponent hexp) c hc
  · exact all_of_isExponent h

theorem all_of_isUnsigned {s : Str} (h : isUnsigned s) : ∀ c ∈ s, isNumberChar c := by
  rw [isUnsigned.eq_def] at h
  split at h
  · intro c hc
    rcases List.mem_cons.mp hc with rfl | hc
    · decide
    · exact all_of_isFraction h c hc
  · exact all_of_digits_then (all_of_isFraction ((Bool.and_eq_true _ _).mp h).2)

theorem all_of_isNumber {s : Str} (h : isNumber s) : ∀ c ∈ s, isNumberChar c := by
  rw [isNumber.eq_def] at h
  split at h
  · intro c hc
    rcases List.mem_cons.mp hc with rfl | hc
    · decide
    · exact all_of_isUnsigned h c hc
  · exact all_of_isUnsigned h

theorem ne_nil_of_isNumber {s : Str} (h : isNumber s) : s ≠ [] := by
  rintro rfl
  exact absurd h (by decide)

/-- The decimal form of a number is a number literal. -/
theorem isNumber_decimal (n : Nat) : isNumber (Numeral.decimal n) := by
  have hdigit := Numeral.isDigit_decimal n
  by_cases hn : n = 0
  · subst hn
    decide
  · cases hs : Numeral.decimal n with
    | nil => exact absurd hs (Numeral.writes_decimal n).ne_nil
    | cons c s =>
      rw [hs] at hdigit
      have hzero : c ≠ '0' := by
        rintro rfl
        exact Numeral.head_decimal hn (by rw [hs]; rfl)
      have hminus : c ≠ '-' := by
        rintro rfl
        exact absurd (hdigit '-' List.mem_cons_self) (by decide)
      have htake : (c :: s).takeWhile Char.isDigit = c :: s :=
        List.takeWhile_eq_self_iff.mpr hdigit
      have hdrop : (c :: s).dropWhile Char.isDigit = [] := List.dropWhile_eq_nil_iff.mpr hdigit
      have hdigits : isDigits (c :: s) := by
        rw [isDigits, Bool.and_eq_true]
        exact ⟨by simp, List.all_eq_true.mpr hdigit⟩
      rw [isNumber]
      · rw [isUnsigned]
        · rw [htake, hdrop, hdigits]
          rfl
        · intro t ht
          exact hzero (List.cons.inj ht).1
      · intro t ht
        exact hminus (List.cons.inj ht).1

/-! ## Strings -/

theorem unescape_controlEscape {n : Nat} (h : n < 32) :
    ∃ tail, controlEscape n = '\\' :: tail ∧ ∀ rest, unescape (tail ++ rest) = some (Char.ofNat n, rest) := by
  interval_cases n <;> exact ⟨_, rfl, fun _ => rfl⟩

theorem parseString_escapeChar (n : Nat) (c : Char) (rest : Str) :
    parseString (n + 1) (escapeChar c ++ rest) =
      (parseString n rest).map fun p => (c :: p.1, p.2) := by
  have hcons : ∀ tail, unescape (tail ++ rest) = some (c, rest) →
      parseString (n + 1) ('\\' :: tail ++ rest) =
        (parseString n rest).map fun p => (c :: p.1, p.2) := by
    intro tail htail
    simp only [List.cons_append, parseString, htail, Char.reduceEq, ↓reduceIte,
      Option.bind_eq_bind, Option.bind_some]
    cases parseString n rest <;> rfl
  rw [escapeChar]
  split
  · rename_i hc
    refine hcons [c] ?_
    rcases hc with rfl | rfl <;> rfl
  · rename_i hc
    obtain ⟨hquote, hback⟩ := not_or.mp hc
    split
    · rename_i hlt
      -- a control character is written by its code
      obtain ⟨tail, htail, hunescape⟩ := unescape_controlEscape hlt
      rw [htail]
      refine hcons tail ?_
      rw [hunescape, Char.ofNat_toNat]
    · rename_i hge
      simp only [List.cons_append, List.nil_append, parseString, hquote, hback, hge, ↓reduceIte]
      cases parseString n rest <;> rfl

theorem parseString_escape (text rest : Str) {n : Nat} (hn : text.length < n) :
    parseString n (escape text ++ '"' :: rest) = some (text, rest) := by
  induction text generalizing n with
  | nil =>
    obtain ⟨n, rfl⟩ := Nat.exists_eq_succ_of_ne_zero (Nat.ne_of_gt hn)
    simp [escape, parseString]
  | cons c text ih =>
    obtain ⟨n, rfl⟩ := Nat.exists_eq_succ_of_ne_zero (Nat.ne_of_gt (Nat.zero_lt_of_lt hn))
    have htext := ih (n := n) (by simpa using hn)
    rw [escape] at htext
    rw [escape, List.flatMap_cons, List.append_assoc, Nat.succ_eq_add_one, parseString_escapeChar,
      htext]
    rfl

theorem length_le_escape (text : Str) : text.length ≤ (escape text).length := by
  induction text with
  | nil => exact Nat.le_refl 0
  | cons c text ih =>
    have hpos : 1 ≤ (escapeChar c).length := by
      rw [escapeChar]
      split
      · simp
      · split
        · rename_i hlt
          obtain ⟨tail, htail, -⟩ := unescape_controlEscape hlt
          simp [htail]
        · simp
    rw [escape] at ih ⊢
    simp only [List.flatMap_cons, List.length_cons, List.length_append]
    omega

/-- A text without special characters is its own escape. -/
theorem escape_eq_self {text : Str} (h : ∀ c ∈ text, escapeChar c = [c]) : escape text = text := by
  induction text with
  | nil => rfl
  | cons c text ih =>
    have htext := ih fun d hd => h d (List.mem_cons_of_mem _ hd)
    rw [escape] at htext
    rw [escape, List.flatMap_cons, h c List.mem_cons_self, htext]
    rfl

/-! ## Documents -/

/-- What may follow a number. -/
def Delimited (rest : Str) : Prop :=
  ∀ c, rest.head? = some c → isNumberChar c = false

theorem delimited_cons {c : Char} (h : isNumberChar c = false) (rest : Str) :
    Delimited (c :: rest) := by
  intro d hd
  rwa [← Option.some.inj hd]

theorem parseNumber_append {literal rest : Str} (h : isNumber literal) (hrest : Delimited rest) :
    parseNumber (literal ++ rest) = some (.number literal, rest) := by
  have hall := all_of_isNumber h
  have hdrop : rest.dropWhile isNumberChar = rest ∧ rest.takeWhile isNumberChar = [] := by
    cases rest with
    | nil => exact ⟨rfl, rfl⟩
    | cons c rest => simp [hrest c rfl]
  have htakeWhile : (literal ++ rest).takeWhile isNumberChar = literal := by
    rw [List.takeWhile_append_of_pos hall, hdrop.2, List.append_nil]
  have hdropWhile : (literal ++ rest).dropWhile isNumberChar = rest := by
    rw [List.dropWhile_append_of_pos hall, hdrop.1]
  rw [parseNumber, htakeWhile, hdropWhile, if_pos h]

theorem skipSpace_cons {c : Char} (h : isSpace c = false) (s : Str) :
    skipSpace (c :: s) = c :: s := by
  simp [skipSpace, h]

/-- A literal begins with no other character than those of numbers. -/
theorem exists_cons_of_isNumber {literal : Str} (h : isNumber literal) :
    ∃ c s, literal = c :: s ∧ ∀ d, isNumberChar d = false → c ≠ d := by
  cases literal with
  | nil => exact absurd rfl (ne_nil_of_isNumber h)
  | cons c s =>
    refine ⟨c, s, rfl, ?_⟩
    rintro d hd rfl
    rw [all_of_isNumber h c List.mem_cons_self] at hd
    cases hd

/-- The first character of a document tells what kind it is. -/
theorem exists_render_cons {v : Json} (h : v.WellFormed) :
    ∃ c s, render v = c :: s ∧ isSpace c = false ∧ c ≠ ']' := by
  cases v with
  | null => exact ⟨'n', _, render.eq_1, by decide, by decide⟩
  | bool b =>
    cases b with
    | true => exact ⟨'t', _, render.eq_2, by decide, by decide⟩
    | false => exact ⟨'f', _, render.eq_3, by decide, by decide⟩
  | number literal =>
    rw [WellFormed] at h
    rw [render]
    obtain ⟨c, s, rfl, hne⟩ := exists_cons_of_isNumber h
    refine ⟨c, s, rfl, ?_, hne ']' (by decide)⟩
    rw [Bool.eq_false_iff]
    intro hspace
    simp only [isSpace, Bool.or_eq_true, decide_eq_true_eq] at hspace
    rcases hspace with ((rfl | rfl) | rfl) | rfl <;> exact hne _ (by decide) rfl
  | string text => exact ⟨'"', _, render.eq_5 text, by decide, by decide⟩
  | array items => exact ⟨'[', _, render.eq_6 items, by decide, by decide⟩
  | object members => exact ⟨'{', _, render.eq_7 members, by decide, by decide⟩

theorem skipSpace_render {v : Json} (h : v.WellFormed) (rest : Str) :
    skipSpace (render v ++ rest) = render v ++ rest := by
  obtain ⟨c, s, hrender, hspace, -⟩ := exists_render_cons h
  rw [hrender, List.cons_append, skipSpace_cons hspace]

theorem exists_renderItems_cons {items : List Json} (hne : items ≠ [])
    (h : WellFormedItems items) :
    ∃ c s, renderItems items = c :: s ∧ isSpace c = false ∧ c ≠ ']' := by
  match items with
  | [] => exact absurd rfl hne
  | [v] =>
    rw [renderItems]
    exact exists_render_cons h.1
  | v :: w :: items =>
    obtain ⟨c, s, hrender, hspace⟩ := exists_render_cons h.1
    refine ⟨c, s ++ ',' :: renderItems (w :: items), ?_, hspace⟩
    rw [renderItems, hrender, List.cons_append]
    simp

theorem exists_renderMembers_cons {members : List (Str × Json)} (hne : members ≠ []) :
    ∃ s, renderMembers members = '"' :: s := by
  match members with
  | [] => exact absurd rfl hne
  | [(k, v)] => exact ⟨_, by rw [renderMembers]⟩
  | (k, v) :: w :: members =>
    refine ⟨escape k ++ '"' :: ':' :: (render v ++ ',' :: renderMembers (w :: members)), ?_⟩
    rw [renderMembers]
    simp

theorem parseValue_number {literal rest : Str} (h : isNumber literal) (hrest : Delimited rest)
    (n : Nat) : parseValue (n + 1) (literal ++ rest) = some (.number literal, rest) := by
  have hskip := skipSpace_render (v := .number literal) h rest
  rw [render] at hskip
  have hparse := parseNumber_append h hrest
  obtain ⟨c, s, rfl, hne⟩ := exists_cons_of_isNumber h
  rw [parseValue, hskip]
  simp only [List.cons_append, hne '"' (by decide), hne '[' (by decide), hne '{' (by decide),
    hne 'n' (by decide), hne 't' (by decide), hne 'f' (by decide), ↓reduceIte]
  exact hparse

mutual
/-- A rendered document is read back, and reading stops at its end. -/
theorem parseValue_render : ∀ (v : Json), v.WellFormed → ∀ (rest : Str), Delimited rest →
    ∀ n, 2 * (render v).length ≤ n → parseValue n (render v ++ rest) = some (v, rest)
  | .null, _, rest, _, n, hn => by
    obtain ⟨n, rfl⟩ := Nat.exists_eq_succ_of_ne_zero (n := n) (by simp [render] at hn; omega)
    simp [render, parseValue, skipSpace, isSpace, parseWord]
  | .bool true, _, rest, _, n, hn => by
    obtain ⟨n, rfl⟩ := Nat.exists_eq_succ_of_ne_zero (n := n) (by simp [render] at hn; omega)
    simp [render, parseValue, skipSpace, isSpace, parseWord]
  | .bool false, _, rest, _, n, hn => by
    obtain ⟨n, rfl⟩ := Nat.exists_eq_succ_of_ne_zero (n := n) (by simp [render] at hn; omega)
    simp [render, parseValue, skipSpace, isSpace, parseWord]
  | .number literal, h, rest, hrest, n, hn => by
    rw [WellFormed] at h
    rw [render] at hn ⊢
    have hpos := List.length_pos_iff.mpr (ne_nil_of_isNumber h)
    obtain ⟨n, rfl⟩ := Nat.exists_eq_succ_of_ne_zero (n := n) (by omega)
    exact parseValue_number h hrest n
  | .string text, _, rest, _, n, hn => by
    obtain ⟨n, rfl⟩ := Nat.exists_eq_succ_of_ne_zero (n := n) (by simp [render] at hn; omega)
    have hlen := length_le_escape text
    have hparse := parseString_escape text rest
      (n := (escape text ++ '"' :: rest).length + 1) (by simp; omega)
    simp only [render, List.cons_append, List.append_assoc, List.nil_append, parseValue,
      skipSpace_cons (c := '"') (by decide), ↓reduceIte, hparse]
    rfl
  | .array [], _, rest, _, n, hn => by
    obtain ⟨n, rfl⟩ := Nat.exists_eq_succ_of_ne_zero (n := n) (by simp [render] at hn; omega)
    simp [render, renderItems, parseValue, skipSpace, isSpace]
  | .array (v :: items), h, rest, _, n, hn => by
    rw [WellFormed] at h
    simp only [render, List.length_cons, List.length_append] at hn
    obtain ⟨n, rfl⟩ := Nat.exists_eq_succ_of_ne_zero (n := n) (by omega)
    have hitems := parseItems_render (v :: items) (by simp) h rest n (by omega)
    obtain ⟨c, s, hrender, hspace, hbracket⟩ := exists_renderItems_cons (by simp) h
    simp only [render, List.cons_append, List.append_assoc, List.nil_append, parseValue,
      skipSpace_cons (c := '[') (by decide), Char.reduceEq, ↓reduceIte]
    -- the first item does not begin with the bracket that would end the list
    rw [hrender, List.cons_append] at hitems ⊢
    rw [skipSpace_cons hspace]
    split
    · rename_i heq
      exact absurd (List.cons.inj heq).1 hbracket
    · rw [hitems]
      rfl
  | .object [], _, rest, _, n, hn => by
    obtain ⟨n, rfl⟩ := Nat.exists_eq_succ_of_ne_zero (n := n) (by simp [render] at hn; omega)
    simp [render, renderMembers, parseValue, skipSpace, isSpace]
  | .object (m :: members), h, rest, _, n, hn => by
    rw [WellFormed] at h
    simp only [render, List.length_cons, List.length_append] at hn
    obtain ⟨n, rfl⟩ := Nat.exists_eq_succ_of_ne_zero (n := n) (by omega)
    have hmembers := parseMembers_render (m :: members) (by simp) h rest n (by omega)
    obtain ⟨s, hrender⟩ := exists_renderMembers_cons (List.cons_ne_nil m members)
    simp only [render, List.cons_append, List.append_assoc, List.nil_append, parseValue,
      skipSpace_cons (c := '{') (by decide), Char.reduceEq, ↓reduceIte]
    -- the first member begins with a quote
    rw [hrender, List.cons_append] at hmembers ⊢
    rw [skipSpace_cons (by decide)]
    split
    · rename_i heq
      exact absurd (List.cons.inj heq).1 (by decide)
    · rw [hmembers]
      rfl

theorem parseItems_render : ∀ (items : List Json), items ≠ [] → WellFormedItems items →
    ∀ (rest : Str) n, 2 * (renderItems items).length + 1 ≤ n →
      parseItems n (renderItems items ++ ']' :: rest) = some (items, rest)
  | [], hne, _, _, _, _ => absurd rfl hne
  | [v], _, h, rest, n, hn => by
    obtain ⟨n, rfl⟩ := Nat.exists_eq_succ_of_ne_zero (n := n) (by omega)
    rw [renderItems] at hn ⊢
    have hv := parseValue_render v h.1 (']' :: rest) (delimited_cons (by decide) rest) n (by omega)
    rw [parseItems, hv]
    simp [skipSpace, isSpace]
  | v :: w :: items, _, h, rest, n, hn => by
    obtain ⟨n, rfl⟩ := Nat.exists_eq_succ_of_ne_zero (n := n) (by omega)
    simp only [renderItems, List.length_append, List.length_cons] at hn
    have hv := parseValue_render v h.1 (',' :: (renderItems (w :: items) ++ ']' :: rest))
      (delimited_cons (by decide) _) n (by omega)
    have hitems := parseItems_render (w :: items) (by simp) h.2 rest n (by omega)
    rw [renderItems, parseItems, List.append_assoc, List.cons_append, hv]
    · simp [skipSpace, isSpace, hitems]
    · simp

theorem parseMembers_render : ∀ (members : List (Str × Json)), members ≠ [] →
    WellFormedMembers members → ∀ (rest : Str) n, 2 * (renderMembers members).length + 1 ≤ n →
      parseMembers n (renderMembers members ++ '}' :: rest) = some (members, rest)
  | [], hne, _, _, _, _ => absurd rfl hne
  | [(k, v)], _, h, rest, n, hn => by
    obtain ⟨n, rfl⟩ := Nat.exists_eq_succ_of_ne_zero (n := n) (by omega)
    simp only [renderMembers, List.length_cons, List.length_append] at hn
    have hlen := length_le_escape k
    have hv := parseValue_render v h.1 ('}' :: rest) (delimited_cons (by decide) rest) n (by omega)
    have hk := parseString_escape k (':' :: (render v ++ '}' :: rest))
      (n := (escape k ++ '"' :: ':' :: (render v ++ '}' :: rest)).length + 1) (by simp; omega)
    simp only [renderMembers, List.cons_append, List.append_assoc, parseMembers,
      skipSpace_cons (c := '"') (by decide), hk, Option.bind_eq_bind, Option.bind_some,
      skipSpace_cons (c := ':') (by decide), hv, skipSpace_cons (c := '}') (by decide)]
  | (k, v) :: w :: members, _, h, rest, n, hn => by
    obtain ⟨n, rfl⟩ := Nat.exists_eq_succ_of_ne_zero (n := n) (by omega)
    simp only [renderMembers, List.length_cons, List.length_append] at hn
    have hlen := length_le_escape k
    have hv := parseValue_render v h.1 (',' :: (renderMembers (w :: members) ++ '}' :: rest))
      (delimited_cons (by decide) _) n (by omega)
    have hmembers := parseMembers_render (w :: members) (by simp) h.2 rest n (by omega)
    have hk := parseString_escape k
      (':' :: (render v ++ ',' :: (renderMembers (w :: members) ++ '}' :: rest)))
      (n := (escape k ++ '"' :: ':' ::
        (render v ++ ',' :: (renderMembers (w :: members) ++ '}' :: rest))).length + 1)
      (by simp; omega)
    simp only [renderMembers, List.cons_append, List.append_assoc, parseMembers,
      skipSpace_cons (c := '"') (by decide), hk, Option.bind_eq_bind, Option.bind_some,
      skipSpace_cons (c := ':') (by decide), hv, skipSpace_cons (c := ',') (by decide), hmembers]
end

/-- Parsing undoes rendering. -/
theorem parse_render {v : Json} (h : v.WellFormed) : parse (render v) = some v := by
  have hparse := parseValue_render v h [] (by intro c hc; cases hc) (2 * (render v).length + 2)
    (by omega)
  rw [List.append_nil] at hparse
  rw [parse, hparse]
  rfl

end Json
