-- SUMMARY: Markup as tags and texts: rendering with escapes that a reader resolves, and reading it back.
import ApmeWebMash.Base.Text

/-! # Markup

Tags with attributes, and text between them. How text is escaped is a parameter.
The reader takes a text apart at every `<`, and resolves references to the
characters that mean something to it. Neither checks that the tags match. -/

namespace Markup

inductive Event where
  | start (name : Str) (attributes : List (Str × Str))
  | stop (name : Str)
  | text (text : Str)
deriving DecidableEq

/-! ## Rendering -/

section Rendering

variable (escape : Str → Str)

def renderAttribute (pair : Str × Str) : Str :=
  ' ' :: pair.1 ++ '=' :: '"' :: escape pair.2 ++ ['"']

/-- A tag, without its `<`. -/
def startTag (name : Str) (attributes : List (Str × Str)) : Str :=
  name ++ attributes.flatMap (renderAttribute escape)

def renderEvent : Event → Str
  | .start name attributes => '<' :: startTag escape name attributes ++ ['>']
  | .stop name => '<' :: '/' :: name ++ ['>']
  | .text text => escape text

def render (events : List Event) : Str := events.flatMap (renderEvent escape)

end Rendering

/-! ## Reading -/

/-- The text with its references resolved; what is no reference stays. -/
def unescape : Str → Str
  | '&' :: 'a' :: 'm' :: 'p' :: ';' :: s => '&' :: unescape s
  | '&' :: 'l' :: 't' :: ';' :: s => '<' :: unescape s
  | '&' :: 'g' :: 't' :: ';' :: s => '>' :: unescape s
  | '&' :: 'q' :: 'u' :: 'o' :: 't' :: ';' :: s => '"' :: unescape s
  | c :: s => c :: unescape s
  | [] => []

/-- The attributes of a tag that was cut at its quotes. -/
def readAttributes : List Str → Option (List (Str × Str))
  | [] => none
  | [rest] => if rest = [] then some [] else none
  | key :: value :: rest =>
    match Str.stripPrefix key [' '] with
    | none => none
    | some key =>
      match Str.splitOnce '=' key with
      | some (name, []) => (readAttributes rest).map ((name, unescape value) :: ·)
      | _ => none

/-- A tag, without its `<` and `>`. -/
def readTag (tag : Str) : Option Event :=
  match Str.stripPrefix tag ['/'] with
  | some name => some (.stop name)
  | none =>
    match Str.splitOnce ' ' tag with
    | none => some (.start tag [])
    | some (name, rest) => (readAttributes ((' ' :: rest).splitOn '"')).map (.start name)

/-- Text that is there. -/
def textEvents (text : Str) : List Event := if text = [] then [] else [.text text]

/-- A tag and the text behind it. -/
def readPart (part : Str) : Option (List Event) :=
  (Str.splitOnce '>' part).bind fun (tag, text) =>
    (readTag tag).map (· :: textEvents (unescape text))

/-- The parts of a list of texts, each behind a `<`. -/
def readParts : List Str → Option (List Event)
  | [] => some []
  | part :: parts => do
    let events ← readPart part
    let rest ← readParts parts
    some (events ++ rest)

/-- The events of a text. -/
def parse (text : Str) : Option (List Event) :=
  match text.splitOn '<' with
  | [] => some []
  | first :: parts => (readParts parts).map (textEvents (unescape first) ++ ·)

/-! ## Escapes -/

/-- What a reader needs of the escapes: no mark is left, and the references
    stand for the text. -/
structure Escapes (escape : Str → Str) : Prop where
  not_mem : ∀ {c}, c = '<' ∨ c = '>' ∨ c = '"' → ∀ text, c ∉ escape text
  unescape_append : ∀ text rest, unescape (escape text ++ rest) = text ++ unescape rest

theorem Escapes.unescape {escape : Str → Str} (h : Escapes escape) (text : Str) :
    Markup.unescape (escape text) = text := by
  have hall := h.unescape_append text []
  rwa [List.append_nil, Markup.unescape, List.append_nil] at hall

def referenceChar (c : Char) : Str :=
  if c = '&' then ['&', 'a', 'm', 'p', ';']
  else if c = '<' then ['&', 'l', 't', ';']
  else if c = '>' then ['&', 'g', 't', ';']
  else if c = '"' then ['&', 'q', 'u', 'o', 't', ';']
  else [c]

/-- The references to the four marks, for each of them. -/
def references (text : Str) : Str := text.flatMap referenceChar

theorem unescape_referenceChar (c : Char) (rest : Str) :
    unescape (referenceChar c ++ rest) = c :: unescape rest := by
  rw [referenceChar]
  split
  · rename_i hc
    subst hc
    rfl
  · rename_i hamp
    split
    · rename_i hc
      subst hc
      rfl
    · split
      · rename_i hc
        subst hc
        rfl
      · split
        · rename_i hc
          subst hc
          rfl
        · rw [List.singleton_append, unescape]
          all_goals
            intro s h
            exact fun _ => hamp h

theorem unescape_references (text rest : Str) :
    unescape (references text ++ rest) = text ++ unescape rest := by
  induction text with
  | nil => rfl
  | cons c text ih =>
    rw [references, List.flatMap_cons, List.append_assoc, unescape_referenceChar, ← references, ih]
    rfl

theorem not_mem_references {c : Char} (hc : c = '<' ∨ c = '>' ∨ c = '"') (text : Str) :
    c ∉ references text := by
  intro hmem
  obtain ⟨d, -, hd⟩ := List.mem_flatMap.mp hmem
  rw [referenceChar] at hd
  split at hd
  · rcases hc with rfl | rfl | rfl <;> exact absurd hd (by decide)
  · split at hd
    · rcases hc with rfl | rfl | rfl <;> exact absurd hd (by decide)
    · split at hd
      · rcases hc with rfl | rfl | rfl <;> exact absurd hd (by decide)
      · split at hd
        · rcases hc with rfl | rfl | rfl <;> exact absurd hd (by decide)
        · rw [List.mem_singleton] at hd
          subst hd
          rcases hc with rfl | rfl | rfl <;> contradiction

theorem escapes_references : Escapes references := ⟨not_mem_references, unescape_references⟩

/-! ## Round trip -/

/-- The names of tags and of attributes. -/
structure IsName (name : Str) : Prop where
  ne_nil : name ≠ []
  chars : ∀ c ∈ name, c.isAlphanum || c == '-'

theorem IsName.not_mem {name : Str} (h : IsName name) {c : Char}
    (hc : (c.isAlphanum || c == '-') = false) : c ∉ name := fun hmem =>
  absurd (h.chars c hmem) (by simp [hc])

def Event.WellFormed : Event → Prop
  | .start name attributes => IsName name ∧ ∀ pair ∈ attributes, IsName pair.1
  | .stop name => IsName name
  | .text _ => True

/-- The text in front of the first tag, and the events from that on: texts that
    follow each other are one. -/
def merged : List Event → Str × List Event
  | [] => ([], [])
  | .text text :: events => (text ++ (merged events).1, (merged events).2)
  | .start name attributes :: events =>
    ([], .start name attributes :: (textEvents (merged events).1 ++ (merged events).2))
  | .stop name :: events =>
    ([], .stop name :: (textEvents (merged events).1 ++ (merged events).2))

/-- Events without empty texts, and without a text behind another. -/
def merge (events : List Event) : List Event := textEvents (merged events).1 ++ (merged events).2

/-- The keys and the values between quotes. -/
def attributeParts (escape : Str → Str) (attributes : List (Str × Str)) : List Str :=
  attributes.flatMap fun pair => [' ' :: pair.1 ++ ['='], escape pair.2]

section RoundTrip

variable {escape : Str → Str}

theorem splitOn_attributes (hescape : Escapes escape) {attributes : List (Str × Str)}
    (h : ∀ pair ∈ attributes, IsName pair.1) :
    (attributes.flatMap (renderAttribute escape)).splitOn '"' =
      attributeParts escape attributes ++ [[]] := by
  induction attributes with
  | nil => rfl
  | cons pair attributes ih =>
    obtain ⟨hpair, hattributes⟩ := List.forall_mem_cons.mp h
    have hkey : '"' ∉ ' ' :: pair.1 ++ ['='] := by
      simp [hpair.not_mem (c := '"') (by decide)]
    have hvalue : '"' ∉ escape pair.2 := hescape.not_mem (.inr (.inr rfl)) _
    have hrender : (pair :: attributes).flatMap (renderAttribute escape) =
        (' ' :: pair.1 ++ ['=']) ++
          '"' :: (escape pair.2 ++ '"' :: attributes.flatMap (renderAttribute escape)) := by
      simp [renderAttribute]
    rw [hrender, List.splitOn_append_cons_self, List.splitOn_eq_singleton hkey,
      List.splitOn_append_cons_self, List.splitOn_eq_singleton hvalue, ih hattributes]
    rfl

theorem readAttributes_parts (hescape : Escapes escape) {attributes : List (Str × Str)}
    (h : ∀ pair ∈ attributes, IsName pair.1) :
    readAttributes (attributeParts escape attributes ++ [[]]) = some attributes := by
  induction attributes with
  | nil => rfl
  | cons pair attributes ih =>
    obtain ⟨hpair, hattributes⟩ := List.forall_mem_cons.mp h
    have hsplit : Str.splitOnce '=' (pair.1 ++ ['=']) = some (pair.1, []) :=
      Str.splitOnce_append (hpair.not_mem (by decide))
    have hstrip : Str.stripPrefix (' ' :: (pair.1 ++ ['='])) [' '] = some (pair.1 ++ ['=']) := by
      have hprefix : ([' '] : Str) <+: ' ' :: (pair.1 ++ ['=']) := List.prefix_append [' '] _
      rw [Str.stripPrefix, if_pos hprefix]
      rfl
    have hparts : attributeParts escape (pair :: attributes) ++ [[]] =
        (' ' :: (pair.1 ++ ['='])) :: escape pair.2 ::
          (attributeParts escape attributes ++ [[]]) := rfl
    rw [hparts, readAttributes, hstrip]
    dsimp only
    rw [hsplit]
    dsimp only
    rw [ih hattributes, hescape.unescape]
    rfl

theorem readTag_startTag (hescape : Escapes escape) {name : Str} {attributes : List (Str × Str)}
    (hname : IsName name) (h : ∀ pair ∈ attributes, IsName pair.1) :
    readTag (startTag escape name attributes) = some (.start name attributes) := by
  obtain ⟨c, rest, rfl⟩ := List.exists_cons_of_ne_nil hname.ne_nil
  have hslash : Str.stripPrefix (startTag escape (c :: rest) attributes) ['/'] = none := by
    rw [Str.stripPrefix, if_neg]
    intro hprefix
    obtain ⟨rfl, -⟩ := List.cons_prefix_cons.mp hprefix
    exact hname.not_mem (by decide) List.mem_cons_self
  rw [readTag, hslash]
  dsimp only
  cases attributes with
  | nil =>
    have htag : startTag escape (c :: rest) [] = c :: rest := List.append_nil _
    rw [htag, Str.splitOnce_eq_none (hname.not_mem (by decide))]
  | cons pair attributes =>
    have hspace : Str.splitOnce ' ' (startTag escape (c :: rest) (pair :: attributes)) =
        some (c :: rest, ((pair :: attributes).flatMap (renderAttribute escape)).tail) :=
      Str.splitOnce_append (hname.not_mem (by decide))
    have hparts : ' ' :: ((pair :: attributes).flatMap (renderAttribute escape)).tail =
        (pair :: attributes).flatMap (renderAttribute escape) := rfl
    rw [hspace]
    dsimp only
    rw [hparts, splitOn_attributes hescape h, readAttributes_parts hescape h]
    rfl

theorem readTag_stop (name : Str) : readTag ('/' :: name) = some (.stop name) := by
  have hprefix : (['/'] : Str) <+: '/' :: name := List.prefix_append ['/'] name
  rw [readTag, Str.stripPrefix, if_pos hprefix]
  rfl

/-- A part without the separator stands before the first of the others. -/
theorem splitOn_append_of_not_mem {sep : Char} {l xs first : Str} {rest : List Str} (h : sep ∉ l)
    (hsplit : xs.splitOn sep = first :: rest) : (l ++ xs).splitOn sep = (l ++ first) :: rest := by
  induction l with
  | nil => exact hsplit
  | cons c l ih =>
    obtain ⟨hc, hl⟩ := not_or.mp (mt List.mem_cons.mpr h)
    rw [List.cons_append, List.splitOn_cons_eq_if_modifyHead, if_neg (by simpa using Ne.symm hc),
      ih hl]
    rfl

/-- A tag ends at the first `>`, and the text behind it goes on to the next tag. -/
theorem splitOn_tag {tag xs first : Str} {rest : List Str} (htag : '<' ∉ tag)
    (hsplit : xs.splitOn '<' = first :: rest) :
    ('<' :: (tag ++ '>' :: xs)).splitOn '<' = [] :: (tag ++ '>' :: first) :: rest := by
  have hend : '<' ∉ tag ++ ['>'] := by simp [htag]
  have htext : tag ++ '>' :: xs = tag ++ ['>'] ++ xs := by simp
  rw [List.splitOn_cons_eq_if_modifyHead, if_pos (by simp), htext,
    splitOn_append_of_not_mem hend hsplit]
  simp

theorem readPart_tag {tag text : Str} {event : Event} (htag : '>' ∉ tag)
    (hread : readTag tag = some event) :
    readPart (tag ++ '>' :: text) = some (event :: textEvents (unescape text)) := by
  rw [readPart, Str.splitOnce_append htag, Option.bind_some]
  dsimp only
  rw [hread]
  rfl

/-- The marks of tags are not in them. -/
theorem not_mem_startTag (hescape : Escapes escape) {name : Str} {attributes : List (Str × Str)}
    (hname : IsName name) (h : ∀ pair ∈ attributes, IsName pair.1) {c : Char} (hc : c = '<' ∨ c = '>') :
    c ∉ startTag escape name attributes := by
  have hmark : (c.isAlphanum || c == '-') = false ∧ c ≠ ' ' ∧ c ≠ '=' ∧ c ≠ '"' := by
    rcases hc with rfl | rfl <;> decide
  have hescape : ∀ text, c ∉ escape text := fun text =>
    hescape.not_mem (hc.imp_right .inl) text
  intro hmem
  rcases List.mem_append.mp hmem with hmem | hmem
  · exact hname.not_mem hmark.1 hmem
  · obtain ⟨pair, hpair, hmem⟩ := List.mem_flatMap.mp hmem
    have hkey := (h pair hpair).not_mem hmark.1
    simp [renderAttribute, hkey, hescape pair.2, hmark] at hmem

/-- What the parts of a rendered text are read as. -/
theorem exists_splitOn_render (hescape : Escapes escape) {events : List Event}
    (h : ∀ event ∈ events, event.WellFormed) :
    ∃ first rest, (render escape events).splitOn '<' = first :: rest ∧
      unescape first = (merged events).1 ∧ readParts rest = some (merged events).2 := by
  induction events with
  | nil => exact ⟨[], [], rfl, rfl, rfl⟩
  | cons event events ih =>
    obtain ⟨hevent, hevents⟩ := List.forall_mem_cons.mp h
    obtain ⟨first, rest, hsplit, hfirst, hrest⟩ := ih hevents
    have hrender : render escape (event :: events) =
        renderEvent escape event ++ render escape events := rfl
    -- a tag begins a part of its own, a text belongs to the part before it
    have hpart : ∀ {tag : Str} {event' : Event}, '<' ∉ tag → '>' ∉ tag → readTag tag = some event' →
        ('<' :: (tag ++ '>' :: render escape events)).splitOn '<' =
            [] :: (tag ++ '>' :: first) :: rest ∧
          readParts ((tag ++ '>' :: first) :: rest) =
            some (event' :: (textEvents (merged events).1 ++ (merged events).2)) := by
      intro tag event' hopen hclose hread
      refine ⟨splitOn_tag hopen hsplit, ?_⟩
      rw [readParts, readPart_tag hclose hread, hrest, hfirst]
      rfl
    rw [hrender]
    cases event with
    | text text =>
      refine ⟨escape text ++ first, rest,
        splitOn_append_of_not_mem (hescape.not_mem (.inl rfl) text) hsplit, ?_, hrest⟩
      rw [hescape.unescape_append, hfirst]
      rfl
    | start name attributes =>
      obtain ⟨hname, hattributes⟩ := hevent
      obtain ⟨hsplit', hread⟩ := hpart (not_mem_startTag hescape hname hattributes (.inl rfl))
        (not_mem_startTag hescape hname hattributes (.inr rfl))
        (readTag_startTag hescape hname hattributes)
      have htag : renderEvent escape (.start name attributes) ++ render escape events =
          '<' :: (startTag escape name attributes ++ '>' :: render escape events) := by
        simp [renderEvent]
      exact ⟨[], _, htag ▸ hsplit', rfl, hread⟩
    | stop name =>
      have hname : IsName name := hevent
      obtain ⟨hsplit', hread⟩ := @hpart ('/' :: name) (.stop name)
        (by simp [hname.not_mem (c := '<') (by decide)])
        (by simp [hname.not_mem (c := '>') (by decide)]) (readTag_stop name)
      have htag : renderEvent escape (.stop name) ++ render escape events =
          '<' :: ('/' :: name ++ '>' :: render escape events) := by
        simp [renderEvent]
      exact ⟨[], _, htag ▸ hsplit', rfl, hread⟩

/-- Rendered events are read back, whatever their texts and values are. -/
theorem parse_render (hescape : Escapes escape) {events : List Event}
    (h : ∀ event ∈ events, event.WellFormed) :
    parse (render escape events) = some (merge events) := by
  obtain ⟨first, rest, hsplit, hfirst, hrest⟩ := exists_splitOn_render hescape h
  rw [parse, hsplit]
  dsimp only
  rw [hrest, hfirst]
  rfl

end RoundTrip

/-! ## Events one by one -/

section Fold

variable {σ : Type} {f : σ → Event → Option σ}

theorem foldlM_textEvents (hnil : ∀ s, f s (.text []) = some s) (text : Str) (rest : List Event)
    (s : σ) :
    (textEvents text ++ rest).foldlM f s = (f s (.text text)).bind (rest.foldlM f ·) := by
  rw [textEvents]
  split
  · rename_i htext
    rw [htext, hnil]
    rfl
  · rfl

/-- What takes a text in pieces as it takes it whole does not see whether texts
    were put together. -/
theorem foldlM_merge (hnil : ∀ s, f s (.text []) = some s)
    (happend : ∀ s t u, f s (.text (t ++ u)) = (f s (.text t)).bind (f · (.text u)))
    (events : List Event) (s : σ) : (merge events).foldlM f s = events.foldlM f s := by
  induction events generalizing s with
  | nil => rfl
  | cons event events ih =>
    have hrest : ∀ s, (f s (.text (merged events).1)).bind ((merged events).2.foldlM f ·) =
        events.foldlM f s := fun s => by
      rw [← foldlM_textEvents hnil]
      exact ih s
    cases event with
    | text text =>
      rw [merge, merged, foldlM_textEvents hnil, happend, Option.bind_assoc]
      exact Option.bind_congr fun t _ => hrest t
    | start name attributes => exact Option.bind_congr fun t _ => ih t
    | stop name => exact Option.bind_congr fun t _ => ih t

end Fold

end Markup
