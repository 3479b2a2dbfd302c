-- SUMMARY: When the Fn adapter takes the path of a request URL for its path, and when its query or fragment.
import ApmeWebMash.Base.Separator
import ApmeWebMash.OracleFn.Adapter

/-! # Paths of request URLs

`request_path` looks for the scheme and for the first slash before it cuts off
the query and the fragment. So a URL with an authority but without a path, and
a URL with `://` behind its path, may have their path taken from the query. -/

namespace OracleFn

/-! ## Request URLs -/

/-- The text ends, or a query or a fragment begins. -/
def EndsPath (text : Str) : Prop := ∀ c ∈ text.head?, c = '?' ∨ c = '#'

/-- The path, the query and the fragment of a URL, with their delimiters. -/
structure UrlTail where
  path : Str
  query : Str
  fragment : Str
  path_head : ∀ c ∈ path.head?, c = '/'
  path_chars : ∀ c ∈ path, c ≠ '?' ∧ c ≠ '#'
  query_head : ∀ c ∈ query.head?, c = '?'
  query_chars : '#' ∉ query
  fragment_head : ∀ c ∈ fragment.head?, c = '#'
  no_space : ∀ c ∈ path ++ query ++ fragment, Str.isWhitespace c = false

/-- The tail as it is written. -/
def UrlTail.text (tail : UrlTail) : Str := tail.path ++ tail.query ++ tail.fragment

/-- `scheme://authority`, and a tail. -/
structure AbsoluteUrl where
  scheme : Str
  authority : Str
  tail : UrlTail
  scheme_head : ∃ c ∈ scheme.head?, c.isAlpha
  scheme_chars : ∀ c ∈ scheme, c.isAlphanum || c == '+' || c == '-' || c == '.'
  authority_chars : ∀ c ∈ authority, c ≠ '/' ∧ c ≠ '?' ∧ c ≠ '#' ∧ Str.isWhitespace c = false

def AbsoluteUrl.text (url : AbsoluteUrl) : Str :=
  url.scheme ++ "://" ++ (url.authority ++ url.tail.text)

/-- The path of a URL: the root, where it is left out. -/
def AbsoluteUrl.path (url : AbsoluteUrl) : Str :=
  if url.tail.path = [] then "/" else url.tail.path

/-- A path, and what follows it. -/
structure OriginUrl where
  tail : UrlTail
  path_ne_nil : tail.path ≠ []

/-- Behind a part without a slash, the text is the path and what ends a path;
    a text without a slash stands for the root. -/
def PathBehind (path text : Str) : Prop :=
  ∃ host : Str, '/' ∉ host ∧
    ((path = "/" ∧ text = host) ∨ ∃ rest, text = host ++ (path ++ rest) ∧ EndsPath rest)

/-- A URL in one of the two forms in which a request carries it. -/
inductive RequestUrl where
  | absolute (url : AbsoluteUrl)
  | origin (url : OriginUrl)

def RequestUrl.text : RequestUrl → Str
  | .absolute url => url.text
  | .origin url => url.tail.text

def RequestUrl.path : RequestUrl → Str
  | .absolute url => url.path
  | .origin url => url.tail.path

/-- Nothing that looks like a path stands where the URL has none, and what looks
    like a scheme has the path of the URL behind it. -/
def RequestUrl.Unmistakable : RequestUrl → Prop
  | .absolute url => url.tail.path ≠ [] ∨ PathBehind "/" (url.tail.query ++ url.tail.fragment)
  | .origin url => ∀ before behind, Separator.FirstCut "://" url.tail.text before behind →
    PathBehind url.tail.path behind

/-! ## Cutting -/

variable {path text : Str}

theorem afterFirst_eq {pattern : Str} (h : pattern ≠ []) (text : Str) :
    afterFirst pattern text = (Separator.cutFirst pattern text).map Prod.snd := by
  induction text with
  | nil => rw [afterFirst, Separator.cutFirst, if_neg h, Option.map_none]
  | cons c text ih =>
    rw [afterFirst, Separator.cutFirst]
    split
    · rfl
    · rw [ih, Option.map_map]
      rfl

theorem mem_of_afterFirst {pattern authority : Str} {c : Char} (hne : pattern ≠ [])
    (h : afterFirst pattern text = some authority) (hc : c ∈ authority) : c ∈ text := by
  rw [afterFirst_eq hne, Option.map_eq_some_iff] at h
  obtain ⟨⟨before, behind⟩, hcut, rfl⟩ := h
  rw [Separator.cutFirst_eq_some hcut]
  exact List.mem_append_right _ hc

/-- The text before its query and its fragment. -/
def beforeQuery (text : Str) : Str := text.takeWhile fun c => c ≠ '?' && c ≠ '#'

/-- A path is what is cut off where a path ends. -/
theorem beforeQuery_eq_iff (hpath : ∀ c ∈ path, c ≠ '?' ∧ c ≠ '#') :
    beforeQuery text = path ↔ ∃ rest, text = path ++ rest ∧ EndsPath rest := by
  rw [beforeQuery]
  constructor
  · rintro rfl
    refine ⟨text.dropWhile fun c => c ≠ '?' && c ≠ '#', List.takeWhile_append_dropWhile.symm, ?_⟩
    intro c hc
    have hhead := List.head?_dropWhile_not (fun c => c ≠ '?' && c ≠ '#') text
    rw [Option.mem_def.mp hc] at hhead
    simpa [or_iff_not_imp_left] using hhead
  · rintro ⟨rest, rfl, hrest⟩
    have hnil : rest.takeWhile (fun c => c ≠ '?' && c ≠ '#') = [] := by
      cases rest with
      | nil => rfl
      | cons c rest =>
        refine List.takeWhile_cons_of_neg ?_
        rcases hrest c rfl with rfl | rfl <;> decide
    rw [List.takeWhile_append_of_pos fun c hc => by simp [hpath c hc], hnil, List.append_nil]

/-- What is passed over has no slash. -/
theorem dropWhile_slash_append {host : Str} (h : '/' ∉ host) (text : Str) :
    (host ++ text).dropWhile (· ≠ '/') = text.dropWhile (· ≠ '/') :=
  List.dropWhile_append_of_pos fun c hc => by
    simpa using fun heq : c = '/' => h (heq ▸ hc)

/-- From the first slash on, the text is the path and what ends a path. -/
theorem pathBehind_iff (hhead : path.head? = some '/') :
    PathBehind path text ↔
      (path = "/" ∧ text.dropWhile (· ≠ '/') = []) ∨
        ∃ rest, text.dropWhile (· ≠ '/') = path ++ rest ∧ EndsPath rest := by
  constructor
  · rintro ⟨host, hhost, ⟨hroot, rfl⟩ | ⟨rest, rfl, hrest⟩⟩
    · refine .inl ⟨hroot, ?_⟩
      have hdrop := dropWhile_slash_append hhost []
      rwa [List.append_nil] at hdrop
    · refine .inr ⟨rest, ?_, hrest⟩
      obtain ⟨tail, rfl⟩ := List.head?_eq_some_iff.mp hhead
      rw [dropWhile_slash_append hhost]
      exact List.dropWhile_cons_of_neg (by decide)
  · have hhost : '/' ∉ text.takeWhile (· ≠ '/') := fun hmem => by
      simpa using List.mem_takeWhile_imp hmem
    have htext : text.takeWhile (· ≠ '/') ++ text.dropWhile (· ≠ '/') = text :=
      List.takeWhile_append_dropWhile
    rintro (⟨hroot, hnil⟩ | ⟨rest, heq, hrest⟩)
    · rw [hnil, List.append_nil] at htext
      exact ⟨_, hhost, .inl ⟨hroot, htext.symm⟩⟩
    · rw [heq] at htext
      exact ⟨_, hhost, .inr ⟨rest, htext.symm, hrest⟩⟩

/-! ## What the adapter takes -/

/-- The text that the adapter cuts. -/
def pathAndQuery (text : Str) : Str :=
  match afterFirst "://" text with
  | some authority =>
    if authority.dropWhile (· ≠ '/') = [] then "/" else authority.dropWhile (· ≠ '/')
  | none => text

theorem pathAndQuery_of_none (hcut : afterFirst "://" text = none) : pathAndQuery text = text := by
  rw [pathAndQuery, hcut]

theorem pathAndQuery_of_some {authority : Str} (hcut : afterFirst "://" text = some authority) :
    pathAndQuery text =
      if authority.dropWhile (· ≠ '/') = [] then ("/" : Str)
      else authority.dropWhile (· ≠ '/') := by
  rw [pathAndQuery, hcut]

/-- What begins with a slash is cut where its path ends, and left as it is. -/
theorem cut_of_slash (hspace : ∀ c ∈ text, Str.isWhitespace c = false)
    (hhead : text.head? = some '/') :
    (let path : Str := Str.trim (text.takeWhile fun c => c ≠ '?' && c ≠ '#')
      if path = [] then ("/" : Str) else if Str.startsWith path "/" then path else '/' :: path) =
      beforeQuery text := by
  obtain ⟨rest, rfl⟩ := List.head?_eq_some_iff.mp hhead
  have hcons : beforeQuery ('/' :: rest) = '/' :: beforeQuery rest :=
    List.takeWhile_cons_of_pos (by decide)
  have htrim : Str.trim (beforeQuery ('/' :: rest)) = beforeQuery ('/' :: rest) :=
    Str.trim_eq_self fun c hc => hspace c (List.takeWhile_subset _ hc)
  rw [← beforeQuery, htrim, hcons]
  simp [Str.startsWith]

theorem requestPath_eq (hspace : ∀ c ∈ text, Str.isWhitespace c = false)
    (hhead : (pathAndQuery text).head? = some '/') :
    requestPath text = beforeQuery (pathAndQuery text) := by
  have hspace' : ∀ c ∈ pathAndQuery text, Str.isWhitespace c = false := by
    rw [pathAndQuery]
    split
    · rename_i authority hcut
      split
      · exact Str.forall_mem (by decide)
      · exact fun c hc =>
          hspace c (mem_of_afterFirst (by decide) hcut ((List.dropWhile_suffix _).subset hc))
    · exact hspace
  rw [requestPath, Str.trim_eq_self hspace]
  exact cut_of_slash hspace' hhead

theorem head?_dropWhile_slash (h : text.dropWhile (· ≠ '/') ≠ []) :
    (text.dropWhile (· ≠ '/')).head? = some '/' := by
  rw [List.head?_eq_some_head h]
  simpa using List.head_dropWhile_not (· ≠ '/') h

/-- Behind `://`, what is taken begins with the first slash. -/
theorem requestPath_of_some {authority : Str} (hspace : ∀ c ∈ text, Str.isWhitespace c = false)
    (hcut : afterFirst "://" text = some authority) (hhead : path.head? = some '/')
    (hpath : ∀ c ∈ path, c ≠ '?' ∧ c ≠ '#') :
    requestPath text = path ↔ PathBehind path authority := by
  have hpq := pathAndQuery_of_some hcut
  rw [pathBehind_iff hhead]
  by_cases hnil : authority.dropWhile (· ≠ '/') = []
  · have hroot : beforeQuery "/" = ("/" : Str) := by decide
    rw [if_pos hnil] at hpq
    rw [requestPath_eq hspace (by rw [hpq]; rfl), hpq, hroot, hnil]
    constructor
    · rintro rfl
      exact .inl ⟨rfl, rfl⟩
    · rintro (⟨rfl, -⟩ | ⟨rest, heq, -⟩)
      · rfl
      · rw [(List.append_eq_nil_iff.mp heq.symm).1] at hhead
        cases hhead
  · rw [if_neg hnil] at hpq
    rw [requestPath_eq hspace (hpq ▸ head?_dropWhile_slash hnil), hpq, beforeQuery_eq_iff hpath]
    exact (or_iff_right fun h => hnil h.2).symm

theorem UrlTail.head?_path {tail : UrlTail} (h : tail.path ≠ []) : tail.path.head? = some '/' := by
  have hhead := List.head?_eq_some_head h
  rw [hhead, tail.path_head _ hhead]

/-- The path of a tail is followed by what ends a path. -/
theorem UrlTail.endsPath (tail : UrlTail) : EndsPath (tail.query ++ tail.fragment) := by
  intro c hc
  rw [List.head?_append] at hc
  cases hquery : tail.query.head? with
  | some d =>
    rw [hquery, Option.some_or] at hc
    exact .inl (tail.query_head c (hquery ▸ hc))
  | none =>
    rw [hquery, Option.none_or] at hc
    exact .inr (tail.fragment_head c hc)

theorem AbsoluteUrl.mem_scheme {url : AbsoluteUrl} {c : Char} (hc : c ∈ url.scheme) :
    Str.isWhitespace c = false := by
  have hchar := url.scheme_chars c hc
  rw [Bool.or_eq_true, Bool.or_eq_true, Bool.or_eq_true, beq_iff_eq, beq_iff_eq, beq_iff_eq] at hchar
  rcases hchar with ((halnum | rfl) | rfl) | rfl
  · exact Str.isWhitespace_eq_false_of_isAlphanum halnum
  all_goals decide

theorem AbsoluteUrl.no_space (url : AbsoluteUrl) : ∀ c ∈ url.text, Str.isWhitespace c = false := by
  intro c hc
  rcases List.mem_append.mp hc with hc | hc
  · rcases List.mem_append.mp hc with hc | hc
    · exact AbsoluteUrl.mem_scheme hc
    · have hmarks : ∀ c ∈ ("://" : Str), Str.isWhitespace c = false := Str.forall_mem (by decide)
      exact hmarks c hc
  · rcases List.mem_append.mp hc with hc | hc
    · exact (url.authority_chars c hc).2.2.2
    · exact url.tail.no_space c hc

theorem AbsoluteUrl.afterFirst_text (url : AbsoluteUrl) :
    afterFirst "://" url.text = some (url.authority ++ url.tail.text) := by
  have hscheme : ':' ∉ url.scheme := fun hmem => absurd (url.scheme_chars _ hmem) (by decide)
  rw [afterFirst_eq (by decide), AbsoluteUrl.text]
  exact congrArg (Option.map Prod.snd) (Separator.cutFirst_append hscheme _)

theorem AbsoluteUrl.path_head (url : AbsoluteUrl) : url.path.head? = some '/' := by
  rw [AbsoluteUrl.path]
  split
  · rfl
  · exact UrlTail.head?_path ‹_›

theorem AbsoluteUrl.path_chars (url : AbsoluteUrl) : ∀ c ∈ url.path, c ≠ '?' ∧ c ≠ '#' := by
  rw [AbsoluteUrl.path]
  split
  · exact Str.forall_mem (by decide)
  · exact url.tail.path_chars

/-- An absolute URL with a path is served under it. One without a path is served
    under the root, unless its query or fragment has a slash that something
    other than `?` or `#` follows. -/
theorem AbsoluteUrl.requestPath_text (url : AbsoluteUrl) :
    requestPath url.text = url.path ↔
      url.tail.path ≠ [] ∨ PathBehind "/" (url.tail.query ++ url.tail.fragment) := by
  have hslash : '/' ∉ url.authority := fun hmem => (url.authority_chars _ hmem).1 rfl
  rw [requestPath_of_some url.no_space url.afterFirst_text url.path_head url.path_chars]
  by_cases hnil : url.tail.path = []
  · rw [AbsoluteUrl.path, if_pos hnil, UrlTail.text, hnil, List.nil_append, pathBehind_iff rfl,
      pathBehind_iff rfl, dropWhile_slash_append hslash]
    exact (or_iff_right fun h => h rfl).symm
  · refine iff_of_true ⟨url.authority, hslash, .inr ⟨_, ?_, url.tail.endsPath⟩⟩ (.inl hnil)
    rw [AbsoluteUrl.path, if_neg hnil, UrlTail.text, List.append_assoc]

/-- A request target is served under its path, unless it has `://` in it. -/
theorem OriginUrl.requestPath_text (url : OriginUrl) :
    requestPath url.tail.text = url.tail.path ↔
      ∀ before behind, Separator.FirstCut "://" url.tail.text before behind →
        PathBehind url.tail.path behind := by
  have hpath := UrlTail.head?_path url.path_ne_nil
  have hspace : ∀ c ∈ url.tail.text, Str.isWhitespace c = false := url.tail.no_space
  have hne : ("://" : Str) ≠ [] := by decide
  have hcut (before behind : Str) : Separator.FirstCut "://" url.tail.text before behind ↔
      Separator.cutFirst "://" url.tail.text = some (before, behind) :=
    (Separator.cutFirst_eq_some_iff hne).symm
  have hafter := afterFirst_eq hne url.tail.text
  simp only [hcut]
  -- a separator anywhere in the text makes it look like an absolute URL
  cases hfirst : Separator.cutFirst "://" url.tail.text with
  | none =>
    rw [hfirst, Option.map_none] at hafter
    have hhead : url.tail.text.head? = some '/' := by
      rw [UrlTail.text, List.append_assoc, List.head?_append, hpath, Option.some_or]
    have hpq := pathAndQuery_of_none hafter
    rw [requestPath_eq hspace (hpq.symm ▸ hhead), hpq, beforeQuery_eq_iff url.tail.path_chars]
    refine iff_of_true ⟨_, ?_, url.tail.endsPath⟩ fun _ _ h => (by cases h)
    rw [UrlTail.text, List.append_assoc]
  | some found =>
    obtain ⟨before, behind⟩ := found
    rw [hfirst, Option.map_some] at hafter
    rw [requestPath_of_some hspace hafter hpath url.tail.path_chars]
    constructor
    · intro hbehind before' behind' heq
      rwa [← (Prod.mk.inj (Option.some.inj heq)).2]
    · intro hall
      exact hall before behind rfl

/-- When the adapter takes the path of a URL for its path. -/
theorem requestPath_iff (url : RequestUrl) : requestPath url.text = url.path ↔ url.Unmistakable := by
  cases url with
  | absolute url => exact url.requestPath_text
  | origin url => exact url.requestPath_text

/-- The query decides the route of a URL without a path, and of a target with a
    URL in its query. -/
theorem requestPath_from_query :
    (∃ url : RequestUrl, url.text = ("https://h?x=/evil" : Str) ∧ url.path = ("/" : Str) ∧
      requestPath url.text = "/evil") ∧
    ∃ url : RequestUrl, url.text = ("/a?next=https://x/y" : Str) ∧ url.path = ("/a" : Str) ∧
      requestPath url.text = "/y" := by
  let query : UrlTail := ⟨[], "?x=/evil", [], by simp, Str.forall_mem (by decide),
    fun c hc => (Option.some.inj hc).symm, by decide, by simp, Str.forall_mem (by decide)⟩
  let target : UrlTail := ⟨"/a", "?next=https://x/y", [], fun c hc => (Option.some.inj hc).symm,
    Str.forall_mem (by decide), fun c hc => (Option.some.inj hc).symm, by decide, by simp,
    Str.forall_mem (by decide)⟩
  let absolute : AbsoluteUrl := ⟨"https", "h", query, ⟨'h', rfl, by decide⟩,
    Str.forall_mem (by decide), Str.forall_mem (by decide)⟩
  refine ⟨⟨.absolute absolute, ?_, ?_, ?_⟩, .origin ⟨target, List.cons_ne_nil _ _⟩, ?_, ?_, ?_⟩
  all_goals decide +kernel

end OracleFn
