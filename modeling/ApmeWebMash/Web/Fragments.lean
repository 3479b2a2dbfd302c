-- SUMMARY: The responses of `create_item` and `items_fragment`: what is read off them after any run.
import ApmeWebMash.Base.Markup
import ApmeWebMash.Web.RecordStore

/-! # Fragments

The records go out as markup, with titles and summaries in it that anyone may
have sent. `maud` escapes them. A reader takes the list off a response, tag by tag.
Whatever the titles are, it finds the records that were pushed before the
response was made, and no others. -/

namespace Web

open Markup (Event)

/-! ## The list of records -/

def ulTag : Str := "ul"

def liTag : Str := "li"

def strongTag : Str := "strong"

def pTag : Str := "p"

def idAttribute : Str := "data-id"

def itemEvents (uuid : UuidCrate) (item : Item) : List Event :=
  [.start liTag [(idAttribute, uuid.display item.id)],
    .start strongTag [], .text item.title, .stop strongTag,
    .start pTag [], .text item.summary, .stop pTag, .stop liTag]

def listEvents (uuid : UuidCrate) (items : List Item) : List Event :=
  .start ulTag [] :: items.flatMap (itemEvents uuid) ++ [.stop ulTag]

/-- `items_fragment`: the body of its response. -/
def itemsFragment (maud : MaudCrate) (uuid : UuidCrate) (items : List Item) : Str :=
  maud.html (listEvents uuid items)

def titleRequired : Str := "<p role=alert>title is required</p>"

/-- `create_item`: the body of its response, when there is one. -/
def Request.body (maud : MaudCrate) (uuid : UuidCrate) (request : Request) : Option Str :=
  match request.phase with
  | .rejected => some titleRequired
  | .answered items => some (itemsFragment maud uuid items)
  | _ => none

/-! ## Reading it -/

/-- A record as it is shown. -/
structure Row where
  id : Str
  title : Str
  summary : Str
deriving DecidableEq

/-- Where a reader of the list is. -/
inductive Place where
  | before
  | list
  | row (id : Str)
  | inTitle (id title : Str)
  | titled (id title : Str)
  | inSummary (id title summary : Str)
  | done (row : Row)
  | after
deriving DecidableEq

structure Reading where
  rows : List Row
  place : Place
deriving DecidableEq

/-- The only attribute of a record is its identifier. -/
def readId (attributes : List (Str × Str)) : Option Str :=
  match attributes with
  | [(name, id)] => if name = idAttribute then some id else none
  | _ => none

/-- The place behind a tag that opens. -/
def Place.enter (place : Place) (name : Str) (attributes : List (Str × Str)) : Option Place :=
  match place with
  | .before => if name = ulTag ∧ attributes = [] then some .list else none
  | .list => if name = liTag then (readId attributes).map .row else none
  | .row id => if name = strongTag ∧ attributes = [] then some (.inTitle id []) else none
  | .titled id title => if name = pTag ∧ attributes = [] then some (.inSummary id title []) else none
  | _ => none

/-- What is read of an event. Between tags there is no text. -/
def Reading.event (reading : Reading) : Event → Option Reading
  | .start name attributes =>
    (reading.place.enter name attributes).map fun place => { reading with place }
  | .stop name =>
    match reading.place with
    | .inTitle id title =>
      if name = strongTag then some { reading with place := .titled id title } else none
    | .inSummary id title summary =>
      if name = pTag then some { reading with place := .done ⟨id, title, summary⟩ } else none
    | .done row => if name = liTag then some ⟨reading.rows ++ [row], .list⟩ else none
    | .list => if name = ulTag then some { reading with place := .after } else none
    | _ => none
  | .text text =>
    match reading.place with
    | .inTitle id title => some { reading with place := .inTitle id (title ++ text) }
    | .inSummary id title summary => some { reading with place := .inSummary id title (summary ++ text) }
    | _ => if text = [] then some reading else none

/-- The rows of a list, where a text is one. -/
def readFragment (text : Str) : Option (List Row) := do
  let events ← Markup.parse text
  let reading ← events.foldlM Reading.event ⟨[], .before⟩
  if reading.place = .after then some reading.rows else none

/-! ## What is shown is read -/

variable {maud : MaudCrate} {uuid : UuidCrate} {w : World} {ls : List Label}

def Item.row (uuid : UuidCrate) (item : Item) : Row := ⟨uuid.display item.id, item.title, item.summary⟩

theorem Reading.event_text_nil (reading : Reading) : reading.event (.text []) = some reading := by
  obtain ⟨rows, place⟩ := reading
  cases place <;> simp [Reading.event]

/-- Texts are taken in pieces as they are taken whole. -/
theorem Reading.event_text_append (reading : Reading) (text text' : Str) :
    reading.event (.text (text ++ text')) =
      (reading.event (.text text)).bind (·.event (.text text')) := by
  obtain ⟨rows, place⟩ := reading
  cases place with
  | inTitle id title | inSummary id title summary => simp [Reading.event]
  | before | list | row _ | titled _ _ | done _ | after =>
    by_cases htext : text = []
    · simp [Reading.event, htext]
    · simp [Reading.event, htext]

theorem foldlM_itemEvents (item : Item) (rows : List Row) :
    (itemEvents uuid item).foldlM Reading.event ⟨rows, .list⟩ =
      some ⟨rows ++ [item.row uuid], .list⟩ := by
  simp [itemEvents, Reading.event, Place.enter, readId, Item.row]

theorem foldlM_flatMap_itemEvents (items : List Item) (rows : List Row) :
    (items.flatMap (itemEvents uuid)).foldlM Reading.event ⟨rows, .list⟩ =
      some ⟨rows ++ items.map (Item.row uuid), .list⟩ := by
  induction items generalizing rows with
  | nil => simp
  | cons item items ih =>
    rw [List.flatMap_cons, List.foldlM_append, foldlM_itemEvents]
    simp only [Option.bind_eq_bind, Option.bind_some, ih, List.append_assoc]
    rfl

theorem wellFormed_listEvents (items : List Item) :
    ∀ event ∈ listEvents uuid items, event.WellFormed := by
  have hchars : [ulTag, liTag, strongTag, pTag, idAttribute].all fun name =>
      !name.isEmpty && name.all fun c => c.isAlphanum || c == '-' := by decide
  have htags : ∀ name ∈ [ulTag, liTag, strongTag, pTag, idAttribute], Markup.IsName name := by
    intro name hname
    obtain ⟨hempty, hall⟩ := Bool.and_eq_true_iff.mp (List.all_eq_true.mp hchars name hname)
    exact ⟨by simpa using hempty, List.all_eq_true.mp hall⟩
  have hitem : ∀ item, ∀ event ∈ itemEvents uuid item, event.WellFormed := by
    intro item event hevent
    simp only [itemEvents, List.mem_cons, List.not_mem_nil, or_false] at hevent
    rcases hevent with rfl | rfl | rfl | rfl | rfl | rfl | rfl | rfl <;>
      simp [Event.WellFormed, htags]
  intro event hevent
  rcases List.mem_append.mp hevent with hevent | hevent
  · rcases List.mem_cons.mp hevent with rfl | hevent
    · simp [Event.WellFormed, htags]
    · obtain ⟨item, -, hevent⟩ := List.mem_flatMap.mp hevent
      exact hitem item event hevent
  · obtain rfl := List.mem_singleton.mp hevent
    simp [Event.WellFormed, htags]

/-- No title and no summary can be anything else than text. -/
theorem readFragment_itemsFragment (hwrites : maud.WritesTemplates) (hescapes : maud.EscapesSplices)
    (items : List Item) :
    readFragment (itemsFragment maud uuid items) = some (items.map (Item.row uuid)) := by
  have hfold : (listEvents uuid items).foldlM Reading.event ⟨[], .before⟩ =
      some ⟨items.map (Item.row uuid), .after⟩ := by
    have hstart : Reading.event ⟨[], .before⟩ (.start ulTag []) = some ⟨[], .list⟩ := by
      simp [Reading.event, Place.enter]
    rw [listEvents, List.cons_append, List.foldlM_cons, hstart]
    simp only [Option.bind_eq_bind, Option.bind_some, List.foldlM_append, foldlM_flatMap_itemEvents]
    rfl
  have hwellFormed := @wellFormed_listEvents uuid items
  rw [readFragment, itemsFragment, hwrites _ hwellFormed, Markup.parse_render hescapes hwellFormed]
  simp only [Option.bind_eq_bind, Option.bind_some]
  rw [Markup.foldlM_merge Reading.event_text_nil Reading.event_text_append, hfold]
  rfl

/-! ## Responses of a run -/

/-- The records that a run has pushed, as they are shown: with the outer white
    space of the title taken off, and the summary cut. -/
def shown (uuid : UuidCrate) (ls : List Label) : List Row :=
  (pushed ls).map fun (input, id) =>
    ⟨uuid.display id, Str.trim input.title, input.summary.take 4000⟩

theorem RunsTo.rows_eq (h : RunsTo ls w) : w.items.map (Item.row uuid) = shown uuid ls := by
  -- the rows of what the pushes made, each of which made an item
  have hrows : ∀ (items : List Item) (pushes : List (NewItem × Uuid)),
      (items.map some = pushes.map fun (input, id) => input.item id) →
      items.map (Item.row uuid) = pushes.map fun (input, id) =>
        ⟨uuid.display id, Str.trim input.title, input.summary.take 4000⟩ := by
    intro items
    induction items with
    | nil =>
      intro pushes heq
      rw [List.map_eq_nil_iff.mp heq.symm]
      rfl
    | cons item items ih =>
      intro pushes heq
      cases pushes with
      | nil => cases heq
      | cons push pushes =>
        obtain ⟨hitem, hitems⟩ := List.cons.inj heq
        rw [List.map_cons, List.map_cons, ih pushes hitems]
        obtain ⟨-, rfl⟩ := NewItem.item_eq_some.mp hitem.symm
        rfl
  exact hrows _ _ h.items_eq

/-- An answer is an earlier one, or that of the step. -/
theorem answered_step {l : Label} {w' : World} {i : Nat} {input : NewItem} {items : List Item}
    (h : Steps w l w') (hget : w'.requests[i]? = some ⟨input, .answered items⟩) :
    w.requests[i]? = some ⟨input, .answered items⟩ ∨
      l = .answer i ∧ w.items = items ∧ w.requests[i]? = some ⟨input, .sent⟩ := by
  -- a request that went on to another phase is not the answered one
  have hother : ∀ {k : Nat} {input' : NewItem} {phase phase' : Phase},
      w.requests[k]? = some ⟨input', phase⟩ → (∀ items, phase' ≠ .answered items) →
      (w.setPhase k ⟨input', phase⟩ phase').requests[i]? = some ⟨input, .answered items⟩ →
      w.requests[i]? = some ⟨input, .answered items⟩ := by
    intro k input' phase phase' hk hphase hget
    rw [World.requests_setPhase hk] at hget
    split at hget
    · exact absurd (Request.mk.inj (Option.some.inj hget)).2 (hphase items)
    · exact hget
  cases step_cases h with
  | receive _ =>
    rw [List.getElem?_append] at hget
    split at hget
    · exact .inl hget
    · obtain heq := List.mem_singleton.mp (List.mem_of_getElem? hget)
      cases heq
  | reject hk _ => exact .inl (hother hk (by simp) hget)
  | push hk _ => exact .inl (hother hk (by simp) hget)
  | send hk => exact .inl (hother hk (by simp) hget)
  | answer hk =>
    rw [World.requests_setPhase hk] at hget
    split at hget
    · rename_i heq
      subst heq
      obtain ⟨rfl, hitems⟩ := Request.mk.inj (Option.some.inj hget)
      exact .inr ⟨rfl, Phase.answered.inj hitems, hk⟩
    · exact .inl hget
  | subscribe => exact .inl hget
  | loop _ _ => exact .inl hget

/-- Nobody answers with other items than those of the moment. -/
theorem RunsTo.answered {i : Nat} {input : NewItem} {items : List Item} (h : RunsTo ls w)
    (hget : w.requests[i]? = some ⟨input, .answered items⟩) :
    ∃ before after w', ls = before ++ .answer i :: after ∧ RunsTo before w' ∧
      w'.items = items ∧ w'.requests[i]? = some ⟨input, .sent⟩ := by
  induction h with
  | nil => simp [World.initial] at hget
  | @snoc ls w w' l hrun hstep ih =>
    rcases answered_step hstep hget with hget | ⟨rfl, hitems, hsent⟩
    · obtain ⟨before, after, v, rfl, hv⟩ := ih hget
      exact ⟨before, after ++ [l], v, by simp, hv⟩
    · exact ⟨ls, [], w, rfl, hrun, hitems, hsent⟩

/-- A request that has sent has pushed its record before. -/
theorem RunsTo.push_mem {i : Nat} {input : NewItem} (h : RunsTo ls w)
    (hget : w.requests[i]? = some ⟨input, .sent⟩) : ∃ id, .push i input id ∈ ls := by
  have heffects : effects i ls = [.push input, .send] := by
    rw [← h.effects_eq, World.effects, hget]
    rfl
  have hpush : .push input ∈ effects i ls := by
    rw [heffects]
    exact List.mem_cons_self
  obtain ⟨l, hl, hmem⟩ := List.mem_flatMap.mp hpush
  cases l with
  | push k input' id =>
    rw [Label.effects] at hmem
    split at hmem
    · rename_i heq
      subst heq
      obtain rfl := Effect.push.inj (List.mem_singleton.mp hmem)
      exact ⟨id, hl⟩
    · cases hmem
  | send k =>
    rw [Label.effects] at hmem
    split at hmem
    · cases List.mem_singleton.mp hmem
    · cases hmem
  | receive _ | reject _ | answer _ | subscribe _ | loop _ _ => cases hmem

/-- At any moment, the list is that of the pushes so far. -/
theorem RunsTo.readFragment (h : RunsTo ls w) (hwrites : maud.WritesTemplates)
    (hescapes : maud.EscapesSplices) :
    Web.readFragment (itemsFragment maud uuid w.items) = some (shown uuid ls) := by
  rw [readFragment_itemsFragment hwrites hescapes, h.rows_eq]

theorem readFragment_titleRequired : readFragment titleRequired = none := by decide +kernel

/-- After any run, every response reads as it should: the answer to a blank title
    is no list, and any other is the list of the records that were pushed before
    it was made, in their order, its own among them. -/
theorem responses_read {i : Nat} {request : Request} {body : Str} (hwrites : maud.WritesTemplates)
    (hescapes : maud.EscapesSplices) (h : RunsTo ls w) (hget : w.requests[i]? = some request)
    (hbody : request.body maud uuid = some body) :
    if Str.trim request.input.title = [] then readFragment body = none
    else ∃ before after id, ls = before ++ .answer i :: after ∧
      .push i request.input id ∈ before ∧ readFragment body = some (shown uuid before) := by
  obtain ⟨input, phase⟩ := request
  have hdecided := h.decided _ (List.mem_of_getElem? hget)
  cases phase with
  | received | pushed | sent => cases hbody
  | rejected =>
    obtain rfl := Option.some.inj hbody
    have hblank : Str.trim input.title = [] := by simpa using hdecided (by simp)
    rw [if_pos hblank]
    exact readFragment_titleRequired
  | answered items =>
    obtain rfl := Option.some.inj hbody
    have htitle : Str.trim input.title ≠ [] := (hdecided (by simp)).mp (by simp)
    obtain ⟨before, after, w', hls, hrun, rfl, hsent⟩ := h.answered hget
    obtain ⟨id, hpush⟩ := hrun.push_mem hsent
    rw [if_neg htitle]
    exact ⟨before, after, id, hls, hpush, hrun.readFragment hwrites hescapes⟩

/-- A title that looks like the end of the list and another record. -/
theorem responses_read_markup :
    let title : Str := "</strong></li></ul><li data-id=\"0\">& co"
    let input : NewItem := ⟨title, []⟩
    let items : List Item := [⟨7, title, []⟩]
    if Str.trim title = [] then Web.readFragment (itemsFragment .references .hyphenated items) = none
    else ∃ before after id,
      [.receive [("title", title)], .push 0 input 7, .send 0, .answer 0] =
        before ++ .answer 0 :: after ∧
      .push 0 input id ∈ before ∧
      Web.readFragment (itemsFragment .references .hyphenated items) =
        some (shown .hyphenated before) := by
  intro title input items
  have hrun : RunsTo [.receive [("title", title)], .push 0 input 7, .send 0, .answer 0]
      ⟨items, .empty, [⟨input, .answered items⟩], []⟩ := Runs.of_foldlM rfl
  have hget : ([⟨input, .answered items⟩] : List Request)[0]? = some ⟨input, .answered items⟩ := rfl
  exact responses_read MaudCrate.references_writesTemplates MaudCrate.references_escapesSplices hrun
    hget rfl

end Web
