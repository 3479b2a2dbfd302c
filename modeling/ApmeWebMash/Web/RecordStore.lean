-- SUMMARY: The invariant of the record store over every run, and the title limit that it depends on.
import ApmeWebMash.Web.Items

/-! # The invariant of the record store

After any run the items are those of the accepted requests in the order of their
pushes. What holds of a single item is decided when it is made, since an item is
never touched again: it has a trimmed title and a cut summary, but nothing
limits its title. -/

namespace Web

/-! ## What a run has done -/

/-- What a request does to the shared state. -/
inductive Effect where
  | push (input : NewItem)
  | send
deriving DecidableEq

/-- The request that a step receives. -/
def Label.received : Label → List NewItem
  | .receive fields => (NewItem.ofForm fields).toList
  | _ => []

/-- The item that a step pushes: what it is made of. -/
def Label.pushed : Label → List (NewItem × Uuid)
  | .push _ input id => [(input, id)]
  | _ => []

/-- What a step does for the request at a position. -/
def Label.effects (i : Nat) : Label → List Effect
  | .push k input _ => if k = i then [.push input] else []
  | .send k => if k = i then [.send] else []
  | _ => []

/-- The requests of a run, in the order of their arrival. -/
def received (ls : List Label) : List NewItem := ls.flatMap Label.received

/-- The accepted requests of a run, in the order of their pushes. -/
def pushed (ls : List Label) : List (NewItem × Uuid) := ls.flatMap Label.pushed

/-- What a run has done for the request at a position. -/
def effects (i : Nat) (ls : List Label) : List Effect := ls.flatMap (Label.effects i)

/-- What a request has done, by where it is. -/
def Request.effects (request : Request) : List Effect :=
  match request.phase with
  | .received | .rejected => []
  | .pushed => [.push request.input]
  | .sent | .answered _ => [.push request.input, .send]

/-- The limits that the form declares, and a title without outer white space. -/
structure Item.WithinLimits (item : Item) : Prop where
  trim_title : Str.trim item.title = item.title
  title_pos : 1 ≤ item.title.length
  title_le : item.title.length ≤ 256
  summary_le : item.summary.length ≤ 4000

/-- The invariant of the store: the items are those of the accepted requests, in
    the order of their pushes; a request is accepted exactly when its title is
    not blank, and then pushes once and sends once; a rejected one does nothing;
    and every item is within the limits. -/
structure StoreInvariant (ls : List Label) (w : World) : Prop where
  inputs_eq : w.requests.map Request.input = received ls
  items_eq : w.items.map some = (pushed ls).map fun (input, id) => input.item id
  appended : ∀ ms w', ms <+: ls → RunsTo ms w' → w'.items <+: w.items
  effects_eq : ∀ i request, w.requests[i]? = some request → effects i ls = request.effects
  accepted_iff : ∀ request ∈ w.requests, request.phase ≠ .received →
    (request.phase ≠ .rejected ↔ Str.trim request.input.title ≠ [])
  rejected : ∀ ms i w' w'', ms ++ [.reject i] <+: ls → RunsTo ms w' → Steps w' (.reject i) w'' →
    ∃ requests, w'' = { w' with requests }
  limits : ∀ item ∈ w.items, item.WithinLimits

/-! ## Steps -/

variable {w w' : World} {l : Label} {ls : List Label} {input : NewItem} {id : Uuid} {item : Item}

@[simp] theorem pushed_append (ls ms : List Label) : pushed (ls ++ ms) = pushed ls ++ pushed ms :=
  List.flatMap_append

theorem pushed_cons (l : Label) (ls : List Label) :
    pushed (l :: ls) = l.pushed ++ pushed ls := List.flatMap_cons

theorem pushed_singleton (l : Label) : pushed [l] = l.pushed := List.flatMap_singleton ..

/-- An item is made exactly of a title that is not blank. -/
theorem NewItem.item_eq_some : input.item id = some item ↔
    Str.trim input.title ≠ [] ∧ item = ⟨id, Str.trim input.title, input.summary.take 4000⟩ := by
  simp only [NewItem.item]
  split
  · rename_i htitle
    simp [htitle]
  · rename_i htitle
    simp [htitle, eq_comm]

/-- The request at a position, after its phase has changed. -/
theorem World.requests_setPhase {i k : Nat} {phase phase' : Phase}
    (h : w.requests[i]? = some ⟨input, phase⟩) :
    (w.setPhase i ⟨input, phase⟩ phase').requests[k]? =
      if k = i then some ⟨input, phase'⟩ else w.requests[k]? := by
  simp only [World.setPhase, List.getElem?_set, eq_comm (a := i)]
  split
  · rename_i heq
    subst heq
    exact if_pos (List.getElem?_eq_some_iff.mp h).1
  · rfl

theorem World.inputs_setPhase {i : Nat} {phase phase' : Phase}
    (h : w.requests[i]? = some ⟨input, phase⟩) :
    (w.setPhase i ⟨input, phase⟩ phase').requests.map Request.input =
      w.requests.map Request.input := by
  apply List.ext_getElem?
  intro k
  rw [List.getElem?_map, List.getElem?_map, World.requests_setPhase h]
  split
  · rename_i heq
    rw [heq, h]
    rfl
  · rfl

theorem inputs_step (h : Steps w l w') :
    w'.requests.map Request.input = w.requests.map Request.input ++ l.received := by
  cases step_cases h with
  | receive hinput => simp [Label.received, hinput]
  | reject hget _ => simp [World.inputs_setPhase hget, Label.received]
  | push hget _ => simp [World.inputs_setPhase hget, Label.received]
  | send hget => simp [World.inputs_setPhase hget, Label.received]
  | answer hget => simp [World.inputs_setPhase hget, Label.received]
  | subscribe => simp [Label.received]
  | loop _ _ => simp [World.setLoop, Label.received]

theorem items_step (h : Steps w l w') :
    w'.items.map some = w.items.map some ++ l.pushed.map fun (input, id) => input.item id := by
  cases step_cases h with
  | push hget hitem => simp [Label.pushed, hitem]
  | receive _ | reject _ _ | send _ | answer _ | subscribe | loop _ _ =>
    simp [World.setPhase, World.setLoop, Label.pushed]

/-- What the request at a position has done, or nothing before it arrives. -/
def World.effects (w : World) (i : Nat) : List Effect :=
  (w.requests[i]?).elim [] Request.effects

theorem World.effects_setPhase {i k : Nat} {phase phase' : Phase}
    (h : w.requests[k]? = some ⟨input, phase⟩) (done : List Effect)
    (hdone : Request.effects ⟨input, phase'⟩ = Request.effects ⟨input, phase⟩ ++ done) :
    (w.setPhase k ⟨input, phase⟩ phase').effects i =
      w.effects i ++ if k = i then done else [] := by
  unfold World.effects
  rw [World.requests_setPhase h]
  split
  · rename_i heq
    subst heq
    simp [h, hdone]
  · rename_i hne
    simp [Ne.symm hne]

theorem effects_step (i : Nat) (h : Steps w l w') : w'.effects i = w.effects i ++ l.effects i := by
  cases step_cases h with
  | receive _ =>
    simp only [World.effects, Label.effects, List.append_nil, List.getElem?_append]
    split
    · rfl
    · rename_i hlength
      rw [List.getElem?_eq_none_iff.mpr (Nat.le_of_not_lt hlength)]
      cases i - w.requests.length <;> rfl
  | reject hget _ =>
    rw [World.effects_setPhase hget [] rfl, ite_self]
    rfl
  | push hget _ =>
    exact World.effects_setPhase hget _ rfl
  | send hget =>
    exact World.effects_setPhase hget _ rfl
  | answer hget =>
    rw [World.effects_setPhase hget [] rfl, ite_self]
    rfl
  | subscribe => simp [World.effects, Label.effects]
  | loop _ _ => simp [World.effects, World.setLoop, Label.effects]

/-- Where the title of a request has been looked at, it has decided. -/
def Request.Decided (request : Request) : Prop :=
  request.phase ≠ .received → (request.phase ≠ .rejected ↔ Str.trim request.input.title ≠ [])

theorem decided_setPhase {i : Nat} {phase phase' : Phase}
    (h : ∀ request ∈ w.requests, request.Decided) (hnew : Request.Decided ⟨input, phase'⟩) :
    ∀ request ∈ (w.setPhase i ⟨input, phase⟩ phase').requests, request.Decided := by
  intro request hmem
  rcases List.mem_or_eq_of_mem_set hmem with hmem | rfl
  · exact h request hmem
  · exact hnew

theorem decided_step (h : ∀ request ∈ w.requests, request.Decided) (hstep : Steps w l w') :
    ∀ request ∈ w'.requests, request.Decided := by
  cases step_cases hstep with
  | receive _ =>
    intro request hmem
    rcases List.mem_append.mp hmem with hmem | hmem
    · exact h request hmem
    · obtain rfl := List.mem_singleton.mp hmem
      -- a request that was just received is not decided
      exact fun hphase => absurd rfl hphase
  | reject _ htitle =>
    refine decided_setPhase h fun _ => ?_
    simp [htitle]
  | push _ hitem =>
    refine decided_setPhase h fun _ => ?_
    simp [(NewItem.item_eq_some.mp hitem).1]
  | send hget =>
    have hprev := h _ (List.mem_of_getElem? hget)
    refine decided_setPhase h fun _ => ?_
    simp [← hprev (by simp)]
  | answer hget =>
    have hprev := h _ (List.mem_of_getElem? hget)
    refine decided_setPhase h fun _ => ?_
    simp [← hprev (by simp)]
  | subscribe => exact h
  | loop _ _ => exact h

/-! ## Runs -/

theorem RunsTo.items_eq (h : RunsTo ls w) :
    w.items.map some = (pushed ls).map fun (input, id) => input.item id := by
  unfold pushed
  rw [List.map_flatMap]
  exact h.contributions (m := fun w => w.items.map some) rfl fun _ _ _ hstep => items_step hstep

theorem RunsTo.inputs_eq (h : RunsTo ls w) : w.requests.map Request.input = received ls :=
  h.contributions (m := fun w => w.requests.map Request.input) rfl fun _ _ _ hstep => inputs_step hstep

theorem RunsTo.effects_eq (i : Nat) (h : RunsTo ls w) : w.effects i = effects i ls :=
  h.contributions (m := fun w => World.effects w i) rfl fun _ _ _ hstep => effects_step i hstep

theorem RunsTo.decided (h : RunsTo ls w) : ∀ request ∈ w.requests, request.Decided := by
  refine h.invariant (I := fun _ w => ∀ request ∈ w.requests, request.Decided) ?_ ?_
  · intro request hmem
    cases hmem
  · intro _ _ _ _ hprev hstep
    exact decided_step hprev hstep

/-- An item is made by one of the pushes. -/
theorem RunsTo.mem_items_iff (h : RunsTo ls w) :
    item ∈ w.items ↔ ∃ push ∈ pushed ls, push.1.item push.2 = some item := by
  rw [← List.mem_map_of_injective (Option.some_injective _), h.items_eq, List.mem_map]

theorem RunsTo.items_prefix {ms : List Label} (h : RunsTo ls w) (hms : ms <+: ls)
    (h' : RunsTo ms w') : w'.items <+: w.items := by
  have hprefix : w'.items.map some <+: w.items.map some := by
    rw [h.items_eq, h'.items_eq]
    obtain ⟨rest, rfl⟩ := hms
    simp
  have hfilter := hprefix.filterMap id
  simpa using hfilter

/-- The item of an accepted request is within the limits exactly when its title
    is. -/
theorem NewItem.withinLimits_iff (h : input.item id = some item) :
    item.WithinLimits ↔ (Str.trim input.title).length ≤ 256 := by
  obtain ⟨htitle, rfl⟩ := NewItem.item_eq_some.mp h
  constructor
  · exact fun hlimits => hlimits.title_le
  · intro hle
    exact {
      trim_title := Str.trim_trim _
      title_pos := List.length_pos_iff.mpr htitle
      title_le := hle
      summary_le := List.length_take_le _ _ }

/-- The invariant holds after a run exactly when no accepted request of it has a
    trimmed title beyond the limit. -/
theorem storeInvariant_iff (h : RunsTo ls w) :
    StoreInvariant ls w ↔ ∀ push ∈ pushed ls, (Str.trim push.1.title).length ≤ 256 := by
  constructor
  · intro hinv push hpush
    have hmem : push.1.item push.2 ∈ w.items.map some := by
      rw [h.items_eq]
      exact List.mem_map_of_mem hpush
    obtain ⟨item, hmem, hitem⟩ := List.mem_map.mp hmem
    exact (NewItem.withinLimits_iff hitem.symm).mp (hinv.limits item hmem)
  · intro htitles
    exact {
      inputs_eq := h.inputs_eq
      items_eq := h.items_eq
      appended := fun _ _ hms h' => h.items_prefix hms h'
      effects_eq := fun i request hget => by
        rw [← h.effects_eq, World.effects, hget]
        rfl
      accepted_iff := h.decided
      rejected := fun _ _ w' _ _ _ hstep => by
        cases step_cases hstep
        exact ⟨_, rfl⟩
      limits := fun item hmem => by
        obtain ⟨push, hpush, hitem⟩ := h.mem_items_iff.mp hmem
        exact (NewItem.withinLimits_iff hitem).mpr (htitles push hpush) }

/-- With two requests in the order opposite to their arrival, and a blank one. -/
theorem storeInvariant_iff_two :
    let summary : List Char := "none"
    let ls : List Label := [.receive [("title", " a ")], .receive [("title", "\t")],
      .receive [("title", "b"), ("summary", summary)], .push 2 ⟨"b", summary⟩ 7, .reject 1,
      .push 0 ⟨" a ", []⟩ 8, .send 2, .send 0, .answer 0]
    let items : List Item := [⟨7, "b", summary⟩, ⟨8, "a", []⟩]
    let w : World := ⟨items, .empty,
      [⟨⟨" a ", []⟩, .answered items⟩, ⟨⟨"\t", []⟩, .rejected⟩, ⟨⟨"b", summary⟩, .sent⟩], []⟩
    StoreInvariant ls w ↔ ∀ push ∈ pushed ls, (Str.trim push.1.title).length ≤ 256 :=
  storeInvariant_iff (Runs.of_foldlM rfl)

theorem runsTo_push {title : Str} (h : Str.trim title ≠ []) :
    RunsTo [.receive [("title", title)], .push 0 ⟨title, []⟩ 7]
      ⟨[⟨7, Str.trim title, []⟩], .empty, [⟨⟨title, []⟩, .pushed⟩], []⟩ := by
  have hform : NewItem.ofForm [("title", title)] = some ⟨title, []⟩ := by
    simp [NewItem.ofForm]
  have hitem : NewItem.item ⟨title, []⟩ 7 = some ⟨7, Str.trim title, []⟩ :=
    NewItem.item_eq_some.mpr ⟨h, rfl⟩
  have hreceive : Steps .initial (.receive [("title", title)])
      ⟨[], .empty, [⟨⟨title, []⟩, .received⟩], []⟩ := by
    rw [Steps, step, hform]
    rfl
  have hpush : Steps ⟨[], .empty, [⟨⟨title, []⟩, .received⟩], []⟩ (.push 0 ⟨title, []⟩ 7)
      ⟨[⟨7, Str.trim title, []⟩], .empty, [⟨⟨title, []⟩, .pushed⟩], []⟩ := by
    rw [Steps, step, hitem]
    exact if_pos rfl
  exact (Runs.nil.snoc hreceive).snoc hpush

/-- A title of 257 characters is accepted. -/
theorem not_storeInvariant_long_title :
    let title := List.replicate 257 'a'
    let ls : List Label := [.receive [("title", title)], .push 0 ⟨title, []⟩ 7]
    ∃ w, RunsTo ls w ∧ ¬ StoreInvariant ls w := by
  intro title ls
  have htrim : Str.trim title = title := by
    refine Str.trim_eq_self fun c hc => ?_
    rw [List.eq_of_mem_replicate hc]
    decide
  have hrun := @runsTo_push title (by rw [htrim]; exact List.cons_ne_nil _ _)
  refine ⟨_, hrun, fun hinv => ?_⟩
  have hle := (hinv.limits _ List.mem_cons_self).title_le
  rw [htrim, List.length_replicate] at hle
  exact absurd hle (by decide)

end Web
