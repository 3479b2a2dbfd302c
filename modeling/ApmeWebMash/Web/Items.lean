-- SUMMARY: The record store: `create_item`, the WebSocket loops and the event channel, as steps of one state.
import ApmeWebMash.Base.Broadcast
import ApmeWebMash.Base.Json
import ApmeWebMash.Base.Run
import ApmeWebMash.Crates

/-! # The record store

The item list and the event channel of `AppState`, with the requests and the
WebSocket loops that share them. A request is suspended only at its awaits, so
its steps are what it does between two of them, and the steps of the requests
and of the loops interleave in any order. -/

namespace Web

open Broadcast (Channel)

structure Item where
  id : Uuid
  title : Str
  summary : Str
deriving DecidableEq

structure NewItem where
  title : Str
  summary : Str
deriving DecidableEq

/-- `Form<NewItem>`: from the fields of a form. Derived deserialization takes no
    field twice and ignores unknown ones; only `summary` has a default. -/
def NewItem.ofForm (fields : List (Str × Str)) : Option NewItem :=
  let named (name : Str) := (fields.filter (·.1 = name)).map Prod.snd
  match named "title", named "summary" with
  | [title], [] => some ⟨title, []⟩
  | [title], [summary] => some ⟨title, summary⟩
  | _, _ => none

/-- The item that `create_item` makes, unless it answers that the title is
    required. -/
def NewItem.item (input : NewItem) (id : Uuid) : Option Item :=
  let title := Str.trim input.title
  if title = [] then none else some ⟨id, title, input.summary.take 4000⟩

/-- The text of every event. -/
def recordChanged : Str := Json.render (.object [("event_type", .string "record.changed")])

/-! ## State -/

/-- Where a `create_item` request is. -/
inductive Phase where
  | received
  | rejected
  | pushed
  | sent
  | answered (items : List Item)
deriving DecidableEq

structure Request where
  input : NewItem
  phase : Phase
deriving DecidableEq

/-- Where a `ws_loop` is: at its `select!`, at one of its two sends, or out of
    the loop. -/
inductive LoopPhase where
  | waiting
  | taken (text : Str)
  | answering
  | stopped
deriving DecidableEq

/-- A `ws_loop`, with the position of its receiver. -/
structure Loop where
  next : Nat
  phase : LoopPhase
deriving DecidableEq

structure World where
  items : List Item
  events : Channel Str 256
  requests : List Request
  loops : List Loop

/-- The state that `main` starts with. -/
def World.initial : World := ⟨[], .empty, [], []⟩

namespace World

/-- `Sender::send`: nothing is sent to a channel without receivers. -/
def notify (w : World) : Channel Str 256 :=
  if w.loops.any (·.phase ≠ .stopped) then w.events.send recordChanged else w.events

def setPhase (w : World) (i : Nat) (request : Request) (phase : Phase) : World :=
  { w with requests := w.requests.set i { request with phase } }

def setLoop (w : World) (j : Nat) (loop : Loop) : World :=
  { w with loops := w.loops.set j loop }

end World

/-! ## Steps -/

/-- What a `ws_loop` does next. -/
inductive LoopAct where
  | recv
  | forward
  | sendFails
  | ping
  | pong
  | close
deriving DecidableEq

/-- A step of a request or of a loop, by its position. -/
inductive Label where
  | receive (fields : List (Str × Str))
  | reject (i : Nat)
  | push (i : Nat) (input : NewItem) (id : Uuid)
  | send (i : Nat)
  | answer (i : Nat)
  | subscribe (j : Nat)
  | loop (j : Nat) (act : LoopAct)
deriving DecidableEq

/-- `ws_loop`: an event is taken and then forwarded, a `Lagged` error is passed
    over, a ping is answered, and a failed send or the end of the socket ends
    the loop. Other messages do nothing. -/
def Loop.act (events : Channel Str 256) (loop : Loop) : LoopAct → Option Loop
  | .recv =>
    match loop.phase, events.recv loop.next with
    | .waiting, .lagged next => some ⟨next, .waiting⟩
    | .waiting, .event text next => some ⟨next, .taken text⟩
    | _, _ => none
  | .forward =>
    match loop.phase with
    | .taken _ => some { loop with phase := .waiting }
    | _ => none
  | .sendFails =>
    match loop.phase with
    | .taken _ | .answering => some { loop with phase := .stopped }
    | _ => none
  | .ping => if loop.phase = .waiting then some { loop with phase := .answering } else none
  | .pong => if loop.phase = .answering then some { loop with phase := .waiting } else none
  | .close => if loop.phase = .waiting then some { loop with phase := .stopped } else none

/-- What a step does, where it is possible. -/
def step (w : World) : Label → Option World
  | .receive fields =>
    (NewItem.ofForm fields).map fun input =>
      { w with requests := w.requests ++ [⟨input, .received⟩] }
  | .reject i =>
    match w.requests[i]? with
    | some ⟨input, .received⟩ =>
      if Str.trim input.title = [] then some (w.setPhase i ⟨input, .received⟩ .rejected) else none
    | _ => none
  | .push i input id =>
    -- the item is made before the lock is taken
    match w.requests[i]?, input.item id with
    | some ⟨input', .received⟩, some item =>
      if input' = input then
        some { w.setPhase i ⟨input', .received⟩ .pushed with items := w.items ++ [item] }
      else none
    | _, _ => none
  | .send i =>
    match w.requests[i]? with
    | some ⟨input, .pushed⟩ => some { w.setPhase i ⟨input, .pushed⟩ .sent with events := w.notify }
    | _ => none
  | .answer i =>
    match w.requests[i]? with
    | some ⟨input, .sent⟩ => some (w.setPhase i ⟨input, .sent⟩ (.answered w.items))
    | _ => none
  | .subscribe j =>
    -- a receiver starts behind the events that have been sent
    if j = w.loops.length then some { w with loops := w.loops ++ [⟨w.events.tail, .waiting⟩] }
    else none
  | .loop j act =>
    w.loops[j]?.bind fun loop => (loop.act w.events act).map (w.setLoop j)

/-- A step takes one state to another. -/
def Steps (w : World) (l : Label) (w' : World) : Prop := step w l = some w'

/-- A run from the state that `main` starts with. -/
def RunsTo (ls : List Label) (w : World) : Prop := Runs Steps .initial ls w

/-- What a step can be. -/
inductive StepCases (w : World) : Label → World → Prop where
  | receive {fields : List (Str × Str)} {input : NewItem} : NewItem.ofForm fields = some input →
    StepCases w (.receive fields) { w with requests := w.requests ++ [⟨input, .received⟩] }
  | reject {i : Nat} {input : NewItem} : w.requests[i]? = some ⟨input, .received⟩ →
    Str.trim input.title = [] →
    StepCases w (.reject i) (w.setPhase i ⟨input, .received⟩ .rejected)
  | push {i : Nat} {input : NewItem} {id : Uuid} {item : Item} :
    w.requests[i]? = some ⟨input, .received⟩ → input.item id = some item →
    StepCases w (.push i input id)
      { w.setPhase i ⟨input, .received⟩ .pushed with items := w.items ++ [item] }
  | send {i : Nat} {input : NewItem} : w.requests[i]? = some ⟨input, .pushed⟩ →
    StepCases w (.send i) { w.setPhase i ⟨input, .pushed⟩ .sent with events := w.notify }
  | answer {i : Nat} {input : NewItem} : w.requests[i]? = some ⟨input, .sent⟩ →
    StepCases w (.answer i) (w.setPhase i ⟨input, .sent⟩ (.answered w.items))
  | subscribe : StepCases w (.subscribe w.loops.length)
      { w with loops := w.loops ++ [⟨w.events.tail, .waiting⟩] }
  | loop {j : Nat} {act : LoopAct} {loop loop' : Loop} : w.loops[j]? = some loop →
    loop.act w.events act = some loop' → StepCases w (.loop j act) (w.setLoop j loop')

/-- Every step is one of the cases. -/
theorem step_cases {w w' : World} {l : Label} (h : Steps w l w') : StepCases w l w' := by
  cases l with
  | receive fields =>
    obtain ⟨input, hinput, rfl⟩ := Option.map_eq_some_iff.mp h
    exact .receive hinput
  | reject i =>
    simp only [Steps, step] at h
    split at h
    · rename_i hget
      split at h
      · rename_i htitle
        obtain rfl := Option.some.inj h
        exact .reject hget htitle
      · cases h
    · cases h
  | push i input id =>
    simp only [Steps, step] at h
    split at h
    · rename_i hget hitem
      split at h
      · rename_i heq
        obtain rfl := Option.some.inj h
        obtain rfl := heq
        exact .push hget hitem
      · cases h
    · cases h
  | send i =>
    simp only [Steps, step] at h
    split at h
    · rename_i hget
      obtain rfl := Option.some.inj h
      exact .send hget
    · cases h
  | answer i =>
    simp only [Steps, step] at h
    split at h
    · rename_i hget
      obtain rfl := Option.some.inj h
      exact .answer hget
    · cases h
  | subscribe j =>
    simp only [Steps, step] at h
    split at h
    · rename_i heq
      obtain rfl := Option.some.inj h
      obtain rfl := heq
      exact .subscribe
    · cases h
  | loop j act =>
    obtain ⟨loop, hget, h⟩ := Option.bind_eq_some_iff.mp h
    obtain ⟨loop', hact, rfl⟩ := Option.map_eq_some_iff.mp h
    exact .loop hget hact

end Web
