-- SUMMARY: The accept loop of the Fn adapter: what every peer receives and what is logged, over any sequence of connections, and which peer stops it.
import ApmeWebMash.OracleFn.Exchange
import ApmeWebMash.OracleFn.FailureLog
import ApmeWebMash.OracleFn.Limits
import ApmeWebMash.OracleFn.OpenStream
import ApmeWebMash.OracleFn.Startup

/-! # The Fn process

After its start, `run` serves one connection after the other for as long as it
lives. A connection may break at any point: before it is read, while it is read,
or while the response is written. None of that may end the loop or reach another
connection. But there is one thread and no timeout: the loop waits with a peer
that stays and sends no more, or that does not take its response, and serves
nobody behind it. -/

namespace OracleFn

open FileSystem (Error FitsAddress Path State exec)
open Lambdas (FunctionResponse Host RouteSpec)
open Separator (splitAll)
open Socket (Blocked)

/-! ## Connections -/

/-- The text of an error of the system. -/
def ioErrorText : IoError → Str
  | .unexpectedEof => "failed to fill whole buffer"
  | .invalidData => "stream did not contain valid UTF-8"
  | .device message => message

/-- How the stream of a peer ends behind what it has sent. -/
inductive Ending where
  | closed
  | failed (error : Str)
  | stays
deriving DecidableEq

/-- What a peer takes of its response: all of it, or so many bytes, behind which
    writing fails or waits. -/
inductive Room where
  | unlimited
  | fails (bytes : Nat) (error : Str)
  | waits (bytes : Nat)

/-- There is room for so many bytes. -/
def Room.Fits (length : Nat) : Room → Prop
  | .unlimited => True
  | .fails bytes _ | .waits bytes => length ≤ bytes

/-- A connection as the adapter meets it: whether its descriptor can be cloned,
    what the peer sends and whether it stays, when an identifier is made for it,
    and what the peer takes. -/
structure Connection where
  cloneFault : Option Str
  received : List UInt8
  ending : Ending
  host : Host
  room : Room

/-- What can be read from a connection, if nobody waits for more. -/
def Connection.source (connection : Connection) : Source where
  bytes := connection.received
  fault := match connection.ending with
    | .failed error => some error
    | .closed | .stays => none

/-- What an iteration of the loop gets from the listener. -/
inductive Incoming where
  | failed (error : Str)
  | stream (connection : Connection)

/-- The connections among what the listener yields. -/
def connections (incoming : List Incoming) : List Connection :=
  incoming.filterMap fun
    | .failed _ => none
    | .stream connection => some connection

/-- How a write ends. -/
inductive Written where
  | all
  | failed (error : Str)
  | waiting
deriving DecidableEq

/-- The bytes that get through, and how writing them ends. -/
def sendAll (bytes : List UInt8) : Room → List UInt8 × Written
  | .unlimited => (bytes, .all)
  | .fails room error =>
    if bytes.length ≤ room then (bytes, .all) else (bytes.take room, .failed error)
  | .waits room => if bytes.length ≤ room then (bytes, .all) else (bytes.take room, .waiting)

section
variable (serde : SerdeJson) (spec : RouteSpec)

/-- The adapter waits for more of the request. -/
def Connection.waitsForMore (connection : Connection) : Bool :=
  connection.ending = .stays && OracleFn.waitsForMore spec.maxEventBytes connection.received

/-- What `handle_stream` has to write to a connection that it can read from. -/
def responseBytes (connection : Connection) : List UInt8 :=
  if connection.waitsForMore spec then []
  else (handleStream serde connection.host connection.source spec).elim [] WireResponse.bytes

/-- What `handle_stream` reports before it answers. -/
def readFailure (source : Source) : Option Failure :=
  match ((readRequest spec.maxEventBytes).run source).1 with
  | .err (.io error) => some (.requestRead (ioErrorText error))
  | _ => none

/-- What `handle_stream` returns from a write. -/
def writeFailure : Written → Option Failure
  | .failed error => some (.connection error)
  | .all | .waiting => none

/-- What is left of a connection: what the peer has received, the failures that
    were reported, in order, and whether `handle_stream` has returned. -/
structure Handled where
  sent : List UInt8
  failures : List Failure
  returned : Bool

/-- `handle_stream` in an iteration of the loop: `none` where the process panics,
    or spins without reading. -/
def handleConnection (connection : Connection) : Option Handled :=
  match connection.cloneFault with
  | some error => some ⟨[], [.connection error], true⟩
  | none =>
    if connection.waitsForMore spec then some ⟨[], [], false⟩
    else
      match ((readRequest spec.maxEventBytes).run connection.source).1 with
      | .panic | .hang => none
      | .ok _ | .err _ =>
        let (sent, written) := sendAll (responseBytes serde spec connection) connection.room
        some ⟨sent, (readFailure spec connection.source).toList ++ (writeFailure written).toList,
          written ≠ .waiting⟩

/-! ## The loop -/

/-- A serving process: what was sent on each connection that it has accepted, the
    error output, and whether it waits with the last of them. -/
structure Server where
  sent : List (List UInt8)
  stderr : Str
  blocked : Bool

/-- The lines that `eprintln!` writes about failures. -/
def report (failures : List Failure) : Str :=
  failures.flatMap fun failure => failure.line spec.handler ++ ['\n']

/-- An iteration of the loop of `run`, which is not reached while the one before
    it waits. -/
def serveNext (server : Server) (next : Incoming) : Option Server :=
  if server.blocked then some server
  else
    match next with
    | .failed error => some { server with stderr := server.stderr ++ report spec [.accept error] }
    | .stream connection =>
      (handleConnection serde spec connection).map fun handled => {
        sent := server.sent ++ [handled.sent]
        stderr := server.stderr ++ report spec handled.failures
        blocked := !handled.returned }

/-- The loop, as far as the listener has yielded. -/
def serve (incoming : List Incoming) : Option Server :=
  incoming.foldlM (serveNext serde spec) ⟨[], [], false⟩

/-- The line that says that the adapter listens. -/
def listeningLine : Str :=
  ("\x7b\"level\":\"info\",\"event\":\"oracle_fn_listening\",\"handler\":\"" : Str) ++ spec.handler ++
    ("\",\"format\":\"" : Str) ++ fnFormatHttpStream ++ ("\"\x7d" : Str)

/-- A process behind its start. -/
structure Process where
  stdout : Str
  server : Option Server

/-- `run`: the error of a start that fails, or what the process has done. -/
def run (display : Path → Str) (umask : Nat) (environment : Environment) (fs : State)
    (incoming : List Incoming) : Except Error Process × State :=
  match exec (start display umask environment) fs with
  | (.error error, fs') => (.error error, fs')
  | (.ok _, fs') => (.ok ⟨listeningLine spec ++ ['\n'], serve serde spec incoming⟩, fs')

/-! ## What a connection is due -/

/-- What the peer of a connection is to receive: the response to what it has sent,
    or the beginning of that where the connection breaks. -/
structure Receives (connection : Connection) (sent : List UInt8) : Prop where
  isPrefix : sent <+: responseBytes serde spec connection
  whole : connection.cloneFault = none →
    connection.room.Fits (responseBytes serde spec connection).length →
    sent = responseBytes serde spec connection

/-- The failures that are to be reported about what the listener yields. -/
def failuresOf : Incoming → List Failure
  | .failed error => [.accept error]
  | .stream connection =>
    match connection.cloneFault with
    | some error => [.connection error]
    | none =>
      if connection.waitsForMore spec then []
      else (readFailure spec connection.source).toList ++
        (writeFailure (sendAll (responseBytes serde spec connection) connection.room).2).toList

/-! ## Peers that are waited for -/

/-- The loop waits with the peer: what it has sent does not decide about its
    request, and it neither sends more nor goes away; or it does not take its
    response. -/
def Blocks (connection : Connection) : Prop :=
  connection.cloneFault = none ∧
    ((connection.ending = .stays ∧
        ¬ Reader.Decides reportDevice (readRequest spec.maxEventBytes) connection.received) ∨
      ∃ room, connection.room = .waits room ∧
        room < (responseBytes serde spec connection).length)

/-- The same of what the listener yields, to be computed. -/
def Incoming.blocks : Incoming → Bool
  | .failed _ => false
  | .stream connection =>
    connection.cloneFault.isNone && (connection.waitsForMore spec ||
      (sendAll (responseBytes serde spec connection) connection.room).2 = .waiting)

/-- What the loop gets to: all up to the first peer that it waits with. -/
def reached : List Incoming → List Incoming
  | [] => []
  | next :: rest => if next.blocks serde spec then [next] else next :: reached rest

end

variable {serde : SerdeJson} {spec : RouteSpec}

theorem sendAll_isPrefix (bytes : List UInt8) (room : Room) : (sendAll bytes room).1 <+: bytes := by
  cases room with
  | unlimited => exact List.prefix_refl bytes
  | fails room _ | waits room =>
    rw [sendAll]
    split
    · exact List.prefix_refl bytes
    · exact List.take_prefix room bytes

theorem sendAll_of_fits {bytes : List UInt8} {room : Room} (h : room.Fits bytes.length) :
    (sendAll bytes room).1 = bytes := by
  cases room with
  | unlimited => rfl
  | fails room _ | waits room =>
    have hle : bytes.length ≤ room := h
    rw [sendAll, if_pos hle]

theorem sendAll_waiting_iff {bytes : List UInt8} {room : Room} :
    (sendAll bytes room).2 = .waiting ↔ ∃ n, room = .waits n ∧ n < bytes.length := by
  cases room with
  | unlimited => simp [sendAll]
  | fails n error =>
    rw [sendAll]
    split <;> simp
  | waits n =>
    rw [sendAll]
    split
    · simpa using ‹bytes.length ≤ n›
    · simpa using Nat.lt_of_not_le ‹¬ bytes.length ≤ n›

theorem waitsForMore_iff {connection : Connection} :
    connection.waitsForMore spec ↔ connection.ending = .stays ∧
      ¬ Reader.Decides reportDevice (readRequest spec.maxEventBytes) connection.received := by
  rw [Connection.waitsForMore, Bool.and_eq_true, decide_eq_true_iff, ← waitsForMore_eq_false_iff,
    Bool.not_eq_false]

theorem blocks_iff {connection : Connection} :
    (Incoming.stream connection).blocks serde spec ↔ Blocks serde spec connection := by
  rw [Incoming.blocks, Blocks, Bool.and_eq_true, Option.isNone_iff_eq_none, Bool.or_eq_true,
    decide_eq_true_iff, waitsForMore_iff, sendAll_waiting_iff]

/-- A connection that the loop waits with is one of those that were yielded. -/
theorem any_blocks_iff {incoming : List Incoming} :
    incoming.any (Incoming.blocks serde spec) ↔
      ∃ connection ∈ connections incoming, Blocks serde spec connection := by
  rw [List.any_eq_true]
  constructor
  · rintro ⟨next, hnext, hblocks⟩
    cases next with
    | failed error => cases hblocks
    | stream connection =>
      exact ⟨connection, List.mem_filterMap.mpr ⟨_, hnext, rfl⟩, blocks_iff.mp hblocks⟩
  · rintro ⟨connection, hmem, hblocks⟩
    obtain ⟨next, hnext, heq⟩ := List.mem_filterMap.mp hmem
    cases next with
    | failed error => cases heq
    | stream other =>
      obtain rfl := Option.some.inj heq
      exact ⟨_, hnext, blocks_iff.mpr hblocks⟩

/-- One more is reached if the loop waits with none of those before it. -/
theorem reached_concat (incoming : List Incoming) (next : Incoming) :
    reached serde spec (incoming ++ [next]) =
      if incoming.any (Incoming.blocks serde spec) then reached serde spec incoming
      else incoming ++ [next] := by
  induction incoming with
  | nil => simp [reached]
  | cons first incoming ih =>
    rw [List.cons_append, reached, reached, ih, List.any_cons]
    cases first.blocks serde spec with
    | true => rfl
    | false =>
      cases incoming.any (Incoming.blocks serde spec) <;> rfl

theorem reached_eq_self {incoming : List Incoming}
    (h : incoming.any (Incoming.blocks serde spec) = false) :
    reached serde spec incoming = incoming := by
  induction incoming with
  | nil => rfl
  | cons first incoming ih =>
    rw [List.any_cons, Bool.or_eq_false_iff] at h
    rw [reached, h.1, ih h.2]
    rfl

/-- `handle_stream` returns from every connection that is not waited for, and
    takes care of that alone. -/
theorem exists_handleConnection (serde : SerdeJson)
    (hlimit : spec.maxEventBytes < Numeral.usizeMax) (connection : Connection) :
    ∃ sent, handleConnection serde spec connection =
        some ⟨sent, failuresOf serde spec (.stream connection),
          !(Incoming.stream connection).blocks serde spec⟩ ∧
      Receives serde spec connection sent := by
  have hread := meets_readRequest hlimit connection.source
  rw [handleConnection, failuresOf, Incoming.blocks]
  cases hclone : connection.cloneFault with
  | some error =>
    exact ⟨[], rfl, List.nil_prefix, fun h => by rw [hclone] at h; cases h⟩
  | none =>
    cases hwaits : connection.waitsForMore spec with
    | true =>
      refine ⟨[], rfl, List.nil_prefix, fun _ _ => ?_⟩
      rw [responseBytes, if_pos hwaits]
    | false =>
      have hsent : Receives serde spec connection
          (sendAll (responseBytes serde spec connection) connection.room).1 :=
        ⟨sendAll_isPrefix _ _, fun _ => sendAll_of_fits⟩
      -- within the limits a request can be read, with or without an error
      dsimp only [Bool.false_eq_true, ↓reduceIte]
      rw [if_neg Bool.false_ne_true, if_neg Bool.false_ne_true]
      split
      · exact absurd ‹_› hread.run_ne_panic
      · exact absurd ‹_› hread.run_ne_hang
      all_goals
        refine ⟨_, ?_, hsent⟩
        simp

/-! ## What the loop does -/

/-- What a server has done about what the listener has yielded so far. -/
structure Serves (serde : SerdeJson) (spec : RouteSpec) (incoming : List Incoming) (server : Server) :
    Prop where
  sent : List.Forall₂ (Receives serde spec) (connections (reached serde spec incoming)) server.sent
  stderr : server.stderr =
    report spec ((reached serde spec incoming).flatMap (failuresOf serde spec))
  blocked : server.blocked = incoming.any (Incoming.blocks serde spec)

theorem connections_append (incoming incoming' : List Incoming) :
    connections (incoming ++ incoming') = connections incoming ++ connections incoming' :=
  List.filterMap_append

theorem report_append (failures failures' : List Failure) :
    report spec (failures ++ failures') = report spec failures ++ report spec failures' :=
  List.flatMap_append

/-- An iteration does what is due to what it gets, if it is reached. -/
theorem Serves.next (hlimit : spec.maxEventBytes < Numeral.usizeMax) {incoming : List Incoming}
    {server : Server} (h : Serves serde spec incoming server) (next : Incoming) :
    ∃ server', serveNext serde spec server next = some server' ∧
      Serves serde spec (incoming ++ [next]) server' := by
  have hconcat := @reached_concat serde spec incoming next
  obtain ⟨hsent, hstderr, hblocked⟩ := h
  -- behind a peer that is waited for nothing happens
  cases hany : incoming.any (Incoming.blocks serde spec) with
  | true =>
    rw [hany] at hblocked hconcat
    refine ⟨server, by simp only [serveNext, hblocked, ↓reduceIte], ?_, ?_, ?_⟩
    · rwa [hconcat, if_pos rfl]
    · rwa [hconcat, if_pos rfl]
    · rw [hblocked, List.any_append, hany, Bool.true_or]
  | false =>
    rw [hany] at hblocked hconcat
    rw [if_neg Bool.false_ne_true] at hconcat
    rw [reached_eq_self hany] at hsent hstderr
    simp only [serveNext, hblocked, Bool.false_eq_true, ↓reduceIte]
    cases next with
    | failed error =>
      refine ⟨_, rfl, ?_, ?_, ?_⟩
      · rw [hconcat, connections_append, show connections [Incoming.failed error] = [] from rfl,
          List.append_nil]
        exact hsent
      · rw [hconcat, List.flatMap_append, List.flatMap_singleton, report_append, hstderr]
        rfl
      · rw [List.any_append, hany]
        rfl
    | stream connection =>
      obtain ⟨sent, hhandled, hreceives⟩ := exists_handleConnection serde hlimit connection
      refine ⟨_, by dsimp only; rw [hhandled, Option.map_some], ?_, ?_, ?_⟩
      · rw [hconcat, connections_append]
        exact List.rel_append hsent (.cons hreceives .nil)
      · rw [hconcat, List.flatMap_append, List.flatMap_singleton, report_append, hstderr]
      · rw [List.any_append, hany]
        simp

theorem exists_serve (serde : SerdeJson) (hlimit : spec.maxEventBytes < Numeral.usizeMax)
    (incoming : List Incoming) :
    ∃ server, serve serde spec incoming = some server ∧ Serves serde spec incoming server := by
  induction incoming using List.reverseRecOn with
  | nil => exact ⟨_, rfl, .nil, rfl, rfl⟩
  | append_singleton incoming next ih =>
    obtain ⟨server, hserver, hserves⟩ := ih
    obtain ⟨server', hnext, hserves'⟩ := hserves.next hlimit next
    refine ⟨server', ?_, hserves'⟩
    rw [serve] at hserver ⊢
    rw [List.foldlM_append, hserver, Option.bind_eq_bind, Option.bind_some, List.foldlM_cons, hnext]
    rfl

theorem splitAll_report (hhandler : Adapters.NeedsNoEscape spec.handler) (failures : List Failure) :
    splitAll ['\n'] (report spec failures) =
      failures.map (fun failure => failure.line spec.handler) ++ [[]] := by
  have hreport : report spec failures =
      (failures.map fun failure => failure.line spec.handler).flatMap fun line => line ++ ['\n'] := by
    rw [List.flatMap_map]
    rfl
  rw [hreport]
  refine Separator.splitAll_flatMap_append fun line hline => ?_
  obtain ⟨failure, -, rfl⟩ := List.mem_map.mp hline
  exact newline_not_mem_failureLine failure.needsNoEscape_event hhandler

/-- The loop goes on whatever breaks, up to the first peer that it waits with, and
    to the end of what the listener yields if there is none. Every peer up to
    there receives the response to what it has sent itself, as far as it takes
    it, and the lines of the error output are those about the failures, one each
    and in order. -/
theorem serve_available (hlimit : spec.maxEventBytes < Numeral.usizeMax)
    (hhandler : Adapters.NeedsNoEscape spec.handler) (incoming : List Incoming) :
    ∃ server, serve serde spec incoming = some server ∧
      (server.blocked ↔ ∃ connection ∈ connections incoming, Blocks serde spec connection) ∧
      (server.blocked = false → reached serde spec incoming = incoming) ∧
      List.Forall₂ (Receives serde spec) (connections (reached serde spec incoming)) server.sent ∧
      splitAll ['\n'] server.stderr = ((reached serde spec incoming).flatMap
        (failuresOf serde spec)).map (fun failure => failure.line spec.handler) ++ [[]] := by
  obtain ⟨server, hserver, hserves⟩ := exists_serve serde hlimit incoming
  refine ⟨server, hserver, ?_, fun h => ?_, hserves.sent, ?_⟩
  · rw [hserves.blocked, any_blocks_iff]
  · exact reached_eq_self (hserves.blocked ▸ h)
  · rw [hserves.stderr, splitAll_report hhandler]

/-- Two connections that break, a peer that sends nothing, and one behind it. -/
def sampleIncoming : List Incoming := [
  .failed "Too many open files (os error 24)",
  .stream ⟨none, [80], .failed "Connection reset by peer (os error 104)", ⟨1, 5, by decide⟩,
    .fails 0 "Broken pipe (os error 32)"⟩,
  .stream ⟨none, [], .stays, ⟨2, 5, by decide⟩, .unlimited⟩,
  .stream ⟨none, [], .closed, ⟨3, 5, by decide⟩, .unlimited⟩]

theorem serve_available_broken :
    ∃ server, serve .compact sampleSpec sampleIncoming = some server ∧
      (server.blocked ↔
        ∃ connection ∈ connections sampleIncoming, Blocks .compact sampleSpec connection) ∧
      (server.blocked = false → reached .compact sampleSpec sampleIncoming = sampleIncoming) ∧
      List.Forall₂ (Receives .compact sampleSpec)
        (connections (reached .compact sampleSpec sampleIncoming)) server.sent ∧
      splitAll ['\n'] server.stderr = ((reached .compact sampleSpec sampleIncoming).flatMap
        (failuresOf .compact sampleSpec)).map (fun failure => failure.line sampleSpec.handler) ++
          [[]] :=
  serve_available (by decide) (Str.forall_mem (by decide +kernel)) _

/-! ## Calls -/

/-- A connection over which a call is made. The client may close its side behind
    the call, or stay. -/
structure CarriesCall (connection : Connection) (call : FnCall) : Prop where
  cloned : connection.cloneFault = none
  sent : callBytes call.given call.body = some connection.received
  taken : connection.room = .unlimited

/-- The bytes that answer a call are what its client reads back. -/
theorem exists_parsed {connection : Connection} {call : FnCall} (h : CarriesCall connection call)
    (hbody : call.body.length ≤ spec.maxEventBytes)
    (hserde : Serializes serde (answerTo serde connection.host spec call.request).body) :
    ∃ parsed, parseResponse serde (responseBytes serde spec connection) = some parsed ∧
      parsed.outerStatus = 200 ∧
      Delivers (answerTo serde connection.host spec call.request) parsed := by
  have hbytes : connection.received = call.message.bytes :=
    Option.some.inj (h.sent.symm.trans call.callBytes_given)
  have hmore : connection.waitsForMore spec = false := by
    rw [Connection.waitsForMore, hbytes,
      not_waitsForMore_bytes call.message spec.maxEventBytes_le hbody, Bool.and_false]
  -- the end of the stream is not looked at
  have hread := run_readRequest_bytes call.message spec.maxEventBytes_le hbody []
  rw [List.append_nil, ← hbytes] at hread
  have hstream : handleStream serde connection.host connection.source spec =
      handleStream serde connection.host ⟨connection.received, none⟩ spec := by
    rw [handleStream, handleStream, fnAnswer, fnAnswer, fnInput, fnInput, Connection.source, hread,
      hread]
  obtain ⟨parsed, hinvoke, hanswer⟩ := exists_invoke call hbody hserde
  simp only [invoke, h.sent, Option.bind_eq_bind, Option.bind_some, Option.bind_eq_some_iff] at hinvoke
  obtain ⟨response, hresponse, hparsed⟩ := hinvoke
  refine ⟨parsed, ?_, hanswer⟩
  rw [responseBytes, hmore, if_neg Bool.false_ne_true, hstream, hresponse]
  exact hparsed

/-- A connection behind none that is waited for is reached. -/
theorem exists_reached_append {before : List Incoming}
    (h : before.any (Incoming.blocks serde spec) = false) (connection : Connection)
    (behind : List Incoming) :
    ∃ rest, reached serde spec (before ++ .stream connection :: behind) =
      before ++ .stream connection :: rest := by
  induction before with
  | nil =>
    rw [List.nil_append, reached]
    split
    · exact ⟨[], rfl⟩
    · exact ⟨_, rfl⟩
  | cons first before ih =>
    rw [List.any_cons, Bool.or_eq_false_iff] at h
    obtain ⟨rest, hrest⟩ := ih h.2
    exact ⟨rest, by rw [List.cons_append, reached, h.1, if_neg Bool.false_ne_true, hrest]; rfl⟩

/-- Related lists have related elements at the same places. -/
theorem exists_getElem?_of_forall₂ {α β : Type} {R : α → β → Prop} {xs ys : List α} {x : α}
    {zs : List β} (h : List.Forall₂ R (xs ++ x :: ys) zs) :
    ∃ z, zs[xs.length]? = some z ∧ R x z := by
  induction xs generalizing zs with
  | nil =>
    obtain ⟨z, rest, hz, -, rfl⟩ := List.forall₂_cons_left_iff.mp h
    exact ⟨z, rfl, hz⟩
  | cons y xs ih =>
    obtain ⟨z, rest, -, hrest, rfl⟩ := List.forall₂_cons_left_iff.mp h
    obtain ⟨z', hat, hz'⟩ := ih hrest
    exact ⟨z', by rw [List.length_cons, List.getElem?_cons_succ, hat], hz'⟩

section
variable {display : Path → Str} {umask : Nat} {environment : Environment} {fs : State}
  {value : Str} {path : ListenerPath}

/-- A process that was started as it is meant to be answers every call that keeps
    to the limits, whatever came before it that does not stop the loop, and
    whatever comes after it. -/
theorem run_answers (hlimit : spec.maxEventBytes < Numeral.usizeMax)
    (hformat : AsksForHttpStream environment)
    (hvalue : envVar environment "FN_LISTENER" = some value) (hnames : NamesListener value path)
    (hdir : path.socket.InDirectory fs) (hpublic : ¬ Blocked fs path.socket.publicPath)
    (hphony : ¬ Blocked fs path.socket.phonyPath) (hfits : FitsAddress path.socket.phonyPath)
    {connection : Connection} {call : FnCall} (hcall : CarriesCall connection call)
    (hbody : call.body.length ≤ spec.maxEventBytes)
    (hserde : Serializes serde (answerTo serde connection.host spec call.request).body)
    (before behind : List Incoming)
    (hbefore : ∀ earlier ∈ connections before, ¬ Blocks serde spec earlier) :
    ∃ server sent parsed,
      run serde spec display umask environment fs (before ++ .stream connection :: behind) =
        (.ok ⟨listeningLine spec ++ ['\n'], some server⟩, path.socket.bound fs) ∧
      server.sent[(connections before).length]? = some sent ∧
      parseResponse serde sent = some parsed ∧ parsed.outerStatus = 200 ∧
      Delivers (answerTo serde connection.host spec call.request) parsed := by
  have hstart : exec (start display umask environment) fs =
      (.ok path.socket.phonyPath, path.socket.bound fs) := by
    rw [start_eq_bind hformat hvalue hnames, Socket.exec_bind_free hdir hpublic hphony hfits]
  obtain ⟨server, hserver, hserves⟩ := exists_serve serde hlimit
    (before ++ .stream connection :: behind)
  obtain ⟨parsed, hparsed, hanswer⟩ := exists_parsed hcall hbody hserde
  have hnone : before.any (Incoming.blocks serde spec) = false := by
    rw [Bool.eq_false_iff, Ne, any_blocks_iff]
    rintro ⟨earlier, hmem, hblocks⟩
    exact hbefore earlier hmem hblocks
  -- the loop gets to the connection of the call
  obtain ⟨rest, hrest⟩ := exists_reached_append hnone connection behind
  have hsent := hserves.sent
  rw [hrest, connections_append] at hsent
  obtain ⟨sent, hat, hreceives⟩ := exists_getElem?_of_forall₂ hsent
  refine ⟨server, sent, parsed, ?_, hat, ?_, hanswer⟩
  · rw [run, hstart, hserver]
  · rw [hreceives.whole hcall.cloned (hcall.taken ▸ trivial)]
    exact hparsed

end

/-- A call of a client that stays until it has its response. -/
def sampleConnection : Connection where
  cloneFault := none
  received := sampleCall.message.bytes
  ending := .stays
  host := ⟨1, 5, by decide⟩
  room := .unlimited

theorem carriesCall_sample : CarriesCall sampleConnection sampleCall :=
  ⟨rfl, sampleCall.callBytes_given, rfl⟩

/-- A failure of the listener before the call, and a peer that sends nothing
    behind it. -/
theorem run_answers_sample :
    ∃ server sent parsed,
      run .compact sampleSpec (fun _ => []) 0o022 lsnrEnvironment
          (Socket.twoEntries Socket.lsnr none none)
          ([.failed "Too many open files (os error 24)"] ++ .stream sampleConnection ::
            [.stream ⟨none, [], .stays, ⟨2, 5, by decide⟩, .unlimited⟩]) =
        (.ok ⟨listeningLine sampleSpec ++ ['\n'], some server⟩,
          lsnrPath.socket.bound (Socket.twoEntries Socket.lsnr none none)) ∧
      server.sent[0]? = some sent ∧ parseResponse .compact sent = some parsed ∧
      parsed.outerStatus = 200 ∧
      Delivers (answerTo .compact ⟨1, 5, by decide⟩ sampleSpec sampleCall.request) parsed :=
  run_answers (by decide) lsnrEnvironment_asks lsnrEnvironment_listener lsnrEnvironment_names
    (Socket.twoEntries_inDirectory _ _ _) not_blocked_lsnr.1 not_blocked_lsnr.2 fitsAddress_lsnr
    carriesCall_sample (by decide +kernel) serializes_sample _ _ (List.forall_mem_nil _)

end OracleFn
