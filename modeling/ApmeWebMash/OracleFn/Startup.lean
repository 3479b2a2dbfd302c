-- SUMMARY: The start of the Fn adapter: its two variables, the listener URI, and the socket that a client finds.
import ApmeWebMash.Base.Separator
import ApmeWebMash.OracleFn.Socket

/-! # Startup

Before it serves, `run` looks at two variables. The first names the only format
that the adapter speaks. The second names the socket path in a URI, from which
the path is taken apart into its components. Nothing is bound unless both are
right. -/

namespace OracleFn

open FileSystem (Call Component Entry Error FitsAddress Path State exec)
open Separator (splitAll)
open Socket (Blocked SocketPath bind)

/-! ## The listener URI -/

/-- One part of the text of a path, as `Path::components` yields it. -/
def component (part : Str) : Option Component :=
  if part = [] ∨ part = "." then none
  else if part = ".." then some .parentDir
  else some (.normal (Utf8.encode part))

/-- `Path::components` of an absolute path, below the root. A slash at the end,
    which the system calls would see, is left out, and so are empty parts and
    single dots, which count for the length of an address. -/
def components (raw : Str) : Path := (splitAll ['/'] raw).filterMap component

/-- An error that the adapter makes about its configuration. -/
def invalidInput (message : Str) : Error := .custom .invalidInput message

/-- `parse_listener_uri`. -/
def parseListenerUri (value : Str) : Except Error Path :=
  let trimmed := Str.trim value
  match (Str.stripPrefix trimmed "unix://").or (Str.stripPrefix trimmed "unix:") with
  | none => .error (invalidInput "FN_LISTENER must use a unix: or unix:// URI")
  | some raw =>
    if Str.trim raw = [] || !Str.startsWith raw "/" then
      .error (invalidInput "FN_LISTENER must name an absolute Unix socket path")
    else .ok (components raw)

/-! ## The start -/

def fnFormatHttpStream : Str := "http-stream"

section
variable (display : Path → Str) (umask : Nat)

/-- `run`, up to the listener. -/
def start (environment : Environment) : Call Path :=
  match envVar environment "FN_FORMAT" with
  | none => throw (invalidInput "FN_FORMAT is required for Oracle Functions/Fn Project")
  | some format =>
    if Str.trim format ≠ fnFormatHttpStream then
      throw (invalidInput "FN_FORMAT must equal http-stream")
    else
      match envVar environment "FN_LISTENER" with
      | none => throw (invalidInput "FN_LISTENER is required for Oracle Functions/Fn Project")
      | some listenerValue =>
        match parseListenerUri listenerValue with
        | .error error => throw error
        | .ok socketPath => bind display umask socketPath

end

/-! ## Listener paths -/

/-- A part of a path that stands for an entry. -/
structure IsEntryName (part : Str) : Prop where
  ne_nil : part ≠ []
  no_slash : '/' ∉ part
  no_nul : Char.ofNat 0 ∉ part
  ne_dot : part ≠ "."
  ne_dots : part ≠ ".."

/-- An absolute path by its names, the last of which is not cut by trimming. -/
structure ListenerPath where
  directory : List Str
  name : Str
  directory_names : ∀ part ∈ directory, IsEntryName part
  name_name : IsEntryName name
  name_end : ∀ c, name.getLast? = some c → Str.isWhitespace c = false

namespace ListenerPath

variable (path : ListenerPath)

/-- The path as it is written. -/
def text : Str := (path.directory ++ [path.name]).flatMap fun part => '/' :: part

/-- The two paths of the socket. -/
def socket : SocketPath where
  parent := path.directory.map fun part => .normal (Utf8.encode part)
  name := path.name
  name_ne_nil := path.name_name.ne_nil

end ListenerPath

/-- The value of `FN_LISTENER` for a path: its URI, with white space around it. -/
structure NamesListener (value : Str) (path : ListenerPath) : Prop where
  uri : ∃ scheme before behind : Str, scheme ∈ (["unix:", "unix://"] : List Str) ∧
    (∀ c ∈ before, Str.isWhitespace c) ∧ (∀ c ∈ behind, Str.isWhitespace c) ∧
    value = before ++ (scheme ++ path.text) ++ behind

theorem component_of_isEntryName {part : Str} (h : IsEntryName part) :
    component part = some (.normal (Utf8.encode part)) := by
  rw [component, if_neg (not_or.mpr ⟨h.ne_nil, h.ne_dot⟩), if_neg h.ne_dots]

namespace ListenerPath

variable (path : ListenerPath)

theorem names : ∀ part ∈ path.directory ++ [path.name], IsEntryName part := by
  intro part hpart
  rcases List.mem_append.mp hpart with hpart | hpart
  · exact path.directory_names part hpart
  · rw [List.mem_singleton.mp hpart]
    exact path.name_name

theorem text_eq_intercalate :
    path.text = List.intercalate ['/'] ([] :: (path.directory ++ [path.name])) := by
  rw [Separator.intercalate_cons]
  rfl

theorem components_text : components path.text = path.socket.publicPath := by
  have hslash : ∀ part ∈ [] :: (path.directory ++ [path.name]), '/' ∉ part := by
    intro part hpart
    rcases List.mem_cons.mp hpart with rfl | hpart
    · exact List.not_mem_nil
    · exact (path.names part hpart).no_slash
  have hparts : (path.directory ++ [path.name]).filterMap component =
      (path.directory ++ [path.name]).map fun part => .normal (Utf8.encode part) := by
    rw [← List.filterMap_eq_map]
    exact List.filterMap_congr fun part hpart => component_of_isEntryName (path.names part hpart)
  rw [components, text_eq_intercalate, Separator.splitAll_intercalate (List.cons_ne_nil _ _) hslash,
    List.filterMap_cons_none (by rfl), hparts, List.map_append]
  rfl

/-- The text begins with one slash. -/
theorem exists_text : ∃ c rest, path.text = '/' :: c :: rest ∧ c ≠ '/' := by
  obtain ⟨part, parts, hparts⟩ := List.exists_cons_of_ne_nil
    (List.append_ne_nil_of_right_ne_nil path.directory (List.cons_ne_nil path.name []))
  have hpart := path.names part (hparts ▸ List.mem_cons_self)
  obtain ⟨c, rest, rfl⟩ := List.exists_cons_of_ne_nil hpart.ne_nil
  have hc : c ≠ '/' := fun h => hpart.no_slash (h ▸ List.mem_cons_self)
  exact ⟨c, rest ++ parts.flatMap fun part => '/' :: part, by rw [text, hparts]; rfl, hc⟩

/-- The text ends where the name does. -/
theorem isWhitespace_getLast_text {c : Char} (h : path.text.getLast? = some c) :
    Str.isWhitespace c = false := by
  refine path.name_end c ?_
  obtain ⟨start, last, hname⟩ := (List.eq_nil_or_concat' path.name).resolve_left path.name_name.ne_nil
  rw [text, List.flatMap_append, List.flatMap_singleton, hname, ← List.cons_append,
    ← List.append_assoc, List.getLast?_concat] at h
  rw [hname, List.getLast?_concat, h]

end ListenerPath

/-! ## The URI is read -/

/-- Trimming a value leaves the URI. -/
theorem trim_uri (path : ListenerPath) {scheme before behind : Str}
    (hscheme : scheme ∈ (["unix:", "unix://"] : List Str))
    (hbefore : ∀ c ∈ before, Str.isWhitespace c) (hbehind : ∀ c ∈ behind, Str.isWhitespace c) :
    Str.trim (before ++ (scheme ++ path.text) ++ behind) = scheme ++ path.text := by
  rw [Str.trim_append_right hbehind, Str.trim_append_left hbefore]
  refine Str.trim_eq_self_of_ends ?_ ?_
  · have hhead : ∀ scheme ∈ (["unix:", "unix://"] : List Str), ∀ rest : Str,
        (scheme ++ rest).head? = some 'u' := by
      intro scheme hscheme rest
      rcases List.mem_pair.mp hscheme with rfl | rfl <;> rfl
    intro c hc
    rw [hhead scheme hscheme] at hc
    obtain rfl := Option.some.inj hc
    decide
  · intro c hc
    obtain ⟨d, rest, htext, -⟩ := path.exists_text
    rw [List.getLast?_append_of_ne_nil _ (htext ▸ List.cons_ne_nil _ _)] at hc
    exact path.isWhitespace_getLast_text hc

/-- The slashes of the longer scheme are not taken for those of a path, and the
    shorter scheme leaves the whole path. -/
theorem strip_uri (path : ListenerPath) {scheme : Str}
    (hscheme : scheme ∈ (["unix:", "unix://"] : List Str)) :
    (Str.stripPrefix (scheme ++ path.text) "unix://").or
      (Str.stripPrefix (scheme ++ path.text) "unix:") = some path.text := by
  obtain ⟨c, rest, htext, hc⟩ := path.exists_text
  rcases List.mem_pair.mp hscheme with rfl | rfl
  · have hlong : ¬ ("unix://" : Str) <+: ("unix:" : Str) ++ path.text := by
      have hsplit : ("unix://" : Str) = ("unix:" : Str) ++ ['/', '/'] := by decide
      intro h
      rw [hsplit, List.prefix_append_right_inj, htext] at h
      simp only [List.cons_prefix_cons] at h
      exact hc h.2.1.symm
    rw [Str.stripPrefix, if_neg hlong, Option.none_or, Str.stripPrefix,
      if_pos (List.prefix_append _ _), List.drop_left]
  · rw [Str.stripPrefix, if_pos (List.prefix_append _ _), List.drop_left, Option.some_or]

theorem parseListenerUri_of_names {value : Str} {path : ListenerPath}
    (h : NamesListener value path) : parseListenerUri value = .ok path.socket.publicPath := by
  obtain ⟨scheme, before, behind, hscheme, hbefore, hbehind, rfl⟩ := h.uri
  obtain ⟨c, rest, htext, hc⟩ := path.exists_text
  have hblank : Str.trim path.text ≠ [] := by
    rw [Ne, Str.trim_eq_nil_iff]
    intro hall
    exact absurd (hall '/' (htext ▸ List.mem_cons_self)) (by decide)
  have habsolute : Str.startsWith path.text "/" := by
    rw [Str.startsWith, decide_eq_true_iff, htext]
    exact List.prefix_append ['/'] _
  simp only [parseListenerUri, trim_uri path hscheme hbefore hbehind, strip_uri path hscheme,
    hblank, decide_false, habsolute, Bool.not_true, Bool.or_false, Bool.false_eq_true, ↓reduceIte,
    path.components_text]

/-! ## What a start does -/

/-- The format that is asked for is the one that the adapter speaks. -/
def AsksForHttpStream (environment : Environment) : Prop :=
  ∃ format, envVar environment "FN_FORMAT" = some format ∧ Str.trim format = fnFormatHttpStream

section
variable {display : Path → Str} {umask : Nat} {environment : Environment} {fs : State}
  {value : Str} {path : ListenerPath}

theorem start_eq_bind (hformat : AsksForHttpStream environment)
    (hvalue : envVar environment "FN_LISTENER" = some value) (hnames : NamesListener value path) :
    start display umask environment = bind display umask path.socket.publicPath := by
  obtain ⟨format, hget, htrim⟩ := hformat
  simp only [start, hget, htrim, ne_eq, not_true_eq_false, ↓reduceIte, hvalue,
    parseListenerUri_of_names hnames]

theorem exec_start_refused (hformat : ¬ AsksForHttpStream environment) :
    ∃ message, exec (start display umask environment) fs = (.error (invalidInput message), fs) := by
  cases hget : envVar environment "FN_FORMAT" with
  | none => exact ⟨_, by rw [start, hget]; rfl⟩
  | some format =>
    have htrim : Str.trim format ≠ fnFormatHttpStream := fun h => hformat ⟨format, hget, h⟩
    exact ⟨_, by rw [start, hget]; dsimp only; rw [if_pos htrim]; rfl⟩

/-- A start that is asked for the right format, at a path in a directory that is
    there, fails only over an entry that it may not remove, and over a name that
    is too long for an address. It leaves behind what binding is to leave behind.
    A start over another format leaves everything as it was, and one over a long
    name has removed what was at the two paths. -/
theorem start_listens_iff (hvalue : envVar environment "FN_LISTENER" = some value)
    (hnames : NamesListener value path) (hdir : path.socket.InDirectory fs) :
    (exec (start display umask environment) fs =
        (.ok path.socket.phonyPath, path.socket.bound fs) ↔
      AsksForHttpStream environment ∧ ¬ Blocked fs path.socket.publicPath ∧
        ¬ Blocked fs path.socket.phonyPath ∧ FitsAddress path.socket.phonyPath) ∧
    (∀ listener fs', exec (start display umask environment) fs = (.ok listener, fs') →
      listener = path.socket.phonyPath ∧ fs' = path.socket.bound fs) ∧
    (¬ AsksForHttpStream environment → (exec (start display umask environment) fs).2 = fs) ∧
    (AsksForHttpStream environment → ¬ Blocked fs path.socket.publicPath →
      ¬ Blocked fs path.socket.phonyPath → ¬ FitsAddress path.socket.phonyPath →
      exec (start display umask environment) fs =
        (.error FileSystem.addressTooLong, path.socket.cleared fs)) := by
  by_cases hformat : AsksForHttpStream environment
  · rw [start_eq_bind hformat hvalue hnames]
    refine ⟨⟨fun h => ⟨hformat, fun hpublic => ?_, fun hphony => ?_,
      (Socket.of_exec_bind_ok hdir h).1⟩, ?_⟩, fun _ _ h => (Socket.of_exec_bind_ok hdir h).2,
      fun h => absurd hformat h, fun _ => Socket.exec_bind_tooLong hdir⟩
    · rw [Socket.exec_bind_publicBlocked hdir hpublic] at h
      cases h
    -- `bind` clears the public path first
    · by_cases hpublic : Blocked fs path.socket.publicPath
      · rw [Socket.exec_bind_publicBlocked hdir hpublic] at h
        cases h
      · rw [Socket.exec_bind_phonyBlocked hdir hpublic hphony] at h
        cases h
    · rintro ⟨-, hpublic, hphony, hfits⟩
      exact Socket.exec_bind_free hdir hpublic hphony hfits
  · obtain ⟨message, hrun⟩ := @exec_start_refused display umask environment fs hformat
    rw [hrun]
    exact ⟨⟨fun h => (by cases h), fun h => absurd h.1 hformat⟩, fun _ _ h => (by cases h),
      fun _ => rfl, fun h => absurd h hformat⟩

/-- `/tmp/lsnr.sock`. -/
def lsnrPath : ListenerPath where
  directory := ["tmp"]
  name := "lsnr.sock"
  directory_names := by
    intro part hpart
    rw [List.mem_singleton.mp hpart]
    exact ⟨by decide, by decide, by decide, by decide, by decide⟩
  name_name := ⟨by decide, by decide, by decide, by decide, by decide⟩
  name_end := by
    intro c hc
    obtain rfl := Option.some.inj ((by decide : ("lsnr.sock" : Str).getLast? = some 'k').symm.trans hc)
    decide

/-- The variables that the runtime sets, with line ends behind the values. -/
def lsnrEnvironment : Environment := fun name =>
  if name = "FN_FORMAT" then some (Utf8.encode "http-stream\n")
  else if name = "FN_LISTENER" then some (Utf8.encode "unix:///tmp/lsnr.sock\n")
  else none

theorem lsnrEnvironment_listener :
    envVar lsnrEnvironment "FN_LISTENER" = some "unix:///tmp/lsnr.sock\n" := by decide +kernel

theorem lsnrEnvironment_asks : AsksForHttpStream lsnrEnvironment :=
  ⟨"http-stream\n", by decide +kernel, by decide +kernel⟩

theorem lsnrEnvironment_names : NamesListener "unix:///tmp/lsnr.sock\n" lsnrPath :=
  ⟨"unix://", [], ['\n'], by decide, List.forall_mem_nil _,
    List.forall_mem_singleton.mpr (by decide), by decide +kernel⟩

theorem start_listens_iff_lsnr :
    (exec (start (fun _ => []) 0o022 lsnrEnvironment) (Socket.twoEntries Socket.lsnr none none) =
        (.ok lsnrPath.socket.phonyPath,
          lsnrPath.socket.bound (Socket.twoEntries Socket.lsnr none none)) ↔
      AsksForHttpStream lsnrEnvironment ∧
        ¬ Blocked (Socket.twoEntries Socket.lsnr none none) lsnrPath.socket.publicPath ∧
        ¬ Blocked (Socket.twoEntries Socket.lsnr none none) lsnrPath.socket.phonyPath ∧
        FitsAddress lsnrPath.socket.phonyPath) :=
  (start_listens_iff lsnrEnvironment_listener lsnrEnvironment_names
    (Socket.twoEntries_inDirectory _ _ _)).1

/-! ## Interrupted starts -/

/-- The calls of `bind` at a socket path, in order. -/
def bindCalls (display : Path → Str) (umask : Nat) (socket : SocketPath) : List (Call Unit) := [
  Socket.removePreviousSocket display socket.publicPath,
  Socket.removePreviousSocket display socket.phonyPath,
  FileSystem.bindListener umask socket.phonyPath,
  FileSystem.setPermissions socket.phonyPath 0o666,
  FileSystem.symlink (Socket.boundName socket.name) socket.publicPath]

theorem bind_eq_bindCalls (socket : SocketPath) :
    bind display umask socket.publicPath =
      (do
        FileSystem.sequence (bindCalls display umask socket)
        pure socket.phonyPath) := by
  rw [Socket.bind_publicPath]
  simp only [bindCalls, FileSystem.sequence, bind_assoc, pure_bind]

/-- A file system from which a start gets to where a start from `fs` gets. -/
structure Restartable (socket : SocketPath) (fs moment : State) : Prop where
  directory : socket.InDirectory moment
  public_free : ¬ Blocked moment socket.publicPath
  phony_free : ¬ Blocked moment socket.phonyPath
  elsewhere : ∀ path, path ≠ socket.publicPath → path ≠ socket.phonyPath → moment path = fs path

/-- An entry that a start may remove or finds missing. -/
def IsFree : Option Entry → Prop
  | none => True
  | some entry => Socket.IsReplaceable entry

theorem not_blocked_iff {moment : State} {at' : Path} :
    ¬ Blocked moment at' ↔ IsFree (moment at') := by
  rw [Blocked]
  cases moment at' with
  | none => simp [IsFree]
  | some entry => simp [IsFree]

namespace Restartable

variable {socket : SocketPath} {moment : State}

theorem updatePublic (h : Restartable socket fs moment) {entry : Option Entry} (hfree : IsFree entry) :
    Restartable socket fs (Function.update moment socket.publicPath entry) where
  directory := h.directory.update (.inl rfl) entry
  public_free := by rwa [not_blocked_iff, Function.update_self]
  phony_free := by
    rw [not_blocked_iff, Function.update_of_ne socket.phonyPath_ne_publicPath]
    exact not_blocked_iff.mp h.phony_free
  elsewhere := fun at' hpublic hphony =>
    (Function.update_of_ne hpublic _ _).trans (h.elsewhere at' hpublic hphony)

theorem updatePhony (h : Restartable socket fs moment) {entry : Option Entry} (hfree : IsFree entry) :
    Restartable socket fs (Function.update moment socket.phonyPath entry) where
  directory := h.directory.update (.inr rfl) entry
  public_free := by
    rw [not_blocked_iff, Function.update_of_ne socket.phonyPath_ne_publicPath.symm]
    exact not_blocked_iff.mp h.public_free
  phony_free := by rwa [not_blocked_iff, Function.update_self]
  elsewhere := fun at' hpublic hphony =>
    (Function.update_of_ne hphony _ _).trans (h.elsewhere at' hpublic hphony)

/-- The two paths are overwritten, and all others are as they were. -/
theorem bound_eq (h : Restartable socket fs moment) : socket.bound moment = socket.bound fs := by
  funext at'
  by_cases hpublic : at' = socket.publicPath
  · rw [hpublic, Socket.bound_publicPath, Socket.bound_publicPath]
  · by_cases hphony : at' = socket.phonyPath
    · rw [hphony, Socket.bound_phonyPath, Socket.bound_phonyPath]
    · rw [Socket.bound_of_ne hpublic hphony, Socket.bound_of_ne hpublic hphony,
        h.elsewhere at' hpublic hphony]

theorem exec_bind (h : Restartable socket fs moment) (hfits : FitsAddress socket.phonyPath) :
    exec (bind display umask socket.publicPath) moment = (.ok socket.phonyPath, socket.bound fs) := by
  rw [Socket.exec_bind_free h.directory h.public_free h.phony_free hfits, h.bound_eq]

end Restartable

/-- A client that finds a link to the bound name finds a socket there that it may
    connect to. -/
def UsableWhenFound (socket : SocketPath) (moment : State) : Prop :=
  ∀ target, moment socket.publicPath = some (.symlink target) →
    target = Socket.boundName socket.name ∧ moment socket.phonyPath = some (.socket 0o666)

theorem usableWhenFound_of_none {socket : SocketPath} {moment : State}
    (h : moment socket.publicPath = none) : UsableWhenFound socket moment := by
  intro target htarget
  rw [h] at htarget
  cases htarget

/-- The moments of a start behind its first call, on two paths that may be
    removed. -/
theorem tail_moments_bindCalls {socket : SocketPath} (h : Restartable socket fs fs)
    (hfits : FitsAddress socket.phonyPath) :
    ∀ moment ∈ (FileSystem.moments (bindCalls display umask socket) fs).tail,
      Restartable socket fs moment ∧ UsableWhenFound socket moment := by
  have hne := socket.phonyPath_ne_publicPath
  have hsocket : ∀ mode, IsFree (some (.socket mode)) := fun mode => .inl rfl
  -- the file systems behind the five calls
  have h₁ := h.updatePublic (show IsFree none from trivial)
  have h₂ := h₁.updatePhony (show IsFree none from trivial)
  have h₃ := h₂.updatePhony (hsocket (0o777 &&& (0o777 ^^^ umask)))
  have h₄ := h₃.updatePhony (hsocket 0o666)
  have h₅ := h₄.updatePublic (show IsFree (some (.symlink (Socket.boundName socket.name))) from .inr rfl)
  have hnone₁ := Function.update_self socket.publicPath (none : Option Entry) fs
  have hnone₂ := (Function.update_of_ne hne.symm none _).trans hnone₁
  have hnone₃ := (Function.update_of_ne hne.symm
    (some (.socket (0o777 &&& (0o777 ^^^ umask)))) _).trans hnone₂
  have hnone₄ := (Function.update_of_ne hne.symm (some (.socket 0o666)) _).trans hnone₃
  refine FileSystem.forall_tail_moments
    (Socket.exec_removePreviousSocket h.directory.leads_publicPath h.public_free)
    ⟨h₁, usableWhenFound_of_none hnone₁⟩ (FileSystem.forall_tail_moments
      (Socket.exec_removePreviousSocket h₁.directory.leads_phonyPath h₁.phony_free)
      ⟨h₂, usableWhenFound_of_none hnone₂⟩ (FileSystem.forall_tail_moments
        (FileSystem.exec_bindListener h₂.directory.leads_phonyPath (Function.update_self _ _ _)
          hfits _)
        ⟨h₃, usableWhenFound_of_none hnone₃⟩ (FileSystem.forall_tail_moments
          (FileSystem.exec_setPermissions h₃.directory.leads_phonyPath (Function.update_self _ _ _) _)
          ⟨h₄, usableWhenFound_of_none hnone₄⟩ (FileSystem.forall_tail_moments
            (FileSystem.exec_create h₄.directory.leads_publicPath hnone₄ _ _)
            ⟨h₅, ?_⟩ (List.forall_mem_nil _)))))
  intro target htarget
  rw [Function.update_self] at htarget
  obtain rfl := Entry.symlink.inj (Option.some.inj htarget)
  exact ⟨rfl, (Function.update_of_ne hne _ _).trans (Function.update_self _ _ _)⟩

/-- A start may be interrupted at any moment: the next one succeeds and leaves
    behind what the first would have left behind. From the first call on, the link
    is there only while the socket behind it takes connections. -/
theorem start_interrupted (hformat : AsksForHttpStream environment)
    (hvalue : envVar environment "FN_LISTENER" = some value) (hnames : NamesListener value path)
    (hdir : path.socket.InDirectory fs) (hpublic : ¬ Blocked fs path.socket.publicPath)
    (hphony : ¬ Blocked fs path.socket.phonyPath) (hfits : FitsAddress path.socket.phonyPath) :
    start display umask environment = (do
      FileSystem.sequence (bindCalls display umask path.socket)
      pure path.socket.phonyPath) ∧
    (∀ moment ∈ FileSystem.moments (bindCalls display umask path.socket) fs,
      exec (start display umask environment) moment =
        (.ok path.socket.phonyPath, path.socket.bound fs)) ∧
    ∀ moment ∈ (FileSystem.moments (bindCalls display umask path.socket) fs).tail,
      UsableWhenFound path.socket moment := by
  have hfs : Restartable path.socket fs fs := ⟨hdir, hpublic, hphony, fun _ _ _ => rfl⟩
  have htail := @tail_moments_bindCalls display umask fs _ hfs hfits
  rw [start_eq_bind hformat hvalue hnames, FileSystem.moments_eq_cons]
  refine ⟨bind_eq_bindCalls _, ?_, fun moment hmoment => (htail moment hmoment).2⟩
  exact List.forall_mem_cons.mpr
    ⟨hfs.exec_bind hfits, fun moment hmoment => (htail moment hmoment).1.exec_bind hfits⟩

theorem not_blocked_lsnr :
    ¬ Blocked (Socket.twoEntries Socket.lsnr none none) lsnrPath.socket.publicPath ∧
      ¬ Blocked (Socket.twoEntries Socket.lsnr none none) lsnrPath.socket.phonyPath := by
  have hnone : ∀ at' ∈ [lsnrPath.socket.publicPath, lsnrPath.socket.phonyPath],
      Socket.twoEntries Socket.lsnr none none at' = none := by decide +kernel
  simp only [List.forall_mem_cons] at hnone
  rw [not_blocked_iff, not_blocked_iff, hnone.1, hnone.2.1]
  exact ⟨trivial, trivial⟩

theorem fitsAddress_lsnr : FitsAddress lsnrPath.socket.phonyPath := by decide +kernel

theorem start_interrupted_lsnr :
    exec (start (fun _ => []) 0o022 lsnrEnvironment) (Socket.twoEntries Socket.lsnr none none) =
      (.ok lsnrPath.socket.phonyPath,
        lsnrPath.socket.bound (Socket.twoEntries Socket.lsnr none none)) := by
  refine (start_interrupted lsnrEnvironment_asks lsnrEnvironment_listener lsnrEnvironment_names
    (Socket.twoEntries_inDirectory _ _ _) not_blocked_lsnr.1 not_blocked_lsnr.2
    fitsAddress_lsnr).2.1 _ ?_
  rw [FileSystem.moments_eq_cons]
  exact List.mem_cons_self

end

end OracleFn
