-- SUMMARY: Binding the socket of the Fn adapter: what is removed and created, and what a refusal leaves behind.
import ApmeWebMash.Base.FileSystem

/-! # The Fn socket

The Fn runtime waits for a socket at a public path and connects to it as soon as
it is there. `bind` therefore binds to another name beside it and puts a link to
that at the public path when all is done. Sockets and links of an earlier run
are removed first, one path after the other. -/

namespace OracleFn.Socket

open FileSystem (Call Component Entry Error ErrorKind FitsAddress Path State attempt bindListener
  exec removeFile setPermissions symlink symlinkMetadata)

section
variable (display : Path → Str) (umask : Nat)

/-- The error about a path that holds something else than a socket or a link.
    `display` is `Path::display`. -/
def refusal (path : Path) : Error :=
  .custom .alreadyExists
    (("refusing to replace a non-socket FN_LISTENER path: " : Str) ++ display path)

/-- `remove_previous_socket`. -/
def removePreviousSocket (path : Path) : Call Unit := do
  match ← attempt (symlinkMetadata path) with
  | .ok entry =>
    if !entry.isSocket && !entry.isSymlink then throw (refusal display path) else removeFile path
  | .error error => if error.kind = .notFound then pure () else throw error

/-- The name that is bound, beside the public one. -/
def boundName (fileName : Str) : List UInt8 :=
  Utf8.encode (("phony" : Str) ++ fileName)

/-- `bind`: the listener, as the path that it is bound to. -/
def bind (socketPath : Path) : Call Path := do
  match socketPath.parent with
  | none =>
    throw (.custom .invalidInput "FN_LISTENER socket path must have a parent directory")
  | some parent =>
    match (socketPath.fileName.bind Utf8.decode).filter (· ≠ []) with
    | none =>
      throw (.custom .invalidInput "FN_LISTENER socket path must have a valid file name")
    | some fileName =>
      let boundPath := parent.join (boundName fileName)
      removePreviousSocket display socketPath
      removePreviousSocket display boundPath
      bindListener umask boundPath
      setPermissions boundPath 0o666
      match boundPath.fileName with
      | none => throw (.custom .invalidInput "invalid bound socket name")
      | some boundName =>
        symlink boundName socketPath
        pure boundPath

end

/-! ## All or nothing -/

/-- A socket path with a UTF-8 file name. -/
structure SocketPath where
  parent : Path
  name : Str
  name_ne_nil : name ≠ []

namespace SocketPath

variable (socket : SocketPath)

/-- The path that the runtime connects to. -/
def publicPath : Path := socket.parent.join (Utf8.encode socket.name)

/-- The path that the socket is bound to. -/
def phonyPath : Path := socket.parent.join (boundName socket.name)

end SocketPath

/-- An entry that `bind` may remove. -/
def IsReplaceable (entry : Entry) : Prop := entry.isSocket ∨ entry.isSymlink

/-- The path holds an entry that `bind` may not remove. -/
def Blocked (fs : State) (path : Path) : Prop :=
  ∃ entry, fs path = some entry ∧ ¬ IsReplaceable entry

/-- What binding is meant to be: it removes and replaces nothing but sockets and
    links, it changes nothing if it refuses a path for what that holds, and if it
    succeeds it can be done again. -/
structure AllOrNothing (display : Path → Str) (umask : Nat) (fs : State) (socket : SocketPath) :
    Prop where
  keeps : ∀ path entry, fs path = some entry → ¬ IsReplaceable entry →
    (exec (bind display umask socket.publicPath) fs).2 path = some entry
  refuses : ∀ error, (exec (bind display umask socket.publicPath) fs).1 = .error error →
    Blocked fs socket.publicPath ∨ Blocked fs socket.phonyPath →
      (exec (bind display umask socket.publicPath) fs).2 = fs
  binds : ∀ listener fs', exec (bind display umask socket.publicPath) fs = (.ok listener, fs') →
    (∃ mode, fs' socket.phonyPath = some (.socket mode)) ∧
    fs' socket.publicPath = some (.symlink (boundName socket.name)) ∧
    (∀ path, path ≠ socket.publicPath → path ≠ socket.phonyPath → fs' path = fs path) ∧
    exec (bind display umask socket.publicPath) fs' = (.ok listener, fs')

variable {display : Path → Str} {umask : Nat} {fs : State}

/-! ## Removal -/

theorem exec_removePreviousSocket_none {path : Path} (h : FileSystem.Leads fs path)
    (hnone : fs path = none) :
    exec (removePreviousSocket display path) fs = (.ok (), fs) := by
  have hmeta := FileSystem.exec_symlinkMetadata h
  rw [hnone] at hmeta
  rw [removePreviousSocket, FileSystem.exec_bind_ok (FileSystem.exec_attempt _), hmeta]
  rfl

theorem exec_removePreviousSocket_replaceable {path : Path} (h : FileSystem.Leads fs path)
    {entry : Entry} (hentry : fs path = some entry) (hreplaceable : IsReplaceable entry) :
    exec (removePreviousSocket display path) fs = (.ok (), Function.update fs path none) := by
  have hmeta := FileSystem.exec_symlinkMetadata h
  rw [hentry] at hmeta
  have hkind : ¬ (!entry.isSocket && !entry.isSymlink) := by
    rw [Bool.and_eq_true, Bool.not_eq_true', Bool.not_eq_true']
    rintro ⟨hsocket, hlink⟩
    rcases hreplaceable with h | h
    · rw [hsocket] at h
      cases h
    · rw [hlink] at h
      cases h
  have hne : entry ≠ .directory := by
    rintro rfl
    rcases hreplaceable with h | h <;> cases h
  rw [removePreviousSocket, FileSystem.exec_bind_ok (FileSystem.exec_attempt _), hmeta]
  simp only [Option.elim_some, hkind]
  exact FileSystem.exec_removeFile h hentry hne

theorem exec_removePreviousSocket_blocked {path : Path} (h : FileSystem.Leads fs path)
    (hblocked : Blocked fs path) :
    exec (removePreviousSocket display path) fs = (.error (refusal display path), fs) := by
  obtain ⟨entry, hentry, hnot⟩ := hblocked
  have hmeta := FileSystem.exec_symlinkMetadata h
  rw [hentry] at hmeta
  rw [IsReplaceable, not_or, Bool.not_eq_true, Bool.not_eq_true] at hnot
  rw [removePreviousSocket, FileSystem.exec_bind_ok (FileSystem.exec_attempt _), hmeta]
  simp only [Option.elim_some, hnot]
  rfl

/-- A path that is not blocked is free afterwards. -/
theorem exec_removePreviousSocket {path : Path} (h : FileSystem.Leads fs path)
    (hfree : ¬ Blocked fs path) :
    exec (removePreviousSocket display path) fs = (.ok (), Function.update fs path none) := by
  cases hentry : fs path with
  | none =>
    rw [exec_removePreviousSocket_none h hentry, ← hentry, Function.update_eq_self]
  | some entry =>
    have hreplaceable : IsReplaceable entry := by
      by_contra hnot
      exact hfree ⟨entry, hentry, hnot⟩
    exact exec_removePreviousSocket_replaceable h hentry hreplaceable

/-! ## Binding -/

namespace SocketPath

variable (socket : SocketPath)

theorem phonyPath_ne_publicPath : socket.phonyPath ≠ socket.publicPath := by
  intro h
  have hname : ("phony" : Str) ++ socket.name = socket.name :=
    Utf8.encode_injective (FileSystem.join_inj.mp h)
  have hlength := congrArg List.length hname
  rw [List.length_append] at hlength
  exact absurd (Nat.add_eq_right.mp hlength) (by decide)

theorem parent_ne_publicPath : socket.parent ≠ socket.publicPath :=
  (FileSystem.join_ne_self _ _).symm

theorem parent_ne_phonyPath : socket.parent ≠ socket.phonyPath :=
  (FileSystem.join_ne_self _ _).symm

/-- The directory of both paths is there. -/
def InDirectory (fs : State) : Prop := fs socket.parent = some .directory

variable {socket} in
theorem InDirectory.leads_publicPath (h : socket.InDirectory fs) :
    FileSystem.Leads fs socket.publicPath := by
  intro parent hparent
  rw [publicPath, FileSystem.parent_join] at hparent
  rw [← Option.some.inj hparent, h]

variable {socket} in
theorem InDirectory.leads_phonyPath (h : socket.InDirectory fs) :
    FileSystem.Leads fs socket.phonyPath := by
  intro parent hparent
  rw [phonyPath, FileSystem.parent_join] at hparent
  rw [← Option.some.inj hparent, h]

variable {socket} in
/-- What happens at the two paths leaves their directory alone. -/
theorem InDirectory.update (h : socket.InDirectory fs) {path : Path}
    (hpath : path = socket.publicPath ∨ path = socket.phonyPath) (entry : Option Entry) :
    socket.InDirectory (Function.update fs path entry) := by
  rw [InDirectory]
  rcases hpath with rfl | rfl
  · rw [Function.update_of_ne socket.parent_ne_publicPath, h]
  · rw [Function.update_of_ne socket.parent_ne_phonyPath, h]

/-- The file system without the two paths. -/
def cleared (fs : State) : State :=
  Function.update (Function.update fs socket.publicPath none) socket.phonyPath none

/-- The file system that `bind` is to leave behind. -/
def bound (fs : State) : State :=
  Function.update (Function.update fs socket.phonyPath (some (.socket 0o666)))
    socket.publicPath (some (.symlink (boundName socket.name)))

end SocketPath

variable {socket : SocketPath}

/-- The calls of `bind` on such a path. -/
theorem bind_publicPath :
    bind display umask socket.publicPath = (do
      removePreviousSocket display socket.publicPath
      removePreviousSocket display socket.phonyPath
      bindListener umask socket.phonyPath
      setPermissions socket.phonyPath 0o666
      symlink (boundName socket.name) socket.publicPath
      pure socket.phonyPath) := by
  have hname : (socket.publicPath.fileName.bind Utf8.decode).filter (· ≠ []) = some socket.name := by
    rw [SocketPath.publicPath, FileSystem.fileName_join, Option.bind_some, Utf8.decode_encode]
    simp [socket.name_ne_nil]
  have hparent : socket.publicPath.parent = some socket.parent := FileSystem.parent_join _ _
  simp only [bind, hparent, hname, FileSystem.fileName_join]
  rfl

theorem exec_bind_publicBlocked (hdir : socket.InDirectory fs) (h : Blocked fs socket.publicPath) :
    exec (bind display umask socket.publicPath) fs =
      (.error (refusal display socket.publicPath), fs) := by
  rw [bind_publicPath, FileSystem.exec_bind_error
    (exec_removePreviousSocket_blocked hdir.leads_publicPath h)]

/-- What the second path holds does not depend on the first. -/
theorem blocked_update {entry : Option Entry} :
    Blocked (Function.update fs socket.publicPath entry) socket.phonyPath ↔
      Blocked fs socket.phonyPath := by
  rw [Blocked, Blocked, Function.update_of_ne socket.phonyPath_ne_publicPath]

/-- The second path is refused when the first is already free. -/
theorem exec_bind_phonyBlocked (hdir : socket.InDirectory fs)
    (hpublic : ¬ Blocked fs socket.publicPath) (hphony : Blocked fs socket.phonyPath) :
    exec (bind display umask socket.publicPath) fs =
      (.error (refusal display socket.phonyPath), Function.update fs socket.publicPath none) := by
  have hdir' := hdir.update (.inl rfl) none
  rw [bind_publicPath,
    FileSystem.exec_bind_ok (exec_removePreviousSocket hdir.leads_publicPath hpublic),
    FileSystem.exec_bind_error (exec_removePreviousSocket_blocked hdir'.leads_phonyPath
      (blocked_update.mpr hphony))]

/-- A run on two paths that may be removed, with a name that may be bound. -/
theorem exec_bind_free (hdir : socket.InDirectory fs) (hpublic : ¬ Blocked fs socket.publicPath)
    (hphony : ¬ Blocked fs socket.phonyPath) (hfits : FitsAddress socket.phonyPath) :
    exec (bind display umask socket.publicPath) fs = (.ok socket.phonyPath, socket.bound fs) := by
  have hne := socket.phonyPath_ne_publicPath
  have hdir₁ := hdir.update (.inl rfl) none
  have hdir₂ := hdir₁.update (.inr rfl) none
  have hdir₃ := hdir₂.update (.inr rfl) (some (.socket (0o777 &&& (0o777 ^^^ umask))))
  have hdir₄ := hdir₃.update (.inr rfl) (some (.socket 0o666))
  have hfree : Function.update (Function.update (Function.update (Function.update fs
      socket.publicPath none) socket.phonyPath none) socket.phonyPath
      (some (.socket (0o777 &&& (0o777 ^^^ umask))))) socket.phonyPath (some (.socket 0o666))
      socket.publicPath = none := by
    rw [Function.update_of_ne hne.symm, Function.update_of_ne hne.symm,
      Function.update_of_ne hne.symm, Function.update_self]
  rw [bind_publicPath,
    FileSystem.exec_bind_ok (exec_removePreviousSocket hdir.leads_publicPath hpublic),
    FileSystem.exec_bind_ok (exec_removePreviousSocket hdir₁.leads_phonyPath
      (mt blocked_update.mp hphony)),
    FileSystem.exec_bind_ok (FileSystem.exec_bindListener hdir₂.leads_phonyPath
      (Function.update_self _ _ _) hfits _),
    FileSystem.exec_bind_ok (FileSystem.exec_setPermissions hdir₃.leads_phonyPath
      (Function.update_self _ _ _) _),
    symlink,
    FileSystem.exec_bind_ok (FileSystem.exec_create hdir₄.leads_publicPath hfree _ _),
    FileSystem.exec_pure, SocketPath.bound]
  -- of the five changes the last one at each path is left
  rw [Function.update_idem, Function.update_idem, Function.update_comm hne.symm,
    Function.update_idem]

/-- A name that is too long is refused when both paths are already free. -/
theorem exec_bind_tooLong (hdir : socket.InDirectory fs) (hpublic : ¬ Blocked fs socket.publicPath)
    (hphony : ¬ Blocked fs socket.phonyPath) (hlong : ¬ FitsAddress socket.phonyPath) :
    exec (bind display umask socket.publicPath) fs =
      (.error FileSystem.addressTooLong, socket.cleared fs) := by
  have hdir₁ := hdir.update (.inl rfl) none
  rw [bind_publicPath,
    FileSystem.exec_bind_ok (exec_removePreviousSocket hdir.leads_publicPath hpublic),
    FileSystem.exec_bind_ok (exec_removePreviousSocket hdir₁.leads_phonyPath
      (mt blocked_update.mp hphony)),
    FileSystem.exec_bind_error (FileSystem.exec_bindListener_tooLong hlong _), SocketPath.cleared]

/-! ## The whole call -/

theorem cleared_of_ne {path : Path} (hpublic : path ≠ socket.publicPath)
    (hphony : path ≠ socket.phonyPath) : socket.cleared fs path = fs path := by
  rw [SocketPath.cleared, Function.update_of_ne hphony, Function.update_of_ne hpublic]

theorem bound_publicPath :
    socket.bound fs socket.publicPath = some (.symlink (boundName socket.name)) :=
  Function.update_self _ _ _

theorem bound_phonyPath : socket.bound fs socket.phonyPath = some (.socket 0o666) := by
  rw [SocketPath.bound, Function.update_of_ne socket.phonyPath_ne_publicPath, Function.update_self]

theorem bound_of_ne {path : Path} (hpublic : path ≠ socket.publicPath)
    (hphony : path ≠ socket.phonyPath) : socket.bound fs path = fs path := by
  rw [SocketPath.bound, Function.update_of_ne hpublic, Function.update_of_ne hphony]

theorem bound_bound : socket.bound (socket.bound fs) = socket.bound fs := by
  have hne := socket.phonyPath_ne_publicPath
  rw [SocketPath.bound, SocketPath.bound, Function.update_comm hne, Function.update_idem,
    Function.update_comm hne, Function.update_idem]

/-- A restart finds the socket and the link, and leaves the same behind. -/
theorem exec_bind_bound (hdir : socket.InDirectory fs) (hfits : FitsAddress socket.phonyPath) :
    exec (bind display umask socket.publicPath) (socket.bound fs) =
      (.ok socket.phonyPath, socket.bound fs) := by
  have hdir' : socket.InDirectory (socket.bound fs) :=
    (hdir.update (.inr rfl) _).update (.inl rfl) _
  have hpublic : ¬ Blocked (socket.bound fs) socket.publicPath := by
    rintro ⟨entry, hentry, hnot⟩
    obtain rfl := Option.some.inj (bound_publicPath.symm.trans hentry)
    exact hnot (.inr rfl)
  have hphony : ¬ Blocked (socket.bound fs) socket.phonyPath := by
    rintro ⟨entry, hentry, hnot⟩
    obtain rfl := Option.some.inj (bound_phonyPath.symm.trans hentry)
    exact hnot (.inl rfl)
  rw [exec_bind_free hdir' hpublic hphony hfits, bound_bound]

/-- An entry that blocks its path stays where it is. -/
theorem bind_keeps (hdir : socket.InDirectory fs) {path : Path} {entry : Entry}
    (hentry : fs path = some entry) (hnot : ¬ IsReplaceable entry) :
    (exec (bind display umask socket.publicPath) fs).2 path = some entry := by
  by_cases hpublic : Blocked fs socket.publicPath
  · rw [exec_bind_publicBlocked hdir hpublic]
    exact hentry
  · have hnePublic : path ≠ socket.publicPath := by
      rintro rfl
      exact hpublic ⟨entry, hentry, hnot⟩
    by_cases hphony : Blocked fs socket.phonyPath
    · rw [exec_bind_phonyBlocked hdir hpublic hphony]
      exact (Function.update_of_ne hnePublic _ _).trans hentry
    · have hnePhony : path ≠ socket.phonyPath := by
        rintro rfl
        exact hphony ⟨entry, hentry, hnot⟩
      by_cases hfits : FitsAddress socket.phonyPath
      · rw [exec_bind_free hdir hpublic hphony hfits]
        exact (bound_of_ne hnePublic hnePhony).trans hentry
      · rw [exec_bind_tooLong hdir hpublic hphony hfits]
        exact (cleared_of_ne hnePublic hnePhony).trans hentry

/-- A success is that of a run on two paths that may be removed, with a name that
    may be bound. -/
theorem of_exec_bind_ok (hdir : socket.InDirectory fs) {listener : Path} {fs' : State}
    (h : exec (bind display umask socket.publicPath) fs = (.ok listener, fs')) :
    FitsAddress socket.phonyPath ∧ listener = socket.phonyPath ∧ fs' = socket.bound fs := by
  by_cases hpublic : Blocked fs socket.publicPath
  · rw [exec_bind_publicBlocked hdir hpublic] at h
    cases h
  · by_cases hphony : Blocked fs socket.phonyPath
    · rw [exec_bind_phonyBlocked hdir hpublic hphony] at h
      cases h
    · by_cases hfits : FitsAddress socket.phonyPath
      · rw [exec_bind_free hdir hpublic hphony hfits] at h
        cases h
        exact ⟨hfits, rfl, rfl⟩
      · rw [exec_bind_tooLong hdir hpublic hphony hfits] at h
        cases h

theorem bind_binds (hdir : socket.InDirectory fs) {listener : Path} {fs' : State}
    (h : exec (bind display umask socket.publicPath) fs = (.ok listener, fs')) :
    (∃ mode, fs' socket.phonyPath = some (.socket mode)) ∧
    fs' socket.publicPath = some (.symlink (boundName socket.name)) ∧
    (∀ path, path ≠ socket.publicPath → path ≠ socket.phonyPath → fs' path = fs path) ∧
    exec (bind display umask socket.publicPath) fs' = (.ok listener, fs') := by
  obtain ⟨hfits, rfl, rfl⟩ := of_exec_bind_ok hdir h
  exact ⟨⟨_, bound_phonyPath⟩, bound_publicPath, fun _ => bound_of_ne, exec_bind_bound hdir hfits⟩

/-- The first path is removed before the second is refused. -/
theorem not_allOrNothing (hdir : socket.InDirectory fs) {entry : Entry}
    (hentry : fs socket.publicPath = some entry) (hreplaceable : IsReplaceable entry)
    (hphony : Blocked fs socket.phonyPath) : ¬ AllOrNothing display umask fs socket := by
  intro h
  have hpublic : ¬ Blocked fs socket.publicPath := by
    rintro ⟨entry', hentry', hnot⟩
    obtain rfl := Option.some.inj (hentry.symm.trans hentry')
    exact hnot hreplaceable
  have hrun : exec (bind display umask socket.publicPath) fs =
      (.error (refusal display socket.phonyPath), Function.update fs socket.publicPath none) :=
    exec_bind_phonyBlocked hdir hpublic hphony
  have hsame := h.refuses _ (by rw [hrun]) (.inr hphony)
  rw [hrun] at hsame
  have hgone : Function.update fs socket.publicPath none socket.publicPath = fs socket.publicPath :=
    congrFun hsame _
  rw [Function.update_self, hentry] at hgone
  cases hgone

/-- Binding is all or nothing, unless a socket or a link is at the public path
    and something else is at the other one. -/
theorem allOrNothing_iff (display : Path → Str) (umask : Nat) (fs : State) (socket : SocketPath)
    (hdir : fs socket.parent = some .directory) :
    AllOrNothing display umask fs socket ↔
      ¬ ((∃ entry, fs socket.publicPath = some entry ∧ IsReplaceable entry) ∧
        Blocked fs socket.phonyPath) := by
  constructor
  · rintro h ⟨⟨entry, hentry, hreplaceable⟩, hphony⟩
    exact not_allOrNothing hdir hentry hreplaceable hphony h
  · intro hnot
    refine ⟨fun _ _ => bind_keeps hdir, fun error herror hblocked => ?_, fun _ _ => bind_binds hdir⟩
    by_cases hpublic : Blocked fs socket.publicPath
    · rw [exec_bind_publicBlocked hdir hpublic]
    · have hphony := hblocked.resolve_left hpublic
      have hnone : fs socket.publicPath = none := by
        rw [Option.eq_none_iff_forall_ne_some]
        intro entry hentry
        by_cases hreplaceable : IsReplaceable entry
        · exact hnot ⟨⟨entry, hentry, hreplaceable⟩, hphony⟩
        · exact hpublic ⟨entry, hentry, hreplaceable⟩
      rw [exec_bind_phonyBlocked hdir hpublic hphony, ← hnone, Function.update_eq_self]

/-- A directory with two entries, below the root. -/
def twoEntries (socket : SocketPath) (atPublic atPhony : Option Entry) : State :=
  Function.update (Function.update (Function.update (fun _ => none) socket.parent (some .directory))
    socket.publicPath atPublic) socket.phonyPath atPhony

/-- `/tmp/lsnr.sock`. -/
def lsnr : SocketPath := ⟨[.normal (Utf8.encode "tmp")], "lsnr.sock", by decide⟩

theorem twoEntries_inDirectory (socket : SocketPath) (atPublic atPhony : Option Entry) :
    socket.InDirectory (twoEntries socket atPublic atPhony) := by
  rw [SocketPath.InDirectory, twoEntries, Function.update_of_ne socket.parent_ne_phonyPath,
    Function.update_of_ne socket.parent_ne_publicPath, Function.update_self]

theorem allOrNothing_iff_restart :
    AllOrNothing (fun _ => []) 0o022 (twoEntries lsnr (some (.symlink (boundName "lsnr.sock")))
        (some (.socket 0o666))) lsnr ↔
      ¬ ((∃ entry, twoEntries lsnr (some (.symlink (boundName "lsnr.sock"))) (some (.socket 0o666))
          lsnr.publicPath = some entry ∧ IsReplaceable entry) ∧
        Blocked (twoEntries lsnr (some (.symlink (boundName "lsnr.sock"))) (some (.socket 0o666)))
          lsnr.phonyPath) :=
  allOrNothing_iff _ _ _ _ (twoEntries_inDirectory _ _ _)

/-- A link at the public path is gone when a file at the other one is refused. -/
theorem not_allOrNothing_file :
    ¬ AllOrNothing (fun _ => []) 0o022
      (twoEntries lsnr (some (.symlink (boundName "lsnr.sock"))) (some .regular)) lsnr := by
  have hlink : IsReplaceable (.symlink (boundName "lsnr.sock")) := .inr rfl
  refine not_allOrNothing (twoEntries_inDirectory _ _ _) ?_ hlink ?_
  · rw [twoEntries, Function.update_of_ne lsnr.phonyPath_ne_publicPath.symm, Function.update_self]
  · refine ⟨.regular, Function.update_self _ _ _, ?_⟩
    rintro (h | h) <;> cases h

end OracleFn.Socket
