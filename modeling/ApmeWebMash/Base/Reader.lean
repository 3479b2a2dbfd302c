-- SUMMARY: Programs that read a byte source: outcomes, the `BufRead` primitives, loops, and their proof rules.
import ApmeWebMash.Base.Text

/-! # Readers

A reader is a deterministic program over a byte source. The source is what the
peer still sends, followed by end of input or by a failure of the device. A run
ends in a value, in an error, in a panic, or, when a loop stops consuming its
source, not at all; the last two are outcomes of their own, so that their
absence is a theorem. -/

/-- What can go wrong in `std::io`: input that ends inside an exact read, a line
    that is not UTF-8, or a failure of the device itself. -/
inductive IoError where
  | unexpectedEof
  | invalidData
  | device (message : Str)
deriving DecidableEq, Repr

/-- The bytes a reader has before it, and how they end: at end of input, or in
    a failure. -/
structure Source where
  bytes : List UInt8
  fault : Option Str
deriving DecidableEq, Repr

/-- How a run of a reader ends. -/
inductive Outcome (ε α : Type) where
  | ok (a : α)
  | err (e : ε)
  | panic
  | hang
deriving DecidableEq, Repr

/-- A program that reads a source, fails with `ε` or returns `α`. -/
def Reader (ε α : Type) : Type :=
  Source → Outcome ε α × Source

namespace Reader

variable {ε ε' α β σ : Type}

/-- Run a reader on a source; the second component is what it left unread. -/
def run (p : Reader ε α) (s : Source) : Outcome ε α × Source := p s

/-- Continue a run that returned a value; every other outcome is final. -/
def andThen (r : Outcome ε α × Source) (f : α → Reader ε β) : Outcome ε β × Source :=
  match r with
  | (.ok a, s) => f a s
  | (.err e, s) => (.err e, s)
  | (.panic, s) => (.panic, s)
  | (.hang, s) => (.hang, s)

instance : Monad (Reader ε) where
  pure a := fun s => (.ok a, s)
  bind p f := fun s => andThen (p s) f

/-- Fail with an error. -/
def throw (e : ε) : Reader ε α := fun s => (.err e, s)

/-- A result that takes no input. -/
def ofExcept : Except ε α → Reader ε α
  | .ok a => pure a
  | .error e => throw e

/-- Stop in a panic. -/
def panicked : Reader ε α := fun s => (.panic, s)

/-- The `?` operator: convert the error of a reader. -/
def mapErr (f : ε → ε') (p : Reader ε α) : Reader ε' α := fun s =>
  match p s with
  | (.ok a, s') => (.ok a, s')
  | (.err e, s') => (.err (f e), s')
  | (.panic, s') => (.panic, s')
  | (.hang, s') => (.hang, s')

/-! ## Primitives -/

/-- Everything up to and including the first line feed, and the rest. -/
def splitLine : List UInt8 → List UInt8 × List UInt8
  | [] => ([], [])
  | b :: bs =>
    if b = 10 then ([b], bs)
    else (b :: (splitLine bs).1, (splitLine bs).2)

/-- The error of a reader that runs into the end of the source. -/
def endError (s : Source) (atEof : IoError) : IoError :=
  match s.fault with
  | some message => .device message
  | none => atEof

/-- `BufRead::read_line` into an empty string: the line with its line feed, the
    unterminated last line, or the empty text at end of input. -/
def readLine : Reader IoError Str := fun s =>
  let (line, rest) := splitLine s.bytes
  if s.fault.isSome && !line.contains 10 then
    (.err (endError s .unexpectedEof), ⟨[], s.fault⟩)
  else
    match Utf8.decode line with
    | some text => (.ok text, ⟨rest, s.fault⟩)
    | none => (.err .invalidData, ⟨rest, s.fault⟩)

/-- `Read::read_exact` into a buffer of `n` bytes. -/
def readExact (n : Nat) : Reader IoError (List UInt8) := fun s =>
  if n ≤ s.bytes.length then (.ok (s.bytes.take n), ⟨s.bytes.drop n, s.fault⟩)
  else (.err (endError s .unexpectedEof), ⟨[], s.fault⟩)

/-! ## Loops -/

/-- What one iteration of a loop decides: go on with a new state, or break. -/
inductive Step (σ α : Type) where
  | next (state : σ)
  | done (result : α)

/-- A condition on each of the two decisions. -/
def Step.All (I : σ → Prop) (P : α → Prop) : Step σ α → Prop
  | .next st => I st
  | .done a => P a

/-- `for _ in 0..n`: at most `n` iterations; `next` when none of them broke. -/
def forN (step : σ → Reader ε (Step σ α)) : Nat → σ → Reader ε (Step σ α)
  | 0, st => pure (.next st)
  | n + 1, st => do
    match ← step st with
    | .next st' => forN step n st'
    | .done a => pure (.done a)

/-- The runs of `loop`, by recursion on the bytes that are left. -/
def loopFrom (step : σ → Reader ε (Step σ α)) (st : σ) (s : Source) : Outcome ε α × Source :=
  match step st s with
  | (.ok (.done a), s') => (.ok a, s')
  | (.ok (.next st'), s') =>
    if s'.bytes.length < s.bytes.length then loopFrom step st' s' else (.hang, s')
  | (.err e, s') => (.err e, s')
  | (.panic, s') => (.panic, s')
  | (.hang, s') => (.hang, s')
termination_by s.bytes.length

/-- `loop`: iterate until a break. An iteration that goes on without having read
    anything would go on forever from the same source, so it hangs. -/
def loop (step : σ → Reader ε (Step σ α)) (st : σ) : Reader ε α :=
  loopFrom step st

/-! ## Symbolic execution -/

@[simp] theorem run_pure (a : α) (s : Source) : (pure a : Reader ε α).run s = (.ok a, s) := rfl

@[simp] theorem run_bind (p : Reader ε α) (f : α → Reader ε β) (s : Source) :
    (p >>= f).run s = andThen (p.run s) f := rfl

@[simp] theorem run_throw (e : ε) (s : Source) : (throw e : Reader ε α).run s = (.err e, s) := rfl

@[simp] theorem andThen_ok (a : α) (s : Source) (f : α → Reader ε β) :
    andThen (.ok a, s) f = (f a).run s := rfl

@[simp] theorem andThen_err (e : ε) (s : Source) (f : α → Reader ε β) :
    andThen (.err e, s) f = (.err e, s) := rfl

theorem run_mapErr_ok {g : ε → ε'} {p : Reader ε α} {s s' : Source} {a : α}
    (h : p.run s = (.ok a, s')) : (p.mapErr g).run s = (.ok a, s') := by
  simp only [run] at h
  simp only [run, mapErr, h]

theorem run_mapErr_err {g : ε → ε'} {p : Reader ε α} {s s' : Source} {e : ε}
    (h : p.run s = (.err e, s')) : (p.mapErr g).run s = (.err (g e), s') := by
  simp only [run] at h
  simp only [run, mapErr, h]

theorem bind_assoc {γ : Type} (p : Reader ε α) (f : α → Reader ε β) (g : β → Reader ε γ) :
    p >>= f >>= g = p >>= fun a => f a >>= g := by
  funext s
  change andThen (andThen (p.run s) f) g = andThen (p.run s) fun a => f a >>= g
  match p.run s with
  | (.ok _, _) | (.err _, _) | (.panic, _) | (.hang, _) => rfl

/-- A run of `p >>= f` that returns is a run of `p` that returns, continued. -/
theorem run_bind_ok {p : Reader ε α} {f : α → Reader ε β} {s s' : Source} {b : β}
    (h : (p >>= f).run s = (.ok b, s')) :
    ∃ a t, p.run s = (.ok a, t) ∧ (f a).run t = (.ok b, s') := by
  rw [run_bind] at h
  match hp : p.run s with
  | (.ok a, t) =>
    rw [hp] at h
    exact ⟨a, t, rfl, h⟩
  | (.err _, _) | (.panic, _) | (.hang, _) =>
    rw [hp] at h
    cases h

theorem run_mapErr_eq_ok {g : ε → ε'} {p : Reader ε α} {s s' : Source} {a : α}
    (h : (p.mapErr g).run s = (.ok a, s')) : p.run s = (.ok a, s') := by
  simp only [run, mapErr] at h ⊢
  split at h <;> rename_i hp
  · rw [hp, Prod.mk.inj h |>.2]
    rw [Outcome.ok.inj (Prod.mk.inj h).1]
  all_goals cases h

theorem run_loop_done {step : σ → Reader ε (Step σ α)} {st : σ} {s s' : Source} {a : α}
    (h : (step st).run s = (.ok (.done a), s')) : (loop step st).run s = (.ok a, s') := by
  simp only [run, loop] at h ⊢
  rw [loopFrom, h]

theorem run_loop_next {step : σ → Reader ε (Step σ α)} {st st' : σ} {s s' : Source}
    (h : (step st).run s = (.ok (.next st'), s')) (hlt : s'.bytes.length < s.bytes.length) :
    (loop step st).run s = (loop step st').run s' := by
  simp only [run, loop] at h ⊢
  rw [loopFrom, h]
  simp only [hlt, ↓reduceIte]

/-- Every iteration that goes on has read something. -/
def Advances (step : σ → Reader ε (Step σ α)) : Prop :=
  ∀ st s st' s', (step st).run s = (.ok (.next st'), s') → s'.bytes.length < s.bytes.length

/-- A loop whose iterations advance is its first iteration followed by itself. -/
theorem loop_eq_bind {step : σ → Reader ε (Step σ α)} (h : Advances step) (st : σ) :
    loop step st = (step st >>= fun r =>
      match r with
      | .next st' => loop step st'
      | .done a => pure a) := by
  funext s
  change (loop step st).run s = Reader.run (step st >>= _) s
  rw [run_bind]
  match hrun : (step st).run s with
  | (.ok (.done a), s') => exact run_loop_done hrun
  | (.ok (.next st'), s') => exact run_loop_next hrun (h st s st' s' hrun)
  | (.err _, _) | (.panic, _) | (.hang, _) =>
    simp only [run, loop, andThen] at hrun ⊢
    rw [loopFrom, hrun]

/-! ## Lines -/

theorem splitLine_append (bs : List UInt8) : (splitLine bs).1 ++ (splitLine bs).2 = bs := by
  induction bs with
  | nil => rfl
  | cons b bs ih =>
    simp only [splitLine]
    split
    · rfl
    · simp [ih]

theorem splitLine_of_mem {xs : List UInt8} (h : (10 : UInt8) ∉ xs) (ys : List UInt8) :
    splitLine (xs ++ 10 :: ys) = (xs ++ [10], ys) := by
  induction xs with
  | nil => simp [splitLine]
  | cons b xs ih =>
    obtain ⟨hb, hxs⟩ := not_or.mp (mt List.mem_cons.mpr h)
    simp [splitLine, Ne.symm hb, ih hxs]

theorem splitLine_of_not_mem {xs : List UInt8} (h : (10 : UInt8) ∉ xs) :
    splitLine xs = (xs, []) := by
  induction xs with
  | nil => rfl
  | cons b xs ih =>
    obtain ⟨hb, hxs⟩ := not_or.mp (mt List.mem_cons.mpr h)
    simp [splitLine, Ne.symm hb, ih hxs]

private theorem newline_mem_encode {text : Str} : (10 : UInt8) ∈ Utf8.encode text ↔ '\n' ∈ text :=
  Utf8.mem_encode_ascii (c := '\n') (by decide)

/-- A line that ends in a line feed is read to its end, whatever follows it. -/
theorem run_readLine_terminated {text : Str} (h : '\n' ∉ text) (rest : List UInt8)
    (fault : Option Str) :
    readLine.run ⟨Utf8.encode (text ++ ['\n']) ++ rest, fault⟩ =
      (.ok (text ++ ['\n']), ⟨rest, fault⟩) := by
  have hbytes : Utf8.encode (text ++ ['\n']) ++ rest = Utf8.encode text ++ 10 :: rest := by
    rw [Utf8.encode_append, List.append_assoc]
    rfl
  have hsplit := splitLine_of_mem (mt newline_mem_encode.mp h) rest
  have hdecode : Utf8.decode (Utf8.encode text ++ [10]) = some (text ++ ['\n']) := by
    rw [Utf8.decode_eq_some_iff, Utf8.encode_append]
    rfl
  rw [hbytes]
  simp [run, readLine, hsplit, hdecode]

/-- What a successful `readLine` returned: a terminated line, or all of a source
    that ends in end of input. -/
theorem run_readLine_ok {s s' : Source} {line : Str} (h : readLine.run s = (.ok line, s')) :
    s.bytes = Utf8.encode line ++ s'.bytes ∧ s'.fault = s.fault ∧
      ((∃ text, '\n' ∉ text ∧ line = text ++ ['\n']) ∨
        ('\n' ∉ line ∧ s' = ⟨[], none⟩)) := by
  obtain ⟨bytes, fault⟩ := s
  simp only [run, readLine] at h
  split at h
  · cases h
  · rename_i hfault
    split at h
    · rename_i text hdecode
      obtain ⟨hline, rfl⟩ := Prod.mk.inj h
      obtain rfl := Outcome.ok.inj hline
      have henc := Utf8.decode_eq_some_iff.mp hdecode
      refine ⟨by rw [henc, splitLine_append], rfl, ?_⟩
      -- the first line feed of the bytes is the one of the text
      by_cases hmem : (10 : UInt8) ∈ bytes
      · obtain ⟨xs, ys, rfl, hxs⟩ := List.eq_append_cons_of_mem hmem
        rw [splitLine_of_mem hxs] at henc
        have hlast : '\n' ∈ text := by
          rw [← newline_mem_encode, henc]
          simp
        obtain ⟨t, u, rfl, ht⟩ := List.eq_append_cons_of_mem hlast
        rw [Utf8.encode_append, Utf8.encode_cons, show String.utf8EncodeChar '\n' = [10] by decide,
          List.singleton_append] at henc
        have hsplit := congrArg splitLine henc
        rw [splitLine_of_mem (mt newline_mem_encode.mp ht), splitLine_of_mem hxs] at hsplit
        obtain rfl := Utf8.encode_eq_nil_iff.mp (Prod.mk.inj hsplit).2
        exact .inl ⟨t, ht, rfl⟩
      · rw [splitLine_of_not_mem hmem] at henc hfault ⊢
        refine .inr ⟨by rwa [← newline_mem_encode, henc], ?_⟩
        cases fault with
        | none => rfl
        | some m => simp [hmem] at hfault
    · cases h

/-- A source that is cut inside a terminated line, before its line feed, either
    fails or yields a beginning of the line and is then exhausted. -/
theorem run_readLine_cut {text : Str} (h : '\n' ∉ text) {cut rest : List UInt8} (hrest : rest ≠ [])
    (hcut : cut ++ rest = Utf8.encode (text ++ ['\n'])) (fault : Option Str) :
    (∃ e s', readLine.run ⟨cut, fault⟩ = (.err e, s')) ∨
      ∃ line, line <+: text ∧ Utf8.encode line = cut ∧ fault = none ∧
        readLine.run ⟨cut, fault⟩ = (.ok line, ⟨[], none⟩) := by
  obtain ⟨init, b, rfl⟩ := (List.eq_nil_or_concat' rest).resolve_left hrest
  have hinit : cut ++ init = Utf8.encode text := by
    rw [Utf8.encode_append, ← List.append_assoc] at hcut
    exact (List.append_inj' hcut rfl).1
  have hmem : (10 : UInt8) ∉ cut := by
    intro hmem
    exact mt newline_mem_encode.mp h (hinit ▸ List.mem_append_left _ hmem)
  cases fault with
  | some message =>
    refine .inl ⟨endError ⟨cut, some message⟩ .unexpectedEof, ⟨[], some message⟩, ?_⟩
    simp [run, readLine, splitLine_of_not_mem hmem, hmem]
  | none =>
    cases hdecode : Utf8.decode cut with
    | none =>
      refine .inl ⟨.invalidData, ⟨[], none⟩, ?_⟩
      simp [run, readLine, splitLine_of_not_mem hmem, hdecode]
    | some line =>
      have henc := Utf8.decode_eq_some_iff.mp hdecode
      refine .inr ⟨line, Utf8.isPrefix_of_encode_append (henc ▸ hinit), henc, rfl, ?_⟩
      simp [run, readLine, splitLine_of_not_mem hmem, hdecode]

/-! ## Exact reads -/

theorem run_readExact_append (xs rest : List UInt8) (fault : Option Str) :
    (readExact xs.length).run ⟨xs ++ rest, fault⟩ = (.ok xs, ⟨rest, fault⟩) := by
  simp [run, readExact]

theorem run_readExact_ok {n : Nat} {s s' : Source} {bs : List UInt8}
    (h : (readExact n).run s = (.ok bs, s')) :
    bs.length = n ∧ s.bytes = bs ++ s'.bytes ∧ s'.fault = s.fault := by
  simp only [run, readExact] at h
  split at h
  · rename_i hle
    obtain ⟨hbs, rfl⟩ := Prod.mk.inj h
    obtain rfl := Outcome.ok.inj hbs
    exact ⟨List.length_take_of_le hle, (List.take_append_drop n s.bytes).symm, rfl⟩
  · cases h

theorem run_readExact_short {n : Nat} {s : Source} (h : s.bytes.length < n) :
    (readExact n).run s = (.err (endError s .unexpectedEof), ⟨[], s.fault⟩) := by
  simp [run, readExact, Nat.not_le.mpr h]

end Reader
