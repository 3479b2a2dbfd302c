-- SUMMARY: Readers on a stream that stays open: which runs come to the end of what is there, and that no other run looks beyond it.
import ApmeWebMash.Base.Reader

/-! # Waiting readers

A peer may stay without sending more and without closing. A reader on such a
stream waits as soon as it asks for a byte that is not there. On a source that
ends in a failure, the same read would meet the failure. So a reader waits behind
the bytes of a source exactly if it reports a failure that is put there. Where it
does not, its outcome is decided by the bytes alone. -/

namespace Reader

variable {ε ε' α β σ : Type}

section
variable (report : Str → ε)

/-- The run on these bytes ends in the same way whatever follows them, and leaves
    what follows. -/
def Decides (p : Reader ε α) (bytes : List UInt8) : Prop :=
  ∃ outcome left, (∀ message, outcome ≠ .err (report message)) ∧
    ∀ rest fault, p.run ⟨bytes ++ rest, fault⟩ = (outcome, ⟨left ++ rest, fault⟩)

/-- The run comes to the end of these bytes, and reports what it meets there. -/
def Exhausts (p : Reader ε α) (bytes : List UInt8) : Prop :=
  ∀ message, p.run ⟨bytes, some message⟩ = (.err (report message), ⟨[], some message⟩)

/-- On any bytes, a run does one or the other. -/
def Incremental (p : Reader ε α) : Prop :=
  ∀ bytes, Decides report p bytes ∨ Exhausts report p bytes

/-- The reader waits behind these bytes, if no more come and the stream stays. -/
def waits [DecidableEq ε] [DecidableEq α] (p : Reader ε α) (bytes : List UInt8) : Bool :=
  (p.run ⟨bytes, some []⟩).1 = .err (report [])

end

variable {report : Str → ε} {p : Reader ε α} {bytes : List UInt8}

theorem Exhausts.waits [DecidableEq ε] [DecidableEq α] (h : Exhausts report p bytes) :
    waits report p bytes := by
  rw [Reader.waits, h []]
  exact decide_eq_true rfl

theorem Decides.not_waits [DecidableEq ε] [DecidableEq α] (h : Decides report p bytes) :
    waits report p bytes = false := by
  obtain ⟨outcome, left, hne, hrun⟩ := h
  have hempty := hrun [] (some [])
  rw [List.append_nil] at hempty
  rw [Reader.waits, hempty]
  exact decide_eq_false (hne [])

/-- A reader waits exactly where its outcome is not decided. -/
theorem Incremental.not_waits_iff [DecidableEq ε] [DecidableEq α] (h : Incremental report p) :
    waits report p bytes = false ↔ Decides report p bytes := by
  constructor
  · intro hwaits
    rcases h bytes with hdecides | hexhausts
    · exact hdecides
    · rw [hexhausts.waits] at hwaits
      cases hwaits
  · exact Decides.not_waits

namespace Incremental

theorem pure (a : α) : Incremental report (pure a : Reader ε α) := fun bytes =>
  .inl ⟨.ok a, bytes, fun message h => (by cases h), fun _ _ => rfl⟩

theorem throw {e : ε} (h : ∀ message, e ≠ report message) :
    Incremental report (throw e : Reader ε α) := fun bytes =>
  .inl ⟨.err e, bytes, fun message heq => h message (Outcome.err.inj heq), fun _ _ => rfl⟩

theorem ofExcept {r : Except ε α} (h : ∀ e message, r = .error e → e ≠ report message) :
    Incremental report (ofExcept r) := by
  cases r with
  | ok a => exact Incremental.pure a
  | error e => exact Incremental.throw fun message => h e message rfl

theorem panicked : Incremental report (panicked : Reader ε α) := fun bytes =>
  .inl ⟨.panic, bytes, fun message h => (by cases h), fun _ _ => rfl⟩

theorem mapErr {g : ε → ε'} (hg : Function.Injective g) (h : Incremental report p) :
    Incremental (fun message => g (report message)) (p.mapErr g) := by
  intro bytes
  rcases h bytes with ⟨outcome, left, hne, hrun⟩ | hexhausts
  · refine .inl ?_
    have hmapped : ∀ rest fault, p ⟨bytes ++ rest, fault⟩ = (outcome, ⟨left ++ rest, fault⟩) := hrun
    cases outcome with
    | ok a =>
      refine ⟨.ok a, left, fun message heq => (by cases heq), fun rest fault => ?_⟩
      simp only [run, Reader.mapErr, hmapped]
    | err e =>
      refine ⟨.err (g e), left, fun message heq => ?_, fun rest fault => ?_⟩
      · exact hne message (congrArg Outcome.err (hg (Outcome.err.inj heq)))
      · simp only [run, Reader.mapErr, hmapped]
    | panic =>
      refine ⟨.panic, left, fun message heq => (by cases heq), fun rest fault => ?_⟩
      simp only [run, Reader.mapErr, hmapped]
    | hang =>
      refine ⟨.hang, left, fun message heq => (by cases heq), fun rest fault => ?_⟩
      simp only [run, Reader.mapErr, hmapped]
  · exact .inr fun message => run_mapErr_err (hexhausts message)

/-- The second part goes on with what the first one leaves. -/
theorem bind_at {f : α → Reader ε β} (hp : Decides report p bytes ∨ Exhausts report p bytes)
    (hf : ∀ a left, (∀ rest fault, p.run ⟨bytes ++ rest, fault⟩ = (.ok a, ⟨left ++ rest, fault⟩)) →
      Decides report (f a) left ∨ Exhausts report (f a) left) :
    Decides report (p >>= f) bytes ∨ Exhausts report (p >>= f) bytes := by
  rcases hp with ⟨outcome, left, hne, hrun⟩ | hexhausts
  · cases outcome with
    | ok a =>
      have hbind : ∀ rest fault, (p >>= f).run ⟨bytes ++ rest, fault⟩ =
          (f a).run ⟨left ++ rest, fault⟩ := fun rest fault => by
        rw [run_bind, hrun, andThen_ok]
      rcases hf a left hrun with ⟨outcome', left', hne', hrun'⟩ | hexhausts'
      · exact .inl ⟨outcome', left', hne', fun rest fault => (hbind rest fault).trans (hrun' _ _)⟩
      · refine .inr fun message => ?_
        -- the second part meets the end of the bytes
        have hempty := hbind [] (some message)
        rw [List.append_nil, List.append_nil] at hempty
        rw [hempty, hexhausts']
    | err e =>
      refine .inl ⟨.err e, left, fun message heq => hne message ?_, fun rest fault => ?_⟩
      · rw [Outcome.err.inj heq]
      · rw [run_bind, hrun, andThen_err]
    | panic =>
      refine .inl ⟨.panic, left, fun message heq => (by cases heq), fun rest fault => ?_⟩
      rw [run_bind, hrun]
      rfl
    | hang =>
      refine .inl ⟨.hang, left, fun message heq => (by cases heq), fun rest fault => ?_⟩
      rw [run_bind, hrun]
      rfl
  · exact .inr fun message => by rw [run_bind, hexhausts, andThen_err]

theorem bind {f : α → Reader ε β} (hp : Incremental report p) (hf : ∀ a, Incremental report (f a)) :
    Incremental report (p >>= f) :=
  fun bytes => bind_at (hp bytes) fun a left _ => hf a left

/-- A line that is there is read, and a line that is not is waited for. -/
theorem readLine : Incremental IoError.device readLine := by
  intro bytes
  by_cases hmem : (10 : UInt8) ∈ bytes
  · obtain ⟨xs, ys, rfl, hxs⟩ := List.eq_append_cons_of_mem hmem
    have hsplit : ∀ rest, splitLine (xs ++ 10 :: ys ++ rest) = (xs ++ [10], ys ++ rest) :=
      fun rest => by rw [List.append_assoc, List.cons_append, splitLine_of_mem hxs]
    have hline : (xs ++ [10]).contains 10 := by simp
    refine .inl ?_
    cases hdecode : Utf8.decode (xs ++ [10]) with
    | some text =>
      refine ⟨.ok text, ys, fun message heq => (by cases heq), fun rest fault => ?_⟩
      simp only [run, Reader.readLine, hsplit, hline, Bool.not_true, Bool.and_false,
        Bool.false_eq_true, ↓reduceIte, hdecode]
    | none =>
      refine ⟨.err .invalidData, ys, fun message heq => (by cases heq), fun rest fault => ?_⟩
      simp only [run, Reader.readLine, hsplit, hline, Bool.not_true, Bool.and_false,
        Bool.false_eq_true, ↓reduceIte, hdecode]
  · refine .inr fun message => ?_
    simp [run, Reader.readLine, splitLine_of_not_mem hmem, hmem, endError]

theorem readExact (n : Nat) : Incremental IoError.device (readExact n) := by
  intro bytes
  by_cases hn : n ≤ bytes.length
  · refine .inl ⟨.ok (bytes.take n), bytes.drop n, fun message heq => (by cases heq), ?_⟩
    intro rest fault
    have hle : n ≤ (bytes ++ rest).length := by
      rw [List.length_append]
      omega
    simp only [run, Reader.readExact, hle, ↓reduceIte, List.take_append_of_le_length hn,
      List.drop_append_of_le_length hn]
  · refine .inr fun message => ?_
    rw [run_readExact_short (Nat.lt_of_not_le hn), endError]

variable {step : σ → Reader ε (Step σ α)}

theorem forN (hstep : ∀ st, Incremental report (step st)) (n : Nat) (st : σ) :
    Incremental report (forN step n st) := by
  induction n generalizing st with
  | zero => exact Incremental.pure _
  | succ n ih =>
    refine (hstep st).bind fun r => ?_
    cases r with
    | next st' => exact ih st'
    | done a => exact Incremental.pure _

/-- By induction on what the iterations leave. -/
theorem loop (hadv : Advances step) (hstep : ∀ st, Incremental report (step st)) (st : σ) :
    Incremental report (loop step st) := by
  intro bytes
  induction hn : bytes.length using Nat.strong_induction_on generalizing st bytes with
  | _ n ih =>
    subst hn
    rw [loop_eq_bind hadv]
    refine bind_at (hstep st bytes) fun r left hrun => ?_
    cases r with
    | next st' =>
      have hlt := hadv st _ st' _ (hrun [] none)
      rw [List.append_nil, List.append_nil] at hlt
      exact ih left.length hlt st' left rfl
    | done a => exact Incremental.pure a left

end Incremental

end Reader
