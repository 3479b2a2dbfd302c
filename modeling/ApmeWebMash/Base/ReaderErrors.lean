-- SUMMARY: Which errors a reader may end in: exact conditions for every construct, and the sources that loops come to.
import ApmeWebMash.Base.ReaderRules

/-! # Errors of readers

`EndsIn E p s` says that the run of `p` on `s` ends in a value or in an error
that satisfies `E`. The rules are equivalences, one for each construct: they
take a program apart into conditions on the sources at which it reads. -/

namespace Reader

variable {ε ε' α β σ : Type}

/-! ## Endings -/

/-- The run of `p` on `s` ends in a value, or in an error that satisfies `E`. -/
def EndsIn (E : ε → Prop) (p : Reader ε α) (s : Source) : Prop :=
  match (p.run s).1 with
  | .ok _ => True
  | .err e => E e
  | .panic | .hang => False

/-- The bytes up to the next line feed are UTF-8. -/
def LineIsText (s : Source) : Prop :=
  ∃ text, Utf8.decode (splitLine s.bytes).1 = some text

/-- Within so many iterations a loop comes from one state and source to another,
    and begins an iteration there. -/
inductive Reaches (step : σ → Reader ε (Step σ α)) :
    Nat → σ → Source → σ → Source → Prop where
  | refl (n : Nat) (st : σ) (s : Source) : Reaches step (n + 1) st s st s
  | next {n : Nat} {st st' st'' : σ} {s s' s'' : Source} :
    (step st).run s = (.ok (.next st'), s') → Reaches step n st' s' st'' s'' →
      Reaches step (n + 1) st s st'' s''

/-- The iterations of a bounded loop keep what one iteration keeps. -/
theorem Persists.reaches {R : Source → Source → Prop} (h : Persists R)
    {step : σ → Reader ε (Step σ α)} (hstep : ∀ st, Keeps R (step st)) {n : Nat} {st st' : σ}
    {s s' : Source} (hreaches : Reaches step n st s st' s') : R s s' := by
  induction hreaches with
  | refl n st s => exact h.refl s
  | next hrun _ ih => exact h.trans ((hstep _).of_run hrun) ih

namespace EndsIn

variable {E : ε → Prop} {p : Reader ε α} {s : Source}

theorem iff_of_err {e : ε} {s' : Source} (h : p.run s = (.err e, s')) : EndsIn E p s ↔ E e := by
  rw [EndsIn, h]

theorem pure (a : α) : EndsIn E (pure a : Reader ε α) s := trivial

theorem throw_iff {e : ε} : EndsIn E (throw e : Reader ε α) s ↔ E e := Iff.rfl

theorem not_panicked : ¬ EndsIn E (panicked : Reader ε α) s := id

theorem ofExcept_iff {r : Except ε α} : EndsIn E (ofExcept r) s ↔ ∀ e, r = .error e → E e := by
  cases r with
  | ok a => exact iff_of_true trivial fun e h => (by cases h)
  | error e => exact ⟨fun h e' he => Except.error.inj he ▸ h, fun h => h e rfl⟩

theorem mapErr_iff {E : ε' → Prop} {g : ε → ε'} :
    EndsIn E (p.mapErr g) s ↔ EndsIn (fun e => E (g e)) p s := by
  simp only [EndsIn, run, Reader.mapErr]
  rcases p s with ⟨outcome, t⟩
  cases outcome <;> exact Iff.rfl

/-- Both parts end well, the second one from wherever the first one returns. -/
theorem bind_iff {f : α → Reader ε β} :
    EndsIn E (p >>= f) s ↔ EndsIn E p s ∧ ∀ a t, p.run s = (.ok a, t) → EndsIn E (f a) t := by
  unfold EndsIn
  rw [run_bind]
  match p.run s with
  | (.ok a, t) =>
    constructor
    · intro h
      refine ⟨trivial, fun a' t' heq => ?_⟩
      obtain ⟨ha, rfl⟩ := Prod.mk.inj heq
      rw [← Outcome.ok.inj ha]
      exact h
    · exact fun h => h.2 a t rfl
  | (.err e, t) => exact ⟨fun h => ⟨h, fun a t' heq => (by cases heq)⟩, fun h => h.1⟩
  | (.panic, _) | (.hang, _) => exact ⟨fun h => h.elim, fun h => h.1.elim⟩

/-! ## Reads -/

theorem readLine_iff {E : IoError → Prop} (hs : s.fault = none) :
    EndsIn E readLine s ↔ (LineIsText s ∨ E .invalidData) := by
  simp only [EndsIn, LineIsText, run, Reader.readLine, hs, Option.isSome_none, Bool.false_and]
  cases Utf8.decode (splitLine s.bytes).1 with
  | none => simp
  | some text => simp

theorem readExact_iff {E : IoError → Prop} {n : Nat} (hs : s.fault = none) :
    EndsIn E (readExact n) s ↔ (n ≤ s.bytes.length ∨ E .unexpectedEof) := by
  simp only [EndsIn, run, Reader.readExact]
  by_cases hn : n ≤ s.bytes.length
  · simp [hn]
  · simp [hn, endError, hs]

/-- An exact read that may not fail, and what follows it. -/
theorem readExact_bind_iff {g : IoError → ε} {f : List UInt8 → Reader ε β} {n : Nat}
    (hs : s.fault = none) (hE : ¬ E (g .unexpectedEof)) :
    EndsIn E ((readExact n).mapErr g >>= f) s ↔
      n ≤ s.bytes.length ∧ EndsIn E (f (s.bytes.take n)) ⟨s.bytes.drop n, s.fault⟩ := by
  rw [bind_iff, mapErr_iff, readExact_iff hs, or_iff_left hE]
  refine and_congr_right fun hn => ?_
  have hrun : ((readExact n).mapErr g).run s =
      (.ok (s.bytes.take n), ⟨s.bytes.drop n, s.fault⟩) := by
    refine run_mapErr_ok ?_
    rw [run, Reader.readExact, if_pos hn]
  rw [hrun]
  constructor
  · exact fun h => h _ _ rfl
  · rintro h _ _ ⟨⟩
    exact h

/-! ## Loops -/

/-- A bounded loop ends well if every iteration does that it comes to. -/
theorem forN_iff {step : σ → Reader ε (Step σ α)} {n : Nat} {st : σ} :
    EndsIn E (forN step n st) s ↔
      ∀ st' s', Reaches step n st s st' s' → EndsIn E (step st') s' := by
  induction n generalizing st s with
  | zero => exact iff_of_true (EndsIn.pure _) fun _ _ h => (by cases h)
  | succ n ih =>
    rw [forN, bind_iff]
    constructor
    · rintro ⟨hfirst, hrest⟩ st' s' hreaches
      cases hreaches with
      | refl => exact hfirst
      | next hstep htail => exact ih.mp (hrest _ _ hstep) _ _ htail
    · intro h
      refine ⟨h st s (.refl n st s), fun r t hstep => ?_⟩
      cases r with
      | done a => exact EndsIn.pure _
      | next st' => exact ih.mpr fun st'' s'' htail => h st'' s'' (.next hstep htail)

/-- So does a loop whose iterations advance. -/
theorem loop_iff {step : σ → Reader ε (Step σ α)} (hadv : Advances step) {st : σ} :
    EndsIn E (loop step st) s ↔
      ∀ st' s', Visits step st s st' s' → EndsIn E (step st') s' := by
  have hunfold : ∀ st s, EndsIn E (loop step st) s ↔ EndsIn E (step st) s ∧
      ∀ st' t, (step st).run s = (.ok (.next st'), t) → EndsIn E (loop step st') t := by
    intro st s
    rw [loop_eq_bind hadv, bind_iff]
    refine and_congr_right fun _ => ⟨fun h st' t hstep => h _ _ hstep, fun h r t hstep => ?_⟩
    cases r with
    | done a => exact EndsIn.pure _
    | next st' => exact h st' t hstep
  constructor
  · intro h st' s' hvisits
    induction hvisits with
    | refl st s => exact ((hunfold st s).mp h).1
    | next hstep _ ih => exact ih (((hunfold _ _).mp h).2 _ _ hstep)
  · intro h
    induction hn : s.bytes.length using Nat.strong_induction_on generalizing st s with
    | _ n ih =>
      subst hn
      refine (hunfold st s).mpr ⟨h st s (.refl st s), fun st' t hstep => ?_⟩
      exact ih _ (hadv st s st' t hstep)
        (fun st'' s'' hvisits => h st'' s'' (.next hstep hvisits)) rfl

end EndsIn

end Reader
