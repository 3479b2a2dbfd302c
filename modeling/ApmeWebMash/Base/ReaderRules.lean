-- SUMMARY: Proof rules for readers: safety with a postcondition, strictness, visited loop states, what is left of a source, and consumption.
import ApmeWebMash.Base.Reader

/-! # Rules for readers

Four properties, each with one rule per program construct.

`Meets p s Q` is total correctness up to errors: the run of `p` on `s` ends,
without a panic, in an error or in a value that satisfies `Q` together with the
source it leaves.

`Strict p` says that an accepted input is complete: the accepted bytes alone
decide the result, and every shorter beginning of them is refused with an error.
A single line does not have this property, since the last line of a source may
lack its line feed, so the line rule looks at what the reader does next.

`Keeps R p` says that a relation holds between every source and what `p` leaves of
it, whichever way the run ends.

`LeavesAtMost p s n` bounds what a run leaves of its source, however it ends. -/

namespace Reader

variable {ε ε' α β σ : Type}

/-! ## Safety -/

/-- The run of `p` on `s` ends in an error or in a value and a source that
    satisfy `Q`. -/
def Meets (p : Reader ε α) (s : Source) (Q : α → Source → Prop) : Prop :=
  match p.run s with
  | (.ok a, s') => Q a s'
  | (.err _, _) => True
  | (.panic, _) | (.hang, _) => False

namespace Meets

variable {p : Reader ε α} {s : Source} {Q R : α → Source → Prop}

theorem of_run_ok (h : Meets p s Q) {s' : Source} {a : α} (hrun : p.run s = (.ok a, s')) :
    Q a s' := by
  rwa [Meets, hrun] at h

theorem run_ne_panic (h : Meets p s Q) : (p.run s).1 ≠ .panic := by
  intro hpanic
  rwa [Meets, show p.run s = (.panic, (p.run s).2) from Prod.ext hpanic rfl] at h

theorem run_ne_hang (h : Meets p s Q) : (p.run s).1 ≠ .hang := by
  intro hhang
  rwa [Meets, show p.run s = (.hang, (p.run s).2) from Prod.ext hhang rfl] at h

theorem mono (h : Meets p s Q) (hQR : ∀ a s', Q a s' → R a s') : Meets p s R := by
  unfold Meets at h ⊢
  split at h <;> first | trivial | exact hQR _ _ h

theorem pure {a : α} (h : Q a s) : Meets (pure a : Reader ε α) s Q := h

theorem throw (e : ε) : Meets (throw e : Reader ε α) s Q := trivial

theorem ofExcept {r : Except ε α} (h : ∀ a, r = .ok a → Q a s) : Meets (ofExcept r) s Q := by
  cases r with
  | ok a => exact h a rfl
  | error e => exact Meets.throw e

theorem bind {f : α → Reader ε β} {S : β → Source → Prop} (hp : Meets p s Q)
    (hf : ∀ a t, Q a t → Meets (f a) t S) : Meets (p >>= f) s S := by
  unfold Meets at hp
  rw [Meets, run_bind]
  match hrun : p.run s with
  | (.ok a, t) =>
    rw [hrun] at hp
    exact hf a t hp
  | (.err _, _) => trivial
  | (.panic, _) | (.hang, _) =>
    rw [hrun] at hp
    exact hp

theorem mapErr {g : ε → ε'} (h : Meets p s Q) : Meets (p.mapErr g) s Q := by
  simp only [Meets, run, Reader.mapErr] at h ⊢
  generalize p s = r at h ⊢
  obtain ⟨outcome, s'⟩ := r
  cases outcome <;> exact h

theorem readLine (s : Source) :
    Meets readLine s fun line s' => s'.bytes.length + Str.len line = s.bytes.length := by
  unfold Meets
  match h : Reader.readLine.run s with
  | (.ok line, s') =>
    have := (run_readLine_ok h).1
    simp [this, Str.len, Nat.add_comm]
  | (.err _, _) => trivial
  | (.panic, _) | (.hang, _) =>
    simp only [run, Reader.readLine] at h
    split at h
    · cases h
    · split at h <;> cases h

theorem readExact (n : Nat) (s : Source) :
    Meets (readExact n) s fun bs s' => bs.length = n ∧ s'.bytes.length + n = s.bytes.length := by
  unfold Meets
  match h : (Reader.readExact n).run s with
  | (.ok bs, s') =>
    obtain ⟨hlen, hbytes, -⟩ := run_readExact_ok h
    refine ⟨hlen, ?_⟩
    rw [hbytes, List.length_append]
    omega
  | (.err _, _) => trivial
  | (.panic, _) | (.hang, _) =>
    simp only [run, Reader.readExact] at h
    split at h <;> cases h

/-- A bounded loop keeps an invariant indexed by the iterations done, and what a
    break returns is known together with the iteration it happened in. -/
theorem forN {step : σ → Reader ε (Step σ α)} {I : Nat → σ → Prop} {P : Nat → α → Prop}
    (hstep : ∀ i st s, I i st → Meets (step st) s fun r _ => r.All (I (i + 1)) (P i))
    (n : Nat) {k : Nat} {st : σ} (hinv : I k st) (s : Source) :
    Meets (forN step n st) s fun r _ => r.All (I (k + n)) fun a => ∃ i < k + n, P i a := by
  induction n generalizing k st s with
  | zero => exact Meets.pure hinv
  | succ n ih =>
    refine (hstep k st s hinv).bind fun r t hr => ?_
    cases r with
    | next st' =>
      rw [show k + (n + 1) = k + 1 + n by omega]
      exact ih hr t
    | done a => exact Meets.pure ⟨k, by omega, hr⟩

/-- An unbounded loop whose iterations keep an invariant, and read something
    whenever they go on, terminates. -/
theorem loop {step : σ → Reader ε (Step σ α)} {I : σ → Prop} {P : α → Prop}
    (hstep : ∀ st s, I st → Meets (step st) s fun r s' =>
      r.All (fun st' => I st' ∧ s'.bytes.length < s.bytes.length)
        (fun a => P a ∧ s'.bytes.length ≤ s.bytes.length))
    {st : σ} (hinv : I st) (s : Source) :
    Meets (loop step st) s fun a s' => P a ∧ s'.bytes.length ≤ s.bytes.length := by
  induction hn : s.bytes.length using Nat.strong_induction_on generalizing st s with
  | _ n ih =>
    subst hn
    have hiter := hstep st s hinv
    unfold Meets at hiter
    match hrun : (step st).run s with
    | (.ok (.done a), s') =>
      rw [hrun] at hiter
      rw [Meets, run_loop_done hrun]
      exact hiter
    | (.ok (.next st'), s') =>
      -- fewer bytes are left, and the invariant holds again
      rw [hrun] at hiter
      obtain ⟨hI, hlt⟩ := hiter
      rw [Meets, run_loop_next hrun hlt]
      exact (ih _ hlt hI s' rfl).mono fun a t hP => ⟨hP.1, hP.2.trans hlt.le⟩
    | (.err e, s') =>
      simp only [run] at hrun
      simp only [Meets, run, Reader.loop]
      rw [Reader.loopFrom, hrun]
      trivial
    | (.panic, _) | (.hang, _) =>
      rw [hrun] at hiter
      exact hiter.elim

end Meets

/-! ## Strictness -/

/-- `p` refuses the source with an error. -/
def Refuses (p : Reader ε α) (s : Source) : Prop :=
  ∃ e s', p.run s = (.err e, s')

theorem refuses_throw (e : ε) (s : Source) : Refuses (throw e : Reader ε α) s := ⟨e, s, rfl⟩

theorem Refuses.mapErr {g : ε → ε'} {p : Reader ε α} {s : Source} (h : Refuses p s) :
    Refuses (p.mapErr g) s := by
  obtain ⟨e, s', h⟩ := h
  exact ⟨g e, s', run_mapErr_err h⟩

theorem Refuses.bind {p : Reader ε α} {f : α → Reader ε β} {s : Source} (h : Refuses p s) :
    Refuses (p >>= f) s := by
  obtain ⟨e, s', h⟩ := h
  exact ⟨e, s', by rw [run_bind, h, andThen_err]⟩

theorem Refuses.bind_of_ok {p : Reader ε α} {f : α → Reader ε β} {s t : Source} {a : α}
    (hp : p.run s = (.ok a, t)) (h : Refuses (f a) t) : Refuses (p >>= f) s := by
  obtain ⟨e, s', h⟩ := h
  exact ⟨e, s', by rw [run_bind, hp, andThen_ok, h]⟩

/-- `p` reads exactly `used`, whatever follows it, returns `a`, and refuses every
    proper beginning of `used`, however the source ends there. -/
structure Uses (p : Reader ε α) (used : List UInt8) (a : α) : Prop where
  run_append : ∀ rest fault, p.run ⟨used ++ rest, fault⟩ = (.ok a, ⟨rest, fault⟩)
  cut : ∀ xs ys, xs ++ ys = used → ys ≠ [] → ∀ fault, Refuses p ⟨xs, fault⟩

/-- Every accepted input is complete. -/
def Strict (p : Reader ε α) : Prop :=
  ∀ s a s', p.run s = (.ok a, s') →
    ∃ used, s.bytes = used ++ s'.bytes ∧ s'.fault = s.fault ∧ Uses p used a

namespace Uses

theorem pure (a : α) : Uses (pure a : Reader ε α) [] a where
  run_append _ _ := rfl
  cut _ _ h hne := absurd (List.append_eq_nil_iff.mp h).2 hne

theorem mapErr {p : Reader ε α} {g : ε → ε'} {used : List UInt8} {a : α} (h : Uses p used a) :
    Uses (p.mapErr g) used a where
  run_append rest fault := run_mapErr_ok (h.run_append rest fault)
  cut xs ys hxy hne fault := (h.cut xs ys hxy hne fault).mapErr

section
variable {p : Reader ε α} {f : α → Reader ε β} {used₁ used₂ : List UInt8} {a : α} {b : β}
  (hp : ∀ rest fault, p.run ⟨used₁ ++ rest, fault⟩ = (.ok a, ⟨rest, fault⟩))
  (hf : Uses (f a) used₂ b)

include hp hf

/-- Behind a program that reads exactly `used₁`, whatever follows it. -/
theorem run_bind_append (rest : List UInt8) (fault : Option Str) :
    (p >>= f).run ⟨used₁ ++ used₂ ++ rest, fault⟩ = (.ok b, ⟨rest, fault⟩) := by
  rw [run_bind, List.append_assoc, hp, andThen_ok, hf.run_append]

/-- A cut behind the first part is refused. -/
theorem refuses_or_within {xs ys : List UInt8} (hxy : xs ++ ys = used₁ ++ used₂) (hys : ys ≠ [])
    (fault : Option Str) :
    Refuses (p >>= f) ⟨xs, fault⟩ ∨ ∃ mid, xs ++ mid = used₁ ∧ mid ≠ [] := by
  rcases List.append_eq_append_iff.mp hxy with ⟨mid, hused, rfl⟩ | ⟨mid, rfl, hused⟩
  · by_cases hmid : mid = []
    · -- cut exactly between the two parts: the second one sees an empty source
      subst hmid
      rw [List.append_nil] at hused
      rw [List.nil_append] at hys
      have hrun := hp [] fault
      rw [List.append_nil] at hrun
      exact .inl (Refuses.bind_of_ok (hused ▸ hrun) (hf.cut [] used₂ (List.nil_append _) hys fault))
    · exact .inr ⟨mid, hused.symm, hmid⟩
  · exact .inl (Refuses.bind_of_ok (hp mid fault) (hf.cut mid ys hused.symm hys fault))

end

theorem bind {p : Reader ε α} {f : α → Reader ε β} {used₁ used₂ : List UInt8} {a : α} {b : β}
    (hp : Uses p used₁ a) (hf : Uses (f a) used₂ b) : Uses (p >>= f) (used₁ ++ used₂) b where
  run_append := run_bind_append hp.run_append hf
  cut xs ys hxy hys fault := by
    rcases refuses_or_within hp.run_append hf hxy hys fault with hrefuse | ⟨mid, hused, hmid⟩
    · exact hrefuse
    · exact (hp.cut xs mid hused hmid fault).bind

end Uses

namespace Strict

variable {p : Reader ε α}

theorem pure (a : α) : Strict (pure a : Reader ε α) := by
  intro s b s' h
  obtain ⟨hb, rfl⟩ := Prod.mk.inj h
  obtain rfl := Outcome.ok.inj hb
  exact ⟨[], rfl, rfl, Uses.pure _⟩

theorem throw (e : ε) : Strict (throw e : Reader ε α) := by
  intro s a s' h
  cases h

theorem ofExcept (r : Except ε α) : Strict (ofExcept r) := by
  cases r with
  | ok a => exact Strict.pure a
  | error e => exact Strict.throw e

theorem panicked : Strict (panicked : Reader ε α) := by
  intro s a s' h
  cases h

theorem mapErr {g : ε → ε'} (h : Strict p) : Strict (p.mapErr g) := by
  intro s a s' hrun
  obtain ⟨used, hbytes, hfault, huses⟩ := h s a s' (run_mapErr_eq_ok hrun)
  exact ⟨used, hbytes, hfault, huses.mapErr⟩

theorem bind {f : α → Reader ε β} (hp : Strict p) (hf : ∀ a, Strict (f a)) : Strict (p >>= f) := by
  intro s b s' h
  obtain ⟨a, t, hrunp, hrunf⟩ := run_bind_ok h
  obtain ⟨used₁, hbytes₁, hfault₁, huses₁⟩ := hp s a t hrunp
  obtain ⟨used₂, hbytes₂, hfault₂, huses₂⟩ := hf a t b s' hrunf
  exact ⟨used₁ ++ used₂, by rw [hbytes₁, hbytes₂, List.append_assoc], hfault₂.trans hfault₁,
    huses₁.bind huses₂⟩

theorem readExact (n : Nat) : Strict (readExact n) := by
  intro s bs s' h
  obtain ⟨hlen, hbytes, hfault⟩ := run_readExact_ok h
  refine ⟨bs, hbytes, hfault, fun rest fault => hlen ▸ run_readExact_append bs rest fault, ?_⟩
  intro xs ys hxy hne fault
  have hpos := List.length_pos_iff.mpr hne
  have hshort : xs.length < n := by
    rw [← hlen, ← hxy, List.length_append]
    omega
  exact ⟨_, _, run_readExact_short (s := ⟨xs, fault⟩) hshort⟩

/-- What a strict reader accepts as a whole, it accepts in front of anything. -/
theorem run_append (hp : Strict p) {used : List UInt8} {a : α}
    (h : p.run ⟨used, none⟩ = (.ok a, ⟨[], none⟩)) (rest : List UInt8) (fault : Option Str) :
    p.run ⟨used ++ rest, fault⟩ = (.ok a, ⟨rest, fault⟩) := by
  obtain ⟨used', hused, -, huses⟩ := hp _ _ _ h
  obtain rfl : used = used' := hused.trans (List.append_nil used')
  exact huses.run_append rest fault

end Strict

/-! ## Strict loops

An iteration may accept a line that the end of the source has cut short, as long
as it then goes on: the next iteration finds the source empty and refuses it. -/

/-- `Uses` for one iteration, which on a cut input may also go on with nothing
    left to read. -/
structure UsesStep (p : Reader ε (Step σ α)) (used : List UInt8) (r : Step σ α) : Prop where
  run_append : ∀ rest fault, p.run ⟨used ++ rest, fault⟩ = (.ok r, ⟨rest, fault⟩)
  cut : ∀ xs ys, xs ++ ys = used → ys ≠ [] → ∀ fault,
    Refuses p ⟨xs, fault⟩ ∨ ∃ st, p.run ⟨xs, fault⟩ = (.ok (.next st), ⟨[], fault⟩)

/-- Every accepted iteration is complete, or goes on with nothing left to read. -/
def StrictStep (p : Reader ε (Step σ α)) : Prop :=
  ∀ s r s', p.run s = (.ok r, s') →
    (∃ used, s.bytes = used ++ s'.bytes ∧ s'.fault = s.fault ∧ UsesStep p used r) ∨
      (s'.bytes = [] ∧ ∃ st, r = .next st)

theorem UsesStep.bind {p : Reader ε (Step σ α)} {f : Step σ α → Reader ε β}
    {used₁ used₂ : List UInt8} {r : Step σ α} {b : β} (hp : UsesStep p used₁ r)
    (hf : Uses (f r) used₂ b) (hend : ∀ st fault, Refuses (f (.next st)) ⟨[], fault⟩) :
    Uses (p >>= f) (used₁ ++ used₂) b where
  run_append := Uses.run_bind_append hp.run_append hf
  cut xs ys hxy hys fault := by
    rcases Uses.refuses_or_within hp.run_append hf hxy hys fault with hrefuse | ⟨mid, hused, hmid⟩
    · exact hrefuse
    · rcases hp.cut xs mid hused hmid fault with hrefuse | ⟨st, hnext⟩
      · exact hrefuse.bind
      · exact Refuses.bind_of_ok hnext (hend st fault)

namespace StrictStep

/-- A step followed by a continuation that refuses an empty source. -/
theorem bind_uses {p : Reader ε (Step σ α)} {f : Step σ α → Reader ε β} (hp : StrictStep p)
    (hend : ∀ st fault, Refuses (f (.next st)) ⟨[], fault⟩) {s t s' : Source} {r : Step σ α} {b : β}
    (hrunp : p.run s = (.ok r, t)) (hrunf : (f r).run t = (.ok b, s'))
    (hf : ∃ used, t.bytes = used ++ s'.bytes ∧ s'.fault = t.fault ∧ Uses (f r) used b) :
    ∃ used, s.bytes = used ++ s'.bytes ∧ s'.fault = s.fault ∧ Uses (p >>= f) used b := by
  obtain ⟨used₂, hbytes₂, hfault₂, huses₂⟩ := hf
  obtain ⟨bytes, fault⟩ := t
  rcases hp s r _ hrunp with ⟨used₁, hbytes₁, hfault₁, huses₁⟩ | ⟨hnil, st, rfl⟩
  · exact ⟨used₁ ++ used₂, by rw [hbytes₁, hbytes₂, List.append_assoc], hfault₂.trans hfault₁,
      huses₁.bind huses₂ hend⟩
  · obtain ⟨e, u, hrefuse⟩ := hend st fault
    obtain rfl : bytes = [] := hnil
    rw [hrefuse] at hrunf
    cases hrunf

theorem bind {p : Reader ε (Step σ α)} {f : Step σ α → Reader ε β} (hp : StrictStep p)
    (hf : ∀ r, Strict (f r)) (hend : ∀ st fault, Refuses (f (.next st)) ⟨[], fault⟩) :
    Strict (p >>= f) := by
  intro s b s' h
  obtain ⟨r, t, hrunp, hrunf⟩ := run_bind_ok h
  exact hp.bind_uses hend hrunp hrunf (hf r t b s' hrunf)

variable {step : σ → Reader ε (Step σ α)}

theorem refuses_forN_bind {f : Step σ α → Reader ε β}
    (hempty : ∀ st fault, Refuses (step st) ⟨[], fault⟩)
    (hend : ∀ st fault, Refuses (f (.next st)) ⟨[], fault⟩) (n : Nat) (st : σ)
    (fault : Option Str) : Refuses (forN step n st >>= f) ⟨[], fault⟩ := by
  cases n with
  | zero => exact hend st fault
  | succ n => exact (hempty st fault).bind.bind

/-- A bounded loop is strict when what follows it refuses a loop that ran out of
    iterations. -/
theorem forN_bind {f : Step σ α → Reader ε β} (hstep : ∀ st, StrictStep (step st))
    (hempty : ∀ st fault, Refuses (step st) ⟨[], fault⟩) (hf : ∀ r, Strict (f r))
    (hend : ∀ st fault, Refuses (f (.next st)) ⟨[], fault⟩) (n : Nat) (st : σ) :
    Strict (forN step n st >>= f) := by
  induction n generalizing st with
  | zero => exact hf (.next st)
  | succ n ih =>
    rw [forN, bind_assoc]
    refine (hstep st).bind (fun r => ?_) fun st' fault => ?_
    · cases r with
      | next st' => exact ih st'
      | done a => exact hf (.done a)
    · exact refuses_forN_bind hempty hend n st' fault

theorem loop (hadv : Advances step) (hstep : ∀ st, StrictStep (step st))
    (hempty : ∀ st fault, Refuses (step st) ⟨[], fault⟩) (st : σ) : Strict (loop step st) := by
  have hend : ∀ st fault, Refuses (Reader.loop step st) ⟨[], fault⟩ := by
    intro st fault
    rw [loop_eq_bind hadv]
    exact (hempty st fault).bind
  intro s a s' h
  induction hn : s.bytes.length using Nat.strong_induction_on generalizing st s with
  | _ n ih =>
    subst hn
    rw [loop_eq_bind hadv] at h ⊢
    obtain ⟨r, t, hrun, hcont⟩ := run_bind_ok h
    refine (hstep st).bind_uses (fun st' fault => hend st' fault) hrun hcont ?_
    cases r with
    | next st' => exact ih t.bytes.length (hadv st s st' t hrun) st' t hcont rfl
    | done b => exact Strict.pure b t a s' hcont

end StrictStep

/-! ## Visited states -/

/-- The iterations of a loop that begins in one state and source come to another. -/
inductive Visits (step : σ → Reader ε (Step σ α)) : σ → Source → σ → Source → Prop where
  | refl (st : σ) (s : Source) : Visits step st s st s
  | next {st st' st'' : σ} {s s' s'' : Source} :
    (step st).run s = (.ok (.next st'), s') → Visits step st' s' st'' s'' →
      Visits step st s st'' s''

/-- From each visited state on, the loop ends as it does from the first. -/
theorem Visits.run_loop {step : σ → Reader ε (Step σ α)} (hadv : Advances step) {st st' : σ}
    {s s' : Source} (h : Visits step st s st' s') :
    (loop step st).run s = (loop step st').run s' := by
  induction h with
  | refl st s => rfl
  | next hstep _ ih => rw [run_loop_next hstep (hadv _ _ _ _ hstep), ih]

/-! ## What is left of a source -/

/-- However a run of `p` ends, the relation holds between its source and what it
    leaves of it. -/
def Keeps (R : Source → Source → Prop) (p : Reader ε α) : Prop :=
  ∀ s, R s (p.run s).2

/-- A relation that every read keeps, one after the other. -/
structure Persists (R : Source → Source → Prop) : Prop where
  refl : ∀ s, R s s
  trans : ∀ {s t u}, R s t → R t u → R s u
  readLine : Keeps R Reader.readLine
  readExact : ∀ n, Keeps R (Reader.readExact n)

namespace Persists

variable {R : Source → Source → Prop} {p : Reader ε α}

theorem pure (h : Persists R) (a : α) : Keeps R (pure a : Reader ε α) := fun s => h.refl s

theorem throw (h : Persists R) (e : ε) : Keeps R (throw e : Reader ε α) := fun s => h.refl s

theorem panicked (h : Persists R) : Keeps R (panicked : Reader ε α) := fun s => h.refl s

theorem ofExcept (h : Persists R) (r : Except ε α) : Keeps R (ofExcept r) := by
  cases r with
  | ok a => exact h.pure a
  | error e => exact h.throw e

theorem mapErr {g : ε → ε'} (hp : Keeps R p) : Keeps R (p.mapErr g) := by
  intro s
  have hs := hp s
  simp only [run, Reader.mapErr] at hs ⊢
  generalize p s = r at hs ⊢
  obtain ⟨outcome, s'⟩ := r
  cases outcome <;> exact hs

theorem bind (h : Persists R) {f : α → Reader ε β} (hp : Keeps R p) (hf : ∀ a, Keeps R (f a)) :
    Keeps R (p >>= f) := by
  intro s
  have hs := hp s
  rw [run_bind]
  match hrun : p.run s with
  | (.ok a, t) =>
    rw [hrun] at hs
    exact h.trans hs (hf a t)
  | (.err _, _) | (.panic, _) | (.hang, _) =>
    rw [hrun] at hs
    exact hs

theorem forN (h : Persists R) {step : σ → Reader ε (Step σ α)} (hstep : ∀ st, Keeps R (step st))
    (n : Nat) (st : σ) : Keeps R (forN step n st) := by
  induction n generalizing st with
  | zero => exact h.pure _
  | succ n ih =>
    refine h.bind (hstep st) fun r => ?_
    cases r with
    | next st' => exact ih st'
    | done a => exact h.pure _

theorem loop (h : Persists R) {step : σ → Reader ε (Step σ α)} (hadv : Advances step)
    (hstep : ∀ st, Keeps R (step st)) (st : σ) : Keeps R (loop step st) := by
  intro s
  induction hn : s.bytes.length using Nat.strong_induction_on generalizing st s with
  | _ n ih =>
    subst hn
    have hs := hstep st s
    rw [loop_eq_bind hadv, run_bind]
    match hrun : (step st).run s with
    | (.ok (.next st'), s') =>
      rw [hrun] at hs
      exact h.trans hs (ih _ (hadv st s st' s' hrun) st' s' rfl)
    | (.ok (.done a), s') | (.err _, _) | (.panic, _) | (.hang, _) =>
      rw [hrun] at hs
      exact hs

end Persists

theorem Keeps.of_run {R : Source → Source → Prop} {p : Reader ε α} (hp : Keeps R p) {s s' : Source}
    {r : Outcome ε α} (h : p.run s = (r, s')) : R s s' := by
  have hs := hp s
  rwa [h] at hs

/-- The iterations of a loop keep what one iteration keeps. -/
theorem Persists.visits {R : Source → Source → Prop} (h : Persists R)
    {step : σ → Reader ε (Step σ α)} (hstep : ∀ st, Keeps R (step st)) {st st' : σ} {s s' : Source}
    (hvisits : Visits step st s st' s') : R s s' := by
  induction hvisits with
  | refl st s => exact h.refl s
  | next hrun _ ih => exact h.trans ((hstep _).of_run hrun) ih

/-- A source ends the same way after any read. -/
theorem persists_fault : Persists fun s s' => s'.fault = s.fault where
  refl _ := rfl
  trans h h' := h'.trans h
  readLine := by
    intro s
    simp only [run, Reader.readLine]
    split
    · rfl
    · split <;> rfl
  readExact n := by
    intro s
    simp only [run, Reader.readExact]
    split <;> rfl

/-- A source never grows. -/
theorem persists_length : Persists fun s s' => s'.bytes.length ≤ s.bytes.length where
  refl _ := Nat.le_refl _
  trans h h' := h'.trans h
  readLine := by
    intro s
    have hrest : (splitLine s.bytes).2.length ≤ s.bytes.length := by
      have hsplit := congrArg List.length (splitLine_append s.bytes)
      rw [List.length_append] at hsplit
      omega
    simp only [run, Reader.readLine]
    split
    · exact Nat.zero_le _
    · split <;> exact hrest
  readExact n := by
    intro s
    simp only [run, Reader.readExact]
    split
    · exact (List.drop_sublist n s.bytes).length_le
    · exact Nat.zero_le _

/-! ## Consumption -/

/-- The run of `p` on `s` leaves at most `n` bytes unread. -/
def LeavesAtMost (p : Reader ε α) (s : Source) (n : Nat) : Prop :=
  (p.run s).2.bytes.length ≤ n

/-- What is left of a source is never longer than the source. -/
def Shrinks (p : Reader ε α) : Prop :=
  ∀ s, LeavesAtMost p s s.bytes.length

namespace LeavesAtMost

variable {p : Reader ε α} {s t : Source} {n : Nat}

/-- What the first part has read stays read. -/
theorem bind {f : α → Reader ε β} (hp : LeavesAtMost p s n) (hf : ∀ a, Shrinks (f a)) :
    LeavesAtMost (p >>= f) s n := by
  unfold LeavesAtMost at hp ⊢
  match hrun : p.run s with
  | (.ok a, t) =>
    rw [run_bind, hrun, andThen_ok]
    rw [hrun] at hp
    exact (hf a t).trans hp
  | (.err _, _) | (.panic, _) | (.hang, _) =>
    rw [run_bind, hrun]
    rwa [hrun] at hp

theorem bind_of_ok {f : α → Reader ε β} {a : α} (hp : p.run s = (.ok a, t))
    (hf : LeavesAtMost (f a) t n) : LeavesAtMost (p >>= f) s n := by
  unfold LeavesAtMost
  rw [run_bind, hp, andThen_ok]
  exact hf

end LeavesAtMost

namespace Shrinks

theorem pure (a : α) : Shrinks (pure a : Reader ε α) := persists_length.pure a

theorem throw (e : ε) : Shrinks (throw e : Reader ε α) := persists_length.throw e

theorem forN {step : σ → Reader ε (Step σ α)} (hstep : ∀ st, Shrinks (step st)) (n : Nat) (st : σ) :
    Shrinks (forN step n st) := persists_length.forN hstep n st

theorem loop {step : σ → Reader ε (Step σ α)} (hadv : Advances step)
    (hstep : ∀ st, Shrinks (step st)) (st : σ) : Shrinks (loop step st) :=
  persists_length.loop hadv hstep st

end Shrinks

theorem LeavesAtMost.forN_succ {step : σ → Reader ε (Step σ α)}
    (hstep : ∀ st, Shrinks (step st)) {st : σ} {s : Source} {n : Nat}
    (h : LeavesAtMost (step st) s n) (k : Nat) : LeavesAtMost (forN step (k + 1) st) s n := by
  refine h.bind fun r => ?_
  cases r with
  | next st' => exact Shrinks.forN hstep k st'
  | done a => exact Shrinks.pure _

/-- A loop leaves no more than its first iteration. -/
theorem LeavesAtMost.loop {step : σ → Reader ε (Step σ α)} (hadv : Advances step)
    (hstep : ∀ st, Shrinks (step st)) {st : σ} {s : Source} {n : Nat}
    (h : LeavesAtMost (step st) s n) : LeavesAtMost (loop step st) s n := by
  rw [loop_eq_bind hadv]
  refine h.bind fun r => ?_
  cases r with
  | next st' => exact Shrinks.loop hadv hstep st'
  | done a => exact Shrinks.pure a

end Reader
