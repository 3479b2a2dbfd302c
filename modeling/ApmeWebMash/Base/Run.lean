-- SUMMARY: Runs of labelled transition systems, with the invariant rule and the decomposition of a run.
import Mathlib.Data.List.Basic
import Mathlib.Data.List.Induction

/-! # Runs

A labelled transition system is a relation `step s l t`. A run is a finite
sequence of steps, recorded by its labels in order. Invariants may mention the
labels so far, which is how a property of the history is proved. -/

variable {σ α : Type}

/-- A run from `s` with the given labels. -/
inductive Runs (step : σ → α → σ → Prop) (s : σ) : List α → σ → Prop where
  | nil : Runs step s [] s
  | snoc {ls : List α} {t u : σ} {l : α} :
    Runs step s ls t → step t l u → Runs step s (ls ++ [l]) u

namespace Runs

variable {step : σ → α → σ → Prop} {s t u : σ} {ls ms : List α} {l : α}

/-- What holds of the empty run and survives every step holds of every run. -/
theorem invariant {I : List α → σ → Prop} (hinit : I [] s)
    (hstep : ∀ ls t l u, I ls t → step t l u → I (ls ++ [l]) u) (h : Runs step s ls t) : I ls t := by
  induction h with
  | nil => exact hinit
  | snoc _ hlast ih => exact hstep _ _ _ _ ih hlast

/-- What every step extends by what its label contributes is, after a run, the
    contributions of its labels in order. -/
theorem contributions {β : Type} {m : σ → List β} {c : α → List β} (hinit : m s = [])
    (hstep : ∀ t l u, step t l u → m u = m t ++ c l) (h : Runs step s ls t) :
    m t = ls.flatMap c := by
  refine h.invariant (I := fun ls t => m t = ls.flatMap c) hinit ?_
  intro ls t l u hprev hlast
  rw [hstep t l u hlast, hprev, List.flatMap_append, List.flatMap_singleton]

/-- A run of a step function. -/
theorem of_foldlM {f : σ → α → Option σ} (h : ls.foldlM f s = some t) :
    Runs (fun s l t => f s l = some t) s ls t := by
  induction ls using List.reverseRecOn generalizing t with
  | nil =>
    obtain rfl := Option.some.inj h
    exact .nil
  | append_singleton ls l ih =>
    rw [List.foldlM_append] at h
    obtain ⟨u, hu, hlast⟩ := Option.bind_eq_some_iff.mp h
    rw [List.foldlM_cons] at hlast
    obtain ⟨v, hv, hlast⟩ := Option.bind_eq_some_iff.mp hlast
    obtain rfl := Option.some.inj hlast
    exact (ih hu).snoc hv

/-- A run passes through the state in which a given label of it is taken. -/
theorem exists_step (h : Runs step s (ls ++ l :: ms) u) :
    ∃ t t', Runs step s ls t ∧ step t l t' ∧ Runs step t' ms u := by
  generalize hall : ls ++ l :: ms = all at h
  induction h generalizing ms with
  | nil => simp at hall
  | @snoc ks t u k hrun hlast ih =>
    rcases List.eq_nil_or_concat' ms with rfl | ⟨ms', m, rfl⟩
    · obtain ⟨rfl, hl⟩ := List.append_inj' hall rfl
      obtain rfl := List.singleton_inj.mp hl
      exact ⟨t, u, hrun, hlast, .nil⟩
    · rw [← List.cons_append, ← List.append_assoc] at hall
      obtain ⟨hks, hk⟩ := List.append_inj' hall rfl
      obtain rfl := List.singleton_inj.mp hk
      obtain ⟨v, v', hv, hmid, hv'⟩ := ih hks
      exact ⟨v, v', hv, hmid, hv'.snoc hlast⟩

end Runs
