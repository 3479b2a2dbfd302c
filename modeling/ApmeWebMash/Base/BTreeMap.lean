-- SUMMARY: Ordered maps with the interface of `std::collections::BTreeMap` that the program uses.
import Mathlib.Data.List.Pairwise
import Mathlib.Order.Defs.LinearOrder
import Mathlib.Algebra.BigOperators.Group.List.Basic
import Mathlib.Algebra.Order.Group.Nat
import Mathlib.Algebra.Ring.Nat

/-! # Ordered maps

A map is the list of its entries in strictly increasing key order, so a key
occurs at most once and iteration is in key order. The two ways the program
writes an entry, `insert` and `entry(k).and_modify(f).or_insert(v)`, are both
`upsert`. -/

/-- An ordered map: its entries, sorted by key without repetition. -/
structure BTreeMap (κ υ : Type) [LinearOrder κ] where
  entries : List (κ × υ)
  sorted : entries.Pairwise (fun a b => a.1 < b.1)
deriving DecidableEq

namespace BTreeMap

variable {κ υ : Type} [LinearOrder κ]

/-! ## Entry lists -/

/-- Put `v` under `k`, or apply `f` to the value that is there. -/
def upsertEntries (k : κ) (v : υ) (f : υ → υ) : List (κ × υ) → List (κ × υ)
  | [] => [(k, v)]
  | (k', x) :: es =>
    if k < k' then (k, v) :: (k', x) :: es
    else if k = k' then (k, f x) :: es
    else (k', x) :: upsertEntries k v f es

/-- The value of the first entry under `k`. -/
def lookupEntries (k : κ) : List (κ × υ) → Option υ
  | [] => none
  | (k', x) :: es => if k' = k then some x else lookupEntries k es

theorem mem_upsertEntries {k : κ} {v : υ} {f : υ → υ} {es : List (κ × υ)} {e : κ × υ}
    (h : e ∈ upsertEntries k v f es) :
    e ∈ es ∨ e = (k, v) ∨ ∃ x, (k, x) ∈ es ∧ e = (k, f x) := by
  induction es with
  | nil => exact .inr (.inl (List.mem_singleton.mp h))
  | cons e' es ih =>
    obtain ⟨k', x⟩ := e'
    simp only [upsertEntries] at h
    split at h
    · rcases List.mem_cons.mp h with rfl | h
      · exact .inr (.inl rfl)
      · exact .inl h
    · split at h
      · rename_i hk
        subst hk
        rcases List.mem_cons.mp h with rfl | h
        · exact .inr (.inr ⟨x, List.mem_cons_self, rfl⟩)
        · exact .inl (List.mem_cons_of_mem _ h)
      · rcases List.mem_cons.mp h with rfl | h
        · exact .inl List.mem_cons_self
        · rcases ih h with h | h | ⟨y, hy, h⟩
          · exact .inl (List.mem_cons_of_mem _ h)
          · exact .inr (.inl h)
          · exact .inr (.inr ⟨y, List.mem_cons_of_mem _ hy, h⟩)

theorem key_of_mem_upsertEntries {k : κ} {v : υ} {f : υ → υ} {es : List (κ × υ)} {e : κ × υ}
    (h : e ∈ upsertEntries k v f es) : e.1 = k ∨ ∃ e' ∈ es, e'.1 = e.1 := by
  rcases mem_upsertEntries h with h | rfl | ⟨x, _, rfl⟩
  · exact .inr ⟨e, h, rfl⟩
  · exact .inl rfl
  · exact .inl rfl

theorem sorted_upsertEntries {k : κ} {v : υ} {f : υ → υ} {es : List (κ × υ)}
    (h : es.Pairwise (fun a b => a.1 < b.1)) :
    (upsertEntries k v f es).Pairwise (fun a b => a.1 < b.1) := by
  induction es with
  | nil => exact List.pairwise_singleton _ _
  | cons e es ih =>
    obtain ⟨k', x⟩ := e
    obtain ⟨hhead, htail⟩ := List.pairwise_cons.mp h
    simp only [upsertEntries]
    split
    · rename_i hlt
      refine List.pairwise_cons.mpr ⟨fun e he => ?_, h⟩
      rcases List.mem_cons.mp he with rfl | he
      · exact hlt
      · exact hlt.trans (hhead e he)
    · split
      · rename_i hk
        subst hk
        exact List.pairwise_cons.mpr ⟨hhead, htail⟩
      · rename_i hge hne
        refine List.pairwise_cons.mpr ⟨fun e he => ?_, ih htail⟩
        -- behind the entry are its old followers and the new key, which is greater
        rcases key_of_mem_upsertEntries he with hk | ⟨e', he', hk⟩
        · rw [hk]
          exact lt_of_le_of_ne (not_lt.mp hge) (Ne.symm hne)
        · rw [← hk]
          exact hhead e' he'

theorem lookupEntries_upsertEntries (k j : κ) (v : υ) (f : υ → υ) (es : List (κ × υ))
    (h : es.Pairwise (fun a b => a.1 < b.1)) :
    lookupEntries j (upsertEntries k v f es) =
      if j = k then some ((lookupEntries k es).elim v f) else lookupEntries j es := by
  induction es with
  | nil => simp [upsertEntries, lookupEntries, eq_comm]
  | cons e es ih =>
    obtain ⟨k', x⟩ := e
    obtain ⟨hhead, htail⟩ := List.pairwise_cons.mp h
    simp only [upsertEntries]
    split
    · rename_i hlt
      -- the keys go up, so a smaller one is nowhere behind
      have hnone : lookupEntries k es = none := by
        have hlt' : ∀ e ∈ es, k < e.1 := fun e he => hlt.trans (hhead e he)
        clear ih h hhead htail
        induction es with
        | nil => rfl
        | cons e es ih' =>
          have := hlt' e List.mem_cons_self
          simp only [lookupEntries, this.ne', ↓reduceIte]
          exact ih' fun e he => hlt' e (List.mem_cons_of_mem _ he)
      by_cases hj : j = k
      · simp [lookupEntries, hj, hlt.ne', hnone]
      · simp [lookupEntries, hj, Ne.symm hj]
    · split
      · rename_i hk
        subst hk
        by_cases hj : j = k
        · simp [lookupEntries, hj]
        · simp [lookupEntries, hj, Ne.symm hj]
      · rename_i hge hne
        rw [lookupEntries, ih htail]
        by_cases hj : j = k
        · subst hj
          simp [lookupEntries, Ne.symm hne]
        · simp [lookupEntries, hj]

theorem mem_of_lookupEntries {k : κ} {v : υ} {es : List (κ × υ)}
    (h : lookupEntries k es = some v) : (k, v) ∈ es := by
  induction es with
  | nil => simp [lookupEntries] at h
  | cons e es ih =>
    obtain ⟨k', x⟩ := e
    simp only [lookupEntries] at h
    split at h
    · rename_i hk
      rw [hk, Option.some.inj h]
      exact List.mem_cons_self
    · exact List.mem_cons_of_mem _ (ih h)

/-- Without repeated keys every entry is found. -/
theorem lookupEntries_of_mem {k : κ} {v : υ} {es : List (κ × υ)} (hnodup : (es.map Prod.fst).Nodup)
    (h : (k, v) ∈ es) : lookupEntries k es = some v := by
  induction es with
  | nil => cases h
  | cons e es ih =>
    obtain ⟨hnot, hnodup⟩ := List.nodup_cons.mp hnodup
    rw [lookupEntries]
    rcases List.mem_cons.mp h with rfl | h
    · rw [if_pos rfl]
    · have hne : e.1 ≠ k := fun heq => hnot (heq ▸ List.mem_map_of_mem (f := Prod.fst) h)
      rw [if_neg hne, ih hnodup h]

theorem lookupEntries_map {υ' : Type} (f : υ → υ') (k : κ) (es : List (κ × υ)) :
    lookupEntries k (es.map fun e => (e.1, f e.2)) = (lookupEntries k es).map f := by
  induction es with
  | nil => rfl
  | cons e es ih =>
    simp only [List.map_cons, lookupEntries, ih]
    split <;> rfl

/-- Weigh the entries: an upsert adds the new entry's weight, or what the
    update adds to the old one. -/
theorem sum_upsertEntries_le {w : κ × υ → Nat} {k : κ} {v : υ} {f : υ → υ} {n : Nat}
    (hnew : w (k, v) ≤ n) (hupd : ∀ x, w (k, f x) ≤ w (k, x) + n) (es : List (κ × υ)) :
    ((upsertEntries k v f es).map w).sum ≤ (es.map w).sum + n := by
  induction es with
  | nil => simpa [upsertEntries] using hnew
  | cons e es ih =>
    obtain ⟨k', x⟩ := e
    simp only [upsertEntries]
    split
    · simp only [List.map_cons, List.sum_cons]
      omega
    · split
      · rename_i hk
        subst hk
        have := hupd x
        simp only [List.map_cons, List.sum_cons]
        omega
      · simp only [List.map_cons, List.sum_cons]
        omega

theorem length_upsertEntries_le (k : κ) (v : υ) (f : υ → υ) (es : List (κ × υ)) :
    (upsertEntries k v f es).length ≤ es.length + 1 := by
  induction es with
  | nil => exact Nat.le_refl 1
  | cons e es ih =>
    simp only [upsertEntries]
    split
    · exact Nat.le_refl _
    · split
      · exact Nat.le_succ _
      · exact Nat.succ_le_succ ih

/-! ## Maps -/

/-- The empty map. -/
def empty : BTreeMap κ υ := ⟨[], List.Pairwise.nil⟩

/-- `BTreeMap::get`. -/
def get (m : BTreeMap κ υ) (k : κ) : Option υ :=
  lookupEntries k m.entries

/-- `entry(k).and_modify(f).or_insert(v)`. -/
def upsert (m : BTreeMap κ υ) (k : κ) (v : υ) (f : υ → υ) : BTreeMap κ υ :=
  ⟨upsertEntries k v f m.entries, sorted_upsertEntries m.sorted⟩

/-- `BTreeMap::insert`. -/
def insert (m : BTreeMap κ υ) (k : κ) (v : υ) : BTreeMap κ υ :=
  m.upsert k v fun _ => v

/-- `entry(k).or_insert(v)`. -/
def orInsert (m : BTreeMap κ υ) (k : κ) (v : υ) : BTreeMap κ υ :=
  m.upsert k v id

/-- `BTreeMap::remove`. -/
def remove (m : BTreeMap κ υ) (k : κ) : BTreeMap κ υ :=
  ⟨m.entries.filter (·.1 ≠ k), m.sorted.filter _⟩

/-- `BTreeMap::from`: later entries overwrite earlier ones. -/
def ofList (es : List (κ × υ)) : BTreeMap κ υ :=
  es.foldl (fun m e => m.insert e.1 e.2) empty

@[simp] theorem get_empty (k : κ) : (empty : BTreeMap κ υ).get k = none := rfl

theorem get_upsert (m : BTreeMap κ υ) (k j : κ) (v : υ) (f : υ → υ) :
    (m.upsert k v f).get j = if j = k then some ((m.get k).elim v f) else m.get j :=
  lookupEntries_upsertEntries k j v f m.entries m.sorted

@[simp] theorem get_insert (m : BTreeMap κ υ) (k j : κ) (v : υ) :
    (m.insert k v).get j = if j = k then some v else m.get j := by
  rw [insert, get_upsert]
  cases m.get k <;> rfl

@[simp] theorem get_orInsert (m : BTreeMap κ υ) (k j : κ) (v : υ) :
    (m.orInsert k v).get j = if j = k then some ((m.get k).getD v) else m.get j := by
  rw [orInsert, get_upsert]
  cases m.get k <;> rfl

theorem get_eq_some_iff {m : BTreeMap κ υ} {k : κ} {v : υ} :
    m.get k = some v ↔ (k, v) ∈ m.entries := by
  refine ⟨mem_of_lookupEntries, fun h => ?_⟩
  obtain ⟨es, hsorted⟩ := m
  simp only [get] at h ⊢
  induction es with
  | nil => simp at h
  | cons e es ih =>
    obtain ⟨k', x⟩ := e
    obtain ⟨hhead, htail⟩ := List.pairwise_cons.mp hsorted
    rcases List.mem_cons.mp h with heq | h
    · obtain ⟨rfl, rfl⟩ := Prod.mk.inj heq
      simp [lookupEntries]
    · have hlt : k' < k := hhead (k, v) h
      simp only [lookupEntries, hlt.ne, ↓reduceIte]
      exact ih htail h

/-- The only entry under a key is the one that is found. -/
theorem filter_entries (m : BTreeMap κ υ) (k : κ) :
    m.entries.filter (fun e => e.1 = k) = ((m.get k).map fun v => (k, v)).toList := by
  obtain ⟨es, hsorted⟩ := m
  simp only [get]
  induction es with
  | nil => rfl
  | cons e es ih =>
    obtain ⟨k', x⟩ := e
    obtain ⟨hhead, htail⟩ := List.pairwise_cons.mp hsorted
    by_cases hk : k' = k
    · subst hk
      have hnone : es.filter (fun e => e.1 = k') = [] :=
        List.filter_eq_nil_iff.mpr fun e he heq => (hhead e he).ne (of_decide_eq_true heq).symm
      simp [lookupEntries, hnone]
    · rw [List.filter_cons_of_neg (by simpa using hk), ih htail, lookupEntries, if_neg hk]

/-- Entries under distinct keys are found where they stand. -/
theorem get_ofList {es : List (κ × υ)} (h : (es.map Prod.fst).Nodup) (k : κ) :
    (ofList es).get k = lookupEntries k es := by
  have hfold : ∀ (es : List (κ × υ)), (es.map Prod.fst).Nodup → ∀ m : BTreeMap κ υ,
      (es.foldl (fun m e => m.insert e.1 e.2) m).get k = (lookupEntries k es).or (m.get k) := by
    intro es
    induction es with
    | nil => exact fun _ m => rfl
    | cons e es ih =>
      intro h m
      obtain ⟨hnot, hnodup⟩ := List.nodup_cons.mp h
      rw [List.foldl_cons, ih hnodup, get_insert, lookupEntries]
      by_cases hk : k = e.1
      · have hnone : lookupEntries k es = none := by
          rw [Option.eq_none_iff_forall_ne_some]
          intro v hv
          exact hnot (hk ▸ List.mem_map_of_mem (f := Prod.fst) (mem_of_lookupEntries hv))
        rw [hnone, if_pos hk, if_pos hk.symm]
        rfl
      · rw [if_neg hk, if_neg (Ne.symm hk)]
  rw [ofList, hfold es h, get_empty, Option.or_none]

@[simp] theorem get_remove (m : BTreeMap κ υ) (k j : κ) :
    (m.remove k).get j = if j = k then none else m.get j := by
  ext v
  rw [get_eq_some_iff, remove]
  by_cases hj : j = k
  · simp [hj]
  · simp [hj, get_eq_some_iff]

end BTreeMap
